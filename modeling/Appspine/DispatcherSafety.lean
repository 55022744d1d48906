import Appspine.DispatcherLease

/-!
# What every interleaving of dispatchers guarantees

The delivery state machine over arbitrary runs, and how far a handler call is covered by
the lease of the worker that makes it.
-/
namespace Appspine.Delivery
open JsText StableSort Transitions

variable {W : Type*} [DecidableEq W] {options : DomainEventDispatcherOptions}
  {s t : DispatchState W} {a : Action W}

/-- The row of this id is not under this lease. -/
def LeaseLost (id leaseId : JsString) (s : DispatchState W) : Prop :=
  leaseId ∈ s.leases ∧ ∀ row ∈ s.table, row.id = id → row.lockedBy ≠ some leaseId

/-- A lease that was handed out before is never handed out for the row again. -/
lemma leaseLost_step (hi : LeaseInvariant options s) (h : step options s a = some t)
    {id leaseId : JsString} (hl : LeaseLost id leaseId s) : LeaseLost id leaseId t := by
  refine ⟨leases_subset_step h hl.1, ?_⟩
  intro row hrow hid hb
  rcases lockedBy_step hi h hrow hb with hold | ⟨_, _, _, hfresh⟩
  · exact hl.2 row hold hid hb
  · exact hfresh hl.1

lemma leaseLost_run {as : List (Action W)} (hi : LeaseInvariant options s)
    (h : run (step options) s as = some t) {id leaseId : JsString} (hl : LeaseLost id leaseId s) :
    LeaseLost id leaseId t := by
  have hpair : LeaseInvariant options t ∧ LeaseLost id leaseId t := by
    apply run_invariant (P := fun s => LeaseInvariant options s ∧ LeaseLost id leaseId s) _ ⟨hi, hl⟩ h
    intro s a t hp hstep
    exact ⟨leaseInvariant_step hp.1 hstep, leaseLost_step hp.1 hstep hp.2⟩
  exact hpair.2

omit [DecidableEq W] in
/-- The guarded update does nothing once the lease is lost. -/
lemma completeDelivery_of_lost {delivery : DomainEventDelivery} {leaseId : JsString}
    (hl : LeaseLost delivery.id leaseId s) (hb : delivery.lockedBy = some leaseId)
    (data : DeliveryCompletionData) : completeDelivery delivery data s.table = s.table := by
  unfold completeDelivery updateMany
  conv_rhs => rw [← List.map_id s.table]
  apply List.map_congr_left
  intro row hrow
  rw [if_neg, id]
  simp only [hb, Option.getD_some, Bool.and_eq_true, decide_eq_true_eq, not_and]
  intro hid
  exact hl.2 row hrow hid.1

/-- A reclaim that changes a row takes its lease away. -/
lemma leaseLost_reclaim (hi : LeaseInvariant options s) {w : W} {statement : Reclaim}
    (h : step options s (.reclaim w statement) = some t) {row : DomainEventDelivery}
    (hrow : row ∈ s.table) {leaseId : JsString} (hb : row.lockedBy = some leaseId)
    (hchanged : row ∉ t.table) : LeaseLost row.id leaseId t := by
  refine ⟨leases_subset_step h (hi.issued row hrow leaseId hb), ?_⟩
  intro row' hrow' hid hb'
  rcases lockedBy_step hi h hrow' hb' with hold | ⟨_, _, ha, _⟩
  · rw [eq_of_id_eq hi.ids hold hrow hid] at hrow'
    exact hchanged hrow'
  · cases ha

/-- What holds of rows, leases and completions in a state of the system. -/
structure DeliveryStateMachine (options : DomainEventDispatcherOptions) (s : DispatchState W) :
    Prop where
  ids : (s.table.map (fun row => row.id)).Nodup
  locked : ∀ row ∈ s.table,
    row.status = .PROCESSING ↔ row.lockedAt ≠ none ∧ row.lockedBy ≠ none
  exclusive : ∀ w w', w ≠ w' → ∀ delivery ∈ (s.phase w).held, ∀ other ∈ (s.phase w').held,
    ∀ row ∈ s.table, delivery.id = row.id → other.id = row.id →
      ¬ (delivery.lockedBy = row.lockedBy ∧ other.lockedBy = row.lockedBy)
  final : ∀ as t, run (step options) s as = some t → ∀ row ∈ s.table,
    row.status = .PROCESSED ∨ row.status = .IGNORED → row ∈ t.table
  deadLetter : ∀ a t, step options s a = some t → ∀ row ∈ s.table, row.status = .DEAD_LETTER →
    (∀ action, a ≠ .admin action row.id) → row ∈ t.table
  superseded : ∀ w statement t, step options s (.reclaim w statement) = some t →
    ∀ row ∈ s.table, ∀ leaseId, row.lockedBy = some leaseId → row ∉ t.table →
      ∀ as u, run (step options) t as = some u →
        ∀ w' delivery queue data caught, u.phase w' = .completing delivery queue data caught →
          delivery.id = row.id → delivery.lockedBy = some leaseId →
            ∀ a v, (a = .complete w' ∨ ∃ applied message, a = .completionFails w' applied message) →
              step options u a = some v → v.table = u.table

/-- Of a finished row a step can only keep every column. -/
lemma final_step (hi : LeaseInvariant options s) (h : step options s a = some t)
    {row : DomainEventDelivery} (hrow : row ∈ s.table)
    (hfinal : row.status = .PROCESSED ∨ row.status = .IGNORED) : row ∈ t.table := by
  obtain ⟨row', hrow', hc⟩ := exists_table_step hi.ids h hrow
  cases hc with
  | kept => exact hrow'
  | reclaimed _ hstale =>
    have hs := (reclaims_iff hstale).1
    simp [hs] at hfinal
  | claimed _ hdue => simp [isDue_status hdue] at hfinal
  | completed _ _ _ _ _ hs _ => simp [hs] at hfinal
  | admin hs => simp [hs] at hfinal

lemma deadLetter_step (hi : LeaseInvariant options s) (h : step options s a = some t)
    {row : DomainEventDelivery} (hrow : row ∈ s.table) (hdead : row.status = .DEAD_LETTER)
    (hadmin : ∀ action, a ≠ .admin action row.id) : row ∈ t.table := by
  obtain ⟨row', hrow', hc⟩ := exists_table_step hi.ids h hrow
  cases hc with
  | kept => exact hrow'
  | reclaimed _ hstale => simp [(reclaims_iff hstale).1] at hdead
  | claimed _ hdue => simp [isDue_status hdue] at hdead
  | completed _ _ _ _ _ hs _ => simp [hs] at hdead
  | admin _ => exact absurd rfl (hadmin _)

lemma completion_step {w : W} {delivery : DomainEventDelivery}
    {queue : List DomainEventDelivery} {data : DeliveryCompletionData} {caught : Bool}
    (hp : s.phase w = .completing delivery queue data caught)
    (ha : a = .complete w ∨ ∃ applied message, a = .completionFails w applied message)
    (h : step options s a = some t) :
    t.table = completeDelivery delivery data s.table ∨ t.table = s.table := by
  rcases ha with rfl | ⟨applied, message, rfl⟩
  · simp only [step, hp, Option.some.injEq] at h
    rw [← h]
    exact .inl rfl
  · simp only [step, hp, Option.some.injEq] at h
    rw [← h]
    cases applied
    · exact .inr rfl
    · exact .inl rfl

theorem LeaseInvariant.stateMachine (hi : LeaseInvariant options s) :
    DeliveryStateMachine options s where
  ids := hi.ids
  locked := by
    intro row hrow
    have hshape := hi.shape row hrow
    constructor
    · intro hs
      exact ⟨hshape.lockedAt.mp hs, hshape.lockedBy.mp hs⟩
    · rintro ⟨hl, _⟩
      exact hshape.lockedAt.mpr hl
  exclusive := by
    rintro w w' hne delivery hd other ho row _ _ _ ⟨heq, heq'⟩
    exact hne (hi.owner w w' delivery hd other ho (heq.trans heq'.symm))
  final := by
    intro as t h row hrow hfinal
    have hpair : LeaseInvariant options t ∧ row ∈ t.table := by
      apply run_invariant (P := fun s => LeaseInvariant options s ∧ row ∈ s.table) _ ⟨hi, hrow⟩ h
      intro s a t hp hstep
      exact ⟨leaseInvariant_step hp.1 hstep, final_step hp.1 hstep hp.2 hfinal⟩
    exact hpair.2
  deadLetter := by
    intro a t h row hrow hdead hadmin
    exact deadLetter_step hi h hrow hdead hadmin
  superseded := by
    intro w statement t h row hrow leaseId hb hchanged as u hu w' delivery queue data caught hp hid
      hlease a v ha hv
    have hlost := leaseLost_run (leaseInvariant_step hi h) hu (leaseLost_reclaim hi h hrow hb hchanged)
    rcases completion_step hp ha hv with hc | hc
    · rw [hc]
      exact completeDelivery_of_lost (hid ▸ hlost) hlease data
    · exact hc

section Example

/-- Nothing recorded, two workers between their ticks. -/
def emptyState : DispatchState Bool where
  now := 0
  table := []
  phase := fun _ => .idle
  leases := []

lemma initial_emptyState : Initial emptyState where
  ids := List.nodup_nil
  recorded := by simp [emptyState]
  idle := fun _ => rfl
  leases := rfl

def exampleEvent : DomainEventRecord := ⟨js "e1", 1, none⟩

/-- One worker claims two deliveries, and stays with the first beyond the stale lock timeout;
another one reclaims and finishes both. -/
def staleBatch : List (Action Bool) :=
  [.record exampleEvent [(js "d1", js "audit-record"), (js "d2", js "notify")],
    .start false, .reclaim false .terminal, .reclaim false .retry, .claim false (js "w1") [],
    .process false true .enabled, .advance 300001,
    .start true, .reclaim true .retry, .reclaim true .terminal, .claim true (js "w2") [],
    .process true true .enabled, .outcome true .handled, .complete true,
    .process true true .enabled, .outcome true .handled, .complete true,
    .outcome false .handled, .complete false]

/-- The second delivery, as the first worker claimed it. -/
def staleDelivery : DomainEventDelivery :=
  claimed 0 (js "w1") (recordedDelivery exampleEvent (js "d2") (js "notify"))

/-- The run reaches a state in which the second delivery is done and free of any lock, with
the first worker about to take it up. -/
lemma run_staleBatch : ∃ s, run (step DEFAULT_DISPATCHER_OPTIONS) emptyState staleBatch = some s ∧
    s.phase false = .working [staleDelivery] ∧
    (∀ row ∈ s.table, row.id = staleDelivery.id → row.lockedBy = none) ∧
    ∃ row ∈ s.table, row.id = staleDelivery.id ∧ row.status = .PROCESSED := by
  have hrun : ∃ table, (run (step DEFAULT_DISPATCHER_OPTIONS) emptyState staleBatch).map
      (fun s => (s.table, s.phase false)) = some (table, .working [staleDelivery]) ∧
      (∀ row ∈ table, row.id = staleDelivery.id → row.lockedBy = none) ∧
      ∃ row ∈ table, row.id = staleDelivery.id ∧ row.status = .PROCESSED := by
    refine ⟨((run (step DEFAULT_DISPATCHER_OPTIONS) emptyState staleBatch).map
      (fun s => s.table)).getD [], ?_, ?_, ?_⟩ <;> decide +kernel
  obtain ⟨table, hrun, hfree, hdone⟩ := hrun
  obtain ⟨s, hs, hst⟩ := Option.map_eq_some_iff.mp hrun
  rw [Prod.mk.injEq] at hst
  obtain ⟨rfl, hp⟩ := hst
  exact ⟨s, hs, hp, hfree, hdone⟩

lemma invokes_staleDelivery {s : DispatchState Bool} (hp : s.phase false = .working [staleDelivery]) :
    Invokes DEFAULT_DISPATCHER_OPTIONS s (.process false true .enabled)
      (s.setPhase false (.handling staleDelivery [])) false staleDelivery := by
  refine ⟨?_, [], hp, by simp [DispatchState.setPhase]⟩
  simp only [step, hp]
  rfl

end Example

theorem deliveryStateMachine {s₀ : DispatchState W} {as : List (Action W)} (h₀ : Initial s₀)
    (h : run (step options) s₀ as = some s) : DeliveryStateMachine options s :=
  (leaseInvariant_run (LeaseInvariant.initial h₀) h).stateMachine

theorem deliveryStateMachine_staleBatch : ∃ s,
    run (step DEFAULT_DISPATCHER_OPTIONS) emptyState staleBatch = some s ∧
      DeliveryStateMachine DEFAULT_DISPATCHER_OPTIONS s := by
  obtain ⟨s, hs, _⟩ := run_staleBatch
  exact ⟨s, hs, deliveryStateMachine initial_emptyState hs⟩

/-- A handler is called on the row as it was claimed, lease included, unless the claim lies
more than `staleLockMs` back. -/
theorem invokes_live_or_overdue {s₀ : DispatchState W} {as : List (Action W)} (h₀ : Initial s₀)
    (h : run (step options) s₀ as = some s) {w : W} {delivery : DomainEventDelivery}
    (hinv : Invokes options s a t w delivery) :
    (delivery ∈ s.table ∧ HoldsLease s delivery) ∨ Overdue options s delivery := by
  have hi : LeaseInvariant options s := leaseInvariant_run (LeaseInvariant.initial h₀) h
  obtain ⟨_, queue, hp, _⟩ := hinv
  have hwait : delivery ∈ (s.phase w).waiting := by
    rw [hp]
    exact List.mem_cons_self
  have hheld : delivery ∈ (s.phase w).held := (waiting_sublist_held _).subset hwait
  rcases hi.live w delivery hwait with hrow | hover
  · exact .inl ⟨hrow, delivery, hrow, rfl, (hi.snapshot w delivery hheld).1, rfl⟩
  · exact .inr hover

theorem invokes_live_or_overdue_staleBatch : ∃ s t,
    run (step DEFAULT_DISPATCHER_OPTIONS) emptyState staleBatch = some s ∧
      Invokes DEFAULT_DISPATCHER_OPTIONS s (.process false true .enabled) t false staleDelivery ∧
      ((staleDelivery ∈ s.table ∧ HoldsLease s staleDelivery) ∨
        Overdue DEFAULT_DISPATCHER_OPTIONS s staleDelivery) := by
  obtain ⟨s, hs, hp, _⟩ := run_staleBatch
  exact ⟨s, _, hs, invokes_staleDelivery hp,
    invokes_live_or_overdue initial_emptyState hs (invokes_staleDelivery hp)⟩

/-- The handler of a reclaimed delivery is called although another worker has processed it. -/
theorem invokes_processed_row : ∃ s t, Initial emptyState ∧
    run (step DEFAULT_DISPATCHER_OPTIONS) emptyState staleBatch = some s ∧
    Invokes DEFAULT_DISPATCHER_OPTIONS s (.process false true .enabled) t false staleDelivery ∧
    ¬ HoldsLease s staleDelivery ∧
    ∃ row ∈ s.table, row.id = staleDelivery.id ∧ row.status = .PROCESSED := by
  obtain ⟨s, hs, hp, hfree, hdone⟩ := run_staleBatch
  refine ⟨s, _, initial_emptyState, hs, invokes_staleDelivery hp, ?_, hdone⟩
  rintro ⟨row, hrow, hid, _, hb⟩
  rw [hfree row hrow hid] at hb
  cases hb

end Appspine.Delivery
