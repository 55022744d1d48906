import Appspine.DispatcherSafety

/-!
# The attempt budget

Reclaims, failures and released deliveries keep `attempts` within `maxAttempts`. An admin
retry carries the count of the dead letter over, and is the one step that can break the bound.
-/
namespace Appspine.Delivery
open JsText StableSort Transitions

variable {W : Type*} [DecidableEq W] {options : DomainEventDispatcherOptions}
  {s t : DispatchState W} {a : Action W}

/-- No row is over the budget, and a pending row has an attempt left. -/
def WithinBudget (options : DomainEventDispatcherOptions) (s : DispatchState W) : Prop :=
  ∀ row ∈ s.table, (row.attempts : ℤ) ≤ options.maxAttempts ∧
    (row.status = .PENDING → (row.attempts : ℤ) < options.maxAttempts)

/-- The step is no retry of a dead letter that has used up its attempts. -/
def RetriesWithinBudget (options : DomainEventDispatcherOptions) (s : DispatchState W)
    (a : Action W) : Prop :=
  ∀ row ∈ s.table, a = .admin .RETRY_DELIVERY row.id → row.status = .DEAD_LETTER →
    (row.attempts : ℤ) < options.maxAttempts

/-- A row the dispatcher may still attempt has an attempt left. -/
structure RowBudget (options : DomainEventDispatcherOptions) (row : DomainEventDelivery) : Prop where
  bound : (row.attempts : ℤ) ≤ options.maxAttempts
  pending : row.status = .PENDING → (row.attempts : ℤ) < options.maxAttempts
  processing : row.status = .PROCESSING → (row.attempts : ℤ) < options.maxAttempts

structure BudgetInvariant (options : DomainEventDispatcherOptions) (s : DispatchState W) : Prop where
  rows : ∀ row ∈ s.table, RowBudget options row
  held : ∀ w, ∀ delivery ∈ (s.phase w).held, (delivery.attempts : ℤ) < options.maxAttempts
  data : ∀ w delivery queue data caught, s.phase w = .completing delivery queue data caught →
    ∀ row, RowBudget options row → RowBudget options (row.apply data)

section Completions

variable {row delivery : DomainEventDelivery} {now : ℤ}

lemma rowBudget_recorded (hmax : 1 ≤ options.maxAttempts) (event : DomainEventRecord)
    (id handlerKey : JsString) : RowBudget options (recordedDelivery event id handlerKey) := by
  constructor <;> simp only [recordedDelivery, Nat.cast_zero] <;> omega

lemma rowBudget_claimed (hr : RowBudget options row) (hdue : isDue now row = true)
    (leaseId : JsString) : RowBudget options (claimed now leaseId row) where
  bound := hr.bound
  pending := fun _ => hr.pending (isDue_status hdue)
  processing := fun _ => hr.pending (isDue_status hdue)

/-- A reclaim counts one attempt, and ends the delivery when that was the last. -/
lemma rowBudget_reclaimed (hr : RowBudget options row) {staleBefore : ℤ} {statement : Reclaim}
    (h : reclaims options staleBefore row statement = true) :
    RowBudget options (reclaimed row statement) := by
  have hlt := hr.processing (reclaims_iff h).1
  cases statement with
  | terminal =>
    constructor <;> simp [reclaimed, DomainEventDelivery.apply]
    omega
  | retry =>
    simp only [reclaims, Bool.and_eq_true, decide_eq_true_eq] at h
    constructor <;> simp [reclaimed, DomainEventDelivery.apply] <;> omega

lemma rowBudget_markFailed (hd : (delivery.attempts : ℤ) < options.maxAttempts) (error : Failure) :
    RowBudget options (row.apply (markFailed options now delivery error)) := by
  by_cases hterminal : options.maxAttempts ≤ (delivery.attempts : ℤ) + 1
  · constructor <;> simp [markFailed, DomainEventDelivery.apply, hterminal]
    omega
  · constructor <;> simp [markFailed, DomainEventDelivery.apply, hterminal] <;> omega

lemma rowBudget_settle (hr : RowBudget options row)
    (hd : (delivery.attempts : ℤ) < options.maxAttempts) (result : HandlerOutcome) :
    RowBudget options (row.apply (settle options now delivery result)) := by
  have hbound := hr.bound
  cases result with
  | failed error => exact rowBudget_markFailed hd error
  | handled => constructor <;> simp [settle, DomainEventDelivery.apply, hbound]
  | ignored message => constructor <;> simp [settle, DomainEventDelivery.apply, hbound]
  | terminal message => constructor <;> simp [settle, DomainEventDelivery.apply, hbound]

lemma rowBudget_admission (hr : RowBudget options row)
    (hd : (delivery.attempts : ℤ) < options.maxAttempts) {registered : Bool}
    {binding : BindingCheck} {data : DeliveryCompletionData} {caught : Bool}
    (h : admission options now delivery registered binding = .finish data caught) :
    RowBudget options (row.apply data) := by
  have hbound := hr.bound
  unfold admission at h
  split at h
  · split at h
    · cases h
    · cases h
    · cases h
      constructor <;> simp [bindingDisabled, DomainEventDelivery.apply] <;> omega
    · cases h
      exact rowBudget_markFailed hd _
  · cases h
    constructor <;> simp [missingHandler, DomainEventDelivery.apply, hbound]

/-- A retry keeps the count, so it needs an attempt to be left. -/
lemma rowBudget_admin (hr : RowBudget options row) {action : AdminAction}
    (hleft : action = .RETRY_DELIVERY → (row.attempts : ℤ) < options.maxAttempts) :
    RowBudget options (row.apply (adminData now action)) := by
  have hbound := hr.bound
  cases action with
  | RETRY_DELIVERY =>
    have hlt := hleft rfl
    constructor <;> simp [adminData, DomainEventDelivery.apply, hbound, hlt]
  | IGNORE_DELIVERY => constructor <;> simp [adminData, DomainEventDelivery.apply, hbound]

end Completions

section Preservation

omit [DecidableEq W] in
lemma BudgetInvariant.initial (hmax : 1 ≤ options.maxAttempts) (h : Initial s) :
    BudgetInvariant options s where
  rows := by
    intro row hrow
    rw [h.recorded row hrow]
    exact rowBudget_recorded hmax _ _ _
  held := by
    intro w delivery hd
    rw [h.idle w] at hd
    cases hd
  data := by
    intro w delivery queue data caught hp
    rw [h.idle w] at hp
    cases hp

lemma rows_step (hmax : 1 ≤ options.maxAttempts) (hi : LeaseInvariant options s)
    (hb : BudgetInvariant options s) (hok : RetriesWithinBudget options s a)
    (h : step options s a = some t) : ∀ row ∈ t.table, RowBudget options row := by
  intro row' hrow'
  rcases mem_table_step hi.ids h hrow' with ⟨row, hrow, hc⟩ | hnew
  · cases hc with
    | kept => exact hb.rows _ hrow
    | reclaimed _ hstale => exact rowBudget_reclaimed (hb.rows _ hrow) hstale
    | claimed _ hdue => exact rowBudget_claimed (hb.rows _ hrow) hdue _
    | completed _ _ hp _ _ _ _ => exact hb.data _ _ _ _ _ hp _ (hb.rows _ hrow)
    | admin hdead =>
      apply rowBudget_admin (hb.rows _ hrow)
      rintro rfl
      exact hok _ hrow rfl hdead
  · obtain ⟨event, he⟩ := addedRows_recorded hnew
    rw [he]
    exact rowBudget_recorded hmax _ _ _

lemma held_budget_step (hi : LeaseInvariant options s) (hb : BudgetInvariant options s)
    (h : step options s a = some t) (w : W) :
    ∀ delivery ∈ (t.phase w).held, (delivery.attempts : ℤ) < options.maxAttempts := by
  intro delivery hd
  rcases held_step h w with ⟨hsub, _⟩ | ⟨leaseId, locked, _, _, hheld, _⟩
  · exact hb.held w delivery (hsub.subset hd)
  · rw [hheld] at hd
    obtain ⟨_, row, hrow, hdue, rfl⟩ := mem_claimDueDeliveries hi.ids hd
    rw [claimed_attempts]
    exact (hb.rows row hrow).pending (isDue_status hdue)

lemma data_step (hb : BudgetInvariant options s) (h : step options s a = some t) (w : W)
    (delivery : DomainEventDelivery) (queue : List DomainEventDelivery)
    (data : DeliveryCompletionData) (caught : Bool)
    (hp : t.phase w = .completing delivery queue data caught) (row : DomainEventDelivery)
    (hr : RowBudget options row) : RowBudget options (row.apply data) := by
  rcases completing_step h hp with hold | ⟨hheld, ⟨_, _, _, hv⟩ | ⟨result, rfl⟩⟩
  · exact hb.data w delivery queue data caught hold row hr
  · exact rowBudget_admission hr (hb.held w delivery hheld) hv
  · exact rowBudget_settle hr (hb.held w delivery hheld) result

theorem budgetInvariant_step (hmax : 1 ≤ options.maxAttempts) (hi : LeaseInvariant options s)
    (hb : BudgetInvariant options s) (hok : RetriesWithinBudget options s a)
    (h : step options s a = some t) : BudgetInvariant options t where
  rows := rows_step hmax hi hb hok h
  held := held_budget_step hi hb h
  data := data_step hb h

end Preservation

/-- A retry puts the dead letter back with the attempts it has. -/
lemma retry_step (options : DomainEventDispatcherOptions) {row : DomainEventDelivery} (hrow : row ∈ s.table)
    (hdead : row.status = .DEAD_LETTER) :
    ∃ t, step options s (.admin .RETRY_DELIVERY row.id) = some t ∧
      ∃ row' ∈ t.table, row'.status = .PENDING ∧ row'.attempts = row.attempts := by
  have hfound : ¬ s.table.all (fun r => r.id ≠ row.id) = true := by
    intro hall
    have hne := List.all_eq_true.mp hall row hrow
    simp at hne
  have hletter : s.table.any (isDeadLetter row.id) = true :=
    List.any_eq_true.mpr ⟨row, hrow, by simp [isDeadLetter, hdead]⟩
  refine ⟨{ s with
    table := updateMany s.table (isDeadLetter row.id)
      (fun row => row.apply (adminData s.now .RETRY_DELIVERY)) }, ?_, ?_⟩
  · simp only [step, updateDeadLetterDelivery]
    rw [if_neg hfound, if_pos hletter]
  · refine ⟨row.apply (adminData s.now .RETRY_DELIVERY), ?_, rfl, rfl⟩
    apply List.mem_map.mpr
    exact ⟨row, hrow, by simp [isDeadLetter, hdead]⟩

/-- Every state of a run is within the budget exactly when no retry of the run takes up a
dead letter that has used up its attempts. -/
theorem withinBudget_iff (hmax : 1 ≤ options.maxAttempts) {s₀ : DispatchState W} (h₀ : Initial s₀)
    (as : List (Action W)) :
    Throughout (step options) (WithinBudget options) s₀ as ↔
      Steps (step options) (RetriesWithinBudget options) s₀ as := by
  constructor
  · clear h₀
    intro h
    induction as generalizing s₀ with
    | nil => trivial
    | cons a as ih =>
      refine ⟨?_, fun t ht => ih (h.2 t ht)⟩
      rintro row hrow rfl hdead
      obtain ⟨t, ht, row', hrow', hpending, hattempts⟩ := retry_step options hrow hdead
      have hbudget : WithinBudget options t := (h.2 t ht).head
      rw [← hattempts]
      exact (hbudget row' hrow').2 hpending
  · intro hok
    have hinit : LeaseInvariant options s₀ ∧ BudgetInvariant options s₀ :=
      ⟨LeaseInvariant.initial h₀, BudgetInvariant.initial hmax h₀⟩
    have hrun := throughout_of_steps
      (P := fun s => LeaseInvariant options s ∧ BudgetInvariant options s)
      (fun s a t hp hok h => ⟨leaseInvariant_step hp.1 h, budgetInvariant_step hmax hp.1 hp.2 hok h⟩)
      hinit hok
    apply hrun.mono
    intro s hp row hrow
    exact ⟨(hp.2.rows row hrow).bound, (hp.2.rows row hrow).pending⟩

section Example

/-- A tick in which the handler of the one delivery fails, and the wait for the next attempt. -/
def failingTick (leaseId : JsString) : List (Action Bool) :=
  [.start false, .reclaim false .terminal, .reclaim false .retry, .claim false leaseId [],
    .process false true .enabled, .outcome false (.failed ⟨js "unreachable", none⟩), .complete false,
    .advance 3600000]

/-- A delivery fails eight times, and an operator retries the dead letter. -/
def retriedDeadLetter : List (Action Bool) :=
  [.record exampleEvent [(js "d1", js "webhook.post")]] ++
    ["w1", "w2", "w3", "w4", "w5", "w6", "w7", "w8"].flatMap (fun leaseId => failingTick (js leaseId)) ++
    [.admin .RETRY_DELIVERY (js "d1")]

end Example

theorem withinBudget_iff_staleBatch :
    Throughout (step DEFAULT_DISPATCHER_OPTIONS) (WithinBudget DEFAULT_DISPATCHER_OPTIONS)
      emptyState staleBatch ↔
      Steps (step DEFAULT_DISPATCHER_OPTIONS) (RetriesWithinBudget DEFAULT_DISPATCHER_OPTIONS)
        emptyState staleBatch :=
  withinBudget_iff (by decide) initial_emptyState staleBatch

/-- The retried dead letter is pending with no attempt left. -/
theorem retry_exhausted : Initial emptyState ∧ ∃ s,
    run (step DEFAULT_DISPATCHER_OPTIONS) emptyState retriedDeadLetter = some s ∧
      ¬ WithinBudget DEFAULT_DISPATCHER_OPTIONS s := by
  have hrun : ∃ table, (run (step DEFAULT_DISPATCHER_OPTIONS) emptyState retriedDeadLetter).map
      (fun s => s.table) = some table ∧
      ∃ row ∈ table, row.status = .PENDING ∧ row.attempts = 8 := by
    refine ⟨((run (step DEFAULT_DISPATCHER_OPTIONS) emptyState retriedDeadLetter).map
      (fun s => s.table)).getD [], ?_, ?_⟩ <;> decide +kernel
  obtain ⟨table, hrun, row, hrow, hpending, hattempts⟩ := hrun
  obtain ⟨s, hs, rfl⟩ := Option.map_eq_some_iff.mp hrun
  refine ⟨initial_emptyState, s, hs, ?_⟩
  intro hbudget
  have hlt := (hbudget row hrow).2 hpending
  rw [hattempts] at hlt
  exact absurd hlt (by decide)

end Appspine.Delivery
