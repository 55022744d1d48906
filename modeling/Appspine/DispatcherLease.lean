import Appspine.Dispatcher

/-!
# Leases

A lease belongs to the worker that was handed it, a row under a lease is the row as it
was claimed, and a lease a row has lost never comes back to it.
-/
namespace Appspine.Delivery
open JsText StableSort Transitions

variable {W : Type*} [DecidableEq W] {options : DomainEventDispatcherOptions}
  {s t : DispatchState W} {a : Action W}

section Data

/-- A completion puts the row down: out of `PROCESSING` and without its lock. -/
structure Releases (data : DeliveryCompletionData) : Prop where
  status : ∃ status, data.status = some status ∧ status ≠ .PROCESSING
  lockedAt : data.lockedAt = some none
  lockedBy : data.lockedBy = some none

lemma releases_markFailed (now : ℤ) (delivery : DomainEventDelivery) (error : Failure) :
    Releases (markFailed options now delivery error) where
  status := by
    refine ⟨_, rfl, ?_⟩
    split_ifs <;> simp
  lockedAt := rfl
  lockedBy := rfl

lemma releases_settle (now : ℤ) (delivery : DomainEventDelivery) (result : HandlerOutcome) :
    Releases (settle options now delivery result) := by
  cases result with
  | handled => exact ⟨⟨_, rfl, by simp⟩, rfl, rfl⟩
  | ignored message => exact ⟨⟨_, rfl, by simp⟩, rfl, rfl⟩
  | terminal message => exact ⟨⟨_, rfl, by simp⟩, rfl, rfl⟩
  | failed error => exact releases_markFailed now delivery error

lemma releases_admission {now : ℤ} {delivery : DomainEventDelivery} {registered : Bool}
    {binding : BindingCheck} {data : DeliveryCompletionData} {caught : Bool}
    (h : admission options now delivery registered binding = .finish data caught) : Releases data := by
  unfold admission at h
  split at h
  · split at h
    · cases h
    · cases h
    · cases h
      exact ⟨⟨_, rfl, by simp⟩, rfl, rfl⟩
    · cases h
      exact releases_markFailed now delivery _
  · cases h
    exact ⟨⟨_, rfl, by simp⟩, rfl, rfl⟩

lemma releases_adminData (now : ℤ) (action : AdminAction) : Releases (adminData now action) := by
  cases action <;> exact ⟨⟨_, rfl, by simp⟩, rfl, rfl⟩

/-- A row is `PROCESSING` exactly while it carries a lock, and the lock is whole. -/
structure LockShape (row : DomainEventDelivery) : Prop where
  lockedAt : row.status = .PROCESSING ↔ row.lockedAt ≠ none
  lockedBy : row.status = .PROCESSING ↔ row.lockedBy ≠ none

lemma lockShape_recorded (event : DomainEventRecord) (id handlerKey : JsString) :
    LockShape (recordedDelivery event id handlerKey) := by
  constructor <;> simp [recordedDelivery]

lemma Releases.lockedBy_apply {data : DeliveryCompletionData} (h : Releases data)
    (row : DomainEventDelivery) : (row.apply data).lockedBy = none := by
  simp [DomainEventDelivery.apply, h.lockedBy]

lemma Releases.lockShape {data : DeliveryCompletionData} (h : Releases data)
    (row : DomainEventDelivery) : LockShape (row.apply data) := by
  obtain ⟨status, hs, hne⟩ := h.status
  constructor <;> simp [DomainEventDelivery.apply, h.lockedAt, h.lockedBy, hs, hne]

lemma reclaimed_eq_apply (row : DomainEventDelivery) (statement : Reclaim) :
    ∃ data, Releases data ∧ reclaimed row statement = row.apply data := by
  cases statement <;> exact ⟨_, ⟨⟨_, rfl, by simp⟩, rfl, rfl⟩, rfl⟩

lemma lockShape_claimed (now : ℤ) (leaseId : JsString) (row : DomainEventDelivery) :
    LockShape (claimed now leaseId row) := by
  constructor <;> simp [claimed, DomainEventDelivery.apply]

end Data

section Table

lemma recordedDeliveries_mem {event : DomainEventRecord} {deliveries : List (JsString × JsString)}
    {row : DomainEventDelivery} (h : row ∈ recordedDeliveries event deliveries) :
    row = recordedDelivery event row.id row.handlerKey := by
  simp only [recordedDeliveries, List.mem_map] at h
  obtain ⟨delivery, _, rfl⟩ := h
  rfl

omit [DecidableEq W] in
lemma addedRows_recorded {row : DomainEventDelivery} (h : row ∈ addedRows a) :
    ∃ event, row = recordedDelivery event row.id row.handlerKey := by
  cases a with
  | record event deliveries => exact ⟨event, recordedDeliveries_mem h⟩
  | _ => simp [addedRows] at h

/-- A row of the next table is a changed row or a recorded one. -/
lemma mem_table_step (ids : (s.table.map (fun row => row.id)).Nodup)
    (h : step options s a = some t) {row' : DomainEventDelivery} (hr : row' ∈ t.table) :
    (∃ row ∈ s.table, RowChange options s a row row') ∨ row' ∈ addedRows a := by
  obtain ⟨f, ht, hf⟩ := table_step ids h
  rw [ht, List.mem_append, List.mem_map] at hr
  rcases hr with ⟨row, hrow, rfl⟩ | hr
  · exact .inl ⟨row, hrow, hf row hrow⟩
  · exact .inr hr

lemma exists_table_step (ids : (s.table.map (fun row => row.id)).Nodup)
    (h : step options s a = some t) {row : DomainEventDelivery} (hr : row ∈ s.table) :
    ∃ row' ∈ t.table, RowChange options s a row row' := by
  obtain ⟨f, ht, hf⟩ := table_step ids h
  refine ⟨f row, ?_, hf row hr⟩
  rw [ht]
  exact List.mem_append_left _ (List.mem_map_of_mem hr)

lemma ids_step (ids : (s.table.map (fun row => row.id)).Nodup) (h : step options s a = some t) :
    (t.table.map (fun row => row.id)).Nodup := by
  obtain ⟨f, ht, hf⟩ := table_step ids h
  have hmap : (s.table.map f).map (fun row => row.id) = s.table.map (fun row => row.id) := by
    rw [List.map_map]
    exact List.map_congr_left (fun row hrow => (hf row hrow).id_eq)
  have hkept : addedRows a = [] → (t.table.map (fun row => row.id)).Nodup := by
    intro ha
    rw [ht, ha, List.append_nil, hmap]
    exact ids
  cases a with
  | record event deliveries =>
    simp only [step] at h
    split at h
    · rename_i hnodup
      rw [Option.some.injEq] at h
      rw [← h]
      exact hnodup
    · cases h
  | _ => exact hkept rfl

end Table

section Snapshots

variable {now : ℤ} {leaseId : JsString} {locked : List JsString} {table : DeliveryTable}

/-- A claimed snapshot is a due row with the new lock, and it is in the table. -/
lemma mem_claimDueDeliveries (ids : (table.map (fun row => row.id)).Nodup)
    {delivery : DomainEventDelivery}
    (h : delivery ∈ (claimDueDeliveries options now leaseId locked table).2) :
    delivery ∈ (claimDueDeliveries options now leaseId locked table).1 ∧
      ∃ row ∈ table, isDue now row = true ∧ delivery = claimed now leaseId row := by
  simp only [claimDueDeliveries, mem_sortBy, List.mem_filter] at h ⊢
  refine ⟨h.1, ?_⟩
  obtain ⟨row, hrow, hd⟩ := List.mem_map.mp h.1
  have hid : delivery.id = row.id := by
    rw [← hd]
    split <;> simp
  rw [hid] at h
  rw [if_pos h.2] at hd
  obtain ⟨due, hdue, hdid, hisDue⟩ := mem_dueIds (List.contains_iff_mem.mp h.2)
  have hrd : row = due := eq_of_id_eq ids hrow hdue hdid.symm
  exact ⟨row, hrow, hrd ▸ hisDue, hd.symm⟩

lemma nodup_claimDueDeliveries (ids : (table.map (fun row => row.id)).Nodup) :
    ((claimDueDeliveries options now leaseId locked table).2.map (fun row => row.id)).Nodup := by
  simp only [claimDueDeliveries]
  rw [((sortBy_perm _ _).map (fun row : DomainEventDelivery => row.id)).nodup_iff]
  apply List.Nodup.sublist (List.filter_sublist.map _)
  have hmap : (updateMany table (fun row => (dueIds options now locked table).contains row.id)
      (claimed now leaseId)).map (fun row => row.id) = table.map (fun row => row.id) := by
    rw [updateMany, List.map_map]
    apply List.map_congr_left
    intro row _
    simp only [Function.comp]
    split <;> simp
  rw [hmap]
  exact ids

@[simp] lemma held_nextPhase (queue : List DomainEventDelivery) : (nextPhase queue).held = queue := by
  cases queue <;> rfl

@[simp] lemma waiting_nextPhase (queue : List DomainEventDelivery) :
    (nextPhase queue).waiting = queue := by
  cases queue <;> rfl

lemma waiting_sublist_held (p : Phase) : p.waiting.Sublist p.held := by
  cases p <;> simp [Phase.waiting, Phase.held]

/-- A worker puts deliveries down one by one, and takes new ones only by a claim. -/
lemma held_step (h : step options s a = some t) (w : W) :
    ((t.phase w).held.Sublist (s.phase w).held ∧ (t.phase w).waiting.Sublist (s.phase w).waiting) ∨
      ∃ leaseId locked, a = .claim w leaseId locked ∧ leaseId ∉ s.leases ∧
        (t.phase w).held = (claimDueDeliveries options s.now leaseId locked s.table).2 ∧
        (t.phase w).waiting = (claimDueDeliveries options s.now leaseId locked s.table).2 := by
  have hm := phase_step h w
  generalize t.phase w = p at hm
  cases hm with
  | kept => exact .inl ⟨.refl _, .refl _⟩
  | started => exact .inl ⟨List.nil_sublist _, List.nil_sublist _⟩
  | reclaimed statement hp => exact .inl ⟨List.nil_sublist _, List.nil_sublist _⟩
  | claimed ha hfresh => exact .inr ⟨_, _, ha, hfresh, held_nextPhase _, waiting_nextPhase _⟩
  | admitted hp => rw [hp]; exact .inl ⟨.refl _, .refl _⟩
  | finished hp _ => rw [hp]; exact .inl ⟨.refl _, List.sublist_cons_self _ _⟩
  | settled caught result hp => rw [hp]; exact .inl ⟨.refl _, List.sublist_cons_self _ _⟩
  | completed hp =>
    rw [hp, held_nextPhase, waiting_nextPhase]
    exact .inl ⟨List.sublist_cons_self _ _, .refl _⟩
  | recovered message hp => rw [hp]; exact .inl ⟨.refl _, .refl _⟩
  | stopped => exact .inl ⟨List.nil_sublist _, List.nil_sublist _⟩

end Snapshots

/-- The claim of the delivery lies more than `staleLockMs` back. -/
def Overdue (options : DomainEventDispatcherOptions) (s : DispatchState W)
    (delivery : DomainEventDelivery) : Prop :=
  ∃ lockedAt, delivery.lockedAt = some lockedAt ∧ lockedAt + options.staleLockMs < s.now

/-- What every interleaving keeps about rows, leases and the workers' snapshots. -/
structure LeaseInvariant (options : DomainEventDispatcherOptions) (s : DispatchState W) : Prop where
  ids : (s.table.map (fun row => row.id)).Nodup
  shape : ∀ row ∈ s.table, LockShape row
  issued : ∀ row ∈ s.table, ∀ leaseId, row.lockedBy = some leaseId → leaseId ∈ s.leases
  snapshot : ∀ w, ∀ delivery ∈ (s.phase w).held,
    delivery.status = .PROCESSING ∧ ∃ leaseId ∈ s.leases, delivery.lockedBy = some leaseId
  distinct : ∀ w, ((s.phase w).held.map (fun delivery => delivery.id)).Nodup
  owner : ∀ w w', ∀ delivery ∈ (s.phase w).held, ∀ other ∈ (s.phase w').held,
    delivery.lockedBy = other.lockedBy → w = w'
  cutoff : ∀ w staleBefore statements, s.phase w = .reclaiming staleBefore statements →
    staleBefore + options.staleLockMs ≤ s.now
  releases : ∀ w delivery queue data caught,
    s.phase w = .completing delivery queue data caught → Releases data
  live : ∀ w, ∀ delivery ∈ (s.phase w).waiting, delivery ∈ s.table ∨ Overdue options s delivery

section Preservation

omit [DecidableEq W] in
lemma LeaseInvariant.initial (h : Initial s) : LeaseInvariant options s where
  ids := h.ids
  shape := by
    intro row hrow
    rw [h.recorded row hrow]
    exact lockShape_recorded _ _ _
  issued := by
    intro row hrow leaseId hl
    rw [h.recorded row hrow] at hl
    cases hl
  snapshot := by
    intro w delivery hd
    rw [h.idle w] at hd
    cases hd
  distinct := by
    intro w
    rw [h.idle w]
    exact List.nodup_nil
  owner := by
    intro w w' delivery hd
    rw [h.idle w] at hd
    cases hd
  cutoff := by
    intro w staleBefore statements hp
    rw [h.idle w] at hp
    cases hp
  releases := by
    intro w delivery queue data caught hp
    rw [h.idle w] at hp
    cases hp
  live := by
    intro w delivery hd
    rw [h.idle w] at hd
    cases hd

lemma leases_subset_step (h : step options s a = some t) : s.leases ⊆ t.leases := by
  rcases leases_step h with ht | ⟨_, leaseId, _, _, _, ht, _⟩
  · rw [ht]
    exact List.Subset.refl _
  · rw [ht]
    exact List.subset_cons_self _ _

lemma shape_step (hi : LeaseInvariant options s) (h : step options s a = some t) :
    ∀ row ∈ t.table, LockShape row := by
  intro row' hr
  rcases mem_table_step hi.ids h hr with ⟨row, hrow, hc⟩ | hnew
  · cases hc with
    | kept => exact hi.shape _ hrow
    | reclaimed hp hs =>
      obtain ⟨data, hd, he⟩ := reclaimed_eq_apply _ _
      rw [he]
      exact hd.lockShape _
    | claimed hfresh hdue => exact lockShape_claimed _ _ _
    | completed _ _ hp _ _ _ _ => exact (hi.releases _ _ _ _ _ hp).lockShape _
    | admin _ => exact (releases_adminData _ _).lockShape _
  · obtain ⟨event, he⟩ := addedRows_recorded hnew
    rw [he]
    exact lockShape_recorded _ _ _

/-- A row comes under a lease only by the claim that hands the lease out. -/
lemma lockedBy_step (hi : LeaseInvariant options s) (h : step options s a = some t)
    {row' : DomainEventDelivery} (hr : row' ∈ t.table) {leaseId : JsString}
    (hl : row'.lockedBy = some leaseId) :
    row' ∈ s.table ∨ ∃ w locked, a = .claim w leaseId locked ∧ leaseId ∉ s.leases := by
  rcases mem_table_step hi.ids h hr with ⟨row, hrow, hc⟩ | hnew
  · cases hc with
    | kept => exact .inl hrow
    | reclaimed hp hs =>
      obtain ⟨data, hd, he⟩ := reclaimed_eq_apply _ _
      rw [he, hd.lockedBy_apply] at hl
      cases hl
    | claimed hfresh hdue =>
      have he : leaseId = _ := (Option.some.inj hl).symm
      rw [he]
      exact .inr ⟨_, _, rfl, hfresh⟩
    | completed _ _ hp _ _ _ _ =>
      rw [(hi.releases _ _ _ _ _ hp).lockedBy_apply] at hl
      cases hl
    | admin _ =>
      rw [(releases_adminData _ _).lockedBy_apply] at hl
      cases hl
  · obtain ⟨event, he⟩ := addedRows_recorded hnew
    rw [he] at hl
    cases hl

lemma issued_step (hi : LeaseInvariant options s) (h : step options s a = some t) :
    ∀ row ∈ t.table, ∀ leaseId, row.lockedBy = some leaseId → leaseId ∈ t.leases := by
  intro row hr leaseId hl
  rcases lockedBy_step hi h hr hl with hold | ⟨w, locked, rfl, hfresh⟩
  · exact leases_subset_step h (hi.issued row hold leaseId hl)
  · rcases leases_step h with ht | ⟨_, leaseId', _, ha, _, ht, _⟩
    · -- a claim that goes through does hand out its lease
      simp only [step] at h
      split at h
      · rw [if_neg hfresh, Option.some.injEq] at h
        rw [← h]
        exact List.mem_cons_self
      · cases h
    · cases ha
      rw [ht]
      exact List.mem_cons_self

lemma claim_step {w : W} {leaseId : JsString} {locked : List JsString}
    (h : step options s (.claim w leaseId locked) = some t) :
    t.leases = leaseId :: s.leases ∧
      t.table = (claimDueDeliveries options s.now leaseId locked s.table).1 := by
  simp only [step] at h
  split at h
  · split at h
    · cases h
    · rw [Option.some.injEq] at h
      rw [← h]
      exact ⟨rfl, rfl⟩
  · cases h

/-- What a worker holds was held before, or is a snapshot under the lease just handed out. -/
lemma mem_held_step (hi : LeaseInvariant options s) (h : step options s a = some t) {w : W}
    {delivery : DomainEventDelivery} (hd : delivery ∈ (t.phase w).held) :
    delivery ∈ (s.phase w).held ∨ ∃ leaseId locked, a = .claim w leaseId locked ∧
      leaseId ∉ s.leases ∧ leaseId ∈ t.leases ∧ delivery.status = .PROCESSING ∧
      delivery.lockedBy = some leaseId := by
  rcases held_step h w with ⟨hsub, _⟩ | ⟨leaseId, locked, rfl, hfresh, hheld, _⟩
  · exact .inl (hsub.subset hd)
  · rw [hheld] at hd
    obtain ⟨_, row, _, _, rfl⟩ := mem_claimDueDeliveries hi.ids hd
    refine .inr ⟨leaseId, locked, rfl, hfresh, ?_, rfl, rfl⟩
    rw [(claim_step h).1]
    exact List.mem_cons_self

lemma snapshot_step (hi : LeaseInvariant options s) (h : step options s a = some t) (w : W) :
    ∀ delivery ∈ (t.phase w).held,
      delivery.status = .PROCESSING ∧ ∃ leaseId ∈ t.leases, delivery.lockedBy = some leaseId := by
  intro delivery hd
  rcases mem_held_step hi h hd with hold | ⟨leaseId, _, _, _, hl, hs, hb⟩
  · obtain ⟨hs, leaseId, hl, hb⟩ := hi.snapshot w delivery hold
    exact ⟨hs, leaseId, leases_subset_step h hl, hb⟩
  · exact ⟨hs, leaseId, hl, hb⟩

lemma distinct_step (hi : LeaseInvariant options s) (h : step options s a = some t) (w : W) :
    ((t.phase w).held.map (fun delivery => delivery.id)).Nodup := by
  rcases held_step h w with ⟨hsub, _⟩ | ⟨leaseId, locked, _, _, hheld, _⟩
  · exact (hi.distinct w).sublist (hsub.map _)
  · rw [hheld]
    exact nodup_claimDueDeliveries hi.ids

lemma owner_step (hi : LeaseInvariant options s) (h : step options s a = some t) (w w' : W) :
    ∀ delivery ∈ (t.phase w).held, ∀ other ∈ (t.phase w').held,
      delivery.lockedBy = other.lockedBy → w = w' := by
  intro delivery hd other ho heq
  -- an old snapshot carries a lease handed out before, a new one a lease that was not
  have hclash : ∀ {v : W} {old : DomainEventDelivery} {leaseId : JsString},
      old ∈ (s.phase v).held → leaseId ∉ s.leases → old.lockedBy ≠ some leaseId := by
    intro v old leaseId hold hfresh hl
    obtain ⟨_, leaseId', hmem, hb⟩ := hi.snapshot v old hold
    rw [hb, Option.some.injEq] at hl
    exact hfresh (hl ▸ hmem)
  rcases mem_held_step hi h hd with hold | ⟨leaseId, locked, ha, hfresh, _, _, hb⟩
  · rcases mem_held_step hi h ho with hold' | ⟨leaseId', _, _, hfresh', _, _, hb'⟩
    · exact hi.owner w w' delivery hold other hold' heq
    · exact absurd (heq.trans hb') (hclash hold hfresh')
  · rcases mem_held_step hi h ho with hold' | ⟨_, _, ha', _, _, _, _⟩
    · exact absurd (heq.symm.trans hb) (hclash hold' hfresh)
    · rw [ha] at ha'
      exact (Action.claim.inj ha').1

lemma cutoff_step (hi : LeaseInvariant options s) (h : step options s a = some t) (w : W)
    (staleBefore : ℤ) (statements : List Reclaim)
    (hp : t.phase w = .reclaiming staleBefore statements) :
    staleBefore + options.staleLockMs ≤ t.now := by
  have hnow := now_step h
  have hold : ∀ statements', s.phase w = .reclaiming staleBefore statements' →
      staleBefore + options.staleLockMs ≤ t.now := by
    intro statements' hp'
    have := hi.cutoff w staleBefore statements' hp'
    omega
  have hm := phase_step h w
  rw [hp] at hm
  generalize hq : Phase.reclaiming staleBefore statements = p at hm
  cases hm with
  | kept => exact hold statements hq.symm
  | started =>
    cases hq
    omega
  | reclaimed statement hp' =>
    cases hq
    exact hold _ hp'
  | claimed _ _ =>
    rename_i leaseId locked _ _
    cases hc : (claimDueDeliveries options s.now leaseId locked s.table).2 with
    | nil => rw [hc] at hq; cases hq
    | cons d ds => rw [hc] at hq; cases hq
  | completed _ =>
    rename_i queue _ _ _
    cases queue <;> cases hq
  | admitted _ => cases hq
  | finished _ _ => cases hq
  | settled _ _ _ => cases hq
  | recovered _ _ => cases hq
  | stopped => cases hq

/-- A completion a worker is about to make was computed for a delivery it held. -/
lemma completing_step (h : step options s a = some t) {w : W} {delivery : DomainEventDelivery}
    {queue : List DomainEventDelivery} {data : DeliveryCompletionData} {caught : Bool}
    (hp : t.phase w = .completing delivery queue data caught) :
    s.phase w = .completing delivery queue data caught ∨ delivery ∈ (s.phase w).held ∧
      ((∃ registered binding caught,
          admission options s.now delivery registered binding = .finish data caught) ∨
        ∃ result, data = settle options s.now delivery result) := by
  have hm := phase_step h w
  rw [hp] at hm
  generalize hq : Phase.completing delivery queue data caught = p at hm
  cases hm with
  | kept => exact .inl rfl
  | finished hs hv =>
    cases hq
    exact .inr ⟨by rw [hs]; exact List.mem_cons_self, .inl ⟨_, _, _, hv⟩⟩
  | settled caught result hs =>
    cases hq
    exact .inr ⟨by rw [hs]; exact List.mem_cons_self, .inr ⟨result, rfl⟩⟩
  | recovered message hs =>
    cases hq
    exact .inr ⟨by rw [hs]; exact List.mem_cons_self, .inr ⟨.failed ⟨message, none⟩, rfl⟩⟩
  | claimed _ _ =>
    rename_i leaseId locked _ _
    cases hc : (claimDueDeliveries options s.now leaseId locked s.table).2 with
    | nil => rw [hc] at hq; cases hq
    | cons d ds => rw [hc] at hq; cases hq
  | completed _ =>
    rename_i queue' _ _ _
    cases queue' <;> cases hq
  | started => cases hq
  | reclaimed _ _ => cases hq
  | admitted _ => cases hq
  | stopped => cases hq

lemma releases_step (hi : LeaseInvariant options s) (h : step options s a = some t) (w : W)
    (delivery : DomainEventDelivery) (queue : List DomainEventDelivery)
    (data : DeliveryCompletionData) (caught : Bool)
    (hp : t.phase w = .completing delivery queue data caught) : Releases data := by
  rcases completing_step h hp with hold | ⟨_, ⟨_, _, _, hv⟩ | ⟨result, rfl⟩⟩
  · exact hi.releases w delivery queue data caught hold
  · exact releases_admission hv
  · exact releases_settle _ _ _

/-- A waiting snapshot stays the row of the table until the row is reclaimed as stale. -/
lemma live_step (hi : LeaseInvariant options s) (h : step options s a = some t) (w : W) :
    ∀ delivery ∈ (t.phase w).waiting, delivery ∈ t.table ∨ Overdue options t delivery := by
  intro delivery hd
  rcases held_step h w with ⟨_, hsub⟩ | ⟨leaseId, locked, rfl, _, _, hwait⟩
  · have hw := hsub.subset hd
    have hheld := (waiting_sublist_held _).subset hw
    obtain ⟨hs, leaseId, hleases, hb⟩ := hi.snapshot w delivery hheld
    have hnow := now_step h
    rcases hi.live w delivery hw with hrow | ⟨lockedAt, hl, hover⟩
    · obtain ⟨row', hrow', hc⟩ := exists_table_step hi.ids h hrow
      cases hc with
      | kept => exact .inl hrow'
      | reclaimed hp hstale =>
        obtain ⟨_, lockedAt, hl, hlt⟩ := reclaims_iff hstale
        have := hi.cutoff _ _ _ hp
        exact .inr ⟨lockedAt, hl, by omega⟩
      | claimed _ hdue =>
        rw [isDue_status hdue] at hs
        cases hs
      | completed w' current hp _ hid _ hlease =>
        -- the lease is this worker's, so the completed delivery heads its own queue
        have hcur : current ∈ (s.phase w').held := by rw [hp]; exact List.mem_cons_self
        obtain ⟨_, leaseId', _, hb'⟩ := hi.snapshot w' current hcur
        have hsame : delivery.lockedBy = current.lockedBy := by
          rw [hlease, hb', Option.getD_some]
        have hww := hi.owner w w' delivery hheld current hcur hsame
        subst hww
        have hnodup := hi.distinct w
        rw [hp] at hw hnodup
        simp only [Phase.held, List.map_cons, List.nodup_cons] at hnodup
        exact absurd (hid ▸ List.mem_map_of_mem hw) hnodup.1
      | admin hdead =>
        rw [hdead] at hs
        cases hs
    · exact .inr ⟨lockedAt, hl, by omega⟩
  · rw [hwait] at hd
    left
    rw [(claim_step h).2]
    exact (mem_claimDueDeliveries hi.ids hd).1

theorem leaseInvariant_step (hi : LeaseInvariant options s) (h : step options s a = some t) :
    LeaseInvariant options t where
  ids := ids_step hi.ids h
  shape := shape_step hi h
  issued := issued_step hi h
  snapshot := snapshot_step hi h
  distinct := distinct_step hi h
  owner := owner_step hi h
  cutoff := cutoff_step hi h
  releases := releases_step hi h
  live := live_step hi h

theorem leaseInvariant_run {as : List (Action W)} (hi : LeaseInvariant options s)
    (h : run (step options) s as = some t) : LeaseInvariant options t :=
  run_invariant (fun _ _ _ hi h => leaseInvariant_step hi h) hi h

end Preservation

end Appspine.Delivery
