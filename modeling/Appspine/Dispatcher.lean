import Appspine.DeliveryTable
import Appspine.Transitions

/-!
# Dispatcher workers over one delivery table

A worker runs the loop of `tick`: two reclaim statements in either order, one claiming
transaction, then the claimed deliveries one by one. Workers, the recording of events and
the admin actions interleave at the granularity of their statements, and the clock may
advance between any two of them. A statement that outlives the tick that sent it is a
statement of one more worker that never gets further.
-/
namespace Appspine.Delivery
open JsText StableSort Transitions

/-- Where a worker stands in `tick`. -/
inductive Phase
  | idle
  | reclaiming (staleBefore : ℤ) (statements : List Reclaim)
  | working (queue : List DomainEventDelivery)
  | handling (delivery : DomainEventDelivery) (queue : List DomainEventDelivery)
  | completing (delivery : DomainEventDelivery) (queue : List DomainEventDelivery)
      (data : DeliveryCompletionData) (caught : Bool)
  deriving DecidableEq

inductive Action (W : Type*)
  | advance (ms : ℕ)
  | record (event : DomainEventRecord) (deliveries : List (JsString × JsString))
  | start (worker : W)
  | reclaim (worker : W) (statement : Reclaim)
  | claim (worker : W) (leaseId : JsString) (locked : List JsString)
  | process (worker : W) (registered : Bool) (binding : BindingCheck)
  | outcome (worker : W) (result : HandlerOutcome)
  | complete (worker : W)
  | completionFails (worker : W) (applied : Bool) (message : JsString)
  | abort (worker : W)
  | admin (action : AdminAction) (id : JsString)

/-- `leases` is history: the lease ids handed out so far. -/
structure DispatchState (W : Type*) where
  now : ℤ
  table : DeliveryTable
  phase : W → Phase
  leases : List JsString

variable {W : Type*} [DecidableEq W]

def DispatchState.setPhase (s : DispatchState W) (worker : W) (phase : Phase) : DispatchState W :=
  { s with phase := Function.update s.phase worker phase }

/-- The loop of `tick` between two deliveries. -/
def nextPhase : List DomainEventDelivery → Phase
  | [] => .idle
  | queue => .working queue

def recordedDeliveries (event : DomainEventRecord) (deliveries : List (JsString × JsString)) :
    DeliveryTable :=
  deliveries.map (fun delivery => recordedDelivery event delivery.1 delivery.2)

def step (options : DomainEventDispatcherOptions) (s : DispatchState W) :
    Action W → Option (DispatchState W)
  | .advance ms => some { s with now := s.now + ms }
  | .record event deliveries =>
    let ids := (s.table ++ recordedDeliveries event deliveries).map (fun row => row.id)
    if ids.Nodup then some { s with table := s.table ++ recordedDeliveries event deliveries } else none
  | .start worker =>
    match s.phase worker with
    | .idle => some (s.setPhase worker
        (.reclaiming (s.now - options.staleLockMs) [.terminal, .retry]))
    | _ => none
  | .reclaim worker statement =>
    match s.phase worker with
    | .reclaiming staleBefore statements =>
      if statement ∈ statements then
        some ({ s with table := runReclaim options staleBefore statement s.table }.setPhase worker
          (.reclaiming staleBefore (statements.erase statement)))
      else none
    | _ => none
  | .claim worker leaseId locked =>
    match s.phase worker with
    | .reclaiming _ [] =>
      -- `randomUUID` never repeats itself
      if leaseId ∈ s.leases then none
      else
        let r := claimDueDeliveries options s.now leaseId locked s.table
        some ({ s with table := r.1, leases := leaseId :: s.leases }.setPhase worker (nextPhase r.2))
    | _ => none
  | .process worker registered binding =>
    match s.phase worker with
    | .working (delivery :: queue) =>
      match admission options s.now delivery registered binding with
      | .invoke => some (s.setPhase worker (.handling delivery queue))
      | .finish data caught => some (s.setPhase worker (.completing delivery queue data caught))
    | _ => none
  | .outcome worker result =>
    match s.phase worker with
    | .handling delivery queue => some (s.setPhase worker
        (.completing delivery queue (settle options s.now delivery result)
          (decide (result = .handled))))
    | _ => none
  | .complete worker =>
    match s.phase worker with
    | .completing delivery queue data _ =>
      some ({ s with table := completeDelivery delivery data s.table }.setPhase worker
        (nextPhase queue))
    | _ => none
  | .completionFails worker applied message =>
    match s.phase worker with
    | .completing delivery queue data caught =>
      let table := if applied then completeDelivery delivery data s.table else s.table
      some ({ s with table := table }.setPhase worker
        (if caught then
          .completing delivery queue (markFailed options s.now delivery ⟨message, none⟩) false
        else .idle))
    | _ => none
  | .abort worker => some (s.setPhase worker .idle)
  | .admin action id =>
    match updateDeadLetterDelivery s.now action id s.table with
    | .ok table => some { s with table := table }
    | .error _ => some s

/-- Rows as recorded under distinct ids, and every worker between two ticks. -/
structure Initial (s : DispatchState W) : Prop where
  ids : (s.table.map (fun row => row.id)).Nodup
  recorded : ∀ row ∈ s.table, row = recordedDelivery row.event row.id row.handlerKey
  idle : ∀ worker, s.phase worker = .idle
  leases : s.leases = []

/-- The deliveries a worker has claimed and not yet completed. -/
def Phase.held : Phase → List DomainEventDelivery
  | .idle => []
  | .reclaiming _ _ => []
  | .working queue => queue
  | .handling delivery queue => delivery :: queue
  | .completing delivery queue _ _ => delivery :: queue

/-- The deliveries a worker has claimed whose handler has not yet returned. -/
def Phase.waiting : Phase → List DomainEventDelivery
  | .idle => []
  | .reclaiming _ _ => []
  | .working queue => queue
  | .handling delivery queue => delivery :: queue
  | .completing _ queue _ _ => queue

/-- The step calls `handler.handle` for the delivery. -/
def Invokes (options : DomainEventDispatcherOptions) (s : DispatchState W) (a : Action W)
    (t : DispatchState W) (worker : W) (delivery : DomainEventDelivery) : Prop :=
  step options s a = some t ∧ ∃ queue, s.phase worker = .working (delivery :: queue) ∧
    t.phase worker = .handling delivery queue

/-- The row is still under the lease it was claimed with. -/
def HoldsLease (s : DispatchState W) (delivery : DomainEventDelivery) : Prop :=
  ∃ row ∈ s.table, row.id = delivery.id ∧ row.status = .PROCESSING ∧
    row.lockedBy = delivery.lockedBy

section Rows

@[simp] lemma apply_id (row : DomainEventDelivery) (data : DeliveryCompletionData) :
    (row.apply data).id = row.id := rfl

@[simp] lemma apply_event (row : DomainEventDelivery) (data : DeliveryCompletionData) :
    (row.apply data).event = row.event := rfl

@[simp] lemma reclaimed_id (row : DomainEventDelivery) (statement : Reclaim) :
    (reclaimed row statement).id = row.id := by cases statement <;> rfl

@[simp] lemma claimed_id (now : ℤ) (leaseId : JsString) (row : DomainEventDelivery) :
    (claimed now leaseId row).id = row.id := rfl

@[simp] lemma claimed_event (now : ℤ) (leaseId : JsString) (row : DomainEventDelivery) :
    (claimed now leaseId row).event = row.event := rfl

@[simp] lemma claimed_attempts (now : ℤ) (leaseId : JsString) (row : DomainEventDelivery) :
    (claimed now leaseId row).attempts = row.attempts := rfl

/-- An id names at most one row. -/
lemma eq_of_id_eq {table : DeliveryTable} (h : (table.map (fun row => row.id)).Nodup)
    {r q : DomainEventDelivery} (hr : r ∈ table) (hq : q ∈ table) (hid : r.id = q.id) : r = q :=
  List.inj_on_of_nodup_map h hr hq hid

lemma mem_dueIds {options : DomainEventDispatcherOptions} {now : ℤ} {locked : List JsString}
    {table : DeliveryTable} {id : JsString} (h : id ∈ dueIds options now locked table) :
    ∃ row ∈ table, row.id = id ∧ isDue now row = true := by
  simp only [dueIds, List.mem_map] at h
  obtain ⟨row, hrow, rfl⟩ := h
  have hmem := List.mem_of_mem_take hrow
  simp only [mem_sortBy, List.mem_filter, Bool.and_eq_true] at hmem
  exact ⟨row, hmem.1, rfl, hmem.2.1⟩

lemma isDue_status {now : ℤ} {row : DomainEventDelivery} (h : isDue now row = true) :
    row.status = .PENDING := by
  simp only [isDue, Bool.and_eq_true, decide_eq_true_eq] at h
  exact h.1

lemma reclaims_iff {options : DomainEventDispatcherOptions} {staleBefore : ℤ}
    {row : DomainEventDelivery} {statement : Reclaim}
    (h : reclaims options staleBefore row statement = true) :
    row.status = .PROCESSING ∧ ∃ t, row.lockedAt = some t ∧ t < staleBefore := by
  have hlock : row.status = .PROCESSING ∧ lockedBefore staleBefore row = true := by
    cases statement <;>
      simp only [reclaims, Bool.and_eq_true, decide_eq_true_eq] at h <;> exact h.1
  refine ⟨hlock.1, ?_⟩
  have hany := hlock.2
  unfold lockedBefore at hany
  cases hl : row.lockedAt with
  | none => simp [hl] at hany
  | some t => exact ⟨t, rfl, by simpa [hl] using hany⟩

end Rows

section Effect

/-- What a step may do to one row, by its action. -/
inductive RowChange (options : DomainEventDispatcherOptions) (s : DispatchState W) :
    Action W → DomainEventDelivery → DomainEventDelivery → Prop
  | kept (a : Action W) (row : DomainEventDelivery) : RowChange options s a row row
  | reclaimed {worker : W} {staleBefore : ℤ} {statements : List Reclaim} {statement : Reclaim}
      {row : DomainEventDelivery} (phase : s.phase worker = .reclaiming staleBefore statements)
      (stale : reclaims options staleBefore row statement = true) :
      RowChange options s (.reclaim worker statement) row (reclaimed row statement)
  | claimed {worker : W} {leaseId : JsString} {locked : List JsString} {row : DomainEventDelivery}
      (fresh : leaseId ∉ s.leases) (due : isDue s.now row = true) :
      RowChange options s (.claim worker leaseId locked) row (claimed s.now leaseId row)
  | completed {a : Action W} (worker : W) (delivery : DomainEventDelivery)
      {queue : List DomainEventDelivery} {data : DeliveryCompletionData} {caught : Bool}
      {row : DomainEventDelivery} (phase : s.phase worker = .completing delivery queue data caught)
      (action : a = .complete worker ∨ ∃ message, a = .completionFails worker true message)
      (id : row.id = delivery.id) (status : row.status = .PROCESSING)
      (lease : row.lockedBy = some (delivery.lockedBy.getD missingLease)) :
      RowChange options s a row (row.apply data)
  | admin {action : AdminAction} {row : DomainEventDelivery} (status : row.status = .DEAD_LETTER) :
      RowChange options s (.admin action row.id) row (row.apply (adminData s.now action))

omit [DecidableEq W] in
lemma RowChange.id_eq {options : DomainEventDispatcherOptions} {s : DispatchState W} {a : Action W}
    {row row' : DomainEventDelivery} (h : RowChange options s a row row') : row'.id = row.id := by
  cases h <;> simp

lemma updateMany_row {selects : DomainEventDelivery → Bool}
    {change : DomainEventDelivery → DomainEventDelivery} {P : DomainEventDelivery → DomainEventDelivery → Prop}
    {table : DeliveryTable} (kept : ∀ row, P row row)
    (changed : ∀ row ∈ table, selects row = true → P row (change row)) :
    ∃ f, updateMany table selects change = table.map f ∧ ∀ row ∈ table, P row (f row) := by
  refine ⟨fun row => if selects row then change row else row, rfl, ?_⟩
  intro row hrow
  by_cases hs : selects row = true
  · simpa [hs] using changed row hrow hs
  · simpa [hs] using kept row

/-- The rows a step adds: those of an event being recorded. -/
def addedRows : Action W → DeliveryTable
  | .record event deliveries => recordedDeliveries event deliveries
  | _ => []

/-- Everything a step does to the table: it changes rows as their guards allow, and it adds rows. -/
theorem table_step {options : DomainEventDispatcherOptions} {s t : DispatchState W} {a : Action W}
    (ids : (s.table.map (fun row => row.id)).Nodup) (h : step options s a = some t) :
    ∃ f, t.table = s.table.map f ++ addedRows a ∧
      ∀ row ∈ s.table, RowChange options s a row (f row) := by
  have same : t.table = s.table → addedRows a = [] → ∃ f, t.table = s.table.map f ++ addedRows a ∧
      ∀ row ∈ s.table, RowChange options s a row (f row) := by
    intro ht ha
    exact ⟨id, by simp [ht, ha], fun row _ => .kept a row⟩
  have updated : addedRows a = [] → (∃ f, t.table = s.table.map f ∧
      ∀ row ∈ s.table, RowChange options s a row (f row)) →
      ∃ f, t.table = s.table.map f ++ addedRows a ∧
        ∀ row ∈ s.table, RowChange options s a row (f row) := by
    rintro ha ⟨f, hf, hr⟩
    exact ⟨f, by simp [hf, ha], hr⟩
  cases a with
  | advance ms =>
    simp only [step, Option.some.injEq] at h
    exact same (by rw [← h]) rfl
  | record event deliveries =>
    simp only [step] at h
    split at h
    · rw [Option.some.injEq] at h
      exact ⟨id, by simp [← h, addedRows], fun row _ => .kept _ row⟩
    · cases h
  | start worker =>
    simp only [step] at h
    split at h
    · rw [Option.some.injEq] at h
      exact same (by rw [← h]; rfl) rfl
    · cases h
  | reclaim worker statement =>
    simp only [step] at h
    split at h
    · rename_i staleBefore statements hp
      split at h
      · rw [Option.some.injEq] at h
        apply updated rfl
        rw [← h]
        exact updateMany_row (.kept _) (fun row _ hs => .reclaimed hp hs)
      · cases h
    · cases h
  | claim worker leaseId locked =>
    simp only [step] at h
    split at h
    · split at h
      · cases h
      · rename_i hfresh
        rw [Option.some.injEq] at h
        apply updated rfl
        rw [← h]
        apply updateMany_row (.kept _)
        intro row hrow hs
        -- ids are distinct, so the row selected by its id is the due one
        obtain ⟨due, hdue, hid, hd⟩ := mem_dueIds (List.contains_iff_mem.mp hs)
        have hrd : row = due := eq_of_id_eq ids hrow hdue hid.symm
        exact .claimed hfresh (hrd ▸ hd)
    · cases h
  | process worker registered binding =>
    simp only [step] at h
    split at h
    · split at h <;> rw [Option.some.injEq] at h <;> exact same (by rw [← h]; rfl) rfl
    · cases h
  | outcome worker result =>
    simp only [step] at h
    split at h
    · rw [Option.some.injEq] at h
      exact same (by rw [← h]; rfl) rfl
    · cases h
  | complete worker =>
    simp only [step] at h
    split at h
    · rename_i delivery queue data caught hp
      rw [Option.some.injEq] at h
      apply updated rfl
      rw [← h]
      apply updateMany_row (.kept _)
      intro row _ hs
      simp only [Bool.and_eq_true, decide_eq_true_eq] at hs
      exact .completed worker delivery hp (.inl rfl) hs.1.1 hs.1.2 hs.2
    · cases h
  | completionFails worker applied message =>
    simp only [step] at h
    split at h
    · rename_i delivery queue data caught hp
      rw [Option.some.injEq] at h
      cases applied with
      | false => exact same (by rw [← h]; rfl) rfl
      | true =>
        apply updated rfl
        rw [← h]
        apply updateMany_row (.kept _)
        intro row _ hs
        simp only [Bool.and_eq_true, decide_eq_true_eq] at hs
        exact .completed worker delivery hp (.inr ⟨message, rfl⟩) hs.1.1 hs.1.2 hs.2
    · cases h
  | abort worker =>
    simp only [step, Option.some.injEq] at h
    exact same (by rw [← h]; rfl) rfl
  | admin action id =>
    simp only [step] at h
    split at h
    · rename_i table ht
      rw [Option.some.injEq] at h
      apply updated rfl
      rw [← h]
      simp only [updateDeadLetterDelivery] at ht
      split at ht
      · cases ht
      · split at ht
        · rw [Except.ok.injEq] at ht
          rw [← ht]
          apply updateMany_row (.kept _)
          intro row _ hs
          simp only [isDeadLetter, Bool.and_eq_true, decide_eq_true_eq] at hs
          rw [← hs.1]
          exact .admin hs.2
        · cases ht
    · rw [Option.some.injEq] at h
      exact same (by rw [← h]) rfl

/-- What a step may do to the phase of one worker. -/
inductive PhaseMove (options : DomainEventDispatcherOptions) (s : DispatchState W) (a : Action W)
    (worker : W) : Phase → Prop
  | kept : PhaseMove options s a worker (s.phase worker)
  | started : PhaseMove options s a worker
      (.reclaiming (s.now - options.staleLockMs) [.terminal, .retry])
  | reclaimed {staleBefore : ℤ} {statements : List Reclaim} (statement : Reclaim)
      (phase : s.phase worker = .reclaiming staleBefore statements) :
      PhaseMove options s a worker (.reclaiming staleBefore (statements.erase statement))
  | claimed {leaseId : JsString} {locked : List JsString}
      (action : a = .claim worker leaseId locked) (fresh : leaseId ∉ s.leases) :
      PhaseMove options s a worker
        (nextPhase (claimDueDeliveries options s.now leaseId locked s.table).2)
  | admitted {delivery : DomainEventDelivery} {queue : List DomainEventDelivery}
      (phase : s.phase worker = .working (delivery :: queue)) :
      PhaseMove options s a worker (.handling delivery queue)
  | finished {delivery : DomainEventDelivery} {queue : List DomainEventDelivery}
      {registered : Bool} {binding : BindingCheck} {data : DeliveryCompletionData} {caught : Bool}
      (phase : s.phase worker = .working (delivery :: queue))
      (verdict : admission options s.now delivery registered binding = .finish data caught) :
      PhaseMove options s a worker (.completing delivery queue data caught)
  | settled {delivery : DomainEventDelivery} {queue : List DomainEventDelivery} (caught : Bool)
      (result : HandlerOutcome) (phase : s.phase worker = .handling delivery queue) :
      PhaseMove options s a worker
        (.completing delivery queue (settle options s.now delivery result) caught)
  | completed {delivery : DomainEventDelivery} {queue : List DomainEventDelivery}
      {data : DeliveryCompletionData} {caught : Bool}
      (phase : s.phase worker = .completing delivery queue data caught) :
      PhaseMove options s a worker (nextPhase queue)
  | recovered {delivery : DomainEventDelivery} {queue : List DomainEventDelivery}
      {data : DeliveryCompletionData} (message : JsString)
      (phase : s.phase worker = .completing delivery queue data true) :
      PhaseMove options s a worker
        (.completing delivery queue (markFailed options s.now delivery ⟨message, none⟩) false)
  | stopped : PhaseMove options s a worker .idle

/-- Everything a step does to the phases: the acting worker moves, the others keep theirs. -/
theorem phase_step {options : DomainEventDispatcherOptions} {s t : DispatchState W} {a : Action W}
    (h : step options s a = some t) (w : W) : PhaseMove options s a w (t.phase w) := by
  have same : t.phase = s.phase → PhaseMove options s a w (t.phase w) := by
    intro ht
    rw [ht]
    exact .kept
  have moved : ∀ {worker : W} {p : Phase}, t.phase = Function.update s.phase worker p →
      (worker = w → PhaseMove options s a w p) → PhaseMove options s a w (t.phase w) := by
    intro worker p ht hm
    rw [ht]
    by_cases hw : w = worker
    · subst hw
      rw [Function.update_self]
      exact hm rfl
    · rw [Function.update_of_ne hw]
      exact .kept
  cases a with
  | advance ms =>
    simp only [step, Option.some.injEq] at h
    exact same (by rw [← h])
  | record event deliveries =>
    simp only [step] at h
    split at h
    · rw [Option.some.injEq] at h
      exact same (by rw [← h])
    · cases h
  | start worker =>
    simp only [step] at h
    split at h
    · rw [Option.some.injEq] at h
      exact moved (by rw [← h]; rfl) (fun _ => .started)
    · cases h
  | reclaim worker statement =>
    simp only [step] at h
    split at h
    · rename_i staleBefore statements hp
      split at h
      · rw [Option.some.injEq] at h
        refine moved (by rw [← h]; rfl) ?_
        rintro rfl
        exact .reclaimed statement hp
      · cases h
    · cases h
  | claim worker leaseId locked =>
    simp only [step] at h
    split at h
    · split at h
      · cases h
      · rename_i hfresh
        rw [Option.some.injEq] at h
        refine moved (by rw [← h]; rfl) ?_
        rintro rfl
        exact .claimed rfl hfresh
    · cases h
  | process worker registered binding =>
    simp only [step] at h
    split at h
    · rename_i delivery queue hp
      split at h
      · rw [Option.some.injEq] at h
        refine moved (by rw [← h]; rfl) ?_
        rintro rfl
        exact .admitted hp
      · rename_i data caught hv
        rw [Option.some.injEq] at h
        refine moved (by rw [← h]; rfl) ?_
        rintro rfl
        exact .finished hp hv
    · cases h
  | outcome worker result =>
    simp only [step] at h
    split at h
    · rename_i delivery queue hp
      rw [Option.some.injEq] at h
      refine moved (by rw [← h]; rfl) ?_
      rintro rfl
      exact .settled _ result hp
    · cases h
  | complete worker =>
    simp only [step] at h
    split at h
    · rename_i delivery queue data caught hp
      rw [Option.some.injEq] at h
      refine moved (by rw [← h]; rfl) ?_
      rintro rfl
      exact .completed hp
    · cases h
  | completionFails worker applied message =>
    simp only [step] at h
    split at h
    · rename_i delivery queue data caught hp
      rw [Option.some.injEq] at h
      refine moved (by rw [← h]; rfl) ?_
      rintro rfl
      cases caught with
      | false => exact .stopped
      | true => exact .recovered message hp
    · cases h
  | abort worker =>
    simp only [step, Option.some.injEq] at h
    exact moved (by rw [← h]; rfl) (fun _ => .stopped)
  | admin action id =>
    simp only [step] at h
    split at h <;> rw [Option.some.injEq] at h <;> exact same (by rw [← h])

lemma now_step {options : DomainEventDispatcherOptions} {s t : DispatchState W} {a : Action W}
    (h : step options s a = some t) : s.now ≤ t.now := by
  cases a <;> simp only [step] at h
  case advance ms =>
    rw [Option.some.injEq] at h
    rw [← h]
    simp
  all_goals
    repeat' split at h
    all_goals first
      | (rw [Option.some.injEq] at h; subst h; exact le_refl s.now)
      | cases h

/-- Leases are handed out by claims only, and never twice. -/
lemma leases_step {options : DomainEventDispatcherOptions} {s t : DispatchState W} {a : Action W}
    (h : step options s a = some t) : t.leases = s.leases ∨
      ∃ worker leaseId locked, a = .claim worker leaseId locked ∧ leaseId ∉ s.leases ∧
        t.leases = leaseId :: s.leases ∧
        t.table = (claimDueDeliveries options s.now leaseId locked s.table).1 := by
  cases a <;> simp only [step] at h
  case claim worker leaseId locked =>
    split at h
    · split at h
      · cases h
      · rename_i hfresh
        rw [Option.some.injEq] at h
        exact .inr ⟨worker, leaseId, locked, rfl, hfresh, by rw [← h]; rfl, by rw [← h]; rfl⟩
    · cases h
  all_goals
    left
    repeat' split at h
    all_goals first
      | (rw [Option.some.injEq] at h; subst h; rfl)
      | cases h

end Effect

end Appspine.Delivery
