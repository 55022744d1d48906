import Appspine.DispatcherSafety

/-!
# Retrying and ignoring dead letters

`retryDelivery` and `ignoreDelivery` of the admin service, statement by statement, interleaved
with each other and with the dispatcher workers. The audit hook is called after the update.
-/
namespace Appspine.AdminActions
open JsText Transitions Delivery

section Calls

structure DomainEventsAdminActor where
  sub : JsString
  email : Option JsString := none
  isApiKey : Option Bool := none
  actingUserId : Option JsString := none
  deriving DecidableEq

/-- A call of `retryDelivery` or of `ignoreDelivery`. -/
structure AdminCall where
  action : AdminAction
  id : JsString
  actor : DomainEventsAdminActor

structure DomainEventsAdminAuditHookInput where
  action : AdminAction
  actor : DomainEventsAdminActor
  deliveryBefore : DomainEventDelivery
  deliveryAfter : DomainEventDelivery
  deriving DecidableEq

/-- What the database or the hook rejects with. -/
structure Rejection where
  code : Option JsString
  message : JsString
  deriving DecidableEq

inductive CallError
  | http (error : AdminError)
  | raised (error : Rejection)
  deriving DecidableEq

def isRecordNotFoundError (error : Rejection) : Bool := decide (error.code = some (js "P2025"))

/-- What an update throws that matches no row. -/
def recordNotFound : Rejection := ⟨some (js "P2025"), js "No record was found for an update."⟩

/-- The `catch` of `updateDeadLetterDelivery`. -/
def rethrown (error : Rejection) : CallError :=
  if isRecordNotFoundError error then .http (.ConflictException
    (js "Only dead-lettered deliveries can be retried or ignored."))
  else .raised error

/-- Where a call of `updateDeadLetterDelivery` stands. -/
inductive CallPhase
  | notStarted
  | asked (data : DeliveryCompletionData)
  | looked (data : DeliveryCompletionData) (before : DomainEventDelivery)
  | updated (before after : DomainEventDelivery)
  | recording (after : DomainEventDelivery)
  | returned (after : DomainEventDelivery)
  | threw (error : CallError)
  deriving DecidableEq

/-- A call, with the rows it has written, before and after, and what it gave the hook. -/
structure CallState where
  phase : CallPhase := .notStarted
  writes : List (DomainEventDelivery × DomainEventDelivery) := []
  audits : List DomainEventsAdminAuditHookInput := []
  deriving DecidableEq

inductive Action (W C : Type*)
  | worker (action : Delivery.Action W)
  | ask (c : C)
  | lookUp (c : C)
  | lookUpFails (c : C) (error : Rejection)
  | update (c : C)
  | updateFails (c : C) (error : Rejection)
  | callHook (c : C)
  | hookResolves (c : C)
  | hookRejects (c : C) (error : Rejection)

structure State (W C : Type*) where
  dispatch : DispatchState W
  call : C → CallState

variable {W C : Type*} [DecidableEq W] [DecidableEq C]

def State.setCall (s : State W C) (c : C) (call : CallState) : State W C :=
  { s with call := Function.update s.call c call }

/-- The actions of the workers, of the recording of events and of the clock. -/
def isDispatch : Delivery.Action W → Bool
  | .admin _ _ => false
  | _ => true

/-- A failing statement of the database leaves the table alone. `hooked` says whether the module
was given an audit hook. -/
def step (options : DomainEventDispatcherOptions) (hooked : Bool) (calls : C → AdminCall)
    (s : State W C) : Action W C → Option (State W C)
  | .worker action =>
    if isDispatch action then
      (Delivery.step options s.dispatch action).map fun dispatch => { s with dispatch }
    else none
  | .ask c =>
    match (s.call c).phase with
    | .notStarted => some (s.setCall c { s.call c with
        phase := .asked (adminData s.dispatch.now (calls c).action) })
    | _ => none
  | .lookUp c =>
    match (s.call c).phase with
    | .asked data =>
      match s.dispatch.table.find? (fun row => decide (row.id = (calls c).id)) with
      | none => some (s.setCall c { s.call c with
          phase := .threw (.http (.NotFoundException (js "Domain event delivery not found"))) })
      | some before => some (s.setCall c { s.call c with phase := .looked data before })
    | _ => none
  | .lookUpFails c error =>
    match (s.call c).phase with
    | .asked _ => some (s.setCall c { s.call c with phase := .threw (.raised error) })
    | _ => none
  | .update c =>
    match (s.call c).phase with
    | .looked data before =>
      match s.dispatch.table.find? (isDeadLetter (calls c).id) with
      | none => some (s.setCall c { s.call c with phase := .threw (rethrown recordNotFound) })
      | some found =>
        let table := updateMany s.dispatch.table (isDeadLetter (calls c).id) (·.apply data)
        some ({ s with dispatch := { s.dispatch with table } }.setCall c { s.call c with
          phase := .updated before (found.apply data)
          writes := (s.call c).writes ++ [(found, found.apply data)] })
    | _ => none
  | .updateFails c error =>
    match (s.call c).phase with
    | .looked _ _ => some (s.setCall c { s.call c with phase := .threw (rethrown error) })
    | _ => none
  | .callHook c =>
    match (s.call c).phase with
    | .updated before after =>
      if hooked then some (s.setCall c { s.call c with
        phase := .recording after
        audits := (s.call c).audits ++ [⟨(calls c).action, (calls c).actor, before, after⟩] })
      else some (s.setCall c { s.call c with phase := .returned after })
    | _ => none
  | .hookResolves c =>
    match (s.call c).phase with
    | .recording after => some (s.setCall c { s.call c with phase := .returned after })
    | _ => none
  | .hookRejects c error =>
    match (s.call c).phase with
    | .recording _ => some (s.setCall c { s.call c with phase := .threw (rethrown error) })
    | _ => none

/-- No call has begun. The workers may stand anywhere, over rows with distinct ids. -/
structure Initial (s : State W C) : Prop where
  ids : (s.dispatch.table.map (·.id)).Nodup
  call : ∀ c, s.call c = {}

end Calls

section Property

variable {W C : Type*} [DecidableEq W] [DecidableEq C]

def writtenStatus : AdminAction → DomainEventDeliveryStatus
  | .RETRY_DELIVERY => .PENDING
  | .IGNORE_DELIVERY => .IGNORED

/-- The call has changed one row, once: the dead letter it is for. -/
def Wrote (call : AdminCall) (writes : List (DomainEventDelivery × DomainEventDelivery))
    (after : DomainEventDelivery) : Prop :=
  ∃ found at', found.id = call.id ∧ found.status = .DEAD_LETTER ∧
    after = found.apply (adminData at' call.action) ∧ writes = [(found, after)]

def TrueRecord (call : AdminCall) (record : DomainEventsAdminAuditHookInput) : Prop :=
  record.deliveryBefore.status = .DEAD_LETTER ∧
    record.deliveryAfter.status = writtenStatus call.action

/-- A call that threw has changed nothing, one that returned has changed its row once and given
one record to the hook, and every record is true. -/
structure Truthful (calls : C → AdminCall) (s : State W C) : Prop where
  threw : ∀ c error, (s.call c).phase = .threw error → (s.call c).writes = []
  returned : ∀ c after, (s.call c).phase = .returned after →
    Wrote (calls c) (s.call c).writes after ∧ ∃ record, (s.call c).audits = [record]
  records : ∀ c, ∀ record ∈ (s.call c).audits, TrueRecord (calls c) record

/-- The state is truthful, and so is the next one when a call of the hook is due. -/
def StaysTruthful (options : DomainEventDispatcherOptions) (hooked : Bool) (calls : C → AdminCall)
    (s : State W C) : Prop :=
  Truthful calls s ∧ ∀ c t, step options hooked calls s (.callHook c) = some t → Truthful calls t

/-- A row that is updated was a dead letter when it was read, there is a hook to call, and the
hook does not reject. -/
def AuditsInTime (hooked : Bool) (calls : C → AdminCall) (s : State W C) : Action W C → Prop
  | .update c => ∀ data before, (s.call c).phase = .looked data before →
      s.dispatch.table.any (isDeadLetter (calls c).id) = true →
        before.status = .DEAD_LETTER ∧ hooked = true
  | .hookRejects _ _ => False
  | _ => True

/-- What the statement does to the table is what it adds to the writes of its call. -/
def Accounts (s : State W C) (c : C) (t : State W C) : Prop :=
  (t.dispatch = s.dispatch ∧ (t.call c).writes = (s.call c).writes) ∨
    ∃ found data, found ∈ s.dispatch.table ∧ found.status = .DEAD_LETTER ∧
      (t.call c).writes = (s.call c).writes ++ [(found, found.apply data)] ∧
      t.dispatch.table = s.dispatch.table.map fun row =>
        if row = found then found.apply data else row

/-- The call that an action belongs to. -/
def Action.caller : Action W C → Option C
  | .worker _ => none
  | .ask c => some c
  | .lookUp c => some c
  | .lookUpFails c _ => some c
  | .update c => some c
  | .updateFails c _ => some c
  | .callHook c => some c
  | .hookResolves c => some c
  | .hookRejects c _ => some c

end Property

section Invariant

/-- What holds of a call in each phase, as long as its audits are in time. -/
def Standing (hooked : Bool) (call : AdminCall) (state : CallState) : Prop :=
  match state.phase with
  | .notStarted => state.writes = [] ∧ state.audits = []
  | .asked data => (∃ at', data = adminData at' call.action) ∧ state.writes = [] ∧ state.audits = []
  | .looked data _ => (∃ at', data = adminData at' call.action) ∧ state.writes = [] ∧
      state.audits = []
  | .updated before after => hooked = true ∧ before.status = .DEAD_LETTER ∧
      Wrote call state.writes after ∧ state.audits = []
  | .recording after => Wrote call state.writes after ∧
      ∃ record, state.audits = [record] ∧ TrueRecord call record
  | .returned after => Wrote call state.writes after ∧
      ∃ record, state.audits = [record] ∧ TrueRecord call record
  | .threw _ => state.writes = [] ∧ state.audits = []

variable {W C : Type*} [DecidableEq W] [DecidableEq C] {options : DomainEventDispatcherOptions}
  {hooked : Bool} {calls : C → AdminCall} {s t : State W C} {c : C}

lemma status_of_wrote {call : AdminCall}
    {writes : List (DomainEventDelivery × DomainEventDelivery)} {after : DomainEventDelivery}
    (h : Wrote call writes after) : after.status = writtenStatus call.action := by
  obtain ⟨found, at', -, -, rfl, -⟩ := h
  cases call.action <;> rfl

omit [DecidableEq W] in
@[simp] lemma setCall_self (state : CallState) : (s.setCall c state).call c = state := by
  simp [State.setCall]

omit [DecidableEq W] in
lemma setCall_of_ne {c' : C} (state : CallState) (h : c' ≠ c) :
    (s.setCall c state).call c' = s.call c' := by
  simp [State.setCall, h]

/-- What a statement of one call that leaves the table alone does to its call. -/
inductive Move (hooked : Bool) (calls : C → AdminCall) (s : State W C) (c : C) :
    Action W C → CallState → Prop
  | asks (phase : (s.call c).phase = .notStarted) : Move hooked calls s c (.ask c)
      { s.call c with phase := .asked (adminData s.dispatch.now (calls c).action) }
  | looks {data : DeliveryCompletionData} (before : DomainEventDelivery)
      (phase : (s.call c).phase = .asked data) :
      Move hooked calls s c (.lookUp c) { s.call c with phase := .looked data before }
  | fails {data : DeliveryCompletionData} (a : Action W C) (error : CallError)
      (phase : (s.call c).phase = .asked data ∨ ∃ before, (s.call c).phase = .looked data before) :
      Move hooked calls s c a { s.call c with phase := .threw error }
  | records {before after : DomainEventDelivery} (given : hooked = true)
      (phase : (s.call c).phase = .updated before after) :
      Move hooked calls s c (.callHook c) { s.call c with
        phase := .recording after
        audits := (s.call c).audits ++ [⟨(calls c).action, (calls c).actor, before, after⟩] }
  | skips {before after : DomainEventDelivery} (absent : hooked = false)
      (phase : (s.call c).phase = .updated before after) :
      Move hooked calls s c (.callHook c) { s.call c with phase := .returned after }
  | resolves {after : DomainEventDelivery} (phase : (s.call c).phase = .recording after) :
      Move hooked calls s c (.hookResolves c) { s.call c with phase := .returned after }
  | rejects {after : DomainEventDelivery} (error : Rejection)
      (phase : (s.call c).phase = .recording after) :
      Move hooked calls s c (.hookRejects c error)
        { s.call c with phase := .threw (rethrown error) }

/-- The state after the update of a row. -/
def State.afterUpdate (s : State W C) (calls : C → AdminCall) (c : C)
    (data : DeliveryCompletionData) (before found : DomainEventDelivery) : State W C :=
  { s with dispatch := { s.dispatch with
      table := updateMany s.dispatch.table (isDeadLetter (calls c).id) (·.apply data) } }.setCall c
    { s.call c with
      phase := .updated before (found.apply data)
      writes := (s.call c).writes ++ [(found, found.apply data)] }

/-- Everything a step can be: one of the dispatcher, the update of a row, or a move of one call. -/
theorem step_cases {a : Action W C} (h : step options hooked calls s a = some t) :
    (∃ action dispatch, a = .worker action ∧
      Delivery.step options s.dispatch action = some dispatch ∧ t = { s with dispatch }) ∨
    (∃ c data before found, a = .update c ∧ (s.call c).phase = .looked data before ∧
      s.dispatch.table.find? (isDeadLetter (calls c).id) = some found ∧
      t = s.afterUpdate calls c data before found) ∨
    ∃ c state, a.caller = some c ∧ Move hooked calls s c a state ∧ t = s.setCall c state := by
  cases a with
  | worker action =>
    simp only [step] at h
    split at h
    · obtain ⟨dispatch, hdispatch, rfl⟩ := Option.map_eq_some_iff.mp h
      exact .inl ⟨action, dispatch, rfl, hdispatch, rfl⟩
    · cases h
  | ask c =>
    simp only [step] at h
    split at h
    · rename_i hphase
      exact .inr (.inr ⟨c, _, rfl, .asks hphase, (Option.some.inj h).symm⟩)
    · cases h
  | lookUp c =>
    simp only [step] at h
    split at h
    · rename_i data hphase
      split at h
      · exact .inr (.inr ⟨c, _, rfl, .fails _ _ (.inl hphase), (Option.some.inj h).symm⟩)
      · exact .inr (.inr ⟨c, _, rfl, .looks _ hphase, (Option.some.inj h).symm⟩)
    · cases h
  | lookUpFails c error =>
    simp only [step] at h
    split at h
    · rename_i data hphase
      exact .inr (.inr ⟨c, _, rfl, .fails _ _ (.inl hphase), (Option.some.inj h).symm⟩)
    · cases h
  | update c =>
    simp only [step] at h
    split at h
    · rename_i data before hphase
      split at h
      · exact .inr (.inr ⟨c, _, rfl, .fails _ _ (.inr ⟨_, hphase⟩), (Option.some.inj h).symm⟩)
      · rename_i found hfound
        exact .inr (.inl ⟨c, data, before, found, rfl, hphase, hfound, (Option.some.inj h).symm⟩)
    · cases h
  | updateFails c error =>
    simp only [step] at h
    split at h
    · rename_i data before hphase
      exact .inr (.inr ⟨c, _, rfl, .fails _ _ (.inr ⟨_, hphase⟩), (Option.some.inj h).symm⟩)
    · cases h
  | callHook c =>
    simp only [step] at h
    split at h
    · rename_i before after hphase
      split at h
      · rename_i hhooked
        exact .inr (.inr ⟨c, _, rfl, .records hhooked hphase, (Option.some.inj h).symm⟩)
      · rename_i hhooked
        exact .inr (.inr ⟨c, _, rfl, .skips (by simpa using hhooked) hphase,
          (Option.some.inj h).symm⟩)
    · cases h
  | hookResolves c =>
    simp only [step] at h
    split at h
    · rename_i after hphase
      exact .inr (.inr ⟨c, _, rfl, .resolves hphase, (Option.some.inj h).symm⟩)
    · cases h
  | hookRejects c error =>
    simp only [step] at h
    split at h
    · rename_i after hphase
      exact .inr (.inr ⟨c, _, rfl, .rejects _ hphase, (Option.some.inj h).symm⟩)
    · cases h

omit [DecidableEq W] [DecidableEq C] in
lemma standing_move {a : Action W C} {state : CallState} (hmove : Move hooked calls s c a state)
    (hs : Standing hooked (calls c) (s.call c)) (hok : AuditsInTime hooked calls s a) :
    Standing hooked (calls c) state := by
  unfold Standing at hs
  cases hmove with
  | asks hphase =>
    rw [hphase] at hs
    exact ⟨⟨_, rfl⟩, hs⟩
  | looks before hphase =>
    rw [hphase] at hs
    exact hs
  | fails _ error hphase =>
    rcases hphase with hphase | ⟨before, hphase⟩ <;> rw [hphase] at hs <;> exact hs.2
  | @records before after hgiven hphase =>
    rw [hphase] at hs
    obtain ⟨-, hdead, hwrote, haudits⟩ := hs
    exact ⟨hwrote, ⟨(calls c).action, (calls c).actor, before, after⟩, by simp [haudits], hdead,
      status_of_wrote hwrote⟩
  | skips habsent hphase =>
    rw [hphase] at hs
    exact absurd (hs.1.symm.trans habsent) (by simp)
  | resolves hphase =>
    rw [hphase] at hs
    exact hs
  | rejects error hphase => exact hok.elim

lemma isDeadLetter_iff {id : JsString} {row : DomainEventDelivery} :
    isDeadLetter id row = true ↔ row.id = id ∧ row.status = .DEAD_LETTER := by
  simp [isDeadLetter]

omit [DecidableEq W] in
lemma standing_afterUpdate {data : DeliveryCompletionData} {before found : DomainEventDelivery}
    (hphase : (s.call c).phase = .looked data before)
    (hfound : s.dispatch.table.find? (isDeadLetter (calls c).id) = some found)
    (hs : Standing hooked (calls c) (s.call c)) (hok : AuditsInTime hooked calls s (.update c)) :
    Standing hooked (calls c) ((s.afterUpdate calls c data before found).call c) := by
  unfold Standing at hs
  rw [hphase] at hs
  obtain ⟨⟨at', rfl⟩, hwrites, haudits⟩ := hs
  have hdead := List.find?_some hfound
  have hany : s.dispatch.table.any (isDeadLetter (calls c).id) = true :=
    List.any_eq_true.mpr ⟨found, List.mem_of_find?_eq_some hfound, hdead⟩
  obtain ⟨hbefore, hgiven⟩ := hok _ before hphase hany
  obtain ⟨hid, hstatus⟩ := isDeadLetter_iff.mp hdead
  simp only [State.afterUpdate, setCall_self]
  exact ⟨hgiven, hbefore, ⟨found, at', hid, hstatus, rfl, by simp [hwrites]⟩, haudits⟩

/-- Every call is where its phase says. -/
def Sound (hooked : Bool) (calls : C → AdminCall) (s : State W C) : Prop :=
  ∀ c, Standing hooked (calls c) (s.call c)

lemma sound_step {a : Action W C} (hs : Sound hooked calls s) (hok : AuditsInTime hooked calls s a)
    (h : step options hooked calls s a = some t) : Sound hooked calls t := by
  intro c
  rcases step_cases h with ⟨_, _, -, -, rfl⟩ |
    ⟨caller, data, before, found, rfl, hphase, hfound, rfl⟩ | ⟨caller, state, -, hmove, rfl⟩
  · exact hs c
  · by_cases hc : c = caller
    · subst hc
      exact standing_afterUpdate hphase hfound (hs c) hok
    · rw [State.afterUpdate, setCall_of_ne _ hc]
      exact hs c
  · by_cases hc : c = caller
    · subst hc
      rw [setCall_self]
      exact standing_move hmove (hs c) hok
    · rw [setCall_of_ne _ hc]
      exact hs c

omit [DecidableEq W] [DecidableEq C] in
lemma sound_initial (h : Initial s) : Sound hooked calls s := by
  intro c
  rw [h.call c]
  exact ⟨rfl, rfl⟩

omit [DecidableEq W] [DecidableEq C] in
lemma Sound.truthful (hs : Sound hooked calls s) : Truthful calls s where
  threw := by
    intro c error hphase
    have h := hs c
    unfold Standing at h
    rw [hphase] at h
    exact h.1
  returned := by
    intro c after hphase
    have h := hs c
    unfold Standing at h
    rw [hphase] at h
    obtain ⟨hwrote, record, haudits, -⟩ := h
    exact ⟨hwrote, record, haudits⟩
  records := by
    intro c record hrecord
    have h := hs c
    unfold Standing at h
    split at h
    case h_1 => exact absurd (h.2 ▸ hrecord) List.not_mem_nil
    case h_2 => exact absurd (h.2.2 ▸ hrecord) List.not_mem_nil
    case h_3 => exact absurd (h.2.2 ▸ hrecord) List.not_mem_nil
    case h_4 => exact absurd (h.2.2.2 ▸ hrecord) List.not_mem_nil
    case h_7 => exact absurd (h.2 ▸ hrecord) List.not_mem_nil
    all_goals
      obtain ⟨-, only, haudits, htrue⟩ := h
      obtain rfl := List.mem_singleton.mp (haudits ▸ hrecord)
      exact htrue

lemma Sound.staysTruthful (hs : Sound hooked calls s) : StaysTruthful options hooked calls s :=
  ⟨hs.truthful, fun c _ h => (sound_step (a := .callHook c) hs trivial h).truthful⟩

/-- After the update of a row that was no dead letter when it was read, or without a hook, the
call of the hook shows it. -/
lemma inTime_of_afterUpdate {data : DeliveryCompletionData} {before found : DomainEventDelivery}
    (haudits : (s.call c).audits = [])
    (ht : StaysTruthful options hooked calls (s.afterUpdate calls c data before found)) :
    before.status = .DEAD_LETTER ∧ hooked = true := by
  have hphase : ((s.afterUpdate calls c data before found).call c).phase =
      .updated before (found.apply data) := by
    rw [State.afterUpdate, setCall_self]
  have haudits' : ((s.afterUpdate calls c data before found).call c).audits = [] := by
    rw [State.afterUpdate, setCall_self]
    exact haudits
  generalize s.afterUpdate calls c data before found = t at ht hphase haudits'
  cases hhooked : hooked with
  | true =>
    subst hhooked
    have hstep := ht.2 c
    simp only [step, hphase, if_true] at hstep
    have hrecord := (hstep _ rfl).records c ⟨(calls c).action, (calls c).actor, before,
      found.apply data⟩ (by simp)
    exact ⟨hrecord.1, rfl⟩
  | false =>
    subst hhooked
    have hstep := ht.2 c
    simp only [step, hphase, Bool.false_eq_true, if_false] at hstep
    obtain ⟨-, record, hone⟩ := (hstep _ rfl).returned c (found.apply data) (by simp)
    rw [setCall_self, haudits'] at hone
    exact absurd hone (List.cons_ne_nil record []).symm

/-- A step that is not in time shows, at the latest when the hook is called. -/
lemma auditsInTime_of_truthful {a : Action W C} (hs : Sound hooked calls s)
    (h : step options hooked calls s a = some t)
    (ht : StaysTruthful options hooked calls t) : AuditsInTime hooked calls s a := by
  have hstanding := fun c => hs c
  unfold Standing at hstanding
  cases a with
  | update c =>
    intro data before hphase hany
    obtain ⟨row, hrow, hdead⟩ := List.any_eq_true.mp hany
    have hc := hstanding c
    rw [hphase] at hc
    cases hfind : s.dispatch.table.find? (isDeadLetter (calls c).id) with
    | none => exact absurd hdead (List.find?_eq_none.mp hfind row hrow)
    | some found =>
      simp only [step, hphase, hfind] at h
      obtain rfl := Option.some.inj h
      exact inTime_of_afterUpdate hc.2.2 ht
  | hookRejects c error =>
    simp only [step] at h
    split at h
    · rename_i after hphase
      obtain rfl := Option.some.inj h
      have hc := hstanding c
      rw [hphase] at hc
      obtain ⟨⟨found, at', -, -, -, hwrites⟩, -⟩ := hc
      have hnone := ht.1.threw c (rethrown error) (by simp)
      rw [setCall_self, hwrites] at hnone
      exact absurd hnone (List.cons_ne_nil _ [])
    · cases h
  | _ => trivial

/-- The writes of a call are what its statements do to the table. -/
lemma accounts_step {a : Action W C} (hids : (s.dispatch.table.map (·.id)).Nodup)
    (hcaller : a.caller = some c) (h : step options hooked calls s a = some t) :
    Accounts s c t := by
  rcases step_cases h with ⟨action, _, rfl, -, -⟩ |
    ⟨caller, data, before, found, rfl, -, hfound, rfl⟩ | ⟨caller, state, hcaller', hmove, rfl⟩
  · cases hcaller
  · obtain rfl : caller = c := Option.some.inj hcaller
    have hmem := List.mem_of_find?_eq_some hfound
    have hdead := isDeadLetter_iff.mp (List.find?_some hfound)
    refine .inr ⟨found, data, hmem, hdead.2, by simp [State.afterUpdate], ?_⟩
    refine List.map_congr_left fun row hrow => ?_
    have hselects : isDeadLetter (calls caller).id row = true ↔ row = found := by
      constructor
      · intro hrow'
        have hid := (isDeadLetter_iff.mp hrow').1.trans hdead.1.symm
        exact eq_of_id_eq hids hrow hmem hid
      · rintro rfl
        exact List.find?_some hfound
    by_cases heq : row = found
    · rw [if_pos (hselects.mpr heq), if_pos heq, heq]
    · rw [if_neg (hselects.not.mpr heq), if_neg heq]
  · obtain rfl : caller = c := Option.some.inj (hcaller'.symm.trans hcaller)
    refine .inl ⟨rfl, ?_⟩
    rw [setCall_self]
    cases hmove <;> rfl

lemma ids_step {a : Action W C} (hids : (s.dispatch.table.map (·.id)).Nodup)
    (h : step options hooked calls s a = some t) : (t.dispatch.table.map (·.id)).Nodup := by
  rcases step_cases h with ⟨action, dispatch, -, hdispatch, rfl⟩ |
    ⟨c, data, before, found, -, -, -, rfl⟩ | ⟨c, state, -, -, rfl⟩
  · exact Delivery.ids_step hids hdispatch
  · have hmap : (updateMany s.dispatch.table (isDeadLetter (calls c).id) (·.apply data)).map
        (·.id) = s.dispatch.table.map (·.id) := by
      rw [updateMany, List.map_map]
      refine List.map_congr_left fun row _ => ?_
      simp only [Function.comp_apply]
      split_ifs <;> rfl
    exact hmap ▸ hids
  · exact hids

end Invariant

section Runs

variable {W C : Type*} [DecidableEq W] [DecidableEq C] {options : DomainEventDispatcherOptions}
  {hooked : Bool} {calls : C → AdminCall}

/-- The actions are truthful in exactly the runs whose audits are in time, and what the calls
are said to have written is what they did to the table. -/
theorem actions_truthful_iff {s₀ t : State W C} {as : List (Action W C)} (h₀ : Initial s₀)
    (hr : run (step options hooked calls) s₀ as = some t) :
    (Steps (step options hooked calls) (AuditsInTime hooked calls) s₀ as ↔
      Throughout (step options hooked calls) (StaysTruthful options hooked calls) s₀ as) ∧
    Steps (step options hooked calls) (fun s a => ∀ c u, a.caller = some c →
      step options hooked calls s a = some u → Accounts s c u) s₀ as := by
  constructor
  · exact steps_iff_throughout (fun _ _ _ hs hok h => sound_step hs hok h)
      (fun _ hs => hs.staysTruthful) (fun _ _ _ hs h ht => auditsInTime_of_truthful hs h ht)
      (sound_initial h₀) hr
  · have hagree : ∀ (s : State W C) (a : Action W C), (s.dispatch.table.map (·.id)).Nodup →
        ((∀ c u, a.caller = some c → step options hooked calls s a = some u → Accounts s c u) ↔
          True) :=
      fun s a hids => ⟨fun _ => trivial, fun _ c u hcaller h => accounts_step hids hcaller h⟩
    exact (steps_congr (fun s a u hids h => ids_step hids h) hagree h₀.ids as).mpr
      (Steps.of_all (fun _ _ => trivial) s₀ as)

end Runs

section Example

/-- No delivery yet, and one call to come. -/
def emptyService : State Bool Unit := ⟨emptyState, fun _ => {}⟩

lemma initial_emptyService : Initial emptyService := ⟨List.nodup_nil, fun _ => rfl⟩

def retryFirst : Unit → AdminCall := fun _ => ⟨.RETRY_DELIVERY, js "d1", { sub := js "admin-1" }⟩

/-- A worker takes up a delivery, and its handler gives it up. -/
def givesUp : List (Action Bool Unit) :=
  [.record exampleEvent [(js "d1", js "audit-record")], .start false, .reclaim false .terminal,
    .reclaim false .retry, .claim false (js "w1") [], .process false true .enabled,
    .outcome false (.terminal (js "gone"))].map .worker

/-- The delivery is retried once it is a dead letter, with a hook that takes the record. -/
def retried : List (Action Bool Unit) :=
  givesUp ++ [.worker (.complete false), .ask (), .lookUp (), .update (), .callHook (),
    .hookResolves ()]

/-- The same, with a hook that rejects. -/
def rejected : List (Action Bool Unit) :=
  givesUp ++ [.worker (.complete false), .ask (), .lookUp (), .update (), .callHook (),
    .hookRejects () ⟨none, js "audit log unreachable"⟩]

/-- The delivery becomes a dead letter between the read of the row and the update. -/
def overtaken : List (Action Bool Unit) :=
  givesUp ++ [.ask (), .lookUp (), .worker (.complete false), .update (), .callHook ()]

/-- The call after a run from `emptyService`. -/
def callAfter (as : List (Action Bool Unit)) : Option CallState :=
  (run (step DEFAULT_DISPATCHER_OPTIONS true retryFirst) emptyService as).map (·.call ())

lemma exists_of_callAfter {as : List (Action Bool Unit)} {state : CallState}
    (h : callAfter as = some state) :
    ∃ s, run (step DEFAULT_DISPATCHER_OPTIONS true retryFirst) emptyService as = some s ∧
      s.call () = state :=
  Option.map_eq_some_iff.mp h

theorem actions_truthful_retried : ∃ t,
    run (step DEFAULT_DISPATCHER_OPTIONS true retryFirst) emptyService retried = some t ∧
    (Steps (step DEFAULT_DISPATCHER_OPTIONS true retryFirst) (AuditsInTime true retryFirst)
        emptyService retried ↔
      Throughout (step DEFAULT_DISPATCHER_OPTIONS true retryFirst)
        (StaysTruthful DEFAULT_DISPATCHER_OPTIONS true retryFirst) emptyService retried) := by
  have hafter : ∃ state, callAfter retried = some state :=
    Option.isSome_iff_exists.mp (by decide +kernel)
  obtain ⟨state, hstate⟩ := hafter
  obtain ⟨t, ht, -⟩ := exists_of_callAfter hstate
  exact ⟨t, ht, (actions_truthful_iff initial_emptyService ht).1⟩

/-- A call throws although it has retried the delivery, and a record says that a delivery was
being processed when it was retried. -/
theorem retries_not_truthful : ∃ s t, Initial emptyService ∧
    run (step DEFAULT_DISPATCHER_OPTIONS true retryFirst) emptyService rejected = some s ∧
    ¬ Truthful retryFirst s ∧
    run (step DEFAULT_DISPATCHER_OPTIONS true retryFirst) emptyService overtaken = some t ∧
    ¬ Truthful retryFirst t := by
  have hrejected : ∃ state, callAfter rejected = some state ∧
      state.phase = .threw (.raised ⟨none, js "audit log unreachable"⟩) ∧ state.writes ≠ [] := by
    refine ⟨(callAfter rejected).getD {}, ?_, ?_, ?_⟩ <;> decide +kernel
  have hovertaken : ∃ state, callAfter overtaken = some state ∧
      ∃ record ∈ state.audits, record.deliveryBefore.status ≠ .DEAD_LETTER := by
    refine ⟨(callAfter overtaken).getD {}, ?_, ?_⟩ <;> decide +kernel
  obtain ⟨first, hfirst, hthrew, hwrites⟩ := hrejected
  obtain ⟨second, hsecond, record, hrecord, hstatus⟩ := hovertaken
  obtain ⟨s, hs, rfl⟩ := exists_of_callAfter hfirst
  obtain ⟨t, ht, rfl⟩ := exists_of_callAfter hsecond
  exact ⟨s, t, initial_emptyService, hs, fun h => hwrites (h.threw () _ hthrew), ht,
    fun h => hstatus (h.records () record hrecord).1⟩

end Example

end Appspine.AdminActions
