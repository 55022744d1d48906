import Appspine.JsNumerals
import Appspine.InsertionMap
import Appspine.LastWriter

/-!
# Mirror synchronisation

`createMasterDataSyncHandler` over one mirror table: rows by `sourceId`, kept unique by the
database. Rows are deleted for good, so nothing remembers the `seq` of a delete event.
-/
namespace Appspine.MasterData
open JsText InsertionMap LastWriter

/-- `bigint | number | string`; a number that is not finite is `none`. -/
inductive EventSeq where
  | bigint (value : ℤ)
  | number (value : Option ℚ)
  | text (value : JsString)
  deriving DecidableEq

/-- What a call may throw: by its class, and a database error by its `code`. -/
inductive Thrown where
  | rangeError
  | syntaxError
  | error (message : JsString)
  | mapping (message : JsString)
  | known (code : JsString)
  deriving DecidableEq

def toComparableSeq : EventSeq → Except Thrown ℤ
  | .bigint value => .ok value
  | .number (some value) => if value.den = 1 then .ok value.num else .error .rangeError
  | .number none => .error .rangeError
  | .text value =>
    match stringToBigInt value with
    | some n => .ok n
    | none => .error .syntaxError

structure MasterDataEventRecord (P : Type) where
  seq : EventSeq
  eventType : JsString
  aggregateId : JsString
  after : Option P := none
  before : Option P := none
  payload : Option P := none
  createdAt : Option ℤ := none

/-- What a mapper returns: the row but for `seq` and `syncedAt`. -/
structure Mapped (D : Type) where
  sourceId : JsString
  fields : D
  deriving DecidableEq

/-- A mirror row but for its `sourceId`. -/
structure MirrorRow (D : Type) where
  fields : D
  seq : EventSeq
  syncedAt : ℤ
  deriving DecidableEq

/-- A mirror table: rows by `sourceId`. -/
abbrev Mirror (D : Type) := Entries JsString (MirrorRow D)

structure MasterDataSyncHandlerOptions where
  changedEventTypes : List JsString
  deletedEventTypes : List JsString

abbrev MasterDataMirrorMapper (P D : Type) :=
  P → MasterDataEventRecord P → Except Thrown (Mapped D)

variable {P D : Type}

section Model

def findUnique (mirror : Mirror D) (sourceId : JsString) : Option (MirrorRow D) :=
  get mirror sourceId

/-- The rows under any other `sourceId`. -/
def without (mirror : Mirror D) (sourceId : JsString) : Mirror D :=
  mirror.filter (fun row => decide (row.1 ≠ sourceId))

/-- Updates the row found under `sourceId`, or creates it. No other row may have the
`sourceId` that `data` brings. -/
def upsert (mirror : Mirror D) (sourceId : JsString) (data : JsString × MirrorRow D) :
    Except Thrown (Mirror D) :=
  if has (without mirror sourceId) data.1 then .error (.known (js "P2002"))
  else .ok (set (without mirror sourceId) data.1 data.2)

def delete (mirror : Mirror D) (sourceId : JsString) : Except Thrown (Mirror D) :=
  if has mirror sourceId then .ok (without mirror sourceId) else .error (.known (js "P2025"))

lemma get_without (mirror : Mirror D) (sourceId k : JsString) :
    get (without mirror sourceId) k = if k = sourceId then none else get mirror k := by
  by_cases hk : k = sourceId
  · rw [if_pos hk, get_eq_none]
    simp [without, keys, hk]
  · rw [if_neg hk]
    exact get_filter_key (fun key => decide (key ≠ sourceId)) mirror (by simpa using hk)

/-- A row may always be written under the `sourceId` it was looked up by. -/
lemma upsert_self (mirror : Mirror D) (sourceId : JsString) (row : MirrorRow D) :
    upsert mirror sourceId (sourceId, row) = .ok (set (without mirror sourceId) sourceId row) := by
  have hnone : has (without mirror sourceId) sourceId = false := by
    rw [Bool.eq_false_iff, ne_eq, has_iff, ← get_eq_none, get_without, if_pos rfl]
  simp [upsert, hnone]

lemma get_upsert {mirror written : Mirror D} {sourceId : JsString} {data : JsString × MirrorRow D}
    (h : upsert mirror sourceId data = .ok written) (k : JsString) :
    get written k = if k = data.1 then some data.2 else
      if k = sourceId then none else get mirror k := by
  unfold upsert at h
  split_ifs at h
  rw [← Except.ok.inj h, get_set, get_without]

lemma get_delete {mirror left : Mirror D} {sourceId : JsString}
    (h : delete mirror sourceId = .ok left) (k : JsString) :
    get left k = if k = sourceId then none else get mirror k := by
  unfold delete at h
  split_ifs at h
  rw [← Except.ok.inj h, get_without]

lemma delete_eq_ok {mirror : Mirror D} {sourceId : JsString} {row : MirrorRow D}
    (h : findUnique mirror sourceId = some row) :
    delete mirror sourceId = .ok (without mirror sourceId) := by
  have hhas : has mirror sourceId = true := has_iff.mpr (mem_keys_of_get h)
  simp [delete, hhas]

end Model

section Handler

inductive SyncOutcome where
  | upserted
  | deleted
  | skipped
  | ignored
  deriving DecidableEq

def resolvePayload (event : MasterDataEventRecord P) : Option P := event.after.or event.payload

def isKnownMissingRecordError (error : Thrown) : Bool := error = .known (js "P2025")

def missingPayload (event : MasterDataEventRecord P) : Thrown :=
  .error (js "Master data event \"" ++ event.eventType ++
    js "\" did not include an after/payload object.")

/-- `existing.seq >= event.seq`. -/
def isStale (existing : MirrorRow D) (event : MasterDataEventRecord P) : Except Thrown Bool := do
  let held ← toComparableSeq existing.seq
  let seq ← toComparableSeq event.seq
  pure (decide (seq ≤ held))

/-- What a call does once it has read the row: it is over, or one write is left. -/
inductive Decision (D : Type) where
  | finish (result : Except Thrown SyncOutcome)
  | delete
  | upsert (data : JsString × MirrorRow D)

variable (options : MasterDataSyncHandlerOptions) (mapper : MasterDataMirrorMapper P D)

/-- The row a changed event is mapped to, written at `now`. -/
def mappedRow (event : MasterDataEventRecord P) (now : ℤ) : Except Thrown (JsString × MirrorRow D) :=
  match resolvePayload event with
  | none => .error (missingPayload event)
  | some payload => do
    let mapped ← mapper payload event
    pure (mapped.sourceId, { fields := mapped.fields, seq := event.seq, syncedAt := now })

/-- What follows the look-up for a deleted event. -/
def decideDelete (event : MasterDataEventRecord P) (existing : Option (MirrorRow D)) : Decision D :=
  match existing with
  | none => .finish (.ok .skipped)
  | some row =>
    match isStale row event with
    | .error error => .finish (.error error)
    | .ok true => .finish (.ok .skipped)
    | .ok false => .delete

def decideUpsert (event : MasterDataEventRecord P) (now : ℤ) : Decision D :=
  match mappedRow mapper event now with
  | .error error => .finish (.error error)
  | .ok data => .upsert data

/-- What follows the look-up for a changed event. -/
def decideChange (event : MasterDataEventRecord P) (now : ℤ) (existing : Option (MirrorRow D)) :
    Decision D :=
  match existing with
  | none => decideUpsert mapper event now
  | some row =>
    match isStale row event with
    | .error error => .finish (.error error)
    | .ok true => .finish (.ok .skipped)
    | .ok false => decideUpsert mapper event now

/-- Between the look-up and the write of one `handle` call. -/
def decideHandle (event : MasterDataEventRecord P) (now : ℤ) (existing : Option (MirrorRow D)) :
    Decision D :=
  if event.eventType ∈ options.deletedEventTypes then decideDelete event existing
  else if event.eventType ∈ options.changedEventTypes then decideChange mapper event now existing
  else .finish (.ok .ignored)

/-- The write that is left, and what the call returns. -/
def carryOut (mirror : Mirror D) (sourceId : JsString) :
    Decision D → Except Thrown SyncOutcome × Mirror D
  | .finish result => (result, mirror)
  | .delete =>
    match delete mirror sourceId with
    | .ok left => (.ok .deleted, left)
    | .error error =>
      if isKnownMissingRecordError error then (.ok .skipped, mirror) else (.error error, mirror)
  | .upsert data =>
    match upsert mirror sourceId data with
    | .ok written => (.ok .upserted, written)
    | .error error => (.error error, mirror)

/-- One `handle` call with nothing between its look-up and its write. -/
def handle (mirror : Mirror D) (event : MasterDataEventRecord P) (now : ℤ) :
    Except Thrown SyncOutcome × Mirror D :=
  carryOut mirror event.aggregateId
    (decideHandle options mapper event now (findUnique mirror event.aggregateId))

/-- The mirror once the calls, each an event and the time it is handled at, were processed one
after another. A call that throws leaves the mirror as it was. -/
def mirrorAfter (mirror : Mirror D) (calls : List (MasterDataEventRecord P × ℤ)) : Mirror D :=
  calls.foldl (fun mirror call => (handle options mapper mirror call.1 call.2).2) mirror

end Handler

section Convergence

variable (options : MasterDataSyncHandlerOptions) (mapper : MasterDataMirrorMapper P D)

/-- The rank of an event among those of its aggregate. -/
def seqOf (event : MasterDataEventRecord P) : ℤ := (toComparableSeq event.seq).toOption.getD 0

def IsDelete (event : MasterDataEventRecord P) : Prop :=
  event.eventType ∈ options.deletedEventTypes

instance : DecidablePred (IsDelete options : MasterDataEventRecord P → Prop) :=
  fun event => inferInstanceAs (Decidable (event.eventType ∈ options.deletedEventTypes))

/-- The row carries the payload of the event, as mapped, and its `seq`. -/
def RowOf (event : MasterDataEventRecord P) (row : MirrorRow D) : Prop :=
  ∃ payload mapped, resolvePayload event = some payload ∧ mapper payload event = .ok mapped ∧
    row.fields = mapped.fields ∧ row.seq = event.seq

/-- An event of the aggregate: a delete, or a change with a payload that is mapped to it. -/
structure EventOf (aggregateId : JsString) (event : MasterDataEventRecord P) : Prop where
  aggregate : event.aggregateId = aggregateId
  comparable : ∃ n, toComparableSeq event.seq = .ok n
  changed : ¬ IsDelete options event → event.eventType ∈ options.changedEventTypes ∧
    ∃ payload mapped, resolvePayload event = some payload ∧ mapper payload event = .ok mapped ∧
      mapped.sourceId = aggregateId

/-- The events of one aggregate, by strictly increasing `seq`. -/
structure AggregateHistory (aggregateId : JsString) (history : List (MasterDataEventRecord P)) :
    Prop where
  events : ∀ event ∈ history, EventOf options mapper aggregateId event
  increasing : history.Pairwise (fun e f => seqOf e < seqOf f)

/-- The mirror holds what the last write of the cell left. -/
def Mirrors (row : Option (MirrorRow D)) (cell : Option (MasterDataEventRecord P)) : Prop :=
  match cell with
  | none => row = none
  | some event => ∃ held, row = some held ∧ RowOf mapper event held

variable {options mapper} {aggregateId : JsString}

lemma isStale_eq {event held : MasterDataEventRecord P} {row : MirrorRow D}
    (hevent : EventOf options mapper aggregateId event)
    (hheld : EventOf options mapper aggregateId held) (hrow : RowOf mapper held row) :
    isStale row event = .ok (decide (seqOf event ≤ seqOf held)) := by
  obtain ⟨n, hn⟩ := hevent.comparable
  obtain ⟨m, hm⟩ := hheld.comparable
  obtain ⟨-, -, -, -, -, hseq⟩ := hrow
  simp [isStale, hseq, hn, hm, seqOf, Except.toOption, bind, Except.bind, pure, Except.pure]

lemma decideUpsert_eq {event : MasterDataEventRecord P}
    (hevent : EventOf options mapper aggregateId event) (hchange : ¬ IsDelete options event)
    (now : ℤ) :
    ∃ row, decideUpsert mapper event now = .upsert (aggregateId, row) ∧ RowOf mapper event row := by
  obtain ⟨-, payload, mapped, hpayload, hmapped, hid⟩ := hevent.changed hchange
  refine ⟨{ fields := mapped.fields, seq := event.seq, syncedAt := now }, ?_,
    payload, mapped, hpayload, hmapped, rfl, rfl⟩
  simp [decideUpsert, mappedRow, hpayload, hmapped, hid, bind, Except.bind, pure, Except.pure]

/-- What a call is left to do is what one update does to the cell. -/
lemma decideHandle_settles {event : MasterDataEventRecord P}
    {cell : Option (MasterDataEventRecord P)} {row : Option (MirrorRow D)}
    (hevent : EventOf options mapper aggregateId event)
    (hcell : ∀ held, cell = some held → EventOf options mapper aggregateId held)
    (hmirrors : Mirrors mapper row cell) (now : ℤ) :
    (decideHandle options mapper event now row = .finish (.ok .skipped) ∧
        settle seqOf (IsDelete options) cell event = cell) ∨
      (decideHandle options mapper event now row = .delete ∧ row ≠ none ∧
        settle seqOf (IsDelete options) cell event = none) ∨
      ∃ data, decideHandle options mapper event now row = .upsert (aggregateId, data) ∧
        RowOf mapper event data ∧ settle seqOf (IsDelete options) cell event = some event := by
  by_cases hdelete : IsDelete options event
  · have hdecide : decideHandle options mapper event now row = decideDelete event row := if_pos hdelete
    cases cell with
    | none =>
      obtain rfl : row = none := hmirrors
      exact Or.inl ⟨by simp [hdecide, decideDelete], by simp [settle, hdelete]⟩
    | some held =>
      obtain ⟨before, rfl, hrowOf⟩ := hmirrors
      have hstale := isStale_eq hevent (hcell held rfl) hrowOf
      by_cases hle : seqOf event ≤ seqOf held
      · exact Or.inl ⟨by simp [hdecide, decideDelete, hstale, hle], by simp [settle, hle]⟩
      · exact Or.inr (Or.inl ⟨by simp [hdecide, decideDelete, hstale, hle], by simp,
          by simp [settle, hle, hdelete]⟩)
  · have hdecide : decideHandle options mapper event now row = decideChange mapper event now row := by
      have htype : event.eventType ∉ options.deletedEventTypes := hdelete
      rw [decideHandle, if_neg htype, if_pos (hevent.changed hdelete).1]
    obtain ⟨data, hupsert, hdata⟩ := decideUpsert_eq hevent hdelete now
    cases cell with
    | none =>
      obtain rfl : row = none := hmirrors
      exact Or.inr (Or.inr ⟨data, by simp [hdecide, decideChange, hupsert], hdata,
        by simp [settle, hdelete]⟩)
    | some held =>
      obtain ⟨before, rfl, hrowOf⟩ := hmirrors
      have hstale := isStale_eq hevent (hcell held rfl) hrowOf
      by_cases hle : seqOf event ≤ seqOf held
      · exact Or.inl ⟨by simp [hdecide, decideChange, hstale, hle], by simp [settle, hle]⟩
      · exact Or.inr (Or.inr ⟨data, by simp [hdecide, decideChange, hstale, hle, hupsert],
          hdata, by simp [settle, hle, hdelete]⟩)

/-- One call updates the row of its aggregate as the cell is updated, and does not throw. -/
lemma handle_settles {mirror : Mirror D} {event : MasterDataEventRecord P}
    {cell : Option (MasterDataEventRecord P)} (hevent : EventOf options mapper aggregateId event)
    (hcell : ∀ held, cell = some held → EventOf options mapper aggregateId held)
    (hmirrors : Mirrors mapper (findUnique mirror aggregateId) cell) (now : ℤ) :
    (∃ outcome, (handle options mapper mirror event now).1 = .ok outcome) ∧
      Mirrors mapper (findUnique (handle options mapper mirror event now).2 aggregateId)
        (settle seqOf (IsDelete options) cell event) := by
  rw [handle, hevent.aggregate]
  rcases decideHandle_settles hevent hcell hmirrors now with
    ⟨hdecide, hsettle⟩ | ⟨hdecide, hrow, hsettle⟩ | ⟨data, hdecide, hdata, hsettle⟩
  · rw [hdecide, hsettle]
    exact ⟨⟨_, rfl⟩, hmirrors⟩
  · obtain ⟨row, hrow⟩ := Option.ne_none_iff_exists'.mp hrow
    rw [hdecide, hsettle]
    simp only [carryOut, delete_eq_ok hrow]
    exact ⟨⟨_, rfl⟩, by simp [Mirrors, findUnique, get_without]⟩
  · rw [hdecide, hsettle]
    simp only [carryOut, upsert_self]
    exact ⟨⟨_, rfl⟩, data, by simp [findUnique, get_set], hdata⟩

lemma mirrorAfter_settles {mirror : Mirror D} {calls : List (MasterDataEventRecord P × ℤ)}
    {cell : Option (MasterDataEventRecord P)}
    (hcalls : ∀ call ∈ calls, EventOf options mapper aggregateId call.1)
    (hcell : ∀ held, cell = some held → EventOf options mapper aggregateId held)
    (hmirrors : Mirrors mapper (findUnique mirror aggregateId) cell) :
    Mirrors mapper (findUnique (mirrorAfter options mapper mirror calls) aggregateId)
      (settleAll seqOf (IsDelete options) cell (calls.map Prod.fst)) := by
  induction calls generalizing mirror cell with
  | nil => exact hmirrors
  | cons call calls ih =>
    have hevent := hcalls call (by simp)
    refine ih (fun c hc => hcalls c (List.mem_cons_of_mem _ hc)) ?_
      (handle_settles hevent hcell hmirrors call.2).2
    intro held hheld
    cases cell with
    | none =>
      simp only [settle] at hheld
      split_ifs at hheld
      exact (Option.some.inj hheld) ▸ hevent
    | some before =>
      simp only [settle] at hheld
      split_ifs at hheld
      · exact (Option.some.inj hheld) ▸ hcell before rfl
      · exact (Option.some.inj hheld) ▸ hevent

/-- The last event of a history is above every other. -/
lemma AggregateHistory.le_last {history : List (MasterDataEventRecord P)}
    {last : MasterDataEventRecord P} (h : AggregateHistory options mapper aggregateId history)
    (hlast : history.getLast? = some last) :
    ∀ event ∈ history, event = last ∨ seqOf event < seqOf last := by
  obtain ⟨earlier, rfl⟩ := List.getLast?_eq_some_iff.mp hlast
  intro event hevent
  rcases List.mem_append.mp hevent with hearlier | hself
  · exact Or.inr ((List.pairwise_append.mp h.increasing).2.2 event hearlier last (by simp))
  · exact Or.inl (by simpa using hself)

/-- However the events of a history are delivered: a change at its end is what the mirror ends
with; after a delete at its end the row is gone exactly when every change that was processed
was followed by a delete of a higher `seq`. -/
theorem mirror_converges {history : List (MasterDataEventRecord P)} {mirror : Mirror D}
    {calls : List (MasterDataEventRecord P × ℤ)}
    (hhistory : AggregateHistory options mapper aggregateId history)
    (hempty : findUnique mirror aggregateId = none)
    (hdelivered : ∀ event, event ∈ calls.map Prod.fst ↔ event ∈ history) :
    (∀ last, history.getLast? = some last → ¬ IsDelete options last →
        ∃ row, findUnique (mirrorAfter options mapper mirror calls) aggregateId = some row ∧
          RowOf mapper last row) ∧
      ((∀ last, history.getLast? = some last → IsDelete options last) →
        (findUnique (mirrorAfter options mapper mirror calls) aggregateId = none ↔
          WritesOvertaken seqOf (IsDelete options) (calls.map Prod.fst))) := by
  have hcalls : ∀ call ∈ calls, EventOf options mapper aggregateId call.1 := fun call hcall =>
    hhistory.events _ ((hdelivered _).mp (List.mem_map_of_mem hcall))
  have hmirrors : Mirrors mapper (findUnique (mirrorAfter options mapper mirror calls) aggregateId)
      (settleAll seqOf (IsDelete options) none (calls.map Prod.fst)) :=
    mirrorAfter_settles hcalls (by simp) hempty
  constructor
  · intro last hlast hchange
    have htop : settleAll seqOf (IsDelete options) none (calls.map Prod.fst) = some last := by
      refine settleAll_eq_top hchange ?_ (by simp) (Or.inr ?_)
      · intro event hevent
        exact hhistory.le_last hlast event ((hdelivered event).mp hevent)
      · exact (hdelivered last).mpr (List.mem_of_getLast? hlast)
    rw [htop] at hmirrors
    exact hmirrors
  · intro _
    have hnone : settleAll seqOf (IsDelete options) none (calls.map Prod.fst) = none ↔
        WritesOvertaken seqOf (IsDelete options) (calls.map Prod.fst) := by
      simpa using @settleAll_eq_none_iff _ _ _ seqOf (IsDelete options) _ none (calls.map Prod.fst)
    rw [← hnone]
    constructor
    · intro hrow
      by_contra hsome
      obtain ⟨event, hevent⟩ := Option.ne_none_iff_exists'.mp hsome
      rw [hevent] at hmirrors
      obtain ⟨row, hheld, -⟩ := hmirrors
      exact absurd (hrow.symm.trans hheld) (by simp)
    · intro hsettled
      rw [hsettled] at hmirrors
      exact hmirrors

end Convergence

section Redelivery

/-- A unit that is changed, and then deleted. -/
def unitChanged : MasterDataEventRecord JsString :=
  { seq := .bigint 1, eventType := js "OrgUnitChanged", aggregateId := js "unit-1"
    after := some (js "Finance") }

def unitDeleted : MasterDataEventRecord JsString :=
  { seq := .bigint 2, eventType := js "OrgUnitDeleted", aggregateId := js "unit-1" }

def unitOptions : MasterDataSyncHandlerOptions :=
  { changedEventTypes := [js "OrgUnitChanged"], deletedEventTypes := [js "OrgUnitDeleted"] }

def unitMapper : MasterDataMirrorMapper JsString JsString :=
  fun payload event => .ok { sourceId := event.aggregateId, fields := payload }

lemma unitHistory :
    AggregateHistory unitOptions unitMapper (js "unit-1") [unitChanged, unitDeleted] where
  events := by
    intro event hevent
    simp only [List.mem_cons, List.not_mem_nil, or_false] at hevent
    rcases hevent with rfl | rfl
    · exact ⟨rfl, ⟨1, rfl⟩, fun _ => ⟨by decide, js "Finance", _, rfl, rfl, rfl⟩⟩
    · exact ⟨rfl, ⟨2, rfl⟩, fun hchange => absurd (by decide : IsDelete unitOptions unitDeleted) hchange⟩
  increasing := by
    have hlt : seqOf unitChanged < seqOf unitDeleted := by decide
    simp [hlt]

/-- The change arrives again after the delete: the row is there again, at the older `seq`. -/
theorem redelivered_change_revives :
    AggregateHistory unitOptions unitMapper (js "unit-1") [unitChanged, unitDeleted] ∧
      (∀ event, event ∈ [unitChanged, unitDeleted, unitChanged] ↔
        event ∈ [unitChanged, unitDeleted]) ∧
      findUnique (mirrorAfter unitOptions unitMapper [] [(unitChanged, 0), (unitDeleted, 1)])
        (js "unit-1") = none ∧
      findUnique (mirrorAfter unitOptions unitMapper []
        [(unitChanged, 0), (unitDeleted, 1), (unitChanged, 2)]) (js "unit-1") =
          some { fields := js "Finance", seq := .bigint 1, syncedAt := 2 } := by
  refine ⟨unitHistory, ?_, by decide +kernel, by decide +kernel⟩
  intro event
  simp only [List.mem_cons, List.not_mem_nil, or_false]
  exact ⟨fun h => h.elim Or.inl (fun h => h.elim Or.inr Or.inl), fun h => h.elim Or.inl (Or.inr ∘ Or.inl)⟩

theorem mirror_converges_redelivered :
    findUnique (mirrorAfter unitOptions unitMapper []
        [(unitDeleted, 0), (unitChanged, 1), (unitDeleted, 2)]) (js "unit-1") = none ↔
      WritesOvertaken seqOf (IsDelete unitOptions) [unitDeleted, unitChanged, unitDeleted] :=
  (@mirror_converges _ _ _ _ _ _ [] [(unitDeleted, 0), (unitChanged, 1), (unitDeleted, 2)]
    unitHistory rfl (by
      intro event
      simp only [List.map_cons, List.map_nil, List.mem_cons, List.not_mem_nil, or_false]
      exact ⟨fun h => h.elim Or.inr (fun h => h.elim Or.inl Or.inr),
        fun h => h.elim (Or.inr ∘ Or.inl) Or.inl⟩)).2 (by
      intro last hlast
      obtain rfl : unitDeleted = last := by simpa using hlast
      decide)

end Redelivery

end Appspine.MasterData
