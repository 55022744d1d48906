import Appspine.Notification
import Appspine.Transitions

/-!
# Runs of the notification service

Calls of `NotificationService`, interleaved over one table. Each call of the database is atomic
and may fail; between two of them any other call may run.
-/
namespace Appspine.Notification
open JsText PagedListing Transitions

section Calls

inductive Operation where
  | notify (input : CreateNotificationInput)
  | notifyMany (inputs : List CreateNotificationInput)
  | getInbox (recipientUserId : JsString) (query : NotificationQuery)
  | getUnreadCount (recipientUserId : JsString)
  | markRead (notificationId recipientUserId : JsString)
  | markAllRead (recipientUserId : JsString)
  | archive (notificationId recipientUserId : JsString)

inductive Result where
  | record (row : NotificationRecord)
  | records (rows : List NotificationRecord)
  | page (page : NotificationPage)
  | count (count : ℕ)

/-- Where a call is. The two reads of `getInbox` may come in either order. -/
inductive Phase where
  | notStarted
  | inserted (data : NotificationCreateData)
  | insertedMany (data : List NotificationCreateData)
  | reading (owner : JsString) (page limit : ℕ) (data : Option (List NotificationRecord))
      (total : Option ℕ)
  | stamped (id owner : JsString)
  | done (result : Except Thrown Result)

/-- The circumstances of one call of the database. -/
structure DatabaseCall where
  now : ℤ
  /-- The ids that are drawn for new rows. -/
  ids : List JsString := []
  fails : Bool := false
  countFirst : Bool := false

abbrev Rows := List NotificationRecord

/-- `findMany` of `getInbox`. -/
def findInbox (collation : Collation) (rows : Rows) (owner : JsString) (page limit : ℕ) : Rows :=
  PagedListing.page limit (page - 1)
    ((rows.filter (inInbox owner)).insertionSort (inboxOrder collation).le)

/-- `${recipientUserId}\u0000${idempotencyKey}`. -/
def notificationKey (recipientUserId idempotencyKey : JsString) : JsString :=
  recipientUserId ++ 0 :: idempotencyKey

variable (resolves : JsString → Bool) (collation : Collation)

/-- The insert of `notify` and `notifyMany`, with where the call goes on. -/
def insertAll (call : DatabaseCall) (data : List NotificationCreateData) (next : Phase) (rows : Rows) :
    Rows × Phase :=
  if call.fails then (rows, .done (.error .database))
  else match createMany call.now call.ids data rows with
    | none => (rows, .done (.error .database))
    | some created => (created, next)

def notify (call : DatabaseCall) (input : CreateNotificationInput) (rows : Rows) : Rows × Phase :=
  match createData resolves input with
  | none => (rows, .done (.error invalidInput))
  | some data => insertAll call [data] (.inserted data) rows

def tooManyInputs (received : ℕ) : Thrown :=
  .badRequest (js s!"notifyMany accepts at most {notificationLimits.notifyManyBatch} inputs per call, received {received}")

def notifyMany (call : DatabaseCall) (inputs : List CreateNotificationInput) (rows : Rows) :
    Rows × Phase :=
  if inputs.length > notificationLimits.notifyManyBatch then
    (rows, .done (.error (tooManyInputs inputs.length)))
  else match inputs.mapM (createData resolves) with
    | none => (rows, .done (.error invalidInput))
    | some [] => (rows, .done (.ok (.records [])))
    | some data => insertAll call data (.insertedMany data) rows

/-- `markRead` and `archive` up to the read of the row. -/
def stampOwned (call : DatabaseCall) (stamp : Stamp) (notificationId recipientUserId : JsString)
    (rows : Rows) : Rows × Phase :=
  match validateRecipient notificationId, validateRecipient recipientUserId with
  | .error error, _ => (rows, .done (.error error))
  | .ok _, .error error => (rows, .done (.error error))
  | .ok id, .ok owner =>
    if call.fails then (rows, .done (.error .database))
    else (updateMany call.now stamp (ownedWithout stamp id owner) rows, .stamped id owner)

def markRead (call : DatabaseCall) : JsString → JsString → Rows → Rows × Phase :=
  stampOwned call .readAt

def archive (call : DatabaseCall) : JsString → JsString → Rows → Rows × Phase :=
  stampOwned call .archivedAt

def markAllRead (call : DatabaseCall) (recipientUserId : JsString) (rows : Rows) : Rows × Phase :=
  match validateRecipient recipientUserId with
  | .error error => (rows, .done (.error error))
  | .ok owner =>
    if call.fails then (rows, .done (.error .database))
    else (updateMany call.now .readAt (isUnread owner) rows,
      .done (.ok (.count (rows.countP (isUnread owner)))))

def getUnreadCount (call : DatabaseCall) (recipientUserId : JsString) (rows : Rows) : Phase :=
  match validateRecipient recipientUserId with
  | .error error => .done (.error error)
  | .ok owner =>
    if call.fails then .done (.error .database)
    else .done (.ok (.count (rows.countP (isUnread owner))))

/-- The checks of `getInbox`, before its two reads. -/
def getInbox (recipientUserId : JsString) (query : NotificationQuery) : Phase :=
  match validateRecipient recipientUserId, parseQuery query with
  | .error error, _ => .done (.error error)
  | .ok _, .error error => .done (.error error)
  | .ok owner, .ok (page, limit) => .reading owner page limit none none

/-- A call up to its first write, when it has one. -/
def start (call : DatabaseCall) (rows : Rows) : Operation → Rows × Phase
  | .notify input => notify resolves call input rows
  | .notifyMany inputs => notifyMany resolves call inputs rows
  | .getInbox recipientUserId query => (rows, getInbox recipientUserId query)
  | .getUnreadCount recipientUserId => (rows, getUnreadCount call recipientUserId rows)
  | .markRead notificationId recipientUserId => markRead call notificationId recipientUserId rows
  | .markAllRead recipientUserId => markAllRead call recipientUserId rows
  | .archive notificationId recipientUserId => archive call notificationId recipientUserId rows

def notReadBack : Thrown :=
  .notReadBack (js "Notification insert succeeded but the row could not be read back")

def batchNotReadBack : Thrown :=
  .notReadBack (js "Notification batch insert succeeded but a row could not be read back")

/-- `byKey.get`: of the rows that were found, the last one with the key of the item. -/
def byKey (found : Rows) (item : NotificationCreateData) : Option NotificationRecord :=
  found.reverse.find? fun row =>
    decide (notificationKey row.recipientUserId row.idempotencyKey =
      notificationKey item.recipientUserId item.idempotencyKey)

/-- `findMany` of `notifyMany`. -/
def findBatch (rows : Rows) (data : List NotificationCreateData) : Rows :=
  rows.filter fun row =>
    data.any fun item => decide (row.hasKey item.recipientUserId item.idempotencyKey)

def readBackMany (rows : Rows) (data : List NotificationCreateData) : Except Thrown Result :=
  match data.mapM (byKey (findBatch rows data)) with
  | none => .error batchNotReadBack
  | some read => .ok (.records read)

def readBack (rows : Rows) (data : NotificationCreateData) : Except Thrown Result :=
  match rows.find? (fun row => decide (row.hasKey data.recipientUserId data.idempotencyKey)) with
  | none => .error notReadBack
  | some row => .ok (.record row)

def findOwnedOrThrow (rows : Rows) (id owner : JsString) : Except Thrown Result :=
  match rows.find? (fun row => decide (row.id = id ∧ row.recipientUserId = owner)) with
  | none => .error .notFound
  | some row => .ok (.record row)

/-- The next read of a call. -/
def read (call : DatabaseCall) (rows : Rows) : Phase → Option Phase
  | .notStarted => none
  | .done _ => none
  | .inserted data => some (.done (if call.fails then .error .database else readBack rows data))
  | .insertedMany data =>
    some (.done (if call.fails then .error .database else readBackMany rows data))
  | .stamped id owner =>
    some (.done (if call.fails then .error .database else findOwnedOrThrow rows id owner))
  | .reading owner page limit data total =>
    if call.fails then some (.done (.error .database))
    else
      let found := findInbox collation rows owner page limit
      let count := rows.countP (inInbox owner)
      match data, total with
      | none, none =>
        if call.countFirst then some (.reading owner page limit none (some count))
        else some (.reading owner page limit (some found) none)
      | some data, total => some (.done (.ok (.page ⟨data, total.getD count, page, limit⟩)))
      | none, some total => some (.done (.ok (.page ⟨found, total, page, limit⟩)))

end Calls

section Runs

structure State (C : Type) where
  rows : Rows
  phase : C → Phase

def State.initial (C : Type) : State C := ⟨[], fun _ => .notStarted⟩

variable {C : Type} [DecidableEq C] (resolves : JsString → Bool) (collation : Collation)
  (operations : C → Operation)

/-- The next database call of one service call, with what it does up to the one after it. -/
def step (s : State C) (a : C × DatabaseCall) : Option (State C) :=
  match s.phase a.1 with
  | .notStarted =>
    let outcome := start resolves a.2 s.rows (operations a.1)
    some ⟨outcome.1, Function.update s.phase a.1 outcome.2⟩
  | phase => (read collation a.2 s.rows phase).map fun next =>
    ⟨s.rows, Function.update s.phase a.1 next⟩

end Runs

section Isolation

/-- Who an operation is invoked for. -/
def recipients : Operation → List JsString
  | .notify input => [trim input.recipientUserId]
  | .notifyMany inputs => inputs.map fun input => trim input.recipientUserId
  | .getInbox recipientUserId _ => [trim recipientUserId]
  | .getUnreadCount recipientUserId => [trim recipientUserId]
  | .markRead _ recipientUserId => [trim recipientUserId]
  | .markAllRead recipientUserId => [trim recipientUserId]
  | .archive _ recipientUserId => [trim recipientUserId]

def inputKey (input : CreateNotificationInput) : JsString × JsString :=
  (trim input.recipientUserId, trim input.idempotencyKey)

def NotificationCreateData.key (data : NotificationCreateData) : JsString × JsString :=
  (data.recipientUserId, data.idempotencyKey)

/-- The rows that an operation returns are those it was asked for, of the recipient it was
asked for. -/
def Own : Operation → Result → Prop
  | .notify input, .record row => row.key = inputKey input
  | .notifyMany inputs, .records rows => rows.map (·.key) = inputs.map inputKey
  | .getInbox recipientUserId _, .page page =>
    ∀ row ∈ page.data, row.recipientUserId = trim recipientUserId
  | .getUnreadCount _, .count _ => True
  | .markRead notificationId recipientUserId, .record row =>
    row.id = trim notificationId ∧ row.recipientUserId = trim recipientUserId
  | .markAllRead _, .count _ => True
  | .archive notificationId recipientUserId, .record row =>
    row.id = trim notificationId ∧ row.recipientUserId = trim recipientUserId
  | _, _ => False

/-- What a call carries belongs to those it was invoked for. -/
def Carries : Operation → Phase → Prop
  | _, .notStarted => True
  | _, .done (.error _) => True
  | operation, .done (.ok result) => Own operation result
  | .notify input, .inserted data => data.key = inputKey input
  | .notifyMany inputs, .insertedMany data =>
    data.map (·.key) = inputs.map inputKey ∧ ∀ item ∈ data, storable item = true
  | .getInbox recipientUserId _, .reading owner _ _ data _ => owner = trim recipientUserId ∧
    ∀ found ∈ data, ∀ row ∈ found, row.recipientUserId = owner
  | .markRead notificationId recipientUserId, .stamped id owner =>
    id = trim notificationId ∧ owner = trim recipientUserId
  | .archive notificationId recipientUserId, .stamped id owner =>
    id = trim notificationId ∧ owner = trim recipientUserId
  | _, _ => False

/-- What an operation for `allowed` recipients may do to the table. -/
structure Keeps (allowed : List JsString) (rows later : Rows) : Prop where
  unique : Unique later
  evolves : ∀ row ∈ rows, ∃ row' ∈ later, Evolves row row'
  others : ∀ row ∈ rows, row.recipientUserId ∉ allowed → row ∈ later
  own : ∀ row ∈ later, row ∈ rows ∨ row.recipientUserId ∈ allowed

variable {rows : Rows} {allowed : List JsString} {call : DatabaseCall}
  {resolves : JsString → Bool} {collation : Collation}

lemma Keeps.refl (hrows : Unique rows) : Keeps allowed rows rows :=
  ⟨hrows, fun row hrow => ⟨row, hrow, .refl row⟩, fun _ hrow _ => hrow, fun _ hrow => .inl hrow⟩

lemma map_of_mapM {α β γ : Type} {f : α → Option β} {g : β → γ} {h : α → γ} {xs : List α}
    {ys : List β} (hf : ∀ a ∈ xs, ∀ b, f a = some b → g b = h a) (hm : xs.mapM f = some ys) :
    ys.map g = xs.map h := by
  induction xs generalizing ys with
  | nil =>
    obtain rfl : [] = ys := by simpa using hm
    rfl
  | cons x xs ih =>
    rw [List.mapM_cons] at hm
    obtain ⟨y, hy, hm⟩ := Option.bind_eq_some_iff.mp hm
    obtain ⟨rest, hrest, hm⟩ := Option.bind_eq_some_iff.mp hm
    obtain rfl := Option.some.inj hm
    rw [List.map_cons, List.map_cons, hf x List.mem_cons_self y hy,
      ih (fun a ha => hf a (List.mem_cons_of_mem x ha)) hrest]

lemma createData_keys {inputs : List CreateNotificationInput} {data : List NotificationCreateData}
    (h : inputs.mapM (createData resolves) = some data) : data.map (·.key) = inputs.map inputKey :=
  map_of_mapM (fun _ _ _ hitem => Prod.ext (createData_key hitem).1 (createData_key hitem).2) h

lemma recipients_of_keys {inputs : List CreateNotificationInput} {data : List NotificationCreateData}
    (h : data.map (·.key) = inputs.map inputKey) {item : NotificationCreateData} (hitem : item ∈ data) :
    item.recipientUserId ∈ inputs.map fun input => trim input.recipientUserId := by
  have hkey : item.key ∈ inputs.map inputKey := h ▸ List.mem_map_of_mem hitem
  obtain ⟨input, hinput, heq⟩ := List.mem_map.mp hkey
  exact List.mem_map.mpr ⟨input, hinput, congrArg Prod.fst heq⟩

/-- The insert keeps to the recipients of its data. -/
lemma insertAll_spec {operation : Operation} {data : List NotificationCreateData} {next : Phase}
    (hrows : Unique rows) (hdata : ∀ item ∈ data, item.recipientUserId ∈ allowed)
    (hnext : (∀ item ∈ data, storable item = true) → Carries operation next) :
    Keeps allowed rows (insertAll call data next rows).1 ∧
      Carries operation (insertAll call data next rows).2 := by
  unfold insertAll
  by_cases hfails : call.fails = true
  · rw [if_pos hfails]
    exact ⟨.refl hrows, trivial⟩
  · rw [if_neg hfails]
    cases hcreated : createMany call.now call.ids data rows with
    | none => exact ⟨.refl hrows, trivial⟩
    | some created =>
      obtain ⟨hunique, hsubset, hstorable, hmem⟩ := createMany_spec hrows hcreated
      refine ⟨⟨hunique, fun row hrow => ⟨row, hsubset hrow, .refl row⟩,
        fun row hrow _ => hsubset hrow, fun row hrow => ?_⟩, hnext hstorable⟩
      exact (hmem row hrow).imp_right fun hnew => hdata _ hnew

/-- A stamp on rows of one recipient keeps to that recipient. -/
lemma keeps_updateMany {now : ℤ} {stamp : Stamp} {matching : NotificationRecord → Bool}
    (hrows : Unique rows) (hmatching : ∀ row, matching row = true →
      row.recipientUserId ∈ allowed ∧ row.stamp stamp = none) :
    Keeps allowed rows (updateMany now stamp matching rows) := by
  obtain ⟨hunique, hevolves, hmem⟩ :=
    updateMany_spec hrows fun row hrow => (hmatching row hrow).2
  refine ⟨hunique, hevolves, fun row hrow hother => ?_, fun row hrow => ?_⟩
  · refine mem_updateMany hrow ?_
    rw [← Bool.not_eq_true]
    exact fun h => hother (hmatching row h).1
  · refine (hmem row hrow).imp_right ?_
    rintro ⟨old, -, hold, rfl⟩
    have hdata := @setStamp_data old now stamp
    rw [hdata]
    exact (hmatching old hold).1

lemma stampOwned_spec {operation : Operation} {stamp : Stamp} {notificationId recipientUserId : JsString}
    (hrows : Unique rows)
    (hcarries : Carries operation (.stamped (trim notificationId) (trim recipientUserId))) :
    Keeps [trim recipientUserId] rows (stampOwned call stamp notificationId recipientUserId rows).1 ∧
      Carries operation (stampOwned call stamp notificationId recipientUserId rows).2 := by
  unfold stampOwned
  cases hid : validateRecipient notificationId with
  | error error => exact ⟨.refl hrows, trivial⟩
  | ok id =>
    cases howner : validateRecipient recipientUserId with
    | error error => exact ⟨.refl hrows, trivial⟩
    | ok owner =>
      obtain rfl := validateRecipient_eq_ok hid
      obtain rfl := validateRecipient_eq_ok howner
      simp only
      by_cases hfails : call.fails = true
      · rw [if_pos hfails]
        exact ⟨.refl hrows, trivial⟩
      · rw [if_neg hfails]
        refine ⟨keeps_updateMany hrows fun row hrow => ?_, hcarries⟩
        have hwhere := of_decide_eq_true hrow
        exact ⟨List.mem_singleton.mpr hwhere.2.1, hwhere.2.2⟩

/-- The first database call of an operation. -/
lemma start_spec (hrows : Unique rows) (operation : Operation) :
    Keeps (recipients operation) rows (start resolves call rows operation).1 ∧
      Carries operation (start resolves call rows operation).2 := by
  cases operation with
  | notify input =>
    simp only [start, notify]
    cases hdata : createData resolves input with
    | none => exact ⟨.refl hrows, trivial⟩
    | some data =>
      obtain ⟨hrecipient, hkey⟩ := createData_key hdata
      refine insertAll_spec hrows (fun item hitem => ?_) fun _ => Prod.ext hrecipient hkey
      obtain rfl := List.mem_singleton.mp hitem
      exact List.mem_singleton.mpr hrecipient
  | notifyMany inputs =>
    simp only [start, notifyMany]
    split_ifs
    · exact ⟨.refl hrows, trivial⟩
    · cases hdata : inputs.mapM (createData resolves) with
      | none => exact ⟨.refl hrows, trivial⟩
      | some data =>
        have hkeys := createData_keys hdata
        cases data with
        | nil => exact ⟨.refl hrows, hkeys⟩
        | cons item items =>
          exact insertAll_spec hrows (fun _ hitem => recipients_of_keys hkeys hitem)
            fun hstorable => ⟨hkeys, hstorable⟩
  | getInbox recipientUserId query =>
    refine ⟨.refl hrows, ?_⟩
    simp only [start, getInbox]
    cases howner : validateRecipient recipientUserId with
    | error error => trivial
    | ok owner =>
      cases parseQuery query with
      | error error => trivial
      | ok parsed => exact ⟨validateRecipient_eq_ok howner, fun _ hfound => (nomatch hfound)⟩
  | getUnreadCount recipientUserId =>
    refine ⟨.refl hrows, ?_⟩
    simp only [start, getUnreadCount]
    cases validateRecipient recipientUserId with
    | error error => trivial
    | ok owner =>
      simp only
      split_ifs
      · trivial
      · trivial
  | markRead notificationId recipientUserId => exact stampOwned_spec hrows ⟨rfl, rfl⟩
  | markAllRead recipientUserId =>
    simp only [start, markAllRead]
    cases howner : validateRecipient recipientUserId with
    | error error => exact ⟨.refl hrows, trivial⟩
    | ok owner =>
      simp only
      split_ifs
      · exact ⟨.refl hrows, trivial⟩
      · refine ⟨keeps_updateMany hrows fun row hrow => ?_, trivial⟩
        have hwhere := of_decide_eq_true hrow
        exact ⟨List.mem_singleton.mpr (hwhere.1.trans (validateRecipient_eq_ok howner)),
          hwhere.2.1⟩
  | archive notificationId recipientUserId => exact stampOwned_spec hrows ⟨rfl, rfl⟩

lemma of_find {p : NotificationRecord → Prop} [DecidablePred p] {row : NotificationRecord}
    (h : rows.find? (fun row => decide (p row)) = some row) : p row := by
  simpa using List.find?_some h

lemma recipient_of_storable {data : NotificationCreateData} (h : storable data = true) :
    0 ∉ data.recipientUserId := by
  have htext := List.all_eq_true.mp h (some data.recipientUserId) List.mem_cons_self
  simpa using htext

/-- No two keys that the database can hold share a `notificationKey`. -/
lemma hasKey_of_byKey {data : List NotificationCreateData}
    (hstorable : ∀ item ∈ data, storable item = true) {item : NotificationCreateData}
    (hitem : item ∈ data) {row : NotificationRecord}
    (h : byKey (findBatch rows data) item = some row) : row.key = item.key := by
  have hfound : row ∈ findBatch rows data := List.mem_reverse.mp (List.mem_of_find?_eq_some h)
  obtain ⟨other, hother, hkey⟩ := List.any_eq_true.mp (List.mem_filter.mp hfound).2
  have hnotification := of_find h
  have hrecipient : row.recipientUserId = other.recipientUserId := (of_decide_eq_true hkey).1
  have hrow : 0 ∉ row.recipientUserId :=
    hrecipient ▸ recipient_of_storable (hstorable other hother)
  have hboth := append_cons_inj hrow (recipient_of_storable (hstorable item hitem)) hnotification
  exact Prod.ext hboth.1 hboth.2

lemma mem_findInbox {owner : JsString} {page limit : ℕ} {row : NotificationRecord}
    (h : row ∈ findInbox collation rows owner page limit) : row.recipientUserId = owner := by
  have hsorted := List.mem_of_mem_drop (List.mem_of_mem_take h)
  have hfiltered := (List.perm_insertionSort _ _).mem_iff.mp hsorted
  exact (of_decide_eq_true (List.mem_filter.mp hfiltered).2).1

lemma findOwnedOrThrow_own {id owner : JsString} {result : Result}
    (h : findOwnedOrThrow rows id owner = .ok result) :
    ∃ row, result = .record row ∧ row.id = id ∧ row.recipientUserId = owner := by
  unfold findOwnedOrThrow at h
  cases hfind : rows.find? (fun row => decide (row.id = id ∧ row.recipientUserId = owner)) with
  | none =>
    rw [hfind] at h
    exact absurd h (by simp)
  | some row =>
    rw [hfind] at h
    have hrow := of_find hfind
    exact ⟨row, (Except.ok.inj h).symm, hrow.1, hrow.2⟩

/-- A later read of an operation. -/
lemma read_spec {operation : Operation} {phase next : Phase} (hphase : Carries operation phase)
    (h : read collation call rows phase = some next) : Carries operation next := by
  cases phase with
  | notStarted => exact absurd h (by simp [read])
  | done result => exact absurd h (by simp [read])
  | inserted data =>
    cases operation with
    | notify input =>
      obtain rfl := Option.some.inj h
      split_ifs
      · trivial
      · unfold readBack
        cases hfind : rows.find?
            (fun row => decide (row.hasKey data.recipientUserId data.idempotencyKey)) with
        | none => trivial
        | some row =>
          have hrow : row.hasKey data.recipientUserId data.idempotencyKey := of_find hfind
          exact (Prod.ext hrow.1 hrow.2 : row.key = data.key).trans hphase
    | _ => exact hphase.elim
  | insertedMany data =>
    cases operation with
    | notifyMany inputs =>
      obtain rfl := Option.some.inj h
      split_ifs
      · trivial
      · unfold readBackMany
        cases hread : data.mapM (byKey (findBatch rows data)) with
        | none => trivial
        | some found =>
          exact (map_of_mapM (fun item hitem row hrow => hasKey_of_byKey hphase.2 hitem hrow)
            hread).trans hphase.1
    | _ => exact hphase.elim
  | reading owner page limit data total =>
    cases operation with
    | getInbox recipientUserId query =>
      obtain ⟨rfl, hdata⟩ := hphase
      have hfound : ∀ row ∈ findInbox collation rows (trim recipientUserId) page limit,
          row.recipientUserId = trim recipientUserId := fun _ hrow => mem_findInbox hrow
      simp only [read] at h
      by_cases hfails : call.fails = true
      · rw [if_pos hfails] at h
        exact Option.some.inj h ▸ trivial
      · rw [if_neg hfails] at h
        cases data with
        | some data => exact Option.some.inj h ▸ hdata data rfl
        | none =>
          cases total with
          | some total => exact Option.some.inj h ▸ hfound
          | none =>
            simp only at h
            split_ifs at h
            · exact Option.some.inj h ▸ ⟨rfl, fun _ hmem => (nomatch hmem)⟩
            · obtain rfl := Option.some.inj h
              exact ⟨rfl, fun found hmem => Option.some.inj hmem ▸ hfound⟩
    | _ => exact hphase.elim
  | stamped id owner =>
    obtain rfl := Option.some.inj h
    split_ifs
    · cases operation <;> trivial
    · cases hfind : findOwnedOrThrow rows id owner with
      | error error => cases operation <;> trivial
      | ok result =>
        obtain ⟨row, rfl, hid, howner⟩ := findOwnedOrThrow_own hfind
        cases operation with
        | markRead notificationId recipientUserId =>
          exact ⟨hid.trans hphase.1, howner.trans hphase.2⟩
        | archive notificationId recipientUserId =>
          exact ⟨hid.trans hphase.1, howner.trans hphase.2⟩
        | _ => exact hphase.elim

lemma eq_of_id (hrows : Unique rows) {row row' : NotificationRecord} (hrow : row ∈ rows)
    (hrow' : row' ∈ rows) (h : row.id = row'.id) : row = row' := by
  have hids : (rows.map (·.id)).Nodup := List.pairwise_map.mpr (hrows.imp fun hab => hab.1)
  exact List.inj_on_of_nodup_map hids hrow hrow' h

/-- No row that is looked up under one owner has the id of a row of another. -/
lemma not_owned (hrows : Unique rows) {row : NotificationRecord} (hrow : row ∈ rows) {id owner : JsString}
    (hid : row.id = id) (hother : row.recipientUserId ≠ owner) :
    ∀ row' ∈ rows, ¬ (row'.id = id ∧ row'.recipientUserId = owner) := by
  intro row' hrow' h
  obtain rfl := eq_of_id hrows hrow hrow' (hid.trans h.1.symm)
  exact hother h.2

lemma stampOwned_foreign (hrows : Unique rows) {row : NotificationRecord} (hrow : row ∈ rows)
    {stamp : Stamp} {notificationId recipientUserId : JsString} (hid : row.id = trim notificationId)
    (hother : row.recipientUserId ≠ trim recipientUserId) :
    (stampOwned call stamp notificationId recipientUserId rows).1 = rows ∧
      ∀ id owner, validateRecipient notificationId = .ok id →
        validateRecipient recipientUserId = .ok owner → call.fails = false →
        (stampOwned call stamp notificationId recipientUserId rows).2 = .stamped id owner := by
  unfold stampOwned
  cases hid' : validateRecipient notificationId with
  | error error => exact ⟨rfl, fun _ _ h => (nomatch h)⟩
  | ok id =>
    cases howner : validateRecipient recipientUserId with
    | error error => exact ⟨rfl, fun _ _ _ h => (nomatch h)⟩
    | ok owner =>
      obtain rfl := validateRecipient_eq_ok hid'
      obtain rfl := validateRecipient_eq_ok howner
      simp only
      by_cases hfails : call.fails = true
      · rw [if_pos hfails]
        exact ⟨rfl, fun _ _ _ _ h => absurd hfails (by simp [h])⟩
      · rw [if_neg hfails]
        refine ⟨?_, fun id owner hid howner _ => by rw [Except.ok.inj hid, Except.ok.inj howner]⟩
        refine updateMany_of_none fun row' hrow' hmatching => ?_
        have hwhere := of_decide_eq_true hmatching
        exact not_owned hrows hrow hid hother row' hrow' ⟨hwhere.1, hwhere.2.1⟩

lemma findOwnedOrThrow_foreign (hrows : Unique rows) {row : NotificationRecord} (hrow : row ∈ rows)
    {id owner : JsString} (hid : row.id = id) (hother : row.recipientUserId ≠ owner) :
    findOwnedOrThrow rows id owner = .error .notFound := by
  have hnone : rows.find? (fun row => decide (row.id = id ∧ row.recipientUserId = owner)) = none :=
    List.find?_eq_none.mpr fun row' hrow' h =>
      not_owned hrows hrow hid hother row' hrow' (of_decide_eq_true h)
  rw [findOwnedOrThrow, hnone]

end Isolation

section Reachable

variable {C : Type} [DecidableEq C] {resolves : JsString → Bool} {collation : Collation}
  {operations : C → Operation} {s t : State C} {c : C} {call : DatabaseCall}

/-- The constraints of the table hold, and calls carry rows of their own recipients only. -/
structure Sound (operations : C → Operation) (s : State C) : Prop where
  unique : Unique s.rows
  carries : ∀ c, Carries (operations c) (s.phase c)

lemma step_spec (hs : Sound operations s) (h : step resolves collation operations s (c, call) = some t) :
    Keeps (recipients (operations c)) s.rows t.rows ∧ Sound operations t := by
  have hphases : ∀ next, Carries (operations c) next → ∀ c',
      Carries (operations c') (Function.update s.phase c next c') := by
    intro next hnext c'
    by_cases hc : c' = c
    · subst hc
      rw [Function.update_self]
      exact hnext
    · rw [Function.update_of_ne hc]
      exact hs.carries c'
  simp only [step] at h
  cases hphase : s.phase c with
  | notStarted =>
    rw [hphase] at h
    obtain rfl := Option.some.inj h
    obtain ⟨hkeeps, hcarries⟩ := start_spec hs.unique (operations c)
    exact ⟨hkeeps, hkeeps.unique, hphases _ hcarries⟩
  | _ =>
    rw [hphase] at h
    obtain ⟨next, hread, rfl⟩ := Option.map_eq_some_iff.mp h
    exact ⟨.refl hs.unique, hs.unique, hphases _ (read_spec (hphase ▸ hs.carries c) hread)⟩

/-- What one step of call `c` leaves alone, and what it returns. -/
structure Isolated (operations : C → Operation) (s t : State C) (c : C) (call : DatabaseCall) :
    Prop where
  others : ∀ row ∈ s.rows, row.recipientUserId ∉ recipients (operations c) → row ∈ t.rows
  own : ∀ row ∈ t.rows, row ∈ s.rows ∨ row.recipientUserId ∈ recipients (operations c)
  returned : ∀ result, t.phase c = .done (.ok result) → Own (operations c) result
  foreign : ∀ notificationId recipientUserId,
    operations c = .markRead notificationId recipientUserId ∨
      operations c = .archive notificationId recipientUserId →
    (∃ row ∈ s.rows, row.id = trim notificationId ∧ row.recipientUserId ≠ trim recipientUserId) →
    t.rows = s.rows ∧ ∀ id owner, validateRecipient notificationId = .ok id →
      validateRecipient recipientUserId = .ok owner → call.fails = false →
      ∀ result, t.phase c = .done result → result = .error .notFound

lemma step_isolated (hs : Sound operations s)
    (h : step resolves collation operations s (c, call) = some t) :
    Isolated operations s t c call := by
  obtain ⟨hkeeps, hsound⟩ := step_spec hs h
  refine ⟨hkeeps.others, hkeeps.own, fun result hresult => ?_, ?_⟩
  · have hcarries := hsound.carries c
    rw [hresult] at hcarries
    exact hcarries
  · rintro notificationId recipientUserId hoperation ⟨row, hrow, hid, hother⟩
    have hcarries := hs.carries c
    simp only [step] at h
    cases hphase : s.phase c with
    | notStarted =>
      rw [hphase] at h
      obtain rfl := Option.some.inj h
      rcases hoperation with hoperation | hoperation
      all_goals
        simp only [hoperation, start, markRead, archive, Function.update_self]
        obtain ⟨hrows, hstamped⟩ := stampOwned_foreign hs.unique hrow hid hother
        refine ⟨hrows, fun id owner hvalid howner hfails result hresult => ?_⟩
        rw [hstamped id owner hvalid howner hfails] at hresult
        exact absurd hresult (by simp)
    | stamped id owner =>
      rw [hphase] at h hcarries
      obtain ⟨next, hread, rfl⟩ := Option.map_eq_some_iff.mp h
      have hboth : id = trim notificationId ∧ owner = trim recipientUserId := by
        rcases hoperation with hoperation | hoperation
        all_goals
          rw [hoperation] at hcarries
          exact hcarries
      refine ⟨rfl, fun _ _ _ _ hfails result hresult => ?_⟩
      have hfound := findOwnedOrThrow_foreign hs.unique hrow hid hother
      simp only [read, hfails, Bool.false_eq_true, if_false, hboth.1, hboth.2, hfound,
        Option.some.injEq] at hread
      have hafter : Function.update s.phase c next c = .done result := hresult
      rw [Function.update_self, ← hread] at hafter
      exact (Phase.done.inj hafter).symm
    | done result =>
      rw [hphase] at h
      exact absurd h (by simp [read])
    | _ =>
      rw [hphase] at hcarries
      rcases hoperation with hoperation | hoperation
      all_goals
        rw [hoperation] at hcarries
        exact hcarries.elim

omit [DecidableEq C] in
lemma sound_initial (operations : C → Operation) : Sound operations (State.initial C) :=
  ⟨List.Pairwise.nil, fun _ => by trivial⟩

end Reachable

end Appspine.Notification
