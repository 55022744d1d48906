import Appspine.JsNumerals
import Appspine.PagedListing

/-!
# Notifications

The checks that `NotificationService` makes of what it is given, and its calls to the
notifications table.
-/
namespace Appspine.Notification
open JsText PagedListing

section Limits

/-- `NOTIFICATION_LIMITS`. -/
structure Limits where
  id : ℕ := 128
  idempotencyKey : ℕ := 255
  type : ℕ := 128
  category : ℕ := 128
  title : ℕ := 512
  body : ℕ := 4000
  sourceApp : ℕ := 128
  sourceEventId : ℕ := 128
  sourceEntityType : ℕ := 128
  sourceEntityId : ℕ := 128
  targetPath : ℕ := 1024
  page : ℕ := 1000000
  limit : ℕ := 100
  notifyManyBatch : ℕ := 1000

def notificationLimits : Limits := {}

def defaultNotificationPage : ℤ := 1

def defaultNotificationLimit : ℤ := 20

inductive NotificationSeverity where
  | info
  | success
  | warning
  | critical
  deriving DecidableEq

def parseSeverity (text : JsString) : Option NotificationSeverity :=
  if text = js "info" then some .info
  else if text = js "success" then some .success
  else if text = js "warning" then some .warning
  else if text = js "critical" then some .critical
  else none

/-- `z.enum(NOTIFICATION_SEVERITIES).default('info')`. -/
def severityOrDefault : Option JsString → Option NotificationSeverity
  | none => some .info
  | some text => parseSeverity text

end Limits

section Records

/-- An input of `notify`. An absent field and a `null` are alike to the service. -/
structure CreateNotificationInput where
  recipientUserId : JsString
  idempotencyKey : JsString
  type : JsString
  category : Option JsString := none
  severity : Option JsString := none
  title : JsString
  body : Option JsString := none
  sourceApp : JsString
  sourceEventId : Option JsString := none
  sourceEntityType : Option JsString := none
  sourceEntityId : Option JsString := none
  targetPath : Option JsString := none
  deriving DecidableEq

structure NotificationCreateData where
  recipientUserId : JsString
  idempotencyKey : JsString
  type : JsString
  category : Option JsString
  severity : NotificationSeverity
  title : JsString
  body : Option JsString
  sourceApp : JsString
  sourceEventId : Option JsString
  sourceEntityType : Option JsString
  sourceEntityId : Option JsString
  targetPath : Option JsString
  deriving DecidableEq

/-- A row of the table. -/
structure NotificationRecord extends NotificationCreateData where
  id : JsString
  readAt : Option ℤ
  archivedAt : Option ℤ
  createdAt : ℤ
  updatedAt : ℤ
  deriving DecidableEq

structure NotificationQuery where
  page : Option ℤ := none
  limit : Option ℤ := none

structure NotificationPage where
  data : List NotificationRecord
  total : ℕ
  page : ℕ
  limit : ℕ
  deriving DecidableEq

inductive Thrown where
  | badRequest (message : JsString)
  | notFound
  | notReadBack (message : JsString)
  | database
  deriving DecidableEq

end Records

section Validation

/-- `z.string().trim().min(1).max(max)`. -/
def boundedText (max : ℕ) (text : JsString) : Option JsString :=
  let trimmed := trim text
  if 1 ≤ trimmed.length ∧ trimmed.length ≤ max then some trimmed else none

/-- `z.string().max(max).nullable().optional()`. -/
def nullableBounded (max : ℕ) : Option JsString → Option (Option JsString)
  | none => some none
  | some text => if text.length ≤ max then some (some text) else none

def isAsciiLetter (u : CodeUnit) : Bool :=
  decide ((unit 'a' ≤ u ∧ u ≤ unit 'z') ∨ (unit 'A' ≤ u ∧ u ≤ unit 'Z'))

/-- `/^[a-z][a-z\d+.-]*:/i`. -/
def hasUrlScheme : JsString → Bool
  | [] => false
  | u :: us =>
    let rest := us.dropWhile fun v => isAsciiLetter v ||
      decide (unit '0' ≤ v ∧ v ≤ unit '9') || decide (v ∈ js "+.-")
    isAsciiLetter u && decide (rest.head? = some (unit ':'))

def isBackslashOrControl (u : CodeUnit) : Bool :=
  decide (u = unit '\\' ∨ u.val ≤ 0x1f ∨ u.val = 0x7f)

/-- `resolves` says whether `new URL(value, 'https://appspine.invalid')` keeps that origin. -/
def targetPathSchema (resolves : JsString → Bool) (value : JsString) : Bool :=
  decide (value.length ≤ notificationLimits.targetPath) &&
    (startsWith value (js "/") && !startsWith value (js "//")) &&
    !hasUrlScheme value && !value.any isBackslashOrControl && resolves value

/-- `createNotificationSchema`, and `toCreateData` of what it accepts. -/
def createData (resolves : JsString → Bool) (input : CreateNotificationInput) :
    Option NotificationCreateData := do
  let recipientUserId ← boundedText notificationLimits.id input.recipientUserId
  let idempotencyKey ← boundedText notificationLimits.idempotencyKey input.idempotencyKey
  let type ← boundedText notificationLimits.type input.type
  let category ← nullableBounded notificationLimits.category input.category
  let severity ← severityOrDefault input.severity
  let title ← boundedText notificationLimits.title input.title
  let body ← nullableBounded notificationLimits.body input.body
  let sourceApp ← boundedText notificationLimits.sourceApp input.sourceApp
  let sourceEventId ← nullableBounded notificationLimits.sourceEventId input.sourceEventId
  let sourceEntityType ← nullableBounded notificationLimits.sourceEntityType input.sourceEntityType
  let sourceEntityId ← nullableBounded notificationLimits.sourceEntityId input.sourceEntityId
  if input.targetPath.all (targetPathSchema resolves) then
    pure { recipientUserId, idempotencyKey, type, category, severity, title, body, sourceApp,
           sourceEventId, sourceEntityType, sourceEntityId, targetPath := input.targetPath }
  else none

/-- The message of the issues that a schema reports, which are the validator's. -/
def invalidInput : Thrown := .badRequest (js "validation failed")

/-- The message of an id that is too long, up to the bound. -/
def tooLong : String := "Notification id and recipientUserId must be at most"

def validateRecipient (value : JsString) : Except Thrown JsString :=
  let trimmed := trim value
  if trimmed.length = 0 then
    .error (.badRequest (js "Notification id and recipientUserId must be non-empty"))
  else if trimmed.length > notificationLimits.id then
    .error (.badRequest (js s!"{tooLong} {notificationLimits.id} characters"))
  else .ok trimmed

/-- `notificationQuerySchema`, the defaults of `getInbox` filled in. -/
def parseQuery (query : NotificationQuery) : Except Thrown (ℕ × ℕ) :=
  let page := query.page.getD defaultNotificationPage
  let limit := query.limit.getD defaultNotificationLimit
  if 1 ≤ page ∧ page ≤ notificationLimits.page ∧ 1 ≤ limit ∧ limit ≤ notificationLimits.limit then
    .ok (page.toNat, limit.toNat)
  else .error invalidInput

lemma boundedText_eq_some {max : ℕ} {text bounded : JsString} (h : boundedText max text = some bounded) :
    bounded = trim text := by
  simp only [boundedText] at h
  split_ifs at h
  exact (Option.some.inj h).symm

lemma createData_key {resolves : JsString → Bool} {input : CreateNotificationInput}
    {data : NotificationCreateData} (h : createData resolves input = some data) :
    data.recipientUserId = trim input.recipientUserId ∧
      data.idempotencyKey = trim input.idempotencyKey := by
  simp only [createData, Option.bind_eq_bind, Option.bind_eq_some_iff] at h
  obtain ⟨recipient, hrecipient, key, hkey, _, -, _, -, _, -, _, -, _, -, _, -, _, -, _, -, _, -,
    h⟩ := h
  split_ifs at h
  obtain rfl := Option.some.inj h
  exact ⟨boundedText_eq_some hrecipient, boundedText_eq_some hkey⟩

lemma validateRecipient_eq_ok {value owner : JsString} (h : validateRecipient value = .ok owner) :
    owner = trim value := by
  simp only [validateRecipient] at h
  split_ifs at h
  exact (Except.ok.inj h).symm

end Validation

section Table

/-- PostgreSQL keeps no text with a NUL in it. -/
def storable (data : NotificationCreateData) : Bool :=
  let texts := [some data.recipientUserId, some data.idempotencyKey, some data.type, data.category,
    some data.title, data.body, some data.sourceApp, data.sourceEventId, data.sourceEntityType,
    data.sourceEntityId, data.targetPath]
  texts.all fun text => text.all fun value => !value.contains 0

def NotificationRecord.hasKey (row : NotificationRecord) (recipientUserId idempotencyKey : JsString) :
    Prop :=
  row.recipientUserId = recipientUserId ∧ row.idempotencyKey = idempotencyKey

instance (row : NotificationRecord) (recipientUserId idempotencyKey : JsString) :
    Decidable (row.hasKey recipientUserId idempotencyKey) :=
  inferInstanceAs (Decidable (_ ∧ _))

def newRow (now : ℤ) (id : JsString) (data : NotificationCreateData) : NotificationRecord :=
  { data with id, readAt := none, archivedAt := none, createdAt := now, updatedAt := now }

/-- `INSERT ... ON CONFLICT DO NOTHING`: the id and the idempotency key are unique. -/
def insertRow (rows : List NotificationRecord) (row : NotificationRecord) : List NotificationRecord :=
  if ∃ old ∈ rows, old.id = row.id ∨ old.hasKey row.recipientUserId row.idempotencyKey then rows
  else rows ++ [row]

/-- `createMany` with `skipDuplicates`, one new id for each row. -/
def createMany (now : ℤ) (ids : List JsString) (data : List NotificationCreateData)
    (rows : List NotificationRecord) : Option (List NotificationRecord) :=
  if ids.length = data.length ∧ data.all storable then
    some (((ids.zip data).map fun item => newRow now item.1 item.2).foldl insertRow rows)
  else none

inductive Stamp where
  | readAt
  | archivedAt
  deriving DecidableEq

def NotificationRecord.stamp (row : NotificationRecord) : Stamp → Option ℤ
  | .readAt => row.readAt
  | .archivedAt => row.archivedAt

def NotificationRecord.setStamp (row : NotificationRecord) (now : ℤ) :
    Stamp → NotificationRecord
  | .readAt => { row with readAt := some now, updatedAt := now }
  | .archivedAt => { row with archivedAt := some now, updatedAt := now }

/-- `updateMany` of one stamp. -/
def updateMany (now : ℤ) (stamp : Stamp) (matching : NotificationRecord → Bool)
    (rows : List NotificationRecord) : List NotificationRecord :=
  rows.map fun row => if matching row then row.setStamp now stamp else row

/-- `{ id, recipientUserId, readAt: null }` of `markRead`, or with `archivedAt` of `archive`. -/
def ownedWithout (stamp : Stamp) (id owner : JsString) (row : NotificationRecord) : Bool :=
  decide (row.id = id ∧ row.recipientUserId = owner ∧ row.stamp stamp = none)

/-- `{ recipientUserId, archivedAt: null }`. -/
def inInbox (owner : JsString) (row : NotificationRecord) : Bool :=
  decide (row.recipientUserId = owner ∧ row.archivedAt = none)

/-- `{ recipientUserId, readAt: null, archivedAt: null }`. -/
def isUnread (owner : JsString) (row : NotificationRecord) : Bool :=
  decide (row.recipientUserId = owner ∧ row.readAt = none ∧ row.archivedAt = none)

/-- How the database compares texts. Its collations tell different texts apart. -/
structure Collation extends SortOrder JsString where
  antisymm : ∀ a b, le a b → le b a → a = b

/-- `[{ createdAt: 'desc' }, { id: 'desc' }]`. -/
def inboxOrder (collation : Collation) : SortOrder NotificationRecord :=
  (SortOrder.byKey (·.createdAt)).reverse.andThen
    (collation.toSortOrder.comap (·.id)).reverse

end Table

section Rows

/-- The constraints of the table. -/
def Unique (rows : List NotificationRecord) : Prop :=
  rows.Pairwise fun a b => a.id ≠ b.id ∧ ¬ a.hasKey b.recipientUserId b.idempotencyKey

/-- What may happen to a row: a stamp that is not set is set. -/
structure Evolves (row later : NotificationRecord) : Prop where
  id : later.id = row.id
  data : later.toNotificationCreateData = row.toNotificationCreateData
  createdAt : later.createdAt = row.createdAt
  stamps : ∀ stamp time, row.stamp stamp = some time → later.stamp stamp = some time

variable {rows : List NotificationRecord} {row other : NotificationRecord}

lemma Evolves.refl (row : NotificationRecord) : Evolves row row := ⟨rfl, rfl, rfl, fun _ _ h => h⟩

lemma Evolves.trans {first second third : NotificationRecord} (h : Evolves first second)
    (h' : Evolves second third) : Evolves first third :=
  ⟨h'.id.trans h.id, h'.data.trans h.data, h'.createdAt.trans h.createdAt,
    fun stamp time hs => h'.stamps stamp time (h.stamps stamp time hs)⟩

@[simp] lemma setStamp_id (now : ℤ) (stamp : Stamp) : (row.setStamp now stamp).id = row.id := by
  cases stamp <;> rfl

@[simp] lemma setStamp_data (now : ℤ) (stamp : Stamp) :
    (row.setStamp now stamp).toNotificationCreateData = row.toNotificationCreateData := by
  cases stamp <;> rfl

lemma evolves_setStamp {stamp : Stamp} (now : ℤ) (h : row.stamp stamp = none) :
    Evolves row (row.setStamp now stamp) := by
  refine ⟨setStamp_id now stamp, setStamp_data now stamp, by cases stamp <;> rfl, ?_⟩
  intro other time hother
  by_cases hsame : other = stamp
  · subst hsame
    rw [h] at hother
    exact absurd hother (by simp)
  · cases other <;> cases stamp <;> first | exact absurd rfl hsame | exact hother

lemma mem_insertRow (h : other ∈ insertRow rows row) : other ∈ rows ∨ other = row := by
  unfold insertRow at h
  split_ifs at h
  · exact .inl h
  · simpa using h

lemma subset_insertRow (rows : List NotificationRecord) (row : NotificationRecord) :
    rows ⊆ insertRow rows row := by
  unfold insertRow
  split_ifs
  · exact fun _ h => h
  · exact List.subset_append_left rows [row]

lemma unique_insertRow (h : Unique rows) : Unique (insertRow rows row) := by
  unfold insertRow
  split_ifs with hconflict
  · exact h
  · refine List.pairwise_append.mpr ⟨h, List.pairwise_singleton _ _, fun old hold b hb => ?_⟩
    obtain rfl := List.mem_singleton.mp hb
    exact ⟨fun hid => hconflict ⟨old, hold, .inl hid⟩, fun hkey => hconflict ⟨old, hold, .inr hkey⟩⟩

lemma insertRows_spec (news : List NotificationRecord) (hrows : Unique rows) :
    Unique (news.foldl insertRow rows) ∧ rows ⊆ news.foldl insertRow rows ∧
      ∀ row ∈ news.foldl insertRow rows, row ∈ rows ∨ row ∈ news := by
  induction news generalizing rows with
  | nil => exact ⟨hrows, fun _ h => h, fun _ h => .inl h⟩
  | cons new news ih =>
    obtain ⟨hunique, hsubset, hmem⟩ := ih (unique_insertRow hrows)
    refine ⟨hunique, fun _ h => hsubset (subset_insertRow rows new h), fun row hrow => ?_⟩
    rcases hmem row hrow with hold | hnew
    · rcases mem_insertRow hold with hrow | rfl
      · exact .inl hrow
      · exact .inr List.mem_cons_self
    · exact .inr (List.mem_cons_of_mem new hnew)

/-- What `createMany` does: it keeps the rows, and adds rows of its data. -/
lemma createMany_spec {now : ℤ} {ids : List JsString} {data : List NotificationCreateData}
    {created : List NotificationRecord} (hrows : Unique rows)
    (h : createMany now ids data rows = some created) :
    Unique created ∧ rows ⊆ created ∧ (∀ item ∈ data, storable item = true) ∧
      ∀ row ∈ created, row ∈ rows ∨ row.toNotificationCreateData ∈ data := by
  unfold createMany at h
  split_ifs at h with hdata
  obtain rfl := Option.some.inj h
  obtain ⟨hunique, hsubset, hmem⟩ :=
    insertRows_spec ((ids.zip data).map fun item => newRow now item.1 item.2) hrows
  refine ⟨hunique, hsubset, List.all_eq_true.mp hdata.2, fun row hrow => ?_⟩
  refine (hmem row hrow).imp_right fun hnew => ?_
  obtain ⟨item, hitem, rfl⟩ := List.mem_map.mp hnew
  exact (List.of_mem_zip hitem).2

lemma mem_updateMany {now : ℤ} {stamp : Stamp} {matching : NotificationRecord → Bool}
    (hmem : row ∈ rows) (hnot : matching row = false) : row ∈ updateMany now stamp matching rows :=
  List.mem_map.mpr ⟨row, hmem, by simp [hnot]⟩

lemma updateMany_of_none {now : ℤ} {stamp : Stamp} {matching : NotificationRecord → Bool}
    (h : ∀ row ∈ rows, ¬ matching row = true) : updateMany now stamp matching rows = rows :=
  (List.map_congr_left fun row hrow => if_neg (h row hrow)).trans (List.map_id rows)

/-- What `updateMany` does when it only stamps rows that lack the stamp. -/
lemma updateMany_spec {now : ℤ} {stamp : Stamp} {matching : NotificationRecord → Bool}
    (hrows : Unique rows) (hstamp : ∀ row, matching row = true → row.stamp stamp = none) :
    Unique (updateMany now stamp matching rows) ∧
      (∀ row ∈ rows, ∃ later ∈ updateMany now stamp matching rows, Evolves row later) ∧
      ∀ later ∈ updateMany now stamp matching rows, later ∈ rows ∨
        ∃ row ∈ rows, matching row = true ∧ later = row.setStamp now stamp := by
  refine ⟨?_, fun row hrow => ⟨_, List.mem_map_of_mem hrow, ?_⟩, fun later hlater => ?_⟩
  · refine List.pairwise_map.mpr (hrows.imp fun {a b} hab => ?_)
    split_ifs <;> simpa [NotificationRecord.hasKey] using hab
  · split_ifs with hmatching
    · exact evolves_setStamp now (hstamp row hmatching)
    · exact .refl row
  · obtain ⟨row, hrow, rfl⟩ := List.mem_map.mp hlater
    by_cases hmatching : matching row = true
    · rw [if_pos hmatching]
      exact .inr ⟨row, hrow, hmatching, rfl⟩
    · rw [if_neg hmatching]
      exact .inl hrow

end Rows

end Appspine.Notification
