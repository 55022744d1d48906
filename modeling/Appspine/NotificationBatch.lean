import Appspine.NotificationInbox

/-!
# A batch of notifications

`notifyMany` against `notify` on its inputs in order, both on a table that nobody else changes.
-/
namespace Appspine.Notification
open JsText PagedListing

section Alone

variable (resolves : JsString → Bool) (collation : Collation)

/-- A call with nothing between its two calls of the database. -/
def alone (call : DatabaseCall) (operation : Operation) (rows : Rows) : Rows × Phase :=
  let outcome := start resolves call rows operation
  (outcome.1, (read collation call outcome.1 outcome.2).getD outcome.2)

/-- `notify` on each input in order, with the time and the id that the database makes up. -/
def notifyEach : List (CreateNotificationInput × ℤ × JsString) → Rows → Rows × List Phase
  | [], rows => (rows, [])
  | (input, now, id) :: rest, rows =>
    let outcome := alone resolves collation { now, ids := [id] } (.notify input) rows
    let later := notifyEach rest outcome.1
    (later.1, outcome.2 :: later.2)

/-- The schema accepts the input, and the database can hold its texts. -/
def Accepted (input : CreateNotificationInput) : Prop :=
  ∃ data, createData resolves input = some data ∧ storable data = true

end Alone

/-- The rows are the same, up to the id and the times that the database makes up. -/
structure Alike (row other : NotificationRecord) : Prop where
  data : row.toNotificationCreateData = other.toNotificationCreateData
  readAt : row.readAt = other.readAt
  archivedAt : row.archivedAt = other.archivedAt

/-- Generated ids: each is new. -/
structure Fresh (rows : Rows) (ids : List JsString) : Prop where
  nodup : ids.Nodup
  unused : ∀ row ∈ rows, row.id ∉ ids

/-- The inserts of the data one after the other, each with its time and its id. -/
def inserts (draws : List (ℤ × JsString)) (data : List NotificationCreateData) (rows : Rows) : Rows :=
  ((draws.zip data).map fun item => newRow item.1.1 item.1.2 item.2).foldl insertRow rows

section Inserting

variable {rows : Rows} {row other : NotificationRecord}

lemma Alike.key (h : Alike row other) : row.key = other.key :=
  Prod.ext (congrArg (·.recipientUserId) h.data) (congrArg (·.idempotencyKey) h.data)

lemma hasKey_iff {recipient key : JsString} :
    row.hasKey recipient key ↔ row.key = (recipient, key) := by
  simp [NotificationRecord.hasKey, NotificationCreateData.key]

lemma eq_of_key (hrows : Unique rows) (hrow : row ∈ rows) (hother : other ∈ rows)
    (h : row.key = other.key) : row = other := by
  have hkeys : (rows.map (·.key)).Nodup :=
    List.pairwise_map.mpr (hrows.imp fun hab hkey => hab.2 (hasKey_iff.mpr hkey))
  exact List.inj_on_of_nodup_map hkeys hrow hother h

/-- A row with a new id is kept out by its key only. -/
lemma insertRow_fresh {id : JsString} {ids : List JsString} (h : Fresh rows (id :: ids)) (now : ℤ)
    (data : NotificationCreateData) :
    insertRow rows (newRow now id data) =
      if ∃ old ∈ rows, old.key = data.key then rows else rows ++ [newRow now id data] := by
  have hconflict : (∃ old ∈ rows, old.id = id ∨
      old.hasKey data.recipientUserId data.idempotencyKey) ↔ ∃ old ∈ rows, old.key = data.key := by
    refine exists_congr fun old => and_congr_right fun hold => ?_
    have hid : old.id ≠ id := fun hid => h.unused old hold (hid ▸ List.mem_cons_self)
    rw [hasKey_iff, or_iff_right hid]
    rfl
  unfold insertRow
  simp only [newRow, hconflict]

lemma exists_key_insertRow {id : JsString} {ids : List JsString} (h : Fresh rows (id :: ids))
    (now : ℤ) (data : NotificationCreateData) :
    ∃ found ∈ insertRow rows (newRow now id data), found.key = data.key := by
  rw [insertRow_fresh h]
  split_ifs with hold
  · exact hold
  · exact ⟨newRow now id data, List.mem_append_right rows (List.mem_singleton_self _), rfl⟩

/-- After an insert the ids that were not drawn yet are still new. -/
lemma Fresh.tail {id : JsString} {ids : List JsString} (h : Fresh rows (id :: ids)) (now : ℤ)
    (data : NotificationCreateData) : Fresh (insertRow rows (newRow now id data)) ids := by
  refine ⟨(List.nodup_cons.mp h.nodup).2, fun row hrow hid => ?_⟩
  rcases mem_insertRow hrow with hold | rfl
  · exact h.unused row hold (List.mem_cons_of_mem id hid)
  · exact (List.nodup_cons.mp h.nodup).1 hid

lemma subset_inserts (draws : List (ℤ × JsString)) (data : List NotificationCreateData)
    (rows : Rows) : rows ⊆ inserts draws data rows := by
  unfold inserts
  generalize (draws.zip data).map (fun item => newRow item.1.1 item.1.2 item.2) = news
  induction news generalizing rows with
  | nil => exact fun _ h => h
  | cons new news ih => exact fun _ h => ih _ (subset_insertRow rows new h)

/-- After the inserts every item is there, new or old. -/
lemma exists_key_inserts {data : List NotificationCreateData} {draws : List (ℤ × JsString)}
    (hdraws : draws.length = data.length) (hfresh : Fresh rows (draws.map Prod.snd)) :
    ∀ item ∈ data, ∃ row ∈ inserts draws data rows, row.key = item.key := by
  induction data generalizing draws rows with
  | nil => exact fun item h => absurd h List.not_mem_nil
  | cons first data ih =>
    obtain _ | ⟨⟨now, id⟩, draws⟩ := draws
    · exact absurd hdraws (by simp)
    · intro item hitem
      rcases List.mem_cons.mp hitem with rfl | hrest
      · obtain ⟨row, hrow, hkey⟩ := exists_key_insertRow hfresh now item
        exact ⟨row, subset_inserts draws data _ hrow, hkey⟩
      · exact ih (Nat.succ.inj hdraws) (hfresh.tail now first) item hrest

lemma exists_key_alike {rows later : Rows} (h : List.Forall₂ Alike rows later)
    (key : JsString × JsString) :
    (∃ row ∈ rows, row.key = key) ↔ ∃ row ∈ later, row.key = key := by
  induction h with
  | nil => rfl
  | cons hrow _ ih => simp only [List.exists_mem_cons_iff, hrow.key, ih]

/-- Two runs of the same inserts differ in what the database makes up only. -/
lemma alike_inserts {data : List NotificationCreateData} {first second : List (ℤ × JsString)}
    {a b : Rows} (hfirst : first.length = data.length) (hsecond : second.length = data.length)
    (hfresh : Fresh (rows ++ a) (first.map Prod.snd))
    (hfresh' : Fresh (rows ++ b) (second.map Prod.snd)) (hab : List.Forall₂ Alike a b) :
    ∃ a' b', inserts first data (rows ++ a) = rows ++ a' ∧
      inserts second data (rows ++ b) = rows ++ b' ∧ List.Forall₂ Alike a' b' := by
  induction data generalizing first second a b with
  | nil =>
    obtain rfl := List.length_eq_zero_iff.mp hfirst
    obtain rfl := List.length_eq_zero_iff.mp hsecond
    exact ⟨a, b, rfl, rfl, hab⟩
  | cons item data ih =>
    obtain _ | ⟨⟨now, id⟩, first⟩ := first
    · exact absurd hfirst (by simp)
    obtain _ | ⟨⟨now', id'⟩, second⟩ := second
    · exact absurd hsecond (by simp)
    have hrefl : List.Forall₂ Alike rows rows := List.forall₂_same.mpr fun _ _ => ⟨rfl, rfl, rfl⟩
    have hconflict := exists_key_alike (List.rel_append hrefl hab) item.key
    have hinsert := insertRow_fresh hfresh now item
    have hinsert' := insertRow_fresh hfresh' now' item
    have htail := hfresh.tail now item
    have htail' := hfresh'.tail now' item
    change ∃ a' b', inserts first data (insertRow (rows ++ a) (newRow now id item)) = _ ∧
      inserts second data (insertRow (rows ++ b) (newRow now' id' item)) = _ ∧ _
    by_cases hold : ∃ old ∈ rows ++ a, old.key = item.key
    · rw [hinsert, if_pos hold] at htail ⊢
      rw [hinsert', if_pos (hconflict.mp hold)] at htail' ⊢
      exact ih (Nat.succ.inj hfirst) (Nat.succ.inj hsecond) htail htail' hab
    · rw [hinsert, if_neg hold, List.append_assoc] at htail ⊢
      rw [hinsert', if_neg (hold ∘ hconflict.mpr), List.append_assoc] at htail' ⊢
      exact ih (Nat.succ.inj hfirst) (Nat.succ.inj hsecond) htail htail'
        (List.rel_append hab (.cons ⟨rfl, rfl, rfl⟩ .nil))

end Inserting

section Reading

variable {resolves : JsString → Bool} {collation : Collation} {rows : Rows}

/-- What is read back for an item is a row of the table with the key of the item. -/
def ReadFor (rows : Rows) (item : NotificationCreateData) (row : NotificationRecord) : Prop :=
  row ∈ rows ∧ row.key = item.key

lemma exists_mapM {α β : Type} {f : α → Option β} {P : α → β → Prop} {xs : List α}
    (h : ∀ x ∈ xs, ∃ y, f x = some y ∧ P x y) :
    ∃ ys, xs.mapM f = some ys ∧ List.Forall₂ (fun x y => f x = some y ∧ P x y) xs ys := by
  induction xs with
  | nil => exact ⟨[], rfl, .nil⟩
  | cons x xs ih =>
    obtain ⟨y, hy, hP⟩ := h x List.mem_cons_self
    obtain ⟨ys, hys, hrest⟩ := ih fun z hz => h z (List.mem_cons_of_mem x hz)
    exact ⟨y :: ys, by simp [hy, hys], .cons ⟨hy, hP⟩ hrest⟩

lemma mapM_eq_none {α β : Type} {f : α → Option β} {xs : List α} {x : α} (hx : x ∈ xs)
    (h : f x = none) : xs.mapM f = none := by
  induction xs with
  | nil => exact absurd hx List.not_mem_nil
  | cons y ys ih =>
    rcases List.mem_cons.mp hx with rfl | hrest
    · simp [h]
    · cases hy : f y <;> simp [hy, ih hrest]

lemma exists_readBack {item : NotificationCreateData} (h : ∃ row ∈ rows, row.key = item.key) :
    ∃ row, readBack rows item = .ok (.record row) ∧ ReadFor rows item row := by
  obtain ⟨old, hold, hkey⟩ := h
  cases hfind : rows.find? fun row =>
      decide (row.hasKey item.recipientUserId item.idempotencyKey) with
  | none =>
    have hnone := List.find?_eq_none.mp hfind old hold
    exact absurd (hasKey_iff.mpr hkey) (by simpa using hnone)
  | some row =>
    exact ⟨row, by simp [readBack, hfind], List.mem_of_find?_eq_some hfind,
      hasKey_iff.mp (of_find hfind)⟩

/-- The join on the concatenated key finds a row for each item, and the right one. -/
lemma exists_readBackMany {data : List NotificationCreateData}
    (hstorable : ∀ item ∈ data, storable item = true)
    (h : ∀ item ∈ data, ∃ row ∈ rows, row.key = item.key) :
    ∃ many, readBackMany rows data = .ok (.records many) ∧
      List.Forall₂ (ReadFor rows) data many := by
  have hfound : ∀ item ∈ data, ∃ row, byKey (findBatch rows data) item = some row ∧
      ReadFor rows item row := by
    intro item hitem
    obtain ⟨old, hold, hkey⟩ := h item hitem
    have hbatch : old ∈ findBatch rows data := List.mem_filter.mpr
      ⟨hold, List.any_eq_true.mpr ⟨item, hitem, decide_eq_true (hasKey_iff.mpr hkey)⟩⟩
    cases hget : byKey (findBatch rows data) item with
    | none =>
      have hne := List.find?_eq_none.mp hget old (List.mem_reverse.mpr hbatch)
      obtain ⟨hrecipient, hidempotency⟩ := Prod.mk.inj hkey
      exact absurd (decide_eq_true (by rw [hrecipient, hidempotency])) hne
    | some row =>
      have hrow : row ∈ findBatch rows data := List.mem_reverse.mp (List.mem_of_find?_eq_some hget)
      exact ⟨row, rfl, (List.mem_filter.mp hrow).1, hasKey_of_byKey hstorable hitem hget⟩
  obtain ⟨many, hmany, hall⟩ := exists_mapM hfound
  exact ⟨many, by simp [readBackMany, hmany], hall.imp fun _ _ h => h.2⟩

lemma createMany_draws {now : ℤ} {ids : List JsString} {data : List NotificationCreateData}
    (hids : ids.length = data.length) (hstorable : ∀ item ∈ data, storable item = true) :
    createMany now ids data rows = some (inserts (ids.map fun id => (now, id)) data rows) := by
  unfold createMany inserts
  rw [if_pos ⟨hids, List.all_eq_true.mpr hstorable⟩, List.zip_map_left, List.map_map]
  rfl

variable (collation) in
lemma alone_notifyMany (now : ℤ) {inputs : List CreateNotificationInput} {ids : List JsString}
    {data : List NotificationCreateData} (hlimit : inputs.length ≤ notificationLimits.notifyManyBatch)
    (hdata : inputs.mapM (createData resolves) = some data)
    (hstorable : ∀ item ∈ data, storable item = true) (hids : ids.length = data.length)
    (hfresh : Fresh rows ids) :
    ∃ many, alone resolves collation { now, ids } (.notifyMany inputs) rows =
        (inserts (ids.map fun id => (now, id)) data rows, .done (.ok (.records many))) ∧
      List.Forall₂ (ReadFor (inserts (ids.map fun id => (now, id)) data rows)) data many := by
  have hlength : (ids.map fun id => (now, id)).length = data.length := by simpa using hids
  have hfresh' : Fresh rows ((ids.map fun id => (now, id)).map Prod.snd) := by
    simpa [List.map_map, Function.comp_def] using hfresh
  obtain ⟨many, hread, hmany⟩ := exists_readBackMany hstorable (exists_key_inserts hlength hfresh')
  refine ⟨many, ?_, hmany⟩
  cases data with
  | nil =>
    obtain rfl := List.length_eq_zero_iff.mp hids
    obtain rfl := List.forall₂_nil_left_iff.mp hmany
    simp only [alone, start, notifyMany, if_neg (not_lt.mpr hlimit), hdata]
    rfl
  | cons item data =>
    simp only [alone, start, notifyMany, if_neg (not_lt.mpr hlimit), hdata, insertAll,
      createMany_draws hids hstorable, Bool.false_eq_true, if_false]
    exact congrArg (Prod.mk _) (congrArg Phase.done hread)

variable (collation) in
/-- `notify` on each input is one insert after the other, each read back. -/
lemma notifyEach_spec {inputs : List CreateNotificationInput} {data : List NotificationCreateData}
    {draws : List (ℤ × JsString)}
    (hdata : List.Forall₂ (fun input item => createData resolves input = some item ∧
      storable item = true) inputs data)
    (hdraws : draws.length = data.length) (hfresh : Fresh rows (draws.map Prod.snd)) :
    ∃ each, notifyEach resolves collation (inputs.zip draws) rows =
        (inserts draws data rows, each.map fun row => .done (.ok (.record row))) ∧
      List.Forall₂ (ReadFor (inserts draws data rows)) data each := by
  induction hdata generalizing draws rows with
  | nil =>
    obtain rfl := List.length_eq_zero_iff.mp hdraws
    exact ⟨[], rfl, .nil⟩
  | @cons input item inputs data hitem _ ih =>
    obtain _ | ⟨⟨now, id⟩, draws⟩ := draws
    · exact absurd hdraws (by simp)
    obtain ⟨row, hrow, hread⟩ := exists_readBack (exists_key_insertRow hfresh now item)
    obtain ⟨each, heach, hall⟩ := ih (Nat.succ.inj hdraws) (hfresh.tail now item)
    have hcreate : createMany now [id] [item] rows =
        some (insertRow rows (newRow now id item)) :=
      createMany_draws rfl fun other hother => List.mem_singleton.mp hother ▸ hitem.2
    have halone : alone resolves collation { now, ids := [id] } (.notify input) rows =
        (insertRow rows (newRow now id item), .done (.ok (.record row))) := by
      simp only [alone, start, notify, hitem.1, insertAll, hcreate, Bool.false_eq_true, if_false]
      exact congrArg (Prod.mk _) (congrArg Phase.done hrow)
    refine ⟨row :: each, ?_, .cons ⟨subset_inserts draws data _ hread.1, hread.2⟩ hall⟩
    simp only [List.zip_cons_cons, notifyEach, halone, heach]
    rfl

end Reading

section Batches

variable (resolves : JsString → Bool) (collation : Collation)

lemma exists_alike {rows later : Rows} (h : List.Forall₂ Alike rows later)
    {row : NotificationRecord} (hrow : row ∈ rows) : ∃ other ∈ later, Alike row other := by
  induction h with
  | nil => exact absurd hrow List.not_mem_nil
  | @cons first other _ _ halike _ ih =>
    rcases List.mem_cons.mp hrow with rfl | hrest
    · exact ⟨other, List.mem_cons_self, halike⟩
    · obtain ⟨found, hfound, h⟩ := ih hrest
      exact ⟨found, List.mem_cons_of_mem other hfound, h⟩

/-- Rows read back for the same items from two tables that are alike are alike. -/
lemma alike_of_keys {data : List NotificationCreateData} {rows later many each : Rows}
    (hlater : Unique later) (h : List.Forall₂ Alike rows later)
    (hmany : List.Forall₂ (ReadFor rows) data many)
    (heach : List.Forall₂ (ReadFor later) data each) : List.Forall₂ Alike many each := by
  induction hmany generalizing each with
  | nil =>
    obtain rfl := List.forall₂_nil_left_iff.mp heach
    exact .nil
  | @cons item row data many hrow _ ih =>
    obtain ⟨other, each, hother, hrest, rfl⟩ := List.forall₂_cons_left_iff.mp heach
    refine .cons ?_ (ih hrest)
    obtain ⟨found, hfound, halike⟩ := exists_alike h hrow.1
    have hkey : found.key = other.key := (halike.key.symm.trans hrow.2).trans hother.2.symm
    exact eq_of_key hlater hfound hother.1 hkey ▸ halike

lemma storable_of_accepted {resolves : JsString → Bool} {inputs : List CreateNotificationInput}
    {data : List NotificationCreateData}
    (h : List.Forall₂ (fun input item => createData resolves input = some item ∧
      storable item = true) inputs data) : ∀ item ∈ data, storable item = true := by
  induction h with
  | nil => exact fun _ h => absurd h List.not_mem_nil
  | cons hitem _ ih =>
    intro item hmem
    rcases List.mem_cons.mp hmem with rfl | hrest
    · exact hitem.2
    · exact ih item hrest

/-- A row for an item is a row for the input of the item. -/
lemma readFor_inputs {resolves : JsString → Bool} {rows many : Rows}
    {inputs : List CreateNotificationInput} {data : List NotificationCreateData}
    (hdata : List.Forall₂ (fun input item => createData resolves input = some item ∧
      storable item = true) inputs data) (hmany : List.Forall₂ (ReadFor rows) data many) :
    List.Forall₂ (fun input row => row ∈ rows ∧ row.key = inputKey input) inputs many := by
  induction hdata generalizing many with
  | nil =>
    obtain rfl := List.forall₂_nil_left_iff.mp hmany
    exact .nil
  | cons hitem _ ih =>
    obtain ⟨row, many, hrow, hrest, rfl⟩ := List.forall₂_cons_left_iff.mp hmany
    obtain ⟨hrecipient, hkey⟩ := createData_key hitem.1
    exact .cons ⟨hrow.1, hrow.2.trans (Prod.ext hrecipient hkey)⟩ (ih hrest)

/-- `notifyMany` leaves the table that `notify` on its inputs in order leaves, up to what the
database makes up, and gives back for each input the row of its recipient and its key. -/
theorem notifyMany_eq_notifyEach (rows : Rows) (inputs : List CreateNotificationInput) (now : ℤ)
    (ids : List JsString) (draws : List (ℤ × JsString)) (hrows : Unique rows)
    (hlimit : inputs.length ≤ notificationLimits.notifyManyBatch)
    (hids : ids.length = inputs.length) (hfresh : Fresh rows ids)
    (hdraws : draws.length = inputs.length) (hdrawn : Fresh rows (draws.map Prod.snd)) :
    ((∀ input ∈ inputs, Accepted resolves input) → ∃ added addedEach many each,
      alone resolves collation { now, ids } (.notifyMany inputs) rows =
        (rows ++ added, .done (.ok (.records many))) ∧
      notifyEach resolves collation (inputs.zip draws) rows =
        (rows ++ addedEach, each.map fun row => .done (.ok (.record row))) ∧
      List.Forall₂ Alike added addedEach ∧ List.Forall₂ Alike many each ∧
      Unique (rows ++ added) ∧
      List.Forall₂ (fun input row => row ∈ rows ++ added ∧ row.key = inputKey input) inputs many) ∧
    ((∃ input ∈ inputs, createData resolves input = none) → ∀ call,
      alone resolves collation call (.notifyMany inputs) rows =
        (rows, .done (.error invalidInput))) := by
  constructor
  · intro haccepted
    obtain ⟨data, hmapM, hdata⟩ := exists_mapM haccepted
    have hlength := hdata.length_eq
    have hstorable := storable_of_accepted hdata
    obtain ⟨many, hmany, hread⟩ := alone_notifyMany collation now hlimit hmapM hstorable
      (hids.trans hlength) hfresh
    obtain ⟨each, heach, hreadEach⟩ := notifyEach_spec collation hdata (hdraws.trans hlength) hdrawn
    have hlengthBatch : (ids.map fun id => (now, id)).length = data.length := by
      simpa using hids.trans hlength
    have hfreshBatch : Fresh (rows ++ []) ((ids.map fun id => (now, id)).map Prod.snd) := by
      simpa [List.map_map, Function.comp_def] using hfresh
    obtain ⟨added, addedEach, hadded, haddedEach, halike⟩ := alike_inserts hlengthBatch
      (hdraws.trans hlength) hfreshBatch (by simpa using hdrawn) .nil
    rw [List.append_nil] at hadded haddedEach
    rw [hadded] at hmany hread
    rw [haddedEach] at heach hreadEach
    have hrefl : List.Forall₂ Alike rows rows := List.forall₂_same.mpr fun _ _ => ⟨rfl, rfl, rfl⟩
    have hunique : Unique (rows ++ added) := hadded ▸ (insertRows_spec _ hrows).1
    have huniqueEach : Unique (rows ++ addedEach) := haddedEach ▸ (insertRows_spec _ hrows).1
    exact ⟨added, addedEach, many, each, hmany, heach, halike,
      alike_of_keys huniqueEach (List.rel_append hrefl halike) hread hreadEach, hunique,
      readFor_inputs hdata hread⟩
  · rintro ⟨input, hinput, hnone⟩ call
    have hmapM := mapM_eq_none hinput hnone
    simp only [alone, start, notifyMany, if_neg (not_lt.mpr hlimit), hmapM]
    rfl

end Batches

/-- An input whose row is stored, and one that stands twice in the batch. -/
theorem notifyMany_eq_notifyEach_duplicates : ∃ added addedEach many each,
    alone (fun _ => true) codeUnits { now := 5, ids := [js "a", js "b", js "c"] }
        (.notifyMany [fillInput 0, fillInput 1, fillInput 0]) [newRow 1 (js "old") (fillData 1)] =
      ([newRow 1 (js "old") (fillData 1)] ++ added, .done (.ok (.records many))) ∧
    notifyEach (fun _ => true) codeUnits
        ([fillInput 0, fillInput 1, fillInput 0].zip [(6, js "d"), (7, js "e"), (8, js "f")])
        [newRow 1 (js "old") (fillData 1)] =
      ([newRow 1 (js "old") (fillData 1)] ++ addedEach,
        each.map fun row => .done (.ok (.record row))) ∧
    List.Forall₂ Alike added addedEach ∧ List.Forall₂ Alike many each := by
  have hinputs : ∀ input ∈ [fillInput 0, fillInput 1, fillInput 0],
      Accepted (fun _ => true) input := by
    intro input hinput
    simp only [List.mem_cons, List.not_mem_nil, or_false] at hinput
    rcases hinput with rfl | rfl | rfl
    · exact ⟨_, createData_fill _ 0, storable_fill 0⟩
    · exact ⟨_, createData_fill _ 1, storable_fill 1⟩
    · exact ⟨_, createData_fill _ 0, storable_fill 0⟩
  obtain ⟨added, addedEach, many, each, hmany, heach, hadded, halike, -, -⟩ :=
    (notifyMany_eq_notifyEach (fun _ => true) codeUnits [newRow 1 (js "old") (fillData 1)]
      [fillInput 0, fillInput 1, fillInput 0] 5 [js "a", js "b", js "c"]
      [(6, js "d"), (7, js "e"), (8, js "f")] (List.pairwise_singleton _ _) (by decide) rfl
      ⟨by decide, by decide +kernel⟩ rfl ⟨by decide, by decide +kernel⟩).1 hinputs
  exact ⟨added, addedEach, many, each, hmany, heach, hadded, halike⟩

end Appspine.Notification
