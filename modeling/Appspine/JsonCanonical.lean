import Appspine.JsonParse

/-!
# Canonical JSON

The two key-sorted serializations of the repository. The manifest loader copies a
value with its keys assigned in sorted order and prints the copy; the integration
contracts print the entries in sorted order directly.
-/
namespace Appspine.JsonText
open JsText Utf16 StableSort InsertionMap

variable {N : Type}

/-- A property of an object, by key. -/
def field (k : JsString) : Json N → Option (Json N)
  | .obj members => get members k
  | _ => none

section UniqueKeys

mutual

/-- Every object inside the value has each key once. -/
def uniqueKeys : Json N → Bool
  | .null => true
  | .bool _ => true
  | .num _ => true
  | .str _ => true
  | .arr items => uniqueKeysItems items
  | .obj members => decide ((members.map Prod.fst).Nodup) && uniqueKeysMembers members

def uniqueKeysItems : List (Json N) → Bool
  | [] => true
  | j :: items => uniqueKeys j && uniqueKeysItems items

def uniqueKeysMembers : List (JsString × Json N) → Bool
  | [] => true
  | (_, v) :: members => uniqueKeys v && uniqueKeysMembers members

end

theorem uniqueKeysItems_iff (items : List (Json N)) :
    uniqueKeysItems items = true ↔ ∀ j ∈ items, uniqueKeys j = true := by
  induction items with
  | nil => simp [uniqueKeysItems]
  | cons j items ih => simp [uniqueKeysItems, ih]

theorem uniqueKeysMembers_iff (members : List (JsString × Json N)) :
    uniqueKeysMembers members = true ↔ ∀ m ∈ members, uniqueKeys m.2 = true := by
  induction members with
  | nil => simp [uniqueKeysMembers]
  | cons m members ih => simp [uniqueKeysMembers, ih]

theorem uniqueKeys_arr {items : List (Json N)} :
    uniqueKeys (.arr items) = true ↔ ∀ j ∈ items, uniqueKeys j = true := by
  rw [uniqueKeys, uniqueKeysItems_iff]

theorem uniqueKeys_obj {members : List (JsString × Json N)} :
    uniqueKeys (.obj members) = true ↔
      (members.map Prod.fst).Nodup ∧ ∀ m ∈ members, uniqueKeys m.2 = true := by
  rw [uniqueKeys, Bool.and_eq_true, uniqueKeysMembers_iff, decide_eq_true_eq]

theorem keys_map_value {β : Type*} (f : β → β) (members : List (JsString × β)) :
    (members.map (fun m => (m.1, f m.2))).map Prod.fst = members.map Prod.fst := by
  simp [List.map_map, Function.comp_def]

theorem uniqueKeys_rebuild {j : Json N} (h : uniqueKeys j = true) : uniqueKeys (rebuild j) = true := by
  induction j with
  | null => rfl
  | bool b => rfl
  | num n => rfl
  | str s => rfl
  | arr items ih =>
    rw [uniqueKeys_arr] at h
    rw [rebuild, rebuildItems_eq, uniqueKeys_arr]
    intro j hj
    obtain ⟨i, hi, rfl⟩ := List.mem_map.mp hj
    exact ih i hi (h i hi)
  | obj members ih =>
    rw [uniqueKeys_obj] at h
    have hkeys : ((members.map (fun m => (m.1, rebuild m.2))).map Prod.fst).Nodup := by
      rw [keys_map_value]
      exact h.1
    have hperm := ofEntries_perm hkeys
    rw [rebuild, rebuildMembers_eq, uniqueKeys_obj]
    refine ⟨(hperm.map Prod.fst).nodup_iff.mpr hkeys, ?_⟩
    intro m hm
    obtain ⟨m', hm', rfl⟩ := List.mem_map.mp (hperm.mem_iff.mp hm)
    exact ih m' hm' (h.2 m' hm')

end UniqueKeys

section Canonicalize

/-- `out[key] = value` for each entry; assigning `__proto__` creates no own property. -/
def assignAll (entries : List (JsString × Json N)) : List (JsString × Json N) :=
  ofEntries (entries.filter (fun e => e.1 ≠ js "__proto__"))

mutual

/-- Key-sorted deep copy. -/
def canonicalize : Json N → Json N
  | .null => .null
  | .bool b => .bool b
  | .num n => .num n
  | .str s => .str s
  | .arr items => .arr (canonicalizeItems items)
  | .obj members => .obj (assignAll (sortBy Prod.fst (canonicalizeMembers members)))

def canonicalizeItems : List (Json N) → List (Json N)
  | [] => []
  | j :: items => canonicalize j :: canonicalizeItems items

def canonicalizeMembers : List (JsString × Json N) → List (JsString × Json N)
  | [] => []
  | (k, v) :: members => (k, canonicalize v) :: canonicalizeMembers members

end

theorem canonicalizeItems_eq (items : List (Json N)) :
    canonicalizeItems items = items.map canonicalize := by
  induction items with
  | nil => rfl
  | cons j items ih => simp [canonicalizeItems, ih]

theorem canonicalizeMembers_eq (members : List (JsString × Json N)) :
    canonicalizeMembers members = members.map (fun m => (m.1, canonicalize m.2)) := by
  induction members with
  | nil => rfl
  | cons m members ih => simp [canonicalizeMembers, ih]

theorem get_ofEntries {entries : List (JsString × Json N)} (h : (entries.map Prod.fst).Nodup)
    (k : JsString) : get (ofEntries entries) k = get entries k := by
  have hperm := ofEntries_perm h
  exact get_perm ((hperm.map Prod.fst).nodup_iff.mpr h) hperm k

/-- The copied entries: those of the sorted list, `__proto__` apart, in some order. -/
theorem assignAll_perm {entries : List (JsString × Json N)} (h : (entries.map Prod.fst).Nodup) :
    (assignAll entries).Perm (entries.filter (fun e => e.1 ≠ js "__proto__")) :=
  ofEntries_perm (h.sublist (List.filter_sublist.map _))

theorem nodup_canonicalMembers {members : List (JsString × Json N)}
    (h : (members.map Prod.fst).Nodup) :
    ((sortBy Prod.fst (canonicalizeMembers members)).map Prod.fst).Nodup := by
  rw [map_key_sortBy, nodup_sorted, canonicalizeMembers_eq, keys_map_value]
  exact h

theorem nodup_assignAll {entries : List (JsString × Json N)} (h : (entries.map Prod.fst).Nodup) :
    ((assignAll entries).map Prod.fst).Nodup :=
  ((assignAll_perm h).map Prod.fst).nodup_iff.mpr (h.sublist (List.filter_sublist.map _))

/-- The copy has the properties of the original, except one named `__proto__`. -/
theorem field_canonicalize {members : List (JsString × Json N)} (h : (members.map Prod.fst).Nodup)
    {k : JsString} (hk : k ≠ js "__proto__") :
    field k (canonicalize (.obj members)) = (get members k).map canonicalize := by
  have hsort := nodup_canonicalMembers h
  rw [canonicalize, field, get_perm (nodup_assignAll hsort) (assignAll_perm hsort),
    get_filter_key (fun k => k ≠ js "__proto__") _ (by simpa using hk),
    get_perm hsort (sortBy_perm _ _), canonicalizeMembers_eq, get_map]

theorem field_rebuild {members : List (JsString × Json N)} (h : (members.map Prod.fst).Nodup)
    (k : JsString) : field k (rebuild (.obj members)) = (get members k).map rebuild := by
  rw [rebuild, field, rebuildMembers_eq, get_ofEntries (by rwa [keys_map_value]), get_map]

/-- What parsing the canonical text gives back. -/
def canonicalReading (j : Json N) : Json N := rebuild (canonicalize j)

@[simp] theorem canonicalReading_str (s : JsString) :
    canonicalReading (.str s : Json N) = .str s := rfl

theorem canonicalReading_arr (items : List (Json N)) :
    canonicalReading (.arr items) = .arr (items.map canonicalReading) := by
  simp [canonicalReading, canonicalize, rebuild, canonicalizeItems_eq, rebuildItems_eq,
    Function.comp_def]

theorem field_canonicalReading {members : List (JsString × Json N)}
    (h : (members.map Prod.fst).Nodup) {k : JsString} (hk : k ≠ js "__proto__") :
    field k (canonicalReading (.obj members)) = (get members k).map canonicalReading := by
  have hfield := field_canonicalize h hk
  have hnodup := nodup_assignAll (nodup_canonicalMembers h)
  rw [canonicalize, field] at hfield
  rw [canonicalReading, canonicalize, field_rebuild hnodup, hfield, Option.map_map]
  rfl

variable [JsonNumber N]

/-- The exact text that gets hashed. -/
def canonicalJsonString (j : Json N) : JsString := stringify (canonicalize j)

theorem wellFormed_canonicalJsonString (j : Json N) :
    wellFormed (canonicalJsonString j) = true := wellFormed_stringify _

/-- Canonical texts determine what they read back as. -/
theorem canonicalReading_eq {j j' : Json N} (h : canonicalJsonString j = canonicalJsonString j') :
    canonicalReading j = canonicalReading j' := rebuild_eq_of_stringify_eq h

theorem length_le_length_join {sep p : JsString} {parts : List JsString} (h : p ∈ parts) :
    p.length ≤ (join sep parts).length := by
  induction parts with
  | nil => simp at h
  | cons q qs ih =>
    cases qs with
    | nil =>
      obtain rfl : p = q := by simpa using h
      simp
    | cons r rs =>
      rw [join_cons_cons, List.length_append, List.length_append]
      rcases List.mem_cons.mp h with rfl | h
      · omega
      · have := ih h
        omega

theorem length_stringify_member_lt {members : List (JsString × Json N)} {m : JsString × Json N}
    (h : m ∈ members) : (stringify m.2).length < (stringify (.obj members)).length := by
  have hmem : member m.1 (stringify m.2) ∈ members.map (fun m => member m.1 (stringify m.2)) :=
    List.mem_map.mpr ⟨m, h, rfl⟩
  have hle : _ ≤ (join [unit ','] (members.map _)).length := length_le_length_join hmem
  have hlen : (member m.1 (stringify m.2)).length =
      (quote m.1).length + ((stringify m.2).length + 1) := by simp [member]
  simp only [stringify, braces, stringifyMembers_eq, List.length_cons, List.length_append]
  omega

/-- An object prints longer than any one of its properties. -/
theorem length_canonicalJsonString_lt {members : List (JsString × Json N)}
    (h : (members.map Prod.fst).Nodup) {k : JsString} (hk : k ≠ js "__proto__") {v : Json N}
    (hv : get members k = some v) :
    (canonicalJsonString v).length < (canonicalJsonString (.obj members)).length := by
  have hfield := field_canonicalize h hk
  rw [hv, canonicalize, field] at hfield
  exact length_stringify_member_lt (mem_of_get hfield)

end Canonicalize

section CanonicalJson

mutual

/-- The value whose plain text is the canonical text. -/
def sortMembers : Json N → Json N
  | .null => .null
  | .bool b => .bool b
  | .num n => .num n
  | .str s => .str s
  | .arr items => .arr (sortMembersItems items)
  | .obj members => .obj (sortBy Prod.fst (sortMembersEntries members))

def sortMembersItems : List (Json N) → List (Json N)
  | [] => []
  | j :: items => sortMembers j :: sortMembersItems items

def sortMembersEntries : List (JsString × Json N) → List (JsString × Json N)
  | [] => []
  | (k, v) :: members => (k, sortMembers v) :: sortMembersEntries members

end

theorem sortMembersItems_eq (items : List (Json N)) :
    sortMembersItems items = items.map sortMembers := by
  induction items with
  | nil => rfl
  | cons j items ih => simp [sortMembersItems, ih]

theorem sortMembersEntries_eq (members : List (JsString × Json N)) :
    sortMembersEntries members = members.map (fun m => (m.1, sortMembers m.2)) := by
  induction members with
  | nil => rfl
  | cons m members ih => simp [sortMembersEntries, ih]

theorem uniqueKeys_sortMembers {j : Json N} (h : uniqueKeys j = true) :
    uniqueKeys (sortMembers j) = true := by
  induction j with
  | null => rfl
  | bool b => rfl
  | num n => rfl
  | str s => rfl
  | arr items ih =>
    rw [uniqueKeys_arr] at h
    rw [sortMembers, sortMembersItems_eq, uniqueKeys_arr]
    intro j hj
    obtain ⟨i, hi, rfl⟩ := List.mem_map.mp hj
    exact ih i hi (h i hi)
  | obj members ih =>
    rw [uniqueKeys_obj] at h
    rw [sortMembers, sortMembersEntries_eq, uniqueKeys_obj]
    constructor
    · rw [map_key_sortBy, nodup_sorted, keys_map_value]
      exact h.1
    · intro m hm
      obtain ⟨m', hm', rfl⟩ := List.mem_map.mp (mem_sortBy.mp hm)
      exact ih m' hm' (h.2 m' hm')

/-- `JSON.parse(canonicalJson(value))`. -/
def canonicalJsonValue (j : Json N) : Json N := rebuild (sortMembers j)

theorem uniqueKeys_canonicalJsonValue {j : Json N} (h : uniqueKeys j = true) :
    uniqueKeys (canonicalJsonValue j) = true := uniqueKeys_rebuild (uniqueKeys_sortMembers h)

theorem field_canonicalJsonValue {members : List (JsString × Json N)}
    (h : (members.map Prod.fst).Nodup) (k : JsString) :
    field k (canonicalJsonValue (.obj members)) = (get members k).map canonicalJsonValue := by
  have hkeys : ((sortMembersEntries members).map Prod.fst).Nodup := by
    rw [sortMembersEntries_eq, keys_map_value]
    exact h
  have hsorted : ((sortBy Prod.fst (sortMembersEntries members)).map Prod.fst).Nodup := by
    rwa [map_key_sortBy, nodup_sorted]
  rw [canonicalJsonValue, sortMembers, field_rebuild hsorted,
    get_perm hsorted (sortBy_perm _ _), sortMembersEntries_eq, get_map, Option.map_map]
  rfl

variable [JsonNumber N]

mutual

/-- `canonicalJson` of the integration contracts. -/
def canonicalJson : Json N → JsString
  | .null => js "null"
  | .bool b => if b then js "true" else js "false"
  | .num n => JsonNumber.text n
  | .str s => quote s
  | .arr items => brackets (canonicalJsonItems items)
  | .obj members =>
    braces ((sortBy Prod.fst (canonicalJsonEntries members)).map (fun e => member e.1 e.2))

def canonicalJsonItems : List (Json N) → List JsString
  | [] => []
  | j :: items => canonicalJson j :: canonicalJsonItems items

def canonicalJsonEntries : List (JsString × Json N) → List (JsString × JsString)
  | [] => []
  | (k, v) :: members => (k, canonicalJson v) :: canonicalJsonEntries members

end

theorem canonicalJsonItems_eq (items : List (Json N)) :
    canonicalJsonItems items = items.map canonicalJson := by
  induction items with
  | nil => rfl
  | cons j items ih => simp [canonicalJsonItems, ih]

theorem canonicalJsonEntries_eq (members : List (JsString × Json N)) :
    canonicalJsonEntries members = members.map (fun m => (m.1, canonicalJson m.2)) := by
  induction members with
  | nil => rfl
  | cons m members ih => simp [canonicalJsonEntries, ih]

theorem canonicalJson_eq_stringify (j : Json N) : canonicalJson j = stringify (sortMembers j) := by
  induction j with
  | null => rfl
  | bool b => rfl
  | num n => rfl
  | str s => rfl
  | arr items ih =>
    simp only [canonicalJson, sortMembers, stringify, canonicalJsonItems_eq, sortMembersItems_eq,
      stringifyItems_eq, List.map_map]
    exact congrArg brackets (List.map_congr_left ih)
  | obj members ih =>
    simp only [canonicalJson, sortMembers, stringify, canonicalJsonEntries_eq,
      sortMembersEntries_eq, stringifyMembers_eq]
    rw [sortBy_map, sortBy_map, List.map_map, List.map_map]
    apply congrArg braces
    apply List.map_congr_left
    intro m hm
    simp only [Function.comp_apply, ih m (mem_sortBy.mp hm)]

theorem wellFormed_canonicalJson (j : Json N) : wellFormed (canonicalJson j) = true := by
  rw [canonicalJson_eq_stringify]
  exact wellFormed_stringify _

theorem parse_canonicalJson (j : Json N) :
    parse (canonicalJson j) = some (canonicalJsonValue j) := by
  rw [canonicalJson_eq_stringify, parse_stringify]
  rfl

/-- Canonical text sees an object as its entries only, in any order. -/
lemma canonicalJson_obj_of_entries {ms ms' : List (JsString × Json N)} (h : (ms.map Prod.fst).Nodup)
    (hentries : (canonicalJsonEntries ms').Perm (canonicalJsonEntries ms)) :
    canonicalJson (.obj ms') = canonicalJson (.obj ms) := by
  have hinj : ∀ a ∈ canonicalJsonEntries ms', ∀ b ∈ canonicalJsonEntries ms', a.1 = b.1 → a = b := by
    have hnodup : ((canonicalJsonEntries ms).map Prod.fst).Nodup := by
      rw [canonicalJsonEntries_eq, List.map_map]
      exact h
    have hnodup' := (hentries.map Prod.fst).nodup_iff.mpr hnodup
    intro a ha b hb hab
    exact List.inj_on_of_nodup_map hnodup' ha hb hab
  rw [canonicalJson, canonicalJson, sortBy_eq_of_perm hentries hinj]

theorem canonicalJson_obj_perm {ms ms' : List (JsString × Json N)} {f : Json N → Json N}
    (h : (ms.map Prod.fst).Nodup) (hperm : ms'.Perm (ms.map (fun m => (m.1, f m.2))))
    (hf : ∀ m ∈ ms, canonicalJson (f m.2) = canonicalJson m.2) :
    canonicalJson (.obj ms') = canonicalJson (.obj ms) := by
  apply canonicalJson_obj_of_entries h
  rw [canonicalJsonEntries_eq, canonicalJsonEntries_eq]
  refine (hperm.map _).trans (List.Perm.of_eq ?_)
  rw [List.map_map]
  apply List.map_congr_left
  intro m hm
  simp only [Function.comp_apply, hf m hm]

theorem canonicalJson_rebuild {j : Json N} (h : uniqueKeys j = true) :
    canonicalJson (rebuild j) = canonicalJson j := by
  induction j with
  | null => rfl
  | bool b => rfl
  | num n => rfl
  | str s => rfl
  | arr items ih =>
    rw [uniqueKeys_arr] at h
    simp only [rebuild, rebuildItems_eq, canonicalJson, canonicalJsonItems_eq, List.map_map]
    exact congrArg brackets (List.map_congr_left (fun j hj => ih j hj (h j hj)))
  | obj members ih =>
    rw [uniqueKeys_obj] at h
    rw [rebuild, rebuildMembers_eq]
    exact canonicalJson_obj_perm h.1 (ofEntries_perm (by rw [keys_map_value]; exact h.1))
      (fun m hm => ih m hm (h.2 m hm))

theorem canonicalJson_sortMembers {j : Json N} (h : uniqueKeys j = true) :
    canonicalJson (sortMembers j) = canonicalJson j := by
  induction j with
  | null => rfl
  | bool b => rfl
  | num n => rfl
  | str s => rfl
  | arr items ih =>
    rw [uniqueKeys_arr] at h
    simp only [sortMembers, sortMembersItems_eq, canonicalJson, canonicalJsonItems_eq,
      List.map_map]
    exact congrArg brackets (List.map_congr_left (fun j hj => ih j hj (h j hj)))
  | obj members ih =>
    rw [uniqueKeys_obj] at h
    rw [sortMembers, sortMembersEntries_eq]
    exact canonicalJson_obj_perm h.1 (sortBy_perm _ _) (fun m hm => ih m hm (h.2 m hm))

/-- A value and its canonical copy have the same canonical text. -/
theorem canonicalJson_canonicalJsonValue {j : Json N} (h : uniqueKeys j = true) :
    canonicalJson (canonicalJsonValue j) = canonicalJson j := by
  rw [canonicalJsonValue, canonicalJson_rebuild (uniqueKeys_sortMembers h),
    canonicalJson_sortMembers h]

end CanonicalJson

end Appspine.JsonText
