import Appspine.KeyOrder
import Appspine.JsonNumbers
import Appspine.Results

/-!
# The two canonical serializations, from any value

`canonicalJson` of the integration contracts and `canonicalJsonString` of the manifest loader take
an `unknown` and refuse what is not JSON data. On JSON values they print the canonical texts, and
the loader's copy loses members named `__proto__`.
-/
namespace Appspine.Serializers
open JsText JsonText StableSort Results Function

variable {N : Type}

section Data

/-- The numbers of the language. -/
inductive JsNumber (N : Type) where
  | finite (n : N)
  | negativeZero
  | infinity (negative : Bool)
  | nan

def JsNumber.isFinite : JsNumber N → Bool
  | .finite _ => true
  | .negativeZero => true
  | _ => false

/-- What a serializer can be given: `other` is what has the type named there, an object has its own
enumerable keys, and is plain when its prototype is that of an object literal or `null`. -/
inductive JsData (N : Type) where
  | undefined
  | null
  | bool (b : Bool)
  | number (n : JsNumber N)
  | bigint
  | string (s : JsString)
  | other (type : JsString)
  | array (items : List (JsData N))
  | object (plain : Bool) (members : List (JsString × JsData N))

mutual

/-- A JSON value as `JSON.parse` builds it. -/
def ofJson : Json (JsNumber N) → JsData N
  | .null => .null
  | .bool b => .bool b
  | .num n => .number n
  | .str s => .string s
  | .arr items => .array (ofJsonItems items)
  | .obj members => .object true (ofJsonMembers members)

def ofJsonItems : List (Json (JsNumber N)) → List (JsData N)
  | [] => []
  | j :: items => ofJson j :: ofJsonItems items

def ofJsonMembers : List (JsString × Json (JsNumber N)) → List (JsString × JsData N)
  | [] => []
  | (k, v) :: members => (k, ofJson v) :: ofJsonMembers members

end

mutual

/-- Every number in the value is finite. -/
def allFinite : Json (JsNumber N) → Bool
  | .num n => n.isFinite
  | .arr items => allFiniteItems items
  | .obj members => allFiniteMembers members
  | _ => true

def allFiniteItems : List (Json (JsNumber N)) → Bool
  | [] => true
  | j :: items => allFinite j && allFiniteItems items

def allFiniteMembers : List (JsString × Json (JsNumber N)) → Bool
  | [] => true
  | (_, v) :: members => allFinite v && allFiniteMembers members

end

lemma allFinite_arr {items : List (Json (JsNumber N))} :
    allFinite (.arr items) = true ↔ ∀ j ∈ items, allFinite j = true := by
  rw [allFinite]
  induction items with
  | nil => simp [allFiniteItems]
  | cons j items ih => simp [allFiniteItems, ih]

lemma allFinite_obj {members : List (JsString × Json (JsNumber N))} :
    allFinite (.obj members) = true ↔ ∀ m ∈ members, allFinite m.2 = true := by
  rw [allFinite]
  induction members with
  | nil => simp [allFiniteMembers]
  | cons m members ih => simp [allFiniteMembers, ih]

/-- What `JSON.parse` gives: no object has two properties of one name. A number out of range is read
as an infinite one. -/
structure ParsedJson (N : Type) where
  json : Json (JsNumber N)
  unique : uniqueKeys json = true

/-- A JSON value: its numbers are finite. -/
structure JsonData (N : Type) extends ParsedJson N where
  finite : allFinite json = true

variable [Zero N]

/-- A number with `-0` and `0` not distinguished. -/
def JsNumber.zeroed : JsNumber N → JsNumber N
  | .negativeZero => .finite 0
  | n => n

/-- The finite number that is printed. -/
def JsNumber.value : JsNumber N → N
  | .finite n => n
  | _ => 0

/-- Equal up to the order of keys, `-0` being equal to `0`. -/
def SameJson (v w : Json (JsNumber N)) : Prop :=
  Reordering (v.mapNumbers JsNumber.zeroed) (w.mapNumbers JsNumber.zeroed)

/-- The value with plain finite numbers. -/
def plain (v : Json (JsNumber N)) : Json N := v.mapNumbers JsNumber.value

lemma plain_arr (items : List (Json (JsNumber N))) : plain (.arr items) = .arr (items.map plain) := by
  rw [plain, Json.mapNumbers, mapNumbersItems_eq]
  rfl

lemma plain_obj (members : List (JsString × Json (JsNumber N))) :
    plain (.obj members) = .obj (members.map (fun m => (m.1, plain m.2))) := by
  rw [plain, Json.mapNumbers, mapNumbersMembers_eq]
  rfl

lemma uniqueKeys_plain (v : Json (JsNumber N)) : uniqueKeys (plain v) = uniqueKeys v :=
  uniqueKeys_mapNumbers _ v

omit [Zero N] in
lemma finite_injective : Injective (JsNumber.finite : N → JsNumber N) := by
  intro a b h
  cases h
  rfl

omit [Zero N] in
lemma allFinite_mapNumbers (j : Json N) : allFinite (j.mapNumbers JsNumber.finite) = true := by
  induction j with
  | null => rfl
  | bool b => rfl
  | num n => rfl
  | str s => rfl
  | arr items ih =>
    rw [Json.mapNumbers, mapNumbersItems_eq, allFinite_arr, List.forall_mem_map]
    exact ih
  | obj members ih =>
    rw [Json.mapNumbers, mapNumbersMembers_eq, allFinite_obj, List.forall_mem_map]
    exact ih

lemma plain_mapNumbers (j : Json N) : plain (j.mapNumbers JsNumber.finite) = j := by
  induction j with
  | null => rfl
  | bool b => rfl
  | num n => rfl
  | str s => rfl
  | arr items ih =>
    rw [Json.mapNumbers, mapNumbersItems_eq, plain_arr, List.map_map]
    exact congrArg Json.arr ((List.map_congr_left ih).trans (List.map_id _))
  | obj members ih =>
    rw [Json.mapNumbers, mapNumbersMembers_eq, plain_obj, List.map_map]
    refine congrArg Json.obj ((List.map_congr_left fun m hm => ?_).trans (List.map_id _))
    exact congrArg (Prod.mk m.1) (ih m hm)

/-- Finite values are their plain ones again. -/
lemma mapNumbers_zeroed {v : Json (JsNumber N)} (h : allFinite v = true) :
    v.mapNumbers JsNumber.zeroed = (plain v).mapNumbers JsNumber.finite := by
  induction v with
  | null => rfl
  | bool b => rfl
  | num n => cases n <;> first | rfl | cases h
  | str s => rfl
  | arr items ih =>
    rw [allFinite_arr] at h
    rw [plain_arr, Json.mapNumbers, Json.mapNumbers, mapNumbersItems_eq, mapNumbersItems_eq,
      List.map_map]
    exact congrArg Json.arr (List.map_congr_left fun j hj => ih j hj (h j hj))
  | obj members ih =>
    rw [allFinite_obj] at h
    rw [plain_obj, Json.mapNumbers, Json.mapNumbers, mapNumbersMembers_eq, mapNumbersMembers_eq,
      List.map_map]
    refine congrArg Json.obj (List.map_congr_left fun m hm => ?_)
    simp only [Function.comp_apply, ih m hm (h m hm)]

lemma sameJson_iff {v w : Json (JsNumber N)} (hunique : uniqueKeys v = true)
    (hv : allFinite v = true) (hw : allFinite w = true) :
    SameJson v w ↔ Reordering (plain v) (plain w) := by
  rw [SameJson, mapNumbers_zeroed hv, mapNumbers_zeroed hw,
    reordering_mapNumbers finite_injective (by rwa [uniqueKeys_plain])]

end Data

section Contracts

variable [JsonNumber N] [Zero N]

mutual

/-- `canonicalize` of the integration contracts. -/
def canonicalize (path : JsString) : JsData N → Except JsString JsString
  | .null => .ok (js "null")
  | .string s => .ok (quote s)
  | .bool b => .ok (if b then js "true" else js "false")
  | .number n =>
    match n with
    | .finite n => .ok (JsonNumber.text n)
    | .negativeZero => .ok (JsonNumber.text (0 : N))
    | _ => .error (js "Non-finite number at " ++ path)
  | .bigint => .error (js "BigInt is not JSON data at " ++ path)
  | .undefined => .error (js "Undefined is not JSON data at " ++ path)
  | .other _ => .error (js "Unsupported JSON value at " ++ path)
  | .array items => (collect (canonicalizeItems path 0 items)).map brackets
  | .object isPlain members =>
    if isPlain then
      (collect ((sortBy Prod.fst (canonicalizeEntries path members)).map
        (fun e => e.2.map (member e.1)))).map braces
    else .error (js "Non-plain object is not JSON data at " ++ path)

def canonicalizeItems (path : JsString) (index : ℕ) : List (JsData N) →
    List (Except JsString JsString)
  | [] => []
  | item :: items =>
    canonicalize (path ++ js "[" ++ natText index ++ js "]") item ::
      canonicalizeItems path (index + 1) items

def canonicalizeEntries (path : JsString) : List (JsString × JsData N) →
    List (JsString × Except JsString JsString)
  | [] => []
  | (key, item) :: entries =>
    (key, canonicalize (path ++ js "." ++ key) item) :: canonicalizeEntries path entries

end

def canonicalJson (value : JsData N) : Except JsString JsString := canonicalize (js "$") value

def sha256Digest (sha256Hex : JsString → JsString) (value : JsData N) : Except JsString JsString :=
  (canonicalJson value).map (fun text => js "sha256:" ++ sha256Hex text)

lemma canonicalizeItems_ofJson {items : List (Json (JsNumber N))}
    (h : ∀ j ∈ items, ∀ path, canonicalize path (ofJson j) = .ok (JsonText.canonicalJson (plain j)))
    (path : JsString) (index : ℕ) :
    canonicalizeItems path index (ofJsonItems items) =
      (items.map (fun j => JsonText.canonicalJson (plain j))).map .ok := by
  induction items generalizing index with
  | nil => rfl
  | cons j items ih =>
    rw [ofJsonItems, canonicalizeItems, h j (by simp), ih (fun i hi => h i (by simp [hi]))]
    rfl

lemma canonicalizeEntries_ofJson {members : List (JsString × Json (JsNumber N))}
    (h : ∀ m ∈ members, ∀ path,
      canonicalize path (ofJson m.2) = .ok (JsonText.canonicalJson (plain m.2)))
    (path : JsString) :
    canonicalizeEntries path (ofJsonMembers members) =
      members.map (fun m => (m.1, .ok (JsonText.canonicalJson (plain m.2)))) := by
  induction members with
  | nil => rfl
  | cons m members ih =>
    rw [ofJsonMembers, canonicalizeEntries, h m (by simp), ih (fun m' hm => h m' (by simp [hm]))]
    rfl

/-- JSON values are printed, as the canonical text of the value. -/
lemma canonicalize_ofJson {v : Json (JsNumber N)} (h : allFinite v = true) (path : JsString) :
    canonicalize path (ofJson v) = .ok (JsonText.canonicalJson (plain v)) := by
  induction v generalizing path with
  | null => rfl
  | bool b => rfl
  | num n => cases n <;> first | rfl | cases h
  | str s => rfl
  | arr items ih =>
    rw [allFinite_arr] at h
    rw [ofJson, canonicalize, canonicalizeItems_ofJson (fun j hj path => ih j hj (h j hj) path),
      collect_eq_ok.mpr rfl, plain_arr, JsonText.canonicalJson, canonicalJsonItems_eq,
      List.map_map]
    rfl
  | obj members ih =>
    rw [allFinite_obj] at h
    have hentries := canonicalizeEntries_ofJson (fun m hm path => ih m hm (h m hm) path) path
    rw [ofJson, canonicalize, if_pos rfl, hentries, sortBy_map, List.map_map, plain_obj,
      JsonText.canonicalJson, canonicalJsonEntries_eq, List.map_map, sortBy_map, List.map_map]
    refine (congrArg (Except.map braces) (collect_eq_ok.mpr ?_)).trans rfl
    rw [List.map_map]
    rfl

/-- Every JSON value has a canonical text, which reads back as the value and gives itself again, and
texts and digests tell values apart up to the order of keys. -/
theorem canonicalJson_round_trip {sha256Hex : JsString → JsString} (hinj : Injective sha256Hex)
    (v w : JsonData N) :
    (∃ text reading, canonicalJson (ofJson v.json) = .ok text ∧ parse text = some reading ∧
      SameJson (reading.mapNumbers .finite) v.json ∧
      canonicalJson (ofJson (reading.mapNumbers .finite)) = .ok text) ∧
    (canonicalJson (ofJson v.json) = canonicalJson (ofJson w.json) ↔ SameJson v.json w.json) ∧
    (sha256Digest sha256Hex (ofJson v.json) = sha256Digest sha256Hex (ofJson w.json) ↔
      SameJson v.json w.json) := by
  have htext : ∀ u : JsonData N, canonicalJson (ofJson u.json) =
      .ok (JsonText.canonicalJson (plain u.json)) := fun u => canonicalize_ofJson u.finite _
  have hunique : ∀ u : JsonData N, uniqueKeys (plain u.json) = true := fun u => by
    rw [uniqueKeys_plain]
    exact u.unique
  have hsame : JsonText.canonicalJson (plain v.json) = JsonText.canonicalJson (plain w.json) ↔
      SameJson v.json w.json := by
    rw [canonicalJson_eq_iff_reordering (hunique v) (hunique w),
      sameJson_iff v.unique v.finite w.finite]
  refine ⟨⟨_, _, htext v, parse_canonicalJson _, ?_, ?_⟩, ?_, ?_⟩
  · have hreading : Reordering (plain v.json) (canonicalJsonValue (plain v.json)) :=
      (reordering_sortMembers _).trans (reordering_rebuild (uniqueKeys_sortMembers (hunique v)))
    rw [sameJson_iff ?_ (allFinite_mapNumbers _) v.finite, plain_mapNumbers]
    · exact hreading.symm
    · rw [uniqueKeys_mapNumbers]
      exact uniqueKeys_canonicalJsonValue (hunique v)
  · rw [canonicalJson, canonicalize_ofJson (allFinite_mapNumbers _), plain_mapNumbers,
      canonicalJson_canonicalJsonValue (hunique v)]
  · rw [htext, htext, Except.ok.injEq, hsame]
  · rw [sha256Digest, sha256Digest, htext, htext, ← hsame]
    simp only [Except.map, Except.ok.injEq, List.append_cancel_left_eq, hinj.eq_iff]

/-- `{"b": [-0], "a": null}`. -/
def exampleData : JsonData ℤ where
  json := .obj [(js "b", .arr [.num .negativeZero]), (js "a", .null)]
  unique := by decide
  finite := rfl

theorem canonicalJson_round_trip_example :
    (∃ text reading, canonicalJson (ofJson exampleData.json) = .ok text ∧
      parse text = some reading ∧ SameJson (reading.mapNumbers .finite) exampleData.json ∧
      canonicalJson (ofJson (reading.mapNumbers .finite)) = .ok text) ∧
    (canonicalJson (ofJson exampleData.json) = canonicalJson (ofJson exampleData.json) ↔
      SameJson exampleData.json exampleData.json) ∧
    (sha256Digest (fun text => text) (ofJson exampleData.json) =
        sha256Digest (fun text => text) (ofJson exampleData.json) ↔
      SameJson exampleData.json exampleData.json) :=
  canonicalJson_round_trip injective_id exampleData exampleData

end Contracts

section Loader

structure PluginContractError where
  code : JsString
  message : JsString

def nonCanonical (message : JsString) : PluginContractError := ⟨js "non-canonical-json", message⟩

def refusedType (type path : JsString) : PluginContractError :=
  nonCanonical (js "Cannot canonicalize a value of type \"" ++ type ++ js "\" at \"" ++ path ++
    js "\"")

def memberPath (path key : JsString) : JsString := if path = [] then key else path ++ js "." ++ key

def JsData.isUndefined : JsData N → Bool
  | .undefined => true
  | _ => false

mutual

/-- `canonicalizeValue`, with `assertCanonicalizable`. -/
def canonicalizeValue (path : JsString) : JsData N →
    Except PluginContractError (Json (JsNumber N))
  | .null => .ok .null
  | .bool b => .ok (.bool b)
  | .string s => .ok (.str s)
  | .number n =>
    if n.isFinite then .ok (.num n)
    else .error (nonCanonical (js "Cannot canonicalize a non-finite number at \"" ++ path ++ js "\""))
  | .undefined => .error (refusedType (js "undefined") path)
  | .bigint => .error (refusedType (js "bigint") path)
  | .other type => .error (refusedType type path)
  | .array items => (collect (canonicalizeValues path 0 items)).map .arr
  | .object _ members =>
    (collect ((sortBy Prod.fst (canonicalizeProperties path members)).map
      (fun e => e.2.map (Prod.mk e.1)))).map (fun entries => .obj (assignAll entries))

def canonicalizeValues (path : JsString) (index : ℕ) : List (JsData N) →
    List (Except PluginContractError (Json (JsNumber N)))
  | [] => []
  | item :: items =>
    canonicalizeValue (path ++ js "[" ++ natText index ++ js "]") item ::
      canonicalizeValues path (index + 1) items

def canonicalizeProperties (path : JsString) : List (JsString × JsData N) →
    List (JsString × Except PluginContractError (Json (JsNumber N)))
  | [] => []
  | (key, child) :: members =>
    (key,
      if child.isUndefined then
        .error (nonCanonical (js "Cannot canonicalize undefined at \"" ++ memberPath path key ++
          js "\""))
      else canonicalizeValue (memberPath path key) child) :: canonicalizeProperties path members

end

lemma isUndefined_ofJson (v : Json (JsNumber N)) : (ofJson v).isUndefined = false := by
  cases v <;> rfl

lemma canonicalizeValues_ofJson (items : List (Json (JsNumber N))) (path : JsString) (index : ℕ) :
    canonicalizeValues path index (ofJsonItems items) =
      (items.zipIdx index).map (fun e =>
        canonicalizeValue (path ++ js "[" ++ natText e.2 ++ js "]") (ofJson e.1)) := by
  induction items generalizing index with
  | nil => rfl
  | cons j items ih => rw [ofJsonItems, canonicalizeValues, ih, List.zipIdx_cons, List.map_cons]

lemma canonicalizeProperties_ofJson (members : List (JsString × Json (JsNumber N)))
    (path : JsString) :
    canonicalizeProperties path (ofJsonMembers members) =
      members.map (fun m => (m.1, canonicalizeValue (memberPath path m.1) (ofJson m.2))) := by
  induction members with
  | nil => rfl
  | cons m members ih =>
    rw [ofJsonMembers, canonicalizeProperties, ih, isUndefined_ofJson]
    rfl

/-- JSON values with finite numbers only are copied, and the copy is the loader's. -/
lemma canonicalizeValue_eq_ok {v copy : Json (JsNumber N)} (path : JsString) :
    canonicalizeValue path (ofJson v) = .ok copy ↔
      allFinite v = true ∧ copy = JsonText.canonicalize v := by
  induction v generalizing path copy with
  | null => simp [ofJson, canonicalizeValue, allFinite, JsonText.canonicalize, eq_comm]
  | bool b => simp [ofJson, canonicalizeValue, allFinite, JsonText.canonicalize, eq_comm]
  | num n =>
    cases hn : n.isFinite <;>
      simp [ofJson, canonicalizeValue, allFinite, JsonText.canonicalize, hn, eq_comm]
  | str s => simp [ofJson, canonicalizeValue, allFinite, JsonText.canonicalize, eq_comm]
  | arr items ih =>
    have hitem : ∀ e ∈ items.zipIdx, ∀ c,
        canonicalizeValue (path ++ js "[" ++ natText e.2 ++ js "]") (ofJson e.1) = .ok c ↔
          allFinite e.1 = true ∧ c = JsonText.canonicalize e.1 := fun e he c =>
      ih e.1 (List.fst_mem_of_mem_zipIdx he) _
    have hvalues : items.zipIdx.map (fun e => JsonText.canonicalize e.1) =
        items.map JsonText.canonicalize := by
      conv_rhs => rw [← List.zipIdx_map_fst 0 items, List.map_map]
      rfl
    have hfinite : (∀ e ∈ items.zipIdx, allFinite e.1 = true) ↔ ∀ j ∈ items, allFinite j = true := by
      conv_rhs => rw [← List.zipIdx_map_fst 0 items, List.forall_mem_map]
    rw [ofJson, canonicalizeValue, canonicalizeValues_ofJson, map_eq_ok, allFinite_arr]
    simp only [collect_map_eq_ok hitem, hvalues, hfinite, JsonText.canonicalize,
      canonicalizeItems_eq]
    constructor
    · rintro ⟨vs, ⟨hall, rfl⟩, rfl⟩
      exact ⟨hall, rfl⟩
    · rintro ⟨hall, rfl⟩
      exact ⟨_, ⟨hall, rfl⟩, rfl⟩
  | obj members ih =>
    have hmember : ∀ m ∈ sortBy Prod.fst members, ∀ e : JsString × Json (JsNumber N),
        (canonicalizeValue (memberPath path m.1) (ofJson m.2)).map (Prod.mk m.1) = .ok e ↔
          allFinite m.2 = true ∧ e = (m.1, JsonText.canonicalize m.2) := by
      intro m hm e
      simp only [map_eq_ok, ih m (mem_sortBy.mp hm)]
      constructor
      · rintro ⟨c, ⟨hfinite, rfl⟩, rfl⟩
        exact ⟨hfinite, rfl⟩
      · rintro ⟨hfinite, rfl⟩
        exact ⟨_, ⟨hfinite, rfl⟩, rfl⟩
    have hfinite : (∀ m ∈ sortBy Prod.fst members, allFinite m.2 = true) ↔
        ∀ m ∈ members, allFinite m.2 = true := by simp only [mem_sortBy]
    rw [ofJson, canonicalizeValue, canonicalizeProperties_ofJson, sortBy_map, List.map_map,
      map_eq_ok, allFinite_obj]
    simp only [Function.comp_def, collect_map_eq_ok hmember, hfinite, JsonText.canonicalize,
      canonicalizeMembers_eq, sortBy_map]
    constructor
    · rintro ⟨vs, ⟨hall, rfl⟩, rfl⟩
      exact ⟨hall, rfl⟩
    · rintro ⟨hall, rfl⟩
      exact ⟨_, ⟨hall, rfl⟩, rfl⟩

variable [JsonNumber N] [Zero N]

/-- The text that gets hashed. The copy has finite numbers only, and `-0` is printed as `0`. -/
def canonicalJsonString (value : JsData N) : Except PluginContractError JsString :=
  (canonicalizeValue [] value).map (fun copy => stringify (plain copy))

omit [JsonNumber N] in
lemma plain_canonicalize (v : Json (JsNumber N)) :
    plain (JsonText.canonicalize v) = JsonText.canonicalize (plain v) := by
  induction v with
  | null => rfl
  | bool b => rfl
  | num n => rfl
  | str s => rfl
  | arr items ih =>
    rw [JsonText.canonicalize, canonicalizeItems_eq, plain_arr, plain_arr, JsonText.canonicalize,
      canonicalizeItems_eq, List.map_map, List.map_map]
    exact congrArg Json.arr (List.map_congr_left ih)
  | obj members ih =>
    simp only [JsonText.canonicalize, canonicalizeMembers_eq, plain_obj]
    rw [← assignAll_map, sortBy_map, sortBy_map, sortBy_map, List.map_map, List.map_map]
    refine congrArg (fun entries => Json.obj (assignAll entries)) (List.map_congr_left fun m hm => ?_)
    simp only [Function.comp_apply, ih m (mem_sortBy.mp hm)]

lemma canonicalJsonString_eq_ok {v : Json (JsNumber N)} {text : JsString} :
    canonicalJsonString (ofJson v) = .ok text ↔
      allFinite v = true ∧ JsonText.canonicalJsonString (plain v) = text := by
  rw [canonicalJsonString, map_eq_ok]
  simp only [canonicalizeValue_eq_ok, JsonText.canonicalJsonString, ← plain_canonicalize]
  constructor
  · rintro ⟨copy, ⟨hfinite, rfl⟩, htext⟩
    exact ⟨hfinite, htext⟩
  · rintro ⟨hfinite, htext⟩
    exact ⟨_, ⟨hfinite, rfl⟩, htext⟩

omit [JsonNumber N] in
lemma SameJson.allFinite {v w : Json (JsNumber N)} (h : SameJson v w) :
    Serializers.allFinite v = true ↔ Serializers.allFinite w = true := by
  have hzeroed : ∀ u : Json (JsNumber N),
      Serializers.allFinite (u.mapNumbers JsNumber.zeroed) = true ↔
        Serializers.allFinite u = true := by
    intro u
    induction u with
    | null => rfl
    | bool b => rfl
    | num n => cases n <;> rfl
    | str s => rfl
    | arr items ih =>
      rw [Json.mapNumbers, mapNumbersItems_eq, allFinite_arr, allFinite_arr, List.forall_mem_map]
      exact forall₂_congr ih
    | obj members ih =>
      rw [Json.mapNumbers, mapNumbersMembers_eq, allFinite_obj, allFinite_obj, List.forall_mem_map]
      exact forall₂_congr ih
  rw [← hzeroed v, ← hzeroed w]
  unfold SameJson at h
  generalize v.mapNumbers JsNumber.zeroed = i at h ⊢
  generalize w.mapNumbers JsNumber.zeroed = j at h ⊢
  induction h with
  | refl j => rfl
  | trans _ _ hij hjk => exact hij.trans hjk
  | members h =>
    rw [allFinite_obj, allFinite_obj]
    simp only [h.mem_iff]
  | item before after _ ih =>
    simp only [allFinite_arr, List.mem_append, List.mem_cons, or_imp, forall_and, forall_eq, ih]
  | member before after key _ ih =>
    simp only [allFinite_obj, List.mem_append, List.mem_cons, or_imp, forall_and, forall_eq, ih]

omit [JsonNumber N] [Zero N] in
lemma allFinite_withoutProto {v : Json (JsNumber N)} (h : allFinite v = true) :
    allFinite (withoutProto v) = true := by
  induction v with
  | null => rfl
  | bool b => rfl
  | num n => exact h
  | str s => rfl
  | arr items ih =>
    rw [allFinite_arr] at h
    rw [withoutProto, withoutProtoItems_eq, allFinite_arr, List.forall_mem_map]
    exact fun j hj => ih j hj (h j hj)
  | obj members ih =>
    rw [allFinite_obj] at h
    rw [withoutProto, withoutProtoMembers_eq, allFinite_obj, List.forall_mem_map]
    exact fun m hm => ih m (List.mem_filter.mp hm).1 (h m (List.mem_filter.mp hm).1)

/-- What the texts compare: the values without their `__proto__` members. -/
lemma texts_eq_iff {v w : ParsedJson N} (hv : allFinite v.json = true)
    (hw : allFinite w.json = true) :
    JsonText.canonicalJsonString (plain v.json) = JsonText.canonicalJsonString (plain w.json) ↔
      SameJson (withoutProto v.json) (withoutProto w.json) := by
  rw [canonicalJsonString_eq_iff (by rw [uniqueKeys_plain]; exact v.unique)
      (by rw [uniqueKeys_plain]; exact w.unique),
    sameJson_iff (uniqueKeys_withoutProto v.unique) (allFinite_withoutProto hv)
      (allFinite_withoutProto hw), plain, plain, plain, plain, withoutProto_mapNumbers,
    withoutProto_mapNumbers]

/-- The loader's canonical text tells two parsed values apart up to the order of keys exactly when
they do not differ in `__proto__` members alone; a value with an infinite number has no text. -/
theorem canonicalJsonString_injective_iff (v w : ParsedJson N) :
    ((∃ text, canonicalJsonString (ofJson v.json) = .ok text ∧
        canonicalJsonString (ofJson w.json) = .ok text) ↔ SameJson v.json w.json) ↔
      (SameJson v.json w.json → allFinite v.json = true) ∧
        (allFinite v.json = true → allFinite w.json = true →
          SameJson (withoutProto v.json) (withoutProto w.json) → SameJson v.json w.json) := by
  simp only [canonicalJsonString_eq_ok]
  constructor
  · intro h
    refine ⟨fun hsame => ?_, fun hv hw hrest => ?_⟩
    · obtain ⟨_, ⟨hv, _⟩, _⟩ := h.mpr hsame
      exact hv
    · exact h.mp ⟨_, ⟨hv, rfl⟩, hw, ((texts_eq_iff hv hw).mpr hrest).symm⟩
  · rintro ⟨hfinite, hproto⟩
    constructor
    · rintro ⟨_, ⟨hv, rfl⟩, hw, htext⟩
      exact hproto hv hw ((texts_eq_iff hv hw).mp htext.symm)
    · intro hsame
      have hv := hfinite hsame
      have hw := hsame.allFinite.mp hv
      have hrest : SameJson (withoutProto v.json) (withoutProto w.json) := by
        have hstripped := hsame.withoutProto
        rwa [withoutProto_mapNumbers, withoutProto_mapNumbers] at hstripped
      exact ⟨_, ⟨hv, rfl⟩, hw, ((texts_eq_iff hv hw).mpr hrest).symm⟩

/-- `{"__proto__": 1}` and `{}` have one canonical text. -/
theorem proto_member_lost : ¬ ∀ v w : ParsedJson ℤ,
    (∃ text, canonicalJsonString (ofJson v.json) = .ok text ∧
      canonicalJsonString (ofJson w.json) = .ok text) ↔ SameJson v.json w.json := by
  intro h
  have hsame := (h ⟨.obj [(js "__proto__", .num (.finite 1))], by decide⟩ ⟨.obj [], by decide⟩).mp
    ⟨js "\x7b\x7d", rfl, rfl⟩
  have hsorted := hsame.sortMembers_eq (by decide)
  cases hsorted

end Loader

end Appspine.Serializers
