import Appspine.SchemaConforms

/-!
# The standard meaning of a schema

JSON equality and the Draft 2020-12 meaning of the supported keywords, on JSON
values with properties of their own only. On such values the validator decides it,
with `date-time` restricted to the texts its reader accepts.
-/
namespace Appspine.JsonSchema
open JsText JsonText InsertionMap

variable {N : Type} [NumberValue N]

section Equality

mutual

/-- Equality of JSON values: numbers by value, objects as sets of properties. -/
def EqualJson : Json N → Json N → Prop
  | .null, .null => True
  | .bool a, .bool b => a = b
  | .num a, .num b => NumberValue.toRat a = NumberValue.toRat b
  | .str a, .str b => a = b
  | .arr xs, .arr ys => EqualItems xs ys
  | .obj ms, .obj ms' => (∀ k, k ∈ keys ms ↔ k ∈ keys ms') ∧ EqualMembers ms ms'
  | _, _ => False

def EqualItems : List (Json N) → List (Json N) → Prop
  | [], [] => True
  | x :: xs, y :: ys => EqualJson x y ∧ EqualItems xs ys
  | _, _ => False

/-- The values of equal keys are equal. -/
def EqualMembers : List (JsString × Json N) → List (JsString × Json N) → Prop
  | [], _ => True
  | (k, v) :: ms, ms' => (∀ v', (k, v') ∈ ms' → EqualJson v v') ∧ EqualMembers ms ms'

end

lemma equalMembers_iff {ms ms' : List (JsString × Json N)} :
    EqualMembers ms ms' ↔ ∀ m ∈ ms, ∀ v', (m.1, v') ∈ ms' → EqualJson m.2 v' := by
  induction ms with
  | nil => simp [EqualMembers]
  | cons m ms ih => simp [EqualMembers, ih]

omit [NumberValue N] in
lemma canonicalJsonValue_arr (items : List (Json N)) :
    canonicalJsonValue (.arr items) = .arr (items.map canonicalJsonValue) := by
  simp [canonicalJsonValue, sortMembers, rebuild, sortMembersItems_eq, rebuildItems_eq,
    Function.comp_def]

omit [NumberValue N] in
lemma canonicalJsonValue_obj (members : List (JsString × Json N)) :
    ∃ members', canonicalJsonValue (.obj members) = .obj members' := ⟨_, rfl⟩

omit [NumberValue N] in
/-- Objects with one canonical copy have the same keys, with values of one canonical copy. -/
lemma get_map_canonicalJsonValue {ms ms' : List (JsString × Json N)}
    (h : (ms.map Prod.fst).Nodup) (h' : (ms'.map Prod.fst).Nodup)
    (heq : canonicalJsonValue (.obj ms) = canonicalJsonValue (.obj ms')) (k : JsString) :
    (InsertionMap.get ms k).map canonicalJsonValue = (InsertionMap.get ms' k).map canonicalJsonValue := by
  rw [← field_canonicalJsonValue h, ← field_canonicalJsonValue h', heq]

lemma equalJson_of_canonicalJsonValue {j j' : Json N} (h : uniqueKeys j = true)
    (h' : uniqueKeys j' = true) (heq : canonicalJsonValue j = canonicalJsonValue j') :
    EqualJson j j' := by
  induction j generalizing j' with
  | null => cases j' <;> trivial
  | bool b =>
    cases j' with
    | bool b' => exact (Json.bool.inj heq :)
    | _ => cases heq
  | num n =>
    cases j' with
    | num n' => exact congrArg NumberValue.toRat (Json.num.inj heq :)
    | _ => cases heq
  | str s =>
    cases j' with
    | str s' => exact (Json.str.inj heq :)
    | _ => cases heq
  | arr items ih =>
    cases j' with
    | arr items' =>
      rw [canonicalJsonValue_arr, canonicalJsonValue_arr, Json.arr.injEq] at heq
      rw [uniqueKeys_arr] at h h'
      rw [EqualJson]
      induction items generalizing items' with
      | nil =>
        cases items' with
        | nil => trivial
        | cons j' items' => cases heq
      | cons j items ihitems =>
        cases items' with
        | nil => cases heq
        | cons j' items' =>
          rw [List.map_cons, List.map_cons, List.cons.injEq] at heq
          rw [EqualItems]
          refine ⟨ih j (by simp) (h j (by simp)) (h' j' (by simp)) heq.1, ?_⟩
          exact ihitems (fun i hi => ih i (by simp [hi])) (fun i hi => h i (by simp [hi])) items'
            (fun i hi => h' i (by simp [hi])) heq.2
    | _ => cases heq
  | obj members ih =>
    cases j' with
    | obj members' =>
      rw [uniqueKeys_obj] at h h'
      have hget := get_map_canonicalJsonValue h.1 h'.1 heq
      rw [EqualJson, equalMembers_iff]
      constructor
      · intro k
        have hnone : InsertionMap.get members k = none ↔ InsertionMap.get members' k = none := by
          rw [← Option.map_eq_none_iff (f := canonicalJsonValue), hget k, Option.map_eq_none_iff]
        rw [get_eq_none, get_eq_none] at hnone
        exact not_iff_not.mp hnone
      · intro m hm v' hv'
        have hvalue := hget m.1
        rw [get_of_mem h.1 hm, get_of_mem h'.1 hv'] at hvalue
        exact ih m hm (h.2 m hm) (h'.2 _ hv') (Option.some.inj hvalue)
    | _ => cases heq

lemma canonicalJson_of_equalJson {j j' : Json N} (h : uniqueKeys j = true)
    (h' : uniqueKeys j' = true) (heq : EqualJson j j') : canonicalJson j = canonicalJson j' := by
  induction j generalizing j' with
  | null => cases j' <;> first | rfl | simp [EqualJson] at heq
  | bool b => cases j' <;> simp_all [EqualJson]
  | num n =>
    cases j' with
    | num n' =>
      rw [EqualJson] at heq
      rw [NumberValue.toRat_injective heq]
    | _ => simp [EqualJson] at heq
  | str s => cases j' <;> simp_all [EqualJson]
  | arr items ih =>
    cases j' with
    | arr items' =>
      rw [uniqueKeys_arr] at h h'
      rw [EqualJson] at heq
      have hitems : items.map canonicalJson = items'.map canonicalJson := by
        induction items generalizing items' with
        | nil => cases items' <;> simp_all [EqualItems]
        | cons j items ihitems =>
          cases items' with
          | nil => simp [EqualItems] at heq
          | cons j' items' =>
            rw [EqualItems] at heq
            rw [List.map_cons, List.map_cons, ih j (by simp) (h j (by simp)) (h' j' (by simp)) heq.1,
              ihitems (fun i hi => ih i (by simp [hi])) (fun i hi => h i (by simp [hi])) items'
                (fun i hi => h' i (by simp [hi])) heq.2]
      rw [canonicalJson, canonicalJson, canonicalJsonItems_eq, canonicalJsonItems_eq, hitems]
    | _ => simp [EqualJson] at heq
  | obj members ih =>
    cases j' with
    | obj members' =>
      rw [uniqueKeys_obj] at h h'
      rw [EqualJson, equalMembers_iff] at heq
      obtain ⟨hkeys, hvalues⟩ := heq
      apply canonicalJson_obj_of_entries h'.1
      have hnodup : ∀ ms : List (JsString × Json N), (ms.map Prod.fst).Nodup →
          (canonicalJsonEntries ms).Nodup := by
        intro ms hms
        refine List.Nodup.of_map Prod.fst ?_
        rwa [canonicalJsonEntries_eq, List.map_map]
      rw [List.perm_ext_iff_of_nodup (hnodup _ h.1) (hnodup _ h'.1)]
      intro e
      rw [canonicalJsonEntries_eq, canonicalJsonEntries_eq, List.mem_map, List.mem_map]
      constructor
      · rintro ⟨m, hm, rfl⟩
        obtain ⟨m', hm', hk⟩ := List.mem_map.mp ((hkeys m.1).mp (List.mem_map_of_mem hm))
        have hv := hvalues m hm m'.2 (by rwa [← hk])
        exact ⟨m', hm', by rw [hk, ih m hm (h.2 m hm) (h'.2 m' hm') hv]⟩
      · rintro ⟨m', hm', rfl⟩
        obtain ⟨m, hm, hk⟩ := List.mem_map.mp ((hkeys m'.1).mpr (List.mem_map_of_mem hm'))
        have hv := hvalues m hm m'.2 (by rwa [hk])
        exact ⟨m, hm, by rw [hk, ih m hm (h.2 m hm) (h'.2 m' hm') hv]⟩
    | _ => simp [EqualJson] at heq

/-- Canonical texts compare values up to JSON equality. -/
theorem canonicalJson_eq_iff {j j' : Json N} (h : uniqueKeys j = true) (h' : uniqueKeys j' = true) :
    canonicalJson j = canonicalJson j' ↔ EqualJson j j' := by
  refine ⟨fun heq => ?_, canonicalJson_of_equalJson h h'⟩
  apply equalJson_of_canonicalJsonValue h h'
  have hparse := parse_canonicalJson j
  rw [heq, parse_canonicalJson] at hparse
  exact (Option.some.inj hparse).symm

end Equality

section Satisfies

/-- The value is an instance of the type of that name. -/
inductive HasType : Json N → JsString → Prop
  | null : HasType .null (js "null")
  | boolean (b : Bool) : HasType (.bool b) (js "boolean")
  | object (members : List (JsString × Json N)) : HasType (.obj members) (js "object")
  | array (items : List (Json N)) : HasType (.arr items) (js "array")
  | number (n : N) : HasType (.num n) (js "number")
  | integer (n : N) (z : ℤ) (h : NumberValue.toRat n = z) : HasType (.num n) (js "integer")
  | string (t : JsString) : HasType (.str t) (js "string")

/-- Neither a property nor matched by a property pattern. -/
def IsAdditional (P : Platform) (s : Json N) (key : JsString) : Prop :=
  key ∉ keys (schemaEntries s (js "properties")) ∧
    ∀ e ∈ schemaEntries s (js "patternProperties"), P.test e.1 key = false

/-- The assertions of a schema that need no schema below it. `DateTime` is the
meaning of the format `date-time`. -/
structure Asserts (P : Platform) (DateTime : JsString → Prop) (j : Json N) (s : Json N) : Prop where
  const : ∀ c, field (js "const") s = some c → EqualJson j c
  enum : ∀ items, schemaList s (js "enum") = some items → ∃ c ∈ items, EqualJson j c
  type : ∀ type, field (js "type") s = some type → ∃ t, .str t ∈ typeList type ∧ HasType j t
  minLength : ∀ t n, j = .str t → schemaNumber s (js "minLength") = some n →
    NumberValue.toRat n ≤ codePoints t
  maxLength : ∀ t n, j = .str t → schemaNumber s (js "maxLength") = some n →
    codePoints t ≤ NumberValue.toRat n
  pattern : ∀ t p, j = .str t → schemaText s (js "pattern") = some p → P.test p t = true
  dateTime : ∀ t, j = .str t → schemaText s (js "format") = some (js "date-time") → DateTime t
  uri : ∀ t, j = .str t → schemaText s (js "format") = some (js "uri") → P.isUrl t = true
  minimum : ∀ m n, j = .num m → schemaNumber s (js "minimum") = some n →
    NumberValue.toRat n ≤ NumberValue.toRat m
  maximum : ∀ m n, j = .num m → schemaNumber s (js "maximum") = some n →
    NumberValue.toRat m ≤ NumberValue.toRat n
  minItems : ∀ items n, j = .arr items → schemaNumber s (js "minItems") = some n →
    NumberValue.toRat n ≤ items.length
  maxItems : ∀ items n, j = .arr items → schemaNumber s (js "maxItems") = some n →
    items.length ≤ NumberValue.toRat n
  uniqueItems : ∀ items, j = .arr items → (schemaAt s (js "uniqueItems")).isSome →
    items.Pairwise (fun a b => ¬ EqualJson a b)
  required : ∀ members, j = .obj members → ∀ k ∈ requiredOf s, k ∈ keys members
  closed : ∀ members, j = .obj members → isClosed s = true → ∀ k ∈ keys members,
    ¬ IsAdditional P s k

/-- The value satisfies the schema: the assertions of the schema itself, and those of
its applicators. -/
def Satisfies (P : Platform) (DateTime : JsString → Prop) (j : Json N) (s : Json N) : Prop :=
  Asserts P DateTime j s ∧
  (∀ c, schemaAt s (js "if") = some c →
    (Satisfies P DateTime j c → ∀ t, schemaAt s (js "then") = some t → Satisfies P DateTime j t) ∧
    (¬ Satisfies P DateTime j c → ∀ t, schemaAt s (js "else") = some t →
      Satisfies P DateTime j t)) ∧
  (∀ items, schemaList s (js "allOf") = some items → ∀ c ∈ items, Satisfies P DateTime j c) ∧
  (∀ items, schemaList s (js "anyOf") = some items →
    ∃ c, ∃ _ : c ∈ items, Satisfies P DateTime j c) ∧
  (∀ items, schemaList s (js "oneOf") = some items →
    ExactlyOne (fun c : {c // c ∈ items} => Satisfies P DateTime j c.1) items.attach) ∧
  (∀ items, j = .arr items → ∀ c, schemaAt s (js "items") = some c →
    ∀ x ∈ items, Satisfies P DateTime x c) ∧
  (∀ members, j = .obj members →
    (∀ e ∈ schemaEntries s (js "properties"), ∀ x, (e.1, x) ∈ members →
      Satisfies P DateTime x e.2) ∧
    (∀ e ∈ schemaEntries s (js "patternProperties"), ∀ m ∈ members, P.test e.1 m.1 = true →
      Satisfies P DateTime m.2 e.2) ∧
    (∀ m ∈ members, IsAdditional P s m.1 → ∀ c, additionalSchema s = some c →
      Satisfies P DateTime m.2 c))
termination_by sizeOf s
decreasing_by
  all_goals first
    | exact sizeOf_schemaAt_lt ‹_›
    | exact sizeOf_schemaList_lt ‹_› ‹_›
    | exact sizeOf_schemaList_lt ‹_› c.2
    | exact sizeOf_schemaEntries_lt ‹_›
    | exact sizeOf_additionalSchema_lt ‹_›

end Satisfies

section Plain

mutual

/-- Objects have each key once, and none of them is a property name of `Object.prototype`. -/
def plainValue : Json N → Bool
  | .null => true
  | .bool _ => true
  | .num _ => true
  | .str _ => true
  | .arr items => plainItems items
  | .obj members =>
    decide ((members.map Prod.fst).Nodup ∧ ∀ k ∈ members.map Prod.fst, k ∉ prototypeNames) &&
      plainMembers members

def plainItems : List (Json N) → Bool
  | [] => true
  | j :: items => plainValue j && plainItems items

def plainMembers : List (JsString × Json N) → Bool
  | [] => true
  | (_, v) :: members => plainValue v && plainMembers members

end

omit [NumberValue N] in
lemma plainValue_arr {items : List (Json N)} :
    plainValue (.arr items) = true ↔ ∀ j ∈ items, plainValue j = true := by
  rw [plainValue]
  induction items with
  | nil => simp [plainItems]
  | cons j items ih => simp [plainItems, ih]

omit [NumberValue N] in
lemma plainValue_obj {members : List (JsString × Json N)} :
    plainValue (.obj members) = true ↔
      ((members.map Prod.fst).Nodup ∧ ∀ k ∈ members.map Prod.fst, k ∉ prototypeNames) ∧
        ∀ m ∈ members, plainValue m.2 = true := by
  have hmembers : ∀ ms : List (JsString × Json N),
      plainMembers ms = true ↔ ∀ m ∈ ms, plainValue m.2 = true := by
    intro ms
    induction ms with
    | nil => simp [plainMembers]
    | cons m ms ih => simp [plainMembers, ih]
  rw [plainValue, Bool.and_eq_true, decide_eq_true_eq, hmembers]

omit [NumberValue N] in
lemma uniqueKeys_of_plainValue {j : Json N} (h : plainValue j = true) : uniqueKeys j = true := by
  induction j with
  | null => rfl
  | bool b => rfl
  | num n => rfl
  | str s => rfl
  | arr items ih =>
    rw [plainValue_arr] at h
    exact uniqueKeys_arr.mpr (fun j hj => ih j hj (h j hj))
  | obj members ih =>
    rw [plainValue_obj] at h
    exact uniqueKeys_obj.mpr ⟨h.1.1, fun m hm => ih m hm (h.2 m hm)⟩

/-- A schema node without `$ref`, whose `properties` is an object and whose property and
required names are none of `Object.prototype`'s. -/
structure PlainNode (s : Json N) : Prop where
  noRef : refOf s = none
  properties : ∀ j, field (js "properties") s = some j → ∃ members, j = .obj members
  names : ∀ k ∈ keys (schemaEntries s (js "properties")) ++ requiredOf s, k ∉ prototypeNames

/-- The schema as a JSON document, plain at every node. -/
structure PlainSchema (s : Json N) : Prop where
  unique : uniqueKeys s = true
  node : ∀ t, Relation.ReflTransGen EvalChild s t → PlainNode t

lemma PlainSchema.refFree {s : Json N} (h : PlainSchema s) : RefFree s :=
  fun t ht => (h.node t ht).noRef

omit [NumberValue N] in
lemma uniqueKeys_of_field {s j : Json N} {k : JsString} (h : uniqueKeys s = true)
    (hfield : field k s = some j) : uniqueKeys j = true := by
  cases s with
  | obj members => exact (uniqueKeys_obj.mp h).2 _ (mem_of_get hfield)
  | _ => cases hfield

omit [NumberValue N] in
lemma uniqueKeys_of_entriesOf {s : Json N} {e : JsString × Json N} (h : uniqueKeys s = true)
    (he : e ∈ entriesOf s) : uniqueKeys e.2 = true := by
  cases s with
  | obj members => exact (uniqueKeys_obj.mp h).2 e he
  | arr items =>
    obtain ⟨⟨v, i⟩, hv, rfl⟩ := List.mem_map.mp he
    exact uniqueKeys_arr.mp h v (List.fst_mem_of_mem_zipIdx hv)
  | _ => cases he

omit [NumberValue N] in
lemma uniqueKeys_of_schemaList {s c : Json N} {k : JsString} {items : List (Json N)}
    (h : uniqueKeys s = true) (hlist : schemaList s k = some items) (hc : c ∈ items) :
    uniqueKeys c = true :=
  uniqueKeys_arr.mp (uniqueKeys_of_field h (schemaList_eq_some.mp hlist)) c hc

lemma EvalChild.uniqueKeys {s c : Json N} (h : EvalChild s c) (hs : uniqueKeys s = true) :
    uniqueKeys c = true := by
  cases h with
  | keyword _ h => exact uniqueKeys_of_field hs (schemaAt_eq_some.mp h).1
  | member _ h hc => exact uniqueKeys_of_schemaList hs h hc
  | @entry k e _ h =>
    unfold schemaEntries at h
    cases hfield : field k s with
    | none => simp [hfield] at h
    | some j =>
      rw [hfield] at h
      exact uniqueKeys_of_entriesOf (uniqueKeys_of_field hs hfield) h
  | additional h => exact uniqueKeys_of_field hs (field_of_additionalSchema h)

lemma PlainSchema.child {s c : Json N} (h : PlainSchema s) (hc : EvalChild s c) : PlainSchema c :=
  ⟨hc.uniqueKeys h.unique, fun t ht => h.node t (.head hc ht)⟩

end Plain

section Agreement

variable {P : Platform} {mode : Option SchemaValidationMode} {enforceClassification : Bool}
  {j s : Json N}

lemma sameJson_json {c : Json N} (hj : uniqueKeys j = true) (hc : uniqueKeys c = true) :
    sameJson (.json j) c = true ↔ EqualJson j c := by
  rw [sameJson, decide_eq_true_eq, canonicalText, Option.some_inj, canonicalJson_eq_iff hj hc]

lemma den_eq_one_iff {q : ℚ} : q.den = 1 ↔ ∃ z : ℤ, q = z := by
  constructor
  · intro h
    exact ⟨q.num, ((Rat.den_eq_one_iff q).mp h).symm⟩
  · rintro ⟨z, rfl⟩
    exact Rat.den_intCast z

/-- The types of each kind of value. -/
lemma hasType_iff {t : JsString} :
    HasType j t ↔
      match j with
      | .null => t = js "null"
      | .bool _ => t = js "boolean"
      | .num n => t = js "number" ∨ (t = js "integer" ∧ (NumberValue.toRat n).den = 1)
      | .str _ => t = js "string"
      | .arr _ => t = js "array"
      | .obj _ => t = js "object" := by
  constructor
  · intro h
    cases h with
    | integer n z h => exact Or.inr ⟨rfl, den_eq_one_iff.mpr ⟨z, h⟩⟩
    | number n => exact Or.inl rfl
    | _ => rfl
  · intro h
    cases j with
    | null => exact h ▸ .null
    | bool b => exact h ▸ .boolean b
    | num n =>
      rcases h with rfl | ⟨rfl, hden⟩
      · exact .number n
      · obtain ⟨z, hz⟩ := den_eq_one_iff.mp hden
        exact .integer n z hz
    | str t' => exact h ▸ .string t'
    | arr items => exact h ▸ .array items
    | obj members => exact h ▸ .object members

lemma matchesCandidate_str {t : JsString} :
    matchesCandidate (.json j) (.str t) = true ↔ HasType j t := by
  have hne : js "null" ≠ js "integer" ∧ js "null" ≠ js "array" ∧ js "null" ≠ js "object" ∧
      js "array" ≠ js "object" ∧ js "array" ≠ js "integer" ∧ js "object" ≠ js "integer" := by decide
  have hother : ∀ k ∈ [js "null", js "array", js "object", js "integer"],
      k ≠ js "boolean" ∧ k ≠ js "number" ∧ k ≠ js "string" := by decide
  rw [hasType_iff]
  cases j <;> simp only [matchesCandidate] <;> split_ifs <;>
    simp_all [asArray, asObject, isInteger, typeOf, eq_comm]

/-- `validateSchemaDefinition` leaves the seven type names only. -/
lemma WellDefined.type (h : WellDefined enforceClassification s) {type t : Json N}
    (htype : field (js "type") s = some type) (ht : t ∈ typeList type) :
    ∃ c ∈ schemaTypes, t = .str c := by
  have hnode : isNode s = true := by
    by_contra hnot
    rw [field_eq_none_of_not_isNode (by simpa using hnot)] at htype
    cases htype
  have hfaults := ((definitionIssues_eq_nil_iff.mp h).1 hnode).1
  simp only [ownFaults, List.append_eq_nil_iff] at hfaults
  have htypes := hfaults.1.1.1.2
  simp only [typeFaults, htype, List.flatMap_eq_nil_iff] at htypes
  have hmem := htypes t ht
  split_ifs at hmem with hc
  obtain ⟨c, hc, htext⟩ := hc
  refine ⟨c, hc, ?_⟩
  cases t with
  | str t => exact congrArg Json.str (Option.some.inj htext)
  | _ => cases htext

lemma type_iff (h : WellDefined enforceClassification s) :
    (∀ type, schemaAt s (js "type") = some type → matchesType (.json j) type = true) ↔
      ∀ type, field (js "type") s = some type → ∃ t, .str t ∈ typeList type ∧ HasType j t := by
  have htruthy : ∀ type, field (js "type") s = some type → truthy (.json type) = true := by
    intro type htype
    have hnames : ∀ c ∈ schemaTypes, c ≠ [] := by decide
    cases type with
    | arr items => rfl
    | obj members => rfl
    | str t =>
      obtain ⟨c, hc, heq⟩ := h.type htype (List.mem_singleton.mpr rfl)
      have hne := hnames c hc
      rw [← Json.str.inj heq] at hne
      simpa [truthy] using hne
    | null | bool b | num n =>
      obtain ⟨c, -, heq⟩ := h.type htype (List.mem_singleton.mpr rfl)
      cases heq
  have hmatches : ∀ type, field (js "type") s = some type →
      (matchesType (.json j) type = true ↔ ∃ t, .str t ∈ typeList type ∧ HasType j t) := by
    intro type htype
    rw [matchesType, List.any_eq_true]
    constructor
    · rintro ⟨t, ht, hm⟩
      obtain ⟨c, -, rfl⟩ := h.type htype ht
      exact ⟨c, ht, matchesCandidate_str.mp hm⟩
    · rintro ⟨t, ht, hj⟩
      exact ⟨.str t, ht, matchesCandidate_str.mpr hj⟩
  constructor
  · intro hall type htype
    exact (hmatches type htype).mp (hall type (schemaAt_eq_some.mpr ⟨htype, htruthy type htype⟩))
  · intro hall type htype
    obtain ⟨hfield, -⟩ := schemaAt_eq_some.mp htype
    exact (hmatches type hfield).mpr (hall type hfield)

omit [NumberValue N] in
lemma objectInherited_eq_none {k : JsString} (h : k ∉ prototypeNames) :
    (objectInherited k : Option (JsValue N)) = none := by
  simp only [prototypeNames, List.mem_cons, not_or] at h
  rw [objectInherited, if_neg h.1, if_neg h.2]

omit [NumberValue N] in
lemma property_obj {members : List (JsString × Json N)} {k : JsString} (h : k ∉ prototypeNames) :
    property (.json (.obj members)) k = (InsertionMap.get members k).map .json := by
  rw [property, objectInherited_eq_none h, Option.or_none]

omit [NumberValue N] in
lemma isSome_get {members : List (JsString × Json N)} {k : JsString} :
    (InsertionMap.get members k).isSome = true ↔ k ∈ keys members := by
  rw [Option.isSome_iff_ne_none, ne_eq, get_eq_none, not_not]

omit [NumberValue N] in
lemma inProperties_iff (h : PlainNode s) {k : JsString} (hk : k ∉ prototypeNames) :
    inProperties s k = true ↔ k ∈ keys (schemaEntries s (js "properties")) := by
  unfold inProperties schemaEntries
  cases hfield : field (js "properties") s with
  | none => simp [objectInherited_eq_none hk, keys]
  | some properties =>
    obtain ⟨members, rfl⟩ := h.properties properties hfield
    simp [property_obj hk, entriesOf, isSome_get]

omit [NumberValue N] in
lemma isNamed_eq_false_iff (h : PlainNode s) {k : JsString} (hk : k ∉ prototypeNames) :
    isNamed P s k = false ↔ IsAdditional P s k := by
  rw [isNamed, Bool.or_eq_false_iff, IsAdditional, ← inProperties_iff h hk, Bool.not_eq_true]
  refine and_congr_right (fun _ => ?_)
  simp only [List.any_eq_false, Bool.not_eq_true]

/-- The assertions on a string, number or array are read back one by one. -/
lemma valueConforms_iff_asserts (hempty : ∀ t, P.test [] t = true) (hmode : mode ≠ some .tolerantReader)
    (hs : PlainNode s) (hunique : uniqueKeys s = true) (hdef : WellDefined enforceClassification s)
    (hj : plainValue j = true) :
    ValueConforms P mode (.json j) s ↔ Asserts P Rfc3339.IsPlainDateTime j s := by
  have huj := uniqueKeys_of_plainValue hj
  have hconst : ∀ c, field (js "const") s = some c → (sameJson (.json j) c = true ↔ EqualJson j c) :=
    fun c hc => sameJson_json huj (uniqueKeys_of_field hunique hc)
  have henum : ∀ items, schemaList s (js "enum") = some items → ∀ c ∈ items,
      (sameJson (.json j) c = true ↔ EqualJson j c) :=
    fun items hi c hc => sameJson_json huj (uniqueKeys_of_schemaList hunique hi hc)
  have hkeys : ∀ members, j = .obj members → ∀ k ∈ keys members, k ∉ prototypeNames := by
    rintro members rfl k hk
    exact (plainValue_obj.mp hj).1.2 k hk
  have hitems : ∀ items, j = .arr items → ((items.map canonicalJson).Nodup ↔
      items.Pairwise (fun a b => ¬ EqualJson a b)) := by
    rintro items rfl
    rw [uniqueKeys_arr] at huj
    rw [List.Nodup, List.pairwise_map]
    refine List.Pairwise.iff_of_mem (fun ha hb => ?_)
    rw [ne_eq, canonicalJson_eq_iff (huj _ ha) (huj _ hb)]
  have hrecord : ∀ members, asObject (.json j) = some members ↔ j = .obj members := by
    intro members
    cases j <;> simp [asObject]
  constructor
  · intro h
    exact {
      const := fun c hc => (hconst c hc).mp (h.const c hc)
      enum := fun items hi => by
        obtain ⟨c, hc, hsame⟩ := h.enum items hi
        exact ⟨c, hc, (henum items hi c hc).mp hsame⟩
      type := (type_iff hdef).mp h.type
      minLength := by
        rintro t n rfl hn
        exact (h.text t rfl).length.1 n hn
      maxLength := by
        rintro t n rfl hn
        exact (h.text t rfl).length.2 n hn
      pattern := by
        rintro t p rfl hp
        by_cases hnil : p = []
        · rw [hnil]
          exact hempty t
        · exact (h.text t rfl).pattern p hp hnil
      dateTime := by
        rintro t rfl hf
        exact (Rfc3339.isRfc3339DateTime_iff t).mp ((h.text t rfl).dateTime hf)
      uri := by
        rintro t rfl hf
        exact (h.text t rfl).uri hf
      minimum := by
        rintro m n rfl hn
        exact (h.number m rfl).1 n hn
      maximum := by
        rintro m n rfl hn
        exact (h.number m rfl).2 n hn
      minItems := by
        rintro items n rfl hn
        exact (h.count items rfl).1 n hn
      maxItems := by
        rintro items n rfl hn
        exact (h.count items rfl).2 n hn
      uniqueItems := by
        rintro items rfl hu
        exact (hitems items rfl).mp (h.unique items rfl hu)
      required := by
        rintro members rfl k hk
        have hplain := hs.names k (List.mem_append_right _ hk)
        have hsome := h.required rfl k hk
        rwa [property_obj hplain, Option.isSome_map, isSome_get] at hsome
      closed := by
        rintro members rfl hclosed k hk hadd
        obtain ⟨m, hm, rfl⟩ := List.mem_map.mp hk
        have hnamed := (isNamed_eq_false_iff hs (hkeys members rfl _ hk)).mpr hadd
        exact hmode (h.closed members rfl m hm hnamed hclosed) }
  · intro h
    exact {
      const := fun c hc => (hconst c hc).mpr (h.const c hc)
      enum := fun items hi => by
        obtain ⟨c, hc, hequal⟩ := h.enum items hi
        exact ⟨c, hc, (henum items hi c hc).mpr hequal⟩
      type := (type_iff hdef).mpr h.type
      text := by
        intro t ht
        have hstr : j = .str t := by
          cases j <;> simp_all [asText]
        exact {
          length := ⟨fun n => h.minLength t n hstr, fun n => h.maxLength t n hstr⟩
          pattern := fun p hp _ => h.pattern t p hstr hp
          dateTime := fun hf => (Rfc3339.isRfc3339DateTime_iff t).mpr (h.dateTime t hstr hf)
          uri := fun hf => h.uri t hstr hf }
      number := by
        intro m hm
        have hnum : j = .num m := by
          cases j <;> simp_all [asNumber]
        exact ⟨fun n => h.minimum m n hnum, fun n => h.maximum m n hnum⟩
      count := by
        intro items hi
        have harr : j = .arr items := by
          cases j <;> simp_all [asArray]
        exact ⟨fun n => h.minItems items n harr, fun n => h.maxItems items n harr⟩
      unique := by
        intro items hi hu
        have harr : j = .arr items := by
          cases j <;> simp_all [asArray]
        exact (hitems items harr).mpr (h.uniqueItems items harr hu)
      required := by
        intro hsome k hk
        obtain ⟨members, hm⟩ := Option.isSome_iff_exists.mp hsome
        obtain rfl := (hrecord members).mp hm
        have hplain := hs.names k (List.mem_append_right _ hk)
        rw [property_obj hplain, Option.isSome_map, isSome_get]
        exact h.required members rfl k hk
      closed := by
        intro members hm m hmem hnamed hclosed
        obtain rfl := (hrecord members).mp hm
        have hk := List.mem_map_of_mem (f := Prod.fst) hmem
        have hadd := (isNamed_eq_false_iff hs (hkeys members rfl _ hk)).mp hnamed
        exact absurd hadd (h.closed members rfl hclosed m.1 hk) }

lemma satisfies_iff {DateTime : JsString → Prop} :
    Satisfies P DateTime j s ↔
      Asserts P DateTime j s ∧
      (∀ c, schemaAt s (js "if") = some c →
        (Satisfies P DateTime j c → ∀ t, schemaAt s (js "then") = some t →
          Satisfies P DateTime j t) ∧
        (¬ Satisfies P DateTime j c → ∀ t, schemaAt s (js "else") = some t →
          Satisfies P DateTime j t)) ∧
      (∀ items, schemaList s (js "allOf") = some items → ∀ c ∈ items, Satisfies P DateTime j c) ∧
      (∀ items, schemaList s (js "anyOf") = some items → ∃ c ∈ items, Satisfies P DateTime j c) ∧
      (∀ items, schemaList s (js "oneOf") = some items →
        ExactlyOne (Satisfies P DateTime j) items) ∧
      (∀ items, j = .arr items → ∀ c, schemaAt s (js "items") = some c →
        ∀ x ∈ items, Satisfies P DateTime x c) ∧
      (∀ members, j = .obj members →
        (∀ e ∈ schemaEntries s (js "properties"), ∀ x, (e.1, x) ∈ members →
          Satisfies P DateTime x e.2) ∧
        (∀ e ∈ schemaEntries s (js "patternProperties"), ∀ m ∈ members, P.test e.1 m.1 = true →
          Satisfies P DateTime m.2 e.2) ∧
        (∀ m ∈ members, IsAdditional P s m.1 → ∀ c, additionalSchema s = some c →
          Satisfies P DateTime m.2 c)) := by
  rw [Satisfies]
  simp only [exists_prop, exactlyOne_attach]

/-- On plain values and schemas, conforming is satisfying. -/
theorem conforms_iff_satisfies (hempty : ∀ t, P.test [] t = true)
    (hmode : mode ≠ some .tolerantReader) (hs : PlainSchema s)
    (hdef : WellDefined enforceClassification s) (hj : plainValue j = true) :
    Conforms P mode (.json j) s ↔ Satisfies P Rfc3339.IsPlainDateTime j s := by
  induction hn : sizeOf s using Nat.strong_induction_on generalizing s j with
  | _ n ih =>
    have hchild : ∀ c, EvalChild s c → ∀ x, plainValue x = true →
        (Conforms P mode (.json x) c ↔ Satisfies P Rfc3339.IsPlainDateTime x c) :=
      fun c hc x hx => ih _ (by have := hc.sizeOf_lt; omega) (hs.child hc) (hdef.child hc) hx rfl
    have hkeyword : ∀ k ∈ [js "if", js "then", js "else", js "items"], ∀ c, schemaAt s k = some c →
        ∀ x, plainValue x = true →
          (Conforms P mode (.json x) c ↔ Satisfies P Rfc3339.IsPlainDateTime x c) :=
      fun k hk c hc => hchild c (.keyword hk hc)
    have hmember : ∀ k ∈ [js "allOf", js "anyOf", js "oneOf"], ∀ items, schemaList s k = some items →
        ∀ c ∈ items, (Conforms P mode (.json j) c ↔ Satisfies P Rfc3339.IsPlainDateTime j c) :=
      fun k hk items hi c hc => hchild c (.member hk hi hc) j hj
    rw [conforms_iff, satisfies_iff, valueConforms_iff_asserts hempty hmode (hs.node s .refl)
      hs.unique hdef hj]
    refine and_congr_right (fun _ => ?_)
    have hconditional : (∀ c, schemaAt s (js "if") = some c →
        (Conforms P mode (.json j) c → ∀ t, schemaAt s (js "then") = some t →
          Conforms P mode (.json j) t) ∧
        (¬ Conforms P mode (.json j) c → ∀ t, schemaAt s (js "else") = some t →
          Conforms P mode (.json j) t)) ↔
        ∀ c, schemaAt s (js "if") = some c →
          (Satisfies P Rfc3339.IsPlainDateTime j c → ∀ t, schemaAt s (js "then") = some t →
            Satisfies P Rfc3339.IsPlainDateTime j t) ∧
          (¬ Satisfies P Rfc3339.IsPlainDateTime j c → ∀ t, schemaAt s (js "else") = some t →
            Satisfies P Rfc3339.IsPlainDateTime j t) := by
      refine forall₂_congr (fun c hc => ?_)
      rw [hkeyword (js "if") (by simp) c hc j hj]
      exact and_congr
        (imp_congr_right fun _ => forall₂_congr fun t ht => hkeyword (js "then") (by simp) t ht j hj)
        (imp_congr_right fun _ => forall₂_congr fun t ht => hkeyword (js "else") (by simp) t ht j hj)
    have hall : (∀ items, schemaList s (js "allOf") = some items → ∀ c ∈ items,
        Conforms P mode (.json j) c) ↔
        ∀ items, schemaList s (js "allOf") = some items → ∀ c ∈ items,
          Satisfies P Rfc3339.IsPlainDateTime j c :=
      forall₂_congr fun items hi => forall₂_congr fun c hc => hmember _ (by simp) items hi c hc
    have hany : (∀ items, schemaList s (js "anyOf") = some items → ∃ c ∈ items,
        Conforms P mode (.json j) c) ↔
        ∀ items, schemaList s (js "anyOf") = some items → ∃ c ∈ items,
          Satisfies P Rfc3339.IsPlainDateTime j c :=
      forall₂_congr fun items hi => exists_congr fun c => and_congr_right fun hc =>
        hmember _ (by simp) items hi c hc
    have hone : (∀ items, schemaList s (js "oneOf") = some items →
        ExactlyOne (Conforms P mode (.json j)) items) ↔
        ∀ items, schemaList s (js "oneOf") = some items →
          ExactlyOne (Satisfies P Rfc3339.IsPlainDateTime j) items :=
      forall₂_congr fun items hi => ExactlyOne.congr fun c hc => hmember _ (by simp) items hi c hc
    rw [← hconditional, ← hall, ← hany, ← hone]
    constructor
    · intro h
      refine ⟨h.conditional, h.allOf, h.anyOf, h.oneOf, ?_, ?_⟩
      · rintro items rfl c hc x hx
        exact (hkeyword (js "items") (by simp) c hc x (plainValue_arr.mp hj x hx)).mp
          (h.items items rfl c hc x hx)
      · rintro members rfl
        obtain ⟨⟨hnodup, hplain⟩, hvalues⟩ := plainValue_obj.mp hj
        refine ⟨?_, ?_, ?_⟩
        · intro e he x hx
          refine (hchild e.2 (.entry (k := js "properties") (by simp) he) x (hvalues _ hx)).mp ?_
          apply h.properties rfl e he
          rw [property_obj (hplain _ (List.mem_map_of_mem (f := Prod.fst) hx)), get_of_mem hnodup hx]
          rfl
        · intro e he m hm htest
          exact (hchild e.2 (.entry (k := js "patternProperties") (by simp) he) m.2 (hvalues m hm)).mp
            (h.patternProperties members rfl e he m hm htest)
        · intro m hm hadd c hc
          have hk := hplain m.1 (List.mem_map_of_mem (f := Prod.fst) hm)
          exact (hchild c (.additional hc) m.2 (hvalues m hm)).mp
            (h.additional members rfl m hm ((isNamed_eq_false_iff (hs.node s .refl) hk).mpr hadd) c hc)
    · rintro ⟨hcond, hallOf, hanyOf, honeOf, hitems, hmembers⟩
      exact {
        conditional := hcond
        allOf := hallOf
        anyOf := hanyOf
        oneOf := honeOf
        items := by
          intro items hi c hc x hx
          have harr : j = .arr items := by
            cases j <;> simp_all [asArray]
          subst harr
          exact (hkeyword (js "items") (by simp) c hc x (plainValue_arr.mp hj x hx)).mpr
            (hitems items rfl c hc x hx)
        properties := by
          intro hsome e he x hx
          cases j with
          | obj members =>
            have hk := (hs.node s .refl).names e.1
              (List.mem_append_left _ (List.mem_map_of_mem (f := Prod.fst) he))
            rw [property_obj hk, Option.map_eq_some_iff] at hx
            obtain ⟨v, hv, rfl⟩ := hx
            have hmem := mem_of_get hv
            exact (hchild e.2 (.entry (k := js "properties") (by simp) he) v
              ((plainValue_obj.mp hj).2 _ hmem)).mpr ((hmembers members rfl).1 e he v hmem)
          | _ => cases hsome
        patternProperties := by
          intro record hr e he m hm htest
          have hobj : j = .obj record := by
            cases j <;> simp_all [asObject]
          subst hobj
          exact (hchild e.2 (.entry (k := js "patternProperties") (by simp) he) m.2
            ((plainValue_obj.mp hj).2 m hm)).mpr ((hmembers record rfl).2.1 e he m hm htest)
        additional := by
          intro record hr m hm hnamed c hc
          have hobj : j = .obj record := by
            cases j <;> simp_all [asObject]
          subst hobj
          have hk := (plainValue_obj.mp hj).1.2 m.1 (List.mem_map_of_mem (f := Prod.fst) hm)
          exact (hchild c (.additional hc) m.2 ((plainValue_obj.mp hj).2 m hm)).mpr
            ((hmembers record rfl).2.2 m hm
              ((isNamed_eq_false_iff (hs.node s .refl) hk).mp hnamed) c hc) }

end Agreement

section Validator

/-- On plain schemas and values strict validation decides the standard meaning, with
`date-time` as its reader has it. -/
theorem validateJsonSchema_iff_satisfies {P : Platform} {options : ValidateJsonSchemaOptions N}
    {j schema : Json N} (hempty : ∀ t, P.test [] t = true) (hmode : options.mode = some .strict)
    (hs : PlainSchema schema)
    (hdef : definitionIssues (options.resolve schema).enforceClassification schema (js "$") = [])
    (hj : plainValue j = true) :
    ∃ issues, Returns P (.json j) schema options issues ∧
      (issues = [] ↔ Satisfies P Rfc3339.IsPlainDateTime j schema) := by
  obtain ⟨issues, hissues, hiff⟩ :=
    @decides_validateJsonSchema _ _ P _ _ (.json j) _ hs.refFree hdef le_rfl
  refine ⟨issues, returns_of_eq_some hissues, hiff.trans ?_⟩
  exact conforms_iff_satisfies hempty (by rw [hmode]; decide) hs hdef hj

lemma PlainSchema.of_leaf {s : Json N} (hunique : uniqueKeys s = true) (hnode : PlainNode s)
    (hleaf : definitionChildren s = []) : PlainSchema s := by
  refine ⟨hunique, fun t ht => ?_⟩
  rcases Relation.ReflTransGen.cases_head ht with rfl | ⟨c, hc, -⟩
  · exact hnode
  · obtain ⟨suffix, hmem⟩ := hc.mem_definitionChildren
    rw [hleaf] at hmem
    cases hmem

end Validator

section Inputs

/-- The date-time schema of the repository's own test. -/
def dateSchema : Json ℤ :=
  .obj [(js "type", .str (js "string")), (js "format", .str (js "date-time")),
    (js "x-appspine-data-classification", .str (js "PUBLIC"))]

def strictOptions : ValidateJsonSchemaOptions ℤ := ⟨some .strict, none, none⟩

def anyPlatform : Platform := ⟨fun _ _ => true, fun _ => true⟩

lemma dateSchema_plain : PlainSchema dateSchema := by
  refine .of_leaf (by decide +kernel) ⟨by decide +kernel, ?_, by decide +kernel⟩ (by rfl)
  intro j hj
  cases hj

theorem validateJsonSchema_iff_satisfies_date :
    ∃ issues, Returns anyPlatform (.json (.str (js "2026-02-28T23:59:59+08:00"))) dateSchema
        strictOptions issues ∧
      (issues = [] ↔ Satisfies anyPlatform Rfc3339.IsPlainDateTime
        (.str (js "2026-02-28T23:59:59+08:00")) dateSchema) :=
  validateJsonSchema_iff_satisfies (fun _ => rfl) rfl dateSchema_plain (by decide +kernel) rfl

/-- A date-time satisfies the date-time schema. -/
lemma satisfies_dateSchema {DateTime : JsString → Prop} {t : JsString} (h : DateTime t) :
    Satisfies anyPlatform DateTime (.str t) dateSchema := by
  have hasserts : Asserts anyPlatform DateTime (.str t) dateSchema := {
    const := nofun
    enum := nofun
    type := by
      intro type htype
      cases htype
      exact ⟨js "string", List.mem_singleton.mpr rfl, .string t⟩
    minLength := nofun
    maxLength := nofun
    pattern := nofun
    dateTime := by
      intro t' ht _
      rwa [← Json.str.inj ht]
    uri := fun _ _ _ => rfl
    minimum := nofun
    maximum := nofun
    minItems := nofun
    maxItems := nofun
    uniqueItems := nofun
    required := nofun
    closed := nofun }
  rw [satisfies_iff]
  exact ⟨hasserts, nofun, nofun, nofun, nofun, nofun, nofun⟩

/-- A date-time of the RFC that the validator rejects. -/
def RejectedDateTime (t : JsString) : Prop :=
  Satisfies anyPlatform Rfc3339.IsDateTime (.str t) dateSchema ∧
    Returns anyPlatform (.json (.str t)) dateSchema strictOptions
      [⟨js "$", js "must be an RFC 3339 date-time", js "format"⟩]

/-- A leap second, lower-case letters and the year 0 are rejected. -/
theorem dateTime_rejected :
    RejectedDateTime (js "1998-12-31T23:59:60Z") ∧ RejectedDateTime (js "2026-02-28t23:59:59z") ∧
      RejectedDateTime (js "0000-01-01T00:00:00Z") := by
  have hleap : Rfc3339.IsDateTime (js "1998-12-31T23:59:60Z") := by
    refine ⟨⟨1998, 12, 31, 23, 59, 60, none, .utc⟩, unit 'T', unit 'Z', ?_, by decide, by decide,
      by decide⟩
    exact ⟨by decide, by decide, by decide, by decide, by decide, Or.inr ⟨rfl, by decide⟩, nofun,
      trivial⟩
  have hlower : Rfc3339.IsDateTime (js "2026-02-28t23:59:59z") := by
    refine ⟨⟨2026, 2, 28, 23, 59, 59, none, .utc⟩, unit 't', unit 'z', ?_, by decide, by decide,
      by decide⟩
    exact ⟨by decide, by decide, by decide, by decide, by decide, Or.inl (by decide), nofun, trivial⟩
  have hzero : Rfc3339.IsDateTime (js "0000-01-01T00:00:00Z") := by
    refine ⟨⟨0, 1, 1, 0, 0, 0, none, .utc⟩, unit 'T', unit 'Z', ?_, by decide, by decide, by decide⟩
    exact ⟨by decide, by decide, by decide, by decide, by decide, Or.inl (by decide), nofun, trivial⟩
  exact ⟨⟨satisfies_dateSchema hleap, returns_of_eq_some (n := 1) (by decide +kernel)⟩,
    ⟨satisfies_dateSchema hlower, returns_of_eq_some (n := 1) (by decide +kernel)⟩,
    ⟨satisfies_dateSchema hzero, returns_of_eq_some (n := 1) (by decide +kernel)⟩⟩

end Inputs

end Appspine.JsonSchema
