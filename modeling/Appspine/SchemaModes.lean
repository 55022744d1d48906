import Appspine.SchemaSettles

/-!
# The strict and the tolerant reader

What a closed object schema guarantees in strict mode, and when the tolerant reader accepts what
the strict one accepts.
-/
namespace Appspine.JsonSchema
open JsText JsonText InsertionMap

variable {N : Type}

section Closed

/-- An object schema whose `properties` and `patternProperties` are objects. -/
structure ObjectSchema (s : Json N) : Prop where
  unique : uniqueKeys s = true
  properties : ∀ j, field (js "properties") s = some j → ∃ members, j = .obj members
  patternProperties : ∀ j, field (js "patternProperties") s = some j → ∃ members, j = .obj members

/-- An own key of `properties`, or one that a pattern matches. -/
def Declared (P : Platform) (s : Json N) (key : JsString) : Prop :=
  key ∈ keys (schemaEntries s (js "properties")) ∨
    ∃ e ∈ schemaEntries s (js "patternProperties"), P.test e.1 key = true

lemma isSome_objectInherited {key : JsString} :
    (objectInherited key : Option (JsValue N)).isSome ↔ key ∈ prototypeNames := by
  unfold objectInherited prototypeNames
  rw [List.mem_cons]
  split_ifs with hproto hmethod
  · simp [hproto]
  · simp [hmethod]
  · simp [hproto, hmethod]

lemma isSome_property {members : List (JsString × Json N)} {key : JsString} :
    (property (.json (.obj members)) key).isSome ↔ key ∈ keys members ∨ key ∈ prototypeNames := by
  rw [property, Option.isSome_or, Option.isSome_map, Bool.or_eq_true, isSome_objectInherited]
  refine or_congr_left ?_
  cases hget : get members key with
  | none => simpa using get_eq_none.mp hget
  | some value => simpa using mem_keys_of_get hget

/-- `in` also finds the names that every object inherits. -/
lemma isNamed_iff {P : Platform} {s : Json N} (hs : ObjectSchema s) {key : JsString} :
    isNamed P s key = true ↔ Declared P s key ∨ key ∈ prototypeNames := by
  have hproperties : inProperties s key = true ↔
      key ∈ keys (schemaEntries s (js "properties")) ∨ key ∈ prototypeNames := by
    unfold inProperties schemaEntries
    cases hfield : field (js "properties") s with
    | none => simpa [keys] using isSome_objectInherited
    | some j =>
      obtain ⟨members, rfl⟩ := hs.properties j hfield
      exact isSome_property
  rw [isNamed, Bool.or_eq_true, hproperties, List.any_eq_true, Declared]
  exact or_right_comm

variable [NumberValue N]

/-- No undeclared key and no missing `required` name is overlooked: the schema has no `$ref`, or
it is not a name that every object inherits. -/
def NothingOverlooked (P : Platform) (s : Json N) (members : List (JsString × Json N)) : Prop :=
  (∀ key ∈ keys members, refOf s ≠ none ∨ key ∈ prototypeNames → Declared P s key) ∧
    ∀ key ∈ requiredOf s, refOf s ≠ none ∨ key ∈ prototypeNames → key ∈ keys members

/-- An object accepted in strict mode under a closed schema has declared keys only and all the
required ones exactly if nothing is overlooked. -/
theorem strict_closed_iff {P : Platform} {options : ValidateJsonSchemaOptions N} {s : Json N}
    {members : List (JsString × Json N)} (hs : ObjectSchema s) (hclosed : isClosed s = true)
    (hmode : options.mode = some .strict)
    (h : Returns P (.json (.obj members)) s options []) :
    ((∀ key ∈ keys members, Declared P s key) ∧ ∀ key ∈ requiredOf s, key ∈ keys members) ↔
      NothingOverlooked P s members := by
  constructor
  · rintro ⟨hdeclared, hrequired⟩
    exact ⟨fun key hkey _ => hdeclared key hkey, fun key hkey _ => hrequired key hkey⟩
  · rintro ⟨hkeys, hnames⟩
    cases href : refOf s with
    | some ref =>
      have hne : refOf s ≠ none := by rw [href]; simp
      exact ⟨fun key hkey => hkeys key hkey (.inl hne), fun key hkey => hnames key hkey (.inl hne)⟩
    | none =>
      have hvalue := (returns_nil_iff.mp h).2.valueConforms href
      constructor
      · intro key hkey
        obtain ⟨m, hm, rfl⟩ := List.mem_map.mp hkey
        cases hnamed : isNamed P s m.1 with
        | false =>
          have htolerant := hvalue.closed members rfl m hm hnamed hclosed
          rw [show (options.resolve s).mode = some .strict from hmode] at htolerant
          cases htolerant
        | true =>
          rcases (isNamed_iff hs).mp hnamed with hdeclared | hprototype
          · exact hdeclared
          · exact hkeys m.1 hkey (.inr hprototype)
      · intro key hkey
        rcases isSome_property.mp (hvalue.required rfl key hkey) with hown | hprototype
        · exact hown
        · exact hnames key hkey (.inr hprototype)

def noMatch : Platform := ⟨fun _ _ => false, fun _ => true⟩

def publicString : Json ℤ :=
  .obj [(js "type", .str (js "string")),
    (js "x-appspine-data-classification", .str (js "PUBLIC"))]

/-- A closed schema with the property `id`. -/
def closedSchema (required : JsString) : Json ℤ :=
  .obj [(js "type", .str (js "object")), (js "properties", .obj [(js "id", publicString)]),
    (js "required", .arr [.str required]), (js "additionalProperties", .bool false)]

lemma closedSchema_object (required : JsString) : ObjectSchema (closedSchema required) := by
  refine ⟨rfl, ?_, nofun⟩
  rintro j ⟨rfl⟩
  exact ⟨_, rfl⟩

/-- An undeclared key is accepted, and a required one is missing. -/
theorem inherited_names_overlooked :
    Returns noMatch (.json (.obj [(js "toString", .bool true)])) (closedSchema (js "constructor"))
      ⟨some .strict, none, none⟩ [] ∧
    ¬ Declared noMatch (closedSchema (js "constructor")) (js "toString") ∧
    js "constructor" ∈ requiredOf (closedSchema (js "constructor")) ∧
    js "constructor" ∉ keys [(js "toString", (.bool true : Json ℤ))] := by
  refine ⟨returns_of_eq_some (n := 1) (by decide +kernel), ?_, by decide +kernel, by decide⟩
  rintro (hproperty | ⟨e, -, hmatch⟩)
  · exact absurd hproperty (by decide +kernel)
  · cases hmatch

theorem strict_closed_iff_id :
    ((∀ key ∈ keys [(js "id", (.str (js "x") : Json ℤ))],
        Declared noMatch (closedSchema (js "id")) key) ∧
      ∀ key ∈ requiredOf (closedSchema (js "id")),
        key ∈ keys [(js "id", (.str (js "x") : Json ℤ))]) ↔
    NothingOverlooked noMatch (closedSchema (js "id")) [(js "id", .str (js "x"))] := by
  have hreturns : Returns noMatch (.json (.obj [(js "id", .str (js "x"))])) (closedSchema (js "id"))
      ⟨some .strict, none, none⟩ [] :=
    returns_of_eq_some (n := 2) (by decide +kernel)
  exact strict_closed_iff (closedSchema_object _) rfl rfl hreturns

end Closed

section Tolerant

variable [NumberValue N] (P : Platform) (options : ResolvedOptions N)

variable {P options}

lemma asked_true_iff {α : Type} {F : α → Bool → Prop} {xs : List α} :
    Asked F xs true ↔ ∃ before x after, xs = before ++ x :: after ∧
      (∀ y ∈ before, F y false) ∧ F x true := by
  induction xs with
  | nil => simp [Asked]
  | cons x xs ih =>
    rw [Asked, ih]
    constructor
    · rintro (⟨hx, -⟩ | ⟨hx, before, y, after, rfl, hbefore, hy⟩)
      · exact ⟨[], x, xs, rfl, by simp, hx⟩
      · exact ⟨x :: before, y, after, rfl, List.forall_mem_cons.mpr ⟨hx, hbefore⟩, hy⟩
    · rintro ⟨before, y, after, hxs, hbefore, hy⟩
      cases before with
      | nil =>
        obtain ⟨rfl, rfl⟩ := List.cons.inj hxs
        exact Or.inl ⟨hy, rfl⟩
      | cons z before =>
        obtain ⟨rfl, rfl⟩ := List.cons.inj hxs
        obtain ⟨hz, hbefore⟩ := List.forall_mem_cons.mp hbefore
        exact Or.inr ⟨hz, before, y, after, rfl, hbefore, hy⟩

/-- A first `true` is found before or at an element that has it. -/
lemma asked_true_of {α : Type} {F : α → Bool → Prop} {before after : List α} {x : α}
    (hbefore : ∀ y ∈ before, ∃ b, F y b) (hx : F x true) :
    Asked F (before ++ x :: after) true := by
  induction before with
  | nil => exact Or.inl ⟨hx, rfl⟩
  | cons y before ih =>
    obtain ⟨⟨b, hb⟩, hrest⟩ := List.forall_mem_cons.mp hbefore
    cases b with
    | true => exact Or.inl ⟨hb, rfl⟩
    | false => exact Or.inr ⟨hb, ih hrest⟩

/-- Ignoring unknown keys only drops a check of a value by itself. -/
lemma ValueConforms.tolerantReader {mode : Option SchemaValidationMode} {value : JsValue N}
    {s : Json N} (h : ValueConforms P mode value s) :
    ValueConforms P (some .tolerantReader) value s :=
  { h with closed := fun _ _ _ _ _ _ => rfl }

end Tolerant

end Appspine.JsonSchema
