import Appspine.ComparisonAnswers
import Appspine.SchemaModes

/-!
# Which comparisons can be trusted

Where a comparison breaks nothing, a value that the previous schema accepts is accepted by the next
one exactly if it meets what the comparison passes over in the next schema: the keywords it never
looks at, and those it looks at only where the previous schema has them too.
-/
namespace Appspine.Compatibility
open JsText JsonText InsertionMap JsonSchema

variable {N : Type} [NumberValue N]

section Unanswered

def FormatHolds (P : Platform) (text : JsString) (t : Json N) : Prop :=
  (schemaText t (js "format") = some (js "date-time") →
    Rfc3339.isRfc3339DateTime text = true) ∧
    (schemaText t (js "format") = some (js "uri") → P.isUrl text = true)

/-- The lists under a keyword of the two schemas are compared one by one. -/
def Paired (s t : Json N) (keyword : JsString) : Prop :=
  ∃ old new, schemaList s keyword = some old ∧ schemaList t keyword = some new ∧
    old.length = new.length

variable (P : Platform) (newer : ResolvedOptions N)

/-- What the comparison of a pair passes over in its next schema `t`, of a value. -/
structure Unanswered (s t : Json N) (x : JsValue N) : Prop where
  returns : ∃ b, Settles P newer x t ∅ b
  type : schemaAt s (js "type") = none →
    ∀ type, schemaAt t (js "type") = some type → matchesType x type = true
  const : ∀ j, field (js "const") t = some j → JsonSchema.sameJson x j = true
  enum : schemaList s (js "enum") = none ∨ ¬ Scalar x →
    ∀ items, schemaList t (js "enum") = some items → ∃ j ∈ items, JsonSchema.sameJson x j = true
  pattern : schemaText s (js "pattern") = none → ∀ text, asText x = some text →
    ∀ pattern, schemaText t (js "pattern") = some pattern → pattern ≠ [] →
      P.test pattern text = true
  format : schemaText s (js "format") = none → ∀ text, asText x = some text → FormatHolds P text t
  unique : schemaAt s (js "uniqueItems") = none → ∀ items, asArray x = some items →
    (schemaAt t (js "uniqueItems")).isSome → (items.map canonicalJson).Nodup
  required : (asObject x).isSome → ∀ key ∈ requiredOf t, key ∉ requiredOf s →
    key ∉ keys (propertiesOf t) → hasProperty (propertiesOf s) key = false → (property x key).isSome
  closed : isClosed t = true → ∀ record, asObject x = some record → ∀ m ∈ record,
    isNamed P t m.1 = false → m.1 ∈ keys (propertiesOf s)
  conditional : ∀ condition, schemaAt t (js "if") = some condition →
    ∃ holds, Fresh P newer x condition holds ∧
      ∀ branch, schemaAt t (if holds then js "then" else js "else") = some branch →
        Settles P newer x branch ∅ true
  allOf : ¬ Paired s t (js "allOf") → ∀ items, schemaList t (js "allOf") = some items →
    ∀ c ∈ items, Settles P newer x c ∅ true
  anyOf : ¬ Paired s t (js "anyOf") → ∀ items, schemaList t (js "anyOf") = some items →
    Asked (Fresh P newer x) items true
  oneOf : ∀ items, schemaList t (js "oneOf") = some items →
    (∀ c ∈ items, ∃ a, Fresh P newer x c a) ∧ ExactlyOne (fun c => Fresh P newer x c true) items
  items : schemaAt s (js "items") = none → ∀ c, schemaAt t (js "items") = some c →
    ∀ items, asArray x = some items → ∀ y ∈ items, Settles P newer (.json y) c ∅ true
  properties : (asObject x).isSome → ∀ e ∈ propertiesOf t, e.1 ∉ keys (propertiesOf s) →
    ∀ y, property x e.1 = some y → Settles P newer y e.2 ∅ true
  patternProperties : ∀ record, asObject x = some record →
    ∀ e ∈ schemaEntries t (js "patternProperties"), ∀ m ∈ record, P.test e.1 m.1 = true →
      Settles P newer (.json m.2) e.2 ∅ true
  additional : ∀ record, asObject x = some record → ∀ m ∈ record, isNamed P t m.1 = false →
    ∀ c, additionalSchema t = some c → Settles P newer (.json m.2) c ∅ true

omit [NumberValue N] in
lemma sizeOf_zip_lt {s : Json N} {keyword : JsString} {old new : List (Json N)}
    (hold : schemaList s keyword = some old) {e : Json N × Json N} (he : e ∈ old.zip new) :
    sizeOf e.1 < sizeOf s := sizeOf_schemaList_lt hold (List.of_mem_zip he).1

variable (older : ResolvedOptions N)

/-- The value meets what is passed over in the next schema, here and in the pairs that are compared
because of this one. A schema with a `$ref` is passed over as a whole; of an `anyOf` it is enough
that one pair of which the previous schema accepts the value is met. -/
def Meets (s t : Json N) (x : JsValue N) : Prop :=
  (refOf s ≠ none ∨ refOf t ≠ none → Settles P newer x t ∅ true) ∧
  (refOf s = none → refOf t = none →
    Unanswered P newer s t x ∧
    (∀ old new, schemaList s (js "allOf") = some old → schemaList t (js "allOf") = some new →
      old.length = new.length → ∀ e, e ∈ old.zip new → Meets e.1 e.2 x) ∧
    (∀ old new, schemaList s (js "anyOf") = some old → schemaList t (js "anyOf") = some new →
      old.length = new.length →
      (∃ e, ∃ _ : e ∈ old.zip new, Settles P older x e.1 ∅ true ∧ Meets e.1 e.2 x) ∨
        Asked (Fresh P newer x) new true) ∧
    (∀ items, asArray x = some items → ∀ old new, schemaAt s (js "items") = some old →
      schemaAt t (js "items") = some new → ∀ y ∈ items, Meets old new (.json y)) ∧
    ((asObject x).isSome → ∀ e, e ∈ propertiesOf s → ∀ c, get (propertiesOf t) e.1 = some c →
      ∀ y, property x e.1 = some y → Meets e.2 c y))
termination_by sizeOf s
decreasing_by
  all_goals first
    | exact sizeOf_zip_lt ‹schemaList s _ = some _› ‹_ ∈ _›
    | exact sizeOf_schemaAt_lt ‹_›
    | exact sizeOf_propertiesOf_lt ‹_›

end Unanswered

section Parts

variable {P : Platform} {t c : Json N} {x y : JsValue N}

end Parts

section Sound

variable {P : Platform} {previous next s t : Json N} {x : JsValue N} {path : JsString}

/-- `properties`, when it is given, is an object. -/
def ObjectProperties (t : Json N) : Prop :=
  ∀ j, field (js "properties") t = some j → ∃ members, j = .obj members

omit [NumberValue N] in
lemma inProperties_of_hasProperty (h : ObjectProperties t) {key : JsString}
    (hkey : hasProperty (propertiesOf t) key = true) : inProperties t key = true := by
  unfold inProperties
  cases hfield : field (js "properties") t with
  | none =>
    rw [propertiesOf, hfield, hasProperty, property] at hkey
    exact hkey
  | some j =>
    obtain ⟨members, rfl⟩ := h j hfield
    rw [propertiesOf, hfield] at hkey
    exact hkey

/-- A value that conforms to the previous schema by itself conforms to the next one, if it meets
what is passed over. -/
lemma Unanswered.valueConforms {newer : ResolvedOptions N} (hown : Unanswered P newer s t x)
    (h : Unbroken s t path) (hs : Document s) (ht : Document t) (hshape : ObjectProperties t)
    (hvalue : ValueConforms P (some .strict) x s) : ValueConforms P (some .strict) x t where
  const := hown.const
  enum := by
    intro items hitems
    cases hold : schemaList s (js "enum") with
    | none => exact hown.enum (.inl hold) items hitems
    | some old =>
      by_cases hscalar : Scalar x
      · exact h.enum hscalar hold hitems (hvalue.enum old hold)
      · exact hown.enum (.inr hscalar) items hitems
  type := by
    intro type htype
    cases hold : schemaAt s (js "type") with
    | none => exact hown.type hold type htype
    | some old =>
      obtain rfl := h.type_eq hs ht hold htype
      exact hvalue.type old hold
  text := by
    intro text htext
    have hconforms := hvalue.text text htext
    refine ⟨h.length hconforms.length, ?_, ?_, ?_⟩
    · intro pattern hpattern hne
      cases hold : schemaText s (js "pattern") with
      | none => exact hown.pattern hold text htext pattern hpattern hne
      | some old =>
        obtain rfl := h.pattern_eq hold hpattern
        exact hconforms.pattern old hold hne
    · intro hformat
      cases hold : schemaText s (js "format") with
      | none => exact (hown.format hold text htext).1 hformat
      | some old =>
        obtain rfl := h.format_eq hold hformat
        exact hconforms.dateTime hold
    · intro hformat
      cases hold : schemaText s (js "format") with
      | none => exact (hown.format hold text htext).2 hformat
      | some old =>
        obtain rfl := h.format_eq hold hformat
        exact hconforms.uri hold
  number := fun n hn => h.range (hvalue.number n hn)
  count := fun items hitems => h.count (hvalue.count items hitems)
  unique := by
    intro items hitems hunique
    cases hold : schemaAt s (js "uniqueItems") with
    | none => exact hown.unique hold items hitems hunique
    | some old => exact hvalue.unique items hitems (by rw [hold]; rfl)
  required := by
    intro hobject key hkey
    by_cases hold : key ∈ requiredOf s
    · exact hvalue.required hobject key hold
    · obtain ⟨hnew, hproperty⟩ := h.required hkey hold
      exact hown.required hobject key hkey hold hnew hproperty
  closed := by
    intro record hrecord m hm hnamed hclosed
    exfalso
    obtain ⟨e, he, heq⟩ := List.mem_map.mp (hown.closed hclosed record hrecord m hm hnamed)
    have hkept := inProperties_of_hasProperty hshape (h.property he).1
    rw [heq] at hkept
    rw [isNamed, hkept] at hnamed
    cases hnamed

/-- What is known of two schemas whose comparison breaks nothing. -/
structure Sound (previous next : Json N) : Prop where
  documents : Document previous ∧ Document next
  shape : ∀ s t path, Compared .providerCompatible previous next s t path → ObjectProperties t
  unbroken : ∀ s t path, Compared .providerCompatible previous next s t path → Unbroken s t path

end Sound

end Appspine.Compatibility
