import Appspine.ComparedPairs
import Appspine.SchemaSettles

/-!
# What a comparison without a breaking finding answers for

Where the comparison of a pair breaks nothing, the limits, the required properties and the closing
of the next schema follow from the previous one, and so do its type, enumeration, pattern and
format where the previous schema has them.
-/
namespace Appspine.Compatibility
open JsText JsonText InsertionMap JsonSchema

variable {N : Type}

section Scalars

def isScalar : Json N → Bool
  | .arr _ => false
  | .obj _ => false
  | _ => true

/-- A value that is a scalar of JSON. -/
def Scalar : JsValue N → Prop
  | .json j => isScalar j = true
  | _ => False

variable [NumberValue N]

/-- The text of an array or of an object. -/
def Bracketed (text : JsString) : Prop := ∃ us, text = unit '[' :: us ∨ text = unit '{' :: us

lemma not_bracketed {j : Json N} (h : isScalar j = true) : ¬ Bracketed (stringify j) := by
  have hhead : ∀ {u : CodeUnit} {us : JsString}, stringify j = u :: us → u ≠ unit '[' →
      u ≠ unit '{' → ¬ Bracketed (stringify j) := by
    rintro u us hcons hne hne' ⟨vs, hvs | hvs⟩
    · exact hne (List.cons.inj (hcons.symm.trans hvs)).1
    · exact hne' (List.cons.inj (hcons.symm.trans hvs)).1
  cases j with
  | null => exact hhead (show js "null" = unit 'n' :: js "ull" by decide) (by decide) (by decide)
  | bool b =>
    cases b
    · exact hhead (show js "false" = unit 'f' :: js "alse" by decide) (by decide) (by decide)
    · exact hhead (show js "true" = unit 't' :: js "rue" by decide) (by decide) (by decide)
  | num n =>
    obtain ⟨u, us, hcons⟩ := List.exists_cons_of_ne_nil (JsonNumber.text_ne_nil n)
    have hunit := JsonNumber.text_units n u (by simp [hcons])
    refine hhead hcons ?_ ?_
    · rintro rfl
      exact absurd hunit (by decide)
    · rintro rfl
      exact absurd hunit (by decide)
  | str s => exact hhead (show quote s = unit '"' :: _ from rfl) (by decide) (by decide)
  | arr items => cases h
  | obj members => cases h

lemma canonicalJson_scalar {j : Json N} (h : isScalar j = true) : canonicalJson j = stringify j := by
  cases j <;> first | rfl | cases h

lemma sortedText_scalar {j : Json N} (h : isScalar j = true) : sortedText j = stringify j := by
  cases j <;> first | rfl | cases h

lemma isScalar_of_canonicalJson {j : Json N} (h : ¬ Bracketed (canonicalJson j)) :
    isScalar j = true := by
  cases j with
  | arr items => exact absurd ⟨_, .inl rfl⟩ h
  | obj members => exact absurd ⟨_, .inr rfl⟩ h
  | null => rfl
  | bool b => rfl
  | num n => rfl
  | str s => rfl

lemma isScalar_of_sortedText {j : Json N} (h : ¬ Bracketed (sortedText j)) : isScalar j = true := by
  cases j with
  | arr items => exact absurd ⟨_, .inl rfl⟩ h
  | obj members => exact absurd ⟨_, .inr rfl⟩ h
  | null => rfl
  | bool b => rfl
  | num n => rfl
  | str s => rfl

/-- On scalars the `sameJson` of the comparison is that of the validator. -/
lemma sameJson_of_scalar {x : JsValue N} {old new : Json N} (hx : Scalar x)
    (hold : JsonSchema.sameJson x old = true) (hnew : sameJson new old = true) :
    JsonSchema.sameJson x new = true := by
  cases x with
  | json j =>
    rw [JsonSchema.sameJson, canonicalText, decide_eq_true_eq, Option.some.injEq] at hold ⊢
    rw [sameJson, decide_eq_true_eq] at hnew
    have htext := canonicalJson_scalar hx
    have hscalar : isScalar old = true := by
      refine isScalar_of_canonicalJson ?_
      rw [← hold, htext]
      exact not_bracketed hx
    have hscalar' : isScalar new = true := by
      refine isScalar_of_sortedText ?_
      rw [hnew, sortedText_scalar hscalar]
      exact not_bracketed hscalar
    rw [hold, canonicalJson_scalar hscalar, canonicalJson_scalar hscalar',
      ← sortedText_scalar hscalar, ← sortedText_scalar hscalar', hnew]
  | count n => exact hx.elim
  | function => exact hx.elim
  | objectPrototype => exact hx.elim
  | arrayPrototype => exact hx.elim

end Scalars

section Answers

variable [NumberValue N] {s t : Json N} {path : JsString}

/-- Nothing the comparison finds at this pair is breaking. -/
def Unbroken (s t : Json N) (path : JsString) : Prop :=
  ∀ finding, Event.finding finding ∈ compareEvents .providerCompatible s t path →
    finding.breaking = false

lemma Unbroken.typeChanged (h : Unbroken s t path) : typeChanged s t = false := by
  by_contra hchanged
  have hbreaking := h (breakingAt path (js "type changed")) (by
    rw [compareEvents, if_pos (by simpa using hchanged)]
    exact List.mem_singleton_self _)
  cases hbreaking

/-- The events of a pair whose types agree. -/
lemma Unbroken.mem_events (h : Unbroken s t path) {e : Event N} :
    e ∈ compareEvents .providerCompatible s t path ↔
      e ∈ (keywordFindings s t path .providerCompatible).map .finding ∨
      e ∈ propertyEvents s t path .providerCompatible ∨
      e ∈ (addedFindings s t path .providerCompatible ++ requiredFindings s t path ++
        additionalFindings s t path .providerCompatible).map .finding ∨
      e ∈ itemEvents s t path ∨ e ∈ compositionEvents s t path (js "allOf") ∨
      e ∈ compositionEvents s t path (js "anyOf") ∨
      e ∈ compositionEvents s t path (js "oneOf") := by
  rw [compareEvents, if_neg (by simp [h.typeChanged])]
  simp only [List.mem_append, or_assoc]

lemma Unbroken.keyword (h : Unbroken s t path) {finding : CompatibilityFinding}
    (hfinding : finding ∈ keywordFindings s t path .providerCompatible) :
    finding.breaking = false :=
  h finding (h.mem_events.mpr (.inl (List.mem_map_of_mem hfinding)))

lemma Unbroken.structural (h : Unbroken s t path) {finding : CompatibilityFinding}
    (hfinding : finding ∈ addedFindings s t path .providerCompatible ++
      requiredFindings s t path ++ additionalFindings s t path .providerCompatible) :
    finding.breaking = false :=
  h finding (h.mem_events.mpr (.inr (.inr (.inl (List.mem_map_of_mem hfinding)))))

/-- No `breakingAt` is among findings that break nothing. -/
lemma breakingAt_not_mem (path rule : JsString) {findings : List CompatibilityFinding}
    (h : ∀ finding ∈ findings, finding.breaking = false) : breakingAt path rule ∉ findings := by
  intro hmem
  cases h _ hmem

/-- Types that are given agree. -/
lemma Unbroken.type_eq (h : Unbroken s t path) (hs : Document s) (ht : Document t) {old new : Json N}
    (hold : schemaAt s (js "type") = some old) (hnew : schemaAt t (js "type") = some new) :
    old = new := by
  have hchanged := h.typeChanged
  rw [Compatibility.typeChanged, hold, hnew, typeJson, typeJson, (schemaAt_eq_some.mp hold).1,
    (schemaAt_eq_some.mp hnew).1] at hchanged
  have htext : stringify old = stringify new := by simpa using hchanged
  rw [← (hs.schemaAt hold).ordered, ← (ht.schemaAt hnew).ordered]
  exact rebuild_eq_of_stringify_eq htext

lemma Unbroken.text_eq (h : Unbroken s t path) {keyword : JsString} (rule : JsString)
    (hkeyword : ∀ finding ∈ textFindings s t path keyword rule,
      finding ∈ keywordFindings s t path .providerCompatible) {old new : JsString}
    (hold : schemaText s keyword = some old) (hnew : schemaText t keyword = some new) :
    old = new := by
  by_contra hne
  have hmem : breakingAt path rule ∈ textFindings s t path keyword rule := by
    rw [textFindings, hold, hnew]
    simp [hne]
  exact breakingAt_not_mem path rule (fun finding hfinding => h.keyword hfinding) (hkeyword _ hmem)

lemma Unbroken.pattern_eq (h : Unbroken s t path) {old new : JsString}
    (hold : schemaText s (js "pattern") = some old)
    (hnew : schemaText t (js "pattern") = some new) : old = new :=
  h.text_eq (js "pattern changed") (by simp +contextual [keywordFindings]) hold hnew

lemma Unbroken.format_eq (h : Unbroken s t path) {old new : JsString}
    (hold : schemaText s (js "format") = some old)
    (hnew : schemaText t (js "format") = some new) : old = new :=
  h.text_eq (js "format changed") (by simp +contextual [keywordFindings]) hold hnew

/-- A lower limit of the next schema is one of the previous schema, which is no lower. -/
lemma exists_lower {keyword rule : JsString} {new : N}
    (h : ∀ finding ∈ compareUpperBound s t path keyword rule, finding.breaking = false)
    (hnew : schemaNumber t keyword = some new) :
    ∃ old, schemaNumber s keyword = some old ∧ NumberValue.toRat new ≤ NumberValue.toRat old := by
  have hmem := breakingAt_not_mem path rule h
  rw [compareUpperBound, hnew] at hmem
  cases hold : schemaNumber s keyword with
  | none => simp [hold] at hmem
  | some old => exact ⟨old, rfl, by simpa [hold] using hmem⟩

lemma exists_upper {keyword rule : JsString} {new : N}
    (h : ∀ finding ∈ compareLowerBound s t path keyword rule, finding.breaking = false)
    (hnew : schemaNumber t keyword = some new) :
    ∃ old, schemaNumber s keyword = some old ∧ NumberValue.toRat old ≤ NumberValue.toRat new := by
  have hmem := breakingAt_not_mem path rule h
  rw [compareLowerBound, hnew] at hmem
  cases hold : schemaNumber s keyword with
  | none => simp [hold] at hmem
  | some old => exact ⟨old, rfl, by simpa [hold] using hmem⟩

lemma Unbroken.limits (h : Unbroken s t path) {low high : JsString} (lowRule highRule : JsString)
    (hlow : ∀ finding ∈ compareUpperBound s t path low lowRule,
      finding ∈ keywordFindings s t path .providerCompatible)
    (hhigh : ∀ finding ∈ compareLowerBound s t path high highRule,
      finding ∈ keywordFindings s t path .providerCompatible)
    {value : ℚ} (hs : WithinLimits s low high value) : WithinLimits t low high value := by
  constructor
  · intro new hnew
    obtain ⟨old, hold, hle⟩ := exists_lower
      (fun finding hfinding => h.keyword (hlow finding hfinding)) hnew
    exact hle.trans (hs.1 old hold)
  · intro new hnew
    obtain ⟨old, hold, hle⟩ := exists_upper
      (fun finding hfinding => h.keyword (hhigh finding hfinding)) hnew
    exact (hs.2 old hold).trans hle

lemma Unbroken.length (h : Unbroken s t path) {value : ℚ}
    (hs : WithinLimits s (js "minLength") (js "maxLength") value) :
    WithinLimits t (js "minLength") (js "maxLength") value :=
  h.limits (js "minLength increased") (js "maxLength decreased")
    (by simp +contextual [keywordFindings]) (by simp +contextual [keywordFindings]) hs

lemma Unbroken.range (h : Unbroken s t path) {value : ℚ}
    (hs : WithinLimits s (js "minimum") (js "maximum") value) :
    WithinLimits t (js "minimum") (js "maximum") value :=
  h.limits (js "minimum increased") (js "maximum decreased")
    (by simp +contextual [keywordFindings]) (by simp +contextual [keywordFindings]) hs

lemma Unbroken.count (h : Unbroken s t path) {value : ℚ}
    (hs : WithinLimits s (js "minItems") (js "maxItems") value) :
    WithinLimits t (js "minItems") (js "maxItems") value :=
  h.limits (js "minItems increased") (js "maxItems decreased")
    (by simp +contextual [keywordFindings]) (by simp +contextual [keywordFindings]) hs

/-- A scalar of the previous enumeration is one of the next. -/
lemma Unbroken.enum (h : Unbroken s t path) {x : JsValue N} (hx : Scalar x) {old new : List (Json N)}
    (hold : schemaList s (js "enum") = some old) (hnew : schemaList t (js "enum") = some new)
    (hmem : ∃ j ∈ old, JsonSchema.sameJson x j = true) :
    ∃ j ∈ new, JsonSchema.sameJson x j = true := by
  obtain ⟨j, hj, hsame⟩ := hmem
  have hkept : new.any (fun candidate => sameJson candidate j) = true := by
    by_contra hremoved
    refine breakingAt_not_mem path (js "enum value removed")
      (fun finding hfinding => h.keyword hfinding) ?_
    simp only [keywordFindings, enumFindings, hold, hnew, List.mem_append, List.mem_map,
      List.mem_filter]
    refine Or.inl (Or.inl (Or.inl (Or.inl (Or.inl (Or.inl (Or.inl (Or.inl (Or.inl (Or.inl
      ⟨j, ⟨hj, ?_⟩, trivial⟩)))))))))
    simpa using hremoved
  obtain ⟨candidate, hcandidate, hsame'⟩ := List.any_eq_true.mp hkept
  exact ⟨candidate, hcandidate, sameJson_of_scalar hx hsame hsame'⟩

/-- What the next schema requires is required already, or neither schema has a property of it. -/
lemma Unbroken.required (h : Unbroken s t path) {key : JsString} (hkey : key ∈ requiredOf t)
    (hnew : key ∉ requiredOf s) :
    key ∉ keys (propertiesOf t) ∧ hasProperty (propertiesOf s) key = false := by
  have hnone := fun rule => breakingAt_not_mem (path ++ js "." ++ key) rule
    (fun finding hfinding => h.structural hfinding)
  have hproperty : hasProperty (propertiesOf s) key = false := by
    by_contra hhas
    refine hnone (js "requiredness tightened") ?_
    simp only [requiredFindings, List.mem_append, List.mem_map]
    refine .inl (.inr (.inr ⟨key, List.mem_filter.mpr ⟨List.mem_eraseDups.mpr hkey, ?_⟩, rfl⟩))
    simpa [hnew] using hhas
  refine ⟨?_, hproperty⟩
  intro hmem
  refine hnone (js "required property added") ?_
  simp only [addedFindings, List.mem_append, List.mem_map]
  refine .inl (.inl ⟨key, List.mem_filter.mpr ⟨hmem, ?_⟩, ?_⟩)
  · simp [hproperty, hkey]
  · simp [hkey, gradedAt, breakingAt]

/-- A closed next schema comes after a closed one. -/
lemma Unbroken.closed (h : Unbroken s t path) (ht : isClosed t = true) : isClosed s = true := by
  by_contra hopen
  refine breakingAt_not_mem path (js "additional properties restricted")
    (fun finding hfinding => h.structural hfinding) ?_
  have hs : isClosed s = false := by simpa using hopen
  simp [additionalFindings, hs, ht, gradedAt, breakingAt]

/-- A property of the previous schema is one of the next, and the two are compared. -/
lemma Unbroken.property (h : Unbroken s t path) {e : JsString × Json N} (he : e ∈ propertiesOf s) :
    hasProperty (propertiesOf t) e.1 = true ∧
      Event.compare e.2 (propertyAt (propertiesOf t) e.1) (path ++ js "." ++ e.1) ∈
        compareEvents .providerCompatible s t path := by
  have hevent : (if hasProperty (propertiesOf t) e.1 then
      Event.compare e.2 (propertyAt (propertiesOf t) e.1) (path ++ js "." ++ e.1)
    else .finding (gradedAt (path ++ js "." ++ e.1) (js "property removed")
      (decide (CompatibilityProfile.providerCompatible ≠ .tolerantReader) ||
        decide (e.1 ∈ requiredOf s)) .warning)) ∈ propertyEvents s t path .providerCompatible :=
    List.mem_map_of_mem he
  have hhas : hasProperty (propertiesOf t) e.1 = true := by
    by_contra hremoved
    rw [if_neg hremoved] at hevent
    have hbreaking := h _ (h.mem_events.mpr (.inr (.inl hevent)))
    cases hbreaking
  rw [if_pos hhas] at hevent
  exact ⟨hhas, h.mem_events.mpr (.inr (.inl hevent))⟩

lemma Unbroken.items (h : Unbroken s t path) {old new : Json N}
    (hold : schemaAt s (js "items") = some old) (hnew : schemaAt t (js "items") = some new) :
    Event.compare old new (path ++ js "[]") ∈ compareEvents .providerCompatible s t path := by
  refine h.mem_events.mpr (.inr (.inr (.inr (.inl ?_))))
  rw [itemEvents, hold, hnew]
  exact List.mem_singleton_self _

/-- Compositions of one length are compared schema by schema. -/
lemma Unbroken.composition (h : Unbroken s t path) {keyword : JsString}
    (hkeyword : keyword ∈ [js "allOf", js "anyOf"]) {old new : List (Json N)}
    (hold : schemaList s keyword = some old) (hnew : schemaList t keyword = some new)
    (hlength : old.length = new.length) {e : Json N × Json N} (he : e ∈ old.zip new) :
    ∃ path', Event.compare e.1 e.2 path' ∈ compareEvents .providerCompatible s t path := by
  obtain ⟨i, hi⟩ := List.getElem?_of_mem he
  have hevent : Event.compare e.1 e.2
      (path ++ js "." ++ keyword ++ js "[" ++ natText i ++ js "]") ∈
        compositionEvents s t path keyword := by
    simp only [compositionEvents, hold, hnew, if_pos hlength]
    exact List.mem_map.mpr ⟨(e, i), List.mk_mem_zipIdx_iff_getElem?.mpr hi, rfl⟩
  simp only [List.mem_cons, List.not_mem_nil, or_false] at hkeyword
  rcases hkeyword with rfl | rfl
  · exact ⟨_, h.mem_events.mpr (.inr (.inr (.inr (.inr (.inl hevent)))))⟩
  · exact ⟨_, h.mem_events.mpr (.inr (.inr (.inr (.inr (.inr (.inl hevent))))))⟩

end Answers

end Appspine.Compatibility
