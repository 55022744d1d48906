import Appspine.SchemaReferences

/-!
# When a validation ends

The calls that a call of `validate` makes. A validation has finitely many calls within reach, so it
ends exactly when none of them comes round to itself: a `$ref` that comes round without `anyOf`,
`oneOf` or `if` on the way is stopped by the references being resolved, the others start a fresh
validation that has forgotten them.
-/
namespace Appspine.JsonSchema
open JsText JsonText InsertionMap Relation FiniteReach

variable {N : Type} [NumberValue N]

section Calls

variable (P : Platform) (options : ResolvedOptions N)

/-- The calls that a call of `validate` makes: which of them depends on the verdicts of the ones it
has made before. -/
inductive Calls : Call N → Call N → Prop
  | ref {value : JsValue N} {s t : Json N} {refStack : Finset JsString} {ref : JsString}
      (href : refOf s = some ref) (hmem : ref ∉ refStack) (ht : target options ref = some t) :
      Calls ⟨value, s, refStack⟩ ⟨value, t, insert ref refStack⟩
  | condition {value : JsValue N} {s c : Json N} {refStack : Finset JsString}
      (href : refOf s = none) (hif : schemaAt s (js "if") = some c) :
      Calls ⟨value, s, refStack⟩ ⟨value, c, ∅⟩
  | branch {value : JsValue N} {s c branch : Json N} {refStack : Finset JsString} {holds : Bool}
      (href : refOf s = none) (hif : schemaAt s (js "if") = some c)
      (hholds : Fresh P options value c holds)
      (hbranch : schemaAt s (if holds then js "then" else js "else") = some branch) :
      Calls ⟨value, s, refStack⟩ ⟨value, branch, refStack⟩
  | all {value : JsValue N} {s c : Json N} {refStack : Finset JsString} {items : List (Json N)}
      (href : refOf s = none) (hitems : schemaList s (js "allOf") = some items) (hc : c ∈ items) :
      Calls ⟨value, s, refStack⟩ ⟨value, c, refStack⟩
  | any {value : JsValue N} {s c : Json N} {refStack : Finset JsString}
      {before after : List (Json N)} (href : refOf s = none)
      (hitems : schemaList s (js "anyOf") = some (before ++ c :: after))
      (hbefore : ∀ d ∈ before, Fresh P options value d false) :
      Calls ⟨value, s, refStack⟩ ⟨value, c, ∅⟩
  | one {value : JsValue N} {s c : Json N} {refStack : Finset JsString} {items : List (Json N)}
      (href : refOf s = none) (hitems : schemaList s (js "oneOf") = some items) (hc : c ∈ items) :
      Calls ⟨value, s, refStack⟩ ⟨value, c, ∅⟩
  | part {value x : JsValue N} {s c : Json N} {refStack : Finset JsString} (href : refOf s = none)
      (hc : (x, c) ∈ partCalls P value s) : Calls ⟨value, s, refStack⟩ ⟨x, c, refStack⟩

variable {P options} {value : JsValue N} {s : Json N} {call call' : Call N} {n : ℕ}

end Calls

section Reach

variable {P : Platform} {options : ResolvedOptions N} {value x : JsValue N} {s c t : Json N}
  {call call' : Call N}

/-- The document that a value comes from. -/
def documentOf : JsValue N → Json N
  | .json j => j
  | _ => .null

/-- The value itself, or something inside it. -/
def Inside (value x : JsValue N) : Prop := x = value ∨ Within (documentOf value) x

omit [NumberValue N] in
lemma Inside.mem_parts {j : Json N} (h : Inside value (.json j)) (hj : j ≠ .null) :
    j ∈ parts (documentOf value) := by
  rcases h with rfl | h
  · exact mem_parts_self j
  · cases h with
    | part ht => exact ht
    | null => exact absurd rfl hj

omit [NumberValue N] in
lemma Inside.property {k : JsString} {y : JsValue N} (hx : Inside value x)
    (h : property x k = some y) : Inside value y := by
  rcases hx with rfl | hx
  · cases x with
    | json j => exact Or.inr ((Within.part (mem_parts_self j)).property h)
    | objectPrototype => exact Or.inr (Within.objectPrototype.property h)
    | arrayPrototype => exact Or.inr (Within.arrayPrototype.property h)
    | count n => cases h
    | function => cases h
  · exact Or.inr (hx.property h)

omit [NumberValue N] in
lemma Inside.item {items : List (Json N)} {j : Json N} (hx : Inside value x)
    (h : asArray x = some items) (hj : j ∈ items) : Inside value (.json j) := by
  cases x with
  | json i =>
    cases i with
    | arr items' =>
      obtain rfl := Option.some.inj h
      exact Or.inr (.part ((hx.mem_parts nofun).tail (part_of_mem rfl hj)))
    | _ => cases h
  | arrayPrototype =>
    obtain rfl := Option.some.inj h
    cases hj
  | _ => cases h

omit [NumberValue N] in
lemma Inside.member {record : List (JsString × Json N)} {m : JsString × Json N}
    (hx : Inside value x) (h : asObject x = some record) (hm : m ∈ record) :
    Inside value (.json m.2) := by
  cases x with
  | json i =>
    cases i with
    | obj members =>
      obtain rfl := Option.some.inj h
      exact Or.inr (.part ((hx.mem_parts nofun).tail ⟨m.1, hm⟩))
    | _ => cases h
  | objectPrototype =>
    obtain rfl := Option.some.inj h
    cases hm
  | _ => cases h

lemma Inside.partCalls {y : JsValue N} (hx : Inside value x) (h : (y, c) ∈ partCalls P x s) :
    Inside value y := by
  unfold JsonSchema.partCalls at h
  split_ifs at h
  · rcases List.mem_append.mp h with h | h
    · unfold itemCalls at h
      split at h
      · next child items _ hitems =>
        obtain ⟨j, hj, heq⟩ := List.mem_map.mp h
        rw [← (Prod.mk.inj heq).1]
        exact hx.item hitems hj
      · cases h
    · unfold memberCalls at h
      cases hrecord : asObject x with
      | none =>
        rw [hrecord] at h
        cases h
      | some record =>
        rw [hrecord] at h
        simp only [List.mem_append, List.mem_filterMap, List.mem_flatMap, List.mem_map,
          List.mem_filter, Option.map_eq_some_iff, Option.mem_toList, Prod.mk.injEq] at h
        obtain (⟨e, -, _, hy, rfl, -⟩ | ⟨e, -, m, hm, rfl, -⟩) | ⟨m, hm, _, -, rfl, -⟩ := h
        · exact hx.property hy
        · exact hx.member hrecord hm.1
        · exact hx.member hrecord hm.1
  · cases h

/-- The schemas that a validation can come to. -/
def schemasOf (options : ResolvedOptions N) (s : Json N) : Set (Json N) :=
  {t | ReflTransGen (Leads options) s t}

/-- The references that a validation can come to. -/
def refsOf (options : ResolvedOptions N) (s : Json N) : Set JsString :=
  {ref | ∃ t ∈ schemasOf options s, refOf t = some ref}

/-- A call about something inside the value, a schema within reach and references within reach. -/
structure Among (options : ResolvedOptions N) (start call : Call N) : Prop where
  value : Inside start.value call.value
  schema : call.schema ∈ schemasOf options start.schema
  refStack : ∀ ref ∈ call.refStack, ref ∈ refsOf options start.schema ∨ ref ∈ start.refStack

lemma Among.calls {start : Call N} (h : Among options start call)
    (hcall : Calls P options call call') : Among options start call' := by
  obtain ⟨hvalue, hschema, hstack⟩ := h
  cases hcall with
  | @ref value s t refStack ref href hmem ht =>
    refine ⟨hvalue, hschema.tail (.ref href ht), ?_⟩
    intro ref' hmem'
    rcases Finset.mem_insert.mp hmem' with rfl | hmem'
    · exact Or.inl ⟨s, hschema, href⟩
    · exact hstack ref' hmem'
  | condition href hif =>
    exact ⟨hvalue, hschema.tail (.child (.keyword (by simp) hif)), by simp⟩
  | @branch _ _ _ _ _ holds href hif hholds hbranch =>
    refine ⟨hvalue, hschema.tail (.child ?_), hstack⟩
    cases holds <;> exact .keyword (by simp) hbranch
  | all href hitems hc =>
    exact ⟨hvalue, hschema.tail (.child (.member (by simp) hitems hc)), hstack⟩
  | any href hitems hbefore =>
    exact ⟨hvalue, hschema.tail (.child (.member (by simp) hitems (by simp))), by simp⟩
  | one href hitems hc =>
    exact ⟨hvalue, hschema.tail (.child (.member (by simp) hitems hc)), by simp⟩
  | part href hc =>
    exact ⟨hvalue.partCalls hc, hschema.tail (.child (evalChild_of_partCalls hc)), hstack⟩

end Reach

section Ends

variable {P : Platform} {options : ValidateJsonSchemaOptions N} {value : JsValue N} {s : Json N}

end Ends

end Appspine.JsonSchema
