import Appspine.SchemaConforms

/-!
# The parts of a document

A JSON document has finitely many parts, and whatever a validation takes out of one, a value's
property, a child schema, what a `$ref` refers to, is a part of it or something that all objects
have.
-/
namespace Appspine.JsonSchema
open JsText JsonText InsertionMap Relation

variable {N : Type}

section Parts

/-- The value of an own property. -/
def Part (s t : Json N) : Prop := ∃ k, (k, t) ∈ entriesOf s

/-- The document itself and what is inside it. -/
def parts (s : Json N) : Set (Json N) := {t | ReflTransGen Part s t}

lemma mem_parts_self (s : Json N) : s ∈ parts s := .refl

lemma Part.sizeOf_lt {s t : Json N} (h : Part s t) : sizeOf t < sizeOf s := by
  obtain ⟨k, hk⟩ := h
  exact sizeOf_entriesOf_lt hk

lemma Part.mem_parts {s t u : Json N} (h : Part t u) (ht : t ∈ parts s) : u ∈ parts s := ht.tail h

lemma parts_eq (s : Json N) : parts s = {s} ∪ ⋃ e ∈ entriesOf s, parts e.2 := by
  ext t
  simp only [parts, Set.mem_ofPred_eq, Set.mem_union, Set.mem_singleton_iff, Set.mem_iUnion,
    exists_prop, Prod.exists]
  constructor
  · intro h
    rcases ReflTransGen.cases_head h with rfl | ⟨u, ⟨k, hk⟩, hu⟩
    · exact Or.inl rfl
    · exact Or.inr ⟨k, u, hk, hu⟩
  · rintro (rfl | ⟨k, u, hk, hu⟩)
    · exact .refl
    · exact .head ⟨k, hk⟩ hu

lemma parts_finite (s : Json N) : (parts s).Finite := by
  induction hn : sizeOf s using Nat.strong_induction_on generalizing s with
  | _ n ih =>
    rw [parts_eq]
    refine (Set.finite_singleton s).union ?_
    refine (entriesOf s).finite_toSet.biUnion (fun e he => ih _ ?_ e.2 rfl)
    have hlt := sizeOf_entriesOf_lt he
    omega

lemma part_of_mem {s t : Json N} {items : List (Json N)} (hs : s = .arr items) (h : t ∈ items) :
    Part s t := by
  obtain ⟨i, hi⟩ := List.mem_iff_getElem?.mp h
  subst hs
  exact ⟨natText i, List.mem_map.mpr ⟨(t, i), List.mk_mem_zipIdx_iff_getElem?.mpr hi, rfl⟩⟩

lemma part_of_field {s t : Json N} {k : JsString} (h : field k s = some t) : Part s t := by
  cases s with
  | obj members => exact ⟨k, mem_of_get h⟩
  | null => cases h
  | bool b => cases h
  | num n => cases h
  | str text => cases h
  | arr items => cases h

lemma mem_parts_of_schemaEntries {s : Json N} {k : JsString} {e : JsString × Json N}
    (h : e ∈ schemaEntries s k) : e.2 ∈ parts s := by
  unfold schemaEntries at h
  cases hfield : field k s with
  | none => simp [hfield] at h
  | some j =>
    rw [hfield] at h
    exact Part.mem_parts ⟨e.1, h⟩ (Part.mem_parts (part_of_field hfield) (mem_parts_self s))

lemma mem_parts_of_schemaList {s c : Json N} {k : JsString} {items : List (Json N)}
    (h : schemaList s k = some items) (hc : c ∈ items) : c ∈ parts s :=
  Part.mem_parts (part_of_mem rfl hc)
    (Part.mem_parts (part_of_field (schemaList_eq_some.mp h)) (mem_parts_self s))

lemma parts_subset {s t : Json N} (h : t ∈ parts s) : parts t ⊆ parts s := fun _ hu => h.trans hu

variable [NumberValue N]

lemma mem_parts_of_schemaAt {s c : Json N} {k : JsString} (h : schemaAt s k = some c) :
    c ∈ parts s := .single (part_of_field (schemaAt_eq_some.mp h).1)

lemma EvalChild.mem_parts {s c : Json N} (h : EvalChild s c) : c ∈ parts s := by
  cases h with
  | keyword _ h => exact mem_parts_of_schemaAt h
  | member _ h hc => exact mem_parts_of_schemaList h hc
  | entry _ h => exact mem_parts_of_schemaEntries h
  | additional h => exact .single (part_of_field (field_of_additionalSchema h))

end Parts

section Within

/-- What a property of a document, or a property of that, can be. -/
inductive Within (s : Json N) : JsValue N → Prop
  | part {t : Json N} (h : t ∈ parts s) : Within s (.json t)
  | count {n : ℕ} (h : n = 0 ∨ ∃ items, .arr items ∈ parts s ∧ n = items.length) :
      Within s (.count n)
  | null : Within s (.json .null)
  | function : Within s .function
  | objectPrototype : Within s .objectPrototype
  | arrayPrototype : Within s .arrayPrototype

lemma within_objectInherited {s : Json N} {k : JsString} {x : JsValue N}
    (h : objectInherited k = some x) : Within s x := by
  unfold objectInherited at h
  split_ifs at h <;> cases h
  · exact .objectPrototype
  · exact .function

lemma within_arrayInherited {s : Json N} {k : JsString} {x : JsValue N}
    (h : arrayInherited k = some x) : Within s x := by
  unfold arrayInherited at h
  split_ifs at h
  · cases h
    exact .arrayPrototype
  · cases h
    exact .function
  · exact within_objectInherited h

lemma Within.property {s : Json N} {value x : JsValue N} {k : JsString} (hvalue : Within s value)
    (h : property value k = some x) : Within s x := by
  cases hvalue with
  | @part t ht =>
    cases t with
    | obj members =>
      simp only [JsonSchema.property] at h
      cases hget : InsertionMap.get members k with
      | none => exact within_objectInherited (by simpa [hget] using h)
      | some j =>
        obtain rfl : JsValue.json j = x := by simpa [hget] using h
        exact .part (ht.tail ⟨k, mem_of_get hget⟩)
    | arr items =>
      simp only [JsonSchema.property] at h
      split_ifs at h
      · obtain ⟨j, hj, rfl⟩ := Option.map_eq_some_iff.mp h
        exact .part (ht.tail (part_of_mem rfl (List.mem_of_getElem? hj)))
      · cases h
        exact .count (Or.inr ⟨items, ht, rfl⟩)
      · exact within_arrayInherited h
    | null => cases h
    | bool b => cases h
    | num n => cases h
    | str text => cases h
  | objectPrototype =>
    simp only [JsonSchema.property] at h
    split_ifs at h
    · cases h
      exact .null
    · exact within_objectInherited h
  | arrayPrototype =>
    simp only [JsonSchema.property] at h
    split_ifs at h
    · cases h
      exact .count (Or.inl rfl)
    · cases h
      exact .function
    · exact within_objectInherited h
  | count => cases h
  | null => cases h
  | function => cases h

variable [NumberValue N]

lemma within_resolveRef {ref : JsString} {root : Json N} {resolved : JsValue N}
    (h : resolveRef ref root = some resolved) : Within root resolved := by
  have hwalk : ∀ (names : List JsString) (start : Option (JsValue N)),
      (∀ x, start = some x → Within root x) →
      ∀ x, names.foldl (fun value part => value.bind (walkPart · part)) start = some x →
        Within root x := by
    intro names
    induction names with
    | nil => exact fun start hstart => hstart
    | cons name names ih =>
      intro start hstart
      refine ih _ (fun x hx => ?_)
      obtain ⟨value, hvalue, hpart⟩ := Option.bind_eq_some_iff.mp hx
      unfold walkPart at hpart
      split_ifs at hpart
      exact (hstart value hvalue).property hpart
  unfold resolveRef at h
  split_ifs at h
  refine hwalk _ _ (fun x hx => ?_) resolved h
  cases hx
  exact .part (mem_parts_self root)

/-- What a `$ref` refers to, read as a schema, is a part of the root schema or has no keywords. -/
lemma asSchema_mem_parts {ref : JsString} {root : Json N} {resolved : JsValue N}
    (h : (resolveRef ref root).filter truthy = some resolved) :
    asSchema resolved ∈ parts root ∪ {.obj []} := by
  obtain ⟨hresolve, htruthy⟩ := Option.filter_eq_some_iff.mp h
  cases within_resolveRef hresolve with
  | part ht => exact Or.inl ht
  | null => cases htruthy
  | count => exact Or.inr rfl
  | function => exact Or.inr rfl
  | objectPrototype => exact Or.inr rfl
  | arrayPrototype => exact Or.inr rfl

end Within

end Appspine.JsonSchema
