import Appspine.SchemaCompatibility

/-!
# The pairs a comparison goes through

A pair whose texts and path were seen is not compared again. Schemas that print alike are equal as
`JSON.parse` leaves them, so nothing is lost by that: every finding of every pair is reported.
-/
namespace Appspine.Compatibility
open JsText JsonText InsertionMap JsonSchema

variable {N : Type}

section Documents

/-- A value as `JSON.parse` leaves it: each key once, the array indices first. -/
structure Document (j : Json N) : Prop where
  unique : uniqueKeys j = true
  ordered : rebuild j = j

lemma Document.entry {members : List (JsString × Json N)} (h : Document (.obj members))
    {m : JsString × Json N} (hm : m ∈ members) : Document m.2 := by
  obtain ⟨hnodup, hunique⟩ := uniqueKeys_obj.mp h.unique
  refine ⟨hunique m hm, ?_⟩
  have hget := get_of_mem (k := m.1) (v := m.2) hnodup hm
  have hfield := field_rebuild hnodup m.1
  rw [h.ordered, field, hget, Option.map_some, Option.some.injEq] at hfield
  exact hfield.symm

lemma Document.item {items : List (Json N)} (h : Document (.arr items)) {j : Json N}
    (hj : j ∈ items) : Document j := by
  refine ⟨uniqueKeys_arr.mp h.unique j hj, ?_⟩
  have hitems : items.map rebuild = items := by
    have hordered := h.ordered
    rw [rebuild, rebuildItems_eq] at hordered
    exact Json.arr.inj hordered
  have hid : ∀ i ∈ items, rebuild i = id i :=
    List.map_inj_left.mp (hitems.trans (List.map_id items).symm)
  exact hid j hj

lemma Document.field {s j : Json N} {k : JsString} (h : Document s) (hj : field k s = some j) :
    Document j := by
  cases s with
  | obj members => exact h.entry (mem_of_get hj)
  | null => cases hj
  | bool b => cases hj
  | num n => cases hj
  | str t => cases hj
  | arr items => cases hj

lemma document_empty : Document (.obj [] : Json N) := ⟨rfl, rfl⟩

lemma Document.schemaList {s : Json N} {k : JsString} {items : List (Json N)} (h : Document s)
    (hitems : schemaList s k = some items) {j : Json N} (hj : j ∈ items) : Document j := by
  unfold JsonSchema.schemaList at hitems
  split at hitems
  · next found hfield =>
    obtain rfl := Option.some.inj hitems
    exact (h.field hfield).item hj
  · cases hitems

lemma Document.propertiesOf {s : Json N} (h : Document s) {e : JsString × Json N}
    (he : e ∈ propertiesOf s) : Document e.2 := by
  unfold Compatibility.propertiesOf at he
  split at he
  · next members hfield => exact (h.field hfield).entry he
  · exact absurd he List.not_mem_nil

lemma propertyAt_eq {properties : List (JsString × Json N)} {key : JsString} :
    propertyAt properties key = (get properties key).getD (.obj []) := by
  rw [propertyAt, property]
  cases get properties key with
  | some c => rfl
  | none =>
    unfold objectInherited
    simp only [Option.map_none, Option.none_or, Option.getD_none]
    split_ifs <;> rfl

lemma Document.propertyAt {s : Json N} (h : Document s) (key : JsString) :
    Document (Compatibility.propertyAt (Compatibility.propertiesOf s) key) := by
  rw [propertyAt_eq]
  cases hget : get (Compatibility.propertiesOf s) key with
  | none => exact document_empty
  | some c => exact h.propertiesOf (mem_of_get hget)

variable [NumberValue N]

lemma Document.schemaAt {s j : Json N} {k : JsString} (h : Document s)
    (hj : schemaAt s k = some j) : Document j :=
  h.field (Option.filter_eq_some_iff.mp hj).1

end Documents

section Pairs

variable [NumberValue N] {profile : CompatibilityProfile} {s t p n : Json N}
  {path path' : JsString}

/-- What a pair that is compared next consists of. -/
lemma compare_cases (h : Event.compare p n path' ∈ compareEvents profile s t path) :
    (∃ e ∈ propertiesOf s, p = e.2 ∧ n = propertyAt (propertiesOf t) e.1) ∨
    (schemaAt s (js "items") = some p ∧ schemaAt t (js "items") = some n) ∨
    ∃ keyword old new, schemaList s keyword = some old ∧ schemaList t keyword = some new ∧
      (p, n) ∈ old.zip new := by
  have hcomposition : ∀ keyword, Event.compare p n path' ∈ compositionEvents s t path keyword →
      ∃ keyword old new, schemaList s keyword = some old ∧ schemaList t keyword = some new ∧
        (p, n) ∈ old.zip new := by
    intro keyword h
    unfold compositionEvents at h
    split at h
    · next old new hold hnew =>
      split_ifs at h
      · obtain ⟨⟨⟨c, d⟩, i⟩, hc, heq⟩ := List.mem_map.mp h
        obtain ⟨rfl, rfl, -⟩ := Event.compare.inj heq
        exact ⟨keyword, old, new, hold, hnew, List.fst_mem_of_mem_zipIdx hc⟩
      · exact absurd (List.mem_singleton.mp h) (by simp)
      · exact absurd h List.not_mem_nil
    · exact absurd h List.not_mem_nil
  unfold compareEvents at h
  split_ifs at h
  · exact absurd (List.mem_singleton.mp h) (by simp)
  · simp only [List.mem_append, or_assoc] at h
    rcases h with h | h | h | h | h | h | h
    · obtain ⟨finding, -, heq⟩ := List.mem_map.mp h
      exact absurd heq (by simp)
    · obtain ⟨e, he, heq⟩ := List.mem_map.mp h
      split_ifs at heq
      obtain ⟨rfl, rfl, -⟩ := Event.compare.inj heq
      exact .inl ⟨e, he, rfl, rfl⟩
    · obtain ⟨finding, -, heq⟩ := List.mem_map.mp h
      exact absurd heq (by simp)
    · unfold itemEvents at h
      split at h
      · next old new hold hnew =>
        obtain ⟨rfl, rfl, -⟩ := Event.compare.inj (List.mem_singleton.mp h)
        exact .inr (.inl ⟨hold, hnew⟩)
      · exact absurd h List.not_mem_nil
    iterate 3 exact .inr (.inr (hcomposition _ h))

lemma document_compare (hs : Document s) (ht : Document t)
    (h : Event.compare p n path' ∈ compareEvents profile s t path) : Document p ∧ Document n := by
  rcases compare_cases h with ⟨e, he, rfl, rfl⟩ | ⟨hp, hn⟩ | ⟨keyword, old, new, hold, hnew, hmem⟩
  · exact ⟨hs.propertiesOf he, ht.propertyAt e.1⟩
  · exact ⟨hs.schemaAt hp, ht.schemaAt hn⟩
  · obtain ⟨hp, hn⟩ := List.of_mem_zip hmem
    exact ⟨hs.schemaList hold hp, ht.schemaList hnew hn⟩

variable (profile) in
/-- The pairs that are compared when two schemas are. -/
inductive Compared (previous next : Json N) : Json N → Json N → JsString → Prop where
  | root : Compared previous next previous next (js "$")
  | step {s t p n : Json N} {path path' : JsString} (h : Compared previous next s t path)
      (hevent : Event.compare p n path' ∈ compareEvents profile s t path) :
      Compared previous next p n path'

lemma Compared.document {previous next : Json N} (h : Compared profile previous next s t path)
    (hprevious : Document previous) (hnext : Document next) : Document s ∧ Document t := by
  induction h with
  | root => exact ⟨hprevious, hnext⟩
  | step _ hevent ih => exact document_compare ih.1 ih.2 hevent

end Pairs

section Complete

variable [NumberValue N] {profile : CompatibilityProfile}

/-- The findings and the seen pairs. -/
abbrev Progress := List CompatibilityFinding × List JsString

/-- Pairs that were compared, and where. -/
abbrev Visits (N : Type) := List (Json N × Json N × JsString)

/-- Between two states these pairs were compared: their findings are reported, and the pairs they
go on to are seen. -/
structure Made (profile : CompatibilityProfile) (before after : Progress)
    (visits : Visits N) : Prop where
  seen : ∀ key, key ∈ after.2 ↔ key ∈ before.2 ∨ ∃ v ∈ visits, pairKey v.1 v.2.1 v.2.2 = key
  kept : ∀ finding ∈ before.1, finding ∈ after.1
  found : ∀ v ∈ visits, ∀ finding, Event.finding finding ∈ compareEvents profile v.1 v.2.1 v.2.2 →
    finding ∈ after.1
  closed : ∀ v ∈ visits, ∀ p n path, Event.compare p n path ∈ compareEvents profile v.1 v.2.1 v.2.2 →
    pairKey p n path ∈ after.2
  documents : ∀ v ∈ visits, Document v.1 ∧ Document v.2.1

variable {before after last : Progress} {visits visits' : Visits N}

lemma Made.refl (before : Progress) : Made (N := N) profile before before [] where
  seen := by simp
  kept := fun _ h => h
  found := by simp
  closed := by simp
  documents := by simp

lemma Made.trans (h : Made profile before after visits) (h' : Made profile after last visits') :
    Made profile before last (visits ++ visits') where
  seen := by
    intro key
    rw [h'.seen, h.seen, or_assoc]
    simp only [List.mem_append, or_and_right, exists_or]
  kept := fun finding hfinding => h'.kept finding (h.kept finding hfinding)
  found := by
    intro v hv finding hfinding
    rcases List.mem_append.mp hv with hv | hv
    · exact h'.kept finding (h.found v hv finding hfinding)
    · exact h'.found v hv finding hfinding
  closed := by
    intro v hv p n path hevent
    rcases List.mem_append.mp hv with hv | hv
    · exact (h'.seen _).mpr (.inl (h.closed v hv p n path hevent))
    · exact h'.closed v hv p n path hevent
  documents := by
    intro v hv
    rcases List.mem_append.mp hv with hv | hv
    · exact h.documents v hv
    · exact h'.documents v hv

/-- What is made by a call is made by its caller, whose findings stand in front. -/
lemma Made.below {below : Progress} {done : Progress}
    (h : Made profile ([], done.2) below visits) :
    Made profile done (done.1 ++ below.1, below.2) visits where
  seen := h.seen
  kept := fun _ hfinding => List.mem_append_left _ hfinding
  found := fun v hv finding hfinding => List.mem_append_right _ (h.found v hv finding hfinding)
  closed := h.closed
  documents := h.documents

end Complete

end Appspine.Compatibility
