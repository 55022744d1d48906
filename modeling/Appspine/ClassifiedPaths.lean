import Appspine.SeenWalk
import Appspine.SchemaModes

/-!
# Classified paths

`validateSchemaDefinition` and `walkSchema` over schemas as objects in memory: one object may be a
subschema at several places, and either traversal leaves an object it has seen at once.
-/
namespace Appspine.JsonSchema
open JsText JsonText InsertionMap SeenWalk

variable {N κ : Type}

section Objects

/-- What a keyword of a schema object holds; `κ` is the identity of schema objects. -/
inductive KeywordValue (N κ : Type) where
  | data (j : Json N)
  | schema (k : κ)
  | entries (es : List (JsString × κ))
  | list (ks : List κ)

structure SchemaObject (N κ : Type) where
  keywords : List (JsString × KeywordValue N κ)

/-- The keyword as a document, `d` the documents of the schema objects. -/
def KeywordValue.document (d : κ → Json N) : KeywordValue N κ → Json N
  | .data j => j
  | .schema k => d k
  | .entries es => .obj (es.map (fun e => (e.1, d e.2)))
  | .list ks => .arr (ks.map d)

def SchemaObject.document (d : κ → Json N) (o : SchemaObject N κ) : Json N :=
  .obj (o.keywords.map (fun e => (e.1, e.2.document d)))

/-- The object by itself: of a subschema it says only that there is one. -/
def SchemaObject.outline (o : SchemaObject N κ) : Json N := o.document (fun _ => .obj [])

/-- `Object.entries(schema[keyword] ?? {})`. -/
def SchemaObject.entries (o : SchemaObject N κ) (keyword : JsString) : List (JsString × κ) :=
  match get o.keywords keyword with
  | some (.entries es) => es
  | _ => []

/-- `schema[keyword] ?? []`. -/
def SchemaObject.list (o : SchemaObject N κ) (keyword : JsString) : List κ :=
  match get o.keywords keyword with
  | some (.list ks) => ks
  | _ => []

def SchemaObject.child (o : SchemaObject N κ) (keyword : JsString) : Option κ :=
  match get o.keywords keyword with
  | some (.schema k) => some k
  | _ => none

/-- From a schema to one of its subschemas. -/
inductive Step where
  | property (key : JsString)
  | pattern (key : JsString)
  | definition (key : JsString)
  | member (keyword : JsString) (i : ℕ)
  | items
  | conditional (keyword : JsString)
  | additional
  deriving DecidableEq

/-- What `validateSchemaDefinition` adds to the path. -/
def Step.suffix : Step → JsString
  | .property key => js "." ++ key
  | .pattern key => js ".\x7b" ++ key ++ js "\x7d"
  | .definition key => js ".$defs." ++ key
  | .member keyword i => js "." ++ keyword ++ js "[" ++ natText i ++ js "]"
  | .items => js ".items"
  | .conditional keyword => js "." ++ keyword
  | .additional => js ".additionalProperties"

def SchemaObject.members (o : SchemaObject N κ) (keyword : JsString) : List (Step × κ) :=
  (o.list keyword).zipIdx.map (fun e => (.member keyword e.2, e.1))

def SchemaObject.one (o : SchemaObject N κ) (keyword : JsString) (step : Step) : List (Step × κ) :=
  ((o.child keyword).map (fun k => (step, k))).toList

/-- The subschemas that `validateSchemaDefinition` goes on to. -/
def SchemaObject.definitionSteps (o : SchemaObject N κ) : List (Step × κ) :=
  (o.entries (js "properties")).map (fun e => (.property e.1, e.2)) ++
  (o.entries (js "patternProperties")).map (fun e => (.pattern e.1, e.2)) ++
  (o.entries (js "$defs")).map (fun e => (.definition e.1, e.2)) ++
  o.members (js "allOf") ++ o.members (js "anyOf") ++ o.members (js "oneOf") ++
  o.one (js "items") .items ++ o.one (js "if") (.conditional (js "if")) ++
  o.one (js "then") (.conditional (js "then")) ++
  o.one (js "else") (.conditional (js "else")) ++ o.one (js "additionalProperties") .additional

/-- The subschemas that `walkSchema` goes on to. -/
def SchemaObject.walkSteps (o : SchemaObject N κ) : List (Step × κ) :=
  (o.entries (js "properties")).map (fun e => (.property e.1, e.2)) ++
  o.one (js "items") .items ++
  (o.entries (js "$defs")).map (fun e => (.definition e.1, e.2))

/-- What `walkSchema` adds to the path. A step to a keyword it does not go on to is written as in
the issues of `validateSchemaDefinition` where it goes into the members of a value. -/
def Step.place : Step → JsString
  | .property key => js "." ++ key
  | .items => js "[]"
  | .pattern key => js ".\x7b" ++ key ++ js "\x7d"
  | .additional => js ".additionalProperties"
  | .definition _ => []
  | .member _ _ => []
  | .conditional _ => []

/-- The step goes from a value to a part of it. -/
def Step.inside : Step → Bool
  | .property _ => true
  | .pattern _ => true
  | .items => true
  | .additional => true
  | .definition _ => false
  | .member _ _ => false
  | .conditional _ => false

/-- The property position that a way through a schema leads to. -/
def position (steps : List Step) : List Step := steps.filter Step.inside

def positionText (p : List Step) : JsString := js "$" ++ p.flatMap Step.place

lemma foldl_place (steps : List Step) (path : JsString) :
    steps.foldl (fun path step => path ++ step.place) path =
      path ++ (position steps).flatMap Step.place := by
  induction steps generalizing path with
  | nil => simp [position]
  | cons step steps ih =>
    rw [List.foldl_cons, ih]
    cases step <;> simp [Step.inside, Step.place, position, List.filter_cons]

end Objects

section Traversals

variable [NumberValue N] [DecidableEq κ] (heap : κ → SchemaObject N κ)

/-- `schema['x-appspine-data-classification'] === classification`. -/
def Carries (classification : JsString) (k : κ) : Prop :=
  schemaText (heap k).outline (js "x-appspine-data-classification") = some classification

instance (classification : JsString) (k : κ) : Decidable (Carries heap classification k) :=
  inferInstanceAs (Decidable (_ = _))

def validateSchemaDefinition (enforceClassification : Bool) (n : ℕ) (schema : κ) (path : JsString)
    (state : State κ Issue) : Option (State κ Issue) :=
  walk (fun k => (heap k).definitionSteps) (fun path step => path ++ step.suffix)
    (fun k path => (ownFaults (heap k).outline).map (issueAt path))
    (fun k path => (leafFaults enforceClassification (heap k).outline).map (issueAt path))
    n schema path state

omit [NumberValue N] in
def walkSchema (classification : JsString) (n : ℕ) (schema : κ) (path : JsString)
    (state : State κ JsString) : Option (State κ JsString) :=
  walk (fun k => (heap k).walkSteps) (fun path step => path ++ step.place)
    (fun k path => if Carries heap classification k then [path] else []) (fun _ _ => [])
    n schema path state

def extractClassifiedPaths (n : ℕ) (schema : κ) (classification : JsString) :
    Option (List JsString) :=
  (walkSchema heap classification n schema (js "$") ⟨∅, []⟩).map State.out

/-- `validateSchemaDefinition` comes to the object. -/
def DefinitionVisits (schema t : κ) : Prop :=
  ∃ enforceClassification n state,
    validateSchemaDefinition heap enforceClassification n schema (js "$") ⟨∅, []⟩ = some state ∧
      t ∈ state.seen

/-- `extractClassifiedPaths` returns these paths, whatever depth it may use from some on. -/
def ExtractReturns (schema : κ) (classification : JsString) (paths : List JsString) : Prop :=
  ∃ n, ∀ m, n ≤ m → extractClassifiedPaths heap m schema classification = some paths

/-- The steps of a way that `validateSchemaDefinition` takes from one schema to another. -/
abbrev DefinitionPath (schema : κ) (steps : List Step) (t : κ) : Prop :=
  Path (fun k => (heap k).definitionSteps) schema steps t

/-- A subschema with the classification that `validateSchemaDefinition` visits, and a property
position where it occurs. -/
structure Occurs (schema : κ) (classification : JsString) (o : κ × List Step) : Prop where
  visited : DefinitionVisits heap schema o.1
  carries : Carries heap classification o.1
  place : ∃ steps, DefinitionPath heap schema steps o.1 ∧ position steps = o.2

/-- Every subschema with the classification has a path, one for each property position where it
occurs. -/
def NothingOverlookedIn (schema : κ) (classification : JsString) (paths : List JsString) : Prop :=
  ∃ occurrences : List (κ × List Step), occurrences.Nodup ∧
    (∀ o, o ∈ occurrences ↔ Occurs heap schema classification o) ∧
    (occurrences.map (fun o => positionText o.2)).Subperm paths

variable {heap} {schema t : κ} {classification : JsString}

lemma definitionVisits_iff [Fintype κ] :
    DefinitionVisits heap schema t ↔
      Reaches (fun k => (heap k).definitionSteps) schema t := by
  constructor
  · rintro ⟨_, n, state, h, ht⟩
    exact ((walk_visits h).1 t).mp ht
  · intro ht
    have hreturns : ∃ state, validateSchemaDefinition heap true (Fintype.card κ + 1) schema
        (js "$") ⟨∅, []⟩ = some state ∧ ∅ ⊆ state.seen := walk_returns (by simp)
    obtain ⟨state, h, -⟩ := hreturns
    exact ⟨true, _, state, h, ((walk_visits h).1 t).mpr ht⟩

omit [NumberValue N] [DecidableEq κ] in
lemma mem_definitionSteps_of_walkSteps {o : SchemaObject N κ} {e : Step × κ}
    (h : e ∈ o.walkSteps) : e ∈ o.definitionSteps := by
  simp only [SchemaObject.walkSteps, SchemaObject.definitionSteps, List.mem_append] at h ⊢
  tauto

omit [NumberValue N] [DecidableEq κ] in
lemma definitionPath_of_walk {steps : List Step}
    (h : Path (fun k => (heap k).walkSteps) schema steps t) : DefinitionPath heap schema steps t := by
  induction h with
  | nil => exact .nil
  | snoc _ he ih => exact ih.snoc (mem_definitionSteps_of_walkSteps he)

lemma flatMap_ite {α β : Type} (p : α → Bool) (f : α → β) (xs : List α) :
    xs.flatMap (fun x => if p x then [f x] else []) = (xs.filter p).map f := by
  induction xs with
  | nil => rfl
  | cons x xs ih =>
    rw [List.flatMap_cons, ih, List.filter_cons]
    split_ifs <;> rfl

omit [NumberValue N] in
/-- What `walkSchema` makes of a schema: one visit to each object within its reach, and a path for
those with the classification. -/
lemma extractClassifiedPaths_visits [Fintype κ] (heap : κ → SchemaObject N κ) (schema : κ)
    (classification : JsString) :
    ∃ paths, ExtractReturns heap schema classification paths ∧
      ∃ visits : List (κ × List Step), (visits.map Prod.fst).Nodup ∧
        (∀ t, t ∈ visits.map Prod.fst ↔ Reaches (fun k => (heap k).walkSteps) schema t) ∧
        (∀ v ∈ visits, Path (fun k => (heap k).walkSteps) schema v.2 v.1) ∧
        paths.Perm ((visits.filter (fun v => decide (Carries heap classification v.1))).map
          (fun v => positionText (position v.2))) := by
  have hreturns : ∃ state, walkSchema heap classification (Fintype.card κ + 1) schema
      (js "$") ⟨∅, []⟩ = some state ∧ ∅ ⊆ state.seen := walk_returns (by simp)
  obtain ⟨state, h, -⟩ := hreturns
  refine ⟨state.out, ⟨Fintype.card κ + 1, fun m hm => ?_⟩, ?_⟩
  · have hmore : walkSchema heap classification m schema (js "$") ⟨∅, []⟩ = some state :=
      walk_mono hm h
    rw [extractClassifiedPaths, hmore]
    rfl
  · obtain ⟨-, visits, hnodup, hreach, hpaths, hout⟩ := walk_visits h
    refine ⟨visits, hnodup, hreach, hpaths, hout.trans (List.Perm.of_eq ?_)⟩
    rw [← flatMap_ite]
    refine List.flatMap_congr (fun v _ => ?_)
    simp only [emitted, foldl_place, List.append_nil, decide_eq_true_eq]
    rfl

/-- The objects with the classification, in the order of the visits. -/
def carriers (heap : κ → SchemaObject N κ) (classification : JsString)
    (visits : List (κ × List Step)) : List (κ × List Step) :=
  visits.filter (fun v => decide (Carries heap classification v.1))

omit [NumberValue N] [DecidableEq κ] in
lemma mem_carriers {visits : List (κ × List Step)} {t : κ} :
    t ∈ (carriers heap classification visits).map Prod.fst ↔
      t ∈ visits.map Prod.fst ∧ Carries heap classification t := by
  simp only [carriers, List.mem_map, List.mem_filter, decide_eq_true_eq]
  constructor
  · rintro ⟨v, ⟨hv, hcarries⟩, rfl⟩
    exact ⟨⟨v, hv, rfl⟩, hcarries⟩
  · rintro ⟨⟨v, hv, rfl⟩, hcarries⟩
    exact ⟨v, ⟨hv, hcarries⟩, rfl⟩

/-- No more pairs than first components known to occur: each occurs, and once. -/
lemma fst_of_length_le {α β : Type*} {xs : List α} {pairs : List (α × β)} (hxs : xs.Nodup)
    (hsub : xs ⊆ pairs.map Prod.fst) (hle : pairs.length ≤ xs.length) :
    (∀ p ∈ pairs, p.1 ∈ xs) ∧ ∀ p ∈ pairs, ∀ q ∈ pairs, p.1 = q.1 → p = q := by
  have hsame : xs.Perm (pairs.map Prod.fst) :=
    (hxs.subperm hsub).perm_of_length_le (by simpa using hle)
  refine ⟨fun p hp => hsame.mem_iff.mpr (List.mem_map_of_mem hp), fun p hp q hq heq => ?_⟩
  exact List.inj_on_of_nodup_map (hsame.nodup_iff.mp hxs) hp hq heq

lemma Occurs.of_path [Fintype κ] {steps : List Step} (hpath : DefinitionPath heap schema steps t)
    (hcarries : Carries heap classification t) :
    Occurs heap schema classification (t, position steps) :=
  ⟨definitionVisits_iff.mpr ⟨_, hpath⟩, hcarries, _, hpath, rfl⟩

/-- Every subschema with the classification has a path for each property position where it occurs,
exactly when each of them is reached through `properties`, `items` and `$defs` alone and sits at
one property position. -/
theorem nothingOverlookedIn_iff [Fintype κ] :
    ∃ paths, ExtractReturns heap schema classification paths ∧
      (NothingOverlookedIn heap schema classification paths ↔
        ∀ t, DefinitionVisits heap schema t → Carries heap classification t →
          Reaches (fun k => (heap k).walkSteps) schema t ∧
          ∀ steps steps', DefinitionPath heap schema steps t → DefinitionPath heap schema steps' t →
            position steps = position steps') := by
  obtain ⟨paths, hreturns, visits, hnodup, hreach, hpaths, hperm⟩ :=
    extractClassifiedPaths_visits heap schema classification
  refine ⟨paths, hreturns, ?_⟩
  have hlistedNodup : ((carriers heap classification visits).map Prod.fst).Nodup :=
    hnodup.sublist (List.filter_sublist.map _)
  have hlisted : ∀ t, t ∈ (carriers heap classification visits).map Prod.fst ↔
      Reaches (fun k => (heap k).walkSteps) schema t ∧ Carries heap classification t := by
    intro t
    rw [mem_carriers, hreach]
  constructor
  · -- As many paths as objects listed leave no room for a second position or an unlisted object.
    rintro ⟨occurrences, hoccurrences, hmem, hsub⟩
    have hlength := hsub.length_le
    rw [hperm.length_eq, List.length_map, List.length_map] at hlength
    have hsubset : (carriers heap classification visits).map Prod.fst ⊆
        occurrences.map Prod.fst := by
      intro t ht
      obtain ⟨⟨steps, hpath⟩, hcarries⟩ := (hlisted t).mp ht
      have hoccurs := Occurs.of_path (definitionPath_of_walk hpath) hcarries
      exact List.mem_map.mpr ⟨_, (hmem _).mpr hoccurs, rfl⟩
    obtain ⟨hall, hunique⟩ := fst_of_length_le hlistedNodup hsubset
      (by simpa [carriers] using hlength)
    intro t hvisited hcarries
    have hplaces : ∀ steps, DefinitionPath heap schema steps t → (t, position steps) ∈ occurrences :=
      fun steps hpath => (hmem _).mpr (Occurs.of_path hpath hcarries)
    constructor
    · obtain ⟨steps, hpath⟩ := definitionVisits_iff.mp hvisited
      exact ((hlisted t).mp (hall _ (hplaces steps hpath))).1
    · intro steps steps' hpath hpath'
      have heq := hunique _ (hplaces steps hpath) _ (hplaces steps' hpath') rfl
      exact (Prod.mk.inj heq).2
  · intro h
    refine ⟨(carriers heap classification visits).map (fun v => (v.1, position v.2)), ?_, ?_, ?_⟩
    · refine List.Nodup.of_map Prod.fst ?_
      rw [List.map_map]
      exact hlistedNodup
    · intro o
      constructor
      · intro ho
        obtain ⟨v, hv, rfl⟩ := List.mem_map.mp ho
        have hcarries := ((hlisted v.1).mp (List.mem_map_of_mem hv)).2
        exact Occurs.of_path (definitionPath_of_walk (hpaths v (List.mem_filter.mp hv).1)) hcarries
      · rintro ⟨hvisited, hcarries, steps, hpath, hplace⟩
        obtain ⟨hreached, hunique⟩ := h o.1 hvisited hcarries
        obtain ⟨v, hv, hsame⟩ := List.mem_map.mp ((hlisted o.1).mpr ⟨hreached, hcarries⟩)
        have hpathv := definitionPath_of_walk (hpaths v (List.mem_filter.mp hv).1)
        rw [hsame] at hpathv
        refine List.mem_map.mpr ⟨v, hv, Prod.ext hsame ?_⟩
        rw [← hplace]
        exact hunique v.2 steps hpathv hpath
    · rw [List.map_map]
      exact hperm.symm.subperm

end Traversals

section Accepted

variable [NumberValue N] [DecidableEq κ] {heap : κ → SchemaObject N κ} {schema : κ}
  {enforceClassification : Bool} {d : κ → Json N}

/-- `validateSchemaDefinition` has nothing to report. -/
def DefinitionAccepted (heap : κ → SchemaObject N κ) (enforceClassification : Bool) (schema : κ) :
    Prop :=
  ∃ n state, validateSchemaDefinition heap enforceClassification n schema (js "$") ⟨∅, []⟩ =
    some state ∧ state.out = []

/-- Nothing to report about the object itself. -/
def FaultFree (enforceClassification : Bool) (s : Json N) : Prop :=
  ownFaults s = [] ∧ leafFaults enforceClassification s = []

lemma definitionAccepted_iff [Fintype κ] :
    DefinitionAccepted heap enforceClassification schema ↔
      ∀ t, Reaches (fun k => (heap k).definitionSteps) schema t →
        FaultFree enforceClassification (heap t).outline := by
  have hout : ∀ n state, validateSchemaDefinition heap enforceClassification n schema (js "$")
      ⟨∅, []⟩ = some state → (state.out = [] ↔
        ∀ t, Reaches (fun k => (heap k).definitionSteps) schema t →
          FaultFree enforceClassification (heap t).outline) := by
    intro n state h
    exact walk_out_eq_nil h (fun k path => by simp [FaultFree])
  constructor
  · rintro ⟨n, state, h, hnil⟩
    exact (hout n state h).mp hnil
  · intro hall
    have hreturns : ∃ state, validateSchemaDefinition heap enforceClassification
        (Fintype.card κ + 1) schema (js "$") ⟨∅, []⟩ = some state ∧ ∅ ⊆ state.seen :=
      walk_returns (by simp)
    obtain ⟨state, h, -⟩ := hreturns
    exact ⟨_, state, h, (hout _ state h).mpr hall⟩

omit [NumberValue N] in
lemma extractReturns_of_eq_some {classification : JsString} {paths : List JsString} {n : ℕ}
    (h : extractClassifiedPaths heap n schema classification = some paths) :
    ExtractReturns heap schema classification paths := by
  refine ⟨n, fun m hm => ?_⟩
  obtain ⟨state, hstate, rfl⟩ := Option.map_eq_some_iff.mp h
  have hmore : walkSchema heap classification m schema (js "$") ⟨∅, []⟩ = some state :=
    walk_mono hm hstate
  rw [extractClassifiedPaths, hmore]
  rfl

/-- An occurrence whose position is not among the paths is overlooked. -/
lemma not_nothingOverlookedIn {classification : JsString} {paths : List JsString}
    {o : κ × List Step} (h : Occurs heap schema classification o)
    (hpaths : positionText o.2 ∉ paths) :
    ¬ NothingOverlookedIn heap schema classification paths := by
  rintro ⟨occurrences, -, hmem, hsub⟩
  exact hpaths (hsub.subset (List.mem_map_of_mem ((hmem o).mpr h)))

def personalString : SchemaObject ℤ (Fin 2) :=
  ⟨[(js "type", .data (.str (js "string"))),
    (js "x-appspine-data-classification", .data (.str (js "PERSONAL")))]⟩

/-- A personal string as the one branch of an `anyOf`. -/
def branchHeap : Fin 2 → SchemaObject ℤ (Fin 2)
  | 0 => ⟨[(js "anyOf", .list [1])]⟩
  | 1 => personalString

/-- One personal string as two properties. -/
def sharedHeap : Fin 2 → SchemaObject ℤ (Fin 2)
  | 0 => ⟨[(js "type", .data (.str (js "object"))),
      (js "properties", .entries [(js "home", 1), (js "work", 1)])]⟩
  | 1 => personalString

theorem branch_overlooked :
    (DefinitionAccepted branchHeap true 0 ∧ ExtractReturns branchHeap 0 (js "PERSONAL") [] ∧
      ¬ NothingOverlookedIn branchHeap 0 (js "PERSONAL") []) ∧
    DefinitionAccepted sharedHeap true 0 ∧
      ExtractReturns sharedHeap 0 (js "PERSONAL") [js "$.home"] ∧
      ¬ NothingOverlookedIn sharedHeap 0 (js "PERSONAL") [js "$.home"] := by
  have hbranch : DefinitionPath branchHeap 0 [.member (js "anyOf") 0] 1 :=
    Path.nil.snoc (show (Step.member (js "anyOf") 0, (1 : Fin 2)) ∈ _ by decide +kernel)
  have hwork : DefinitionPath sharedHeap 0 [.property (js "work")] 1 :=
    Path.nil.snoc (show (Step.property (js "work"), (1 : Fin 2)) ∈ _ by decide +kernel)
  have haccepted : ∀ heap : Fin 2 → SchemaObject ℤ (Fin 2),
      (∀ k, ownFaults (heap k).outline = [] ∧ leafFaults true (heap k).outline = []) →
        DefinitionAccepted heap true 0 :=
    fun heap h => definitionAccepted_iff.mpr (fun t _ => h t)
  refine ⟨⟨haccepted _ (by decide +kernel), extractReturns_of_eq_some (n := 2) (by decide +kernel),
    ?_⟩, haccepted _ (by decide +kernel), extractReturns_of_eq_some (n := 2) (by decide +kernel), ?_⟩
  · exact not_nothingOverlookedIn (Occurs.of_path hbranch (by decide +kernel)) (by simp)
  · exact not_nothingOverlookedIn (Occurs.of_path hwork (by decide +kernel)) (by decide +kernel)

end Accepted

section Documents

variable [NumberValue N] {heap : κ → SchemaObject N κ} {o : SchemaObject N κ} {schema : κ}
  {enforceClassification : Bool} {d d' : κ → Json N} {keyword : JsString}

/-- The keywords that hold subschemas. -/
def schemaKeywords : List JsString :=
  [js "properties", js "patternProperties", js "$defs", js "allOf", js "anyOf", js "oneOf",
    js "items", js "if", js "then", js "else", js "additionalProperties"]

/-- The keywords hold what their types say. -/
structure Typed (o : SchemaObject N κ) : Prop where
  entries : ∀ k ∈ [js "properties", js "patternProperties", js "$defs"],
    ∀ v, get o.keywords k = some v → ∃ es, v = .entries es
  list : ∀ k ∈ [js "allOf", js "anyOf", js "oneOf"],
    ∀ v, get o.keywords k = some v → ∃ ks, v = .list ks
  schema : ∀ k ∈ [js "items", js "if", js "then", js "else"],
    ∀ v, get o.keywords k = some v → ∃ c, v = .schema c
  additional : ∀ v, get o.keywords (js "additionalProperties") = some v →
    (∃ c, v = .schema c) ∨ ∃ b, v = .data (.bool b)
  data : ∀ k, k ∉ schemaKeywords → ∀ v, get o.keywords k = some v → ∃ j, v = .data j

end Documents

end Appspine.JsonSchema
