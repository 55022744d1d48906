import Appspine.FiniteReach
import Appspine.JsonParts
import Appspine.SchemaModes

/-!
# References

What a schema whose references do not come round to themselves says about a value, as the rules of
the keywords have it, and that `validate` decides it. A node with `$ref` says what the schema it
refers to says: the keywords beside the `$ref` take no part.
-/
namespace Appspine.JsonSchema
open JsText JsonText InsertionMap Relation FiniteReach

variable {N : Type} [NumberValue N]

section Leads

variable (options : ResolvedOptions N)

/-- The schema that `ref` resolves to. -/
def target (ref : JsString) : Option (Json N) :=
  ((resolveRef ref options.rootSchema).filter truthy).map asSchema

/-- From a schema to those below it and to what it refers to. -/
inductive Leads : Json N → Json N → Prop
  | child {s c : Json N} (h : EvalChild s c) : Leads s c
  | ref {s t : Json N} {ref : JsString} (href : refOf s = some ref)
      (htarget : target options ref = some t) : Leads s t

/-- No reference comes round to itself. -/
def Acyclic (s : Json N) : Prop := AcyclicFrom (Leads options) s

/-- Every reference resolves. -/
def Resolvable (s : Json N) : Prop :=
  ∀ t, ReflTransGen (Leads options) s t → ∀ ref, refOf t = some ref → (target options ref).isSome

variable {options} {s c t : Json N} {ref : JsString}

lemma target_mem_parts (h : target options ref = some t) :
    t ∈ parts options.rootSchema ∪ {.obj []} := by
  obtain ⟨resolved, hresolved, rfl⟩ := Option.map_eq_some_iff.mp h
  exact asSchema_mem_parts hresolved

lemma not_evalChild_empty : ¬ EvalChild (.obj []) t := by
  intro h
  cases h with
  | keyword _ h => cases h
  | member _ h => cases h
  | entry _ h => cases h
  | additional h => cases h

/-- The schemas within reach are parts of the schema itself and of the root schema. -/
lemma leads_finite (s : Json N) : {t | ReflTransGen (Leads options) s t}.Finite := by
  have hfinite : (parts s ∪ (parts options.rootSchema ∪ {.obj []})).Finite :=
    (parts_finite s).union ((parts_finite _).union (Set.finite_singleton _))
  refine hfinite.subset ?_
  intro t ht
  induction ht with
  | refl => exact Or.inl (mem_parts_self s)
  | tail _ hstep ih =>
    cases hstep with
    | child hc =>
      rcases ih with h | h | rfl
      · exact Or.inl (parts_subset h hc.mem_parts)
      · exact Or.inr (Or.inl (parts_subset h hc.mem_parts))
      · exact absurd hc not_evalChild_empty
    | ref _ htarget => exact Or.inr (target_mem_parts htarget)

lemma Acyclic.acc (h : Acyclic options s) : Acc (fun t s => Leads options s t) s :=
  acc_of_acyclicFrom (leads_finite s) h

lemma Acyclic.leads (h : Acyclic options s) (hst : Leads options s t) : Acyclic options t :=
  AcyclicFrom.step h hst

lemma Acyclic.reach (h : Acyclic options s) (hst : ReflTransGen (Leads options) s t) :
    Acyclic options t := fun u hu => h u (hst.trans hu)

variable {P : Platform} {value : JsValue N} {refStack : Finset JsString} {b : Bool}

lemma settles_target_iff (href : refOf s = some ref) (htarget : target options ref = some t) :
    Settles P options value s refStack b ↔
      if ref ∈ refStack then b = false
      else Settles P options value t (insert ref refStack) b := by
  obtain ⟨resolved, hresolved, rfl⟩ := Option.map_eq_some_iff.mp htarget
  rw [settles_ref_iff href, hresolved]

lemma mem_itemCalls {x : JsValue N} (h : (x, c) ∈ itemCalls value s) :
    schemaAt s (js "items") = some c := by
  unfold itemCalls at h
  split at h
  · next child items hchild _ =>
    obtain ⟨_, _, heq⟩ := List.mem_map.mp h
    rw [hchild, (Prod.mk.inj heq).2]
  · cases h

lemma evalChild_of_partCalls {x : JsValue N} (h : (x, c) ∈ partCalls P value s) :
    EvalChild s c := by
  unfold partCalls at h
  split_ifs at h
  · rcases List.mem_append.mp h with h | h
    · exact .keyword (by simp) (mem_itemCalls h)
    · unfold memberCalls at h
      cases hrecord : asObject value with
      | none =>
        rw [hrecord] at h
        cases h
      | some record =>
        rw [hrecord] at h
        simp only [List.mem_append, List.mem_filterMap, List.mem_flatMap, List.mem_map,
          Option.map_eq_some_iff, Option.mem_toList, Prod.mk.injEq] at h
        obtain (⟨e, he, _, _, _, rfl⟩ | ⟨e, he, _, _, _, rfl⟩) | ⟨_, _, _, hc, _, rfl⟩ := h
        · exact .entry (by simp) he
        · exact .entry (by simp) he
        · exact .additional hc
  · cases h

end Leads

section Rules

variable (P : Platform) (options : ResolvedOptions N) (R : JsValue N → Json N → Prop)

/-- What `validateWithoutIssues` asks of a schema. -/
def PassesAlone (value : JsValue N) (s : Json N) : Prop :=
  WellDefined options.enforceClassification s ∧ R value s

/-- What the keywords with schemas of their own ask for, `R` being what a schema asks for. -/
structure KeywordsHold (value : JsValue N) (s : Json N) : Prop where
  holds : ∀ condition, schemaAt s (js "if") = some condition →
    PassesAlone options R value condition →
      ∀ branch, schemaAt s (js "then") = some branch → R value branch
  fails : ∀ condition, schemaAt s (js "if") = some condition →
    ¬ PassesAlone options R value condition →
      ∀ branch, schemaAt s (js "else") = some branch → R value branch
  allOf : ∀ items, schemaList s (js "allOf") = some items → ∀ c ∈ items, R value c
  anyOf : ∀ items, schemaList s (js "anyOf") = some items →
    ∃ c ∈ items, PassesAlone options R value c
  oneOf : ∀ items, schemaList s (js "oneOf") = some items →
    ExactlyOne (PassesAlone options R value) items
  parts : ∀ call ∈ partCalls P value s, R call.1 call.2

/-- What a schema asks for, keyword by keyword. -/
def Rules (value : JsValue N) (s : Json N) : Prop :=
  match refOf s with
  | some ref => ∃ t, target options ref = some t ∧ R value t
  | none => ValueConforms P options.mode value s ∧ KeywordsHold P options R value s

/-- The value meets the schema: the rules hold of it, all the way down. -/
def Meets (value : JsValue N) (s : Json N) : Prop :=
  ∃ R : JsValue N → Json N → Prop,
    (∀ t, ReflTransGen (Leads options) s t → ∀ x, R x t ↔ Rules P options R x t) ∧ R value s

variable {P options R} {R' : JsValue N → Json N → Prop} {value : JsValue N} {s : Json N}

lemma KeywordsHold.congr (h : KeywordsHold P options R value s)
    (hsame : ∀ c, EvalChild s c → ∀ x, R x c ↔ R' x c) : KeywordsHold P options R' value s := by
  have halone : ∀ c, EvalChild s c → (PassesAlone options R value c ↔ PassesAlone options R' value c) :=
    fun c hc => and_congr_right (fun _ => hsame c hc value)
  exact {
    holds := by
      intro condition hcondition hpasses branch hbranch
      refine (hsame branch (.keyword (by simp) hbranch) value).mp ?_
      refine h.holds condition hcondition ?_ branch hbranch
      exact (halone condition (.keyword (by simp) hcondition)).mpr hpasses
    fails := by
      intro condition hcondition hpasses branch hbranch
      refine (hsame branch (.keyword (by simp) hbranch) value).mp ?_
      refine h.fails condition hcondition ?_ branch hbranch
      exact mt (halone condition (.keyword (by simp) hcondition)).mp hpasses
    allOf := fun items hitems c hc =>
      (hsame c (.member (by simp) hitems hc) value).mp (h.allOf items hitems c hc)
    anyOf := by
      intro items hitems
      obtain ⟨c, hc, hpasses⟩ := h.anyOf items hitems
      exact ⟨c, hc, (halone c (.member (by simp) hitems hc)).mp hpasses⟩
    oneOf := fun items hitems =>
      (ExactlyOne.congr (fun c hc => halone c (.member (by simp) hitems hc))).mp (h.oneOf items hitems)
    parts := fun call hcall =>
      (hsame call.2 (evalChild_of_partCalls hcall) call.1).mp (h.parts call hcall) }

/-- The rules look at what a schema leads to only. -/
lemma rules_congr (hsame : ∀ t, Leads options s t → ∀ x, R x t ↔ R' x t) :
    Rules P options R value s ↔ Rules P options R' value s := by
  unfold Rules
  cases href : refOf s with
  | some ref =>
    refine exists_congr (fun t => and_congr_right (fun htarget => ?_))
    exact hsame t (.ref href htarget) value
  | none =>
    refine and_congr_right (fun _ => ⟨fun h => ?_, fun h => ?_⟩)
    · exact h.congr (fun c hc x => hsame c (.child hc) x)
    · exact h.congr (fun c hc x => (hsame c (.child hc) x).symm)

end Rules

section Decided

variable {P : Platform} {options : ResolvedOptions N} {value : JsValue N} {s : Json N}
  {refStack : Finset JsString}

lemma exists_asked {α : Type} {F : α → Bool → Prop} {xs : List α} (h : ∀ x ∈ xs, ∃ b, F x b) :
    ∃ b, Asked F xs b := by
  induction xs with
  | nil => exact ⟨false, rfl⟩
  | cons x xs ih =>
    obtain ⟨a, ha⟩ := h x (by simp)
    obtain ⟨b, hb⟩ := ih (fun y hy => h y (by simp [hy]))
    cases a with
    | true => exact ⟨true, Or.inl ⟨ha, rfl⟩⟩
    | false => exact ⟨b, Or.inr ⟨ha, hb⟩⟩

/-- A validation ends where no reference comes round to itself. -/
theorem exists_settles (h : Acyclic options s) (value : JsValue N) (refStack : Finset JsString) :
    ∃ b, Settles P options value s refStack b := by
  induction h.acc generalizing value refStack with
  | intro s _ ih =>
    cases href : refOf s with
    | some ref =>
      by_cases hmem : ref ∈ refStack
      · exact ⟨false, (settles_ref_iff href).mpr (by rw [if_pos hmem])⟩
      · cases htarget : (resolveRef ref options.rootSchema).filter truthy with
        | none => exact ⟨false, (settles_ref_iff href).mpr (by rw [if_neg hmem, htarget])⟩
        | some resolved =>
          have ht : target options ref = some (asSchema resolved) := by rw [target, htarget]; rfl
          obtain ⟨b, hb⟩ := ih _ (.ref href ht) (h.leads (.ref href ht)) value (insert ref refStack)
          exact ⟨b, (settles_target_iff href ht).mpr (by rwa [if_neg hmem])⟩
    | none =>
      have hchild : ∀ c, EvalChild s c → ∀ x stack, ∃ b, Settles P options x c stack b :=
        fun c hc => ih c (.child hc) (h.leads (.child hc))
      have hfresh : ∀ c, EvalChild s c → ∃ b, Fresh P options value c b :=
        fun c hc => exists_fresh_iff.mpr (hchild c hc value ∅)
      refine (returns_iff href).mpr ⟨?_, ?_, ?_, ?_, ?_⟩
      · intro condition hcondition
        obtain ⟨holds, hholds⟩ := hfresh condition (.keyword (by simp) hcondition)
        refine ⟨holds, hholds, fun branch hbranch => hchild branch ?_ value refStack⟩
        cases holds <;> exact .keyword (by simp) hbranch
      · intro items hitems c hc
        exact hchild c (.member (by simp) hitems hc) value refStack
      · intro items hitems
        exact exists_asked (fun c hc => hfresh c (.member (by simp) hitems hc))
      · intro items hitems c hc
        exact hfresh c (.member (by simp) hitems hc)
      · intro call hcall
        exact hchild call.2 (evalChild_of_partCalls hcall) call.1 refStack

/-- What a fresh validation of a schema comes to. -/
def Settled (P : Platform) (options : ResolvedOptions N) (value : JsValue N) (s : Json N) : Prop :=
  Settles P options value s ∅ true

/-- No schema within reach refers to what is being resolved. -/
def Avoids (options : ResolvedOptions N) (refStack : Finset JsString) (s : Json N) : Prop :=
  ∀ t, ReflTransGen (Leads options) s t → ∀ ref, refOf t = some ref → ref ∉ refStack

lemma avoids_empty : Avoids options ∅ s := fun _ _ _ _ => Finset.notMem_empty _

lemma Avoids.leads {t : Json N} (h : Avoids options refStack s) (hst : Leads options s t) :
    Avoids options refStack t := fun u hu => h u (.head hst hu)

lemma Avoids.insert {t : Json N} {ref : JsString} (h : Avoids options refStack s)
    (hacyclic : Acyclic options s) (href : refOf s = some ref) (ht : target options ref = some t) :
    Avoids options (insert ref refStack) t := by
  intro u hu ref' href' hmem
  have hleads := Leads.ref href ht
  rcases Finset.mem_insert.mp hmem with rfl | hmem
  · exact hacyclic u (.head hleads hu) (.head' (.ref href' ht) hu)
  · exact h.leads hleads u hu ref' href' hmem

lemma fresh_true_iff_passesAlone {c : Json N} :
    Fresh P options value c true ↔ PassesAlone options (Settled P options) value c :=
  fresh_true_iff

/-- A schema without `$ref` accepts as its rules say, its children's verdicts given. -/
lemma settles_iff_keywordsHold (hacyclic : Acyclic options s) (href : refOf s = none)
    (hchild : ∀ c, EvalChild s c → ∀ x, Settles P options x c refStack true ↔ Settled P options x c) :
    Settles P options value s refStack true ↔
      ValueConforms P options.mode value s ∧ KeywordsHold P options (Settled P options) value s := by
  have hfresh : ∀ c, EvalChild s c → ∃ b, Fresh P options value c b :=
    fun c hc => exists_fresh_iff.mpr (exists_settles (hacyclic.leads (.child hc)) value ∅)
  rw [accepts_iff href]
  refine and_congr_right (fun _ => ⟨?_, ?_⟩)
  · rintro ⟨hif, hall, hany, hone, hparts⟩
    exact {
      holds := by
        intro condition hcondition hpasses branch hbranch
        obtain ⟨holds, hholds, hrest⟩ := hif condition hcondition
        obtain rfl := hholds.unique (fresh_true_iff_passesAlone.mpr hpasses)
        exact (hchild branch (.keyword (by simp) hbranch) value).mp (hrest branch hbranch)
      fails := by
        intro condition hcondition hpasses branch hbranch
        obtain ⟨holds, hholds, hrest⟩ := hif condition hcondition
        cases holds with
        | true => exact absurd (fresh_true_iff_passesAlone.mp hholds) hpasses
        | false => exact (hchild branch (.keyword (by simp) hbranch) value).mp (hrest branch hbranch)
      allOf := fun items hitems c hc =>
        (hchild c (.member (by simp) hitems hc) value).mp (hall items hitems c hc)
      anyOf := by
        intro items hitems
        obtain ⟨before, c, after, rfl, -, hc⟩ := asked_true_iff.mp (hany items hitems)
        exact ⟨c, by simp, fresh_true_iff_passesAlone.mp hc⟩
      oneOf := fun items hitems =>
        (ExactlyOne.congr (fun _ _ => fresh_true_iff_passesAlone)).mp (hone items hitems).2
      parts := fun call hcall =>
        (hchild call.2 (evalChild_of_partCalls hcall) call.1).mp (hparts call hcall) }
  · intro h
    refine ⟨?_, ?_, ?_, ?_, ?_⟩
    · intro condition hcondition
      obtain ⟨holds, hholds⟩ := hfresh condition (.keyword (by simp) hcondition)
      refine ⟨holds, hholds, fun branch hbranch => ?_⟩
      cases holds with
      | true =>
        refine (hchild branch (.keyword (by simp) hbranch) value).mpr ?_
        exact h.holds condition hcondition (fresh_true_iff_passesAlone.mp hholds) branch hbranch
      | false =>
        refine (hchild branch (.keyword (by simp) hbranch) value).mpr ?_
        refine h.fails condition hcondition (fun hpasses => ?_) branch hbranch
        cases hholds.unique (fresh_true_iff_passesAlone.mpr hpasses)
    · intro items hitems c hc
      exact (hchild c (.member (by simp) hitems hc) value).mpr (h.allOf items hitems c hc)
    · intro items hitems
      obtain ⟨c, hc, hpasses⟩ := h.anyOf items hitems
      obtain ⟨before, after, rfl⟩ := List.append_of_mem hc
      refine asked_true_of (fun d hd => hfresh d (.member (by simp) hitems (by simp [hd]))) ?_
      exact fresh_true_iff_passesAlone.mpr hpasses
    · intro items hitems
      refine ⟨fun c hc => hfresh c (.member (by simp) hitems hc), ?_⟩
      exact (ExactlyOne.congr (fun _ _ => fresh_true_iff_passesAlone)).mpr (h.oneOf items hitems)
    · intro call hcall
      exact (hchild call.2 (evalChild_of_partCalls hcall) call.1).mpr (h.parts call hcall)

/-- Whatever is being resolved, a schema accepts as its rules say. -/
theorem settles_iff_rules (hacyclic : Acyclic options s) (havoids : Avoids options refStack s) :
    Settles P options value s refStack true ↔ Rules P options (Settled P options) value s := by
  induction hacyclic.acc generalizing value refStack with
  | intro s _ ih =>
    have hnext : ∀ t, Leads options s t → ∀ stack, Avoids options stack t → ∀ x,
        Settles P options x t stack true ↔ Settled P options x t := by
      intro t ht stack hstack x
      rw [ih t ht (hacyclic.leads ht) hstack, Settled, ih t ht (hacyclic.leads ht) avoids_empty]
    unfold Rules
    cases href : refOf s with
    | none =>
      refine settles_iff_keywordsHold hacyclic href (fun c hc x => ?_)
      exact hnext c (.child hc) refStack (havoids.leads (.child hc)) x
    | some ref =>
      have hmem : ref ∉ refStack := havoids s .refl ref href
      cases htarget : (resolveRef ref options.rootSchema).filter truthy with
      | none =>
        rw [settles_ref_iff href, if_neg hmem, htarget]
        simp [target, htarget]
      | some resolved =>
        have ht : target options ref = some (asSchema resolved) := by rw [target, htarget]; rfl
        have hstack := havoids.insert hacyclic href ht
        rw [settles_target_iff href ht, if_neg hmem, hnext _ (.ref href ht) _ hstack]
        simp [ht]

lemma settled_iff_rules (h : Acyclic options s) :
    Settled P options value s ↔ Rules P options (Settled P options) value s :=
  settles_iff_rules h avoids_empty

/-- `validate` decides what the rules of the keywords say. -/
theorem settles_iff_meets (hacyclic : Acyclic options s) (havoids : Avoids options refStack s) :
    Settles P options value s refStack true ↔ Meets P options value s := by
  rw [settles_iff_rules hacyclic havoids, ← settled_iff_rules hacyclic]
  constructor
  · intro h
    exact ⟨Settled P options, fun t ht x => settled_iff_rules (hacyclic.reach ht), h⟩
  · rintro ⟨R, hrules, h⟩
    have hsame : ∀ t, Acc (fun t s => Leads options s t) t → ReflTransGen (Leads options) s t →
        ∀ x, R x t ↔ Settled P options x t := by
      intro t hacc
      induction hacc with
      | intro t _ ih =>
        intro ht x
        rw [hrules t ht, settled_iff_rules (hacyclic.reach ht)]
        exact rules_congr (fun u hu => ih u hu (ht.tail hu))
    exact (hsame s hacyclic.acc .refl value).mp h

end Decided

section Siblings

/-- `validate` has nothing to report about the value. -/
def Passes (P : Platform) (options : ResolvedOptions N) (value : JsValue N) (s : Json N)
    (path : JsString) (refStack : Finset JsString) : Prop :=
  ∃ n, validateAt P options n value s path refStack = some []

/-- The schemas that a validation comes to, with the references it is resolving there. -/
inductive Visited (options : ResolvedOptions N) (schema : Json N) :
    Json N → Finset JsString → Prop
  | root : Visited options schema schema ∅
  | child {s c : Json N} {refStack : Finset JsString} (h : Visited options schema s refStack)
      (hc : EvalChild s c) : Visited options schema c refStack
  | alone {s c : Json N} {refStack : Finset JsString} (h : Visited options schema s refStack)
      (hc : EvalChild s c) : Visited options schema c ∅
  | ref {s t : Json N} {refStack : Finset JsString} {ref : JsString}
      (h : Visited options schema s refStack) (href : refOf s = some ref)
      (ht : target options ref = some t) : Visited options schema t (insert ref refStack)

/-- The schema without its `$ref`. -/
def withoutRef : Json N → Json N
  | .obj members => .obj (members.filter (fun m => m.1 ≠ js "$ref"))
  | s => s

variable {P : Platform} {options : ResolvedOptions N} {schema s c t : Json N}
  {value : JsValue N} {path ref : JsString} {refStack : Finset JsString}

lemma passes_iff : Passes P options value s path refStack ↔
    Settles P options value s refStack true := by
  refine exists_congr (fun n => ?_)
  rw [← hasVerdict_validateAt n value s path refStack, verdict, Option.map_eq_some_iff]
  simp

omit [NumberValue N] in
lemma field_withoutRef {k : JsString} (hk : k ≠ js "$ref") : field k (withoutRef s) = field k s := by
  cases s with
  | obj members => exact get_filter_key (fun k => decide (k ≠ js "$ref")) members (by simpa using hk)
  | null => rfl
  | bool b => rfl
  | num n => rfl
  | str text => rfl
  | arr items => rfl

omit [NumberValue N] in
lemma refOf_withoutRef : refOf (withoutRef s) = none := by
  have hfield : field (js "$ref") (withoutRef s) = none := by
    cases s with
    | obj members =>
      refine get_eq_none.mpr ?_
      simp [keys]
    | null => rfl
    | bool b => rfl
    | num n => rfl
    | str text => rfl
    | arr items => rfl
  simp [refOf, schemaText, hfield]

lemma evalChild_of_withoutRef (h : EvalChild (withoutRef s) c) : EvalChild s c := by
  cases h with
  | @keyword k _ hk h =>
    have hne : ∀ k ∈ [js "if", js "then", js "else", js "items"], k ≠ js "$ref" := by
      decide +kernel
    rw [schemaAt, field_withoutRef (hne k hk)] at h
    exact .keyword hk h
  | @member k items _ hk h hc =>
    have hne : ∀ k ∈ [js "allOf", js "anyOf", js "oneOf"], k ≠ js "$ref" := by decide +kernel
    rw [schemaList, field_withoutRef (hne k hk)] at h
    exact .member hk h hc
  | @entry k e hk h =>
    have hne : ∀ k ∈ [js "properties", js "patternProperties"], k ≠ js "$ref" := by
      decide +kernel
    rw [schemaEntries, field_withoutRef (hne k hk)] at h
    exact .entry hk h
  | additional h =>
    have hne : js "additionalProperties" ≠ js "$ref" := by decide +kernel
    rw [additionalSchema, field_withoutRef hne] at h
    exact .additional h

lemma leads_of_withoutRef (h : Leads options (withoutRef s) t) : Leads options s t := by
  cases h with
  | child hc => exact .child (evalChild_of_withoutRef hc)
  | ref href => rw [refOf_withoutRef] at href; cases href

lemma Acyclic.withoutRef (h : Acyclic options s) : Acyclic options (withoutRef s) := by
  intro t ht hcycle
  have hfrom : ∃ u, ReflTransGen (Leads options) s u ∧ TransGen (Leads options) u u := by
    rcases ReflTransGen.cases_head ht with rfl | ⟨u, hu, hut⟩
    · obtain ⟨u, hu, hback⟩ := TransGen.head'_iff.mp hcycle
      exact ⟨u, .single (leads_of_withoutRef hu), .tail' hback hu⟩
    · exact ⟨t, .head (leads_of_withoutRef hu) hut, hcycle⟩
  obtain ⟨u, hu, hloop⟩ := hfrom
  exact h u hu hloop

lemma Avoids.withoutRef (h : Avoids options refStack s) : Avoids options refStack (withoutRef s) := by
  intro t ht ref href
  rcases ReflTransGen.cases_head ht with rfl | ⟨u, hu, hut⟩
  · rw [refOf_withoutRef] at href
    cases href
  · exact h t (.head (leads_of_withoutRef hu) hut) ref href

lemma Visited.reach (h : Visited options schema s refStack) :
    ReflTransGen (Leads options) schema s := by
  induction h with
  | root => exact .refl
  | child _ hc ih => exact ih.tail (.child hc)
  | alone _ hc ih => exact ih.tail (.child hc)
  | ref _ href ht ih => exact ih.tail (.ref href ht)

/-- What is being resolved leads to the schema the validation is at. -/
lemma Visited.resolving (h : Visited options schema s refStack) :
    ∀ ref ∈ refStack, ∃ t, target options ref = some t ∧ ReflTransGen (Leads options) t s := by
  induction h with
  | root => simp
  | child _ hc ih =>
    intro ref href
    obtain ⟨t, ht, hreach⟩ := ih ref href
    exact ⟨t, ht, hreach.tail (.child hc)⟩
  | alone => simp
  | @ref s t _ _ _ href ht ih =>
    intro ref' hmem
    rcases Finset.mem_insert.mp hmem with rfl | hmem
    · exact ⟨t, ht, .refl⟩
    · obtain ⟨u, hu, hreach⟩ := ih ref' hmem
      exact ⟨u, hu, hreach.tail (.ref href ht)⟩

lemma Visited.avoids (h : Visited options schema s refStack) (hacyclic : Acyclic options schema) :
    Avoids options refStack s := by
  intro t ht ref href hmem
  obtain ⟨u, hu, hreach⟩ := h.resolving ref hmem
  exact hacyclic t (h.reach.trans ht) (.head' (.ref href hu) (hreach.trans ht))

/-- At a node with `$ref`, what the node asks for is what the schema it refers to and the keywords
beside the `$ref` ask for together, exactly when the value meets those keywords or fails to meet
what the `$ref` refers to. -/
theorem ref_siblings_iff (hacyclic : Acyclic options schema) (hresolvable : Resolvable options schema)
    (hvisited : Visited options schema s refStack) (href : refOf s = some ref) :
    ∃ t, target options ref = some t ∧
      ((Passes P options value s path refStack ↔
          Passes P options value t path refStack ∧
            Passes P options value (withoutRef s) path refStack) ↔
        (Meets P options value t → Meets P options value (withoutRef s))) := by
  obtain ⟨t, ht⟩ := Option.isSome_iff_exists.mp (hresolvable s hvisited.reach ref href)
  refine ⟨t, ht, ?_⟩
  have hs := hacyclic.reach hvisited.reach
  have havoids := hvisited.avoids hacyclic
  have hleads : Leads options s t := .ref href ht
  have hnode : Settles P options value s refStack true ↔ Meets P options value t := by
    rw [settles_target_iff href ht, if_neg (havoids s .refl ref href)]
    exact settles_iff_meets (hs.leads hleads) (havoids.insert hs href ht)
  simp only [passes_iff]
  rw [hnode, settles_iff_meets (hs.leads hleads) (havoids.leads hleads),
    settles_iff_meets hs.withoutRef havoids.withoutRef]
  tauto

/-- A public string of two characters at least, the string by reference. -/
def longString : Json ℤ :=
  .obj [(js "$defs", .obj [(js "text", publicString)]), (js "$ref", .str (js "#/$defs/text")),
    (js "minLength", .num 2)]

def longStringOptions : ResolvedOptions ℤ :=
  ValidateJsonSchemaOptions.resolve ⟨none, none, none⟩ longString

/-- The keywords whose schemas a value is checked against. -/
def evalKeywords : List JsString :=
  [js "if", js "then", js "else", js "items", js "allOf", js "anyOf", js "oneOf",
    js "properties", js "patternProperties", js "additionalProperties"]

lemma EvalChild.exists_field (h : EvalChild s c) : ∃ k ∈ evalKeywords, (field k s).isSome := by
  cases h with
  | @keyword k _ hk h =>
    have hsub : ∀ k ∈ [js "if", js "then", js "else", js "items"], k ∈ evalKeywords := by
      decide +kernel
    exact ⟨k, hsub k hk, by rw [(schemaAt_eq_some.mp h).1]; rfl⟩
  | @member k items _ hk h hc =>
    have hsub : ∀ k ∈ [js "allOf", js "anyOf", js "oneOf"], k ∈ evalKeywords := by decide +kernel
    exact ⟨k, hsub k hk, by rw [schemaList_eq_some.mp h]; rfl⟩
  | @entry k e hk h =>
    have hsub : ∀ k ∈ [js "properties", js "patternProperties"], k ∈ evalKeywords := by
      decide +kernel
    refine ⟨k, hsub k hk, ?_⟩
    unfold schemaEntries at h
    cases hfield : field k s with
    | none => simp [hfield] at h
    | some j => rfl
  | additional h =>
    exact ⟨js "additionalProperties", by simp [evalKeywords],
      by rw [field_of_additionalSchema h]; rfl⟩

lemma not_leads_publicString {options : ResolvedOptions ℤ} {t : Json ℤ} :
    ¬ Leads options publicString t := by
  intro h
  cases h with
  | child hc =>
    obtain ⟨k, hk, hsome⟩ := hc.exists_field
    have hnone : ∀ k ∈ evalKeywords, field k publicString = none := by decide +kernel
    simp [hnone k hk] at hsome
  | ref href => cases href

lemma longString_target : target longStringOptions (js "#/$defs/text") = some publicString :=
  rfl

lemma leads_longString {t : Json ℤ} (h : Leads longStringOptions longString t) :
    t = publicString := by
  cases h with
  | child hc =>
    obtain ⟨k, hk, hsome⟩ := hc.exists_field
    have hnone : ∀ k ∈ evalKeywords, field k longString = none := by decide +kernel
    simp [hnone k hk] at hsome
  | ref href ht =>
    cases href
    exact Option.some.inj (ht.symm.trans longString_target)

lemma longString_reach {t : Json ℤ} (h : ReflTransGen (Leads longStringOptions) longString t) :
    t = longString ∨ t = publicString := by
  rcases ReflTransGen.cases_head h with rfl | ⟨u, hu, hut⟩
  · exact Or.inl rfl
  · obtain rfl := leads_longString hu
    rcases ReflTransGen.cases_head hut with rfl | ⟨v, hv, -⟩
    · exact Or.inr rfl
    · exact absurd hv not_leads_publicString

lemma longString_acyclic : Acyclic longStringOptions longString := by
  intro t ht hcycle
  obtain ⟨u, hu, hback⟩ := TransGen.head'_iff.mp hcycle
  rcases longString_reach ht with rfl | rfl
  · obtain rfl := leads_longString hu
    rcases ReflTransGen.cases_head hback with heq | ⟨v, hv, -⟩
    · cases (show field (js "$ref") longString = none by rw [← heq]; rfl)
    · exact not_leads_publicString hv
  · exact not_leads_publicString hu

lemma longString_resolvable : Resolvable longStringOptions longString := by
  intro t ht ref href
  rcases longString_reach ht with rfl | rfl
  · cases href
    rw [longString_target]
    rfl
  · cases href

/-- The length beside the `$ref` is not looked at. -/
theorem minLength_hidden :
    Acyclic longStringOptions longString ∧ Resolvable longStringOptions longString ∧
      target longStringOptions (js "#/$defs/text") = some publicString ∧
      Returns noMatch (.json (.str (js "x"))) longString ⟨none, none, none⟩ [] ∧
      ¬ (Passes noMatch longStringOptions (.json (.str (js "x"))) longString (js "$") ∅ ↔
        Passes noMatch longStringOptions (.json (.str (js "x"))) publicString (js "$") ∅ ∧
          Passes noMatch longStringOptions (.json (.str (js "x"))) (withoutRef longString)
            (js "$") ∅) := by
  have hnode : Passes noMatch longStringOptions (.json (.str (js "x"))) longString (js "$") ∅ :=
    ⟨2, by decide +kernel⟩
  have hrest : ¬ Passes noMatch longStringOptions (.json (.str (js "x")))
      (withoutRef longString) (js "$") ∅ := by
    have hfalse : Settles noMatch longStringOptions (.json (.str (js "x")))
        (withoutRef longString) ∅ false := by
      refine ⟨1, ?_⟩
      rw [← hasVerdict_validateAt 1 _ _ (js "$")]
      decide +kernel
    intro hpasses
    cases (passes_iff.mp hpasses).unique hfalse
  exact ⟨longString_acyclic, longString_resolvable, longString_target,
    returns_of_eq_some (n := 2) (by decide +kernel), fun h => hrest (h.mp hnode).2⟩

theorem ref_siblings_iff_longString :
    ∃ t, target longStringOptions (js "#/$defs/text") = some t ∧
      ((Passes noMatch longStringOptions (.json (.str (js "x"))) longString (js "$") ∅ ↔
          Passes noMatch longStringOptions (.json (.str (js "x"))) t (js "$") ∅ ∧
            Passes noMatch longStringOptions (.json (.str (js "x"))) (withoutRef longString)
              (js "$") ∅) ↔
        (Meets noMatch longStringOptions (.json (.str (js "x"))) t →
          Meets noMatch longStringOptions (.json (.str (js "x"))) (withoutRef longString))) :=
  ref_siblings_iff longString_acyclic longString_resolvable .root rfl

end Siblings

end Appspine.JsonSchema
