import Appspine.SchemaVerdict

/-!
# Verdicts without a depth

The rules by which one call of `validate` settles when the calls it makes do.
-/
namespace Appspine.JsonSchema
open JsText JsonText InsertionMap

variable {N : Type}

section Bounds

/-- A finite family of facts that hold from some depth on holds at one depth. -/
lemma exists_depth {α : Type} {p : ℕ → α → Prop} (hmono : ∀ n m x, n ≤ m → p n x → p m x)
    (xs : List α) (h : ∀ x ∈ xs, ∃ n, p n x) : ∃ n, ∀ x ∈ xs, p n x := by
  induction xs with
  | nil => exact ⟨0, by simp⟩
  | cons x xs ih =>
    obtain ⟨n, hn⟩ := h x (by simp)
    obtain ⟨m, hm⟩ := ih (fun y hy => h y (by simp [hy]))
    refine ⟨max n m, List.forall_mem_cons.mpr ⟨hmono _ _ _ (le_max_left n m) hn, ?_⟩⟩
    exact fun y hy => hmono _ _ _ (le_max_right n m) (hm y hy)

end Bounds

section Consultations

variable [NumberValue N] (P : Platform) (options : ResolvedOptions N)

/-- The verdicts asked for, each as a function of the verdicts of the calls. -/
def consultations (value : JsValue N) (s : Json N) (refStack : Finset JsString) :
    List (VerdictCall N → Option Bool) :=
  (fun R => conditionalVerdict options R value s refStack) ::
    ((schemaList s (js "allOf")).getD []).map (fun c R => R value c refStack) ++
    [fun R => anyOfVerdict options R value s, fun R => oneOfVerdict options R value s] ++
    (partCalls P value s).map (fun call R => R call.1 call.2 refStack)

variable {P options} {R R' : VerdictCall N} {value : JsValue N} {s : Json N}
  {refStack : Finset JsString} {b : Bool}

lemma consulted_eq : consulted P options R value s refStack =
    (consultations P options value s refStack).map (fun q => q R) := by
  simp [consulted, consultations, Function.comp_def]

lemma below_freshVerdict (h : ∀ value s refStack, Below (R value s refStack) (R' value s refStack))
    (value : JsValue N) (s : Json N) :
    Below (freshVerdict options R value s) (freshVerdict options R' value s) :=
  (h value s ∅).map _

/-- More verdicts of the calls keep the verdicts asked for. -/
lemma below_consultation
    (h : ∀ value s refStack, Below (R value s refStack) (R' value s refStack))
    {q : VerdictCall N → Option Bool} (hq : q ∈ consultations P options value s refStack) :
    Below (q R) (q R') := by
  simp only [consultations, List.mem_append, List.mem_cons, List.mem_map, List.not_mem_nil,
    or_false] at hq
  obtain ((rfl | ⟨c, -, rfl⟩) | rfl | rfl) | ⟨call, -, rfl⟩ := hq
  · simp only [conditionalVerdict]
    cases schemaAt s (js "if") with
    | none => exact Below.refl _
    | some condition =>
      refine (below_freshVerdict h value condition).bind (fun holds => ?_)
      cases schemaAt s (if holds then js "then" else js "else") with
      | none => exact Below.refl _
      | some branch => exact h value branch refStack
  · exact h value c refStack
  · simp only [anyOfVerdict]
    cases schemaList s (js "anyOf") with
    | none => exact Below.refl _
    | some children => exact below_someCall (below_freshVerdict h value) children
  · simp only [oneOfVerdict]
    cases schemaList s (js "oneOf") with
    | none => exact Below.refl _
    | some children => exact (below_countCalls (below_freshVerdict h value) children).map _
  · exact h call.1 call.2 refStack

end Consultations

section Settle

variable [NumberValue N] (P : Platform) (options : ResolvedOptions N)

/-- A verdict asked for is reached. -/
def Reached (q : VerdictCall N → Option Bool) (b : Bool) : Prop :=
  ∃ n, q (verdictAt P options n) = some b

/-- `validateWithoutIssues` returns `b`. -/
def Fresh (value : JsValue N) (s : Json N) (b : Bool) : Prop :=
  Reached P options (fun R => freshVerdict options R value s) b

variable {P options} {value : JsValue N} {s : Json N} {refStack : Finset JsString} {b : Bool}

lemma below_verdictAt {n m : ℕ} (h : n ≤ m) (value : JsValue N) (s : Json N)
    (refStack : Finset JsString) :
    Below (verdictAt P options n value s refStack) (verdictAt P options m value s refStack) :=
  fun _ => verdictAt_mono h

lemma Settles.succ_iff : Settles P options value s refStack b ↔
    ∃ n, verdictWith P options (verdictAt P options n) value s refStack = some b := by
  constructor
  · rintro ⟨n, hn⟩
    cases n with
    | zero => cases hn
    | succ n => exact ⟨n, hn⟩
  · rintro ⟨n, hn⟩
    exact ⟨n + 1, hn⟩

/-- A schema with `$ref` settles as what it refers to. -/
lemma settles_ref_iff {ref : JsString} (href : refOf s = some ref) :
    Settles P options value s refStack b ↔
      if ref ∈ refStack then b = false
      else
        match (resolveRef ref options.rootSchema).filter truthy with
        | none => b = false
        | some resolved => Settles P options value (asSchema resolved) (insert ref refStack) b := by
  rw [Settles.succ_iff]
  simp only [verdictWith, href]
  split_ifs with hmem
  · simp [eq_comm]
  · cases (resolveRef ref options.rootSchema).filter truthy with
    | none => simp [eq_comm]
    | some resolved => rfl

lemma exists_depth_consultations (P' : Option Bool → Prop) (hnone : ¬ P' none)
    (h : ∀ q ∈ consultations P options value s refStack,
      ∃ n, P' (q (verdictAt P options n))) :
    ∃ n, ∀ q ∈ consultations P options value s refStack, P' (q (verdictAt P options n)) := by
  have hdepth : ∃ n, ∀ q ∈ consultations P options value s refStack,
      q ∈ consultations P options value s refStack ∧ P' (q (verdictAt P options n)) := by
    apply exists_depth
    · rintro n m q hnm ⟨hq, hp⟩
      refine ⟨hq, ?_⟩
      cases hverdict : q (verdictAt P options n) with
      | none =>
        rw [hverdict] at hp
        exact absurd hp hnone
      | some c =>
        rw [hverdict] at hp
        rwa [below_consultation (below_verdictAt hnm) hq c hverdict]
    · intro q hq
      obtain ⟨n, hn⟩ := h q hq
      exact ⟨n, hq, hn⟩
  obtain ⟨n, hn⟩ := hdepth
  exact ⟨n, fun q hq => (hn q hq).2⟩

/-- A schema without `$ref` accepts when every verdict asked for is reached and good. -/
lemma settles_true_iff (href : refOf s = none) :
    Settles P options value s refStack true ↔
      ValueConforms P options.mode value s ∧
        ∀ q ∈ consultations P options value s refStack, Reached P options q true := by
  rw [Settles.succ_iff]
  simp only [verdictWith, href, allTrue_eq_true, List.forall_mem_cons, consulted_eq,
    List.forall_mem_map, Option.some.injEq, decide_eq_true_eq]
  constructor
  · rintro ⟨n, hvalue, hq⟩
    exact ⟨hvalue, fun q hmem => ⟨n, hq q hmem⟩⟩
  · rintro ⟨hvalue, hq⟩
    obtain ⟨n, hn⟩ := exists_depth_consultations (fun r => r = some true) (by simp) hq
    exact ⟨n, hvalue, hn⟩

/-- A schema without `$ref` settles when every verdict asked for is reached. -/
lemma exists_settles_iff (href : refOf s = none) :
    (∃ b, Settles P options value s refStack b) ↔
      ∀ q ∈ consultations P options value s refStack, ∃ b, Reached P options q b := by
  constructor
  · rintro ⟨b, hb⟩ q hq
    obtain ⟨n, hn⟩ := Settles.succ_iff.mp hb
    simp only [verdictWith, href, allTrue_eq_some, List.forall_mem_cons, consulted_eq,
      List.forall_mem_map] at hn
    obtain ⟨c, hc⟩ := Option.isSome_iff_exists.mp (hn.1.2 q hq)
    exact ⟨c, n, hc⟩
  · intro h
    have hsome : ∀ q ∈ consultations P options value s refStack,
        ∃ n, (q (verdictAt P options n)).isSome := by
      intro q hq
      obtain ⟨c, n, hc⟩ := h q hq
      exact ⟨n, by rw [hc]; rfl⟩
    obtain ⟨n, hn⟩ := exists_depth_consultations (fun r => r.isSome) (by simp) hsome
    have hreturns : (verdictWith P options (verdictAt P options n) value s refStack).isSome := by
      simp only [verdictWith, href, isSome_allTrue, List.forall_mem_cons, consulted_eq,
        List.forall_mem_map]
      exact ⟨rfl, hn⟩
    obtain ⟨b, hb⟩ := Option.isSome_iff_exists.mp hreturns
    exact ⟨b, n + 1, hb⟩

end Settle

section Rules

variable [NumberValue N] {P : Platform} {options : ResolvedOptions N} {value : JsValue N}
  {s c : Json N} {refStack : Finset JsString} {b : Bool}

lemma fresh_iff : Fresh P options value s b ↔
    ∃ b', Settles P options value s ∅ b' ∧
      ((definitionIssues options.enforceClassification s (js "$")).isEmpty && b') = b := by
  simp only [Fresh, Reached, freshVerdict, Option.map_eq_some_iff]
  constructor
  · rintro ⟨n, b', hn, hb⟩
    exact ⟨b', ⟨n, hn⟩, hb⟩
  · rintro ⟨b', ⟨n, hn⟩, hb⟩
    exact ⟨n, b', hn, hb⟩

lemma Fresh.unique {b' : Bool} (h : Fresh P options value s b) (h' : Fresh P options value s b') :
    b = b' := by
  obtain ⟨c, hc, rfl⟩ := fresh_iff.mp h
  obtain ⟨c', hc', rfl⟩ := fresh_iff.mp h'
  rw [hc.unique hc']

lemma fresh_true_iff : Fresh P options value s true ↔
    WellDefined options.enforceClassification s ∧ Settles P options value s ∅ true := by
  simp only [fresh_iff, Bool.and_eq_true, List.isEmpty_iff, WellDefined]
  constructor
  · rintro ⟨b', hb', hdef, rfl⟩
    exact ⟨hdef, hb'⟩
  · rintro ⟨hdef, h⟩
    exact ⟨true, h, hdef, rfl⟩

lemma exists_fresh_iff : (∃ b, Fresh P options value s b) ↔ ∃ b, Settles P options value s ∅ b := by
  simp only [fresh_iff]
  constructor
  · rintro ⟨-, b', hb', -⟩
    exact ⟨b', hb'⟩
  · rintro ⟨b', hb'⟩
    exact ⟨_, b', hb', rfl⟩

lemma reached_conditional_iff :
    Reached P options (fun R => conditionalVerdict options R value s refStack) b ↔
      match schemaAt s (js "if") with
      | none => b = true
      | some condition => ∃ holds, Fresh P options value condition holds ∧
        match schemaAt s (if holds then js "then" else js "else") with
        | none => b = true
        | some branch => Settles P options value branch refStack b := by
  simp only [Reached, conditionalVerdict]
  cases schemaAt s (js "if") with
  | none => simp [eq_comm]
  | some condition =>
    simp only [Option.bind_eq_some_iff]
    constructor
    · rintro ⟨n, holds, hholds, hbranch⟩
      refine ⟨holds, ⟨n, hholds⟩, ?_⟩
      cases hschema : schemaAt s (if holds then js "then" else js "else") with
      | none =>
        rw [hschema] at hbranch
        exact (Option.some.inj hbranch).symm
      | some branch =>
        rw [hschema] at hbranch
        exact ⟨n, hbranch⟩
    · rintro ⟨holds, ⟨n, hn⟩, hbranch⟩
      cases hschema : schemaAt s (if holds then js "then" else js "else") with
      | none =>
        rw [hschema] at hbranch
        exact ⟨n, holds, hn, by rw [hschema, hbranch]⟩
      | some branch =>
        rw [hschema] at hbranch
        obtain ⟨m, hm⟩ := hbranch
        refine ⟨max n m, holds, ?_, ?_⟩
        · exact below_freshVerdict (below_verdictAt (le_max_left n m)) value condition holds hn
        · rw [hschema]
          exact verdictAt_mono (le_max_right n m) hm

/-- What asking one element after another for a first `true` comes to. -/
def Asked {α : Type} (F : α → Bool → Prop) : List α → Bool → Prop
  | [], b => b = false
  | x :: xs, b => F x true ∧ b = true ∨ F x false ∧ Asked F xs b

lemma reached_someCall_iff {children : List (Json N)} :
    Reached P options (fun R => someCall (freshVerdict options R value) children) b ↔
      Asked (Fresh P options value) children b := by
  induction children with
  | nil => simp [Reached, someCall, Asked, eq_comm]
  | cons child children ih =>
    rw [Asked, ← ih]
    simp only [Fresh, Reached, someCall, Option.bind_eq_bind, Option.bind_eq_some_iff]
    constructor
    · rintro ⟨n, a, ha, hrest⟩
      cases a with
      | true => exact Or.inl ⟨⟨n, ha⟩, by simpa [eq_comm] using hrest⟩
      | false => exact Or.inr ⟨⟨n, ha⟩, n, by simpa using hrest⟩
    · rintro (⟨⟨n, hn⟩, rfl⟩ | ⟨⟨n, hn⟩, m, hm⟩)
      · exact ⟨n, true, hn, rfl⟩
      · refine ⟨max n m, false, ?_, ?_⟩
        · exact below_freshVerdict (below_verdictAt (le_max_left n m)) value child false hn
        · exact below_someCall (below_freshVerdict (below_verdictAt (le_max_right n m)) value)
            children b hm

lemma reached_anyOf_iff :
    Reached P options (fun R => anyOfVerdict options R value s) b ↔
      match schemaList s (js "anyOf") with
      | none => b = true
      | some children => Asked (Fresh P options value) children b := by
  simp only [anyOfVerdict]
  cases schemaList s (js "anyOf") with
  | none => simp [Reached, eq_comm]
  | some children => exact reached_someCall_iff

lemma isSome_of_countCalls {α : Type} {f : α → Option Bool} {xs : List α} {n : ℕ}
    (h : countCalls f xs = some n) : ∀ x ∈ xs, (f x).isSome := by
  induction xs generalizing n with
  | nil => simp
  | cons x xs ih =>
    simp only [countCalls, Option.bind_eq_bind, Option.bind_eq_some_iff] at h
    obtain ⟨a, ha, m, hm, -⟩ := h
    exact List.forall_mem_cons.mpr ⟨by rw [ha]; rfl, ih hm⟩

lemma reached_oneOf_iff :
    Reached P options (fun R => oneOfVerdict options R value s) b ↔
      match schemaList s (js "oneOf") with
      | none => b = true
      | some children => (∀ c ∈ children, ∃ a, Fresh P options value c a) ∧
        (b = true ↔ ExactlyOne (fun c => Fresh P options value c true) children) := by
  simp only [oneOfVerdict]
  cases schemaList s (js "oneOf") with
  | none => simp [Reached, eq_comm]
  | some children =>
    have hcount : ∀ n, (∀ c ∈ children, (freshVerdict options (verdictAt P options n) value c).isSome) →
        ∃ k, countCalls (freshVerdict options (verdictAt P options n) value) children = some k ∧
          (k = 1 ↔ ExactlyOne (fun c => Fresh P options value c true) children) := by
      intro n hsome
      have hanswers : ∀ c ∈ children, Answers (freshVerdict options (verdictAt P options n) value c)
          (Fresh P options value c true) := by
        intro c hc
        obtain ⟨a, ha⟩ := Option.isSome_iff_exists.mp (hsome c hc)
        refine ⟨a, ha, ?_⟩
        have hfresh : Fresh P options value c a := ⟨n, ha⟩
        constructor
        · rintro rfl
          exact hfresh
        · exact fun htrue => hfresh.unique htrue
      obtain ⟨k, hk, -, hone⟩ := countCalls_spec hanswers
      exact ⟨k, hk, hone⟩
    simp only [Reached, Option.map_eq_some_iff]
    constructor
    · rintro ⟨n, k, hk, rfl⟩
      have hsome := isSome_of_countCalls hk
      obtain ⟨k', hk', hone⟩ := hcount n hsome
      obtain rfl := Option.some.inj (hk.symm.trans hk')
      refine ⟨fun c hc => ?_, by simpa using hone⟩
      obtain ⟨a, ha⟩ := Option.isSome_iff_exists.mp (hsome c hc)
      exact ⟨a, n, ha⟩
    · rintro ⟨hall, hb⟩
      obtain ⟨n, hn⟩ := exists_depth (p := fun n c =>
          (freshVerdict options (verdictAt P options n) value c).isSome)
        (by
          intro n m c hnm hc
          obtain ⟨a, ha⟩ := Option.isSome_iff_exists.mp hc
          rw [below_freshVerdict (below_verdictAt hnm) value c a ha]
          rfl) children
        (by
          intro c hc
          obtain ⟨a, n, ha⟩ := hall c hc
          exact ⟨n, Option.isSome_iff_exists.mpr ⟨a, ha⟩⟩)
      obtain ⟨k, hk, hone⟩ := hcount n hn
      refine ⟨n, k, hk, ?_⟩
      rw [Bool.eq_iff_iff, hb, decide_eq_true_eq, hone]

lemma forall_consultations {p : (VerdictCall N → Option Bool) → Prop} :
    (∀ q ∈ consultations P options value s refStack, p q) ↔
      p (fun R => conditionalVerdict options R value s refStack) ∧
      (∀ items, schemaList s (js "allOf") = some items →
        ∀ c ∈ items, p (fun R => R value c refStack)) ∧
      p (fun R => anyOfVerdict options R value s) ∧ p (fun R => oneOfVerdict options R value s) ∧
      ∀ call ∈ partCalls P value s, p (fun R => R call.1 call.2 refStack) := by
  have hallOf : (∀ c ∈ (schemaList s (js "allOf")).getD [], p (fun R => R value c refStack)) ↔
      ∀ items, schemaList s (js "allOf") = some items → ∀ c ∈ items,
        p (fun R => R value c refStack) := by
    cases schemaList s (js "allOf") <;> simp
  simp only [consultations, List.forall_mem_append, List.forall_mem_cons, List.forall_mem_map,
    List.not_mem_nil, false_implies, implies_true, and_true, hallOf]
  tauto

/-- A schema without `$ref` accepts a value when the value conforms by itself and the calls on the
schemas below accept as each keyword wants it. -/
theorem accepts_iff (href : refOf s = none) :
    Settles P options value s refStack true ↔
      ValueConforms P options.mode value s ∧
      (∀ condition, schemaAt s (js "if") = some condition →
        ∃ holds, Fresh P options value condition holds ∧
          ∀ branch, schemaAt s (if holds then js "then" else js "else") = some branch →
            Settles P options value branch refStack true) ∧
      (∀ items, schemaList s (js "allOf") = some items →
        ∀ c ∈ items, Settles P options value c refStack true) ∧
      (∀ items, schemaList s (js "anyOf") = some items →
        Asked (Fresh P options value) items true) ∧
      (∀ items, schemaList s (js "oneOf") = some items →
        (∀ c ∈ items, ∃ a, Fresh P options value c a) ∧
          ExactlyOne (fun c => Fresh P options value c true) items) ∧
      ∀ call ∈ partCalls P value s, Settles P options call.1 call.2 refStack true := by
  rw [settles_true_iff href, forall_consultations, reached_conditional_iff, reached_anyOf_iff,
    reached_oneOf_iff]
  refine and_congr_right (fun _ => and_congr ?_ (and_congr Iff.rfl (and_congr ?_
    (and_congr ?_ Iff.rfl))))
  · cases schemaAt s (js "if") with
    | none => simp
    | some condition =>
      simp only [Option.some.injEq, forall_eq']
      refine exists_congr (fun holds => and_congr_right (fun _ => ?_))
      cases schemaAt s (if holds then js "then" else js "else") <;> simp
  · cases schemaList s (js "anyOf") <;> simp
  · cases schemaList s (js "oneOf") <;> simp

/-- A schema without `$ref` settles when the calls that are made do. -/
theorem returns_iff (href : refOf s = none) :
    (∃ b, Settles P options value s refStack b) ↔
      (∀ condition, schemaAt s (js "if") = some condition →
        ∃ holds, Fresh P options value condition holds ∧
          ∀ branch, schemaAt s (if holds then js "then" else js "else") = some branch →
            ∃ b, Settles P options value branch refStack b) ∧
      (∀ items, schemaList s (js "allOf") = some items →
        ∀ c ∈ items, ∃ b, Settles P options value c refStack b) ∧
      (∀ items, schemaList s (js "anyOf") = some items →
        ∃ b, Asked (Fresh P options value) items b) ∧
      (∀ items, schemaList s (js "oneOf") = some items →
        ∀ c ∈ items, ∃ a, Fresh P options value c a) ∧
      ∀ call ∈ partCalls P value s, ∃ b, Settles P options call.1 call.2 refStack b := by
  rw [exists_settles_iff href, forall_consultations]
  simp only [reached_conditional_iff, reached_anyOf_iff, reached_oneOf_iff]
  refine and_congr ?_ (and_congr Iff.rfl (and_congr ?_ (and_congr ?_ Iff.rfl)))
  · cases schemaAt s (js "if") with
    | none => simp
    | some condition =>
      simp only [Option.some.injEq, forall_eq']
      rw [exists_comm]
      refine exists_congr (fun holds => ?_)
      rw [exists_and_left]
      refine and_congr_right (fun _ => ?_)
      cases schemaAt s (if holds then js "then" else js "else") <;> simp
  · cases schemaList s (js "anyOf") <;> simp
  · cases schemaList s (js "oneOf") with
    | none => simp
    | some children =>
      simp only [Option.some.injEq, forall_eq', exists_and_left]
      refine and_iff_left ?_
      by_cases hone : ExactlyOne (fun c => Fresh P options value c true) children
      · exact ⟨true, iff_of_true rfl hone⟩
      · exact ⟨false, iff_of_false (by simp) hone⟩

end Rules

section Induction

/-- What a call of `validate` decides about. -/
structure Call (N : Type) where
  value : JsValue N
  schema : Json N
  refStack : Finset JsString

variable [NumberValue N] (P : Platform) (options : ResolvedOptions N)

def Accepted (call : Call N) : Prop :=
  Settles P options call.value call.schema call.refStack true

variable {P options} {value : JsValue N} {s : Json N}

end Induction

end Appspine.JsonSchema
