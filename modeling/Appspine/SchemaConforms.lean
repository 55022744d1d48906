import Appspine.SchemaValidate

/-!
# What the validator decides

For a schema without `$ref` the validator returns at every depth from the schema's
size on, and whether it has an issue is decided keyword by keyword.
-/
namespace Appspine.JsonSchema
open JsText JsonText InsertionMap

variable {N : Type}

section Decides

/-- The call returns, and has no issue exactly when `p` holds. -/
def Decides (r : Option (List Issue)) (p : Prop) : Prop :=
  ∃ issues, r = some issues ∧ (issues = [] ↔ p)

/-- The test returns, and is true exactly when `p` holds. -/
def Answers (r : Option Bool) (p : Prop) : Prop := ∃ b, r = some b ∧ (b = true ↔ p)

lemma Decides.congr {r : Option (List Issue)} {p q : Prop} (h : Decides r p) (hpq : p ↔ q) :
    Decides r q := by
  obtain ⟨issues, hr, hp⟩ := h
  exact ⟨issues, hr, hp.trans hpq⟩

lemma decides_nil : Decides (some []) True := ⟨[], rfl, by simp⟩

lemma decides_append {r r' : Option (List Issue)} {p q : Prop} (h : Decides r p)
    (h' : Decides r' q) :
    Decides (r.bind (fun a => r'.bind (fun b => some (a ++ b)))) (p ∧ q) := by
  obtain ⟨a, rfl, ha⟩ := h
  obtain ⟨b, rfl, hb⟩ := h'
  exact ⟨a ++ b, rfl, by rw [List.append_eq_nil_iff, ha, hb]⟩

lemma decides_ite {b : Bool} {issue : Issue} :
    Decides (some (if b then [] else [issue])) (b = true) :=
  ⟨_, rfl, by cases b <;> simp⟩

lemma decides_each {α : Type} {f : α → Option (List Issue)} {p : α → Prop} {xs : List α}
    (h : ∀ x ∈ xs, Decides (f x) (p x)) : Decides (each f xs) (∀ x ∈ xs, p x) := by
  induction xs with
  | nil => exact ⟨[], rfl, by simp⟩
  | cons x xs ih =>
    have hhead := h x (by simp)
    have hrest := ih (fun y hy => h y (by simp [hy]))
    exact (decides_append hhead hrest).congr (by simp)

lemma answers_someCall {α : Type} {f : α → Option Bool} {p : α → Prop} {xs : List α}
    (h : ∀ x ∈ xs, Answers (f x) (p x)) : Answers (someCall f xs) (∃ x ∈ xs, p x) := by
  induction xs with
  | nil => exact ⟨false, rfl, by simp⟩
  | cons x xs ih =>
    obtain ⟨b, hb, hp⟩ := h x (by simp)
    obtain ⟨b', hb', hp'⟩ := ih (fun y hy => h y (by simp [hy]))
    cases b with
    | true => exact ⟨true, by simp [someCall, hb], by simp [hp.mp rfl]⟩
    | false =>
      have hnot : ¬ p x := fun hx => by simpa using hp.mpr hx
      exact ⟨b', by simp [someCall, hb, hb'], by simp [hp', hnot]⟩

/-- Exactly one position of the list has the property. -/
def ExactlyOne {α : Type} (p : α → Prop) (xs : List α) : Prop :=
  (∃ x ∈ xs, p x) ∧ xs.Pairwise (fun x y => ¬ (p x ∧ p y))

lemma countCalls_spec {α : Type} {f : α → Option Bool} {p : α → Prop} {xs : List α}
    (h : ∀ x ∈ xs, Answers (f x) (p x)) :
    ∃ n, countCalls f xs = some n ∧ (n = 0 ↔ ∀ x ∈ xs, ¬ p x) ∧ (n = 1 ↔ ExactlyOne p xs) := by
  induction xs with
  | nil => exact ⟨0, rfl, by simp, by simp [ExactlyOne]⟩
  | cons x xs ih =>
    obtain ⟨b, hb, hp⟩ := h x (by simp)
    obtain ⟨n, hn, hzero, hone⟩ := ih (fun y hy => h y (by simp [hy]))
    cases b with
    | true =>
      have hx : p x := hp.mp rfl
      refine ⟨n + 1, by simp [countCalls, hb, hn], by simp [hx], ?_⟩
      rw [Nat.add_eq_right, hzero]
      constructor
      · intro hnone
        refine ⟨⟨x, by simp, hx⟩, List.pairwise_cons.mpr ⟨fun y hy hxy => hnone y hy hxy.2, ?_⟩⟩
        exact List.pairwise_of_forall_mem_list (fun y hy z _ hyz => hnone y hy hyz.1)
      · intro hexactly y hy hpy
        exact (List.pairwise_cons.mp hexactly.2).1 y hy ⟨hx, hpy⟩
    | false =>
      have hx : ¬ p x := fun hx => by simpa using hp.mpr hx
      refine ⟨n, by simp [countCalls, hb, hn], by simp [hzero, hx], ?_⟩
      rw [hone]
      simp [ExactlyOne, hx]

lemma ExactlyOne.congr {α : Type} {p q : α → Prop} {xs : List α} (h : ∀ x ∈ xs, (p x ↔ q x)) :
    ExactlyOne p xs ↔ ExactlyOne q xs := by
  have hex : (∃ x ∈ xs, p x) ↔ ∃ x ∈ xs, q x :=
    exists_congr (fun x => and_congr_right (h x))
  have hpair : xs.Pairwise (fun x y => ¬ (p x ∧ p y)) ↔ xs.Pairwise (fun x y => ¬ (q x ∧ q y)) :=
    List.Pairwise.iff_of_mem (fun hx hy => by rw [h _ hx, h _ hy])
  rw [ExactlyOne, ExactlyOne, hex, hpair]

end Decides

section Children

variable [NumberValue N]

/-- The schemas a schema may have a value checked against, `$ref` apart. -/
inductive EvalChild (s : Json N) : Json N → Prop
  | keyword {k : JsString} {c : Json N} (hk : k ∈ [js "if", js "then", js "else", js "items"])
      (h : schemaAt s k = some c) : EvalChild s c
  | member {k : JsString} {items : List (Json N)} {c : Json N}
      (hk : k ∈ [js "allOf", js "anyOf", js "oneOf"]) (h : schemaList s k = some items)
      (hc : c ∈ items) : EvalChild s c
  | entry {k : JsString} {e : JsString × Json N} (hk : k ∈ [js "properties", js "patternProperties"])
      (h : e ∈ schemaEntries s k) : EvalChild s e.2
  | additional {c : Json N} (h : additionalSchema s = some c) : EvalChild s c

lemma EvalChild.sizeOf_lt {s c : Json N} (h : EvalChild s c) : sizeOf c < sizeOf s := by
  cases h with
  | keyword _ h => exact sizeOf_schemaAt_lt h
  | member _ h hc => exact sizeOf_schemaList_lt h hc
  | entry _ h => exact sizeOf_schemaEntries_lt h
  | additional h => exact sizeOf_additionalSchema_lt h

/-- No `$ref` in the schema or in a schema below it. -/
def RefFree (s : Json N) : Prop := ∀ t, Relation.ReflTransGen EvalChild s t → refOf t = none

lemma RefFree.refOf {s : Json N} (h : RefFree s) : refOf s = none := h s .refl

lemma RefFree.child {s c : Json N} (h : RefFree s) (hc : EvalChild s c) : RefFree c :=
  fun t ht => h t (.head hc ht)

omit [NumberValue N] in
lemma field_eq_none_of_not_isNode {s : Json N} (h : isNode s = false) (k : JsString) :
    field k s = none := by
  cases s <;> first | rfl | cases h

lemma definitionChildren_eq_nil {s : Json N} (h : isNode s = false) : definitionChildren s = [] := by
  have hfield := field_eq_none_of_not_isNode h
  simp [definitionChildren, schemaEntries, listChildren, schemaList, oneChild, schemaAt,
    additionalSchema, hfield]

omit [NumberValue N] in
lemma mem_listChildren {s c : Json N} {k : JsString} {items : List (Json N)}
    (h : schemaList s k = some items) (hc : c ∈ items) : ∃ suffix, (suffix, c) ∈ listChildren s k := by
  obtain ⟨i, hi⟩ := List.mem_iff_getElem?.mp hc
  have hmem : (c, i) ∈ items.zipIdx := List.mk_mem_zipIdx_iff_getElem?.mpr hi
  exact ⟨_, List.mem_map.mpr ⟨(c, i), by simpa [h] using hmem, rfl⟩⟩

lemma mem_oneChild {s c : Json N} {k : JsString} (h : schemaAt s k = some c) :
    (js "." ++ k, c) ∈ oneChild s k := by
  simp [oneChild, h]

/-- `validateSchemaDefinition` goes on to every schema the validator goes on to. -/
lemma EvalChild.mem_definitionChildren {s c : Json N} (h : EvalChild s c) :
    ∃ suffix, (suffix, c) ∈ definitionChildren s := by
  simp only [definitionChildren, List.mem_append]
  cases h with
  | @keyword k _ hk h =>
    refine ⟨js "." ++ k, ?_⟩
    have hmem := mem_oneChild h
    simp only [List.mem_cons, List.not_mem_nil, or_false] at hk
    rcases hk with rfl | rfl | rfl | rfl <;> tauto
  | member hk h hc =>
    obtain ⟨suffix, hmem⟩ := mem_listChildren h hc
    refine ⟨suffix, ?_⟩
    simp only [List.mem_cons, List.not_mem_nil, or_false] at hk
    rcases hk with rfl | rfl | rfl <;> tauto
  | @entry k e hk h =>
    simp only [List.mem_cons, List.not_mem_nil, or_false] at hk
    rcases hk with rfl | rfl
    · have hmem := List.mem_map_of_mem (f := fun e => (js "." ++ e.1, e.2)) h
      exact ⟨_, by tauto⟩
    · have hmem := List.mem_map_of_mem (f := fun e => (js ".\x7b" ++ e.1 ++ js "\x7d", e.2)) h
      exact ⟨_, by tauto⟩
  | additional h => exact ⟨js ".additionalProperties", Or.inr (by simp [h])⟩

/-- `validateSchemaDefinition` has nothing to report. -/
def WellDefined (enforceClassification : Bool) (s : Json N) : Prop :=
  definitionIssues enforceClassification s (js "$") = []

lemma definitionIssues_eq_nil_iff {enforceClassification : Bool} {s : Json N} {path : JsString} :
    definitionIssues enforceClassification s path = [] ↔
      (isNode s = true → ownFaults s = [] ∧ leafFaults enforceClassification s = []) ∧
        ∀ e ∈ definitionChildren s, WellDefined enforceClassification e.2 := by
  induction hn : sizeOf s using Nat.strong_induction_on generalizing s path with
  | _ n ih =>
    rw [definitionIssues_eq]
    by_cases hnode : isNode s = true
    · have hchild : ∀ e ∈ definitionChildren s,
          (definitionIssues enforceClassification e.2 (path ++ e.1) = [] ↔
            WellDefined enforceClassification e.2) := by
        intro e he
        have hlt := sizeOf_definitionChildren_lt he
        rw [WellDefined, ih _ (by omega) rfl, ih _ (by omega) rfl]
      simp only [hnode, if_true, List.append_eq_nil_iff, List.map_eq_nil_iff,
        List.flatMap_eq_nil_iff, forall_true_left]
      rw [forall₂_congr hchild]
      tauto
    · have hnil := definitionChildren_eq_nil (by simpa using hnode)
      simp [hnode, hnil]

lemma WellDefined.child {enforceClassification : Bool} {s c : Json N}
    (h : WellDefined enforceClassification s) (hc : EvalChild s c) :
    WellDefined enforceClassification c := by
  obtain ⟨suffix, hmem⟩ := hc.mem_definitionChildren
  exact (definitionIssues_eq_nil_iff.mp h).2 _ hmem

end Children

section Conforms

variable [NumberValue N]

def WithinLimits (s : Json N) (low high : JsString) (value : ℚ) : Prop :=
  (∀ n, schemaNumber s low = some n → NumberValue.toRat n ≤ value) ∧
    ∀ n, schemaNumber s high = some n → value ≤ NumberValue.toRat n

/-- `pattern`, `format` and the length of a string. -/
structure TextConforms (P : Platform) (text : JsString) (s : Json N) : Prop where
  length : WithinLimits s (js "minLength") (js "maxLength") (codePoints text)
  pattern : ∀ pattern, schemaText s (js "pattern") = some pattern → pattern ≠ [] →
    P.test pattern text = true
  dateTime : schemaText s (js "format") = some (js "date-time") →
    Rfc3339.isRfc3339DateTime text = true
  uri : schemaText s (js "format") = some (js "uri") → P.isUrl text = true

/-- The keywords that look at the value alone. -/
structure ValueConforms (P : Platform) (mode : Option SchemaValidationMode) (value : JsValue N)
    (s : Json N) : Prop where
  const : ∀ j, field (js "const") s = some j → sameJson value j = true
  enum : ∀ items, schemaList s (js "enum") = some items → ∃ j ∈ items, sameJson value j = true
  type : ∀ type, schemaAt s (js "type") = some type → matchesType value type = true
  text : ∀ t, asText value = some t → TextConforms P t s
  number : ∀ n, asNumber value = some n →
    WithinLimits s (js "minimum") (js "maximum") (NumberValue.toRat n)
  count : ∀ items, asArray value = some items →
    WithinLimits s (js "minItems") (js "maxItems") items.length
  unique : ∀ items, asArray value = some items → (schemaAt s (js "uniqueItems")).isSome →
    (items.map canonicalJson).Nodup
  required : (asObject value).isSome → ∀ k ∈ requiredOf s, (property value k).isSome
  closed : ∀ record, asObject value = some record → ∀ m ∈ record, isNamed P s m.1 = false →
    isClosed s = true → mode = some .tolerantReader

variable (P : Platform) (mode : Option SchemaValidationMode)

/-- What the validator checks, keyword by keyword. -/
def Conforms (value : JsValue N) (s : Json N) : Prop :=
  ValueConforms P mode value s ∧
  (∀ c, schemaAt s (js "if") = some c →
    (Conforms value c → ∀ t, schemaAt s (js "then") = some t → Conforms value t) ∧
    (¬ Conforms value c → ∀ t, schemaAt s (js "else") = some t → Conforms value t)) ∧
  (∀ items, schemaList s (js "allOf") = some items → ∀ c ∈ items, Conforms value c) ∧
  (∀ items, schemaList s (js "anyOf") = some items → ∃ c, ∃ _ : c ∈ items, Conforms value c) ∧
  (∀ items, schemaList s (js "oneOf") = some items →
    ExactlyOne (fun c : {c // c ∈ items} => Conforms value c.1) items.attach) ∧
  (∀ items, asArray value = some items → ∀ c, schemaAt s (js "items") = some c →
    ∀ x ∈ items, Conforms (.json x) c) ∧
  (∀ record, asObject value = some record →
    (∀ e ∈ schemaEntries s (js "properties"), ∀ x, property value e.1 = some x → Conforms x e.2) ∧
    (∀ e ∈ schemaEntries s (js "patternProperties"), ∀ m ∈ record, P.test e.1 m.1 = true →
      Conforms (.json m.2) e.2) ∧
    (∀ m ∈ record, isNamed P s m.1 = false → ∀ c, additionalSchema s = some c →
      Conforms (.json m.2) c))
termination_by sizeOf s
decreasing_by
  all_goals first
    | exact sizeOf_schemaAt_lt ‹_›
    | exact sizeOf_schemaList_lt ‹_› ‹_›
    | exact sizeOf_schemaList_lt ‹_› c.2
    | exact sizeOf_schemaEntries_lt ‹_›
    | exact sizeOf_additionalSchema_lt ‹_›

/-- The keywords with schemas of their own. -/
structure ChildrenConform (R : JsValue N → Json N → Prop) (value : JsValue N) (s : Json N) : Prop where
  conditional : ∀ c, schemaAt s (js "if") = some c →
    (R value c → ∀ t, schemaAt s (js "then") = some t → R value t) ∧
    (¬ R value c → ∀ t, schemaAt s (js "else") = some t → R value t)
  allOf : ∀ items, schemaList s (js "allOf") = some items → ∀ c ∈ items, R value c
  anyOf : ∀ items, schemaList s (js "anyOf") = some items → ∃ c ∈ items, R value c
  oneOf : ∀ items, schemaList s (js "oneOf") = some items → ExactlyOne (R value) items
  items : ∀ items, asArray value = some items → ∀ c, schemaAt s (js "items") = some c →
    ∀ x ∈ items, R (.json x) c
  properties : (asObject value).isSome → ∀ e ∈ schemaEntries s (js "properties"),
    ∀ x, property value e.1 = some x → R x e.2
  patternProperties : ∀ record, asObject value = some record →
    ∀ e ∈ schemaEntries s (js "patternProperties"), ∀ m ∈ record, P.test e.1 m.1 = true →
      R (.json m.2) e.2
  additional : ∀ record, asObject value = some record → ∀ m ∈ record, isNamed P s m.1 = false →
    ∀ c, additionalSchema s = some c → R (.json m.2) c

lemma exactlyOne_attach {α : Type} {p : α → Prop} {xs : List α} :
    ExactlyOne (fun x : {x // x ∈ xs} => p x.1) xs.attach ↔ ExactlyOne p xs := by
  have hpair : xs.attach.Pairwise (fun x y => ¬ (p x.1 ∧ p y.1)) ↔
      xs.Pairwise (fun x y => ¬ (p x ∧ p y)) := by
    conv_rhs => rw [← List.attach_map_subtype_val xs, List.pairwise_map]
  rw [ExactlyOne, ExactlyOne, hpair]
  simp

theorem conforms_iff {value : JsValue N} {s : Json N} :
    Conforms P mode value s ↔
      ValueConforms P mode value s ∧ ChildrenConform P (Conforms P mode) value s := by
  rw [Conforms]
  refine and_congr_right (fun _ => ?_)
  constructor
  · rintro ⟨hif, hall, hany, hone, hitems, hobject⟩
    exact {
      conditional := hif
      allOf := hall
      anyOf := fun items h => by simpa using hany items h
      oneOf := fun items h => exactlyOne_attach.mp (hone items h)
      items := hitems
      properties := fun h => by
        obtain ⟨record, hrecord⟩ := Option.isSome_iff_exists.mp h
        exact (hobject record hrecord).1
      patternProperties := fun record h => (hobject record h).2.1
      additional := fun record h => (hobject record h).2.2 }
  · intro h
    refine ⟨h.conditional, h.allOf, fun items hi => by simpa using h.anyOf items hi,
      fun items hi => exactlyOne_attach.mpr (h.oneOf items hi), h.items, fun record hr =>
        ⟨h.properties (by simp [hr]), h.patternProperties record hr, h.additional record hr⟩⟩

end Conforms

section Pieces

variable [NumberValue N] {P : Platform} {options : ResolvedOptions N} {call : ValidateCall N}
  {R : JsValue N → Json N → Prop} {value : JsValue N} {s : Json N} {path : JsString}
  {refStack : Finset JsString}

/-- The calls decide `R` on the schemas below `s`, whose definitions are in order. -/
def CallsDecide (options : ResolvedOptions N) (call : ValidateCall N)
    (R : JsValue N → Json N → Prop) (s : Json N) : Prop :=
  ∀ c, EvalChild s c → WellDefined options.enforceClassification c ∧
    ∀ value path refStack, Decides (call value c path refStack) (R value c)

lemma CallsDecide.withoutIssues (h : CallsDecide options call R s) {c : Json N} (hc : EvalChild s c) :
    Answers (withoutIssues options call value c) (R value c) := by
  obtain ⟨hdef, hcall⟩ := h c hc
  obtain ⟨issues, hissues, hiff⟩ := hcall value (js "$") ∅
  refine ⟨issues.isEmpty, ?_, by rw [List.isEmpty_iff, hiff]⟩
  rw [JsonSchema.withoutIssues, hissues, Option.map_some, show definitionIssues _ c (js "$") = [] from hdef,
    List.nil_append]

lemma decides_conditionalIssues (h : CallsDecide options call R s) :
    Decides (conditionalIssues options call value s path refStack)
      (∀ c, schemaAt s (js "if") = some c →
        (R value c → ∀ t, schemaAt s (js "then") = some t → R value t) ∧
        (¬ R value c → ∀ t, schemaAt s (js "else") = some t → R value t)) := by
  unfold conditionalIssues
  cases hif : schemaAt s (js "if") with
  | none => exact decides_nil.congr (by simp)
  | some condition =>
    obtain ⟨b, hb, hR⟩ := @CallsDecide.withoutIssues _ _ _ _ _ value _ h _ (.keyword (by simp) hif)
    have hbranch : ∀ k ∈ [js "then", js "else"], ∀ branch, schemaAt s k = some branch →
        Decides (call value branch path refStack) (R value branch) := by
      intro k hk branch hbranch
      refine (h branch (.keyword (k := k) ?_ hbranch)).2 value path refStack
      simp only [List.mem_cons, List.not_mem_nil, or_false] at hk ⊢
      tauto
    cases b with
    | true =>
      have hholds : R value condition := hR.mp rfl
      simp only [hb, Option.bind_eq_bind, Option.bind_some, if_true]
      cases hthen : schemaAt s (js "then") with
      | none => exact decides_nil.congr (by simp [hholds])
      | some branch => exact (hbranch _ (by simp) _ hthen).congr (by simp [hholds])
    | false =>
      have hfails : ¬ R value condition := fun hc => by simpa using hR.mpr hc
      simp only [hb, Option.bind_eq_bind, Option.bind_some, Bool.false_eq_true, if_false]
      cases helse : schemaAt s (js "else") with
      | none => exact decides_nil.congr (by simp [hfails])
      | some branch => exact (hbranch _ (by simp) _ helse).congr (by simp [hfails])

lemma decides_allOfIssues (h : CallsDecide options call R s) :
    Decides (allOfIssues call value s path refStack)
      (∀ items, schemaList s (js "allOf") = some items → ∀ c ∈ items, R value c) := by
  unfold allOfIssues
  cases hlist : schemaList s (js "allOf") with
  | none => exact decides_nil.congr (by simp)
  | some items =>
    have hcalls : ∀ c ∈ items, Decides (call value c path refStack) (R value c) :=
      fun c hc => (h c (.member (by simp) hlist hc)).2 value path refStack
    exact (decides_each hcalls).congr (by simp)

lemma decides_anyOfIssues (h : CallsDecide options call R s) :
    Decides (anyOfIssues options call value s path)
      (∀ items, schemaList s (js "anyOf") = some items → ∃ c ∈ items, R value c) := by
  unfold anyOfIssues
  cases hlist : schemaList s (js "anyOf") with
  | none => exact decides_nil.congr (by simp)
  | some items =>
    have hcalls : ∀ c ∈ items, Answers (JsonSchema.withoutIssues options call value c) (R value c) :=
      fun c hc => h.withoutIssues (.member (by simp) hlist hc)
    obtain ⟨b, hb, hR⟩ := answers_someCall hcalls
    simp only [hb, Option.bind_eq_bind, Option.bind_some]
    exact decides_ite.congr (by simp [hR])

lemma decides_oneOfIssues (h : CallsDecide options call R s) :
    Decides (oneOfIssues options call value s path)
      (∀ items, schemaList s (js "oneOf") = some items → ExactlyOne (R value) items) := by
  unfold oneOfIssues
  cases hlist : schemaList s (js "oneOf") with
  | none => exact decides_nil.congr (by simp)
  | some items =>
    have hcalls : ∀ c ∈ items, Answers (JsonSchema.withoutIssues options call value c) (R value c) :=
      fun c hc => h.withoutIssues (.member (by simp) hlist hc)
    obtain ⟨n, hn, -, hone⟩ := countCalls_spec hcalls
    simp only [hn, Option.bind_eq_bind, Option.bind_some]
    exact ⟨_, rfl, by split_ifs <;> simp_all⟩

lemma decides_itemIssues (h : CallsDecide options call R s) {items : List (Json N)} :
    Decides (itemIssues call items s path refStack)
      (∀ c, schemaAt s (js "items") = some c → ∀ x ∈ items, R (.json x) c) := by
  unfold itemIssues
  cases hitems : schemaAt s (js "items") with
  | none => exact decides_nil.congr (by simp)
  | some child =>
    have hcalls : ∀ e ∈ items.zipIdx, Decides
        (call (.json e.1) child (path ++ js "[" ++ natText e.2 ++ js "]") refStack)
        (R (.json e.1) child) :=
      fun e _ => (h child (.keyword (by simp) hitems)).2 _ _ _
    refine (decides_each hcalls).congr ?_
    constructor
    · intro hall c hc x hx
      obtain rfl := Option.some.inj hc
      obtain ⟨i, hi⟩ := List.mem_iff_getElem?.mp hx
      exact hall (x, i) (List.mk_mem_zipIdx_iff_getElem?.mpr hi)
    · intro hall e he
      exact hall child rfl e.1 (List.fst_mem_of_mem_zipIdx he)

lemma decides_propertyIssues (h : CallsDecide options call R s) :
    Decides (propertyIssues call value s path refStack)
      (∀ e ∈ schemaEntries s (js "properties"), ∀ x, property value e.1 = some x → R x e.2) := by
  refine decides_each (fun e he => ?_)
  cases hx : property value e.1 with
  | none => exact decides_nil.congr (by simp)
  | some x =>
    have hchild := (h e.2 (.entry (k := js "properties") (by simp) he)).2 x
      (path ++ js "." ++ e.1) refStack
    exact hchild.congr (by simp)

lemma decides_patternIssues (h : CallsDecide options call R s) {record : List (JsString × Json N)} :
    Decides (patternIssues P call record s path refStack)
      (∀ e ∈ schemaEntries s (js "patternProperties"), ∀ m ∈ record, P.test e.1 m.1 = true →
        R (.json m.2) e.2) := by
  refine decides_each (fun e he => ?_)
  have hcalls : ∀ m ∈ record.filter (fun m => P.test e.1 m.1),
      Decides (call (.json m.2) e.2 (path ++ js "." ++ m.1) refStack) (R (.json m.2) e.2) :=
    fun m _ => (h e.2 (.entry (k := js "patternProperties") (by simp) he)).2 _ _ _
  exact (decides_each hcalls).congr (by simp)

omit [NumberValue N] in
lemma decides_closedIssues :
    Decides (some (closedIssues options s path))
      (isClosed s = true → options.mode = some .tolerantReader) := by
  refine ⟨_, rfl, ?_⟩
  unfold closedIssues
  split_ifs with h <;> simp_all

lemma decides_additionalValueIssues (h : CallsDecide options call R s) {x : Json N} :
    Decides (additionalValueIssues call x s path refStack)
      (∀ c, additionalSchema s = some c → R (.json x) c) := by
  unfold additionalValueIssues
  cases hc : additionalSchema s with
  | none => exact decides_nil.congr (by simp)
  | some child => exact ((h child (.additional hc)).2 _ _ _).congr (by simp)

lemma decides_additionalIssues (h : CallsDecide options call R s)
    {record : List (JsString × Json N)} :
    Decides (additionalIssues P options call record s path refStack)
      ((∀ m ∈ record, isNamed P s m.1 = false → isClosed s = true →
          options.mode = some .tolerantReader) ∧
        ∀ m ∈ record, isNamed P s m.1 = false → ∀ c, additionalSchema s = some c →
          R (.json m.2) c) := by
  have hcalls : ∀ m ∈ record.filter (fun m => !isNamed P s m.1),
      Decides ((additionalValueIssues call m.2 s (path ++ js "." ++ m.1) refStack).bind
        (fun below => some (closedIssues options s (path ++ js "." ++ m.1) ++ below)))
      ((isClosed s = true → options.mode = some .tolerantReader) ∧
        ∀ c, additionalSchema s = some c → R (.json m.2) c) :=
    fun m _ => decides_append decides_closedIssues (decides_additionalValueIssues h)
  refine (decides_each hcalls).congr ?_
  simp only [List.mem_filter, Bool.not_eq_true', and_imp]
  exact ⟨fun hall => ⟨fun m hm hn => (hall m hm hn).1, fun m hm hn => (hall m hm hn).2⟩,
    fun hall m hm hn => ⟨hall.1 m hm hn, hall.2 m hm hn⟩⟩

end Pieces

section Values

variable [NumberValue N] {P : Platform} {value : JsValue N} {s : Json N} {path : JsString}

lemma limitIssues_eq_nil {low high b a b' a' : JsString} {x : ℚ} :
    limitIssue path b a low (belowLimit s low x) ++ limitIssue path b' a' high (aboveLimit s high x) =
      [] ↔ WithinLimits s low high x := by
  simp only [limitIssue, belowLimit, aboveLimit, List.append_eq_nil_iff, Option.toList_eq_nil_iff,
    Option.map_eq_none_iff, Option.filter_eq_none_iff, decide_eq_true_eq, not_lt, WithinLimits]

lemma constIssues_eq_nil :
    constIssues value s path = [] ↔
      ∀ j, field (js "const") s = some j → sameJson value j = true := by
  unfold constIssues
  cases field (js "const") s with
  | none => simp
  | some j => simp

lemma enumIssues_eq_nil :
    enumIssues value s path = [] ↔
      ∀ items, schemaList s (js "enum") = some items → ∃ j ∈ items, sameJson value j = true := by
  unfold enumIssues
  cases schemaList s (js "enum") with
  | none => simp
  | some items => simp

omit [NumberValue N] in
lemma stringPatternIssues_eq_nil {t : JsString} :
    stringPatternIssues P t s path = [] ↔
      ∀ pattern, schemaText s (js "pattern") = some pattern → pattern ≠ [] →
        P.test pattern t = true := by
  unfold stringPatternIssues
  cases schemaText s (js "pattern") with
  | none => simp
  | some pattern => simp [or_iff_not_imp_left]

lemma validateString_eq_nil {t : JsString} : validateString P t s path = [] ↔ TextConforms P t s := by
  unfold validateString
  rw [List.append_eq_nil_iff, List.append_eq_nil_iff, List.append_eq_nil_iff, limitIssues_eq_nil,
    stringPatternIssues_eq_nil]
  constructor
  · rintro ⟨⟨⟨hlength, hpattern⟩, hdate⟩, huri⟩
    exact ⟨hlength, hpattern, by simpa using hdate, by simpa using huri⟩
  · intro h
    exact ⟨⟨⟨h.length, h.pattern⟩, by simpa using h.dateTime⟩, by simpa using h.uri⟩

lemma validateNumber_eq_nil {n : N} :
    validateNumber n s path = [] ↔
      WithinLimits s (js "minimum") (js "maximum") (NumberValue.toRat n) := limitIssues_eq_nil

lemma arrayIssues_eq_nil {items : List (Json N)} :
    arrayIssues items s path = [] ↔
      WithinLimits s (js "minItems") (js "maxItems") items.length ∧
        ((schemaAt s (js "uniqueItems")).isSome → (items.map canonicalJson).Nodup) := by
  unfold arrayIssues
  rw [List.append_eq_nil_iff, limitIssues_eq_nil]
  simp

omit [NumberValue N] in
lemma requiredIssues_eq_nil :
    requiredIssues value s path = [] ↔ ∀ k ∈ requiredOf s, (property value k).isSome := by
  simp [requiredIssues, List.filter_eq_nil_iff, Option.isSome_iff_ne_none]

end Values

section Validator

variable [NumberValue N] {P : Platform} {options : ResolvedOptions N} {call : ValidateCall N}
  {R : JsValue N → Json N → Prop} {value : JsValue N} {s : Json N} {path : JsString}
  {refStack : Finset JsString}

lemma decides_validateArray (h : CallsDecide options call R s) :
    Decides (validateArray call value s path refStack)
      (∀ items, asArray value = some items →
        (WithinLimits s (js "minItems") (js "maxItems") items.length ∧
          ((schemaAt s (js "uniqueItems")).isSome → (items.map canonicalJson).Nodup)) ∧
        ∀ c, schemaAt s (js "items") = some c → ∀ x ∈ items, R (.json x) c) := by
  unfold validateArray
  cases harray : asArray value with
  | none => exact decides_nil.congr (by simp)
  | some items =>
    have hown : Decides (some (arrayIssues items s path))
        (WithinLimits s (js "minItems") (js "maxItems") items.length ∧
          ((schemaAt s (js "uniqueItems")).isSome → (items.map canonicalJson).Nodup)) :=
      ⟨_, rfl, arrayIssues_eq_nil⟩
    exact (decides_append hown (decides_itemIssues h)).congr (by simp)

lemma decides_validateObject (h : CallsDecide options call R s) :
    Decides (validateObject P options call value s path refStack)
      (∀ record, asObject value = some record →
        (∀ k ∈ requiredOf s, (property value k).isSome) ∧
        (∀ e ∈ schemaEntries s (js "properties"), ∀ x, property value e.1 = some x → R x e.2) ∧
        (∀ e ∈ schemaEntries s (js "patternProperties"), ∀ m ∈ record, P.test e.1 m.1 = true →
          R (.json m.2) e.2) ∧
        (∀ m ∈ record, isNamed P s m.1 = false → isClosed s = true →
          options.mode = some .tolerantReader) ∧
        ∀ m ∈ record, isNamed P s m.1 = false → ∀ c, additionalSchema s = some c →
          R (.json m.2) c) := by
  unfold validateObject
  cases hobject : asObject value with
  | none => exact decides_nil.congr (by simp)
  | some record =>
    obtain ⟨properties, hp, hpiff⟩ :=
      @decides_propertyIssues _ _ _ _ _ value _ path refStack h
    obtain ⟨patterns, ht, htiff⟩ :=
      @decides_patternIssues _ _ P _ _ _ _ path refStack h record
    obtain ⟨additional, ha, haiff⟩ :=
      @decides_additionalIssues _ _ P _ _ _ _ path refStack h record
    refine ⟨requiredIssues value s path ++ properties ++ patterns ++ additional,
      by simp [hp, ht, ha], ?_⟩
    simp only [List.append_eq_nil_iff, requiredIssues_eq_nil, hpiff, htiff, haiff,
      Option.some.injEq, forall_eq', and_assoc]

/-- One call of `validate` on a schema without `$ref`. -/
lemma decides_keywordIssues (h : CallsDecide options call R s) :
    Decides (keywordIssues P options call value s path refStack)
      (ValueConforms P options.mode value s ∧ ChildrenConform P R value s) := by
  obtain ⟨conditional, hc, hciff⟩ :=
    @decides_conditionalIssues _ _ _ _ _ value _ path refStack h
  obtain ⟨all, hall, halliff⟩ :=
    @decides_allOfIssues _ _ _ _ _ value _ path refStack h
  obtain ⟨any, hany, hanyiff⟩ := @decides_anyOfIssues _ _ _ _ _ value _ path h
  obtain ⟨one, hone, honeiff⟩ := @decides_oneOfIssues _ _ _ _ _ value _ path h
  obtain ⟨array, harray, harrayiff⟩ :=
    @decides_validateArray _ _ _ _ _ value _ path refStack h
  obtain ⟨object, hobject, hobjectiff⟩ :=
    @decides_validateObject _ _ P _ _ _ value _ path refStack h
  simp only [keywordIssues, hc, hall, hany, hone, harray, hobject, Option.bind_eq_bind,
    Option.bind_some]
  cases htype : (schemaAt s (js "type")).filter (fun type => !matchesType value type) with
  | some type =>
    refine ⟨_, rfl, iff_of_false (by simp) ?_⟩
    rintro ⟨hvalue, -⟩
    obtain ⟨htype, hmismatch⟩ := Option.filter_eq_some_iff.mp htype
    simp [hvalue.type type htype] at hmismatch
  | none =>
    have htype' : ∀ type, schemaAt s (js "type") = some type → matchesType value type = true := by
      simpa using htype
    have htext : ((asText value).map (validateString P · s path)).getD [] = [] ↔
        ∀ t, asText value = some t → TextConforms P t s := by
      cases asText value <;> simp [validateString_eq_nil]
    have hnumber : ((asNumber value).map (validateNumber · s path)).getD [] = [] ↔
        ∀ n, asNumber value = some n →
          WithinLimits s (js "minimum") (js "maximum") (NumberValue.toRat n) := by
      cases asNumber value <;> simp [validateNumber_eq_nil]
    refine ⟨_, rfl, ?_⟩
    rw [List.append_eq_nil_iff, List.append_eq_nil_iff, List.append_eq_nil_iff,
      List.append_eq_nil_iff, List.append_eq_nil_iff, List.append_eq_nil_iff,
      List.append_eq_nil_iff, List.append_eq_nil_iff, List.append_eq_nil_iff, hciff, halliff,
      hanyiff, honeiff, constIssues_eq_nil, enumIssues_eq_nil, htext, hnumber, harrayiff, hobjectiff]
    constructor
    · rintro ⟨⟨⟨⟨⟨⟨⟨⟨⟨wc, wall⟩, wany⟩, wone⟩, wconst⟩, wenum⟩, wtext⟩, wnumber⟩, warray⟩, wobject⟩
      constructor
      · exact {
          const := wconst
          enum := wenum
          type := htype'
          text := wtext
          number := wnumber
          count := fun items hi => (warray items hi).1.1
          unique := fun items hi => (warray items hi).1.2
          required := fun hsome => by
            obtain ⟨record, hr⟩ := Option.isSome_iff_exists.mp hsome
            exact (wobject record hr).1
          closed := fun record hr => (wobject record hr).2.2.2.1 }
      · exact {
          conditional := wc
          allOf := wall
          anyOf := wany
          oneOf := wone
          items := fun items hi => (warray items hi).2
          properties := fun hsome => by
            obtain ⟨record, hr⟩ := Option.isSome_iff_exists.mp hsome
            exact (wobject record hr).2.1
          patternProperties := fun record hr => (wobject record hr).2.2.1
          additional := fun record hr => (wobject record hr).2.2.2.2 }
    · rintro ⟨hv, hch⟩
      refine ⟨⟨⟨⟨⟨⟨⟨⟨⟨hch.conditional, hch.allOf⟩, hch.anyOf⟩, hch.oneOf⟩, hv.const⟩, hv.enum⟩,
        hv.text⟩, hv.number⟩, fun items hi => ?_⟩, fun record hr => ?_⟩
      · exact ⟨⟨hv.count items hi, hv.unique items hi⟩, hch.items items hi⟩
      · have hsome : (asObject value).isSome := by simp [hr]
        exact ⟨hv.required hsome, hch.properties hsome, hch.patternProperties record hr,
          hv.closed record hr, hch.additional record hr⟩

/-- Without `$ref`, `validate` returns at every depth from the size of the schema on. -/
theorem decides_validateAt {n : ℕ} (hfree : RefFree s)
    (hdef : WellDefined options.enforceClassification s) (hn : sizeOf s ≤ n) :
    Decides (validateAt P options n value s path refStack) (Conforms P options.mode value s) := by
  induction n generalizing s value path refStack with
  | zero => cases s <;> simp at hn
  | succ n ih =>
    have hcalls : CallsDecide options (validateAt P options n) (Conforms P options.mode) s := by
      intro c hc
      have hlt := hc.sizeOf_lt
      exact ⟨hdef.child hc, fun value path refStack => ih (hfree.child hc) (hdef.child hc) (by omega)⟩
    rw [validateAt, validateWith, hfree.refOf]
    exact (decides_keywordIssues hcalls).congr (conforms_iff P options.mode).symm

end Validator

section ValidateJsonSchema

variable [NumberValue N] {P : Platform} {options : ValidateJsonSchemaOptions N}

/-- `validateJsonSchema` on a schema without `$ref`: it returns, and accepts the values
that conform. -/
theorem decides_validateJsonSchema {n : ℕ} {value : JsValue N} {schema : Json N}
    (hfree : RefFree schema)
    (hdef : WellDefined (options.resolve schema).enforceClassification schema)
    (hn : sizeOf schema ≤ n) :
    Decides (validateJsonSchema P n value schema options) (Conforms P options.mode value schema) := by
  obtain ⟨issues, hissues, hiff⟩ :=
    @decides_validateAt _ _ P (options.resolve schema) value _ (js "$") ∅ _ hfree hdef hn
  refine ⟨issues, ?_, hiff⟩
  rw [validateJsonSchema, hissues, Option.map_some, show definitionIssues _ schema _ = [] from hdef,
    List.nil_append]

end ValidateJsonSchema

end Appspine.JsonSchema
