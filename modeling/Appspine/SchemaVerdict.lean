import Appspine.SchemaConforms

/-!
# The verdict of a validation

Whether a call of `validate` has no issue, as a function of the verdicts of the calls it makes.
Neither the path nor the texts of the issues take part in it.
-/
namespace Appspine.JsonSchema
open JsText JsonText InsertionMap

variable {N : Type}

section Verdicts

/-- Whether a call has no issue, if it returns. -/
def verdict (r : Option (List Issue)) : Option Bool := r.map List.isEmpty

/-- All the calls return, and all are without issues. -/
def allTrue : List (Option Bool) → Option Bool
  | [] => some true
  | r :: rs => r.bind (fun b => (allTrue rs).map (b && ·))

lemma allTrue_append (rs rs' : List (Option Bool)) :
    allTrue (rs ++ rs') = (allTrue rs).bind (fun b => (allTrue rs').map (b && ·)) := by
  induction rs with
  | nil => simp [allTrue]
  | cons r rs ih =>
    rw [List.cons_append, allTrue, ih, allTrue]
    cases r with
    | none => rfl
    | some b => cases allTrue rs <;> cases allTrue rs' <;> simp [Bool.and_assoc]

lemma allTrue_eq_some {rs : List (Option Bool)} {b : Bool} :
    allTrue rs = some b ↔ (∀ r ∈ rs, r.isSome) ∧ (b = true ↔ ∀ r ∈ rs, r = some true) := by
  induction rs generalizing b with
  | nil => cases b <;> simp [allTrue]
  | cons r rs ih =>
    cases r with
    | none => simp [allTrue]
    | some c =>
      rw [allTrue, Option.bind_some, Option.map_eq_some_iff, List.forall_mem_cons,
        List.forall_mem_cons]
      simp only [ih]
      constructor
      · rintro ⟨d, ⟨hsome, hd⟩, rfl⟩
        exact ⟨⟨rfl, hsome⟩, by simp [← hd]⟩
      · rintro ⟨⟨-, hsome⟩, hb⟩
        by_cases hall : ∀ r ∈ rs, r = some true
        · refine ⟨true, ⟨hsome, iff_of_true rfl hall⟩, ?_⟩
          rw [Bool.eq_iff_iff, hb]
          simpa using fun _ => hall
        · refine ⟨false, ⟨hsome, by simpa using hall⟩, ?_⟩
          cases b with
          | false => simp
          | true => exact absurd (hb.mp rfl).2 hall

lemma allTrue_eq_true {rs : List (Option Bool)} :
    allTrue rs = some true ↔ ∀ r ∈ rs, r = some true := by
  rw [allTrue_eq_some]
  constructor
  · rintro ⟨-, h⟩
    exact h.mp rfl
  · intro h
    exact ⟨fun r hr => by rw [h r hr]; rfl, by simpa using h⟩

lemma isSome_allTrue {rs : List (Option Bool)} :
    (allTrue rs).isSome ↔ ∀ r ∈ rs, r.isSome := by
  rw [Option.isSome_iff_exists]
  simp only [allTrue_eq_some]
  constructor
  · rintro ⟨b, h, -⟩
    exact h
  · intro h
    by_cases hall : ∀ r ∈ rs, r = some true
    · exact ⟨true, h, by simpa using hall⟩
    · exact ⟨false, h, by simpa using hall⟩

open Classical in
/-- The call returns when the calls do, and is without issues when they are and `p` holds. -/
def Follows (r : Option (List Issue)) (calls : List (Option Bool)) (p : Prop) : Prop :=
  verdict r = allTrue (some (decide p) :: calls)

lemma Follows.congr {r : Option (List Issue)} {calls : List (Option Bool)} {p q : Prop}
    (h : Follows r calls p) (hpq : p ↔ q) : Follows r calls q := by
  rwa [propext hpq] at h

lemma follows_some (issues : List Issue) {p : Prop} (h : issues = [] ↔ p) :
    Follows (some issues) [] p := by
  unfold Follows verdict
  by_cases hp : p
  · simp [allTrue, hp, h.mpr hp]
  · have hne : issues ≠ [] := fun heq => hp (h.mp heq)
    simp [allTrue, hp, hne]

lemma follows_nil : Follows (some []) [] True := follows_some [] (by simp)

lemma follows_call {r : Option (List Issue)} {b : Option Bool} (h : verdict r = b) :
    Follows r [b] True := by
  unfold Follows
  cases b <;> simp [allTrue, h]

lemma isEmpty_append (issues issues' : List Issue) :
    (issues ++ issues').isEmpty = (issues.isEmpty && issues'.isEmpty) := by
  cases issues <;> rfl

lemma follows_append {r r' : Option (List Issue)} {calls calls' : List (Option Bool)} {p q : Prop}
    (h : Follows r calls p) (h' : Follows r' calls' q) :
    Follows (r.bind (fun a => r'.bind (fun b => some (a ++ b)))) (calls ++ calls') (p ∧ q) := by
  have happend : verdict (r.bind (fun a => r'.bind (fun b => some (a ++ b)))) =
      (verdict r).bind (fun b => (verdict r').map (b && ·)) := by
    cases r with
    | none => rfl
    | some a => cases r' <;> simp [verdict, isEmpty_append]
  unfold Follows at h h' ⊢
  rw [happend, h, h']
  simp only [allTrue, Option.bind_some, allTrue_append]
  by_cases hp : p <;> by_cases hq : q <;> cases allTrue calls <;> cases allTrue calls' <;>
    simp [hp, hq]

lemma follows_each {α : Type} {f : α → Option (List Issue)} {calls : α → List (Option Bool)}
    {p : α → Prop} (xs : List α) (h : ∀ x ∈ xs, Follows (f x) (calls x) (p x)) :
    Follows (each f xs) (xs.flatMap calls) (∀ x ∈ xs, p x) := by
  induction xs with
  | nil => exact follows_nil.congr (by simp)
  | cons x xs ih =>
    have hrest := ih (fun y hy => h y (by simp [hy]))
    rw [List.flatMap_cons]
    exact (follows_append (h x (by simp)) hrest).congr (by simp)

end Verdicts

section Consult

/-- A call of `validate` as far as its verdict goes. -/
abbrev VerdictCall (N : Type) := JsValue N → Json N → Finset JsString → Option Bool

variable [NumberValue N] (P : Platform) (options : ResolvedOptions N) (R : VerdictCall N)

/-- `validateWithoutIssues`. -/
def freshVerdict (value : JsValue N) (s : Json N) : Option Bool :=
  (R value s ∅).map ((definitionIssues options.enforceClassification s (js "$")).isEmpty && ·)

def conditionalVerdict (value : JsValue N) (s : Json N) (refStack : Finset JsString) :
    Option Bool :=
  match schemaAt s (js "if") with
  | none => some true
  | some condition =>
    (freshVerdict options R value condition).bind (fun holds =>
      match schemaAt s (if holds then js "then" else js "else") with
      | none => some true
      | some branch => R value branch refStack)

def anyOfVerdict (value : JsValue N) (s : Json N) : Option Bool :=
  match schemaList s (js "anyOf") with
  | none => some true
  | some children => someCall (freshVerdict options R value) children

def oneOfVerdict (value : JsValue N) (s : Json N) : Option Bool :=
  match schemaList s (js "oneOf") with
  | none => some true
  | some children => (countCalls (freshVerdict options R value) children).map (· = 1)

def typeHolds (value : JsValue N) (s : Json N) : Bool :=
  (schemaAt s (js "type")).all (matchesType value)

def itemCalls (value : JsValue N) (s : Json N) : List (JsValue N × Json N) :=
  match schemaAt s (js "items"), asArray value with
  | some child, some items => items.map (fun x => (.json x, child))
  | _, _ => []

def memberCalls (value : JsValue N) (s : Json N) : List (JsValue N × Json N) :=
  match asObject value with
  | none => []
  | some record =>
    (schemaEntries s (js "properties")).filterMap
      (fun e => (property value e.1).map (fun x => (x, e.2))) ++
    (schemaEntries s (js "patternProperties")).flatMap
      (fun e => (record.filter (fun m => P.test e.1 m.1)).map (fun m => (.json m.2, e.2))) ++
    (record.filter (fun m => !isNamed P s m.1)).flatMap
      (fun m => ((additionalSchema s).map (fun c => (.json m.2, c))).toList)

/-- The calls on the parts of a value of the right type. -/
def partCalls (value : JsValue N) (s : Json N) : List (JsValue N × Json N) :=
  if typeHolds value s then itemCalls value s ++ memberCalls P value s else []

/-- The verdicts that a schema without `$ref` asks for. -/
def consulted (value : JsValue N) (s : Json N) (refStack : Finset JsString) :
    List (Option Bool) :=
  conditionalVerdict options R value s refStack ::
    ((schemaList s (js "allOf")).getD []).map (fun c => R value c refStack) ++
    [anyOfVerdict options R value s, oneOfVerdict options R value s] ++
    (partCalls P value s).map (fun call => R call.1 call.2 refStack)

open Classical in
/-- The verdict of `validate`. -/
noncomputable def verdictWith : VerdictCall N := fun value s refStack =>
  match refOf s with
  | some ref =>
    if ref ∈ refStack then some false
    else
      match (resolveRef ref options.rootSchema).filter truthy with
      | none => some false
      | some resolved => R value (asSchema resolved) (insert ref refStack)
  | none =>
    allTrue (some (decide (ValueConforms P options.mode value s)) ::
      consulted P options R value s refStack)

/-- The verdict of `validate` with at most `n` calls inside one another. -/
noncomputable def verdictAt : ℕ → VerdictCall N
  | 0 => fun _ _ _ => none
  | n + 1 => verdictWith P options (verdictAt n)

end Consult

section Agreement

variable [NumberValue N] {P : Platform} {options : ResolvedOptions N} {call : ValidateCall N}
  {R : VerdictCall N} {value : JsValue N} {s : Json N} {path : JsString}
  {refStack : Finset JsString}

/-- The verdicts of the calls are those of `R`. -/
def HasVerdict (call : ValidateCall N) (R : VerdictCall N) : Prop :=
  ∀ value s path refStack, verdict (call value s path refStack) = R value s refStack

lemma HasVerdict.withoutIssues (h : HasVerdict call R) (value : JsValue N) (s : Json N) :
    withoutIssues options call value s = freshVerdict options R value s := by
  rw [JsonSchema.withoutIssues, freshVerdict, ← h value s (js "$") ∅, verdict, Option.map_map]
  congr 1
  funext issues
  exact isEmpty_append _ _

omit [NumberValue N] in
lemma HasVerdict.follows (h : HasVerdict call R) (value : JsValue N) (s : Json N)
    (path : JsString) (refStack : Finset JsString) :
    Follows (call value s path refStack) [R value s refStack] True :=
  follows_call (h value s path refStack)

variable (P options value s path refStack)

lemma follows_conditionalIssues (h : HasVerdict call R) :
    Follows (conditionalIssues options call value s path refStack)
      [conditionalVerdict options R value s refStack] True := by
  apply follows_call
  unfold conditionalIssues conditionalVerdict
  cases schemaAt s (js "if") with
  | none => rfl
  | some condition =>
    simp only [h.withoutIssues, Option.bind_eq_bind]
    cases freshVerdict options R value condition with
    | none => rfl
    | some holds =>
      simp only [Option.bind_some]
      cases schemaAt s (if holds then js "then" else js "else") with
      | none => rfl
      | some branch => exact h value branch path refStack

omit [NumberValue N] in
lemma follows_allOfIssues (h : HasVerdict call R) :
    Follows (allOfIssues call value s path refStack)
      (((schemaList s (js "allOf")).getD []).map (fun c => R value c refStack)) True := by
  have heach := follows_each ((schemaList s (js "allOf")).getD [])
    (fun c _ => h.follows value c path refStack)
  rw [← List.map_eq_flatMap] at heach
  exact heach.congr (by simp)

lemma follows_anyOfIssues (h : HasVerdict call R) :
    Follows (anyOfIssues options call value s path) [anyOfVerdict options R value s] True := by
  apply follows_call
  unfold anyOfIssues anyOfVerdict
  cases schemaList s (js "anyOf") with
  | none => rfl
  | some children =>
    simp only [funext (h.withoutIssues value), Option.bind_eq_bind]
    cases someCall (freshVerdict options R value) children with
    | none => rfl
    | some found => cases found <;> rfl

lemma follows_oneOfIssues (h : HasVerdict call R) :
    Follows (oneOfIssues options call value s path) [oneOfVerdict options R value s] True := by
  apply follows_call
  unfold oneOfIssues oneOfVerdict
  cases schemaList s (js "oneOf") with
  | none => rfl
  | some children =>
    simp only [funext (h.withoutIssues value), Option.bind_eq_bind]
    cases countCalls (freshVerdict options R value) children with
    | none => rfl
    | some n => by_cases hn : n = 1 <;> simp [verdict, hn]

lemma follows_validateArray (h : HasVerdict call R) :
    Follows (validateArray call value s path refStack)
      ((itemCalls value s).map (fun c : JsValue N × Json N => R c.1 c.2 refStack))
      (∀ items, asArray value = some items →
        WithinLimits s (js "minItems") (js "maxItems") items.length ∧
          ((schemaAt s (js "uniqueItems")).isSome → (items.map canonicalJson).Nodup)) := by
  unfold validateArray itemCalls
  cases harray : asArray value with
  | none =>
    have hcalls : ((match schemaAt s (js "items"), (none : Option (List (Json N))) with
        | some child, some items => items.map (fun x => (JsValue.json x, child))
        | _, _ => []).map (fun c : JsValue N × Json N => R c.1 c.2 refStack)) = [] := by
      cases schemaAt s (js "items") <;> rfl
    rw [hcalls]
    exact follows_nil.congr (by simp)
  | some items =>
    have hown : Follows (some (arrayIssues items s path)) []
        (WithinLimits s (js "minItems") (js "maxItems") items.length ∧
          ((schemaAt s (js "uniqueItems")).isSome → (items.map canonicalJson).Nodup)) :=
      follows_some _ arrayIssues_eq_nil
    unfold itemIssues
    cases schemaAt s (js "items") with
    | none => exact (follows_append hown follows_nil).congr (by simp)
    | some child =>
      have hitems := follows_each items.zipIdx
        (fun e _ => h.follows (.json e.1) child (path ++ js "[" ++ natText e.2 ++ js "]") refStack)
      have hcalls : items.zipIdx.flatMap (fun e => [R (.json e.1) child refStack]) =
          (items.map (fun x => (JsValue.json x, child))).map (fun c => R c.1 c.2 refStack) := by
        rw [← List.map_eq_flatMap, List.map_map]
        conv_rhs => rw [← List.zipIdx_map_fst 0 items, List.map_map]
        rfl
      rw [hcalls] at hitems
      exact (follows_append hown hitems).congr (by simp)

omit [NumberValue N] in
lemma follows_propertyIssues (h : HasVerdict call R) :
    Follows (propertyIssues call value s path refStack)
      (((schemaEntries s (js "properties")).filterMap
        (fun e => (property value e.1).map (fun x => (x, e.2)))).map
          (fun c : JsValue N × Json N => R c.1 c.2 refStack)) True := by
  have heach : Follows (propertyIssues call value s path refStack)
      ((schemaEntries s (js "properties")).flatMap
        (fun e => ((property value e.1).map (fun x => R x e.2 refStack)).toList))
      (∀ e ∈ schemaEntries s (js "properties"), True) := by
    refine follows_each _ (fun e _ => ?_)
    cases property value e.1 with
    | none => exact follows_nil
    | some x => exact h.follows x e.2 (path ++ js "." ++ e.1) refStack
  rw [List.map_filterMap, List.filterMap_eq_flatMap_toList]
  simp only [Option.map_map, Function.comp_def]
  exact heach.congr (by simp)

omit [NumberValue N] in
lemma follows_patternIssues (record : List (JsString × Json N)) (h : HasVerdict call R) :
    Follows (patternIssues P call record s path refStack)
      (((schemaEntries s (js "patternProperties")).flatMap
        (fun e => (record.filter (fun m => P.test e.1 m.1)).map
          (fun m => (JsValue.json m.2, e.2)))).map
            (fun c : JsValue N × Json N => R c.1 c.2 refStack)) True := by
  have heach := follows_each (schemaEntries s (js "patternProperties"))
    (fun e _ => follows_each (record.filter (fun m => P.test e.1 m.1))
      (fun m _ => h.follows (.json m.2) e.2 (path ++ js "." ++ m.1) refStack))
  simp only [← List.map_eq_flatMap] at heach
  rw [List.map_flatMap]
  simp only [List.map_map, Function.comp_def]
  exact heach.congr (by simp)

omit [NumberValue N] in
lemma follows_additionalIssues (record : List (JsString × Json N)) (h : HasVerdict call R) :
    Follows (additionalIssues P options call record s path refStack)
      (((record.filter (fun m => !isNamed P s m.1)).flatMap
        (fun m => ((additionalSchema s).map (fun c => (JsValue.json m.2, c))).toList)).map
          (fun c : JsValue N × Json N => R c.1 c.2 refStack))
      (∀ m ∈ record, isNamed P s m.1 = false → isClosed s = true →
        options.mode = some .tolerantReader) := by
  have hclosed : ∀ path, Follows (some (closedIssues options s path)) []
      (isClosed s = true → options.mode = some .tolerantReader) := by
    intro path
    apply follows_some
    unfold closedIssues
    split_ifs with h <;> simp_all
  have hvalue : ∀ (x : Json N) path, Follows (additionalValueIssues call x s path refStack)
      ((additionalSchema s).map (fun c => R (.json x) c refStack)).toList True := by
    intro x path
    unfold additionalValueIssues
    cases additionalSchema s with
    | none => exact follows_nil
    | some c => exact h.follows (.json x) c path refStack
  have heach := follows_each (record.filter (fun m => !isNamed P s m.1))
    (fun m _ => follows_append (hclosed (path ++ js "." ++ m.1))
      (hvalue m.2 (path ++ js "." ++ m.1)))
  have hcalls : (record.filter (fun m => !isNamed P s m.1)).flatMap
      (fun m => [] ++ ((additionalSchema s).map (fun c => R (.json m.2) c refStack)).toList) =
      ((record.filter (fun m => !isNamed P s m.1)).flatMap
        (fun m => ((additionalSchema s).map (fun c => (JsValue.json m.2, c))).toList)).map
          (fun c : JsValue N × Json N => R c.1 c.2 refStack) := by
    rw [List.map_flatMap]
    cases additionalSchema s <;> rfl
  rw [hcalls] at heach
  exact heach.congr (by simp)

omit [NumberValue N] in
lemma follows_validateObject (h : HasVerdict call R) :
    Follows (validateObject P options call value s path refStack)
      ((memberCalls P value s).map (fun c : JsValue N × Json N => R c.1 c.2 refStack))
      (∀ record, asObject value = some record →
        (∀ k ∈ requiredOf s, (property value k).isSome) ∧
        ∀ m ∈ record, isNamed P s m.1 = false → isClosed s = true →
          options.mode = some .tolerantReader) := by
  unfold validateObject memberCalls
  cases asObject value with
  | none => exact follows_nil.congr (by simp)
  | some record =>
    have hrequired : Follows (some (requiredIssues value s path)) []
        (∀ k ∈ requiredOf s, (property value k).isSome) :=
      follows_some _ requiredIssues_eq_nil
    have hrequired := follows_append hrequired
      (follows_propertyIssues value s path refStack h)
    have hpatterns := follows_append hrequired
      (follows_patternIssues P s path refStack record h)
    have hall := follows_append hpatterns
      (follows_additionalIssues P options s path refStack record h)
    simp only [Option.bind_eq_bind, Option.bind_some, List.nil_append, List.map_append] at hall ⊢
    have hassoc : ((propertyIssues call value s path refStack).bind fun b =>
        some (requiredIssues value s path ++ b)).bind (fun a =>
          (patternIssues P call record s path refStack).bind fun b => some (a ++ b)) =
        (propertyIssues call value s path refStack).bind (fun properties =>
          (patternIssues P call record s path refStack).bind (fun patterns =>
            some (requiredIssues value s path ++ properties ++ patterns))) := by
      rw [Option.bind_assoc]
      rfl
    rw [hassoc] at hall
    simp only [Option.bind_assoc, Option.bind_some] at hall
    exact hall.congr (by simp)

/-- The facts that `validate` checks by itself, in its order, when the type is right. -/
lemma valueConforms_iff {mode : Option SchemaValidationMode}
    (htype : ∀ type, schemaAt s (js "type") = some type → matchesType value type = true) :
    ((((∀ j, field (js "const") s = some j → sameJson value j = true) ∧
        ∀ items, schemaList s (js "enum") = some items → ∃ j ∈ items, sameJson value j = true) ∧
      (∀ t, asText value = some t → TextConforms P t s) ∧
        ∀ n, asNumber value = some n →
          WithinLimits s (js "minimum") (js "maximum") (NumberValue.toRat n)) ∧
      ∀ items, asArray value = some items →
        WithinLimits s (js "minItems") (js "maxItems") items.length ∧
          ((schemaAt s (js "uniqueItems")).isSome → (items.map canonicalJson).Nodup)) ∧
      (∀ record, asObject value = some record →
        (∀ k ∈ requiredOf s, (property value k).isSome) ∧
        ∀ m ∈ record, isNamed P s m.1 = false → isClosed s = true →
          mode = some .tolerantReader) ↔
      ValueConforms P mode value s := by
  constructor
  · rintro ⟨⟨⟨⟨hconst, henum⟩, htext, hnumber⟩, harray⟩, hobject⟩
    exact {
      const := hconst
      enum := henum
      type := htype
      text := htext
      number := hnumber
      count := fun items hi => (harray items hi).1
      unique := fun items hi => (harray items hi).2
      required := fun hsome => by
        obtain ⟨record, hr⟩ := Option.isSome_iff_exists.mp hsome
        exact (hobject record hr).1
      closed := fun record hr => (hobject record hr).2 }
  · intro h
    exact ⟨⟨⟨⟨h.const, h.enum⟩, h.text, h.number⟩,
      fun items hi => ⟨h.count items hi, h.unique items hi⟩⟩,
      fun record hr => ⟨h.required (by simp [hr]), h.closed record hr⟩⟩

/-- One call of `validate` on a schema without `$ref`. -/
lemma follows_keywordIssues (h : HasVerdict call R) :
    Follows (keywordIssues P options call value s path refStack)
      (consulted P options R value s refStack) (ValueConforms P options.mode value s) := by
  have hconditional :=
    follows_conditionalIssues options value s path refStack h
  have hall := follows_append hconditional
    (follows_allOfIssues value s path refStack h)
  have hany := follows_append hall
    (follows_anyOfIssues options value s path h)
  have hone := follows_append hany
    (follows_oneOfIssues options value s path h)
  have hhead := follows_append hone (follows_some
    (constIssues value s path ++ enumIssues value s path)
    (by rw [List.append_eq_nil_iff, constIssues_eq_nil, enumIssues_eq_nil]))
  unfold keywordIssues consulted partCalls
  cases htype : (schemaAt s (js "type")).filter (fun type => !matchesType value type) with
  | some type =>
    obtain ⟨htype, hmismatch⟩ := Option.filter_eq_some_iff.mp htype
    have hholds : typeHolds value s = false := by simpa [typeHolds, htype] using hmismatch
    have hissue := follows_append hhead (follows_some (p := False)
      [⟨path, js "must be " ++ typeText type, js "type"⟩] (by simp))
    have hnot : ¬ ValueConforms P options.mode value s := by
      intro hvalue
      simp [hvalue.type type htype] at hmismatch
    simp only [Option.bind_eq_bind, Option.bind_assoc, Option.bind_some, List.append_assoc] at hissue ⊢
    simpa [hholds, hnot] using hissue
  | none =>
    have htype' : ∀ type, schemaAt s (js "type") = some type → matchesType value type = true := by
      simpa using htype
    have hholds : typeHolds value s = true := by
      rw [typeHolds, Option.all_eq_true]
      exact htype'
    have htext : ((asText value).map (validateString P · s path)).getD [] = [] ↔
        ∀ t, asText value = some t → TextConforms P t s := by
      cases asText value <;> simp [validateString_eq_nil]
    have hnumber : ((asNumber value).map (validateNumber · s path)).getD [] = [] ↔
        ∀ n, asNumber value = some n →
          WithinLimits s (js "minimum") (js "maximum") (NumberValue.toRat n) := by
      cases asNumber value <;> simp [validateNumber_eq_nil]
    have hscalar := follows_append hhead (follows_some
      (((asText value).map (validateString P · s path)).getD [] ++
        ((asNumber value).map (validateNumber · s path)).getD [])
      (by rw [List.append_eq_nil_iff, htext, hnumber]))
    have harray := follows_append hscalar
      (follows_validateArray value s path refStack h)
    have hobject := follows_append harray
      (follows_validateObject P options value s path refStack h)
    simp only [Option.bind_eq_bind, Option.bind_assoc, Option.bind_some, List.append_assoc,
      hholds, if_true, List.map_append] at hobject ⊢
    refine Follows.congr ?_ (valueConforms_iff P value s htype')
    simpa using hobject

variable {P options}

lemma hasVerdict_validateWith (h : HasVerdict call R) :
    HasVerdict (validateWith P options call) (verdictWith P options R) := by
  intro value s path refStack
  unfold validateWith verdictWith
  cases refOf s with
  | some ref =>
    simp only [refIssues]
    split_ifs with hmem
    · rfl
    · cases (resolveRef ref options.rootSchema).filter truthy with
      | none => rfl
      | some resolved => exact h value (asSchema resolved) path (insert ref refStack)
  | none => exact follows_keywordIssues P options value s path refStack h

lemma hasVerdict_validateAt (n : ℕ) :
    HasVerdict (validateAt P options n) (verdictAt P options n) := by
  induction n with
  | zero =>
    intro value s path refStack
    rfl
  | succ n ih => exact hasVerdict_validateWith ih

end Agreement

section Settles

variable [NumberValue N] {P : Platform} {options : ResolvedOptions N} {value : JsValue N}
  {s : Json N} {refStack : Finset JsString} {b : Bool}

lemma verdictAt_mono {n m : ℕ} (h : n ≤ m)
    (hb : verdictAt P options n value s refStack = some b) :
    verdictAt P options m value s refStack = some b := by
  rw [← hasVerdict_validateAt n value s (js "$") refStack] at hb
  rw [← hasVerdict_validateAt m value s (js "$") refStack]
  exact (below_validateAt h value s (js "$") refStack).map _ b hb

/-- `validate` returns, with this verdict. -/
def Settles (P : Platform) (options : ResolvedOptions N) (value : JsValue N) (s : Json N)
    (refStack : Finset JsString) (b : Bool) : Prop :=
  ∃ n, verdictAt P options n value s refStack = some b

lemma Settles.unique {b' : Bool} (h : Settles P options value s refStack b)
    (h' : Settles P options value s refStack b') : b = b' := by
  obtain ⟨n, hn⟩ := h
  obtain ⟨n', hn'⟩ := h'
  have hmax := verdictAt_mono (le_max_left n n') hn
  rw [verdictAt_mono (le_max_right n n') hn'] at hmax
  exact (Option.some.inj hmax).symm

/-- `validateJsonSchema` returns no issue: the schema is in order and the value is accepted. -/
lemma returns_nil_iff {options : ValidateJsonSchemaOptions N} {schema : Json N} :
    Returns P value schema options [] ↔
      WellDefined (options.resolve schema).enforceClassification schema ∧
        Settles P (options.resolve schema) value schema ∅ true := by
  have hstep : ∀ n, validateJsonSchema P n value schema options = some [] ↔
      WellDefined (options.resolve schema).enforceClassification schema ∧
        verdictAt P (options.resolve schema) n value schema ∅ = some true := by
    intro n
    rw [validateJsonSchema, ← hasVerdict_validateAt n value schema (js "$") ∅, verdict, WellDefined,
      Option.map_eq_some_iff, Option.map_eq_some_iff]
    simp only [List.append_eq_nil_iff, List.isEmpty_iff]
    constructor
    · rintro ⟨issues, hissues, hdef, rfl⟩
      exact ⟨hdef, [], hissues, rfl⟩
    · rintro ⟨hdef, issues, hissues, rfl⟩
      exact ⟨[], hissues, hdef, rfl⟩
  constructor
  · rintro ⟨n, hn⟩
    obtain ⟨hdef, hverdict⟩ := (hstep n).mp (hn n le_rfl)
    exact ⟨hdef, n, hverdict⟩
  · rintro ⟨hdef, n, hverdict⟩
    exact returns_of_eq_some ((hstep n).mpr ⟨hdef, hverdict⟩)

/-- A schema without `$ref` accepts a value only if the value conforms by itself. -/
lemma Settles.valueConforms (h : Settles P options value s refStack true) (href : refOf s = none) :
    ValueConforms P options.mode value s := by
  obtain ⟨n, hn⟩ := h
  cases n with
  | zero => cases hn
  | succ n =>
    rw [verdictAt, verdictWith, href] at hn
    simpa using allTrue_eq_true.mp hn _ (List.mem_cons_self)

end Settles

end Appspine.JsonSchema
