import Appspine.JsonSchema

/-!
# The validator

`validate` with the calls it makes as a parameter, and that parameter filled in to
a given depth. `none` is a call whose depth was used up; a result stays the same at
every greater depth.
-/
namespace Appspine.JsonSchema
open JsText Utf16 JsonText InsertionMap

variable {N : Type}

section Options

inductive SchemaValidationMode where
  | strict
  | tolerantReader
  | providerCompatible
  deriving DecidableEq

structure ValidateJsonSchemaOptions (N : Type) where
  mode : Option SchemaValidationMode
  rootSchema : Option (Json N)
  enforceClassification : Option Bool

/-- The options every call inside one validation works with. -/
structure ResolvedOptions (N : Type) where
  mode : Option SchemaValidationMode
  rootSchema : Json N
  enforceClassification : Bool

def ValidateJsonSchemaOptions.resolve (options : ValidateJsonSchemaOptions N) (schema : Json N) :
    ResolvedOptions N where
  mode := options.mode
  rootSchema := options.rootSchema.getD schema
  enforceClassification := decide (options.enforceClassification ≠ some false)

/-- What the validator takes from the language's library. -/
structure Platform where
  /-- `new RegExp(pattern, 'u').test(text)`. -/
  test : JsString → JsString → Bool
  /-- `new URL(text)` does not throw. -/
  isUrl : JsString → Bool

end Options

section References

/-- `part.replaceAll('~1', '/').replaceAll('~0', '~')`, one of the two. -/
def replaceEscape (digit character : CodeUnit) : JsString → JsString
  | [] => []
  | [u] => [u]
  | u :: v :: us =>
    if u = unit '~' ∧ v = digit then character :: replaceEscape digit character us
    else u :: replaceEscape digit character (v :: us)

variable [NumberValue N]

/-- One step of the walk through the root schema. -/
def walkPart (value : JsValue N) (part : JsString) : Option (JsValue N) :=
  if truthy value = true ∧ typeOf value = js "object" then
    property value (replaceEscape (unit '0') (unit '~') (replaceEscape (unit '1') (unit '/') part))
  else none

def resolveRef (ref : JsString) (root : Json N) : Option (JsValue N) :=
  if startsWith ref (js "#/") then
    ((ref.drop 2).splitOn (unit '/')).foldl (fun value part => value.bind (walkPart · part))
      (some (.json root))
  else none

/-- What is not a JSON value has none of the keywords. -/
def asSchema : JsValue N → Json N
  | .json j => j
  | _ => .obj []

end References

section Keywords

/-- `[...text].length`. -/
def codePoints : JsString → ℕ
  | [] => 0
  | [_] => 1
  | u :: v :: us => if isHigh u && isLow v then codePoints us + 1 else codePoints (v :: us) + 1

variable [NumberValue N]

/-- `schema[keyword] !== undefined && value < schema[keyword]`. -/
def belowLimit (s : Json N) (keyword : JsString) (value : ℚ) : Option N :=
  (schemaNumber s keyword).filter (fun n => value < NumberValue.toRat n)

/-- `schema[keyword] !== undefined && value > schema[keyword]`. -/
def aboveLimit (s : Json N) (keyword : JsString) (value : ℚ) : Option N :=
  (schemaNumber s keyword).filter (fun n => NumberValue.toRat n < value)

/-- The issue of a broken limit, with the limit in its message. -/
def limitIssue (path before after keyword : JsString) (limit : Option N) : List Issue :=
  (limit.map (fun n => Issue.mk path (before ++ JsonNumber.text n ++ after) keyword)).toList

def stringPatternIssues (P : Platform) (value : JsString) (s : Json N) (path : JsString) :
    List Issue :=
  match schemaText s (js "pattern") with
  | none => []
  | some pattern =>
    if pattern = [] ∨ P.test pattern value = true then []
    else [⟨path, js "does not match pattern", js "pattern"⟩]

def validateString (P : Platform) (value : JsString) (s : Json N) (path : JsString) : List Issue :=
  limitIssue path (js "must have at least ") (js " characters") (js "minLength")
    (belowLimit s (js "minLength") (codePoints value)) ++
  limitIssue path (js "must have at most ") (js " characters") (js "maxLength")
    (aboveLimit s (js "maxLength") (codePoints value)) ++
  stringPatternIssues P value s path ++
  (if schemaText s (js "format") = some (js "date-time") ∧
      Rfc3339.isRfc3339DateTime value = false then
    [⟨path, js "must be an RFC 3339 date-time", js "format"⟩] else []) ++
  (if schemaText s (js "format") = some (js "uri") ∧ P.isUrl value = false then
    [⟨path, js "must be a valid URI", js "format"⟩] else [])

def validateNumber (value : N) (s : Json N) (path : JsString) : List Issue :=
  limitIssue path (js "must be >= ") [] (js "minimum")
    (belowLimit s (js "minimum") (NumberValue.toRat value)) ++
  limitIssue path (js "must be <= ") [] (js "maximum")
    (aboveLimit s (js "maximum") (NumberValue.toRat value))

/-- One candidate of `matchesType`. -/
def matchesCandidate (value : JsValue N) (candidate : Json N) : Bool :=
  match candidate with
  | .str type =>
    if type = js "null" then (match value with | .json .null => true | _ => false)
    else if type = js "array" then (asArray value).isSome
    else if type = js "object" then (asObject value).isSome
    else if type = js "integer" then isInteger value
    else decide (typeOf value = type)
  | _ => false

def matchesType (value : JsValue N) (type : Json N) : Bool :=
  (typeList type).any (matchesCandidate value)

/-- `Array.isArray(schema.type) ? schema.type.join(' or ') : schema.type`. -/
def typeText : Json N → JsString
  | .arr items => join (js " or ") (joinable items)
  | j => stringOf j

def constIssues (value : JsValue N) (s : Json N) (path : JsString) : List Issue :=
  match field (js "const") s with
  | some j => if sameJson value j then [] else [⟨path, js "does not match const", js "const"⟩]
  | none => []

def enumIssues (value : JsValue N) (s : Json N) (path : JsString) : List Issue :=
  match schemaList s (js "enum") with
  | some items =>
    if items.any (sameJson value) then []
    else [⟨path, js "is not an allowed enum value", js "enum"⟩]
  | none => []

/-- The item counts and `uniqueItems`. -/
def arrayIssues (items : List (Json N)) (s : Json N) (path : JsString) : List Issue :=
  limitIssue path (js "must contain at least ") (js " items") (js "minItems")
    (belowLimit s (js "minItems") items.length) ++
  limitIssue path (js "must contain at most ") (js " items") (js "maxItems")
    (aboveLimit s (js "maxItems") items.length) ++
  (if (schemaAt s (js "uniqueItems")).isSome ∧ ¬ (items.map canonicalJson).Nodup then
    [⟨path, js "must contain unique items", js "uniqueItems"⟩] else [])

def requiredIssues (value : JsValue N) (s : Json N) (path : JsString) : List Issue :=
  ((requiredOf s).filter (fun required => (property value required).isNone)).map
    (fun required => ⟨path ++ js "." ++ required, js "is required", js "required"⟩)

/-- `key in (schema.properties ?? {})`. -/
def inProperties (s : Json N) (key : JsString) : Bool :=
  match field (js "properties") s with
  | none => (objectInherited key : Option (JsValue N)).isSome
  | some .null => (objectInherited key : Option (JsValue N)).isSome
  | some properties => (property (.json properties) key).isSome

/-- Keys that `additionalProperties` leaves alone. -/
def isNamed (P : Platform) (s : Json N) (key : JsString) : Bool :=
  inProperties s key ||
    (schemaEntries s (js "patternProperties")).any (fun e => P.test e.1 key)

def closedIssues (options : ResolvedOptions N) (s : Json N) (path : JsString) : List Issue :=
  if isClosed s = true ∧ options.mode ≠ some .tolerantReader then
    [⟨path, js "is not allowed", js "additionalProperties"⟩]
  else []

end Keywords

section Sequencing

variable {α : Type}

/-- The issues of one call after another. -/
def each (f : α → Option (List Issue)) : List α → Option (List Issue)
  | [] => some []
  | x :: xs => do
    let head ← f x
    let rest ← each f xs
    some (head ++ rest)

/-- `list.some(f)`, which stops at the first element that passes. -/
def someCall (f : α → Option Bool) : List α → Option Bool
  | [] => some false
  | x :: xs => do
    let b ← f x
    if b then some true else someCall f xs

/-- `list.filter(f).length`. -/
def countCalls (f : α → Option Bool) : List α → Option ℕ
  | [] => some 0
  | x :: xs => do
    let b ← f x
    let n ← countCalls f xs
    some (if b then n + 1 else n)

end Sequencing

section Validate

/-- A call of `validate`: value, schema, path and the references followed to it. -/
abbrev ValidateCall (N : Type) :=
  JsValue N → Json N → JsString → Finset JsString → Option (List Issue)

variable [NumberValue N] (P : Platform) (options : ResolvedOptions N) (call : ValidateCall N)

/-- `validateWithoutIssues`: a validation of its own, with no reference followed yet. -/
def withoutIssues (value : JsValue N) (s : Json N) : Option Bool :=
  (call value s (js "$") ∅).map (fun issues =>
    (definitionIssues options.enforceClassification s (js "$") ++ issues).isEmpty)

def refIssues (value : JsValue N) (ref path : JsString) (refStack : Finset JsString) :
    Option (List Issue) :=
  if ref ∈ refStack then
    some [⟨path, js "recursive $ref is not resolvable: " ++ ref, js "$ref"⟩]
  else
    match (resolveRef ref options.rootSchema).filter truthy with
    | none => some [⟨path, js "unresolved $ref " ++ ref, js "$ref"⟩]
    | some resolved => call value (asSchema resolved) path (insert ref refStack)

def conditionalIssues (value : JsValue N) (s : Json N) (path : JsString)
    (refStack : Finset JsString) : Option (List Issue) :=
  match schemaAt s (js "if") with
  | none => some []
  | some condition => do
    let holds ← withoutIssues options call value condition
    match schemaAt s (if holds then js "then" else js "else") with
    | none => some []
    | some branch => call value branch path refStack

def allOfIssues (value : JsValue N) (s : Json N) (path : JsString)
    (refStack : Finset JsString) : Option (List Issue) :=
  each (fun child => call value child path refStack) ((schemaList s (js "allOf")).getD [])

def anyOfIssues (value : JsValue N) (s : Json N) (path : JsString) : Option (List Issue) :=
  match schemaList s (js "anyOf") with
  | none => some []
  | some children => do
    let found ← someCall (withoutIssues options call value) children
    some (if found then [] else [⟨path, js "does not match anyOf", js "anyOf"⟩])

def oneOfIssues (value : JsValue N) (s : Json N) (path : JsString) : Option (List Issue) :=
  match schemaList s (js "oneOf") with
  | none => some []
  | some children => do
    let n ← countCalls (withoutIssues options call value) children
    some (if n = 1 then [] else [⟨path, js "does not match exactly one oneOf schema", js "oneOf"⟩])

def itemIssues (items : List (Json N)) (s : Json N) (path : JsString)
    (refStack : Finset JsString) : Option (List Issue) :=
  match schemaAt s (js "items") with
  | none => some []
  | some child =>
    each (fun e => call (.json e.1) child (path ++ js "[" ++ natText e.2 ++ js "]") refStack)
      items.zipIdx

def validateArray (value : JsValue N) (s : Json N) (path : JsString)
    (refStack : Finset JsString) : Option (List Issue) :=
  match asArray value with
  | none => some []
  | some items => do
    let below ← itemIssues call items s path refStack
    some (arrayIssues items s path ++ below)

def propertyIssues (value : JsValue N) (s : Json N) (path : JsString)
    (refStack : Finset JsString) : Option (List Issue) :=
  each (fun e =>
      match property value e.1 with
      | none => some []
      | some x => call x e.2 (path ++ js "." ++ e.1) refStack)
    (schemaEntries s (js "properties"))

def patternIssues (record : List (JsString × Json N)) (s : Json N) (path : JsString)
    (refStack : Finset JsString) : Option (List Issue) :=
  each (fun e =>
      each (fun m => call (.json m.2) e.2 (path ++ js "." ++ m.1) refStack)
        (record.filter (fun m => P.test e.1 m.1)))
    (schemaEntries s (js "patternProperties"))

/-- `additionalProperties` as a schema, on one value. -/
def additionalValueIssues (value : Json N) (s : Json N) (path : JsString)
    (refStack : Finset JsString) : Option (List Issue) :=
  match additionalSchema s with
  | none => some []
  | some child => call (.json value) child path refStack

def additionalIssues (record : List (JsString × Json N)) (s : Json N) (path : JsString)
    (refStack : Finset JsString) : Option (List Issue) :=
  each (fun m => do
      let below ← additionalValueIssues call m.2 s (path ++ js "." ++ m.1) refStack
      some (closedIssues options s (path ++ js "." ++ m.1) ++ below))
    (record.filter (fun m => !isNamed P s m.1))

def validateObject (value : JsValue N) (s : Json N) (path : JsString)
    (refStack : Finset JsString) : Option (List Issue) :=
  match asObject value with
  | none => some []
  | some record => do
    let properties ← propertyIssues call value s path refStack
    let patterns ← patternIssues P call record s path refStack
    let additional ← additionalIssues P options call record s path refStack
    some (requiredIssues value s path ++ properties ++ patterns ++ additional)

/-- The keywords of a schema without `$ref`. -/
def keywordIssues (value : JsValue N) (s : Json N) (path : JsString)
    (refStack : Finset JsString) : Option (List Issue) := do
  let conditional ← conditionalIssues options call value s path refStack
  let all ← allOfIssues call value s path refStack
  let any ← anyOfIssues options call value s path
  let one ← oneOfIssues options call value s path
  let head := conditional ++ all ++ any ++ one ++ constIssues value s path ++ enumIssues value s path
  match (schemaAt s (js "type")).filter (fun type => !matchesType value type) with
  | some type => some (head ++ [⟨path, js "must be " ++ typeText type, js "type"⟩])
  | none => do
    let array ← validateArray call value s path refStack
    let object ← validateObject P options call value s path refStack
    some (head ++ ((asText value).map (validateString P · s path)).getD [] ++
      ((asNumber value).map (validateNumber · s path)).getD [] ++ array ++ object)

/-- `validate`. -/
def validateWith : ValidateCall N := fun value s path refStack =>
  match refOf s with
  | some ref => refIssues options call value ref path refStack
  | none => keywordIssues P options call value s path refStack

/-- `validate` with at most `n` calls inside one another. -/
def validateAt : ℕ → ValidateCall N
  | 0 => fun _ _ _ _ => none
  | n + 1 => validateWith P options (validateAt n)

end Validate

section ValidateJsonSchema

variable [NumberValue N]

def validateJsonSchema (P : Platform) (n : ℕ) (value : JsValue N) (schema : Json N)
    (options : ValidateJsonSchemaOptions N) : Option (List Issue) :=
  (validateAt P (options.resolve schema) n value schema (js "$") ∅).map (fun issues =>
    definitionIssues (options.resolve schema).enforceClassification schema (js "$") ++ issues)

/-- The error `assertJsonSchema` throws, when there is an issue. -/
def assertMessage (issues : List Issue) : Option JsString :=
  if issues = [] then none
  else some (js "Schema validation failed: " ++
    join (js "; ") (issues.map (fun issue => issue.path ++ js " " ++ issue.message)))

end ValidateJsonSchema

section Depth

/-- A result of the first is the result of the second. -/
def Below {α : Type} (r r' : Option α) : Prop := ∀ x, r = some x → r' = some x

variable {α β : Type}

lemma Below.refl (r : Option α) : Below r r := fun _ h => h

lemma Below.bind {r r' : Option α} {f f' : α → Option β} (h : Below r r')
    (hf : ∀ a, Below (f a) (f' a)) : Below (r.bind f) (r'.bind f') := by
  intro b hb
  obtain ⟨a, ha, hfa⟩ := Option.bind_eq_some_iff.mp hb
  exact Option.bind_eq_some_iff.mpr ⟨a, h a ha, hf a b hfa⟩

lemma Below.map {r r' : Option α} (f : α → β) (h : Below r r') : Below (r.map f) (r'.map f) := by
  intro b hb
  obtain ⟨a, ha, rfl⟩ := Option.map_eq_some_iff.mp hb
  rw [h a ha, Option.map_some]

lemma below_each {f f' : α → Option (List Issue)} (h : ∀ a, Below (f a) (f' a)) (xs : List α) :
    Below (each f xs) (each f' xs) := by
  induction xs with
  | nil => exact Below.refl _
  | cons x xs ih => exact (h x).bind (fun _ => ih.bind (fun _ => Below.refl _))

lemma below_someCall {f f' : α → Option Bool} (h : ∀ a, Below (f a) (f' a)) (xs : List α) :
    Below (someCall f xs) (someCall f' xs) := by
  induction xs with
  | nil => exact Below.refl _
  | cons x xs ih =>
    refine (h x).bind (fun b => ?_)
    cases b with
    | true => exact Below.refl _
    | false => exact ih

lemma below_countCalls {f f' : α → Option Bool} (h : ∀ a, Below (f a) (f' a)) (xs : List α) :
    Below (countCalls f xs) (countCalls f' xs) := by
  induction xs with
  | nil => exact Below.refl _
  | cons x xs ih => exact (h x).bind (fun _ => ih.bind (fun _ => Below.refl _))

variable [NumberValue N] {P : Platform} {options : ResolvedOptions N} {call call' : ValidateCall N}

lemma below_withoutIssues
    (h : ∀ value s path refStack, Below (call value s path refStack) (call' value s path refStack))
    (value : JsValue N) (s : Json N) :
    Below (withoutIssues options call value s) (withoutIssues options call' value s) :=
  (h value s _ _).map _

lemma below_conditionalIssues
    (h : ∀ value s path refStack, Below (call value s path refStack) (call' value s path refStack))
    (value : JsValue N) (s : Json N) (path : JsString) (refStack : Finset JsString) :
    Below (conditionalIssues options call value s path refStack)
      (conditionalIssues options call' value s path refStack) := by
  unfold conditionalIssues
  cases schemaAt s (js "if") with
  | none => exact Below.refl _
  | some condition =>
    refine (below_withoutIssues h value condition).bind (fun holds => ?_)
    cases schemaAt s (if holds then js "then" else js "else") with
    | none => exact Below.refl _
    | some branch => exact h _ _ _ _

lemma below_anyOfIssues
    (h : ∀ value s path refStack, Below (call value s path refStack) (call' value s path refStack))
    (value : JsValue N) (s : Json N) (path : JsString) :
    Below (anyOfIssues options call value s path) (anyOfIssues options call' value s path) := by
  unfold anyOfIssues
  cases schemaList s (js "anyOf") with
  | none => exact Below.refl _
  | some children =>
    exact (below_someCall (below_withoutIssues h value) children).bind (fun _ => Below.refl _)

lemma below_oneOfIssues
    (h : ∀ value s path refStack, Below (call value s path refStack) (call' value s path refStack))
    (value : JsValue N) (s : Json N) (path : JsString) :
    Below (oneOfIssues options call value s path) (oneOfIssues options call' value s path) := by
  unfold oneOfIssues
  cases schemaList s (js "oneOf") with
  | none => exact Below.refl _
  | some children =>
    exact (below_countCalls (below_withoutIssues h value) children).bind (fun _ => Below.refl _)

lemma below_validateArray
    (h : ∀ value s path refStack, Below (call value s path refStack) (call' value s path refStack))
    (value : JsValue N) (s : Json N) (path : JsString) (refStack : Finset JsString) :
    Below (validateArray call value s path refStack) (validateArray call' value s path refStack) := by
  unfold validateArray
  cases asArray value with
  | none => exact Below.refl _
  | some items =>
    refine Below.bind ?_ (fun _ => Below.refl _)
    unfold itemIssues
    cases schemaAt s (js "items") with
    | none => exact Below.refl _
    | some child => exact below_each (fun _ => h _ _ _ _) _

omit [NumberValue N] in
lemma below_additionalValueIssues
    (h : ∀ value s path refStack, Below (call value s path refStack) (call' value s path refStack))
    (value s : Json N) (path : JsString) (refStack : Finset JsString) :
    Below (additionalValueIssues call value s path refStack)
      (additionalValueIssues call' value s path refStack) := by
  unfold additionalValueIssues
  cases additionalSchema s with
  | none => exact Below.refl _
  | some child => exact h _ _ _ _

omit [NumberValue N] in
lemma below_validateObject
    (h : ∀ value s path refStack, Below (call value s path refStack) (call' value s path refStack))
    (value : JsValue N) (s : Json N) (path : JsString) (refStack : Finset JsString) :
    Below (validateObject P options call value s path refStack)
      (validateObject P options call' value s path refStack) := by
  unfold validateObject
  cases asObject value with
  | none => exact Below.refl _
  | some record =>
    refine Below.bind (below_each (fun e => ?_) _) (fun _ =>
      (below_each (fun e => below_each (fun _ => h _ _ _ _) _) _).bind (fun _ =>
        (below_each (fun m => (below_additionalValueIssues h _ _ _ _).bind
          (fun _ => Below.refl _)) _).bind (fun _ => Below.refl _)))
    cases property value e.1 with
    | none => exact Below.refl _
    | some x => exact h _ _ _ _

/-- A call that returns more often makes `validate` return more often, with the same issues. -/
lemma below_validateWith
    (h : ∀ value s path refStack, Below (call value s path refStack) (call' value s path refStack))
    (value : JsValue N) (s : Json N) (path : JsString) (refStack : Finset JsString) :
    Below (validateWith P options call value s path refStack)
      (validateWith P options call' value s path refStack) := by
  unfold validateWith
  cases refOf s with
  | some ref =>
    simp only [refIssues]
    split_ifs with hmem
    · exact Below.refl _
    · cases (resolveRef ref options.rootSchema).filter truthy with
      | none => exact Below.refl _
      | some resolved => exact h _ _ _ _
  | none =>
    refine (below_conditionalIssues h _ _ _ _).bind (fun _ =>
      (below_each (fun _ => h _ _ _ _) _).bind (fun _ => (below_anyOfIssues h _ _ _).bind (fun _ =>
        (below_oneOfIssues h _ _ _).bind (fun _ => ?_))))
    cases (schemaAt s (js "type")).filter (fun type => !matchesType value type) with
    | some type => exact Below.refl _
    | none =>
      exact (below_validateArray h _ _ _ _).bind (fun _ =>
        (below_validateObject h _ _ _ _).bind (fun _ => Below.refl _))

lemma below_validateAt {n m : ℕ} (h : n ≤ m) (value : JsValue N) (s : Json N) (path : JsString)
    (refStack : Finset JsString) :
    Below (validateAt P options n value s path refStack)
      (validateAt P options m value s path refStack) := by
  induction n generalizing m value s path refStack with
  | zero => intro x hx; cases hx
  | succ n ih =>
    cases m with
    | zero => omega
    | succ m => exact below_validateWith (fun value s path refStack => ih (by omega) value s path refStack) _ _ _ _

/-- `validateJsonSchema` returns with these issues. -/
def Returns (P : Platform) (value : JsValue N) (schema : Json N)
    (options : ValidateJsonSchemaOptions N) (issues : List Issue) : Prop :=
  ∃ n, ∀ m, n ≤ m → validateJsonSchema P m value schema options = some issues

lemma returns_of_eq_some {n : ℕ} {value : JsValue N} {schema : Json N}
    {options : ValidateJsonSchemaOptions N} {issues : List Issue}
    (h : validateJsonSchema P n value schema options = some issues) :
    Returns P value schema options issues :=
  ⟨n, fun _ hm => (below_validateAt hm _ _ _ _).map _ issues h⟩

lemma Returns.unique {value : JsValue N} {schema : Json N} {options : ValidateJsonSchemaOptions N}
    {issues issues' : List Issue} (h : Returns P value schema options issues)
    (h' : Returns P value schema options issues') : issues = issues' := by
  obtain ⟨n, hn⟩ := h
  obtain ⟨n', hn'⟩ := h'
  exact Option.some.inj ((hn _ (le_max_left n n')).symm.trans (hn' _ (le_max_right n n')))

end Depth

end Appspine.JsonSchema
