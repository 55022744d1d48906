import Appspine.JsonSchema

/-!
# The schema checks of contract-cli and of the runtime

`validateJsonSchemaDocument` of contract-cli beside `validateSchemaDefinition` of the generated
validators, over every JSON document: keywords may hold values of any kind, and either check may
throw.
-/
namespace Appspine.ContractCli
open JsText JsonText InsertionMap JsonSchema

variable {N : Type}

section Comparison

/-- The numbers of the language but `NaN`. -/
abbrev Extended := WithBot (WithTop ℚ)

inductive Primitive where
  | text (s : JsString)
  | number (q : Extended)

variable [NumberValue N]

mutual

/-- `String(value)`; an object whose own `toString` is no function has none. -/
def textOf : Json N → Option JsString
  | .null => some (js "null")
  | .bool b => some (if b then js "true" else js "false")
  | .num n => some (JsonNumber.text n)
  | .str s => some s
  | .arr items => (itemTexts items).map (join (js ","))
  | .obj members =>
    if js "toString" ∈ keys members then none else some (js "[object Object]")

/-- What `join` takes from the items: `null` is the empty text. -/
def itemTexts : List (Json N) → Option (List JsString)
  | [] => some []
  | .null :: items => (itemTexts items).map ([] :: ·)
  | j :: items => (textOf j).bind fun text => (itemTexts items).map (text :: ·)

end

def toPrimitive : Json N → Option Primitive
  | .null => some (.number ((0 : ℚ) : Extended))
  | .bool b => some (.number ((if b then (1 : ℚ) else 0 : ℚ) : Extended))
  | .num n => some (.number ((NumberValue.toRat n : ℚ) : Extended))
  | .str s => some (.text s)
  | .arr items => (textOf (.arr items)).map .text
  | .obj members => (textOf (.obj members)).map .text

/-- `Number(text)`, `none` for `NaN`, is handed in. -/
def numeric (numberOfText : JsString → Option Extended) : Primitive → Option Extended
  | .text s => numberOfText s
  | .number q => some q

def isGreater (numberOfText : JsString → Option Extended) : Primitive → Primitive → Bool
  | .text s, .text t => decide (t < s)
  | x, y =>
    match numeric numberOfText x, numeric numberOfText y with
    | some p, some q => decide (q < p)
    | _, _ => false

/-- `low > high`; `none` when a value has no primitive. -/
def greater (numberOfText : JsString → Option Extended) (low high : Json N) : Option Bool :=
  (toPrimitive low).bind fun x => (toPrimitive high).map fun y => isGreater numberOfText x y

end Comparison

section Children

/-- `Object.entries` of a value that is not `null`. A text has its code units. -/
def ownEntries : Json N → List (JsString × Json N)
  | .str s => (s.zipIdx).map fun e => (natText e.2, .str [e.1])
  | j => entriesOf j

/-- `Object.entries(schema[keyword] ?? {})`. -/
def entriesAt (s : Json N) (keyword : JsString) : List (JsString × Json N) :=
  ((field keyword s).map ownEntries).getD []

/-- `schema[keyword] ?? []` as far as it has `entries()`. -/
def combination (s : Json N) (keyword : JsString) : Option (List (JsString × Json N)) :=
  let children (items : List (Json N)) := (items.zipIdx).map fun e =>
    (js "." ++ keyword ++ js "[" ++ natText e.2 ++ js "]", e.1)
  match field keyword s with
  | none => some []
  | some .null => some []
  | some (.arr items) => some (children items)
  | some _ => none

def namedChildren (s : Json N) : List (JsString × Json N) :=
  (entriesAt s (js "properties")).map (fun e => (js "." ++ e.1, e.2)) ++
    (entriesAt s (js "patternProperties")).map (fun e => (js ".\x7b" ++ e.1 ++ js "\x7d", e.2)) ++
    (entriesAt s (js "$defs")).map (fun e => (js ".$defs." ++ e.1, e.2))

def combinedChildren (s : Json N) : Option (List (JsString × Json N)) := do
  let allOf ← combination s (js "allOf")
  let anyOf ← combination s (js "anyOf")
  let oneOf ← combination s (js "oneOf")
  pure (allOf ++ anyOf ++ oneOf)

def additionalChild (s : Json N) : List (JsString × Json N) :=
  ((additionalSchema s).map fun child => (js ".additionalProperties", child)).toList

variable [NumberValue N]

def conditionalChildren (s : Json N) : List (JsString × Json N) :=
  oneChild s (js "if") ++ oneChild s (js "then") ++ oneChild s (js "else")

/-- The schemas that the runtime goes on to, in its order, with what each adds to the path. -/
def runtimeChildren (s : Json N) : Option (List (JsString × Json N)) :=
  (combinedChildren s).map fun combined => namedChildren s ++ combined ++
    oneChild s (js "items") ++ conditionalChildren s ++ additionalChild s

/-- The schemas that the CLI goes on to. -/
def cliChildren (s : Json N) : Option (List (JsString × Json N)) :=
  (combinedChildren s).map fun combined => namedChildren s ++ oneChild s (js "items") ++
    combined ++ conditionalChildren s ++ additionalChild s

omit [NumberValue N] in
lemma sizeOf_ownEntries_lt {j : Json N} {e : JsString × Json N} (h : e ∈ ownEntries j) :
    sizeOf e.2 < sizeOf j + 1 := by
  cases j with
  | str s =>
    obtain ⟨⟨u, i⟩, hu, rfl⟩ := List.mem_map.mp h
    have hmem := List.fst_mem_of_mem_zipIdx hu
    have hsize : sizeOf [u] ≤ sizeOf s := by
      clear h hu
      induction s with
      | nil => exact absurd hmem (List.not_mem_nil)
      | cons v vs ih =>
        rcases List.mem_cons.mp hmem with rfl | hmem
        · simp only [List.cons.sizeOf_spec]
          have hpos : 0 < sizeOf vs := by cases vs <;> simp
          have hnil : sizeOf ([] : List CodeUnit) = 1 := rfl
          omega
        · have hle := ih hmem
          simp only [List.cons.sizeOf_spec] at hle ⊢
          omega
    simp only [Json.str.sizeOf_spec]
    omega
  | _ => exact Nat.lt_succ_of_lt (sizeOf_entriesOf_lt h)

omit [NumberValue N] in
lemma sizeOf_entriesAt_lt {s : Json N} {k : JsString} {e : JsString × Json N}
    (h : e ∈ entriesAt s k) : sizeOf e.2 < sizeOf s := by
  unfold entriesAt at h
  cases hfield : field k s with
  | none => simp [hfield] at h
  | some j =>
    rw [hfield] at h
    have hown := sizeOf_ownEntries_lt h
    have hlt := sizeOf_field_lt hfield
    omega

omit [NumberValue N] in
lemma sizeOf_combination_lt {s : Json N} {k : JsString} {children : List (JsString × Json N)}
    (h : combination s k = some children) {e : JsString × Json N} (he : e ∈ children) :
    sizeOf e.2 < sizeOf s := by
  unfold combination at h
  simp only at h
  split at h
  · obtain rfl := Option.some.inj h
    exact absurd he List.not_mem_nil
  · obtain rfl := Option.some.inj h
    exact absurd he List.not_mem_nil
  · next items hfield =>
    obtain rfl := Option.some.inj h
    obtain ⟨⟨c, i⟩, hc, rfl⟩ := List.mem_map.mp he
    exact sizeOf_schemaList_lt (schemaList_eq_some.mpr hfield) (List.fst_mem_of_mem_zipIdx hc)
  · exact absurd h (by simp)

omit [NumberValue N] in
lemma sizeOf_combinedChildren_lt {s : Json N} {children : List (JsString × Json N)}
    (h : combinedChildren s = some children) {e : JsString × Json N} (he : e ∈ children) :
    sizeOf e.2 < sizeOf s := by
  unfold combinedChildren at h
  obtain ⟨allOf, hallOf, h⟩ := Option.bind_eq_some_iff.mp h
  obtain ⟨anyOf, hanyOf, h⟩ := Option.bind_eq_some_iff.mp h
  obtain ⟨oneOf, honeOf, h⟩ := Option.bind_eq_some_iff.mp h
  obtain rfl := Option.some.inj h
  simp only [List.mem_append, or_assoc] at he
  rcases he with he | he | he
  · exact sizeOf_combination_lt hallOf he
  · exact sizeOf_combination_lt hanyOf he
  · exact sizeOf_combination_lt honeOf he

lemma sizeOf_runtimeChildren_lt {s : Json N} {children : List (JsString × Json N)}
    (h : runtimeChildren s = some children) {e : JsString × Json N} (he : e ∈ children) :
    sizeOf e.2 < sizeOf s := by
  obtain ⟨combined, hcombined, rfl⟩ := Option.map_eq_some_iff.mp h
  simp only [namedChildren, conditionalChildren, additionalChild, List.mem_append, List.mem_map,
    Option.mem_toList, Option.map_eq_some_iff, or_assoc] at he
  rcases he with ⟨e', he, rfl⟩ | ⟨e', he, rfl⟩ | ⟨e', he, rfl⟩ | he | he | he | he | he |
    ⟨c, hc, rfl⟩
  iterate 3 exact sizeOf_entriesAt_lt (e := e') he
  · exact sizeOf_combinedChildren_lt hcombined he
  iterate 4 exact sizeOf_oneChild_lt he
  exact sizeOf_additionalSchema_lt hc

/-- Both go on to the same schemas. -/
lemma cliChildren_perm {s : Json N} {children : List (JsString × Json N)}
    (h : cliChildren s = some children) :
    ∃ children', runtimeChildren s = some children' ∧ children.Perm children' := by
  obtain ⟨combined, hcombined, rfl⟩ := Option.map_eq_some_iff.mp h
  refine ⟨_, Option.map_eq_some_iff.mpr ⟨combined, hcombined, rfl⟩, ?_⟩
  refine ((List.Perm.append_right _ ?_).append_right _)
  rw [List.append_assoc, List.append_assoc]
  exact List.perm_append_comm.append_left _

lemma sizeOf_cliChildren_lt {s : Json N} {children : List (JsString × Json N)}
    (h : cliChildren s = some children) {e : JsString × Json N} (he : e ∈ children) :
    sizeOf e.2 < sizeOf s := by
  obtain ⟨children', hchildren', hperm⟩ := cliChildren_perm h
  exact sizeOf_runtimeChildren_lt hchildren' (hperm.mem_iff.mp he)

end Children

section Cli

variable [NumberValue N]

/-- The keywords the CLI knows are those of the runtime. -/
def CLI_SCHEMA_KEYWORDS : List JsString := SUPPORTED_KEYWORDS

def cliKeywordErrors (place : JsString) (s : Json N) : List JsString :=
  (keys (entriesOf s)).flatMap fun keyword =>
    (if keyword ∈ CLI_SCHEMA_KEYWORDS then []
      else [place ++ js ": unsupported schema keyword " ++ keyword]) ++
    (if startsWith keyword (js "x-appspine-") ∧ keyword ≠ js "x-appspine-data-classification" then
      [place ++ js ": unknown Appspine schema keyword " ++ keyword]
      else [])

def cliClassificationErrors (place : JsString) (s : Json N) : List JsString :=
  match field (js "x-appspine-data-classification") s with
  | none => []
  | some classification =>
    (if asText (.json classification) = some (js "SECRET") then
      [place ++ js ": SECRET classification is forbidden"] else []) ++
    (if ∃ c ∈ [js "PUBLIC", js "INTERNAL", js "PERSONAL", js "SENSITIVE"],
        asText (.json classification) = some c then []
      else [place ++ js ": invalid data classification"])

def cliLeafErrors (place : JsString) (s : Json N) (children : List (JsString × Json N)) :
    List JsString :=
  if children = [] ∧ schemaAt s (js "$ref") = none ∧ schemaText s (js "type") ≠ some (js "object") ∧
      schemaText s (js "type") ≠ some (js "array") ∧
      field (js "x-appspine-data-classification") s = none then
    [place ++ js ": every schema leaf requires x-appspine-data-classification"]
  else []

/-- `schema && typeof schema === 'object' && !Array.isArray(schema)`. -/
def isSchemaObject : Json N → Bool
  | .obj _ => true
  | _ => false

/-- The errors of a document, or nothing when the check throws. In a tree of JSON no schema is
met twice, so `seen` never stops it. -/
def validateJsonSchemaDocument (label : JsString) (s : Json N) (path : JsString) :
    Option (List JsString) :=
  let place := label ++ js ":" ++ path
  if isSchemaObject s then
    match _h : cliChildren s with
    | none => none
    | some children => do
      let below ← children.attach.mapM fun e =>
        validateJsonSchemaDocument label e.1.2 (path ++ e.1.1)
      pure (cliKeywordErrors place s ++ cliClassificationErrors place s ++
        cliLeafErrors place s children ++ below.flatten)
  else some [place ++ js ": schema node must be an object"]
termination_by sizeOf s
decreasing_by exact sizeOf_cliChildren_lt _h e.2

end Cli

section Runtime

variable [NumberValue N] (numberOfText : JsString → Option Extended)

/-- `schema[low] !== undefined && schema[high] !== undefined && schema[low] > schema[high]`. -/
def comparedBounds (s : Json N) (low high keyword : JsString) :
    Option (List (JsString × JsString)) :=
  match field low s, field high s with
  | some a, some b => (greater numberOfText a b).map fun exceeds =>
    if exceeds then [(low ++ js " must not exceed " ++ high, keyword)] else []
  | _, _ => some []

/-- `validateSchemaDefinition` with the classification enforced, or nothing when it throws. -/
def validateSchemaDefinition (s : Json N) (path : JsString) : Option (List Issue) :=
  if isNode s then
    match _h : runtimeChildren s with
    | none => none
    | some children => do
      let lengths ← comparedBounds numberOfText s (js "minLength") (js "maxLength") (js "length")
      let items ← comparedBounds numberOfText s (js "minItems") (js "maxItems") (js "items")
      let below ← children.attach.mapM fun e => validateSchemaDefinition e.1.2 (path ++ e.1.1)
      pure ((keywordFaults s ++ classificationFaults s ++ typeFaults s ++ requiredFaults s ++
        lengths ++ items).map (issueAt path) ++ below.flatten ++
        (leafFaults true s).map (issueAt path))
  else some []
termination_by sizeOf s
decreasing_by exact sizeOf_runtimeChildren_lt _h e.2

end Runtime

section Agreement

variable [NumberValue N] (numberOfText : JsString → Option Extended)

/-- The schema is the document, or it is met on the way down. -/
inductive Within : Json N → Json N → Prop where
  | self (s : Json N) : Within s s
  | child {s t : Json N} {children : List (JsString × Json N)} {e : JsString × Json N}
      (h : cliChildren s = some children) (he : e ∈ children) (ht : Within e.2 t) : Within s t

/-- What the runtime asks of one schema beyond what the CLI asks of it. -/
structure RuntimeAccepts (s : Json N) : Prop where
  /-- `type` holds names of the seven types only. -/
  types : ∀ type, field (js "type") s = some type →
    ∀ t ∈ typeList type, ∃ name ∈ schemaTypes, asText (.json t) = some name
  /-- `required` is a list of texts. -/
  required : ∀ required, field (js "required") s = some required →
    ∃ items, required = .arr items ∧ ∀ item ∈ items, (asText (.json item)).isSome
  lengths : ∀ low high, field (js "minLength") s = some low → field (js "maxLength") s = some high →
    greater numberOfText low high = some false
  items : ∀ low high, field (js "minItems") s = some low → field (js "maxItems") s = some high →
    greater numberOfText low high = some false
  /-- A schema of no object or array type that has neither a reference nor children but under
  `patternProperties`, `additionalProperties`, `if`, `then` and `else` is classified. -/
  classified : field (js "x-appspine-data-classification") s = none →
    (∀ keyword ∈ [js "$ref", js "properties", js "items", js "allOf", js "anyOf", js "oneOf",
      js "$defs"], schemaAt s keyword = none) →
    schemaText s (js "type") = some (js "object") ∨ schemaText s (js "type") = some (js "array")

omit [NumberValue N] in
/-- A list of checks has nothing to report when none of them has. -/
lemma mapM_attach_flatten_nil {β : Type} {xs : List (JsString × Json N)}
    {f : JsString × Json N → Option (List β)} :
    (∃ below, (xs.attach.mapM fun e => f e.1) = some below ∧ below.flatten = []) ↔
      ∀ e ∈ xs, f e = some [] := by
  rw [List.mapM_subtype (g := f) (fun _ _ => rfl), List.unattach_attach]
  induction xs with
  | nil => simp
  | cons x xs ih =>
    rw [List.forall_mem_cons, ← ih, List.mapM_cons]
    constructor
    · rintro ⟨below, hbelow, hflatten⟩
      obtain ⟨first, hfirst, hbelow⟩ := Option.bind_eq_some_iff.mp hbelow
      obtain ⟨rest, hrest, hbelow⟩ := Option.bind_eq_some_iff.mp hbelow
      obtain rfl := Option.some.inj hbelow
      rw [List.flatten_cons, List.append_eq_nil_iff] at hflatten
      exact ⟨hflatten.1 ▸ hfirst, rest, hrest, hflatten.2⟩
    · rintro ⟨hfirst, rest, hrest, hflatten⟩
      exact ⟨[] :: rest, by rw [hfirst, hrest]; rfl, by simp [hflatten]⟩

/-- When the CLI has nothing to report about a document. -/
lemma validateJsonSchemaDocument_clean {label : JsString} {s : Json N} {path : JsString}
    (h : validateJsonSchemaDocument label s path = some []) :
    isSchemaObject s = true ∧ ∃ children, cliChildren s = some children ∧
      cliKeywordErrors (label ++ js ":" ++ path) s = [] ∧
      cliClassificationErrors (label ++ js ":" ++ path) s = [] ∧
      cliLeafErrors (label ++ js ":" ++ path) s children = [] ∧
      ∀ e ∈ children, validateJsonSchemaDocument label e.2 (path ++ e.1) = some [] := by
  rw [validateJsonSchemaDocument] at h
  by_cases hobject : isSchemaObject s = true
  · rw [if_pos hobject] at h
    refine ⟨hobject, ?_⟩
    split at h
    · exact absurd h (by simp)
    · next children hchildren =>
      obtain ⟨below, hbelow, h⟩ := Option.bind_eq_some_iff.mp h
      have hnil := Option.some.inj h
      simp only [List.append_eq_nil_iff] at hnil
      obtain ⟨⟨⟨hkeywords, hclassification⟩, hleaf⟩, hflatten⟩ := hnil
      exact ⟨children, hchildren, hkeywords, hclassification, hleaf,
        mapM_attach_flatten_nil.mp ⟨below, hbelow, hflatten⟩⟩
  · rw [if_neg hobject] at h
    exact absurd (Option.some.inj h) (by simp)

/-- When the runtime has nothing to report about an object. -/
lemma validateSchemaDefinition_clean {s : Json N} {path : JsString}
    {children : List (JsString × Json N)} (hnode : isNode s = true)
    (hchildren : runtimeChildren s = some children) :
    validateSchemaDefinition numberOfText s path = some [] ↔
      (keywordFaults s = [] ∧ classificationFaults s = [] ∧ typeFaults s = [] ∧
        requiredFaults s = [] ∧ leafFaults true s = []) ∧
      comparedBounds numberOfText s (js "minLength") (js "maxLength") (js "length") = some [] ∧
      comparedBounds numberOfText s (js "minItems") (js "maxItems") (js "items") = some [] ∧
      ∀ e ∈ children, validateSchemaDefinition numberOfText e.2 (path ++ e.1) = some [] := by
  rw [validateSchemaDefinition, if_pos hnode]
  split
  · next hnone => exact absurd (hnone.symm.trans hchildren) (by simp)
  · next found hfound =>
    obtain rfl : found = children := Option.some.inj (hfound.symm.trans hchildren)
    rw [← mapM_attach_flatten_nil]
    constructor
    · intro h
      obtain ⟨lengths, hlengths, h⟩ := Option.bind_eq_some_iff.mp h
      obtain ⟨items, hitems, h⟩ := Option.bind_eq_some_iff.mp h
      obtain ⟨below, hbelow, h⟩ := Option.bind_eq_some_iff.mp h
      have hnil := Option.some.inj h
      simp only [List.append_eq_nil_iff, List.map_eq_nil_iff] at hnil
      obtain ⟨⟨hown, hflatten⟩, hleaf⟩ := hnil
      obtain ⟨⟨⟨⟨⟨hkeywords, hclassification⟩, htypes⟩, hrequired⟩, rfl⟩, rfl⟩ := hown
      exact ⟨⟨hkeywords, hclassification, htypes, hrequired, hleaf⟩, hlengths, hitems, below,
        hbelow, hflatten⟩
    · rintro ⟨⟨hkeywords, hclassification, htypes, hrequired, hleaf⟩, hlengths, hitems, below,
        hbelow, hflatten⟩
      rw [hlengths, hitems, hbelow]
      simp [hkeywords, hclassification, htypes, hrequired, hleaf, hflatten]

omit [NumberValue N] in
/-- What the CLI finds in order in one schema is in order for the runtime. -/
lemma keywordFaults_of_cli {place : JsString} {s : Json N} (h : cliKeywordErrors place s = []) :
    keywordFaults s = [] := by
  refine List.flatMap_eq_nil_iff.mpr fun keyword hkeyword => ?_
  have hnil := List.flatMap_eq_nil_iff.mp h keyword hkeyword
  rw [List.append_eq_nil_iff] at hnil
  obtain ⟨hknown, hownKeyword⟩ := hnil
  have hmem : keyword ∈ SUPPORTED_KEYWORDS := by
    by_contra hnot
    exact absurd hknown (by simp [CLI_SCHEMA_KEYWORDS, hnot])
  split_ifs at hownKeyword with hown
  rw [if_neg hown, if_neg (not_not.mpr hmem)]

lemma classificationFaults_of_cli {place : JsString} {s : Json N}
    (h : cliClassificationErrors place s = []) : classificationFaults s = [] := by
  unfold cliClassificationErrors at h
  unfold classificationFaults
  cases hfield : field (js "x-appspine-data-classification") s with
  | none => rfl
  | some classification =>
    rw [hfield] at h
    simp only [List.append_eq_nil_iff] at h ⊢
    obtain ⟨hsecret, hknown⟩ := h
    split_ifs at hsecret with hsecret'
    split_ifs at hknown with hknown'
    obtain ⟨c, hc, heq⟩ := hknown'
    have hmem : c ∈ CLASSIFICATIONS := by
      simp only [CLASSIFICATIONS, List.mem_cons, List.not_mem_nil, or_false] at hc ⊢
      tauto
    exact ⟨if_pos ⟨c, hmem, heq⟩, if_neg hsecret'⟩

lemma typeFaults_eq_nil {s : Json N} :
    typeFaults s = [] ↔ ∀ type, field (js "type") s = some type →
      ∀ t ∈ typeList type, ∃ name ∈ schemaTypes, asText (.json t) = some name := by
  unfold typeFaults
  cases hfield : field (js "type") s with
  | none => simp
  | some type =>
    simp only [List.flatMap_eq_nil_iff, Option.some.injEq, forall_eq']
    refine forall₂_congr fun t _ => ?_
    split_ifs with hname <;> simp [hname]

omit [NumberValue N] in
lemma requiredFaults_eq_nil {s : Json N} :
    requiredFaults s = [] ↔ ∀ required, field (js "required") s = some required →
      ∃ items, required = .arr items ∧ ∀ item ∈ items, (asText (.json item)).isSome := by
  unfold requiredFaults
  cases hfield : field (js "required") s with
  | none => simp
  | some required =>
    cases required with
    | arr items =>
      simp only [Option.some.injEq, forall_eq', Json.arr.injEq, exists_eq_left']
      split_ifs with hany
      · refine iff_of_false (by simp) fun hall => ?_
        obtain ⟨item, hitem, hnone⟩ := List.any_eq_true.mp hany
        have hsome := hall item hitem
        rw [Option.isNone_iff_eq_none.mp hnone] at hsome
        exact absurd hsome (by simp)
      · refine iff_of_true rfl fun item hitem => ?_
        by_contra hnot
        exact hany (List.any_eq_true.mpr ⟨item, hitem, by simpa using hnot⟩)
    | _ => simp

lemma comparedBounds_eq_nil {s : Json N} {low high keyword : JsString} :
    comparedBounds numberOfText s low high keyword = some [] ↔
      ∀ a b, field low s = some a → field high s = some b →
        greater numberOfText a b = some false := by
  unfold comparedBounds
  cases hlow : field low s with
  | none => simp
  | some a =>
    cases hhigh : field high s with
    | none => simp
    | some b =>
      simp only [Option.some.injEq, Option.map_eq_some_iff]
      constructor
      · rintro ⟨exceeds, hexceeds, hnil⟩ _ _ rfl rfl
        cases exceeds with
        | true => exact absurd hnil (by simp)
        | false => exact hexceeds
      · intro h
        exact ⟨false, h a b rfl rfl, rfl⟩

lemma leafFaults_eq_nil {s : Json N} :
    leafFaults true s = [] ↔ (field (js "x-appspine-data-classification") s = none →
      (∀ keyword ∈ [js "$ref", js "properties", js "items", js "allOf", js "anyOf", js "oneOf",
        js "$defs"], schemaAt s keyword = none) →
      schemaText s (js "type") = some (js "object") ∨
        schemaText s (js "type") = some (js "array")) := by
  unfold leafFaults
  split_ifs with hleaf
  · obtain ⟨-, hnone, hobject, harray, hfield⟩ := hleaf
    refine iff_of_false (by simp) fun h => ?_
    exact (h hfield hnone).elim hobject harray
  · refine iff_of_true rfl fun hfield hnone => ?_
    by_contra htype
    rw [not_or] at htype
    exact hleaf ⟨rfl, hnone, htype.1, htype.2, hfield⟩

lemma runtimeAccepts_iff {s : Json N} :
    RuntimeAccepts numberOfText s ↔
      (typeFaults s = [] ∧ requiredFaults s = [] ∧ leafFaults true s = []) ∧
      comparedBounds numberOfText s (js "minLength") (js "maxLength") (js "length") = some [] ∧
      comparedBounds numberOfText s (js "minItems") (js "maxItems") (js "items") = some [] := by
  rw [typeFaults_eq_nil, requiredFaults_eq_nil, leafFaults_eq_nil, comparedBounds_eq_nil,
    comparedBounds_eq_nil]
  constructor
  · intro h
    exact ⟨⟨h.types, h.required, h.classified⟩, h.lengths, h.items⟩
  · rintro ⟨⟨htypes, hrequired, hleaf⟩, hlengths, hitems⟩
    exact ⟨htypes, hrequired, hlengths, hitems, hleaf⟩

lemma within_iff {s : Json N} {children : List (JsString × Json N)} (h : cliChildren s = some children)
    {P : Json N → Prop} :
    (∀ t, Within s t → P t) ↔ P s ∧ ∀ e ∈ children, ∀ t, Within e.2 t → P t := by
  constructor
  · intro hall
    exact ⟨hall s (.self s), fun e he t ht => hall t (.child h he ht)⟩
  · rintro ⟨hself, hbelow⟩ t ht
    cases ht with
    | self => exact hself
    | child h' he ht =>
      obtain rfl := Option.some.inj (h.symm.trans h')
      exact hbelow _ he t ht

/-- A document that passes the CLI passes the runtime when and only when every schema in it
meets what the runtime asks for besides. -/
theorem runtime_accepts_iff (label : JsString) (s : Json N) (path : JsString)
    (hcli : validateJsonSchemaDocument label s path = some []) (path' : JsString) :
    validateSchemaDefinition numberOfText s path' = some [] ↔
      ∀ t, Within s t → RuntimeAccepts numberOfText t := by
  induction hn : sizeOf s using Nat.strong_induction_on generalizing s path path' with
  | _ n ih =>
    obtain ⟨hobject, children, hchildren, hkeywords, hclassification, -, hbelow⟩ :=
      validateJsonSchemaDocument_clean hcli
    obtain ⟨children', hchildren', hperm⟩ := cliChildren_perm hchildren
    have hnode : isNode s = true := by
      cases s with
      | obj members => rfl
      | _ => exact absurd hobject (by simp [isSchemaObject])
    have hfaults := keywordFaults_of_cli hkeywords
    have hclassified := classificationFaults_of_cli hclassification
    have hchild : (∀ e ∈ children', validateSchemaDefinition numberOfText e.2 (path' ++ e.1) = some []) ↔
        ∀ e ∈ children, ∀ t, Within e.2 t → RuntimeAccepts numberOfText t := by
      constructor
      · intro h e he
        have hlt := sizeOf_cliChildren_lt hchildren he
        exact (ih _ (by omega) _ _ (hbelow e he) _ rfl).mp (h e (hperm.mem_iff.mp he))
      · intro h e he
        have he' := hperm.mem_iff.mpr he
        have hlt := sizeOf_cliChildren_lt hchildren he'
        exact (ih _ (by omega) _ _ (hbelow e he') _ rfl).mpr (h e he')
    rw [validateSchemaDefinition_clean numberOfText hnode hchildren', within_iff hchildren, hchild,
      runtimeAccepts_iff]
    simp only [hfaults, hclassified, true_and]
    tauto

/-- A document without children is checked on its own. -/
lemma validateJsonSchemaDocument_leaf {label path : JsString} {s : Json N}
    (hobject : isSchemaObject s = true) (hchildren : cliChildren s = some []) :
    validateJsonSchemaDocument label s path =
      some (cliKeywordErrors (label ++ js ":" ++ path) s ++
        cliClassificationErrors (label ++ js ":" ++ path) s ++
        cliLeafErrors (label ++ js ":" ++ path) s []) := by
  rw [validateJsonSchemaDocument, if_pos hobject]
  split
  · next hnone => exact absurd (hnone.symm.trans hchildren) (by simp)
  · next children hfound =>
    obtain rfl : children = [] := Option.some.inj (hfound.symm.trans hchildren)
    simp

/-- A classified schema of one type name. -/
def typed (name : JsString) : Json ℤ :=
  .obj [(js "type", .str name), (js "x-appspine-data-classification", .str (js "PUBLIC"))]

lemma typed_children (name : JsString) : cliChildren (typed name) = some [] := rfl

lemma typed_clean (label path name : JsString) :
    validateJsonSchemaDocument label (typed name) path = some [] := by
  rw [validateJsonSchemaDocument_leaf rfl (typed_children name)]
  have hkeywords : ∀ place, cliKeywordErrors place (typed name) = [] := fun _ => rfl
  have hclassification : ∀ place, cliClassificationErrors place (typed name) = [] := fun _ => rfl
  have hfield : field (js "x-appspine-data-classification") (typed name) =
      some (.str (js "PUBLIC")) := rfl
  have hleaf : ∀ place, cliLeafErrors place (typed name) [] = [] := fun place =>
    if_neg fun h => absurd h.2.2.2.2 (by simp [hfield])
  rw [hkeywords, hclassification, hleaf]
  rfl

lemma within_typed {name : JsString} {t : Json ℤ} (h : Within (typed name) t) : t = typed name := by
  cases h with
  | self => rfl
  | child hchildren he _ =>
    obtain rfl := Option.some.inj ((typed_children name).symm.trans hchildren)
    exact absurd he List.not_mem_nil

theorem runtime_accepts_iff_string :
    validateSchemaDefinition (fun _ => none) (typed (js "string")) (js "$") = some [] := by
  refine (runtime_accepts_iff (fun _ => none) (js "c") (typed (js "string")) (js "$")
    (typed_clean _ _ _) (js "$")).mpr fun t ht => ?_
  obtain rfl := within_typed ht
  rw [runtimeAccepts_iff]
  decide +kernel

/-- A type that is no type passes the CLI, and the runtime rejects it. -/
theorem misspelt_type_passes_cli :
    ¬ ∀ s : Json ℤ, validateJsonSchemaDocument (js "c") s (js "$") = some [] →
      validateSchemaDefinition (fun _ => none) s (js "$") = some [] := by
  intro h
  have hclean := h (typed (js "strin")) (typed_clean _ _ _)
  rw [validateSchemaDefinition_clean (fun _ => none) rfl rfl] at hclean
  exact absurd hclean.1.2.2.1 (by decide +kernel)

end Agreement

end Appspine.ContractCli
