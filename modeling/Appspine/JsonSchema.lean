import Appspine.JsonCanonical
import Appspine.Rfc3339

/-!
# Schema validation of the integration contracts

`validateSchemaDefinition`, `validate` and `resolveRef` over schemas as the JSON
documents they are. A keyword is read at the kind its type declares. The recursion
of `validate` follows `$ref` into the root schema and need not end: `validateAt n`
is the call with at most `n` calls inside one another.
-/
namespace Appspine.JsonSchema
open JsText JsonText InsertionMap

/-- Finite numbers with the rational number each of them is. -/
class NumberValue (N : Type) extends JsonNumber N where
  toRat : N → ℚ
  toRat_injective : Function.Injective toRat

instance : NumberValue ℤ where
  toRat := fun z => z
  toRat_injective := Int.cast_injective

variable {N : Type}

section Values

/-- What a property of a JSON value can be: `record[key]` and `in` also see what an
object has from `Object.prototype`, an array from `Array.prototype`. -/
inductive JsValue (N : Type) where
  | json (j : Json N)
  | count (n : ℕ)
  | function
  | objectPrototype
  | arrayPrototype

/-- The functions every object has. -/
def objectMethods : List JsString :=
  [js "constructor", js "__defineGetter__", js "__defineSetter__", js "hasOwnProperty",
    js "__lookupGetter__", js "__lookupSetter__", js "isPrototypeOf", js "propertyIsEnumerable",
    js "toString", js "valueOf", js "toLocaleString"]

/-- The functions every array has besides. -/
def arrayMethods : List JsString :=
  [js "at", js "concat", js "copyWithin", js "fill", js "find", js "findIndex", js "findLast",
    js "findLastIndex", js "lastIndexOf", js "pop", js "push", js "reverse", js "shift",
    js "unshift", js "slice", js "sort", js "splice", js "includes", js "indexOf", js "join",
    js "keys", js "entries", js "values", js "forEach", js "filter", js "flat", js "flatMap",
    js "map", js "every", js "some", js "reduce", js "reduceRight", js "toReversed",
    js "toSorted", js "toSpliced", js "with"]

/-- The property names of `Object.prototype`. -/
def prototypeNames : List JsString := js "__proto__" :: objectMethods

def objectInherited (key : JsString) : Option (JsValue N) :=
  if key = js "__proto__" then some .objectPrototype
  else if key ∈ objectMethods then some .function
  else none

def arrayInherited (key : JsString) : Option (JsValue N) :=
  if key = js "__proto__" then some .arrayPrototype
  else if key ∈ arrayMethods then some .function
  else objectInherited key

/-- `value[key]` on something of type `object`; `none` is `undefined`. -/
def property : JsValue N → JsString → Option (JsValue N)
  | .json (.obj members), key => ((InsertionMap.get members key).map .json).or (objectInherited key)
  | .json (.arr items), key =>
    if isArrayIndex key then (items[decimalValue key]?).map .json
    else if key = js "length" then some (.count items.length)
    else arrayInherited key
  | .objectPrototype, key =>
    if key = js "__proto__" then some (.json .null) else objectInherited key
  | .arrayPrototype, key =>
    if key = js "length" then some (.count 0)
    else if key ∈ arrayMethods then some .function
    else objectInherited key
  | _, _ => none

/-- `typeof`. -/
def typeOf : JsValue N → JsString
  | .json (.bool _) => js "boolean"
  | .json (.num _) => js "number"
  | .json (.str _) => js "string"
  | .json _ => js "object"
  | .count _ => js "number"
  | .function => js "function"
  | .objectPrototype => js "object"
  | .arrayPrototype => js "object"

def asText : JsValue N → Option JsString
  | .json (.str s) => some s
  | _ => none

def asArray : JsValue N → Option (List (Json N))
  | .json (.arr items) => some items
  | .arrayPrototype => some []
  | _ => none

/-- The own entries of `value && typeof value === 'object' && !Array.isArray(value)`. -/
def asObject : JsValue N → Option (List (JsString × Json N))
  | .json (.obj members) => some members
  | .objectPrototype => some []
  | _ => none

def asNumber : JsValue N → Option N
  | .json (.num n) => some n
  | _ => none

/-- `Number.isInteger`. -/
def isInteger [NumberValue N] : JsValue N → Bool
  | .json (.num n) => decide ((NumberValue.toRat n).den = 1)
  | .count _ => true
  | _ => false

def truthy [NumberValue N] : JsValue N → Bool
  | .json .null => false
  | .json (.bool b) => b
  | .json (.num n) => decide (NumberValue.toRat n ≠ 0)
  | .json (.str s) => decide (s ≠ [])
  | .count n => decide (n ≠ 0)
  | _ => true

/-- `canonicalJson` of a value; a function has none. -/
def canonicalText [JsonNumber N] : JsValue N → Option JsString
  | .json j => some (canonicalJson j)
  | .count n => some (natText n)
  | .function => none
  | .objectPrototype => some (js "\x7b\x7d")
  | .arrayPrototype => some (js "[]")

/-- `sameJson` of the validator. -/
def sameJson [JsonNumber N] (left : JsValue N) (right : Json N) : Bool :=
  decide (canonicalText left = some (canonicalJson right))

mutual

/-- `String(value)`. -/
def stringOf [JsonNumber N] : Json N → JsString
  | .null => js "null"
  | .bool b => if b then js "true" else js "false"
  | .num n => JsonNumber.text n
  | .str s => s
  | .arr items => join (js ",") (joinable items)
  | .obj _ => js "[object Object]"

/-- What `join` takes from the items: `null` is the empty text. -/
def joinable [JsonNumber N] : List (Json N) → List JsString
  | [] => []
  | .null :: items => [] :: joinable items
  | j :: items => stringOf j :: joinable items

end

end Values

section Keywords

/-- The own entries of a value, an array's by index. -/
def entriesOf : Json N → List (JsString × Json N)
  | .obj members => members
  | .arr items => (items.zipIdx).map (fun e => (natText e.2, e.1))
  | _ => []

/-- `Object.entries(schema[keyword] ?? {})`. -/
def schemaEntries (s : Json N) (keyword : JsString) : List (JsString × Json N) :=
  ((field keyword s).map entriesOf).getD []

/-- `schema[keyword]`, a list. -/
def schemaList (s : Json N) (keyword : JsString) : Option (List (Json N)) :=
  match field keyword s with
  | some (.arr items) => some items
  | _ => none

/-- `schema[keyword]`, when it is truthy. -/
def schemaAt [NumberValue N] (s : Json N) (keyword : JsString) : Option (Json N) :=
  (field keyword s).filter (fun j => truthy (.json j))

def schemaText (s : Json N) (keyword : JsString) : Option JsString :=
  match field keyword s with
  | some (.str t) => some t
  | _ => none

def schemaNumber (s : Json N) (keyword : JsString) : Option N :=
  match field keyword s with
  | some (.num n) => some n
  | _ => none

/-- `schema.$ref`, when it is truthy. -/
def refOf (s : Json N) : Option JsString := (schemaText s (js "$ref")).filter (· ≠ [])

/-- `Array.isArray(type) ? type : [type]`. -/
def typeList : Json N → List (Json N)
  | .arr items => items
  | j => [j]

/-- `schema.required ?? []`. -/
def requiredOf (s : Json N) : List JsString :=
  ((schemaList s (js "required")).getD []).filterMap (fun j => asText (.json j))

/-- `schema.additionalProperties`, when it is a schema. -/
def additionalSchema (s : Json N) : Option (Json N) :=
  match field (js "additionalProperties") s with
  | some (.obj members) => some (.obj members)
  | some (.arr items) => some (.arr items)
  | _ => none

/-- `schema.additionalProperties === false`. -/
def isClosed (s : Json N) : Bool :=
  match field (js "additionalProperties") s with
  | some (.bool false) => true
  | _ => false

end Keywords

section Definition

structure Issue where
  path : JsString
  message : JsString
  keyword : JsString
  deriving DecidableEq

def SUPPORTED_KEYWORDS : List JsString :=
  [js "$schema", js "$id", js "$ref", js "$defs", js "$comment", js "title", js "description",
    js "type", js "required", js "properties", js "patternProperties",
    js "additionalProperties", js "items", js "enum", js "const", js "anyOf", js "oneOf",
    js "allOf", js "if", js "then", js "else", js "pattern", js "format", js "minLength",
    js "maxLength", js "minimum", js "maximum", js "minItems", js "maxItems",
    js "uniqueItems", js "x-appspine-data-classification"]

def CLASSIFICATIONS : List JsString :=
  [js "PUBLIC", js "INTERNAL", js "PERSONAL", js "SENSITIVE", js "SECRET"]

def schemaTypes : List JsString :=
  [js "null", js "boolean", js "object", js "array", js "number", js "integer", js "string"]

variable [NumberValue N]

/-- A fault of one schema node: the message and the keyword of its issue. -/
def keywordFaults (s : Json N) : List (JsString × JsString) :=
  (keys (entriesOf s)).flatMap (fun keyword =>
    if startsWith keyword (js "x-appspine-") ∧ keyword ≠ js "x-appspine-data-classification" then
      [(js "unknown Appspine schema keyword " ++ keyword, keyword)]
    else if keyword ∉ SUPPORTED_KEYWORDS then
      [(js "unsupported schema keyword " ++ keyword, keyword)]
    else [])

def classificationFaults (s : Json N) : List (JsString × JsString) :=
  match field (js "x-appspine-data-classification") s with
  | none => []
  | some classification =>
    (if ∃ c ∈ CLASSIFICATIONS, asText (.json classification) = some c then []
      else [(js "invalid data classification " ++ stringOf classification, js "classification")]) ++
    (if asText (.json classification) = some (js "SECRET") then
      [(js "SECRET data is not allowed in an integration contract", js "classification")]
      else [])

def typeFaults (s : Json N) : List (JsString × JsString) :=
  match field (js "type") s with
  | none => []
  | some type =>
    (typeList type).flatMap (fun t =>
      if ∃ c ∈ schemaTypes, asText (.json t) = some c then []
      else [(js "unsupported schema type " ++ stringOf t, js "type")])

def requiredFaults (s : Json N) : List (JsString × JsString) :=
  match field (js "required") s with
  | none => []
  | some (.arr items) =>
    if items.any (fun j => (asText (.json j)).isNone) then
      [(js "required must be an array of strings", js "required")]
    else []
  | some _ => [(js "required must be an array of strings", js "required")]

/-- `schema[low] !== undefined && schema[high] !== undefined && schema[low] > schema[high]`. -/
def boundFaults (s : Json N) (low high keyword : JsString) : List (JsString × JsString) :=
  match schemaNumber s low, schemaNumber s high with
  | some a, some b =>
    if NumberValue.toRat b < NumberValue.toRat a then
      [(low ++ js " must not exceed " ++ high, keyword)]
    else []
  | _, _ => []

def ownFaults (s : Json N) : List (JsString × JsString) :=
  keywordFaults s ++ classificationFaults s ++ typeFaults s ++ requiredFaults s ++
    boundFaults s (js "minLength") (js "maxLength") (js "length") ++
    boundFaults s (js "minItems") (js "maxItems") (js "items")

/-- The leaf rule of the data classification. -/
def leafFaults (enforceClassification : Bool) (s : Json N) : List (JsString × JsString) :=
  if enforceClassification ∧
      (∀ keyword ∈ [js "$ref", js "properties", js "items", js "allOf", js "anyOf", js "oneOf",
        js "$defs"], schemaAt s keyword = none) ∧
      schemaText s (js "type") ≠ some (js "object") ∧
      schemaText s (js "type") ≠ some (js "array") ∧
      field (js "x-appspine-data-classification") s = none then
    [(js "schema leaf must declare x-appspine-data-classification", js "classification")]
  else []

/-- The children of a combinator, with what each adds to the path. -/
def listChildren (s : Json N) (keyword : JsString) : List (JsString × Json N) :=
  (((schemaList s keyword).getD []).zipIdx).map
    (fun e => (js "." ++ keyword ++ js "[" ++ natText e.2 ++ js "]", e.1))

def oneChild (s : Json N) (keyword : JsString) : List (JsString × Json N) :=
  ((schemaAt s keyword).map (fun child => (js "." ++ keyword, child))).toList

/-- The schemas `validateSchemaDefinition` goes on to, with what each adds to the path. -/
def definitionChildren (s : Json N) : List (JsString × Json N) :=
  (schemaEntries s (js "properties")).map (fun e => (js "." ++ e.1, e.2)) ++
  (schemaEntries s (js "patternProperties")).map
    (fun e => (js ".\x7b" ++ e.1 ++ js "\x7d", e.2)) ++
  (schemaEntries s (js "$defs")).map (fun e => (js ".$defs." ++ e.1, e.2)) ++
  listChildren s (js "allOf") ++ listChildren s (js "anyOf") ++ listChildren s (js "oneOf") ++
  oneChild s (js "items") ++ oneChild s (js "if") ++ oneChild s (js "then") ++
  oneChild s (js "else") ++
  ((additionalSchema s).map (fun child => (js ".additionalProperties", child))).toList

end Definition

section Size

lemma sizeOf_field_lt {s j : Json N} {k : JsString} (h : field k s = some j) :
    sizeOf j < sizeOf s := by
  cases s with
  | obj members =>
    have hmem := List.sizeOf_lt_of_mem (mem_of_get h)
    simp only [Prod.mk.sizeOf_spec, Json.obj.sizeOf_spec] at hmem ⊢
    omega
  | null => cases h
  | bool b => cases h
  | num n => cases h
  | str t => cases h
  | arr items => cases h

lemma sizeOf_entriesOf_lt {s : Json N} {e : JsString × Json N} (h : e ∈ entriesOf s) :
    sizeOf e.2 < sizeOf s := by
  cases s with
  | obj members =>
    have hmem := List.sizeOf_lt_of_mem (show e ∈ members from h)
    obtain ⟨k, v⟩ := e
    simp only [Prod.mk.sizeOf_spec, Json.obj.sizeOf_spec] at hmem ⊢
    omega
  | arr items =>
    obtain ⟨⟨v, i⟩, hv, rfl⟩ := List.mem_map.mp h
    have hmem := List.sizeOf_lt_of_mem (List.fst_mem_of_mem_zipIdx hv)
    simp only [Json.arr.sizeOf_spec] at hmem ⊢
    omega
  | null => cases h
  | bool b => cases h
  | num n => cases h
  | str t => cases h

lemma sizeOf_schemaEntries_lt {s : Json N} {k : JsString} {e : JsString × Json N}
    (h : e ∈ schemaEntries s k) : sizeOf e.2 < sizeOf s := by
  unfold schemaEntries at h
  cases hfield : field k s with
  | none => simp [hfield] at h
  | some j =>
    rw [hfield] at h
    exact (sizeOf_entriesOf_lt h).trans (sizeOf_field_lt hfield)

lemma schemaList_eq_some {s : Json N} {k : JsString} {items : List (Json N)} :
    schemaList s k = some items ↔ field k s = some (.arr items) := by
  unfold schemaList
  split <;> simp_all

lemma sizeOf_schemaList_lt {s c : Json N} {k : JsString} {items : List (Json N)}
    (h : schemaList s k = some items) (hc : c ∈ items) : sizeOf c < sizeOf s := by
  have hfield := sizeOf_field_lt (schemaList_eq_some.mp h)
  have hmem := List.sizeOf_lt_of_mem hc
  rw [Json.arr.sizeOf_spec] at hfield
  omega

lemma schemaAt_eq_some [NumberValue N] {s c : Json N} {k : JsString} :
    schemaAt s k = some c ↔ field k s = some c ∧ truthy (.json c) = true := by
  simp [schemaAt, Option.filter_eq_some_iff]

lemma sizeOf_schemaAt_lt [NumberValue N] {s c : Json N} {k : JsString} (h : schemaAt s k = some c) :
    sizeOf c < sizeOf s := sizeOf_field_lt (schemaAt_eq_some.mp h).1

lemma field_of_additionalSchema {s c : Json N} (h : additionalSchema s = some c) :
    field (js "additionalProperties") s = some c := by
  unfold additionalSchema at h
  split at h
  · next hf => rw [hf, h]
  · next hf => rw [hf, h]
  · cases h

lemma sizeOf_additionalSchema_lt {s c : Json N} (h : additionalSchema s = some c) :
    sizeOf c < sizeOf s := sizeOf_field_lt (field_of_additionalSchema h)

lemma sizeOf_listChildren_lt {s : Json N} {k : JsString} {e : JsString × Json N}
    (h : e ∈ listChildren s k) : sizeOf e.2 < sizeOf s := by
  obtain ⟨⟨c, i⟩, hc, rfl⟩ := List.mem_map.mp h
  have hmem := List.fst_mem_of_mem_zipIdx hc
  cases hlist : schemaList s k with
  | none => simp [hlist] at hmem
  | some items =>
    rw [hlist] at hmem
    exact sizeOf_schemaList_lt hlist hmem

lemma sizeOf_oneChild_lt [NumberValue N] {s : Json N} {k : JsString} {e : JsString × Json N}
    (h : e ∈ oneChild s k) : sizeOf e.2 < sizeOf s := by
  simp only [oneChild, Option.mem_toList, Option.map_eq_some_iff] at h
  obtain ⟨c, hc, rfl⟩ := h
  exact sizeOf_schemaAt_lt hc

lemma sizeOf_definitionChildren_lt [NumberValue N] {s : Json N} {e : JsString × Json N}
    (h : e ∈ definitionChildren s) : sizeOf e.2 < sizeOf s := by
  simp only [definitionChildren, List.mem_append, List.mem_map, Option.mem_toList,
    Option.map_eq_some_iff, or_assoc] at h
  rcases h with ⟨e', he, rfl⟩ | ⟨e', he, rfl⟩ | ⟨e', he, rfl⟩ | h | h | h | h | h | h | h |
    ⟨c, hc, rfl⟩
  iterate 3 exact sizeOf_schemaEntries_lt (e := e') he
  iterate 3 exact sizeOf_listChildren_lt h
  iterate 4 exact sizeOf_oneChild_lt h
  exact sizeOf_additionalSchema_lt hc

end Size

section DefinitionIssues

variable [NumberValue N]

def issueAt (path : JsString) (fault : JsString × JsString) : Issue := ⟨path, fault.1, fault.2⟩

/-- `schema && typeof schema === 'object'`. -/
def isNode : Json N → Bool
  | .obj _ => true
  | .arr _ => true
  | _ => false

/-- `validateSchemaDefinition`. -/
def definitionIssues (enforceClassification : Bool) (s : Json N) (path : JsString) : List Issue :=
  if isNode s then
    (ownFaults s).map (issueAt path) ++
      (definitionChildren s).attach.flatMap (fun e =>
        definitionIssues enforceClassification e.1.2 (path ++ e.1.1)) ++
      (leafFaults enforceClassification s).map (issueAt path)
  else []
termination_by sizeOf s
decreasing_by exact sizeOf_definitionChildren_lt e.2

lemma definitionIssues_eq (enforceClassification : Bool) (s : Json N) (path : JsString) :
    definitionIssues enforceClassification s path =
      if isNode s then
        (ownFaults s).map (issueAt path) ++
          (definitionChildren s).flatMap (fun e =>
            definitionIssues enforceClassification e.2 (path ++ e.1)) ++
          (leafFaults enforceClassification s).map (issueAt path)
      else [] := by
  rw [definitionIssues]
  congr 3
  rw [List.flatMap_subtype (g := fun e : JsString × Json N =>
    definitionIssues enforceClassification e.2 (path ++ e.1)) (fun _ _ => rfl),
    List.unattach_attach]

end DefinitionIssues

end Appspine.JsonSchema
