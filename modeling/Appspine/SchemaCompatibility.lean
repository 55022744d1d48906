import Appspine.SchemaValidate
import Appspine.StableSort

/-!
# Compatibility of two schemas

`checkSchemaCompatibility` over schemas as the JSON documents they are, a keyword read at the
kind its type declares. What one call of `compareSchema` does is a list of events in the order
of the source: findings it pushes and pairs of schemas it goes on to compare.
-/
namespace Appspine.Compatibility
open JsText JsonText InsertionMap JsonSchema

variable {N : Type} [NumberValue N]

section SameJson

mutual

/-- `JSON.stringify(value, allowed)`: of every object only the allowed keys, in their order. -/
def replaced (allowed : List JsString) : Json N → JsString
  | .arr items => brackets (replacedItems allowed items)
  | .obj members =>
    let texts := replacedMembers allowed members
    braces (allowed.filterMap fun key => (get texts key).map (member key))
  | j => stringify j

def replacedItems (allowed : List JsString) : List (Json N) → List JsString
  | [] => []
  | j :: items => replaced allowed j :: replacedItems allowed items

def replacedMembers (allowed : List JsString) :
    List (JsString × Json N) → List (JsString × JsString)
  | [] => []
  | (key, j) :: members => (key, replaced allowed j) :: replacedMembers allowed members

end

/-- `Object.keys(value ?? {})`. -/
def ownKeys : Json N → List JsString
  | .obj members => keys members
  | .arr items => (List.range items.length).map natText
  | .str s => (List.range s.length).map natText
  | _ => []

/-- `JSON.stringify(value, Object.keys(value ?? {}).sort())`, of the value as `JSON.parse` leaves
it. -/
def sortedText (j : Json N) : JsString :=
  replaced (StableSort.sorted (ownKeys (rebuild j))) (rebuild j)

/-- `sameJson` of the compatibility check. -/
def sameJson (left right : Json N) : Bool := decide (sortedText left = sortedText right)

end SameJson

section Findings

inductive CompatibilityProfile where
  | strict
  | tolerantReader
  | providerCompatible
  deriving DecidableEq

inductive Severity where
  | info
  | warning
  | error
  deriving DecidableEq

structure CompatibilityFinding where
  path : JsString
  rule : JsString
  breaking : Bool
  severity : Option Severity
  deriving DecidableEq

/-- A finding that breaks, with the severity that goes with it. -/
def breakingAt (path rule : JsString) : CompatibilityFinding := ⟨path, rule, true, some .error⟩

/-- A finding that breaks or is of the lower severity. -/
def gradedAt (path rule : JsString) (breaking : Bool) (lower : Severity) : CompatibilityFinding :=
  ⟨path, rule, breaking, some (if breaking then .error else lower)⟩

inductive Event (N : Type) where
  | finding (finding : CompatibilityFinding)
  | compare (previous next : Json N) (path : JsString)

/-- `JSON.stringify(schema.type)`, `none` being `undefined`. -/
def typeJson (s : Json N) : Option JsString := (field (js "type") s).map stringify

def typeChanged (previous next : Json N) : Bool :=
  (schemaAt previous (js "type")).isSome && (schemaAt next (js "type")).isSome &&
    decide (typeJson previous ≠ typeJson next)

def enumFindings (previous next : Json N) (path : JsString) (profile : CompatibilityProfile) :
    List CompatibilityFinding :=
  match schemaList previous (js "enum"), schemaList next (js "enum") with
  | some old, some new =>
    ((old.filter fun value => !new.any fun candidate => sameJson candidate value).map
      fun _ => breakingAt path (js "enum value removed")) ++
    (if new.any fun value => !old.any fun candidate => sameJson candidate value then
      [gradedAt path (js "enum value added") (decide (profile = .strict)) .warning] else [])
  | _, _ => []

/-- `previous[keyword] !== next[keyword]`, both given. -/
def textFindings (previous next : Json N) (path keyword rule : JsString) :
    List CompatibilityFinding :=
  match schemaText previous keyword, schemaText next keyword with
  | some old, some new => if old ≠ new then [breakingAt path rule] else []
  | _, _ => []

def compareUpperBound (previous next : Json N) (path keyword rule : JsString) :
    List CompatibilityFinding :=
  match schemaNumber next keyword with
  | none => []
  | some new =>
    if (schemaNumber previous keyword).all fun old =>
        decide (NumberValue.toRat old < NumberValue.toRat new) then [breakingAt path rule] else []

def compareLowerBound (previous next : Json N) (path keyword rule : JsString) :
    List CompatibilityFinding :=
  match schemaNumber next keyword with
  | none => []
  | some new =>
    if (schemaNumber previous keyword).all fun old =>
        decide (NumberValue.toRat new < NumberValue.toRat old) then [breakingAt path rule] else []

def isBool (s : Json N) (keyword : JsString) (b : Bool) : Bool :=
  match field keyword s with
  | some (.bool value) => decide (value = b)
  | _ => false

def uniqueFindings (previous next : Json N) (path : JsString) : List CompatibilityFinding :=
  if isBool previous (js "uniqueItems") false && isBool next (js "uniqueItems") true then
    [breakingAt path (js "uniqueItems became stricter")] else []

/-- The keywords of the pair itself, after the type. -/
def keywordFindings (previous next : Json N) (path : JsString) (profile : CompatibilityProfile) :
    List CompatibilityFinding :=
  enumFindings previous next path profile ++
    textFindings previous next path (js "pattern") (js "pattern changed") ++
    textFindings previous next path (js "format") (js "format changed") ++
    compareUpperBound previous next path (js "minLength") (js "minLength increased") ++
    compareLowerBound previous next path (js "maxLength") (js "maxLength decreased") ++
    compareUpperBound previous next path (js "minimum") (js "minimum increased") ++
    compareLowerBound previous next path (js "maximum") (js "maximum decreased") ++
    compareUpperBound previous next path (js "minItems") (js "minItems increased") ++
    compareLowerBound previous next path (js "maxItems") (js "maxItems decreased") ++
    uniqueFindings previous next path

/-- `schema.properties ?? {}`. -/
def propertiesOf (s : Json N) : List (JsString × Json N) :=
  match field (js "properties") s with
  | some (.obj members) => members
  | _ => []

/-- `key in properties`. -/
def hasProperty (properties : List (JsString × Json N)) (key : JsString) : Bool :=
  (property (.json (.obj properties)) key).isSome

/-- `properties[key]` as a schema; what objects inherit has no keywords. -/
def propertyAt (properties : List (JsString × Json N)) (key : JsString) : Json N :=
  ((property (.json (.obj properties)) key).map asSchema).getD (.obj [])

/-- The loop over the previous properties. -/
def propertyEvents (previous next : Json N) (path : JsString) (profile : CompatibilityProfile) :
    List (Event N) :=
  (propertiesOf previous).map fun e =>
    if hasProperty (propertiesOf next) e.1 then
      .compare e.2 (propertyAt (propertiesOf next) e.1) (path ++ js "." ++ e.1)
    else .finding (gradedAt (path ++ js "." ++ e.1) (js "property removed")
      (decide (profile ≠ .tolerantReader) || decide (e.1 ∈ requiredOf previous)) .warning)

/-- The loop over the next properties. -/
def addedFindings (previous next : Json N) (path : JsString) (profile : CompatibilityProfile) :
    List CompatibilityFinding :=
  ((keys (propertiesOf next)).filter fun key => !hasProperty (propertiesOf previous) key &&
      (decide (key ∈ requiredOf next) || decide (profile ≠ .tolerantReader))).map fun key =>
    let required := decide (key ∈ requiredOf next)
    gradedAt (path ++ js "." ++ key)
      (if required then js "required property added" else js "optional property added")
      (required || decide (profile = .strict)) .info

/-- `for (const key of new Set(required))`. -/
def requiredSet (s : Json N) : List JsString := (requiredOf s).eraseDups

def requiredFindings (previous next : Json N) (path : JsString) : List CompatibilityFinding :=
  (((requiredSet previous).filter fun key => decide (key ∉ requiredOf next)).map fun key =>
      ⟨path ++ js "." ++ key, js "requiredness relaxed", false, some .info⟩) ++
  ((requiredSet next).filter fun key => decide (key ∉ requiredOf previous) &&
      hasProperty (propertiesOf previous) key).map fun key =>
    breakingAt (path ++ js "." ++ key) (js "requiredness tightened")

def additionalFindings (previous next : Json N) (path : JsString) (profile : CompatibilityProfile) :
    List CompatibilityFinding :=
  (if isClosed previous && !isClosed next then
    [⟨path, js "additional properties relaxed", false, some .info⟩] else []) ++
  (if !isClosed previous && isClosed next then
    [gradedAt path (js "additional properties restricted") (decide (profile ≠ .tolerantReader))
      .warning] else [])

def itemEvents (previous next : Json N) (path : JsString) : List (Event N) :=
  match schemaAt previous (js "items"), schemaAt next (js "items") with
  | some old, some new => [.compare old new (path ++ js "[]")]
  | _, _ => []

def compositionEvents (previous next : Json N) (path keyword : JsString) : List (Event N) :=
  match schemaList previous keyword, schemaList next keyword with
  | some old, some new =>
    if old.length = new.length then
      ((old.zip new).zipIdx).map fun e =>
        .compare e.1.1 e.1.2 (path ++ js "." ++ keyword ++ js "[" ++ natText e.2 ++ js "]")
    else if stringify (.arr old) ≠ stringify (.arr new) then
      [.finding (breakingAt path (keyword ++ js " composition changed"))]
    else []
  | _, _ => []

/-- What `compareSchema` does with one pair it has not seen. -/
def compareEvents (profile : CompatibilityProfile) (previous next : Json N) (path : JsString) :
    List (Event N) :=
  if typeChanged previous next then [.finding (breakingAt path (js "type changed"))]
  else
    (keywordFindings previous next path profile).map .finding ++
      propertyEvents previous next path profile ++
      (addedFindings previous next path profile ++ requiredFindings previous next path ++
        additionalFindings previous next path profile).map .finding ++
      itemEvents previous next path ++ compositionEvents previous next path (js "allOf") ++
      compositionEvents previous next path (js "anyOf") ++
      compositionEvents previous next path (js "oneOf")

end Findings

section Compare

omit [NumberValue N] in
lemma sizeOf_propertiesOf_lt {s : Json N} {e : JsString × Json N} (h : e ∈ propertiesOf s) :
    sizeOf e.2 < sizeOf s := by
  unfold propertiesOf at h
  split at h
  · next members hfield =>
    exact (sizeOf_entriesOf_lt (s := .obj members) h).trans (sizeOf_field_lt hfield)
  · exact absurd h List.not_mem_nil

/-- `${JSON.stringify(previous)}\n${JSON.stringify(next)}\n${path}`. -/
def pairKey (previous next : Json N) (path : JsString) : JsString :=
  stringify previous ++ js "\n" ++ stringify next ++ js "\n" ++ path

/-- A finding of the pair itself, or of a pair that is compared because of it. -/
inductive Found (profile : CompatibilityProfile) : Json N → Json N → JsString →
    CompatibilityFinding → Prop where
  | own {previous next : Json N} {path : JsString} {finding : CompatibilityFinding}
      (h : Event.finding finding ∈ compareEvents profile previous next path) :
      Found profile previous next path finding
  | child {previous next p n : Json N} {path path' : JsString} {finding : CompatibilityFinding}
      (h : Event.compare p n path' ∈ compareEvents profile previous next path)
      (hchild : Found profile p n path' finding) : Found profile previous next path finding

end Compare

end Appspine.Compatibility
