import Appspine.Lockfile
import Appspine.BracedLines

/-!
# Composing the Prisma schema

Each installed plugin contributes the models it owns and the fields it adds to models of others.
Ownership and targets are checked over all contributions; then the fields are written into the
fragments of the owners, line by line, and the fragments are put one after the other.
-/
namespace Appspine.Prisma
open JsText StableSort InsertionMap JsonText PluginManifest Resolver Commands Generate
open ConfigBoundary (isSpaceUnit isWordUnit)

variable {N : Type} [JsonNumber N] {sha256Hex : JsString → JsString}

def SCHEMA_ARTIFACT : JsString := GENERATED_DIR ++ js "/schema.prisma"

structure PrismaAugmentation where
  targetModel : JsString
  field : JsString
  owner : JsString
  type : Option JsString
  deriving DecidableEq

structure AugmentedBy where
  plugin : JsString
  field : JsString
  deriving DecidableEq

structure PrismaContribution where
  plugin : JsString
  packageName : JsString
  owns : List JsString
  ownsEnums : List JsString
  augments : List PrismaAugmentation
  augmentedBy : List AugmentedBy
  fragment : Option JsString
  fragmentPath : Option JsString
  deriving DecidableEq

section Collect

omit [JsonNumber N] in
def augmentationOf : Json N → Option PrismaAugmentation
  | .obj members =>
    (textMember members (js "targetModel")).map (fun targetModel =>
      { targetModel := targetModel
        field := (textMember members (js "field")).getD []
        owner := (textMember members (js "owner")).getD []
        type := textMember members (js "type") })
  | _ => none

omit [JsonNumber N] in
def augmentedByOf : Json N → Option AugmentedBy
  | .obj members =>
    (textMember members (js "plugin")).map (fun plugin =>
      { plugin := plugin, field := (textMember members (js "field")).getD [] })
  | _ => none

def contributionOf (input : GeneratorInput N sha256Hex) (loaded : LoadedPluginManifest N sha256Hex)
    (facet : List (JsString × Json N)) : PrismaContribution :=
  let fragmentPath := textMember facet (js "schemaFragment")
  { plugin := loaded.manifest.id
    packageName := loaded.packageName
    owns := stringsIn (itemsMember facet (js "owns"))
    ownsEnums := stringsIn (itemsMember facet (js "ownsEnums"))
    augments := (itemsMember facet (js "augments")).filterMap augmentationOf
    augmentedBy := (itemsMember facet (js "augmentedBy")).filterMap augmentedByOf
    fragment := (fragmentPath.filter (· ≠ [])).bind (input.fragmentText loaded.packageName)
    fragmentPath := fragmentPath }

/-- One contribution for each package, whatever its number of instances. -/
def collectContributions (input : GeneratorInput N sha256Hex) : List PrismaContribution :=
  sortBy (·.plugin) (input.installed.filterMap (fun loaded =>
    loaded.manifest.facets.prisma.map (contributionOf input loaded)))

end Collect

section Validate

/-- One claim of a name by a plugin; another plugin that has it keeps it. -/
def claimName (collision : JsString → JsString → JsString → PluginDiagnostic)
    (state : Entries JsString JsString × List PluginDiagnostic) (claim : JsString × JsString) :
    Entries JsString JsString × List PluginDiagnostic :=
  match (InsertionMap.get state.1 claim.2).filter (fun existing =>
      existing ≠ [] ∧ existing ≠ claim.1) with
  | some existing => (state.1, state.2 ++ [collision claim.2 existing claim.1])
  | none => (InsertionMap.set state.1 claim.2 claim.1, state.2)

def ownerCollision (model existing plugin : JsString) : PluginDiagnostic :=
  diagnostic (js "owner-collision")
    (js "model " ++ quoted model ++ js " is claimed by " ++
      join (js " and ") (sorted [existing, plugin]) ++
      js ". A model has exactly one owner; the composer never picks")
    (some plugin) none (some (js "facets.prisma.owns." ++ model))

def enumOwnerCollision (name existing plugin : JsString) : PluginDiagnostic :=
  diagnostic (js "enum-owner-collision")
    (js "enum " ++ quoted name ++ js " is claimed by " ++
      join (js " and ") (sorted [existing, plugin]))
    (some plugin) none (some (js "facets.prisma.ownsEnums." ++ name))

/-- The names that the contributions claim, in the order they are gone through. -/
def claims (names : PrismaContribution → List JsString) (contributions : List PrismaContribution) :
    List (JsString × JsString) :=
  contributions.flatMap (fun c => (names c).map (fun name => (c.plugin, name)))

def ownerByModel (contributions : List PrismaContribution) :
    Entries JsString JsString × List PluginDiagnostic :=
  (claims (·.owns) contributions).foldl (claimName ownerCollision) ([], [])

def ownerByEnum (contributions : List PrismaContribution) :
    Entries JsString JsString × List PluginDiagnostic :=
  (claims (·.ownsEnums) contributions).foldl (claimName enumOwnerCollision) ([], [])

def augmentsPath (augment : PrismaAugmentation) : JsString :=
  js "facets.prisma.augments." ++ augment.targetModel ++ js "." ++ augment.field

def missingAugmentationTarget (c : PrismaContribution) (augment : PrismaAugmentation) :
    PluginDiagnostic :=
  diagnostic (js "missing-augmentation-target")
    (quoted c.plugin ++ js " augments model " ++ quoted augment.targetModel ++
      js ", which no installed plugin owns")
    (some c.plugin) none (some (augmentsPath augment))

def augmentationOwnerMismatch (c : PrismaContribution) (augment : PrismaAugmentation)
    (owner : JsString) : List PluginDiagnostic :=
  if augment.owner ≠ owner then
    [diagnostic (js "augmentation-owner-mismatch")
      (quoted c.plugin ++ js " declares " ++ quoted augment.targetModel ++ js " as owned by " ++
        quoted augment.owner ++ js ", but " ++ quoted owner ++ js " owns it")
      (some c.plugin) none (some (js "facets.prisma.augments." ++ augment.targetModel))]
  else []

def augmentationWithoutType (c : PrismaContribution) (augment : PrismaAugmentation) :
    List PluginDiagnostic :=
  if augment.type.getD [] = [] then
    [diagnostic (js "augmentation-without-type")
      (quoted c.plugin ++ js " augments " ++ augment.targetModel ++ js "." ++ augment.field ++
        js " without declaring a Prisma type, so the composer cannot write the field")
      (some c.plugin) none (some (augmentsPath augment))]
  else []

/-- A warning only: what an owner lists is documentation. -/
def undeclaredAugmentation (contributions : List PrismaContribution) (c : PrismaContribution)
    (augment : PrismaAugmentation) (owner : JsString) : List PluginDiagnostic :=
  match contributions.find? (fun candidate => candidate.plugin = owner) with
  | none => []
  | some candidate =>
    if candidate.augmentedBy.any (fun entry => entry.field = augment.field ∧
        (entry.plugin = c.plugin ∨ entry.plugin = c.packageName)) then []
    else
      [{ diagnostic (js "undeclared-augmentation")
          (quoted owner ++ js " does not list " ++ augment.field ++
            js " in facets.prisma.augmentedBy, but " ++ quoted c.plugin ++ js " adds it")
          (some owner) none (some (js "facets.prisma.augmentedBy." ++ augment.field)) with
        severity := .warning }]

def augmentDiagnostics (contributions : List PrismaContribution) (c : PrismaContribution)
    (augment : PrismaAugmentation) : List PluginDiagnostic :=
  match (InsertionMap.get (ownerByModel contributions).1 augment.targetModel).filter (· ≠ []) with
  | none => [missingAugmentationTarget c augment]
  | some owner =>
    augmentationOwnerMismatch c augment owner ++ augmentationWithoutType c augment ++
      undeclaredAugmentation contributions c augment owner

def prismaDiagnosticKey (d : PluginDiagnostic) : JsString :=
  join (js " ") [d.code, d.path.getD [], d.message]

def validateContributions (contributions : List PrismaContribution) : List PluginDiagnostic :=
  sortBy prismaDiagnosticKey
    ((ownerByModel contributions).2 ++ (ownerByEnum contributions).2 ++
      contributions.flatMap (fun c => c.augments.flatMap (augmentDiagnostics contributions c)))

end Validate

section Inject

def lineFeed : CodeUnit := 10

/-- What follows `model` and white space at the start of a line. -/
def afterModelKeyword (line : JsString) : Option JsString :=
  let rest := (line.dropWhile isSpaceUnit).drop 5
  if startsWith (line.dropWhile isSpaceUnit) (js "model") ∧ rest.takeWhile isSpaceUnit ≠ [] then
    some (rest.dropWhile isSpaceUnit)
  else none

def opensBrace (text : JsString) : Bool := startsWith (text.dropWhile isSpaceUnit) [unit '\x7b']

/-- `^\s*model\s+<model>\s*\{`, where the name is letters and digits. -/
def headsModel (model line : JsString) : Bool :=
  (afterModelKeyword line).any (fun text =>
    startsWith text model && opensBrace (text.drop model.length))

/-- `^\s*\}\s*$`. -/
def isClosing (line : JsString) : Bool :=
  match line.dropWhile isSpaceUnit with
  | u :: us => decide (u = unit '\x7d') && us.all isSpaceUnit
  | [] => false

/-- A blank line, or a block attribute. -/
def isTrailer (line : JsString) : Bool :=
  line.all isSpaceUnit || startsWith (line.dropWhile isSpaceUnit) (js "@@")

/-- A field to be written into a model. -/
structure InjectedField where
  field : JsString
  type : JsString
  plugin : JsString
  deriving DecidableEq

def fieldLine (entry : InjectedField) : JsString :=
  js "  " ++ entry.field ++ js " " ++ entry.type

def contributedBy (entry : InjectedField) : JsString :=
  js "  /// Contributed by @appspine/" ++ entry.plugin ++ js " (PL2-06 augmentation)."

def injectedBlock (fields : List InjectedField) : List JsString :=
  [] :: fields.flatMap (fun entry => [contributedBy entry, fieldLine entry])

/-- The lines with the fields in the first block of the model, before its closing brace and what
trails there. -/
def injectLines (lines : List JsString) (model : JsString) (fields : List InjectedField) :
    Option (List JsString) :=
  (lines.findIdx? (headsModel model)).bind (fun start =>
    let rest := lines.drop (start + 1)
    (rest.findIdx? isClosing).map (fun length =>
      let body := rest.take length
      lines.take (start + 1) ++ body.rdropWhile isTrailer ++ injectedBlock fields ++
        (body.rtakeWhile isTrailer ++ rest.drop length)))

/-- The fragment as it was when there is no field to write, or no place to write it. -/
def injectAugmentations (fragment model : JsString) (fields : List InjectedField) : JsString × Bool :=
  if fields = [] then (fragment, false)
  else
    match injectLines (fragment.splitOn lineFeed) model fields with
    | none => (fragment, false)
    | some lines => (join [lineFeed] lines, true)

end Inject

section Compose

/-- An augmentation as the plan and the digest list it. -/
structure PlannedAugmentation where
  targetModel : JsString
  field : JsString
  plugin : JsString
  type : JsString
  deriving DecidableEq

structure PlannedModel where
  model : JsString
  owner : JsString
  fragment : Option JsString
  deriving DecidableEq

structure PlannedEnum where
  name : JsString
  owner : JsString
  deriving DecidableEq

structure MigrationPlanInput where
  models : List PlannedModel
  enums : List PlannedEnum
  augmentations : List PlannedAugmentation
  digest : JsString

structure ComposeResult where
  diagnostics : List PluginDiagnostic
  schema : Option JsString
  plan : Option MigrationPlanInput

/-- A stable sort by a comparator. -/
def sortWith {α : Type*} (compare : α → α → Ordering) (xs : List α) : List α :=
  xs.insertionSort (fun a b => compare a b ≠ .gt)

/-- The order of code units, which `localeCompare` has on small letters. -/
def compareUnits (a b : JsString) : Ordering := compareOfLessAndEq a b

variable (localeCompare : JsString → JsString → Ordering)

def compareAugmentations (a b : PlannedAugmentation) : Ordering :=
  (localeCompare a.targetModel b.targetModel).then <|
    (localeCompare a.field b.field).then <|
      (localeCompare a.plugin b.plugin).then (localeCompare a.type b.type)

def plannedAugmentations (contributions : List PrismaContribution) : List PlannedAugmentation :=
  sortWith (compareAugmentations localeCompare)
    (contributions.flatMap (fun c => c.augments.map (fun augment =>
      { targetModel := augment.targetModel, field := augment.field, plugin := c.plugin,
        type := augment.type.getD (js "undefined") })))

/-- The fields to write into a model, in the order of the plan. -/
def fieldsFor (contributions : List PrismaContribution) (model : JsString) : List InjectedField :=
  ((plannedAugmentations localeCompare contributions).filter (fun a => a.targetModel = model)).map
    (fun a => { field := a.field, type := a.type, plugin := a.plugin })

/-- `s.replace(/\s*$/, '\n')` on a text with LF line ends. -/
def endWithNewline (text : JsString) : JsString := text.rdropWhile isSpaceUnit ++ [lineFeed]

/-- The text of a fragment with the fields of the models its package owns. -/
def fragmentWithFields (contributions : List PrismaContribution) (c : PrismaContribution)
    (fragment : JsString) : JsString :=
  (sorted c.owns).foldl
    (fun text model =>
      (injectAugmentations text model (fieldsFor localeCompare contributions model)).1)
    (endWithNewline (normalizeNewlines fragment))

def sectionComment (c : PrismaContribution) : JsString :=
  js "// ---- " ++ c.packageName ++ js " (" ++ c.fragmentPath.getD (js "inline") ++ js ") ----"

def sectionText (contributions : List PrismaContribution) (c : PrismaContribution)
    (fragment : JsString) : JsString :=
  join [lineFeed] [sectionComment c,
    (fragmentWithFields localeCompare contributions c fragment).rdropWhile (· = lineFeed), []]

def sections (contributions : List PrismaContribution) : List JsString :=
  contributions.filterMap (fun c =>
    (c.fragment.filter (· ≠ [])).map (sectionText localeCompare contributions c))

/-- The contribution that a model maps to: the last that owns it. -/
def plannedModels (contributions : List PrismaContribution) : List PlannedModel :=
  let owners := (contributions.flatMap (fun c => c.owns.map (fun model => (model, c)))).foldl
    (fun m e => InsertionMap.set m e.1 e.2) ([] : Entries JsString PrismaContribution)
  sortWith (fun a b => localeCompare a.model b.model) (owners.map (fun e =>
    { model := e.1, owner := e.2.plugin, fragment := e.2.fragmentPath }))

def plannedEnums (contributions : List PrismaContribution) : List PlannedEnum :=
  sortWith (fun a b => localeCompare a.name b.name)
    (contributions.flatMap (fun c => c.ownsEnums.map (fun name =>
      { name := name, owner := c.plugin })))

/-- An object of texts, as `JSON.stringify` prints it. -/
def textObject (members : List (JsString × JsString)) : JsString :=
  braces (members.map (fun m => member m.1 m.2))

def plannedModelText (m : PlannedModel) : JsString :=
  textObject [(js "model", quote m.model), (js "owner", quote m.owner),
    (js "fragment", m.fragment.elim (js "null") quote)]

def plannedEnumText (e : PlannedEnum) : JsString :=
  textObject [(js "name", quote e.name), (js "owner", quote e.owner)]

def plannedAugmentationText (a : PlannedAugmentation) : JsString :=
  textObject [(js "targetModel", quote a.targetModel), (js "field", quote a.field),
    (js "plugin", quote a.plugin), (js "type", quote a.type)]

def schemaDigest (sha256Hex : JsString → JsString) (contributions : List PrismaContribution) :
    JsString :=
  hash sha256Hex (textObject
    [(js "models", brackets ((plannedModels localeCompare contributions).map plannedModelText)),
      (js "enums", brackets ((plannedEnums localeCompare contributions).map plannedEnumText)),
      (js "augmentations",
        brackets ((plannedAugmentations localeCompare contributions).map plannedAugmentationText))])

def schemaHeader (source digest : JsString) : List JsString :=
  [js "// GENERATED BY @appspine/plugin-cli — DO NOT EDIT.",
    js "//",
    js "// Composed from each plugin package’s own .prisma fragment. Run `appspine build` to",
    js "// regenerate. This file is a schema, not a migration: nothing here has been applied to any",
    js "// database, and installing or enabling a plugin never will (051 拆解 §2.3).",
    js "//",
    js "// sourceDigest: " ++ source,
    js "// schemaDigest: " ++ digest,
    js "//",
    js "// The datasource and generator blocks stay in the App’s own schema: they are deployment",
    js "// configuration, not a plugin contribution."]

def schemaText (input : GeneratorInput N sha256Hex) (contributions : List PrismaContribution) :
    JsString :=
  join [lineFeed] (schemaHeader (sourceDigest input)
    (schemaDigest localeCompare sha256Hex contributions) ++ [[]]) ++
    join [lineFeed] (sections localeCompare contributions)

def compose (input : GeneratorInput N sha256Hex) : ComposeResult :=
  let contributions := collectContributions input
  let diagnostics := validateContributions contributions
  if hasErrors diagnostics then { diagnostics := diagnostics, schema := none, plan := none }
  else
    { diagnostics := diagnostics
      schema := some (schemaText localeCompare input contributions)
      plan := some
        { models := plannedModels localeCompare contributions
          enums := plannedEnums localeCompare contributions
          augmentations := plannedAugmentations localeCompare contributions
          digest := schemaDigest localeCompare sha256Hex contributions } }

/-- A fallback for a composition that failed. -/
def compositionFailed (diagnostics : List PluginDiagnostic) : JsString :=
  join [lineFeed] ([js "COMPOSITION FAILED - this is not a valid Prisma schema.", []] ++
    diagnostics.map (fun entry => entry.code ++ js ": " ++ entry.message) ++ [[]])

def generatePrismaSchema (input : GeneratorInput N sha256Hex) : GeneratedArtifact :=
  let result := compose localeCompare input
  { path := SCHEMA_ARTIFACT
    contents := result.schema.getD (compositionFailed result.diagnostics) }

end Compose

end Appspine.Prisma
