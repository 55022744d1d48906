import Appspine.FrontendGenerator

/-!
# The registered generators

The catalog, the Nest composition and the permission plan as the files that `build` writes, and
the registry of all eight generators. JSON artefacts are printed with an indent of two spaces.
-/
namespace Appspine.Generators
open JsText StableSort InsertionMap JsonText PluginManifest Resolver Commands Generate
open Lockfile (EnvironmentKey environmentOf entryKey loadedEntries)
open Permissions (PermissionOp PermissionDocument)

variable {N : Type}

section Indented

/-- The text between two items at the given depth. -/
def lineBreak (depth : ℕ) : JsString := unit '\n' :: List.replicate (2 * depth) (unit ' ')

/-- Items on lines of their own. -/
def block (opening closing : CodeUnit) (depth : ℕ) (texts : List JsString) : JsString :=
  if texts = [] then [opening, closing]
  else
    opening :: (lineBreak (depth + 1) ++ join (unit ',' :: lineBreak (depth + 1)) texts ++
      lineBreak depth ++ [closing])

variable [JsonNumber N]

mutual

/-- `JSON.stringify(value, null, 2)`, inside a value at the given depth. -/
def indented (depth : ℕ) : Json N → JsString
  | .null => js "null"
  | .bool b => if b then js "true" else js "false"
  | .num n => JsonNumber.text n
  | .str s => quote s
  | .arr items => block (unit '[') (unit ']') depth (indentedItems (depth + 1) items)
  | .obj members =>
    block (unit '\x7b') (unit '\x7d') depth (indentedMembers (depth + 1) members)

def indentedItems (depth : ℕ) : List (Json N) → List JsString
  | [] => []
  | j :: items => indented depth j :: indentedItems depth items

def indentedMembers (depth : ℕ) : List (JsString × Json N) → List JsString
  | [] => []
  | (k, v) :: members => (quote k ++ js ": " ++ indented depth v) :: indentedMembers depth members

end

/-- A document as a file. -/
def documentText (document : Json N) : JsString := indented 0 document ++ js "\n"

end Indented

section Documents

variable [JsonNumber N] {sha256Hex : JsString → JsString}

def generatedByJson (generatedBy : GeneratedBy) : Json N :=
  .obj [(js "tool", .str generatedBy.tool), (js "version", .str generatedBy.version)]

/-- A text, or `null`. -/
def textOrNull (text : Option JsString) : Json N := text.elim .null .str

def presetJson (preset : PresetSummary) : Json N :=
  .obj [(js "package", .str preset.package), (js "version", .str preset.version),
    (js "id", .str preset.id), (js "contributes", strings preset.contributes)]

end Documents

section Catalog

variable [JsonNumber N] {sha256Hex : JsString → JsString}

def CATALOG_ARTIFACT : JsString := GENERATED_DIR ++ js "/catalog.json"

structure CatalogArtifactEntry where
  key : JsString
  pluginId : JsString
  instanceId : JsString
  packageName : JsString
  packageVersion : JsString
  digest : JsString
  manifestDigest : JsString
  enabled : Bool
  required : Bool
  provides : List JsString
  requires : List JsString
  unresolvedOptional : List JsString
  configRef : Option JsString
  fromPreset : Option JsString
  environment : List EnvironmentKey
  routes : List JsString
  providerTokens : List JsString
  prismaModels : List JsString
  healthIndicatorId : Option JsString

/-- `facets.prisma.owns`. -/
def ownedModels (manifest : PluginManifestV1 N) : List JsString :=
  manifest.facets.prisma.elim [] (fun facet => stringsIn (itemsMember facet (js "owns")))

def catalogEntry (input : GeneratorInput N sha256Hex) (entry : PluginInventoryEntry)
    (loaded : LoadedPluginManifest N sha256Hex) : CatalogArtifactEntry :=
  let key := entryKey loaded entry
  let resolved := lastBy (·.key) input.graph.instances key
  let backend := loaded.manifest.facets.backend
  { key := key
    pluginId := loaded.manifest.id
    instanceId := entry.instanceId
    packageName := loaded.packageName
    packageVersion := loaded.packageVersion
    digest := loaded.digest
    manifestDigest := loaded.manifestDigest
    enabled := entry.enabled
    required := entry.required
    provides := resolved.elim loaded.manifest.provides (·.provides)
    requires := loaded.manifest.requires
    unresolvedOptional := resolved.elim [] (·.unresolvedOptional)
    configRef := entry.configRef
    fromPreset := InsertionMap.get input.presetProvenance key
    environment := environmentOf loaded.manifest
    routes := sorted ((backend.bind (·.controllerRoutes)).getD [])
    providerTokens := sorted ((backend.bind (·.providerTokens)).getD [])
    prismaModels := sorted (ownedModels loaded.manifest)
    healthIndicatorId := loaded.manifest.facets.operations.bind (·.healthIndicatorId) }

def environmentJson (env : EnvironmentKey) : Json N :=
  .obj [(js "key", .str env.key), (js "required", .bool env.required), (js "secret", .bool env.secret)]

def CatalogArtifactEntry.toJson (entry : CatalogArtifactEntry) : Json N :=
  .obj [(js "key", .str entry.key), (js "pluginId", .str entry.pluginId),
    (js "instanceId", .str entry.instanceId), (js "packageName", .str entry.packageName),
    (js "packageVersion", .str entry.packageVersion), (js "digest", .str entry.digest),
    (js "manifestDigest", .str entry.manifestDigest),
    (js "status", .str (if entry.enabled then js "enabled" else js "disabled")),
    (js "required", .bool entry.required), (js "provides", strings entry.provides),
    (js "requires", strings entry.requires),
    (js "unresolvedOptional", strings entry.unresolvedOptional),
    (js "configRef", textOrNull entry.configRef), (js "fromPreset", textOrNull entry.fromPreset),
    (js "environment", .arr (entry.environment.map environmentJson)),
    (js "routes", strings entry.routes), (js "providerTokens", strings entry.providerTokens),
    (js "prismaModels", strings entry.prismaModels),
    (js "healthIndicatorId", textOrNull entry.healthIndicatorId)]

def catalogEntries (input : GeneratorInput N sha256Hex) : List CatalogArtifactEntry :=
  sortBy (·.key) ((loadedEntries input).map (fun e => catalogEntry input e.1 e.2))

def catalogDocument (input : GeneratorInput N sha256Hex) : Json N :=
  .obj [(js "schemaVersion", .str (js "appspine.catalog/v1")),
    (js "generatedBy", generatedByJson input.generatedBy),
    (js "sourceDigest", .str (sourceDigest input)),
    (js "resolutionDigest", .str input.graph.digest),
    (js "order", strings input.graph.order),
    (js "presets", .arr (input.presetSummary.map presetJson)),
    (js "entries", .arr ((catalogEntries input).map CatalogArtifactEntry.toJson)),
    (js "note", .str (js "Generated by @appspine/plugin-cli. Do not edit; run `appspine build`."))]

def generateCatalog (input : GeneratorInput N sha256Hex) : GeneratedArtifact :=
  { path := CATALOG_ARTIFACT, contents := documentText (catalogDocument input) }

end Catalog

section Composition

variable [JsonNumber N] {sha256Hex : JsString → JsString} (toUpperCase : JsString → JsString)

def COMPOSITION_ARTIFACT : JsString := GENERATED_DIR ++ js "/backend/composition.ts"

def descriptorExportName (pluginId : JsString) : JsString :=
  Frontend.camelCase toUpperCase pluginId.length pluginId ++ js "Plugin"

/-- A local alias per package, so that two ids that read alike do not collide. -/
def localAlias (pluginId : JsString) (index : ℕ) : JsString :=
  descriptorExportName toUpperCase pluginId ++ js "_" ++ js (toString index)

structure ComposedPackage where
  packageName : JsString
  pluginId : JsString
  packageVersion : JsString
  deriving DecidableEq

def composedPackage (i : ResolvedPluginInstance N) : ComposedPackage :=
  { packageName := i.packageName, pluginId := i.pluginId, packageVersion := i.packageVersion }

/-- One package for its instances, in the order of the graph. -/
def packagesInOrder (input : GeneratorInput N sha256Hex) : List ComposedPackage :=
  firstBy (·.packageName) (input.graph.order.filterMap (fun key =>
    (input.graph.instances.find? (fun candidate => candidate.key = key)).map composedPackage))

def importLine (entry : ComposedPackage × ℕ) : JsString :=
  js "import \x7b " ++ descriptorExportName toUpperCase entry.1.pluginId ++ js " as " ++
    localAlias toUpperCase entry.1.pluginId entry.2 ++ js " \x7d from '" ++ entry.1.packageName ++
    js "/plugin';"

def boolText (b : Bool) : JsString := if b then js "true" else js "false"

def inventoryLine (entry : PluginInventoryEntry) : JsString :=
  js "    \x7b " ++ join (js ", ")
    ([js "plugin: " ++ quote entry.plugin, js "instanceId: " ++ quote entry.instanceId,
      js "enabled: " ++ boolText entry.enabled, js "required: " ++ boolText entry.required] ++
      (entry.configRef.filter (· ≠ [])).toList.map (fun c => js "configRef: " ++ quote c)) ++
    js " \x7d,"

def pluginLine (entry : ComposedPackage × ℕ) : JsString :=
  js "    \x7b plugin: " ++ localAlias toUpperCase entry.1.pluginId entry.2 ++
    js ", packageName: " ++ quote entry.1.packageName ++ js ", packageVersion: " ++
    quote entry.1.packageVersion ++ js " \x7d,"

def compositionHeader (source resolution : JsString) : List JsString :=
  [js "// GENERATED BY @appspine/plugin-cli — DO NOT EDIT.",
    js "//",
    js "// Run `appspine build` to regenerate, and `appspine build --check` to verify.",
    js "// sourceDigest: " ++ source,
    js "// resolutionDigest: " ++ resolution,
    js "//",
    js "// Every plugin below is a static import. Nothing here resolves a package name at",
    js "// runtime: the bundler, TypeScript and a dependency scanner must all see the edge.",
    [],
    js "import type \x7b GeneratedComposition \x7d from '@appspine/plugin-host-nest';"]

def compositionLines (input : GeneratorInput N sha256Hex) : List JsString :=
  let packages := (packagesInOrder input).zipIdx
  compositionHeader (sourceDigest input) input.graph.digest ++
    packages.map (importLine toUpperCase) ++
    [[], js "export const composition: GeneratedComposition = \x7b",
      js "  schemaVersion: 'appspine.composition/v1',",
      js "  resolutionDigest: " ++ quote input.graph.digest ++ js ",",
      js "  inventory: ["] ++
    (sortBy (fun e => e.plugin ++ unit ' ' :: e.instanceId) input.plugins).map inventoryLine ++
    [js "  ],", js "  plugins: ["] ++ packages.map (pluginLine toUpperCase) ++
    [js "  ],",
      js "  generatedBy: \x7b tool: " ++ quote input.generatedBy.tool ++ js ", version: " ++
        quote input.generatedBy.version ++ js " \x7d,",
      js "\x7d;", [], js "export default composition;", []]

def generateComposition (input : GeneratorInput N sha256Hex) : GeneratedArtifact :=
  { path := COMPOSITION_ARTIFACT, contents := join (js "\n") (compositionLines toUpperCase input) }

end Composition

section PermissionPlan

variable [JsonNumber N] {sha256Hex : JsString → JsString}

def severityText : DiagnosticSeverity → JsString
  | .error => js "error"
  | .warning => js "warning"
  | .info => js "info"

/-- A definition as it is written: a bare id gets a display name, an object stays what it is in the
manifest. -/
def definitionJson : Json N → Json N
  | .str id => .obj [(js "id", .str id), (js "displayName", .str id)]
  | definition => definition

/-- The items of `facets.permissions.definitions`. -/
def definitionItems (manifest : PluginManifestV1 N) : List (Json N) :=
  match InsertionMap.get manifest.facets.rest (js "permissions") with
  | some (.obj facet) => itemsMember facet (js "definitions")
  | _ => []

/-- The definitions of a manifest in its own namespace, with their ids. -/
def namespacedDefinitions (manifest : PluginManifestV1 N) : List (JsString × Json N) :=
  (definitionItems manifest).filterMap (fun definition =>
    ((Permissions.definitionOf definition).filter (Permissions.inNamespace manifest)).map (fun entry =>
      (entry.id, definitionJson definition)))

def desiredJson (input : GeneratorInput N sha256Hex) : List (Json N) :=
  (sortBy Prod.fst (input.installed.flatMap (fun loaded =>
    namespacedDefinitions loaded.manifest))).map Prod.snd

def operationJson (o : PermissionOp) : Json N :=
  .obj ((js "op", .str o.op) :: (js "id", .str o.id) :: o.details.map (fun m => (m.1, .str m.2)))

def permissionDocumentJson (document : PermissionDocument) (desired : List (Json N)) : Json N :=
  .obj [(js "schemaVersion", .str (js "appspine.permissions/v1")),
    (js "generatedBy", generatedByJson document.generatedBy),
    (js "sourceDigest", .str document.sourceDigest),
    (js "planDigest", textOrNull document.planDigest),
    (js "desired", .arr desired),
    (js "freshInstallPlan", .arr (document.freshInstallPlan.map operationJson)),
    (js "diagnostics", .arr (document.diagnostics.map (fun d =>
      .obj [(js "code", .str d.1), (js "severity", .str (severityText d.2.1)),
        (js "message", .str d.2.2)]))),
    (js "note", .str (js ("Generated by @appspine/plugin-cli. The plan here is for a fresh install; " ++
      "an apply adapter reconciles it against the App database, which this tool never reads or " ++
      "writes.")))]

def permissionArtifact (input : GeneratorInput N sha256Hex) : GeneratedArtifact :=
  { path := Permissions.PERMISSION_ARTIFACT
    contents := documentText
      (permissionDocumentJson (Permissions.generatePermissionPlan input) (desiredJson input)) }

end PermissionPlan

section Registry

variable [JsonNumber N] [LinearOrder N] [Zero N] {sha256Hex : JsString → JsString}
  (localeCompare : JsString → JsString → Ordering) (toUpperCase : JsString → JsString)

abbrev Generator (N : Type) [JsonNumber N] (sha256Hex : JsString → JsString) : Type :=
  GeneratorInput N sha256Hex → Except JsString GeneratedArtifact

def GENERATORS : List (Generator N sha256Hex) :=
  [fun input => .ok (generateCatalog input),
    fun input => .ok (generateComposition toUpperCase input),
    fun input => .ok (Prisma.generatePrismaSchema localeCompare input),
    fun input => .ok (permissionArtifact input),
    Frontend.generateFrontendNavigation localeCompare,
    Frontend.generateFrontendAdminRoutes localeCompare toUpperCase,
    Frontend.generateFrontendSlots localeCompare,
    Frontend.generateFrontendI18n localeCompare]

/-- All artefacts by path; a generator that throws leaves none. -/
def generateAll (input : GeneratorInput N sha256Hex) : Except JsString (List GeneratedArtifact) :=
  ((GENERATORS localeCompare toUpperCase).mapM
    (fun generate : Generator N sha256Hex => generate input)).map (sortBy (·.path))

end Registry

end Appspine.Generators
