import Appspine.Commands

/-!
# Generation input and source digest

What the generators run on: the resolved input of `build`, the identity of the tool, and the
texts of the fragments that packages ship. Each artefact records the digest of its sources.
-/
namespace Appspine.Generate
open JsText StableSort InsertionMap JsonText PluginManifest Resolver Commands
open Inventory (LoadedPreset)

variable {N : Type} [JsonNumber N] {sha256Hex : JsString → JsString}

structure GeneratedBy where
  tool : JsString
  version : JsString
  deriving DecidableEq

/-- `fragmentText` reads a file of a package, by package name and package-relative path. -/
structure GeneratorInput (N : Type) [JsonNumber N] (sha256Hex : JsString → JsString) extends
    GenerationInput N sha256Hex where
  generatedBy : GeneratedBy
  fragmentText : JsString → JsString → Option JsString

structure GeneratedArtifact where
  path : JsString
  contents : JsString
  deriving DecidableEq

def GENERATED_DIR : JsString := js ".appspine/generated"

def CLI_TOOL_NAME : JsString := js "@appspine/plugin-cli"

/-- What `build` hands to the generators, or how it refuses before. -/
def generatorInput (app : AppRoot N sha256Hex)
    (fragmentText : JsString → JsString → Option JsString) (version : JsString) :
    Except (ExitCode × List PluginDiagnostic) (GeneratorInput N sha256Hex) :=
  (buildInput app).map (fun generation =>
    { generation with
      generatedBy := { tool := CLI_TOOL_NAME, version := version }
      fragmentText := fragmentText })

structure PresetSummary where
  package : JsString
  version : JsString
  id : JsString
  contributes : List JsString
  deriving DecidableEq

def summaryOf (provenance : Entries JsString JsString) (preset : LoadedPreset) : PresetSummary :=
  { package := preset.packageName
    version := preset.packageVersion
    id := preset.document.id
    contributes := sorted ((provenance.filter (fun e => e.2 = preset.packageName)).map Prod.fst) }

def presetSummary (presets : List LoadedPreset) (provenance : Entries JsString JsString) :
    List PresetSummary :=
  sortBy (·.package) (presets.map (summaryOf provenance))

def GeneratorInput.presetSummary (input : GeneratorInput N sha256Hex) : List PresetSummary :=
  Generate.presetSummary input.presets input.presetProvenance

section SourceDigest

def entryJson (entry : PluginInventoryEntry) : Json N :=
  .obj ([(js "plugin", .str entry.plugin), (js "instanceId", .str entry.instanceId),
    (js "enabled", .bool entry.enabled), (js "required", .bool entry.required)] ++
    optionalMember (js "configRef") (entry.configRef.map .str))

def presetVersionJson (preset : PresetSummary) : Json N :=
  .obj [(js "package", .str preset.package), (js "version", .str preset.version)]

def loadedJson (loaded : LoadedPluginManifest N sha256Hex) : Json N :=
  .obj [(js "packageName", .str loaded.packageName),
    (js "packageVersion", .str loaded.packageVersion), (js "digest", .str loaded.digest)]

/-- The manifests of the input, in the order of their references. -/
def GeneratorInput.loaded (input : GeneratorInput N sha256Hex) :
    List (LoadedPluginManifest N sha256Hex) :=
  input.manifests.byRef.map Prod.snd

def sourceDocument (input : GeneratorInput N sha256Hex) : Json N :=
  .obj [(js "inventory", .arr (input.plugins.map entryJson)),
    (js "presets", .arr (input.presetSummary.map presetVersionJson)),
    (js "resolution", .str input.graph.digest),
    (js "manifests", .arr ((sortBy (·.packageName) input.loaded).map loadedJson))]

def sourceDigest (input : GeneratorInput N sha256Hex) : JsString :=
  hash sha256Hex (canonicalJsonString (sourceDocument input))

end SourceDigest

/-- The first manifest of a package, as the generators look it up. -/
def GeneratorInput.manifestOf (input : GeneratorInput N sha256Hex) (packageName : JsString) :
    Option (LoadedPluginManifest N sha256Hex) :=
  input.loaded.find? (fun candidate => candidate.packageName = packageName)

/-- The manifests of the packages that have an enabled instance, one for each package. -/
def GeneratorInput.installed (input : GeneratorInput N sha256Hex) :
    List (LoadedPluginManifest N sha256Hex) :=
  firstBy (·.packageName) (input.graph.instances.filterMap (fun i => input.manifestOf i.packageName))

section Reading

omit [JsonNumber N]

/-- `xs.find` on the last entry: what `new Map(xs.map((x) => [f(x), x]))` has under a key. -/
def lastBy {α κ : Type*} [DecidableEq κ] (f : α → κ) (xs : List α) (k : κ) : Option α :=
  xs.reverse.find? (fun x => f x = k)

def textMember (members : List (JsString × Json N)) (k : JsString) : Option JsString :=
  match InsertionMap.get members k with
  | some (.str s) => some s
  | _ => none

def flagMember (members : List (JsString × Json N)) (k : JsString) : Option Bool :=
  match InsertionMap.get members k with
  | some (.bool b) => some b
  | _ => none

/-- An array member; an absent one is empty. -/
def itemsMember (members : List (JsString × Json N)) (k : JsString) : List (Json N) :=
  match InsertionMap.get members k with
  | some (.arr items) => items
  | _ => []

/-- `s.replace(/\r\n/g, '\n')`. -/
def normalizeNewlines : JsString → JsString
  | [] => []
  | [u] => [u]
  | u :: v :: us =>
    if u.val = 13 ∧ v.val = 10 then v :: normalizeNewlines us else u :: normalizeNewlines (v :: us)

/-- `facets.prisma.schemaFragment`. -/
def schemaFragmentOf (manifest : PluginManifestV1 N) : Option JsString :=
  manifest.facets.prisma.bind (fun members => textMember members (js "schemaFragment"))

end Reading

/-- An App without presets that has these plugins installed, each as `@x/<id>`. -/
def installedApp (sha256Hex : JsString → JsString) (installed : List (PluginManifestV1 ℤ))
    (plugins : List PluginInventoryEntry) : AppRoot ℤ sha256Hex where
  path := js "/app"
  inventory := .document [] { presets := none, plugins := plugins }
  readPreset _ := none
  readManifestFor ref :=
    match installed.find? (fun manifest => js "@x/" ++ manifest.id = ref) with
    | some manifest => .ok (.ofManifest _ manifest ref (js "1"), [])
    | none => .error [diagnostic (js "plugin-package-not-found") (js "no appspine.plugin.json")
        none none (some ref)]

end Appspine.Generate
