import Appspine.Presets
import Appspine.CompositionBoot

/-!
# `validate` and `build`

Both commands load the inventory and its manifests and share the check. `validate` checks the
file as written, `build` the inventory after preset expansion; they judge the same App exactly
when the file names every instance its presets contribute.
-/
namespace Appspine.Commands
open JsText StableSort InsertionMap JsonText PluginManifest Resolver Appspine.Composition
open ConfigBoundary (checkConfigBoundary hasErrors_checkConfigBoundary)
open Inventory hiding keyOf inventorySortKey duplicateInstance

variable {N : Type} [JsonNumber N] {sha256Hex : JsString → JsString}

section Load

/-- What reading `appspine.plugins.json` gives before it is checked. -/
inductive InventorySource where
  | notFound
  | malformed (message : JsString)
  | document (schemaErrors : List SchemaError) (candidate : InventoryFile)

/-- An App: its inventory file, the presets it can read, and the manifest for a reference with
the diagnostics of reading it. -/
structure AppRoot (N : Type) [JsonNumber N] (sha256Hex : JsString → JsString) where
  path : JsString
  inventory : InventorySource
  readPreset : JsString → Option LoadedPreset
  readManifestFor : JsString →
    Except (List PluginDiagnostic) (LoadedPluginManifest N sha256Hex × List PluginDiagnostic)

def INVENTORY_FILENAME : JsString := js "appspine.plugins.json"

def readInventory (app : AppRoot N sha256Hex) : Except (List PluginDiagnostic) ParsedInventory :=
  match app.inventory with
  | .notFound =>
    .error [diagnostic (js "inventory-not-found")
      (INVENTORY_FILENAME ++ js " not found in " ++ app.path) none none (some INVENTORY_FILENAME)]
  | .malformed message =>
    .error [diagnostic (js "inventory-malformed-json")
      (INVENTORY_FILENAME ++ js " is not valid JSON: " ++ message) none none
      (some INVENTORY_FILENAME)]
  | .document schemaErrors candidate => parseInventory schemaErrors candidate

/-- The manifests of an inventory, by reference and by plugin id. -/
structure LoadedManifests (N : Type) [JsonNumber N] (sha256Hex : JsString → JsString) extends
    ManifestSet N sha256Hex where
  byPluginId : Entries JsString (PluginManifestV1 N)
  diagnostics : List PluginDiagnostic

def LoadedManifests.empty : LoadedManifests N sha256Hex :=
  { byRef := [], missing := [], nodup := List.nodup_nil, byPluginId := [], diagnostics := [] }

def readRef (app : AppRoot N sha256Hex) (manifests : LoadedManifests N sha256Hex) (ref : JsString) :
    LoadedManifests N sha256Hex :=
  match app.readManifestFor ref with
  | .error diagnostics =>
    { manifests with
      missing := manifests.missing ++ [ref]
      diagnostics := manifests.diagnostics ++ diagnostics }
  | .ok (loaded, diagnostics) =>
    { manifests with
      byRef := InsertionMap.set manifests.byRef ref loaded
      nodup := nodup_keys_set manifests.nodup ref loaded
      byPluginId := InsertionMap.set manifests.byPluginId loaded.manifest.id loaded.manifest
      diagnostics := manifests.diagnostics ++ diagnostics }

def readManifestsFor (app : AppRoot N sha256Hex) (refs : List JsString) :
    LoadedManifests N sha256Hex :=
  (sorted (distinct refs)).foldl (readRef app) LoadedManifests.empty

end Load

section Check

/-- Schema, boundary and resolution diagnostics for a candidate inventory. -/
def checkInventory (plugins : List PluginInventoryEntry) (manifests : LoadedManifests N sha256Hex) :
    ResolveCheck N :=
  let resolved := resolveInventory plugins manifests.toManifestSet AMBIENT_CAPABILITIES
  { graph := resolved.graph
    diagnostics := checkConfigBoundary plugins manifests.byPluginId ++ resolved.diagnostics }

inductive ExitCode where
  | ok
  | internalError
  | usage
  | validationFailed
  | resolutionFailed
  | driftDetected
  | notFound
  | conflict
  deriving DecidableEq

structure ValidateResult where
  exitCode : ExitCode
  diagnostics : List PluginDiagnostic
  missing : Option (List JsString)
  order : Option (List JsString)
  resolutionDigest : Option JsString

def validated (entries instances : ℕ) : PluginDiagnostic :=
  { diagnostic (js "validated")
      (js (toString entries) ++ js " entrie(s) valid; " ++ js (toString instances) ++
        js " instance(s) resolve") none none none with
    severity := .info }

def validate (app : AppRoot N sha256Hex) : ValidateResult :=
  match readInventory app with
  | .error diagnostics =>
    { exitCode := .validationFailed, diagnostics := diagnostics, missing := none, order := none,
      resolutionDigest := none }
  | .ok read =>
    let manifests := readManifestsFor app (read.inventory.plugins.map (·.plugin))
    if manifests.missing ≠ [] then
      { exitCode := .validationFailed, diagnostics := read.diagnostics ++ manifests.diagnostics,
        missing := some manifests.missing, order := none, resolutionDigest := none }
    else
      let checked := checkInventory read.inventory.plugins manifests
      let diagnostics := read.diagnostics ++ manifests.diagnostics ++ checked.diagnostics
      if hasErrors diagnostics then
        { exitCode := .resolutionFailed, diagnostics := diagnostics, missing := none, order := none,
          resolutionDigest := none }
      else
        { exitCode := .ok
          diagnostics := diagnostics ++ [validated read.inventory.plugins.length
            (checked.graph.elim 0 (·.order.length))]
          missing := none
          order := checked.graph.map (·.order)
          resolutionDigest := checked.graph.map (·.digest) }

/-- What generation runs on. -/
structure GenerationInput (N : Type) [JsonNumber N] (sha256Hex : JsString → JsString) where
  plugins : List PluginInventoryEntry
  manifests : LoadedManifests N sha256Hex
  graph : ResolutionGraph N
  presetProvenance : Entries JsString JsString
  presets : List LoadedPreset

def generationRefused : PluginDiagnostic :=
  diagnostic (js "generation-refused")
    (js ("the inventory does not resolve, so no artefacts were generated. Generating from a broken " ++
      "graph would produce files that describe something the App cannot boot")) none none none

/-- `build` up to the point where it generates: the input, or how it refuses. -/
def buildInput (app : AppRoot N sha256Hex) :
    Except (ExitCode × List PluginDiagnostic) (GenerationInput N sha256Hex) :=
  match readInventory app with
  | .error diagnostics => .error (.validationFailed, diagnostics)
  | .ok read =>
    let expanded := expandPresets app.readPreset read.inventory
    let manifests := readManifestsFor app (expanded.entries.map (·.plugin))
    let diagnostics := read.diagnostics ++ expanded.diagnostics ++ manifests.diagnostics
    if manifests.missing ≠ [] then
      .error (.validationFailed, diagnostics ++ manifests.diagnostics)
    else
      let checked := checkInventory expanded.entries manifests
      match checked.graph with
      | none => .error (.resolutionFailed, generationRefused :: checked.diagnostics)
      | some graph =>
        if hasErrors checked.diagnostics then
          .error (.resolutionFailed, generationRefused :: checked.diagnostics)
        else
          .ok
            { plugins := expanded.entries, manifests := manifests, graph := graph,
              presetProvenance := expanded.provenance, presets := expanded.presets }

end Check

section Accepted

/-- A resolution that fails says so. -/
lemma hasErrors_resolvePlugins {Obj : Type} [DecidableEq Obj] {options : ResolveOptions N Obj}
    {diagnostics : List PluginDiagnostic}
    (h : resolvePlugins sha256Hex options = .error diagnostics) : hasErrors diagnostics = true := by
  simp only [resolvePlugins] at h
  split at h
  · rename_i herrors
    obtain rfl := Except.error.inj h
    rw [← herrors]
    exact hasErrors_perm (sortBy_perm _ _)
  · cases h

/-- What a check without errors gives. -/
structure Passes (plugins : List PluginInventoryEntry) (manifests : LoadedManifests N sha256Hex)
    (graph : ResolutionGraph N) : Prop where
  boundary : ∀ entry ∈ plugins, ConfigBoundary.entryBoundary manifests.byPluginId entry 0 = []
  accepts : Accepts (cliOptions plugins manifests.toManifestSet AMBIENT_CAPABILITIES) sha256Hex
  graph_eq : graph =
    (cliOptions plugins manifests.toManifestSet AMBIENT_CAPABILITIES).graph sha256Hex

lemma Passes.diagnostics {plugins : List PluginInventoryEntry}
    {manifests : LoadedManifests N sha256Hex} {graph : ResolutionGraph N}
    (h : Passes plugins manifests graph) (hmissing : manifests.missing = []) :
    (checkInventory plugins manifests).graph = some graph ∧
      hasErrors (checkInventory plugins manifests).diagnostics = false := by
  have hresolved := resolvePlugins_of_accepts sha256Hex h.accepts
  rw [← h.graph_eq] at hresolved
  have hgraph : hasErrors graph.diagnostics = false := by
    rw [h.graph_eq, graph_diagnostics]
    exact (hasErrors_perm (sortBy_perm _ _)).trans h.accepts.linked
  simp only [checkInventory, resolveInventory, hmissing, ne_eq, not_true_eq_false, if_false,
    hresolved, hasErrors_append, hgraph, Bool.or_false]
  exact ⟨trivial, hasErrors_checkConfigBoundary.mpr h.boundary⟩

lemma passes_of_no_errors {plugins : List PluginInventoryEntry}
    {manifests : LoadedManifests N sha256Hex} (hmissing : manifests.missing = [])
    (h : hasErrors (checkInventory plugins manifests).diagnostics = false) :
    ∃ graph, Passes plugins manifests graph := by
  simp only [checkInventory, resolveInventory, hmissing, ne_eq, not_true_eq_false, if_false,
    hasErrors_append, Bool.or_eq_false_iff] at h
  obtain ⟨hboundary, hresolved⟩ := h
  cases hresolve : resolvePlugins sha256Hex
      (cliOptions plugins manifests.toManifestSet AMBIENT_CAPABILITIES) with
  | error diagnostics =>
    rw [hresolve, hasErrors_resolvePlugins hresolve] at hresolved
    cases hresolved
  | ok graph =>
    obtain ⟨haccepts, hgraph⟩ := (resolvePlugins_eq_ok sha256Hex).mp hresolve
    exact ⟨graph, hasErrors_checkConfigBoundary.mp hboundary, haccepts, hgraph⟩

/-- The manifests that are loaded depend on which references there are, not on their order. -/
lemma readManifestsFor_eq (app : AppRoot N sha256Hex) {refs refs' : List JsString}
    (h : refs.Perm refs') : readManifestsFor app refs = readManifestsFor app refs' := by
  rw [readManifestsFor, sorted_distinct_eq (fun _ => h.mem_iff), readManifestsFor]

lemma Passes.perm {plugins plugins' : List PluginInventoryEntry}
    {manifests : LoadedManifests N sha256Hex} {graph : ResolutionGraph N}
    (h : Passes plugins manifests graph) (hperm : plugins.Perm plugins') :
    ∃ graph', Passes plugins' manifests graph' ∧ graph'.order = graph.order ∧
      graph'.digest = graph.digest := by
  have hrearranged : Rearranged
      (cliOptions plugins manifests.toManifestSet AMBIENT_CAPABILITIES)
      (cliOptions plugins' manifests.toManifestSet AMBIENT_CAPABILITIES) :=
    ⟨hperm, List.Perm.refl _, List.Perm.refl _, rfl, rfl⟩
  refine ⟨_, ⟨fun entry hentry => h.boundary entry (hperm.mem_iff.mpr hentry),
    hrearranged.accepts h.accepts, rfl⟩, ?_, ?_⟩
  · rw [hrearranged.graph h.accepts, h.graph_eq]
  · rw [hrearranged.graph h.accepts, h.graph_eq]

/-- The order of an accepted resolution has a key for every enabled entry. -/
lemma length_order {Obj : Type} [DecidableEq Obj] {options : ResolveOptions N Obj}
    (h : Accepts options sha256Hex) :
    (options.graph sha256Hex).order.length =
      (options.inventory.filter (fun entry => entry.enabled)).length := by
  have hknown := (h.acceptable.perm (sortBy_perm inventorySortKey options.inventory).symm).known
  have hkeys := congrArg List.length (keys_enabledInstances sha256Hex hknown)
  simp only [List.length_map] at hkeys
  rw [(order_perm sha256Hex h).length_eq, List.length_map, ResolveOptions.enabled,
    ResolveOptions.entries, ← hkeys]
  exact ((sortBy_perm _ _).filter _).length_eq

end Accepted

section Agreement

/-- The file names every instance that its supported presets contribute. -/
def NamesContributions (app : AppRoot N sha256Hex) : Prop :=
  ∀ read, readInventory app = .ok read →
    ∀ key ∈ contributedKeys app.readPreset read.inventory, key ∈ read.inventory.plugins.map Inventory.keyOf

/-- What `validate` has found when it exits with `OK`. -/
lemma validate_ok {app : AppRoot N sha256Hex} (h : (validate app).exitCode = .ok) :
    ∃ read graph, readInventory app = .ok read ∧ (read.inventory.plugins.map Inventory.keyOf).Nodup ∧
      (readManifestsFor app (read.inventory.plugins.map (·.plugin))).missing = [] ∧
      Passes read.inventory.plugins (readManifestsFor app (read.inventory.plugins.map (·.plugin)))
        graph ∧
      (validate app).order = some graph.order ∧ (validate app).resolutionDigest = some graph.digest := by
  cases hread : readInventory app with
  | error diagnostics =>
    simp only [validate, hread] at h
    cases h
  | ok read =>
    have hnodup : (read.inventory.plugins.map Inventory.keyOf).Nodup := by
      unfold readInventory at hread
      split at hread
      · cases hread
      · cases hread
      · exact (parseInventory_ok hread).2.1
    simp only [validate, hread] at h ⊢
    split_ifs at h ⊢ with hmissing herrors
    rw [ne_eq, not_not] at hmissing
    simp only [hasErrors_append, Bool.or_eq_true, not_or, Bool.not_eq_true] at herrors
    obtain ⟨graph, hpasses⟩ := passes_of_no_errors hmissing herrors.2
    have hgraph := (hpasses.diagnostics hmissing).1
    exact ⟨read, graph, rfl, hnodup, hmissing, hpasses, by rw [hgraph]; rfl, by rw [hgraph]; rfl⟩

/-- The gate of `build` on a readable inventory. -/
lemma buildInput_ok {app : AppRoot N sha256Hex} {read : ParsedInventory}
    (hread : readInventory app = .ok read) {input : GenerationInput N sha256Hex}
    (h : buildInput app = .ok input) :
    Passes (expandPresets app.readPreset read.inventory).entries
      (readManifestsFor app ((expandPresets app.readPreset read.inventory).entries.map (·.plugin)))
      input.graph := by
  simp only [buildInput, hread] at h
  split at h
  · cases h
  · rename_i hmissing
    rw [ne_eq, not_not] at hmissing
    split at h
    · cases h
    · rename_i graph hgraph
      split at h
      · cases h
      · rename_i herrors
        obtain rfl := Except.ok.inj h
        obtain ⟨graph', hpasses⟩ := passes_of_no_errors hmissing (Bool.not_eq_true _ ▸ herrors)
        rw [(hpasses.diagnostics hmissing).1, Option.some.injEq] at hgraph
        exact hgraph ▸ hpasses

lemma buildInput_of_passes {app : AppRoot N sha256Hex} {read : ParsedInventory}
    (hread : readInventory app = .ok read) {graph : ResolutionGraph N}
    (hmissing : (readManifestsFor app
      ((expandPresets app.readPreset read.inventory).entries.map (·.plugin))).missing = [])
    (h : Passes (expandPresets app.readPreset read.inventory).entries
      (readManifestsFor app ((expandPresets app.readPreset read.inventory).entries.map (·.plugin)))
      graph) : ∃ input, buildInput app = .ok input ∧ input.graph = graph := by
  obtain ⟨hgraph, herrors⟩ := h.diagnostics hmissing
  simp only [buildInput, hread, hmissing, ne_eq, not_true_eq_false, if_false, hgraph, herrors,
    Bool.false_eq_true]
  exact ⟨_, rfl, rfl⟩

/-- When `validate` accepts an App, `build` judges it alike exactly when the file names every
instance its presets contribute. -/
theorem validate_build_agree (app : AppRoot N sha256Hex) (h : (validate app).exitCode = .ok) :
    (∃ input, buildInput app = .ok input ∧ (validate app).order = some input.graph.order ∧
      (validate app).resolutionDigest = some input.graph.digest) ↔ NamesContributions app := by
  obtain ⟨read, graph, hread, hnodup, hmissing, hpasses, horder, hdigest⟩ := validate_ok h
  have hexpanded := @expandPresets_perm app.readPreset _ hnodup
  have hcondition : NamesContributions app ↔
      unnamedContributions app.readPreset read.inventory = [] := by
    rw [unnamedContributions_eq_nil]
    refine ⟨fun hnames => hnames read hread, ?_⟩
    intro hnames read' hread'
    obtain rfl := Except.ok.inj (hread.symm.trans hread')
    exact hnames
  rw [hcondition]
  constructor
  · rintro ⟨input, hinput, hsame, _⟩
    -- the orders have one key for each enabled entry
    have hbuilt := buildInput_ok hread hinput
    rw [horder, Option.some.injEq, hpasses.graph_eq, hbuilt.graph_eq] at hsame
    have hlength := congrArg List.length hsame
    rw [length_order hpasses.accepts, length_order hbuilt.accepts] at hlength
    have hfilter := (hexpanded.filter (fun entry => entry.enabled)).length_eq
    rw [List.filter_append, List.length_append,
      List.filter_eq_self.mpr unnamedContributions_enabled] at hfilter
    simp only [cliOptions, resolveRecords] at hlength
    exact List.length_eq_zero_iff.mp (by omega)
  · intro hnil
    rw [hnil, List.append_nil] at hexpanded
    rw [readManifestsFor_eq app (hexpanded.symm.map (·.plugin))] at hmissing hpasses
    obtain ⟨graph', hpasses', horder', hdigest'⟩ := hpasses.perm hexpanded.symm
    obtain ⟨input, hinput, rfl⟩ := buildInput_of_passes hread hmissing hpasses'
    exact ⟨input, hinput, by rw [horder, horder'], by rw [hdigest, hdigest']⟩

end Agreement

section Standard

def standardEntry : PresetEntry :=
  { plugin := js "@x/a", instanceId := DEFAULT_INSTANCE_ID, required := true, configRef := none }

/-- A preset that contributes one plugin. -/
def standardPreset (packageName : JsString) : Option LoadedPreset :=
  if packageName = js "@x/standard" then
    some
      { packageName := packageName
        packageVersion := js "1.0.0"
        document :=
          { schemaVersion := PRESET_SCHEMA_VERSION
            id := js "standard"
            plugins := [standardEntry] } }
  else none

/-- An App that names the preset and these plugins; whether the plugin is installed. -/
def standardApp (plugins : List PluginInventoryEntry) (installed : Bool) :
    AppRoot ℤ (fun text => text) where
  path := js "/app"
  inventory := .document [] { presets := some [js "@x/standard"], plugins := plugins }
  readPreset := standardPreset
  readManifestFor ref :=
    if installed ∧ ref = js "@x/a" then .ok (loadedPlain (js "a"), [])
    else .error [diagnostic (js "plugin-package-not-found") (js "no appspine.plugin.json") none none
      (some ref)]

lemma validate_standardApp : (validate (standardApp [enabledEntry (js "@x/a")] true)).exitCode = .ok := by
  decide +kernel

theorem validate_build_agree_standard : ∃ input,
    buildInput (standardApp [enabledEntry (js "@x/a")] true) = .ok input ∧
      (validate (standardApp [enabledEntry (js "@x/a")] true)).order = some input.graph.order ∧
      (validate (standardApp [enabledEntry (js "@x/a")] true)).resolutionDigest =
        some input.graph.digest := by
  refine (validate_build_agree _ validate_standardApp).mpr ?_
  intro read hread
  have hok : read.inventory.plugins = [enabledEntry (js "@x/a")] ∧
      read.inventory.presets = some [js "@x/standard"] := by
    obtain rfl := Except.ok.inj ((show Except.ok _ = readInventory _ from by rfl).trans hread)
    exact ⟨rfl, rfl⟩
  rw [contributedKeys, hok.1, hok.2]
  decide +kernel

/-- `validate` accepts an App whose preset names a plugin that is not installed; `build` refuses. -/
theorem validate_ignores_presets : (validate (standardApp [] false)).exitCode = .ok ∧
    ∀ input, buildInput (standardApp [] false) ≠ .ok input := by
  refine ⟨by decide +kernel, ?_⟩
  intro input hinput
  have hrefused : (buildInput (standardApp [] false)).isOk = false := by decide +kernel
  rw [hinput] at hrefused
  cases hrefused

end Standard

end Appspine.Commands
