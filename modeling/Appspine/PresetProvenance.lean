import Appspine.PresetLayers
import Appspine.RemoveCommand
import Appspine.Generators

/-!
# Preset provenance in the derived files

The expansion names the preset of an entry under the key that the entry's reference gives. The
catalog and the lockfile look it up under the key that the manifest gives.
-/
namespace Appspine.Generators
open JsText StableSort InsertionMap JsonText PluginManifest Resolver Commands Generate
open Inventory (LoadedPreset expandPresets keysOfPreset contributedKeys matchesSchema SchemaValidator
  InventoryFile FirstContributor get_provenance_expandPresets hasErrors_expandPresets ParsedInventory)
open Lockfile (entryKey loadedEntries lockedInstance)

section Contributor

/-- A preset contributes the key, and the App does not name it itself. -/
def ContributedBy (readPreset : JsString → Option LoadedPreset) (inventory : InventoryFile)
    (key preset : JsString) : Prop :=
  key ∉ inventory.plugins.map Inventory.keyOf ∧ preset ∈ inventory.presets.getD [] ∧
    key ∈ keysOfPreset readPreset preset

variable {readPreset : JsString → Option LoadedPreset} {inventory : InventoryFile}

lemma nonempty_presets (hschema : matchesSchema inventory = true) :
    ∀ name ∈ inventory.presets.getD [], name ≠ [] := by
  intro name hname
  simp only [matchesSchema, Bool.and_eq_true, List.all_eq_true, decide_eq_true_eq] at hschema
  exact hschema.1.1 name hname

/-- Where an expansion without errors says the entry of a key is from. -/
lemma get_provenance_iff (hschema : matchesSchema inventory = true)
    (hclean : hasErrors (expandPresets readPreset inventory).diagnostics = false)
    (key preset : JsString) :
    InsertionMap.get (expandPresets readPreset inventory).provenance key = some preset ↔
      ContributedBy readPreset inventory key preset := by
  have hnames := nonempty_presets hschema
  have husable := (hasErrors_expandPresets inventory).mp hclean
  rw [get_provenance_expandPresets hnames]
  refine and_congr_right fun _ => ⟨fun h => ⟨h.named, h.contributes⟩, fun h => ?_⟩
  refine ⟨h.1, h.2, fun other hother hkey => ?_⟩
  have hsame := husable.disjoint preset h.1 other hother (hnames preset h.1) (hnames other hother)
    key h.2 hkey
  exact le_of_eq hsame

end Contributor

section Records

variable {N : Type} [JsonNumber N] {sha256Hex : JsString → JsString} {app : AppRoot N sha256Hex}
  {input : GeneratorInput N sha256Hex}

/-- The presets that catalog and lockfile record are those that contributed the entries. -/
def ProvenanceRecorded (app : AppRoot N sha256Hex) (inventory : InventoryFile)
    (input : GeneratorInput N sha256Hex) : Prop :=
  ∀ e ∈ loadedEntries input, ∀ preset,
    ((catalogEntry input e.1 e.2).fromPreset = some preset ↔
      ContributedBy app.readPreset inventory (Inventory.keyOf e.1) preset) ∧
    ((lockedInstance input e.1 e.2).fromPreset = some preset ↔
      ContributedBy app.readPreset inventory (Inventory.keyOf e.1) preset)

/-- What `build` generates from, by the expansion. -/
lemma generatorInput_expanded {fragmentText : JsString → JsString → Option JsString}
    {version : JsString} (hinput : generatorInput app fragmentText version = .ok input)
    {read : ParsedInventory} (hread : readInventory app = .ok read) :
    input.plugins = (expandPresets app.readPreset read.inventory).entries ∧
      input.presetProvenance = (expandPresets app.readPreset read.inventory).provenance := by
  unfold generatorInput at hinput
  cases hbuild : buildInput app with
  | error failure =>
    rw [hbuild] at hinput
    cases hinput
  | ok generation =>
    rw [hbuild] at hinput
    obtain rfl := Except.ok.inj hinput
    simp only [buildInput, hread] at hbuild
    split at hbuild
    · cases hbuild
    · split at hbuild
      · cases hbuild
      · split at hbuild
        · cases hbuild
        · obtain rfl := Except.ok.inj hbuild
          exact ⟨rfl, rfl⟩

/-- Provenance survives exactly when every entry goes, under its manifest's id, by a key of the
same preset as under the last part of its reference. -/
theorem provenance_recorded_iff (validator : SchemaValidator) (app : AppRoot N sha256Hex)
    (hvalid : Validated validator app) {read : ParsedInventory}
    (hread : readInventory app = .ok read)
    (hclean : hasErrors (expandPresets app.readPreset read.inventory).diagnostics = false)
    {fragmentText : JsString → JsString → Option JsString} {version : JsString}
    (hinput : generatorInput app fragmentText version = .ok input) :
    ProvenanceRecorded app read.inventory input ↔
      ∀ e ∈ loadedEntries input, Inventory.pluginIdOf e.1.plugin = e.2.manifest.id ∨
        ∀ preset, ContributedBy app.readPreset read.inventory (entryKey e.2 e.1) preset ↔
          ContributedBy app.readPreset read.inventory (Inventory.keyOf e.1) preset := by
  have hschema := matchesSchema_declared hvalid hread
  have hprovenance := (generatorInput_expanded hinput hread).2
  have hrecord : ∀ (e : PluginInventoryEntry × LoadedPluginManifest N sha256Hex) (preset : JsString),
      InsertionMap.get input.presetProvenance (entryKey e.2 e.1) = some preset ↔
        ContributedBy app.readPreset read.inventory (entryKey e.2 e.1) preset := by
    intro e preset
    rw [hprovenance, get_provenance_iff hschema hclean]
  constructor
  · intro h e he
    refine Or.inr fun preset => ?_
    rw [← hrecord]
    exact (h e he preset).1
  · intro h e he preset
    have hsame : ContributedBy app.readPreset read.inventory (entryKey e.2 e.1) preset ↔
        ContributedBy app.readPreset read.inventory (Inventory.keyOf e.1) preset := by
      rcases h e he with hid | hsame
      · rw [entryKey, ← hid]
        rfl
      · exact hsame preset
    exact ⟨(hrecord e preset).trans hsame, (hrecord e preset).trans hsame⟩

end Records

section Example

/-- The package `@x/a`, contributed by a preset, with this id in its manifest. -/
def contributedApp (id : JsString) : AppRoot ℤ (fun text => text) :=
  { standardApp [] true with
    readManifestFor := fun ref =>
      if ref = js "@x/a" then
        .ok (.ofManifest _ { plainManifest id [] [] with cardinality := .multiple } ref (js "1"), [])
      else .error [] }

def contributedInput (id : JsString) :
    Except (ExitCode × List PluginDiagnostic) (GeneratorInput ℤ (fun text => text)) :=
  generatorInput (contributedApp id) (fun _ _ => none) (js "1")

lemma exists_contributedInput {id : JsString} (h : (contributedInput id).isOk = true) :
    ∃ input, contributedInput id = .ok input := by
  cases hinput : contributedInput id with
  | ok input => exact ⟨input, rfl⟩
  | error failure =>
    rw [hinput] at h
    cases h

theorem provenance_recorded_own_id : ∃ read input,
    readInventory (contributedApp (js "a")) = .ok read ∧ contributedInput (js "a") = .ok input ∧
      (ProvenanceRecorded (contributedApp (js "a")) read.inventory input ↔
        ∀ e ∈ loadedEntries input, Inventory.pluginIdOf e.1.plugin = e.2.manifest.id ∨
          ∀ preset,
            ContributedBy (contributedApp (js "a")).readPreset read.inventory (entryKey e.2 e.1)
                preset ↔
              ContributedBy (contributedApp (js "a")).readPreset read.inventory
                (Inventory.keyOf e.1) preset) := by
  obtain ⟨input, hinput⟩ := @exists_contributedInput (js "a") (by decide +kernel)
  exact ⟨_, input, rfl, hinput, provenance_recorded_iff SchemaValidator.plain _
    (validated_plain rfl (by decide +kernel)) rfl (by decide +kernel) hinput⟩

/-- The preset is lost where the manifest has another id than the package. -/
theorem provenance_lost_other_id : ∃ read input,
    Validated SchemaValidator.plain (contributedApp (js "b")) ∧
      readInventory (contributedApp (js "b")) = .ok read ∧
      hasErrors (expandPresets (contributedApp (js "b")).readPreset read.inventory).diagnostics = false ∧
      contributedInput (js "b") = .ok input ∧
      ¬ ProvenanceRecorded (contributedApp (js "b")) read.inventory input := by
  obtain ⟨input, hinput⟩ := @exists_contributedInput (js "b") (by decide +kernel)
  refine ⟨_, input, validated_plain rfl (by decide +kernel), rfl, by decide +kernel, hinput, ?_⟩
  intro hrecorded
  have hrecords : (contributedInput (js "b")).toOption.map (fun input =>
      (loadedEntries input).map fun e =>
        (Inventory.keyOf e.1, (catalogEntry input e.1 e.2).fromPreset)) =
      some [(js "a", none)] := by decide +kernel
  rw [hinput] at hrecords
  have hlist : (loadedEntries input).map (fun e =>
      (Inventory.keyOf e.1, (catalogEntry input e.1 e.2).fromPreset)) = [(js "a", none)] :=
    Option.some.inj hrecords
  have hmem : (js "a", none) ∈ (loadedEntries input).map fun e =>
      (Inventory.keyOf e.1, (catalogEntry input e.1 e.2).fromPreset) := by
    rw [hlist]
    exact List.mem_singleton_self _
  obtain ⟨e, he, heq⟩ := List.mem_map.mp hmem
  obtain ⟨hkey, hnone⟩ := Prod.mk.inj heq
  have hcontributed : ContributedBy (contributedApp (js "b")).readPreset
      { presets := some [js "@x/standard"], plugins := [] } (Inventory.keyOf e.1)
        (js "@x/standard") := by
    rw [hkey]
    exact ⟨by decide, by decide, by decide +kernel⟩
  have hfound := ((hrecorded e he (js "@x/standard")).1).mpr hcontributed
  rw [hnone] at hfound
  cases hfound

end Example

end Appspine.Generators
