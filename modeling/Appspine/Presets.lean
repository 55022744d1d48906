import Appspine.InventoryFile

/-!
# Preset expansion

Presets contribute entries, then the App's own entries are layered on top, so that a key the
App names is the App's. The result is a permutation of the App's entries and the contributed
ones it does not name.
-/
namespace Appspine.Inventory
open JsText StableSort InsertionMap PluginManifest ConfigBoundary

structure PresetEntry where
  plugin : JsString
  instanceId : JsString
  required : Bool
  configRef : Option JsString

structure PresetDocument where
  schemaVersion : JsString
  id : JsString
  plugins : List PresetEntry

structure LoadedPreset where
  packageName : JsString
  packageVersion : JsString
  document : PresetDocument

def PRESET_SCHEMA_VERSION : JsString := js "appspine.preset/v1"

/-- The maps of an expansion in progress; `provenance` names the preset of a contributed key. -/
structure Expansion where
  byKey : Entries JsString PluginInventoryEntry
  provenance : Entries JsString JsString
  presets : List LoadedPreset
  diagnostics : List PluginDiagnostic

structure ExpandedInventory where
  entries : List PluginInventoryEntry
  provenance : Entries JsString JsString
  presets : List LoadedPreset
  diagnostics : List PluginDiagnostic

section Expand

def presetNotFound (packageName : JsString) : PluginDiagnostic :=
  diagnostic (js "preset-not-found")
    (js "no appspine.preset.json in node_modules/" ++ packageName ++
      js ". Install the preset package first") none none (some (js "presets"))

def presetSchemaVersionUnsupported (packageName schemaVersion : JsString) : PluginDiagnostic :=
  diagnostic (js "preset-schema-version-unsupported")
    (packageName ++ js " declares " ++ schemaVersion ++ js "; this CLI understands " ++
      PRESET_SCHEMA_VERSION) none none (some (js "presets"))

def presetOverlap (key previous packageName : JsString) : PluginDiagnostic :=
  diagnostic (js "preset-overlap")
    (js "\"" ++ key ++ js "\" is contributed by both " ++ previous ++ js " and " ++ packageName ++
      js ". Name it explicitly in appspine.plugins.json to say which you mean")
    none none (some (js "presets"))

def presetEntryOverridden (key packageName : JsString) : PluginDiagnostic :=
  { diagnostic (js "preset-entry-overridden")
      (js "\"" ++ key ++ js "\" comes from " ++ packageName ++
        js ", and appspine.plugins.json overrides it") none none (some (js "plugins")) with
    severity := .info }

/-- The inventory entry a preset entry stands for. -/
def PresetEntry.expanded (entry : PresetEntry) : PluginInventoryEntry :=
  { plugin := entry.plugin, instanceId := entry.instanceId, enabled := true,
    required := entry.required, configRef := entry.configRef.filter (· ≠ []) }

def contribute (packageName : JsString) (state : Expansion) (entry : PresetEntry) : Expansion :=
  let key := keyOf entry.expanded
  match (InsertionMap.get state.provenance key).filter (fun previous =>
      previous ≠ [] ∧ previous ≠ packageName) with
  | some previous =>
    { state with diagnostics := state.diagnostics ++ [presetOverlap key previous packageName] }
  | none =>
    { state with
      byKey := InsertionMap.set state.byKey key entry.expanded
      provenance := InsertionMap.set state.provenance key packageName }

def expandPreset (readPreset : JsString → Option LoadedPreset) (state : Expansion)
    (packageName : JsString) : Expansion :=
  match readPreset packageName with
  | none => { state with diagnostics := state.diagnostics ++ [presetNotFound packageName] }
  | some preset =>
    if preset.document.schemaVersion ≠ PRESET_SCHEMA_VERSION then
      { state with
        diagnostics := state.diagnostics ++
          [presetSchemaVersionUnsupported packageName preset.document.schemaVersion] }
    else
      preset.document.plugins.foldl (contribute packageName)
        { state with presets := state.presets ++ [preset] }

/-- An entry of the App takes its key over from a preset. -/
def layerEntry (state : Expansion) (entry : PluginInventoryEntry) : Expansion :=
  let key := keyOf entry
  match InsertionMap.get state.provenance key with
  | some packageName =>
    { state with
      byKey := InsertionMap.set state.byKey key entry
      provenance := state.provenance.filter (fun e => e.1 ≠ key)
      diagnostics := state.diagnostics ++ [presetEntryOverridden key packageName] }
  | none => { state with byKey := InsertionMap.set state.byKey key entry }

def inventorySortKey (entry : PluginInventoryEntry) : JsString :=
  pluginIdOf entry.plugin ++ unit ' ' :: entry.instanceId

/-- What the presets contribute, before the App's entries are layered on top. -/
def contributions (readPreset : JsString → Option LoadedPreset) (inventory : InventoryFile) :
    Expansion :=
  (sorted (inventory.presets.getD [])).foldl (expandPreset readPreset)
    { byKey := [], provenance := [], presets := [], diagnostics := [] }

def expandPresets (readPreset : JsString → Option LoadedPreset) (inventory : InventoryFile) :
    ExpandedInventory :=
  let state := inventory.plugins.foldl layerEntry (contributions readPreset inventory)
  { entries := sortBy inventorySortKey (state.byKey.map Prod.snd)
    provenance := state.provenance
    presets := state.presets
    diagnostics := state.diagnostics }

end Expand

section Spec

variable {readPreset : JsString → Option LoadedPreset} {inventory : InventoryFile}

/-- The entries of the supported presets among the named ones. -/
def presetEntries (readPreset : JsString → Option LoadedPreset) (names : List JsString) :
    List PresetEntry :=
  names.flatMap (fun name =>
    match readPreset name with
    | some preset =>
      if preset.document.schemaVersion ≠ PRESET_SCHEMA_VERSION then [] else preset.document.plugins
    | none => [])

/-- What holds of the maps while presets contribute the given keys. -/
structure Contributed (state : Expansion) (contributed : List JsString) : Prop where
  nodup : (keys state.byKey).Nodup
  provenance : keys state.provenance = keys state.byKey
  complete : ∀ key, key ∈ keys state.byKey ↔ key ∈ contributed
  keyed : ∀ e ∈ state.byKey, e.1 = keyOf e.2
  enabled : ∀ e ∈ state.byKey, e.2.enabled = true

lemma Contributed.contribute {state : Expansion} {contributed : List JsString}
    (h : Contributed state contributed) (packageName : JsString) (entry : PresetEntry) :
    Contributed (contribute packageName state entry) (contributed ++ [keyOf entry.expanded]) := by
  have hstep := contribute.eq_def packageName state entry
  simp only at hstep
  cases hprevious : (InsertionMap.get state.provenance (keyOf entry.expanded)).filter (fun previous =>
      previous ≠ [] ∧ previous ≠ packageName) with
  | some previous =>
    have hkey : keyOf entry.expanded ∈ contributed := by
      rw [← h.complete, ← h.provenance]
      exact mem_keys_of_get (Option.filter_eq_some_iff.mp hprevious).1
    rw [hprevious] at hstep
    rw [hstep]
    refine ⟨h.nodup, h.provenance, ?_, h.keyed, h.enabled⟩
    intro key
    rw [List.mem_append, List.mem_singleton]
    refine (h.complete key).trans ⟨Or.inl, ?_⟩
    rintro (hin | rfl)
    · exact hin
    · exact hkey
  | none =>
    rw [hprevious] at hstep
    rw [hstep]
    refine ⟨nodup_keys_set h.nodup _ _, ?_, ?_, ?_, ?_⟩
    · simp only [keys_set, h.provenance]
      congr
    · intro key
      rw [mem_keys_set, h.complete, List.mem_append, List.mem_singleton, or_comm]
    · intro e he
      rcases mem_set he with rfl | he
      · rfl
      · exact h.keyed e he
    · intro e he
      rcases mem_set he with rfl | he
      · rfl
      · exact h.enabled e he

lemma Contributed.contributeAll {state : Expansion} {contributed : List JsString}
    (h : Contributed state contributed) (packageName : JsString) (entries : List PresetEntry) :
    Contributed (entries.foldl (Inventory.contribute packageName) state)
      (contributed ++ entries.map (fun entry => keyOf entry.expanded)) := by
  induction entries generalizing state contributed with
  | nil => simpa using h
  | cons entry entries ih => simpa using ih (h.contribute packageName entry)

lemma Contributed.expandPreset {state : Expansion} {contributed : List JsString}
    (h : Contributed state contributed) (name : JsString) :
    Contributed (expandPreset readPreset state name)
      (contributed ++ (presetEntries readPreset [name]).map (fun entry => keyOf entry.expanded)) := by
  unfold Inventory.expandPreset presetEntries
  cases hread : readPreset name with
  | none => simpa [hread] using ⟨h.nodup, h.provenance, h.complete, h.keyed, h.enabled⟩
  | some preset =>
    by_cases hversion : preset.document.schemaVersion ≠ PRESET_SCHEMA_VERSION
    · simpa [hread, hversion] using ⟨h.nodup, h.provenance, h.complete, h.keyed, h.enabled⟩
    · have hstart : Contributed { state with presets := state.presets ++ [preset] } contributed :=
        ⟨h.nodup, h.provenance, h.complete, h.keyed, h.enabled⟩
      rw [not_not] at hversion
      simpa [hread, hversion] using hstart.contributeAll name preset.document.plugins

/-- The keys under which the presets of an inventory contribute. -/
def contributedKeys (readPreset : JsString → Option LoadedPreset) (inventory : InventoryFile) :
    List JsString :=
  (presetEntries readPreset (inventory.presets.getD [])).map (fun entry => keyOf entry.expanded)

lemma contributions_contributed (readPreset : JsString → Option LoadedPreset)
    (inventory : InventoryFile) :
    Contributed (contributions readPreset inventory) (contributedKeys readPreset inventory) := by
  have hrun : ∀ (names : List JsString) (state : Expansion) (contributed : List JsString),
      Contributed state contributed →
      Contributed (names.foldl (Inventory.expandPreset readPreset) state)
        (contributed ++ (presetEntries readPreset names).map (fun entry => keyOf entry.expanded)) := by
    intro names
    induction names with
    | nil => exact fun state contributed h => by simpa [presetEntries] using h
    | cons name names ih =>
      intro state contributed h
      have hstep := ih _ _ (@Contributed.expandPreset readPreset _ _ h name)
      simpa [presetEntries] using hstep
  have hsorted := hrun (sorted (inventory.presets.getD []))
    { byKey := [], provenance := [], presets := [], diagnostics := [] } []
    ⟨List.nodup_nil, rfl, by simp [keys], by simp, by simp⟩
  refine ⟨hsorted.nodup, hsorted.provenance, ?_, hsorted.keyed, hsorted.enabled⟩
  intro key
  refine (hsorted.complete key).trans ?_
  rw [List.nil_append, contributedKeys]
  exact (((sorted_perm _).flatMap_right _).map _).mem_iff

lemma byKey_layerEntry (state : Expansion) (entry : PluginInventoryEntry) :
    (layerEntry state entry).byKey = InsertionMap.set state.byKey (keyOf entry) entry := by
  simp only [layerEntry]
  split <;> rfl

lemma byKey_layer (state : Expansion) (plugins : List PluginInventoryEntry) :
    (plugins.foldl layerEntry state).byKey =
      (plugins.map (fun entry => (keyOf entry, entry))).foldl
        (fun m e => InsertionMap.set m e.1 e.2) state.byKey := by
  induction plugins generalizing state with
  | nil => rfl
  | cons entry plugins ih =>
    rw [List.foldl_cons, List.map_cons, List.foldl_cons, ih, byKey_layerEntry]

/-- The contributed entries whose keys the App does not name. -/
def unnamedContributions (readPreset : JsString → Option LoadedPreset) (inventory : InventoryFile) :
    List PluginInventoryEntry :=
  ((contributions readPreset inventory).byKey.filter
    (fun e => e.1 ∉ inventory.plugins.map keyOf)).map Prod.snd

/-- The expanded inventory: the App's entries, and what it does not name. -/
lemma expandPresets_perm (h : (inventory.plugins.map keyOf).Nodup) :
    (expandPresets readPreset inventory).entries.Perm
      (inventory.plugins ++ unnamedContributions readPreset inventory) := by
  have hkeys : keys (inventory.plugins.map (fun entry => (keyOf entry, entry))) =
      inventory.plugins.map keyOf := by
    simp [keys]
  have hoverlay := overlay_perm (contributions_contributed readPreset inventory).nodup
    (hkeys.symm ▸ h : (keys (inventory.plugins.map (fun entry => (keyOf entry, entry)))).Nodup)
  have hvalues := hoverlay.map Prod.snd
  rw [List.map_append, List.map_map, hkeys] at hvalues
  have hself : inventory.plugins.map (Prod.snd ∘ fun entry => (keyOf entry, entry)) =
      inventory.plugins := List.map_id _
  rw [hself] at hvalues
  refine (sortBy_perm _ _).trans ?_
  rw [byKey_layer]
  refine hvalues.trans (List.Perm.of_eq ?_)
  unfold unnamedContributions
  congr 2
  exact List.filter_congr (fun e _ => decide_eq_decide.mpr Iff.rfl)

lemma unnamedContributions_enabled :
    ∀ entry ∈ unnamedContributions readPreset inventory, entry.enabled = true := by
  intro entry hentry
  obtain ⟨e, he, rfl⟩ := List.mem_map.mp hentry
  exact (contributions_contributed readPreset inventory).enabled e (List.mem_filter.mp he).1

/-- Nothing is left to contribute exactly when the App names every contributed key. -/
lemma unnamedContributions_eq_nil :
    unnamedContributions readPreset inventory = [] ↔
      ∀ key ∈ contributedKeys readPreset inventory, key ∈ inventory.plugins.map keyOf := by
  have hcontributed := contributions_contributed readPreset inventory
  simp only [unnamedContributions, List.map_eq_nil_iff, List.filter_eq_nil_iff, decide_eq_true_eq,
    not_not]
  constructor
  · intro h key hkey
    obtain ⟨e, he, rfl⟩ := List.mem_map.mp ((hcontributed.complete key).mpr hkey)
    exact h e he
  · intro h e he
    exact h e.1 ((hcontributed.complete e.1).mp (List.mem_map_of_mem he))

end Spec

end Appspine.Inventory
