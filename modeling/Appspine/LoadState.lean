import Appspine.PresetDiagnostics
import Appspine.LoadedManifests

/-!
# The loaded state of an App

What every command that edits or generates works on: the inventory as declared and as expanded,
and the manifests of the expanded one.
-/
namespace Appspine.Commands
open JsText StableSort InsertionMap JsonText PluginManifest Resolver Appspine.Composition
open Inventory hiding keyOf inventorySortKey duplicateInstance

variable {N : Type} [JsonNumber N] {sha256Hex : JsString → JsString}

structure LoadedState (N : Type) [JsonNumber N] (sha256Hex : JsString → JsString) where
  inventory : List PluginInventoryEntry
  declared : InventoryFile
  expanded : ExpandedInventory
  manifests : LoadedManifests N sha256Hex
  diagnostics : List PluginDiagnostic

/-- The state of a readable inventory. -/
def stateOf (app : AppRoot N sha256Hex) (read : ParsedInventory) : LoadedState N sha256Hex :=
  let expanded := expandPresets app.readPreset read.inventory
  let manifests := readManifestsFor app (expanded.entries.map (·.plugin))
  { inventory := expanded.entries
    declared := read.inventory
    expanded := expanded
    manifests := manifests
    diagnostics := read.diagnostics ++ expanded.diagnostics ++ manifests.diagnostics }

def loadState (app : AppRoot N sha256Hex) : Except (List PluginDiagnostic) (LoadedState N sha256Hex) :=
  (readInventory app).map (stateOf app)

/-- What a state is checked as. -/
def LoadedState.checked (state : LoadedState N sha256Hex) : ResolveCheck N :=
  checkInventory state.inventory state.manifests

/-- The loader returns no errors alongside a manifest. -/
def CleanLoader (app : AppRoot N sha256Hex) : Prop :=
  ∀ ref loaded diagnostics, app.readManifestFor ref = .ok (loaded, diagnostics) →
    hasErrors diagnostics = false

section Spec

variable {app : AppRoot N sha256Hex} {state : LoadedState N sha256Hex}

lemma loadState_eq_ok : loadState app = .ok state ↔
    ∃ read, readInventory app = .ok read ∧ state = stateOf app read := by
  rw [loadState]
  cases readInventory app with
  | error diagnostics => simp [Except.map]
  | ok read => simp [Except.map, eq_comm]

lemma readInventory_ok {read : ParsedInventory} (h : readInventory app = .ok read) :
    (read.inventory.plugins.map Inventory.keyOf).Nodup ∧ hasErrors read.diagnostics = false := by
  unfold readInventory at h
  split at h
  · cases h
  · cases h
  · exact (parseInventory_ok h).2

/-- Manifests that were all found come without an error. -/
lemma hasErrors_manifests (hclean : CleanLoader app) {refs : List JsString}
    (hmissing : (readManifestsFor app refs).missing = []) :
    hasErrors (readManifestsFor app refs).diagnostics = false := by
  have hfound : ∀ ref ∈ sorted (distinct refs), ∃ loaded diagnostics,
      app.readManifestFor ref = .ok (loaded, diagnostics) := by
    intro ref href
    cases hread : app.readManifestFor ref with
    | error diagnostics =>
      have hmem : ref ∈ (readManifestsFor app refs).missing := by
        rw [Generate.mem_missing]
        rw [(sorted_perm _).mem_iff, mem_distinct] at href
        exact ⟨href, diagnostics, hread⟩
      rw [hmissing] at hmem
      cases hmem
    | ok found => exact ⟨found.1, found.2, rfl⟩
  rw [readManifestsFor]
  clear hmissing
  generalize sorted (distinct refs) = sortedRefs at hfound ⊢
  induction sortedRefs using List.reverseRecOn with
  | nil => rfl
  | append_singleton sortedRefs ref ih =>
    obtain ⟨loaded, diagnostics, hread⟩ := hfound ref (by simp)
    rw [List.foldl_append, List.foldl_cons, List.foldl_nil]
    simp only [readRef, hread, hasErrors_append, hclean _ _ _ hread, Bool.or_false]
    exact ih fun ref' href' => hfound ref' (by simp [href'])

/-- A state whose manifests were all found has an error only from its presets. -/
lemma hasErrors_stateOf (hclean : CleanLoader app) {read : ParsedInventory}
    (hread : readInventory app = .ok read) (hmissing : (stateOf app read).manifests.missing = []) :
    hasErrors (stateOf app read).diagnostics = false ↔
      PresetsUsable app.readPreset (read.inventory.presets.getD []) := by
  have hmanifests := hasErrors_manifests hclean hmissing
  change hasErrors (read.diagnostics ++ _ ++ _) = false ↔ _
  rw [hasErrors_append, hasErrors_append, (readInventory_ok hread).2, hmanifests, Bool.false_or,
    Bool.or_false, hasErrors_expandPresets]

/-- What `build` generates from is a loaded state that passes the check. -/
lemma buildInput_loaded {input : GenerationInput N sha256Hex} (h : buildInput app = .ok input) :
    ∃ read, readInventory app = .ok read ∧ (stateOf app read).manifests.missing = [] ∧
      hasErrors (stateOf app read).checked.diagnostics = false := by
  cases hread : readInventory app with
  | error diagnostics =>
    rw [buildInput, hread] at h
    cases h
  | ok read =>
    have hpasses := buildInput_ok hread h
    rw [buildInput, hread] at h
    dsimp only at h
    split at h
    · cases h
    · rename_i hmissing
      rw [ne_eq, not_not] at hmissing
      exact ⟨read, rfl, hmissing, (hpasses.diagnostics hmissing).2⟩

end Spec

end Appspine.Commands
