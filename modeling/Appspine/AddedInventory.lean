import Appspine.AddCommand
import Appspine.ReferenceForms

/-!
# The inventory after `add`

The candidate is the declared inventory with the new entry. What is read back from the file has to
pass the file's schema, names an instance once, and is checked with what the presets contribute.
-/
namespace Appspine.Commands
open JsText StableSort InsertionMap JsonText PluginManifest Appspine.Composition
open Resolver hiding diagnostic
open ConfigBoundary (diagnostic entryBoundary hasErrors_checkConfigBoundary)
open Inventory hiding keyOf inventorySortKey duplicateInstance

variable {N : Type} [JsonNumber N] {sha256Hex : JsString → JsString}

section Checked

variable {app : AppRoot N sha256Hex} {plugins plugins' : List PluginInventoryEntry}

/-- A check without errors; where manifests are missing nothing is resolved. -/
lemma hasErrors_checkInventory {manifests : LoadedManifests N sha256Hex} :
    hasErrors (checkInventory plugins manifests).diagnostics = false ↔
      (∀ e ∈ plugins, entryBoundary manifests.byPluginId e 0 = []) ∧
        (manifests.missing = [] →
          Accepts (ambientOptions plugins manifests.toManifestSet) sha256Hex) := by
  by_cases hmissing : manifests.missing = []
  · constructor
    · intro h
      obtain ⟨graph, hpasses⟩ := passes_of_no_errors hmissing h
      exact ⟨hpasses.boundary, fun _ => hpasses.accepts⟩
    · rintro ⟨hboundary, haccepts⟩
      exact (Passes.diagnostics ⟨hboundary, haccepts hmissing, rfl⟩ hmissing).2
  · simp only [checkInventory, resolveInventory, ne_eq, hmissing, not_false_eq_true, if_true,
      hasErrors_append, Bool.or_eq_false_iff, hasErrors_checkConfigBoundary, false_implies, and_true]
    exact and_iff_left rfl

/-- The entries pass the check with the manifests that are read for them. -/
def ChecksClean (app : AppRoot N sha256Hex) (plugins : List PluginInventoryEntry) : Prop :=
  hasErrors (checkInventory plugins (manifestsOf app plugins)).diagnostics = false

lemma ChecksClean.perm (h : ChecksClean app plugins) (hperm : plugins.Perm plugins') :
    ChecksClean app plugins' := by
  rw [ChecksClean, manifestsOf, ← readManifestsFor_eq app (hperm.map (·.plugin))]
  rw [ChecksClean, hasErrors_checkInventory] at h
  refine hasErrors_checkInventory.mpr
    ⟨fun e he => h.1 e (hperm.mem_iff.mpr he), fun hmissing => ?_⟩
  have hrearranged : Rearranged (ambientOptions plugins (manifestsOf app plugins).toManifestSet)
      (ambientOptions plugins' (manifestsOf app plugins).toManifestSet) :=
    ⟨hperm, List.Perm.refl _, List.Perm.refl _, rfl, rfl⟩
  exact hrearranged.accepts (h.2 hmissing)

end Checked

section Candidate

variable {app : AppRoot N sha256Hex} {plugins : List PluginInventoryEntry}
  {loaded : LoadedPluginManifest N sha256Hex} {args : AddArgs}

end Candidate

section Written

variable {app : AppRoot N sha256Hex} {inventory : InventoryFile}
  {loaded : LoadedPluginManifest N sha256Hex} {args : AddArgs}

end Written

section Validity

variable {app : AppRoot N sha256Hex} {inventory : InventoryFile}
  {loaded : LoadedPluginManifest N sha256Hex} {args : AddArgs}

end Validity

end Appspine.Commands
