import Appspine.InventoryPlan
import Appspine.ResolverRemoval

/-!
# `remove`

The target is looked up in the expanded inventory and taken out of the declared one, and it is the
declared part alone that is checked before it is written. What the presets contribute comes back
when the file is read again.
-/
namespace Appspine.Commands
open JsText StableSort InsertionMap JsonText PluginManifest Appspine.Composition
open Resolver hiding diagnostic
open ConfigBoundary (diagnostic entryBoundary)
open Inventory hiding keyOf inventorySortKey duplicateInstance

variable {N : Type} [JsonNumber N] {sha256Hex : JsString → JsString}

section Command

structure RemoveArgs where
  ref : Option JsString
  instanceId : Option JsString
  dryRun : Bool

/-- `data.removed`, and the inventory that the command writes. -/
structure RemoveResult where
  exitCode : ExitCode
  diagnostics : List PluginDiagnostic
  removed : Option Bool
  next : Option InventoryFile

def missingArgument : PluginDiagnostic :=
  diagnostic (js "missing-argument")
    (js "usage: appspine remove <plugin> [--instance-id <id>] [--dry-run]") none none none

def instanceNotFound (targetId instanceId : JsString) : PluginDiagnostic :=
  diagnostic (js "instance-not-found")
    (js "no inventory entry for \"" ++ targetId ++ js "\" instance \"" ++ instanceId ++ js "\"")
    (some targetId) (some instanceId) none

def removalBreaksInventory (targetId instanceId : JsString) : PluginDiagnostic :=
  diagnostic (js "removal-breaks-inventory")
    (js "removing \"" ++ targetId ++ js "#" ++ instanceId ++
      js ("\" leaves the inventory unresolvable; disable the plugins that depend on it first"))
    (some targetId) (some instanceId) none

def dryRunRemoval (targetId instanceId : JsString) : PluginDiagnostic :=
  { diagnostic (js "dry-run") (js "would remove " ++ targetId ++ js "#" ++ instanceId) none none none
    with severity := .info }

def dataRetained (targetId : JsString) : PluginDiagnostic :=
  { diagnostic (js "data-retained")
      (js ("Removing a plugin does not delete its data or its Prisma tables (051 decision 13). " ++
        "Dropping them is a separate, reviewed migration")) (some targetId) none none with
    severity := .info }

def isTarget (targetId instanceId : JsString) (entry : PluginInventoryEntry) : Bool :=
  decide (pluginIdOf entry.plugin = targetId ∧ entry.instanceId = instanceId)

/-- The declared inventory without the target. An entry of the file that equals the target is the
target, since the file names an instance once and overrides the presets. -/
def withoutTarget (declared : InventoryFile) (target : PluginInventoryEntry) : InventoryFile :=
  { declared with plugins := declared.plugins.filter (· ≠ target) }

def RemoveArgs.targetId (args : RemoveArgs) : JsString := pluginIdOf (args.ref.getD [])

def RemoveArgs.instance (args : RemoveArgs) : JsString := args.instanceId.getD DEFAULT_INSTANCE_ID

def remove (app : AppRoot N sha256Hex) (args : RemoveArgs) : RemoveResult :=
  if args.ref.getD [] = [] then ⟨.usage, [missingArgument], none, none⟩
  else
    match loadState app with
    | .error diagnostics => ⟨.validationFailed, diagnostics, none, none⟩
    | .ok state =>
      match state.inventory.find? (isTarget args.targetId args.instance) with
      | none => ⟨.notFound, [instanceNotFound args.targetId args.instance], some false, none⟩
      | some target =>
        let next := withoutTarget state.declared target
        let checked := checkInventory next.plugins state.manifests
        if hasErrors checked.diagnostics then
          ⟨.conflict, removalBreaksInventory args.targetId args.instance :: checked.diagnostics,
            some false, none⟩
        else if args.dryRun then
          ⟨.ok, checked.diagnostics ++
            [dryRunRemoval args.targetId args.instance, dataRetained args.targetId], some false, none⟩
        else ⟨.ok, checked.diagnostics ++ [dataRetained args.targetId], some true, some next⟩

/-- What a removal has found and written. -/
lemma remove_removed {app : AppRoot N sha256Hex} {args : RemoveArgs}
    (h : (remove app args).removed = some true) :
    ∃ read target, readInventory app = .ok read ∧
      (stateOf app read).inventory.find? (isTarget args.targetId args.instance) = some target ∧
      hasErrors (checkInventory (withoutTarget read.inventory target).plugins
        (stateOf app read).manifests).diagnostics = false ∧
      (remove app args).next = some (withoutTarget read.inventory target) := by
  have href : args.ref.getD [] ≠ [] := by
    intro hempty
    rw [remove, if_pos hempty] at h
    exact absurd h (by simp)
  rw [remove, if_neg href] at h ⊢
  split at h
  · exact absurd h (by simp)
  · next state hstate =>
    obtain ⟨read, hread, rfl⟩ := loadState_eq_ok.mp hstate
    dsimp only
    split at h
    · exact absurd h (by simp)
    · next target htarget =>
      dsimp only at h ⊢
      split_ifs at h with herrors hdry
      · exact absurd h (by simp)
      · exact absurd h (by simp)
      · rw [if_neg herrors, if_neg hdry]
        exact ⟨read, target, hread, htarget, Bool.not_eq_true _ ▸ herrors, rfl⟩

end Command

section Remaining

variable {app : AppRoot N sha256Hex}

/-- An inventory that `readManifestsFor` finds every manifest of and that passes the check. -/
def PassesCheck (app : AppRoot N sha256Hex) (plugins : List PluginInventoryEntry) : Prop :=
  (readManifestsFor app (plugins.map (·.plugin))).missing = [] ∧
    hasErrors (checkInventory plugins (readManifestsFor app (plugins.map (·.plugin)))).diagnostics =
      false

lemma PassesCheck.perm {plugins plugins' : List PluginInventoryEntry} (h : PassesCheck app plugins)
    (hperm : plugins.Perm plugins') : PassesCheck app plugins' := by
  obtain ⟨hmissing, herrors⟩ := h
  obtain ⟨graph, hpasses⟩ := passes_of_no_errors hmissing herrors
  rw [readManifestsFor_eq app (hperm.map (·.plugin))] at hmissing hpasses
  obtain ⟨graph', hpasses', -⟩ := hpasses.perm hperm
  exact ⟨hmissing, (hpasses'.diagnostics hmissing).2⟩

/-- What the presets contribute, by instance key. -/
def contributed (app : AppRoot N sha256Hex) (inventory : InventoryFile) :
    Entries JsString PluginInventoryEntry := (contributions app.readPreset inventory).byKey

variable {validator : SchemaValidator}

variable {read : ParsedInventory} {target : PluginInventoryEntry} {targetId instanceId : JsString}

lemma keyOf_of_isTarget {entry : PluginInventoryEntry}
    (h : isTarget targetId instanceId entry = true) :
    Inventory.keyOf entry = instanceKey targetId instanceId := by
  obtain ⟨rfl, rfl⟩ := of_decide_eq_true h
  rfl

end Remaining

section Fewer

variable {app : AppRoot N sha256Hex} {plugins rest : List PluginInventoryEntry}

/-- The manifests of these entries. -/
def manifestsOf (app : AppRoot N sha256Hex) (plugins : List PluginInventoryEntry) :
    LoadedManifests N sha256Hex := readManifestsFor app (plugins.map (·.plugin))

end Fewer

section Safety

variable {app : AppRoot N sha256Hex} {next : InventoryFile} {plugins : List PluginInventoryEntry}

variable {read : ParsedInventory} {target : PluginInventoryEntry} {targetId instanceId : JsString}

end Safety

section Removals

def removeA : RemoveArgs := { ref := some (js "a"), instanceId := none, dryRun := false }

lemma validated_plain {app : AppRoot ℤ (fun text => text)} {file : InventoryFile}
    (h : app.inventory = .document [] file) (hmatches : matchesSchema file = true) :
    Validated SchemaValidator.plain app := by
  intro errors candidate hdocument
  obtain ⟨rfl, rfl⟩ := InventorySource.document.inj (h.symm.trans hdocument)
  exact ((SchemaValidator.plain.errors_eq_nil _).mpr hmatches).symm

end Removals

end Appspine.Commands
