import Appspine.RemoveCommand

/-!
# `add`

The manifest of the package is read, the new entry joins the declared inventory, and that candidate
is checked before it is written. What the file's own schema asks of the entry is not looked at.
-/
namespace Appspine.Commands
open JsText StableSort InsertionMap JsonText PluginManifest Appspine.Composition
open Resolver hiding diagnostic
open ConfigBoundary (diagnostic)
open Inventory hiding keyOf inventorySortKey duplicateInstance

variable {N : Type} [JsonNumber N] {sha256Hex : JsString → JsString}

section Command

structure AddArgs where
  ref : Option JsString
  instanceId : Option JsString
  optional : Bool
  dryRun : Bool

/-- A dependency that `package.json` gets, with its range. -/
structure AddedDependency where
  packageName : JsString
  range : JsString
  deriving DecidableEq

/-- `data.added`, the inventory that the command writes, and the dependency. -/
structure AddResult where
  exitCode : ExitCode
  diagnostics : List PluginDiagnostic
  added : Option Bool
  next : Option InventoryFile
  dependency : Option AddedDependency

def addUsage : PluginDiagnostic :=
  diagnostic (js "missing-argument")
    (js "usage: appspine add <package> [--instance-id <id>] [--optional] [--dry-run]") none none none

def instanceAlreadyPresent (pluginId instanceId : JsString) : PluginDiagnostic :=
  diagnostic (js "instance-already-present")
    (js "\"" ++ pluginId ++ js "\" instance \"" ++ instanceId ++ js "\" is already in the inventory")
    (some pluginId) (some instanceId) none

def optionalWithoutPolicy (pluginId instanceId : JsString) : PluginDiagnostic :=
  diagnostic (js "optional-without-policy")
    (js "\"" ++ pluginId ++
      js "\" declares no optionalFailurePolicy, so it cannot be added as optional")
    (some pluginId) (some instanceId) none

def internalError (message : JsString) : PluginDiagnostic :=
  diagnostic (js "internal-error") message none none none

def installRequired : PluginDiagnostic :=
  { diagnostic (js "install-required")
      (js ("package.json changed: run your package manager to install it. The CLI never runs it " ++
        "for you")) none none none with
    severity := .info }

def configStubPending (pluginId configRef : JsString) : PluginDiagnostic :=
  { diagnostic (js "config-stub-pending")
      (js "\"" ++ pluginId ++ js "\" reads config at \"" ++ configRef ++
        js "\". Run `appspine config-stub " ++ pluginId ++
        js ("` and paste the block into appspine.config.ts yourself — the CLI does not rewrite " ++
          "TypeScript")) (some pluginId) none none with
    severity := .info }

def dryRunAddition (pluginId instanceId : JsString) : PluginDiagnostic :=
  { diagnostic (js "dry-run") (js "would add " ++ pluginId ++ js "#" ++ instanceId) none none none
    with severity := .info }

def nextSteps (pluginId : JsString) (dependencyAdded : Bool) (configRef : Option JsString) :
    List PluginDiagnostic :=
  (if dependencyAdded then [installRequired] else []) ++
    configRef.elim [] fun configRef => [configStubPending pluginId configRef]

def AddArgs.instance (args : AddArgs) : JsString := args.instanceId.getD DEFAULT_INSTANCE_ID

/-- `configSchema.configRef`, an empty one read as absent. -/
def configRefOf (manifest : PluginManifestV1 N) : Option JsString :=
  (manifest.configSchema.map (·.configRef)).filter (· ≠ [])

/-- The entry of a package, as the command writes it. -/
def addedEntry (loaded : LoadedPluginManifest N sha256Hex) (args : AddArgs) :
    PluginInventoryEntry :=
  { plugin := loaded.packageName
    instanceId := args.instance
    enabled := true
    required := !args.optional
    configRef := configRefOf loaded.manifest }

def withEntry (declared : InventoryFile) (entry : PluginInventoryEntry) : InventoryFile :=
  { declared with plugins := declared.plugins ++ [entry] }

/-- The manifests of the state and that of the new package. -/
def withManifest (manifests : LoadedManifests N sha256Hex)
    (loaded : LoadedPluginManifest N sha256Hex) : LoadedManifests N sha256Hex :=
  { manifests with
    byRef := InsertionMap.set manifests.byRef loaded.packageName loaded
    nodup := nodup_keys_set manifests.nodup loaded.packageName loaded
    byPluginId := InsertionMap.set manifests.byPluginId loaded.manifest.id loaded.manifest }

/-- The change to `package.json`, given the dependencies it declares. -/
def packageJsonChange (dependencies : List JsString) (loaded : LoadedPluginManifest N sha256Hex) :
    Option AddedDependency :=
  if loaded.packageName ∈ dependencies then none
  else some { packageName := loaded.packageName, range := js "^" ++ loaded.packageVersion }

/-- `packageJson` is what reading the App's `package.json` gives: the dependencies it declares, or
the message of the error. -/
def add (packageJson : Except JsString (List JsString)) (app : AppRoot N sha256Hex)
    (args : AddArgs) : AddResult :=
  let ref := args.ref.getD []
  if ref = [] then ⟨.usage, [addUsage], none, none, none⟩
  else
    match loadState app with
    | .error diagnostics => ⟨.validationFailed, diagnostics, none, none, none⟩
    | .ok state =>
      match app.readManifestFor ref with
      | .error diagnostics =>
        ⟨if diagnostics.any (·.code = js "plugin-package-not-found") then .notFound
          else .validationFailed, diagnostics, none, none, none⟩
      | .ok (loaded, _) =>
        let pluginId := loaded.manifest.id
        if state.inventory.any (isTarget pluginId args.instance) then
          ⟨.conflict, [instanceAlreadyPresent pluginId args.instance], some false, none, none⟩
        else if args.optional ∧ loaded.manifest.optionalFailurePolicy = none then
          ⟨.validationFailed, [optionalWithoutPolicy pluginId args.instance], none, none, none⟩
        else
          let next := withEntry state.declared (addedEntry loaded args)
          let checked := checkInventory next.plugins (withManifest state.manifests loaded)
          if hasErrors checked.diagnostics then
            ⟨.resolutionFailed, checked.diagnostics, some false, none, none⟩
          else
            match packageJson with
            | .error message => ⟨.internalError, [internalError message], none, none, none⟩
            | .ok dependencies =>
              let dependency := packageJsonChange dependencies loaded
              let followUps := nextSteps pluginId dependency.isSome (configRefOf loaded.manifest)
              if args.dryRun then
                ⟨.ok, checked.diagnostics ++ dryRunAddition pluginId args.instance :: followUps,
                  some false, none, none⟩
              else ⟨.ok, checked.diagnostics ++ followUps, some true, some next, dependency⟩

variable {packageJson : Except JsString (List JsString)}

/-- What an addition has read, checked and written. -/
structure Added (app : AppRoot N sha256Hex) (args : AddArgs) (result : AddResult)
    (read : ParsedInventory) (loaded : LoadedPluginManifest N sha256Hex) : Prop where
  readOk : readInventory app = .ok read
  manifest : ∃ diagnostics, app.readManifestFor (args.ref.getD []) = .ok (loaded, diagnostics)
  absent : (stateOf app read).inventory.any (isTarget loaded.manifest.id args.instance) = false
  checked : hasErrors (checkInventory (withEntry read.inventory (addedEntry loaded args)).plugins
    (withManifest (stateOf app read).manifests loaded)).diagnostics = false
  next : result.next = some (withEntry read.inventory (addedEntry loaded args))

lemma add_added {app : AppRoot N sha256Hex} {args : AddArgs}
    (h : (add packageJson app args).added = some true) :
    ∃ read loaded, Added app args (add packageJson app args) read loaded := by
  have href : args.ref.getD [] ≠ [] := by
    intro hempty
    rw [add, if_pos hempty] at h
    exact absurd h (by simp)
  rw [add, if_neg href] at h ⊢
  split at h
  · exact absurd h (by simp)
  · next state hstate =>
    obtain ⟨read, hread, rfl⟩ := loadState_eq_ok.mp hstate
    split at h
    · exact absurd h (by simp)
    · next loaded diagnostics hmanifest =>
      dsimp only at h ⊢
      by_cases hpresent : (stateOf app read).inventory.any (isTarget loaded.manifest.id args.instance)
      · rw [if_pos hpresent] at h
        exact absurd h (by simp)
      rw [if_neg hpresent] at h ⊢
      by_cases hpolicy : args.optional = true ∧ loaded.manifest.optionalFailurePolicy = none
      · rw [if_pos hpolicy] at h
        exact absurd h (by simp)
      rw [if_neg hpolicy] at h ⊢
      by_cases herrors : hasErrors (checkInventory
          (withEntry (stateOf app read).declared (addedEntry loaded args)).plugins
          (withManifest (stateOf app read).manifests loaded)).diagnostics = true
      · rw [if_pos herrors] at h
        exact absurd h (by simp)
      rw [if_neg herrors] at h ⊢
      cases packageJson with
      | error message => exact absurd h (by simp)
      | ok dependencies =>
        dsimp only at h ⊢
        by_cases hdry : args.dryRun = true
        · rw [if_pos hdry] at h
          exact absurd h (by simp)
        rw [if_neg hdry]
        exact ⟨read, loaded, hread, ⟨diagnostics, hmanifest⟩, Bool.not_eq_true _ ▸ hpresent,
          Bool.not_eq_true _ ▸ herrors, rfl⟩

end Command

end Appspine.Commands
