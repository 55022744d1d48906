import Appspine.ResolverPermutation

/-!
# The generated composition and the host

`resolveInventory` of the CLI, the value of the module that `generateComposition`
writes, and the resolution the host makes from it in `prepare`.
-/
namespace Appspine.Composition
open JsText StableSort InsertionMap JsonText PluginManifest Resolver

variable {N : Type} [JsonNumber N]

/-- `resolvePlugins` on records that are each an object of its own. -/
def resolveRecords (inventory : List PluginInventoryEntry)
    (records : List (ResolvableManifest N)) (hostCapabilities : List JsString)
    (officialScope : Option JsString) : ResolveOptions N (Fin records.length) :=
  { inventory := inventory
    manifests := List.finRange records.length
    read := records.get
    hostCapabilities := some hostCapabilities
    officialScope := officialScope }

section Cli

/-- Manifests keyed by the inventory reference that asked for them. -/
structure ManifestSet (N : Type) [JsonNumber N] (sha256Hex : JsString → JsString) where
  byRef : Entries JsString (LoadedPluginManifest N sha256Hex)
  missing : List JsString
  nodup : (keys byRef).Nodup

def CAPABILITY_PRISMA : JsString := js "appspine.prisma"

def CAPABILITY_PRINCIPAL_CONTEXT : JsString := js "appspine.principal-context"

def CAPABILITY_AUTHENTICATION_STRATEGY_REGISTRY : JsString :=
  js "appspine.authentication-strategy-registry"

def AMBIENT_CAPABILITIES : List JsString :=
  [js "appspine.prisma", js "appspine.principal-context",
    js "appspine.authentication-strategy-registry"]

variable {sha256Hex : JsString → JsString}

def toResolvable (loaded : LoadedPluginManifest N sha256Hex) : ResolvableManifest N :=
  { manifest := loaded.manifest, packageName := loaded.packageName,
    packageVersion := loaded.packageVersion, manifestDigest := none, digest := some loaded.digest }

structure ResolveCheck (N : Type) where
  graph : Option (ResolutionGraph N)
  diagnostics : List PluginDiagnostic

def resolutionSkipped (missing : List JsString) : PluginDiagnostic :=
  { diagnostic (js "resolution-skipped")
      (js "cannot resolve while " ++ js (toString missing.length) ++
        js " manifest(s) are missing: " ++ join (js ", ") missing) none none none with
    severity := .info }

/-- What the CLI hands to the resolver. -/
def cliOptions (inventory : List PluginInventoryEntry) (manifests : ManifestSet N sha256Hex)
    (hostCapabilities : List JsString) :
    ResolveOptions N (Fin (manifests.byRef.map (fun e => toResolvable e.2)).length) :=
  resolveRecords inventory (manifests.byRef.map (fun e => toResolvable e.2))
    hostCapabilities none

def resolveInventory (inventory : List PluginInventoryEntry) (manifests : ManifestSet N sha256Hex)
    (hostCapabilities : List JsString) : ResolveCheck N :=
  if manifests.missing ≠ [] then
    { graph := none, diagnostics := [resolutionSkipped manifests.missing] }
  else
    match resolvePlugins sha256Hex (cliOptions inventory manifests hostCapabilities) with
    | .ok graph => { graph := some graph, diagnostics := graph.diagnostics }
    | .error diagnostics => { graph := none, diagnostics := diagnostics }

end Cli

section Generate

/-- A registration: the manifest of the imported descriptor, and the package it came from. -/
structure HostPluginRegistration (N : Type) where
  manifest : PluginManifestV1 N
  packageName : Option JsString
  packageVersion : Option JsString

structure GeneratedComposition (N : Type) where
  resolutionDigest : JsString
  inventory : List PluginInventoryEntry
  plugins : List (HostPluginRegistration N)

/-- One instance for each package, in registration order. -/
def packagesInOrder (graph : ResolutionGraph N) : List (ResolvedPluginInstance N) :=
  firstBy (·.packageName) (orderedInstances graph.order graph.instances)

/-- An entry as it is written: an empty `configRef` is left out. -/
def embedEntry (entry : PluginInventoryEntry) : PluginInventoryEntry :=
  { entry with configRef := entry.configRef.filter (· ≠ []) }

def compositionSortKey (entry : PluginInventoryEntry) : JsString :=
  entry.plugin ++ unit ' ' :: entry.instanceId

/-- What the generated module exports. A package is imported by its `./plugin` subpath,
whose descriptor carries the manifest that the package ships. -/
def generateComposition (inventory : List PluginInventoryEntry) (graph : ResolutionGraph N) :
    GeneratedComposition N :=
  { resolutionDigest := graph.digest
    inventory := (sortBy compositionSortKey inventory).map embedEntry
    plugins := (packagesInOrder graph).map (fun i =>
      { manifest := i.manifest, packageName := some i.packageName,
        packageVersion := some i.packageVersion }) }

end Generate

section Host

def registrationPackageName (registration : HostPluginRegistration N) : JsString :=
  registration.packageName.getD (js "@appspine/" ++ registration.manifest.id)

/-- The record `prepare` builds of a registration; the digests are left to the resolver. -/
def registered (registration : HostPluginRegistration N) : ResolvableManifest N :=
  { manifest := registration.manifest
    packageName := registrationPackageName registration
    packageVersion := registration.packageVersion.getD (js "0.0.0-unknown")
    manifestDigest := none
    digest := none }

def hostOptions (composition : GeneratedComposition N) (hostCapabilities : List JsString)
    (officialScope : Option JsString) :
    ResolveOptions N (Fin (composition.plugins.map registered).length) :=
  resolveRecords composition.inventory (composition.plugins.map registered)
    (hostCapabilities ++
      [CAPABILITY_PRINCIPAL_CONTEXT, CAPABILITY_AUTHENTICATION_STRATEGY_REGISTRY]) officialScope

/-- The resolution in `prepare`; an error is thrown by `unwrapResolution`. -/
def prepareGraph (sha256Hex : JsString → JsString) (composition : GeneratedComposition N)
    (hostCapabilities : List JsString) (officialScope : Option JsString) :
    Except (List PluginDiagnostic) (ResolutionGraph N) :=
  resolvePlugins sha256Hex (hostOptions composition hostCapabilities officialScope)

end Host

end Appspine.Composition
