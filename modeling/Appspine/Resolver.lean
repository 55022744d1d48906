import Appspine.FrontierOrder
import Appspine.PluginManifest

/-!
# The plugin resolver

Inventory and manifests to a resolution graph. Every section of the source is a
function that yields its diagnostics in the order the source reports them.
-/
namespace Appspine.Resolver
open JsText StableSort InsertionMap FrontierOrder JsonText PluginManifest

/-- What the resolver needs of a loaded manifest. -/
structure ResolvableManifest (N : Type) where
  manifest : PluginManifestV1 N
  packageName : JsString
  packageVersion : JsString
  manifestDigest : Option JsString
  digest : Option JsString

structure ResolvedPluginInstance (N : Type) where
  key : JsString
  pluginId : JsString
  instanceId : JsString
  packageName : JsString
  packageVersion : JsString
  cardinality : PluginCardinality
  required : Bool
  configRef : Option JsString
  manifestDigest : JsString
  digest : JsString
  provides : List JsString
  requires : List JsString
  optionalRequires : List JsString
  dependsOn : List JsString
  unresolvedOptional : List JsString
  replaces : List ReplacementDeclaration
  manifest : PluginManifestV1 N

structure DisabledInstance where
  key : JsString
  pluginId : JsString
  instanceId : JsString
  packageName : JsString
  deriving DecidableEq

/-- Records are lists of properties in enumeration order. -/
structure ResolutionGraph (N : Type) where
  order : List JsString
  instances : List (ResolvedPluginInstance N)
  providers : List (JsString × List JsString)
  hostCapabilities : List JsString
  disabled : List DisabledInstance
  digest : JsString
  diagnostics : List PluginDiagnostic

/-- Manifests are objects with an identity, which `read` dereferences. -/
structure ResolveOptions (N Obj : Type) where
  inventory : List PluginInventoryEntry
  manifests : List Obj
  read : Obj → ResolvableManifest N
  hostCapabilities : Option (List JsString)
  officialScope : Option JsString

def DEFAULT_OFFICIAL_SCOPE : JsString := js "@appspine/"

/-- `diagnostic(code, message, extra)` with the default severity. -/
def diagnostic (code message : JsString) (pluginId instanceId path : Option JsString) :
    PluginDiagnostic :=
  { code := code, severity := .error, message := message, pluginId := pluginId,
    instanceId := instanceId, path := path }

def quoted (s : JsString) : JsString := unit '"' :: (s ++ [unit '"'])

variable {N Obj : Type} [DecidableEq Obj]

section Index

def refsOf (m : ResolvableManifest N) : List JsString := [m.packageName, m.manifest.id]

def ambiguousReference (ref : JsString) (existing entry : ResolvableManifest N) : PluginDiagnostic :=
  diagnostic (js "ambiguous-plugin-reference")
    (quoted ref ++ js " resolves to both " ++ existing.packageName ++ js " and " ++
      entry.packageName) (some entry.manifest.id) none none

/-- One reference of one manifest; another object already there keeps its place. -/
def indexRef (read : Obj → ResolvableManifest N) (entry : Obj)
    (state : Entries JsString Obj × List PluginDiagnostic) (ref : JsString) :
    Entries JsString Obj × List PluginDiagnostic :=
  match get state.1 ref with
  | some existing =>
    if existing ≠ entry then
      (state.1, state.2 ++ [ambiguousReference ref (read existing) (read entry)])
    else (InsertionMap.set state.1 ref entry, state.2)
  | none => (InsertionMap.set state.1 ref entry, state.2)

def indexManifests (read : Obj → ResolvableManifest N) (manifests : List Obj) :
    Entries JsString Obj × List PluginDiagnostic :=
  manifests.foldl (fun state entry => (refsOf (read entry)).foldl (indexRef read entry) state)
    ([], [])

/-- The manifest of an inventory entry: under its reference, else under its bare id. -/
def findManifest (byRef : Entries JsString Obj) (entry : PluginInventoryEntry) : Option Obj :=
  (get byRef entry.plugin).or (get byRef (inventoryPluginIdOf entry.plugin))

end Index

section Instances

variable [JsonNumber N]

/-- The names an instance answers to; a `multiple` plugin also has the qualified ones. -/
def providedCapabilities (manifest : PluginManifestV1 N) (instanceId : JsString) : List JsString :=
  if manifest.cardinality ≠ .multiple then manifest.provides
  else manifest.provides.flatMap (fun capability =>
    [capability, qualifyCapability capability instanceId])

def instanceIdOf (entry : PluginInventoryEntry) : JsString :=
  orDefault entry.instanceId DEFAULT_INSTANCE_ID

def keyOf (found : ResolvableManifest N) (entry : PluginInventoryEntry) : JsString :=
  instanceKey found.manifest.id (instanceIdOf entry)

def unknownPlugin (entry : PluginInventoryEntry) : PluginDiagnostic :=
  diagnostic (js "unknown-plugin") (js "inventory references unknown plugin " ++ quoted entry.plugin)
    none (some entry.instanceId) (some (js "inventory.plugin"))

def duplicateInstance (found : ResolvableManifest N) (entry : PluginInventoryEntry) :
    PluginDiagnostic :=
  diagnostic (js "duplicate-instance")
    (js "two inventory entries resolve to " ++ quoted (keyOf found entry))
    (some found.manifest.id) (some (instanceIdOf entry)) (some (js "inventory.instanceId"))

def optionalWithoutPolicy (found : ResolvableManifest N) (entry : PluginInventoryEntry) :
    List PluginDiagnostic :=
  if !entry.required && found.manifest.optionalFailurePolicy.isNone then
    [diagnostic (js "optional-without-failure-policy")
      (quoted (keyOf found entry) ++ js (" is marked optional but its manifest declares no " ++
        "optionalFailurePolicy (051 plan section 9)"))
      (some found.manifest.id) (some (instanceIdOf entry)) (some (js "inventory.required"))]
  else []

def configRefMismatch (found : ResolvableManifest N) (entry : PluginInventoryEntry) :
    List PluginDiagnostic :=
  match entry.configRef, found.manifest.configSchema with
  | some configRef, some schema =>
    if configRef ≠ [] ∧ configRef ≠ schema.configRef then
      [diagnostic (js "config-ref-mismatch")
        (js "inventory configRef " ++ quoted configRef ++ js " does not match the manifest's " ++
          quoted schema.configRef)
        (some found.manifest.id) (some (instanceIdOf entry)) (some (js "inventory.configRef"))]
    else []
  | _, _ => []

def appLocalClaim (officialScope : JsString) (found : ResolvableManifest N)
    (entry : PluginInventoryEntry) : List PluginDiagnostic :=
  if found.manifest.distribution = some .appLocal ∧ startsWith found.packageName officialScope then
    [diagnostic (js "app-local-claim-from-official-scope")
      (quoted found.packageName ++ js " claims distribution \"app-local\" from the official scope " ++
        quoted officialScope)
      (some found.manifest.id) (some (instanceIdOf entry)) (some (js "distribution"))]
  else []

def entryDiagnostics (officialScope : JsString) (found : ResolvableManifest N)
    (entry : PluginInventoryEntry) : List PluginDiagnostic :=
  optionalWithoutPolicy found entry ++ configRefMismatch found entry ++
    appLocalClaim officialScope found entry

/-- The instance of an enabled entry, before it is wired to its providers. -/
def buildInstance (sha256Hex : JsString → JsString) (found : ResolvableManifest N)
    (entry : PluginInventoryEntry) : ResolvedPluginInstance N :=
  let manifest := found.manifest
  { key := keyOf found entry
    pluginId := manifest.id
    instanceId := instanceIdOf entry
    packageName := found.packageName
    packageVersion := found.packageVersion
    cardinality := manifest.cardinality
    required := entry.required
    configRef := entry.configRef.or (manifest.configSchema.map (·.configRef))
    manifestDigest :=
      found.manifestDigest.getD (PluginManifest.manifestDigest sha256Hex manifest.toJson)
    digest := found.digest.getD (PluginManifest.manifestDigest sha256Hex manifest.toJson)
    provides := sorted (providedCapabilities manifest (instanceIdOf entry))
    requires := sorted manifest.requires
    optionalRequires := sorted (manifest.optionalRequires.getD [])
    dependsOn := []
    unresolvedOptional := []
    replaces := manifest.replaces.getD []
    manifest := manifest }

def disabledInstance (found : ResolvableManifest N) (entry : PluginInventoryEntry) :
    DisabledInstance :=
  { key := keyOf found entry, pluginId := found.manifest.id, instanceId := instanceIdOf entry,
    packageName := found.packageName }

structure Scan (N : Type) where
  seenKeys : List JsString
  instances : List (ResolvedPluginInstance N)
  disabled : List DisabledInstance
  diagnostics : List PluginDiagnostic

def Scan.empty : Scan N :=
  { seenKeys := [], instances := [], disabled := [], diagnostics := [] }

/-- The body of the loop over the inventory. -/
def scanEntry (sha256Hex : JsString → JsString) (officialScope : JsString)
    (lookup : PluginInventoryEntry → Option (ResolvableManifest N)) (scan : Scan N)
    (entry : PluginInventoryEntry) : Scan N :=
  match lookup entry with
  | none => { scan with diagnostics := scan.diagnostics ++ [unknownPlugin entry] }
  | some found =>
    let key := keyOf found entry
    if key ∈ scan.seenKeys then
      { scan with diagnostics := scan.diagnostics ++ [duplicateInstance found entry] }
    else if !entry.enabled then
      { scan with
        seenKeys := scan.seenKeys ++ [key]
        disabled := scan.disabled ++ [disabledInstance found entry] }
    else
      { seenKeys := scan.seenKeys ++ [key]
        instances := scan.instances ++ [buildInstance sha256Hex found entry]
        disabled := scan.disabled
        diagnostics := scan.diagnostics ++ entryDiagnostics officialScope found entry }

def inventorySortKey (entry : PluginInventoryEntry) : JsString :=
  inventoryPluginIdOf entry.plugin ++ unit '#' :: entry.instanceId

def scanEntries (sha256Hex : JsString → JsString) (officialScope : JsString)
    (lookup : PluginInventoryEntry → Option (ResolvableManifest N))
    (inventory : List PluginInventoryEntry) : Scan N :=
  (sortBy inventorySortKey inventory).foldl (scanEntry sha256Hex officialScope lookup) Scan.empty

end Instances

section Checks

def byPluginId (instances : List (ResolvedPluginInstance N)) :
    Entries JsString (List (ResolvedPluginInstance N)) :=
  group (instances.map (fun i => (i.pluginId, i)))

def cardinalityOf (pluginId : JsString) (list : List (ResolvedPluginInstance N)) :
    List PluginDiagnostic :=
  match list with
  | [] => []
  | first :: _ =>
    if first.cardinality = .singleton ∧ 1 < list.length then
      [diagnostic (js "singleton-cardinality-violation")
        (quoted pluginId ++ js " is a singleton but " ++ js (toString list.length) ++
          js " instances are enabled: " ++ join (js ", ") (sorted (list.map (·.key))))
        (some pluginId) none (some (js "cardinality"))]
    else []

def cardinalityDiagnostics (instances : List (ResolvedPluginInstance N)) : List PluginDiagnostic :=
  (sortBy Prod.fst (byPluginId instances)).flatMap (fun e => cardinalityOf e.1 e.2)

def enabledPluginIds (instances : List (ResolvedPluginInstance N)) : List JsString :=
  instances.map (·.pluginId)

def conflictDiagnostics (instances : List (ResolvedPluginInstance N)) : List PluginDiagnostic :=
  instances.flatMap (fun i =>
    ((i.manifest.conflicts.getD []).filter (· ∈ enabledPluginIds instances)).map (fun conflicting =>
      diagnostic (js "plugin-conflict")
        (quoted i.pluginId ++ js " declares a conflict with " ++ quoted conflicting ++
          js ", which is also enabled")
        (some i.pluginId) (some i.instanceId) (some (js "conflicts"))))

/-- Capability to the keys of the instances that provide it. -/
def providersOf (instances : List (ResolvedPluginInstance N)) : Entries JsString (List JsString) :=
  group (instances.flatMap (fun i => i.provides.map (fun capability => (capability, i.key))))

def replacedPlugins (instances : List (ResolvedPluginInstance N)) : List JsString :=
  instances.flatMap (fun i => i.replaces.map (·.plugin))

/-- The distinct texts before the first `#` of each key. -/
def ownerIds (keys : List JsString) : List JsString :=
  distinct (keys.map (fun key => (breakAt (unit '#') key).1))

def duplicateProvider (replaced : List JsString) (capability : JsString) (keys : List JsString) :
    List PluginDiagnostic :=
  if keys.length < 2 then []
  else if (ownerIds keys).length = 1 then []
  else if ((ownerIds keys).filter (· ∉ replaced)).length < 2 then []
  else
    [diagnostic (js "duplicate-capability-provider")
      (quoted capability ++ js " is provided by " ++ join (js ", ") (sorted keys) ++
        js " with no replaces declaration") none none (some (js "provides"))]

def duplicateProviderDiagnostics (instances : List (ResolvedPluginInstance N)) :
    List PluginDiagnostic :=
  (sortBy Prod.fst (providersOf instances)).flatMap
    (fun e => duplicateProvider (replacedPlugins instances) e.1 e.2)

def hostOverrideDiagnostics (hostCapabilities : List JsString)
    (instances : List (ResolvedPluginInstance N)) : List PluginDiagnostic :=
  hostCapabilities.flatMap (fun capability =>
    if has (providersOf instances) capability then
      [diagnostic (js "host-capability-overridden")
        (quoted capability ++ js " is host-owned but also provided by " ++
          join (js ", ") (sorted ((get (providersOf instances) capability).getD [])))
        none none (some (js "provides"))]
    else [])

def replacesTargetDiagnostics (instances : List (ResolvedPluginInstance N)) :
    List PluginDiagnostic :=
  instances.flatMap (fun i => i.replaces.zipIdx.flatMap (fun r =>
    if r.1.plugin ∈ enabledPluginIds instances then []
    else
      [diagnostic (js "replaces-target-missing")
        (quoted i.key ++ js " replaces a contribution of " ++ quoted r.1.plugin ++
          js ", which is not enabled")
        (some i.pluginId) (some i.instanceId)
        (some (js "replaces[" ++ js (toString r.2) ++ js "].plugin"))]))

end Checks

section Requirements

/-- The other instances that provide a capability. -/
def external (instances : List (ResolvedPluginInstance N)) (i : ResolvedPluginInstance N)
    (capability : JsString) : List JsString :=
  ((get (providersOf instances) capability).getD []).filter (· ≠ i.key)

def missingRequired (instances : List (ResolvedPluginInstance N)) (i : ResolvedPluginInstance N)
    (capability : JsString) : List PluginDiagnostic :=
  if external instances i capability = [] then
    [diagnostic (js "missing-required-capability")
      (quoted i.key ++ js " requires " ++ quoted capability ++
        (match (parseQualifiedCapability capability).2 with
          | some wanted => if wanted = [] then [] else js " (instance " ++ quoted wanted ++ js ")"
          | none => []) ++ js " and nothing provides it")
      (some i.pluginId) (some i.instanceId) (some (js "requires"))]
  else []

def isUnresolvedOptional (hostCapabilities : List JsString)
    (instances : List (ResolvedPluginInstance N)) (i : ResolvedPluginInstance N)
    (capability : JsString) : Bool :=
  decide (capability ∉ hostCapabilities ∧ external instances i capability = [])

def unresolvedOptionalDiagnostic (i : ResolvedPluginInstance N) (capability : JsString) :
    PluginDiagnostic :=
  { diagnostic (js "unresolved-optional-capability")
      (quoted i.key ++ js " runs without optional capability " ++ quoted capability)
      (some i.pluginId) (some i.instanceId) (some (js "optionalRequires")) with severity := .info }

def requirementsOf (hostCapabilities : List JsString) (instances : List (ResolvedPluginInstance N))
    (i : ResolvedPluginInstance N) : List PluginDiagnostic :=
  (i.requires.filter (· ∉ hostCapabilities)).flatMap (missingRequired instances i) ++
    (i.optionalRequires.filter (isUnresolvedOptional hostCapabilities instances i)).map
      (unresolvedOptionalDiagnostic i)

def requirementDiagnostics (hostCapabilities : List JsString)
    (instances : List (ResolvedPluginInstance N)) : List PluginDiagnostic :=
  instances.flatMap (requirementsOf hostCapabilities instances)

/-- An instance with its edges to the providers of what it requires. -/
def wire (hostCapabilities : List JsString) (instances : List (ResolvedPluginInstance N))
    (i : ResolvedPluginInstance N) : ResolvedPluginInstance N :=
  { i with
    dependsOn := sorted (distinct
      (((i.requires ++ i.optionalRequires).filter (· ∉ hostCapabilities)).flatMap
        (external instances i)))
    unresolvedOptional := sorted (i.unresolvedOptional ++
      i.optionalRequires.filter (isUnresolvedOptional hostCapabilities instances i)) }

def wired (hostCapabilities : List JsString) (instances : List (ResolvedPluginInstance N)) :
    List (ResolvedPluginInstance N) :=
  instances.map (wire hostCapabilities instances)

end Requirements

section Contributions

structure Contribution where
  kind : JsString
  value : JsString
  key : JsString
  pluginId : JsString

def stringsIn (items : List (Json N)) : List JsString :=
  items.filterMap (fun j => match j with | .str s => some s | _ => none)

/-- `prisma.owns`, when it is an array; items that are not strings are skipped. -/
def ownedModels (prisma : Option (List (JsString × Json N))) : List JsString :=
  match prisma.bind (fun members => get members (js "owns")) with
  | some (.arr items) => stringsIn items
  | _ => []

def collectContributions (i : ResolvedPluginInstance N) : List Contribution :=
  let push (kind value : JsString) : Contribution :=
    { kind := kind, value := value, key := i.key, pluginId := i.pluginId }
  let backend := match i.manifest.facets.backend with
    | none => []
    | some b =>
      (b.controllerRoutes.getD []).map (push (js "route")) ++
        (b.providerTokens.getD []).map (push (js "provider-token")) ++
        (b.workers.getD []).map (push (js "worker")) ++
        if b.exportName = [] then []
        else [push (js "backend-module") (i.packageName ++ unit '#' :: b.exportName)]
  let operations := match i.manifest.facets.operations.bind (·.healthIndicatorId) with
    | none => []
    | some id =>
      if id = [] then []
      else [push (js "health-indicator")
        (if i.cardinality = .multiple then qualifyCapability id i.instanceId else id)]
  backend ++ operations ++
    (ownedModels i.manifest.facets.prisma).map (push (js "prisma-model"))

def SHARED_ACROSS_INSTANCES : List JsString := [js "backend-module", js "prisma-model"]

def DUPLICATE_CODES : Entries JsString JsString :=
  [(js "route", js "duplicate-route"), (js "provider-token", js "duplicate-provider-token"),
    (js "worker", js "duplicate-worker"), (js "backend-module", js "duplicate-backend-module"),
    (js "health-indicator", js "duplicate-health-indicator"),
    (js "prisma-model", js "duplicate-prisma-model")]

/-- What some `replaces` declaration suppresses. -/
def replacementKeysOf (instances : List (ResolvedPluginInstance N)) : List JsString :=
  instances.flatMap (fun i => i.replaces.map (fun r => r.plugin ++ js "::" ++ r.contribution))

def contributionOwners (instances : List (ResolvedPluginInstance N)) :
    Entries JsString (List Contribution) :=
  group (instances.flatMap (fun i =>
    ((collectContributions i).filter (fun c =>
      c.pluginId ++ js "::" ++ c.value ∉ replacementKeysOf instances)).map
      (fun c => (c.kind ++ js "::" ++ c.value, c))))

/-- `const [kind, value] = id.split('::')`. -/
def splitContributionId (id : JsString) : JsString × JsString :=
  match breakOn (js "::") id with
  | (kind, some tail) => (kind, (breakOn (js "::") tail).1)
  | (kind, none) => (kind, js "undefined")

def duplicateContribution (id : JsString) (owners : List Contribution) : List PluginDiagnostic :=
  let kind := (splitContributionId id).1
  if owners.length < 2 then []
  else if kind ∈ SHARED_ACROSS_INSTANCES ∧ (distinct (owners.map (·.pluginId))).length = 1 then []
  else
    [diagnostic ((get DUPLICATE_CODES kind).getD (js "duplicate-contribution"))
      (kind ++ js " " ++ quoted (splitContributionId id).2 ++ js " is contributed by " ++
        join (js ", ") (sorted (owners.map (·.key))))
      none none (some (js "facets." ++ kind))]

def duplicateContributionDiagnostics (instances : List (ResolvedPluginInstance N)) :
    List PluginDiagnostic :=
  (sortBy Prod.fst (contributionOwners instances)).flatMap (fun e => duplicateContribution e.1 e.2)

end Contributions

section Ordering

def dependencyGraph (instances : List (ResolvedPluginInstance N)) : Waiting JsString :=
  instances.map (fun i => (i.key, distinct i.dependsOn))

def dependencyCycle (cycle : List JsString) : PluginDiagnostic :=
  diagnostic (js "dependency-cycle") (js "dependency cycle between: " ++ join (js " -> ") cycle)
    none none (some (js "requires"))

def topologicalOrder (instances : List (ResolvedPluginInstance N)) :
    List JsString × List PluginDiagnostic :=
  let (order, stuck) := layered (dependencyGraph instances)
  (order, if stuck = [] then [] else [dependencyCycle stuck])

/-- `shutdownOrder`: exactly the reverse of registration. -/
def shutdownOrder (graph : ResolutionGraph N) : List JsString := graph.order.reverse

end Ordering

section Graph

variable [JsonNumber N]

def instanceJson (i : ResolvedPluginInstance N) : Json N :=
  .obj [(js "key", .str i.key), (js "packageName", .str i.packageName),
    (js "packageVersion", .str i.packageVersion), (js "digest", .str i.digest),
    (js "required", .bool i.required), (js "dependsOn", strings i.dependsOn),
    (js "unresolvedOptional", strings i.unresolvedOptional)]

/-- The document the resolution digest covers. -/
def resolutionJson (order hostCapabilities : List JsString)
    (providers : List (JsString × List JsString)) (disabled : List DisabledInstance)
    (instances : List (ResolvedPluginInstance N)) : Json N :=
  .obj [(js "order", strings order), (js "hostCapabilities", strings hostCapabilities),
    (js "providers", .obj (providers.map (fun e => (e.1, strings e.2)))),
    (js "disabled", strings (disabled.map (·.key))),
    (js "instances", .arr (instances.map instanceJson))]

def resolutionDigest (sha256Hex : JsString → JsString) (graph : ResolutionGraph N) : JsString :=
  manifestDigest sha256Hex (resolutionJson graph.order graph.hostCapabilities graph.providers
    graph.disabled graph.instances)

/-- `order.map((key) => instances.find(...))`. -/
def orderedInstances (order : List JsString) (instances : List (ResolvedPluginInstance N)) :
    List (ResolvedPluginInstance N) :=
  order.filterMap (fun key => instances.find? (fun i => i.key = key))

/-- Everything from the cardinality check to the ordering. -/
def linkDiagnostics (hostCapabilities : List JsString)
    (instances : List (ResolvedPluginInstance N)) : List PluginDiagnostic :=
  cardinalityDiagnostics instances ++ conflictDiagnostics instances ++
    duplicateProviderDiagnostics instances ++ hostOverrideDiagnostics hostCapabilities instances ++
    replacesTargetDiagnostics instances ++ requirementDiagnostics hostCapabilities instances ++
    duplicateContributionDiagnostics instances ++
    (topologicalOrder (wired hostCapabilities instances)).2

/-- The graph of a resolution without errors. -/
def assemble (sha256Hex : JsString → JsString) (hostCapabilities : List JsString)
    (instances : List (ResolvedPluginInstance N)) (disabled : List DisabledInstance)
    (diagnostics : List PluginDiagnostic) : ResolutionGraph N :=
  let order := (topologicalOrder (wired hostCapabilities instances)).1
  let graph : ResolutionGraph N :=
    { order := order
      instances := orderedInstances order (wired hostCapabilities instances)
      providers := ofEntries ((sortBy Prod.fst (providersOf instances)).map
        (fun e => (e.1, sorted e.2)))
      hostCapabilities := hostCapabilities
      disabled := sortBy (·.key) disabled
      digest := []
      diagnostics := sortDiagnostics diagnostics }
  { graph with digest := resolutionDigest sha256Hex graph }

def ResolveOptions.hosts (options : ResolveOptions N Obj) : List JsString :=
  sorted (distinct (options.hostCapabilities.getD []))

def ResolveOptions.scope (options : ResolveOptions N Obj) : JsString :=
  options.officialScope.getD DEFAULT_OFFICIAL_SCOPE

def ResolveOptions.index (options : ResolveOptions N Obj) :
    Entries JsString Obj × List PluginDiagnostic :=
  indexManifests options.read options.manifests

def ResolveOptions.lookup (options : ResolveOptions N Obj) (entry : PluginInventoryEntry) :
    Option (ResolvableManifest N) :=
  (findManifest options.index.1 entry).map options.read

def ResolveOptions.scan (options : ResolveOptions N Obj) (sha256Hex : JsString → JsString) :
    Scan N :=
  scanEntries sha256Hex options.scope options.lookup options.inventory

/-- All diagnostics in the order they are pushed. -/
def ResolveOptions.diagnostics (options : ResolveOptions N Obj)
    (sha256Hex : JsString → JsString) : List PluginDiagnostic :=
  options.index.2 ++ (options.scan sha256Hex).diagnostics ++
    linkDiagnostics options.hosts (options.scan sha256Hex).instances

def resolvePlugins (sha256Hex : JsString → JsString) (options : ResolveOptions N Obj) :
    Except (List PluginDiagnostic) (ResolutionGraph N) :=
  let diagnostics := options.diagnostics sha256Hex
  if hasErrors diagnostics then .error (sortDiagnostics diagnostics)
  else
    let scan := options.scan sha256Hex
    .ok (assemble sha256Hex options.hosts scan.instances scan.disabled diagnostics)

end Graph

end Appspine.Resolver
