import Appspine.Composition
import Appspine.JsonSchema
import Appspine.Redaction
import Appspine.Results

/-!
# The composed host module

`prepare` and the two entry points that compose the backend modules of the plugins. Graph order
puts every provider first, so that a module finds the modules of all its dependencies.
-/
namespace Appspine.Host
open JsText JsonText InsertionMap PluginManifest Resolver Appspine.Composition
open JsonSchema (JsValue)
open Results

variable {N H K V E : Type}

section Modules

/-- What a module's `imports` can hold: a class, or a dynamic module with its other members. -/
inductive NestModule (K V : Type) where
  | type (ref : K)
  | dynamic (module : K) (imports : Option (List (NestModule K V)))
      (members : List (JsString × V))

/-- What a backend factory returns. -/
inductive BackendResult (K V E : Type) where
  | produced (module : NestModule K V)
  | promise (settled : Except E (NestModule K V))

structure PluginRuntimeContext (N : Type) where
  pluginId : JsString
  instanceId : JsString
  key : JsString
  config : JsValue N

/-- A descriptor; `configSchema` is the parser, whose error may have a message. -/
structure DefinedPlugin (N H K V E : Type) where
  manifest : PluginManifestV1 N
  configSchema : Option (Json N → Except (Option JsString) (JsValue N))
  defaultConfig : Option (List (JsString × Json N))
  lifecycle : Option H
  backend : Option (PluginRuntimeContext N → Except E (BackendResult K V E))

structure PluginRegistration (N H K V E : Type) where
  plugin : DefinedPlugin N H K V E
  packageName : Option JsString
  packageVersion : Option JsString

structure AppspineHostConfig (N H K V E : Type) where
  inventory : List PluginInventoryEntry
  plugins : List (PluginRegistration N H K V E)
  hostCapabilities : Option (List (JsString × V))
  runtime : Option (List (JsString × Json N))
  stageTimeoutMs : Option N
  shutdownTimeoutMs : Option N
  officialScope : Option JsString

structure RuntimeInstance (N H : Type) where
  key : JsString
  pluginId : JsString
  instanceId : JsString
  packageName : JsString
  packageVersion : JsString
  digest : JsString
  required : Bool
  provides : List JsString
  requires : List JsString
  unresolvedOptional : List JsString
  config : JsValue N
  redactedConfig : JsValue N
  hooks : Option H
  optionalFailurePolicy : Option (List (JsString × Json N))
  healthIndicatorId : Option JsString
  shutdownTimeoutMs : Option (Json N)

/-- A backend factory that is still to be invoked. -/
structure PendingFactory (N H K V E : Type) where
  runtime : RuntimeInstance N H
  factory : PluginRuntimeContext N → Except E (BackendResult K V E)
  context : PluginRuntimeContext N

structure HostRuntimeState (N H : Type) where
  graph : ResolutionGraph N
  instances : List (RuntimeInstance N H)
  stageTimeoutMs : Option N
  shutdownTimeoutMs : Option N

structure Prepared (N H K V E : Type) where
  state : HostRuntimeState N H
  factories : List (PendingFactory N H K V E)

structure PluginContractError where
  code : JsString
  message : JsString
  diagnostics : List PluginDiagnostic

/-- What composing throws: an error of the contract, or one from a factory. -/
inductive HostError (E : Type) where
  | contract (error : PluginContractError)
  | thrown (error : E)

end Modules

section Prepare

def contractError (code message : JsString) (diagnostics : List PluginDiagnostic) :
    PluginContractError :=
  let detail := join [unit '\n'] ((sortDiagnostics diagnostics).map
    (fun entry => js "  - [" ++ entry.code ++ js "] " ++ entry.message))
  { code := code
    message := if detail = [] then message else message ++ unit '\n' :: detail
    diagnostics := sortDiagnostics diagnostics }

/-- `typeof cursor === 'object' && cursor !== null`. -/
def isObject : JsValue N → Bool
  | .json .null => false
  | value => decide (JsonSchema.typeOf value = js "object")

/-- One segment of a dotted `configRef`. -/
def cursorAt (cursor : Option (JsValue N)) (segment : JsString) : Option (JsValue N) :=
  cursor.bind (fun value => if isObject value then JsonSchema.property value segment else none)

def resolveConfigRef (runtime : Option (List (JsString × Json N))) (configRef : Option JsString) :
    Option (JsValue N) :=
  match configRef.filter (· ≠ []) with
  | none => some (.json (.obj []))
  | some ref => (ref.splitOn (unit '.')).foldl cursorAt (some (.json (.obj (runtime.getD []))))

/-- `value ?? {}`. -/
def orEmpty : Option (JsValue N) → JsValue N
  | none => .json (.obj [])
  | some (.json .null) => .json (.obj [])
  | some value => value

/-- What `{ ...value }` copies. -/
def spread : JsValue N → List (JsString × Json N)
  | .json (.obj members) => members
  | .json (.arr items) => items.zipIdx.map (fun e => (js (toString e.2), e.1))
  | .json (.str text) => text.zipIdx.map (fun e => (js (toString e.2), .str [e.1]))
  | _ => []

/-- `manifest.environment`. -/
def environmentOf (manifest : PluginManifestV1 N) :
    Option (List Diagnostics.EnvironmentContribution) :=
  match get manifest.rest (js "environment") with
  | some (.arr items) => some (items.filterMap (fun item =>
      match field (js "key") item, field (js "secret") item with
      | some (.str key), some (.bool secret) => some { key := key, secret := secret }
      | some (.str key), _ => some { key := key, secret := false }
      | _, _ => none))
  | _ => none

/-- The parsed config without its secrets. -/
def redacted (toLowerCase : JsString → JsString) (manifest : PluginManifestV1 N) :
    JsValue N → JsValue N
  | .json config => .json (Diagnostics.redactConfigForManifest toLowerCase
      (environmentOf manifest) config)
  | .objectPrototype => .json (.obj [])
  | .arrayPrototype => .json (.arr [])
  | config => config

def operationsTimeout (manifest : PluginManifestV1 N) : Option (Json N) :=
  (manifest.facets.operations.bind (fun o => get o.rest (js "shutdownTimeoutMs"))).filter
    (fun timeout => !Diagnostics.isNull timeout)

def invalidPluginConfig (resolved : ResolvedPluginInstance N) (message : Option JsString) :
    PluginDiagnostic :=
  diagnostic (js "invalid-plugin-config")
    (js "config at " ++ quoted (resolved.configRef.getD (js "(none)")) ++ js " for " ++
      quoted resolved.key ++ js " is invalid: " ++ message.getD (js "unknown error"))
    (some resolved.pluginId) (some resolved.instanceId) (some (js "configSchema"))

variable [JsonNumber N]

/-- The registration as the resolver reads it. -/
def PluginRegistration.toHost (registration : PluginRegistration N H K V E) :
    HostPluginRegistration N where
  manifest := registration.plugin.manifest
  packageName := registration.packageName
  packageVersion := registration.packageVersion

def resolutionOf (sha256Hex : JsString → JsString) (config : AppspineHostConfig N H K V E) :
    Except (List PluginDiagnostic) (ResolutionGraph N) :=
  prepareGraph sha256Hex
    { resolutionDigest := [], inventory := config.inventory
      plugins := config.plugins.map PluginRegistration.toHost }
    (keys (config.hostCapabilities.getD [])) config.officialScope

def unwrapResolution (result : Except (List PluginDiagnostic) (ResolutionGraph N)) :
    Except PluginContractError (ResolutionGraph N) :=
  result.mapError (contractError (js "plugin-resolution-failed") (js "Plugin resolution failed"))

/-- `new Map(config.plugins.map(...))`, which keeps the last registration of an id. -/
def registrationOf (config : AppspineHostConfig N H K V E) (pluginId : JsString) :
    Option (PluginRegistration N H K V E) :=
  get (config.plugins.foldl
    (fun byPluginId r => InsertionMap.set byPluginId r.plugin.manifest.id r) []) pluginId

/-- `plugin.configSchema.parse({ ...defaultConfig, ...rawConfig })`, or the raw config. -/
def parseConfig (plugin : DefinedPlugin N H K V E) (rawConfig : Option (JsValue N)) :
    Except (Option JsString) (JsValue N) :=
  match plugin.configSchema with
  | none => .ok (orEmpty rawConfig)
  | some parse =>
    parse (.obj (ofEntries (plugin.defaultConfig.getD [] ++ spread (orEmpty rawConfig))))

def runtimeInstance (toLowerCase : JsString → JsString) (config : AppspineHostConfig N H K V E)
    (resolved : ResolvedPluginInstance N) (plugin : DefinedPlugin N H K V E)
    (parsedConfig : JsValue N) : RuntimeInstance N H where
  key := resolved.key
  pluginId := resolved.pluginId
  instanceId := resolved.instanceId
  packageName := resolved.packageName
  packageVersion := resolved.packageVersion
  digest := resolved.digest
  required := resolved.required
  provides := resolved.provides
  requires := resolved.requires
  unresolvedOptional := resolved.unresolvedOptional
  config := parsedConfig
  redactedConfig := redacted toLowerCase resolved.manifest parsedConfig
  hooks := plugin.lifecycle
  optionalFailurePolicy := resolved.manifest.optionalFailurePolicy
  healthIndicatorId := resolved.manifest.facets.operations.bind (·.healthIndicatorId)
  shutdownTimeoutMs :=
    (operationsTimeout resolved.manifest).or (config.shutdownTimeoutMs.map .num)

def pendingFactory (runtime : RuntimeInstance N H) (plugin : DefinedPlugin N H K V E) :
    Option (PendingFactory N H K V E) :=
  plugin.backend.map (fun factory =>
    { runtime := runtime
      factory := factory
      context := { pluginId := runtime.pluginId, instanceId := runtime.instanceId,
                   key := runtime.key, config := runtime.config } })

/-- The body of the loop over the graph: a diagnostic of the config, or the instance. -/
def prepareInstance (toLowerCase : JsString → JsString) (config : AppspineHostConfig N H K V E)
    (resolved : ResolvedPluginInstance N) :
    Except PluginContractError
      (PluginDiagnostic ⊕ RuntimeInstance N H × Option (PendingFactory N H K V E)) :=
  match registrationOf config resolved.pluginId with
  | none => .error (contractError (js "plugin-registration-missing")
      (js "No statically imported plugin registration for " ++ quoted resolved.pluginId) [])
  | some registration =>
    match parseConfig registration.plugin (resolveConfigRef config.runtime resolved.configRef) with
    | .error message => .ok (.inl (invalidPluginConfig resolved message))
    | .ok parsedConfig =>
      let runtime := runtimeInstance toLowerCase config resolved registration.plugin parsedConfig
      .ok (.inr (runtime, pendingFactory runtime registration.plugin))

variable (sha256Hex toLowerCase : JsString → JsString)

def prepare (config : AppspineHostConfig N H K V E) :
    Except PluginContractError (Prepared N H K V E) := do
  let graph ← unwrapResolution (resolutionOf sha256Hex config)
  let outcomes ← collect (graph.instances.map (prepareInstance toLowerCase config))
  let configDiagnostics := outcomes.filterMap Sum.getLeft?
  if configDiagnostics ≠ [] then
    .error (contractError (js "invalid-plugin-config")
      (js "Plugin configuration validation failed") configDiagnostics)
  else
    .ok {
      state := {
        graph := graph
        instances := (outcomes.filterMap Sum.getRight?).map Prod.fst
        stageTimeoutMs := config.stageTimeoutMs
        shutdownTimeoutMs := config.shutdownTimeoutMs }
      factories := (outcomes.filterMap Sum.getRight?).filterMap Prod.snd }

end Prepare

section Compose

/-- The tokens a host module exports and the modules that it re-exports. -/
inductive HostExport (K V : Type) where
  | APPSPINE_HOST_CONFIG
  | APPSPINE_HOST_STATE
  | AppspinePluginHost
  | module (module : NestModule K V)

/-- The dynamic module of `AppspineHostModule`; its providers are the config and the state. -/
structure HostModule (N H K V E : Type) where
  imports : List (NestModule K V)
  config : AppspineHostConfig N H K V E
  state : HostRuntimeState N H
  exports : List (HostExport K V)

/-- `authInfrastructure` is `AppspineAuthInfrastructureModule`. -/
def buildModule (authInfrastructure : K) (config : AppspineHostConfig N H K V E)
    (state : HostRuntimeState N H) (imports : List (NestModule K V)) : HostModule N H K V E where
  imports := .type authInfrastructure :: imports
  config := config
  state := state
  exports := [.APPSPINE_HOST_CONFIG, .APPSPINE_HOST_STATE, .AppspinePluginHost,
    .module (.type authInfrastructure)] ++ imports.map .module

def withResolvedImports (authInfrastructure : K) (produced : NestModule K V)
    (dependencies : List (NestModule K V)) : NestModule K V :=
  match produced with
  | .dynamic module imports members =>
    .dynamic module (some (.type authInfrastructure :: dependencies ++ imports.getD [])) members
  | .type ref => .dynamic ref (some (.type authInfrastructure :: dependencies)) []

def resolvedDependencyModules (graph : ResolutionGraph N) (instanceKey : JsString)
    (modulesByKey : List (JsString × NestModule K V)) : List (NestModule K V) :=
  match graph.instances.find? (fun i => i.key = instanceKey) with
  | none => []
  | some resolved => resolved.dependsOn.flatMap (fun key => (get modulesByKey key).toList)

structure Composing (K V : Type) where
  imports : List (NestModule K V)
  modulesByKey : List (JsString × NestModule K V)

def asyncBackendFactory (key : JsString) : PluginContractError :=
  contractError (js "async-backend-factory")
    (js "Plugin " ++ quoted key ++
      js " returned a Promise from its backend factory; use createAppspineModuleAsync()") []

/-- What the synchronous entry point makes of a factory's result. -/
def returned (key : JsString) : BackendResult K V E → Except (HostError E) (NestModule K V)
  | .produced module => .ok module
  | .promise _ => .error (.contract (asyncBackendFactory key))

/-- `await` of a factory's result. -/
def awaited (_key : JsString) : BackendResult K V E → Except (HostError E) (NestModule K V)
  | .produced module => .ok module
  | .promise settled => settled.mapError .thrown

/-- The body of the loop over the factories. -/
def composeFactory (authInfrastructure : K)
    (settle : JsString → BackendResult K V E → Except (HostError E) (NestModule K V))
    (graph : ResolutionGraph N) (composing : Composing K V) (f : PendingFactory N H K V E) :
    Except (HostError E) (Composing K V) := do
  let result ← (f.factory f.context).mapError HostError.thrown
  let produced ← settle f.runtime.key result
  let composed := withResolvedImports authInfrastructure produced
    (resolvedDependencyModules graph f.runtime.key composing.modulesByKey)
  .ok { imports := composing.imports ++ [composed]
        modulesByKey := InsertionMap.set composing.modulesByKey f.runtime.key composed }

/-- The loop over the factories. -/
def composeFactories (authInfrastructure : K)
    (settle : JsString → BackendResult K V E → Except (HostError E) (NestModule K V))
    (graph : ResolutionGraph N) :
    List (PendingFactory N H K V E) → Composing K V → Except (HostError E) (Composing K V)
  | [], composing => .ok composing
  | f :: factories, composing => do
    let next ← composeFactory authInfrastructure settle graph composing f
    composeFactories authInfrastructure settle graph factories next

variable [JsonNumber N] (sha256Hex toLowerCase : JsString → JsString) (authInfrastructure : K)

def createAppspineModule (config : AppspineHostConfig N H K V E) :
    Except (HostError E) (HostModule N H K V E) := do
  let prepared ← (prepare sha256Hex toLowerCase config).mapError HostError.contract
  let composing ← composeFactories authInfrastructure returned prepared.state.graph
    prepared.factories ⟨[], []⟩
  .ok (buildModule authInfrastructure config prepared.state composing.imports)

/-- The settled promise. -/
def createAppspineModuleAsync (config : AppspineHostConfig N H K V E) :
    Except (HostError E) (HostModule N H K V E) := do
  let prepared ← (prepare sha256Hex toLowerCase config).mapError HostError.contract
  let composing ← composeFactories authInfrastructure awaited prepared.state.graph
    prepared.factories ⟨[], []⟩
  .ok (buildModule authInfrastructure config prepared.state composing.imports)

end Compose

section Graph

variable [JsonNumber N] {Obj : Type} [DecidableEq Obj] {sha256Hex : JsString → JsString}
  {options : ResolveOptions N Obj} {graph : ResolutionGraph N}

lemma nodup_instances (h : resolvePlugins sha256Hex options = .ok graph) :
    (graph.instances.map (·.key)).Nodup := by
  obtain ⟨haccepts, rfl⟩ := (resolvePlugins_eq_ok sha256Hex).mp h
  rw [(graph_instances sha256Hex haccepts).1, (order_perm sha256Hex haccepts).nodup_iff]
  exact nodup_enabled sha256Hex haccepts

omit [JsonNumber N] in
lemma eq_of_key_eq (h : (graph.instances.map (·.key)).Nodup) {i j : ResolvedPluginInstance N}
    (hi : i ∈ graph.instances) (hj : j ∈ graph.instances) (hkey : i.key = j.key) : i = j :=
  List.inj_on_of_nodup_map h hi hj hkey

/-- What an instance depends on comes before it. -/
lemma dependency_first (h : resolvePlugins sha256Hex options = .ok graph)
    {i : ResolvedPluginInstance N} (hi : i ∈ graph.instances) {key : JsString}
    (hkey : key ∈ i.dependsOn) :
    ∃ j ∈ graph.instances, j.key = key ∧ [j, i].Sublist graph.instances := by
  have hnodup := nodup_instances h
  obtain ⟨haccepts, rfl⟩ := (resolvePlugins_eq_ok sha256Hex).mp h
  obtain ⟨horder, hperm⟩ := graph_instances sha256Hex haccepts
  obtain ⟨i', -, rfl⟩ := List.mem_map.mp (hperm.mem_iff.mp hi)
  obtain ⟨c, hc, hhost, hne, j', hj', rfl, hp⟩ := mem_dependsOn.mp hkey
  have hj : wire options.hosts (options.enabled sha256Hex) j' ∈
      (options.graph sha256Hex).instances :=
    hperm.mem_iff.mpr (List.mem_map_of_mem hj')
  have hbefore := graph_order_before sha256Hex haccepts hi hj hne hc hhost hp
  rw [← horder, List.sublist_map_iff] at hbefore
  obtain ⟨l, hl, hmap⟩ := hbefore
  obtain ⟨a, l, rfl⟩ := List.exists_cons_of_length_eq_add_one
    (n := 1) (by simpa using (congrArg List.length hmap).symm)
  obtain ⟨b, rfl⟩ : ∃ b, l = [b] :=
    List.length_eq_one_iff.mp (by simpa using (congrArg List.length hmap).symm)
  simp only [List.map_cons, List.map_nil, List.cons.injEq, and_true] at hmap
  obtain rfl := eq_of_key_eq hnodup hj (hl.subset (by simp)) hmap.1
  obtain rfl := eq_of_key_eq hnodup hi (hl.subset (by simp)) hmap.2
  exact ⟨_, hj, rfl, hl⟩

/-- Nothing depends on itself or on what comes later. -/
lemma later_not_dependency (h : resolvePlugins sha256Hex options = .ok graph) :
    (∀ i ∈ graph.instances, i.key ∉ i.dependsOn) ∧
      graph.instances.Pairwise (fun i j => j.key ∉ i.dependsOn) := by
  have hnodup := nodup_instances h
  have hlist : graph.instances.Nodup := hnodup.of_map
  constructor
  · intro i hi hself
    obtain ⟨j, hj, hkey, hbefore⟩ := dependency_first h hi hself
    obtain rfl := eq_of_key_eq hnodup hj hi hkey
    exact absurd (hbefore.nodup hlist) (by simp)
  · rw [List.pairwise_iff_forall_sublist]
    intro i j hij hdepends
    obtain ⟨j', hj', hkey, hbefore⟩ := dependency_first h (hij.subset (by simp)) hdepends
    obtain rfl := eq_of_key_eq hnodup hj' (hij.subset (by simp)) hkey
    have hlt := FrontierOrder.idxOf_lt_of_sublist hnodup
      (hij.map (fun i : ResolvedPluginInstance N => i.key))
    have hgt := FrontierOrder.idxOf_lt_of_sublist hnodup
      (hbefore.map (fun i : ResolvedPluginInstance N => i.key))
    omega

end Graph

section Pending

variable [JsonNumber N] {sha256Hex toLowerCase : JsString → JsString}
  {config : AppspineHostConfig N H K V E} {prepared : Prepared N H K V E}

/-- The factory that `prepare` leaves for an instance. -/
def factoryOf (toLowerCase : JsString → JsString) (config : AppspineHostConfig N H K V E)
    (i : ResolvedPluginInstance N) : Option (PendingFactory N H K V E) :=
  match prepareInstance toLowerCase config i with
  | .ok (.inr (_, factory)) => factory
  | _ => none

def hasBackend (config : AppspineHostConfig N H K V E) (i : ResolvedPluginInstance N) : Bool :=
  (registrationOf config i.pluginId).any (fun r => r.plugin.backend.isSome)

/-- The instances with a backend factory, in graph order. -/
def backendInstances (config : AppspineHostConfig N H K V E) (graph : ResolutionGraph N) :
    List (ResolvedPluginInstance N) :=
  graph.instances.filter (hasBackend config)

omit [JsonNumber N] in
lemma factoryOf_spec {i : ResolvedPluginInstance N}
    {p : RuntimeInstance N H × Option (PendingFactory N H K V E)}
    (h : prepareInstance toLowerCase config i = .ok (.inr p)) :
    (factoryOf toLowerCase config i).isSome = hasBackend config i ∧
      ∀ f, factoryOf toLowerCase config i = some f → f.runtime.key = i.key := by
  rw [factoryOf, h]
  rw [prepareInstance] at h
  cases hregistration : registrationOf config i.pluginId with
  | none =>
    rw [hregistration] at h
    cases h
  | some registration =>
    rw [hregistration] at h
    simp only at h
    split at h
    · cases h
    · obtain rfl := Sum.inr.inj (Except.ok.inj h)
      simp only [pendingFactory, hasBackend, hregistration, Option.any_some, Option.isSome_map,
        Option.map_eq_some_iff, true_and]
      rintro f ⟨factory, -, rfl⟩
      rfl

omit [JsonNumber N] in
lemma filterMap_outcomes {is : List (ResolvedPluginInstance N)}
    {outcomes : List (PluginDiagnostic ⊕ RuntimeInstance N H × Option (PendingFactory N H K V E))}
    (h : is.map (prepareInstance toLowerCase config) = outcomes.map .ok)
    (hnone : outcomes.filterMap Sum.getLeft? = []) :
    (outcomes.filterMap Sum.getRight?).filterMap Prod.snd =
        is.filterMap (factoryOf toLowerCase config) ∧
      ∀ i ∈ is, ∃ p, prepareInstance toLowerCase config i = .ok (.inr p) := by
  induction is generalizing outcomes with
  | nil => cases outcomes <;> simp at h ⊢
  | cons i is ih =>
    cases outcomes with
    | nil => simp at h
    | cons o outcomes =>
      obtain ⟨hhead, htail⟩ := List.cons.inj h
      cases o with
      | inl d => simp at hnone
      | inr p =>
        obtain ⟨hfactories, hall⟩ := ih htail (by simpa using hnone)
        constructor
        · have hp : factoryOf toLowerCase config i = p.2 := by rw [factoryOf, hhead]
          cases hsnd : p.2 <;> simp [hp, hsnd, hfactories]
        · exact List.forall_mem_cons.mpr ⟨⟨p, hhead⟩, hall⟩

/-- What `prepare` returns: the graph, and a factory for each instance with a backend. -/
lemma prepare_eq_ok (h : prepare sha256Hex toLowerCase config = .ok prepared) :
    resolutionOf sha256Hex config = .ok prepared.state.graph ∧
      prepared.factories =
        prepared.state.graph.instances.filterMap (factoryOf toLowerCase config) ∧
      ∀ i ∈ prepared.state.graph.instances,
        ∃ p, prepareInstance toLowerCase config i = .ok (.inr p) := by
  obtain ⟨graph, hgraph, h⟩ := bind_eq_ok.mp h
  obtain ⟨outcomes, houtcomes, h⟩ := bind_eq_ok.mp h
  simp only [ne_eq, ite_not] at h
  split_ifs at h with hnone
  obtain rfl := Except.ok.inj h
  exact ⟨mapError_eq_ok.mp hgraph, filterMap_outcomes (collect_eq_ok.mp houtcomes) hnone⟩

/-- The factories are those of the instances with a backend. -/
lemma keys_factories (h : prepare sha256Hex toLowerCase config = .ok prepared) :
    prepared.factories.map (·.runtime.key) =
      (backendInstances config prepared.state.graph).map (·.key) := by
  obtain ⟨-, hfactories, hall⟩ := prepare_eq_ok h
  rw [hfactories, backendInstances]
  generalize prepared.state.graph.instances = is at hall
  induction is with
  | nil => rfl
  | cons i is ih =>
    have hrest := ih (fun j hj => hall j (by simp [hj]))
    obtain ⟨p, hp⟩ := hall i (by simp)
    obtain ⟨hsome, hkey⟩ := factoryOf_spec hp
    rw [List.filterMap_cons, List.filter_cons, ← hsome]
    cases hfactory : factoryOf toLowerCase config i with
    | none => simpa using hrest
    | some f => simpa [hkey f hfactory] using hrest

end Pending

section Run

variable {authInfrastructure : K}
  {settle : JsString → BackendResult K V E → Except (HostError E) (NestModule K V)}
  {graph : ResolutionGraph N} {done factories : List (PendingFactory N H K V E)}
  {f : PendingFactory N H K V E} {composing next : Composing K V}

/-- What an instance of the graph depends on. -/
def dependenciesOf (graph : ResolutionGraph N) (key : JsString) : List JsString :=
  match graph.instances.find? (fun i => i.key = key) with
  | none => []
  | some resolved => resolved.dependsOn

lemma resolvedDependencyModules_eq (key : JsString) (modules : List (JsString × NestModule K V)) :
    resolvedDependencyModules graph key modules =
      (dependenciesOf graph key).flatMap (fun k => (get modules k).toList) := by
  rw [resolvedDependencyModules, dependenciesOf]
  split <;> rfl

lemma resolvedDependencyModules_set {key other : JsString} (module : NestModule K V)
    (modules : List (JsString × NestModule K V)) (h : other ∉ dependenciesOf graph key) :
    resolvedDependencyModules graph key (InsertionMap.set modules other module) =
      resolvedDependencyModules graph key modules := by
  rw [resolvedDependencyModules_eq, resolvedDependencyModules_eq]
  apply List.flatMap_congr
  intro k hk
  rw [get_set, if_neg]
  rintro rfl
  exact h hk

/-- What holds after some factories: each has its module, made from the modules of all of them. -/
structure Composed (authInfrastructure : K)
    (settle : JsString → BackendResult K V E → Except (HostError E) (NestModule K V))
    (graph : ResolutionGraph N) (done : List (PendingFactory N H K V E))
    (composing : Composing K V) : Prop where
  keys : keys composing.modulesByKey = done.map (·.runtime.key)
  imports : composing.imports.map some =
    done.map (fun f => get composing.modulesByKey f.runtime.key)
  modules : ∀ f ∈ done, ∃ result produced, f.factory f.context = .ok result ∧
    settle f.runtime.key result = .ok produced ∧
    get composing.modulesByKey f.runtime.key = some (withResolvedImports authInfrastructure produced
      (resolvedDependencyModules graph f.runtime.key composing.modulesByKey))

lemma composeFactory_eq_ok :
    composeFactory authInfrastructure settle graph composing f = .ok next ↔
      ∃ result produced, f.factory f.context = .ok result ∧
        settle f.runtime.key result = .ok produced ∧
        next = ⟨composing.imports ++ [withResolvedImports authInfrastructure produced
            (resolvedDependencyModules graph f.runtime.key composing.modulesByKey)],
          InsertionMap.set composing.modulesByKey f.runtime.key
            (withResolvedImports authInfrastructure produced
              (resolvedDependencyModules graph f.runtime.key composing.modulesByKey))⟩ := by
  simp only [composeFactory, bind_eq_ok, mapError_eq_ok, Except.ok.injEq, exists_and_left]
  simp only [eq_comm]

/-- One factory more: no module made before had to import the new one. -/
lemma composed_step (h : Composed authInfrastructure settle graph done composing)
    (hstep : composeFactory authInfrastructure settle graph composing f = .ok next)
    (hnew : f.runtime.key ∉ done.map (·.runtime.key))
    (hlater : ∀ g ∈ done, f.runtime.key ∉ dependenciesOf graph g.runtime.key)
    (hself : f.runtime.key ∉ dependenciesOf graph f.runtime.key) :
    Composed authInfrastructure settle graph (done ++ [f]) next := by
  obtain ⟨result, produced, hresult, hproduced, rfl⟩ := composeFactory_eq_ok.mp hstep
  have hold : ∀ g ∈ done, g.runtime.key ≠ f.runtime.key := by
    intro g hg heq
    exact hnew (heq ▸ List.mem_map_of_mem hg)
  refine ⟨?_, ?_, ?_⟩
  · rw [keys_set, h.keys, if_neg hnew, List.map_append]
    rfl
  · rw [List.map_append, List.map_append, h.imports]
    congr 1
    · apply List.map_congr_left
      intro g hg
      rw [get_set, if_neg (hold g hg)]
    · simp [get_set]
  · intro g hg
    rcases List.mem_append.mp hg with hg | hg
    · obtain ⟨result', produced', hresult', hproduced', hget⟩ := h.modules g hg
      refine ⟨result', produced', hresult', hproduced', ?_⟩
      rw [get_set, if_neg (hold g hg), hget, resolvedDependencyModules_set _ _ (hlater g hg)]
    · obtain rfl := List.mem_singleton.mp hg
      refine ⟨result, produced, hresult, hproduced, ?_⟩
      rw [get_set, if_pos rfl, resolvedDependencyModules_set _ _ hself]

lemma composed_run (h : Composed authInfrastructure settle graph done composing)
    (hrun : composeFactories authInfrastructure settle graph factories composing = .ok next)
    (hkeys : ((done ++ factories).map (·.runtime.key)).Nodup)
    (hlater : (done ++ factories).Pairwise
      (fun g f => f.runtime.key ∉ dependenciesOf graph g.runtime.key))
    (hself : ∀ f ∈ factories, f.runtime.key ∉ dependenciesOf graph f.runtime.key) :
    Composed authInfrastructure settle graph (done ++ factories) next := by
  induction factories generalizing done composing with
  | nil =>
    obtain rfl := Except.ok.inj hrun
    simpa using h
  | cons f factories ih =>
    obtain ⟨middle, hstep, hrest⟩ := bind_eq_ok.mp hrun
    have hnew : f.runtime.key ∉ done.map (·.runtime.key) := by
      rw [List.map_append, List.nodup_append] at hkeys
      intro hmem
      exact hkeys.2.2 _ hmem _ (by simp) rfl
    have hnext := composed_step h hstep hnew
      (fun g hg => (List.pairwise_append.mp hlater).2.2 g hg f (by simp)) (hself f (by simp))
    rw [List.append_cons] at hkeys hlater ⊢
    exact ih hnext hrest hkeys hlater (fun g hg => hself g (by simp [hg]))

end Run

section Mirrors

variable [JsonNumber N] {sha256Hex toLowerCase : JsString → JsString}
  {authInfrastructure : K} {config : AppspineHostConfig N H K V E}
  {prepared : Prepared N H K V E}

def NestModule.ref : NestModule K V → K
  | .type ref => ref
  | .dynamic module _ _ => module

/-- The module's own imports. -/
def NestModule.imports : NestModule K V → List (NestModule K V)
  | .type _ => []
  | .dynamic _ imports _ => imports.getD []

def NestModule.members : NestModule K V → List (JsString × V)
  | .type _ => []
  | .dynamic _ _ members => members

lemma withResolvedImports_eq (produced : NestModule K V) (dependencies : List (NestModule K V)) :
    withResolvedImports authInfrastructure produced dependencies =
      .dynamic produced.ref
        (some (.type authInfrastructure :: dependencies ++ produced.imports)) produced.members := by
  cases produced with
  | type ref => simp [withResolvedImports, NestModule.ref, NestModule.imports, NestModule.members]
  | dynamic module imports members => rfl

/-- The host module imports one module for each instance with a backend, in graph order. A module
imports the auth infrastructure, the modules of the instance's dependencies, then its own. -/
def MirrorsGraph (authInfrastructure : K) (config : AppspineHostConfig N H K V E)
    (prepared : Prepared N H K V E) (tree : HostModule N H K V E) : Prop :=
  let backends := backendInstances config prepared.state.graph
  ∃ composed : JsString → NestModule K V,
    tree.imports = .type authInfrastructure :: backends.map (fun i => composed i.key) ∧
    ∀ i ∈ backends, ∃ f ∈ prepared.factories, ∃ own : NestModule K V,
      f.runtime.key = i.key ∧ f.factory f.context = .ok (.produced own) ∧
      composed i.key = .dynamic own.ref
        (some (.type authInfrastructure ::
          (i.dependsOn.filter (· ∈ backends.map (·.key))).map composed ++ own.imports)) own.members

omit [JsonNumber N] in
lemma dependenciesOf_eq {graph : ResolutionGraph N} (h : (graph.instances.map (·.key)).Nodup)
    {i : ResolvedPluginInstance N} (hi : i ∈ graph.instances) :
    dependenciesOf graph i.key = i.dependsOn := by
  rw [dependenciesOf]
  cases hfind : graph.instances.find? (fun j => j.key = i.key) with
  | none => exact absurd (List.find?_eq_none.mp hfind i hi) (by simp)
  | some j =>
    have hkey : j.key = i.key := by simpa using List.find?_some hfind
    rw [eq_of_key_eq h (List.mem_of_find?_eq_some hfind) hi hkey]

/-- The modules that are found are those of the keys that have one. -/
lemma flatMap_get (modules : List (JsString × NestModule K V)) (wanted : List JsString)
    (fallback : NestModule K V) :
    wanted.flatMap (fun key => (get modules key).toList) =
      (wanted.filter (· ∈ keys modules)).map (fun key => (get modules key).getD fallback) := by
  induction wanted with
  | nil => rfl
  | cons key wanted ih =>
    rw [List.flatMap_cons, ih, List.filter_cons]
    cases hget : get modules key with
    | none =>
      have hkey : key ∉ keys modules := get_eq_none.mp hget
      simp [hkey]
    | some module =>
      have hkey : key ∈ keys modules := mem_keys_of_get hget
      simp [hkey, hget]

/-- The dependencies of a factory's instance are not composed later. -/
lemma factories_ordered (h : prepare sha256Hex toLowerCase config = .ok prepared) :
    (prepared.factories.map (·.runtime.key)).Nodup ∧
      prepared.factories.Pairwise (fun g f =>
        f.runtime.key ∉ dependenciesOf prepared.state.graph g.runtime.key) ∧
      ∀ f ∈ prepared.factories,
        f.runtime.key ∉ dependenciesOf prepared.state.graph f.runtime.key := by
  obtain ⟨hgraph, -, -⟩ := prepare_eq_ok h
  have hnodup := nodup_instances hgraph
  obtain ⟨hself, hlater⟩ := later_not_dependency hgraph
  have hbackends : ∀ i ∈ backendInstances config prepared.state.graph,
      i ∈ prepared.state.graph.instances := fun i hi => (List.mem_filter.mp hi).1
  refine ⟨?_, ?_, ?_⟩
  · rw [keys_factories h]
    exact hnodup.sublist (List.filter_sublist.map _)
  · have hpairs : (prepared.factories.map (·.runtime.key)).Pairwise
        (fun a b => b ∉ dependenciesOf prepared.state.graph a) := by
      rw [keys_factories h, List.pairwise_map]
      refine (hlater.sublist List.filter_sublist).imp_of_mem ?_
      intro i j hi hj hij
      rwa [dependenciesOf_eq hnodup (hbackends i hi)]
    exact List.pairwise_map.mp hpairs
  · intro f hf
    have hkey := List.mem_map_of_mem (f := fun f => f.runtime.key) hf
    rw [keys_factories h] at hkey
    obtain ⟨i, hi, hikey⟩ := List.mem_map.mp hkey
    rw [← hikey, dependenciesOf_eq hnodup (hbackends i hi)]
    exact hself i (hbackends i hi)

lemma createAppspineModule_eq_ok (h : prepare sha256Hex toLowerCase config = .ok prepared)
    {tree : HostModule N H K V E} :
    createAppspineModule sha256Hex toLowerCase authInfrastructure config = .ok tree ↔
      ∃ composing, composeFactories authInfrastructure returned prepared.state.graph
        prepared.factories ⟨[], []⟩ = .ok composing ∧
        tree = buildModule authInfrastructure config prepared.state composing.imports := by
  simp only [createAppspineModule, bind_eq_ok, mapError_eq_ok, h, Except.ok.injEq]
  constructor
  · rintro ⟨_, rfl, composing, hrun, rfl⟩
    exact ⟨composing, hrun, rfl⟩
  · rintro ⟨composing, hrun, rfl⟩
    exact ⟨prepared, rfl, composing, hrun, rfl⟩

lemma returned_eq_ok {key : JsString} {result : BackendResult K V E} {module : NestModule K V} :
    returned key result = .ok module ↔ result = .produced module := by
  cases result <;> simp [returned]

/-- A composed tree mirrors the graph. -/
lemma mirrorsGraph_of_ok (h : prepare sha256Hex toLowerCase config = .ok prepared)
    {tree : HostModule N H K V E}
    (htree : createAppspineModule sha256Hex toLowerCase authInfrastructure config = .ok tree) :
    MirrorsGraph authInfrastructure config prepared tree := by
  obtain ⟨composing, hrun, rfl⟩ := (createAppspineModule_eq_ok h).mp htree
  obtain ⟨hgraph, -, -⟩ := prepare_eq_ok h
  obtain ⟨hkeys, hlater, hself⟩ := factories_ordered h
  have hstart : Composed authInfrastructure (returned (E := E)) prepared.state.graph
      ([] : List (PendingFactory N H K V E)) ⟨[], []⟩ := ⟨rfl, rfl, by simp⟩
  have hcomposed := composed_run hstart hrun hkeys hlater hself
  rw [List.nil_append] at hcomposed
  have hmodules : keys composing.modulesByKey =
      (backendInstances config prepared.state.graph).map (·.key) :=
    hcomposed.keys.trans (keys_factories h)
  refine ⟨fun key => (get composing.modulesByKey key).getD (.type authInfrastructure), ?_, ?_⟩
  · have himports := congrArg (List.map (Option.getD · (.type authInfrastructure)))
      hcomposed.imports
    have hmap := congrArg (List.map (fun key =>
      (get composing.modulesByKey key).getD (.type authInfrastructure))) (keys_factories h)
    simp only [List.map_map, Function.comp_def, Option.getD_some, List.map_id'] at himports hmap
    rw [buildModule, himports, hmap]
  · intro i hi
    have hkey := List.mem_map_of_mem (f := fun i => i.key) hi
    rw [← keys_factories h] at hkey
    obtain ⟨f, hf, hfkey⟩ := List.mem_map.mp hkey
    obtain ⟨result, own, hresult, hown, hget⟩ := hcomposed.modules f hf
    obtain rfl := returned_eq_ok.mp hown
    refine ⟨f, hf, own, hfkey, hresult, ?_⟩
    simp only [← hfkey, hget, Option.getD_some]
    rw [withResolvedImports_eq, resolvedDependencyModules_eq, hfkey,
      dependenciesOf_eq (nodup_instances hgraph) (List.mem_filter.mp hi).1,
      flatMap_get _ _ (.type authInfrastructure), hmodules]

/-- The composed dependencies of a backend come before it. -/
lemma backend_dependency_first (h : prepare sha256Hex toLowerCase config = .ok prepared)
    {i j : ResolvedPluginInstance N} (hi : i ∈ backendInstances config prepared.state.graph)
    (hj : j ∈ backendInstances config prepared.state.graph) (hdepends : j.key ∈ i.dependsOn) :
    [j, i].Sublist (backendInstances config prepared.state.graph) := by
  obtain ⟨hgraph, -, -⟩ := prepare_eq_ok h
  obtain ⟨hi, hibackend⟩ := List.mem_filter.mp hi
  obtain ⟨hj, hjbackend⟩ := List.mem_filter.mp hj
  obtain ⟨j', hj', hkey, hbefore⟩ := dependency_first hgraph hi hdepends
  obtain rfl := eq_of_key_eq (nodup_instances hgraph) hj' hj hkey
  simpa [backendInstances, hibackend, hjbackend] using hbefore.filter (hasBackend config)

variable {graph : ResolutionGraph N} {composing : Composing K V}
  {factories : List (PendingFactory N H K V E)}

omit [JsonNumber N] in
/-- A factory that returns its module is composed the same with and without `await`. -/
lemma composeFactories_awaited (h : ∀ f ∈ factories, ∀ settled,
      f.factory f.context ≠ .ok (.promise settled)) :
    composeFactories authInfrastructure awaited graph factories composing =
      composeFactories authInfrastructure returned graph factories composing := by
  induction factories generalizing composing with
  | nil => rfl
  | cons f factories ih =>
    have hstep : composeFactory authInfrastructure awaited graph composing f =
        composeFactory authInfrastructure returned graph composing f := by
      rw [composeFactory, composeFactory]
      cases hresult : f.factory f.context with
      | error error => rfl
      | ok result =>
        cases result with
        | produced module => rfl
        | promise settled => exact absurd hresult (h f (by simp) settled)
    rw [composeFactories, composeFactories, hstep]
    congr 1
    funext next
    exact ih (fun g hg => h g (by simp [hg]))

omit [JsonNumber N] in
/-- The loop ends when every factory returns a module. -/
lemma composeFactories_returns
    (h : ∀ f ∈ factories, ∃ own, f.factory f.context = .ok (.produced own)) :
    ∃ next, composeFactories authInfrastructure returned graph factories composing =
      .ok next := by
  induction factories generalizing composing with
  | nil => exact ⟨composing, rfl⟩
  | cons f factories ih =>
    obtain ⟨own, hown⟩ := h f (by simp)
    obtain ⟨next, hnext⟩ := ih (fun g hg => h g (by simp [hg]))
    exact ⟨next, bind_eq_ok.mpr ⟨_, composeFactory_eq_ok.mpr ⟨_, own, hown, rfl, rfl⟩, hnext⟩⟩

/-- Whenever `prepare` succeeds: the composed tree mirrors the graph, with the instances in graph
order and each dependency before its consumers; there is such a tree if each factory returns a
module; and without promises both entry points compose the same. -/
theorem createAppspineModule_mirrors (h : prepare sha256Hex toLowerCase config = .ok prepared) :
    (∀ tree, createAppspineModule sha256Hex toLowerCase authInfrastructure config = .ok tree →
      MirrorsGraph authInfrastructure config prepared tree) ∧
    ((backendInstances config prepared.state.graph).map (·.key)).Sublist
      prepared.state.graph.order ∧
    prepared.state.graph.order.Nodup ∧
    (∀ i ∈ backendInstances config prepared.state.graph,
      ∀ j ∈ backendInstances config prepared.state.graph, j.key ∈ i.dependsOn →
        [j, i].Sublist (backendInstances config prepared.state.graph)) ∧
    ((∀ f ∈ prepared.factories, ∃ own, f.factory f.context = .ok (.produced own)) →
      ∃ tree, createAppspineModule sha256Hex toLowerCase authInfrastructure config = .ok tree) ∧
    ((∀ f ∈ prepared.factories, ∀ settled, f.factory f.context ≠ .ok (.promise settled)) →
      createAppspineModuleAsync sha256Hex toLowerCase authInfrastructure config =
        createAppspineModule sha256Hex toLowerCase authInfrastructure config) := by
  obtain ⟨hgraph, -, -⟩ := prepare_eq_ok h
  have hnodup := nodup_instances hgraph
  have horder : prepared.state.graph.instances.map (·.key) = prepared.state.graph.order := by
    obtain ⟨haccepts, hstate⟩ := (resolvePlugins_eq_ok sha256Hex).mp hgraph
    rw [hstate]
    exact (graph_instances sha256Hex haccepts).1
  refine ⟨fun tree => mirrorsGraph_of_ok h, ?_, horder ▸ hnodup, ?_, ?_, ?_⟩
  · rw [← horder]
    exact List.filter_sublist.map _
  · intro i hi j hj hdepends
    exact backend_dependency_first h hi hj hdepends
  · intro hreturns
    obtain ⟨composing, hrun⟩ : ∃ composing, composeFactories authInfrastructure returned
        prepared.state.graph prepared.factories ⟨[], []⟩ = .ok composing :=
      composeFactories_returns hreturns
    exact ⟨_, (createAppspineModule_eq_ok h).mpr ⟨composing, hrun, rfl⟩⟩
  · intro hsync
    rw [createAppspineModuleAsync, createAppspineModule, h]
    simp only [Except.mapError, bind, Except.bind, composeFactories_awaited hsync]

end Mirrors

section Example

/-- A plugin whose backend is a class of its own name. -/
def classPlugin (manifest : PluginManifestV1 ℤ) :
    PluginRegistration ℤ Unit JsString Unit Unit where
  plugin := {
    manifest := manifest
    configSchema := none
    defaultConfig := none
    lifecycle := none
    backend := some (fun context => .ok (.produced (.type context.key))) }
  packageName := none
  packageVersion := none

/-- Plugin `a` requires what plugin `b` provides. -/
def consumerConfig : AppspineHostConfig ℤ Unit JsString Unit Unit where
  inventory := [enabledEntry (js "a"), enabledEntry (js "b")]
  plugins := [classPlugin (plainManifest (js "a") [] [js "c"]),
    classPlugin (plainManifest (js "b") [js "c"] [])]
  hostCapabilities := none
  runtime := none
  stageTimeoutMs := none
  shutdownTimeoutMs := none
  officialScope := none

theorem createAppspineModule_mirrors_consumer :
    ∃ prepared, prepare id id consumerConfig = .ok prepared ∧
      ∃ tree, createAppspineModule id id (js "auth") consumerConfig = .ok tree ∧
        tree.imports.length = 3 ∧
        MirrorsGraph (js "auth") consumerConfig prepared tree := by
  have hprepared : (prepare id id consumerConfig).toOption.isSome = true := by decide +kernel
  have hcomposed : ((createAppspineModule id id (js "auth") consumerConfig).toOption.map
      (fun tree => tree.imports.length)) = some 3 := by decide +kernel
  cases hprepare : prepare id id consumerConfig with
  | error error => simp [hprepare, Except.toOption] at hprepared
  | ok prepared =>
    cases htree : createAppspineModule id id (js "auth") consumerConfig with
    | error error => simp [htree, Except.toOption] at hcomposed
    | ok tree =>
      rw [htree] at hcomposed
      exact ⟨prepared, rfl, tree, rfl, Option.some.inj hcomposed,
        (createAppspineModule_mirrors hprepare).1 tree htree⟩

end Example

end Appspine.Host
