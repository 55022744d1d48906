import Appspine.ResolverOrdering

/-!
# Rearranged inputs

Two inputs with the same inventory, manifests and host capabilities in different
orders are accepted alike and resolve to the same graph. The diagnostics of the two
graphs agree as a multiset, and in order when no id contains the separator of the
sort key.
-/
namespace Appspine.Resolver
open JsText StableSort InsertionMap FrontierOrder JsonText PluginManifest

variable {N Obj : Type} [DecidableEq Obj]

section Assemble

variable {hosts : List JsString} {is js : List (ResolvedPluginInstance N)}

theorem find?_perm (hn : (is.map (·.key)).Nodup) (h : is.Perm js) (key : JsString) :
    is.find? (fun i => i.key = key) = js.find? (fun i => i.key = key) := by
  have hfind : ∀ ks : List (ResolvedPluginInstance N),
      ks.find? (fun i => i.key = key) = InsertionMap.get (ks.map (fun i => (i.key, i))) key := by
    intro ks
    simp [InsertionMap.get, List.find?_map, Function.comp_def]
  rw [hfind, hfind]
  apply get_perm _ (h.map _)
  simpa [keys, Function.comp_def] using hn

theorem orderedInstances_eq (hn : (is.map (·.key)).Nodup) (h : is.Perm js)
    (order : List JsString) : orderedInstances order is = orderedInstances order js := by
  unfold orderedInstances
  simp only [find?_perm hn h]

theorem keys_wired : (wired hosts is).map (·.key) = is.map (·.key) := by
  simp [wired, wire, Function.comp_def]

theorem wired_perm (h : is.Perm js) : (wired hosts is).Perm (wired hosts js) := by
  have hwire : wire hosts is = wire hosts js := funext (wire_eq (SameCore.of_perm h) hosts)
  unfold wired
  rw [hwire]
  exact h.map _

theorem orderedInstances_map_core (order : List JsString) (xs : List (ResolvedPluginInstance N)) :
    (orderedInstances order xs).map (·.core) = orderedInstances order (xs.map (·.core)) := by
  unfold orderedInstances
  rw [List.map_filterMap]
  apply List.filterMap_congr
  intro key _
  rw [List.find?_map]
  rfl

theorem orderedInstances_core_eq (hn : (is.map (·.key)).Nodup) (h : SameCore is js)
    (order : List JsString) : (orderedInstances order is).map (·.core) =
      (orderedInstances order js).map (·.core) := by
  rw [orderedInstances_map_core, orderedInstances_map_core]
  apply orderedInstances_eq _ h
  rwa [List.map_map]

/-- The record of providers is the same for the same provisions. -/
lemma providers_of_provisions (hp : (provisions is).Perm (provisions js)) :
    (sortBy Prod.fst (providersOf is)).map (fun e => (e.1, sorted e.2)) =
      (sortBy Prod.fst (providersOf js)).map (fun e => (e.1, sorted e.2)) := by
  change (sortBy Prod.fst (group (provisions is))).map _ =
    (sortBy Prod.fst (group (provisions js))).map _
  rw [sortBy_group, sortBy_group, sorted_distinct_eq (fun _ => (hp.map _).mem_iff), List.map_map,
    List.map_map]
  apply List.map_congr_left
  intro capability _
  simp only [Function.comp_apply, sorted_eq_of_perm (valuesAt_perm hp capability)]

theorem providers_eq (h : SameCore is js) :
    (sortBy Prod.fst (providersOf is)).map (fun e => (e.1, sorted e.2)) =
      (sortBy Prod.fst (providersOf js)).map (fun e => (e.1, sorted e.2)) :=
  providers_of_provisions (provisions_perm h)

variable [JsonNumber N] {sha256Hex : JsString → JsString}

/-- The diagnostics reach no other field of a graph. -/
theorem assemble_diagnostics (disabled : List DisabledInstance) (ds es : List PluginDiagnostic) :
    assemble sha256Hex hosts is disabled ds =
      { assemble sha256Hex hosts is disabled es with diagnostics := sortDiagnostics ds } := by
  simp only [assemble, resolutionDigest]

/-- Rearranged instances assemble to the same graph. -/
theorem assemble_eq (hn : (is.map (·.key)).Nodup) (h : is.Perm js)
    {disabled disabled' : List DisabledInstance} (hd : disabled.Perm disabled')
    (hdn : (disabled.map (·.key)).Nodup) (ds : List PluginDiagnostic) :
    assemble sha256Hex hosts is disabled ds = assemble sha256Hex hosts js disabled' ds := by
  have horder := topologicalOrder_eq (wired_sameCore (SameCore.of_perm h) hosts)
  have hwired : ((wired hosts is).map (·.key)).Nodup := by rwa [keys_wired]
  have hdisabled : sortBy (·.key) disabled = sortBy (·.key) disabled' :=
    sortBy_eq_of_perm hd (fun a ha b hb => List.inj_on_of_nodup_map hdn ha hb)
  simp only [assemble, horder, orderedInstances_eq hwired (wired_perm h),
    providers_eq (SameCore.of_perm h), hdisabled]

end Assemble

section Inputs

variable [JsonNumber N] {sha256Hex : JsString → JsString}

/-- The same input with its three lists rearranged. -/
structure Rearranged (options options' : ResolveOptions N Obj) : Prop where
  inventory : options.inventory.Perm options'.inventory
  manifests : options.manifests.Perm options'.manifests
  hostCapabilities :
    (options.hostCapabilities.getD []).Perm (options'.hostCapabilities.getD [])
  read : options.read = options'.read
  officialScope : options.officialScope = options'.officialScope

variable {options options' : ResolveOptions N Obj}

omit [DecidableEq Obj] [JsonNumber N] in
theorem Rearranged.symm (h : Rearranged options options') : Rearranged options' options where
  inventory := h.inventory.symm
  manifests := h.manifests.symm
  hostCapabilities := h.hostCapabilities.symm
  read := h.read.symm
  officialScope := h.officialScope.symm

omit [DecidableEq Obj] [JsonNumber N] in
theorem Rearranged.hosts (h : Rearranged options options') : options.hosts = options'.hosts :=
  sorted_distinct_eq (fun _ => h.hostCapabilities.mem_iff)

omit [DecidableEq Obj] [JsonNumber N] in
theorem Rearranged.scope (h : Rearranged options options') : options.scope = options'.scope := by
  rw [ResolveOptions.scope, h.officialScope, ResolveOptions.scope]

omit [DecidableEq Obj] [JsonNumber N] in
theorem Rearranged.unambiguous (h : Rearranged options options')
    (hu : Unambiguous options.read options.manifests) :
    Unambiguous options'.read options'.manifests := by
  have hmem : ∀ c, c ∈ claims options'.read options'.manifests →
      c ∈ claims options.read options.manifests := by
    intro c hc
    rw [← h.read] at hc
    exact (h.manifests.flatMap_right _).mem_iff.mpr hc
  intro c hc d hd
  exact hu c (hmem c hc) d (hmem d hd)

omit [JsonNumber N] in
/-- An unambiguous index finds the same manifest for every entry. -/
theorem Rearranged.lookup (h : Rearranged options options')
    (hu : Unambiguous options.read options.manifests) : options.lookup = options'.lookup := by
  have hget : ∀ ref, InsertionMap.get options.index.1 ref = InsertionMap.get options'.index.1 ref := by
    intro ref
    apply Option.ext
    intro o
    rw [get_index hu, get_index (h.unambiguous hu), h.manifests.mem_iff, h.read]
  funext e
  rw [ResolveOptions.lookup, ResolveOptions.lookup, findManifest, findManifest, hget, hget, h.read]

theorem Rearranged.enabled (h : Rearranged options options')
    (hu : Unambiguous options.read options.manifests) :
    (options.enabled sha256Hex).Perm (options'.enabled sha256Hex) := by
  have hentries : options.entries.Perm options'.entries :=
    (sortBy_perm _ _).trans (h.inventory.trans (sortBy_perm _ _).symm)
  rw [ResolveOptions.enabled, ResolveOptions.enabled, h.lookup hu]
  exact ((resolvedEntries_perm hentries).filter _).map _

omit [JsonNumber N] in
theorem Rearranged.disabled (h : Rearranged options options')
    (hu : Unambiguous options.read options.manifests) :
    (disabledInstances options.lookup options.entries).Perm
      (disabledInstances options'.lookup options'.entries) := by
  have hentries : options.entries.Perm options'.entries :=
    (sortBy_perm _ _).trans (h.inventory.trans (sortBy_perm _ _).symm)
  rw [h.lookup hu]
  exact ((resolvedEntries_perm hentries).filter _).map _

/-- An instance comes from an enabled entry and from the manifest found for it. -/
theorem mem_enabled {i : ResolvedPluginInstance N} :
    i ∈ options.enabled sha256Hex ↔ ∃ e ∈ options.inventory, e.enabled = true ∧
      ∃ found, options.lookup e = some found ∧ i = buildInstance sha256Hex found e := by
  simp only [ResolveOptions.enabled, enabledInstances, List.mem_map, List.mem_filter, Prod.exists,
    mem_resolvedEntries, ResolveOptions.entries, mem_sortBy]
  constructor
  · rintro ⟨found, e, ⟨⟨he, hfound⟩, hen⟩, rfl⟩
    exact ⟨e, he, hen, found, hfound, rfl⟩
  · rintro ⟨e, he, hen, found, hfound, rfl⟩
    exact ⟨found, e, ⟨⟨he, hfound⟩, hen⟩, rfl⟩

omit [JsonNumber N] in
theorem lookup_eq_some {e : PluginInventoryEntry} {found : ResolvableManifest N}
    (hu : Unambiguous options.read options.manifests) (h : options.lookup e = some found) :
    ∃ o ∈ options.manifests, found = options.read o := by
  obtain ⟨o, ho, rfl⟩ := Option.map_eq_some_iff.mp h
  refine ⟨o, ?_, rfl⟩
  rw [findManifest, Option.or_eq_some_iff] at ho
  rcases ho with ho | ⟨_, ho⟩
  · exact ((get_index hu).mp ho).1
  · exact ((get_index hu).mp ho).1

/-- In an unambiguous input a plugin id stands for one manifest. -/
theorem uniformCardinality (hu : Unambiguous options.read options.manifests) :
    UniformCardinality (options.enabled sha256Hex) := by
  intro i hi j hj hid
  obtain ⟨_, _, _, found, hfound, rfl⟩ := mem_enabled.mp hi
  obtain ⟨_, _, _, found', hfound', rfl⟩ := mem_enabled.mp hj
  obtain ⟨o, ho, rfl⟩ := lookup_eq_some hu hfound
  obtain ⟨o', ho', rfl⟩ := lookup_eq_some hu hfound'
  have hsame : o = o' := hu ((options.read o).manifest.id, o)
    (mem_claims.mpr ⟨ho, by simp [refsOf]⟩) ((options.read o').manifest.id, o')
    (mem_claims.mpr ⟨ho', by simp [refsOf]⟩) hid
  rw [hsame]
  rfl

theorem Rearranged.accepts (h : Rearranged options options') (ha : Accepts options sha256Hex) :
    Accepts options' sha256Hex where
  unambiguous := h.unambiguous ha.unambiguous
  acceptable := by
    rw [← h.scope, ← h.lookup ha.unambiguous]
    exact ha.acceptable.perm h.inventory
  linked := by
    have hcore : SameCore (options.enabled sha256Hex) (options'.enabled sha256Hex) :=
      SameCore.of_perm (h.enabled ha.unambiguous)
    rw [← h.hosts, ← hasErrors_perm (linkDiagnostics_perm hcore
      (uniformCardinality ha.unambiguous) _)]
    exact ha.linked

theorem nodup_disabled (ha : Accepts options sha256Hex) :
    ((disabledInstances options.lookup options.entries).map (·.key)).Nodup := by
  have hkeys := (ha.acceptable.perm (sortBy_perm inventorySortKey _).symm).distinctKeys
  unfold entryKeys at hkeys
  unfold disabledInstances
  rw [List.map_map]
  exact hkeys.sublist (List.filter_sublist.map _)

theorem Rearranged.graph (h : Rearranged options options') (ha : Accepts options sha256Hex) :
    options'.graph sha256Hex = { options.graph sha256Hex with
      diagnostics :=
        sortDiagnostics (linkDiagnostics options'.hosts (options'.enabled sha256Hex)) } := by
  rw [ResolveOptions.graph, ResolveOptions.graph, ← assemble_diagnostics, ← h.hosts]
  exact (assemble_eq (nodup_enabled sha256Hex ha) (h.enabled ha.unambiguous)
    (h.disabled ha.unambiguous) (nodup_disabled ha) _).symm

theorem Rearranged.diagnostics (h : Rearranged options options')
    (ha : Accepts options sha256Hex) :
    (linkDiagnostics options.hosts (options.enabled sha256Hex)).Perm
      (linkDiagnostics options'.hosts (options'.enabled sha256Hex)) := by
  rw [← h.hosts]
  exact linkDiagnostics_perm (SameCore.of_perm (h.enabled ha.unambiguous))
    (uniformCardinality ha.unambiguous) _

end Inputs

section Separator

variable [JsonNumber N] {sha256Hex : JsString → JsString}

/-- No manifest id and no instance id contains NUL. -/
def SeparatorFree (options : ResolveOptions N Obj) : Prop :=
  (∀ o ∈ options.manifests, (0 : CodeUnit) ∉ (options.read o).manifest.id) ∧
    ∀ e ∈ options.inventory, (0 : CodeUnit) ∉ e.instanceId

omit [DecidableEq Obj] [JsonNumber N] in
/-- The sort key determines the diagnostic when the ids do not contain its separator. -/
theorem unresolvedOptional_eq_of_key {i j : ResolvedPluginInstance N} {c c' : JsString}
    (hi : (0 : CodeUnit) ∉ i.pluginId) (hi' : (0 : CodeUnit) ∉ i.instanceId)
    (hj : (0 : CodeUnit) ∉ j.pluginId) (hj' : (0 : CodeUnit) ∉ j.instanceId)
    (h : diagnosticKey (unresolvedOptionalDiagnostic i c) =
      diagnosticKey (unresolvedOptionalDiagnostic j c')) :
    unresolvedOptionalDiagnostic i c = unresolvedOptionalDiagnostic j c' := by
  simp only [diagnosticKey, unresolvedOptionalDiagnostic, diagnostic, Option.getD_some] at h
  obtain ⟨hplugin, h⟩ := append_cons_inj hi hj h
  obtain ⟨hinstance, h⟩ := append_cons_inj hi' hj' h
  have hmessage := List.cons.inj (List.append_cancel_left
    (List.cons.inj (List.append_cancel_left h)).2)
  simp only [unresolvedOptionalDiagnostic, diagnostic, hplugin, hinstance, hmessage.2]

omit [JsonNumber N] in
theorem zero_notMem_instanceIdOf {e : PluginInventoryEntry} (h : (0 : CodeUnit) ∉ e.instanceId) :
    (0 : CodeUnit) ∉ instanceIdOf e := by
  unfold instanceIdOf orDefault
  split_ifs
  · decide
  · exact h

theorem diagnosticKey_inj {options : ResolveOptions N Obj} (hfree : SeparatorFree options)
    (ha : Accepts options sha256Hex) :
    ∀ d ∈ linkDiagnostics options.hosts (options.enabled sha256Hex),
    ∀ d' ∈ linkDiagnostics options.hosts (options.enabled sha256Hex),
      diagnosticKey d = diagnosticKey d' → d = d' := by
  have hids : ∀ i ∈ options.enabled sha256Hex,
      (0 : CodeUnit) ∉ i.pluginId ∧ (0 : CodeUnit) ∉ i.instanceId := by
    intro i hi
    obtain ⟨e, he, _, found, hfound, rfl⟩ := mem_enabled.mp hi
    obtain ⟨o, ho, rfl⟩ := lookup_eq_some ha.unambiguous hfound
    exact ⟨hfree.1 o ho, zero_notMem_instanceIdOf (hfree.2 e he)⟩
  intro d hd d' hd' hkey
  obtain ⟨i, hi, c, rfl⟩ := linkDiagnostics_of_no_error ha.linked d hd
  obtain ⟨j, hj, c', rfl⟩ := linkDiagnostics_of_no_error ha.linked d' hd'
  exact unresolvedOptional_eq_of_key (hids i hi).1 (hids i hi).2 (hids j hj).1 (hids j hj).2 hkey

end Separator

section Permutation

/-- Two graphs that agree, apart from the order of diagnostics with one sort key. -/
structure Agree (graph graph' : ResolutionGraph N) : Prop where
  order : graph.order = graph'.order
  instances : graph.instances = graph'.instances
  providers : graph.providers = graph'.providers
  hostCapabilities : graph.hostCapabilities = graph'.hostCapabilities
  disabled : graph.disabled = graph'.disabled
  digest : graph.digest = graph'.digest
  diagnostics : graph.diagnostics.Perm graph'.diagnostics
  diagnosticKeys : graph.diagnostics.map diagnosticKey = graph'.diagnostics.map diagnosticKey

theorem agree_of_perm {graph : ResolutionGraph N} {ds es : List PluginDiagnostic}
    (hgraph : graph.diagnostics = sortDiagnostics ds) (h : ds.Perm es) :
    Agree graph { graph with diagnostics := sortDiagnostics es } where
  order := rfl
  instances := rfl
  providers := rfl
  hostCapabilities := rfl
  disabled := rfl
  digest := rfl
  diagnostics := by
    rw [hgraph]
    exact (sortDiagnostics_perm ds).trans (h.trans (sortDiagnostics_perm es).symm)
  diagnosticKeys := by
    rw [hgraph]
    exact map_key_sortDiagnostics h

variable [JsonNumber N] (sha256Hex : JsString → JsString)

theorem graph_diagnostics (options : ResolveOptions N Obj) :
    (options.graph sha256Hex).diagnostics =
      sortDiagnostics (linkDiagnostics options.hosts (options.enabled sha256Hex)) := by
  rw [ResolveOptions.graph, assemble]

/-- Rearranging the inputs changes neither the verdict nor the graph, apart from the
order of diagnostics whose sort keys coincide. -/
theorem resolvePlugins_rearranged {options options' : ResolveOptions N Obj}
    (h : Rearranged options options') :
    ((∃ graph, resolvePlugins sha256Hex options = .ok graph) ↔
      ∃ graph', resolvePlugins sha256Hex options' = .ok graph') ∧
    ∀ graph graph', resolvePlugins sha256Hex options = .ok graph →
      resolvePlugins sha256Hex options' = .ok graph' →
      Agree graph graph' ∧ (SeparatorFree options → graph = graph') := by
  constructor
  · rw [accepted_iff, accepted_iff]
    exact ⟨h.accepts, h.symm.accepts⟩
  · intro graph graph' hgraph hgraph'
    obtain ⟨ha, rfl⟩ := (resolvePlugins_eq_ok sha256Hex).mp hgraph
    obtain ⟨_, rfl⟩ := (resolvePlugins_eq_ok sha256Hex).mp hgraph'
    have hdiag := h.diagnostics ha
    have hreported := graph_diagnostics sha256Hex options
    rw [h.graph ha]
    generalize options.graph sha256Hex = graph at hreported ⊢
    constructor
    · exact agree_of_perm hreported hdiag
    · intro hfree
      rw [← sortDiagnostics_eq hdiag (diagnosticKey_inj hfree ha), ← hreported]

end Permutation

section Counterexample

/-- Two plugins whose ids and capabilities contain NUL, so that the two reports of an
optional capability nothing provides have one sort key. -/
def nulCode : JsString := (0 : CodeUnit) :: (js "default" ++ (0 : CodeUnit) ::
  (js "unresolved-optional-capability" ++ (0 : CodeUnit) :: (js "optionalRequires" ++
    [(0 : CodeUnit)])))

def shortId : JsString := js "p"

def longId : JsString := shortId ++ nulCode ++ js "\"p\" runs without optional capability \""

/-- The capability of the short plugin: its report reads like that of the long one. -/
def longCapability : JsString :=
  nulCode ++ quoted longId ++ js " runs without optional capability \"x"

def optionalManifest (id capability : JsString) : PluginManifestV1 ℤ :=
  { plainManifest id [] [] with optionalRequires := some [capability] }

def nulPlugins (inventory : List PluginInventoryEntry) : ResolveOptions ℤ Bool :=
  { inventory := inventory
    manifests := [false, true]
    read := fun o =>
      { published (if o then optionalManifest longId (js "x")
          else optionalManifest shortId longCapability) with
        packageName := if o then js "@b/x" else js "@a/x" }
    hostCapabilities := none
    officialScope := none }

def shortEntry : PluginInventoryEntry := enabledEntry (js "@a/x")

def longEntry : PluginInventoryEntry := enabledEntry (js "@b/x")

theorem nulPlugins_accepts : Accepts (nulPlugins [shortEntry, longEntry]) id :=
  (hasErrors_diagnostics_eq_false id _).mp (by decide +kernel)

theorem nulPlugins_rearranged :
    Rearranged (nulPlugins [shortEntry, longEntry]) (nulPlugins [longEntry, shortEntry]) :=
  ⟨List.Perm.swap _ _ _, List.Perm.refl _, List.Perm.refl _, rfl, rfl⟩

/-- Swapping two inventory entries swaps two diagnostics. -/
theorem resolvePlugins_depends_on_order : ∃ graph graph' : ResolutionGraph ℤ,
    resolvePlugins id (nulPlugins [shortEntry, longEntry]) = .ok graph ∧
    resolvePlugins id (nulPlugins [longEntry, shortEntry]) = .ok graph' ∧
    graph.diagnostics ≠ graph'.diagnostics := by
  refine ⟨_, _, resolvePlugins_of_accepts id nulPlugins_accepts,
    resolvePlugins_of_accepts id (nulPlugins_rearranged.accepts nulPlugins_accepts), ?_⟩
  decide +kernel

theorem resolvePlugins_rearranged_nulPlugins :
    ∃ graph', resolvePlugins id (nulPlugins [longEntry, shortEntry]) = .ok graph' :=
  (resolvePlugins_rearranged id nulPlugins_rearranged).1.mp
    ⟨_, resolvePlugins_of_accepts id nulPlugins_accepts⟩

end Counterexample

end Appspine.Resolver
