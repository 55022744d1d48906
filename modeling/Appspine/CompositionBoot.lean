import Appspine.Composition

/-!
# Booting what the CLI resolved

The host resolves the embedded inventory against the packages the composition
imports. It boots to the graph of the CLI exactly when every disabled entry belongs
to a package that some enabled entry uses as well.
-/
namespace Appspine.Composition
open JsText StableSort InsertionMap JsonText PluginManifest Resolver

variable {N : Type}

/-- A record without its digests, as the host hands it over. -/
def bare (m : ResolvableManifest N) : ResolvableManifest N :=
  { m with manifestDigest := none, digest := none }

section Restriction

variable {Obj Obj' : Type} [DecidableEq Obj] [DecidableEq Obj']

/-- `host` sees the entries of `cli` and the manifests of the imported packages. -/
structure Restricts (cli : ResolveOptions N Obj) (host : ResolveOptions N Obj')
    (imported : List JsString) : Prop where
  unambiguous : Unambiguous cli.read cli.manifests
  inventory : host.inventory.Perm (cli.inventory.map embedEntry)
  hosts : host.hosts = cli.hosts
  scope : host.scope = cli.scope
  known : ∀ o' ∈ host.manifests, ∃ o ∈ cli.manifests, host.read o' = bare (cli.read o)
  complete : ∀ o ∈ cli.manifests, (cli.read o).packageName ∈ imported →
    ∃ o' ∈ host.manifests, host.read o' = bare (cli.read o)
  imports : ∀ o' ∈ host.manifests, (host.read o').packageName ∈ imported
  separate : ∀ o' ∈ host.manifests, ∀ o'' ∈ host.manifests,
    (host.read o').packageName = (host.read o'').packageName → o' = o''

variable {cli : ResolveOptions N Obj} {host : ResolveOptions N Obj'} {imported : List JsString}

omit [DecidableEq Obj] [DecidableEq Obj'] in
theorem Restricts.host_unambiguous (h : Restricts cli host imported) :
    Unambiguous host.read host.manifests := by
  rintro ⟨ref, a⟩ ha ⟨ref', b⟩ hb hrefs
  obtain rfl : ref = ref' := hrefs
  rw [mem_claims] at ha hb
  obtain ⟨o, ho, hao⟩ := h.known a ha.1
  obtain ⟨p, hp, hbp⟩ := h.known b hb.1
  have hsame : o = p := h.unambiguous (ref, o)
    (mem_claims.mpr ⟨ho, by simpa [hao, bare, refsOf] using ha.2⟩) (ref, p)
    (mem_claims.mpr ⟨hp, by simpa [hbp, bare, refsOf] using hb.2⟩) rfl
  subst hsame
  exact h.separate a ha.1 b hb.1 (by rw [hao, hbp])

/-- The host finds nothing under a reference under which the CLI finds nothing. -/
theorem Restricts.get_none (h : Restricts cli host imported) {ref : JsString}
    (hnone : InsertionMap.get cli.index.1 ref = none) :
    InsertionMap.get host.index.1 ref = none := by
  cases hg : InsertionMap.get host.index.1 ref with
  | none => rfl
  | some o' =>
    obtain ⟨ho', href⟩ := (get_index h.host_unambiguous).mp hg
    obtain ⟨o, ho, hread⟩ := h.known o' ho'
    have hsome : InsertionMap.get cli.index.1 ref = some o := (get_index h.unambiguous).mpr
      ⟨ho, by simpa [hread, bare, refsOf] using href⟩
    rw [hnone] at hsome
    cases hsome

/-- Under a reference to an imported package the host finds what the CLI finds. -/
theorem Restricts.get_some (h : Restricts cli host imported) {ref : JsString} {o : Obj}
    (hsome : InsertionMap.get cli.index.1 ref = some o)
    (himported : (cli.read o).packageName ∈ imported) :
    ∃ o', InsertionMap.get host.index.1 ref = some o' ∧ host.read o' = bare (cli.read o) := by
  obtain ⟨ho, href⟩ := (get_index h.unambiguous).mp hsome
  obtain ⟨o', ho', hread⟩ := h.complete o ho himported
  exact ⟨o', (get_index h.host_unambiguous).mpr
    ⟨ho', by simpa [hread, bare, refsOf] using href⟩, hread⟩

theorem Restricts.lookup (h : Restricts cli host imported) {e : PluginInventoryEntry}
    {found : ResolvableManifest N} (hfound : cli.lookup e = some found)
    (himported : found.packageName ∈ imported) : host.lookup (embedEntry e) = some (bare found) := by
  obtain ⟨o, ho, rfl⟩ := Option.map_eq_some_iff.mp hfound
  rw [findManifest, Option.or_eq_some_iff] at ho
  have hplugin : (embedEntry e).plugin = e.plugin := rfl
  rw [ResolveOptions.lookup, findManifest, hplugin]
  rcases ho with ho | ⟨hnone, ho⟩
  · obtain ⟨o', ho', hread⟩ := h.get_some ho himported
    rw [ho']
    exact congrArg some hread
  · obtain ⟨o', ho', hread⟩ := h.get_some ho himported
    rw [h.get_none hnone, ho']
    exact congrArg some hread

omit [DecidableEq Obj] in
/-- Whatever the host finds belongs to an imported package. -/
theorem Restricts.imported_of_lookup (h : Restricts cli host imported)
    {e : PluginInventoryEntry} {found : ResolvableManifest N}
    (hfound : host.lookup e = some found) : found.packageName ∈ imported := by
  obtain ⟨o', ho', rfl⟩ := lookup_eq_some h.host_unambiguous hfound
  exact h.imports o' ho'

/-- Every entry belongs to an imported package. -/
def AllImported (cli : ResolveOptions N Obj) (imported : List JsString) : Prop :=
  ∀ e ∈ cli.inventory, ∀ found, cli.lookup e = some found → found.packageName ∈ imported

theorem entryDiagnostics_embed (scope : JsString) (found : ResolvableManifest N)
    (e : PluginInventoryEntry) :
    entryDiagnostics scope (bare found) (embedEntry e) = entryDiagnostics scope found e := by
  have hmismatch : configRefMismatch (bare found) (embedEntry e) = configRefMismatch found e := by
    unfold configRefMismatch
    cases hc : e.configRef with
    | none => simp [embedEntry, hc]
    | some configRef =>
      by_cases hnil : configRef = []
      · cases hs : found.manifest.configSchema <;> simp [embedEntry, hc, hnil, hs, bare]
      · simp only [embedEntry, hc, Option.filter, hnil, ne_eq, not_false_eq_true, decide_true,
          if_true, bare]
        rfl
  rw [entryDiagnostics, entryDiagnostics, hmismatch]
  rfl

/-- The entries the host resolves are the entries of the CLI. -/
theorem Restricts.resolvedEntries_perm (h : Restricts cli host imported)
    (hknown : ∀ e ∈ cli.inventory, (cli.lookup e).isSome) (hall : AllImported cli imported)
    {es' es : List PluginInventoryEntry} (hes' : es'.Perm host.inventory)
    (hes : es.Perm cli.inventory) :
    (resolvedEntries host.lookup es').Perm
      ((resolvedEntries cli.lookup es).map (fun p => (bare p.1, embedEntry p.2))) := by
  have hembed : es'.Perm (es.map embedEntry) := hes'.trans (h.inventory.trans (hes.symm.map _))
  refine (Resolver.resolvedEntries_perm hembed).trans (List.Perm.of_eq ?_)
  simp only [resolvedEntries, List.filterMap_map, List.map_filterMap]
  apply List.filterMap_congr
  intro e he
  have hmem := hes.mem_iff.mp he
  obtain ⟨found, hfound⟩ := Option.isSome_iff_exists.mp (hknown e hmem)
  simp only [Function.comp_apply, hfound, h.lookup hfound (hall e hmem found hfound),
    Option.map_some]

theorem Restricts.acceptable (h : Restricts cli host imported) (hall : AllImported cli imported)
    (ha : Acceptable cli.scope cli.lookup cli.inventory) :
    Acceptable host.scope host.lookup host.inventory := by
  have hperm := h.resolvedEntries_perm ha.known hall (List.Perm.refl _) (List.Perm.refl _)
  refine ⟨?_, ?_, ?_⟩
  · intro e' he'
    obtain ⟨e, he, rfl⟩ := List.mem_map.mp (h.inventory.mem_iff.mp he')
    obtain ⟨found, hfound⟩ := Option.isSome_iff_exists.mp (ha.known e he)
    rw [h.lookup hfound (hall e he found hfound)]
    rfl
  · have hkeys := hperm.map (fun p => keyOf p.1 p.2)
    rw [List.map_map] at hkeys
    exact hkeys.nodup_iff.mpr ha.distinctKeys
  · intro p hp hen
    obtain ⟨q, hq, rfl⟩ := List.mem_map.mp (hperm.mem_iff.mp hp)
    rw [h.scope, entryDiagnostics_embed]
    exact ha.clean q hq hen

theorem Restricts.disabled (h : Restricts cli host imported) (hall : AllImported cli imported)
    (ha : Acceptable cli.scope cli.lookup cli.inventory) :
    (disabledInstances host.lookup host.entries).Perm
      (disabledInstances cli.lookup cli.entries) := by
  have hperm := h.resolvedEntries_perm ha.known hall (sortBy_perm inventorySortKey _)
    (sortBy_perm inventorySortKey _)
  have hfilter := (hperm.filter (fun p => !p.2.enabled)).map
    (fun p => disabledInstance p.1 p.2)
  rw [List.filter_map, List.map_map] at hfilter
  exact hfilter

variable [JsonNumber N] (sha256Hex : JsString → JsString)

theorem Restricts.enabled (h : Restricts cli host imported) (hall : AllImported cli imported)
    (ha : Acceptable cli.scope cli.lookup cli.inventory) :
    SameCore (host.enabled sha256Hex) (cli.enabled sha256Hex) := by
  have hperm := h.resolvedEntries_perm ha.known hall (sortBy_perm inventorySortKey _)
    (sortBy_perm inventorySortKey _)
  have hfilter := (hperm.filter (fun p => p.2.enabled)).map
    (fun p => (buildInstance sha256Hex p.1 p.2).core)
  rw [List.filter_map, List.map_map] at hfilter
  have hcore : (fun p : ResolvableManifest N × PluginInventoryEntry =>
      (buildInstance sha256Hex (bare p.1) (embedEntry p.2)).core) =
      fun p => (buildInstance sha256Hex p.1 p.2).core := rfl
  unfold SameCore ResolveOptions.enabled enabledInstances
  rw [List.map_map, List.map_map]
  exact hfilter

theorem Restricts.accepts (h : Restricts cli host imported) (hall : AllImported cli imported)
    (ha : Accepts cli sha256Hex) : Accepts host sha256Hex where
  unambiguous := h.host_unambiguous
  acceptable := h.acceptable hall ha.acceptable
  linked := by
    rw [h.hosts, hasErrors_perm (linkDiagnostics_perm (h.enabled sha256Hex hall ha.acceptable)
      (uniformCardinality h.host_unambiguous) _)]
    exact ha.linked

/-- The two graphs, as far as linking goes. -/
theorem Restricts.graph (h : Restricts cli host imported) (hall : AllImported cli imported)
    (ha : Accepts cli sha256Hex) :
    (host.graph sha256Hex).order = (cli.graph sha256Hex).order ∧
      (host.graph sha256Hex).instances.map (·.core) =
        (cli.graph sha256Hex).instances.map (·.core) ∧
      (host.graph sha256Hex).providers = (cli.graph sha256Hex).providers ∧
      (host.graph sha256Hex).hostCapabilities = (cli.graph sha256Hex).hostCapabilities ∧
      (host.graph sha256Hex).disabled = (cli.graph sha256Hex).disabled := by
  have hb := h.accepts sha256Hex hall ha
  have hcore := h.enabled sha256Hex hall ha.acceptable
  have hwired := wired_sameCore hcore cli.hosts
  have horder : (host.graph sha256Hex).order = (cli.graph sha256Hex).order := by
    change (topologicalOrder (wired host.hosts _)).1 = (topologicalOrder (wired cli.hosts _)).1
    rw [h.hosts, topologicalOrder_eq hwired]
  refine ⟨horder, ?_, ?_, h.hosts, ?_⟩
  · change (orderedInstances (host.graph sha256Hex).order (wired host.hosts _)).map _ =
      (orderedInstances (cli.graph sha256Hex).order (wired cli.hosts _)).map _
    rw [h.hosts, horder]
    refine orderedInstances_core_eq ?_ hwired _
    rw [keys_wired]
    exact nodup_enabled sha256Hex hb
  · change ofEntries ((sortBy Prod.fst (providersOf _)).map _) =
      ofEntries ((sortBy Prod.fst (providersOf _)).map _)
    rw [providers_eq hcore]
  · exact sortBy_eq_of_perm (h.disabled hall ha.acceptable)
      (fun a ha' b hb' => List.inj_on_of_nodup_map (nodup_disabled hb) ha' hb')

end Restriction

section Boot

variable [JsonNumber N] {sha256Hex : JsString → JsString} {inventory : List PluginInventoryEntry}
  {manifests : ManifestSet N sha256Hex} {hostCapabilities : List JsString}

theorem resolveInventory_graph {graph : ResolutionGraph N} :
    (resolveInventory inventory manifests hostCapabilities).graph = some graph ↔
      manifests.missing = [] ∧ Accepts (cliOptions inventory manifests hostCapabilities) sha256Hex ∧
        graph = (cliOptions inventory manifests hostCapabilities).graph sha256Hex := by
  unfold resolveInventory
  by_cases hmissing : manifests.missing = []
  · rw [if_neg (by simpa using hmissing), ← resolvePlugins_eq_ok]
    cases resolvePlugins sha256Hex (cliOptions inventory manifests hostCapabilities) <;>
      simp [hmissing]
  · rw [if_pos hmissing]
    simp [hmissing]

/-- The package of the manifest that an inventory entry refers to. -/
def packageOf (manifests : ManifestSet N sha256Hex) (entry : PluginInventoryEntry) :
    Option JsString :=
  ((cliOptions [] manifests []).lookup entry).map (·.packageName)

theorem packageOf_eq {entry : PluginInventoryEntry} {found : ResolvableManifest N}
    (h : (cliOptions inventory manifests hostCapabilities).lookup entry = some found) :
    packageOf manifests entry = some found.packageName :=
  congrArg (Option.map (fun m : ResolvableManifest N => m.packageName)) h

/-- Every disabled entry refers to a package that an enabled entry refers to as well. -/
def DisabledShareAPackage (inventory : List PluginInventoryEntry)
    (manifests : ManifestSet N sha256Hex) : Prop :=
  ∀ e ∈ inventory, e.enabled = false →
    ∃ e' ∈ inventory, e'.enabled = true ∧ packageOf manifests e' = packageOf manifests e

abbrev ambientOptions (inventory : List PluginInventoryEntry)
    (manifests : ManifestSet N sha256Hex) :=
  cliOptions inventory manifests AMBIENT_CAPABILITIES

/-- The host configuration of the generated composition, with the App's Prisma module. -/
abbrev bootOptions (inventory : List PluginInventoryEntry) (graph : ResolutionGraph N) :=
  hostOptions (generateComposition inventory graph) [CAPABILITY_PRISMA] none

/-- The packages a composition imports. -/
def importedPackages (graph : ResolutionGraph N) : List JsString :=
  (packagesInOrder graph).map (·.packageName)

theorem mem_graph_instances (ha : Accepts (ambientOptions inventory manifests) sha256Hex)
    {i : ResolvedPluginInstance N}
    (hi : i ∈ ((ambientOptions inventory manifests).graph sha256Hex).instances) :
    ∃ e ∈ inventory, e.enabled = true ∧ ∃ found,
      (ambientOptions inventory manifests).lookup e = some found ∧ i.manifest = found.manifest ∧
      i.packageName = found.packageName ∧ i.packageVersion = found.packageVersion ∧
      i.digest = (buildInstance sha256Hex found e).digest := by
  obtain ⟨i', hi', rfl⟩ := List.mem_map.mp ((graph_instances sha256Hex ha).2.mem_iff.mp hi)
  obtain ⟨e, he, hen, found, hfound, rfl⟩ := mem_enabled.mp hi'
  exact ⟨e, he, hen, found, hfound, rfl, rfl, rfl, rfl⟩

/-- The generator looks every key of the order up among the instances. -/
theorem orderedInstances_graph (ha : Accepts (ambientOptions inventory manifests) sha256Hex) :
    let graph := (ambientOptions inventory manifests).graph sha256Hex
    (orderedInstances graph.order graph.instances).Perm graph.instances := by
  intro graph
  obtain ⟨hkeys, _⟩ := graph_instances sha256Hex ha
  have hn : (graph.instances.map (·.key)).Nodup := by
    rw [hkeys, (order_perm sha256Hex ha).nodup_iff]
    exact nodup_enabled sha256Hex ha
  exact (orderedInstances_perm hn (List.Perm.of_eq hkeys.symm)).2

/-- A package is imported exactly when an enabled entry refers to it. -/
theorem mem_importedPackages (ha : Accepts (ambientOptions inventory manifests) sha256Hex)
    {name : JsString} :
    name ∈ importedPackages ((ambientOptions inventory manifests).graph sha256Hex) ↔
      ∃ e ∈ inventory, e.enabled = true ∧ packageOf manifests e = some name := by
  have hordered := orderedInstances_graph ha
  constructor
  · intro hname
    obtain ⟨i, hi, rfl⟩ := List.mem_map.mp (mem_map_firstBy.mp hname)
    obtain ⟨e, he, hen, found, hfound, _, hpackage, _⟩ :=
      mem_graph_instances ha (hordered.mem_iff.mp hi)
    exact ⟨e, he, hen, by rw [hpackage, packageOf_eq hfound]⟩
  · rintro ⟨e, he, hen, hpackage⟩
    obtain ⟨found, hfound, rfl⟩ := Option.map_eq_some_iff.mp hpackage
    obtain ⟨_, hperm⟩ := graph_instances sha256Hex ha
    have hi : buildInstance sha256Hex found e ∈
        (ambientOptions inventory manifests).enabled sha256Hex :=
      mem_enabled.mpr ⟨e, he, hen, found, hfound, rfl⟩
    have hwired := hordered.mem_iff.mpr (hperm.mem_iff.mpr (List.mem_map_of_mem hi))
    exact mem_map_firstBy.mpr (List.mem_map.mpr ⟨_, hwired, rfl⟩)

/-- The record the host makes of the registration of an instance's package. -/
def hostRecord (i : ResolvedPluginInstance N) : ResolvableManifest N :=
  { manifest := i.manifest, packageName := i.packageName, packageVersion := i.packageVersion,
    manifestDigest := none, digest := none }

omit [JsonNumber N] in
theorem records_eq (inventory : List PluginInventoryEntry) (graph : ResolutionGraph N) :
    (generateComposition inventory graph).plugins.map registered =
      (packagesInOrder graph).map hostRecord := by
  simp [generateComposition, registered, registrationPackageName, hostRecord, Function.comp_def]

omit [JsonNumber N] in
theorem mem_records {inventory : List PluginInventoryEntry} {graph : ResolutionGraph N}
    {m : ResolvableManifest N} :
    m ∈ (generateComposition inventory graph).plugins.map registered ↔
      ∃ i ∈ packagesInOrder graph, hostRecord i = m := by
  rw [records_eq, List.mem_map]

omit [JsonNumber N] in
theorem read_mem {inventory : List PluginInventoryEntry} {graph : ResolutionGraph N}
    (o : Fin ((generateComposition inventory graph).plugins.map registered).length) :
    ∃ i ∈ packagesInOrder graph, hostRecord i = (bootOptions inventory graph).read o :=
  mem_records.mp (List.get_mem _ o)

omit [JsonNumber N] in
theorem exists_read {inventory : List PluginInventoryEntry} {graph : ResolutionGraph N}
    {i : ResolvedPluginInstance N} (hi : i ∈ packagesInOrder graph) :
    ∃ o, (bootOptions inventory graph).read o = hostRecord i :=
  List.mem_iff_get.mp (mem_records.mpr ⟨i, hi, rfl⟩)

omit [JsonNumber N] in
/-- Imported packages are registered once. -/
theorem read_injective {inventory : List PluginInventoryEntry} {graph : ResolutionGraph N}
    {a b : Fin ((generateComposition inventory graph).plugins.map registered).length}
    (h : ((bootOptions inventory graph).read a).packageName =
      ((bootOptions inventory graph).read b).packageName) : a = b := by
  have hn : (((generateComposition inventory graph).plugins.map registered).map
      (·.packageName)).Nodup := by
    rw [records_eq, List.map_map]
    exact nodup_firstBy _ _
  have hsame := List.inj_on_of_nodup_map hn (List.get_mem _ a) (List.get_mem _ b) h
  exact (List.Nodup.get_inj_iff hn.of_map).mp hsame

/-- The host sees the CLI's entries and the imported packages. -/
theorem boot_restricts (ha : Accepts (ambientOptions inventory manifests) sha256Hex) :
    Restricts (ambientOptions inventory manifests)
      (bootOptions inventory ((ambientOptions inventory manifests).graph sha256Hex))
      (importedPackages ((ambientOptions inventory manifests).graph sha256Hex)) := by
  have hsource : ∀ i ∈ packagesInOrder ((ambientOptions inventory manifests).graph sha256Hex),
      ∃ o ∈ (ambientOptions inventory manifests).manifests,
        hostRecord i = bare ((ambientOptions inventory manifests).read o) := by
    intro i hi
    obtain ⟨e, _, _, found, hfound, hmanifest, hname, hversion, _⟩ := mem_graph_instances ha
      ((orderedInstances_graph ha).mem_iff.mp (firstBy_subset _ _ hi))
    obtain ⟨o, ho, rfl⟩ := lookup_eq_some ha.unambiguous hfound
    exact ⟨o, ho, by rw [hostRecord, hmanifest, hname, hversion]; rfl⟩
  refine ⟨ha.unambiguous, (sortBy_perm _ _).map _, rfl, rfl, ?_, ?_, ?_, ?_⟩
  · intro o' _
    obtain ⟨i, hi, hread⟩ := read_mem o'
    rw [← hread]
    exact hsource i hi
  · intro o ho himported
    obtain ⟨i, hi, hname⟩ := List.mem_map.mp himported
    obtain ⟨p, hp, hrecord⟩ := hsource i hi
    -- one package, one manifest
    have hsame : p = o := ha.unambiguous (i.packageName, p)
      (mem_claims.mpr ⟨hp, by
        have hpackage : i.packageName = _ := congrArg (·.packageName) hrecord
        simp [refsOf, hpackage, bare]⟩) (i.packageName, o)
      (mem_claims.mpr ⟨ho, by simp [refsOf, hname]⟩) rfl
    obtain ⟨o', hread⟩ := exists_read hi
    exact ⟨o', List.mem_finRange o', by rw [hread, hrecord, hsame]⟩
  · intro o' _
    obtain ⟨i, hi, hread⟩ := read_mem o'
    rw [← hread]
    exact List.mem_map_of_mem hi
  · intro a _ b _ h
    exact read_injective h

theorem allImported_iff (ha : Accepts (ambientOptions inventory manifests) sha256Hex) :
    AllImported (ambientOptions inventory manifests)
      (importedPackages ((ambientOptions inventory manifests).graph sha256Hex)) ↔
      DisabledShareAPackage inventory manifests := by
  constructor
  · intro hall e he _
    obtain ⟨found, hfound⟩ := Option.isSome_iff_exists.mp (ha.acceptable.known e he)
    obtain ⟨e', he', hen', hpackage⟩ :=
      (mem_importedPackages ha).mp (hall e he found hfound)
    exact ⟨e', he', hen', hpackage.trans (packageOf_eq hfound).symm⟩
  · intro hshare e he found hfound
    have hpackage := packageOf_eq hfound
    apply (mem_importedPackages ha).mpr
    cases hen : e.enabled with
    | true => exact ⟨e, he, hen, hpackage⟩
    | false =>
      obtain ⟨e', he', hen', hsame⟩ := hshare e he hen
      exact ⟨e', he', hen', hsame.trans hpackage⟩

/-- A disabled entry whose package is not imported is missing from what the host lists. -/
theorem allImported_of_disabled_eq (ha : Accepts (ambientOptions inventory manifests) sha256Hex)
    {graph : ResolutionGraph N}
    (hgraph : resolvePlugins sha256Hex (bootOptions inventory
      ((ambientOptions inventory manifests).graph sha256Hex)) = .ok graph)
    (hdisabled : graph.disabled =
      ((ambientOptions inventory manifests).graph sha256Hex).disabled) :
    AllImported (ambientOptions inventory manifests)
      (importedPackages ((ambientOptions inventory manifests).graph sha256Hex)) := by
  obtain ⟨hb, rfl⟩ := (resolvePlugins_eq_ok sha256Hex).mp hgraph
  intro e he found hfound
  cases hen : e.enabled with
  | true =>
    exact (mem_importedPackages ha).mpr ⟨e, he, hen, packageOf_eq hfound⟩
  | false =>
    have hmem : disabledInstance found e ∈
        ((ambientOptions inventory manifests).graph sha256Hex).disabled := by
      refine mem_sortBy.mpr (List.mem_map.mpr ⟨(found, e), ?_, rfl⟩)
      rw [List.mem_filter, mem_resolvedEntries]
      exact ⟨⟨mem_sortBy.mpr he, hfound⟩, by simp [hen]⟩
    rw [← hdisabled] at hmem
    obtain ⟨⟨found', e'⟩, hp, heq⟩ := List.mem_map.mp (mem_sortBy.mp hmem)
    rw [List.mem_filter, mem_resolvedEntries] at hp
    have hname : found'.packageName = found.packageName := congrArg (·.packageName) heq
    rw [← hname]
    exact (boot_restricts ha).imported_of_lookup hp.1.2

/-- The host boots what the CLI resolved exactly when every disabled entry shares its
package with an enabled one. -/
theorem prepareGraph_generateComposition {graph : ResolutionGraph N}
    (h : (resolveInventory inventory manifests AMBIENT_CAPABILITIES).graph = some graph) :
    (∃ host, prepareGraph sha256Hex (generateComposition inventory graph) [CAPABILITY_PRISMA] none =
        .ok host ∧ host.order = graph.order ∧
        host.instances.map (fun i => (i.key, i.dependsOn)) =
          graph.instances.map (fun i => (i.key, i.dependsOn)) ∧
        host.disabled = graph.disabled) ↔
      DisabledShareAPackage inventory manifests := by
  obtain ⟨_, ha, rfl⟩ := resolveInventory_graph.mp h
  rw [← allImported_iff ha]
  constructor
  · rintro ⟨host, hhost, _, _, hdisabled⟩
    exact allImported_of_disabled_eq ha hhost hdisabled
  · intro hall
    obtain ⟨horder, hcore, _, _, hdisabled⟩ := (boot_restricts ha).graph sha256Hex hall ha
    refine ⟨_, resolvePlugins_of_accepts sha256Hex
      ((boot_restricts ha).accepts sha256Hex hall ha), horder, ?_, hdisabled⟩
    have hedges := congrArg (List.map (fun i => (i.key, i.dependsOn))) hcore
    rwa [List.map_map, List.map_map] at hedges

end Boot

section BootExample

def loadedPlain (id : JsString) : LoadedPluginManifest ℤ (fun text => text) :=
  .ofManifest _ { plainManifest id [] [] with cardinality := .multiple } (js "@x/" ++ id) (js "1")

/-- Two installed packages, each under its own reference. -/
def twoPackages : ManifestSet ℤ (fun text => text) :=
  { byRef := [(js "@x/a", loadedPlain (js "a")), (js "@x/b", loadedPlain (js "b"))]
    missing := []
    nodup := by simp only [keys, List.map_cons, List.map_nil]; decide }

def disabledEntry (plugin instanceId : JsString) : PluginInventoryEntry :=
  { plugin := plugin, instanceId := instanceId, enabled := false, required := true,
    configRef := none }

theorem resolveInventory_twoPackages {inventory : List PluginInventoryEntry}
    (h : hasErrors ((ambientOptions inventory twoPackages).diagnostics (fun text => text)) = false) :
    (resolveInventory inventory twoPackages AMBIENT_CAPABILITIES).graph =
      some ((ambientOptions inventory twoPackages).graph (fun text => text)) :=
  resolveInventory_graph.mpr ⟨rfl, (hasErrors_diagnostics_eq_false _ _).mp h, rfl⟩

/-- A second instance of an imported package may be disabled. -/
theorem prepareGraph_generateComposition_sharedPackage : ∃ graph host : ResolutionGraph ℤ,
    (resolveInventory [enabledEntry (js "@x/a"), disabledEntry (js "@x/a") (js "two")] twoPackages
      AMBIENT_CAPABILITIES).graph = some graph ∧
    prepareGraph (fun text => text) (generateComposition
      [enabledEntry (js "@x/a"), disabledEntry (js "@x/a") (js "two")] graph)
      [CAPABILITY_PRISMA] none = .ok host ∧
    host.order = graph.order ∧
    host.instances.map (fun i => (i.key, i.dependsOn)) =
      graph.instances.map (fun i => (i.key, i.dependsOn)) ∧ host.disabled = graph.disabled := by
  have hcli := @resolveInventory_twoPackages
    [enabledEntry (js "@x/a"), disabledEntry (js "@x/a") (js "two")] (by decide +kernel)
  obtain ⟨host, hhost⟩ := (prepareGraph_generateComposition hcli).mpr (by
    unfold DisabledShareAPackage
    decide +kernel)
  exact ⟨_, host, hcli, hhost⟩

/-- The host rejects the composition of an inventory with a disabled plugin of its own package. -/
theorem prepareGraph_rejects_disabled : ∃ graph : ResolutionGraph ℤ,
    (resolveInventory [enabledEntry (js "@x/a"), disabledEntry (js "@x/b") (js "default")]
      twoPackages AMBIENT_CAPABILITIES).graph = some graph ∧
    ∀ host, prepareGraph (fun text => text) (generateComposition
      [enabledEntry (js "@x/a"), disabledEntry (js "@x/b") (js "default")] graph)
      [CAPABILITY_PRISMA] none ≠ .ok host := by
  refine ⟨_, resolveInventory_twoPackages (by decide +kernel), ?_⟩
  intro host hhost
  have haccepts := ((resolvePlugins_eq_ok _).mp hhost).1
  rw [← hasErrors_diagnostics_eq_false] at haccepts
  revert haccepts
  decide +kernel

end BootExample

end Appspine.Composition
