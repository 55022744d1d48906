import Appspine.CompositionBoot

/-!
# The recorded digest and the digest of the host

The CLI digests every instance together with its package; the host falls back to the
digest of the manifest alone. The resolution digests therefore differ as soon as there
is an instance.
-/
namespace Appspine.Composition
open JsText StableSort InsertionMap JsonText PluginManifest Resolver

section Digest

variable [JsonNumber N] {sha256Hex : JsString → JsString} {inventory : List PluginInventoryEntry}
  {manifests : ManifestSet N sha256Hex}

theorem digest_graph {Obj : Type} [DecidableEq Obj] (options : ResolveOptions N Obj) :
    (options.graph sha256Hex).digest = resolutionDigest sha256Hex (options.graph sha256Hex) := rfl

omit [JsonNumber N] in
theorem canonicalReading_instanceJson (i : ResolvedPluginInstance N) :
    field (js "digest") (canonicalReading (instanceJson i)) = some (.str i.digest) := by
  rw [instanceJson, field_canonicalReading _ (by decide)]
  · rfl
  · simp only [List.map_cons, List.map_nil]
    decide

omit [JsonNumber N] in
theorem canonicalReading_resolutionJson (order hosts : List JsString)
    (providers : List (JsString × List JsString)) (disabled : List DisabledInstance)
    (is : List (ResolvedPluginInstance N)) :
    field (js "instances") (canonicalReading (resolutionJson order hosts providers disabled is)) =
      some (.arr ((is.map instanceJson).map canonicalReading)) := by
  rw [resolutionJson, field_canonicalReading _ (by decide)]
  · rw [← canonicalReading_arr]
    rfl
  · simp only [List.map_cons, List.map_nil]
    decide

/-- Equal resolution digests cover instances with equal digests. -/
theorem digests_of_resolutionDigest_eq (hinj : Injective sha256Hex) {g h : ResolutionGraph N}
    (heq : resolutionDigest sha256Hex g = resolutionDigest sha256Hex h) :
    g.instances.map (·.digest) = h.instances.map (·.digest) := by
  have hreading := canonicalReading_eq (canonicalJsonString_eq_of_manifestDigest_eq hinj heq)
  have hfields := congrArg (field (js "instances")) hreading
  rw [canonicalReading_resolutionJson, canonicalReading_resolutionJson, Option.some.injEq,
    Json.arr.injEq] at hfields
  have hdigests := congrArg (List.map (field (js "digest"))) hfields
  simp only [List.map_map, Function.comp_def, canonicalReading_instanceJson] at hdigests
  have hsome : ∀ is : List (ResolvedPluginInstance N),
      is.map (fun i => some (Json.str i.digest : Json N)) =
        (is.map (·.digest)).map (fun d => some (Json.str d : Json N)) := by
    intro is
    rw [List.map_map]
    rfl
  rw [hsome, hsome] at hdigests
  exact List.map_injective_iff.mpr (fun a b hab => by simpa using hab) hdigests

omit [JsonNumber N] in
theorem exists_counterpart {is js : List (ResolvedPluginInstance N)}
    (hcore : js.map (·.core) = is.map (·.core)) (hdigest : js.map (·.digest) = is.map (·.digest))
    {i : ResolvedPluginInstance N} (hi : i ∈ is) :
    ∃ j ∈ js, j.core = i.core ∧ j.digest = i.digest := by
  induction is generalizing js with
  | nil => simp at hi
  | cons i' is ih =>
    cases js with
    | nil => simp at hcore
    | cons j js =>
      simp only [List.map_cons, List.cons.injEq] at hcore hdigest
      rcases List.mem_cons.mp hi with rfl | hi
      · exact ⟨j, by simp, hcore.1, hdigest.1⟩
      · obtain ⟨j', hj', hsame⟩ := ih hcore.2 hdigest.2 hi
        exact ⟨j', List.mem_cons_of_mem _ hj', hsame⟩

/-- An instance of the CLI and the same instance in the host carry different digests. -/
theorem digest_ne (hinj : Injective sha256Hex)
    (ha : Accepts (ambientOptions inventory manifests) sha256Hex)
    (hb : Accepts (bootOptions inventory ((ambientOptions inventory manifests).graph sha256Hex))
      sha256Hex) {i j : ResolvedPluginInstance N}
    (hi : i ∈ ((ambientOptions inventory manifests).graph sha256Hex).instances)
    (hj : j ∈ ((bootOptions inventory
      ((ambientOptions inventory manifests).graph sha256Hex)).graph sha256Hex).instances)
    (hcore : j.core = i.core) : j.digest ≠ i.digest := by
  obtain ⟨e, _, _, found, hfound, hmanifest, _, _, hdigest⟩ := mem_graph_instances ha hi
  obtain ⟨o, _, hread⟩ := lookup_eq_some ha.unambiguous hfound
  obtain ⟨loaded, _, hloaded⟩ := List.mem_map.mp
    (List.get_mem (manifests.byRef.map (fun e => toResolvable e.2)) o)
  have hcli : i.digest = resolvedManifestDigest sha256Hex i.manifest.toJson
      loaded.2.packageName loaded.2.packageVersion := by
    have hrecord : found = toResolvable loaded.2 := hread.trans hloaded.symm
    rw [hdigest, hmanifest, hrecord]
    exact loaded.2.digest_eq
  obtain ⟨j', hj', rfl⟩ := List.mem_map.mp ((graph_instances sha256Hex hb).2.mem_iff.mp hj)
  obtain ⟨e', _, _, found', hfound', rfl⟩ := mem_enabled.mp hj'
  obtain ⟨o', _, hread'⟩ := lookup_eq_some hb.unambiguous hfound'
  obtain ⟨k, _, hrecord'⟩ := read_mem o'
  have hbare : found' = hostRecord k := hread'.trans hrecord'.symm
  have hsame : found'.manifest = i.manifest := congrArg (·.manifest) hcore
  have hhost : (buildInstance sha256Hex found' e').digest =
      manifestDigest sha256Hex i.manifest.toJson := by
    rw [← hsame, hbare]
    rfl
  intro heq
  exact manifestDigest_ne_resolvedManifestDigest hinj _ _ _ (hhost.symm.trans (heq.trans hcli))

theorem instances_eq_nil (ha : Accepts (ambientOptions inventory manifests) sha256Hex)
    (henabled : ∀ e ∈ inventory, e.enabled = true) :
    ((ambientOptions inventory manifests).graph sha256Hex).instances = [] ↔ inventory = [] := by
  constructor
  · intro hnil
    rw [List.eq_nil_iff_forall_not_mem]
    intro e he
    obtain ⟨found, hfound⟩ := Option.isSome_iff_exists.mp (ha.acceptable.known e he)
    have hmem := (graph_instances sha256Hex ha).2.mem_iff.mpr (List.mem_map_of_mem
      (mem_enabled.mpr ⟨e, he, henabled e he, found, hfound, rfl⟩))
    rw [hnil] at hmem
    simp at hmem
  · rintro rfl
    rw [List.eq_nil_iff_forall_not_mem]
    intro i hi
    obtain ⟨e, he, _⟩ := mem_graph_instances ha hi
    simp at he

/-- The host boots an inventory without disabled entries to a graph with the digest
recorded in the composition exactly when the inventory is empty. -/
theorem prepareGraph_digest (hinj : Injective sha256Hex) {graph : ResolutionGraph N}
    (h : (resolveInventory inventory manifests AMBIENT_CAPABILITIES).graph = some graph)
    (henabled : ∀ e ∈ inventory, e.enabled = true) :
    ∃ host, prepareGraph sha256Hex (generateComposition inventory graph) [CAPABILITY_PRISMA] none =
        .ok host ∧
      (host.digest = (generateComposition inventory graph).resolutionDigest ↔ inventory = []) := by
  obtain ⟨_, ha, rfl⟩ := resolveInventory_graph.mp h
  have hall : AllImported (ambientOptions inventory manifests)
      (importedPackages ((ambientOptions inventory manifests).graph sha256Hex)) := by
    rw [allImported_iff ha]
    intro e he hdisabled
    rw [henabled e he] at hdisabled
    cases hdisabled
  have hb := (boot_restricts ha).accepts sha256Hex hall ha
  obtain ⟨horder, hcore, hproviders, hhosts, hdisabled⟩ :=
    (boot_restricts ha).graph sha256Hex hall ha
  refine ⟨_, resolvePlugins_of_accepts sha256Hex hb, ?_⟩
  change ResolutionGraph.digest _ = ResolutionGraph.digest _ ↔ _
  rw [digest_graph, digest_graph, ← instances_eq_nil ha henabled]
  constructor
  · intro heq
    have hdigests := digests_of_resolutionDigest_eq hinj heq
    rw [List.eq_nil_iff_forall_not_mem]
    intro i hi
    obtain ⟨j, hj, hcore', hdigest'⟩ := exists_counterpart hcore hdigests hi
    exact digest_ne hinj ha hb hi hj hcore' hdigest'
  · intro hnil
    have hnil' : ((bootOptions inventory
        ((ambientOptions inventory manifests).graph sha256Hex)).graph sha256Hex).instances = [] := by
      rw [hnil] at hcore
      simpa using hcore
    rw [resolutionDigest, resolutionDigest, horder, hhosts, hproviders, hdisabled, hnil, hnil']

end Digest

section DigestExample

theorem injective_text : Injective (fun text => text) := fun _ _ _ _ h => h

/-- Without entries, the two digests agree. -/
theorem prepareGraph_digest_empty : ∃ graph host : ResolutionGraph ℤ,
    (resolveInventory [] twoPackages AMBIENT_CAPABILITIES).graph = some graph ∧
    prepareGraph (fun text => text) (generateComposition [] graph) [CAPABILITY_PRISMA] none =
      .ok host ∧
    host.digest = (generateComposition [] graph).resolutionDigest := by
  have hcli := @resolveInventory_twoPackages [] (by decide +kernel)
  obtain ⟨host, hhost, hdigest⟩ := prepareGraph_digest injective_text hcli (by simp)
  exact ⟨_, host, hcli, hhost, hdigest.mpr rfl⟩

/-- One enabled plugin, and the digests differ. -/
theorem prepareGraph_digest_mismatch : ∃ graph host : ResolutionGraph ℤ,
    (resolveInventory [enabledEntry (js "@x/a")] twoPackages AMBIENT_CAPABILITIES).graph =
      some graph ∧
    prepareGraph (fun text => text) (generateComposition [enabledEntry (js "@x/a")] graph)
      [CAPABILITY_PRISMA] none = .ok host ∧
    host.digest ≠ (generateComposition [enabledEntry (js "@x/a")] graph).resolutionDigest := by
  refine ⟨_, _, resolveInventory_twoPackages (by decide +kernel),
    resolvePlugins_of_accepts _ ((hasErrors_diagnostics_eq_false _ _).mp (by decide +kernel)), ?_⟩
  decide +kernel

end DigestExample

end Appspine.Composition
