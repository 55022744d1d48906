import Appspine.Generate

/-!
# The manifests behind an accepted input

What reading the manifests of an inventory gives, and that in an accepted input a package name
stands for one manifest: the one the instances of the package were resolved with.
-/
namespace Appspine.Generate
open JsText StableSort InsertionMap JsonText PluginManifest Resolver Appspine.Composition Commands

variable {N : Type} [JsonNumber N] {sha256Hex : JsString → JsString}

section Read

variable {app : AppRoot N sha256Hex}

/-- What the references read so far have given. -/
structure ReadSoFar (app : AppRoot N sha256Hex) (manifests : LoadedManifests N sha256Hex)
    (refs : List JsString) : Prop where
  byRef : ∀ ref loaded, InsertionMap.get manifests.byRef ref = some loaded ↔
    ref ∈ refs ∧ ∃ diagnostics, app.readManifestFor ref = .ok (loaded, diagnostics)
  missing : ∀ ref, ref ∈ manifests.missing ↔
    ref ∈ refs ∧ ∃ diagnostics, app.readManifestFor ref = .error diagnostics

lemma readRef_spec {manifests : LoadedManifests N sha256Hex} {refs : List JsString}
    (h : ReadSoFar app manifests refs) (ref : JsString) :
    ReadSoFar app (readRef app manifests ref) (refs ++ [ref]) := by
  cases hread : app.readManifestFor ref with
  | error diagnostics =>
    simp only [readRef, hread]
    refine ⟨fun ref' loaded => ?_, fun ref' => ?_⟩
    · rw [h.byRef, List.mem_append, List.mem_singleton]
      constructor
      · rintro ⟨hmem, hok⟩
        exact ⟨.inl hmem, hok⟩
      · rintro ⟨hmem | rfl, hok⟩
        · exact ⟨hmem, hok⟩
        · simp [hread] at hok
    · rw [List.mem_append, List.mem_append, List.mem_singleton, h.missing]
      constructor
      · rintro (⟨hmem, herror⟩ | rfl)
        · exact ⟨.inl hmem, herror⟩
        · exact ⟨.inr rfl, diagnostics, hread⟩
      · rintro ⟨hmem | rfl, herror⟩
        · exact .inl ⟨hmem, herror⟩
        · exact .inr rfl
  | ok read =>
    obtain ⟨found, diagnostics⟩ := read
    simp only [readRef, hread]
    refine ⟨fun ref' loaded => ?_, fun ref' => ?_⟩
    · rw [get_set, List.mem_append, List.mem_singleton]
      split_ifs with heq
      · subst heq
        simp [hread]
      · rw [h.byRef]
        simp [heq]
    · rw [h.missing, List.mem_append, List.mem_singleton]
      constructor
      · rintro ⟨hmem, herror⟩
        exact ⟨.inl hmem, herror⟩
      · rintro ⟨hmem | rfl, herror⟩
        · exact ⟨hmem, herror⟩
        · simp [hread] at herror

lemma readManifestsFor_spec (app : AppRoot N sha256Hex) (refs : List JsString) :
    ReadSoFar app (readManifestsFor app refs) (sorted (distinct refs)) := by
  rw [readManifestsFor]
  induction sorted (distinct refs) using List.reverseRecOn with
  | nil => exact ⟨by simp [LoadedManifests.empty], by simp [LoadedManifests.empty]⟩
  | append_singleton refs ref ih =>
    rw [List.foldl_append, List.foldl_cons, List.foldl_nil]
    exact readRef_spec ih ref

lemma get_readManifestsFor {refs : List JsString} {ref : JsString}
    {loaded : LoadedPluginManifest N sha256Hex} :
    InsertionMap.get (readManifestsFor app refs).byRef ref = some loaded ↔
      ref ∈ refs ∧ ∃ diagnostics, app.readManifestFor ref = .ok (loaded, diagnostics) := by
  rw [(readManifestsFor_spec app refs).byRef, (sorted_perm _).mem_iff, mem_distinct]

lemma mem_missing {refs : List JsString} {ref : JsString} :
    ref ∈ (readManifestsFor app refs).missing ↔
      ref ∈ refs ∧ ∃ diagnostics, app.readManifestFor ref = .error diagnostics := by
  rw [(readManifestsFor_spec app refs).missing, (sorted_perm _).mem_iff, mem_distinct]

end Read

section Accepted

variable {app : AppRoot N sha256Hex} {fragmentText : JsString → JsString → Option JsString}
  {version : JsString} {input : GeneratorInput N sha256Hex}

lemma buildInput_manifests {generation : GenerationInput N sha256Hex}
    (h : buildInput app = .ok generation) :
    generation.manifests = readManifestsFor app (generation.plugins.map (·.plugin)) ∧
      Passes generation.plugins generation.manifests generation.graph := by
  cases hread : readInventory app with
  | error diagnostics => simp [buildInput, hread] at h
  | ok read =>
    have hpasses := buildInput_ok hread h
    simp only [buildInput, hread] at h
    split at h
    · cases h
    · split at h
      · cases h
      · split at h
        · cases h
        · obtain rfl := Except.ok.inj h
          exact ⟨rfl, hpasses⟩

lemma generatorInput_ok (h : generatorInput app fragmentText version = .ok input) :
    input.manifests = readManifestsFor app (input.plugins.map (·.plugin)) ∧
      Passes input.plugins input.manifests input.graph := by
  cases hbuild : buildInput app with
  | error refused =>
    rw [generatorInput, hbuild] at h
    cases h
  | ok generation =>
    rw [generatorInput, hbuild] at h
    obtain rfl := Except.ok.inj h
    exact buildInput_manifests hbuild

lemma toResolvable_injective : Function.Injective (@toResolvable N _ sha256Hex) := by
  rintro ⟨manifest, packageName, packageVersion, manifestDigest, digest, hmanifest, hdigest⟩
    ⟨manifest', packageName', packageVersion', manifestDigest', digest', hmanifest', hdigest'⟩ h
  simp only [toResolvable, ResolvableManifest.mk.injEq, Option.some.injEq, true_and] at h
  obtain ⟨rfl, rfl, rfl, rfl⟩ := h
  obtain rfl := hmanifest.trans hmanifest'.symm
  rfl

/-- A package name stands for one manifest. -/
lemma loaded_unique (hpasses : Passes input.plugins input.manifests input.graph)
    {loaded loaded' : LoadedPluginManifest N sha256Hex} (h : loaded ∈ input.loaded)
    (h' : loaded' ∈ input.loaded) (hname : loaded.packageName = loaded'.packageName) :
    loaded = loaded' := by
  let options := ambientOptions input.plugins input.manifests.toManifestSet
  have hread : ∀ l ∈ input.loaded, ∃ o, options.read o = toResolvable l := by
    intro l hl
    obtain ⟨e, he, rfl⟩ := List.mem_map.mp hl
    exact List.mem_iff_get.mp (List.mem_map.mpr ⟨e, he, rfl⟩)
  have hclaim : ∀ o, ((options.read o).packageName, o) ∈ claims options.read options.manifests := by
    intro o
    exact mem_claims.mpr ⟨List.mem_finRange o, List.mem_cons_self⟩
  obtain ⟨o, ho⟩ := hread loaded h
  obtain ⟨o', ho'⟩ := hread loaded' h'
  have hsame : (options.read o).packageName = (options.read o').packageName := by
    rw [ho, ho']
    exact hname
  have heq : o = o' := hpasses.accepts.unambiguous _ (hclaim o) _ (hclaim o') hsame
  exact toResolvable_injective (ho.symm.trans (heq ▸ ho'))

lemma manifestOf_eq (hpasses : Passes input.plugins input.manifests input.graph)
    {loaded : LoadedPluginManifest N sha256Hex} (h : loaded ∈ input.loaded) :
    input.manifestOf loaded.packageName = some loaded := by
  cases hfind : input.manifestOf loaded.packageName with
  | none =>
    exact absurd (decide_eq_true rfl) (List.find?_eq_none.mp hfind loaded h)
  | some found =>
    have hname : found.packageName = loaded.packageName := by simpa using List.find?_some hfind
    rw [loaded_unique hpasses (List.mem_of_find?_eq_some hfind) h hname]

/-- An instance was resolved with the manifest of its package. -/
lemma exists_loaded (hpasses : Passes input.plugins input.manifests input.graph)
    {i : ResolvedPluginInstance N} (hi : i ∈ input.graph.instances) :
    ∃ loaded ∈ input.loaded, input.manifestOf i.packageName = some loaded ∧
      loaded.packageName = i.packageName ∧ loaded.manifest = i.manifest ∧
      loaded.manifest.id = i.pluginId := by
  rw [hpasses.graph_eq] at hi
  obtain ⟨i', hi', rfl⟩ := List.mem_map.mp ((graph_instances sha256Hex hpasses.accepts).2.mem_iff.mp hi)
  obtain ⟨e, he, _, found, hfound, rfl⟩ := mem_enabled.mp hi'
  obtain ⟨o, _, rfl⟩ := lookup_eq_some hpasses.accepts.unambiguous hfound
  obtain ⟨entry, hentry, heq⟩ := List.mem_map.mp
    (List.get_mem (input.manifests.byRef.map (fun e => toResolvable e.2)) o)
  have hloaded : entry.2 ∈ input.loaded := List.mem_map_of_mem hentry
  have hread : (ambientOptions input.plugins input.manifests.toManifestSet).read o =
      toResolvable entry.2 := heq.symm
  have hname : ((ambientOptions input.plugins input.manifests.toManifestSet).read o).packageName =
      entry.2.packageName := by rw [hread]; rfl
  refine ⟨entry.2, hloaded, ?_, hname.symm, ?_, ?_⟩
  · change input.manifestOf
      ((ambientOptions input.plugins input.manifests.toManifestSet).read o).packageName = _
    rw [hname]
    exact manifestOf_eq hpasses hloaded
  · change _ = ((ambientOptions input.plugins input.manifests.toManifestSet).read o).manifest
    rw [hread]
    rfl
  · change _ = ((ambientOptions input.plugins input.manifests.toManifestSet).read o).manifest.id
    rw [hread]
    rfl

/-- The installed manifests are those of the packages of the instances. -/
lemma mem_installed (hpasses : Passes input.plugins input.manifests input.graph)
    {loaded : LoadedPluginManifest N sha256Hex} :
    loaded ∈ input.installed ↔ loaded ∈ input.loaded ∧
      ∃ i ∈ input.graph.instances, i.packageName = loaded.packageName := by
  have hsource : ∀ l, l ∈ input.graph.instances.filterMap (fun i => input.manifestOf i.packageName) ↔
      l ∈ input.loaded ∧ ∃ i ∈ input.graph.instances, i.packageName = l.packageName := by
    intro l
    rw [List.mem_filterMap]
    constructor
    · rintro ⟨i, hi, hfind⟩
      have hname : l.packageName = i.packageName := by simpa using List.find?_some hfind
      exact ⟨List.mem_of_find?_eq_some hfind, i, hi, hname.symm⟩
    · rintro ⟨hl, i, hi, hname⟩
      exact ⟨i, hi, hname ▸ manifestOf_eq hpasses hl⟩
  rw [← hsource, GeneratorInput.installed]
  refine ⟨fun h => firstBy_subset _ _ h, fun h => ?_⟩
  obtain ⟨first, hfirst, hname⟩ := List.mem_map.mp
    ((mem_map_firstBy (f := LoadedPluginManifest.packageName)).mpr (List.mem_map_of_mem h))
  have hmem := firstBy_subset _ _ hfirst
  rwa [loaded_unique hpasses ((hsource _).mp hmem).1 ((hsource _).mp h).1 hname] at hfirst

/-- The order names the instances as they stand. -/
lemma order_eq (hpasses : Passes input.plugins input.manifests input.graph) :
    input.graph.order = input.graph.instances.map (·.key) ∧
      (input.graph.instances.map (·.key)).Nodup := by
  rw [hpasses.graph_eq]
  obtain ⟨hkeys, _⟩ := graph_instances sha256Hex hpasses.accepts
  refine ⟨hkeys.symm, ?_⟩
  rw [hkeys, (order_perm sha256Hex hpasses.accepts).nodup_iff]
  exact nodup_enabled sha256Hex hpasses.accepts

end Accepted

end Appspine.Generate
