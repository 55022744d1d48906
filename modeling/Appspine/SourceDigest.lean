import Appspine.Results
import Appspine.PrismaSchema
import Appspine.Generators
import Appspine.LoadState
import Appspine.ResolverDigest

/-!
# What the source digest determines

The source digest covers the inventory, the versions of the presets, the resolution and the digests
of the manifests. The generators read more than that: the texts of the Prisma fragments, who
contributed an entry, what else a preset is known by, and the order of members in a manifest.
-/
namespace Appspine.Generate
open JsText StableSort InsertionMap JsonText PluginManifest Resolver Appspine.Composition Commands
open Lockfile (loadedEntries)
open Results (bind_eq_ok map_eq_ok)

variable {N : Type} [JsonNumber N] {sha256Hex : JsString → JsString}

section Reading

omit [JsonNumber N] in
lemma field_presetVersionJson (preset : PresetSummary) {k : JsString} (hk : k ≠ js "__proto__") :
    field k (canonicalReading (presetVersionJson (N := N) preset)) =
      (InsertionMap.get [(js "package", Json.str preset.package),
        (js "version", .str preset.version)] k).map canonicalReading := by
  rw [presetVersionJson, field_canonicalReading _ hk]
  simp only [List.map_cons, List.map_nil]
  decide

omit [JsonNumber N] in
lemma presetVersion_eq {preset preset' : PresetSummary}
    (h : canonicalReading (presetVersionJson (N := N) preset) =
      canonicalReading (presetVersionJson preset')) :
    (preset.package, preset.version) = (preset'.package, preset'.version) := by
  have hfield : ∀ k, k ≠ js "__proto__" → _ = _ := fun k hk =>
    (field_presetVersionJson preset hk).symm.trans
      ((congrArg (field k) h).trans (field_presetVersionJson preset' hk))
  have hpackage := Json.str.inj (Option.some.inj (hfield (js "package") (by decide)))
  have hversion := Json.str.inj (Option.some.inj (hfield (js "version") (by decide)))
  rw [hpackage, hversion]

/-- What the digest covers of a manifest. -/
def loadedDigest (loaded : LoadedPluginManifest N sha256Hex) : JsString × JsString × JsString :=
  (loaded.packageName, loaded.packageVersion, loaded.digest)

lemma field_loadedJson (loaded : LoadedPluginManifest N sha256Hex) {k : JsString}
    (hk : k ≠ js "__proto__") : field k (canonicalReading (loadedJson loaded)) =
      (InsertionMap.get [(js "packageName", Json.str loaded.packageName),
        (js "packageVersion", .str loaded.packageVersion),
        (js "digest", .str loaded.digest)] k).map (canonicalReading (N := N)) := by
  rw [loadedJson, field_canonicalReading _ hk]
  simp only [List.map_cons, List.map_nil]
  decide

lemma loadedDigest_eq {loaded loaded' : LoadedPluginManifest N sha256Hex}
    (h : canonicalReading (loadedJson loaded) = canonicalReading (loadedJson loaded')) :
    loadedDigest loaded = loadedDigest loaded' := by
  have hfield : ∀ k, k ≠ js "__proto__" → _ = _ := fun k hk =>
    (field_loadedJson loaded hk).symm.trans
      ((congrArg (field k) h).trans (field_loadedJson loaded' hk))
  have hname := Json.str.inj (Option.some.inj (hfield (js "packageName") (by decide)))
  have hversion := Json.str.inj (Option.some.inj (hfield (js "packageVersion") (by decide)))
  have hdigest := Json.str.inj (Option.some.inj (hfield (js "digest") (by decide)))
  rw [loadedDigest, hname, hversion, hdigest, loadedDigest]

omit [JsonNumber N] in
lemma field_entryJson (entry : PluginInventoryEntry) {k : JsString} (hk : k ≠ js "__proto__") :
    field k (canonicalReading (entryJson (N := N) entry)) =
      (InsertionMap.get ([(js "plugin", Json.str entry.plugin),
        (js "instanceId", .str entry.instanceId), (js "enabled", .bool entry.enabled),
        (js "required", .bool entry.required)] ++
          optionalMember (js "configRef") (entry.configRef.map .str)) k).map canonicalReading := by
  rw [entryJson, field_canonicalReading _ hk]
  cases entry.configRef with
  | none =>
    simp only [Option.map_none, optionalMember, List.append_nil, List.map_cons,
      List.map_nil]
    decide
  | some configRef =>
    simp only [Option.map_some, optionalMember, List.cons_append, List.nil_append,
      List.map_cons, List.map_nil]
    decide

omit [JsonNumber N] in
lemma entry_eq {entry entry' : PluginInventoryEntry}
    (h : canonicalReading (entryJson (N := N) entry) = canonicalReading (entryJson entry')) :
    entry = entry' := by
  have hfield : ∀ k, k ≠ js "__proto__" → _ = _ := fun k hk =>
    (field_entryJson entry hk).symm.trans
      ((congrArg (field k) h).trans (field_entryJson entry' hk))
  have hplugin := Json.str.inj (Option.some.inj (hfield (js "plugin") (by decide)))
  have hinstance := Json.str.inj (Option.some.inj (hfield (js "instanceId") (by decide)))
  have henabled := Json.bool.inj (Option.some.inj (hfield (js "enabled") (by decide)))
  have hrequired := Json.bool.inj (Option.some.inj (hfield (js "required") (by decide)))
  have hconfigRef : entry.configRef = entry'.configRef := by
    have href := hfield (js "configRef") (by decide)
    cases hc : entry.configRef with
    | none =>
      cases hc' : entry'.configRef with
      | none => rfl
      | some configRef' =>
        rw [hc, hc'] at href
        cases href
    | some configRef =>
      cases hc' : entry'.configRef with
      | none =>
        rw [hc, hc'] at href
        cases href
      | some configRef' =>
        rw [hc, hc'] at href
        exact congrArg some (Json.str.inj (Option.some.inj href))
  obtain ⟨plugin, instanceId, enabled, required, configRef⟩ := entry
  obtain ⟨plugin', instanceId', enabled', required', configRef'⟩ := entry'
  simp only [PluginInventoryEntry.mk.injEq]
  exact ⟨hplugin, hinstance, henabled, hrequired, hconfigRef⟩

end Reading

section Covered

variable {input input' : GeneratorInput N sha256Hex}

lemma field_sourceDocument (input : GeneratorInput N sha256Hex) {k : JsString}
    (hk : k ≠ js "__proto__") : field k (canonicalReading (sourceDocument input)) =
      (InsertionMap.get [(js "inventory", .arr (input.plugins.map entryJson)),
        (js "presets", .arr (input.presetSummary.map presetVersionJson)),
        (js "resolution", .str input.graph.digest),
        (js "manifests", .arr ((sortBy (·.packageName) input.loaded).map loadedJson))] k).map
          (canonicalReading (N := N)) := by
  rw [sourceDocument, field_canonicalReading _ hk]
  simp only [List.map_cons, List.map_nil]
  decide

/-- What two inputs with one source digest have in common. -/
structure SameCoveredSources (input input' : GeneratorInput N sha256Hex) : Prop where
  plugins : input.plugins = input'.plugins
  presets : input.presetSummary.map (fun p => (p.package, p.version)) =
    input'.presetSummary.map fun p => (p.package, p.version)
  resolution : input.graph.digest = input'.graph.digest
  manifests : (sortBy (·.packageName) input.loaded).map loadedDigest =
    (sortBy (·.packageName) input'.loaded).map loadedDigest

omit [JsonNumber N] in
/-- Arrays that read alike have items that read alike. -/
lemma map_eq_of_reading {α β : Type} {f : α → Json N} {g : α → β} {xs ys : List α}
    (hitem : ∀ x y, canonicalReading (f x) = canonicalReading (f y) → g x = g y)
    (h : canonicalReading (.arr (xs.map f)) = canonicalReading (.arr (ys.map f))) :
    xs.map g = ys.map g := by
  rw [canonicalReading_arr, canonicalReading_arr, Json.arr.injEq, List.map_map, List.map_map,
    ← List.forall₂_eq_eq_eq, List.forall₂_map_left_iff, List.forall₂_map_right_iff] at h
  rw [← List.forall₂_eq_eq_eq, List.forall₂_map_left_iff, List.forall₂_map_right_iff]
  exact h.imp fun x y hxy => hitem x y hxy

lemma sameCoveredSources_of_digest (hinj : Injective sha256Hex)
    (h : sourceDigest input = sourceDigest input') : SameCoveredSources input input' := by
  have hreading := canonicalReading_eq (canonicalJsonString_eq_of_manifestDigest_eq hinj
    (show PluginManifest.manifestDigest sha256Hex (sourceDocument input) =
      PluginManifest.manifestDigest sha256Hex (sourceDocument input') from h))
  have hfield : ∀ k, k ≠ js "__proto__" → _ = _ := fun k hk =>
    (field_sourceDocument input hk).symm.trans
      ((congrArg (field k) hreading).trans (field_sourceDocument input' hk))
  have hplugins := Option.some.inj (hfield (js "inventory") (by decide))
  have hpresets := Option.some.inj (hfield (js "presets") (by decide))
  have hresolution := Json.str.inj (Option.some.inj (hfield (js "resolution") (by decide)))
  have hmanifests := Option.some.inj (hfield (js "manifests") (by decide))
  refine ⟨?_, ?_, hresolution, ?_⟩
  · simpa using map_eq_of_reading (g := id) (fun _ _ => entry_eq) hplugins
  · exact map_eq_of_reading (fun _ _ => presetVersion_eq) hpresets
  · exact map_eq_of_reading (fun _ _ => loadedDigest_eq) hmanifests

end Covered

section Read

variable {app : AppRoot N sha256Hex} {fragmentText : JsString → JsString → Option JsString}
  {version : JsString} {input : GeneratorInput N sha256Hex}

/-- Nothing is generated while a manifest is missing. -/
lemma generatorInput_missing (h : generatorInput app fragmentText version = .ok input) :
    input.manifests.missing = [] := by
  cases hbuild : buildInput app with
  | error refused =>
    rw [generatorInput, hbuild] at h
    cases h
  | ok generation =>
    rw [generatorInput, hbuild] at h
    obtain rfl := Except.ok.inj h
    cases hread : readInventory app with
    | error diagnostics => simp [buildInput, hread] at hbuild
    | ok read =>
      simp only [buildInput, hread] at hbuild
      split at hbuild
      · cases hbuild
      · rename_i hmissing
        split at hbuild
        · cases hbuild
        · split at hbuild
          · cases hbuild
          · obtain rfl := Except.ok.inj hbuild
            exact not_not.mp hmissing

/-- References that all load are the keys, in the order they were read in. -/
lemma keys_readManifestsFor {refs : List JsString}
    (hmissing : (readManifestsFor app refs).missing = []) :
    keys (readManifestsFor app refs).byRef = sorted (distinct refs) := by
  have hnodup : (sorted (distinct refs)).Nodup :=
    (sorted_perm _).nodup_iff.mpr (nodup_distinct refs)
  have hloads : ∀ ref ∈ sorted (distinct refs), ∃ found,
      app.readManifestFor ref = .ok found := by
    intro ref href
    cases hread : app.readManifestFor ref with
    | error diagnostics =>
      have hmem : ref ∈ (readManifestsFor app refs).missing :=
        mem_missing.mpr ⟨by rwa [(sorted_perm _).mem_iff, mem_distinct] at href, diagnostics, hread⟩
      rw [hmissing] at hmem
      exact absurd hmem List.not_mem_nil
    | ok found => exact ⟨found, rfl⟩
  rw [readManifestsFor]
  clear hmissing
  generalize sorted (distinct refs) = rs at hnodup hloads ⊢
  induction rs using List.reverseRecOn with
  | nil => rfl
  | append_singleton rs ref ih =>
    rw [List.nodup_append] at hnodup
    obtain ⟨⟨loaded, diagnostics⟩, hread⟩ := hloads ref (by simp)
    have hkeys := ih hnodup.1 fun r hr => hloads r (by simp [hr])
    have hnew : ref ∉ keys (rs.foldl (readRef app) LoadedManifests.empty).byRef := by
      rw [hkeys]
      exact fun hmem => hnodup.2.2 ref hmem ref (by simp) rfl
    rw [List.foldl_append, List.foldl_cons, List.foldl_nil]
    simp only [readRef, hread]
    rw [keys_set, if_neg hnew, hkeys]

end Read

section Agreement

/-- Two loads of one document under one package are one. -/
lemma loaded_eq {loaded loaded' : LoadedPluginManifest N sha256Hex}
    (hmanifest : loaded.manifest = loaded'.manifest) (hname : loaded.packageName = loaded'.packageName)
    (hversion : loaded.packageVersion = loaded'.packageVersion) : loaded = loaded' := by
  refine toResolvable_injective ?_
  have hdigest : loaded.digest = loaded'.digest := by
    rw [loaded.digest_eq, loaded'.digest_eq, hmanifest, hname, hversion]
  rw [toResolvable, toResolvable, hmanifest, hname, hversion, hdigest]

/-- What the generators read and the source digest leaves out is the same. -/
structure SameUndigested (input input' : GeneratorInput N sha256Hex) : Prop where
  fragments : ∀ loaded ∈ input.installed, ∀ path, schemaFragmentOf loaded.manifest = some path →
    path ≠ [] → input.fragmentText loaded.packageName path =
      input'.fragmentText loaded.packageName path
  provenance : ∀ key, InsertionMap.get input.presetProvenance key =
    InsertionMap.get input'.presetProvenance key
  presets : input.presetSummary.map (fun p => (p.id, p.contributes)) =
    input'.presetSummary.map fun p => (p.id, p.contributes)
  references : ∀ ref loaded loaded', InsertionMap.get input.manifests.byRef ref = some loaded →
    InsertionMap.get input'.manifests.byRef ref = some loaded' →
      loaded.packageName = loaded'.packageName
  members : ∀ loaded ∈ input.loaded, ∀ loaded' ∈ input'.loaded,
    canonicalReading loaded.manifest.toJson = canonicalReading loaded'.manifest.toJson →
      loaded.manifest = loaded'.manifest

variable {app app' : AppRoot N sha256Hex}
  {fragmentText fragmentText' : JsString → JsString → Option JsString} {version version' : JsString}
  {input input' : GeneratorInput N sha256Hex}

/-- Manifests with one digest have one canonical reading. -/
lemma reading_of_digest (hinj : Injective sha256Hex) {loaded loaded' : LoadedPluginManifest N sha256Hex}
    (h : loaded.digest = loaded'.digest) :
    canonicalReading loaded.manifest.toJson = canonicalReading loaded'.manifest.toJson := by
  rw [loaded.digest_eq, loaded'.digest_eq] at h
  have hreading := canonicalReading_eq (canonicalJsonString_eq_of_manifestDigest_eq hinj
    (show PluginManifest.manifestDigest sha256Hex (resolvedManifest loaded.manifest.toJson _ _) =
      PluginManifest.manifestDigest sha256Hex (resolvedManifest loaded'.manifest.toJson _ _) from h))
  have hmanifest := congrArg (field (js "manifest")) hreading
  rw [field_resolvedManifest _ _ _ (by decide), field_resolvedManifest _ _ _ (by decide)] at hmanifest
  exact Option.some.inj hmanifest

/-- Under every reference both inputs have the same manifest. -/
lemma byRef_eq (hinj : Injective sha256Hex) (h : generatorInput app fragmentText version = .ok input)
    (h' : generatorInput app' fragmentText' version' = .ok input')
    (hcovered : SameCoveredSources input input') (hsame : SameUndigested input input') :
    input.manifests.byRef = input'.manifests.byRef := by
  obtain ⟨hmanifests, -⟩ := generatorInput_ok h
  obtain ⟨hmanifests', hpasses'⟩ := generatorInput_ok h'
  have hkeys : keys input.manifests.byRef = keys input'.manifests.byRef := by
    have hmissing := generatorInput_missing h
    have hmissing' := generatorInput_missing h'
    rw [hmanifests] at hmissing ⊢
    rw [hmanifests'] at hmissing' ⊢
    rw [keys_readManifestsFor hmissing, keys_readManifestsFor hmissing', hcovered.plugins]
  have hget : ∀ ref, InsertionMap.get input.manifests.byRef ref =
      InsertionMap.get input'.manifests.byRef ref := by
    intro ref
    cases hfound : InsertionMap.get input.manifests.byRef ref with
    | none =>
      rw [get_eq_none, hkeys, ← get_eq_none] at hfound
      exact hfound.symm
    | some loaded =>
      obtain ⟨loaded', hfound'⟩ : ∃ loaded', InsertionMap.get input'.manifests.byRef ref =
          some loaded' := by
        rw [← Option.isSome_iff_exists, Option.isSome_iff_ne_none, ne_eq, get_eq_none, ← hkeys,
          ← get_eq_none, hfound]
        simp
      have hmem : loaded ∈ input.loaded := List.mem_map.mpr ⟨_, mem_of_get hfound, rfl⟩
      have hmem' : loaded' ∈ input'.loaded := List.mem_map.mpr ⟨_, mem_of_get hfound', rfl⟩
      have hname := hsame.references ref loaded loaded' hfound hfound'
      have hlisted : loadedDigest loaded ∈ (sortBy (·.packageName) input'.loaded).map loadedDigest :=
        hcovered.manifests ▸ List.mem_map_of_mem (mem_sortBy.mpr hmem)
      obtain ⟨twin, htwin, hdigests⟩ := List.mem_map.mp hlisted
      simp only [loadedDigest, Prod.mk.injEq] at hdigests
      obtain ⟨htwinName, htwinVersion, htwinDigest⟩ := hdigests
      obtain rfl : twin = loaded' := loaded_unique hpasses' (mem_sortBy.mp htwin) hmem'
        (htwinName.trans hname)
      have hmanifest := hsame.members loaded hmem twin hmem'
        (reading_of_digest hinj htwinDigest.symm)
      rw [hfound', loaded_eq hmanifest hname htwinVersion.symm]
  exact eq_of_get_eq input.manifests.nodup hkeys hget

omit [JsonNumber N] in
lemma presetSummary_eq {presets presets' : List PresetSummary}
    (hversions : presets.map (fun p => (p.package, p.version)) =
      presets'.map fun p => (p.package, p.version))
    (hids : presets.map (fun p => (p.id, p.contributes)) =
      presets'.map fun p => (p.id, p.contributes)) : presets = presets' := by
  have hall : Function.Injective fun p : PresetSummary =>
      ((p.package, p.version), (p.id, p.contributes)) := by
    rintro ⟨package, version, id, contributes⟩ ⟨package', version', id', contributes'⟩ h
    simp only [Prod.mk.injEq] at h
    obtain ⟨⟨rfl, rfl⟩, rfl, rfl⟩ := h
    rfl
  have hzip : ∀ ps : List PresetSummary,
      ps.map (fun p => ((p.package, p.version), (p.id, p.contributes))) =
        (ps.map fun p => (p.package, p.version)).zip (ps.map fun p => (p.id, p.contributes)) :=
    fun ps => List.zip_map'.symm
  refine List.map_injective_iff.mpr hall ?_
  rw [hzip, hzip, hversions, hids]

/-- What a resolution gives depends on the manifests under the references alone. -/
lemma graph_congr {plugins : List PluginInventoryEntry} {manifests manifests' : ManifestSet N sha256Hex}
    (h : manifests.byRef = manifests'.byRef) :
    (cliOptions plugins manifests AMBIENT_CAPABILITIES).graph sha256Hex =
      (cliOptions plugins manifests' AMBIENT_CAPABILITIES).graph sha256Hex := by
  obtain ⟨byRef, missing, nodup⟩ := manifests
  obtain ⟨byRef', missing', nodup'⟩ := manifests'
  obtain rfl : byRef = byRef' := h
  rfl

end Agreement

section Generated

/-- All that the generators read of an input. -/
structure SameSources (input input' : GeneratorInput N sha256Hex) : Prop where
  plugins : input.plugins = input'.plugins
  byRef : input.manifests.byRef = input'.manifests.byRef
  graph : input.graph = input'.graph
  generatedBy : input.generatedBy = input'.generatedBy
  digest : sourceDigest input = sourceDigest input'
  presets : input.presetSummary = input'.presetSummary
  provenance : ∀ key, InsertionMap.get input.presetProvenance key =
    InsertionMap.get input'.presetProvenance key
  fragments : ∀ loaded ∈ input.installed, ∀ path, schemaFragmentOf loaded.manifest = some path →
    path ≠ [] → input.fragmentText loaded.packageName path =
      input'.fragmentText loaded.packageName path

variable {input input' : GeneratorInput N sha256Hex}

lemma SameSources.installed (h : SameSources input input') : input.installed = input'.installed := by
  have hloaded : input.loaded = input'.loaded := by
    rw [GeneratorInput.loaded, h.byRef, GeneratorInput.loaded]
  simp only [GeneratorInput.installed, GeneratorInput.manifestOf, hloaded, h.graph]

lemma SameSources.catalog (h : SameSources input input') :
    Generators.generateCatalog input = Generators.generateCatalog input' := by
  have hloaded : loadedEntries input = loadedEntries input' := by
    rw [loadedEntries, loadedEntries, h.plugins, h.byRef]
  have hentry : ∀ entry loaded, Generators.catalogEntry input entry loaded =
      Generators.catalogEntry input' entry loaded := by
    intro entry loaded
    simp only [Generators.catalogEntry, h.graph, h.provenance]
  simp only [Generators.generateCatalog, Generators.catalogDocument, Generators.catalogEntries,
    hloaded, hentry, h.generatedBy, h.digest, h.graph, h.presets]

lemma SameSources.composition (h : SameSources input input') (toUpperCase : JsString → JsString) :
    Generators.generateComposition toUpperCase input =
      Generators.generateComposition toUpperCase input' := by
  simp only [Generators.generateComposition, Generators.compositionLines,
    Generators.packagesInOrder, h.graph, h.plugins, h.generatedBy, h.digest]

lemma SameSources.permissions (h : SameSources input input') :
    Generators.permissionArtifact input = Generators.permissionArtifact input' := by
  simp only [Generators.permissionArtifact, Generators.desiredJson,
    Permissions.generatePermissionPlan, Permissions.desiredPermissionsFrom, h.installed,
    h.generatedBy, h.digest]

/-- A package contributes the same, fragment included. -/
lemma SameSources.contributions (h : SameSources input input') :
    Prisma.collectContributions input = Prisma.collectContributions input' := by
  unfold Prisma.collectContributions
  rw [← h.installed]
  congr 1
  refine List.filterMap_congr fun loaded hloaded => ?_
  cases hfacet : loaded.manifest.facets.prisma with
  | none => rfl
  | some facet =>
    have hfragment : ((textMember facet (js "schemaFragment")).filter (· ≠ [])).bind
          (input.fragmentText loaded.packageName) =
        ((textMember facet (js "schemaFragment")).filter (· ≠ [])).bind
          (input'.fragmentText loaded.packageName) := by
      cases hpath : (textMember facet (js "schemaFragment")).filter (· ≠ []) with
      | none => rfl
      | some path =>
        obtain ⟨hdeclared, hne⟩ := Option.filter_eq_some_iff.mp hpath
        have hread : schemaFragmentOf loaded.manifest = some path := by
          rw [schemaFragmentOf, hfacet]
          exact hdeclared
        exact h.fragments loaded hloaded path hread (of_decide_eq_true hne)
    simp only [Option.map_some, Prisma.contributionOf, hfragment]

lemma SameSources.schema (h : SameSources input input')
    (localeCompare : JsString → JsString → Ordering) :
    Prisma.generatePrismaSchema localeCompare input =
      Prisma.generatePrismaSchema localeCompare input' := by
  simp only [Prisma.generatePrismaSchema, Prisma.compose, h.contributions, Prisma.schemaText,
    h.digest]

/-- The frontend artefacts come from the facets of the active plugins, under one banner. -/
lemma SameSources.frontend (h : SameSources input input') :
    Frontend.getActiveFrontendPlugins input = Frontend.getActiveFrontendPlugins input' ∧
      Frontend.banner input = Frontend.banner input' := by
  have hplugin : ∀ i, Frontend.activeFrontendPlugin input i =
      Frontend.activeFrontendPlugin input' i := by
    intro i
    rw [Frontend.activeFrontendPlugin, h.byRef, Frontend.activeFrontendPlugin]
  constructor
  · simp only [Frontend.getActiveFrontendPlugins, h.graph]
    refine List.filterMap_congr fun key _ => ?_
    cases input'.graph.instances.find? (fun candidate => candidate.key = key) with
    | none => rfl
    | some i => exact hplugin i
  · rw [Frontend.banner, Frontend.banner, h.digest, h.graph]

variable [LinearOrder N] [Zero N]

/-- Inputs that agree on all of it get the same artefacts. -/
lemma SameSources.generateAll (h : SameSources input input')
    (localeCompare : JsString → JsString → Ordering) (toUpperCase : JsString → JsString) :
    Generators.generateAll localeCompare toUpperCase input =
      Generators.generateAll localeCompare toUpperCase input' := by
  obtain ⟨hactive, hbanner⟩ := h.frontend
  have hnavigation : Frontend.generateFrontendNavigation localeCompare input =
      Frontend.generateFrontendNavigation localeCompare input' := by
    simp only [Frontend.generateFrontendNavigation, Frontend.rawItems, hactive, hbanner]
  have hroutes : Frontend.generateFrontendAdminRoutes localeCompare toUpperCase input =
      Frontend.generateFrontendAdminRoutes localeCompare toUpperCase input' := by
    simp only [Frontend.generateFrontendAdminRoutes, Frontend.adminRoutes, Frontend.declaredPages,
      hactive, hbanner]
  have hslots : Frontend.generateFrontendSlots localeCompare input =
      Frontend.generateFrontendSlots localeCompare input' := by
    simp only [Frontend.generateFrontendSlots, Frontend.sortedSlotGroups, Frontend.slotGroups,
      Frontend.slotContributions, hactive, hbanner]
  have hi18n : Frontend.generateFrontendI18n localeCompare input =
      Frontend.generateFrontendI18n localeCompare input' := by
    simp only [Frontend.generateFrontendI18n, Frontend.i18nNamespaces, Frontend.declaredNamespaces,
      hactive, hbanner]
  simp only [Generators.generateAll, Generators.GENERATORS, List.mapM_cons, List.mapM_nil,
    h.catalog, h.composition toUpperCase, h.schema localeCompare, h.permissions, hnavigation,
    hroutes, hslots, hi18n]

variable {app app' : AppRoot N sha256Hex}
  {fragmentText fragmentText' : JsString → JsString → Option JsString} {version version' : JsString}

/-- The source digest determines the artefacts together with what it leaves out. -/
theorem sourceDigest_determines (hinj : Injective sha256Hex)
    (h : generatorInput app fragmentText version = .ok input)
    (h' : generatorInput app' fragmentText' version' = .ok input')
    (hby : input.generatedBy = input'.generatedBy)
    (hdigest : sourceDigest input = sourceDigest input') (hsame : SameUndigested input input')
    (localeCompare : JsString → JsString → Ordering) (toUpperCase : JsString → JsString) :
    Generators.generateAll localeCompare toUpperCase input =
      Generators.generateAll localeCompare toUpperCase input' := by
  have hcovered := sameCoveredSources_of_digest hinj hdigest
  have hbyRef := byRef_eq hinj h h' hcovered hsame
  have hgraph : input.graph = input'.graph := by
    rw [(generatorInput_ok h).2.graph_eq, (generatorInput_ok h').2.graph_eq, hcovered.plugins]
    exact graph_congr hbyRef
  have hpresets := presetSummary_eq hcovered.presets hsame.presets
  exact SameSources.generateAll ⟨hcovered.plugins, hbyRef, hgraph, hby, hdigest, hpresets,
    hsame.provenance, hsame.fragments⟩ localeCompare toUpperCase

/-- An App with one plugin that ships the models of a fragment. -/
def fragmentApp : AppRoot ℤ (fun text => text) :=
  installedApp _ [Prisma.prismaManifest (js "a") (Prisma.ownerFacet (some (js "user.prisma")))]
    [enabledEntry (js "@x/a")]

/-- A package with this text in its fragment. -/
def shipped (text : JsString) (path : JsString) : Option JsString :=
  if path = js "user.prisma" then some text else none

def oldModel : JsString := js "model User \x7b\n  id Int @id\n\x7d\n"

def newModel : JsString := js "model User \x7b\n  id Int @id\n  name String\n\x7d\n"

lemma generatorInput_fragmentApp {generation : GenerationInput ℤ (fun text => text)}
    (h : buildInput fragmentApp = .ok generation)
    (fragmentText : JsString → JsString → Option JsString) :
    generatorInput fragmentApp fragmentText (js "1") =
      .ok ⟨generation, ⟨CLI_TOOL_NAME, js "1"⟩, fragmentText⟩ := by
  rw [generatorInput, h]
  rfl

/-- Files of a package that no manifest names do not matter. -/
theorem sourceDigest_determines_fragment : ∃ input input',
    generatorInput fragmentApp (fun _ => shipped oldModel) (js "1") = .ok input ∧
    generatorInput fragmentApp (fun _ _ => some oldModel) (js "1") = .ok input' ∧
    Generators.generateAll Prisma.compareUnits (fun text => text) input =
      Generators.generateAll Prisma.compareUnits (fun text => text) input' := by
  have hread : (buildInput fragmentApp).toOption.map (fun generation =>
      (generation.manifests.byRef.map fun e => schemaFragmentOf e.2.manifest)) =
        some [some (js "user.prisma")] := by
    decide +kernel
  cases hbuild : buildInput fragmentApp with
  | error refused =>
    rw [hbuild] at hread
    cases hread
  | ok generation =>
    have hinput := generatorInput_fragmentApp hbuild
    rw [hbuild] at hread
    obtain ⟨entry, hbyRef, hfragment⟩ := List.map_eq_singleton_iff.mp (Option.some.inj hread)
    refine ⟨_, _, hinput _, hinput _, ?_⟩
    have hold := hinput fun _ => shipped oldModel
    refine sourceDigest_determines (fun _ _ _ _ h => h) hold (hinput fun _ _ => some oldModel)
      rfl rfl ?_ _ _
    refine ⟨fun loaded hloaded path hpath _ => ?_, fun _ => rfl, rfl, ?_, ?_⟩
    · have hmem := ((mem_installed (generatorInput_ok hold).2).mp hloaded).1
      simp only [GeneratorInput.loaded, hbyRef, List.map_cons, List.map_nil,
        List.mem_singleton] at hmem
      rw [hmem, hfragment] at hpath
      exact if_pos (Option.some.inj hpath).symm
    · intro ref loaded loaded' hfound hfound'
      rw [Option.some.inj (hfound.symm.trans hfound')]
    · intro loaded hloaded loaded' hloaded' _
      simp only [GeneratorInput.loaded, hbyRef, List.map_cons, List.map_nil,
        List.mem_singleton] at hloaded hloaded'
      rw [hloaded, hloaded']

section Fragments

variable {generation : GenerationInput N sha256Hex} {generatedBy : GeneratedBy}
  {read read' : JsString → JsString → Option JsString}
  {localeCompare : JsString → JsString → Ordering} {toUpperCase : JsString → JsString}

lemma generateAll_ok {artifacts : List GeneratedArtifact}
    (h : Generators.generateAll localeCompare toUpperCase input = .ok artifacts) :
    ∃ navigation routes slots i18n,
      Frontend.generateFrontendNavigation localeCompare input = .ok navigation ∧
      Frontend.generateFrontendAdminRoutes localeCompare toUpperCase input = .ok routes ∧
      Frontend.generateFrontendSlots localeCompare input = .ok slots ∧
      Frontend.generateFrontendI18n localeCompare input = .ok i18n ∧
      artifacts = sortBy (·.path) [Generators.generateCatalog input,
        Generators.generateComposition toUpperCase input,
        Prisma.generatePrismaSchema localeCompare input, Generators.permissionArtifact input,
        navigation, routes, slots, i18n] := by
  obtain ⟨unsorted, hall, rfl⟩ := map_eq_ok.mp h
  simp only [Generators.GENERATORS, List.mapM_cons, List.mapM_nil, bind_eq_ok, pure, Except.pure,
    Except.ok.injEq, exists_eq_left'] at hall
  obtain ⟨_, ⟨_, ⟨_, ⟨_, ⟨navigation, hnavigation, _, ⟨routes, hroutes, _, ⟨slots, hslots, _,
    ⟨i18n, hi18n, rfl⟩, rfl⟩, rfl⟩, rfl⟩, rfl⟩, rfl⟩, rfl⟩, rfl⟩ := hall
  exact ⟨navigation, routes, slots, i18n, hnavigation, hroutes, hslots, hi18n, rfl⟩

/-- The fragments show in the schema alone. -/
lemma schema_of_generateAll
    (hok : (Generators.generateAll localeCompare toUpperCase
      ⟨generation, generatedBy, read⟩).isOk = true)
    (h : Generators.generateAll localeCompare toUpperCase ⟨generation, generatedBy, read⟩ =
      Generators.generateAll localeCompare toUpperCase ⟨generation, generatedBy, read'⟩) :
    Prisma.generatePrismaSchema localeCompare ⟨generation, generatedBy, read⟩ =
      Prisma.generatePrismaSchema localeCompare ⟨generation, generatedBy, read'⟩ := by
  cases hall : Generators.generateAll localeCompare toUpperCase ⟨generation, generatedBy, read⟩ with
  | error thrown =>
    rw [hall] at hok
    cases hok
  | ok artifacts =>
    obtain ⟨navigation, routes, slots, i18n, hnavigation, hroutes, hslots, hi18n, rfl⟩ :=
      generateAll_ok hall
    obtain ⟨navigation', routes', slots', i18n', hnavigation', hroutes', hslots', hi18n', hsorted⟩ :=
      generateAll_ok (h.symm.trans hall)
    obtain rfl : navigation = navigation' := Except.ok.inj (hnavigation.symm.trans hnavigation')
    obtain rfl : routes = routes' := Except.ok.inj (hroutes.symm.trans hroutes')
    obtain rfl : slots = slots' := Except.ok.inj (hslots.symm.trans hslots')
    obtain rfl : i18n = i18n' := Except.ok.inj (hi18n.symm.trans hi18n')
    have hperm := ((sortBy_perm _ _).symm.trans (List.Perm.of_eq hsorted)).trans (sortBy_perm _ _)
    have hrest := ((List.perm_cons _).mp ((List.perm_cons _).mp hperm))
    exact List.singleton_perm_singleton.mp ((List.perm_append_right_iff _).mp hrest)

omit [LinearOrder N] [Zero N] in
/-- The source digest covers no fragment. -/
lemma sourceDigest_fragments : sourceDigest ⟨generation, generatedBy, read⟩ =
    sourceDigest ⟨generation, generatedBy, read'⟩ := rfl

omit [LinearOrder N] [Zero N] in
/-- What composes to one schema under one digest of the plan has the same sections. -/
lemma sections_of_schema {old new : List Prisma.PrismaContribution}
    (hold : Prisma.collectContributions ⟨generation, generatedBy, read⟩ = old)
    (hnew : Prisma.collectContributions ⟨generation, generatedBy, read'⟩ = new)
    (hclean : hasErrors (Prisma.validateContributions old) = false)
    (hclean' : hasErrors (Prisma.validateContributions new) = false)
    (hdigest : Prisma.schemaDigest localeCompare sha256Hex old =
      Prisma.schemaDigest localeCompare sha256Hex new)
    (h : Prisma.generatePrismaSchema localeCompare ⟨generation, generatedBy, read⟩ =
      Prisma.generatePrismaSchema localeCompare ⟨generation, generatedBy, read'⟩) :
    join [Prisma.lineFeed] (Prisma.sections localeCompare old) =
      join [Prisma.lineFeed] (Prisma.sections localeCompare new) := by
  have hcontents := congrArg (·.contents) h
  simp only [Prisma.generatePrismaSchema, Prisma.compose, hold, hnew, hclean, hclean',
    Bool.false_eq_true, if_false, Option.getD_some, Prisma.schemaText, hdigest] at hcontents
  rw [@sourceDigest_fragments _ _ _ generation generatedBy read read'] at hcontents
  exact List.append_cancel_left hcontents

end Fragments

/-- The two texts compose, to different sections under one digest of the plan. -/
def FragmentsDiffer (generation : GenerationInput ℤ (fun text => text)) (generatedBy : GeneratedBy) :
    Prop :=
  let old := Prisma.collectContributions ⟨generation, generatedBy, fun _ => shipped oldModel⟩
  let new := Prisma.collectContributions ⟨generation, generatedBy, fun _ => shipped newModel⟩
  hasErrors (Prisma.validateContributions old) = false ∧
    hasErrors (Prisma.validateContributions new) = false ∧
    Prisma.schemaDigest Prisma.compareUnits (fun text => text) old =
      Prisma.schemaDigest Prisma.compareUnits (fun text => text) new ∧
    join [Prisma.lineFeed] (Prisma.sections Prisma.compareUnits old) ≠
      join [Prisma.lineFeed] (Prisma.sections Prisma.compareUnits new)

instance (generation : GenerationInput ℤ (fun text => text)) (generatedBy : GeneratedBy) :
    Decidable (FragmentsDiffer generation generatedBy) :=
  inferInstanceAs (Decidable (_ ∧ _ ∧ _ ∧ _))

/-- Another text in a fragment gives another schema under the same digest. -/
theorem sourceDigest_misses_fragment : Injective (fun text => text) ∧ ∃ input input',
    generatorInput fragmentApp (fun _ => shipped oldModel) (js "1") = .ok input ∧
    generatorInput fragmentApp (fun _ => shipped newModel) (js "1") = .ok input' ∧
    input.generatedBy = input'.generatedBy ∧ sourceDigest input = sourceDigest input' ∧
    Generators.generateAll Prisma.compareUnits (fun text => text) input ≠
      Generators.generateAll Prisma.compareUnits (fun text => text) input' := by
  have hread : (buildInput fragmentApp).toOption.any (fun generation =>
      decide (FragmentsDiffer generation ⟨CLI_TOOL_NAME, js "1"⟩) &&
        (Generators.generateAll Prisma.compareUnits (fun text => text)
          ⟨generation, ⟨CLI_TOOL_NAME, js "1"⟩, fun _ => shipped oldModel⟩).isOk) = true := by
    decide +kernel
  obtain ⟨generation, hbuild⟩ : ∃ generation, buildInput fragmentApp = .ok generation := by
    cases hbuild : buildInput fragmentApp with
    | error refused =>
      rw [hbuild] at hread
      cases hread
    | ok generation => exact ⟨generation, rfl⟩
  have hinput := generatorInput_fragmentApp hbuild
  rw [hbuild] at hread
  obtain ⟨hdiffer, hok⟩ := (Bool.and_eq_true _ _).mp hread
  obtain ⟨hclean, hclean', hdigest, hsections⟩ := of_decide_eq_true hdiffer
  refine ⟨fun _ _ _ _ h => h, _, _, hinput _, hinput _, rfl, sourceDigest_fragments, ?_⟩
  intro hsame
  exact hsections (sections_of_schema rfl rfl hclean hclean' hdigest
    (schema_of_generateAll hok hsame))

end Generated

end Appspine.Generate
