import Appspine.LoadedManifests

/-!
# Bare and scoped references

An inventory may name an official package by its package name or by its bare plugin id. A manifest
is loaded once for each reference, so a package that is named in both forms is loaded twice, and
the resolver takes the two loads for two packages.
-/
namespace Appspine.Resolver
open JsText StableSort InsertionMap JsonText PluginManifest

variable {N Obj Obj' : Type} [DecidableEq Obj] [DecidableEq Obj'] [JsonNumber N]
  {sha256Hex : JsString → JsString} {options : ResolveOptions N Obj}
  {options' : ResolveOptions N Obj'}

section Relabelled

lemma exists_related {α β : Type} {R : α → β → Prop} {xs : List α} {ys : List β} {x : α}
    (h : List.Forall₂ R xs ys) (hx : x ∈ xs) : ∃ y ∈ ys, R x y := by
  induction h with
  | nil => exact absurd hx List.not_mem_nil
  | cons hhead _ ih =>
    rcases List.mem_cons.mp hx with rfl | hx
    · exact ⟨_, List.mem_cons_self, hhead⟩
    · obtain ⟨y, hy, hrelated⟩ := ih hx
      exact ⟨y, List.mem_cons_of_mem _ hy, hrelated⟩

lemma forall₂_imp_of_mem {α β : Type} {R S : α → β → Prop} {xs : List α} {ys : List β}
    (h : List.Forall₂ R xs ys) (himp : ∀ x y, x ∈ xs → R x y → S x y) : List.Forall₂ S xs ys := by
  induction h with
  | nil => exact .nil
  | cons hhead _ ih =>
    exact .cons (himp _ _ List.mem_cons_self hhead)
      (ih fun x y hx => himp x y (List.mem_cons_of_mem _ hx))

/-- The same entry under another reference. -/
structure SameButRef (e e' : PluginInventoryEntry) : Prop where
  instanceId : e'.instanceId = e.instanceId
  enabled : e'.enabled = e.enabled
  required : e'.required = e.required
  configRef : e'.configRef = e.configRef

/-- The same input under other references, each of which finds the manifest of the old one. -/
structure Relabelled (options : ResolveOptions N Obj) (options' : ResolveOptions N Obj') :
    Prop where
  inventory : List.Forall₂ (fun e e' => SameButRef e e' ∧ options'.lookup e' = options.lookup e)
    options.inventory options'.inventory
  hosts : options'.hosts = options.hosts
  scope : options'.scope = options.scope

lemma SameButRef.instanceIdOf {e e' : PluginInventoryEntry} (h : SameButRef e e') :
    instanceIdOf e' = instanceIdOf e := by
  rw [Resolver.instanceIdOf, h.instanceId, Resolver.instanceIdOf]

omit [JsonNumber N] in
lemma SameButRef.keyOf {e e' : PluginInventoryEntry} (h : SameButRef e e')
    (found : ResolvableManifest N) : keyOf found e' = keyOf found e := by
  rw [Resolver.keyOf, h.instanceIdOf, Resolver.keyOf]

lemma SameButRef.buildInstance {e e' : PluginInventoryEntry} (h : SameButRef e e')
    (found : ResolvableManifest N) :
    buildInstance sha256Hex found e' = buildInstance sha256Hex found e := by
  simp only [Resolver.buildInstance, h.keyOf, h.instanceIdOf, h.required, h.configRef]

omit [JsonNumber N] in
lemma SameButRef.disabledInstance {e e' : PluginInventoryEntry} (h : SameButRef e e')
    (found : ResolvableManifest N) : disabledInstance found e' = disabledInstance found e := by
  simp only [Resolver.disabledInstance, h.keyOf, h.instanceIdOf]

omit [JsonNumber N] in
lemma SameButRef.entryDiagnostics {e e' : PluginInventoryEntry} (h : SameButRef e e')
    (scope : JsString) (found : ResolvableManifest N) :
    entryDiagnostics scope found e' = entryDiagnostics scope found e := by
  simp only [Resolver.entryDiagnostics, optionalWithoutPolicy, configRefMismatch, appLocalClaim,
    h.keyOf, h.instanceIdOf, h.required, h.configRef]

variable {lookup lookup' : PluginInventoryEntry → Option (ResolvableManifest N)}
  {entries entries' : List PluginInventoryEntry}

/-- The entries of two such inventories resolve to the same instances. -/
lemma instances_relabelled
    (h : List.Forall₂ (fun e e' => SameButRef e e' ∧ lookup' e' = lookup e) entries entries') :
    enabledInstances sha256Hex lookup' entries' = enabledInstances sha256Hex lookup entries ∧
      disabledInstances lookup' entries' = disabledInstances lookup entries ∧
      entryKeys lookup' entries' = entryKeys lookup entries := by
  induction h with
  | nil => exact ⟨rfl, rfl, rfl⟩
  | @cons e e' _ _ hhead _ ih =>
    obtain ⟨henabled, hdisabled, hkeys⟩ := ih
    obtain ⟨hsame, hlookup⟩ := hhead
    simp only [enabledInstances, disabledInstances, entryKeys, resolvedEntries,
      List.filterMap_cons] at henabled hdisabled hkeys ⊢
    rw [hlookup]
    cases lookup e with
    | none => exact ⟨henabled, hdisabled, hkeys⟩
    | some found =>
      simp only [Option.map_some, List.filter_cons, hsame.enabled, List.map_cons, hsame.keyOf,
        hkeys, and_true]
      cases e.enabled with
      | false =>
        simp only [Bool.false_eq_true, if_false, Bool.not_false, if_true, List.map_cons,
          hsame.disabledInstance, hdisabled, henabled, and_self]
      | true =>
        simp only [if_true, Bool.not_true, Bool.false_eq_true, if_false, List.map_cons,
          hsame.buildInstance, henabled, hdisabled, and_self]

omit [JsonNumber N] in
lemma acceptable_relabelled {scope : JsString}
    (h : List.Forall₂ (fun e e' => SameButRef e e' ∧ lookup' e' = lookup e) entries entries')
    (ha : Acceptable scope lookup entries)
    (hkeys : entryKeys lookup' entries' = entryKeys lookup entries) :
    Acceptable scope lookup' entries' := by
  have hback := fun e' => @exists_related _ _ _ _ _ e' h.flip
  refine ⟨fun e' he' => ?_, hkeys ▸ ha.distinctKeys, fun p hp henabled => ?_⟩
  · obtain ⟨e, he, -, hlookup⟩ := hback e' he'
    exact hlookup ▸ ha.known e he
  · obtain ⟨found, e'⟩ := p
    obtain ⟨he', hfound⟩ := mem_resolvedEntries.mp hp
    obtain ⟨e, he, hsame, hlookup⟩ := hback e' he'
    rw [hsame.entryDiagnostics]
    exact ha.clean (found, e) (mem_resolvedEntries.mpr ⟨he, hlookup ▸ hfound⟩)
      (hsame.enabled.symm.trans henabled)

lemma Relabelled.enabled (h : Relabelled options options') :
    (options.enabled sha256Hex).Perm (options'.enabled sha256Hex) := by
  have hentries : options.entries.Perm options.inventory := sortBy_perm _ _
  have hentries' : options'.entries.Perm options'.inventory := sortBy_perm _ _
  have hsame := (@instances_relabelled N _ sha256Hex _ _ _ _ h.inventory).1
  exact (((resolvedEntries_perm hentries).filter _).map _).trans
    ((List.Perm.of_eq hsame.symm).trans (((resolvedEntries_perm hentries').filter _).map _).symm)

lemma Relabelled.disabled (h : Relabelled options options') :
    (disabledInstances options.lookup options.entries).Perm
      (disabledInstances options'.lookup options'.entries) := by
  have hentries : options.entries.Perm options.inventory := sortBy_perm _ _
  have hentries' : options'.entries.Perm options'.inventory := sortBy_perm _ _
  have hsame := (@instances_relabelled N _ (fun text => text) _ _ _ _ h.inventory).2.1
  exact (((resolvedEntries_perm hentries).filter _).map _).trans
    ((List.Perm.of_eq hsame.symm).trans (((resolvedEntries_perm hentries').filter _).map _).symm)

lemma Relabelled.accepts (h : Relabelled options options') (ha : Accepts options sha256Hex)
    (hu : Unambiguous options'.read options'.manifests) : Accepts options' sha256Hex where
  unambiguous := hu
  acceptable := by
    rw [h.scope]
    exact acceptable_relabelled h.inventory ha.acceptable
      (@instances_relabelled N _ sha256Hex _ _ _ _ h.inventory).2.2
  linked := by
    rw [h.hosts, ← hasErrors_perm (linkDiagnostics_perm (SameCore.of_perm h.enabled)
      (uniformCardinality ha.unambiguous) _)]
    exact ha.linked

/-- The graph is the same, but for the order in which its diagnostics were found. -/
lemma Relabelled.graph (h : Relabelled options options') (ha : Accepts options sha256Hex) :
    options'.graph sha256Hex = { options.graph sha256Hex with
      diagnostics :=
        sortDiagnostics (linkDiagnostics options'.hosts (options'.enabled sha256Hex)) } := by
  rw [ResolveOptions.graph, ResolveOptions.graph, ← assemble_diagnostics, h.hosts]
  exact (assemble_eq (nodup_enabled sha256Hex ha) h.enabled h.disabled (nodup_disabled ha) _).symm

end Relabelled

end Appspine.Resolver

namespace Appspine.ManifestSource
open JsText StableSort InsertionMap JsonText PluginManifest Appspine.Composition Commands
open Inventory (pluginIdOf)
open Resolver hiding DEFAULT_OFFICIAL_SCOPE

variable {N : Type} [JsonNumber N] {sha256Hex : JsString → JsString}

section Locate

def DEFAULT_OFFICIAL_SCOPE : JsString := js "@appspine"

structure ManifestLookupOptions where
  localPluginDirs : List JsString
  officialScope : Option JsString

/-- A path under a directory, both without `.` and `..`. -/
def inDir (dir name : JsString) : JsString := dir ++ unit '/' :: name

def MODULES : JsString := js "node_modules"

/-- The directories, relative to the App, where a reference is looked for. -/
def candidateDirs (ref : JsString) (options : ManifestLookupOptions) : List JsString :=
  (if startsWith ref (js "@") then [inDir MODULES ref]
    else [inDir (inDir MODULES (options.officialScope.getD DEFAULT_OFFICIAL_SCOPE)) ref,
      inDir MODULES ref]) ++
    options.localPluginDirs.map fun dir => inDir dir (pluginIdOf ref)

/-- The directories with an `appspine.plugin.json`, and what `loadPluginManifest` makes of each. -/
abbrev Installed (N : Type) [JsonNumber N] (sha256Hex : JsString → JsString) :=
  JsString → Option (Except (List PluginDiagnostic)
    (LoadedPluginManifest N sha256Hex × List PluginDiagnostic))

def packageNotFound (ref : JsString) (searched : List JsString) : PluginDiagnostic :=
  diagnostic (js "plugin-package-not-found")
    (js "no appspine.plugin.json for " ++ quoted ref ++ js ". Looked in: " ++
      join (js ", ") searched ++ js ". Install the package first") none none (some ref)

/-- The manifest in the first of the directories that has one. -/
def readManifestFor (installed : Installed N sha256Hex) (options : ManifestLookupOptions)
    (ref : JsString) : Except (List PluginDiagnostic)
      (LoadedPluginManifest N sha256Hex × List PluginDiagnostic) :=
  ((candidateDirs ref options).findSome? installed).getD
    (.error [packageNotFound ref (candidateDirs ref options)])

/-- The App with these packages, looked up as the commands do. -/
def withInstalled (app : AppRoot N sha256Hex) (installed : Installed N sha256Hex) :
    AppRoot N sha256Hex :=
  { app with
    readManifestFor := readManifestFor installed { localPluginDirs := [], officialScope := none } }

end Locate

section Loads

variable {plugins : List PluginInventoryEntry} {manifests manifests' : ManifestSet N sha256Hex}
  {hosts : List JsString}

/-- No reference is claimed by two loads, be they of one package or of two. -/
lemma unambiguous_iff :
    Unambiguous (cliOptions plugins manifests hosts).read
        (cliOptions plugins manifests hosts).manifests ↔
      ∀ e ∈ manifests.byRef, ∀ e' ∈ manifests.byRef, ∀ ref, ref ∈ refsOf (toResolvable e.2) →
        ref ∈ refsOf (toResolvable e'.2) → e = e' := by
  have hread : ∀ o : Fin (manifests.byRef.map fun e => toResolvable e.2).length,
      ∃ i : Fin manifests.byRef.length, i.val = o.val ∧
        (cliOptions plugins manifests hosts).read o = toResolvable (manifests.byRef.get i).2 := by
    intro o
    refine ⟨⟨o.val, by simpa using o.isLt⟩, rfl, ?_⟩
    simp [cliOptions, resolveRecords]
  have hnodup : manifests.byRef.Nodup := List.Nodup.of_map _ manifests.nodup
  constructor
  · intro h e he e' he' ref href href'
    obtain ⟨i, rfl⟩ := List.mem_iff_get.mp he
    obtain ⟨j, rfl⟩ := List.mem_iff_get.mp he'
    obtain ⟨o, ho⟩ : ∃ o : Fin (manifests.byRef.map fun e => toResolvable e.2).length,
        o.val = i.val := ⟨⟨i.val, by simp⟩, rfl⟩
    obtain ⟨o', ho'⟩ : ∃ o : Fin (manifests.byRef.map fun e => toResolvable e.2).length,
        o.val = j.val := ⟨⟨j.val, by simp⟩, rfl⟩
    obtain ⟨i', hi', hfound⟩ := hread o
    obtain ⟨j', hj', hfound'⟩ := hread o'
    obtain rfl : i' = i := Fin.ext (hi'.trans ho)
    obtain rfl : j' = j := Fin.ext (hj'.trans ho')
    have hsame : o = o' := h (ref, o) (mem_claims.mpr ⟨List.mem_finRange o, hfound ▸ href⟩) (ref, o')
      (mem_claims.mpr ⟨List.mem_finRange o', hfound' ▸ href'⟩) rfl
    rw [show i' = j' from Fin.ext (hi'.trans ((congrArg Fin.val hsame).trans hj'.symm))]
  · rintro h ⟨ref, o⟩ hc ⟨ref', o'⟩ hd (rfl : ref = ref')
    obtain ⟨-, href⟩ := mem_claims.mp hc
    obtain ⟨-, href'⟩ := mem_claims.mp hd
    obtain ⟨i, hi, hfound⟩ := hread o
    obtain ⟨j, hj, hfound'⟩ := hread o'
    rw [hfound] at href
    rw [hfound'] at href'
    have hij := h _ (List.get_mem _ _) _ (List.get_mem _ _) ref href href'
    have hsame := congrArg Fin.val (hnodup.get_inj_iff.mp hij)
    exact Fin.ext (hi.symm.trans (hsame.trans hj))

/-- What a reference finds: the one load that claims it. -/
lemma get_index_read {found : ResolvableManifest N} {ref : JsString}
    (hu : Unambiguous (cliOptions plugins manifests hosts).read
      (cliOptions plugins manifests hosts).manifests) :
    (InsertionMap.get (cliOptions plugins manifests hosts).index.1 ref).map
        (cliOptions plugins manifests hosts).read = some found ↔
      ref ∈ refsOf found ∧ found ∈ manifests.byRef.map fun e => toResolvable e.2 := by
  rw [Option.map_eq_some_iff]
  constructor
  · rintro ⟨o, ho, rfl⟩
    exact ⟨((get_index hu).mp ho).2, List.get_mem _ _⟩
  · rintro ⟨href, hmem⟩
    obtain ⟨o, rfl⟩ := List.mem_iff_get.mp hmem
    exact ⟨o, (get_index hu).mpr ⟨List.mem_finRange o, href⟩, rfl⟩

lemma lookup_eq (entry : PluginInventoryEntry) :
    (cliOptions plugins manifests hosts).lookup entry =
      ((InsertionMap.get (cliOptions plugins manifests hosts).index.1 entry.plugin).map
        (cliOptions plugins manifests hosts).read).or
      ((InsertionMap.get (cliOptions plugins manifests hosts).index.1
        (inventoryPluginIdOf entry.plugin)).map (cliOptions plugins manifests hosts).read) := by
  rw [ResolveOptions.lookup, findManifest, Option.map_or]

/-- Two unambiguous sets of the same manifests find the same. -/
lemma get_index_congr {plugins' : List PluginInventoryEntry} {ref : JsString}
    (hu : Unambiguous (cliOptions plugins manifests hosts).read
      (cliOptions plugins manifests hosts).manifests)
    (hu' : Unambiguous (cliOptions plugins' manifests' hosts).read
      (cliOptions plugins' manifests' hosts).manifests)
    (hsame : ∀ found, found ∈ manifests'.byRef.map (fun e => toResolvable e.2) ↔
      found ∈ manifests.byRef.map fun e => toResolvable e.2) :
    (InsertionMap.get (cliOptions plugins' manifests' hosts).index.1 ref).map
        (cliOptions plugins' manifests' hosts).read =
      (InsertionMap.get (cliOptions plugins manifests hosts).index.1 ref).map
        (cliOptions plugins manifests hosts).read := by
  ext found
  rw [get_index_read hu, get_index_read hu', hsame]

end Loads

section Forms

def officialRef (id : JsString) : JsString := inDir DEFAULT_OFFICIAL_SCOPE id

/-- The package is installed where the official one with this id belongs, and is that package. -/
structure Official (installed : Installed N sha256Hex) (id : JsString)
    (loaded : LoadedPluginManifest N sha256Hex) : Prop where
  found : ∃ diagnostics, installed (inDir MODULES (officialRef id)) = some (.ok (loaded, diagnostics))
  packageName : loaded.packageName = officialRef id
  id_eq : loaded.manifest.id = id
  bare : startsWith id (js "@") = false

/-- Two references to one installed official package, in different forms. -/
inductive EquivalentForm (installed : Installed N sha256Hex) : JsString → JsString → Prop
  | toScoped {id loaded} (h : Official installed id loaded) :
    EquivalentForm installed id (officialRef id)
  | toBare {id loaded} (h : Official installed id loaded) :
    EquivalentForm installed (officialRef id) id

/-- The entry as it was, or with the equivalent form of its reference. -/
def Replaced (installed : Installed N sha256Hex) (entry entry' : PluginInventoryEntry) : Prop :=
  entry' = entry ∨
    ∃ ref', EquivalentForm installed entry.plugin ref' ∧ entry' = { entry with plugin := ref' }

/-- No official package is referenced both by its name and by its id. -/
def OneForm (installed : Installed N sha256Hex) (refs : List JsString) : Prop :=
  ∀ id loaded, Official installed id loaded → id ∈ refs → officialRef id ∉ refs

/-- The references load, and the inventory resolves to the graph. -/
def Resolved (app : AppRoot N sha256Hex) (plugins : List PluginInventoryEntry)
    (graph : ResolutionGraph N) : Prop :=
  (resolveInventory plugins (readManifestsFor app (plugins.map (·.plugin))).toManifestSet
    AMBIENT_CAPABILITIES).graph = some graph

variable {installed : Installed N sha256Hex} {app : AppRoot N sha256Hex} {id ref ref' : JsString}
  {loaded : LoadedPluginManifest N sha256Hex}

omit [JsonNumber N] in
lemma startsWith_officialRef (id : JsString) : startsWith (officialRef id) (js "@") = true := by
  simp [officialRef, inDir, DEFAULT_OFFICIAL_SCOPE, startsWith, js]

lemma officialRef_injective : Function.Injective officialRef := by
  intro id id' h
  simpa [officialRef, inDir] using h

lemma Official.ne (h : Official installed id loaded) (id' : JsString) : id ≠ officialRef id' := by
  intro heq
  have hbare := h.bare
  rw [heq, startsWith_officialRef] at hbare
  cases hbare

/-- Both forms are looked for in the same directory first. -/
lemma Official.read (h : Official installed id loaded) (href : ref = id ∨ ref = officialRef id) :
    ∃ diagnostics, (withInstalled app installed).readManifestFor ref = .ok (loaded, diagnostics) := by
  obtain ⟨diagnostics, hfound⟩ := h.found
  have hdir : inDir (inDir MODULES DEFAULT_OFFICIAL_SCOPE) id = inDir MODULES (officialRef id) := by
    simp [inDir, officialRef]
  refine ⟨diagnostics, ?_⟩
  rcases href with rfl | rfl
  · simp [withInstalled, ManifestSource.readManifestFor, candidateDirs, h.bare, hdir, hfound]
  · simp [withInstalled, ManifestSource.readManifestFor, candidateDirs, startsWith_officialRef,
      hfound]

lemma EquivalentForm.symm (h : EquivalentForm installed ref ref') :
    EquivalentForm installed ref' ref := by
  cases h with
  | toScoped h => exact .toBare h
  | toBare h => exact .toScoped h

lemma EquivalentForm.unique {ref'' : JsString} (h : EquivalentForm installed ref ref')
    (h' : EquivalentForm installed ref ref'') : ref' = ref'' := by
  cases h with
  | toScoped h =>
    cases h' with
    | toScoped => rfl
    | toBare => exact absurd rfl (h.ne _)
  | toBare h =>
    generalize hname : officialRef ref' = name at h'
    cases h' with
    | toScoped h' => exact absurd hname.symm (h'.ne _)
    | toBare => exact officialRef_injective hname

/-- Equivalent forms load the same manifest, which claims both of them. -/
lemma EquivalentForm.read (h : EquivalentForm installed ref ref') :
    ∃ loaded, ref ∈ refsOf (toResolvable loaded) ∧ ref' ∈ refsOf (toResolvable loaded) ∧
      (∃ diagnostics, (withInstalled app installed).readManifestFor ref =
        .ok (loaded, diagnostics)) ∧
      ∃ diagnostics, (withInstalled app installed).readManifestFor ref' =
        .ok (loaded, diagnostics) := by
  cases h with
  | @toScoped id loaded h =>
    refine ⟨loaded, ?_, ?_, h.read (.inl rfl), h.read (.inr rfl)⟩
    · simp [refsOf, toResolvable, h.id_eq]
    · simp [refsOf, toResolvable, h.packageName]
  | @toBare id loaded h =>
    refine ⟨loaded, ?_, ?_, h.read (.inr rfl), h.read (.inl rfl)⟩
    · simp [refsOf, toResolvable, h.packageName]
    · simp [refsOf, toResolvable, h.id_eq]

section Replacing

variable {plugins plugins' : List PluginInventoryEntry}

/-- The manifests loaded for an inventory. -/
abbrev loadedFor (app : AppRoot N sha256Hex) (plugins : List PluginInventoryEntry) :
    LoadedManifests N sha256Hex :=
  readManifestsFor app (plugins.map (·.plugin))

lemma mem_byRef {entry : JsString × LoadedPluginManifest N sha256Hex} :
    entry ∈ (loadedFor app plugins).byRef ↔ entry.1 ∈ plugins.map (·.plugin) ∧
      ∃ diagnostics, app.readManifestFor entry.1 = .ok (entry.2, diagnostics) := by
  rw [← Generate.get_readManifestsFor]
  exact ⟨get_of_mem (loadedFor app plugins).nodup, mem_of_get⟩

lemma Replaced.symm {entry entry' : PluginInventoryEntry} (h : Replaced installed entry entry') :
    Replaced installed entry' entry := by
  rcases h with rfl | ⟨ref', hform, rfl⟩
  · exact .inl rfl
  · exact .inr ⟨entry.plugin, hform.symm, rfl⟩

lemma forall₂_symm (h : List.Forall₂ (Replaced installed) plugins plugins') :
    List.Forall₂ (Replaced installed) plugins' plugins :=
  List.Forall₂.flip (h.imp fun _ _ hentry => Replaced.symm hentry)

/-- Every reference of the one inventory is one of the other, or the equivalent form of one. -/
lemma ref_source (h : List.Forall₂ (Replaced installed) plugins plugins')
    (href : ref ∈ plugins.map (·.plugin)) :
    ∃ ref' ∈ plugins'.map (·.plugin), ref' = ref ∨ EquivalentForm installed ref ref' := by
  obtain ⟨entry, hentry, rfl⟩ := List.mem_map.mp href
  obtain ⟨entry', hentry', rfl | ⟨ref', hform, rfl⟩⟩ := exists_related h hentry
  · exact ⟨_, List.mem_map_of_mem hentry', .inl rfl⟩
  · exact ⟨ref', List.mem_map.mpr ⟨_, hentry', rfl⟩, .inr hform⟩

/-- What a reference loads, its equivalent form loads. -/
lemma read_form (hform : ref' = ref ∨ EquivalentForm installed ref ref')
    (h : ∃ diagnostics, (withInstalled app installed).readManifestFor ref =
      .ok (loaded, diagnostics)) :
    ∃ diagnostics, (withInstalled app installed).readManifestFor ref' =
      .ok (loaded, diagnostics) := by
  rcases hform with rfl | hform
  · exact h
  · obtain ⟨loaded', -, -, ⟨_, hread⟩, hread'⟩ :=
      @EquivalentForm.read N _ sha256Hex installed app _ _ hform
    obtain ⟨_, h⟩ := h
    rw [hread] at h
    obtain ⟨rfl, -⟩ := Prod.mk.inj (Except.ok.inj h)
    exact hread'

/-- The same manifests are loaded, under whichever references. -/
lemma loaded_source (h : List.Forall₂ (Replaced installed) plugins plugins')
    {entry : JsString × LoadedPluginManifest N sha256Hex}
    (hentry : entry ∈ (loadedFor (withInstalled app installed) plugins).byRef) :
    ∃ ref', (ref', entry.2) ∈ (loadedFor (withInstalled app installed) plugins').byRef ∧
      (ref' = entry.1 ∨ EquivalentForm installed entry.1 ref') := by
  obtain ⟨hmem, hread⟩ := mem_byRef.mp hentry
  obtain ⟨ref', hmem', hform⟩ := ref_source h hmem
  exact ⟨ref', mem_byRef.mpr ⟨hmem', read_form hform hread⟩, hform⟩

lemma mem_loaded_iff (h : List.Forall₂ (Replaced installed) plugins plugins')
    (found : ResolvableManifest N) :
    found ∈ (loadedFor (withInstalled app installed) plugins').byRef.map
        (fun e => toResolvable e.2) ↔
      found ∈ (loadedFor (withInstalled app installed) plugins).byRef.map
        fun e => toResolvable e.2 := by
  have hsource : ∀ {plugins plugins'}, List.Forall₂ (Replaced installed) plugins plugins' →
      found ∈ (loadedFor (withInstalled app installed) plugins).byRef.map
        (fun e => toResolvable e.2) →
      found ∈ (loadedFor (withInstalled app installed) plugins').byRef.map
        fun e => toResolvable e.2 := by
    intro plugins plugins' h hfound
    obtain ⟨entry, hentry, rfl⟩ := List.mem_map.mp hfound
    obtain ⟨ref', hmem', -⟩ := loaded_source h hentry
    exact List.mem_map.mpr ⟨_, hmem', rfl⟩
  exact ⟨hsource (forall₂_symm h), hsource h⟩

/-- Every reference of the replaced inventory loads. -/
lemma missing_eq_nil (h : List.Forall₂ (Replaced installed) plugins plugins')
    (hmissing : (loadedFor (withInstalled app installed) plugins).missing = []) :
    (loadedFor (withInstalled app installed) plugins').missing = [] := by
  apply List.eq_nil_iff_forall_not_mem.mpr
  intro ref' hmem'
  obtain ⟨href', diagnostics', herror⟩ := Generate.mem_missing.mp hmem'
  obtain ⟨ref, href, hform⟩ := ref_source (forall₂_symm h) href'
  cases hread : (withInstalled app installed).readManifestFor ref with
  | error diagnostics =>
    have hmem := Generate.mem_missing.mpr ⟨href, diagnostics, hread⟩
    rw [hmissing] at hmem
    exact absurd hmem List.not_mem_nil
  | ok read =>
    have hform' : ref' = ref ∨ EquivalentForm installed ref ref' := by
      rcases hform with rfl | hform
      · exact .inl rfl
      · exact .inr hform.symm
    obtain ⟨_, hread'⟩ := @read_form N _ sha256Hex installed app _ _ _ hform' ⟨read.2, hread⟩
    rw [hread'] at herror
    cases herror

/-- What the CLI resolves an inventory with. -/
abbrev formOptions (app : AppRoot N sha256Hex) (plugins : List PluginInventoryEntry) :
    ResolveOptions N
      (Fin ((loadedFor app plugins).byRef.map (fun e => toResolvable e.2)).length) :=
  cliOptions plugins (loadedFor app plugins).toManifestSet AMBIENT_CAPABILITIES

/-- Without a package in both forms, no reference has two loads to choose from. -/
lemma unambiguous_of_oneForm (h : List.Forall₂ (Replaced installed) plugins plugins')
    (hu : Unambiguous (formOptions (withInstalled app installed) plugins).read
      (formOptions (withInstalled app installed) plugins).manifests)
    (hone : OneForm installed (plugins'.map (·.plugin))) :
    Unambiguous (formOptions (withInstalled app installed) plugins').read
      (formOptions (withInstalled app installed) plugins').manifests := by
  rw [unambiguous_iff] at hu ⊢
  rintro ⟨ref, loaded⟩ hentry ⟨ref', loaded'⟩ hentry' claim hclaim hclaim'
  obtain ⟨ref₀, hmem, hform⟩ := loaded_source (forall₂_symm h) hentry
  obtain ⟨ref₀', hmem', hform'⟩ := loaded_source (forall₂_symm h) hentry'
  obtain ⟨rfl, rfl⟩ := Prod.mk.inj (hu _ hmem _ hmem' claim hclaim hclaim')
  have href := (mem_byRef.mp hentry).1
  have href' := (mem_byRef.mp hentry').1
  have hnot : ¬ EquivalentForm installed ref ref' := by
    intro hboth
    cases hboth with
    | toScoped hofficial => exact hone _ _ hofficial href href'
    | toBare hofficial => exact hone _ _ hofficial href' href
  suffices ref = ref' by rw [this]
  rcases hform with rfl | hform
  · rcases hform' with rfl | hform'
    · rfl
    · exact absurd hform'.symm hnot
  · rcases hform' with rfl | hform'
    · exact absurd hform hnot
    · exact hform.symm.unique hform'.symm

/-- A package in both forms is loaded twice, and each load claims its id. -/
lemma oneForm_of_unambiguous
    (hu : Unambiguous (formOptions (withInstalled app installed) plugins).read
      (formOptions (withInstalled app installed) plugins).manifests) :
    OneForm installed (plugins.map (·.plugin)) := by
  intro id loaded hofficial hbare hscoped
  have hmem : (id, loaded) ∈ (loadedFor (withInstalled app installed) plugins).byRef :=
    mem_byRef.mpr ⟨hbare, hofficial.read (.inl rfl)⟩
  have hmem' : (officialRef id, loaded) ∈ (loadedFor (withInstalled app installed) plugins).byRef :=
    mem_byRef.mpr ⟨hscoped, hofficial.read (.inr rfl)⟩
  have hclaim : id ∈ refsOf (toResolvable loaded) := by
    simp [refsOf, toResolvable, hofficial.id_eq]
  have hsame := unambiguous_iff.mp hu _ hmem _ hmem' id hclaim hclaim
  exact hofficial.ne id (congrArg Prod.fst hsame)

/-- Either form of a reference finds the manifest of the package. -/
lemma lookup_replaced {entry entry' : PluginInventoryEntry}
    (h : List.Forall₂ (Replaced installed) plugins plugins')
    (hu : Unambiguous (formOptions (withInstalled app installed) plugins).read
      (formOptions (withInstalled app installed) plugins).manifests)
    (hu' : Unambiguous (formOptions (withInstalled app installed) plugins').read
      (formOptions (withInstalled app installed) plugins').manifests)
    (hentry : entry ∈ plugins) (hreplaced : Replaced installed entry entry') :
    (formOptions (withInstalled app installed) plugins').lookup entry' =
      (formOptions (withInstalled app installed) plugins).lookup entry := by
  have hget : ∀ ref, _ := fun ref =>
    @get_index_congr N _ sha256Hex plugins _ _ AMBIENT_CAPABILITIES plugins' ref hu hu'
      (mem_loaded_iff h)
  rw [lookup_eq, lookup_eq, hget, hget]
  rcases hreplaced with rfl | ⟨ref', hform, rfl⟩
  · rfl
  · obtain ⟨loaded, hclaim, hclaim', hread, -⟩ :=
      @EquivalentForm.read N _ sha256Hex installed app _ _ hform
    have hmem : (entry.plugin, loaded) ∈ (loadedFor (withInstalled app installed) plugins).byRef :=
      mem_byRef.mpr ⟨List.mem_map_of_mem hentry, hread⟩
    have hfound : toResolvable loaded ∈ (loadedFor (withInstalled app installed)
        plugins).byRef.map (fun e => toResolvable e.2) := List.mem_map.mpr ⟨_, hmem, rfl⟩
    rw [(get_index_read hu).mpr ⟨hclaim, hfound⟩, (get_index_read hu).mpr ⟨hclaim', hfound⟩,
      Option.some_or, Option.some_or]

lemma relabelled (h : List.Forall₂ (Replaced installed) plugins plugins')
    (hu : Unambiguous (formOptions (withInstalled app installed) plugins).read
      (formOptions (withInstalled app installed) plugins).manifests)
    (hu' : Unambiguous (formOptions (withInstalled app installed) plugins').read
      (formOptions (withInstalled app installed) plugins').manifests) :
    Relabelled (formOptions (withInstalled app installed) plugins)
      (formOptions (withInstalled app installed) plugins') where
  inventory := by
    refine forall₂_imp_of_mem h fun entry entry' hentry hreplaced => ⟨?_, ?_⟩
    · rcases hreplaced with rfl | ⟨ref', -, rfl⟩
      · exact ⟨rfl, rfl, rfl, rfl⟩
      · exact ⟨rfl, rfl, rfl, rfl⟩
    · exact lookup_replaced h hu hu' hentry hreplaced
  hosts := rfl
  scope := rfl

/-- **An accepted inventory keeps its resolution under other forms of its references exactly when
no official package ends up in both forms.** -/
theorem reference_form_iff {graph : ResolutionGraph N}
    (hresolved : Resolved (withInstalled app installed) plugins graph)
    (h : List.Forall₂ (Replaced installed) plugins plugins') :
    (∃ graph', Resolved (withInstalled app installed) plugins' graph' ∧
        graph'.order = graph.order ∧ graph'.providers = graph.providers ∧
        graph'.disabled = graph.disabled) ↔
      OneForm installed (plugins'.map (·.plugin)) := by
  obtain ⟨hmissing, haccepts, rfl⟩ := resolveInventory_graph.mp hresolved
  constructor
  · rintro ⟨graph', hresolved', -⟩
    obtain ⟨-, haccepts', -⟩ := resolveInventory_graph.mp hresolved'
    exact oneForm_of_unambiguous haccepts'.unambiguous
  · intro hone
    have hu' := unambiguous_of_oneForm h haccepts.unambiguous hone
    have hrelabelled := relabelled h haccepts.unambiguous hu'
    refine ⟨_, resolveInventory_graph.mpr
      ⟨missing_eq_nil h hmissing, hrelabelled.accepts haccepts hu', rfl⟩, ?_⟩
    rw [hrelabelled.graph haccepts]
    exact ⟨rfl, rfl, rfl⟩

def officialPlain : LoadedPluginManifest ℤ (fun text => text) :=
  .ofManifest _ { plainManifest (js "a") [] [] with cardinality := .multiple }
    (officialRef (js "a")) (js "1")

/-- The official package `a`, which an App may have several instances of. -/
def installedPlain : Installed ℤ (fun text => text) := fun dir =>
  if dir = inDir MODULES (officialRef (js "a")) then some (.ok (officialPlain, [])) else none

lemma official_plain : Official installedPlain (js "a") officialPlain where
  found := ⟨[], if_pos rfl⟩
  packageName := rfl
  id_eq := rfl
  bare := by decide

def twoInstances (ref : JsString) : List PluginInventoryEntry :=
  [enabledEntry (officialRef (js "a")), { enabledEntry ref with instanceId := js "hr" }]

/-- The App of the examples; only its installed packages are read. -/
def officialApp : AppRoot ℤ (fun text => text) :=
  withInstalled (Generate.installedApp _ [] []) installedPlain

/-- The two instances of an official package resolve when both entries take its bare id. -/
theorem reference_form_bare : ∃ graph graph' : ResolutionGraph ℤ,
    Resolved officialApp (twoInstances (officialRef (js "a"))) graph ∧
    Resolved officialApp
      [enabledEntry (js "a"), { enabledEntry (js "a") with instanceId := js "hr" }] graph' ∧
    graph'.order = graph.order := by
  obtain ⟨graph, hgraph⟩ : ∃ graph,
      Resolved officialApp (twoInstances (officialRef (js "a"))) graph :=
    Option.isSome_iff_exists.mp (by decide +kernel)
  obtain ⟨graph', hgraph', horder, -⟩ := (reference_form_iff hgraph
    (.cons (.inr ⟨js "a", .toBare official_plain, rfl⟩)
      (.cons (.inr ⟨js "a", .toBare official_plain, rfl⟩) .nil))).mpr (by
    intro id loaded _ _ hscoped
    have hbare : ∀ ref ∈ [js "a", js "a"], startsWith ref (js "@") = false := by decide
    have hstart := hbare (officialRef id) hscoped
    rw [startsWith_officialRef] at hstart
    cases hstart)
  exact ⟨graph, graph', hgraph, hgraph', horder⟩

/-- An accepted inventory is refused once one of its two entries has the bare id. -/
theorem reference_form_mixed :
    (∃ graph, Resolved officialApp (twoInstances (officialRef (js "a"))) graph) ∧
      List.Forall₂ (Replaced installedPlain) (twoInstances (officialRef (js "a")))
        (twoInstances (js "a")) ∧
      ¬ ∃ graph, Resolved officialApp (twoInstances (js "a")) graph := by
  refine ⟨Option.isSome_iff_exists.mp (by decide +kernel),
    .cons (.inl rfl) (.cons (.inr ⟨js "a", .toBare official_plain, rfl⟩) .nil), ?_⟩
  rintro ⟨graph, hgraph⟩
  have hnone : (resolveInventory (twoInstances (js "a"))
      (loadedFor officialApp (twoInstances (js "a"))).toManifestSet
      AMBIENT_CAPABILITIES).graph.isSome = false := by decide +kernel
  rw [Resolved] at hgraph
  rw [hgraph] at hnone
  cases hnone

end Replacing

end Forms

end Appspine.ManifestSource
