import Appspine.Results
import Appspine.FrontendEntries
import Appspine.LoadedManifests
import Appspine.CompositionDigest

/-!
# Frontend facets and instances

A facet is collected for every instance whose package the inventory refers to by its name. What a
package declares is written exactly once when it has one such instance; the rest of the conditions
is about the order in which items are put.
-/
namespace Appspine.Frontend
open JsText StableSort InsertionMap JsonText PluginManifest Resolver Commands Generate
open Prisma (sortWith lineFeed)
open Results (map_eq_ok exists_map_eq_ok)

variable {N : Type} [JsonNumber N] {sha256Hex : JsString → JsString}

section Served

variable {app : AppRoot N sha256Hex} {fragmentText : JsString → JsString → Option JsString}
  {version : JsString} {input : GeneratorInput N sha256Hex}

/-- A directory of `node_modules` holds the package of its name; a bare reference is looked for in
the official scope first. -/
def InstalledUnderName (app : AppRoot N sha256Hex) : Prop :=
  ∀ ref loaded diagnostics, app.readManifestFor ref = .ok (loaded, diagnostics) →
    loaded.packageName = ref ∨
      (startsWith ref (js "@") = false ∧ loaded.packageName = js "@appspine/" ++ ref)

/-- The manifests that the instances are served with, in their order. -/
def served (input : GeneratorInput N sha256Hex) : List (LoadedPluginManifest N sha256Hex) :=
  input.graph.instances.filterMap (fun i => InsertionMap.get input.manifests.byRef i.packageName)

/-- What is read for the name of a package is the manifest of that package. -/
lemma found_eq (happ : InstalledUnderName app)
    (h : generatorInput app fragmentText version = .ok input)
    {loaded found : LoadedPluginManifest N sha256Hex} (hloaded : loaded ∈ input.loaded)
    (hfound : InsertionMap.get input.manifests.byRef loaded.packageName = some found) :
    found = loaded := by
  obtain ⟨hmanifests, hpasses⟩ := generatorInput_ok h
  have hmem : found ∈ input.loaded := List.mem_map.mpr ⟨_, mem_of_get hfound, rfl⟩
  obtain ⟨⟨ref, loaded⟩, hentry, rfl⟩ := List.mem_map.mp hloaded
  have hget : InsertionMap.get input.manifests.byRef ref = some loaded :=
    get_of_mem input.manifests.nodup hentry
  have hread := hfound
  have hread' := hget
  rw [hmanifests, get_readManifestsFor] at hread hread'
  obtain ⟨_, diagnostics, hread⟩ := hread
  obtain ⟨_, diagnostics', hread'⟩ := hread'
  rcases happ _ _ _ hread with hname | ⟨hbare, _⟩
  · exact loaded_unique hpasses hmem (List.mem_map.mpr ⟨_, hentry, rfl⟩) hname
  · rcases happ _ _ _ hread' with hname | ⟨_, hname⟩
    · simp only at hfound
      rw [hname, hget] at hfound
      exact (Option.some.inj hfound).symm
    · simp only at hbare
      rw [hname] at hbare
      cases hbare

lemma served_installed (happ : InstalledUnderName app)
    (h : generatorInput app fragmentText version = .ok input) :
    ∀ loaded ∈ served input, loaded ∈ input.installed := by
  obtain ⟨_, hpasses⟩ := generatorInput_ok h
  intro found hfound
  obtain ⟨i, hi, hget⟩ := List.mem_filterMap.mp hfound
  obtain ⟨loaded, hloaded, _, hname, _⟩ := exists_loaded hpasses hi
  rw [← hname] at hget
  obtain rfl := found_eq happ h hloaded hget
  exact (mem_installed hpasses).mpr ⟨hloaded, i, hi, hname.symm⟩

lemma length_filterMap_const {α β : Type*} (p : α → Bool) (o : Option β) (xs : List α) :
    (xs.filterMap (fun x => if p x then o else none)).length =
      if o.isSome then (xs.filter p).length else 0 := by
  induction xs with
  | nil => cases o <;> rfl
  | cons x xs ih =>
    rw [List.filterMap_cons, List.filter_cons]
    cases hp : p x <;> cases o <;> simp_all

/-- A package is served once when the inventory refers to it by name and it has one instance. -/
lemma served_once_iff (happ : InstalledUnderName app)
    (h : generatorInput app fragmentText version = .ok input)
    {loaded : LoadedPluginManifest N sha256Hex} (hloaded : loaded ∈ input.installed) :
    ((served input).filter (fun s => s.packageName = loaded.packageName)).length = 1 ↔
      InsertionMap.get input.manifests.byRef loaded.packageName = some loaded ∧
        (input.graph.instances.filter (fun i => i.packageName = loaded.packageName)).length = 1 := by
  obtain ⟨_, hpasses⟩ := generatorInput_ok h
  have hmem := ((mem_installed hpasses).mp hloaded).1
  have hfilter : (served input).filter (fun s => s.packageName = loaded.packageName) =
      input.graph.instances.filterMap (fun i => if decide (i.packageName = loaded.packageName) then
        InsertionMap.get input.manifests.byRef loaded.packageName else none) := by
    rw [served, List.filter_filterMap]
    refine List.filterMap_congr fun i hi => ?_
    obtain ⟨own, hown, _, hname, _⟩ := exists_loaded hpasses hi
    by_cases heq : i.packageName = loaded.packageName
    · rw [heq, decide_eq_true rfl, if_pos rfl]
      cases hget : InsertionMap.get input.manifests.byRef loaded.packageName with
      | none => rfl
      | some found =>
        obtain rfl := found_eq happ h hmem hget
        simp
    · rw [decide_eq_false heq]
      cases hget : InsertionMap.get input.manifests.byRef i.packageName with
      | none => rfl
      | some found =>
        rw [← hname] at hget heq
        obtain rfl := found_eq happ h hown hget
        simp [heq]
  rw [hfilter, length_filterMap_const]
  cases hget : InsertionMap.get input.manifests.byRef loaded.packageName with
  | none => simp
  | some found =>
    obtain rfl := found_eq happ h hmem hget
    simp

end Served

section Declared

variable [Zero N] (toUpperCase : JsString → JsString)

/-- The admin pages that a package declares. -/
def pagesOf (loaded : LoadedPluginManifest N sha256Hex) : List (AdminRoute N) :=
  (frontendOf loaded.manifest).elim []
    (adminPagesOf toUpperCase loaded.manifest.id loaded.packageName)

def itemsOf (loaded : LoadedPluginManifest N sha256Hex) : List (NavigationItem N) :=
  (frontendOf loaded.manifest).elim [] (navigationItemsOf loaded.manifest.id)

omit [Zero N] in
def namespacesOf (loaded : LoadedPluginManifest N sha256Hex) : List I18nNamespace :=
  ((frontendOf loaded.manifest).bind (i18nNamespaceOf loaded.manifest.id)).toList

variable {app : AppRoot N sha256Hex} {fragmentText : JsString → JsString → Option JsString}
  {version : JsString} {input : GeneratorInput N sha256Hex}

omit [JsonNumber N] [Zero N] in
lemma filterMap_find_key {β : Type*} {instances : List (ResolvedPluginInstance N)}
    (hnodup : (instances.map (·.key)).Nodup) (f : ResolvedPluginInstance N → Option β) :
    (instances.map (·.key)).filterMap (fun key =>
      (instances.find? (fun candidate => candidate.key = key)).bind f) = instances.filterMap f := by
  rw [List.filterMap_map]
  refine List.filterMap_congr fun i hi => ?_
  have hfind : instances.find? (fun candidate => candidate.key = i.key) = some i := by
    cases hfound : instances.find? (fun candidate => candidate.key = i.key) with
    | none => exact absurd (decide_eq_true rfl) (List.find?_eq_none.mp hfound i hi)
    | some j =>
      have hkey : j.key = i.key := by simpa using List.find?_some hfound
      rw [List.inj_on_of_nodup_map hnodup (List.mem_of_find?_eq_some hfound) hi hkey]
  rw [Function.comp_apply, hfind, Option.bind_some]

omit [Zero N] in
/-- What the active plugins declare is what the served manifests declare. -/
lemma flatMap_active {β : Type} (happ : InstalledUnderName app)
    (h : generatorInput app fragmentText version = .ok input)
    (g : ActiveFrontendPlugin N → List β) (f : LoadedPluginManifest N sha256Hex → List β)
    (hf : ∀ loaded, f loaded = (frontendOf loaded.manifest).elim [] (fun facet =>
      g { pluginId := loaded.manifest.id, packageName := loaded.packageName, facet := facet })) :
    (getActiveFrontendPlugins input).flatMap g = (served input).flatMap f := by
  obtain ⟨_, hpasses⟩ := generatorInput_ok h
  obtain ⟨horder, hnodup⟩ := order_eq hpasses
  have hflat : ∀ {γ : Type} (o : ResolvedPluginInstance N → Option γ) (k : γ → List β)
      (is : List (ResolvedPluginInstance N)),
      (is.filterMap o).flatMap k = is.flatMap (fun i => (o i).elim [] k) := by
    intro γ o k is
    induction is with
    | nil => rfl
    | cons i is ih =>
      rw [List.filterMap_cons, List.flatMap_cons, ← ih]
      cases o i <;> rfl
  rw [getActiveFrontendPlugins, horder, filterMap_find_key hnodup, hflat, served, hflat]
  refine List.flatMap_congr fun i hi => ?_
  obtain ⟨loaded, hloaded, _, hname, _, hid⟩ := exists_loaded hpasses hi
  rw [activeFrontendPlugin]
  cases hget : InsertionMap.get input.manifests.byRef i.packageName with
  | none => rfl
  | some found =>
    rw [← hname] at hget
    obtain rfl := found_eq happ h hloaded hget
    rw [Option.bind_some, Option.elim_some, hf, ← hid, ← hname]
    cases frontendOf found.manifest <;> rfl

lemma rawItems_eq (happ : InstalledUnderName app)
    (h : generatorInput app fragmentText version = .ok input) :
    rawItems input = (served input).flatMap itemsOf :=
  flatMap_active happ h _ itemsOf (fun _ => rfl)

lemma declaredPages_eq (happ : InstalledUnderName app)
    (h : generatorInput app fragmentText version = .ok input) :
    declaredPages toUpperCase input = (served input).flatMap (pagesOf toUpperCase) :=
  flatMap_active happ h _ (pagesOf toUpperCase) (fun _ => rfl)

omit [Zero N] in
lemma declaredNamespaces_eq (happ : InstalledUnderName app)
    (h : generatorInput app fragmentText version = .ok input) :
    declaredNamespaces input = (served input).flatMap namespacesOf := by
  have hflat : declaredNamespaces input = (getActiveFrontendPlugins input).flatMap
      (fun plugin => (i18nNamespaceOf plugin.pluginId plugin.facet).toList) := by
    rw [declaredNamespaces]
    induction getActiveFrontendPlugins input with
    | nil => rfl
    | cons plugin plugins ih =>
      rw [List.filterMap_cons, List.flatMap_cons, ← ih]
      cases i18nNamespaceOf plugin.pluginId plugin.facet <;> rfl
  rw [hflat]
  refine flatMap_active happ h _ namespacesOf fun loaded => ?_
  rw [namespacesOf]
  cases frontendOf loaded.manifest <;> rfl

end Declared

section Artifacts

variable {input : GeneratorInput N sha256Hex} {artifact : GeneratedArtifact}

lemma fixed_lines {interface : List JsString} (hsource : lineFeed ∉ sourceDigest input)
    (hdigest : lineFeed ∉ input.graph.digest)
    (hinterface : ∀ l ∈ interface ++ [js "]);", []],
      lineFeed ∉ l ∧ startsWith l (js "  \x7b ") = false) :
    ∀ l ∈ banner input ++ interface ++ [js "]);", []],
      lineFeed ∉ l ∧ startsWith l (js "  \x7b ") = false := by
  have hlabels : lineFeed ∉ js "// sourceDigest: " ∧ lineFeed ∉ js "// resolutionDigest: " := by
    decide
  have hbanner : ∀ l ∈ banner input, lineFeed ∉ l ∧ startsWith l (js "  \x7b ") = false := by
    intro l hl
    simp only [banner, List.mem_cons, List.not_mem_nil, or_false] at hl
    rcases hl with rfl | rfl | rfl | rfl | rfl | rfl
    · decide
    · decide
    · decide
    · exact ⟨by simp [hlabels.1, hsource], rfl⟩
    · exact ⟨by simp [hlabels.2, hdigest], rfl⟩
    · decide
  intro l hl
  rw [List.append_assoc, List.mem_append] at hl
  exact hl.elim (hbanner l) (hinterface l)

lemma navigationLine_spec (item : NavigationItem N) : lineFeed ∉ navigationLine item ∧
    ∃ fields, fields ≠ [] ∧
      navigationLine item = entryLine (textField (js "id") item.id :: fields) := by
  have hnames : lineFeed ∉ js "id" ∧ lineFeed ∉ js "title" ∧ lineFeed ∉ js "href" ∧
      lineFeed ∉ js "icon" ∧ lineFeed ∉ js "order" ∧ lineFeed ∉ js "section" ∧
      lineFeed ∉ js "requiredPermission" ∧ lineFeed ∉ js "pluginId" := by decide
  obtain ⟨hid, htitle, href, hicon, horder, hsection, hpermission, hplugin⟩ := hnames
  refine ⟨notMem_entryLine fun field hfield => ?_, _, List.cons_ne_nil _ _, rfl⟩
  simp only [List.mem_append, List.mem_cons, List.not_mem_nil, or_false] at hfield
  rcases hfield with ((((((rfl | rfl | rfl) | hfield) | rfl) | hfield) | hfield) | rfl)
  · exact notMem_textField hid _
  · exact notMem_textField htitle _
  · exact notMem_textField href _
  · exact notMem_optionalField hicon _ field hfield
  · exact notMem_numberField horder _
  · exact notMem_optionalField hsection _ field hfield
  · exact notMem_optionalField hpermission _ field hfield
  · exact notMem_textField hplugin _

lemma routeLine_spec (route : AdminRoute N) : lineFeed ∉ routeLine route ∧
    ∃ fields, fields ≠ [] ∧ routeLine route = entryLine (textField (js "id") route.id :: fields) := by
  have hnames : lineFeed ∉ js "id" ∧ lineFeed ∉ js "routePath" ∧ lineFeed ∉ js "title" ∧
      lineFeed ∉ js "componentExport" ∧ lineFeed ∉ js "packageName" ∧
      lineFeed ∉ js "requiredPermission" ∧ lineFeed ∉ js "breadcrumb" ∧ lineFeed ∉ js "order" ∧
      lineFeed ∉ js "pluginId" := by decide
  obtain ⟨hid, hpath, htitle, hcomponent, hpackage, hpermission, hbreadcrumb, horder, hplugin⟩ :=
    hnames
  refine ⟨notMem_entryLine fun field hfield => ?_, _, List.cons_ne_nil _ _, rfl⟩
  simp only [List.mem_append, List.mem_cons, List.not_mem_nil, or_false] at hfield
  rcases hfield with (((rfl | rfl | rfl | rfl | rfl) | hfield) | hfield) | rfl | rfl
  · exact notMem_textField hid _
  · exact notMem_textField hpath _
  · exact notMem_textField htitle _
  · exact notMem_textField hcomponent _
  · exact notMem_textField hpackage _
  · exact notMem_optionalField hpermission _ field hfield
  · exact notMem_optionalField hbreadcrumb _ field hfield
  · exact notMem_numberField horder _
  · exact notMem_textField hplugin _

lemma namespaceLine_spec (item : I18nNamespace) : lineFeed ∉ namespaceLine item ∧
    ∃ fields, fields ≠ [] ∧
      namespaceLine item = entryLine (textField (js "namespace") item.namespace_ :: fields) := by
  have hnames : lineFeed ∉ js "namespace" ∧ lineFeed ∉ js "pluginId" := by decide
  have hlocales : lineFeed ∉ js "locales: Object.freeze(" ∧ lineFeed ∉ js ")" ∧
      lineFeed ∉ js "," ∧ lineFeed ≠ unit '[' ∧ lineFeed ≠ unit ']' := by decide
  refine ⟨notMem_entryLine fun field hfield => ?_, _, List.cons_ne_nil _ _, rfl⟩
  simp only [List.mem_append, List.mem_cons, List.not_mem_nil, or_false, List.mem_map] at hfield
  rcases hfield with (rfl | rfl) | ⟨locales, _, rfl⟩
  · exact notMem_textField hnames.1 _
  · exact notMem_textField hnames.2 _
  · have hquoted : lineFeed ∉ join (js ",") (locales.map quote) := by
      refine notMem_join hlocales.2.2.1 fun part hpart => ?_
      obtain ⟨locale, _, rfl⟩ := List.mem_map.mp hpart
      exact notMem_quote locale
    simp only [brackets, List.mem_append, List.mem_cons, List.not_mem_nil, or_false, not_or]
    exact ⟨⟨hlocales.1, hlocales.2.2.2.1, hquoted, hlocales.2.2.2.2⟩, hlocales.2.1⟩

variable [LinearOrder N] [Zero N] {localeCompare : JsString → JsString → Ordering}
  {toUpperCase : JsString → JsString}

lemma navigation_isOk : (∃ navigation, generateFrontendNavigation localeCompare input =
    .ok navigation) ↔ Orderable NavigationItem.sortable (rawItems input) := by
  rw [generateFrontendNavigation, exists_map_eq_ok]
  exact sortWithDependencies_isOk

lemma navigation_entries (hsource : lineFeed ∉ sourceDigest input)
    (hdigest : lineFeed ∉ input.graph.digest)
    (h : generateFrontendNavigation localeCompare input = .ok artifact) :
    ∃ items : List (NavigationItem N), items.Perm (rawItems input) ∧ ∀ id,
      entriesNamed (js "id") id artifact.contents =
        (items.filter (fun item => item.id = id)).map navigationLine := by
  obtain ⟨items, hitems, rfl⟩ := map_eq_ok.mp h
  exact ⟨items, sortWithDependencies_perm hitems, fun id => entriesNamed_artifact
    navigationLine_spec (fixed_lines hsource hdigest (by decide)) (List.cons_ne_nil _ _)⟩

lemma adminRoutes_isOk : (∃ admin, generateFrontendAdminRoutes localeCompare toUpperCase input =
    .ok admin) ↔ ((declaredPages toUpperCase input).map (·.routePath)).Nodup ∧
      ((declaredPages toUpperCase input).map (·.id)).Nodup := by
  rw [generateFrontendAdminRoutes, exists_map_eq_ok, adminRoutes, exists_map_eq_ok]
  exact (foldlM_addRoute _).1

lemma adminRoutes_entries (hsource : lineFeed ∉ sourceDigest input)
    (hdigest : lineFeed ∉ input.graph.digest)
    (h : generateFrontendAdminRoutes localeCompare toUpperCase input = .ok artifact) :
    ∃ routes : List (AdminRoute N), routes.Perm (declaredPages toUpperCase input) ∧ ∀ id,
      entriesNamed (js "id") id artifact.contents =
        (routes.filter (fun route => route.id = id)).map routeLine := by
  obtain ⟨routes, hroutes, rfl⟩ := map_eq_ok.mp h
  obtain ⟨state, hstate, rfl⟩ := map_eq_ok.mp hroutes
  refine ⟨_, ?_, fun id => entriesNamed_artifact routeLine_spec
    (fixed_lines hsource hdigest (by decide)) (List.cons_ne_nil _ _)⟩
  rw [← (foldlM_addRoute _).2 state hstate]
  exact sortWith_perm _ _

omit [LinearOrder N] [Zero N] in
lemma i18n_isOk : (∃ i18n, generateFrontendI18n localeCompare input = .ok i18n) ↔
    ((declaredNamespaces input).map (·.namespace_)).Nodup := by
  rw [generateFrontendI18n, exists_map_eq_ok, i18nNamespaces, exists_map_eq_ok]
  exact (foldlM_addNamespace _).1

omit [LinearOrder N] [Zero N] in
lemma i18n_entries (hsource : lineFeed ∉ sourceDigest input)
    (hdigest : lineFeed ∉ input.graph.digest)
    (h : generateFrontendI18n localeCompare input = .ok artifact) :
    ∃ namespaces : List I18nNamespace, namespaces.Perm (declaredNamespaces input) ∧ ∀ ns,
      entriesNamed (js "namespace") ns artifact.contents =
        (namespaces.filter (fun item => item.namespace_ = ns)).map namespaceLine := by
  obtain ⟨namespaces, hnamespaces, rfl⟩ := map_eq_ok.mp h
  obtain ⟨state, hstate, rfl⟩ := map_eq_ok.mp hnamespaces
  refine ⟨_, ?_, fun ns => entriesNamed_artifact namespaceLine_spec
    (fixed_lines hsource hdigest (by decide)) (List.cons_ne_nil _ _)⟩
  rw [← (foldlM_addNamespace _).2 state hstate]
  exact sortWith_perm _ _

/-- The slots go through when those of each slot can be put in an order. -/
lemma slots_isOk : (∃ slots, generateFrontendSlots localeCompare input = .ok slots) ↔
    ∀ slot ∈ slotGroups input, Orderable SlotContribution.sortable slot.2 := by
  have hmap : ∀ groups : Entries JsString (List (SlotContribution N)),
      (∃ sorted, groups.mapM (fun slot =>
        (sortWithDependencies localeCompare SlotContribution.sortable slot.2).map
          (fun items => (slot.1, items))) = .ok sorted) ↔
        ∀ slot ∈ groups, Orderable SlotContribution.sortable slot.2 := by
    intro groups
    induction groups with
    | nil => simp [pure, Except.pure]
    | cons slot groups ih =>
      rw [List.mapM_cons, List.forall_mem_cons, ← ih,
        ← @sortWithDependencies_isOk N _ localeCompare]
      cases sortWithDependencies localeCompare SlotContribution.sortable slot.2 with
      | error e => simp [Except.map, bind, Except.bind]
      | ok items =>
        cases groups.mapM (fun slot =>
          (sortWithDependencies localeCompare SlotContribution.sortable slot.2).map
            (fun items => (slot.1, items))) <;>
          simp [Except.map, bind, Except.bind, pure, Except.pure]
  rw [generateFrontendSlots, exists_map_eq_ok, sortedSlotGroups, hmap]
  exact forall_congr' fun slot => imp_congr_left (sortWith_perm _ _).mem_iff

end Artifacts

section Main

variable [LinearOrder N] [Zero N] (localeCompare : JsString → JsString → Ordering)
  (toUpperCase : JsString → JsString) (input : GeneratorInput N sha256Hex)

/-- Different packages declare different names, and what items say of each other is not cyclic. -/
structure Separate : Prop where
  pages : ∀ a ∈ input.installed, ∀ b ∈ input.installed, a.packageName ≠ b.packageName →
    ∀ x ∈ pagesOf toUpperCase a, ∀ y ∈ pagesOf toUpperCase b,
      x.id ≠ y.id ∧ x.routePath ≠ y.routePath
  items : ∀ a ∈ input.installed, ∀ b ∈ input.installed, a.packageName ≠ b.packageName →
    ∀ x ∈ itemsOf a, ∀ y ∈ itemsOf b, x.id ≠ y.id
  namespaces : ∀ a ∈ input.installed, ∀ b ∈ input.installed, a.packageName ≠ b.packageName →
    ∀ x ∈ namespacesOf a, ∀ y ∈ namespacesOf b, x.namespace_ ≠ y.namespace_
  acyclic : ∀ id, ¬ Relation.TransGen (fun v u => u ≠ v ∧
    (u, v) ∈ allConstraints NavigationItem.sortable (input.installed.flatMap itemsOf)) id id

/-- The four generators give artefacts in which everything that an installed package declares has
exactly one entry. -/
def GeneratesOnce : Prop :=
  ∃ navigation admin slots i18n,
    generateFrontendNavigation localeCompare input = .ok navigation ∧
    generateFrontendAdminRoutes localeCompare toUpperCase input = .ok admin ∧
    generateFrontendSlots localeCompare input = .ok slots ∧
    generateFrontendI18n localeCompare input = .ok i18n ∧
    ∀ loaded ∈ input.installed,
      (∀ page ∈ pagesOf toUpperCase loaded,
        entriesNamed (js "id") page.id admin.contents = [routeLine page]) ∧
      (∀ item ∈ itemsOf loaded,
        entriesNamed (js "id") item.id navigation.contents = [navigationLine item]) ∧
      ∀ item ∈ namespacesOf loaded,
        entriesNamed (js "namespace") item.namespace_ i18n.contents = [namespaceLine item]

/-- The package declares an admin page, a navigation item or a namespace. -/
def Declares (loaded : LoadedPluginManifest N sha256Hex) : Prop :=
  pagesOf toUpperCase loaded ≠ [] ∨ itemsOf loaded ≠ [] ∨ namespacesOf loaded ≠ []

/-- A package that declares something has one instance and is referred to by its name, no name is
declared twice, and what is ordered can be. -/
structure ServesOnce : Prop where
  once : ∀ loaded ∈ input.installed, Declares toUpperCase loaded →
    InsertionMap.get input.manifests.byRef loaded.packageName = some loaded ∧
      (input.graph.instances.filter (fun i => i.packageName = loaded.packageName)).length = 1
  pages : ∀ loaded ∈ input.installed, ((pagesOf toUpperCase loaded).map (·.routePath)).Nodup ∧
    ((pagesOf toUpperCase loaded).map (·.id)).Nodup
  items : ∀ loaded ∈ input.installed, ((itemsOf loaded).map (·.id)).Nodup
  notSelf : (rawItems input).length ≤ 1 ∨
    ∀ id, (id, id) ∉ allConstraints NavigationItem.sortable (rawItems input)
  slots : ∀ slot ∈ slotGroups input, Orderable SlotContribution.sortable slot.2

variable {localeCompare toUpperCase input}

omit [LinearOrder N] [Zero N] in
lemma nodup_namespacesOf (loaded : LoadedPluginManifest N sha256Hex) :
    ((namespacesOf loaded).map (·.namespace_)).Nodup := by
  rw [namespacesOf]
  cases (frontendOf loaded.manifest).bind (i18nNamespaceOf loaded.manifest.id) <;> simp

omit [JsonNumber N] [LinearOrder N] [Zero N] in
/-- Constraints among fewer items are constraints among more. -/
lemma allConstraints_mono {α : Type} {key : α → SortableItem N} {xs ys : List α}
    (h : ∀ x ∈ xs, x ∈ ys) {edge : JsString × JsString} (hedge : edge ∈ allConstraints key xs) :
    edge ∈ allConstraints key ys := by
  obtain ⟨u, v⟩ := edge
  have hids : ∀ id, id ∈ xs.map (fun x => (key x).id) → id ∈ ys.map (fun x => (key x).id) := by
    intro id hid
    obtain ⟨x, hx, rfl⟩ := List.mem_map.mp hid
    exact List.mem_map.mpr ⟨x, h x hx, rfl⟩
  obtain ⟨x, hx, hedge⟩ := List.mem_flatMap.mp hedge
  refine List.mem_flatMap.mpr ⟨x, h x hx, mem_constraints.mpr ?_⟩
  refine (mem_constraints.mp hedge).imp ?_ ?_
  · rintro ⟨hid, hbefore, hne, hmem⟩
    exact ⟨hid, hbefore, hne, hids _ hmem⟩
  · rintro ⟨hid, hafter, hne, hmem⟩
    exact ⟨hid, hafter, hne, hids _ hmem⟩

variable {app : AppRoot N sha256Hex} {fragmentText : JsString → JsString → Option JsString}
  {version : JsString}

omit [LinearOrder N] [Zero N] in
lemma notMem_digests (hhex : ∀ text, lineFeed ∉ sha256Hex text)
    (hpasses : Passes input.plugins input.manifests input.graph) :
    lineFeed ∉ sourceDigest input ∧ lineFeed ∉ input.graph.digest := by
  refine ⟨Prisma.notMem_hash hhex _, ?_⟩
  rw [hpasses.graph_eq, Composition.digest_graph]
  exact Prisma.notMem_hash hhex _

omit [LinearOrder N] [Zero N] in
lemma mem_served_of_once (happ : InstalledUnderName app)
    (h : generatorInput app fragmentText version = .ok input)
    {loaded : LoadedPluginManifest N sha256Hex} (hloaded : loaded ∈ input.installed)
    (honce : ((served input).filter (fun s => s.packageName = loaded.packageName)).length = 1) :
    loaded ∈ served input := by
  obtain ⟨hget, hlength⟩ := (served_once_iff happ h hloaded).mp honce
  obtain ⟨i, hi⟩ := List.length_eq_one_iff.mp hlength
  have hmem : i ∈ input.graph.instances.filter (fun i => i.packageName = loaded.packageName) := by
    rw [hi]
    exact List.mem_singleton_self i
  obtain ⟨hinstance, hname⟩ := List.mem_filter.mp hmem
  rw [decide_eq_true_eq] at hname
  exact List.mem_filterMap.mpr ⟨i, hinstance, hname ▸ hget⟩

/-- For an accepted input whose packages declare different names, the frontend generators succeed
and write everything that is declared once exactly when each package that declares something is
served once and what is ordered can be. -/
theorem generatesOnce_iff (hhex : ∀ text, lineFeed ∉ sha256Hex text) (happ : InstalledUnderName app)
    (h : generatorInput app fragmentText version = .ok input)
    (hseparate : Separate toUpperCase input) :
    GeneratesOnce localeCompare toUpperCase input ↔ ServesOnce toUpperCase input := by
  obtain ⟨_, hpasses⟩ := generatorInput_ok h
  obtain ⟨hsource, hdigest⟩ := notMem_digests hhex hpasses
  have hserved := served_installed happ h
  have hkeys : ∀ a ∈ input.installed, ∀ b ∈ input.installed, a.packageName = b.packageName →
      a = b := fun a ha b hb hname => loaded_unique hpasses ((mem_installed hpasses).mp ha).1
        ((mem_installed hpasses).mp hb).1 hname
  have hpageIds : ∀ a ∈ input.installed, ∀ b ∈ input.installed, a.packageName ≠ b.packageName →
      ∀ x ∈ pagesOf toUpperCase a, ∀ y ∈ pagesOf toUpperCase b, x.id ≠ y.id :=
    fun a ha b hb hne x hx y hy => (hseparate.pages a ha b hb hne x hx y hy).1
  have hpagePaths : ∀ a ∈ input.installed, ∀ b ∈ input.installed, a.packageName ≠ b.packageName →
      ∀ x ∈ pagesOf toUpperCase a, ∀ y ∈ pagesOf toUpperCase b, x.routePath ≠ y.routePath :=
    fun a ha b hb hne x hx y hy => (hseparate.pages a ha b hb hne x hx y hy).2
  have hitems := rawItems_eq happ h
  have hpages := declaredPages_eq toUpperCase happ h
  have hnamespaces := declaredNamespaces_eq happ h
  constructor
  · rintro ⟨navigation, admin, slots, i18n, hnavigation, hadmin, hslots, hi18n, hall⟩
    obtain ⟨items, hitemsPerm, hitemLines⟩ := navigation_entries hsource hdigest hnavigation
    obtain ⟨routes, hroutesPerm, hrouteLines⟩ := adminRoutes_entries hsource hdigest hadmin
    obtain ⟨namespaces, hnamespacesPerm, hnamespaceLines⟩ := i18n_entries hsource hdigest hi18n
    rw [hitems] at hitemsPerm
    rw [hpages] at hroutesPerm
    rw [hnamespaces] at hnamespacesPerm
    have hpagesOnce := (declared_once_iff hserved hkeys hpageIds).mp fun a ha x hx =>
      length_of_lines hroutesPerm (hrouteLines x.id ▸ (hall a ha).1 x hx)
    have hitemsOnce := (declared_once_iff hserved hkeys hseparate.items).mp fun a ha x hx =>
      length_of_lines hitemsPerm (hitemLines x.id ▸ (hall a ha).2.1 x hx)
    have hnamespacesOnce := (declared_once_iff hserved hkeys hseparate.namespaces).mp
      fun a ha x hx => length_of_lines hnamespacesPerm
        (hnamespaceLines x.namespace_ ▸ (hall a ha).2.2 x hx)
    refine ⟨?_, ?_, ?_, ?_, slots_isOk.mp ⟨slots, hslots⟩⟩
    · rintro loaded hloaded (hne | hne | hne)
      · exact (served_once_iff happ h hloaded).mp (hpagesOnce loaded hloaded hne).1
      · exact (served_once_iff happ h hloaded).mp (hitemsOnce loaded hloaded hne).1
      · exact (served_once_iff happ h hloaded).mp (hnamespacesOnce loaded hloaded hne).1
    · intro loaded hloaded
      by_cases hne : pagesOf toUpperCase loaded = []
      · simp [hne]
      · obtain ⟨honce, hnodup⟩ := hpagesOnce loaded hloaded hne
        refine ⟨?_, hnodup⟩
        have hpaths := (adminRoutes_isOk.mp ⟨admin, hadmin⟩).1
        rw [hpages, List.map_flatMap] at hpaths
        exact (List.nodup_flatMap.mp hpaths).1 loaded (mem_served_of_once happ h hloaded honce)
    · intro loaded hloaded
      by_cases hne : itemsOf loaded = []
      · simp [hne]
      · exact (hitemsOnce loaded hloaded hne).2
    · have hnodup : ((rawItems input).map (·.id)).Nodup :=
        hitems ▸ nodup_flatMap_of_once hserved hkeys hseparate.items hitemsOnce
      exact (navigation_isOk.mp ⟨navigation, hnavigation⟩).not_self hnodup
  · intro hcondition
    have honce : ∀ loaded ∈ input.installed, Declares toUpperCase loaded →
        ((served input).filter (fun s => s.packageName = loaded.packageName)).length = 1 :=
      fun loaded hloaded hdeclares =>
        (served_once_iff happ h hloaded).mpr (hcondition.once loaded hloaded hdeclares)
    have hidsOnce : ∀ a ∈ input.installed, pagesOf toUpperCase a ≠ [] →
        ((served input).filter (fun s => s.packageName = a.packageName)).length = 1 ∧
          ((pagesOf toUpperCase a).map (·.id)).Nodup :=
      fun a ha hne => ⟨honce a ha (.inl hne), (hcondition.pages a ha).2⟩
    have hpathsOnce : ∀ a ∈ input.installed, pagesOf toUpperCase a ≠ [] →
        ((served input).filter (fun s => s.packageName = a.packageName)).length = 1 ∧
          ((pagesOf toUpperCase a).map (·.routePath)).Nodup :=
      fun a ha hne => ⟨honce a ha (.inl hne), (hcondition.pages a ha).1⟩
    have hitemsOnce : ∀ a ∈ input.installed, itemsOf a ≠ [] →
        ((served input).filter (fun s => s.packageName = a.packageName)).length = 1 ∧
          ((itemsOf a).map (·.id)).Nodup :=
      fun a ha hne => ⟨honce a ha (.inr (.inl hne)), hcondition.items a ha⟩
    have hnamespacesOnce : ∀ a ∈ input.installed, namespacesOf a ≠ [] →
        ((served input).filter (fun s => s.packageName = a.packageName)).length = 1 ∧
          ((namespacesOf a).map (·.namespace_)).Nodup :=
      fun a ha hne => ⟨honce a ha (.inr (.inr hne)), nodup_namespacesOf a⟩
    have horderable : Orderable NavigationItem.sortable (rawItems input) := by
      have hnodup : ((rawItems input).map (·.id)).Nodup :=
        hitems ▸ nodup_flatMap_of_once hserved hkeys hseparate.items hitemsOnce
      have hsubset : ∀ x ∈ rawItems input, x ∈ input.installed.flatMap itemsOf := by
        intro x hx
        rw [hitems] at hx
        obtain ⟨loaded, hloaded, hx⟩ := List.mem_flatMap.mp hx
        exact List.mem_flatMap.mpr ⟨loaded, hserved loaded hloaded, hx⟩
      refine hcondition.notSelf.elim .inl fun hself => orderable_of_acyclic hnodup fun id hcycle => ?_
      refine hseparate.acyclic id (hcycle.lift (fun u => u) fun v u hedge => ⟨?_, ?_⟩)
      · rintro rfl
        exact hself u hedge
      · exact allConstraints_mono hsubset hedge
    obtain ⟨navigation, hnavigation⟩ := navigation_isOk.mpr horderable
    obtain ⟨admin, hadmin⟩ := adminRoutes_isOk.mpr
      ⟨hpages ▸ nodup_flatMap_of_once hserved hkeys hpagePaths hpathsOnce,
        hpages ▸ nodup_flatMap_of_once hserved hkeys hpageIds hidsOnce⟩
    obtain ⟨slots, hslots⟩ := slots_isOk.mpr hcondition.slots
    obtain ⟨i18n, hi18n⟩ := i18n_isOk.mpr
      (hnamespaces ▸ nodup_flatMap_of_once hserved hkeys hseparate.namespaces hnamespacesOnce)
    obtain ⟨items, hitemsPerm, hitemLines⟩ := navigation_entries hsource hdigest hnavigation
    obtain ⟨routes, hroutesPerm, hrouteLines⟩ := adminRoutes_entries hsource hdigest hadmin
    obtain ⟨namespaces, hnamespacesPerm, hnamespaceLines⟩ := i18n_entries hsource hdigest hi18n
    rw [hitems] at hitemsPerm
    rw [hpages] at hroutesPerm
    rw [hnamespaces] at hnamespacesPerm
    refine ⟨navigation, admin, slots, i18n, hnavigation, hadmin, hslots, hi18n, ?_⟩
    intro a ha
    refine ⟨fun x hx => ?_, fun x hx => ?_, fun x hx => ?_⟩
    · rw [hrouteLines]
      exact lines_of_singleton hroutesPerm (filter_flatMap_singleton hserved hkeys hpageIds ha hx
        (hidsOnce a ha (List.ne_nil_of_mem hx)))
    · rw [hitemLines]
      exact lines_of_singleton hitemsPerm (filter_flatMap_singleton hserved hkeys hseparate.items
        ha hx (hitemsOnce a ha (List.ne_nil_of_mem hx)))
    · rw [hnamespaceLines]
      exact lines_of_singleton hnamespacesPerm (filter_flatMap_singleton hserved hkeys
        hseparate.namespaces ha hx (hnamespacesOnce a ha (List.ne_nil_of_mem hx)))

end Main

section Examples

def screensFacet : List (JsString × Json ℤ) :=
  [(js "adminPages", .arr [.str (js "users")]), (js "navigationItems", .arr [.str (js "users")]),
    (js "i18nNamespace", .str (js "users"))]

/-- Plugin `a` with a page, an item and a namespace, and these instances of it. -/
def screensApp (instanceIds : List JsString) : AppRoot ℤ (fun _ => js "0") :=
  installedApp _
    [{ plainManifest (js "a") [] [] with
      cardinality := .multiple
      facets := { backend := none, prisma := none, operations := none,
                  rest := [(js "frontend", .obj screensFacet)] } }]
    (instanceIds.map (fun id => { enabledEntry (js "@x/a") with instanceId := id }))

lemma installedUnderName_screensApp (instanceIds : List JsString) :
    InstalledUnderName (screensApp instanceIds) := by
  intro ref loaded diagnostics h
  simp only [screensApp, installedApp] at h
  split at h
  · obtain ⟨rfl, _⟩ := Prod.mk.inj (Except.ok.inj h)
    exact .inl rfl
  · cases h

/-- One package cannot clash with others, nor order its one item. -/
lemma separate_of_one {toUpperCase : JsString → JsString} {N : Type} [JsonNumber N] [Zero N]
    {sha256Hex : JsString → JsString} {input : GeneratorInput N sha256Hex} {name : JsString}
    (hname : ∀ loaded ∈ input.installed, loaded.packageName = name)
    (hedges : allConstraints NavigationItem.sortable (input.installed.flatMap itemsOf) = []) :
    Separate toUpperCase input where
  pages a ha b hb hne := absurd ((hname a ha).trans (hname b hb).symm) hne
  items a ha b hb hne := absurd ((hname a ha).trans (hname b hb).symm) hne
  namespaces a ha b hb hne := absurd ((hname a ha).trans (hname b hb).symm) hne
  acyclic id hcycle := by
    obtain ⟨v, ⟨_, hedge⟩, _⟩ := Relation.TransGen.head'_iff.mp hcycle
    rw [hedges] at hedge
    exact List.not_mem_nil hedge

theorem generatesOnce_screens : ∃ input ∈ (generatorInput (screensApp [js "default"])
    (fun _ _ => none) (js "1")).toOption, GeneratesOnce Prisma.compareUnits id input := by
  obtain ⟨input, hinput, hname, hedges, hserved, hpages, hitems, hraw, hslots⟩ :
      ∃ input ∈ (generatorInput (screensApp [js "default"]) (fun _ _ => none) (js "1")).toOption,
        (∀ loaded ∈ input.installed, loaded.packageName = js "@x/a") ∧
        allConstraints NavigationItem.sortable (input.installed.flatMap itemsOf) = [] ∧
        (∀ loaded ∈ input.installed,
          ((served input).filter (fun s => s.packageName = loaded.packageName)).length = 1) ∧
        (∀ loaded ∈ input.installed, ((pagesOf id loaded).map (·.routePath)).Nodup ∧
          ((pagesOf id loaded).map (·.id)).Nodup) ∧
        (∀ loaded ∈ input.installed, ((itemsOf loaded).map (·.id)).Nodup) ∧
        (rawItems input).length ≤ 1 ∧ (slotGroups input).length = 0 := by
    decide +kernel
  have happ := installedUnderName_screensApp [js "default"]
  have hok : generatorInput (screensApp [js "default"]) (fun _ _ => none) (js "1") = .ok input := by
    revert hinput
    cases generatorInput (screensApp [js "default"]) (fun _ _ => none) (js "1") <;>
      simp [Except.toOption]
  refine ⟨input, hinput, ?_⟩
  refine (generatesOnce_iff (fun _ => by decide) happ hok (separate_of_one hname hedges)).mpr
    ⟨?_, hpages, hitems, .inl hraw, by simp [List.length_eq_zero_iff.mp hslots]⟩
  intro loaded hloaded _
  exact (served_once_iff happ hok hloaded).mp (hserved loaded hloaded)

/-- The same plugin with two instances: the pages of the second are taken for duplicates. -/
theorem twoInstances_refused : ∃ input ∈ (generatorInput
    (screensApp [js "default", js "second"]) (fun _ _ => none) (js "1")).toOption,
      Separate id input ∧ ¬ GeneratesOnce Prisma.compareUnits id input := by
  obtain ⟨input, hinput, hname, hedges, herror⟩ : ∃ input ∈ (generatorInput
      (screensApp [js "default", js "second"]) (fun _ _ => none) (js "1")).toOption,
        (∀ loaded ∈ input.installed, loaded.packageName = js "@x/a") ∧
        allConstraints NavigationItem.sortable (input.installed.flatMap itemsOf) = [] ∧
        (generateFrontendAdminRoutes Prisma.compareUnits id input).toOption = none := by
    decide +kernel
  refine ⟨input, hinput, separate_of_one hname hedges, ?_⟩
  rintro ⟨_, admin, _, _, _, hadmin, _⟩
  rw [hadmin] at herror
  cases herror

end Examples

end Appspine.Frontend
