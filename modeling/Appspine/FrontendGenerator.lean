import Appspine.PrismaComposer
import Appspine.QueueOrder

/-!
# The frontend generators

The navigation, the admin routes, the slots and the translation namespaces of the enabled plugins,
each written as a list of entries. Facets are collected for each instance; names that come twice
are refused, and items are put in an order that respects what they say about each other.
-/
namespace Appspine.Frontend
open JsText InsertionMap JsonText PluginManifest Resolver Commands Generate
open Prisma (sortWith)

variable {N : Type}

def FRONTEND_DIR : JsString := GENERATED_DIR ++ js "/frontend"

def FRONTEND_NAVIGATION_ARTIFACT : JsString := FRONTEND_DIR ++ js "/navigation.ts"

def FRONTEND_ADMIN_ROUTES_ARTIFACT : JsString := FRONTEND_DIR ++ js "/admin-routes.ts"

def FRONTEND_SLOTS_ARTIFACT : JsString := FRONTEND_DIR ++ js "/slots.tsx"

def FRONTEND_I18N_ARTIFACT : JsString := FRONTEND_DIR ++ js "/i18n.ts"

section Sorting

structure SortableItem (N : Type) where
  id : JsString
  order : Option N
  before : Option JsString
  after : Option JsString

variable {α : Type} (localeCompare : JsString → JsString → Ordering) (key : α → SortableItem N)

/-- What an item says of the order, where it names an item of the list: first, then second. -/
def constraints (ids : List JsString) (item : SortableItem N) : List (JsString × JsString) :=
  (item.before.filter (fun id => id ≠ [] ∧ id ∈ ids)).toList.map (fun id => (item.id, id)) ++
    (item.after.filter (fun id => id ≠ [] ∧ id ∈ ids)).toList.map (fun id => (id, item.id))

def allConstraints (items : List α) : List (JsString × JsString) :=
  items.flatMap (fun x => constraints (items.map (fun y => (key y).id)) (key x))

def addTarget (adj : Entries JsString (List JsString)) (edge : JsString × JsString) :
    Entries JsString (List JsString) :=
  modify adj edge.1 (fun targets => if edge.2 ∈ targets then targets else targets ++ [edge.2])

def adjacency (items : List α) : Entries JsString (List JsString) :=
  (allConstraints key items).foldl addTarget
    (items.foldl (fun m x => InsertionMap.set m (key x).id []) [])

/-- The last item of each id. -/
def itemMap (items : List α) : Entries JsString α :=
  items.foldl (fun m x => InsertionMap.set m (key x).id x) []

lemma get_foldl_set {β : Type} (f : α → β) (items : List α) (k : JsString) :
    InsertionMap.get (items.foldl (fun m x => InsertionMap.set m (key x).id (f x)) []) k =
      (lastBy (fun x => (key x).id) items k).map f := by
  induction items using List.reverseRecOn with
  | nil => rfl
  | append_singleton items x ih =>
    rw [List.foldl_append, List.foldl_cons, List.foldl_nil, get_set, ih]
    simp only [lastBy, List.reverse_append, List.reverse_singleton, List.singleton_append,
      List.find?_cons]
    by_cases hk : k = (key x).id
    · simp [hk]
    · simp [hk, Ne.symm hk]

lemma mem_foldl_addTarget {edges : List (JsString × JsString)}
    {adj : Entries JsString (List JsString)} {u v : JsString} :
    v ∈ (InsertionMap.get (edges.foldl addTarget adj) u).getD [] ↔
      v ∈ (InsertionMap.get adj u).getD [] ∨
        ((InsertionMap.get adj u).isSome = true ∧ (u, v) ∈ edges) := by
  induction edges generalizing adj with
  | nil => simp
  | cons edge edges ih =>
    rw [List.foldl_cons, ih, addTarget, get_modify]
    obtain ⟨u', v'⟩ := edge
    by_cases hu : u = u'
    · subst hu
      cases InsertionMap.get adj u with
      | none => simp
      | some targets =>
        simp only [if_true, Option.map_some, Option.getD_some, Option.isSome_some, true_and,
          List.mem_cons, Prod.mk.injEq]
        split_ifs with hmem
        · constructor
          · tauto
          · rintro (hv | rfl | hv)
            · exact .inl hv
            · exact .inl hmem
            · exact .inr hv
        · rw [List.mem_append, List.mem_singleton]
          tauto
    · rw [if_neg hu]
      simp [hu]

lemma mem_constraints {ids : List JsString} {item : SortableItem N} {u v : JsString} :
    (u, v) ∈ constraints ids item ↔
      (u = item.id ∧ item.before = some v ∧ v ≠ [] ∧ v ∈ ids) ∨
        (v = item.id ∧ item.after = some u ∧ u ≠ [] ∧ u ∈ ids) := by
  simp only [constraints, List.mem_append, List.mem_map, Option.mem_toList,
    Option.filter_eq_some_iff, decide_eq_true_eq, Prod.mk.injEq]
  constructor
  · rintro (⟨w, ⟨hw, hne⟩, rfl, rfl⟩ | ⟨w, ⟨hw, hne⟩, rfl, rfl⟩)
    · exact .inl ⟨rfl, hw, hne⟩
    · exact .inr ⟨rfl, hw, hne⟩
  · rintro (⟨rfl, hw, hne⟩ | ⟨rfl, hw, hne⟩)
    · exact .inl ⟨v, ⟨hw, hne⟩, rfl, rfl⟩
    · exact .inr ⟨u, ⟨hw, hne⟩, rfl, rfl⟩

lemma mem_ids_of_constraint {items : List α} {u v : JsString}
    (h : (u, v) ∈ allConstraints key items) :
    u ∈ items.map (fun x => (key x).id) ∧ v ∈ items.map (fun x => (key x).id) := by
  obtain ⟨x, hx, hedge⟩ := List.mem_flatMap.mp h
  have hself : (key x).id ∈ items.map (fun x => (key x).id) := List.mem_map.mpr ⟨x, hx, rfl⟩
  rcases mem_constraints.mp hedge with ⟨rfl, _, _, hmem⟩ | ⟨rfl, _, _, hmem⟩
  · exact ⟨hself, hmem⟩
  · exact ⟨hmem, hself⟩

lemma exists_lastBy_of_mem {items : List α} {k : JsString}
    (h : k ∈ items.map (fun x => (key x).id)) :
    ∃ y ∈ items, lastBy (fun x => (key x).id) items k = some y ∧ (key y).id = k := by
  obtain ⟨x, hx, rfl⟩ := List.mem_map.mp h
  obtain ⟨y, hy⟩ := Lockfile.exists_lastBy (f := fun x => (key x).id) hx
  obtain ⟨hmem, hid⟩ := Lockfile.mem_of_lastBy hy
  exact ⟨y, hmem, hy, hid⟩

lemma mem_adjacency {items : List α} {u v : JsString} :
    v ∈ (InsertionMap.get (adjacency key items) u).getD [] ↔ (u, v) ∈ allConstraints key items := by
  rw [adjacency, mem_foldl_addTarget, get_foldl_set key (fun _ => [])]
  constructor
  · rintro (hv | ⟨_, hedge⟩)
    · cases hlast : lastBy (fun x => (key x).id) items u <;> simp [hlast] at hv
    · exact hedge
  · intro hedge
    obtain ⟨y, _, hy, _⟩ := exists_lastBy_of_mem key (mem_ids_of_constraint key hedge).1
    exact .inr ⟨by rw [hy]; rfl, hedge⟩

/-- Items follow each other as their constraints say. -/
def graph (items : List α) : QueueOrder.Graph JsString α where
  items := items
  id x := (key x).id
  next u := (InsertionMap.get (adjacency key items) u).getD []
  itemOf := itemMap key items
  closed u v hv := (mem_ids_of_constraint key ((mem_adjacency key).mp hv)).2
  itemOf_id x hx := by
    obtain ⟨y, hy, hlast, hid⟩ := exists_lastBy_of_mem key (List.mem_map.mpr ⟨x, hx, rfl⟩)
    exact ⟨y, hy, by rw [itemMap, get_foldl_set key (fun x => x), hlast]; rfl, hid⟩

variable [LinearOrder N] [Zero N]

def compareReady (a b : α) : Ordering :=
  (compare ((key a).order.getD 0) ((key b).order.getD 0)).then
    (localeCompare (key a).id (key b).id)

/-- By what items say of each other, then by `order`, then by id; refused when that is cyclic. -/
def sortWithDependencies (items : List α) : Except JsString (List α) :=
  if items.length ≤ 1 then .ok items
  else
    let result := (graph key items).order (sortWith (compareReady localeCompare key))
    if result.length ≠ items.length then
      .error (js "Cyclic dependency detected in ordering items: " ++
        join (js ", ") (items.map (fun x => (key x).id)))
    else .ok result

end Sorting

section Active

variable [JsonNumber N] {sha256Hex : JsString → JsString}

def frontendOf (manifest : PluginManifestV1 N) : Option (List (JsString × Json N)) :=
  match InsertionMap.get manifest.facets.rest (js "frontend") with
  | some (.obj members) => some members
  | _ => none

structure ActiveFrontendPlugin (N : Type) where
  pluginId : JsString
  packageName : JsString
  facet : List (JsString × Json N)

/-- The facet of an instance: of the manifest read for a reference that is its package's name. -/
def activeFrontendPlugin (input : GeneratorInput N sha256Hex) (i : ResolvedPluginInstance N) :
    Option (ActiveFrontendPlugin N) :=
  (InsertionMap.get input.manifests.byRef i.packageName).bind (fun loaded =>
    (frontendOf loaded.manifest).map (fun facet =>
      { pluginId := i.pluginId, packageName := i.packageName, facet := facet }))

def getActiveFrontendPlugins (input : GeneratorInput N sha256Hex) : List (ActiveFrontendPlugin N) :=
  input.graph.order.filterMap (fun key =>
    (input.graph.instances.find? (fun candidate => candidate.key = key)).bind
      (activeFrontendPlugin input))

def numberMember (members : List (JsString × Json N)) (k : JsString) : Option N :=
  match InsertionMap.get members k with
  | some (.num n) => some n
  | _ => none

end Active

section Text

variable [JsonNumber N] {sha256Hex : JsString → JsString}

def banner (input : GeneratorInput N sha256Hex) : List JsString :=
  [js "// GENERATED BY @appspine/plugin-cli — DO NOT EDIT.",
    js "//",
    js "// Run `appspine build` to regenerate, and `appspine build --check` to verify.",
    js "// sourceDigest: " ++ sourceDigest input,
    js "// resolutionDigest: " ++ input.graph.digest,
    []]

def textField (name value : JsString) : JsString := name ++ js ": " ++ quote value

/-- A field that is written when it has a text. -/
def optionalField (name : JsString) (value : Option JsString) : List JsString :=
  (value.filter (· ≠ [])).toList.map (textField name)

def numberField (name : JsString) (value : N) : JsString := name ++ js ": " ++ JsonNumber.text value

def entryLine (fields : List JsString) : JsString :=
  js "  \x7b " ++ join (js ", ") fields ++ js " \x7d,"

def artifact (path : JsString) (lines : List JsString) : GeneratedArtifact :=
  { path := path, contents := join (js "\n") lines }

end Text

section Navigation

variable [JsonNumber N] [LinearOrder N] [Zero N] {sha256Hex : JsString → JsString}
  (localeCompare : JsString → JsString → Ordering)

structure NavigationItem (N : Type) where
  id : JsString
  title : JsString
  href : JsString
  icon : Option JsString
  order : N
  section_ : Option JsString
  requiredPermission : Option JsString
  before : Option JsString
  after : Option JsString
  pluginId : JsString

def dashboardPath (id : JsString) : JsString := js "/dashboard/" ++ id

def navigationItemOf (pluginId : JsString) : Json N → Option (NavigationItem N)
  | .str id =>
    some { id := id, title := id, href := dashboardPath id, icon := none, order := 0,
           section_ := none, requiredPermission := none, before := none, after := none,
           pluginId := pluginId }
  | .obj members =>
    (textMember members (js "id")).map (fun id =>
      { id := id
        title := (textMember members (js "title")).getD id
        href := (textMember members (js "href")).getD (dashboardPath id)
        icon := textMember members (js "icon")
        order := (numberMember members (js "order")).getD 0
        section_ := textMember members (js "section")
        requiredPermission := textMember members (js "requiredPermission")
        before := textMember members (js "before")
        after := textMember members (js "after")
        pluginId := pluginId })
  | _ => none

/-- The navigation items of a facet. -/
def navigationItemsOf (pluginId : JsString) (facet : List (JsString × Json N)) :
    List (NavigationItem N) :=
  (itemsMember facet (js "navigationItems")).filterMap (navigationItemOf pluginId)

def rawItems (input : GeneratorInput N sha256Hex) : List (NavigationItem N) :=
  (getActiveFrontendPlugins input).flatMap (fun plugin =>
    navigationItemsOf plugin.pluginId plugin.facet)

def NavigationItem.sortable (item : NavigationItem N) : SortableItem N :=
  { id := item.id, order := some item.order, before := item.before, after := item.after }

def navigationLine (item : NavigationItem N) : JsString :=
  entryLine ([textField (js "id") item.id, textField (js "title") item.title,
      textField (js "href") item.href] ++
    optionalField (js "icon") item.icon ++ [numberField (js "order") item.order] ++
    optionalField (js "section") item.section_ ++
    optionalField (js "requiredPermission") item.requiredPermission ++
    [textField (js "pluginId") item.pluginId])

def navigationInterface : List JsString :=
  [js "export interface GeneratedNavigationItem \x7b", js "  id: string;", js "  title: string;",
    js "  href: string;", js "  icon?: string;", js "  order: number;", js "  section?: string;",
    js "  requiredPermission?: string;", js "  pluginId: string;", js "\x7d", [],
    js "export const navigationItems: readonly GeneratedNavigationItem[] = Object.freeze(["]

def generateFrontendNavigation (input : GeneratorInput N sha256Hex) :
    Except JsString GeneratedArtifact :=
  (sortWithDependencies localeCompare NavigationItem.sortable (rawItems input)).map (fun items =>
    artifact FRONTEND_NAVIGATION_ARTIFACT (banner input ++ navigationInterface ++
      items.map navigationLine ++ [js "]);", []]))

end Navigation

section AdminRoutes

variable [JsonNumber N] [LinearOrder N] [Zero N] {sha256Hex : JsString → JsString}
  (localeCompare : JsString → JsString → Ordering) (toUpperCase : JsString → JsString)

structure AdminRoute (N : Type) where
  id : JsString
  routePath : JsString
  title : JsString
  componentExport : JsString
  requiredPermission : Option JsString
  breadcrumb : Option JsString
  order : N
  pluginId : JsString
  packageName : JsString

def isSeparator (u : CodeUnit) : Bool := u = unit '-' || u = unit '_' || u = unit '.'

/-- Line terminators, which `.` does not match. -/
def isLineEnd (u : CodeUnit) : Bool := decide (u.val ∈ [10, 13, 8232, 8233])

/-- `s.replace(/[-_.]+(.)/g, (_m, c) => c.toUpperCase())`; a run of separators that nothing follows
gives back its last one. -/
def camelCase : ℕ → JsString → JsString
  | 0, text => text
  | _, [] => []
  | fuel + 1, u :: us =>
    if isSeparator u then
      let run := u :: us.takeWhile isSeparator
      match us.dropWhile isSeparator with
      | v :: vs =>
        if isLineEnd v then
          (if run.length = 1 then run else toUpperCase (run.drop (run.length - 1))) ++
            camelCase fuel (v :: vs)
        else toUpperCase [v] ++ camelCase fuel vs
      | [] => if run.length = 1 then run else toUpperCase (run.drop (run.length - 1))
    else u :: camelCase fuel us

def componentName (id : JsString) : JsString := camelCase toUpperCase id.length id ++ js "AdminPage"

def adminRouteOf (pluginId packageName : JsString) : Json N → Option (AdminRoute N)
  | .str id =>
    some { id := id, routePath := dashboardPath id, title := id,
           componentExport := componentName toUpperCase id, requiredPermission := none,
           breadcrumb := none, order := 0, pluginId := pluginId, packageName := packageName }
  | .obj members =>
    (textMember members (js "id")).map (fun id =>
      { id := id
        routePath := (textMember members (js "routePath")).getD (dashboardPath id)
        title := (textMember members (js "title")).getD id
        componentExport :=
          (textMember members (js "componentExport")).getD (componentName toUpperCase id)
        requiredPermission := textMember members (js "requiredPermission")
        breadcrumb := textMember members (js "breadcrumb")
        order := (numberMember members (js "order")).getD 0
        pluginId := pluginId
        packageName := packageName })
  | _ => none

/-- The admin pages of a facet. -/
def adminPagesOf (pluginId packageName : JsString) (facet : List (JsString × Json N)) :
    List (AdminRoute N) :=
  (itemsMember facet (js "adminPages")).filterMap (adminRouteOf toUpperCase pluginId packageName)

structure AdminRoutes (N : Type) where
  seenRoutePaths : Entries JsString JsString
  seenIds : Entries JsString JsString
  routes : List (AdminRoute N)

def duplicateRoute (routePath seen pluginId : JsString) : JsString :=
  js "Duplicate admin route path " ++ quoted routePath ++ js " declared by plugins " ++
    quoted seen ++ js " and " ++ quoted pluginId

def duplicatePageId (id seen pluginId : JsString) : JsString :=
  js "Duplicate admin page ID " ++ quoted id ++ js " declared by plugins " ++ quoted seen ++
    js " and " ++ quoted pluginId

def addRoute (state : AdminRoutes N) (route : AdminRoute N) : Except JsString (AdminRoutes N) :=
  match InsertionMap.get state.seenRoutePaths route.routePath with
  | some seen => .error (duplicateRoute route.routePath seen route.pluginId)
  | none =>
    match InsertionMap.get state.seenIds route.id with
    | some seen => .error (duplicatePageId route.id seen route.pluginId)
    | none =>
      .ok
        { seenRoutePaths := InsertionMap.set state.seenRoutePaths route.routePath route.pluginId
          seenIds := InsertionMap.set state.seenIds route.id route.pluginId
          routes := state.routes ++ [route] }

def declaredPages (input : GeneratorInput N sha256Hex) : List (AdminRoute N) :=
  (getActiveFrontendPlugins input).flatMap (fun plugin =>
    adminPagesOf toUpperCase plugin.pluginId plugin.packageName plugin.facet)

def compareRoutes (a b : AdminRoute N) : Ordering :=
  (compare a.order b.order).then (localeCompare a.routePath b.routePath)

def adminRoutes (input : GeneratorInput N sha256Hex) : Except JsString (List (AdminRoute N)) :=
  ((declaredPages toUpperCase input).foldlM addRoute
    { seenRoutePaths := [], seenIds := [], routes := [] }).map (fun state =>
      sortWith (compareRoutes localeCompare) state.routes)

def routeLine (route : AdminRoute N) : JsString :=
  entryLine ([textField (js "id") route.id, textField (js "routePath") route.routePath,
      textField (js "title") route.title, textField (js "componentExport") route.componentExport,
      textField (js "packageName") route.packageName] ++
    optionalField (js "requiredPermission") route.requiredPermission ++
    optionalField (js "breadcrumb") route.breadcrumb ++ [numberField (js "order") route.order,
      textField (js "pluginId") route.pluginId])

def adminRouteInterface : List JsString :=
  [js "export interface GeneratedAdminRoute \x7b", js "  id: string;", js "  routePath: string;",
    js "  title: string;", js "  componentExport: string;", js "  packageName: string;",
    js "  requiredPermission?: string;", js "  breadcrumb?: string;", js "  order: number;",
    js "  pluginId: string;", js "\x7d", [],
    js "export const adminRoutes: readonly GeneratedAdminRoute[] = Object.freeze(["]

def generateFrontendAdminRoutes (input : GeneratorInput N sha256Hex) :
    Except JsString GeneratedArtifact :=
  (adminRoutes localeCompare toUpperCase input).map (fun routes =>
    artifact FRONTEND_ADMIN_ROUTES_ARTIFACT (banner input ++ adminRouteInterface ++
      routes.map routeLine ++ [js "]);", []]))

end AdminRoutes

section Slots

variable [JsonNumber N] [LinearOrder N] [Zero N] {sha256Hex : JsString → JsString}
  (localeCompare : JsString → JsString → Ordering)

structure SlotContribution (N : Type) where
  slot : JsString
  componentExport : JsString
  order : Option N
  before : Option JsString
  after : Option JsString
  requiredPermission : Option JsString
  pluginId : JsString
  packageName : JsString

def slotContributionOf (plugin : ActiveFrontendPlugin N) : Json N → Option (SlotContribution N)
  | .obj members =>
    (textMember members (js "slot")).map (fun slot =>
      { slot := slot
        componentExport := (textMember members (js "componentExport")).getD []
        order := numberMember members (js "order")
        before := textMember members (js "before")
        after := textMember members (js "after")
        requiredPermission := textMember members (js "requiredPermission")
        pluginId := plugin.pluginId
        packageName := plugin.packageName })
  | _ => none

def SlotContribution.sortable (item : SlotContribution N) : SortableItem N :=
  { id := item.pluginId ++ js "." ++ item.componentExport, order := item.order,
    before := item.before, after := item.after }

def slotContributions (input : GeneratorInput N sha256Hex) : List (SlotContribution N) :=
  (getActiveFrontendPlugins input).flatMap (fun plugin =>
    (itemsMember plugin.facet (js "slots")).filterMap (slotContributionOf plugin))

/-- The contributions of each slot, in the order of their appearance. -/
def slotGroups (input : GeneratorInput N sha256Hex) :
    Entries JsString (List (SlotContribution N)) :=
  group ((slotContributions input).map (fun item => (item.slot, item)))

def sortedSlotGroups (input : GeneratorInput N sha256Hex) :
    Except JsString (Entries JsString (List (SlotContribution N))) :=
  (sortWith (fun a b => localeCompare a.1 b.1) (slotGroups input)).mapM (fun slot =>
    (sortWithDependencies localeCompare SlotContribution.sortable slot.2).map
      (fun items => (slot.1, items)))

def slotLine (item : SlotContribution N) : JsString :=
  js "  " ++ entryLine ([textField (js "slot") item.slot,
      textField (js "componentExport") item.componentExport,
      textField (js "packageName") item.packageName, numberField (js "order") (item.order.getD 0)] ++
    optionalField (js "requiredPermission") item.requiredPermission ++
    [textField (js "pluginId") item.pluginId])

def slotInterface : List JsString :=
  [js "export interface GeneratedSlotContribution \x7b", js "  slot: string;",
    js "  componentExport: string;", js "  packageName: string;", js "  order: number;",
    js "  requiredPermission?: string;", js "  pluginId: string;", js "\x7d", [],
    js ("export const slotRegistry: Readonly<Record<string, readonly GeneratedSlotContribution[]>> " ++
      "= Object.freeze(\x7b")]

def generateFrontendSlots (input : GeneratorInput N sha256Hex) : Except JsString GeneratedArtifact :=
  (sortedSlotGroups localeCompare input).map (fun groups =>
    artifact FRONTEND_SLOTS_ARTIFACT (banner input ++ slotInterface ++
      groups.flatMap (fun slot => [js "  " ++ quote slot.1 ++ js ": Object.freeze(["] ++
        slot.2.map slotLine ++ [js "  ]),"]) ++ [js "\x7d);", []]))

end Slots

section I18n

variable [JsonNumber N] {sha256Hex : JsString → JsString}
  (localeCompare : JsString → JsString → Ordering)

structure I18nNamespace where
  namespace_ : JsString
  pluginId : JsString
  locales : Option (List JsString)
  deriving DecidableEq

def i18nFacet (facet : List (JsString × Json N)) : Option (List (JsString × Json N)) :=
  match InsertionMap.get facet (js "i18n") with
  | some (.obj members) => some members
  | _ => none

def localesOf (i18n : List (JsString × Json N)) : Option (List JsString) :=
  match InsertionMap.get i18n (js "locales") with
  | some (.arr items) => some (stringsIn items)
  | _ => none

/-- The namespace of a facet, unless it is empty. -/
def i18nNamespaceOf (pluginId : JsString) (facet : List (JsString × Json N)) : Option I18nNamespace :=
  (((textMember facet (js "i18nNamespace")).or
    ((i18nFacet facet).bind (fun i18n => textMember i18n (js "namespace")))).filter
      (· ≠ [])).map (fun ns =>
    { namespace_ := ns, pluginId := pluginId, locales := (i18nFacet facet).bind localesOf })

structure I18nNamespaces where
  seenNamespaces : Entries JsString JsString
  namespaces : List I18nNamespace

def duplicateNamespace (ns seen pluginId : JsString) : JsString :=
  js "Duplicate i18n namespace " ++ quoted ns ++ js " declared by plugins " ++ quoted seen ++
    js " and " ++ quoted pluginId

def addNamespace (state : I18nNamespaces) (item : I18nNamespace) : Except JsString I18nNamespaces :=
  match InsertionMap.get state.seenNamespaces item.namespace_ with
  | some seen => .error (duplicateNamespace item.namespace_ seen item.pluginId)
  | none =>
    .ok
      { seenNamespaces := InsertionMap.set state.seenNamespaces item.namespace_ item.pluginId
        namespaces := state.namespaces ++ [item] }

def declaredNamespaces (input : GeneratorInput N sha256Hex) : List I18nNamespace :=
  (getActiveFrontendPlugins input).filterMap (fun plugin =>
    i18nNamespaceOf plugin.pluginId plugin.facet)

def i18nNamespaces (input : GeneratorInput N sha256Hex) : Except JsString (List I18nNamespace) :=
  ((declaredNamespaces input).foldlM addNamespace { seenNamespaces := [], namespaces := [] }).map
    (fun state => sortWith (fun a b => localeCompare a.namespace_ b.namespace_) state.namespaces)

def namespaceLine (item : I18nNamespace) : JsString :=
  entryLine ([textField (js "namespace") item.namespace_, textField (js "pluginId") item.pluginId] ++
    item.locales.toList.map (fun locales =>
      js "locales: Object.freeze(" ++ brackets (locales.map quote) ++ js ")"))

def i18nInterface : List JsString :=
  [js "export interface GeneratedI18nNamespace \x7b", js "  namespace: string;",
    js "  pluginId: string;", js "  locales?: readonly string[];", js "\x7d", [],
    js "export const i18nNamespaces: readonly GeneratedI18nNamespace[] = Object.freeze(["]

def generateFrontendI18n (input : GeneratorInput N sha256Hex) : Except JsString GeneratedArtifact :=
  (i18nNamespaces localeCompare input).map (fun namespaces =>
    artifact FRONTEND_I18N_ARTIFACT (banner input ++ i18nInterface ++
      namespaces.map namespaceLine ++ [js "]);", []]))

end I18n

end Appspine.Frontend
