import Appspine.NotificationInbox

/-!
# Paged lists of the services

`findAll` of roles, users and API keys, and the inbox of a recipient, over databases that order
tied rows as they like in every answer.
-/
namespace Appspine.Listings
open JsText PagedListing

section Pagination

inductive Direction where
  | asc
  | desc
  deriving DecidableEq

def Direction.order {α : Type} : Direction → SortOrder α → SortOrder α
  | .asc, o => o
  | .desc, o => o.reverse

/-- `SORT_ORDERS`, in upper case as the schema hands them on. -/
inductive SortOrderName where
  | ASC
  | DESC
  deriving DecidableEq

/-- A query that `paginationQuerySchema` accepts. -/
structure PaginationQuery where
  page : ℕ := 1
  limit : ℕ := 20
  sortField : Option JsString := none
  sortOrder : Option SortOrderName := none
  search : Option JsString := none
  page_pos : 1 ≤ page := by decide
  limit_pos : 1 ≤ limit := by decide
  limit_max : limit ≤ 100 := by decide
  sortField_ne : sortField ≠ some [] := by decide

/-- The same query for page `p + 1`. -/
def PaginationQuery.atPage (query : PaginationQuery) (p : ℕ) : PaginationQuery :=
  { query with page := p + 1, page_pos := by omega }

structure PrismaPage where
  skip : ℕ
  take : ℕ

def toPrismaPage (query : PaginationQuery) : PrismaPage where
  skip := (query.page - 1) * query.limit
  take := query.limit

def toPrismaSortDirection (sortOrder : Option SortOrderName) : Direction :=
  if sortOrder = some .ASC then .asc else .desc

/-- The one column of `orderBy`: the field that is asked for when it is allowed. -/
def toPrismaOrderBy {F : Type} (query : PaginationQuery) (allowedFields : List (JsString × F))
    (defaultOrderBy : F × Direction) : F × Direction :=
  match query.sortField.bind fun field => allowedFields.lookup field with
  | some column => (column, toPrismaSortDirection query.sortOrder)
  | none => defaultOrderBy

structure PaginatedResult (View : Type) where
  data : List View
  total : ℕ

/-- The rows of `query.search`, when there is one. -/
def searched {Row : Type} (query : PaginationQuery) (found : JsString → Row → Bool)
    (table : List Row) : List Row :=
  match query.search with
  | none => table
  | some search => if search = [] then table else table.filter (found search)

/-- One `findAll`: the rows it is about, their order and how a row is shown. -/
structure FindAll (Row View : Type) where
  found : JsString → Row → Bool
  order : PaginationQuery → SortOrder Row
  view : Row → View

variable {Row View : Type}

def FindAll.matching (service : FindAll Row View) (table : List Row) (query : PaginationQuery) :
    List Row :=
  searched query service.found table

/-- `findMany` and `count`, the rows being `answer` in the order the database has put them. -/
def FindAll.findAll (service : FindAll Row View) (table : List Row) (query : PaginationQuery)
    (answer : List Row) : PaginatedResult View :=
  let { skip, take } := toPrismaPage query
  ⟨((answer.drop skip).take take).map service.view, (service.matching table query).length⟩

/-- Pages `1 .. ceil(total / limit)` show every matching row exactly once, whatever order the
database has put tied rows in for each of them. -/
def FindAll.ListsOnce (service : FindAll Row View) (table : List Row) (query : PaginationQuery) :
    Prop :=
  ∀ answers : ℕ → List Row,
    (∀ p, Listing (service.order query) (service.matching table query) (answers p)) →
    ((List.range (pageCount (service.matching table query).length query.limit)).flatMap
      fun p => (service.findAll table (query.atPage p) (answers p)).data).Perm
        ((service.matching table query).map service.view)

/-- No tied rows lie on both sides of a page end. -/
def FindAll.TiesOnOnePage (service : FindAll Row View) (table : List Row) (query : PaginationQuery) :
    Prop :=
  ∀ row ∈ service.matching table query,
    OnOnePage (service.order query) (service.matching table query) query.limit row

lemma searched_sublist {query : PaginationQuery} {found : JsString → Row → Bool} {table : List Row} :
    (searched query found table).Sublist table := by
  unfold searched
  split
  · exact List.Sublist.refl table
  · split_ifs
    · exact List.Sublist.refl table
    · exact List.filter_sublist

lemma FindAll.listsOnce_iff {service : FindAll Row View} {table : List Row}
    (hview : Function.Injective service.view) (htable : table.Nodup) (query : PaginationQuery) :
    service.ListsOnce table query ↔ service.TiesOnOnePage table query := by
  have hpages : ∀ answers : ℕ → List Row,
      ((List.range (pageCount (service.matching table query).length query.limit)).flatMap
        fun p => (service.findAll table (query.atPage p) (answers p)).data) =
      ((List.range (pageCount (service.matching table query).length query.limit)).flatMap
        fun p => page query.limit p (answers p)).map service.view := by
    intro answers
    rw [List.map_flatMap]
    rfl
  have hmatching : (service.matching table query).Nodup := htable.sublist searched_sublist
  rw [TiesOnOnePage, ← PagedListing.listsOnce_iff hmatching query.limit_pos]
  refine forall_congr' fun answers => forall_congr' fun _ => ?_
  rw [hpages, List.map_perm_map_iff hview]

/-- Rows that differ in what the order ends with are never tied. -/
lemma FindAll.tiesOnOnePage_of_unique {service : FindAll Row View} {table : List Row}
    {query : PaginationQuery} (htable : table.Nodup)
    (hunique : ∀ a ∈ table, ∀ b ∈ table, (service.order query).Ties a b → a = b) :
    service.TiesOnOnePage table query := by
  intro row hrow
  have hmem : ∀ {row}, row ∈ service.matching table query → row ∈ table :=
    fun hrow => searched_sublist.subset hrow
  exact onOnePage_of_unique (htable.sublist searched_sublist) hrow
    (fun x hx hties => hunique x (hmem hx) row (hmem hrow) hties) query.limit

end Pagination

section Roles

inductive PermissionPolicy where
  | DENY_ALL
  | READ_ALL
  | ALLOW_ALL
  deriving DecidableEq

structure RoleWithRelations where
  id : JsString
  name : JsString
  displayName : JsString
  isSystem : Bool
  permissionPolicy : PermissionPolicy
  permissions : List JsString
  /-- `_count` of the relations. -/
  userRoles : ℕ
  apiKeys : ℕ
  deriving DecidableEq

structure Role where
  id : JsString
  name : JsString
  displayName : JsString
  isSystem : Bool
  permissionPolicy : PermissionPolicy
  permissions : List JsString
  userCount : ℕ
  apiKeyCount : ℕ
  deriving DecidableEq

def mapRole (role : RoleWithRelations) : Role :=
  ⟨role.id, role.name, role.displayName, role.isSystem, role.permissionPolicy, role.permissions,
    role.userRoles, role.apiKeys⟩

/-- The rows of the roles table. -/
structure RolesTable where
  rows : List RoleWithRelations
  id_unique : (rows.map (·.id)).Nodup
  name_unique : (rows.map (·.name)).Nodup

variable (collation : Notification.Collation)

/-- `TIEBREAKER`. -/
def tiebreaker : SortOrder RoleWithRelations := collation.toSortOrder.comap (·.name)

/-- `resolveOrderBy`. -/
def resolveOrderBy (query : PaginationQuery) : SortOrder RoleWithRelations :=
  let direction := toPrismaSortDirection query.sortOrder
  if query.sortField = some (js "userCount") then
    (direction.order (.byKey (·.userRoles))).andThen (tiebreaker collation)
  else if query.sortField = some (js "apiKeyCount") then
    (direction.order (.byKey (·.apiKeys))).andThen (tiebreaker collation)
  else if query.sortField = some (js "displayName") then
    (direction.order (collation.toSortOrder.comap (·.displayName))).andThen (tiebreaker collation)
  else ((SortOrder.byKey (·.isSystem)).reverse).andThen (tiebreaker collation)

/-- `RolesService.findAll`; `contains` is the case-insensitive match of the database. -/
def rolesService (contains : JsString → JsString → Bool) : FindAll RoleWithRelations Role where
  found search row := contains row.displayName search || contains row.name search
  order := resolveOrderBy collation
  view := mapRole

end Roles

section Users

/-- The columns of a user that are listed. -/
structure PublicUser where
  id : JsString
  email : JsString
  name : Option JsString
  isActive : Bool
  isServiceAccount : Bool
  createdAt : ℤ
  deriving DecidableEq

structure UsersTable where
  rows : List PublicUser
  id_unique : (rows.map (·.id)).Nodup
  email_unique : (rows.map (·.email)).Nodup

inductive UserColumn where
  | name
  | email
  | createdAt

def usersSortable : List (JsString × UserColumn) :=
  [(js "name", .name), (js "email", .email), (js "createdAt", .createdAt)]

variable (collation : Notification.Collation)

def UserColumn.order : UserColumn → SortOrder PublicUser
  | .name => collation.toSortOrder.withNone.comap (·.name)
  | .email => collation.toSortOrder.comap (·.email)
  | .createdAt => .byKey (·.createdAt)

/-- `UsersService.findAll`; `rolesForUser` is the RBAC policy. -/
def usersService (contains : JsString → JsString → Bool) {R : Type} (rolesForUser : JsString → List R) :
    FindAll PublicUser (PublicUser × List R) where
  found search row := row.name.any (contains · search) || contains row.email search
  order query :=
    let orderBy := toPrismaOrderBy query usersSortable (.createdAt, .asc)
    orderBy.2.order (orderBy.1.order collation)
  view user := (user, rolesForUser user.id)

end Users

section ApiKeys

structure RoleRef where
  id : JsString
  name : JsString
  displayName : JsString
  deriving DecidableEq

structure ApiKeyRecord where
  id : JsString
  name : JsString
  keyPrefix : JsString
  roleId : JsString
  actingUserId : Option JsString
  role : RoleRef
  scopes : List JsString
  rateLimit : Option ℤ
  isActive : Bool
  expiresAt : Option ℤ
  createdBy : Option JsString
  lastUsedAt : Option ℤ
  createdAt : ℤ
  updatedAt : ℤ
  deriving DecidableEq

structure ApiKeysTable where
  rows : List ApiKeyRecord
  id_unique : (rows.map (·.id)).Nodup

inductive ApiKeyColumn where
  | name
  | createdAt
  | lastUsedAt
  | expiresAt

/-- `ALLOWED_SORT_FIELDS`. -/
def apiKeysAllowedSortFields : List (JsString × ApiKeyColumn) :=
  [(js "name", .name), (js "createdAt", .createdAt), (js "lastUsedAt", .lastUsedAt),
    (js "expiresAt", .expiresAt)]

variable (collation : Notification.Collation)

def ApiKeyColumn.order : ApiKeyColumn → SortOrder ApiKeyRecord
  | .name => collation.toSortOrder.comap (·.name)
  | .createdAt => .byKey (·.createdAt)
  | .lastUsedAt => (SortOrder.byKey (id : ℤ → ℤ)).withNone.comap (·.lastUsedAt)
  | .expiresAt => (SortOrder.byKey (id : ℤ → ℤ)).withNone.comap (·.expiresAt)

/-- `ApiKeysService.findAll`. -/
def apiKeysService (contains : JsString → JsString → Bool) : FindAll ApiKeyRecord ApiKeyRecord where
  found search row := contains row.name search
  order query :=
    let orderBy := toPrismaOrderBy query apiKeysAllowedSortFields (.createdAt, .desc)
    orderBy.2.order (orderBy.1.order collation)
  view := id

end ApiKeys

section Inbox
open Notification

variable (collation : Collation)

/-- `data` of `getInbox`, the rows being `answer` in the order the database has put them. -/
def inboxData (recipientUserId : JsString) (query : NotificationQuery) (answer : Rows) : Rows :=
  match getInbox recipientUserId query with
  | .reading _ page limit _ _ => PagedListing.page limit (page - 1) answer
  | _ => []

/-- Pages `1 .. ceil(total / limit)` of the inbox show every row of it exactly once. -/
def InboxListsOnce (rows : Rows) (recipientUserId owner : JsString) (limit : ℕ) : Prop :=
  ∀ answers : ℕ → Rows,
    (∀ p, Listing (inboxOrder collation) (rows.filter (inInbox owner)) (answers p)) →
    ((List.range (pageCount (rows.filter (inInbox owner)).length limit)).flatMap fun p : ℕ =>
      inboxData recipientUserId ⟨some (p + 1), some limit⟩ (answers p)).Perm
        (rows.filter (inInbox owner))

end Inbox

section Listed
open Notification

variable {collation : Collation} {contains : JsString → JsString → Bool}

lemma eq_of_tiebreaker {table : RolesTable} {a b : RoleWithRelations} (ha : a ∈ table.rows)
    (hb : b ∈ table.rows) (h : (tiebreaker collation).Ties a b) : a = b :=
  List.inj_on_of_nodup_map table.name_unique ha hb (collation.antisymm _ _ h.1 h.2)

/-- Every order of `resolveOrderBy` ends with the unique name. -/
lemma ties_resolveOrderBy {query : PaginationQuery} {a b : RoleWithRelations}
    (h : (resolveOrderBy collation query).Ties a b) : (tiebreaker collation).Ties a b := by
  unfold resolveOrderBy at h
  simp only at h
  split_ifs at h
  all_goals exact (SortOrder.ties_andThen.mp h).2

lemma roles_listed_once (table : RolesTable) (query : PaginationQuery) :
    (rolesService collation contains).ListsOnce table.rows query := by
  have hview : Function.Injective mapRole := by
    intro a b h
    cases a
    cases b
    simpa [mapRole] using h
  have hnodup : table.rows.Nodup := table.id_unique.of_map _
  refine (FindAll.listsOnce_iff hview hnodup query).mpr ?_
  exact FindAll.tiesOnOnePage_of_unique hnodup
    fun a ha b hb h => eq_of_tiebreaker ha hb (ties_resolveOrderBy h)

lemma users_listed_once_iff {R : Type} {rolesForUser : JsString → List R} (table : UsersTable)
    (query : PaginationQuery) :
    (usersService collation contains rolesForUser).ListsOnce table.rows query ↔
      (usersService collation contains rolesForUser).TiesOnOnePage table.rows query :=
  FindAll.listsOnce_iff (fun _ _ h => congrArg Prod.fst h) (table.id_unique.of_map _) query

lemma apiKeys_listed_once_iff (table : ApiKeysTable) (query : PaginationQuery) :
    (apiKeysService collation contains).ListsOnce table.rows query ↔
      (apiKeysService collation contains).TiesOnOnePage table.rows query :=
  FindAll.listsOnce_iff (fun _ _ h => h) (table.id_unique.of_map _) query

lemma eq_of_ties_inboxOrder {rows : Rows} (hrows : Unique rows) {a b : NotificationRecord}
    (ha : a ∈ rows) (hb : b ∈ rows) (h : (inboxOrder collation).Ties a b) : a = b := by
  have hid := SortOrder.ties_reverse.mp (SortOrder.ties_andThen.mp h).2
  exact eq_of_id hrows ha hb (collation.antisymm _ _ hid.1 hid.2)

lemma inboxData_page {recipientUserId owner : JsString} {limit p : ℕ} {answer : Rows}
    (howner : validateRecipient recipientUserId = .ok owner) (hlimit : 1 ≤ limit)
    (hmax : limit ≤ notificationLimits.limit) :
    inboxData recipientUserId ⟨some (p + 1), some limit⟩ answer =
      if p < notificationLimits.page then PagedListing.page limit p answer else [] := by
  by_cases hp : p < notificationLimits.page
  · have hquery := @parseQuery_page limit _ hp (by exact_mod_cast hlimit)
      (by exact_mod_cast hmax)
    simp only [inboxData, getInbox, howner, hquery, Int.toNat_natCast, Nat.add_sub_cancel, if_pos hp]
  · have hquery : parseQuery ⟨some (p + 1), some limit⟩ = .error invalidInput := by
      simp only [parseQuery, Option.getD_some]
      refine if_neg fun h => hp ?_
      have hle := h.2.1
      omega
    simp only [inboxData, getInbox, howner, hquery, if_neg hp]

lemma pageCount_le {total limit pages : ℕ} (hlimit : 0 < limit) (h : total ≤ pages * limit) :
    pageCount total limit ≤ pages := by
  refine Nat.le_of_lt_succ (Nat.div_lt_of_lt_mul ?_)
  rw [Nat.mul_succ, Nat.mul_comm]
  omega

lemma inbox_listed_once_iff {rows : Rows} (hrows : Unique rows) {recipientUserId owner : JsString}
    (howner : validateRecipient recipientUserId = .ok owner) {limit : ℕ} (hlimit : 1 ≤ limit)
    (hmax : limit ≤ notificationLimits.limit) :
    InboxListsOnce collation rows recipientUserId owner limit ↔
      pageCount (rows.filter (inInbox owner)).length limit ≤ notificationLimits.page := by
  have hdata : ∀ (answers : ℕ → Rows) (p : ℕ),
      inboxData recipientUserId ⟨some (p + 1), some limit⟩ (answers p) =
        if p < notificationLimits.page then PagedListing.page limit p (answers p) else [] :=
    fun answers p => inboxData_page howner hlimit hmax
  have hnodup : (rows.filter (inInbox owner)).Nodup :=
    (hrows.imp fun hab h => hab.1 (congrArg _ h)).sublist List.filter_sublist
  unfold InboxListsOnce
  simp only [hdata]
  generalize notificationLimits.page = pages
  constructor
  · intro h
    by_contra hbeyond
    -- past the last accepted page there is nothing
    obtain ⟨sorted, hsorted⟩ := exists_listing (inboxOrder collation) (rows.filter (inInbox owner))
    have hperm := (h (fun _ => sorted) fun _ => hsorted).length_eq
    obtain ⟨rest, hrest⟩ := Nat.exists_eq_add_of_le (not_le.mp hbeyond).le
    have hfirst : (List.range pages).flatMap (fun p =>
        if p < pages then PagedListing.page limit p sorted else []) = sorted.take (pages * limit) := by
      rw [← flatMap_page]
      exact List.flatMap_congr fun p hp => if_pos (List.mem_range.mp hp)
    have hnone : ((List.range rest).map (pages + ·)).flatMap (fun p =>
        if p < pages then PagedListing.page limit p sorted else []) = [] := by
      refine List.flatMap_eq_nil_iff.mpr fun p hp => if_neg ?_
      obtain ⟨k, -, rfl⟩ := List.mem_map.mp hp
      omega
    rw [hrest, List.range_add, List.flatMap_append, hfirst, hnone, List.append_nil,
      List.length_take, hsorted.perm.length_eq] at hperm
    exact hbeyond (pageCount_le hlimit (by omega))
  · intro hpages answers hanswers
    have hall : (List.range (pageCount (rows.filter (inInbox owner)).length limit)).flatMap (fun p =>
        if p < pages then PagedListing.page limit p (answers p) else []) =
        (List.range (pageCount (rows.filter (inInbox owner)).length limit)).flatMap fun p =>
          PagedListing.page limit p (answers p) :=
      List.flatMap_congr fun p hp => if_pos (by have hlt := List.mem_range.mp hp; omega)
    rw [hall]
    refine (listsOnce_of_onOnePage hnodup hlimit fun row hrow => ?_) answers hanswers
    refine onOnePage_of_unique hnodup hrow (fun x hx hties => ?_) limit
    exact eq_of_ties_inboxOrder hrows (List.mem_of_mem_filter hx) (List.mem_of_mem_filter hrow) hties

/-- Paging lists every role exactly once; users and API keys when and only when no rows that are
tied on the one column of their order lie on both sides of a page end; and an inbox when and only
when it has no more pages than a query may ask for. -/
theorem pages_list_rows_once_iff {R : Type} (collation : Collation)
    (contains : JsString → JsString → Bool) (rolesForUser : JsString → List R) (roles : RolesTable)
    (users : UsersTable) (apiKeys : ApiKeysTable) (notifications : Rows)
    (hnotifications : Unique notifications) (recipientUserId owner : JsString)
    (howner : validateRecipient recipientUserId = .ok owner) (query : PaginationQuery) :
    ((rolesService collation contains).ListsOnce roles.rows query ∧
      (usersService collation contains rolesForUser).ListsOnce users.rows query ∧
      (apiKeysService collation contains).ListsOnce apiKeys.rows query ∧
      InboxListsOnce collation notifications recipientUserId owner query.limit) ↔
    ((usersService collation contains rolesForUser).TiesOnOnePage users.rows query ∧
      (apiKeysService collation contains).TiesOnOnePage apiKeys.rows query ∧
      pageCount (notifications.filter (inInbox owner)).length query.limit ≤
        notificationLimits.page) := by
  rw [users_listed_once_iff, apiKeys_listed_once_iff,
    inbox_listed_once_iff hnotifications howner query.limit_pos query.limit_max]
  exact and_iff_right (roles_listed_once roles query)

end Listed

section Ties
open Notification

/-- Two users that were created at one time. -/
def twins : UsersTable where
  rows := [⟨js "u1", js "a@x", none, true, false, 0⟩, ⟨js "u2", js "b@x", none, true, false, 0⟩]
  id_unique := by decide
  email_unique := by decide

def onePerPage : PaginationQuery where
  limit := 1

def noRoles : RolesTable := ⟨[], List.nodup_nil, List.nodup_nil⟩

def noApiKeys : ApiKeysTable := ⟨[], List.nodup_nil⟩

/-- On one page the twins are listed once each. -/
theorem pages_list_rows_once_iff_twins :
    (rolesService codeUnits (fun _ _ => false)).ListsOnce noRoles.rows {} ∧
      (usersService codeUnits (fun _ _ => false) fun _ => ([] : List Unit)).ListsOnce twins.rows {} ∧
      (apiKeysService codeUnits (fun _ _ => false)).ListsOnce noApiKeys.rows {} ∧
      InboxListsOnce codeUnits [] (js "u1") (js "u1") 20 := by
  have htwins : (usersService codeUnits (fun _ _ => false) fun _ => ([] : List Unit)).TiesOnOnePage
      twins.rows {} := by
    unfold FindAll.TiesOnOnePage
    decide +kernel
  exact (pages_list_rows_once_iff codeUnits (fun _ _ => false) (fun _ => ([] : List Unit)) noRoles
    twins noApiKeys [] List.Pairwise.nil (js "u1") (js "u1") (by decide) {}).mpr
      ⟨htwins, fun _ hrow => (nomatch hrow), by decide⟩

/-- By default users are sorted by the time of creation alone, and pages may show one of two
users that were created together twice. -/
theorem twins_not_listed_once :
    ¬ (usersService codeUnits (fun _ _ => false) fun _ => ([] : List Unit)).ListsOnce twins.rows
      onePerPage := by
  rw [users_listed_once_iff]
  unfold FindAll.TiesOnOnePage
  decide +kernel

end Ties

end Appspine.Listings
