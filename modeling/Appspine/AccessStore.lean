import Appspine.KeyedTable
import Appspine.RoleFlattening
import Appspine.UserCreation

/-!
# Tables of roles, assignments and API keys

The statements that the services for roles, users and API keys run. The database refuses a second
row under a unique key and a reference to nothing. With a role go its permissions and assignments;
a role that an API key uses stays, and so does a user that one acts as.
-/
namespace Appspine.AccessStore
open JsText KeyedTable

section Tables

structure Role extends UserCreation.Role where
  isSystem : Bool
  deriving DecidableEq

structure RolePermission where
  roleId : JsString
  permission : JsString
  deriving DecidableEq

/-- A row of `api_keys`. Instants are milliseconds. -/
structure ApiKey where
  id : JsString
  name : JsString
  keyPrefix : JsString
  hashedKey : JsString
  roleId : JsString
  actingUserId : Option JsString
  scopes : List JsString
  rateLimit : Option ℕ
  isActive : Bool
  expiresAt : Option ℕ
  createdBy : Option JsString
  lastUsedAt : Option ℕ
  deriving DecidableEq

structure Database where
  roles : List Role
  rolePermissions : List RolePermission
  users : List UserCreation.PublicUser
  userRoles : List UserCreation.UserRole
  apiKeys : List ApiKey

/-- What the database answers to a statement that it refuses. -/
inductive DatabaseError where
  | P2002
  | P2003
  | P2025
  | other
  deriving DecidableEq

abbrev Database.roleIds (db : Database) : List JsString := db.roles.map (·.id)

abbrev Database.userIds (db : Database) : List JsString := db.users.map (·.id)

/-- The users that API keys act as. -/
abbrev Database.actingUserIds (db : Database) : List JsString :=
  db.apiKeys.filterMap ApiKey.actingUserId

def findRole (db : Database) (id : JsString) : Option Role := lookup (·.id) id db.roles

def findUser (db : Database) (id : JsString) : Option UserCreation.PublicUser :=
  lookup (·.id) id db.users

def findApiKey (db : Database) (id : JsString) : Option ApiKey := lookup ApiKey.id id db.apiKeys

def permissionsOf (db : Database) (roleId : JsString) : List JsString :=
  (db.rolePermissions.filter (fun p => decide (p.roleId = roleId))).map RolePermission.permission

def grantOf (db : Database) (role : Role) : Rbac.RoleGrant :=
  ⟨role.name, role.permissionPolicy, permissionsOf db role.id⟩

/-- `rolesForUser` of the policy service. -/
def rolesForUser (db : Database) (userId : JsString) : List Rbac.RoleGrant :=
  ((db.userRoles.filter (fun row => decide (row.userId = userId))).filterMap
    (fun row => findRole db row.roleId)).map (grantOf db)

end Tables

section Statements

/-- `role.create` with the permissions nested in it. -/
def createRole (db : Database) (role : Role) (permissions : List JsString) :
    Except DatabaseError Database :=
  if role.name ∈ db.roles.map (·.name) ∨ role.id ∈ db.roleIds ∨ ¬ permissions.Nodup then
    .error .P2002
  else
    .ok { db with
      roles := db.roles ++ [role]
      rolePermissions := db.rolePermissions ++ permissions.map (RolePermission.mk role.id) }

/-- The columns of a role that `role.update` can set. -/
def setRole (displayName permissionPolicy : Option JsString) (role : Role) : Role :=
  { role with
    displayName := displayName.getD role.displayName
    permissionPolicy := permissionPolicy.getD role.permissionPolicy }

def updateRole (db : Database) (id : JsString) (displayName permissionPolicy : Option JsString) :
    Except DatabaseError Database :=
  if id ∉ db.roleIds then .error .P2025
  else .ok { db with roles := update (·.id) id (setRole displayName permissionPolicy) db.roles }

/-- `rolePermission.deleteMany` and `rolePermission.createMany`, in one transaction. -/
def replacePermissions (db : Database) (id : JsString) (permissions : List JsString) :
    Except DatabaseError Database :=
  if ¬ permissions.Nodup then .error .P2002
  else if permissions ≠ [] ∧ id ∉ db.roleIds then .error .P2003
  else
    .ok { db with
      rolePermissions := delete RolePermission.roleId id db.rolePermissions ++
        permissions.map (RolePermission.mk id) }

/-- `role.delete`. -/
def deleteRole (db : Database) (id : JsString) : Except DatabaseError Database :=
  if id ∉ db.roleIds then .error .P2025
  else if id ∈ db.apiKeys.map ApiKey.roleId then .error .P2003
  else
    .ok { db with
      roles := delete (·.id) id db.roles
      rolePermissions := delete RolePermission.roleId id db.rolePermissions
      userRoles := delete (·.roleId) id db.userRoles }

/-- `userRole.deleteMany` and `userRole.createMany`, in one transaction. -/
def replaceUserRoles (db : Database) (userId : JsString) (roleIds : List JsString) :
    Except DatabaseError Database :=
  if ¬ roleIds.Nodup then .error .P2002
  else if roleIds ≠ [] ∧ (userId ∉ db.userIds ∨ ¬ roleIds ⊆ db.roleIds) then .error .P2003
  else
    .ok { db with
      userRoles := delete (·.userId) userId db.userRoles ++
        roleIds.map (UserCreation.UserRole.mk userId) }

/-- What `UsersService.create` commits. -/
def insertUser (db : Database) (user : UserCreation.PublicUser) (roleIds : List JsString) :
    Except DatabaseError Database :=
  if user.id ∈ db.userIds ∨ user.email ∈ db.users.map (·.email) ∨ ¬ roleIds.Nodup then
    .error .P2002
  else if ¬ roleIds ⊆ db.roleIds then .error .P2003
  else
    .ok { db with
      users := db.users ++ [user]
      userRoles := db.userRoles ++ roleIds.map (UserCreation.UserRole.mk user.id) }

structure UpdateUserDto where
  name : Option JsString
  isActive : Option Bool
  isServiceAccount : Option Bool

def setUser (dto : UpdateUserDto) (user : UserCreation.PublicUser) : UserCreation.PublicUser :=
  { user with
    name := dto.name.or user.name
    isActive := dto.isActive.getD user.isActive
    isServiceAccount := dto.isServiceAccount.getD user.isServiceAccount }

def updateUser (db : Database) (id : JsString) (dto : UpdateUserDto) :
    Except DatabaseError Database :=
  if id ∉ db.userIds then .error .P2025
  else .ok { db with users := update (·.id) id (setUser dto) db.users }

/-- `user.delete`. -/
def deleteUser (db : Database) (id : JsString) : Except DatabaseError Database :=
  if id ∉ db.userIds then .error .P2025
  else if id ∈ db.actingUserIds then .error .P2003
  else
    .ok { db with
      users := delete (·.id) id db.users
      userRoles := delete (·.userId) id db.userRoles }

/-- The references of a row of `api_keys` are to rows that are there. -/
def hasReferences (db : Database) (key : ApiKey) : Bool :=
  decide (key.roleId ∈ db.roleIds ∧ ∀ userId ∈ key.actingUserId, userId ∈ db.userIds)

def createApiKey (db : Database) (key : ApiKey) : Except DatabaseError Database :=
  if key.hashedKey ∈ db.apiKeys.map ApiKey.hashedKey ∨ key.id ∈ db.apiKeys.map ApiKey.id then
    .error .P2002
  else if hasReferences db key = false then .error .P2003
  else .ok { db with apiKeys := db.apiKeys ++ [key] }

/-- The data of `apiKey.update`: a field that is not given is left, and `null` is given as none. -/
structure UpdateApiKeyDto where
  name : Option JsString
  roleId : Option JsString
  actingUserId : Option (Option JsString)
  scopes : Option (List JsString)
  rateLimit : Option (Option ℕ)
  isActive : Option Bool
  expiresAt : Option (Option ℕ)

def setApiKey (dto : UpdateApiKeyDto) (key : ApiKey) : ApiKey :=
  { key with
    name := dto.name.getD key.name
    roleId := dto.roleId.getD key.roleId
    actingUserId := dto.actingUserId.getD key.actingUserId
    scopes := dto.scopes.getD key.scopes
    rateLimit := dto.rateLimit.getD key.rateLimit
    isActive := dto.isActive.getD key.isActive
    expiresAt := dto.expiresAt.getD key.expiresAt }

def updateApiKey (db : Database) (id : JsString) (dto : UpdateApiKeyDto) :
    Except DatabaseError Database :=
  match findApiKey db id with
  | none => .error .P2025
  | some key =>
    if hasReferences db (setApiKey dto key) = false then .error .P2003
    else .ok { db with apiKeys := update ApiKey.id id (setApiKey dto) db.apiKeys }

/-- The `lastUsedAt` that an authentication writes without waiting for it. -/
def touchApiKey (db : Database) (id : JsString) (now : ℕ) : Database :=
  { db with
    apiKeys := update ApiKey.id id (fun key => { key with lastUsedAt := some now }) db.apiKeys }

def deleteApiKey (db : Database) (id : JsString) : Except DatabaseError Database :=
  if id ∉ db.apiKeys.map ApiKey.id then .error .P2025
  else .ok { db with apiKeys := delete ApiKey.id id db.apiKeys }

end Statements

section Soundness

/-- The constraints of the schema hold. -/
structure Sound (db : Database) : Prop where
  roleIds : db.roleIds.Nodup
  roleNames : (db.roles.map (·.name)).Nodup
  permissions : db.rolePermissions.Nodup
  permissionRoles : Refers RolePermission.roleId db.rolePermissions db.roleIds
  userIds : db.userIds.Nodup
  userEmails : (db.users.map (·.email)).Nodup
  assignments : db.userRoles.Nodup
  assignmentUsers : Refers UserCreation.UserRole.userId db.userRoles db.userIds
  assignmentRoles : Refers UserCreation.UserRole.roleId db.userRoles db.roleIds
  keyIds : (db.apiKeys.map ApiKey.id).Nodup
  keyHashes : (db.apiKeys.map ApiKey.hashedKey).Nodup
  keyRoles : Refers ApiKey.roleId db.apiKeys db.roleIds
  keyUsers : Refers id db.actingUserIds db.userIds

variable {db db' : Database} {id : JsString}

theorem refers_rows {α : Type} {r : JsString → α} {ref : α → JsString} (href : ∀ x, ref (r x) = id)
    {keys : List JsString} {xs : List JsString} (hid : id ∈ keys) : Refers ref (xs.map r) keys := by
  intro child hchild
  obtain ⟨x, -, rfl⟩ := List.mem_map.mp hchild
  rw [href]
  exact hid

/-- New rows under a key that had none. -/
theorem nodup_rows {α : Type} {ref : α → JsString} {rows : List α} (h : rows.Nodup)
    (hfree : ∀ row ∈ rows, ref row ≠ id) {row : JsString → α} (hrow : Function.Injective row)
    (href : ∀ x, ref (row x) = id) {xs : List JsString} (hxs : xs.Nodup) :
    (rows ++ xs.map row).Nodup := by
  refine List.nodup_append.mpr ⟨h, hxs.map hrow, ?_⟩
  rintro a ha b hb rfl
  obtain ⟨x, -, rfl⟩ := List.mem_map.mp hb
  exact hfree _ ha (href x)

theorem nodup_delete_rows {α : Type} {ref : α → JsString} {rows : List α} (h : rows.Nodup) :
    (delete ref id rows).Nodup := h.filter _

theorem delete_free {α : Type} {ref : α → JsString} {rows : List α} :
    ∀ row ∈ delete ref id rows, ref row ≠ id := fun _ hrow => (mem_delete.mp hrow).2

theorem Sound.createRole {role : Role} {permissions : List JsString} (h : Sound db)
    (hdb : createRole db role permissions = .ok db') : Sound db' := by
  unfold AccessStore.createRole at hdb
  split_ifs at hdb with hrefused
  obtain rfl := Except.ok.inj hdb
  simp only [not_or, not_not] at hrefused
  obtain ⟨hname, hid, hpermissions⟩ := hrefused
  have hsub : db.roleIds ⊆ (db.roles ++ [role]).map (·.id) := by
    rw [List.map_append]
    exact List.subset_append_left _ _
  have hnew : role.id ∈ (db.roles ++ [role]).map (·.id) :=
    List.mem_map_of_mem (List.mem_append_right _ (List.mem_singleton_self role))
  have hfree : ∀ p ∈ db.rolePermissions, p.roleId ≠ role.id :=
    fun p hp heq => hid (heq ▸ h.permissionRoles p hp)
  exact { h with
    roleIds := nodup_concat h.roleIds hid
    roleNames := nodup_concat h.roleNames hname
    permissions := nodup_rows h.permissions hfree (fun _ _ heq => (RolePermission.mk.inj heq).2)
      (fun _ => rfl) hpermissions
    permissionRoles := (h.permissionRoles.mono hsub).append
      (refers_rows (r := RolePermission.mk role.id) (fun _ => rfl) hnew)
    assignmentRoles := h.assignmentRoles.mono hsub
    keyRoles := h.keyRoles.mono hsub }

/-- Roles that change in other columns than the unique ones. -/
theorem Sound.setRoles {roles : List Role} (h : Sound db) (hids : roles.map (·.id) = db.roleIds)
    (hnames : roles.map (·.name) = db.roles.map (·.name)) : Sound { db with roles := roles } := by
  have hroleIds : Database.roleIds { db with roles := roles } = db.roleIds := hids
  exact { h with
    roleIds := by rw [hroleIds]; exact h.roleIds
    roleNames := by rw [hnames]; exact h.roleNames
    permissionRoles := by rw [hroleIds]; exact h.permissionRoles
    assignmentRoles := by rw [hroleIds]; exact h.assignmentRoles
    keyRoles := by rw [hroleIds]; exact h.keyRoles }

theorem Sound.updateRole {displayName permissionPolicy : Option JsString} (h : Sound db)
    (hdb : updateRole db id displayName permissionPolicy = .ok db') : Sound db' := by
  unfold AccessStore.updateRole at hdb
  split_ifs at hdb
  obtain rfl := Except.ok.inj hdb
  exact h.setRoles (map_update fun _ => rfl) (map_update fun _ => rfl)

theorem Sound.replacePermissions {permissions : List JsString} (h : Sound db)
    (hdb : replacePermissions db id permissions = .ok db') : Sound db' := by
  unfold AccessStore.replacePermissions at hdb
  split_ifs at hdb with hnodup hrole
  obtain rfl := Except.ok.inj hdb
  refine { h with
    permissions := nodup_rows (nodup_delete_rows h.permissions) delete_free
      (fun _ _ heq => (RolePermission.mk.inj heq).2) (fun _ => rfl) hnodup
    permissionRoles := (h.permissionRoles.subset delete_subset).append ?_ }
  intro child hchild
  obtain ⟨p, hp, rfl⟩ := List.mem_map.mp hchild
  by_contra hid
  exact hrole ⟨List.ne_nil_of_mem hp, hid⟩

theorem Sound.deleteRole (h : Sound db) (hdb : deleteRole db id = .ok db') : Sound db' := by
  unfold AccessStore.deleteRole at hdb
  split_ifs at hdb with _ hused
  obtain rfl := Except.ok.inj hdb
  exact { h with
    roleIds := nodup_delete h.roleIds
    roleNames := nodup_delete h.roleNames
    permissions := nodup_delete_rows h.permissions
    permissionRoles := h.permissionRoles.cascade
    assignments := nodup_delete_rows h.assignments
    assignmentUsers := h.assignmentUsers.subset delete_subset
    assignmentRoles := h.assignmentRoles.cascade
    keyRoles := h.keyRoles.restrict fun key hkey heq => hused (heq ▸ List.mem_map_of_mem hkey) }

theorem Sound.replaceUserRoles {roleIds : List JsString} (h : Sound db)
    (hdb : replaceUserRoles db id roleIds = .ok db') : Sound db' := by
  unfold AccessStore.replaceUserRoles at hdb
  split_ifs at hdb with hnodup hrefers
  obtain rfl := Except.ok.inj hdb
  have hthere : ∀ roleId ∈ roleIds, id ∈ db.userIds ∧ roleId ∈ db.roleIds := by
    intro roleId hmem
    have hrefers := not_and.mp hrefers (List.ne_nil_of_mem hmem)
    simp only [not_or, not_not] at hrefers
    exact ⟨hrefers.1, hrefers.2 hmem⟩
  refine { h with
    assignments := nodup_rows (nodup_delete_rows h.assignments) delete_free
      (fun _ _ heq => (UserCreation.UserRole.mk.inj heq).2) (fun _ => rfl) hnodup
    assignmentUsers := (h.assignmentUsers.subset delete_subset).append ?_
    assignmentRoles := (h.assignmentRoles.subset delete_subset).append ?_ }
  · intro child hchild
    obtain ⟨roleId, hmem, rfl⟩ := List.mem_map.mp hchild
    exact (hthere roleId hmem).1
  · intro child hchild
    obtain ⟨roleId, hmem, rfl⟩ := List.mem_map.mp hchild
    exact (hthere roleId hmem).2

theorem Sound.insertUser {user : UserCreation.PublicUser} {roleIds : List JsString} (h : Sound db)
    (hdb : insertUser db user roleIds = .ok db') : Sound db' := by
  unfold AccessStore.insertUser at hdb
  split_ifs at hdb with htaken hroles
  obtain rfl := Except.ok.inj hdb
  simp only [not_or, not_not] at htaken hroles
  obtain ⟨hid, hemail, hnodup⟩ := htaken
  have hsub : db.userIds ⊆ (db.users ++ [user]).map (·.id) := by
    rw [List.map_append]
    exact List.subset_append_left _ _
  have hnew : user.id ∈ (db.users ++ [user]).map (·.id) :=
    List.mem_map_of_mem (List.mem_append_right _ (List.mem_singleton_self user))
  have hfree : ∀ row ∈ db.userRoles, row.userId ≠ user.id :=
    fun row hrow heq => hid (heq ▸ h.assignmentUsers row hrow)
  refine { h with
    userIds := nodup_concat h.userIds hid
    userEmails := nodup_concat h.userEmails hemail
    assignments := nodup_rows h.assignments hfree
      (fun _ _ heq => (UserCreation.UserRole.mk.inj heq).2) (fun _ => rfl) hnodup
    assignmentUsers := (h.assignmentUsers.mono hsub).append
      (refers_rows (r := UserCreation.UserRole.mk user.id) (fun _ => rfl) hnew)
    assignmentRoles := h.assignmentRoles.append ?_
    keyUsers := h.keyUsers.mono hsub }
  intro child hchild
  obtain ⟨roleId, hmem, rfl⟩ := List.mem_map.mp hchild
  exact hroles hmem

/-- Users that change in other columns than the unique ones. -/
theorem Sound.setUsers {users : List UserCreation.PublicUser} (h : Sound db)
    (hids : users.map (·.id) = db.userIds) (hemails : users.map (·.email) = db.users.map (·.email)) :
    Sound { db with users := users } := by
  have huserIds : Database.userIds { db with users := users } = db.userIds := hids
  exact { h with
    userIds := by rw [huserIds]; exact h.userIds
    userEmails := by rw [hemails]; exact h.userEmails
    assignmentUsers := by rw [huserIds]; exact h.assignmentUsers
    keyUsers := by rw [huserIds]; exact h.keyUsers }

theorem Sound.updateUser {dto : UpdateUserDto} (h : Sound db)
    (hdb : updateUser db id dto = .ok db') : Sound db' := by
  unfold AccessStore.updateUser at hdb
  split_ifs at hdb
  obtain rfl := Except.ok.inj hdb
  exact h.setUsers (map_update fun _ => rfl) (map_update fun _ => rfl)

theorem Sound.deleteUser (h : Sound db) (hdb : deleteUser db id = .ok db') : Sound db' := by
  unfold AccessStore.deleteUser at hdb
  split_ifs at hdb with _ hused
  obtain rfl := Except.ok.inj hdb
  exact { h with
    userIds := nodup_delete h.userIds
    userEmails := nodup_delete h.userEmails
    assignments := nodup_delete_rows h.assignments
    assignmentUsers := h.assignmentUsers.cascade
    assignmentRoles := h.assignmentRoles.subset delete_subset
    keyUsers := h.keyUsers.restrict fun userId hmem heq => hused (heq ▸ hmem) }

theorem hasReferences_iff {key : ApiKey} : hasReferences db key ≠ false ↔
    key.roleId ∈ db.roleIds ∧ ∀ userId ∈ key.actingUserId, userId ∈ db.userIds := by
  rw [hasReferences, ne_eq, decide_eq_false_iff_not, not_not]

theorem Sound.createApiKey {key : ApiKey} (h : Sound db) (hdb : createApiKey db key = .ok db') :
    Sound db' := by
  unfold AccessStore.createApiKey at hdb
  split_ifs at hdb with htaken hrefers
  obtain rfl := Except.ok.inj hdb
  obtain ⟨hrole, huser⟩ := hasReferences_iff.mp hrefers
  rw [not_or] at htaken
  refine { h with
    keyIds := nodup_concat h.keyIds htaken.2
    keyHashes := nodup_concat h.keyHashes htaken.1
    keyRoles := h.keyRoles.append fun child hchild => List.mem_singleton.mp hchild ▸ hrole
    keyUsers := ?_ }
  intro userId hmem
  rw [Database.actingUserIds, List.filterMap_append, List.mem_append] at hmem
  rcases hmem with hmem | hmem
  · exact h.keyUsers userId hmem
  · obtain ⟨child, hchild, heq⟩ := List.mem_filterMap.mp hmem
    rw [List.mem_singleton.mp hchild] at heq
    exact huser userId heq

/-- Rows of `api_keys` that change in other columns than the unique ones. -/
theorem Sound.setApiKeys {f : ApiKey → ApiKey} (h : Sound db) (hid : ∀ key, (f key).id = key.id)
    (hhash : ∀ key, (f key).hashedKey = key.hashedKey)
    (hrefers : ∀ key ∈ db.apiKeys, key.id = id → hasReferences db (f key) ≠ false) :
    Sound { db with apiKeys := update ApiKey.id id f db.apiKeys } := by
  have hrow : ∀ key ∈ update ApiKey.id id f db.apiKeys,
      key.roleId ∈ db.roleIds ∧ ∀ userId ∈ key.actingUserId, userId ∈ db.userIds := by
    intro key hkey
    obtain ⟨old, hold, rfl⟩ := mem_update.mp hkey
    split_ifs with heq
    · exact hasReferences_iff.mp (hrefers old hold heq)
    · exact ⟨h.keyRoles old hold, fun userId hmem =>
        h.keyUsers userId (List.mem_filterMap.mpr ⟨old, hold, hmem⟩)⟩
  have hids : (update ApiKey.id id f db.apiKeys).map ApiKey.id = db.apiKeys.map ApiKey.id :=
    map_update hid
  have hhashes : (update ApiKey.id id f db.apiKeys).map ApiKey.hashedKey =
      db.apiKeys.map ApiKey.hashedKey := map_update hhash
  exact { h with
    keyIds := hids ▸ h.keyIds
    keyHashes := hhashes ▸ h.keyHashes
    keyRoles := fun key hkey => (hrow key hkey).1
    keyUsers := by
      intro userId hmem
      obtain ⟨key, hkey, heq⟩ := List.mem_filterMap.mp hmem
      exact (hrow key hkey).2 userId heq }

theorem Sound.updateApiKey {dto : UpdateApiKeyDto} (h : Sound db)
    (hdb : updateApiKey db id dto = .ok db') : Sound db' := by
  unfold AccessStore.updateApiKey at hdb
  split at hdb
  · cases hdb
  · next key hkey =>
    split_ifs at hdb with hrefers
    obtain rfl := Except.ok.inj hdb
    refine h.setApiKeys (fun _ => rfl) (fun _ => rfl) fun other hother heq => ?_
    obtain ⟨hmem, hid⟩ := mem_of_lookup hkey
    rwa [List.inj_on_of_nodup_map h.keyIds hother hmem (heq.trans hid.symm)]

theorem Sound.touchApiKey {now : ℕ} (h : Sound db) : Sound (touchApiKey db id now) := by
  refine h.setApiKeys (fun _ => rfl) (fun _ => rfl) fun key hkey _ => hasReferences_iff.mpr ?_
  exact ⟨h.keyRoles key hkey, fun userId hmem =>
    h.keyUsers userId (List.mem_filterMap.mpr ⟨key, hkey, hmem⟩)⟩

theorem Sound.deleteApiKey (h : Sound db) (hdb : deleteApiKey db id = .ok db') : Sound db' := by
  unfold AccessStore.deleteApiKey at hdb
  split_ifs at hdb
  obtain rfl := Except.ok.inj hdb
  refine { h with
    keyIds := nodup_delete h.keyIds
    keyHashes := nodup_delete h.keyHashes
    keyRoles := h.keyRoles.subset delete_subset
    keyUsers := h.keyUsers.subset ?_ }
  intro userId hmem
  obtain ⟨key, hkey, heq⟩ := List.mem_filterMap.mp hmem
  exact List.mem_filterMap.mpr ⟨key, (mem_delete.mp hkey).1, heq⟩

end Soundness

end Appspine.AccessStore
