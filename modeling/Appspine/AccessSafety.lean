import Appspine.AccessRuns
import Appspine.Results

/-!
# What every interleaving of the services leaves intact

The constraints of the schema, the system roles, the permissions of the administrator, and for
every role one list of permissions as one call committed it.
-/
namespace Appspine.AccessRuns
open JsText AccessStore KeyedTable Transitions

section Effects

/-- What a role is known by: none of it is ever written again. -/
structure Identity where
  id : JsString
  name : JsString
  isSystem : Bool
  deriving DecidableEq

def identityOf (role : Role) : Identity := ⟨role.id, role.name, role.isSystem⟩

def identities (db : Database) : List Identity := db.roles.map identityOf

variable {e : Environment} {db db' : Database} {call : ℕ} {id : JsString}

theorem mem_roleIds : id ∈ db.roleIds ↔ ∃ role ∈ identities db, role.id = id := by
  simp [identities, Database.roleIds, identityOf]

/-- The permissions that a call sets, and of which role. -/
def assigned (e : Environment) (call : ℕ) : Option (JsString × List JsString) :=
  match e.calls call with
  | .createRole dto => some (e.newId call, dto.permissions)
  | .updateRole id dto => dto.permissions.map (Prod.mk id)
  | .replacePermissions id permissions => some (id, permissions)
  | _ => none

theorem permissionsOf_append (id : JsString) {rows : List RolePermission} {permissions : List JsString}
    (hrows : db'.rolePermissions = rows ++ permissions.map (RolePermission.mk id))
    (hfree : ∀ row ∈ rows, row.roleId ≠ id) (other : JsString) :
    permissionsOf db' other = if other = id then permissions else
      (rows.filter (fun p => decide (p.roleId = other))).map RolePermission.permission := by
  rw [permissionsOf, hrows, List.filter_append, List.map_append]
  split_ifs with heq
  · subst heq
    have hnone : rows.filter (fun p => decide (p.roleId = other)) = [] := by
      rw [List.filter_eq_nil_iff]
      intro row hrow
      simpa using hfree row hrow
    have hall : (permissions.map (RolePermission.mk other)).filter
        (fun p => decide (p.roleId = other)) = permissions.map (RolePermission.mk other) := by
      rw [List.filter_eq_self]
      simp
    rw [hnone, hall, List.map_map]
    simp [Function.comp_def]
  · have hnone : (permissions.map (RolePermission.mk id)).filter
        (fun p => decide (p.roleId = other)) = [] := by
      rw [List.filter_eq_nil_iff]
      intro row hrow
      obtain ⟨p, -, rfl⟩ := List.mem_map.mp hrow
      simpa using Ne.symm heq
    rw [hnone, List.map_nil, List.append_nil]

theorem filter_delete {rows : List RolePermission} {other : JsString} (h : other ≠ id) :
    (delete RolePermission.roleId id rows).filter (fun p => decide (p.roleId = other)) =
      rows.filter (fun p => decide (p.roleId = other)) := by
  rw [delete, List.filter_filter]
  refine List.filter_congr fun row _ => ?_
  by_cases hrow : row.roleId = other
  · simp [hrow, h]
  · simp [hrow]

/-- What a write can do to the roles and their permissions. -/
inductive RoleEffect (e : Environment) (call : ℕ) (db db' : Database) : Prop
  | same (hroles : identities db' = identities db)
      (hpermissions : ∀ id, permissionsOf db' id = permissionsOf db id)
  | created (dto : CreateRoleDto) (hcall : e.calls call = .createRole dto)
      (hroles : identities db' = identities db ++ [⟨e.newId call, dto.name, false⟩])
      (hpermissions : ∀ id, permissionsOf db' id =
        if id = e.newId call then dto.permissions else permissionsOf db id)
  | granted (id : JsString) (permissions : List JsString)
      (hcall : e.calls call = .replacePermissions id permissions ∨
        ∃ dto, e.calls call = .updateRole id dto ∧ dto.permissions = some permissions)
      (hroles : identities db' = identities db)
      (hpermissions : ∀ other, permissionsOf db' other =
        if other = id then permissions else permissionsOf db other)
  | removed (id : JsString) (hcall : e.calls call = .removeRole id)
      (hroles : identities db' = (identities db).filter (fun role => decide (role.id ≠ id)))
      (hpermissions : ∀ other, other ≠ id → permissionsOf db' other = permissionsOf db other)

theorem roleEffect_of_createRole {dto : CreateRoleDto} (hsound : Sound db)
    (hcall : e.calls call = .createRole dto)
    (h : createRole db (newRole e call dto) dto.permissions = .ok db') : RoleEffect e call db db' := by
  unfold AccessStore.createRole at h
  split_ifs at h with hrefused
  obtain rfl := Except.ok.inj h
  rw [not_or, not_or] at hrefused
  refine .created dto hcall (by simp [identities, identityOf, newRole]) fun id => ?_
  refine permissionsOf_append (newRole e call dto).id rfl ?_ id
  intro row hrow heq
  exact hrefused.2.1 (heq ▸ hsound.permissionRoles row hrow)

theorem updateRole_frame {displayName permissionPolicy : Option JsString}
    (h : updateRole db id displayName permissionPolicy = .ok db') :
    identities db' = identities db ∧ ∀ id, permissionsOf db' id = permissionsOf db id := by
  unfold updateRole at h
  split_ifs at h
  obtain rfl := Except.ok.inj h
  exact ⟨map_update fun _ => rfl, fun _ => rfl⟩

theorem replacePermissions_effect {permissions : List JsString}
    (h : AccessStore.replacePermissions db id permissions = .ok db') :
    identities db' = identities db ∧ ∀ other, permissionsOf db' other =
      if other = id then permissions else permissionsOf db other := by
  unfold AccessStore.replacePermissions at h
  split_ifs at h
  obtain rfl := Except.ok.inj h
  refine ⟨rfl, fun other => ?_⟩
  rw [permissionsOf_append _ rfl delete_free]
  split_ifs with heq
  · rfl
  · rw [filter_delete heq, permissionsOf]

theorem roleEffect_of_deleteRole (hcall : e.calls call = .removeRole id)
    (h : deleteRole db id = .ok db') : RoleEffect e call db db' := by
  unfold deleteRole at h
  split_ifs at h
  obtain rfl := Except.ok.inj h
  refine .removed id hcall ?_ fun other hne => ?_
  · rw [identities, identities, List.filter_map]
    rfl
  · rw [permissionsOf, filter_delete hne, permissionsOf]

/-- Statements on other tables. -/
theorem roleEffect_of_eq (hroles : db'.roles = db.roles)
    (hpermissions : db'.rolePermissions = db.rolePermissions) : RoleEffect e call db db' :=
  .same (by rw [identities, hroles, identities])
    fun id => by rw [permissionsOf, hpermissions, permissionsOf]

theorem roleEffect_of_write (hsound : Sound db) (h : write e call db = .ok db') :
    RoleEffect e call db db' := by
  unfold write at h
  split at h
  · next dto hcall => exact roleEffect_of_createRole hsound hcall h
  · next id dto hcall =>
    split at h
    · obtain ⟨hroles, hpermissions⟩ := updateRole_frame h
      exact .same hroles hpermissions
    · next permissions hgiven =>
      obtain ⟨mid, hmid, hdb⟩ := Results.bind_eq_ok.mp h
      obtain ⟨hroles, hpermissions⟩ := updateRole_frame hmid
      obtain ⟨hroles', hpermissions'⟩ := replacePermissions_effect hdb
      refine .granted id permissions (.inr ⟨dto, hcall, hgiven⟩) (hroles'.trans hroles) fun other => ?_
      rw [hpermissions', hpermissions]
  · next id permissions hcall =>
    obtain ⟨hroles, hpermissions⟩ := replacePermissions_effect h
    exact .granted id permissions (.inl hcall) hroles hpermissions
  · next id hcall => exact roleEffect_of_deleteRole hcall h
  · unfold updateUser at h
    split_ifs at h
    obtain rfl := Except.ok.inj h
    exact roleEffect_of_eq rfl rfl
  · unfold replaceUserRoles at h
    split_ifs at h
    obtain rfl := Except.ok.inj h
    exact roleEffect_of_eq rfl rfl
  · unfold deleteUser at h
    split_ifs at h
    obtain rfl := Except.ok.inj h
    exact roleEffect_of_eq rfl rfl
  · unfold createApiKey at h
    split_ifs at h
    obtain rfl := Except.ok.inj h
    exact roleEffect_of_eq rfl rfl
  · unfold updateApiKey at h
    split at h
    · cases h
    · split_ifs at h
      obtain rfl := Except.ok.inj h
      exact roleEffect_of_eq rfl rfl
  · unfold deleteApiKey at h
    split_ifs at h
    obtain rfl := Except.ok.inj h
    exact roleEffect_of_eq rfl rfl

theorem sound_of_write (hsound : Sound db) (h : write e call db = .ok db') : Sound db' := by
  unfold write at h
  split at h
  · exact hsound.createRole h
  · split at h
    · exact hsound.updateRole h
    · obtain ⟨mid, hmid, hdb⟩ := Results.bind_eq_ok.mp h
      exact (hsound.updateRole hmid).replacePermissions hdb
  · exact hsound.replacePermissions h
  · exact hsound.deleteRole h
  · exact hsound.updateUser h
  · exact hsound.replaceUserRoles h
  · exact hsound.deleteUser h
  · exact hsound.createApiKey h
  · exact hsound.updateApiKey h
  · exact hsound.deleteApiKey h

theorem roles_insertUser {user : UserCreation.PublicUser} {roleIds : List JsString}
    (h : insertUser db user roleIds = .ok db') :
    db'.roles = db.roles ∧ db'.rolePermissions = db.rolePermissions := by
  unfold insertUser at h
  split_ifs at h
  obtain rfl := Except.ok.inj h
  exact ⟨rfl, rfl⟩

end Effects

section Demands

def Editable (role : Identity) : Prop := role.name ≠ Rbac.SYSTEM_ADMIN_ROLE

def Removable (role : Identity) : Prop := role.isSystem = false

/-- What the check of a call asks of the role that the call is about. -/
def demand : Call → Option (JsString × (Identity → Prop))
  | .updateRole id dto => dto.permissions.map (fun _ => (id, Editable))
  | .replacePermissions id _ => some (id, Editable)
  | .removeRole id => some (id, Removable)
  | _ => none

variable {db : Database} {id : JsString}

theorem identity_of_findRole (hsound : Sound db) {role : Role} (h : findRole db id = some role)
    {identity : Identity} (hmem : identity ∈ identities db) (hid : identity.id = id) :
    identity = identityOf role := by
  obtain ⟨other, hother, rfl⟩ := List.mem_map.mp hmem
  obtain ⟨hrole, hrid⟩ := mem_of_lookup h
  rw [List.inj_on_of_nodup_map hsound.roleIds hother hrole (hid.trans hrid.symm)]

theorem editable_of_checkRole (hsound : Sound db) (h : checkRole id true db = none) :
    id ∈ db.roleIds ∧ ∀ role ∈ identities db, role.id = id → Editable role := by
  unfold checkRole at h
  split at h
  · cases h
  · next role hrole =>
    obtain ⟨hmem, hid⟩ := mem_of_lookup hrole
    refine ⟨hid ▸ List.mem_map_of_mem hmem, fun identity hidentity heq => ?_⟩
    rw [identity_of_findRole hsound hrole hidentity heq]
    split_ifs at h with hname
    exact fun hadmin => hname ⟨rfl, hadmin⟩

theorem removable_of_checkRemoval (hsound : Sound db) (h : checkRemoval id db = none) :
    id ∈ db.roleIds ∧ ∀ role ∈ identities db, role.id = id → Removable role := by
  unfold checkRemoval at h
  split at h
  · cases h
  · next role hrole =>
    obtain ⟨hmem, hid⟩ := mem_of_lookup hrole
    split_ifs at h with hsystem
    refine ⟨hid ▸ List.mem_map_of_mem hmem, fun identity hidentity heq => ?_⟩
    rw [identity_of_findRole hsound hrole hidentity heq]
    exact Bool.eq_false_iff.mpr hsystem

/-- A call that passes its check finds the role as it demands it. -/
theorem demand_of_check {call : Call} {P : Identity → Prop} {passed : ℕ} {read : Check}
    (hsound : Sound db) (hdemand : demand call = some (id, P))
    (hread : (checks call)[passed]? = some read) (hpass : read db = none) :
    id ∈ db.roleIds ∧ ∀ role ∈ identities db, role.id = id → P role := by
  have hsingle : ∀ {first : Check}, checks call = [first] → read = first := by
    intro first hfirst
    rw [hfirst] at hread
    exact List.mem_singleton.mp (List.mem_of_getElem? hread)
  cases call with
  | updateRole id' dto =>
    obtain ⟨permissions, hgiven, heq⟩ := Option.map_eq_some_iff.mp hdemand
    obtain ⟨rfl, rfl⟩ := Prod.mk.inj heq
    rw [hsingle rfl, hgiven] at hpass
    exact editable_of_checkRole hsound hpass
  | replacePermissions id' permissions =>
    obtain ⟨rfl, rfl⟩ := Prod.mk.inj (Option.some.inj hdemand)
    rw [hsingle rfl] at hpass
    exact editable_of_checkRole hsound hpass
  | removeRole id' =>
    obtain ⟨rfl, rfl⟩ := Prod.mk.inj (Option.some.inj hdemand)
    rw [hsingle rfl] at hpass
    exact removable_of_checkRemoval hsound hpass
  | _ => cases hdemand

theorem length_checks_of_demand {call : Call} {P : Identity → Prop}
    (hdemand : demand call = some (id, P)) : (checks call).length = 1 := by
  cases call with
  | updateRole _ _ => rfl
  | replacePermissions _ _ => rfl
  | removeRole _ => rfl
  | _ => cases hdemand

end Demands

section Invariant

variable {e : Environment} {db₀ : Database} {s t : State}

/-- The id of a role that stands in the database, or stood there. -/
def Known (e : Environment) (db₀ : Database) (s : State) (id : JsString) : Prop :=
  id ∈ db₀.roleIds ∨ ∃ call, (s.phase call).hasWritten = true ∧ e.newId call = id

theorem Known.step (h : Step e s t) {id : JsString} (hid : Known e db₀ s id) : Known e db₀ t id :=
  hid.imp_right fun ⟨call, hwritten, heq⟩ => ⟨call, hasWritten_of_step h hwritten, heq⟩

theorem not_known (hfresh : Fresh e db₀) {call : ℕ} (hphase : (s.phase call).hasWritten = false) :
    ¬ Known e db₀ s (e.newId call) := by
  rintro (h | ⟨other, hwritten, heq⟩)
  · exact hfresh.roles call h
  · rw [hfresh.newId heq, hphase] at hwritten
    cases hwritten

/-- The permissions of a role are those it began with, or those that one call has set. -/
def Granted (e : Environment) (db₀ : Database) (s : State) (id : JsString) : Prop :=
  (id ∈ db₀.roleIds ∧ permissionsOf s.db id = permissionsOf db₀ id) ∨
    ∃ call, (s.phase call).hasWritten = true ∧ assigned e call = some (id, permissionsOf s.db id)

structure Intact (e : Environment) (db₀ : Database) (s : State) : Prop where
  sound : Sound s.db
  known : ∀ role ∈ identities s.db, Known e db₀ s role.id
  checked : ∀ call passed id P, s.phase call = .checking (passed + 1) →
    demand (e.calls call) = some (id, P) →
      Known e db₀ s id ∧ ∀ role ∈ identities s.db, role.id = id → P role
  unchanged : ∀ role ∈ identities s.db, role.id ∈ db₀.roleIds → role ∈ identities db₀
  system : ∀ role ∈ identities s.db, role.isSystem = true → role ∈ identities db₀
  kept : ∀ role ∈ identities db₀, role.isSystem = true → role ∈ identities s.db
  admin : ∀ role ∈ identities s.db, role ∈ identities db₀ → role.name = Rbac.SYSTEM_ADMIN_ROLE →
    permissionsOf s.db role.id = permissionsOf db₀ role.id
  granted : ∀ role ∈ identities s.db, Granted e db₀ s role.id

theorem intact_initial (hsound : Sound db₀) : Intact e db₀ (initial db₀) where
  sound := hsound
  known := fun role hrole => .inl (mem_roleIds.mpr ⟨role, hrole, rfl⟩)
  checked := fun _ _ _ _ hphase _ => absurd (Phase.checking.inj hphase) (by omega)
  unchanged := fun _ hrole _ => hrole
  system := fun _ hrole _ => hrole
  kept := fun _ hrole _ => hrole
  admin := fun _ _ _ _ => rfl
  granted := fun role hrole => .inl ⟨mem_roleIds.mpr ⟨role, hrole, rfl⟩, rfl⟩

/-- A step that leaves the roles and their permissions as they are. -/
theorem Intact.of_same (h : Intact e db₀ s) (hstep : Step e s t) (hsound : Sound t.db)
    (hroles : identities t.db = identities s.db)
    (hpermissions : ∀ id, permissionsOf t.db id = permissionsOf s.db id)
    (hchecked : ∀ call passed id P, t.phase call = .checking (passed + 1) →
      demand (e.calls call) = some (id, P) → s.phase call = .checking (passed + 1) ∨
        (id ∈ s.db.roleIds ∧ ∀ role ∈ identities s.db, role.id = id → P role)) :
    Intact e db₀ t where
  sound := hsound
  known := fun role hrole => (h.known role (hroles ▸ hrole)).step hstep
  checked := by
    intro call passed id P hphase hdemand
    rw [hroles]
    rcases hchecked call passed id P hphase hdemand with hold | ⟨hid, hall⟩
    · obtain ⟨hid, hall⟩ := h.checked call passed id P hold hdemand
      exact ⟨hid.step hstep, hall⟩
    · obtain ⟨role, hrole, rfl⟩ := mem_roleIds.mp hid
      exact ⟨(h.known role hrole).step hstep, hall⟩
  unchanged := fun role hrole => h.unchanged role (hroles ▸ hrole)
  system := fun role hrole => h.system role (hroles ▸ hrole)
  kept := fun role hrole hsystem => hroles ▸ h.kept role hrole hsystem
  admin := fun role hrole => by
    rw [hpermissions]
    exact h.admin role (hroles ▸ hrole)
  granted := by
    intro role hrole
    rw [Granted, hpermissions]
    refine (h.granted role (hroles ▸ hrole)).imp_right ?_
    rintro ⟨call, hwritten, heq⟩
    exact ⟨call, hasWritten_of_step hstep hwritten, heq⟩

theorem mem_roleIds_of_identity {db : Database} {role : Identity} (h : role ∈ identities db) :
    role.id ∈ db.roleIds := mem_roleIds.mpr ⟨role, h, rfl⟩

/-- No call has passed a check on the way. -/
def Pending (s t : State) : Prop :=
  ∀ call before, t.phase call = .checking (before + 1) → s.phase call = .checking (before + 1)

theorem Granted.step (hstep : Step e s t) {id : JsString}
    (hsame : permissionsOf t.db id = permissionsOf s.db id) (h : Granted e db₀ s id) :
    Granted e db₀ t id := by
  rw [Granted, hsame]
  refine h.imp_right ?_
  rintro ⟨call, hwritten, heq⟩
  exact ⟨call, hasWritten_of_step hstep hwritten, heq⟩

theorem Intact.created (hfresh : Fresh e db₀) (h : Intact e db₀ s) (hstep : Step e s t)
    (hsound : Sound t.db) (hpending : Pending s t) {call : ℕ} {dto : CreateRoleDto}
    (hcall : e.calls call = .createRole dto) (hunwritten : (s.phase call).hasWritten = false)
    (hwritten : (t.phase call).hasWritten = true)
    (hroles : identities t.db = identities s.db ++ [⟨e.newId call, dto.name, false⟩])
    (hpermissions : ∀ id, permissionsOf t.db id =
      if id = e.newId call then dto.permissions else permissionsOf s.db id) : Intact e db₀ t := by
  have hnew : ¬ Known e db₀ s (e.newId call) := not_known hfresh hunwritten
  have hmem : ∀ role ∈ identities t.db, role ∈ identities s.db ∨
      role = ⟨e.newId call, dto.name, false⟩ := by
    intro role hrole
    rw [hroles] at hrole
    exact (List.mem_append.mp hrole).imp_right List.mem_singleton.mp
  have hsame : ∀ role ∈ identities s.db, permissionsOf t.db role.id = permissionsOf s.db role.id := by
    intro role hrole
    have hne : role.id ≠ e.newId call := fun heq => hnew (heq ▸ h.known role hrole)
    rw [hpermissions, if_neg hne]
  refine ⟨hsound, ?_, ?_, ?_, ?_, ?_, ?_, ?_⟩
  · intro role hrole
    rcases hmem role hrole with hold | rfl
    · exact (h.known role hold).step hstep
    · exact .inr ⟨call, hwritten, rfl⟩
  · intro other before id P hother hdemand
    obtain ⟨hid, hall⟩ := h.checked other before id P (hpending other before hother) hdemand
    refine ⟨hid.step hstep, fun role hrole heq => ?_⟩
    rcases hmem role hrole with hold | rfl
    · exact hall role hold heq
    · obtain rfl : e.newId call = id := heq
      exact absurd hid hnew
  · intro role hrole hid
    rcases hmem role hrole with hold | rfl
    · exact h.unchanged role hold hid
    · exact absurd hid (hfresh.roles call)
  · intro role hrole hsystem
    rcases hmem role hrole with hold | rfl
    · exact h.system role hold hsystem
    · cases hsystem
  · intro role hrole hsystem
    rw [hroles]
    exact List.mem_append_left _ (h.kept role hrole hsystem)
  · intro role hrole hbase hname
    rcases hmem role hrole with hold | rfl
    · rw [hsame role hold]
      exact h.admin role hold hbase hname
    · exact absurd (mem_roleIds_of_identity hbase) (hfresh.roles call)
  · intro role hrole
    rcases hmem role hrole with hold | rfl
    · exact (h.granted role hold).step hstep (hsame role hold)
    · refine .inr ⟨call, hwritten, ?_⟩
      rw [hpermissions, if_pos rfl, assigned, hcall]

theorem Intact.granted_of (h : Intact e db₀ s) (hstep : Step e s t) (hsound : Sound t.db)
    (hpending : Pending s t) {call : ℕ} {id : JsString} {permissions : List JsString}
    (hassigned : assigned e call = some (id, permissions))
    (heditable : ∀ role ∈ identities s.db, role.id = id → Editable role)
    (hwritten : (t.phase call).hasWritten = true) (hroles : identities t.db = identities s.db)
    (hpermissions : ∀ other, permissionsOf t.db other =
      if other = id then permissions else permissionsOf s.db other) : Intact e db₀ t := by
  refine ⟨hsound, ?_, ?_, ?_, ?_, ?_, ?_, ?_⟩
  · exact fun role hrole => (h.known role (hroles ▸ hrole)).step hstep
  · intro other before id' P hother hdemand
    obtain ⟨hid, hall⟩ := h.checked other before id' P (hpending other before hother) hdemand
    exact ⟨hid.step hstep, fun role hrole => hall role (hroles ▸ hrole)⟩
  · exact fun role hrole => h.unchanged role (hroles ▸ hrole)
  · exact fun role hrole => h.system role (hroles ▸ hrole)
  · exact fun role hrole hsystem => hroles ▸ h.kept role hrole hsystem
  · intro role hrole hbase hname
    have hold : role ∈ identities s.db := hroles ▸ hrole
    have hne : role.id ≠ id := fun heq => heditable role hold heq hname
    rw [hpermissions, if_neg hne]
    exact h.admin role hold hbase hname
  · intro role hrole
    by_cases heq : role.id = id
    · refine .inr ⟨call, hwritten, ?_⟩
      rw [hpermissions, if_pos heq, hassigned, heq]
    · exact (h.granted role (hroles ▸ hrole)).step hstep (by rw [hpermissions, if_neg heq])

theorem Intact.removed (h : Intact e db₀ s) (hstep : Step e s t) (hsound : Sound t.db)
    (hpending : Pending s t) {id : JsString}
    (hremovable : ∀ role ∈ identities s.db, role.id = id → Removable role)
    (hroles : identities t.db = (identities s.db).filter (fun role => decide (role.id ≠ id)))
    (hpermissions : ∀ other, other ≠ id → permissionsOf t.db other = permissionsOf s.db other) :
    Intact e db₀ t := by
  have hmem : ∀ role ∈ identities t.db, role ∈ identities s.db ∧ role.id ≠ id := by
    intro role hrole
    rw [hroles] at hrole
    exact ⟨(List.mem_filter.mp hrole).1, of_decide_eq_true (List.mem_filter.mp hrole).2⟩
  refine ⟨hsound, ?_, ?_, ?_, ?_, ?_, ?_, ?_⟩
  · exact fun role hrole => (h.known role (hmem role hrole).1).step hstep
  · intro other before id' P hother hdemand
    obtain ⟨hid, hall⟩ := h.checked other before id' P (hpending other before hother) hdemand
    exact ⟨hid.step hstep, fun role hrole => hall role (hmem role hrole).1⟩
  · exact fun role hrole => h.unchanged role (hmem role hrole).1
  · exact fun role hrole => h.system role (hmem role hrole).1
  · intro role hrole hsystem
    have hold := h.kept role hrole hsystem
    rw [hroles]
    refine List.mem_filter.mpr ⟨hold, decide_eq_true fun heq => ?_⟩
    have hnot : role.isSystem = false := hremovable role hold heq
    rw [hnot] at hsystem
    cases hsystem
  · intro role hrole hbase hname
    obtain ⟨hold, hne⟩ := hmem role hrole
    rw [hpermissions _ hne]
    exact h.admin role hold hbase hname
  · intro role hrole
    obtain ⟨hold, hne⟩ := hmem role hrole
    exact (h.granted role hold).step hstep (hpermissions _ hne)

/-- A call writes: what it found when it checked still holds of the role. -/
theorem Intact.write (hfresh : Fresh e db₀) (h : Intact e db₀ s) {call passed : ℕ} {db : Database}
    (hphase : s.phase call = .checking passed)
    (hchecked : (checks (e.calls call)).length ≤ passed) (hwrite : write e call s.db = .ok db) :
    Intact e db₀ ({ s with db := db }.setPhase call .written) := by
  have hstep : Step e s ({ s with db := db }.setPhase call .written) :=
    .write hphase hchecked hwrite
  have hsound : Sound ({ s with db := db }.setPhase call .written).db := sound_of_write h.sound hwrite
  have hwritten : (({ s with db := db }.setPhase call .written).phase call).hasWritten = true := by
    rw [phase_setPhase_self]
    rfl
  have hdemanded : ∀ id P, demand (e.calls call) = some (id, P) →
      ∀ role ∈ identities s.db, role.id = id → P role := by
    intro id P hdemand
    have hlength := length_checks_of_demand hdemand
    obtain ⟨before, rfl⟩ : ∃ before, passed = before + 1 := ⟨passed - 1, by omega⟩
    exact (h.checked call before id P hphase hdemand).2
  have hpending : Pending s ({ s with db := db }.setPhase call .written) := by
    intro other before hother
    by_cases heq : other = call
    · rw [heq, phase_setPhase_self] at hother
      cases hother
    · rwa [phase_setPhase_ne _ _ heq] at hother
  cases roleEffect_of_write h.sound hwrite with
  | same hroles hpermissions =>
    exact h.of_same hstep hsound hroles hpermissions
      fun other before id P hother _ => .inl (hpending other before hother)
  | created dto hcall hroles hpermissions =>
    exact h.created hfresh hstep hsound hpending hcall (by rw [hphase]; rfl) hwritten hroles
      hpermissions
  | granted id permissions hcall hroles hpermissions =>
    have hboth : demand (e.calls call) = some (id, Editable) ∧
        assigned e call = some (id, permissions) := by
      rcases hcall with hcall | ⟨dto, hcall, hgiven⟩
      · simp [demand, assigned, hcall]
      · simp [demand, assigned, hcall, hgiven]
    exact h.granted_of hstep hsound hpending hboth.2 (hdemanded id Editable hboth.1) hwritten hroles
      hpermissions
  | removed id hcall hroles hpermissions =>
    exact h.removed hstep hsound hpending (hdemanded id Removable (by rw [hcall]; rfl)) hroles
      hpermissions

theorem Intact.step (hfresh : Fresh e db₀) (h : Intact e db₀ s) (hstep : Step e s t) :
    Intact e db₀ t := by
  have hset : ∀ {call other before : ℕ} {phase : Phase},
      (s.setPhase call phase).phase other = .checking (before + 1) →
        phase = .checking (before + 1) ∧ other = call ∨ s.phase other = .checking (before + 1) := by
    intro call other before phase hother
    by_cases heq : other = call
    · rw [heq, phase_setPhase_self] at hother
      exact .inl ⟨hother, heq⟩
    · rw [phase_setPhase_ne _ _ heq] at hother
      exact .inr hother
  cases hstep with
  | @pass call passed read hphase hread hpass =>
    refine h.of_same (.pass hphase hread hpass) h.sound rfl (fun _ => rfl) ?_
    intro other before id P hother hdemand
    rcases hset hother with ⟨-, rfl⟩ | hold
    · exact .inr (demand_of_check h.sound hdemand hread hpass)
    · exact .inl hold
  | refuse error hphase =>
    refine h.of_same (.refuse error hphase) h.sound rfl (fun _ => rfl) ?_
    intro other before id P hother _
    rcases hset hother with ⟨hnot, -⟩ | hold
    · cases hnot
    · exact .inl hold
  | write hphase hchecked hwrite => exact h.write hfresh hphase hchecked hwrite
  | finish hphase hwritten =>
    refine h.of_same (.finish hphase hwritten) h.sound rfl (fun _ => rfl) ?_
    intro other before id P hother _
    rcases hset hother with ⟨hnot, -⟩ | hold
    · rw [hnot] at hwritten
      cases hwritten
    · exact .inl hold
  | touch id now =>
    exact h.of_same (.touch id now) h.sound.touchApiKey rfl (fun _ => rfl)
      fun other before id P hother _ => .inl hother
  | commitUser hinsert =>
    obtain ⟨hroles, hpermissions⟩ := roles_insertUser hinsert
    refine h.of_same (.commitUser hinsert) (h.sound.insertUser hinsert) ?_ ?_
      fun other before id P hother _ => .inl hother
    · rw [identities, hroles, identities]
    · intro id
      rw [permissionsOf, hpermissions, permissionsOf]

theorem intact_run (hfresh : Fresh e db₀) (hsound : Sound db₀) {actions : List Action}
    (hrun : run (step e) (initial db₀) actions = some t) : Intact e db₀ t :=
  run_invariant (fun _ _ _ h hstep => h.step hfresh (step_cases hstep)) (intact_initial hsound) hrun

end Invariant

section Access

/-- An administrator, a role that nobody has, and a user. -/
def clerks : Database :=
  { roles :=
      [ ⟨⟨js "a", js "ADMIN", js "Administrator", js "ALLOW_ALL"⟩, true⟩,
        ⟨⟨js "c", js "CLERK", js "Clerk", js "DENY_ALL"⟩, false⟩ ]
    rolePermissions := [⟨js "c", js "USERS_READ"⟩]
    users := [⟨js "u", js "u@x", some (js "U"), true, false, 0⟩]
    userRoles := []
    apiKeys := [] }

/-- The role is removed while a user gets it; then somebody wants the administrator gone. -/
def removals : Environment where
  calls := fun
    | 0 => .removeRole (js "c")
    | 1 => .updateRoles (js "u") [js "c"]
    | _ => .removeRole (js "a")
  newId := fun call => List.replicate call (unit 'n')
  randomHex := fun _ => js "00"
  sha256 := id

def overlapping : List Action := [.next 0 false, .next 1 false, .next 1 false]

/-- The state that these actions lead to. -/
def afterRemovals (actions : List Action) : State :=
  (run (step removals) (initial clerks) actions).getD (initial clerks)

theorem run_overlapping :
    run (step removals) (initial clerks) overlapping = some (afterRemovals overlapping) := rfl

theorem fresh_removals : Fresh removals clerks where
  newId := fun m n h => by simpa [removals] using congrArg List.length h
  roles := by
    intro call h
    have hids : clerks.roleIds = [[unit 'a'], [unit 'c']] := by decide
    rw [hids, List.mem_cons, List.mem_singleton] at h
    rcases h with h | h
    · exact absurd (List.eq_of_mem_replicate (h ▸ List.mem_singleton_self _)) (by decide)
    · exact absurd (List.eq_of_mem_replicate (h ▸ List.mem_singleton_self _)) (by decide)
  apiKeys := fun _ h => by cases h

theorem sound_clerks : Sound clerks where
  roleIds := by decide
  roleNames := by decide
  permissions := by decide
  permissionRoles := by unfold Refers; decide
  userIds := by decide
  userEmails := by decide
  assignments := by decide
  assignmentUsers := by unfold Refers; decide
  assignmentRoles := by unfold Refers; decide
  keyIds := by decide
  keyHashes := by decide
  keyRoles := by unfold Refers; decide
  keyUsers := by unfold Refers; decide

variable {e : Environment} {db₀ : Database} {s t : State} {actions : List Action}

/-- In every interleaving the constraints hold; the system roles are those there were; a role keeps
its name and its kind; and the permissions of an administrator role stay as they were. -/
theorem systemRoles_kept (hfresh : Fresh e db₀) (hsound : Sound db₀)
    (hrun : run (step e) (initial db₀) actions = some t) :
    Sound t.db ∧
      (∀ role : Identity, role.isSystem = true →
        (role ∈ identities t.db ↔ role ∈ identities db₀)) ∧
      (∀ role ∈ identities t.db, role.id ∈ db₀.roleIds → role ∈ identities db₀) ∧
      ∀ role ∈ identities t.db, role ∈ identities db₀ → role.name = Rbac.SYSTEM_ADMIN_ROLE →
        permissionsOf t.db role.id = permissionsOf db₀ role.id := by
  have h := intact_run hfresh hsound hrun
  exact ⟨h.sound, fun role hsystem => ⟨fun hrole => h.system role hrole hsystem,
    fun hrole => h.kept role hrole hsystem⟩, h.unchanged, h.admin⟩

theorem systemRoles_kept_removal :
    let t := afterRemovals (overlapping ++ [.next 0 false, .next 2 false])
    t.db.roleIds = [js "a"] ∧ ∀ role : Identity, role.isSystem = true →
      (role ∈ identities t.db ↔ role ∈ identities clerks) := by
  have hrun : run (step removals) (initial clerks) (overlapping ++ [.next 0 false, .next 2 false]) =
      some (afterRemovals (overlapping ++ [.next 0 false, .next 2 false])) := rfl
  exact ⟨by decide, (systemRoles_kept fresh_removals sound_clerks hrun).2.1⟩

end Access

section Removal

variable {e : Environment} {db₀ : Database} {s t : State} {actions : List Action}

/-- The calls that take an assignment away. -/
theorem assignment_of_write {call : ℕ} {db db' : Database} {row : UserCreation.UserRole}
    (h : write e call db = .ok db') (hrow : row ∈ db.userRoles) (hgone : row ∉ db'.userRoles) :
    (∃ roleIds, e.calls call = .updateRoles row.userId roleIds ∧ row.roleId ∉ roleIds) ∨
      e.calls call = .removeUser row.userId ∨ e.calls call = .removeRole row.roleId := by
  unfold write at h
  split at h
  · unfold AccessStore.createRole at h
    split_ifs at h
    obtain rfl := Except.ok.inj h
    exact absurd hrow hgone
  · have hupdate : ∀ {id : JsString} {displayName policy : Option JsString} {db db' : Database},
        updateRole db id displayName policy = .ok db' → db'.userRoles = db.userRoles := by
      intro id displayName policy db db' h
      unfold updateRole at h
      split_ifs at h
      obtain rfl := Except.ok.inj h
      rfl
    split at h
    · rw [hupdate h] at hgone
      exact absurd hrow hgone
    · obtain ⟨mid, hmid, hdb⟩ := Results.bind_eq_ok.mp h
      unfold AccessStore.replacePermissions at hdb
      split_ifs at hdb
      obtain rfl := Except.ok.inj hdb
      rw [hupdate hmid] at hgone
      exact absurd hrow hgone
  · unfold AccessStore.replacePermissions at h
    split_ifs at h
    obtain rfl := Except.ok.inj h
    exact absurd hrow hgone
  · next id hcall =>
    unfold deleteRole at h
    split_ifs at h
    obtain rfl := Except.ok.inj h
    have hid : row.roleId = id := by
      by_contra hne
      exact hgone (mem_delete.mpr ⟨hrow, hne⟩)
    exact .inr (.inr (hid ▸ hcall))
  · unfold updateUser at h
    split_ifs at h
    obtain rfl := Except.ok.inj h
    exact absurd hrow hgone
  · next id roleIds hcall =>
    unfold replaceUserRoles at h
    split_ifs at h
    obtain rfl := Except.ok.inj h
    have hid : row.userId = id := by
      by_contra hne
      exact hgone (List.mem_append_left _ (mem_delete.mpr ⟨hrow, hne⟩))
    refine .inl ⟨roleIds, hid ▸ hcall, fun hmem => hgone (List.mem_append_right _ ?_)⟩
    exact List.mem_map.mpr ⟨row.roleId, hmem, by rw [← hid]⟩
  · next id hcall =>
    unfold deleteUser at h
    split_ifs at h
    obtain rfl := Except.ok.inj h
    have hid : row.userId = id := by
      by_contra hne
      exact hgone (mem_delete.mpr ⟨hrow, hne⟩)
    exact .inr (.inl (hid ▸ hcall))
  · unfold createApiKey at h
    split_ifs at h
    obtain rfl := Except.ok.inj h
    exact absurd hrow hgone
  · unfold updateApiKey at h
    split at h
    · cases h
    · split_ifs at h
      obtain rfl := Except.ok.inj h
      exact absurd hrow hgone
  · unfold deleteApiKey at h
    split_ifs at h
    obtain rfl := Except.ok.inj h
    exact absurd hrow hgone

/-- The step that takes an assignment away is the write of such a call. -/
theorem assignment_of_step {a : Action} {row : UserCreation.UserRole} (h : step e s a = some t)
    (hrow : row ∈ s.db.userRoles) (hgone : row ∉ t.db.userRoles) :
    ∃ call passed, a = .next call false ∧ s.phase call = .checking passed ∧
      (checks (e.calls call)).length ≤ passed ∧
      ((∃ roleIds, e.calls call = .updateRoles row.userId roleIds ∧ row.roleId ∉ roleIds) ∨
        e.calls call = .removeUser row.userId ∨ e.calls call = .removeRole row.roleId) := by
  cases a with
  | next call fault =>
    simp only [step] at h
    split at h
    · next passed hphase =>
      split at h
      · obtain rfl := Option.some.inj h
        exact absurd hrow hgone
      · next hchecked =>
        obtain rfl := Option.some.inj h
        unfold commit at hgone
        split_ifs at hgone with hfault
        · exact absurd hrow hgone
        · split at hgone
          · exact absurd hrow hgone
          · next db hwrite =>
            rw [Bool.eq_false_iff.mpr hfault]
            exact ⟨call, passed, rfl, hphase, List.getElem?_eq_none_iff.mp hchecked,
              assignment_of_write hwrite hrow hgone⟩
    · obtain rfl := Option.some.inj h
      exact absurd hrow hgone
    · cases h
  | touch id now =>
    obtain rfl := Option.some.inj h
    exact absurd hrow hgone
  | commitUser user roleIds =>
    simp only [step] at h
    split at h
    · cases h
    · next db hinsert =>
      obtain rfl := Option.some.inj h
      unfold insertUser at hinsert
      split_ifs at hinsert
      obtain rfl := Except.ok.inj hinsert
      exact absurd (List.mem_append_left _ hrow) hgone

/-- A call stands past a check that it passed earlier, or passes now. -/
theorem passed_of_step {a : Action} {call passed : ℕ} (h : step e s a = some t)
    (hphase : t.phase call = .checking (passed + 1)) :
    s.phase call = .checking (passed + 1) ∨
      (a = .next call false ∧
        ∃ read, (checks (e.calls call))[passed]? = some read ∧ read s.db = none) := by
  cases a with
  | next other fault =>
    by_cases hcall : call = other
    · subst hcall
      simp only [step] at h
      split at h
      · next before _ =>
        split at h
        · next read hread =>
          obtain rfl := Option.some.inj h
          rw [check, phase_setPhase_self] at hphase
          split_ifs at hphase with hfault
          split at hphase
          · cases hphase
          · next hpass =>
            obtain rfl : before = passed := Nat.succ.inj (Phase.checking.inj hphase)
            exact .inr ⟨by rw [Bool.eq_false_iff.mpr hfault], read, hread, hpass⟩
        · obtain rfl := Option.some.inj h
          unfold commit at hphase
          split_ifs at hphase
          · rw [phase_setPhase_self] at hphase
            cases hphase
          · split at hphase
            · rw [phase_setPhase_self] at hphase
              cases hphase
            · rw [phase_setPhase_self] at hphase
              cases hphase
      · obtain rfl := Option.some.inj h
        rw [finish, phase_setPhase_self] at hphase
        split_ifs at hphase
        split at hphase
        · cases hphase
        · cases hphase
      · cases h
    · rw [phase_of_next_ne h hcall] at hphase
      exact .inl hphase
  | touch id now =>
    obtain rfl := Option.some.inj h
    exact .inl hphase
  | commitUser user roleIds =>
    simp only [step] at h
    split at h
    · cases h
    · obtain rfl := Option.some.inj h
      exact .inl hphase

/-- The check of the call, at its point of the run, found a role that is neither a system role nor
assigned to anybody. -/
def SawUnassigned (e : Environment) (db₀ : Database) (actions : List Action) (call : ℕ)
    (roleId : JsString) : Prop :=
  ∃ earlier later s, actions = earlier ++ .next call false :: later ∧
    run (step e) (initial db₀) earlier = some s ∧ checkRemoval roleId s.db = none

/-- A removal past its check has made it. -/
theorem sawUnassigned_of_run (hrun : run (step e) (initial db₀) actions = some s)
    {call passed : ℕ} {id : JsString} (hcall : e.calls call = .removeRole id)
    (hphase : s.phase call = .checking (passed + 1)) : SawUnassigned e db₀ actions call id := by
  induction actions using List.reverseRecOn generalizing s passed with
  | nil =>
    obtain rfl := Option.some.inj hrun
    exact absurd (Phase.checking.inj hphase) (by omega)
  | append_singleton actions a ih =>
    obtain ⟨u, hu, hstep⟩ := run_snoc.mp hrun
    rcases passed_of_step hstep hphase with hold | ⟨rfl, read, hread, hpass⟩
    · obtain ⟨earlier, later, v, rfl, hv, hsaw⟩ := ih hu hold
      exact ⟨earlier, later ++ [a], v, List.append_assoc .., hv, hsaw⟩
    · rw [hcall] at hread
      obtain rfl : read = checkRemoval id := List.mem_singleton.mp (List.mem_of_getElem? hread)
      exact ⟨actions, [], u, rfl, hu, hpass⟩

/-- An assignment goes when the user gets other roles, with the user, or with the role; and the
call that removes the role had seen that nobody had it. -/
theorem assignment_lost (hrun : run (step e) (initial db₀) actions = some s) {a : Action}
    (hstep : step e s a = some t) {row : UserCreation.UserRole} (hrow : row ∈ s.db.userRoles)
    (hgone : row ∉ t.db.userRoles) :
    ∃ call, a = .next call false ∧
      ((∃ roleIds, e.calls call = .updateRoles row.userId roleIds ∧ row.roleId ∉ roleIds) ∨
        e.calls call = .removeUser row.userId ∨
        e.calls call = .removeRole row.roleId ∧ SawUnassigned e db₀ actions call row.roleId) := by
  obtain ⟨call, passed, ha, hphase, hchecked, hcall⟩ := assignment_of_step hstep hrow hgone
  refine ⟨call, ha, ?_⟩
  rcases hcall with hcall | hcall | hcall
  · exact .inl hcall
  · exact .inr (.inl hcall)
  · rw [hcall] at hchecked
    obtain ⟨before, rfl⟩ : ∃ before, passed = before + 1 :=
      ⟨passed - 1, by simp only [checks, List.length_singleton] at hchecked; omega⟩
    exact .inr (.inr ⟨hcall, sawUnassigned_of_run hrun hcall hphase⟩)

theorem assignment_lost_removal : SawUnassigned removals clerks overlapping 0 (js "c") := by
  have hstep : step removals (afterRemovals overlapping) (.next 0 false) =
      some (afterRemovals (overlapping ++ [.next 0 false])) := rfl
  have hrow : ⟨js "u", js "c"⟩ ∈ (afterRemovals overlapping).db.userRoles := by decide
  obtain ⟨call, ha, hcall⟩ :=
    assignment_lost run_overlapping hstep hrow (by decide)
  obtain ⟨rfl, -⟩ := Action.next.inj ha
  rcases hcall with ⟨roleIds, hcall, -⟩ | hcall | ⟨-, hsaw⟩
  · cases hcall
  · cases hcall
  · exact hsaw

end Removal

end Appspine.AccessRuns
