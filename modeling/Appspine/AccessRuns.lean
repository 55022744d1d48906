import Appspine.AccessStore
import Appspine.ScopeGrants
import Appspine.Transitions

/-!
# Services for roles, users and API keys, side by side

A call reads what it checks, statement by statement, and then writes in one statement or one
transaction. Any number of calls interleave between their statements.
-/
namespace Appspine.AccessRuns
open JsText AccessStore KeyedTable

section Calls

structure CreateRoleDto where
  name : JsString
  displayName : JsString
  permissionPolicy : JsString
  permissions : List JsString

structure UpdateRoleDto where
  displayName : Option JsString
  permissionPolicy : Option JsString
  permissions : Option (List JsString)

structure CreateApiKeyDto where
  name : JsString
  roleId : JsString
  actingUserId : Option JsString
  scopes : List JsString
  rateLimit : Option ℕ
  expiresAt : Option ℕ

/-- The calls of `RolesService`, `UsersService` and `ApiKeysService` that write. -/
inductive Call where
  | createRole (dto : CreateRoleDto)
  | updateRole (id : JsString) (dto : UpdateRoleDto)
  | replacePermissions (id : JsString) (permissions : List JsString)
  | removeRole (id : JsString)
  | updateUser (id : JsString) (dto : UpdateUserDto)
  | updateRoles (id : JsString) (roleIds : List JsString)
  | removeUser (id : JsString)
  | createApiKey (dto : CreateApiKeyDto) (createdBy : Option JsString)
  | updateApiKey (id : JsString) (dto : UpdateApiKeyDto)
  | removeApiKey (id : JsString)

inductive Thrown where
  | NotFoundException (message : JsString)
  | ConflictException (message : JsString)
  | BadRequestException (message : JsString)
  | database (error : DatabaseError)
  deriving DecidableEq

def roleNotFound : Thrown := .NotFoundException (js "Role not found")

def roleExists (name : JsString) : Thrown :=
  .ConflictException (js "Role \"" ++ name ++ js "\" already exists")

def adminPermissions : Thrown :=
  .BadRequestException (js "ADMIN permissions are managed via guard bypass and cannot be set here")

def systemRole : Thrown := .BadRequestException (js "System roles cannot be deleted")

def roleAssigned : Thrown :=
  .BadRequestException (js "Cannot delete a role that is assigned to users or API keys")

def userNotFound : Thrown := .NotFoundException (js "User not found")

def userReferenced : Thrown :=
  .ConflictException
    (js "This user still has records referencing them elsewhere in the system and cannot be " ++
      js "permanently deleted. Deactivate the account instead.")

def apiKeyNotFound (id : JsString) : Thrown :=
  .NotFoundException (js "ApiKey " ++ id ++ js " not found")

def scopesInvalid (invalid : List JsString) : Thrown :=
  .BadRequestException (js "Invalid scopes: " ++ join (js ", ") invalid)

def actingUserNotFound (id : JsString) : Thrown :=
  .BadRequestException (js "Acting user " ++ id ++ js " not found")

def notServiceAccount : Thrown :=
  .BadRequestException
    (js "This account is not marked as a service account and cannot be bound as an API key " ++
      js "acting user.")

end Calls

section Checks

/-- A read, and what the call throws after it. -/
abbrev Check := Database → Option Thrown

def checkNewName (name : JsString) : Check := fun db =>
  if name ∈ db.roles.map (·.name) then some (roleExists name) else none

/-- `findUnique` of a role, and `assertPermissionsEditable` where its permissions are to be set. -/
def checkRole (id : JsString) (setsPermissions : Bool) : Check := fun db =>
  match findRole db id with
  | none => some roleNotFound
  | some role =>
    if setsPermissions ∧ role.name = Rbac.SYSTEM_ADMIN_ROLE then some adminPermissions else none

def checkRemoval (id : JsString) : Check := fun db =>
  match findRole db id with
  | none => some roleNotFound
  | some role =>
    if role.isSystem then some systemRole
    else if id ∈ db.userRoles.map (·.roleId) ∨ id ∈ db.apiKeys.map ApiKey.roleId then
      some roleAssigned
    else none

def checkUser (id : JsString) : Check := fun db =>
  if (findUser db id).isSome then none else some userNotFound

def validateScopes (scopes : List JsString) : Option Thrown :=
  if ApiKeys.invalidScopes scopes = [] then none
  else some (scopesInvalid (ApiKeys.invalidScopes scopes))

/-- `assertActingUser`, for an id that is not empty. -/
def assertActingUser (actingUserId : Option JsString) : Check := fun db =>
  match actingUserId.filter (fun id => decide (id ≠ [])) with
  | none => none
  | some id =>
    match findUser db id with
    | none => some (actingUserNotFound id)
    | some user => if user.isServiceAccount then none else some notServiceAccount

def checkApiKey (id : JsString) : Check := fun db =>
  if (findApiKey db id).isSome then none else some (apiKeyNotFound id)

/-- The reads of a call before it writes. -/
def checks : Call → List Check
  | .createRole dto => [checkNewName dto.name]
  | .updateRole id dto => [checkRole id dto.permissions.isSome]
  | .replacePermissions id _ => [checkRole id true]
  | .removeRole id => [checkRemoval id]
  | .updateUser id _ => [checkUser id]
  | .updateRoles id _ => [checkUser id]
  | .removeUser id => [checkUser id]
  | .createApiKey dto _ =>
    [fun db => (validateScopes dto.scopes).or (assertActingUser dto.actingUserId db)]
  | .updateApiKey id dto =>
    [fun db => (checkApiKey id db).or (dto.scopes.bind validateScopes),
      assertActingUser (dto.actingUserId.getD none)]
  | .removeApiKey id => [checkApiKey id]

end Checks

section System

/-- The calls, with the ids and the random texts that are drawn for them. -/
structure Environment where
  calls : ℕ → Call
  newId : ℕ → JsString
  randomHex : ℕ → JsString
  sha256 : JsString → JsString

variable (e : Environment)

def KEY_PREFIX : JsString := js "an_live_"

def PREFIX_DISPLAY_LENGTH : ℕ := 16

/-- The raw key of a call that creates one. -/
def rawKey (call : ℕ) : JsString := KEY_PREFIX ++ e.randomHex call

def newRole (call : ℕ) (dto : CreateRoleDto) : Role :=
  { id := e.newId call
    name := dto.name
    displayName := dto.displayName
    permissionPolicy := dto.permissionPolicy
    isSystem := false }

def newApiKey (call : ℕ) (dto : CreateApiKeyDto) (createdBy : Option JsString) : ApiKey :=
  { id := e.newId call
    name := dto.name
    keyPrefix := (rawKey e call).take (KEY_PREFIX.length + PREFIX_DISPLAY_LENGTH)
    hashedKey := e.sha256 (rawKey e call)
    roleId := dto.roleId
    actingUserId := dto.actingUserId
    scopes := dto.scopes
    rateLimit := dto.rateLimit
    isActive := true
    expiresAt := dto.expiresAt
    createdBy := createdBy
    lastUsedAt := none }

/-- The write of a call: one statement, or one transaction. -/
def write (call : ℕ) (db : Database) : Except DatabaseError Database :=
  match e.calls call with
  | .createRole dto => createRole db (newRole e call dto) dto.permissions
  | .updateRole id dto =>
    match dto.permissions with
    | none => updateRole db id dto.displayName dto.permissionPolicy
    | some permissions => do
      let db ← updateRole db id dto.displayName dto.permissionPolicy
      replacePermissions db id permissions
  | .replacePermissions id permissions => replacePermissions db id permissions
  | .removeRole id => deleteRole db id
  | .updateUser id dto => updateUser db id dto
  | .updateRoles id roleIds => replaceUserRoles db id roleIds
  | .removeUser id => deleteUser db id
  | .createApiKey dto createdBy => createApiKey db (newApiKey e call dto createdBy)
  | .updateApiKey id dto => updateApiKey db id dto
  | .removeApiKey id => deleteApiKey db id

/-- What a call throws when its write is refused. -/
def refusal : Call → DatabaseError → Thrown
  | .removeUser _, .P2003 => userReferenced
  | _, error => .database error

/-- The read of a call after its write. -/
def readBack : Call → Check
  | .updateRole id _ => checkRole id false
  | .replacePermissions id _ => checkRole id false
  | .updateRoles id _ => checkUser id
  | _ => fun _ => none

/-- Where a call stands: how many checks it has passed, whether it has written, how it ended. -/
inductive Phase where
  | checking (passed : ℕ)
  | refused (error : Thrown)
  | written
  | returned
  | unread (error : Thrown)

def Phase.hasWritten : Phase → Bool
  | .written => true
  | .returned => true
  | .unread _ => true
  | _ => false

structure State where
  db : Database
  phase : ℕ → Phase

def State.setPhase (s : State) (call : ℕ) (phase : Phase) : State :=
  { s with phase := Function.update s.phase call phase }

/-- A call takes its next statement, which can fail for reasons of its own; an authentication
writes when a key was used; a new user is committed. -/
inductive Action where
  | next (call : ℕ) (fault : Bool)
  | touch (id : JsString) (now : ℕ)
  | commitUser (user : UserCreation.PublicUser) (roleIds : List JsString)

def Thrown.fault : Thrown := .database .other

def check (s : State) (call passed : ℕ) (fault : Bool) (read : Check) : State :=
  s.setPhase call <|
    if fault then .refused .fault
    else
      match read s.db with
      | some error => .refused error
      | none => .checking (passed + 1)

def commit (s : State) (call : ℕ) (fault : Bool) : State :=
  if fault then s.setPhase call (.refused .fault)
  else
    match write e call s.db with
    | .error error => s.setPhase call (.refused (refusal (e.calls call) error))
    | .ok db => { s with db := db }.setPhase call .written

def finish (s : State) (call : ℕ) (fault : Bool) : State :=
  s.setPhase call <|
    if fault then .unread .fault
    else
      match readBack (e.calls call) s.db with
      | some error => .unread error
      | none => .returned

def step (s : State) : Action → Option State
  | .next call fault =>
    match s.phase call with
    | .checking passed =>
      match (checks (e.calls call))[passed]? with
      | some read => some (check s call passed fault read)
      | none => some (commit e s call fault)
    | .written => some (finish e s call fault)
    | _ => none
  | .touch id now => some { s with db := touchApiKey s.db id now }
  | .commitUser user roleIds =>
    match insertUser s.db user roleIds with
    | .error _ => none
    | .ok db => some { s with db := db }

/-- Before any call has begun. -/
def initial (db : Database) : State := ⟨db, fun _ => .checking 0⟩

/-- Ids are drawn once only, and none of them stands in the database already. -/
structure Fresh (db : Database) : Prop where
  newId : Function.Injective e.newId
  roles : ∀ call, e.newId call ∉ db.roleIds
  apiKeys : ∀ call, e.newId call ∉ db.apiKeys.map ApiKey.id

end System

section Steps

variable {e : Environment} {s t : State}

/-- What a step can do. -/
inductive Step (e : Environment) (s : State) : State → Prop
  | pass {call passed : ℕ} {read : Check} (hphase : s.phase call = .checking passed)
      (hread : (checks (e.calls call))[passed]? = some read) (hpass : read s.db = none) :
      Step e s (s.setPhase call (.checking (passed + 1)))
  | refuse {call passed : ℕ} (error : Thrown) (hphase : s.phase call = .checking passed) :
      Step e s (s.setPhase call (.refused error))
  | write {call passed : ℕ} {db : Database} (hphase : s.phase call = .checking passed)
      (hchecked : (checks (e.calls call)).length ≤ passed) (hwrite : write e call s.db = .ok db) :
      Step e s ({ s with db := db }.setPhase call .written)
  | finish {call : ℕ} {phase : Phase} (hphase : s.phase call = .written)
      (hwritten : phase.hasWritten = true) : Step e s (s.setPhase call phase)
  | touch (id : JsString) (now : ℕ) : Step e s { s with db := touchApiKey s.db id now }
  | commitUser {user : UserCreation.PublicUser} {roleIds : List JsString} {db : Database}
      (hinsert : insertUser s.db user roleIds = .ok db) : Step e s { s with db := db }

theorem step_cases {a : Action} (h : step e s a = some t) : Step e s t := by
  cases a with
  | next call fault =>
    simp only [step] at h
    split at h
    · next passed hphase =>
      split at h
      · next read hread =>
        obtain rfl := Option.some.inj h
        unfold check
        split_ifs
        · exact .refuse _ hphase
        · split
          · exact .refuse _ hphase
          · next hpass => exact .pass hphase hread hpass
      · next hnone =>
        obtain rfl := Option.some.inj h
        unfold commit
        split_ifs
        · exact .refuse _ hphase
        · split
          · exact .refuse _ hphase
          · next hwrite => exact .write hphase (List.getElem?_eq_none_iff.mp hnone) hwrite
    · next hphase =>
      obtain rfl := Option.some.inj h
      unfold finish
      split_ifs
      · exact .finish hphase rfl
      · split
        · exact .finish hphase rfl
        · exact .finish hphase rfl
    · cases h
  | touch id now =>
    obtain rfl := Option.some.inj h
    exact .touch id now
  | commitUser user roleIds =>
    simp only [step] at h
    split at h
    · cases h
    · next db hinsert =>
      obtain rfl := Option.some.inj h
      exact .commitUser hinsert

@[simp] theorem db_setPhase (s : State) (call : ℕ) (phase : Phase) :
    (s.setPhase call phase).db = s.db := rfl

@[simp] theorem phase_setPhase_self (s : State) (call : ℕ) (phase : Phase) :
    (s.setPhase call phase).phase call = phase := Function.update_self ..

theorem phase_setPhase_ne {call other : ℕ} (s : State) (phase : Phase) (h : other ≠ call) :
    (s.setPhase call phase).phase other = s.phase other := Function.update_of_ne h ..

/-- A call leaves the others where they stand. -/
theorem phase_of_next_ne {call other : ℕ} {fault : Bool} (h : step e s (.next other fault) = some t)
    (hne : call ≠ other) : t.phase call = s.phase call := by
  simp only [step] at h
  split at h
  · split at h
    · obtain rfl := Option.some.inj h
      exact phase_setPhase_ne _ _ hne
    · obtain rfl := Option.some.inj h
      unfold commit
      split_ifs
      · exact phase_setPhase_ne _ _ hne
      · split
        · exact phase_setPhase_ne _ _ hne
        · exact phase_setPhase_ne _ _ hne
  · obtain rfl := Option.some.inj h
    exact phase_setPhase_ne _ _ hne
  · cases h

/-- A call that has written stays one that has. -/
theorem hasWritten_of_step (h : Step e s t) {call : ℕ} (hwritten : (s.phase call).hasWritten = true) :
    (t.phase call).hasWritten = true := by
  have hset : ∀ {other : ℕ} {u : State} {phase : Phase}, u.phase = s.phase →
      ((s.phase other).hasWritten = true → phase.hasWritten = true) →
        ((u.setPhase other phase).phase call).hasWritten = true := by
    intro other u phase hu hphase
    by_cases heq : call = other
    · subst heq
      rw [phase_setPhase_self]
      exact hphase hwritten
    · rw [phase_setPhase_ne u phase heq, hu]
      exact hwritten
  cases h with
  | pass hphase _ _ => exact hset rfl fun hother => by simp [hphase, Phase.hasWritten] at hother
  | refuse error hphase =>
    exact hset rfl fun hother => by simp [hphase, Phase.hasWritten] at hother
  | write hphase _ _ => exact hset rfl fun _ => rfl
  | finish _ hfinished => exact hset rfl fun _ => hfinished
  | touch _ _ => exact hwritten
  | commitUser _ => exact hwritten

end Steps

end Appspine.AccessRuns
