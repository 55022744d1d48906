import Appspine.JsText
import Appspine.InsertionMap
import Appspine.Transitions

/-!
# Creating users

`UsersService.create` writes a user and its role assignments, in a transaction of its own or in one
that the caller brings. Calls run side by side, one statement at a time, against a database with
unique emails and unique assignments; a statement that fails ends its transaction.
-/
namespace Appspine.UserCreation
open JsText InsertionMap

section Data

structure CreateUserData where
  email : JsString
  name : Option JsString
  isServiceAccount : Option Bool
  roleIds : Option (List JsString)

/-- The arguments of a call: the data, and the transaction of the caller if there is one. -/
structure Request where
  data : CreateUserData
  transaction : Option ℕ

structure PublicUser where
  id : JsString
  email : JsString
  name : Option JsString
  isActive : Bool
  isServiceAccount : Bool
  createdAt : ℤ
  deriving DecidableEq

structure UserRole where
  userId : JsString
  roleId : JsString
  deriving DecidableEq

structure Role where
  id : JsString
  name : JsString
  displayName : JsString
  permissionPolicy : JsString
  deriving DecidableEq

def SYSTEM_USER_ROLE : JsString := js "USER"

/-- What the database answers to a statement that it refuses. -/
inductive DatabaseError where
  | P2002
  | P2003
  | other
  deriving DecidableEq

inductive Thrown where
  | ConflictException (message : JsString)
  | NotFoundException (message : JsString)
  | ServiceUnavailableException (message : JsString)
  | database (error : DatabaseError)
  deriving DecidableEq

def emailRegistered : Thrown := .ConflictException (js "Email already registered")

/-- The `catch` of `create`. -/
def normalized : DatabaseError → Thrown
  | .P2002 => emailRegistered
  | error => .database error

end Data

section Tables

structure Tables where
  users : List PublicUser
  userRoles : List UserRole

/-- What an open transaction has done: rows that it adds, and users whose assignments it deletes. -/
structure Changes extends Tables where
  cleared : List JsString

def Changes.none : Changes := { users := [], userRoles := [], cleared := [] }

/-- The tables as the transaction sees them, and as its commit leaves them. -/
def Changes.over (changes : Changes) (committed : Tables) : Tables :=
  { users := committed.users ++ changes.users
    userRoles := committed.userRoles.filter (·.userId ∉ changes.cleared) ++ changes.userRoles }

def Changes.addUser (changes : Changes) (user : PublicUser) : Changes :=
  { changes with users := changes.users ++ [user] }

/-- `userRole.deleteMany({ where: { userId } })`. -/
def Changes.deleteRoles (changes : Changes) (userId : JsString) : Changes :=
  { changes with
    userRoles := changes.userRoles.filter (·.userId ≠ userId)
    cleared := changes.cleared ++ [userId] }

def Changes.addRoles (changes : Changes) (rows : List UserRole) : Changes :=
  { changes with userRoles := changes.userRoles ++ rows }

def emailTaken (tables : Tables) (email : JsString) : Bool :=
  tables.users.any (fun user => user.email = email)

/-- `role.findUnique({ where: { name } })`, which `defaultRoleIds` makes a list of. -/
def defaultRoleIds (roles : List Role) : Except Thrown (List JsString) :=
  match roles.find? (fun role => role.name = SYSTEM_USER_ROLE) with
  | none => .error (.NotFoundException
      (SYSTEM_USER_ROLE ++ js " system role not found — run the seed first"))
  | some role => .ok [role.id]

def rolesForUser (roles : List Role) (tables : Tables) (userId : JsString) : List Role :=
  (tables.userRoles.filter (fun row => row.userId = userId)).filterMap (fun row =>
    roles.find? (fun role => role.id = row.roleId))

/-- `userRole.createMany`: a row that is there already or comes twice is refused before the roles
are looked up. -/
def createMany (roles : List Role) (tables : Tables) (rows : List UserRole) :
    Except DatabaseError (List UserRole) :=
  if ¬ (tables.userRoles.filter (· ∈ rows) ++ rows).Nodup then .error .P2002
  else if ∃ row ∈ rows, row.roleId ∉ roles.map (·.id) then .error .P2003
  else .ok rows

end Tables

section State

inductive TxId where
  | own (call : ℕ)
  | caller (transaction : ℕ)
  deriving DecidableEq

/-- Where a call stands between two statements. -/
inductive Phase where
  | start
  | checked
  | resolved (roleIds : List JsString)
  | begun (roleIds : List JsString)
  | created (user : PublicUser) (roleIds : List JsString)
  | cleared (user : PublicUser) (roleIds : List JsString)
  | written (user : PublicUser) (roleIds : List JsString)
  | committed (user : PublicUser) (roleIds : List JsString)
  | returned (user : PublicUser) (roles : List Role)
  | thrown (error : Thrown)
  | thrownAfterCommit (error : Thrown)
  deriving DecidableEq

def Phase.settled : Phase → Bool
  | .returned _ _ | .thrown _ | .thrownAfterCommit _ => true
  | _ => false

/-- The committed tables, the transactions (`none` once over) and the calls that have begun. -/
structure State where
  committed : Tables
  transactions : Entries TxId (Option Changes)
  phases : Entries ℕ Phase

def State.phase (s : State) (call : ℕ) : Phase := (get s.phases call).getD .start

/-- What an open transaction has done so far. -/
def State.changes (s : State) (t : TxId) : Option Changes := (get s.transactions t).join

def State.setPhase (s : State) (call : ℕ) (phase : Phase) : State :=
  { s with phases := set s.phases call phase }

def State.setTx (s : State) (t : TxId) (changes : Option Changes) : State :=
  { s with transactions := set s.transactions t changes }

def State.commit (s : State) (t : TxId) (changes : Changes) : State :=
  { s with committed := changes.over s.committed }.setTx t none

/-- What a client reads: the committed tables, or those of its transaction while that is open. -/
def State.view (s : State) : Option TxId → Option Tables
  | none => some s.committed
  | some t => (s.changes t).map (·.over s.committed)

/-- The call throws because of a statement that failed, in a transaction or outside. -/
def State.fail (s : State) (call : ℕ) (t : Option TxId) (error : Thrown) : State :=
  (t.elim s (fun t => s.setTx t none)).setPhase call (.thrown error)

end State

section Code

variable (rbacPolicy : Option (List Role)) (requests : ℕ → Request) (newId : ℕ → JsString)

def callerTx (call : ℕ) : Option TxId := (requests call).transaction.map TxId.caller

/-- The transaction that the rows of a call with roles are written in. -/
def txOf (call : ℕ) : TxId := (callerTx requests call).getD (.own call)

def email (call : ℕ) : JsString := (requests call).data.email

/-- The role ids as the call gives them; a list without any counts as none given. -/
def givenRoleIds (call : ℕ) : Option (List JsString) :=
  (requests call).data.roleIds.filter (fun roleIds => 0 < roleIds.length)

def newUser (call : ℕ) (now : ℤ) : PublicUser :=
  { id := newId call
    email := email requests call
    name := (requests call).data.name
    isActive := true
    isServiceAccount := (requests call).data.isServiceAccount.getD false
    createdAt := now }

/-- The pre-check. -/
def findExisting (s : State) (call : ℕ) (fault : Bool) : State :=
  match if fault then none else s.view (callerTx requests call) with
  | none => s.fail call (callerTx requests call) (.database .other)
  | some tables =>
    s.setPhase call (if emailTaken tables (email requests call) then .thrown emailRegistered
      else .checked)

def resolveRoleIds (s : State) (call : ℕ) (fault : Bool) : State :=
  s.setPhase call <|
    match givenRoleIds requests call, rbacPolicy with
    | some roleIds, _ => .resolved roleIds
    | none, none => .resolved []
    | none, some roles =>
      if fault then .thrown (.database .other)
      else
        match defaultRoleIds roles with
        | .error error => .thrown error
        | .ok roleIds => .resolved roleIds

def needsRbac : Thrown :=
  .ServiceUnavailableException
    (js "Assigning default roles needs the appspine.rbac-policy capability, " ++
      js "which no installed plugin provides.")

/-- `requireRbac`, and the transaction of the call unless the caller brings one. -/
def beginAssignment (s : State) (call : ℕ) (roleIds : List JsString) (fault : Bool) : State :=
  match rbacPolicy, callerTx requests call with
  | none, _ => s.setPhase call (.thrown needsRbac)
  | some _, some _ => s.setPhase call (.begun roleIds)
  | some _, none =>
    if fault then s.setPhase call (.thrown (.database .other))
    else (s.setTx (.own call) (some Changes.none)).setPhase call (.begun roleIds)

/-- `user.create` in a transaction. -/
def createUserIn (s : State) (call : ℕ) (t : TxId) (fault : Bool) (now : ℤ) (after : Phase) :
    State :=
  match if fault then none else s.changes t with
  | none => s.fail call (some t) (.database .other)
  | some changes =>
    if emailTaken (changes.over s.committed) (email requests call) then
      s.fail call (some t) (normalized .P2002)
    else
      (s.setTx t (some (changes.addUser (newUser requests newId call now)))).setPhase call after

/-- `user.create` on its own. -/
def createUser (s : State) (call : ℕ) (fault : Bool) (now : ℤ) : State :=
  if fault then s.fail call none (.database .other)
  else if emailTaken s.committed (email requests call) then s.fail call none (normalized .P2002)
  else
    { s with
      committed := { s.committed with
        users := s.committed.users ++ [newUser requests newId call now] } }.setPhase call
      (.committed (newUser requests newId call now) [])

/-- A user without roles. -/
def createAlone (s : State) (call : ℕ) (fault : Bool) (now : ℤ) : State :=
  match callerTx requests call with
  | none => createUser requests newId s call fault now
  | some t =>
    createUserIn requests newId s call t fault now (.returned (newUser requests newId call now) [])

def deleteRoles (s : State) (call : ℕ) (user : PublicUser) (roleIds : List JsString)
    (fault : Bool) : State :=
  match if fault then none else s.changes (txOf requests call) with
  | none => s.fail call (some (txOf requests call)) (.database .other)
  | some changes =>
    (s.setTx (txOf requests call) (some (changes.deleteRoles user.id))).setPhase call
      (.cleared user roleIds)

/-- The rows of the assignment; within a transaction of the caller the call is over then. -/
def assignRoles (s : State) (call : ℕ) (user : PublicUser) (roleIds : List JsString)
    (fault : Bool) : State :=
  match if fault then none else s.changes (txOf requests call) with
  | none => s.fail call (some (txOf requests call)) (.database .other)
  | some changes =>
    match createMany (rbacPolicy.getD []) (changes.over s.committed)
        (roleIds.map (UserRole.mk user.id)) with
    | .error error => s.fail call (some (txOf requests call)) (normalized error)
    | .ok rows =>
      (s.setTx (txOf requests call) (some (changes.addRoles rows))).setPhase call
        (if (callerTx requests call).isSome then .returned user [] else .written user roleIds)

def commitOwn (s : State) (call : ℕ) (user : PublicUser) (roleIds : List JsString) (fault : Bool) :
    State :=
  match if fault then none else s.changes (.own call) with
  | none => s.fail call (some (.own call)) (.database .other)
  | some changes => (s.commit (.own call) changes).setPhase call (.committed user roleIds)

/-- `withRoles`, which the `try` does not wait for. -/
def readRoles (s : State) (call : ℕ) (user : PublicUser) (fault : Bool) : State :=
  s.setPhase call <|
    match rbacPolicy with
    | none => .returned user []
    | some roles =>
      if fault then .thrownAfterCommit (.database .other)
      else .returned user (rolesForUser roles s.committed user.id)

/-- The next statement of a call. -/
def next (s : State) (call : ℕ) (fault : Bool) (now : ℤ) : State :=
  match s.phase call with
  | .start => findExisting requests s call fault
  | .checked => resolveRoleIds rbacPolicy requests s call fault
  | .resolved [] => createAlone requests newId s call fault now
  | .resolved (roleId :: roleIds) =>
    beginAssignment rbacPolicy requests s call (roleId :: roleIds) fault
  | .begun roleIds =>
    createUserIn requests newId s call (txOf requests call) fault now
      (.created (newUser requests newId call now) roleIds)
  | .created user roleIds => deleteRoles requests s call user roleIds fault
  | .cleared user roleIds => assignRoles rbacPolicy requests s call user roleIds fault
  | .written user roleIds => commitOwn s call user roleIds fault
  | .committed user _ => readRoles rbacPolicy s call user fault
  | _ => s

end Code

section Runs

variable (rbacPolicy : Option (List Role)) (requests : ℕ → Request) (newId : ℕ → JsString)

/-- A call takes its next statement, which can fail for reasons of its own; a caller begins,
commits or rolls back a transaction. -/
inductive Action where
  | next (call : ℕ) (fault : Bool) (now : ℤ)
  | begin (transaction : ℕ)
  | commit (transaction : ℕ)
  | rollback (transaction : ℕ)

/-- Another open transaction has added a user with this email: an insert of it waits. -/
def awaits (s : State) (t : Option TxId) (email : JsString) : Bool :=
  (keys s.transactions).any (fun t' => some t' ≠ t ∧
    (s.changes t').any (fun changes => emailTaken changes.toTables email))

/-- The call is about to insert its user and has to wait for another transaction. -/
def blocked (s : State) (call : ℕ) : Bool :=
  match s.phase call with
  | .resolved [] => awaits s (callerTx requests call) (email requests call)
  | .begun _ => awaits s (some (txOf requests call)) (email requests call)
  | _ => false

/-- No call is in the middle of this transaction. -/
def idle (s : State) (transaction : ℕ) : Bool :=
  (keys s.phases).all (fun call =>
    (requests call).transaction ≠ some transaction ∨ (s.phase call).settled)

def step (s : State) : Action → Option State
  | .next call fault now =>
    if (s.phase call).settled ∨ (fault = false ∧ blocked requests s call) then none
    else some (next rbacPolicy requests newId s call fault now)
  | .begin transaction =>
    if .caller transaction ∈ keys s.transactions then none
    else some (s.setTx (.caller transaction) (some Changes.none))
  | .commit transaction =>
    if idle requests s transaction then
      (s.changes (.caller transaction)).map (s.commit (.caller transaction))
    else none
  | .rollback transaction => some (s.setTx (.caller transaction) none)

/-- Before any call: some users and assignments, no transaction. -/
def initial (tables : Tables) : State := { committed := tables, transactions := [], phases := [] }

end Runs

end Appspine.UserCreation
