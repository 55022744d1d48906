import Appspine.JsNumerals
import Appspine.Transitions

/-!
# Resolving OIDC identities

Calls of `OidcIdentityService.resolve` over one database whose transactions are atomic and
isolated, whose ids are never issued twice, and which keeps `User.email` and
`OidcIdentity(issuer, subject)` unique. A call goes from one statement to the next, calls and
administrators interleave, and any statement may fail.
-/
namespace Appspine.Oidc
open JsText Transitions

structure VerifiedOidcIdentity where
  issuer : JsString
  subject : JsString
  email : JsString
  emailVerified : Bool
  name : Option JsString := none
  deriving DecidableEq

structure ResolvedOidcIdentity where
  userId : JsString
  linkedFromLegacyEmail : Bool
  provisioned : Bool
  deriving DecidableEq

structure User where
  id : JsString
  email : JsString
  name : Option JsString := none
  isActive : Bool := true
  deriving DecidableEq

/-- A row of `OidcIdentity`. There is no foreign key on `userId`. -/
structure OidcMapping where
  issuer : JsString
  subject : JsString
  userId : JsString
  linkedFromLegacyEmail : Bool
  deriving DecidableEq

inductive AuditAction where
  | create
  | update
  deriving DecidableEq

structure AuditRecord where
  entityType : JsString
  entityId : JsString
  action : AuditAction
  actorId : JsString
  actorEmail : JsString
  appName : JsString
  deriving DecidableEq

/-- What may be thrown: an exception of the service, or an error of the database or the sink. -/
inductive Thrown where
  | unauthorized (message : JsString)
  | conflict (message : JsString)
  | uniqueConstraint
  | recordNotFound
  | failure (message : JsString)
  deriving DecidableEq

/-- Where a call is: the statement it has before it, with what the earlier ones gave. -/
inductive Phase where
  | start
  | checking (userId : JsString)
  | dropping (userId : JsString)
  | searching
  | provisioning
  | recovering (error : Thrown)
  | linking (account : User) (linkedFromLegacyEmail : Bool)
  | rereading (error : Thrown) (account : User) (linkedFromLegacyEmail : Bool)
  | returned (resolved : ResolvedOidcIdentity)
  | threw (error : Thrown)
  deriving DecidableEq

/-- What the database answered a call, or committed for it. -/
inductive LogEntry (C : Type) where
  | read (call : C) (mapping : OidcMapping)
  | found (call : C) (account : User)
  | dropped (call : C) (mapping : OidcMapping)
  | provisioned (call : C) (account : User) (mapping : OidcMapping) (audit : AuditRecord)
  | linked (call : C) (account : User) (mapping : OidcMapping) (audit : AuditRecord)
  deriving DecidableEq

/-- The tables, the ids issued so far, those of accounts that a login provisioned, the journal of
the calls, and the calls. -/
structure LoginState (C : Type) where
  users : List User
  mappings : List OidcMapping
  audit : List AuditRecord
  issued : List JsString
  provisionedIds : List JsString
  log : List (LogEntry C)
  phase : C → Phase

inductive Action (C : Type) where
  /-- the next statement of a call goes through; a created account gets this id -/
  | next (call : C) (id : JsString)
  /-- the next statement of a call fails: the audit sink, or the database -/
  | fail (call : C) (error : Thrown)
  | createUser (user : User)
  | deactivateUser (id : JsString)
  | deleteUser (id : JsString)

section Statements

variable {C : Type}

/-- The trimmed `(issuer, subject)` a call looks up. -/
def VerifiedOidcIdentity.key (identity : VerifiedOidcIdentity) : JsString × JsString :=
  (trim identity.issuer, trim identity.subject)

def OidcMapping.key (m : OidcMapping) : JsString × JsString := (m.issuer, m.subject)

def findMapping (s : LoginState C) (key : JsString × JsString) : Option OidcMapping :=
  s.mappings.find? (fun m => decide (m.key = key))

def findById (s : LoginState C) (id : JsString) : Option User :=
  s.users.find? (fun user => decide (user.id = id))

def findByEmail (s : LoginState C) (email : JsString) : Option User :=
  s.users.find? (fun user => decide (user.email = email))

/-- The claims no lookup can do without. -/
def missingClaim (identity : VerifiedOidcIdentity) : Option Thrown :=
  if trim identity.issuer = [] then
    some (.unauthorized (js "OIDC token is missing an issuer claim"))
  else if trim identity.subject = [] then
    some (.unauthorized (js "OIDC token is missing a subject claim"))
  else none

/-- There is no mapping, or no more: from here on the email decides. -/
def withoutMapping (identity : VerifiedOidcIdentity) : Phase :=
  if identity.emailVerified then .searching
  else .threw (.unauthorized (js "OIDC token email is not verified"))

def noActiveAccount : Thrown :=
  .unauthorized (js "No active local account for this OIDC identity")

def emailTaken : Thrown := .conflict (js "Email already registered")

def mappedElsewhere : Thrown :=
  .unauthorized (js "OIDC identity is already mapped to a different account")

/-- An account that was found by email is linked when it is active. -/
def linkIfActive (account : User) (linkedFromLegacyEmail : Bool) : Phase :=
  if account.isActive then .linking account linkedFromLegacyEmail else .threw noActiveAccount

def mappingOf (identity : VerifiedOidcIdentity) (userId : JsString) (linkedFromLegacyEmail : Bool) :
    OidcMapping :=
  { issuer := trim identity.issuer
    subject := trim identity.subject
    userId := userId
    linkedFromLegacyEmail := linkedFromLegacyEmail }

def auditOf (appName : JsString) (identity : VerifiedOidcIdentity) (userId : JsString)
    (action : AuditAction) : AuditRecord :=
  { entityType := js "User"
    entityId := userId
    action := action
    actorId := userId
    actorEmail := identity.email
    appName := appName }

/-- The account `identityStore.create` inserts. -/
def newAccount (identity : VerifiedOidcIdentity) (id : JsString) : User :=
  { id := id, email := identity.email, name := identity.name }

end Statements

section Step

variable {C : Type} [DecidableEq C]

def LoginState.setPhase (s : LoginState C) (c : C) (phase : Phase) : LoginState C :=
  { s with phase := Function.update s.phase c phase }

def LoginState.record (s : LoginState C) (entry : LogEntry C) : LoginState C :=
  { s with log := s.log ++ [entry] }

variable (appName : JsString) (identities : C → VerifiedOidcIdentity)

/-- `oidcIdentity.findUnique`, after the claims were checked. -/
def lookUpMapping (s : LoginState C) (c : C) : LoginState C :=
  match missingClaim (identities c) with
  | some error => s.setPhase c (.threw error)
  | none =>
    match findMapping s (identities c).key with
    | some mapping => (s.setPhase c (.checking mapping.userId)).record (.read c mapping)
    | none => s.setPhase c (withoutMapping (identities c))

/-- `identityStore.findById` for a mapping that was found. -/
def checkAccount (s : LoginState C) (c : C) (userId : JsString) : LoginState C :=
  match findById s userId with
  | some _ => s.setPhase c (.returned ⟨userId, false, false⟩)
  | none => s.setPhase c (.dropping userId)

/-- `oidcIdentity.delete`, by key. -/
def dropMapping (s : LoginState C) (c : C) : LoginState C :=
  match findMapping s (identities c).key with
  | none => s.setPhase c (.threw .recordNotFound)
  | some mapping =>
    { (s.setPhase c (withoutMapping (identities c))).record (.dropped c mapping) with
      mappings := s.mappings.filter (fun m => decide (m.key ≠ (identities c).key)) }

/-- `identityStore.findByEmail` before provisioning. -/
def searchLegacy (s : LoginState C) (c : C) : LoginState C :=
  match findByEmail s (identities c).email with
  | some legacy => (s.setPhase c (linkIfActive legacy true)).record (.found c legacy)
  | none => s.setPhase c .provisioning

/-- The transaction of `provision`: account, mapping and audit record, or none of them. -/
def provision (s : LoginState C) (c : C) (id : JsString) : Option (LoginState C) :=
  if (findByEmail s (identities c).email).isSome then
    some (s.setPhase c (.recovering emailTaken))
  else if (findMapping s (identities c).key).isSome then
    some (s.setPhase c (.recovering .uniqueConstraint))
  else if id ∈ s.issued then none
  else
    let account := newAccount (identities c) id
    let mapping := mappingOf (identities c) id false
    let audit := auditOf appName (identities c) id .create
    some { (s.setPhase c (.returned ⟨id, false, true⟩)).record
        (.provisioned c account mapping audit) with
      users := s.users ++ [account]
      mappings := s.mappings ++ [mapping]
      audit := s.audit ++ [audit]
      issued := s.issued ++ [id]
      provisionedIds := s.provisionedIds ++ [id] }

/-- `identityStore.findByEmail` after a failed `provision`. -/
def recover (s : LoginState C) (c : C) (error : Thrown) : LoginState C :=
  match findByEmail s (identities c).email with
  | none => s.setPhase c (.threw error)
  | some winner => (s.setPhase c (linkIfActive winner false)).record (.found c winner)

/-- The transaction of `link`: mapping and audit record, or neither. -/
def link (s : LoginState C) (c : C) (account : User) (linkedFromLegacyEmail : Bool) :
    LoginState C :=
  if (findMapping s (identities c).key).isSome then
    s.setPhase c (.rereading .uniqueConstraint account linkedFromLegacyEmail)
  else
    let mapping := mappingOf (identities c) account.id linkedFromLegacyEmail
    let audit := auditOf appName (identities c) account.id .update
    { (s.setPhase c (.returned ⟨account.id, linkedFromLegacyEmail, false⟩)).record
        (.linked c account mapping audit) with
      mappings := s.mappings ++ [mapping]
      audit := s.audit ++ [audit] }

/-- `oidcIdentity.findUnique` after a failed `link`. -/
def reread (s : LoginState C) (c : C) (error : Thrown) (account : User)
    (linkedFromLegacyEmail : Bool) : LoginState C :=
  match findMapping s (identities c).key with
  | none => s.setPhase c (.threw error)
  | some existing =>
    if existing.userId ≠ account.id then s.setPhase c (.threw mappedElsewhere)
    else s.setPhase c (.returned ⟨account.id, linkedFromLegacyEmail, false⟩)

/-- What a failing statement leads to: the two transactions are rolled back and looked into. -/
def failed (phase : Phase) (error : Thrown) : Option Phase :=
  match phase with
  | .provisioning => some (.recovering error)
  | .linking account linkedFromLegacyEmail => some (.rereading error account linkedFromLegacyEmail)
  | .returned _ | .threw _ => none
  | _ => some (.threw error)

/-- One statement of one call, or one act of an administrator. -/
def step (s : LoginState C) : Action C → Option (LoginState C)
  | .next c id =>
    match s.phase c with
    | .start => some (lookUpMapping identities s c)
    | .checking userId => some (checkAccount s c userId)
    | .dropping _ => some (dropMapping identities s c)
    | .searching => some (searchLegacy identities s c)
    | .provisioning => provision appName identities s c id
    | .recovering error => some (recover identities s c error)
    | .linking account linkedFromLegacyEmail =>
      some (link appName identities s c account linkedFromLegacyEmail)
    | .rereading error account linkedFromLegacyEmail =>
      some (reread identities s c error account linkedFromLegacyEmail)
    | .returned _ | .threw _ => none
  | .fail c error => (failed (s.phase c) error).map (s.setPhase c)
  | .createUser user =>
    if user.id ∈ s.issued ∨ (findByEmail s user.email).isSome then none
    else some { s with users := s.users ++ [user], issued := s.issued ++ [user.id] }
  | .deactivateUser id =>
    some { s with users := s.users.map (fun user =>
      if user.id = id then { user with isActive := false } else user) }
  | .deleteUser id => some { s with users := s.users.filter (fun user => decide (user.id ≠ id)) }

end Step

section Inversion

variable {C : Type} [DecidableEq C] {appName : JsString} {identities : C → VerifiedOidcIdentity}
  {s t : LoginState C}

/-- The state after `provision` commits. -/
def afterProvision (appName : JsString) (identity : VerifiedOidcIdentity) (s : LoginState C) (c : C)
    (id : JsString) : LoginState C :=
  { (s.setPhase c (.returned ⟨id, false, true⟩)).record
      (.provisioned c (newAccount identity id) (mappingOf identity id false)
        (auditOf appName identity id .create)) with
    users := s.users ++ [newAccount identity id]
    mappings := s.mappings ++ [mappingOf identity id false]
    audit := s.audit ++ [auditOf appName identity id .create]
    issued := s.issued ++ [id]
    provisionedIds := s.provisionedIds ++ [id] }

/-- The state after `link` commits. -/
def afterLink (appName : JsString) (identity : VerifiedOidcIdentity) (s : LoginState C) (c : C)
    (account : User) (linkedFromLegacyEmail : Bool) : LoginState C :=
  { (s.setPhase c (.returned ⟨account.id, linkedFromLegacyEmail, false⟩)).record
      (.linked c account (mappingOf identity account.id linkedFromLegacyEmail)
        (auditOf appName identity account.id .update)) with
    mappings := s.mappings ++ [mappingOf identity account.id linkedFromLegacyEmail]
    audit := s.audit ++ [auditOf appName identity account.id .update] }

/-- The state after a mapping was deleted. -/
def afterDrop (identity : VerifiedOidcIdentity) (s : LoginState C) (c : C) (mapping : OidcMapping) :
    LoginState C :=
  { (s.setPhase c (withoutMapping identity)).record (.dropped c mapping) with
    mappings := s.mappings.filter (fun m => decide (m.key ≠ identity.key)) }

/-- All a statement of a call can do that goes through. -/
inductive NextStep (appName : JsString) (identity : VerifiedOidcIdentity) (s : LoginState C) (c : C) :
    LoginState C → Prop
  | missing {error : Thrown} (before : s.phase c = .start) (claim : missingClaim identity = some error) :
      NextStep appName identity s c (s.setPhase c (.threw error))
  | read {mapping : OidcMapping} (before : s.phase c = .start)
      (found : findMapping s identity.key = some mapping) :
      NextStep appName identity s c
        ((s.setPhase c (.checking mapping.userId)).record (.read c mapping))
  | unmapped (before : s.phase c = .start) (found : findMapping s identity.key = none) :
      NextStep appName identity s c (s.setPhase c (withoutMapping identity))
  | known {userId : JsString} {account : User} (before : s.phase c = .checking userId)
      (found : findById s userId = some account) :
      NextStep appName identity s c (s.setPhase c (.returned ⟨userId, false, false⟩))
  | unknown {userId : JsString} (before : s.phase c = .checking userId)
      (found : findById s userId = none) :
      NextStep appName identity s c (s.setPhase c (.dropping userId))
  | dropMissing {userId : JsString} (before : s.phase c = .dropping userId)
      (found : findMapping s identity.key = none) :
      NextStep appName identity s c (s.setPhase c (.threw .recordNotFound))
  | drop {userId : JsString} {mapping : OidcMapping} (before : s.phase c = .dropping userId)
      (found : findMapping s identity.key = some mapping) :
      NextStep appName identity s c (afterDrop identity s c mapping)
  | legacy {account : User} (before : s.phase c = .searching)
      (found : findByEmail s identity.email = some account) :
      NextStep appName identity s c
        ((s.setPhase c (linkIfActive account true)).record (.found c account))
  | newcomer (before : s.phase c = .searching) (found : findByEmail s identity.email = none) :
      NextStep appName identity s c (s.setPhase c .provisioning)
  | lostProvision {error : Thrown} (before : s.phase c = .provisioning)
      (taken : findByEmail s identity.email ≠ none ∨ findMapping s identity.key ≠ none) :
      NextStep appName identity s c (s.setPhase c (.recovering error))
  | provisioned {id : JsString} (before : s.phase c = .provisioning)
      (email : findByEmail s identity.email = none) (mapping : findMapping s identity.key = none)
      (fresh : id ∉ s.issued) :
      NextStep appName identity s c (afterProvision appName identity s c id)
  | unrecovered {error : Thrown} (before : s.phase c = .recovering error)
      (found : findByEmail s identity.email = none) :
      NextStep appName identity s c (s.setPhase c (.threw error))
  | recovered {error : Thrown} {account : User} (before : s.phase c = .recovering error)
      (found : findByEmail s identity.email = some account) :
      NextStep appName identity s c
        ((s.setPhase c (linkIfActive account false)).record (.found c account))
  | lostLink {account : User} {flag : Bool} (before : s.phase c = .linking account flag)
      (taken : findMapping s identity.key ≠ none) :
      NextStep appName identity s c (s.setPhase c (.rereading .uniqueConstraint account flag))
  | linked {account : User} {flag : Bool} (before : s.phase c = .linking account flag)
      (mapping : findMapping s identity.key = none) :
      NextStep appName identity s c (afterLink appName identity s c account flag)
  | rereadMissing {error : Thrown} {account : User} {flag : Bool}
      (before : s.phase c = .rereading error account flag)
      (found : findMapping s identity.key = none) :
      NextStep appName identity s c (s.setPhase c (.threw error))
  | rereadOther {error : Thrown} {account : User} {flag : Bool} {existing : OidcMapping}
      (before : s.phase c = .rereading error account flag)
      (found : findMapping s identity.key = some existing) (other : existing.userId ≠ account.id) :
      NextStep appName identity s c (s.setPhase c (.threw mappedElsewhere))
  | rereadSame {error : Thrown} {account : User} {flag : Bool} {existing : OidcMapping}
      (before : s.phase c = .rereading error account flag)
      (found : findMapping s identity.key = some existing) (same : existing.userId = account.id) :
      NextStep appName identity s c (s.setPhase c (.returned ⟨account.id, flag, false⟩))

/-- What an administrator does to the accounts. -/
inductive AdminStep (s : LoginState C) : LoginState C → Prop
  | create {user : User} (fresh : user.id ∉ s.issued) (email : findByEmail s user.email = none) :
      AdminStep s { s with users := s.users ++ [user], issued := s.issued ++ [user.id] }
  | deactivate (id : JsString) :
      AdminStep s { s with users := s.users.map (fun user =>
        if user.id = id then { user with isActive := false } else user) }
  | delete (id : JsString) :
      AdminStep s { s with users := s.users.filter (fun user => decide (user.id ≠ id)) }

lemma next_cases {c : C} {id : JsString} (h : step appName identities s (.next c id) = some t) :
    NextStep appName (identities c) s c t := by
  simp only [step] at h
  cases hphase : s.phase c with
  | start =>
    simp only [hphase, Option.some.injEq] at h
    rw [← h, lookUpMapping]
    cases hclaim : missingClaim (identities c) with
    | some error => exact .missing hphase hclaim
    | none =>
      cases hfound : findMapping s (identities c).key with
      | some mapping => exact .read hphase hfound
      | none => exact .unmapped hphase hfound
  | checking userId =>
    simp only [hphase, Option.some.injEq] at h
    rw [← h, checkAccount]
    cases hfound : findById s userId with
    | some account => exact .known hphase hfound
    | none => exact .unknown hphase hfound
  | dropping userId =>
    simp only [hphase, Option.some.injEq] at h
    rw [← h, dropMapping]
    cases hfound : findMapping s (identities c).key with
    | none => exact .dropMissing hphase hfound
    | some mapping => exact .drop hphase hfound
  | searching =>
    simp only [hphase, Option.some.injEq] at h
    rw [← h, searchLegacy]
    cases hfound : findByEmail s (identities c).email with
    | some account => exact .legacy hphase hfound
    | none => exact .newcomer hphase hfound
  | provisioning =>
    simp only [hphase, provision] at h
    split_ifs at h with hemail hmapping hissued
    · rw [← Option.some.inj h]
      exact .lostProvision hphase (Or.inl (Option.isSome_iff_ne_none.mp hemail))
    · rw [← Option.some.inj h]
      exact .lostProvision hphase (Or.inr (Option.isSome_iff_ne_none.mp hmapping))
    · rw [← Option.some.inj h]
      exact .provisioned hphase (by simpa using hemail) (by simpa using hmapping) hissued
  | recovering error =>
    simp only [hphase, Option.some.injEq] at h
    rw [← h, recover]
    cases hfound : findByEmail s (identities c).email with
    | none => exact .unrecovered hphase hfound
    | some account => exact .recovered hphase hfound
  | linking account flag =>
    simp only [hphase, Option.some.injEq] at h
    rw [← h, link]
    split_ifs with hmapping
    · exact .lostLink hphase (Option.isSome_iff_ne_none.mp hmapping)
    · exact .linked hphase (by simpa using hmapping)
  | rereading error account flag =>
    simp only [hphase, Option.some.injEq] at h
    rw [← h, reread]
    cases hfound : findMapping s (identities c).key with
    | none => exact .rereadMissing hphase hfound
    | some existing =>
      simp only [ne_eq, ite_not]
      split_ifs with hsame
      · exact .rereadSame hphase hfound hsame
      · exact .rereadOther hphase hfound hsame
  | returned resolved => simp [hphase] at h
  | threw error => simp [hphase] at h

/-- Every step is a statement of a call that goes through or fails, or an administrator's. -/
lemma step_cases {a : Action C} (h : step appName identities s a = some t) :
    (∃ c, NextStep appName (identities c) s c t) ∨
      (∃ c error phase, failed (s.phase c) error = some phase ∧ t = s.setPhase c phase) ∨
      AdminStep s t := by
  cases a with
  | next c id => exact Or.inl ⟨c, next_cases h⟩
  | fail c error =>
    obtain ⟨phase, hphase, rfl⟩ := Option.map_eq_some_iff.mp h
    exact Or.inr (Or.inl ⟨c, error, phase, hphase, rfl⟩)
  | createUser user =>
    simp only [step] at h
    split_ifs at h with hguard
    rw [← Option.some.inj h]
    rw [not_or] at hguard
    exact Or.inr (Or.inr (.create hguard.1 (by simpa using hguard.2)))
  | deactivateUser id =>
    rw [← Option.some.inj h]
    exact Or.inr (Or.inr (.deactivate id))
  | deleteUser id =>
    rw [← Option.some.inj h]
    exact Or.inr (Or.inr (.delete id))

@[simp] lemma setPhase_self (s : LoginState C) (c : C) (phase : Phase) :
    (s.setPhase c phase).phase c = phase := by simp [LoginState.setPhase]

lemma setPhase_of_ne {c c' : C} (h : c' ≠ c) (phase : Phase) :
    (s.setPhase c phase).phase c' = s.phase c' := by simp [LoginState.setPhase, h]

end Inversion

section Tables

variable {C : Type} {s : LoginState C}

lemma mem_of_findMapping {key : JsString × JsString} {m : OidcMapping}
    (h : findMapping s key = some m) : m ∈ s.mappings ∧ m.key = key :=
  ⟨List.mem_of_find?_eq_some h, by simpa using List.find?_some h⟩

lemma findMapping_eq_none {key : JsString × JsString} :
    findMapping s key = none ↔ ∀ m ∈ s.mappings, m.key ≠ key := by
  simp [findMapping, List.find?_eq_none]

lemma mem_of_findById {id : JsString} {user : User} (h : findById s id = some user) :
    user ∈ s.users ∧ user.id = id :=
  ⟨List.mem_of_find?_eq_some h, by simpa using List.find?_some h⟩

lemma findById_eq_none {id : JsString} : findById s id = none ↔ ∀ user ∈ s.users, user.id ≠ id := by
  simp [findById, List.find?_eq_none]

lemma mem_of_findByEmail {email : JsString} {user : User} (h : findByEmail s email = some user) :
    user ∈ s.users ∧ user.email = email :=
  ⟨List.mem_of_find?_eq_some h, by simpa using List.find?_some h⟩

lemma findByEmail_eq_none {email : JsString} :
    findByEmail s email = none ↔ ∀ user ∈ s.users, user.email ≠ email := by
  simp [findByEmail, List.find?_eq_none]

/-- There is an account with this id. -/
def Exists (s : LoginState C) (id : JsString) : Prop := ∃ user ∈ s.users, user.id = id

lemma exists_of_findById {id : JsString} {user : User} (h : findById s id = some user) :
    Exists s id := ⟨user, mem_of_findById h⟩

lemma not_exists_iff {id : JsString} : findById s id = none ↔ ¬ Exists s id := by
  rw [findById_eq_none]
  exact ⟨fun h ⟨user, huser, hid⟩ => h user huser hid, fun h user huser hid => h ⟨user, huser, hid⟩⟩

@[simp] lemma mappingOf_key (identity : VerifiedOidcIdentity) (userId : JsString) (flag : Bool) :
    (mappingOf identity userId flag).key = identity.key := rfl

/-- The account ids a phase holds. -/
def Phase.ids : Phase → List JsString
  | .checking userId => [userId]
  | .dropping userId => [userId]
  | .linking account _ => [account.id]
  | .rereading _ account _ => [account.id]
  | _ => []

/-- The tables as the database keeps them: what is unique is so, and every id was issued. -/
structure Consistent (s : LoginState C) : Prop where
  emails : (s.users.map (·.email)).Nodup
  keys : (s.mappings.map (·.key)).Nodup
  userIds : ∀ user ∈ s.users, user.id ∈ s.issued
  mappedIds : ∀ m ∈ s.mappings, m.userId ∈ s.issued
  heldIds : ∀ c, ∀ id ∈ (s.phase c).ids, id ∈ s.issued

variable [DecidableEq C] {appName : JsString} {identities : C → VerifiedOidcIdentity} {t : LoginState C}

lemma Consistent.setPhase {c : C} {phase : Phase} (h : Consistent s)
    (hids : ∀ id ∈ phase.ids, id ∈ s.issued) : Consistent (s.setPhase c phase) := by
  refine ⟨h.emails, h.keys, h.userIds, h.mappedIds, fun c' => ?_⟩
  by_cases hc : c' = c
  · subst hc
    rw [setPhase_self]
    exact hids
  · rw [setPhase_of_ne hc]
    exact h.heldIds c'

omit [DecidableEq C] in
lemma Consistent.record (h : Consistent s) (entry : LogEntry C) : Consistent (s.record entry) :=
  ⟨h.emails, h.keys, h.userIds, h.mappedIds, h.heldIds⟩

lemma Phase.ids_returned {issued : List JsString} (resolved : ResolvedOidcIdentity) :
    ∀ id ∈ (Phase.returned resolved).ids, id ∈ issued := by simp [Phase.ids]

lemma ids_withoutMapping (identity : VerifiedOidcIdentity) : (withoutMapping identity).ids = [] := by
  unfold withoutMapping
  split_ifs <;> rfl

lemma ids_linkIfActive {account : User} {flag : Bool} :
    ∀ id ∈ (linkIfActive account flag).ids, id = account.id := by
  unfold linkIfActive
  split_ifs <;> simp [Phase.ids]

lemma nodup_append_singleton {α : Type} {xs : List α} {x : α} (hxs : xs.Nodup) (hx : x ∉ xs) :
    (xs ++ [x]).Nodup := by
  rw [List.nodup_append]
  refine ⟨hxs, List.nodup_singleton x, fun a ha b hb => ?_⟩
  rw [List.mem_singleton.mp hb]
  exact fun h => hx (h ▸ ha)

omit [DecidableEq C] in
/-- One more account, with an id and an email of its own. -/
lemma Consistent.addUser {user : User} (h : Consistent s)
    (hemail : findByEmail s user.email = none) :
    Consistent { s with users := s.users ++ [user], issued := s.issued ++ [user.id] } := by
  refine ⟨?_, h.keys, ?_, ?_, ?_⟩
  · rw [List.map_append]
    refine nodup_append_singleton h.emails ?_
    rw [List.mem_map]
    rintro ⟨other, hother, heq⟩
    exact findByEmail_eq_none.mp hemail other hother heq
  · intro other hother
    rcases List.mem_append.mp hother with hold | hnew
    · exact List.mem_append_left _ (h.userIds other hold)
    · rw [List.mem_singleton.mp hnew]
      exact List.mem_append_right _ (by simp)
  · exact fun m hm => List.mem_append_left _ (h.mappedIds m hm)
  · exact fun c id hid => List.mem_append_left _ (h.heldIds c id hid)

omit [DecidableEq C] in
/-- One more mapping, for a key that had none. -/
lemma Consistent.addMapping {m : OidcMapping} (h : Consistent s)
    (hkey : findMapping s m.key = none) (hid : m.userId ∈ s.issued) :
    Consistent { s with mappings := s.mappings ++ [m] } := by
  refine ⟨h.emails, ?_, h.userIds, ?_, h.heldIds⟩
  · rw [List.map_append]
    refine nodup_append_singleton h.keys ?_
    rw [List.mem_map]
    rintro ⟨other, hother, heq⟩
    exact findMapping_eq_none.mp hkey other hother heq
  · intro other hother
    rcases List.mem_append.mp hother with hold | hnew
    · exact h.mappedIds other hold
    · rw [List.mem_singleton.mp hnew]
      exact hid

lemma Consistent.drop {identity : VerifiedOidcIdentity} {c : C} {mapping : OidcMapping}
    (h : Consistent s) : Consistent (afterDrop identity s c mapping) := by
  have hphase : Consistent ((s.setPhase c (withoutMapping identity)).record (.dropped c mapping)) :=
    (h.setPhase (by simp [ids_withoutMapping])).record _
  exact ⟨hphase.emails, hphase.keys.sublist (List.filter_sublist.map _), hphase.userIds,
    fun m hm => hphase.mappedIds m (List.mem_filter.mp hm).1, hphase.heldIds⟩

lemma Consistent.provision {identity : VerifiedOidcIdentity} {c : C} {id : JsString}
    (h : Consistent s) (hemail : findByEmail s identity.email = none)
    (hkey : findMapping s identity.key = none) :
    Consistent (afterProvision appName identity s c id) := by
  have huser : Consistent { s with
      users := s.users ++ [newAccount identity id], issued := s.issued ++ [id] } := h.addUser hemail
  have hmapping : Consistent { s with
      users := s.users ++ [newAccount identity id]
      issued := s.issued ++ [id]
      mappings := s.mappings ++ [mappingOf identity id false] } :=
    huser.addMapping hkey (by simp [mappingOf])
  have hphase := hmapping.setPhase (c := c) (Phase.ids_returned ⟨id, false, true⟩)
  exact ⟨hphase.emails, hphase.keys, hphase.userIds, hphase.mappedIds, hphase.heldIds⟩

lemma Consistent.link {identity : VerifiedOidcIdentity} {c : C} {account : User} {flag : Bool}
    (h : Consistent s) (hkey : findMapping s identity.key = none) (hid : account.id ∈ s.issued) :
    Consistent (afterLink appName identity s c account flag) := by
  have hmapping := h.addMapping (m := mappingOf identity account.id flag) hkey hid
  have hphase := hmapping.setPhase (c := c) (Phase.ids_returned ⟨account.id, flag, false⟩)
  exact ⟨hphase.emails, hphase.keys, hphase.userIds, hphase.mappedIds, hphase.heldIds⟩

omit [DecidableEq C] in
lemma Consistent.held {c : C} {phase : Phase} (h : Consistent s) (hphase : s.phase c = phase) :
    ∀ id ∈ phase.ids, id ∈ s.issued := hphase ▸ h.heldIds c

lemma Consistent.next {c : C} (h : Consistent s) (ht : NextStep appName (identities c) s c t) :
    Consistent t := by
  have hnil : ∀ id ∈ ([] : List JsString), id ∈ s.issued := by simp
  cases ht with
  | missing => exact h.setPhase hnil
  | read before found =>
    refine (h.setPhase ?_).record _
    simpa [Phase.ids] using h.mappedIds _ (mem_of_findMapping found).1
  | unmapped => exact h.setPhase (by simp [ids_withoutMapping])
  | known => exact h.setPhase hnil
  | unknown before =>
    have hheld := h.held before
    exact h.setPhase hheld
  | dropMissing => exact h.setPhase hnil
  | drop => exact h.drop
  | legacy before found =>
    refine (h.setPhase fun id hid => ?_).record _
    rw [ids_linkIfActive id hid]
    exact h.userIds _ (mem_of_findByEmail found).1
  | newcomer => exact h.setPhase hnil
  | lostProvision => exact h.setPhase hnil
  | provisioned before email mapping => exact h.provision email mapping
  | unrecovered => exact h.setPhase hnil
  | recovered before found =>
    refine (h.setPhase fun id hid => ?_).record _
    rw [ids_linkIfActive id hid]
    exact h.userIds _ (mem_of_findByEmail found).1
  | lostLink before =>
    have hheld := h.held before
    exact h.setPhase hheld
  | linked before mapping => exact h.link mapping (h.held before _ (by simp [Phase.ids]))
  | rereadMissing => exact h.setPhase hnil
  | rereadOther => exact h.setPhase hnil
  | rereadSame => exact h.setPhase hnil

lemma ids_failed {phase after : Phase} {error : Thrown} (h : failed phase error = some after) :
    ∀ id ∈ after.ids, id ∈ phase.ids := by
  cases phase with
  | provisioning =>
    obtain rfl := Option.some.inj h
    simp [Phase.ids]
  | linking account flag =>
    obtain rfl := Option.some.inj h
    simp [Phase.ids]
  | returned resolved => cases h
  | threw error => cases h
  | _ =>
    obtain rfl := Option.some.inj h
    simp [Phase.ids]

omit [DecidableEq C] in
lemma Consistent.admin (h : Consistent s) (ht : AdminStep s t) : Consistent t := by
  cases ht with
  | create fresh email => exact h.addUser email
  | deactivate id =>
    have hmap : ∀ f : User → JsString, (∀ user, f { user with isActive := false } = f user) →
        (s.users.map fun user => if user.id = id then { user with isActive := false } else user).map f =
          s.users.map f := by
      intro f hf
      rw [List.map_map]
      refine List.map_congr_left fun user _ => ?_
      simp only [Function.comp_apply]
      split_ifs
      · exact hf user
      · rfl
    refine ⟨by rw [hmap _ fun _ => rfl]; exact h.emails, h.keys, ?_, h.mappedIds, h.heldIds⟩
    intro user huser
    obtain ⟨before, hbefore, rfl⟩ := List.mem_map.mp huser
    split_ifs
    · exact h.userIds before hbefore
    · exact h.userIds before hbefore
  | delete id =>
    exact ⟨h.emails.sublist (List.filter_sublist.map _), h.keys,
      fun user huser => h.userIds user (List.mem_filter.mp huser).1, h.mappedIds, h.heldIds⟩

lemma consistent_step {a : Action C} (h : Consistent s)
    (ht : step appName identities s a = some t) : Consistent t := by
  rcases step_cases ht with ⟨c, hnext⟩ | ⟨c, error, phase, hfailed, rfl⟩ | hadmin
  · exact h.next hnext
  · exact h.setPhase fun id hid => h.heldIds c id (ids_failed hfailed id hid)
  · exact h.admin hadmin

lemma findMapping_afterDrop (identity : VerifiedOidcIdentity) (c : C) (mapping : OidcMapping)
    (key : JsString × JsString) :
    findMapping (afterDrop identity s c mapping) key =
      if key = identity.key then none else findMapping s key := by
  by_cases hkey : key = identity.key
  · rw [if_pos hkey, findMapping_eq_none]
    intro m hm
    simpa [hkey] using (List.mem_filter.mp hm).2
  · rw [if_neg hkey, findMapping, findMapping, afterDrop]
    simp only
    rw [List.find?_filter]
    refine congrArg (fun p => List.find? p s.mappings) (funext fun m => ?_)
    by_cases hm : m.key = key
    · simp [hm, hkey]
    · simp [hm]

omit [DecidableEq C] in
lemma findMapping_append {m : OidcMapping} (hs : t.mappings = s.mappings ++ [m])
    (key : JsString × JsString) :
    findMapping t key = (findMapping s key).or (if m.key = key then some m else none) := by
  rw [findMapping, findMapping, hs, List.find?_append]
  by_cases hm : m.key = key
  · simp [hm]
  · simp [hm]

end Tables

section Dangling

/-- Two logins of one external identity. -/
def racer : Bool → VerifiedOidcIdentity := fun _ =>
  { issuer := js "https://id.example.com/realms/staff"
    subject := js "00u-a"
    email := js "race@example.com"
    emailVerified := true }

/-- The account of the mapping was deleted; the mapping was not. -/
def danglingState : LoginState Bool :=
  { users := []
    mappings := [mappingOf (racer true) (js "user-1") false]
    audit := []
    issued := [js "user-1"]
    provisionedIds := []
    log := []
    phase := fun _ => .start }

lemma danglingState_consistent : Consistent danglingState := by
  refine ⟨List.nodup_nil, by simp [danglingState], by simp [danglingState], ?_,
    fun _ _ hid => nomatch hid⟩
  simp [danglingState, mappingOf]

end Dangling

end Appspine.Oidc
