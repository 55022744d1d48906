import Appspine.AccessKeys
import Appspine.RateLimits

/-!
# Requests with an API key

`ApiKeyMachineStrategy.authenticate` and the older `ApiKeyGuard.canActivate`, each in two parts: up
to the row that the database finds, and from there on. Between the two, and between requests,
administrators change roles, users and keys.
-/
namespace Appspine.ApiKeyAuth
open JsText AccessStore AccessRuns KeyedTable RateLimits Transitions

section Source

/-- The header `x-api-key`. -/
inductive Header where
  | absent
  | single (value : JsString)
  | repeated (values : List JsString)

structure MachinePrincipal where
  sub : JsString
  authorization : Rbac.UserContext
  scopes : List JsString
  isApiKey : Bool
  actingUserId : Option JsString

inductive Refusal where
  | UnauthorizedException (message : JsString)
  | TooManyRequests (retryAfter : ℕ)
  | database (error : DatabaseError)
  deriving DecidableEq

def invalidApiKey : Refusal := .UnauthorizedException (js "Invalid API key")

def unavailable : Refusal :=
  .UnauthorizedException
    (js "API key authentication is unavailable: no RBAC policy provider registered")

/-- The row that is found, with what it includes. -/
structure Found where
  key : ApiKey
  role : Rbac.RoleGrant
  actingUser : Option UserCreation.PublicUser

def isUsable (hashedKey : JsString) (now : ℕ) (key : ApiKey) : Bool :=
  decide (key.hashedKey = hashedKey) && key.isActive &&
    key.expiresAt.all (fun instant => decide (now < instant))

/-- `apiKey.findFirst`. A key whose role is missing is an error of the query. -/
def findFirst (db : Database) (hashedKey : JsString) (now : ℕ) :
    Except DatabaseError (Option Found) :=
  match db.apiKeys.find? (isUsable hashedKey now) with
  | none => .ok none
  | some key =>
    match findRole db key.roleId with
    | none => .error .other
    | some role => .ok (some ⟨key, grantOf db role, key.actingUserId.bind (findUser db)⟩)

/-- `flatten` of the policy provider, when there is one. -/
abbrev Policy := Option (List Rbac.RoleGrant → Rbac.UserContext)

def principalOf (flatten : List Rbac.RoleGrant → Rbac.UserContext) (found : Found) :
    MachinePrincipal :=
  { sub := found.key.id
    authorization := flatten [found.role]
    scopes := found.key.scopes
    isApiKey := true
    actingUserId := (found.actingUser.filter (fun user => user.isActive)).map (·.id) }

/-- The rate limit, for a key that was found, and who the request is from then. -/
def admitKey (flatten : List Rbac.RoleGrant → Rbac.UserContext) (buckets : Buckets JsString)
    (found : Found) (now : ℕ) : Buckets JsString × Except Refusal (Option MachinePrincipal) :=
  let (buckets, decision) := check found.key.rateLimit buckets found.key.id now
  if decision.allowed then (buckets, .ok (some (principalOf flatten found)))
  else (buckets, .error (.TooManyRequests (decision.retryAfter.getD 60)))

/-- What comes of looking for the key: an answer, or a row to go on with. -/
abbrev Looked := Except Refusal (Option MachinePrincipal) ⊕ Found

variable (sha256 : JsString → JsString) (policy : Policy)

/-- `authenticate`, up to the row. -/
def look (db : Database) (header : Header) (now : ℕ) : Looked :=
  match header with
  | .single rawKey =>
    if startsWith rawKey KEY_PREFIX = false then .inl (.error invalidApiKey)
    else if policy.isNone then .inl (.error unavailable)
    else
      match findFirst db (sha256 rawKey) now with
      | .error error => .inl (.error (.database error))
      | .ok none => .inl (.error invalidApiKey)
      | .ok (some found) => .inr found
  | _ => .inl (.ok none)

/-- `ApiKeyGuard.canActivate`, up to the row: `none` is `false`. -/
def guardLook (db : Database) (header : Header) (now : ℕ) : Looked :=
  if policy.isNone then .inl (.ok none)
  else
    match header with
    | .single rawKey =>
      if startsWith rawKey KEY_PREFIX = false then .inl (.ok none)
      else
        match findFirst db (sha256 rawKey) now with
        | .error error => .inl (.error (.database error))
        | .ok none => .inl (.ok none)
        | .ok (some found) => .inr found
    | _ => .inl (.ok none)

/-- The guard says no where the strategy rejects the key. -/
def asGuard : Looked → Looked
  | .inl (.error (.UnauthorizedException _)) => .inl (.ok none)
  | looked => looked

theorem guardLook_eq (db : Database) (header : Header) (now : ℕ) :
    guardLook sha256 policy db header now = asGuard (look sha256 policy db header now) := by
  cases policy with
  | none =>
    cases header with
    | single rawKey =>
      simp only [guardLook, look, Option.isNone_none, if_true]
      split_ifs
      · rfl
      · rfl
    | _ => rfl
  | some flatten =>
    cases header with
    | single rawKey =>
      simp only [guardLook, look, Option.isNone_some, Bool.false_eq_true, if_false]
      split_ifs
      · rfl
      · cases findFirst db (sha256 rawKey) now with
        | error error => rfl
        | ok found => cases found <;> rfl
    | _ => rfl

end Source

section System

/-- The environment of the calls, and the requests: their header, and whether they come through
the older guard. -/
structure Setup extends Environment where
  headers : ℕ → Header
  viaGuard : ℕ → Bool
  policy : Policy

inductive RequestPhase where
  | waiting
  | found (found : Found)
  | answered (answer : Except Refusal (Option MachinePrincipal))

structure State where
  access : AccessRuns.State
  buckets : Buckets JsString
  request : ℕ → RequestPhase

inductive Action where
  | access (action : AccessRuns.Action)
  | look (request now : ℕ)
  | lookFails (request : ℕ) (error : DatabaseError)
  | admitKey (request now : ℕ)
  | evict (now : ℕ)

def State.setRequest (s : State) (request : ℕ) (phase : RequestPhase) : State :=
  { s with request := Function.update s.request request phase }

def ofLooked : Looked → RequestPhase
  | .inl answer => .answered answer
  | .inr found => .found found

variable (c : Setup)

def Setup.look (request : ℕ) (db : Database) (now : ℕ) : Looked :=
  if c.viaGuard request then guardLook c.sha256 c.policy db (c.headers request) now
  else ApiKeyAuth.look c.sha256 c.policy db (c.headers request) now

def step (s : State) : Action → Option State
  | .access action =>
    (AccessRuns.step c.toEnvironment s.access action).map fun access => { s with access := access }
  | .look request now =>
    match s.request request with
    | .waiting => some (s.setRequest request (ofLooked (c.look request s.access.db now)))
    | _ => none
  | .lookFails request error =>
    match s.request request with
    | .waiting => some (s.setRequest request (.answered (.error (.database error))))
    | _ => none
  | .admitKey request now =>
    match s.request request, c.policy with
    | .found found, some flatten =>
      let (buckets, answer) := admitKey flatten s.buckets found now
      some ({ s with buckets := buckets }.setRequest request (.answered answer))
    | _, _ => none
  | .evict now => some { s with buckets := evict s.buckets now }

def initial (db : Database) : State := ⟨AccessRuns.initial db, [], fun _ => .waiting⟩

end System

section Looking

variable {c : Setup} {db : Database} {request now : ℕ} {found : Found}

/-- What a row that is found says of the key of the request. -/
structure Finds (c : Setup) (db : Database) (request now : ℕ) (rawKey : JsString) (role : Role)
    (found : Found) : Prop where
  header : c.headers request = .single rawKey
  wellFormed : startsWith rawKey KEY_PREFIX = true
  row : found.key ∈ db.apiKeys
  hash : found.key.hashedKey = c.sha256 rawKey
  active : found.key.isActive = true
  unexpired : ∀ instant ∈ found.key.expiresAt, now < instant
  roleRow : role ∈ db.roles
  roleId : role.id = found.key.roleId
  grant : found.role = grantOf db role
  actingUser : found.actingUser = found.key.actingUserId.bind (findUser db)

theorem finds_of_findFirst {rawKey : JsString} (hheader : c.headers request = .single rawKey)
    (hstart : startsWith rawKey KEY_PREFIX = true)
    (h : findFirst db (c.sha256 rawKey) now = .ok (some found)) :
    ∃ role, Finds c db request now rawKey role found := by
  unfold findFirst at h
  split at h
  · cases h
  · next key hkey =>
    split at h
    · cases h
    · next role hrole =>
      obtain rfl := Option.some.inj (Except.ok.inj h)
      have husable := List.find?_some hkey
      simp only [isUsable, Bool.and_eq_true, decide_eq_true_eq] at husable
      obtain ⟨⟨hhash, hactive⟩, hexpires⟩ := husable
      obtain ⟨hmem, hid⟩ := mem_of_lookup hrole
      refine ⟨role, hheader, hstart, List.mem_of_find?_eq_some hkey, hhash, hactive, ?_, hmem, hid,
        rfl, rfl⟩
      intro instant hinstant
      rw [Option.mem_def.mp hinstant] at hexpires
      exact of_decide_eq_true hexpires

/-- A look at the keys ends at a row, or without a principal. -/
theorem look_cases (c : Setup) (db : Database) (request now : ℕ) :
    (∃ rawKey role found, c.look request db now = .inr found ∧
      Finds c db request now rawKey role found) ∨
      ∃ answer, c.look request db now = .inl answer ∧ ∀ principal, answer ≠ .ok (some principal) := by
  have hlook : (∃ rawKey role found, look c.sha256 c.policy db (c.headers request) now = .inr found ∧
      Finds c db request now rawKey role found) ∨
      ∃ answer, look c.sha256 c.policy db (c.headers request) now = .inl answer ∧
        ∀ principal, answer ≠ .ok (some principal) := by
    cases hheader : c.headers request with
    | single rawKey =>
      simp only [look]
      split_ifs with hstart hpolicy
      · exact .inr ⟨_, rfl, nofun⟩
      · exact .inr ⟨_, rfl, nofun⟩
      · cases hfind : findFirst db (c.sha256 rawKey) now with
        | error error => exact .inr ⟨_, rfl, nofun⟩
        | ok row =>
          cases row with
          | none => exact .inr ⟨_, rfl, nofun⟩
          | some found =>
            rw [Bool.not_eq_false] at hstart
            obtain ⟨role, hfinds⟩ := finds_of_findFirst hheader hstart hfind
            exact .inl ⟨rawKey, role, found, rfl, hfinds⟩
    | _ => exact .inr ⟨_, rfl, nofun⟩
  unfold Setup.look
  rw [guardLook_eq]
  split_ifs
  · rcases hlook with ⟨rawKey, role, found, heq, hfinds⟩ | ⟨answer, heq, hnone⟩
    · exact .inl ⟨rawKey, role, found, by rw [heq]; rfl, hfinds⟩
    · rw [heq]
      cases answer with
      | ok principal => exact .inr ⟨_, rfl, hnone⟩
      | error refusal =>
        cases refusal with
        | UnauthorizedException message => exact .inr ⟨_, rfl, nofun⟩
        | _ => exact .inr ⟨_, rfl, nofun⟩
  · exact hlook

end Looking

section Steps

variable {c : Setup} {s t : State} {a : Action}

theorem request_setRequest_self (s : State) (r : ℕ) (phase : RequestPhase) :
    (s.setRequest r phase).request r = phase := Function.update_self ..

theorem request_setRequest_ne (s : State) {r other : ℕ} (phase : RequestPhase) (h : other ≠ r) :
    (s.setRequest r phase).request other = s.request other := Function.update_of_ne h ..

/-- What can become of one request in a step. -/
inductive Moves (c : Setup) (s : State) (a : Action) (r : ℕ) : RequestPhase → Prop
  | same : Moves c s a r (s.request r)
  | found {now : ℕ} {rawKey : JsString} {role : Role} {found : Found} (haction : a = .look r now)
      (hwaiting : s.request r = .waiting) (hfinds : Finds c s.access.db r now rawKey role found) :
      Moves c s a r (.found found)
  | refused {answer : Except Refusal (Option MachinePrincipal)}
      (hnone : ∀ principal, answer ≠ .ok (some principal)) : Moves c s a r (.answered answer)
  | admitted {found : Found} {flatten : List Rbac.RoleGrant → Rbac.UserContext}
      (hfound : s.request r = .found found) (hpolicy : c.policy = some flatten) :
      Moves c s a r (.answered (.ok (some (principalOf flatten found))))

theorem moves_of_setRequest {u : State} (hu : u.request = s.request) {r other : ℕ}
    {phase : RequestPhase} (h : other = r → Moves c s a r phase) :
    Moves c s a other ((u.setRequest r phase).request other) := by
  by_cases heq : other = r
  · subst heq
    rw [request_setRequest_self]
    exact h rfl
  · rw [request_setRequest_ne u phase heq, hu]
    exact .same

theorem admit_cases (flatten : List Rbac.RoleGrant → Rbac.UserContext) (buckets : Buckets JsString)
    (found : Found) (now : ℕ) :
    (admitKey flatten buckets found now).2 = .ok (some (principalOf flatten found)) ∨
      ∃ refusal, (admitKey flatten buckets found now).2 = .error refusal := by
  simp only [admitKey]
  split_ifs
  · exact .inl rfl
  · exact .inr ⟨_, rfl⟩

theorem moves_of_step (h : step c s a = some t) (r : ℕ) : Moves c s a r (t.request r) := by
  cases a with
  | access action =>
    obtain ⟨access, -, rfl⟩ := Option.map_eq_some_iff.mp h
    exact .same
  | look request now =>
    simp only [step] at h
    split at h
    · next hwaiting =>
      obtain rfl := Option.some.inj h
      refine moves_of_setRequest rfl fun _ => ?_
      rcases look_cases c s.access.db request now with
        ⟨rawKey, role, found, heq, hfinds⟩ | ⟨answer, heq, hnone⟩
      · rw [heq]
        exact .found rfl hwaiting hfinds
      · rw [heq]
        exact .refused hnone
    · cases h
  | lookFails request error =>
    simp only [step] at h
    split at h
    · obtain rfl := Option.some.inj h
      exact moves_of_setRequest rfl fun _ => .refused nofun
    · cases h
  | admitKey request now =>
    simp only [step] at h
    split at h
    · next found flatten hfound hpolicy =>
      obtain rfl := Option.some.inj h
      refine moves_of_setRequest rfl fun _ => ?_
      rcases admit_cases flatten s.buckets found now with heq | ⟨refusal, heq⟩
      · rw [heq]
        exact .admitted hfound hpolicy
      · rw [heq]
        exact .refused nofun
    · cases h
  | evict now =>
    obtain rfl := Option.some.inj h
    exact .same

theorem access_of_step (h : step c s a = some t) :
    t.access = s.access ∨ AccessRuns.Step c.toEnvironment s.access t.access := by
  cases a with
  | access action =>
    obtain ⟨access, haccess, rfl⟩ := Option.map_eq_some_iff.mp h
    exact .inr (step_cases haccess)
  | look request now =>
    simp only [step] at h
    split at h
    · obtain rfl := Option.some.inj h
      exact .inl rfl
    · cases h
  | lookFails request error =>
    simp only [step] at h
    split at h
    · obtain rfl := Option.some.inj h
      exact .inl rfl
    · cases h
  | admitKey request now =>
    simp only [step] at h
    split at h
    · obtain rfl := Option.some.inj h
      exact .inl rfl
    · cases h
  | evict now =>
    obtain rfl := Option.some.inj h
    exact .inl rfl

end Steps

section Sample

/-- A key of the clerk is made and removed; two requests bring it. -/
def issuing : Setup where
  calls := fun
    | 0 => .createApiKey ⟨js "k", js "c", none, [js "audit:read"], none, none⟩ none
    | _ => .removeApiKey (js "k")
  newId := fun call => List.replicate (call + 1) (unit 'k')
  randomHex := fun call => List.replicate call (unit '0')
  sha256 := id
  headers := fun _ => .single (js "an_live_")
  viaGuard := fun _ => false
  policy := some fun roles => ⟨roles.map Rbac.RoleGrant.name, js "DENY_ALL", []⟩

def use : List Action :=
  [.access (.next 0 false), .access (.next 0 false), .look 0 5, .admitKey 0 6]

def removal : List Action := [.access (.next 1 false), .access (.next 1 false)]

def after (actions : List Action) : State :=
  (run (step issuing) (initial clerks) actions).getD (initial clerks)

theorem fresh_issuing : Fresh issuing.toEnvironment clerks where
  newId := fun m n h => by simpa [issuing] using congrArg List.length h
  roles := by
    intro call h
    have hids : clerks.roleIds = [[unit 'a'], [unit 'c']] := by decide
    rw [hids, List.mem_cons, List.mem_singleton] at h
    have hmem : unit 'k' ∈ issuing.newId call :=
      List.mem_replicate.mpr ⟨by omega, rfl⟩
    rcases h with h | h
    · rw [h] at hmem
      revert hmem
      decide
    · rw [h] at hmem
      revert hmem
      decide
  apiKeys := fun _ h => by cases h

theorem freshKeys_issuing : FreshKeys issuing.toEnvironment clerks where
  randomHex := fun m n h => by simpa [issuing] using congrArg List.length h
  sha256 := fun _ _ h => h
  hashes := fun _ h => by cases h

end Sample

section Runs

variable {c : Setup} {db₀ : Database} {s t : State} {actions : List Action}

/-- What holds of the stored rows after every run. -/
structure Kept (c : Setup) (db₀ : Database) (s : State) : Prop where
  roles : Intact c.toEnvironment db₀ s.access
  keys : KeysIntact c.toEnvironment db₀ s.access

theorem kept_run (hfresh : Fresh c.toEnvironment db₀) (hsound : Sound db₀)
    (hscopes : ∀ key ∈ db₀.apiKeys, ApiKeys.invalidScopes key.scopes = [])
    (hrun : run (step c) (initial db₀) actions = some t) : Kept c db₀ t := by
  refine run_invariant (fun s a t h hstep => ?_)
    ⟨intact_initial hsound, keysIntact_initial hscopes⟩ hrun
  rcases access_of_step hstep with heq | haccess
  · exact ⟨heq ▸ h.roles, heq ▸ h.keys⟩
  · exact ⟨h.roles.step hfresh haccess, h.keys.step hfresh haccess⟩

/-- The request found this row at one of its steps. -/
def FoundIn (c : Setup) (db₀ : Database) (actions : List Action) (r : ℕ) (found : Found) : Prop :=
  ∃ earlier now later u rawKey role, actions = earlier ++ .look r now :: later ∧
    run (step c) (initial db₀) earlier = some u ∧ Finds c u.access.db r now rawKey role found

theorem FoundIn.snoc {r : ℕ} {found : Found} (h : FoundIn c db₀ actions r found) (a : Action) :
    FoundIn c db₀ (actions ++ [a]) r found := by
  obtain ⟨earlier, now, later, u, rawKey, role, rfl, hu, hfinds⟩ := h
  exact ⟨earlier, now, later ++ [a], u, rawKey, role, List.append_assoc .., hu, hfinds⟩

end Runs

section Revocation

variable {c : Setup} {db₀ : Database} {s t : State}

/-- The hash has been used up, and a request with it gets no principal. -/
structure Revoked (c : Setup) (db₀ : Database) (request : ℕ) (hash : JsString) (s : State) :
    Prop where
  spent : Spent c.toEnvironment db₀ s.access hash
  gone : hash ∉ s.access.db.apiKeys.map ApiKey.hashedKey
  notFound : ∀ found, s.request request ≠ .found found
  refused : ∀ principal, s.request request ≠ .answered (.ok (some principal))

theorem Revoked.step (hkeys : FreshKeys c.toEnvironment db₀) {a : Action} {request : ℕ}
    {rawKey : JsString} (hheader : c.headers request = .single rawKey)
    (h : Revoked c db₀ request (c.sha256 rawKey) s) (hstep : step c s a = some t) :
    Revoked c db₀ request (c.sha256 rawKey) t := by
  have hmoves := moves_of_step hstep request
  have hnotFinds : ∀ {now : ℕ} {rawKey' : JsString} {role : Role} {found : Found},
      ¬ Finds c s.access.db request now rawKey' role found := by
    intro now rawKey' role found hfinds
    obtain rfl := Header.single.inj (hheader.symm.trans hfinds.header)
    exact h.gone (hfinds.hash ▸ List.mem_map_of_mem hfinds.row)
  have hstored : Spent c.toEnvironment db₀ t.access (c.sha256 rawKey) ∧
      c.sha256 rawKey ∉ t.access.db.apiKeys.map ApiKey.hashedKey := by
    rcases access_of_step hstep with heq | haccess
    · rw [heq]
      exact ⟨h.spent, h.gone⟩
    · exact ⟨h.spent.step haccess, gone_step hkeys haccess h.spent h.gone⟩
  refine ⟨hstored.1, hstored.2, fun found hphase => ?_, fun principal hphase => ?_⟩
  · rw [hphase] at hmoves
    generalize hnew : RequestPhase.found found = phase at hmoves
    cases hmoves with
    | same => exact h.notFound found hnew.symm
    | found _ _ hfinds => exact hnotFinds hfinds
    | refused _ => cases hnew
    | admitted _ _ => cases hnew
  · rw [hphase] at hmoves
    generalize hnew : RequestPhase.answered (.ok (some principal)) = phase at hmoves
    cases hmoves with
    | same => exact h.refused principal hnew.symm
    | found _ _ hfinds => exact hnotFinds hfinds
    | refused hnone => exact hnone principal (RequestPhase.answered.inj hnew).symm
    | @admitted found _ hfound _ => exact h.notFound found hfound

/-- The raw key that goes with the row of this id. -/
def KeyOf (c : Setup) (db₀ : Database) (rawKey id : JsString) : Prop :=
  (∃ old ∈ db₀.apiKeys, old.id = id ∧ old.hashedKey = c.sha256 rawKey) ∨
    ∃ call dto createdBy, c.calls call = .createApiKey dto createdBy ∧ c.newId call = id ∧
      rawKey = AccessRuns.rawKey c.toEnvironment call

/-- A row with the hash of a raw key has its id. -/
theorem id_of_hash (hkeys : FreshKeys c.toEnvironment db₀) (hsound : Sound db₀)
    {u : AccessRuns.State} {rawKey id : JsString} (hof : KeyOf c db₀ rawKey id) {key : ApiKey}
    (hissued : Issued c.toEnvironment db₀ u key) (hhash : key.hashedKey = c.sha256 rawKey) :
    key.id = id := by
  rcases hof with ⟨old, hold, rfl, hold'⟩ | ⟨call, _, _, -, rfl, rfl⟩
  · rcases hissued with ⟨first, hfirst, hid, hfirst'⟩ | ⟨creator, _, _, -, -, -, hdrawn⟩
    · have hsame : first = old :=
        List.inj_on_of_nodup_map hsound.keyHashes hfirst hold
          (hfirst'.symm.trans (hhash.trans hold'.symm))
      rw [hid, hsame]
    · refine absurd ?_ (hkeys.hashes creator)
      rw [← hdrawn, hhash, ← hold']
      exact List.mem_map_of_mem hold
  · rcases hissued with ⟨first, hfirst, -, hfirst'⟩ | ⟨creator, _, _, -, -, hid, hdrawn⟩
    · refine absurd ?_ (hkeys.hashes call)
      rw [← hhash, hfirst']
      exact List.mem_map_of_mem hfirst
    · rw [hid, call_eq_of_hash hkeys (hdrawn.symm.trans hhash)]

theorem spent_of_known (hfresh : Fresh c.toEnvironment db₀) {u : AccessRuns.State}
    {rawKey id : JsString} (hof : KeyOf c db₀ rawKey id)
    (hknown : KnownKey c.toEnvironment db₀ u id) :
    Spent c.toEnvironment db₀ u (c.sha256 rawKey) := by
  rcases hof with ⟨old, hold, rfl, hhash⟩ | ⟨call, _, _, -, rfl, rfl⟩
  · exact .inl (hhash ▸ List.mem_map_of_mem hold)
  · rcases hknown with hfirst | ⟨creator, hwritten, hid⟩
    · exact absurd hfirst (hfresh.apiKeys call)
    · obtain rfl := hfresh.newId hid
      exact .inr ⟨creator, hwritten, rfl⟩

/-- Once the call that removes a key has written, no request that has yet to look gets in with the
key, whatever else happens. -/
theorem revoked_forever (hfresh : Fresh c.toEnvironment db₀)
    (hkeys : FreshKeys c.toEnvironment db₀) (hsound : Sound db₀)
    (hscopes : ∀ key ∈ db₀.apiKeys, ApiKeys.invalidScopes key.scopes = [])
    {earlier later : List Action} (hrun : run (step c) (initial db₀) earlier = some s)
    {call request : ℕ} {id rawKey : JsString} (hcall : c.calls call = .removeApiKey id)
    (hwritten : (s.access.phase call).hasWritten = true) (hof : KeyOf c db₀ rawKey id)
    (hheader : c.headers request = .single rawKey) (hwaiting : s.request request = .waiting)
    (hlater : run (step c) s later = some t) (principal : MachinePrincipal) :
    t.request request ≠ .answered (.ok (some principal)) := by
  have hkept := kept_run hfresh hsound hscopes hrun
  obtain ⟨hgone, hknown⟩ := hkept.keys.removed call id hcall hwritten
  have hrevoked : Revoked c db₀ request (c.sha256 rawKey) s := by
    refine ⟨spent_of_known hfresh hof hknown, fun hmem => ?_, ?_, ?_⟩
    · obtain ⟨key, hkey, hhash⟩ := List.mem_map.mp hmem
      have hid := id_of_hash hkeys hsound hof (hkept.keys.issued key hkey) hhash
      exact hgone (hid ▸ List.mem_map_of_mem hkey)
    · rw [hwaiting]
      exact nofun
    · rw [hwaiting]
      exact nofun
  exact (run_invariant (fun s a t h hstep => h.step hkeys hheader hstep) hrevoked hlater).refused
    principal

theorem revoked_forever_removal : ¬ ∃ principal,
    (after (use ++ removal ++ [.look 1 8])).request 1 = .answered (.ok (some principal)) := by
  rintro ⟨principal, h⟩
  have hrun : run (step issuing) (initial clerks) (use ++ removal) =
      some (after (use ++ removal)) := rfl
  have hcall : issuing.calls 1 = .removeApiKey (js "k") := rfl
  have hwritten : ((after (use ++ removal)).access.phase 1).hasWritten = true := rfl
  have hof : KeyOf issuing clerks (js "an_live_") (js "k") := .inr ⟨0, _, _, rfl, rfl, rfl⟩
  have hlater : run (step issuing) (after (use ++ removal)) [.look 1 8] =
      some (after (use ++ removal ++ [.look 1 8])) := rfl
  exact revoked_forever fresh_issuing freshKeys_issuing sound_clerks (by decide) hrun hcall
    hwritten hof rfl rfl hlater principal h

end Revocation

end Appspine.ApiKeyAuth
