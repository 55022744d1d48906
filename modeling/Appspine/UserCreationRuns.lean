import Appspine.UserCreation

/-!
# Runs of user creation

What every state of a run has in common: an email belongs to one user, and the rows of a call that
is under way stand in its transaction only. From this, how each call can end.
-/
namespace Appspine.UserCreation
open JsText InsertionMap Transitions

variable {rbacPolicy : Option (List Role)} {requests : ℕ → Request} {newId : ℕ → JsString}
  {s : State} {call call' : ℕ} {t t' : TxId} {changes : Changes}

section Updates

@[simp] theorem phase_setPhase (s : State) (call call' : ℕ) (phase : Phase) :
    (s.setPhase call phase).phase call' = if call' = call then phase else s.phase call' := by
  rw [State.phase, State.setPhase, get_set]
  split_ifs <;> rfl

@[simp] theorem changes_setPhase (s : State) (call : ℕ) (phase : Phase) (t : TxId) :
    (s.setPhase call phase).changes t = s.changes t := rfl

@[simp] theorem committed_setPhase (s : State) (call : ℕ) (phase : Phase) :
    (s.setPhase call phase).committed = s.committed := rfl

@[simp] theorem transactions_setPhase (s : State) (call : ℕ) (phase : Phase) :
    (s.setPhase call phase).transactions = s.transactions := rfl

@[simp] theorem phase_setTx (s : State) (t : TxId) (changes : Option Changes) (call : ℕ) :
    (s.setTx t changes).phase call = s.phase call := rfl

@[simp] theorem committed_setTx (s : State) (t : TxId) (changes : Option Changes) :
    (s.setTx t changes).committed = s.committed := rfl

@[simp] theorem changes_setTx (s : State) (t t' : TxId) (changes : Option Changes) :
    (s.setTx t changes).changes t' = if t' = t then changes else s.changes t' := by
  rw [State.changes, State.setTx, get_set]
  split_ifs <;> rfl

@[simp] theorem phase_commit (s : State) (t : TxId) (changes : Changes) (call : ℕ) :
    (s.commit t changes).phase call = s.phase call := rfl

@[simp] theorem committed_commit (s : State) (t : TxId) (changes : Changes) :
    (s.commit t changes).committed = changes.over s.committed := rfl

@[simp] theorem changes_commit (s : State) (t t' : TxId) (changes : Changes) :
    (s.commit t changes).changes t' = if t' = t then none else s.changes t' :=
  changes_setTx _ t t' none

theorem mem_keys_of_changes (h : s.changes t = some changes) : t ∈ keys s.transactions := by
  by_contra hkeys
  rw [State.changes, get_eq_none.mpr hkeys] at h
  cases h

theorem mem_keys_setTx (s : State) (t t' : TxId) (changes : Option Changes) :
    t' ∈ keys (s.setTx t changes).transactions ↔ t' = t ∨ t' ∈ keys s.transactions :=
  mem_keys_set

end Updates

section Parts

/-- The committed tables, or the rows that an open transaction has added. -/
def State.part (s : State) : Option TxId → Option Tables
  | none => some s.committed
  | some t => (s.changes t).map (·.toTables)

@[simp] theorem part_setPhase (s : State) (call : ℕ) (phase : Phase) (place : Option TxId) :
    (s.setPhase call phase).part place = s.part place := by
  cases place <;> rfl

theorem part_setTx (s : State) (t : TxId) (changes : Option Changes) (place : Option TxId) :
    (s.setTx t changes).part place =
      if place = some t then changes.map (·.toTables) else s.part place := by
  cases place with
  | none => rfl
  | some t' =>
    simp only [State.part, changes_setTx, Option.some.injEq]
    split_ifs <;> rfl

theorem part_commit (s : State) (t : TxId) (changes : Changes) (place : Option TxId) :
    (s.commit t changes).part place =
      if place = none then some (changes.over s.committed)
      else if place = some t then none else s.part place := by
  cases place with
  | none => rfl
  | some t' =>
    simp only [State.part, changes_commit, Option.some.injEq, reduceCtorEq, if_false]
    split_ifs <;> rfl

/-- A user row, committed or pending. -/
def UserIn (s : State) (user : PublicUser) : Prop :=
  ∃ place tables, s.part place = some tables ∧ user ∈ tables.users

/-- The rows of one user. -/
def owned (userId : JsString) (tables : Tables) : Tables :=
  { users := tables.users.filter (·.id = userId)
    userRoles := tables.userRoles.filter (·.userId = userId) }

def noRows : Tables := { users := [], userRoles := [] }

/-- The rows of a user that has the roles. -/
def rowsOf (user : PublicUser) (roleIds : List JsString) : Tables :=
  { users := [user], userRoles := roleIds.map (UserRole.mk user.id) }

variable (requests)

/-- The rows of a call under way, in each part of the database. -/
def expectedRows (call : ℕ) : Phase → Option TxId → Tables
  | .created user _, place | .cleared user _, place =>
    if place = some (txOf requests call) then rowsOf user [] else noRows
  | .written user roleIds, place =>
    if place = some (txOf requests call) then rowsOf user roleIds else noRows
  | .committed user roleIds, place => if place = none then rowsOf user roleIds else noRows
  | _, _ => noRows

/-- The phases whose rows are followed: all but those of calls whose rows are no longer theirs. -/
def Phase.followed : Phase → Bool
  | .returned _ _ | .thrownAfterCommit _ => false
  | _ => true

/-- The call has rows in its transaction. -/
def Phase.writing : Phase → Bool
  | .created _ _ | .cleared _ _ | .written _ _ => true
  | _ => false

variable {requests}

theorem expectedRows_of_not_writing {phase : Phase} (h : phase.writing = false) (t : TxId) :
    expectedRows requests call phase (some t) = noRows := by
  cases phase <;> first | rfl | cases h

theorem expectedRows_other {phase : Phase} (h : t ≠ txOf requests call) :
    expectedRows requests call phase (some t) = noRows := by
  cases phase <;> simp [expectedRows, h]

theorem owned_users {userId : JsString} {tables rows : Tables} (h : owned userId tables = rows) :
    tables.users.filter (·.id = userId) = rows.users := congrArg Tables.users h

theorem owned_userRoles {userId : JsString} {tables rows : Tables}
    (h : owned userId tables = rows) :
    tables.userRoles.filter (·.userId = userId) = rows.userRoles := congrArg Tables.userRoles h

theorem owned_eq_noRows {userId : JsString} {tables : Tables} : owned userId tables = noRows ↔
    (∀ user ∈ tables.users, user.id ≠ userId) ∧
      ∀ row ∈ tables.userRoles, row.userId ≠ userId := by
  simp only [owned, noRows, Tables.mk.injEq, List.filter_eq_nil_iff, decide_eq_true_eq]

end Parts

section Invariant

variable (rbacPolicy requests newId)

/-- The roles that the user of a call is to have: those given, or the default ones. -/
def expectedRoleIds (call : ℕ) : List JsString :=
  match givenRoleIds requests call, rbacPolicy with
  | some roleIds, _ => roleIds
  | none, none => []
  | none, some roles =>
    match defaultRoleIds roles with
    | .ok roleIds => roleIds
    | .error _ => []

/-- The user of a call, with the roles it is to have. -/
structure Intended (call : ℕ) (user : PublicUser) (roleIds : List JsString) : Prop where
  id : user.id = newId call
  email : user.email = email requests call
  roleIds : roleIds = expectedRoleIds rbacPolicy requests call

/-- What a phase says about its call. -/
def Facts (s : State) (call : ℕ) : Phase → Prop
  | .resolved roleIds | .begun roleIds => roleIds = expectedRoleIds rbacPolicy requests call
  | .created user roleIds | .cleared user roleIds =>
    Intended rbacPolicy requests newId call user roleIds ∧ txOf requests call ∈ keys s.transactions
  | .written user roleIds =>
    (Intended rbacPolicy requests newId call user roleIds ∧
      txOf requests call ∈ keys s.transactions) ∧ roleIds.Nodup ∧ callerTx requests call = none
  | .committed user roleIds =>
    Intended rbacPolicy requests newId call user roleIds ∧ roleIds.Nodup ∧
      callerTx requests call = none
  | _ => True

/-- An email belongs to one user, and a transaction writes for its own calls. -/
structure Consistent (s : State) : Prop where
  emails : ∀ user user', UserIn s user → UserIn s user' → user.email = user'.email →
    user.id = user'.id
  cleared : ∀ t changes, s.changes t = some changes → ∀ userId ∈ changes.cleared,
    (∃ call, userId = newId call ∧ t = txOf requests call) ∧
      ∀ row ∈ s.committed.userRoles, row.userId ≠ userId
  assigned : ∀ t changes, s.changes t = some changes → ∀ row ∈ changes.userRoles,
    ∃ call, row.userId = newId call ∧ t = txOf requests call

/-- A call under way has its rows where they are to be, and nowhere else. -/
def RowsFit (s : State) (call : ℕ) : Prop :=
  (s.phase call).followed = true → ∀ place tables, s.part place = some tables →
    owned (newId call) tables = expectedRows requests call (s.phase call) place

structure Invariant (s : State) : Prop where
  consistent : Consistent requests newId s
  rows : ∀ call, RowsFit requests newId s call
  facts : ∀ call, Facts rbacPolicy requests newId s call (s.phase call)

end Invariant

section Consistency

variable (h : Consistent requests newId s)
include h

theorem Consistent.setPhase (call : ℕ) (phase : Phase) :
    Consistent requests newId (s.setPhase call phase) where
  emails user user' huser huser' := by
    simp only [UserIn, part_setPhase] at huser huser'
    exact h.emails user user' huser huser'
  cleared := h.cleared
  assigned := h.assigned

theorem Consistent.close (t : TxId) : Consistent requests newId (s.setTx t none) where
  emails user user' huser huser' := by
    have hkept : ∀ user, UserIn (s.setTx t none) user → UserIn s user := by
      rintro user ⟨place, tables, hpart, hmem⟩
      rw [part_setTx] at hpart
      split_ifs at hpart
      · cases hpart
      · exact ⟨place, tables, hpart, hmem⟩
    exact h.emails user user' (hkept user huser) (hkept user' huser')
  cleared t' changes hchanges := by
    rw [changes_setTx] at hchanges
    split_ifs at hchanges
    exact h.cleared t' changes hchanges
  assigned t' changes hchanges := by
    rw [changes_setTx] at hchanges
    split_ifs at hchanges
    exact h.assigned t' changes hchanges

/-- A transaction goes on: every user row it has now is an old one or a new one with a new email. -/
theorem Consistent.update (call : ℕ) (hchanges : ∀ user ∈ changes.users, UserIn s user ∨
      (∀ other, UserIn s other → other.email ≠ user.email) ∧ user.id = newId call)
    (hcleared : ∀ userId ∈ changes.cleared, (∃ call, userId = newId call ∧ t = txOf requests call) ∧
      ∀ row ∈ s.committed.userRoles, row.userId ≠ userId)
    (hassigned : ∀ row ∈ changes.userRoles, ∃ call, row.userId = newId call ∧
      t = txOf requests call) :
    Consistent requests newId (s.setTx t (some changes)) where
  emails := by
    have hkept : ∀ user, UserIn (s.setTx t (some changes)) user → UserIn s user ∨
        (∀ other, UserIn s other → other.email ≠ user.email) ∧ user.id = newId call := by
      rintro user ⟨place, tables, hpart, hmem⟩
      rw [part_setTx] at hpart
      split_ifs at hpart
      · obtain rfl := Option.some.inj hpart
        exact hchanges user hmem
      · exact .inl ⟨place, tables, hpart, hmem⟩
    intro user user' huser huser' hemail
    rcases hkept user huser with hold | ⟨hnew, hid⟩
    · rcases hkept user' huser' with hold' | ⟨hnew', -⟩
      · exact h.emails user user' hold hold' hemail
      · exact absurd hemail (hnew' user hold)
    · rcases hkept user' huser' with hold' | ⟨-, hid'⟩
      · exact absurd hemail.symm (hnew user' hold')
      · exact hid.trans hid'.symm
  cleared t' changes' hchanges' := by
    rw [changes_setTx] at hchanges'
    split_ifs at hchanges' with ht
    · obtain rfl := Option.some.inj hchanges'
      exact ht ▸ hcleared
    · exact h.cleared t' changes' hchanges'
  assigned t' changes' hchanges' := by
    rw [changes_setTx] at hchanges'
    split_ifs at hchanges' with ht
    · obtain rfl := Option.some.inj hchanges'
      exact ht ▸ hassigned
    · exact h.assigned t' changes' hchanges'

theorem Consistent.open (t : TxId) : Consistent requests newId (s.setTx t (some Changes.none)) :=
  h.update 0 (by simp [Changes.none]) (by simp [Changes.none]) (by simp [Changes.none])

omit h in
theorem userIn_of_changes (hchanges : s.changes t = some changes) {user : PublicUser}
    (huser : user ∈ changes.users) : UserIn s user :=
  ⟨some t, changes.toTables, by rw [State.part, hchanges]; rfl, huser⟩

theorem Consistent.addUser (hchanges : s.changes t = some changes) {user : PublicUser}
    (hid : user.id = newId call) (hnew : ∀ other, UserIn s other → other.email ≠ user.email) :
    Consistent requests newId (s.setTx t (some (changes.addUser user))) := by
  refine h.update call ?_ (h.cleared t changes hchanges) (h.assigned t changes hchanges)
  intro other hother
  rcases List.mem_append.mp hother with hold | hsame
  · exact .inl (userIn_of_changes hchanges hold)
  · obtain rfl := List.mem_singleton.mp hsame
    exact .inr ⟨hnew, hid⟩

theorem Consistent.deleteRoles (hchanges : s.changes (txOf requests call) = some changes)
    (hnone : ∀ row ∈ s.committed.userRoles, row.userId ≠ newId call) :
    Consistent requests newId
      (s.setTx (txOf requests call) (some (changes.deleteRoles (newId call)))) := by
  refine h.update call (fun user huser => .inl (userIn_of_changes hchanges huser)) ?_ ?_
  · intro userId huserId
    rcases List.mem_append.mp huserId with hold | hsame
    · exact h.cleared _ changes hchanges userId hold
    · obtain rfl := List.mem_singleton.mp hsame
      exact ⟨⟨call, rfl, rfl⟩, hnone⟩
  · exact fun row hrow => h.assigned _ changes hchanges row (List.mem_of_mem_filter hrow)

theorem Consistent.addRoles (hchanges : s.changes (txOf requests call) = some changes)
    {rows : List UserRole} (hrows : ∀ row ∈ rows, row.userId = newId call) :
    Consistent requests newId (s.setTx (txOf requests call) (some (changes.addRoles rows))) := by
  refine h.update call (fun user huser => .inl (userIn_of_changes hchanges huser))
    (h.cleared _ changes hchanges) ?_
  intro row hrow
  rcases List.mem_append.mp hrow with hold | hnew
  · exact h.assigned _ changes hchanges row hold
  · exact ⟨call, hrows row hnew, rfl⟩

theorem Consistent.commit (hids : Function.Injective newId)
    (hchanges : s.changes t = some changes) :
    Consistent requests newId (s.commit t changes) where
  emails user user' huser huser' := by
    have hkept : ∀ user, UserIn (s.commit t changes) user → UserIn s user := by
      rintro user ⟨place, tables, hpart, hmem⟩
      rw [part_commit] at hpart
      split_ifs at hpart
      · obtain rfl := Option.some.inj hpart
        rcases List.mem_append.mp hmem with hold | hnew
        · exact ⟨none, s.committed, rfl, hold⟩
        · exact userIn_of_changes hchanges hnew
      · exact ⟨place, tables, hpart, hmem⟩
    exact h.emails user user' (hkept user huser) (hkept user' huser')
  cleared t' changes' hchanges' userId huserId := by
    rw [changes_commit] at hchanges'
    split_ifs at hchanges' with ht
    obtain ⟨⟨call, hcall, htx⟩, hnone⟩ := h.cleared t' changes' hchanges' userId huserId
    refine ⟨⟨call, hcall, htx⟩, ?_⟩
    intro row hrow hsame
    rcases List.mem_append.mp hrow with hold | hnew
    · exact hnone row (List.mem_of_mem_filter hold) hsame
    · -- a row that `t` adds is of a call of `t`
      obtain ⟨call', hcall', htx'⟩ := h.assigned t changes hchanges row hnew
      have heq : call' = call := hids (hcall'.symm.trans (hsame.trans hcall))
      exact ht (htx.trans (heq ▸ htx'.symm))
  assigned t' changes' hchanges' := by
    rw [changes_commit] at hchanges'
    split_ifs at hchanges'
    exact h.assigned t' changes' hchanges'

theorem Consistent.insertUser {user : PublicUser}
    (hnew : ∀ other, UserIn s other → other.email ≠ user.email) :
    Consistent requests newId
      { s with committed := { s.committed with users := s.committed.users ++ [user] } } where
  emails := by
    have hkept : ∀ other, UserIn { s with
        committed := { s.committed with users := s.committed.users ++ [user] } } other →
        UserIn s other ∨ other = user := by
      rintro other ⟨place, tables, hpart, hmem⟩
      cases place with
      | none =>
        obtain rfl := Option.some.inj hpart
        rcases List.mem_append.mp hmem with hold | hsame
        · exact .inl ⟨none, s.committed, rfl, hold⟩
        · exact .inr (List.mem_singleton.mp hsame)
      | some t => exact .inl ⟨some t, tables, hpart, hmem⟩
    intro first second hfirst hsecond hemail
    rcases hkept first hfirst with hold | rfl
    · rcases hkept second hsecond with hold' | rfl
      · exact h.emails first second hold hold' hemail
      · exact absurd hemail (hnew first hold)
    · rcases hkept second hsecond with hold' | rfl
      · exact absurd hemail.symm (hnew second hold')
      · rfl
  cleared := h.cleared
  assigned := h.assigned

end Consistency

section Rows

variable (h : RowsFit requests newId s call)
include h

theorem RowsFit.setPhase (hne : call ≠ call') (phase : Phase) :
    RowsFit requests newId (s.setPhase call' phase) call := by
  intro hfollowed place tables hpart
  rw [phase_setPhase, if_neg hne] at hfollowed ⊢
  rw [part_setPhase] at hpart
  exact h hfollowed place tables hpart

theorem RowsFit.close (t : TxId) : RowsFit requests newId (s.setTx t none) call := by
  intro hfollowed place tables hpart
  rw [part_setTx] at hpart
  split_ifs at hpart
  · cases hpart
  · exact h hfollowed place tables hpart

theorem RowsFit.open (hwriting : t = txOf requests call → (s.phase call).writing = false) :
    RowsFit requests newId (s.setTx t (some Changes.none)) call := by
  intro hfollowed place tables hpart
  rw [part_setTx] at hpart
  split_ifs at hpart with hplace
  · obtain rfl := Option.some.inj hpart
    rw [hplace, phase_setTx]
    by_cases ht : t = txOf requests call
    · rw [expectedRows_of_not_writing (hwriting ht)]
      rfl
    · rw [expectedRows_other ht]
      rfl
  · exact h hfollowed place tables hpart

theorem RowsFit.update {changes' : Changes} (hchanges : s.changes t = some changes)
    (howned : owned (newId call) changes'.toTables = owned (newId call) changes.toTables) :
    RowsFit requests newId (s.setTx t (some changes')) call := by
  intro hfollowed place tables hpart
  rw [part_setTx] at hpart
  split_ifs at hpart with hplace
  · obtain rfl := Option.some.inj hpart
    rw [howned]
    refine h hfollowed place changes.toTables ?_
    rw [hplace, State.part, hchanges]
    rfl
  · exact h hfollowed place tables hpart

theorem RowsFit.insertUser {user : PublicUser} (hid : user.id ≠ newId call) :
    RowsFit requests newId
      { s with committed := { s.committed with users := s.committed.users ++ [user] } } call := by
  intro hfollowed place tables hpart
  cases place with
  | none =>
    obtain rfl := Option.some.inj hpart
    have hsame : owned (newId call) { s.committed with users := s.committed.users ++ [user] } =
        owned (newId call) s.committed := by
      simp [owned, List.filter_append, hid]
    rw [hsame]
    exact h hfollowed none s.committed rfl
  | some t => exact h hfollowed (some t) tables hpart

theorem RowsFit.commit (hconsistent : Consistent requests newId s)
    (hchanges : s.changes t = some changes)
    (hwriting : t = txOf requests call → (s.phase call).writing = false) :
    RowsFit requests newId (s.commit t changes) call := by
  intro hfollowed place tables hpart
  rw [part_commit] at hpart
  split_ifs at hpart with hplace
  · obtain rfl := Option.some.inj hpart
    have hold := h hfollowed none s.committed rfl
    have hnew := h hfollowed (some t) changes.toTables (by rw [State.part, hchanges]; rfl)
    have hnone : expectedRows requests call (s.phase call) (some t) = noRows := by
      by_cases ht : t = txOf requests call
      · exact expectedRows_of_not_writing (hwriting ht) t
      · exact expectedRows_other ht
    -- no assignment that is committed has been cleared
    have hkept : s.committed.userRoles.filter (·.userId ∉ changes.cleared) =
        s.committed.userRoles := by
      refine List.filter_eq_self.mpr fun row hrow => decide_eq_true ?_
      exact fun hcleared => (hconsistent.cleared t changes hchanges _ hcleared).2 row hrow rfl
    rw [hnone] at hnew
    rw [hplace, phase_commit, ← hold]
    simp only [owned, Changes.over, hkept, List.filter_append, owned_users hnew,
      owned_userRoles hnew, noRows, List.append_nil]
  · exact h hfollowed place tables hpart

end Rows

section Owned

theorem owned_addUser {user : PublicUser} (hid : user.id ≠ newId call) (changes : Changes) :
    owned (newId call) (changes.addUser user).toTables = owned (newId call) changes.toTables := by
  simp [owned, Changes.addUser, List.filter_append, hid]

theorem owned_deleteRoles {userId : JsString} (hid : userId ≠ newId call) (changes : Changes) :
    owned (newId call) (changes.deleteRoles userId).toTables =
      owned (newId call) changes.toTables := by
  have hrows : (changes.userRoles.filter (·.userId ≠ userId)).filter (·.userId = newId call) =
      changes.userRoles.filter (·.userId = newId call) := by
    rw [List.filter_filter]
    refine List.filter_congr fun row _ => ?_
    by_cases hrow : row.userId = newId call
    · simp [hrow, hid.symm]
    · simp [hrow]
  simp only [owned, Changes.deleteRoles, hrows]

theorem owned_addRoles {rows : List UserRole} (hrows : ∀ row ∈ rows, row.userId ≠ newId call)
    (changes : Changes) :
    owned (newId call) (changes.addRoles rows).toTables = owned (newId call) changes.toTables := by
  have hnone : rows.filter (·.userId = newId call) = [] := by
    rw [List.filter_eq_nil_iff]
    exact fun row hrow => by simp [hrows row hrow]
  simp [owned, Changes.addRoles, List.filter_append, hnone]

end Owned

section Preservation

theorem Facts.mono {s' : State} {phase : Phase}
    (hkeys : ∀ t ∈ keys s.transactions, t ∈ keys s'.transactions)
    (h : Facts rbacPolicy requests newId s call phase) :
    Facts rbacPolicy requests newId s' call phase := by
  cases phase with
  | created user roleIds => exact ⟨h.1, hkeys _ h.2⟩
  | cleared user roleIds => exact ⟨h.1, hkeys _ h.2⟩
  | written user roleIds => exact ⟨⟨h.1.1, hkeys _ h.1.2⟩, h.2⟩
  | _ => exact h

/-- A statement of a call leaves the others as they are. -/
theorem Invariant.after {s' : State} {phase : Phase}
    (h : Invariant rbacPolicy requests newId s) (hconsistent : Consistent requests newId s')
    (hphase : ∀ call, s'.phase call = s.phase call)
    (hkeys : ∀ t ∈ keys s.transactions, t ∈ keys s'.transactions)
    (hothers : ∀ call', call' ≠ call → RowsFit requests newId s' call')
    (hrows : phase.followed = true → ∀ place tables, s'.part place = some tables →
      owned (newId call) tables = expectedRows requests call phase place)
    (hfacts : Facts rbacPolicy requests newId s' call phase) :
    Invariant rbacPolicy requests newId (s'.setPhase call phase) where
  consistent := hconsistent.setPhase call phase
  rows call' := by
    by_cases hcall : call' = call
    · intro hfollowed place tables hpart
      rw [phase_setPhase, if_pos hcall] at hfollowed ⊢
      rw [part_setPhase] at hpart
      exact hcall ▸ hrows hfollowed place tables hpart
    · exact (hothers call' hcall).setPhase hcall phase
  facts call' := by
    rw [phase_setPhase]
    by_cases hcall : call' = call
    · subst hcall
      rw [if_pos rfl]
      exact hfacts.mono fun t ht => ht
    · rw [if_neg hcall, hphase call']
      exact (h.facts call').mono fun t ht => hkeys t ht

/-- A call goes on without touching a table. -/
theorem Invariant.quiet {phase : Phase} (h : Invariant rbacPolicy requests newId s)
    (hfollowed : (s.phase call).followed = true)
    (hrows : phase.followed = true → ∀ place,
      expectedRows requests call phase place = expectedRows requests call (s.phase call) place)
    (hfacts : Facts rbacPolicy requests newId s call phase) :
    Invariant rbacPolicy requests newId (s.setPhase call phase) := by
  refine h.after h.consistent (fun _ => rfl) (fun t ht => ht) (fun call' _ => h.rows call') ?_
    hfacts
  intro hphase place tables hpart
  rw [hrows hphase place]
  exact h.rows call hfollowed place tables hpart

/-- With the transaction gone, a call that throws leaves no rows. -/
theorem Invariant.fail {place : Option TxId} {error : Thrown}
    (h : Invariant rbacPolicy requests newId s) (hfollowed : (s.phase call).followed = true)
    (hrows : ∀ place', place = none ∨ place' ≠ place →
      expectedRows requests call (s.phase call) place' = noRows) :
    Invariant rbacPolicy requests newId (s.fail call place error) := by
  cases place with
  | none =>
    refine h.quiet hfollowed (fun _ place' => ?_) trivial
    rw [hrows place' (.inl rfl)]
    rfl
  | some t =>
    refine h.after (h.consistent.close t) (fun _ => rfl)
      (fun t' ht' => (mem_keys_setTx s t t' none).mpr (.inr ht'))
      (fun call' _ => (h.rows call').close t) ?_ trivial
    intro _ place tables hpart
    rw [Option.elim_some, part_setTx] at hpart
    split_ifs at hpart with hplace
    · cases hpart
    · rw [h.rows call hfollowed place tables hpart, hrows place (.inr hplace)]
      rfl

/-- No row has the email: none that the client reads, and none of a transaction it waits for. -/
theorem free_of_awaits {place : Option TxId} {address : JsString}
    (hawaits : awaits s place address = false) (hcommitted : emailTaken s.committed address = false)
    (hown : ∀ t changes, place = some t → s.changes t = some changes →
      emailTaken changes.toTables address = false) :
    ∀ other, UserIn s other → other.email ≠ address := by
  rintro other ⟨place', tables, hpart, hmem⟩ hemail
  have htaken : emailTaken tables address = true :=
    List.any_eq_true.mpr ⟨other, hmem, decide_eq_true hemail⟩
  cases place' with
  | none =>
    obtain rfl := Option.some.inj hpart
    rw [hcommitted] at htaken
    cases htaken
  | some t =>
    rw [State.part, Option.map_eq_some_iff] at hpart
    obtain ⟨changes, hchanges, rfl⟩ := hpart
    by_cases hplace : some t = place
    · rw [hown t changes hplace.symm hchanges] at htaken
      cases htaken
    · have hwaits := List.any_eq_false.mp hawaits t (mem_keys_of_changes hchanges)
      simp [hplace, hchanges, htaken] at hwaits

theorem emailTaken_over {changes : Changes} {committed : Tables} {address : JsString} :
    emailTaken (changes.over committed) address =
      (emailTaken committed address || emailTaken changes.toTables address) := by
  simp [emailTaken, Changes.over, List.any_append]

end Preservation

section Statements

variable {fault : Bool} {now : ℤ} {user : PublicUser} {roleIds : List JsString}

theorem callerTx_of_txOf {k : TxId} (h : callerTx requests call = some k) :
    txOf requests call = k := by
  rw [txOf, h, Option.getD_some]

theorem txOf_of_none (h : callerTx requests call = none) : txOf requests call = .own call := by
  rw [txOf, h, Option.getD_none]

theorem txOf_ne_own (hcall : call' ≠ call) : txOf requests call' ≠ .own call := by
  intro hsame
  rw [txOf] at hsame
  cases hcaller : callerTx requests call' with
  | none =>
    rw [hcaller, Option.getD_none] at hsame
    exact hcall (TxId.own.inj hsame)
  | some k =>
    rw [hcaller, Option.getD_some] at hsame
    rw [callerTx, Option.map_eq_some_iff] at hcaller
    obtain ⟨transaction, -, rfl⟩ := hcaller
    cases hsame

theorem part_of_changes (h : s.changes t = some changes) :
    s.part (some t) = some changes.toTables := by
  rw [State.part, h, Option.map_some]

/-- What is read while a call has no rows yet. -/
theorem Invariant.no_rows (h : Invariant rbacPolicy requests newId s)
    (hfollowed : (s.phase call).followed = true)
    (hrows : ∀ place, expectedRows requests call (s.phase call) place = noRows) :
    ∀ user, UserIn s user → user.id ≠ newId call := by
  rintro user ⟨place, tables, hpart, hmem⟩
  have howned := h.rows call hfollowed place tables hpart
  rw [hrows place] at howned
  exact (owned_eq_noRows.mp howned).1 user hmem

theorem findExisting_invariant (h : Invariant rbacPolicy requests newId s)
    (hphase : s.phase call = .start) :
    Invariant rbacPolicy requests newId (findExisting requests s call fault) := by
  rw [findExisting]
  split
  · exact h.fail (by simp [hphase, Phase.followed]) (fun _ _ => by simp [hphase, expectedRows])
  · split_ifs
    · exact h.quiet (by simp [hphase, Phase.followed])
        (fun _ _ => by simp [hphase, expectedRows]) trivial
    · exact h.quiet (by simp [hphase, Phase.followed])
        (fun _ _ => by simp [hphase, expectedRows]) trivial

theorem resolveRoleIds_invariant (h : Invariant rbacPolicy requests newId s)
    (hphase : s.phase call = .checked) :
    Invariant rbacPolicy requests newId (resolveRoleIds rbacPolicy requests s call fault) := by
  have hquiet : ∀ phase, (∀ place, expectedRows requests call phase place = noRows) →
      Facts rbacPolicy requests newId s call phase →
      Invariant rbacPolicy requests newId (s.setPhase call phase) := by
    intro phase hrows hfacts
    refine h.quiet (by simp [hphase, Phase.followed]) (fun _ place => ?_) hfacts
    rw [hrows place, hphase]
    rfl
  unfold resolveRoleIds
  cases hgiven : givenRoleIds requests call with
  | some given =>
    exact hquiet (.resolved given) (fun _ => rfl) (by simp [Facts, expectedRoleIds, hgiven])
  | none =>
    cases rbacPolicy with
    | none => exact hquiet (.resolved []) (fun _ => rfl) (by simp [Facts, expectedRoleIds, hgiven])
    | some roles =>
      dsimp only
      split_ifs
      · exact hquiet (.thrown (.database .other)) (fun _ => rfl) trivial
      · cases hdefault : defaultRoleIds roles with
        | error error => exact hquiet (.thrown error) (fun _ => rfl) trivial
        | ok roleIds =>
          exact hquiet (.resolved roleIds) (fun _ => rfl)
            (by simp [Facts, expectedRoleIds, hgiven, hdefault])

theorem beginAssignment_invariant (h : Invariant rbacPolicy requests newId s)
    (hphase : s.phase call = .resolved roleIds) :
    Invariant rbacPolicy requests newId
      (beginAssignment rbacPolicy requests s call roleIds fault) := by
  have hfacts : roleIds = expectedRoleIds rbacPolicy requests call := by
    have hcall := h.facts call
    rw [hphase] at hcall
    exact hcall
  have hfollowed : (s.phase call).followed = true := by rw [hphase]; rfl
  have hquiet : ∀ phase, (∀ place, expectedRows requests call phase place = noRows) →
      Facts rbacPolicy requests newId s call phase →
      Invariant rbacPolicy requests newId (s.setPhase call phase) := by
    intro phase hrows hfacts
    refine h.quiet hfollowed (fun _ place => ?_) hfacts
    rw [hrows place, hphase]
    rfl
  unfold beginAssignment
  split
  · exact hquiet _ (fun _ => rfl) trivial
  · exact hquiet _ (fun _ => rfl) hfacts
  · split_ifs
    · exact hquiet _ (fun _ => rfl) trivial
    · refine h.after (h.consistent.open _) (fun _ => rfl)
        (fun t ht => (mem_keys_setTx s _ t _).mpr (.inr ht))
        (fun call' hcall => (h.rows call').open ?_) ?_ hfacts
      · exact fun hown => absurd hown.symm (txOf_ne_own hcall)
      · intro _ place tables hpart
        rw [part_setTx] at hpart
        split_ifs at hpart with hplace
        · obtain rfl := Option.some.inj hpart
          rfl
        · rw [h.rows call hfollowed place tables hpart, hphase]
          rfl

/-- An insert that finds no such email, and waits for none, brings a new email. -/
theorem createUserIn_invariant {after : Phase} (hids : Function.Injective newId)
    (h : Invariant rbacPolicy requests newId s) (hfollowed : (s.phase call).followed = true)
    (hrows : ∀ place, expectedRows requests call (s.phase call) place = noRows)
    (hawaits : fault = false → awaits s (some t) (email requests call) = false)
    (hafter : after.followed = true → ∀ place, expectedRows requests call after place =
      if place = some t then rowsOf (newUser requests newId call now) [] else noRows)
    (hfacts : t ∈ keys s.transactions → ∀ s' : State, (∀ t ∈ keys s.transactions,
      t ∈ keys s'.transactions) → Facts rbacPolicy requests newId s' call after) :
    Invariant rbacPolicy requests newId
      (createUserIn requests newId s call t fault now after) := by
  rw [createUserIn]
  split
  · exact h.fail hfollowed fun place _ => hrows place
  · rename_i changes hchanges
    have hfault : fault = false := by
      by_contra hfault
      rw [Bool.not_eq_false] at hfault
      rw [hfault] at hchanges
      cases hchanges
    rw [hfault] at hchanges
    replace hchanges : s.changes t = some changes := hchanges
    split_ifs with htaken
    · exact h.fail hfollowed fun place _ => hrows place
    · rw [Bool.not_eq_true, emailTaken_over, Bool.or_eq_false_iff] at htaken
      have hnew : ∀ other, UserIn s other → other.email ≠ email requests call := by
        refine free_of_awaits (hawaits hfault) htaken.1 ?_
        intro t' changes' hsame hchanges'
        obtain rfl := Option.some.inj hsame
        rw [hchanges] at hchanges'
        exact Option.some.inj hchanges' ▸ htaken.2
      have hkeys : ∀ t' ∈ keys s.transactions, t' ∈ keys (s.setTx t
          (some (changes.addUser (newUser requests newId call now)))).transactions :=
        fun t' ht' => (mem_keys_setTx s t t' _).mpr (.inr ht')
      refine h.after (h.consistent.addUser hchanges rfl hnew) (fun _ => rfl) hkeys ?_ ?_
        (hfacts (mem_keys_of_changes hchanges) _ hkeys)
      · intro call' hcall
        refine (h.rows call').update hchanges (owned_addUser ?_ changes)
        exact fun hid => hcall (hids hid).symm
      · intro hphase place tables hpart
        rw [hafter hphase place]
        rw [part_setTx] at hpart
        split_ifs at hpart ⊢ with hplace
        · obtain rfl := Option.some.inj hpart
          have hold := h.rows call hfollowed (some t) _ (part_of_changes hchanges)
          rw [hrows] at hold
          simp [owned, Changes.addUser, List.filter_append, owned_users hold,
            owned_userRoles hold, noRows, rowsOf, newUser]
        · rw [h.rows call hfollowed place tables hpart, hrows]

theorem createUser_invariant (hids : Function.Injective newId)
    (h : Invariant rbacPolicy requests newId s) (hphase : s.phase call = .resolved [])
    (hcaller : callerTx requests call = none)
    (hawaits : fault = false → awaits s none (email requests call) = false) :
    Invariant rbacPolicy requests newId (createUser requests newId s call fault now) := by
  have hfollowed : (s.phase call).followed = true := by rw [hphase]; rfl
  have hrows : ∀ place, expectedRows requests call (s.phase call) place = noRows := by
    intro place
    rw [hphase]
    rfl
  have hroles : [] = expectedRoleIds rbacPolicy requests call := by
    have hcall := h.facts call
    rw [hphase] at hcall
    exact hcall
  rw [createUser]
  split_ifs with hfault htaken
  · exact h.fail hfollowed fun place _ => hrows place
  · exact h.fail hfollowed fun place _ => hrows place
  · rw [Bool.not_eq_true] at hfault htaken
    have hnew : ∀ other, UserIn s other →
        other.email ≠ (newUser requests newId call now).email :=
      free_of_awaits (hawaits hfault) htaken (fun t changes hnone => by cases hnone)
    refine h.after (h.consistent.insertUser hnew) (fun _ => rfl) (fun t ht => ht) ?_ ?_
      ⟨⟨rfl, rfl, hroles⟩, List.nodup_nil, hcaller⟩
    · intro call' hcall
      exact (h.rows call').insertUser fun hid => hcall (hids hid).symm
    · intro _ place tables hpart
      cases place with
      | none =>
        obtain rfl := Option.some.inj hpart
        have hold := h.rows call hfollowed none s.committed rfl
        rw [hrows] at hold
        simp [owned, List.filter_append, owned_users hold, owned_userRoles hold, noRows, rowsOf,
          newUser, expectedRows]
      | some t =>
        have hold := h.rows call hfollowed (some t) tables hpart
        rw [hrows] at hold
        rw [hold]
        rfl

theorem createAlone_invariant (hids : Function.Injective newId)
    (h : Invariant rbacPolicy requests newId s) (hphase : s.phase call = .resolved [])
    (hawaits : fault = false →
      awaits s (callerTx requests call) (email requests call) = false) :
    Invariant rbacPolicy requests newId (createAlone requests newId s call fault now) := by
  have hfollowed : (s.phase call).followed = true := by rw [hphase]; rfl
  have hrows : ∀ place, expectedRows requests call (s.phase call) place = noRows := by
    intro place
    rw [hphase]
    rfl
  rw [createAlone]
  cases hcaller : callerTx requests call with
  | none => exact createUser_invariant hids h hphase hcaller (hcaller ▸ hawaits)
  | some t =>
    refine createUserIn_invariant hids h hfollowed hrows (hcaller ▸ hawaits) ?_ ?_
    · exact fun hfalse => by cases hfalse
    · exact fun _ _ _ => trivial

/-- The changes of the transaction, when the statement does not fail. -/
theorem changes_of_fault (h : (if fault then none else s.changes t) = some changes) :
    fault = false ∧ s.changes t = some changes := by
  split_ifs at h with hfault
  exact ⟨by simpa using hfault, h⟩

theorem Invariant.writes (h : Invariant rbacPolicy requests newId s)
    (hphase : s.phase call = .created user roleIds ∨ s.phase call = .cleared user roleIds) :
    Intended rbacPolicy requests newId call user roleIds := by
  have hcall := h.facts call
  rcases hphase with hphase | hphase <;>
  · rw [hphase] at hcall
    exact hcall.1

theorem Invariant.writing_rows (h : Invariant rbacPolicy requests newId s)
    (hphase : s.phase call = .created user roleIds ∨ s.phase call = .cleared user roleIds)
    (hchanges : s.changes (txOf requests call) = some changes) :
    owned (newId call) changes.toTables = rowsOf user [] ∧
      owned (newId call) s.committed = noRows := by
  have hown := h.rows call
  rcases hphase with hphase | hphase <;>
  · rw [RowsFit, hphase] at hown
    have hpending := hown rfl _ _ (part_of_changes hchanges)
    have hcommitted := hown rfl none s.committed rfl
    rw [expectedRows, if_pos rfl] at hpending
    exact ⟨hpending, hcommitted⟩

theorem deleteRoles_invariant (hids : Function.Injective newId)
    (h : Invariant rbacPolicy requests newId s) (hphase : s.phase call = .created user roleIds) :
    Invariant rbacPolicy requests newId (deleteRoles requests s call user roleIds fault) := by
  have hfollowed : (s.phase call).followed = true := by rw [hphase]; rfl
  have hintended := h.writes (.inl hphase)
  rw [deleteRoles]
  split
  · refine h.fail hfollowed fun place hplace => ?_
    rw [hphase, expectedRows, if_neg (hplace.resolve_left (by simp))]
  · rename_i changes hopen
    obtain ⟨-, hchanges⟩ := changes_of_fault hopen
    obtain ⟨hpending, hcommitted⟩ := h.writing_rows (.inl hphase) hchanges
    have hnone := (owned_eq_noRows.mp hcommitted).2
    have hroles : ∀ row ∈ changes.userRoles, row.userId ≠ newId call := by
      intro row hrow hid
      have hmem : row ∈ changes.userRoles.filter (·.userId = newId call) :=
        List.mem_filter.mpr ⟨hrow, decide_eq_true hid⟩
      rw [owned_userRoles hpending] at hmem
      cases hmem
    have hkept : (changes.deleteRoles (newId call)).toTables = changes.toTables := by
      have hall : changes.userRoles.filter (·.userId ≠ newId call) = changes.userRoles :=
        List.filter_eq_self.mpr fun row hrow => decide_eq_true (hroles row hrow)
      simp only [Changes.deleteRoles, hall]
    have hkeys : ∀ t ∈ keys s.transactions, t ∈ keys (s.setTx (txOf requests call)
        (some (changes.deleteRoles user.id))).transactions :=
      fun t ht => (mem_keys_setTx s _ t _).mpr (.inr ht)
    rw [hintended.id] at hkeys ⊢
    refine h.after (h.consistent.deleteRoles hchanges hnone) (fun _ => rfl) hkeys ?_ ?_
      ⟨hintended, hkeys _ (mem_keys_of_changes hchanges)⟩
    · intro call' hcall
      exact (h.rows call').update hchanges
        (owned_deleteRoles (fun hid => hcall (hids hid).symm) changes)
    · intro _ place tables hpart
      rw [part_setTx, Option.map_some, hkept] at hpart
      have hold : s.part place = some tables := by
        split_ifs at hpart with hplace
        · rw [hplace, part_of_changes hchanges, hpart]
        · exact hpart
      have howned := h.rows call hfollowed place tables hold
      rw [hphase] at howned
      exact howned

theorem createMany_ok {roles : List Role} {tables : Tables} {rows rows' : List UserRole}
    (h : createMany roles tables rows = .ok rows') : rows' = rows ∧ rows.Nodup := by
  rw [createMany] at h
  split_ifs at h with hunique
  exact ⟨(Except.ok.inj h).symm, (List.nodup_append.mp hunique).2.1⟩

theorem assignRoles_invariant (hids : Function.Injective newId)
    (h : Invariant rbacPolicy requests newId s) (hphase : s.phase call = .cleared user roleIds) :
    Invariant rbacPolicy requests newId
      (assignRoles rbacPolicy requests s call user roleIds fault) := by
  have hfollowed : (s.phase call).followed = true := by rw [hphase]; rfl
  have hintended := h.writes (.inr hphase)
  have hfail : ∀ error, Invariant rbacPolicy requests newId
      (s.fail call (some (txOf requests call)) error) := by
    refine fun error => h.fail hfollowed fun place hplace => ?_
    rw [hphase, expectedRows, if_neg (hplace.resolve_left (by simp))]
  rw [assignRoles]
  split
  · exact hfail _
  · rename_i changes hopen
    obtain ⟨-, hchanges⟩ := changes_of_fault hopen
    obtain ⟨hpending, -⟩ := h.writing_rows (.inr hphase) hchanges
    split
    · exact hfail _
    · rename_i rows hrows
      obtain ⟨rfl, hnodup⟩ := createMany_ok hrows
      have hmine : ∀ row ∈ roleIds.map (UserRole.mk user.id), row.userId = newId call := by
        intro row hrow
        obtain ⟨roleId, -, rfl⟩ := List.mem_map.mp hrow
        exact hintended.id
      have hkeys : ∀ t ∈ keys s.transactions, t ∈ keys (s.setTx (txOf requests call)
          (some (changes.addRoles (roleIds.map (UserRole.mk user.id))))).transactions :=
        fun t ht => (mem_keys_setTx s _ t _).mpr (.inr ht)
      refine h.after (h.consistent.addRoles hchanges hmine) (fun _ => rfl) hkeys ?_ ?_ ?_
      · intro call' hcall
        refine (h.rows call').update hchanges (owned_addRoles ?_ changes)
        exact fun row hrow hid => hcall (hids (hid.symm.trans (hmine row hrow)))
      · split_ifs with hcaller
        · exact fun hfalse => by cases hfalse
        · intro _ place tables hpart
          rw [part_setTx] at hpart
          rw [expectedRows]
          split_ifs at hpart ⊢ with hplace
          · obtain rfl := Option.some.inj hpart
            have hall : (roleIds.map (UserRole.mk user.id)).filter (·.userId = newId call) =
                roleIds.map (UserRole.mk user.id) :=
              List.filter_eq_self.mpr fun row hrow => decide_eq_true (hmine row hrow)
            simp only [owned, Changes.addRoles, List.filter_append, owned_users hpending,
              owned_userRoles hpending, rowsOf, List.map_nil, List.nil_append, hall]
          · have hold := h.rows call hfollowed place tables hpart
            rw [hphase, expectedRows, if_neg hplace] at hold
            exact hold
      · split_ifs with hcaller
        · trivial
        · exact ⟨⟨hintended, hkeys _ (mem_keys_of_changes hchanges)⟩, hnodup.of_map _,
            by simpa using hcaller⟩

theorem commitOwn_invariant (hids : Function.Injective newId)
    (h : Invariant rbacPolicy requests newId s) (hphase : s.phase call = .written user roleIds) :
    Invariant rbacPolicy requests newId (commitOwn s call user roleIds fault) := by
  have hfollowed : (s.phase call).followed = true := by rw [hphase]; rfl
  have hfacts := h.facts call
  rw [hphase] at hfacts
  obtain ⟨⟨hintended, -⟩, hnodup, hcaller⟩ := hfacts
  have htx : txOf requests call = .own call := txOf_of_none hcaller
  rw [commitOwn]
  split
  · refine h.fail hfollowed fun place hplace => ?_
    rw [hphase, expectedRows, htx, if_neg (hplace.resolve_left (by simp))]
  · rename_i changes hopen
    obtain ⟨-, hchanges⟩ := changes_of_fault hopen
    have hpending := h.rows call hfollowed _ _ (part_of_changes hchanges)
    have hcommitted := h.rows call hfollowed none s.committed rfl
    rw [hphase, expectedRows, htx, if_pos rfl] at hpending
    rw [hphase, expectedRows, if_neg (by simp)] at hcommitted
    refine h.after (h.consistent.commit hids hchanges) (fun _ => rfl)
      (fun t ht => (mem_keys_setTx _ _ t none).mpr (.inr ht)) ?_ ?_ ⟨hintended, hnodup, hcaller⟩
    · intro call' hcall
      exact (h.rows call').commit h.consistent hchanges
        fun hown => absurd hown.symm (txOf_ne_own hcall)
    · intro _ place tables hpart
      rw [part_commit] at hpart
      rw [expectedRows]
      split_ifs at hpart ⊢ with hplace hclosed
      · obtain rfl := Option.some.inj hpart
        have hold : (s.committed.userRoles.filter (·.userId ∉ changes.cleared)).filter
            (·.userId = newId call) = [] := by
          rw [List.filter_eq_nil_iff]
          intro row hrow
          simpa using (owned_eq_noRows.mp hcommitted).2 row (List.mem_of_mem_filter hrow)
        simp only [owned, Changes.over, List.filter_append, owned_users hpending,
          owned_userRoles hpending, owned_users hcommitted, hold, noRows, List.nil_append]
      · have hold := h.rows call hfollowed place tables hpart
        rw [hphase, expectedRows, htx, if_neg hclosed] at hold
        exact hold

theorem readRoles_invariant (h : Invariant rbacPolicy requests newId s)
    (hphase : s.phase call = .committed user roleIds) :
    Invariant rbacPolicy requests newId (readRoles rbacPolicy s call user fault) := by
  have hquiet : ∀ phase, phase.followed = false →
      (∀ s call, Facts rbacPolicy requests newId s call phase) →
      Invariant rbacPolicy requests newId (s.setPhase call phase) := by
    intro phase hnot hfacts
    refine h.quiet (by simp [hphase, Phase.followed]) (fun hfollowed => ?_) (hfacts s call)
    rw [hnot] at hfollowed
    cases hfollowed
  unfold readRoles
  cases rbacPolicy with
  | none => exact hquiet (.returned user []) rfl fun _ _ => trivial
  | some roles =>
    dsimp only
    split_ifs
    · exact hquiet (.thrownAfterCommit (.database .other)) rfl fun _ _ => trivial
    · exact hquiet (.returned user (rolesForUser roles s.committed user.id)) rfl fun _ _ => trivial

end Statements

section Run

variable {a : Action} {s' : State}

theorem next_invariant {fault : Bool} {now : ℤ} (hids : Function.Injective newId)
    (h : Invariant rbacPolicy requests newId s)
    (hblocked : fault = false → blocked requests s call = false) :
    Invariant rbacPolicy requests newId (next rbacPolicy requests newId s call fault now) := by
  rw [next]
  cases hphase : s.phase call with
  | start => exact findExisting_invariant h hphase
  | checked => exact resolveRoleIds_invariant h hphase
  | resolved roleIds =>
    cases roleIds with
    | nil =>
      refine createAlone_invariant hids h hphase fun hfault => ?_
      have hfree := hblocked hfault
      rw [blocked, hphase] at hfree
      exact hfree
    | cons roleId roleIds => exact beginAssignment_invariant h hphase
  | begun roleIds =>
    have hfacts := h.facts call
    rw [hphase] at hfacts
    refine createUserIn_invariant hids h (by rw [hphase]; rfl) (fun _ => by rw [hphase]; rfl)
      (fun hfault => ?_) (fun _ _ => rfl) ?_
    · have hfree := hblocked hfault
      rw [blocked, hphase] at hfree
      exact hfree
    · exact fun hmem s' hkeys => ⟨⟨rfl, rfl, hfacts⟩, hkeys _ hmem⟩
  | created user roleIds => exact deleteRoles_invariant hids h hphase
  | cleared user roleIds => exact assignRoles_invariant hids h hphase
  | written user roleIds => exact commitOwn_invariant hids h hphase
  | committed user roleIds => exact readRoles_invariant h hphase
  | _ => exact h

/-- The transaction of a caller changes while none of its calls is under way. -/
theorem Invariant.ofCaller {changes' : Option Changes} (h : Invariant rbacPolicy requests newId s)
    (hconsistent : Consistent requests newId s')
    (hrows : ∀ call, RowsFit requests newId s' call) (hphase : ∀ call, s'.phase call = s.phase call)
    (hkeys : s'.transactions = set s.transactions t changes') :
    Invariant rbacPolicy requests newId s' where
  consistent := hconsistent
  rows := hrows
  facts call := by
    rw [hphase call]
    exact (h.facts call).mono fun t' ht' => hkeys ▸ mem_keys_set.mpr (.inr ht')

theorem writing_of_idle {transaction : ℕ} (hidle : idle requests s transaction = true)
    (ht : TxId.caller transaction = txOf requests call) : (s.phase call).writing = false := by
  have hcaller : (requests call).transaction = some transaction := by
    rw [txOf, callerTx] at ht
    cases hcaller : (requests call).transaction with
    | none =>
      rw [hcaller] at ht
      cases ht
    | some k =>
      rw [hcaller] at ht
      obtain rfl := TxId.caller.inj ht
      rfl
  by_cases hmem : call ∈ keys s.phases
  · have hsettled := List.all_eq_true.mp hidle call hmem
    rw [decide_eq_true_eq] at hsettled
    have h := hsettled.resolve_left (not_not.mpr hcaller)
    cases hphase : s.phase call <;> rw [hphase] at h <;> first | rfl | cases h
  · have hstart : s.phase call = .start := by
      rw [State.phase, get_eq_none.mpr hmem, Option.getD_none]
    rw [hstart]
    rfl

theorem writing_of_unused {transaction : ℕ} (h : Invariant rbacPolicy requests newId s)
    (hunused : TxId.caller transaction ∉ keys s.transactions)
    (ht : TxId.caller transaction = txOf requests call) : (s.phase call).writing = false := by
  have hfacts := h.facts call
  rw [ht] at hunused
  cases hphase : s.phase call with
  | created user roleIds =>
    rw [hphase] at hfacts
    exact absurd hfacts.2 hunused
  | cleared user roleIds =>
    rw [hphase] at hfacts
    exact absurd hfacts.2 hunused
  | written user roleIds =>
    rw [hphase] at hfacts
    exact absurd hfacts.1.2 hunused
  | _ => rfl

theorem step_invariant (hids : Function.Injective newId)
    (h : Invariant rbacPolicy requests newId s)
    (hstep : step rbacPolicy requests newId s a = some s') :
    Invariant rbacPolicy requests newId s' := by
  cases a with
  | next call fault now =>
    simp only [step] at hstep
    split_ifs at hstep with hcond
    obtain rfl := Option.some.inj hstep
    rw [not_or, not_and] at hcond
    exact next_invariant hids h fun hfault => by simpa using hcond.2 hfault
  | begin transaction =>
    simp only [step] at hstep
    split_ifs at hstep with hcond
    obtain rfl := Option.some.inj hstep
    exact h.ofCaller (h.consistent.open _)
      (fun call => (h.rows call).open fun ht => writing_of_unused h hcond ht) (fun _ => rfl) rfl
  | commit transaction =>
    simp only [step] at hstep
    split_ifs at hstep with hidle
    obtain ⟨changes, hchanges, rfl⟩ := Option.map_eq_some_iff.mp hstep
    exact h.ofCaller (h.consistent.commit hids hchanges)
      (fun call => (h.rows call).commit h.consistent hchanges fun ht => writing_of_idle hidle ht)
      (fun _ => rfl) rfl
  | rollback transaction =>
    obtain rfl := Option.some.inj hstep
    exact h.ofCaller (h.consistent.close _) (fun call => (h.rows call).close _) (fun _ => rfl) rfl

theorem initial_invariant {tables : Tables}
    (hunique : ∀ user ∈ tables.users, ∀ user' ∈ tables.users, user.email = user'.email →
      user.id = user'.id)
    (hfresh : ∀ call, owned (newId call) tables = noRows) :
    Invariant rbacPolicy requests newId (initial tables) where
  consistent :=
    { emails := by
        have hold : ∀ user, UserIn (initial tables) user → user ∈ tables.users := by
          rintro user ⟨place, tables', hpart, hmem⟩
          cases place with
          | none =>
            obtain rfl := Option.some.inj hpart
            exact hmem
          | some t => cases hpart
        exact fun user user' h h' => hunique user (hold user h) user' (hold user' h')
      cleared := fun t changes h => by cases h
      assigned := fun t changes h => by cases h }
  rows call _ place tables' hpart := by
    cases place with
    | none =>
      obtain rfl := Option.some.inj hpart
      exact hfresh call
    | some t => cases hpart
  facts _ := trivial

end Run

section Ends

variable (rbacPolicy requests newId)

/-- The tables hold the user of the call, the only one with its email, with its roles and no
others. -/
structure Holds (call : ℕ) (user : PublicUser) (tables : Tables) : Prop where
  id : user.id = newId call
  users : tables.users.filter (·.email = email requests call) = [user]
  roles : ∀ roleId, ⟨user.id, roleId⟩ ∈ tables.userRoles ↔
    roleId ∈ expectedRoleIds rbacPolicy requests call
  nodup : (tables.userRoles.filter (·.userId = user.id)).Nodup

/-- No row of the call is left, committed or pending. -/
def LeavesNothing (s : State) (call : ℕ) : Prop :=
  ∀ place tables, s.part place = some tables → owned (newId call) tables = noRows

/-- A user other than the one the call makes has its email, as far as the call can see. -/
def Registered (s : State) (call : ℕ) : Prop :=
  ∃ user, (user ∈ s.committed.users ∨
      ∃ changes, s.changes (txOf requests call) = some changes ∧ user ∈ changes.users) ∧
    user.email = email requests call ∧ user.id ≠ newId call

/-- How a call may end, by the state before its last statement and the one after. -/
def Outcome (s s' : State) (call : ℕ) : Phase → Prop
  | .returned user _ => ∃ tables, s'.view (callerTx requests call) = some tables ∧
      Holds rbacPolicy requests newId call user tables
  | .thrown error => LeavesNothing newId s' call ∧
      (error = emailRegistered → Registered requests newId s call)
  | .thrownAfterCommit error => LeavesNothing newId s' call ∧
      (error = emailRegistered → Registered requests newId s call)
  | _ => True

/-- A call that ends with this step has created its user with its roles, or left nothing behind,
and a conflict that it reports is one. -/
def EndsWell (s : State) : Action → Prop
  | .next call fault now => ∀ s',
      step rbacPolicy requests newId s (.next call fault now) = some s' →
        Outcome rbacPolicy requests newId s s' call (s'.phase call)
  | _ => True

/-- The step does not write a repeated role id, and does not fail to read the roles of a user that
is committed. -/
def Careful (s : State) : Action → Prop
  | .next call fault _ =>
    match s.phase call with
    | .cleared _ roleIds =>
      fault = false → (s.changes (txOf requests call)).isSome = true → roleIds.Nodup
    | .committed _ _ => rbacPolicy.isSome = true → fault = false
    | _ => True
  | _ => True

variable {rbacPolicy requests newId} {s' : State} {user : PublicUser} {roleIds : List JsString}

theorem Registered.of_emailTaken (hid : ∀ user, UserIn s user → user.id ≠ newId call)
    {place : Option TxId} {tables : Tables} (hplace : ∀ t, place = some t → t = txOf requests call)
    (hview : s.view place = some tables)
    (htaken : emailTaken tables (email requests call) = true) :
    Registered requests newId s call := by
  obtain ⟨user, huser, hemail⟩ := List.any_eq_true.mp htaken
  rw [decide_eq_true_eq] at hemail
  cases place with
  | none =>
    obtain rfl := Option.some.inj hview
    exact ⟨user, .inl huser, hemail, hid user ⟨none, _, rfl, huser⟩⟩
  | some t =>
    obtain ⟨changes, hchanges, rfl⟩ := Option.map_eq_some_iff.mp hview
    rcases List.mem_append.mp huser with hold | hnew
    · exact ⟨user, .inl hold, hemail, hid user ⟨none, _, rfl, hold⟩⟩
    · refine ⟨user, .inr ⟨changes, hplace t rfl ▸ hchanges, hnew⟩, hemail, ?_⟩
      exact hid user (userIn_of_changes hchanges hnew)

/-- A list with one entry of an id, where the entries of an email have one id. -/
theorem holds_of_owned {tables : Tables} (hconsistent : Consistent requests newId s)
    (hin : ∀ user ∈ tables.users, UserIn s user)
    (hintended : Intended rbacPolicy requests newId call user roleIds) (hnodup : roleIds.Nodup)
    (howned : owned (newId call) tables = rowsOf user roleIds) :
    Holds rbacPolicy requests newId call user tables := by
  have husers := owned_users howned
  have hroles := owned_userRoles howned
  have hmem : user ∈ tables.users := by
    have hmem : user ∈ tables.users.filter (·.id = newId call) := by
      rw [husers]
      exact List.mem_singleton_self user
    exact List.mem_of_mem_filter hmem
  refine ⟨hintended.id, ?_, ?_, ?_⟩
  · have hsame : tables.users.filter (·.email = email requests call) =
        tables.users.filter (·.id = newId call) := by
      refine List.filter_congr fun other hother => ?_
      rw [decide_eq_decide]
      constructor
      · intro hemail
        rw [← hintended.id]
        exact hconsistent.emails other user (hin other hother) (hin user hmem)
          (hemail.trans hintended.email.symm)
      · intro hid
        have hmem : other ∈ tables.users.filter (·.id = newId call) :=
          List.mem_filter.mpr ⟨hother, decide_eq_true hid⟩
        rw [husers] at hmem
        rw [List.mem_singleton.mp hmem, hintended.email]
    rw [hsame, husers]
    rfl
  · intro roleId
    have hrow : UserRole.mk user.id roleId ∈ tables.userRoles ↔
        UserRole.mk user.id roleId ∈ tables.userRoles.filter (·.userId = newId call) := by
      simp [hintended.id]
    rw [hrow, hroles, rowsOf, ← hintended.roleIds]
    simp
  · rw [hintended.id, hroles]
    exact hnodup.map fun roleId roleId' h => (UserRole.mk.inj h).2

variable {fault : Bool} {now : ℤ}

@[simp] theorem phase_fail (s : State) (call : ℕ) (place : Option TxId) (error : Thrown) :
    (s.fail call place error).phase call = .thrown error := by
  rw [State.fail, phase_setPhase, if_pos rfl]

theorem outcome_thrown {error : Thrown} (h : Invariant rbacPolicy requests newId s')
    (hphase : s'.phase call = .thrown error)
    (hregistered : error = emailRegistered → Registered requests newId s call) :
    Outcome rbacPolicy requests newId s s' call (s'.phase call) := by
  rw [hphase]
  refine ⟨fun place tables hpart => ?_, hregistered⟩
  have howned := h.rows call
  rw [RowsFit, hphase] at howned
  exact howned rfl place tables hpart

theorem findExisting_outcome (h : Invariant rbacPolicy requests newId s)
    (hphase : s.phase call = .start)
    (h' : Invariant rbacPolicy requests newId (findExisting requests s call fault)) :
    Outcome rbacPolicy requests newId s (findExisting requests s call fault) call
      ((findExisting requests s call fault).phase call) := by
  have hid := @Invariant.no_rows _ _ _ _ call h (by rw [hphase]; rfl)
    fun _ => by rw [hphase]; rfl
  revert h'
  rw [findExisting]
  split
  · exact fun h' => outcome_thrown h' (phase_fail s call _ _) fun heq => by cases heq
  · rename_i tables hview
    split_ifs with htaken
    · intro h'
      refine outcome_thrown h' (by rw [phase_setPhase, if_pos rfl]) fun _ => ?_
      have hopen : s.view (callerTx requests call) = some tables := by
        split_ifs at hview with hfault
        exact hview
      exact .of_emailTaken hid (fun t ht => (callerTx_of_txOf ht).symm) hopen htaken
    · intro _
      rw [phase_setPhase, if_pos rfl]
      trivial

theorem resolveRoleIds_phase (s : State) (call : ℕ) (fault : Bool) :
    (∃ roleIds, (resolveRoleIds rbacPolicy requests s call fault).phase call = .resolved roleIds) ∨
      ∃ error, error ≠ emailRegistered ∧
        (resolveRoleIds rbacPolicy requests s call fault).phase call = .thrown error := by
  unfold resolveRoleIds
  rw [phase_setPhase, if_pos rfl]
  split
  · exact .inl ⟨_, rfl⟩
  · exact .inl ⟨_, rfl⟩
  · split_ifs
    · exact .inr ⟨_, by decide, rfl⟩
    · rename_i roles _ _
      rw [defaultRoleIds]
      cases roles.find? (fun role => role.name = SYSTEM_USER_ROLE) with
      | none => exact .inr ⟨_, by simp [emailRegistered], rfl⟩
      | some role => exact .inl ⟨_, rfl⟩

theorem resolveRoleIds_outcome
    (h' : Invariant rbacPolicy requests newId (resolveRoleIds rbacPolicy requests s call fault)) :
    Outcome rbacPolicy requests newId s (resolveRoleIds rbacPolicy requests s call fault) call
      ((resolveRoleIds rbacPolicy requests s call fault).phase call) := by
  rcases @resolveRoleIds_phase rbacPolicy requests s call fault with
    ⟨roleIds, hphase⟩ | ⟨error, hother, hphase⟩
  · rw [hphase]
    trivial
  · exact outcome_thrown h' hphase fun heq => absurd heq hother

theorem beginAssignment_outcome
    (h' : Invariant rbacPolicy requests newId
      (beginAssignment rbacPolicy requests s call roleIds fault)) :
    Outcome rbacPolicy requests newId s (beginAssignment rbacPolicy requests s call roleIds fault)
      call ((beginAssignment rbacPolicy requests s call roleIds fault).phase call) := by
  revert h'
  unfold beginAssignment
  split
  · exact fun h' => outcome_thrown h' (by rw [phase_setPhase, if_pos rfl]) fun heq => by cases heq
  · intro _
    rw [phase_setPhase, if_pos rfl]
    trivial
  · split_ifs
    · exact fun h' => outcome_thrown h' (by rw [phase_setPhase, if_pos rfl]) fun heq => by cases heq
    · intro _
      rw [phase_setPhase, if_pos rfl]
      trivial

/-- An insert that is refused found the email; one that is not leads on. -/
theorem createUserIn_outcome {after : Phase} (hid : ∀ user, UserIn s user → user.id ≠ newId call)
    (ht : t = txOf requests call)
    (h' : Invariant rbacPolicy requests newId
      (createUserIn requests newId s call t fault now after))
    (hafter : ∀ changes, s.changes t = some changes →
      Invariant rbacPolicy requests newId ((s.setTx t
        (some (changes.addUser (newUser requests newId call now)))).setPhase call after) →
      Outcome rbacPolicy requests newId s
        ((s.setTx t (some (changes.addUser (newUser requests newId call now)))).setPhase call after)
        call after) :
    Outcome rbacPolicy requests newId s (createUserIn requests newId s call t fault now after) call
      ((createUserIn requests newId s call t fault now after).phase call) := by
  revert h'
  rw [createUserIn]
  split
  · exact fun h' => outcome_thrown h' (phase_fail s call _ _) fun heq => by cases heq
  · rename_i changes hopen
    obtain ⟨-, hchanges⟩ := changes_of_fault hopen
    split_ifs with htaken
    · refine fun h' => outcome_thrown h' (phase_fail s call _ _) fun _ => ?_
      refine .of_emailTaken hid (fun t' ht' => (Option.some.inj ht') ▸ ht) ?_ htaken
      rw [State.view, hchanges, Option.map_some]
    · intro h'
      rw [phase_setPhase, if_pos rfl]
      exact hafter changes hchanges h'

theorem owned_over {committed : Tables} {userId : JsString}
    (hcommitted : owned userId committed = noRows) (changes : Changes) :
    owned userId (changes.over committed) = owned userId changes.toTables := by
  have hnone := owned_eq_noRows.mp hcommitted
  have hold : (committed.userRoles.filter (·.userId ∉ changes.cleared)).filter
      (·.userId = userId) = [] := by
    rw [List.filter_eq_nil_iff]
    intro row hrow
    simpa using hnone.2 row (List.mem_of_mem_filter hrow)
  simp only [owned, Changes.over, List.filter_append, owned_users hcommitted, hold, noRows,
    List.nil_append]

theorem userIn_of_over (hchanges : s.changes t = some changes) :
    ∀ user ∈ (changes.over s.committed).users, UserIn s user := by
  intro user huser
  rcases List.mem_append.mp huser with hold | hnew
  · exact ⟨none, _, rfl, hold⟩
  · exact userIn_of_changes hchanges hnew

/-- A call that returns within the transaction of its caller has its rows there. -/
theorem outcome_returned {changes : Changes} {roles : List Role}
    (h' : Invariant rbacPolicy requests newId ((s.setTx t (some changes)).setPhase call
      (.returned user roles)))
    (hcaller : callerTx requests call = some t)
    (hintended : Intended rbacPolicy requests newId call user roleIds) (hnodup : roleIds.Nodup)
    (hcommitted : owned (newId call) s.committed = noRows)
    (hpending : owned (newId call) changes.toTables = rowsOf user roleIds) :
    Outcome rbacPolicy requests newId s
      ((s.setTx t (some changes)).setPhase call (.returned user roles)) call
      (.returned user roles) := by
  have hchanges : ((s.setTx t (some changes)).setPhase call (.returned user roles)).changes t =
      some changes := by
    rw [changes_setPhase, changes_setTx, if_pos rfl]
  refine ⟨changes.over s.committed, ?_, ?_⟩
  · rw [hcaller, State.view, hchanges, Option.map_some]
    rfl
  · refine holds_of_owned h'.consistent (userIn_of_over hchanges) hintended hnodup ?_
    rw [owned_over hcommitted, hpending]

theorem createAlone_outcome (h : Invariant rbacPolicy requests newId s)
    (hphase : s.phase call = .resolved [])
    (h' : Invariant rbacPolicy requests newId (createAlone requests newId s call fault now)) :
    Outcome rbacPolicy requests newId s (createAlone requests newId s call fault now) call
      ((createAlone requests newId s call fault now).phase call) := by
  have hfollowed : (s.phase call).followed = true := by rw [hphase]; rfl
  have hrows : ∀ place, expectedRows requests call (s.phase call) place = noRows := by
    intro place
    rw [hphase]
    rfl
  have hid := h.no_rows hfollowed hrows
  have hroles : [] = expectedRoleIds rbacPolicy requests call := by
    have hcall := h.facts call
    rw [hphase] at hcall
    exact hcall
  revert h'
  rw [createAlone]
  cases hcaller : callerTx requests call with
  | none =>
    dsimp only
    rw [createUser]
    split_ifs with hfault htaken
    · exact fun h' => outcome_thrown h' (phase_fail s call _ _) fun heq => by cases heq
    · refine fun h' => outcome_thrown h' (phase_fail s call _ _) fun _ => ?_
      have hnone : ∀ t, (none : Option TxId) = some t → t = txOf requests call :=
        fun t ht => by cases ht
      exact .of_emailTaken hid hnone rfl htaken
    · intro _
      rw [phase_setPhase, if_pos rfl]
      trivial
  | some t =>
    intro h'
    dsimp only at h' ⊢
    refine createUserIn_outcome hid (callerTx_of_txOf hcaller).symm h' fun changes hchanges h' => ?_
    have hpending := h.rows call hfollowed _ _ (part_of_changes hchanges)
    have hcommitted := h.rows call hfollowed none s.committed rfl
    rw [hrows] at hpending hcommitted
    refine outcome_returned h' hcaller ⟨rfl, rfl, hroles⟩ List.nodup_nil hcommitted ?_
    simp [owned, Changes.addUser, List.filter_append, owned_users hpending,
      owned_userRoles hpending, noRows, rowsOf, newUser]

theorem deleteRoles_outcome
    (h' : Invariant rbacPolicy requests newId (deleteRoles requests s call user roleIds fault)) :
    Outcome rbacPolicy requests newId s (deleteRoles requests s call user roleIds fault) call
      ((deleteRoles requests s call user roleIds fault).phase call) := by
  revert h'
  rw [deleteRoles]
  split
  · exact fun h' => outcome_thrown h' (phase_fail s call _ _) fun heq => by cases heq
  · intro _
    rw [phase_setPhase, if_pos rfl]
    trivial

theorem commitOwn_outcome
    (h' : Invariant rbacPolicy requests newId (commitOwn s call user roleIds fault)) :
    Outcome rbacPolicy requests newId s (commitOwn s call user roleIds fault) call
      ((commitOwn s call user roleIds fault).phase call) := by
  revert h'
  rw [commitOwn]
  split
  · exact fun h' => outcome_thrown h' (phase_fail s call _ _) fun heq => by cases heq
  · intro _
    rw [phase_setPhase, if_pos rfl]
    trivial

/-- The user is new, so its rows are refused only because of each other, or of a missing role. -/
theorem createMany_new {roles : List Role} {tables : Tables} {userId : JsString}
    (hnone : ∀ row ∈ tables.userRoles, row.userId ≠ userId) (roleIds : List JsString) :
    createMany roles tables (roleIds.map (UserRole.mk userId)) =
      if ¬ roleIds.Nodup then .error .P2002
      else if ∃ roleId ∈ roleIds, roleId ∉ roles.map (·.id) then .error .P2003
      else .ok (roleIds.map (UserRole.mk userId)) := by
  have hold : tables.userRoles.filter (· ∈ roleIds.map (UserRole.mk userId)) = [] := by
    rw [List.filter_eq_nil_iff]
    intro row hrow hmem
    obtain ⟨roleId, -, rfl⟩ := List.mem_map.mp (of_decide_eq_true hmem)
    exact hnone _ hrow rfl
  have hnodup : (roleIds.map (UserRole.mk userId)).Nodup ↔ roleIds.Nodup :=
    List.nodup_map_iff fun _ _ h => (UserRole.mk.inj h).2
  have hknown : (∃ row ∈ roleIds.map (UserRole.mk userId), row.roleId ∉ roles.map (·.id)) ↔
      ∃ roleId ∈ roleIds, roleId ∉ roles.map (·.id) := by simp
  rw [createMany, hold, List.nil_append]
  simp only [hnodup, hknown]

/-- The one user that has the email is the one that the call has just made. -/
theorem not_registered (h : Invariant rbacPolicy requests newId s)
    (hphase : s.phase call = .cleared user roleIds)
    (hchanges : s.changes (txOf requests call) = some changes) :
    ¬ Registered requests newId s call := by
  rintro ⟨other, hother, hemail, hid⟩
  have hintended := h.writes (.inr hphase)
  have hin : UserIn s other := by
    rcases hother with hold | ⟨changes', hchanges', hnew⟩
    · exact ⟨none, _, rfl, hold⟩
    · exact userIn_of_changes hchanges' hnew
  have hmem : user ∈ changes.users := by
    have hmem : user ∈ changes.users.filter (·.id = newId call) := by
      rw [owned_users (h.writing_rows (.inr hphase) hchanges).1]
      exact List.mem_singleton_self user
    exact List.mem_of_mem_filter hmem
  have hsame := h.consistent.emails other user hin (userIn_of_changes hchanges hmem)
    (hemail.trans hintended.email.symm)
  exact hid (hsame.trans hintended.id)

/-- A repeated role id is reported as a registered email. -/
theorem assignRoles_outcome (h : Invariant rbacPolicy requests newId s)
    (hphase : s.phase call = .cleared user roleIds)
    (h' : Invariant rbacPolicy requests newId
      (assignRoles rbacPolicy requests s call user roleIds fault)) :
    Outcome rbacPolicy requests newId s
        (assignRoles rbacPolicy requests s call user roleIds fault) call
        ((assignRoles rbacPolicy requests s call user roleIds fault).phase call) ↔
      (fault = false → (s.changes (txOf requests call)).isSome = true → roleIds.Nodup) := by
  have hintended := h.writes (.inr hphase)
  revert h'
  rw [assignRoles]
  split
  · rename_i hclosed
    refine fun h' => iff_of_true
      (outcome_thrown h' (phase_fail s call _ _) fun heq => by cases heq) ?_
    intro hfault hsome
    rw [hfault] at hclosed
    simp only [Bool.false_eq_true, if_false] at hclosed
    rw [hclosed] at hsome
    cases hsome
  · rename_i changes hopen
    obtain ⟨hfault, hchanges⟩ := changes_of_fault hopen
    obtain ⟨hpending, hcommitted⟩ := h.writing_rows (.inr hphase) hchanges
    have hnone : ∀ row ∈ (changes.over s.committed).userRoles, row.userId ≠ user.id := by
      intro row hrow hid
      have howned := owned_userRoles ((owned_over hcommitted changes).trans hpending)
      have hmem : row ∈ (changes.over s.committed).userRoles.filter (·.userId = newId call) :=
        List.mem_filter.mpr ⟨hrow, decide_eq_true (hid.trans hintended.id)⟩
      rw [howned] at hmem
      cases hmem
    rw [createMany_new hnone]
    by_cases hnodup : roleIds.Nodup
    · rw [if_neg (not_not.mpr hnodup)]
      by_cases hunknown : ∃ roleId ∈ roleIds, roleId ∉ (rbacPolicy.getD []).map (·.id)
      · rw [if_pos hunknown]
        exact fun h' => iff_of_true
          (outcome_thrown h' (phase_fail s call _ _) fun heq => by cases heq) fun _ _ => hnodup
      · rw [if_neg hunknown]
        refine fun h' => iff_of_true ?_ fun _ _ => hnodup
        dsimp only at h' ⊢
        rw [phase_setPhase, if_pos rfl]
        cases hcaller : callerTx requests call with
        | none => trivial
        | some t =>
          rw [hcaller, callerTx_of_txOf hcaller] at h'
          rw [callerTx_of_txOf hcaller]
          refine outcome_returned h' hcaller hintended hnodup hcommitted ?_
          have hmine : (roleIds.map (UserRole.mk user.id)).filter (·.userId = newId call) =
              roleIds.map (UserRole.mk user.id) := by
            refine List.filter_eq_self.mpr fun row hrow => decide_eq_true ?_
            obtain ⟨roleId, -, rfl⟩ := List.mem_map.mp hrow
            exact hintended.id
          simp only [owned, Changes.addRoles, List.filter_append, owned_users hpending,
            owned_userRoles hpending, rowsOf, List.map_nil, List.nil_append, hmine]
    · rw [if_pos hnodup]
      refine fun h' => iff_of_false ?_ (fun hall => hnodup (hall hfault (by rw [hchanges]; rfl)))
      rw [phase_fail]
      exact fun hout => not_registered h hphase hchanges (hout.2 rfl)

/-- A user that is committed stays, whatever becomes of the reading of its roles. -/
theorem readRoles_outcome (h : Invariant rbacPolicy requests newId s)
    (hphase : s.phase call = .committed user roleIds) :
    Outcome rbacPolicy requests newId s (readRoles rbacPolicy s call user fault) call
        ((readRoles rbacPolicy s call user fault).phase call) ↔
      (rbacPolicy.isSome = true → fault = false) := by
  have hfacts := h.facts call
  rw [hphase] at hfacts
  obtain ⟨hintended, hnodup, hcaller⟩ := hfacts
  have howned : owned (newId call) s.committed = rowsOf user roleIds := by
    have hcall := h.rows call
    rw [RowsFit, hphase] at hcall
    exact hcall rfl none s.committed rfl
  have hreturned : ∀ roles, Outcome rbacPolicy requests newId s
      (s.setPhase call (.returned user roles)) call (.returned user roles) := by
    refine fun roles => ⟨s.committed, by rw [hcaller]; rfl, ?_⟩
    exact holds_of_owned h.consistent (fun user huser => ⟨none, _, rfl, huser⟩) hintended hnodup
      howned
  unfold readRoles
  rw [phase_setPhase, if_pos rfl]
  cases rbacPolicy with
  | none => exact iff_of_true (hreturned []) (fun hsome => by cases hsome)
  | some roles =>
    cases fault with
    | true =>
      refine iff_of_false ?_ (fun hall => by cases hall rfl)
      rintro ⟨hnothing, -⟩
      have hnone := hnothing none s.committed rfl
      rw [howned, rowsOf, noRows] at hnone
      cases hnone
    | false => exact iff_of_true (hreturned _) (fun _ => rfl)

/-- Every step ends its call well exactly when it is careful. -/
theorem endsWell_iff_careful (hids : Function.Injective newId)
    (h : Invariant rbacPolicy requests newId s) (a : Action) :
    EndsWell rbacPolicy requests newId s a ↔ Careful rbacPolicy requests s a := by
  cases a with
  | next call fault now =>
    by_cases hcond : (s.phase call).settled = true ∨
        fault = false ∧ blocked requests s call = true
    · -- the call does not move
      have hstep : step rbacPolicy requests newId s (.next call fault now) = none := if_pos hcond
      refine iff_of_true (fun s' h' => by rw [hstep] at h'; cases h') ?_
      rw [Careful]
      rcases hcond with hsettled | ⟨-, hblocked⟩
      · cases hphase : s.phase call with
        | cleared user roleIds => rw [hphase] at hsettled; cases hsettled
        | committed user roleIds => rw [hphase] at hsettled; cases hsettled
        | _ => trivial
      · rw [blocked] at hblocked
        cases hphase : s.phase call with
        | cleared user roleIds => rw [hphase] at hblocked; cases hblocked
        | committed user roleIds => rw [hphase] at hblocked; cases hblocked
        | _ => trivial
    · have hstep : step rbacPolicy requests newId s (.next call fault now) =
          some (next rbacPolicy requests newId s call fault now) := if_neg hcond
      have h' := step_invariant hids h hstep
      have hends : EndsWell rbacPolicy requests newId s (.next call fault now) ↔
          Outcome rbacPolicy requests newId s (next rbacPolicy requests newId s call fault now) call
            ((next rbacPolicy requests newId s call fault now).phase call) := by
        rw [EndsWell, hstep]
        exact ⟨fun hall => hall _ rfl, fun hout s' hs' => Option.some.inj hs' ▸ hout⟩
      rw [hends, Careful]
      revert h'
      rw [next]
      cases hphase : s.phase call with
      | start => exact fun h' => iff_of_true (findExisting_outcome h hphase h') trivial
      | checked => exact fun h' => iff_of_true (resolveRoleIds_outcome h') trivial
      | resolved roleIds =>
        cases roleIds with
        | nil => exact fun h' => iff_of_true (createAlone_outcome h hphase h') trivial
        | cons roleId roleIds => exact fun h' => iff_of_true (beginAssignment_outcome h') trivial
      | begun roleIds =>
        intro h'
        refine iff_of_true ?_ trivial
        have hid := @Invariant.no_rows _ _ _ _ call h (by rw [hphase]; rfl)
          fun _ => by rw [hphase]; rfl
        exact createUserIn_outcome hid rfl h' fun _ _ _ => trivial
      | created user roleIds => exact fun h' => iff_of_true (deleteRoles_outcome h') trivial
      | cleared user roleIds => exact fun h' => assignRoles_outcome h hphase h'
      | written user roleIds => exact fun h' => iff_of_true (commitOwn_outcome h') trivial
      | committed user roleIds => exact fun _ => readRoles_outcome h hphase
      | _ => exact absurd (.inl (by rw [hphase]; rfl)) hcond
  | _ => exact iff_of_true trivial trivial

/-- Creation is atomic and its conflicts are true, in every run, exactly when no call gets to write
a repeated role id and no reading of roles fails after a commit. -/
theorem create_ends_well_iff (hids : Function.Injective newId) {tables : Tables}
    (hunique : ∀ user ∈ tables.users, ∀ user' ∈ tables.users, user.email = user'.email →
      user.id = user'.id)
    (hfresh : ∀ call, owned (newId call) tables = noRows) (actions : List Action) :
    Steps (step rbacPolicy requests newId) (EndsWell rbacPolicy requests newId) (initial tables)
        actions ↔
      Steps (step rbacPolicy requests newId) (Careful rbacPolicy requests) (initial tables)
        actions :=
  steps_congr (fun _ _ _ h hstep => step_invariant hids h hstep)
    (fun _ a h => endsWell_iff_careful hids h a) (initial_invariant hunique hfresh) actions

/-- Ids that are told apart by their lengths. -/
def cuid (call : ℕ) : JsString := List.replicate call (unit 'c')

theorem cuid_injective : Function.Injective cuid := fun a b h => by
  simpa [cuid] using congrArg List.length h

def userRole : Role :=
  { id := js "r1", name := SYSTEM_USER_ROLE, displayName := js "User",
    permissionPolicy := js "DENY_ALL" }

def newcomer (roleIds : List JsString) (_ : ℕ) : Request :=
  { data := { email := js "newcomer@example.com", name := none, isServiceAccount := none,
              roleIds := some roleIds }
    transaction := none }

/-- The first statements of one call, up to the insert of its role rows. -/
def statements : List Action := List.replicate 5 (.next 0 false 0)

theorem create_ends_well_iff_newcomer :
    Steps (step (some [userRole]) (newcomer [js "r1"]) cuid)
        (EndsWell (some [userRole]) (newcomer [js "r1"]) cuid) (initial noRows)
        (statements ++ [.next 0 false 0]) ↔
      Steps (step (some [userRole]) (newcomer [js "r1"]) cuid)
        (Careful (some [userRole]) (newcomer [js "r1"])) (initial noRows)
        (statements ++ [.next 0 false 0]) :=
  create_ends_well_iff cuid_injective (by simp [noRows]) (fun _ => rfl) _

/-- A role id that is given twice makes the email of a newcomer a registered one. -/
theorem repeated_role_conflicts :
    ¬ Steps (step (some [userRole]) (newcomer [js "r1", js "r1"]) cuid)
        (EndsWell (some [userRole]) (newcomer [js "r1", js "r1"]) cuid) (initial noRows)
        (statements ++ [.next 0 false 0]) := by
  intro hsteps
  obtain ⟨s, hrun, husers, hchanges, s', hstep, hphase⟩ : ∃ s,
      run (step (some [userRole]) (newcomer [js "r1", js "r1"]) cuid) (initial noRows)
        statements = some s ∧ s.committed.users = [] ∧
      (s.changes (.own 0)).map (·.users) =
        some [newUser (newcomer [js "r1", js "r1"]) cuid 0 0] ∧
      ∃ s', step (some [userRole]) (newcomer [js "r1", js "r1"]) cuid s (.next 0 false 0) =
          some s' ∧
        s'.phase 0 = .thrown emailRegistered :=
    ⟨_, rfl, rfl, rfl, _, rfl, by decide +kernel⟩
  have hends := hsteps.next hrun s' hstep
  rw [hphase] at hends
  obtain ⟨user, huser | ⟨changes, hown, huser⟩, -, hid⟩ := hends.2 rfl
  · rw [husers] at huser
    cases huser
  · have htx : txOf (newcomer [js "r1", js "r1"]) 0 = .own 0 := rfl
    rw [htx] at hown
    rw [hown, Option.map_some, Option.some.injEq] at hchanges
    rw [hchanges] at huser
    exact hid (by rw [List.mem_singleton.mp huser]; rfl)

end Ends

end Appspine.UserCreation
