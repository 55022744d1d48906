import Appspine.OidcIdentity

/-!
# Identity mappings over runs

Logins, verified or not, with failures at any statement, beside administrators who create,
deactivate and delete accounts: who may create a mapping, and when one goes away.
-/
namespace Appspine.Oidc
open JsText Transitions

variable {C : Type} {appName : JsString} {identities : C → VerifiedOidcIdentity}
  {s t : LoginState C}

section Claims

/-- The call was answered a mapping of its key that points to this account. -/
def ReadMapping (s : LoginState C) (identity : VerifiedOidcIdentity) (c : C) (userId : JsString) :
    Prop :=
  ∃ m, .read c m ∈ s.log ∧ m.key = identity.key ∧ m.userId = userId

/-- The call looked up an active account with its email, and it is verified. -/
def FoundAccount (s : LoginState C) (identity : VerifiedOidcIdentity) (c : C) (account : User) :
    Prop :=
  identity.emailVerified = true ∧ .found c account ∈ s.log ∧ account.email = identity.email ∧
    account.isActive = true

/-- What a step may do to the mappings, and on whose behalf. -/
structure MappingStep (identities : C → VerifiedOidcIdentity) (s t : LoginState C) (a : Action C) :
    Prop where
  /-- the account of a key does not change -/
  kept : ∀ m ∈ s.mappings, ∀ m' ∈ t.mappings, m'.key = m.key → m'.userId = m.userId
  /-- a mapping goes away only when its account does not exist -/
  removed : ∀ m ∈ s.mappings, (∀ m' ∈ t.mappings, m'.key ≠ m.key) → ¬ Exists s m.userId
  /-- a new mapping is that of a verified call, to an account it created or had found active -/
  created : ∀ m ∈ t.mappings, m ∉ s.mappings → ∃ c id account, a = .next c id ∧
    m.key = (identities c).key ∧ m.userId = account.id ∧ (identities c).emailVerified = true ∧
    account.email = (identities c).email ∧ account.isActive = true ∧
    (.found c account ∈ s.log ∨ (account ∈ t.users ∧ ¬ Exists s account.id))
  /-- the journal of what calls found and read is true when it is written -/
  found : ∀ c account, .found c account ∈ t.log → .found c account ∈ s.log ∨ account ∈ s.users
  read : ∀ c m, .read c m ∈ t.log → .read c m ∈ s.log ∨ m ∈ s.mappings
  /-- an unverified call creates nothing, and returns the account of a mapping it read -/
  unverified : ∀ c id, a = .next c id → (identities c).emailVerified = false →
    t.users = s.users ∧ (∀ m ∈ t.mappings, m ∈ s.mappings) ∧
      ∀ resolved, t.phase c = .returned resolved → ReadMapping t (identities c) c resolved.userId

/-- A call that deletes the mapping of its key finds the account there that it read. -/
def DropsWhatItRead (identities : C → VerifiedOidcIdentity) (s : LoginState C) : Action C → Prop
  | .next c _ => ∀ userId, s.phase c = .dropping userId →
      ∀ m, findMapping s (identities c).key = some m → m.userId = userId
  | _ => True

/-- What the journal holds for a call that is where it is. -/
def Held (s : LoginState C) (identity : VerifiedOidcIdentity) (c : C) : Phase → Prop
  | .checking userId => ReadMapping s identity c userId
  | .dropping userId => ReadMapping s identity c userId ∧ ¬ Exists s userId
  | .searching | .provisioning | .recovering _ => identity.emailVerified = true
  | .linking account _ | .rereading _ account _ => FoundAccount s identity c account
  | _ => True

structure LoginInvariant (identities : C → VerifiedOidcIdentity) (s : LoginState C) : Prop where
  consistent : Consistent s
  held : ∀ c, Held s (identities c) c (s.phase c)

end Claims

section Invariant

/-- The journal only grows, and no account that is gone comes back. -/
structure Grows (s t : LoginState C) : Prop where
  log : ∀ entry ∈ s.log, entry ∈ t.log
  gone : ∀ id ∈ s.issued, ¬ Exists s id → ¬ Exists t id

lemma Grows.of_users (hlog : ∀ entry ∈ s.log, entry ∈ t.log) (husers : t.users = s.users) :
    Grows s t :=
  ⟨hlog, fun _ _ hgone hexists => hgone (by rwa [Exists, husers] at hexists)⟩

lemma Held.grow {identity : VerifiedOidcIdentity} {c : C} {phase : Phase} (hgrows : Grows s t)
    (hissued : ∀ id ∈ phase.ids, id ∈ s.issued) (h : Held s identity c phase) :
    Held t identity c phase := by
  have hread : ∀ userId, ReadMapping s identity c userId → ReadMapping t identity c userId :=
    fun _ ⟨m, hm, hkey⟩ => ⟨m, hgrows.log _ hm, hkey⟩
  have hfound : ∀ account, FoundAccount s identity c account → FoundAccount t identity c account :=
    fun _ ⟨hverified, hmem, hrest⟩ => ⟨hverified, hgrows.log _ hmem, hrest⟩
  cases phase with
  | checking userId => exact hread userId h
  | dropping userId => exact ⟨hread userId h.1, hgrows.gone userId (hissued userId (by simp [Phase.ids])) h.2⟩
  | linking account flag => exact hfound account h
  | rereading error account flag => exact hfound account h
  | _ => exact h

lemma held_withoutMapping {identity : VerifiedOidcIdentity} {c : C} :
    Held s identity c (withoutMapping identity) := by
  unfold withoutMapping
  split_ifs with hverified
  · exact hverified
  · trivial

lemma held_linkIfActive {identity : VerifiedOidcIdentity} {c : C} {account : User} {flag : Bool}
    (hverified : identity.emailVerified = true) (hlog : .found c account ∈ s.log)
    (hemail : account.email = identity.email) :
    Held s identity c (linkIfActive account flag) := by
  unfold linkIfActive
  split_ifs with hactive
  · exact ⟨hverified, hlog, hemail, hactive⟩
  · trivial

lemma held_failed {identity : VerifiedOidcIdentity} {c : C} {phase after : Phase} {error : Thrown}
    (h : Held s identity c phase) (hfailed : failed phase error = some after) :
    Held s identity c after := by
  cases phase with
  | provisioning =>
    obtain rfl := Option.some.inj hfailed
    exact h
  | linking account flag =>
    obtain rfl := Option.some.inj hfailed
    exact h
  | returned resolved => cases hfailed
  | threw error => cases hfailed
  | _ =>
    obtain rfl := Option.some.inj hfailed
    trivial

variable [DecidableEq C]

lemma grows_next {c : C} (ht : NextStep appName (identities c) s c t) :
    Grows s t := by
  have hsame : ∀ phase, Grows s (s.setPhase c phase) := fun _ => .of_users (fun _ he => he) rfl
  have hrecord : ∀ phase entry, Grows s ((s.setPhase c phase).record entry) :=
    fun _ _ => .of_users (fun _ he => List.mem_append_left _ he) rfl
  cases ht with
  | read => exact hrecord _ _
  | legacy => exact hrecord _ _
  | recovered => exact hrecord _ _
  | drop => exact .of_users (fun _ he => List.mem_append_left _ he) rfl
  | linked => exact .of_users (fun _ he => List.mem_append_left _ he) rfl
  | @provisioned newId before email mapping fresh =>
    refine ⟨fun _ he => List.mem_append_left _ he, ?_⟩
    intro id hid hgone ⟨user, huser, hsame⟩
    rcases List.mem_append.mp huser with hold | hnew
    · exact hgone ⟨user, hold, hsame⟩
    · rw [List.mem_singleton.mp hnew] at hsame
      have hid' : newId = id := hsame
      exact fresh (hid' ▸ hid)
  | _ => exact hsame _

omit [DecidableEq C] in
lemma grows_admin (ht : AdminStep s t) : Grows s t := by
  cases ht with
  | create fresh email =>
    refine ⟨fun _ he => he, ?_⟩
    intro id hid hgone ⟨user, huser, hsame⟩
    rcases List.mem_append.mp huser with hold | hnew
    · exact hgone ⟨user, hold, hsame⟩
    · rw [List.mem_singleton.mp hnew] at hsame
      exact fresh (hsame ▸ hid)
  | deactivate id =>
    refine ⟨fun _ he => he, ?_⟩
    intro id' _ hgone ⟨user, huser, hsame⟩
    obtain ⟨before, hbefore, rfl⟩ := List.mem_map.mp huser
    refine hgone ⟨before, hbefore, ?_⟩
    split_ifs at hsame <;> exact hsame
  | delete id =>
    exact ⟨fun _ he => he, fun id' _ hgone ⟨user, huser, hsame⟩ =>
      hgone ⟨user, (List.mem_filter.mp huser).1, hsame⟩⟩

/-- What the call of a step holds afterwards. -/
lemma held_next {c : C} (h : LoginInvariant identities s)
    (ht : NextStep appName (identities c) s c t) : Held t (identities c) c (t.phase c) := by
  have hheld := h.held c
  have hself : ∀ phase, (s.setPhase c phase).phase c = phase := setPhase_self s c
  cases ht with
  | missing => rw [hself]; trivial
  | read before found =>
    show Held _ _ _ ((s.setPhase c _).phase c)
    rw [hself]
    exact ⟨_, List.mem_append_right _ (by simp), (mem_of_findMapping found).2, rfl⟩
  | unmapped => rw [hself]; exact held_withoutMapping
  | known => rw [hself]; trivial
  | unknown before found =>
    rw [before] at hheld
    rw [hself]
    exact ⟨hheld, not_exists_iff.mp found⟩
  | dropMissing => rw [hself]; trivial
  | drop =>
    show Held _ _ _ ((s.setPhase c _).phase c)
    rw [hself]
    exact held_withoutMapping
  | legacy before found =>
    rw [before] at hheld
    show Held _ _ _ ((s.setPhase c _).phase c)
    rw [hself]
    exact held_linkIfActive hheld (List.mem_append_right _ (by simp)) (mem_of_findByEmail found).2
  | newcomer before => rw [before] at hheld; rw [hself]; exact hheld
  | lostProvision before => rw [before] at hheld; rw [hself]; exact hheld
  | provisioned =>
    show Held _ _ _ ((s.setPhase c _).phase c)
    rw [hself]
    trivial
  | unrecovered => rw [hself]; trivial
  | recovered before found =>
    rw [before] at hheld
    show Held _ _ _ ((s.setPhase c _).phase c)
    rw [hself]
    exact held_linkIfActive hheld (List.mem_append_right _ (by simp)) (mem_of_findByEmail found).2
  | lostLink before => rw [before] at hheld; rw [hself]; exact hheld
  | linked =>
    show Held _ _ _ ((s.setPhase c _).phase c)
    rw [hself]
    trivial
  | rereadMissing => rw [hself]; trivial
  | rereadOther => rw [hself]; trivial
  | rereadSame => rw [hself]; trivial

lemma phase_next_of_ne {c c' : C} {identity : VerifiedOidcIdentity} (hc : c' ≠ c)
    (ht : NextStep appName identity s c t) : t.phase c' = s.phase c' := by
  cases ht <;> exact setPhase_of_ne hc _

omit [DecidableEq C] in
lemma phase_admin (ht : AdminStep s t) : t.phase = s.phase := by
  cases ht <;> rfl

lemma loginInvariant_step {a : Action C} (h : LoginInvariant identities s)
    (ht : step appName identities s a = some t) : LoginInvariant identities t := by
  refine ⟨consistent_step h.consistent ht, fun c' => ?_⟩
  have hissued := h.consistent.heldIds c'
  rcases step_cases ht with ⟨c, hnext⟩ | ⟨c, error, phase, hfailed, rfl⟩ | hadmin
  · by_cases hc : c' = c
    · subst hc
      exact held_next h hnext
    · rw [phase_next_of_ne hc hnext]
      exact (h.held c').grow (grows_next hnext) hissued
  · have hgrows : Grows s (s.setPhase c phase) := .of_users (fun _ he => he) rfl
    by_cases hc : c' = c
    · subst hc
      rw [setPhase_self]
      exact (held_failed (h.held c') hfailed).grow hgrows
        fun id hid => hissued id (ids_failed hfailed id hid)
    · rw [setPhase_of_ne hc]
      exact (h.held c').grow hgrows hissued
  · rw [phase_admin hadmin]
    exact (h.held c').grow (grows_admin hadmin) hissued

end Invariant

section Steps

variable [DecidableEq C]

omit [DecidableEq C] in
lemma eq_of_key {m m' : OidcMapping} (h : Consistent s) (hm : m ∈ s.mappings)
    (hm' : m' ∈ s.mappings) (hkey : m'.key = m.key) : m' = m :=
  List.inj_on_of_nodup_map h.keys hm' hm hkey

omit [DecidableEq C] in
/-- A step that leaves the mappings alone. -/
lemma mappingStep_of_same {a : Action C} (h : Consistent s) (hm : t.mappings = s.mappings)
    (hfound : ∀ c account, .found c account ∈ t.log → .found c account ∈ s.log ∨ account ∈ s.users)
    (hread : ∀ c m, .read c m ∈ t.log → .read c m ∈ s.log ∨ m ∈ s.mappings)
    (hunverified : ∀ c id, a = .next c id → (identities c).emailVerified = false →
      t.users = s.users ∧
      ∀ resolved, t.phase c = .returned resolved →
        ReadMapping t (identities c) c resolved.userId) : MappingStep identities s t a := by
  refine ⟨?_, ?_, ?_, hfound, hread, ?_⟩
  · intro m hmem m' hmem' hkey
    rw [eq_of_key h hmem (hm ▸ hmem') hkey]
  · intro m hmem hgone
    exact absurd rfl (hgone m (hm ▸ hmem))
  · intro m hmem hnew
    exact absurd (hm ▸ hmem) hnew
  · intro c id ha hverified
    obtain ⟨husers, hreturned⟩ := hunverified c id ha hverified
    exact ⟨husers, fun m hmem => hm ▸ hmem, hreturned⟩

/-- A quiet statement of a call: at most one journal entry, and no return that needs a mapping. -/
lemma mappingStep_quiet {c : C} {id : JsString} {phase : Phase} (h : Consistent s)
    (hm : t.mappings = s.mappings) (hu : t.users = s.users)
    (hp : t.phase = (s.setPhase c phase).phase)
    (hfound : ∀ c account, .found c account ∈ t.log → .found c account ∈ s.log ∨ account ∈ s.users)
    (hread : ∀ c m, .read c m ∈ t.log → .read c m ∈ s.log ∨ m ∈ s.mappings)
    (hreturned : ∀ resolved, phase = .returned resolved → (identities c).emailVerified = false →
      ReadMapping t (identities c) c resolved.userId) :
    MappingStep identities s t (.next c id) := by
  refine mappingStep_of_same h hm hfound hread ?_
  intro c' id' ha hverified
  cases ha
  refine ⟨hu, fun resolved hresolved => hreturned resolved ?_ hverified⟩
  rw [← hresolved, hp, setPhase_self]

omit [DecidableEq C] in
lemma mem_append_of_ne {entry new : LogEntry C} {log : List (LogEntry C)}
    (h : entry ∈ log ++ [new]) (hne : entry ≠ new) : entry ∈ log := by
  rcases List.mem_append.mp h with hold | hnew
  · exact hold
  · exact absurd (List.mem_singleton.mp hnew) hne

lemma mappingStep_drop {c : C} {id : JsString} {userId : JsString} {mapping : OidcMapping}
    (h : LoginInvariant identities s) (hphase : s.phase c = .dropping userId)
    (hfound : findMapping s (identities c).key = some mapping)
    (hsame : DropsWhatItRead identities s (.next c id)) :
    MappingStep identities s (afterDrop (identities c) s c mapping) (.next c id) := by
  have hheld := h.held c
  rw [hphase] at hheld
  have hmem : ∀ m ∈ (afterDrop (identities c) s c mapping).mappings,
      m ∈ s.mappings ∧ m.key ≠ (identities c).key := by
    intro m hm
    obtain ⟨hold, hkey⟩ := List.mem_filter.mp hm
    exact ⟨hold, by simpa using hkey⟩
  refine ⟨?_, ?_, ?_, ?_, ?_, ?_⟩
  · intro m hm m' hm' hkey
    rw [eq_of_key h.consistent hm (hmem m' hm').1 hkey]
  · intro m hm hgone
    have hkey : m.key = (identities c).key := by
      by_contra hkey
      exact hgone m (List.mem_filter.mpr ⟨hm, by simpa using hkey⟩) rfl
    obtain ⟨hmapping, hmappingKey⟩ := mem_of_findMapping hfound
    rw [eq_of_key h.consistent hmapping hm (hkey.trans hmappingKey.symm),
      hsame userId hphase mapping hfound]
    exact hheld.2
  · intro m hm hnew
    exact absurd (hmem m hm).1 hnew
  · exact fun c' account he => Or.inl (mem_append_of_ne he (by simp))
  · exact fun c' m he => Or.inl (mem_append_of_ne he (by simp))
  · intro c' id' ha hverified
    cases ha
    refine ⟨rfl, fun m hm => (hmem m hm).1, ?_⟩
    intro resolved hresolved
    have hthrew : (afterDrop (identities c) s c mapping).phase c = withoutMapping (identities c) :=
      setPhase_self s c _
    rw [hthrew, withoutMapping, hverified] at hresolved
    cases hresolved

omit [DecidableEq C] in
/-- A transaction that adds a mapping for a key without one. -/
lemma mappingStep_add {c : C} {id : JsString} {m : OidcMapping} {account : User}
    (h : Consistent s) (ht : t.mappings = s.mappings ++ [m])
    (hkey : m.key = (identities c).key) (hnone : findMapping s (identities c).key = none)
    (hid : m.userId = account.id) (hverified : (identities c).emailVerified = true)
    (hemail : account.email = (identities c).email) (hactive : account.isActive = true)
    (hknown : .found c account ∈ s.log ∨ (account ∈ t.users ∧ ¬ Exists s account.id))
    (hfound : ∀ c account, .found c account ∈ t.log → .found c account ∈ s.log)
    (hread : ∀ c m, .read c m ∈ t.log → .read c m ∈ s.log) :
    MappingStep identities s t (.next c id) := by
  have hmem : ∀ m' ∈ t.mappings, m' ∈ s.mappings ∨ m' = m := by
    intro m' hm'
    rw [ht] at hm'
    exact (List.mem_append.mp hm').imp_right List.mem_singleton.mp
  refine ⟨?_, ?_, ?_, fun c account he => Or.inl (hfound c account he),
    fun c m he => Or.inl (hread c m he), ?_⟩
  · intro m₁ hm₁ m₂ hm₂ hsame
    rcases hmem m₂ hm₂ with hold | rfl
    · rw [eq_of_key h hm₁ hold hsame]
    · exact absurd (hsame.symm.trans hkey) (findMapping_eq_none.mp hnone m₁ hm₁)
  · intro m₁ hm₁ hgone
    exact absurd rfl (hgone m₁ (ht ▸ List.mem_append_left _ hm₁))
  · intro m₁ hm₁ hnew
    obtain rfl := (hmem m₁ hm₁).resolve_left hnew
    exact ⟨c, id, account, rfl, hkey, hid, hverified, hemail, hactive, hknown⟩
  · intro c' id' ha hunverified
    cases ha
    rw [hverified] at hunverified
    cases hunverified

lemma mappingStep_next {c : C} {id : JsString} (h : LoginInvariant identities s)
    (hdrops : DropsWhatItRead identities s (.next c id))
    (ht : NextStep appName (identities c) s c t) : MappingStep identities s t (.next c id) := by
  have hheld := h.held c
  have hlog : ∀ {phase}, (∀ resolved, phase = .returned resolved →
      (identities c).emailVerified = false →
        ReadMapping (s.setPhase c phase) (identities c) c resolved.userId) →
      MappingStep identities s (s.setPhase c phase) (.next c id) := fun hreturned =>
    mappingStep_quiet h.consistent rfl rfl rfl (fun _ _ he => Or.inl he) (fun _ _ he => Or.inl he)
      hreturned
  have hfound : ∀ {account flag}, account ∈ s.users → MappingStep identities s
      ((s.setPhase c (linkIfActive account flag)).record (.found c account)) (.next c id) := by
    intro account flag haccount
    refine mappingStep_quiet h.consistent rfl rfl rfl ?_
      (fun _ _ he => Or.inl (mem_append_of_ne he (by simp))) ?_
    · intro c' account' he
      rcases List.mem_append.mp he with hold | hnew
      · exact Or.inl hold
      · obtain ⟨-, rfl⟩ := LogEntry.found.inj (List.mem_singleton.mp hnew)
        exact Or.inr haccount
    · intro resolved hresolved
      unfold linkIfActive at hresolved
      split_ifs at hresolved
  cases ht with
  | missing => exact hlog (fun _ hresolved => nomatch hresolved)
  | read before found =>
    refine mappingStep_quiet h.consistent rfl rfl rfl
      (fun _ _ he => Or.inl (mem_append_of_ne he (by simp))) ?_ (fun _ hresolved => nomatch hresolved)
    intro c' m he
    rcases List.mem_append.mp he with hold | hnew
    · exact Or.inl hold
    · obtain ⟨-, rfl⟩ := LogEntry.read.inj (List.mem_singleton.mp hnew)
      exact Or.inr (mem_of_findMapping found).1
  | unmapped =>
    refine hlog fun resolved hresolved => ?_
    unfold withoutMapping at hresolved
    split_ifs at hresolved
  | known before =>
    rw [before] at hheld
    refine hlog fun resolved hresolved _ => ?_
    rw [← Phase.returned.inj hresolved]
    exact hheld
  | unknown => exact hlog (fun _ hresolved => nomatch hresolved)
  | dropMissing => exact hlog (fun _ hresolved => nomatch hresolved)
  | drop before found => exact mappingStep_drop h before found hdrops
  | legacy before found => exact hfound (mem_of_findByEmail found).1
  | newcomer => exact hlog (fun _ hresolved => nomatch hresolved)
  | lostProvision => exact hlog (fun _ hresolved => nomatch hresolved)
  | @provisioned newId before email mapping fresh =>
    rw [before] at hheld
    have hnew : newAccount (identities c) newId ∈
        (afterProvision appName (identities c) s c newId).users := List.mem_append_right _ (by simp)
    have hunknown : ¬ Exists s (newAccount (identities c) newId).id := by
      intro ⟨user, huser, hid⟩
      have hid' : user.id = newId := hid
      exact fresh (hid' ▸ h.consistent.userIds user huser)
    exact mappingStep_add h.consistent rfl rfl mapping rfl hheld rfl rfl (Or.inr ⟨hnew, hunknown⟩)
      (fun _ _ he => mem_append_of_ne he (by simp)) (fun _ _ he => mem_append_of_ne he (by simp))
  | unrecovered => exact hlog (fun _ hresolved => nomatch hresolved)
  | recovered before found => exact hfound (mem_of_findByEmail found).1
  | lostLink => exact hlog (fun _ hresolved => nomatch hresolved)
  | linked before mapping =>
    rw [before] at hheld
    obtain ⟨hverified, hknown, hemail, hactive⟩ := hheld
    exact mappingStep_add h.consistent rfl rfl mapping rfl hverified hemail hactive (Or.inl hknown)
      (fun _ _ he => mem_append_of_ne he (by simp)) (fun _ _ he => mem_append_of_ne he (by simp))
  | rereadMissing => exact hlog (fun _ hresolved => nomatch hresolved)
  | rereadOther => exact hlog (fun _ hresolved => nomatch hresolved)
  | rereadSame before =>
    rw [before] at hheld
    refine hlog fun _ _ hunverified => ?_
    rw [hheld.1] at hunverified
    cases hunverified

lemma mappingStep_step {a : Action C} (h : LoginInvariant identities s)
    (hdrops : DropsWhatItRead identities s a) (ht : step appName identities s a = some t) :
    MappingStep identities s t a := by
  have hsame : ∀ {t : LoginState C}, (∀ c id, a ≠ .next c id) → t.mappings = s.mappings →
      t.log = s.log → MappingStep identities s t a := by
    intro t hother hm hl
    exact mappingStep_of_same h.consistent hm (fun _ _ he => Or.inl (hl ▸ he))
      (fun _ _ he => Or.inl (hl ▸ he)) (fun c id ha => absurd ha (hother c id))
  cases a with
  | next c id => exact mappingStep_next h hdrops (next_cases ht)
  | fail c error =>
    obtain ⟨phase, -, rfl⟩ := Option.map_eq_some_iff.mp ht
    exact hsame (by simp) rfl rfl
  | createUser user =>
    simp only [step] at ht
    split_ifs at ht
    rw [← Option.some.inj ht]
    exact hsame (by simp) rfl rfl
  | deactivateUser id =>
    rw [← Option.some.inj ht]
    exact hsame (by simp) rfl rfl
  | deleteUser id =>
    rw [← Option.some.inj ht]
    exact hsame (by simp) rfl rfl

/-- In a run in which every call that deletes a mapping deletes the one it read, every step keeps
the mappings: none is moved, none with an account goes away, and a new one is that of a verified
call, to an account with its email that it created or had found active. -/
theorem mappings_kept (hconsistent : Consistent s) (hstart : ∀ c, s.phase c = .start)
    {actions : List (Action C)}
    (hdrops : Steps (step appName identities) (DropsWhatItRead identities) s actions) :
    Steps (step appName identities)
      (fun s a => ∀ t, step appName identities s a = some t → MappingStep identities s t a)
      s actions := by
  have hinvariant : LoginInvariant identities s :=
    ⟨hconsistent, fun c => by rw [hstart c]; trivial⟩
  clear hstart hconsistent
  induction actions generalizing s with
  | nil => trivial
  | cons a actions ih =>
    exact ⟨fun t ht => mappingStep_step hinvariant hdrops.1 ht,
      fun t ht => ih (hdrops.2 t ht) (loginInvariant_step hinvariant ht)⟩

end Steps

section StaleDrop

/-- One login replaces the dangling mapping while the other is about to delete it. -/
theorem stale_drop_removes_live_mapping :
    ∃ s t, run (step (js "app") racer) danglingState
        [.next false [], .next true [], .next false [], .next true [], .next false [],
          .next false [], .next false (js "user-2")] = some s ∧
      step (js "app") racer s (.next true []) = some t ∧
      ¬ MappingStep racer s t (.next true []) := by
  refine ⟨_, _, rfl, rfl, fun hstep => ?_⟩
  refine hstep.removed (mappingOf (racer true) (js "user-2") false) (by decide +kernel) ?_
    ⟨newAccount (racer true) (js "user-2"), by decide +kernel, rfl⟩
  decide +kernel

theorem mappings_kept_dangling :
    Steps (step (js "app") racer)
      (fun s a => ∀ t, step (js "app") racer s a = some t → MappingStep racer s t a)
      danglingState [.next false [], .deleteUser (js "user-1")] := by
  refine mappings_kept danglingState_consistent (fun _ => rfl) ?_
  refine ⟨fun _ hphase => (nomatch hphase), fun t ht => ?_⟩
  exact ⟨trivial, fun _ _ => trivial⟩

end StaleDrop

end Appspine.Oidc
