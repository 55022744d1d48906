import Appspine.OidcIdentity

/-!
# Racing logins

Runs of `resolve` calls alone, with verified emails, a sink that never fails and no
administrator at work. A mapping that points to an account is never dropped in such a run,
and what a call holds stays true until it returns, as long as no two calls hold one
dangling mapping.
-/
namespace Appspine.Oidc
open JsText Transitions

variable {C : Type} {appName : JsString} {identities : C → VerifiedOidcIdentity}
  {s t : LoginState C}

section Invariant

/-- There is an account with this id and this email. -/
def AccountOf (s : LoginState C) (email id : JsString) : Prop :=
  ∃ user ∈ s.users, user.id = id ∧ user.email = email

/-- A mapping for the identity points to the account with its email. -/
def Settled (s : LoginState C) (identity : VerifiedOidcIdentity) : Prop :=
  ∀ m, findMapping s identity.key = some m → AccountOf s identity.email m.userId

/-- What a call relies on while it is where it is. -/
def Good (s : LoginState C) (identity : VerifiedOidcIdentity) : Phase → Prop
  | .start => True
  | .checking userId => ∃ m, findMapping s identity.key = some m ∧ m.userId = userId
  | .dropping userId =>
    (∃ m, findMapping s identity.key = some m ∧ m.userId = userId) ∧ ¬ Exists s userId
  | .searching => Settled s identity
  | .provisioning => Settled s identity
  | .recovering _ => Settled s identity ∧ ∃ user ∈ s.users, user.email = identity.email
  | .linking account _ => Settled s identity ∧ account ∈ s.users ∧ account.email = identity.email
  | .rereading _ account _ => (Settled s identity ∧ findMapping s identity.key ≠ none) ∧
      account ∈ s.users ∧ account.email = identity.email
  | .returned resolved =>
    (∃ m, findMapping s identity.key = some m ∧ m.userId = resolved.userId) ∧
      Exists s resolved.userId
  | .threw _ => False

/-- The call has read a mapping whose account is missing, and will drop it. -/
def Holds (s : LoginState C) : Phase → Prop
  | .checking userId => ¬ Exists s userId
  | .dropping _ => True
  | _ => False

/-- The invariant of a race in which no two calls hold one dangling mapping. -/
structure RaceInvariant (identities : C → VerifiedOidcIdentity) (s : LoginState C) : Prop where
  consistent : Consistent s
  active : ∀ user ∈ s.users, ∀ c, user.email = (identities c).email → user.isActive = true
  good : ∀ c, Good s (identities c) (s.phase c)
  sole : ∀ c c', (identities c).key = (identities c').key → Holds s (s.phase c) →
    Holds s (s.phase c') → c = c'

/-- What the logins bring: verified, with both halves of the key, and one email for one key. -/
structure ValidLogins (identities : C → VerifiedOidcIdentity) : Prop where
  verified : ∀ c, (identities c).emailVerified = true
  claims : ∀ c, missingClaim (identities c) = none
  email : ∀ c c', (identities c).key = (identities c').key → (identities c).email = (identities c').email

end Invariant

section Frame

/-- The tables of `t` go on from those of `s` as far as a call with this identity can tell. -/
structure Extends (s t : LoginState C) (identity : VerifiedOidcIdentity) : Prop where
  users : ∀ user ∈ s.users, user ∈ t.users
  mapping : ∀ m, findMapping s identity.key = some m → findMapping t identity.key = some m
  settled : Settled s identity → Settled t identity
  missing : ∀ m, findMapping s identity.key = some m → ¬ Exists s m.userId → ¬ Exists t m.userId

lemma Extends.exists {identity : VerifiedOidcIdentity} {id : JsString} (h : Extends s t identity)
    (hid : Exists s id) : Exists t id := by
  obtain ⟨user, huser, hid⟩ := hid
  exact ⟨user, h.users user huser, hid⟩

lemma Good.extend {identity : VerifiedOidcIdentity} {phase : Phase} (h : Extends s t identity)
    (hgood : Good s identity phase) : Good t identity phase := by
  cases phase with
  | start => trivial
  | checking userId =>
    obtain ⟨m, hm, hid⟩ := hgood
    exact ⟨m, h.mapping m hm, hid⟩
  | dropping userId =>
    obtain ⟨⟨m, hm, rfl⟩, hmissing⟩ := hgood
    exact ⟨⟨m, h.mapping m hm, rfl⟩, h.missing m hm hmissing⟩
  | searching => exact h.settled hgood
  | provisioning => exact h.settled hgood
  | recovering error =>
    obtain ⟨hsettled, user, huser, hemail⟩ := hgood
    exact ⟨h.settled hsettled, user, h.users user huser, hemail⟩
  | linking account flag => exact ⟨h.settled hgood.1, h.users _ hgood.2.1, hgood.2.2⟩
  | rereading error account flag =>
    obtain ⟨⟨hsettled, hmapped⟩, haccount, hemail⟩ := hgood
    obtain ⟨m, hm⟩ := Option.ne_none_iff_exists'.mp hmapped
    exact ⟨⟨h.settled hsettled, by simp [h.mapping m hm]⟩, h.users _ haccount, hemail⟩
  | returned resolved =>
    obtain ⟨⟨m, hm, hid⟩, hexists⟩ := hgood
    exact ⟨⟨m, h.mapping m hm, hid⟩, h.exists hexists⟩
  | threw error => exact hgood

lemma Holds.before {phase : Phase} (h : ∀ user ∈ s.users, user ∈ t.users) (hholds : Holds t phase) :
    Holds s phase := by
  cases phase with
  | checking userId => exact fun ⟨user, huser, hid⟩ => hholds ⟨user, h user huser, hid⟩
  | _ => exact hholds

/-- A step whose call does not come to hold a mapping, and that every other call can go on from. -/
lemma RaceInvariant.of_extends {c : C} (h : RaceInvariant identities s) (hconsistent : Consistent t)
    (hphase : ∀ c', c' ≠ c → t.phase c' = s.phase c')
    (hactive : ∀ user ∈ t.users, ∀ c, user.email = (identities c).email → user.isActive = true)
    (husers : ∀ user ∈ s.users, user ∈ t.users)
    (hothers : ∀ c', c' ≠ c → Good t (identities c') (s.phase c'))
    (hgood : Good t (identities c) (t.phase c))
    (hholds : Holds t (t.phase c) → Holds s (s.phase c)) : RaceInvariant identities t := by
  have hbefore : ∀ c', Holds t (t.phase c') → Holds s (s.phase c') := by
    intro c' hc'
    by_cases hc : c' = c
    · exact hc ▸ hholds (hc ▸ hc')
    · rw [hphase c' hc] at hc'
      exact Holds.before husers hc'
  refine ⟨hconsistent, hactive, fun c' => ?_, ?_⟩
  · by_cases hc : c' = c
    · exact hc ▸ hgood
    · rw [hphase c' hc]
      exact hothers c' hc
  · exact fun c₁ c₂ hkey h₁ h₂ => h.sole c₁ c₂ hkey (hbefore c₁ h₁) (hbefore c₂ h₂)

lemma Extends.refl_tables (hu : t.users = s.users) (hm : t.mappings = s.mappings)
    (identity : VerifiedOidcIdentity) : Extends s t identity := by
  have hfind : ∀ key, findMapping t key = findMapping s key := fun key => by
    rw [findMapping, findMapping, hm]
  refine ⟨fun user huser => hu ▸ huser, fun m h => (hfind _).trans h, ?_, ?_⟩
  · intro hsettled m h
    rw [hfind] at h
    obtain ⟨user, huser, hid⟩ := hsettled m h
    exact ⟨user, hu ▸ huser, hid⟩
  · intro m _ hmissing hexists
    obtain ⟨user, huser, hid⟩ := hexists
    exact hmissing ⟨user, hu ▸ huser, hid⟩

variable [DecidableEq C]

/-- A step that changes no table and does not come to hold a mapping. -/
lemma RaceInvariant.quiet {c : C} {phase : Phase} (h : RaceInvariant identities s)
    (hconsistent : Consistent t) (hu : t.users = s.users) (hm : t.mappings = s.mappings)
    (hp : t.phase = (s.setPhase c phase).phase) (hgood : Good s (identities c) phase)
    (hholds : Holds s phase → Holds s (s.phase c)) : RaceInvariant identities t := by
  have hself : t.phase c = phase := by rw [hp, setPhase_self]
  have husers : ∀ user ∈ t.users, user ∈ s.users := fun user huser => hu ▸ huser
  refine h.of_extends (c := c) hconsistent (fun c' hc => by rw [hp, setPhase_of_ne hc])
    (fun user huser => h.active user (husers user huser)) (fun user huser => hu ▸ huser)
    (fun c' _ => (h.good c').extend (.refl_tables hu hm _)) ?_ ?_
  · rw [hself]
    exact hgood.extend (.refl_tables hu hm _)
  · rw [hself]
    exact fun ht => hholds (Holds.before (fun user huser => hu ▸ huser) ht)

end Frame

section Steps

/-- Beside a call that is about to drop a mapping, every other one of its key is yet to start. -/
lemma RaceInvariant.start_beside {c c' : C} {userId : JsString} (h : RaceInvariant identities s)
    (hdropping : s.phase c = .dropping userId) (hc : c' ≠ c)
    (hkey : (identities c').key = (identities c).key) : s.phase c' = .start := by
  have hgood := h.good c
  rw [hdropping] at hgood
  obtain ⟨⟨m, hm, rfl⟩, hmissing⟩ := hgood
  have hheld : Holds s (s.phase c) := by rw [hdropping]; trivial
  have hunsettled : ¬ Settled s (identities c') := by
    intro hsettled
    obtain ⟨user, huser, hid, -⟩ := hsettled m (hkey ▸ hm)
    exact hmissing ⟨user, huser, hid⟩
  have hgood' := h.good c'
  have hsole := h.sole c c' hkey.symm hheld
  cases hphase : s.phase c' with
  | start => rfl
  | checking userId =>
    rw [hphase] at hgood' hsole
    obtain ⟨m', hm', rfl⟩ := hgood'
    rw [hkey, hm] at hm'
    obtain rfl := Option.some.inj hm'
    exact absurd (hsole hmissing).symm hc
  | dropping userId =>
    rw [hphase] at hsole
    exact absurd (hsole trivial).symm hc
  | searching => rw [hphase] at hgood'; exact absurd hgood' hunsettled
  | provisioning => rw [hphase] at hgood'; exact absurd hgood' hunsettled
  | recovering error => rw [hphase] at hgood'; exact absurd hgood'.1 hunsettled
  | linking account flag => rw [hphase] at hgood'; exact absurd hgood'.1 hunsettled
  | rereading error account flag => rw [hphase] at hgood'; exact absurd hgood'.1.1 hunsettled
  | returned resolved =>
    rw [hphase] at hgood'
    obtain ⟨⟨m', hm', hid⟩, hexists⟩ := hgood'
    rw [hkey, hm] at hm'
    obtain rfl := Option.some.inj hm'
    exact absurd (hid ▸ hexists) hmissing
  | threw error => rw [hphase] at hgood'; exact hgood'.elim

lemma good_withoutMapping {identity : VerifiedOidcIdentity} (hverified : identity.emailVerified = true)
    (hnone : findMapping s identity.key = none) : Good s identity (withoutMapping identity) := by
  rw [withoutMapping, if_pos hverified]
  intro m hm
  rw [hnone] at hm
  cases hm

lemma good_linkIfActive {c : C} {account : User} {flag : Bool} (h : RaceInvariant identities s)
    (hsettled : Settled s (identities c))
    (hfound : findByEmail s (identities c).email = some account) :
    Good s (identities c) (linkIfActive account flag) := by
  obtain ⟨haccount, hemail⟩ := mem_of_findByEmail hfound
  rw [linkIfActive, if_pos (h.active account haccount c hemail)]
  exact ⟨hsettled, haccount, hemail⟩

lemma not_holds_linkIfActive {account : User} {flag : Bool} :
    ¬ Holds s (linkIfActive account flag) := by
  unfold linkIfActive
  split_ifs <;> exact id

variable [DecidableEq C]

lemma RaceInvariant.drop {c : C} {userId : JsString} {mapping : OidcMapping}
    (h : RaceInvariant identities s) (hvalid : ValidLogins identities)
    (hdropping : s.phase c = .dropping userId) :
    RaceInvariant identities (afterDrop (identities c) s c mapping) := by
  have hself : (afterDrop (identities c) s c mapping).phase c = withoutMapping (identities c) :=
    setPhase_self s c _
  refine h.of_extends (c := c) h.consistent.drop (fun c' hc => setPhase_of_ne hc _)
    h.active (fun _ huser => huser) ?_ ?_ ?_
  · intro c' hc
    by_cases hkey : (identities c').key = (identities c).key
    · rw [h.start_beside hdropping hc hkey]
      trivial
    · have hsame : findMapping (afterDrop (identities c) s c mapping) (identities c').key =
          findMapping s (identities c').key := by rw [findMapping_afterDrop, if_neg hkey]
      have hextends : Extends s (afterDrop (identities c) s c mapping) (identities c') :=
        ⟨fun _ huser => huser, fun m hm => hsame.trans hm,
          fun hsettled m hm => hsettled m (hsame.symm.trans hm), fun _ _ hmissing => hmissing⟩
      exact (h.good c').extend hextends
  · rw [hself]
    refine good_withoutMapping (hvalid.verified c) ?_
    rw [findMapping_afterDrop, if_pos rfl]
  · rw [hself, withoutMapping, if_pos (hvalid.verified c)]
    exact fun hholds => hholds.elim

lemma RaceInvariant.provision {c : C} {id : JsString} (h : RaceInvariant identities s)
    (hvalid : ValidLogins identities)
    (hemail : findByEmail s (identities c).email = none)
    (hkey : findMapping s (identities c).key = none) (hfresh : id ∉ s.issued) :
    RaceInvariant identities (afterProvision appName (identities c) s c id) := by
  have hfind : ∀ key, findMapping (afterProvision appName (identities c) s c id) key =
      (findMapping s key).or (if (identities c).key = key then
        some (mappingOf (identities c) id false) else none) :=
    findMapping_append (m := mappingOf (identities c) id false) rfl
  have hnew : newAccount (identities c) id ∈ (afterProvision appName (identities c) s c id).users :=
    List.mem_append_right _ (by simp)
  have hself : (afterProvision appName (identities c) s c id).phase c = .returned ⟨id, false, true⟩ :=
    setPhase_self s c _
  refine h.of_extends (c := c) (h.consistent.provision hemail hkey)
    (fun c' hc => setPhase_of_ne hc _) ?_ (fun user huser => List.mem_append_left _ huser) ?_ ?_ ?_
  · intro user huser c' hc'
    rcases List.mem_append.mp huser with hold | hadded
    · exact h.active user hold c' hc'
    · rw [List.mem_singleton.mp hadded]
      rfl
  · intro c' _
    refine (h.good c').extend ⟨fun user huser => List.mem_append_left _ huser, ?_, ?_, ?_⟩
    · intro m hm
      rw [hfind, hm]
      rfl
    · intro hsettled m hm
      rw [hfind] at hm
      rcases Option.or_eq_some_iff.mp hm with hold | ⟨-, hadded⟩
      · obtain ⟨user, huser, hid⟩ := hsettled m hold
        exact ⟨user, List.mem_append_left _ huser, hid⟩
      · split_ifs at hadded with hsame
        obtain rfl := Option.some.inj hadded
        exact ⟨_, hnew, rfl, hvalid.email c c' hsame⟩
    · intro m hm hmissing ⟨user, huser, hid⟩
      rcases List.mem_append.mp huser with hold | hadded
      · exact hmissing ⟨user, hold, hid⟩
      · rw [List.mem_singleton.mp hadded] at hid
        have hid' : id = m.userId := hid
        exact hfresh (hid' ▸ h.consistent.mappedIds m (mem_of_findMapping hm).1)
  · rw [hself]
    exact ⟨⟨_, by rw [hfind, hkey, if_pos rfl]; rfl, rfl⟩, _, hnew, rfl⟩
  · rw [hself]
    exact fun hholds => hholds.elim

lemma RaceInvariant.link {c : C} {account : User} {flag : Bool} (h : RaceInvariant identities s)
    (hvalid : ValidLogins identities) (hlinking : s.phase c = .linking account flag)
    (hkey : findMapping s (identities c).key = none) :
    RaceInvariant identities (afterLink appName (identities c) s c account flag) := by
  have hgood := h.good c
  rw [hlinking] at hgood
  obtain ⟨-, haccount, hemail⟩ := hgood
  have hfind : ∀ key, findMapping (afterLink appName (identities c) s c account flag) key =
      (findMapping s key).or (if (identities c).key = key then
        some (mappingOf (identities c) account.id flag) else none) :=
    findMapping_append (m := mappingOf (identities c) account.id flag) rfl
  have hself : (afterLink appName (identities c) s c account flag).phase c =
      .returned ⟨account.id, flag, false⟩ := setPhase_self s c _
  refine h.of_extends (c := c) (h.consistent.link hkey (h.consistent.userIds _ haccount))
    (fun c' hc => setPhase_of_ne hc _) h.active (fun _ huser => huser) ?_ ?_ ?_
  · intro c' _
    have hsettles : Settled s (identities c') →
        Settled (afterLink appName (identities c) s c account flag) (identities c') := by
      intro hsettled m hm
      rw [hfind] at hm
      rcases Option.or_eq_some_iff.mp hm with hold | ⟨-, hadded⟩
      · exact hsettled m hold
      · split_ifs at hadded with hsame
        obtain rfl := Option.some.inj hadded
        exact ⟨account, haccount, rfl, hemail.trans (hvalid.email c c' hsame)⟩
    have hextends : Extends s (afterLink appName (identities c) s c account flag) (identities c') :=
      ⟨fun _ huser => huser, fun m hm => by rw [hfind, hm]; rfl, hsettles,
        fun _ _ hmissing => hmissing⟩
    exact (h.good c').extend hextends
  · rw [hself]
    exact ⟨⟨_, by rw [hfind, hkey, if_pos rfl]; rfl, rfl⟩, account, haccount, rfl⟩
  · rw [hself]
    exact fun hholds => hholds.elim

/-- No two calls come to hold one dangling mapping: a call that reads one is alone with it. -/
def SoleReader (identities : C → VerifiedOidcIdentity) (s : LoginState C) : Action C → Prop
  | .next c _ => s.phase c = .start → ∀ m, findMapping s (identities c).key = some m →
      findById s m.userId = none → ∀ c', (identities c').key = (identities c).key →
        ∀ userId, s.phase c' ≠ .checking userId ∧ s.phase c' ≠ .dropping userId
  | _ => True

lemma RaceInvariant.read {c : C} {id : JsString} {mapping : OidcMapping}
    (h : RaceInvariant identities s) (hstart : s.phase c = .start)
    (hfound : findMapping s (identities c).key = some mapping)
    (hsole : SoleReader identities s (.next c id)) :
    RaceInvariant identities ((s.setPhase c (.checking mapping.userId)).record (.read c mapping)) := by
  have hconsistent : Consistent ((s.setPhase c (.checking mapping.userId)).record (.read c mapping)) :=
    (h.consistent.setPhase
      (by simpa [Phase.ids] using h.consistent.mappedIds _ (mem_of_findMapping hfound).1)).record _
  have hself : (s.setPhase c (.checking mapping.userId)).phase c = .checking mapping.userId :=
    setPhase_self s c _
  have halone : ∀ c', (identities c').key = (identities c).key → ¬ Exists s mapping.userId →
      ¬ Holds s (s.phase c') := by
    intro c' hkey hmissing hholds
    have hfree := hsole hstart mapping hfound (not_exists_iff.mpr hmissing) c' hkey
    cases hphase : s.phase c' with
    | checking userId => exact (hfree userId).1 hphase
    | dropping userId => exact (hfree userId).2 hphase
    | _ => rw [hphase] at hholds; exact hholds
  refine ⟨hconsistent, h.active, fun c' => ?_, ?_⟩
  · by_cases hc : c' = c
    · subst hc
      show Good _ _ ((s.setPhase c' (.checking mapping.userId)).phase c')
      rw [hself]
      exact ⟨mapping, hfound, rfl⟩
    · show Good _ _ ((s.setPhase c (.checking mapping.userId)).phase c')
      rw [setPhase_of_ne hc]
      exact (h.good c').extend (.refl_tables rfl rfl _)
  · intro c₁ c₂ hkey h₁ h₂
    have hphase : ∀ c', c' ≠ c → Holds s ((s.setPhase c (.checking mapping.userId)).phase c') →
        Holds s (s.phase c') := fun c' hc hc' => by rwa [setPhase_of_ne hc] at hc'
    by_cases hc₁ : c₁ = c
    · by_cases hc₂ : c₂ = c
      · exact hc₁.trans hc₂.symm
      · subst hc₁
        have hmissing : ¬ Exists s mapping.userId := by
          have h₁' : Holds s ((s.setPhase c₁ (.checking mapping.userId)).phase c₁) := h₁
          rwa [hself] at h₁'
        exact absurd (hphase c₂ hc₂ h₂) (halone c₂ hkey.symm hmissing)
    · by_cases hc₂ : c₂ = c
      · subst hc₂
        have hmissing : ¬ Exists s mapping.userId := by
          have h₂' : Holds s ((s.setPhase c₂ (.checking mapping.userId)).phase c₂) := h₂
          rwa [hself] at h₂'
        exact absurd (hphase c₁ hc₁ h₁) (halone c₁ hkey hmissing)
      · exact h.sole c₁ c₂ hkey (hphase c₁ hc₁ h₁) (hphase c₂ hc₂ h₂)

lemma race_step {c : C} {id : JsString} (h : RaceInvariant identities s)
    (hvalid : ValidLogins identities) (hsole : SoleReader identities s (.next c id))
    (hstep : step appName identities s (.next c id) = some t) : RaceInvariant identities t := by
  have hnext := next_cases hstep
  have hconsistent := h.consistent.next hnext
  have hgood := h.good c
  cases hnext with
  | missing before claim => exact absurd ((hvalid.claims c).symm.trans claim) (by simp)
  | read before found => exact h.read before found hsole
  | unmapped before found =>
    refine h.quiet hconsistent rfl rfl rfl (good_withoutMapping (hvalid.verified c) found) ?_
    rw [withoutMapping, if_pos (hvalid.verified c)]
    exact fun hholds => hholds.elim
  | known before found =>
    rw [before] at hgood
    exact h.quiet hconsistent rfl rfl rfl ⟨hgood, exists_of_findById found⟩ (fun hholds => hholds.elim)
  | unknown before found =>
    rw [before] at hgood
    have hmissing := not_exists_iff.mp found
    exact h.quiet hconsistent rfl rfl rfl ⟨hgood, hmissing⟩ (fun _ => by rw [before]; exact hmissing)
  | dropMissing before found =>
    rw [before] at hgood
    obtain ⟨⟨m, hm, -⟩, -⟩ := hgood
    exact absurd (hm.symm.trans found) (by simp)
  | drop before found => exact h.drop hvalid before
  | legacy before found =>
    rw [before] at hgood
    exact h.quiet hconsistent rfl rfl rfl (good_linkIfActive h hgood found)
      (fun hholds => absurd hholds not_holds_linkIfActive)
  | newcomer before found =>
    rw [before] at hgood
    exact h.quiet hconsistent rfl rfl rfl hgood (fun hholds => hholds.elim)
  | lostProvision before taken =>
    rw [before] at hgood
    refine h.quiet hconsistent rfl rfl rfl ⟨hgood, ?_⟩ (fun hholds => hholds.elim)
    rcases taken with hemail | hmapped
    · obtain ⟨user, huser⟩ := Option.ne_none_iff_exists'.mp hemail
      exact ⟨user, mem_of_findByEmail huser⟩
    · obtain ⟨m, hm⟩ := Option.ne_none_iff_exists'.mp hmapped
      obtain ⟨user, huser, -, hemail⟩ := hgood m hm
      exact ⟨user, huser, hemail⟩
  | provisioned before email mapping fresh => exact h.provision hvalid email mapping fresh
  | unrecovered before found =>
    rw [before] at hgood
    obtain ⟨-, user, huser, hemail⟩ := hgood
    exact absurd hemail (findByEmail_eq_none.mp found user huser)
  | recovered before found =>
    rw [before] at hgood
    exact h.quiet hconsistent rfl rfl rfl (good_linkIfActive h hgood.1 found)
      (fun hholds => absurd hholds not_holds_linkIfActive)
  | lostLink before taken =>
    rw [before] at hgood
    exact h.quiet hconsistent rfl rfl rfl ⟨⟨hgood.1, taken⟩, hgood.2⟩ (fun hholds => hholds.elim)
  | linked before mapping => exact h.link hvalid before mapping
  | rereadMissing before found =>
    rw [before] at hgood
    exact absurd found hgood.1.2
  | @rereadOther error account flag existing before found other =>
    -- the mapping found is settled, so it points to the one account with this email
    rw [before] at hgood
    obtain ⟨⟨hsettled, -⟩, haccount, hemail⟩ := hgood
    obtain ⟨user, huser, hid, huserEmail⟩ := hsettled existing found
    have hsame : user = account :=
      List.inj_on_of_nodup_map h.consistent.emails huser haccount (huserEmail.trans hemail.symm)
    exact absurd (hsame ▸ hid.symm) other
  | @rereadSame error account flag existing before found same =>
    rw [before] at hgood
    exact h.quiet hconsistent rfl rfl rfl
      ⟨⟨existing, found, same⟩, account, hgood.2.1, rfl⟩ (fun hholds => hholds.elim)

omit [DecidableEq C] in
/-- A consistent database in which no account of the logins is inactive, before any of them. -/
lemma RaceInvariant.start (hconsistent : Consistent s)
    (hactive : ∀ user ∈ s.users, ∀ c, user.email = (identities c).email → user.isActive = true)
    (hstart : ∀ c, s.phase c = .start) : RaceInvariant identities s :=
  ⟨hconsistent, hactive, fun c => by rw [hstart c]; trivial,
    fun c c' _ hholds => by rw [hstart c] at hholds; exact hholds.elim⟩

lemma race_run {run : List (C × JsString)} (h : RaceInvariant identities s)
    (hvalid : ValidLogins identities)
    (hsole : Steps (step appName identities) (SoleReader identities) s
      (run.map fun a => .next a.1 a.2)) :
    Throughout (step appName identities) (RaceInvariant identities) s
      (run.map fun a => .next a.1 a.2) := by
  induction run generalizing s with
  | nil => exact h
  | cons a run ih =>
    exact ⟨h, fun t ht => ih (race_step h hvalid hsole.1 ht) (hsole.2 t ht)⟩

lemma filter_key_of_find {mappings : List OidcMapping} {key : JsString × JsString} {m : OidcMapping}
    (hkeys : (mappings.map (·.key)).Nodup)
    (hfind : mappings.find? (fun m => decide (m.key = key)) = some m) :
    mappings.filter (fun m => decide (m.key = key)) = [m] := by
  induction mappings with
  | nil => simp at hfind
  | cons n mappings ih =>
    rw [List.map_cons, List.nodup_cons] at hkeys
    by_cases hn : n.key = key
    · have hrest : mappings.filter (fun m => decide (m.key = key)) = [] := by
        rw [List.filter_eq_nil_iff]
        intro m' hm'
        simp only [decide_eq_true_eq]
        exact fun hkey => hkeys.1 (List.mem_map.mpr ⟨m', hm', hkey.trans hn.symm⟩)
      rw [List.find?_cons_of_pos (by simpa using hn)] at hfind
      rw [List.filter_cons_of_pos (by simpa using hn), hrest, Option.some.inj hfind]
    · rw [List.find?_cons_of_neg (by simpa using hn)] at hfind
      rw [List.filter_cons_of_neg (by simpa using hn), ih hkeys.2 hfind]

/-- As long as no two calls hold one dangling mapping, racing logins with usable claims all
succeed: nothing is thrown, one key gives one account, and its mapping is there once and points
to that account. -/
theorem racing_logins_succeed (hvalid : ValidLogins identities) (hconsistent : Consistent s)
    (hactive : ∀ user ∈ s.users, ∀ c, user.email = (identities c).email → user.isActive = true)
    (hstart : ∀ c, s.phase c = .start) {logins : List (C × JsString)}
    (hsole : Steps (step appName identities) (SoleReader identities) s
      (logins.map fun a => .next a.1 a.2))
    (hrun : run (step appName identities) s (logins.map fun a => .next a.1 a.2) = some t) :
    (∀ c error, t.phase c ≠ .threw error) ∧
      (∀ c c' resolved resolved', (identities c).key = (identities c').key →
        t.phase c = .returned resolved → t.phase c' = .returned resolved' →
        resolved.userId = resolved'.userId) ∧
      ∀ c resolved, t.phase c = .returned resolved →
        ∃ m, t.mappings.filter (fun m => decide (m.key = (identities c).key)) = [m] ∧
          m.userId = resolved.userId ∧ ∃ user ∈ t.users, user.id = resolved.userId := by
  have hlast : RaceInvariant identities t :=
    (race_run (.start hconsistent hactive hstart) hvalid hsole).last hrun
  have hreturned : ∀ c resolved, t.phase c = .returned resolved →
      (∃ m, findMapping t (identities c).key = some m ∧ m.userId = resolved.userId) ∧
        Exists t resolved.userId := by
    intro c resolved hphase
    have hgood := hlast.good c
    rw [hphase] at hgood
    exact hgood
  refine ⟨?_, ?_, ?_⟩
  · intro c error hphase
    have hgood := hlast.good c
    rw [hphase] at hgood
    exact hgood
  · intro c c' resolved resolved' hkey hphase hphase'
    obtain ⟨⟨m, hm, hid⟩, -⟩ := hreturned c resolved hphase
    obtain ⟨⟨m', hm', hid'⟩, -⟩ := hreturned c' resolved' hphase'
    rw [hkey, hm'] at hm
    rw [← hid, ← hid', Option.some.inj hm]
  · intro c resolved hphase
    obtain ⟨⟨m, hm, hid⟩, hexists⟩ := hreturned c resolved hphase
    exact ⟨m, filter_key_of_find hlast.consistent.keys hm, hid, hexists⟩

end Steps

section DanglingRace

lemma racer_valid : ValidLogins racer :=
  ⟨fun _ => rfl, by decide +kernel, fun _ _ _ => rfl⟩

/-- Both logins find the mapping dangling; the second deletion finds nothing and throws. -/
theorem racing_drops_throw :
    ValidLogins racer ∧ Consistent danglingState ∧ (∀ c, danglingState.phase c = .start) ∧
      (run (step (js "app") racer) danglingState
        [.next false [], .next true [], .next false [], .next true [], .next false [],
          .next true []]).map (fun t => t.phase true) = some (.threw .recordNotFound) := by
  exact ⟨racer_valid, danglingState_consistent, fun _ => rfl, by decide +kernel⟩

def emptyState : LoginState Bool := { danglingState with mappings := [] }

lemma emptyState_consistent : Consistent emptyState :=
  ⟨List.nodup_nil, List.nodup_nil, by simp [emptyState, danglingState], by simp [emptyState],
    fun _ _ hid => nomatch hid⟩

theorem racing_logins_succeed_empty :
    ∃ t, run (step (js "app") racer) emptyState
        ([(false, []), (true, []), (false, []), (false, js "user-2")].map
          fun a => .next a.1 a.2) = some t ∧
      ∀ c error, t.phase c ≠ .threw error := by
  obtain ⟨t, hrun⟩ : ∃ t, run (step (js "app") racer) emptyState
      ([(false, []), (true, []), (false, []), (false, js "user-2")].map
        fun a => .next a.1 a.2) = some t := ⟨_, rfl⟩
  refine ⟨t, hrun, (racing_logins_succeed racer_valid emptyState_consistent
    (by simp [emptyState, danglingState]) (fun _ => rfl) ?_ hrun).1⟩
  refine ⟨fun _ m hm => (by cases hm), fun t ht => ?_⟩
  obtain rfl := Option.some.inj ht
  refine ⟨fun _ m hm => (by cases hm), fun t ht => ?_⟩
  obtain rfl := Option.some.inj ht
  refine ⟨fun hstart => (by cases hstart), fun t ht => ?_⟩
  obtain rfl := Option.some.inj ht
  exact ⟨fun hstart => (by cases hstart), fun _ _ => trivial⟩

end DanglingRace

end Appspine.Oidc
