import Appspine.OidcMappings

/-!
# What a login says about itself

The flags a call returns against what was committed for it, in any run of logins, failures and
administrators.
-/
namespace Appspine.Oidc
open JsText Transitions

variable {C : Type} {appName : JsString} {identities : C → VerifiedOidcIdentity}
  {s t : LoginState C}

section Claims

/-- The entry is a transaction committed for this call. -/
def LogEntry.CommittedFor (c : C) : LogEntry C → Prop
  | .provisioned c' _ _ _ => c' = c
  | .linked c' _ _ _ => c' = c
  | _ => False

/-- A new account, its mapping and one `CREATE` record go into the tables together. -/
structure ProvisionCommit (s t : LoginState C) (c : C) (account : User) (m : OidcMapping)
    (audit : AuditRecord) : Prop where
  users : t.users = s.users ++ [account]
  mappings : t.mappings = s.mappings ++ [m]
  audits : t.audit = s.audit ++ [audit]
  log : t.log = s.log ++ [.provisioned c account m audit]
  fresh : ¬ Exists s account.id
  flag : m.linkedFromLegacyEmail = false
  action : audit.action = .create
  mapped : m.userId = account.id ∧ audit.entityId = account.id

/-- A mapping and one record go into the tables together. -/
structure LinkCommit (s t : LoginState C) (c : C) (account : User) (m : OidcMapping)
    (audit : AuditRecord) : Prop where
  users : t.users = s.users
  mappings : t.mappings = s.mappings ++ [m]
  audits : t.audit = s.audit ++ [audit]
  log : t.log = s.log ++ [.linked c account m audit]
  mapped : m.userId = account.id ∧ audit.entityId = account.id

/-- Nothing is committed: no record, no mapping, and only a mapping without an account is dropped. -/
structure NoCommit (s t : LoginState C) : Prop where
  audits : t.audit = s.audit
  mappings : ∀ m ∈ t.mappings, m ∈ s.mappings
  log : ∀ c, ∀ entry ∈ t.log, entry.CommittedFor c → entry ∈ s.log
  dropped : ∀ m ∈ s.mappings, m ∉ t.mappings → ¬ Exists s m.userId

/-- Every step commits one of the two transactions as a whole, or nothing. -/
def AtomicStep (s t : LoginState C) : Prop :=
  (∃ c account m audit, ProvisionCommit s t c account m audit) ∨
    (∃ c account m audit, LinkCommit s t c account m audit) ∨ NoCommit s t

/-- What the returned flags say is what was committed for the call. -/
structure Truthful (s : LoginState C) : Prop where
  /-- `provisioned` tells that the call committed a new account -/
  provisioned : ∀ c, (∃ resolved, s.phase c = .returned resolved ∧ resolved.provisioned = true) ↔
    ∃ account m audit, .provisioned c account m audit ∈ s.log
  /-- `linkedFromLegacyEmail` tells that it linked an account no login had provisioned -/
  linked : ∀ c,
    (∃ resolved, s.phase c = .returned resolved ∧ resolved.linkedFromLegacyEmail = true) ↔
    ∃ account m audit, .linked c account m audit ∈ s.log ∧ m.linkedFromLegacyEmail = true ∧
      account.id ∉ s.provisionedIds
  /-- a call that throws committed nothing -/
  threw : ∀ c error, s.phase c = .threw error → ∀ entry ∈ s.log, ¬ entry.CommittedFor c

/-- A link by email is of an account that no login provisioned, and when it is lost the mapping
does not turn out to have been made by another call, for the same account; and a call deletes
the mapping it read. -/
def LinksLegacy (identities : C → VerifiedOidcIdentity) (s : LoginState C) : Action C → Prop
  | .next c id => DropsWhatItRead identities s (.next c id) ∧
      (∀ account, s.phase c = .linking account true →
        findMapping s (identities c).key = none → account.id ∉ s.provisionedIds) ∧
      ∀ error account, s.phase c = .rereading error account true →
        ∀ m, findMapping s (identities c).key = some m → m.userId ≠ account.id
  | _ => True

end Claims

section Recorded

/-- What was committed for a call that is where it is. -/
def Recorded (s : LoginState C) (c : C) : Phase → Prop
  | .returned resolved =>
    (resolved.provisioned = true ∧ resolved.linkedFromLegacyEmail = false ∧
      (∃ account m audit, .provisioned c account m audit ∈ s.log) ∧
      ∀ account m audit, .linked c account m audit ∉ s.log) ∨
    (resolved.provisioned = false ∧
      (∀ account m audit, .provisioned c account m audit ∉ s.log) ∧
      (∀ account m audit, .linked c account m audit ∈ s.log →
        m.linkedFromLegacyEmail = resolved.linkedFromLegacyEmail) ∧
      (resolved.linkedFromLegacyEmail = true → ∃ account m audit,
        .linked c account m audit ∈ s.log ∧ m.linkedFromLegacyEmail = true ∧
          account.id ∉ s.provisionedIds))
  | _ => ∀ entry ∈ s.log, ¬ entry.CommittedFor c

/-- Besides, the accounts of links and of logins that provisioned are of issued ids. -/
structure ProvenanceInvariant (identities : C → VerifiedOidcIdentity) (s : LoginState C) : Prop where
  login : LoginInvariant identities s
  recorded : ∀ c, Recorded s c (s.phase c)
  linkedIds : ∀ c account m audit, .linked c account m audit ∈ s.log → account.id ∈ s.issued

lemma truthful_of_recorded (h : ∀ c, Recorded s c (s.phase c)) : Truthful s := by
  refine ⟨?_, ?_, ?_⟩
  · intro c
    have hc := h c
    constructor
    · rintro ⟨resolved, hphase, hprovisioned⟩
      rw [hphase] at hc
      rcases hc with ⟨-, -, hlog, -⟩ | ⟨hfalse, -⟩
      · exact hlog
      · rw [hprovisioned] at hfalse
        cases hfalse
    · rintro ⟨account, m, audit, hentry⟩
      cases hphase : s.phase c with
      | returned resolved =>
        rw [hphase] at hc
        rcases hc with ⟨hprovisioned, -⟩ | ⟨-, hnone, -⟩
        · exact ⟨resolved, rfl, hprovisioned⟩
        · exact absurd hentry (hnone account m audit)
      | _ =>
        rw [hphase] at hc
        exact absurd rfl (hc _ hentry)
  · intro c
    have hc := h c
    constructor
    · rintro ⟨resolved, hphase, hlinked⟩
      rw [hphase] at hc
      rcases hc with ⟨-, hfalse, -⟩ | ⟨-, -, -, hlog⟩
      · rw [hlinked] at hfalse
        cases hfalse
      · exact hlog hlinked
    · rintro ⟨account, m, audit, hentry, hflag, -⟩
      cases hphase : s.phase c with
      | returned resolved =>
        rw [hphase] at hc
        rcases hc with ⟨-, -, -, hnone⟩ | ⟨-, -, hflags, -⟩
        · exact absurd hentry (hnone account m audit)
        · exact ⟨resolved, rfl, (hflags account m audit hentry).symm.trans hflag⟩
      | _ =>
        rw [hphase] at hc
        exact absurd rfl (hc _ hentry)
  · intro c error hphase
    have hc := h c
    rw [hphase] at hc
    exact hc

/-- The journal of `t` holds the commits of the call that `s` held, and no account of a link was
provisioned since. -/
structure SameCommits (s t : LoginState C) (c : C) : Prop where
  log : ∀ entry, entry.CommittedFor c → (entry ∈ t.log ↔ entry ∈ s.log)
  provisioned : ∀ id ∈ s.issued, id ∉ s.provisionedIds → id ∉ t.provisionedIds

lemma SameCommits.provision_iff {c : C} (h : SameCommits s t c) {account : User} {m : OidcMapping}
    {audit : AuditRecord} : .provisioned c account m audit ∈ t.log ↔
      LogEntry.provisioned c account m audit ∈ s.log :=
  h.log (.provisioned c account m audit) rfl

lemma SameCommits.link_iff {c : C} (h : SameCommits s t c) {account : User} {m : OidcMapping}
    {audit : AuditRecord} : .linked c account m audit ∈ t.log ↔
      LogEntry.linked c account m audit ∈ s.log :=
  h.log (.linked c account m audit) rfl

lemma Recorded.keep {c : C} {phase : Phase} (hsame : SameCommits s t c)
    (hids : ∀ account m audit, .linked c account m audit ∈ s.log → account.id ∈ s.issued)
    (h : Recorded s c phase) : Recorded t c phase := by
  have hopen : (∀ entry ∈ s.log, ¬ entry.CommittedFor c) → ∀ entry ∈ t.log, ¬ entry.CommittedFor c :=
    fun hnone entry hentry hc => hnone entry ((hsame.log entry hc).mp hentry) hc
  cases phase with
  | returned resolved =>
    rcases h with ⟨hp, hl, ⟨account, m, audit, hlog⟩, hnone⟩ | ⟨hp, hnone, hflags, hlinked⟩
    · exact Or.inl ⟨hp, hl, ⟨account, m, audit, hsame.provision_iff.mpr hlog⟩,
        fun account m audit hentry => hnone account m audit (hsame.link_iff.mp hentry)⟩
    · refine Or.inr ⟨hp, fun account m audit hentry =>
        hnone account m audit (hsame.provision_iff.mp hentry), fun account m audit hentry =>
        hflags account m audit (hsame.link_iff.mp hentry), fun hflag => ?_⟩
      obtain ⟨account, m, audit, hlog, hm, hid⟩ := hlinked hflag
      exact ⟨account, m, audit, hsame.link_iff.mpr hlog, hm,
        hsame.provisioned _ (hids account m audit hlog) hid⟩
  | _ => exact hopen h

/-- Any entry but a commit for this call keeps its commits. -/
lemma sameCommits_append {c : C} {entry : LogEntry C} (ht : t.log = s.log ++ [entry])
    (hentry : ¬ entry.CommittedFor c)
    (hp : ∀ id ∈ s.issued, id ∉ s.provisionedIds → id ∉ t.provisionedIds) : SameCommits s t c := by
  refine ⟨fun e he => ?_, hp⟩
  rw [ht, List.mem_append, List.mem_singleton]
  constructor
  · rintro (hold | rfl)
    · exact hold
    · exact absurd he hentry
  · exact Or.inl

lemma sameCommits_of_eq {c : C} (hl : t.log = s.log) (hp : t.provisionedIds = s.provisionedIds) :
    SameCommits s t c :=
  ⟨fun e _ => by rw [hl], fun id _ hid => by rwa [hp]⟩

/-- A phase in which nothing was committed for the call, or a return that says so. -/
lemma recorded_of_none {c : C} {phase : Phase} (hnone : ∀ entry ∈ s.log, ¬ entry.CommittedFor c)
    (hphase : ∀ resolved, phase = .returned resolved →
      resolved.provisioned = false ∧ resolved.linkedFromLegacyEmail = false) :
    Recorded s c phase := by
  cases phase with
  | returned resolved =>
    obtain ⟨hp, hl⟩ := hphase resolved rfl
    refine Or.inr ⟨hp, fun account m audit hentry => hnone _ hentry rfl,
      fun account m audit hentry => absurd rfl (hnone _ hentry), fun hflag => ?_⟩
    rw [hl] at hflag
    cases hflag
  | _ => exact hnone

end Recorded

section Steps

variable [DecidableEq C]

/-- What a statement of a call adds to the journal, if it adds anything, is of that call. -/
lemma sameCommits_next {c c' : C} (hc : c' ≠ c)
    (ht : NextStep appName (identities c) s c t) : SameCommits s t c' := by
  have hkeep : ∀ id ∈ s.issued, id ∉ s.provisionedIds → id ∉ s.provisionedIds := fun _ _ h => h
  cases ht with
  | read => exact sameCommits_append rfl (fun hfalse => hfalse) hkeep
  | drop => exact sameCommits_append rfl (fun hfalse => hfalse) hkeep
  | legacy => exact sameCommits_append rfl (fun hfalse => hfalse) hkeep
  | recovered => exact sameCommits_append rfl (fun hfalse => hfalse) hkeep
  | linked => exact sameCommits_append rfl (fun heq => hc heq.symm) hkeep
  | @provisioned newId before email mapping fresh =>
    refine sameCommits_append rfl (fun heq => hc heq.symm) fun id hid hold hnew => ?_
    rcases List.mem_append.mp hnew with hmem | hmem
    · exact hold hmem
    · exact fresh (List.mem_singleton.mp hmem ▸ hid)
  | _ => exact sameCommits_of_eq rfl rfl

omit [DecidableEq C] in
/-- Nothing is committed for a call before it returns. -/
lemma none_of_open {c : C} (h : ProvenanceInvariant identities s)
    (hopen : ∀ resolved, s.phase c ≠ .returned resolved) :
    ∀ entry ∈ s.log, ¬ entry.CommittedFor c := by
  have hc := h.recorded c
  cases hphase : s.phase c with
  | returned resolved => exact absurd hphase (hopen resolved)
  | _ =>
    rw [hphase] at hc
    exact hc

omit [DecidableEq C] in
/-- A statement that only tells the call something records no commit for it. -/
lemma recorded_of_append {c : C} {entry : LogEntry C} (h : ProvenanceInvariant identities s)
    (hopen : ∀ resolved, s.phase c ≠ .returned resolved) (ht : t.log = s.log ++ [entry])
    (hentry : ¬ entry.CommittedFor c) (hphase : ∀ resolved, t.phase c ≠ .returned resolved) :
    Recorded t c (t.phase c) := by
  refine recorded_of_none ?_ fun resolved hr => absurd hr (hphase resolved)
  intro e he
  rw [ht] at he
  rcases List.mem_append.mp he with hold | hnew
  · exact none_of_open h hopen e hold
  · rwa [List.mem_singleton.mp hnew]

lemma withoutMapping_open {identity : VerifiedOidcIdentity} (resolved : ResolvedOidcIdentity) :
    withoutMapping identity ≠ .returned resolved := by
  unfold withoutMapping
  split_ifs <;> simp

lemma linkIfActive_open {account : User} {flag : Bool} (resolved : ResolvedOidcIdentity) :
    linkIfActive account flag ≠ .returned resolved := by
  unfold linkIfActive
  split_ifs <;> simp

/-- What is recorded of the call of a step afterwards. -/
lemma recorded_next {c : C} {newId : JsString} (h : ProvenanceInvariant identities s)
    (hlinks : LinksLegacy identities s (.next c newId))
    (ht : NextStep appName (identities c) s c t) : Recorded t c (t.phase c) := by
  have hself : ∀ phase, (s.setPhase c phase).phase c = phase := setPhase_self s c
  have hquiet : ∀ {phase : Phase}, (∀ entry ∈ s.log, ¬ entry.CommittedFor c) →
      (∀ resolved, phase = .returned resolved →
        resolved.provisioned = false ∧ resolved.linkedFromLegacyEmail = false) →
      Recorded (s.setPhase c phase) c ((s.setPhase c phase).phase c) := by
    intro phase hnone hphase
    rw [hself]
    exact recorded_of_none hnone hphase
  cases ht with
  | missing before => exact hquiet (none_of_open h (by simp [before])) (by simp)
  | read before =>
    exact recorded_of_append h (by simp [before]) rfl (fun hfalse => hfalse)
      fun _ => (hself _).trans_ne (by simp)
  | unmapped before =>
    exact hquiet (none_of_open h (by simp [before])) fun _ hr => absurd hr (withoutMapping_open _)
  | known before =>
    refine hquiet (none_of_open h (by simp [before])) fun resolved hr => ?_
    rw [← Phase.returned.inj hr]
    exact ⟨rfl, rfl⟩
  | unknown before => exact hquiet (none_of_open h (by simp [before])) (by simp)
  | dropMissing before => exact hquiet (none_of_open h (by simp [before])) (by simp)
  | drop before =>
    exact recorded_of_append h (by simp [before]) rfl (fun hfalse => hfalse)
      fun _ => (hself _).trans_ne (withoutMapping_open _)
  | legacy before =>
    exact recorded_of_append h (by simp [before]) rfl (fun hfalse => hfalse)
      fun _ => (hself _).trans_ne (linkIfActive_open _)
  | newcomer before => exact hquiet (none_of_open h (by simp [before])) (by simp)
  | lostProvision before => exact hquiet (none_of_open h (by simp [before])) (by simp)
  | provisioned before email mapping fresh =>
    have hnone := none_of_open h (by simp [before] : ∀ resolved, s.phase c ≠ .returned resolved)
    show Recorded _ c ((s.setPhase c _).phase c)
    rw [hself]
    refine Or.inl ⟨rfl, rfl, ⟨_, _, _, List.mem_append_right _ (List.mem_singleton.mpr rfl)⟩, ?_⟩
    intro account m audit hentry
    rcases List.mem_append.mp hentry with hold | hnew
    · exact hnone _ hold rfl
    · cases List.mem_singleton.mp hnew
  | unrecovered before => exact hquiet (none_of_open h (by simp [before])) (by simp)
  | recovered before =>
    exact recorded_of_append h (by simp [before]) rfl (fun hfalse => hfalse)
      fun _ => (hself _).trans_ne (linkIfActive_open _)
  | lostLink before => exact hquiet (none_of_open h (by simp [before])) (by simp)
  | @linked account flag before mapping =>
    have hnone := none_of_open h (by simp [before] : ∀ resolved, s.phase c ≠ .returned resolved)
    show Recorded _ c ((s.setPhase c _).phase c)
    rw [hself]
    refine Or.inr ⟨rfl, ?_, ?_, ?_⟩
    · intro account' m audit hentry
      rcases List.mem_append.mp hentry with hold | hnew
      · exact hnone _ hold rfl
      · cases List.mem_singleton.mp hnew
    · intro account' m audit hentry
      rcases List.mem_append.mp hentry with hold | hnew
      · exact absurd rfl (hnone _ hold)
      · cases List.mem_singleton.mp hnew
        rfl
    · intro hflag
      obtain rfl : flag = true := hflag
      exact ⟨account, _, _, List.mem_append_right _ (List.mem_singleton.mpr rfl), rfl,
        hlinks.2.1 account before mapping⟩
  | rereadMissing before => exact hquiet (none_of_open h (by simp [before])) (by simp)
  | rereadOther before => exact hquiet (none_of_open h (by simp [before])) (by simp)
  | @rereadSame error account flag existing before found same =>
    refine hquiet (none_of_open h (by simp [before])) fun resolved hr => ?_
    obtain rfl := Phase.returned.inj hr
    cases flag with
    | false => exact ⟨rfl, rfl⟩
    | true => exact absurd same (hlinks.2.2 error account before existing found)

lemma linkedIds_next {c : C} (h : ProvenanceInvariant identities s)
    (ht : NextStep appName (identities c) s c t) :
    ∀ c' account m audit, .linked c' account m audit ∈ t.log → account.id ∈ t.issued := by
  have hids := h.linkedIds
  cases ht with
  | read => exact fun c' account m audit he => hids c' account m audit (mem_append_of_ne he (by simp))
  | drop => exact fun c' account m audit he => hids c' account m audit (mem_append_of_ne he (by simp))
  | legacy => exact fun c' account m audit he => hids c' account m audit (mem_append_of_ne he (by simp))
  | recovered => exact fun c' account m audit he => hids c' account m audit (mem_append_of_ne he (by simp))
  | provisioned =>
    exact fun c' account m audit he =>
      List.mem_append_left _ (hids c' account m audit (mem_append_of_ne he (by simp)))
  | linked before =>
    intro c' account' m audit he
    rcases List.mem_append.mp he with hold | hnew
    · exact hids c' account' m audit hold
    · cases List.mem_singleton.mp hnew
      exact h.login.consistent.heldIds c _ (by simp [before, Phase.ids])
  | _ => exact hids

lemma provenance_step {a : Action C} (h : ProvenanceInvariant identities s)
    (hlinks : LinksLegacy identities s a) (ht : step appName identities s a = some t) :
    ProvenanceInvariant identities t := by
  have hlogin := loginInvariant_step h.login ht
  have hkept : ∀ c', SameCommits s t c' → t.phase c' = s.phase c' → Recorded t c' (t.phase c') :=
    fun c' hsame hphase => by
      rw [hphase]
      exact (h.recorded c').keep hsame (h.linkedIds c')
  cases a with
  | next c id =>
    have hnext := next_cases ht
    refine ⟨hlogin, fun c' => ?_, linkedIds_next h hnext⟩
    by_cases hc : c' = c
    · subst hc
      exact recorded_next h hlinks hnext
    · exact hkept c' (sameCommits_next hc hnext) (phase_next_of_ne hc hnext)
  | fail c error =>
    obtain ⟨phase, hfailed, rfl⟩ := Option.map_eq_some_iff.mp ht
    refine ⟨hlogin, fun c' => ?_, h.linkedIds⟩
    by_cases hc : c' = c
    · subst hc
      have hopen : ∀ resolved, s.phase c' ≠ .returned resolved := by
        intro resolved hphase
        rw [hphase] at hfailed
        cases hfailed
      have hphase : ∀ resolved, phase ≠ .returned resolved := by
        intro resolved heq
        rw [heq] at hfailed
        cases hs : s.phase c' <;> simp [hs, failed] at hfailed
      have hnone := none_of_open h hopen
      rw [setPhase_self]
      exact recorded_of_none hnone fun resolved hr => absurd hr (hphase resolved)
    · exact hkept c' (sameCommits_of_eq rfl rfl) (setPhase_of_ne hc _)
  | createUser user =>
    simp only [step] at ht
    split_ifs at ht
    obtain rfl := Option.some.inj ht
    exact ⟨hlogin, fun c' => hkept c' (sameCommits_of_eq rfl rfl) rfl,
      fun c' account m audit he => List.mem_append_left _ (h.linkedIds c' account m audit he)⟩
  | deactivateUser id =>
    obtain rfl := Option.some.inj ht
    exact ⟨hlogin, fun c' => hkept c' (sameCommits_of_eq rfl rfl) rfl, h.linkedIds⟩
  | deleteUser id =>
    obtain rfl := Option.some.inj ht
    exact ⟨hlogin, fun c' => hkept c' (sameCommits_of_eq rfl rfl) rfl, h.linkedIds⟩

omit [DecidableEq C] in
lemma noCommit_of_same (hm : t.mappings = s.mappings) (ha : t.audit = s.audit)
    (hl : ∀ c, ∀ entry ∈ t.log, entry.CommittedFor c → entry ∈ s.log) : NoCommit s t :=
  ⟨ha, fun _ hmem => hm ▸ hmem, hl, fun _ hmem hgone => absurd (hm ▸ hmem) hgone⟩

omit [DecidableEq C] in
lemma mem_of_committed {c : C} {entry new : LogEntry C} {log : List (LogEntry C)}
    (hnew : ∀ c, ¬ new.CommittedFor c) (he : entry ∈ log ++ [new]) (hc : entry.CommittedFor c) :
    entry ∈ log := by
  refine mem_append_of_ne he ?_
  rintro rfl
  exact hnew c hc

lemma atomicStep_next {c : C} {newId : JsString} (h : LoginInvariant identities s)
    (hdrops : DropsWhatItRead identities s (.next c newId))
    (ht : NextStep appName (identities c) s c t) : AtomicStep s t := by
  have hquiet : ∀ {phase : Phase}, AtomicStep s (s.setPhase c phase) := fun {_} =>
    Or.inr (Or.inr (noCommit_of_same rfl rfl fun _ _ he _ => he))
  have hrecord : ∀ {phase : Phase} {entry : LogEntry C}, (∀ c, ¬ entry.CommittedFor c) →
      AtomicStep s ((s.setPhase c phase).record entry) := fun {_ _} hentry =>
    Or.inr (Or.inr (noCommit_of_same rfl rfl fun _ _ he hc => mem_of_committed hentry he hc))
  cases ht with
  | read => exact hrecord (fun _ hfalse => hfalse)
  | legacy => exact hrecord (fun _ hfalse => hfalse)
  | recovered => exact hrecord (fun _ hfalse => hfalse)
  | drop before found =>
    have hstep : MappingStep identities s (afterDrop (identities c) s c _) (.next c newId) :=
      mappingStep_drop h before found hdrops
    refine Or.inr (Or.inr ⟨rfl, fun m hm => (List.mem_filter.mp hm).1,
      fun c' _ he hc => @mem_of_committed _ c' _ (.dropped c _) _ (fun _ hfalse => hfalse) he hc, ?_⟩)
    intro m hm hgone
    refine hstep.removed m hm fun m' hm' hkey => ?_
    rw [eq_of_key h.consistent hm (List.mem_filter.mp hm').1 hkey] at hm'
    exact hgone hm'
  | @provisioned id before email mapping fresh =>
    refine Or.inl ⟨c, _, _, _, rfl, rfl, rfl, rfl, ?_, rfl, rfl, rfl, rfl⟩
    intro ⟨user, huser, hid⟩
    have hid' : user.id = id := hid
    exact fresh (hid' ▸ h.consistent.userIds user huser)
  | linked => exact Or.inr (Or.inl ⟨c, _, _, _, rfl, rfl, rfl, rfl, rfl, rfl⟩)
  | _ => exact hquiet

lemma atomicStep_step {a : Action C} (h : LoginInvariant identities s)
    (hlinks : LinksLegacy identities s a) (ht : step appName identities s a = some t) :
    AtomicStep s t := by
  cases a with
  | next c id => exact atomicStep_next h hlinks.1 (next_cases ht)
  | fail c error =>
    obtain ⟨phase, -, rfl⟩ := Option.map_eq_some_iff.mp ht
    exact Or.inr (Or.inr (noCommit_of_same rfl rfl fun _ _ he _ => he))
  | createUser user =>
    simp only [step] at ht
    split_ifs at ht
    obtain rfl := Option.some.inj ht
    exact Or.inr (Or.inr (noCommit_of_same rfl rfl fun _ _ he _ => he))
  | deactivateUser id =>
    obtain rfl := Option.some.inj ht
    exact Or.inr (Or.inr (noCommit_of_same rfl rfl fun _ _ he _ => he))
  | deleteUser id =>
    obtain rfl := Option.some.inj ht
    exact Or.inr (Or.inr (noCommit_of_same rfl rfl fun _ _ he _ => he))

/-- In a run whose links by email are of legacy accounts and not lost to another link of the same
account, the flags of every call say what was committed for it in every state, and every step
commits account, mapping and record together or nothing. -/
theorem logins_truthful (hconsistent : Consistent s) (hstart : ∀ c, s.phase c = .start)
    (hlog : s.log = []) {actions : List (Action C)}
    (hlinks : Steps (step appName identities) (LinksLegacy identities) s actions) :
    Throughout (step appName identities) Truthful s actions ∧
      Steps (step appName identities)
        (fun s a => ∀ t, step appName identities s a = some t → AtomicStep s t) s actions := by
  have hinvariant : ProvenanceInvariant identities s := by
    refine ⟨⟨hconsistent, fun c => by rw [hstart c]; trivial⟩, fun c => ?_, ?_⟩
    · rw [hstart c]
      exact recorded_of_none (by simp [hlog]) (fun _ hr => nomatch hr)
    · simp [hlog]
  clear hconsistent hstart hlog
  induction actions generalizing s with
  | nil => exact ⟨truthful_of_recorded hinvariant.recorded, trivial⟩
  | cons a actions ih =>
    have hrest : ∀ t, step appName identities s a = some t → _ :=
      fun t ht => ih (hlinks.2 t ht) (provenance_step hinvariant hlinks.1 ht)
    exact ⟨⟨truthful_of_recorded hinvariant.recorded, fun t ht => (hrest t ht).1⟩,
      fun t ht => atomicStep_step hinvariant.login hlinks.1 ht, fun t ht => (hrest t ht).2⟩

end Steps

section LostLink

/-- The account was there before any login. -/
def legacyState : LoginState Bool :=
  { danglingState with
    users := [{ id := js "user-1", email := js "race@example.com" }]
    mappings := [] }

lemma legacyState_consistent : Consistent legacyState := by
  refine ⟨by simp [legacyState], List.nodup_nil, ?_, by simp [legacyState], fun _ _ hid => nomatch hid⟩
  simp [legacyState, danglingState]

def LogEntry.linker : LogEntry C → Option C
  | .linked c _ _ _ => some c
  | _ => none

/-- Both logins find the legacy account; the one that loses the mapping says it linked it too. -/
theorem lost_link_claims_legacy :
    ∃ t, run (step (js "app") racer) legacyState
        [.next false [], .next true [], .next false [], .next true [], .next false [],
          .next true [], .next true []] = some t ∧ ¬ Truthful t := by
  have hrun : (run (step (js "app") racer) legacyState
      [.next false [], .next true [], .next false [], .next true [], .next false [],
        .next true [], .next true []]).map (fun t => (t.phase true, t.log.map LogEntry.linker)) =
      some (.returned ⟨js "user-1", true, false⟩, [none, none, some false]) := by decide +kernel
  obtain ⟨t, ht, hend⟩ := Option.map_eq_some_iff.mp hrun
  obtain ⟨hphase, hlog⟩ := Prod.mk.inj hend
  refine ⟨t, ht, fun htruthful => ?_⟩
  obtain ⟨account, m, audit, hentry, -⟩ := (htruthful.linked true).mp ⟨_, hphase, rfl⟩
  have hlinker : some true ∈ t.log.map LogEntry.linker := List.mem_map_of_mem hentry
  rw [hlog] at hlinker
  simp at hlinker

theorem logins_truthful_legacy :
    Throughout (step (js "app") racer) Truthful legacyState
      [.next false [], .next false [], .next false []] := by
  refine (logins_truthful legacyState_consistent (fun _ => rfl) rfl ?_).1
  refine ⟨⟨fun _ hphase => (nomatch hphase), fun _ hphase => (nomatch hphase),
    fun _ _ hphase => (nomatch hphase)⟩, fun t ht => ?_⟩
  obtain rfl := Option.some.inj ht
  refine ⟨⟨fun _ hphase => (nomatch hphase), fun _ hphase => (nomatch hphase),
    fun _ _ hphase => (nomatch hphase)⟩, fun t ht => ?_⟩
  obtain rfl := Option.some.inj ht
  refine ⟨⟨fun _ hphase => (nomatch hphase), fun _ _ _ => List.not_mem_nil,
    fun _ _ hphase => (nomatch hphase)⟩, fun _ _ => trivial⟩

end LostLink

end Appspine.Oidc
