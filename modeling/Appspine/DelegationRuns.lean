import Appspine.DelegationGate

/-!
# Runs of the delegation service

What reaches the provider, what calls resolve with, and when circuits keep calls away, in any
interleaving of calls and timers.
-/
namespace Appspine.OidcDelegation
open JsText JsonText InsertionMap RateLimits SecurityLogs

variable {N : Type} [JsonNumber N] {base64urlText : JsString → JsString}
  {options : OidcDelegationModuleOptions} {C : Type} [DecidableEq C] {s : ServiceState C}

section Traces

/-- Every event of a list stands in a relation to the events before it. -/
def Respects {E : Type} (ok : List E → E → Prop) (events : List E) : Prop :=
  ∀ i e, events[i]? = some e → ok (events.take i) e

lemma respects_nil {E : Type} {ok : List E → E → Prop} : Respects ok [] := by
  intro i e h
  simp at h

lemma Respects.snoc {E : Type} {ok : List E → E → Prop} {events : List E} {e : E}
    (h : Respects ok events) (he : ok events e) : Respects ok (events ++ [e]) := by
  intro i e' hi
  by_cases hlt : i < events.length
  · rw [List.getElem?_append_left hlt] at hi
    rw [List.take_append_of_le_length hlt.le]
    exact h i e' hi
  · have hlen := (List.getElem?_eq_some_iff.mp hi).1
    rw [List.length_append, List.length_singleton] at hlen
    obtain rfl : i = events.length := by omega
    rw [List.getElem?_append_right le_rfl, Nat.sub_self] at hi
    obtain rfl : e = e' := by simpa using hi
    simpa using he

/-- The failures of a policy since its circuit was last reset, after one more event. -/
def afterEvent (policyName : JsString) (failures : List ℕ) : TraceEvent C → List ℕ
  | .sent _ _ _ _ => failures
  | .cleared name _ => if name = policyName then [] else failures
  | .failed name now => if name = policyName then failures ++ [now] else failures
  | .succeeded name _ => if name = policyName then [] else failures

/-- The times at which calls of a policy found the provider unavailable since the later of the
last success and the last clearing of its circuit. -/
def failuresSince (policyName : JsString) (events : List (TraceEvent C)) : List ℕ :=
  events.foldl (afterEvent policyName) []

omit [DecidableEq C] in
@[simp] lemma failuresSince_snoc (policyName : JsString) (events : List (TraceEvent C))
    (e : TraceEvent C) : failuresSince policyName (events ++ [e]) =
      afterEvent policyName (failuresSince policyName events) e := by
  simp [failuresSince]

/-- The threshold is reached, and the cooldown after the latest failure is not over. -/
def Suspended (failures : List ℕ) (now : ℕ) : Prop :=
  failures.length ≥ DEFAULT_FAILURE_THRESHOLD ∧
    ∃ t ∈ failures.getLast?, now < t + DEFAULT_COOLDOWN_MS

/-- The circuit that a list of failures leads to. -/
def circuitOf (failures : List ℕ) : Option Circuit :=
  failures.getLast?.map fun t => ⟨failures.length,
    if failures.length ≥ DEFAULT_FAILURE_THRESHOLD then t + DEFAULT_COOLDOWN_MS else 0⟩

lemma circuitOf_snoc (failures : List ℕ) (now : ℕ) :
    circuitOf (failures ++ [now]) = some ⟨failures.length + 1,
      if failures.length + 1 ≥ DEFAULT_FAILURE_THRESHOLD then now + DEFAULT_COOLDOWN_MS
        else 0⟩ := by
  simp [circuitOf]

lemma consecutiveFailures_circuitOf (failures : List ℕ) :
    ((circuitOf failures).map Circuit.consecutiveFailures).getD 0 = failures.length := by
  rcases List.eq_nil_or_concat failures with rfl | ⟨init, last, rfl⟩
  · rfl
  · simp [circuitOf]

/-- The circuit is open exactly while calls are suspended. -/
lemma suspended_iff {failures : List ℕ} {now : ℕ} :
    Suspended failures now ↔
      ∃ circuit, circuitOf failures = some circuit ∧ now < circuit.circuitOpenUntil := by
  unfold Suspended circuitOf
  cases failures.getLast? with
  | none => simp
  | some t => by_cases h : failures.length ≥ DEFAULT_FAILURE_THRESHOLD <;> simp [h]

end Traces

section Circuits

variable {circuits : Circuits} {policyName name : JsString} {now : ℕ}

lemma get_delete {α : Type} (m : Entries JsString α) (k k' : JsString) :
    get (delete m k) k' = if k' = k then none else get m k' := by
  by_cases h : k' = k
  · rw [if_pos h, get_eq_none]
    intro hmem
    obtain ⟨e, he, hkey⟩ := List.mem_map.mp hmem
    exact absurd (hkey.trans h) (of_decide_eq_true (List.mem_filter.mp he).2)
  · rw [if_neg h]
    exact get_filter_key (fun key => decide (key ≠ k)) m (decide_eq_true h)

/-- A check drops the circuit of its own policy, when that is expired. -/
lemma get_isCircuitOpen (circuits : Circuits) (policyName name : JsString) (now : ℕ) :
    get (isCircuitOpen circuits policyName now).1 name =
      if isExpired circuits policyName now = true ∧ name = policyName then none
      else get circuits name := by
  unfold isCircuitOpen isExpired
  cases get circuits policyName with
  | none => simp
  | some circuit =>
    by_cases hopen : now < circuit.circuitOpenUntil
    · simp [hopen]
    · by_cases hpos : circuit.circuitOpenUntil > 0
      · simp [hopen, hpos, get_delete]
      · simp [hopen, hpos]

lemma isExpired_iff : isExpired circuits policyName now = true ↔
    ∃ circuit, get circuits policyName = some circuit ∧ circuit.circuitOpenUntil > 0 ∧
      ¬ now < circuit.circuitOpenUntil := by
  unfold isExpired
  cases get circuits policyName <;> simp

lemma isCircuitOpen_snd : (isCircuitOpen circuits policyName now).2 = true ↔
    ∃ circuit, get circuits policyName = some circuit ∧ now < circuit.circuitOpenUntil := by
  unfold isCircuitOpen
  cases get circuits policyName with
  | none => simp
  | some circuit =>
    simp only
    split_ifs with hopen <;> simp [hopen]

lemma circuits_checkAndConsume (limit : ℕ) (throttle : OutboundThrottle) (policyName : JsString)
    (now : ℕ) : (checkAndConsume limit throttle policyName now).1.circuits =
      (isCircuitOpen throttle.circuits policyName now).1 := by
  unfold checkAndConsume
  simp only
  split_ifs <;> rfl

lemma get_limiter_checkAndConsume (limit : ℕ) (throttle : OutboundThrottle)
    (h : name ≠ policyName) : get (checkAndConsume limit throttle policyName now).1.limiter name =
      get throttle.limiter name := by
  have hconsume : get (tryConsume limit throttle.limiter policyName now).1 name =
      get throttle.limiter name := by
    rw [(charges_tryConsume limit).eq, get_set, if_neg h]
  unfold checkAndConsume
  simp only
  split_ifs
  · rfl
  · exact hconsume
  · exact hconsume

lemma not_open_of_checked {limit : ℕ} {throttle : OutboundThrottle}
    (h : (checkAndConsume limit throttle policyName now).2 = none) :
    (isCircuitOpen throttle.circuits policyName now).2 = false := by
  unfold checkAndConsume at h
  by_contra hopen
  rw [Bool.not_eq_false] at hopen
  simp [hopen] at h

end Circuits

section Steps

/-- A call whose provider was called. -/
def sendOut (s : ServiceState C) (call : C) (policyName : JsString)
    (policy : DelegationPolicyConfig) (params : ProviderParams) (now : ℕ) : ServiceState C :=
  { s with
    phase := Function.update s.phase call (.waiting now policyName policy)
    history := s.history ++ [.sent call policyName params now] }

/-- A call whose provider was found unavailable. -/
def failOver (s : ServiceState C) (policyName : JsString) (now : ℕ) : ServiceState C :=
  { s with
    throttle := recordProviderFailure DEFAULT_FAILURE_THRESHOLD DEFAULT_COOLDOWN_MS s.throttle
      policyName now
    history := s.history ++ [.failed policyName now] }

/-- A call that resolves. -/
def resolve (s : ServiceState C) (call : C) (startedAt : ℕ) (policyName : JsString)
    (token : DelegatedAccessToken) (now : ℕ) : ServiceState C :=
  { s with
    throttle := recordSuccess s.throttle policyName
    lines := s.lines ++ [logEvent policyName (js "success") (now - startedAt)]
    phase := Function.update s.phase call (.resolved policyName token)
    history := s.history ++ [.succeeded policyName now] }

variable (N base64urlText options) in
/-- All that an admission can do. -/
lemma admit_cases (s : ServiceState C) (call : C) (input : ExchangeInput) (now : ℕ) :
    (∃ policyForLog error,
      admitCall N base64urlText options s call input now = reject s call now policyForLog error now) ∨
    ∃ policyName policy token, input.policy = some policyName ∧
      get options.policies policyName = some policy ∧
      ownToken N base64urlText options input.subjectToken = some token ∧
      ((∃ error, (checkThrottle options s policyName now).2 = some error ∧
        admitCall N base64urlText options s call input now =
          reject (checkThrottle options s policyName now).1 call now policyName error now) ∨
      ((checkThrottle options s policyName now).2 = none ∧
        admitCall N base64urlText options s call input now =
          sendOut (checkThrottle options s policyName now).1 call policyName policy
            ⟨token, policy.targetAudience, policy.requestedScopes⟩ now)) := by
  unfold admitCall
  cases hname : input.policy with
  | none => exact .inl ⟨_, _, rfl⟩
  | some policyName =>
    simp only
    cases hpolicy : get options.policies policyName with
    | none => exact .inl ⟨_, _, rfl⟩
    | some policy =>
      simp only
      cases htoken : ownToken N base64urlText options input.subjectToken with
      | none => exact .inl ⟨_, _, rfl⟩
      | some token =>
        refine .inr ⟨policyName, policy, token, rfl, hpolicy, rfl, ?_⟩
        simp only
        cases hcheck : checkThrottle options s policyName now with
        | mk checked error =>
          cases error with
          | some error => exact .inl ⟨error, rfl, rfl⟩
          | none => exact .inr ⟨rfl, rfl⟩

/-- All that a completion can do. -/
lemma complete_cases (s : ServiceState C) (call : C) (outcome : ProviderOutcome) (now : ℕ) :
    ((∀ startedAt policyName policy, s.phase call ≠ .waiting startedAt policyName policy) ∧
      complete s call outcome now = s) ∨
    ∃ startedAt policyName policy, s.phase call = .waiting startedAt policyName policy ∧
      ((∃ error, complete s call outcome now =
        reject (failOver s policyName now) call startedAt policyName error now) ∨
      (∃ error, complete s call outcome now =
        reject s call startedAt policyName error now) ∨
      ∃ result token, assertProviderResult result policy.maxExpiresInSeconds = .ok token ∧
        complete s call outcome now = resolve s call startedAt policyName token now) := by
  unfold complete
  cases hphase : s.phase call with
  | idle => exact .inl ⟨by simp, rfl⟩
  | resolved name token => exact .inl ⟨by simp, rfl⟩
  | rejected error => exact .inl ⟨by simp, rfl⟩
  | waiting startedAt policyName policy =>
    refine .inr ⟨startedAt, policyName, policy, rfl, ?_⟩
    cases outcome with
    | threw error =>
      simp only
      split_ifs
      · exact .inl ⟨_, rfl⟩
      · exact .inr (.inl ⟨_, rfl⟩)
    | returned result =>
      simp only
      cases hresult : assertProviderResult result policy.maxExpiresInSeconds with
      | error error => exact .inr (.inl ⟨_, rfl⟩)
      | ok token => exact .inr (.inr ⟨result, token, hresult, rfl⟩)

end Steps

section Invariant

variable (N base64urlText options)

/-- A call of the provider as the policy has it, with a token of the source client. -/
def Gated (policyName : JsString) (params : ProviderParams) : Prop :=
  (∃ policy, get options.policies policyName = some policy ∧
    params.targetAudience = policy.targetAudience ∧
    params.requestedScopes = policy.requestedScopes) ∧
  ∃ payload, decodeJwtPayload N base64urlText params.subjectToken = .ok payload ∧
    claimantOf payload = some (.str options.subjectTokenIssuerClientId)

/-- What a call may resolve with under a policy. -/
def WithinPolicy (policyName : JsString) (token : DelegatedAccessToken) : Prop :=
  ∃ policy, get options.policies policyName = some policy ∧ token.accessToken ≠ [] ∧
    0 < token.expiresInSeconds ∧ token.expiresInSeconds ≤ policy.maxExpiresInSeconds

/-- Calls reach the provider gated and while their policy is not suspended, and a circuit is
cleared when it has been open and its time is over. -/
def Allowed (before : List (TraceEvent C)) : TraceEvent C → Prop
  | .sent _ policyName params now => Gated N base64urlText options policyName params ∧
      ¬ Suspended (failuresSince policyName before) now
  | .cleared policyName now =>
      (failuresSince policyName before).length ≥ DEFAULT_FAILURE_THRESHOLD ∧
        ¬ Suspended (failuresSince policyName before) now
  | .failed _ _ => True
  | .succeeded _ _ => True

structure Invariant (s : ServiceState C) : Prop where
  tracks : ∀ name, get s.throttle.circuits name = circuitOf (failuresSince name s.history)
  allowed : Respects (Allowed N base64urlText options) s.history
  waiting : ∀ call startedAt name policy, s.phase call = .waiting startedAt name policy →
    get options.policies name = some policy
  resolved : ∀ call name token, s.phase call = .resolved name token →
    WithinPolicy options name token

variable {N base64urlText options}

omit [DecidableEq C] in
/-- The invariant does not read the log. -/
lemma Invariant.of_frame {t : ServiceState C} (h : Invariant N base64urlText options s)
    (hcircuits : t.throttle.circuits = s.throttle.circuits) (hhistory : t.history = s.history)
    (hphase : t.phase = s.phase) : Invariant N base64urlText options t := by
  constructor
  · rw [hcircuits, hhistory]
    exact h.tracks
  · rw [hhistory]
    exact h.allowed
  · rw [hphase]
    exact h.waiting
  · rw [hphase]
    exact h.resolved

/-- A call that is rejected leaves all that the invariant says about others. -/
lemma Invariant.reject (h : Invariant N base64urlText options s) (call : C) (startedAt : ℕ)
    (policyForLog : JsString) (error : OidcDelegationError) (now : ℕ) :
    Invariant N base64urlText options
      (OidcDelegation.reject s call startedAt policyForLog error now) where
  tracks := h.tracks
  allowed := h.allowed
  waiting c startedAt' name policy hc := by
    simp only [OidcDelegation.reject, Function.update_apply] at hc
    split_ifs at hc
    exact h.waiting c startedAt' name policy hc
  resolved c name token hc := by
    simp only [OidcDelegation.reject, Function.update_apply] at hc
    split_ifs at hc
    exact h.resolved c name token hc

lemma ownToken_gated {subjectToken : Option JsString} {token : JsString}
    (h : ownToken N base64urlText options subjectToken = some token) :
    ∃ payload, decodeJwtPayload N base64urlText token = .ok payload ∧
      claimantOf payload = some (.str options.subjectTokenIssuerClientId) := by
  obtain ⟨-, hok⟩ := Option.filter_eq_some_iff.mp h
  unfold assertSubjectTokenBelongsToSourceClient at hok
  cases hpayload : decodeJwtPayload N base64urlText token with
  | error message =>
    rw [hpayload] at hok
    cases hok
  | ok payload =>
    rw [hpayload] at hok
    refine ⟨payload, rfl, ?_⟩
    simp only at hok
    split at hok
    · rename_i claimant hclaimant
      split_ifs at hok with hempty hother
      · cases hok
      · cases hok
      · rw [hclaimant, not_not.mp hother]
    · cases hok

omit [DecidableEq C] in
/-- The circuit that a check clears has been open, and its time is over. -/
lemma Invariant.cleared_allowed (h : Invariant N base64urlText options s) {policyName : JsString}
    {now : ℕ} (hexpired : isExpired s.throttle.circuits policyName now = true) :
    Allowed N base64urlText options s.history (.cleared policyName now) := by
  obtain ⟨circuit, hcircuit, hpos, hover⟩ := isExpired_iff.mp hexpired
  rw [h.tracks policyName] at hcircuit
  constructor
  · by_contra hfew
    obtain ⟨t, -, rfl⟩ := Option.map_eq_some_iff.mp hcircuit
    simp [hfew] at hpos
  · rw [suspended_iff]
    rintro ⟨circuit', hcircuit', hlt⟩
    rw [hcircuit] at hcircuit'
    cases hcircuit'
    exact hover hlt

omit [DecidableEq C] in
/-- The check keeps the invariant, and what passes it is not suspended afterwards. -/
lemma Invariant.checkThrottle (h : Invariant N base64urlText options s) (policyName : JsString)
    (now : ℕ) :
    Invariant N base64urlText options (checkThrottle options s policyName now).1 ∧
      ((checkThrottle options s policyName now).2 = none →
        ¬ Suspended (failuresSince policyName (checkThrottle options s policyName now).1.history)
          now) := by
  by_cases hexpired : isExpired s.throttle.circuits policyName now = true
  · have hhistory : (OidcDelegation.checkThrottle options s policyName now).1.history =
        s.history ++ [.cleared policyName now] := by
      simp [OidcDelegation.checkThrottle, hexpired]
    refine ⟨⟨fun name => ?_, ?_, h.waiting, h.resolved⟩, fun _ => ?_⟩
    · rw [hhistory, failuresSince_snoc]
      simp only [OidcDelegation.checkThrottle, circuits_checkAndConsume, get_isCircuitOpen,
        hexpired, true_and, afterEvent]
      by_cases hname : name = policyName
      · rw [if_pos hname, if_pos hname.symm]
        rfl
      · rw [if_neg hname, if_neg (Ne.symm hname)]
        exact h.tracks name
    · rw [hhistory]
      exact h.allowed.snoc (h.cleared_allowed hexpired)
    · rw [hhistory, failuresSince_snoc, afterEvent, if_pos rfl]
      rintro ⟨hlen, -⟩
      exact absurd hlen (by decide)
  · have hhistory : (OidcDelegation.checkThrottle options s policyName now).1.history =
        s.history := by
      simp [OidcDelegation.checkThrottle, hexpired]
    refine ⟨⟨fun name => ?_, ?_, h.waiting, h.resolved⟩, fun hpass hsuspended => ?_⟩
    · rw [hhistory]
      simp only [OidcDelegation.checkThrottle, circuits_checkAndConsume, get_isCircuitOpen,
        hexpired, Bool.false_eq_true, false_and, if_false]
      exact h.tracks name
    · rw [hhistory]
      exact h.allowed
    · rw [hhistory, suspended_iff] at hsuspended
      obtain ⟨circuit, hcircuit, hlt⟩ := hsuspended
      have hopen : (isCircuitOpen s.throttle.circuits policyName now).2 = true :=
        isCircuitOpen_snd.mpr ⟨circuit, (h.tracks policyName).trans hcircuit, hlt⟩
      rw [not_open_of_checked hpass] at hopen
      cases hopen

lemma Invariant.sendOut (h : Invariant N base64urlText options s) (call : C)
    {policyName : JsString} {policy : DelegationPolicyConfig} {params : ProviderParams} {now : ℕ}
    (hpolicy : get options.policies policyName = some policy)
    (hgated : Gated N base64urlText options policyName params)
    (hpass : ¬ Suspended (failuresSince policyName s.history) now) :
    Invariant N base64urlText options
      (OidcDelegation.sendOut s call policyName policy params now) where
  tracks name := by
    rw [OidcDelegation.sendOut, failuresSince_snoc]
    exact h.tracks name
  allowed := h.allowed.snoc ⟨hgated, hpass⟩
  waiting c startedAt name policy' hc := by
    simp only [OidcDelegation.sendOut, Function.update_apply] at hc
    split_ifs at hc with hsame
    · cases hc
      exact hpolicy
    · exact h.waiting c startedAt name policy' hc
  resolved c name token hc := by
    simp only [OidcDelegation.sendOut, Function.update_apply] at hc
    split_ifs at hc
    exact h.resolved c name token hc

lemma Invariant.admitCall (h : Invariant N base64urlText options s) (call : C)
    (input : ExchangeInput) (now : ℕ) :
    Invariant N base64urlText options
      (OidcDelegation.admitCall N base64urlText options s call input now) := by
  rcases admit_cases N base64urlText options s call input now with ⟨policyForLog, error, heq⟩ |
    ⟨policyName, policy, token, -, hpolicy, htoken, ⟨error, -, heq⟩ | ⟨hnone, heq⟩⟩
  · rw [heq]
    exact h.reject _ _ _ _ _
  · rw [heq]
    exact (h.checkThrottle policyName now).1.reject _ _ _ _ _
  · obtain ⟨hinv, hpass⟩ := h.checkThrottle policyName now
    rw [heq]
    exact hinv.sendOut call hpolicy
      ⟨⟨policy, hpolicy, rfl, rfl⟩, ownToken_gated htoken⟩ (hpass hnone)

lemma withinPolicy_of_result {result : Option ProviderResult} {policy : DelegationPolicyConfig}
    {policyName : JsString} {token : DelegatedAccessToken}
    (hpolicy : get options.policies policyName = some policy)
    (h : assertProviderResult result policy.maxExpiresInSeconds = .ok token) :
    WithinPolicy options policyName token := by
  unfold assertProviderResult at h
  split at h
  · split_ifs at h with hinvalid hlong
    cases h
    rw [not_or] at hinvalid
    exact ⟨policy, hpolicy, fun hempty => hinvalid.1 (congrArg List.length hempty),
      not_le.mp hinvalid.2, not_lt.mp hlong⟩
  · cases h

omit [DecidableEq C] in
lemma Invariant.failOver (h : Invariant N base64urlText options s) (policyName : JsString)
    (now : ℕ) :
    Invariant N base64urlText options (OidcDelegation.failOver s policyName now) where
  tracks name := by
    have hcount := consecutiveFailures_circuitOf (failuresSince policyName s.history)
    rw [← h.tracks policyName] at hcount
    simp only [OidcDelegation.failOver, failuresSince_snoc, afterEvent, recordProviderFailure,
      get_set, hcount]
    by_cases hname : name = policyName
    · rw [if_pos hname, if_pos hname.symm, hname, circuitOf_snoc]
    · rw [if_neg hname, if_neg (Ne.symm hname)]
      exact h.tracks name
  allowed := h.allowed.snoc trivial
  waiting := h.waiting
  resolved := h.resolved

lemma Invariant.resolve (h : Invariant N base64urlText options s) (call : C) (startedAt : ℕ)
    {policyName : JsString} {token : DelegatedAccessToken} (now : ℕ)
    (htoken : WithinPolicy options policyName token) :
    Invariant N base64urlText options
      (OidcDelegation.resolve s call startedAt policyName token now) where
  tracks name := by
    simp only [OidcDelegation.resolve, failuresSince_snoc, afterEvent, recordSuccess, get_delete]
    by_cases hname : name = policyName
    · rw [if_pos hname, if_pos hname.symm]
      rfl
    · rw [if_neg hname, if_neg (Ne.symm hname)]
      exact h.tracks name
  allowed := h.allowed.snoc trivial
  waiting c startedAt' name policy hc := by
    simp only [OidcDelegation.resolve, Function.update_apply] at hc
    split_ifs at hc
    exact h.waiting c startedAt' name policy hc
  resolved c name token' hc := by
    simp only [OidcDelegation.resolve, Function.update_apply] at hc
    split_ifs at hc
    · cases hc
      exact htoken
    · exact h.resolved c name token' hc

lemma Invariant.complete (h : Invariant N base64urlText options s) (call : C)
    (outcome : ProviderOutcome) (now : ℕ) :
    Invariant N base64urlText options (OidcDelegation.complete s call outcome now) := by
  rcases complete_cases s call outcome now with ⟨-, heq⟩ |
    ⟨startedAt, policyName, policy, hphase, ⟨error, heq⟩ | ⟨error, heq⟩ |
      ⟨result, token, hresult, heq⟩⟩
  · rw [heq]
    exact h
  · rw [heq]
    exact (h.failOver policyName now).reject _ _ _ _ _
  · rw [heq]
    exact h.reject _ _ _ _ _
  · rw [heq]
    exact h.resolve call startedAt now
      (withinPolicy_of_result (h.waiting call startedAt policyName policy hphase) hresult)

lemma Invariant.step (h : Invariant N base64urlText options s) (action : Action C) :
    Invariant N base64urlText options (step N base64urlText options s action) := by
  cases action with
  | admission call input now =>
    simp only [OidcDelegation.step]
    split_ifs
    · exact h.admitCall call input now
    · exact h
  | completion call outcome now => exact h.complete call outcome now
  | throttleEviction now => exact h.of_frame rfl rfl rfl
  | logEviction now => exact h.of_frame rfl rfl rfl
  | logFlush => exact h.of_frame rfl rfl rfl

theorem invariant_stateAfter (actions : List (Action C)) :
    Invariant N base64urlText options (stateAfter N base64urlText options actions) := by
  have hrun : ∀ s : ServiceState C, Invariant N base64urlText options s →
      Invariant N base64urlText options (actions.foldl (step N base64urlText options) s) := by
    intro s hs
    induction actions generalizing s with
    | nil => exact hs
    | cons action actions ih => exact ih _ (hs.step action)
  exact hrun initial ⟨fun name => rfl, respects_nil, fun _ _ _ _ h => (by cases h),
    fun _ _ _ h => (by cases h)⟩

end Invariant

section Results

lemma phase_reject (s : ServiceState C) (call : C) (startedAt : ℕ) (policyForLog : JsString)
    (error : OidcDelegationError) (now : ℕ) :
    (reject s call startedAt policyForLog error now).phase call = .rejected error :=
  Function.update_self _ _ _

/-- An admission rejects the call, or has it wait for the provider. -/
lemma phase_admit (s : ServiceState C) (call : C) (input : ExchangeInput) (now : ℕ) :
    (∃ error, (admitCall N base64urlText options s call input now).phase call = .rejected error) ∨
      ∃ policyName policy, (admitCall N base64urlText options s call input now).phase call =
        .waiting now policyName policy := by
  rcases admit_cases N base64urlText options s call input now with ⟨policyForLog, error, heq⟩ |
    ⟨policyName, policy, token, -, -, -, ⟨error, -, heq⟩ | ⟨-, heq⟩⟩
  · exact .inl ⟨error, by rw [heq, phase_reject]⟩
  · exact .inl ⟨error, by rw [heq, phase_reject]⟩
  · exact .inr ⟨policyName, policy, by rw [heq]; exact Function.update_self _ _ _⟩

/-- A completion resolves or rejects the call. -/
lemma phase_complete {call : C} {startedAt : ℕ} {policyName : JsString}
    {policy : DelegationPolicyConfig} (h : s.phase call = .waiting startedAt policyName policy)
    (outcome : ProviderOutcome) (now : ℕ) :
    (∃ error, (complete s call outcome now).phase call = .rejected error) ∨
      ∃ token, (complete s call outcome now).phase call = .resolved policyName token := by
  rcases complete_cases s call outcome now with ⟨hnot, -⟩ |
    ⟨startedAt', policyName', policy', hphase, ⟨error, heq⟩ | ⟨error, heq⟩ |
      ⟨result, token, -, heq⟩⟩
  · exact absurd h (hnot _ _ _)
  · exact .inl ⟨error, by rw [heq, phase_reject]⟩
  · exact .inl ⟨error, by rw [heq, phase_reject]⟩
  · rw [h] at hphase
    cases hphase
    exact .inr ⟨token, by rw [heq]; exact Function.update_self _ _ _⟩

omit [DecidableEq C] in
lemma circuits_checkThrottle (s : ServiceState C) (policyName : JsString) (now : ℕ) :
    (checkThrottle options s policyName now).1.throttle.circuits =
      if isExpired s.throttle.circuits policyName now = true then
        delete s.throttle.circuits policyName
      else s.throttle.circuits := by
  rw [checkThrottle, circuits_checkAndConsume, isCircuitOpen]
  by_cases hexpired : isExpired s.throttle.circuits policyName now = true
  · obtain ⟨circuit, hcircuit, hpos, hover⟩ := isExpired_iff.mp hexpired
    rw [if_pos hexpired, hcircuit]
    simp [hpos, hover]
  · rw [if_neg hexpired]
    cases hcircuit : get s.throttle.circuits policyName with
    | none => rfl
    | some circuit =>
      have hnot := fun h => hexpired (isExpired_iff.mpr ⟨circuit, hcircuit, h⟩)
      simp only
      split_ifs with hopen hpos
      · rfl
      · exact absurd ⟨hpos, hopen⟩ hnot
      · rfl

/-- A rejected admission changes the circuits by clearing an expired one at most. -/
lemma circuits_admit_rejected {call : C} {input : ExchangeInput} {now : ℕ}
    {error : OidcDelegationError}
    (h : (admitCall N base64urlText options s call input now).phase call = .rejected error) :
    (admitCall N base64urlText options s call input now).throttle.circuits = s.throttle.circuits ∨
      ∃ policyName, input.policy = some policyName ∧
        isExpired s.throttle.circuits policyName now = true ∧
        (admitCall N base64urlText options s call input now).throttle.circuits =
          delete s.throttle.circuits policyName := by
  rcases admit_cases N base64urlText options s call input now with ⟨policyForLog, error', heq⟩ |
    ⟨policyName, policy, token, hname, -, -, ⟨error', -, heq⟩ | ⟨-, heq⟩⟩
  · exact .inl (by rw [heq]; rfl)
  · have hcircuits : (admitCall N base64urlText options s call input now).throttle.circuits =
        (checkThrottle options s policyName now).1.throttle.circuits := by rw [heq]; rfl
    rw [hcircuits, circuits_checkThrottle]
    by_cases hexpired : isExpired s.throttle.circuits policyName now = true
    · exact .inr ⟨policyName, hname, hexpired, if_pos hexpired⟩
    · exact .inl (if_neg hexpired)
  · rw [heq] at h
    have hwaiting : (sendOut (checkThrottle options s policyName now).1 call policyName policy
        ⟨token, policy.targetAudience, policy.requestedScopes⟩ now).phase call =
          .waiting now policyName policy := Function.update_self _ _ _
    rw [hwaiting] at h
    cases h

/-- The circuit and the bucket of a policy are the same before and after. -/
def SameFor (name : JsString) (s t : ServiceState C) : Prop :=
  get t.throttle.circuits name = get s.throttle.circuits name ∧
    get t.throttle.limiter name = get s.throttle.limiter name

omit [DecidableEq C] in
lemma sameFor_checkThrottle {policyName name : JsString} (h : name ≠ policyName)
    (s : ServiceState C) (now : ℕ) : SameFor name s (checkThrottle options s policyName now).1 := by
  constructor
  · simp only [checkThrottle, circuits_checkAndConsume, get_isCircuitOpen, h, and_false, if_false]
  · exact get_limiter_checkAndConsume _ _ h

lemma sameFor_admit {input : ExchangeInput} {name : JsString} (h : input.policy ≠ some name)
    (s : ServiceState C) (call : C) (now : ℕ) :
    SameFor name s (admitCall N base64urlText options s call input now) := by
  rcases admit_cases N base64urlText options s call input now with ⟨policyForLog, error, heq⟩ |
    ⟨policyName, policy, token, hname, -, -, hrest⟩
  · rw [heq]
    exact ⟨rfl, rfl⟩
  · have hne : name ≠ policyName := fun heq => h (heq ▸ hname)
    have hsame : SameFor name s (checkThrottle options s policyName now).1 :=
      sameFor_checkThrottle hne s now
    rcases hrest with ⟨error, -, heq⟩ | ⟨-, heq⟩
    · rw [heq]
      exact hsame
    · rw [heq]
      exact hsame

lemma sameFor_complete {call : C} {name : JsString}
    (h : ∀ startedAt policyName policy, s.phase call = .waiting startedAt policyName policy →
      policyName ≠ name) (outcome : ProviderOutcome) (now : ℕ) :
    SameFor name s (complete s call outcome now) := by
  rcases complete_cases s call outcome now with ⟨-, heq⟩ |
    ⟨startedAt, policyName, policy, hphase, ⟨error, heq⟩ | ⟨error, heq⟩ |
      ⟨result, token, -, heq⟩⟩
  · rw [heq]
    exact ⟨rfl, rfl⟩
  · have hne := h startedAt policyName policy hphase
    rw [heq]
    refine ⟨?_, rfl⟩
    simp only [reject, failOver, recordProviderFailure, get_set, if_neg (Ne.symm hne)]
  · rw [heq]
    exact ⟨rfl, rfl⟩
  · have hne := h startedAt policyName policy hphase
    rw [heq]
    refine ⟨?_, rfl⟩
    simp only [resolve, recordSuccess, get_delete, if_neg (Ne.symm hne)]

/-- In every run: calls reach the provider gated; a call that was admitted is rejected or waits,
and one that was completed resolves within its policy or is rejected; no call reaches the provider
while its policy is suspended, and only circuits whose time is over are cleared; a rejected
admission leaves the circuits alone but for clearing the expired one of its policy; and no call
touches the circuit or the bucket of another policy. -/
theorem exchange_gated (actions : List (Action C)) :
    let s := stateAfter N base64urlText options actions
    (∀ call policyName params now, .sent call policyName params now ∈ s.history →
      Gated N base64urlText options policyName params) ∧
    ((∀ call policyName token, s.phase call = .resolved policyName token →
        WithinPolicy options policyName token) ∧
      (∀ call input now,
        let t := admitCall N base64urlText options s call input now
        (∃ error, t.phase call = .rejected error) ∨
          ∃ policyName policy, t.phase call = .waiting now policyName policy) ∧
      ∀ call startedAt policyName policy outcome now,
        s.phase call = .waiting startedAt policyName policy →
        let t := complete s call outcome now
        (∃ error, t.phase call = .rejected error) ∨
          ∃ token, t.phase call = .resolved policyName token) ∧
    ((∀ i call policyName params now, s.history[i]? = some (.sent call policyName params now) →
        ¬ Suspended (failuresSince policyName (s.history.take i)) now) ∧
      ∀ i policyName now, s.history[i]? = some (.cleared policyName now) →
        (failuresSince policyName (s.history.take i)).length ≥ DEFAULT_FAILURE_THRESHOLD ∧
          ¬ Suspended (failuresSince policyName (s.history.take i)) now) ∧
    (∀ call input now error,
      let t := admitCall N base64urlText options s call input now
      t.phase call = .rejected error →
        t.throttle.circuits = s.throttle.circuits ∨
          ∃ policyName, input.policy = some policyName ∧
            isExpired s.throttle.circuits policyName now = true ∧
            t.throttle.circuits = delete s.throttle.circuits policyName) ∧
    (∀ call input now name, input.policy ≠ some name →
      SameFor name s (admitCall N base64urlText options s call input now)) ∧
    ∀ call outcome now name,
      (∀ startedAt policyName policy, s.phase call = .waiting startedAt policyName policy →
        policyName ≠ name) → SameFor name s (complete s call outcome now) := by
  have h : Invariant N base64urlText options (stateAfter N base64urlText options actions) :=
    invariant_stateAfter actions
  refine ⟨?_, ⟨h.resolved, ?_, ?_⟩, ⟨?_, ?_⟩, ?_, ?_, ?_⟩
  · intro call policyName params now hmem
    obtain ⟨i, hi⟩ := List.getElem?_of_mem hmem
    exact (h.allowed i _ hi).1
  · exact fun call input now => phase_admit _ call input now
  · exact fun call startedAt policyName policy outcome now hwaiting =>
      phase_complete hwaiting outcome now
  · exact fun i call policyName params now hi => (h.allowed i _ hi).2
  · exact fun i policyName now hi => h.allowed i _ hi
  · exact fun call input now error hrejected => circuits_admit_rejected hrejected
  · exact fun call input now name hname => sameFor_admit hname _ call now
  · exact fun call outcome now name hname => sameFor_complete hname outcome now

/-- One policy, with five exchanges a minute. -/
def fiveAMinute : OidcDelegationModuleOptions where
  policies := [(js "submit", ⟨js "approve", [js "approve:submit"], 60⟩)]
  subjectTokenIssuerClientId := js "plan"
  maxExchangesPerMinutePerPolicy := some 5

def planPayload : JsString := js "\x7b\"azp\":\"plan\"\x7d"

def submission : ExchangeInput := ⟨some (js "h.p.s"), some (js "submit")⟩

/-- Five calls of one moment, all of which find the provider unavailable. -/
def outage : List (Action ℕ) :=
  (List.range 5).map (fun call => .admission call submission 0) ++
    (List.range 5).map fun call =>
      .completion call (.threw (.delegation ⟨.providerUnavailable, js "down"⟩)) 0

/-- When the cooldown is over, the next call is turned away by the rate limit, and the circuit is
gone. -/
theorem rate_limited_clears_circuit :
    let s := stateAfter ℤ (fun _ => planPayload) fiveAMinute outage
    let t := admitCall ℤ (fun _ => planPayload) fiveAMinute s 5 submission 30000
    t.phase 5 = .rejected ⟨.providerUnavailable, js "outbound exchange rate limit exceeded"⟩ ∧
      s.throttle.circuits = [(js "submit", ⟨5, 30000⟩)] ∧ t.throttle.circuits = [] := by
  decide +kernel

end Results

end Appspine.OidcDelegation
