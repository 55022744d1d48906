import Appspine.SecurityLogs

/-!
# Token exchange for delegation

`exchange` splits where it waits for the provider: an admission checks the policy, the subject
token and the throttle and calls the provider, a completion takes what the provider did. Any
number of calls overlap. The trace records what reached the provider and what happened to the
circuits, for the statements only.
-/
namespace Appspine.OidcDelegation
open JsText JsonText InsertionMap RateLimits SecurityLogs

section Errors

inductive OidcDelegationErrorCategory where
  | invalidSubjectToken
  | policyNotFound
  | policyViolation
  | exchangeDenied
  | providerUnavailable
  | malformedProviderResponse
  deriving DecidableEq

def OidcDelegationErrorCategory.text : OidcDelegationErrorCategory → JsString
  | .invalidSubjectToken => js "invalid_subject_token"
  | .policyNotFound => js "policy_not_found"
  | .policyViolation => js "policy_violation"
  | .exchangeDenied => js "exchange_denied"
  | .providerUnavailable => js "provider_unavailable"
  | .malformedProviderResponse => js "malformed_provider_response"

structure OidcDelegationError where
  category : OidcDelegationErrorCategory
  message : JsString
  deriving DecidableEq

def OidcDelegationError.retryable (error : OidcDelegationError) : Bool :=
  decide (error.category = .providerUnavailable)

/-- A thrown value, as far as `normalizeError` tells it apart. -/
inductive ThrownError where
  | delegation (error : OidcDelegationError)
  | policyNotFound (policyName : JsString)
  | other
  deriving DecidableEq

def normalizeError : ThrownError → OidcDelegationError
  | .delegation error => error
  | .policyNotFound _ => ⟨.policyNotFound, js "Unknown delegation policy"⟩
  | .other => ⟨.malformedProviderResponse, js "unexpected error during token exchange"⟩

end Errors

section SubjectToken

variable (N : Type) [JsonNumber N]

/-- `base64urlText` is `Buffer.from(part, 'base64url').toString('utf8')`. -/
def decodeJwtPayload (base64urlText : JsString → JsString) (token : JsString) :
    Except JsString (List (JsString × Json N)) :=
  match token.splitOn (unit '.') with
  | [_, payload, _] =>
    match (parse (base64urlText payload) : Option (Json N)) with
    | some (.obj members) => .ok members
    | _ => .error (js "subject token payload could not be decoded")
  | _ => .error (js "subject token is not a JWT")

/-- `azp` when that is a text, else `client_id`. -/
def claimantOf {N : Type} (payload : List (JsString × Json N)) : Option (Json N) :=
  match get payload (js "azp") with
  | some (.str azp) => some (.str azp)
  | _ => get payload (js "client_id")

def assertSubjectTokenBelongsToSourceClient (base64urlText : JsString → JsString)
    (subjectToken expectedIssuerClientId : JsString) : Except JsString Unit :=
  match decodeJwtPayload N base64urlText subjectToken with
  | .error message => .error message
  | .ok payload =>
    match claimantOf payload with
    | some (.str claimant) =>
      if claimant = [] then
        .error (js "subject token has no azp or client_id claim identifying its issuing client")
      else if claimant ≠ expectedIssuerClientId then
        .error (js "subject token was not issued by the expected client")
      else .ok ()
    | _ => .error (js "subject token has no azp or client_id claim identifying its issuing client")

end SubjectToken

section Throttle

def DEFAULT_FAILURE_THRESHOLD : ℕ := 5

def DEFAULT_COOLDOWN_MS : ℕ := 30000

def DEFAULT_MAX_EXCHANGES_PER_MINUTE_PER_POLICY : ℕ := 60

structure Circuit where
  consecutiveFailures : ℕ
  circuitOpenUntil : ℕ
  deriving DecidableEq

abbrev Circuits := Entries JsString Circuit

structure OutboundThrottle where
  limiter : Buckets JsString
  circuits : Circuits
  deriving DecidableEq

/-- `m.delete(k)`. -/
def delete {α : Type} (m : Entries JsString α) (k : JsString) : Entries JsString α :=
  m.filter fun e => decide (e.1 ≠ k)

/-- An open circuit whose time is over, which the next check clears. -/
def isExpired (circuits : Circuits) (policyName : JsString) (now : ℕ) : Bool :=
  match get circuits policyName with
  | none => false
  | some circuit => decide (circuit.circuitOpenUntil > 0 ∧ ¬ now < circuit.circuitOpenUntil)

def isCircuitOpen (circuits : Circuits) (policyName : JsString) (now : ℕ) : Circuits × Bool :=
  match get circuits policyName with
  | none => (circuits, false)
  | some circuit =>
    if now < circuit.circuitOpenUntil then (circuits, true)
    else if circuit.circuitOpenUntil > 0 then (delete circuits policyName, false)
    else (circuits, false)

/-- The throttle after the check, and the error it throws. -/
def checkAndConsume (maxExchangesPerMinutePerPolicy : ℕ) (throttle : OutboundThrottle)
    (policyName : JsString) (now : ℕ) : OutboundThrottle × Option OidcDelegationError :=
  let circuit := isCircuitOpen throttle.circuits policyName now
  if circuit.2 then
    (⟨throttle.limiter, circuit.1⟩, some ⟨.providerUnavailable,
      js "exchange temporarily suspended after repeated provider failures"⟩)
  else
    let consumed := tryConsume maxExchangesPerMinutePerPolicy throttle.limiter policyName now
    if consumed.2 then (⟨consumed.1, circuit.1⟩, none)
    else (⟨consumed.1, circuit.1⟩, some ⟨.providerUnavailable,
      js "outbound exchange rate limit exceeded"⟩)

def recordSuccess (throttle : OutboundThrottle) (policyName : JsString) : OutboundThrottle :=
  ⟨throttle.limiter, delete throttle.circuits policyName⟩

def recordProviderFailure (failureThreshold cooldownMs : ℕ) (throttle : OutboundThrottle)
    (policyName : JsString) (now : ℕ) : OutboundThrottle :=
  let consecutiveFailures :=
    ((get throttle.circuits policyName).map Circuit.consecutiveFailures).getD 0 + 1
  ⟨throttle.limiter, set throttle.circuits policyName ⟨consecutiveFailures,
    if consecutiveFailures ≥ failureThreshold then now + cooldownMs else 0⟩⟩

end Throttle

section Service

structure DelegationPolicyConfig where
  targetAudience : JsString
  requestedScopes : List JsString
  maxExpiresInSeconds : ℤ
  deriving DecidableEq

structure OidcDelegationModuleOptions where
  policies : Entries JsString DelegationPolicyConfig
  subjectTokenIssuerClientId : JsString
  maxExchangesPerMinutePerPolicy : Option ℕ

/-- What `exchange` is called with: a field that is no text is `none`. -/
structure ExchangeInput where
  subjectToken : Option JsString
  policy : Option JsString

structure ProviderParams where
  subjectToken : JsString
  targetAudience : JsString
  requestedScopes : List JsString
  deriving DecidableEq

/-- What the provider resolves with: a token that is no text and a lifetime that is no integer
are `none`. -/
structure ProviderResult where
  accessToken : Option JsString
  expiresInSeconds : Option ℤ

inductive ProviderOutcome where
  | returned (result : Option ProviderResult)
  | threw (error : ThrownError)

structure DelegatedAccessToken where
  accessToken : JsString
  tokenType : JsString
  expiresInSeconds : ℤ
  deriving DecidableEq

/-- `assertProviderResult`, with the token that `exchange` builds from what passes. -/
def assertProviderResult (result : Option ProviderResult) (maxExpiresInSeconds : ℤ) :
    Except OidcDelegationError DelegatedAccessToken :=
  match result with
  | some ⟨some accessToken, some expiresInSeconds⟩ =>
    if accessToken.length = 0 ∨ expiresInSeconds ≤ 0 then
      .error ⟨.malformedProviderResponse,
        js "provider returned an invalid access token response"⟩
    else if expiresInSeconds > maxExpiresInSeconds then
      .error ⟨.policyViolation,
        js "provider token lifetime exceeds the delegation policy maximum"⟩
    else .ok ⟨accessToken, js "Bearer", expiresInSeconds⟩
  | _ => .error ⟨.malformedProviderResponse,
      js "provider returned an invalid access token response"⟩

inductive Phase where
  | idle
  | waiting (startedAt : ℕ) (policyName : JsString) (policy : DelegationPolicyConfig)
  | resolved (policyName : JsString) (token : DelegatedAccessToken)
  | rejected (error : OidcDelegationError)
  deriving DecidableEq

/-- What happens at the provider and to the circuit of a policy. -/
inductive TraceEvent (C : Type) where
  | sent (call : C) (policyName : JsString) (params : ProviderParams) (now : ℕ)
  | cleared (policyName : JsString) (now : ℕ)
  | failed (policyName : JsString) (now : ℕ)
  | succeeded (policyName : JsString) (now : ℕ)

structure ServiceState (C : Type) where
  throttle : OutboundThrottle
  securityLog : SecurityEventLog
  lines : List OidcDelegationLogEvent
  phase : C → Phase
  history : List (TraceEvent C)

inductive Action (C : Type) where
  | admission (call : C) (input : ExchangeInput) (now : ℕ)
  | completion (call : C) (outcome : ProviderOutcome) (now : ℕ)
  | throttleEviction (now : ℕ)
  | logEviction (now : ℕ)
  | logFlush

variable {C : Type} [DecidableEq C]

def logEvent (policy category : JsString) (latencyMs : ℕ) : OidcDelegationLogEvent :=
  ⟨js "keycloak", policy, category, latencyMs, none⟩

/-- The `catch` of `exchange`. -/
def reject (s : ServiceState C) (call : C) (startedAt : ℕ) (policyForLog : JsString)
    (error : OidcDelegationError) (now : ℕ) : ServiceState C :=
  let event := logEvent policyForLog error.category.text (now - startedAt)
  let recorded := recordRejection s.securityLog event now
  { s with
    securityLog := recorded.1
    lines := s.lines ++ recorded.2.map logged
    phase := Function.update s.phase call (.rejected error) }

variable (N : Type) [JsonNumber N] (base64urlText : JsString → JsString)
  (options : OidcDelegationModuleOptions)

def limitOf : ℕ :=
  options.maxExchangesPerMinutePerPolicy.getD DEFAULT_MAX_EXCHANGES_PER_MINUTE_PER_POLICY

/-- `this.throttle.checkAndConsume`, with the circuit it clears in the trace. -/
def checkThrottle (s : ServiceState C) (policyName : JsString) (now : ℕ) :
    ServiceState C × Option OidcDelegationError :=
  let checked := checkAndConsume (limitOf options) s.throttle policyName now
  let cleared := if isExpired s.throttle.circuits policyName now then
    [.cleared policyName now] else []
  ({ s with throttle := checked.1, history := s.history ++ cleared }, checked.2)

/-- The subject token, when it is one of the source client. -/
def ownToken (subjectToken : Option JsString) : Option JsString :=
  subjectToken.filter fun token => (assertSubjectTokenBelongsToSourceClient N base64urlText token
    options.subjectTokenIssuerClientId).isOk

/-- `exchange` up to the call of the provider. -/
def admitCall (s : ServiceState C) (call : C) (input : ExchangeInput) (now : ℕ) : ServiceState C :=
  match input.policy with
  | none => reject s call now (js "unregistered")
      ⟨.policyNotFound, js "delegation policy was not provided"⟩ now
  | some policyName =>
    match get options.policies policyName with
    | none => reject s call now (js "unregistered")
        (normalizeError (.policyNotFound policyName)) now
    | some policy =>
      match ownToken N base64urlText options input.subjectToken with
      | none => reject s call now policyName ⟨.invalidSubjectToken,
          js "subject token failed the source-client sanity check"⟩ now
      | some subjectToken =>
        match checkThrottle options s policyName now with
        | (s, some error) => reject s call now policyName error now
        | (s, none) =>
          let params := ⟨subjectToken, policy.targetAudience, policy.requestedScopes⟩
          { s with
            phase := Function.update s.phase call (.waiting now policyName policy)
            history := s.history ++ [.sent call policyName params now] }

/-- `exchange` from what the provider did on. -/
def complete (s : ServiceState C) (call : C) (outcome : ProviderOutcome) (now : ℕ) :
    ServiceState C :=
  match s.phase call with
  | .waiting startedAt policyName policy =>
    match outcome with
    | .threw error =>
      let normalized := normalizeError error
      if normalized.category = .providerUnavailable then
        let throttle := recordProviderFailure DEFAULT_FAILURE_THRESHOLD DEFAULT_COOLDOWN_MS
          s.throttle policyName now
        reject { s with throttle := throttle, history := s.history ++ [.failed policyName now] }
          call startedAt policyName normalized now
      else reject s call startedAt policyName normalized now
    | .returned result =>
      match assertProviderResult result policy.maxExpiresInSeconds with
      | .error error => reject s call startedAt policyName error now
      | .ok token =>
        { s with
          throttle := recordSuccess s.throttle policyName
          lines := s.lines ++ [logEvent policyName (js "success") (now - startedAt)]
          phase := Function.update s.phase call (.resolved policyName token)
          history := s.history ++ [.succeeded policyName now] }
  | _ => s

/-- A call is admitted once, and completed once while it waits. -/
def step (s : ServiceState C) : Action C → ServiceState C
  | .admission call input now =>
    if s.phase call = .idle then admitCall N base64urlText options s call input now else s
  | .completion call outcome now => complete s call outcome now
  | .throttleEviction now =>
    { s with throttle := ⟨evict s.throttle.limiter now, s.throttle.circuits⟩ }
  | .logEviction now =>
    { s with securityLog := (eventStep s.securityLog (.evictionTimer now)).1 }
  | .logFlush =>
    let flushed := flushSuppressed s.securityLog
    { s with securityLog := flushed.1, lines := s.lines ++ flushed.2.map logged }

def initial : ServiceState C := ⟨⟨[], []⟩, ⟨[], []⟩, [], fun _ => .idle, []⟩

def stateAfter (actions : List (Action C)) : ServiceState C :=
  actions.foldl (step N base64urlText options) initial

end Service

end Appspine.OidcDelegation
