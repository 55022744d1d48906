import Appspine.JsNumerals
import Appspine.JsonText
import Appspine.Results

/-!
# Delegated access tokens

The checks that `DelegatedJwtVerifierService` makes of a token, and of the profile it trusts it
under. The decoding and the verification of the signature are parameters.
-/
namespace Appspine.DelegatedTokens
open JsText JsonText InsertionMap Results

/-- `Number.isInteger(n)`, with the integer. -/
class PayloadNumber (N : Type) where
  toInteger : N → Option ℤ

def ensure (ok : Bool) (message : JsString) : Except JsString Unit :=
  if ok then .ok () else .error message

@[simp] lemma ensure_eq_ok {ok : Bool} {message : JsString} {u : Unit} :
    ensure ok message = .ok u ↔ ok = true := by
  cases ok <;> simp [ensure]

section Profiles

inductive Provisioning where
  | never
  | jit
  deriving DecidableEq

structure DelegatedOidcTrustProfile (N : Type) where
  expectedIssuer : JsString
  allowInsecureHttp : Bool := false
  requiredAudience : JsString
  additionalAllowedAudiences : List JsString
  allowedClientIds : List JsString
  requiredScopes : List JsString
  delegationScopeNamespace : JsString
  maxTokenAgeSeconds : N
  clockToleranceSeconds : N
  provisioning : Option JsString := none

structure ResolvedDelegatedOidcTrustProfile where
  expectedIssuer : JsString
  allowInsecureHttp : Bool
  requiredAudience : JsString
  additionalAllowedAudiences : List JsString
  allowedClientIds : List JsString
  requiredScopes : List JsString
  delegationScopeNamespace : JsString
  maxTokenAgeSeconds : ℤ
  clockToleranceSeconds : ℤ
  provisioning : Provisioning

/-- What is read of `new URL(text)`. -/
structure Url where
  protocol : JsString
  username : JsString
  password : JsString

def MAX_TOKEN_AGE_SECONDS : ℤ := 3600

/-- `/^[a-z0-9][a-z0-9-]{0,127}$/`. -/
def isProfileName (name : JsString) : Bool :=
  let lower := fun u : CodeUnit =>
    decide ((unit 'a' ≤ u ∧ u ≤ unit 'z') ∨ (unit '0' ≤ u ∧ u ≤ unit '9'))
  name.head?.any lower && (name.all fun u => lower u || decide (u = unit '-')) &&
    decide (name.length ≤ 128)

def assertIdentifier (value name : JsString) : Except JsString Unit :=
  ensure (decide (value ≠ []) && !value.any isWhiteSpace)
    (name ++ js " must be a non-empty string without whitespace")

def assertIdentifiers (name : JsString) : List JsString → Except JsString Unit
  | [] => .ok ()
  | entry :: rest => do
    assertIdentifier entry (name ++ js " entry")
    assertIdentifiers name rest

def assertStringArray (value : List JsString) (name : JsString) (allowEmpty : Bool) :
    Except JsString Unit := do
  ensure (allowEmpty || decide (value ≠ []))
    (name ++ js " must be " ++ if allowEmpty then js "an array" else js "a non-empty array")
  assertIdentifiers name value
  ensure (decide value.Nodup) (name ++ js " must not contain duplicates")

variable {N : Type} [PayloadNumber N] (parseUrl : JsString → Option Url)

def parseAbsoluteUrl (value name : JsString) : Except JsString Url :=
  if value = [] then .error (name ++ js " must be configured")
  else match parseUrl value with
    | none => .error (name ++ js " must be an absolute URL")
    | some url =>
      if url.username ≠ [] ∨ url.password ≠ [] then
        .error (name ++ js " must not contain embedded credentials")
      else .ok url

def integerField (n : N) (ok : ℤ → Bool) (message : JsString) : Except JsString ℤ :=
  match PayloadNumber.toInteger n with
  | none => .error message
  | some value => if ok value then .ok value else .error message

def parseProvisioning (label : JsString) : Option JsString → Except JsString Provisioning
  | none => .ok .never
  | some text =>
    if text = js "never" then .ok .never
    else if text = js "jit" then .ok .jit
    else .error (label ++ js " provisioning must be 'never' or 'jit'")

/-- `validateProfile`, with the entry that `validateDelegatedProfiles` makes of the profile. -/
def validateProfile (name : JsString) (profile : DelegatedOidcTrustProfile N) :
    Except JsString ResolvedDelegatedOidcTrustProfile := do
  let label := js "Delegated profile \"" ++ name ++ js "\""
  ensure (isProfileName name)
    (js "Delegated profile names must use lowercase letters, numbers, and hyphens")
  let issuer ← parseAbsoluteUrl parseUrl profile.expectedIssuer (label ++ js " expectedIssuer")
  ensure (decide (issuer.protocol = js "https:") ||
      (decide (issuer.protocol = js "http:") && profile.allowInsecureHttp))
    (label ++ js " expectedIssuer must use HTTPS unless HTTP is explicitly allowed")
  assertIdentifier profile.requiredAudience (label ++ js " requiredAudience")
  assertStringArray profile.additionalAllowedAudiences
    (label ++ js " additionalAllowedAudiences") true
  assertStringArray profile.allowedClientIds (label ++ js " allowedClientIds") false
  assertStringArray profile.requiredScopes (label ++ js " requiredScopes") false
  ensure (decide (profile.requiredAudience ∉ profile.additionalAllowedAudiences))
    (label ++ js " must not repeat requiredAudience in additionalAllowedAudiences")
  assertIdentifier profile.delegationScopeNamespace (label ++ js " delegationScopeNamespace")
  ensure (decide (profile.delegationScopeNamespace.getLast? = some (unit ':')))
    (label ++ js " delegationScopeNamespace must end with a colon")
  ensure (profile.requiredScopes.all fun scope =>
      startsWith scope profile.delegationScopeNamespace)
    (label ++ js " requiredScopes must be inside delegationScopeNamespace")
  let maxTokenAgeSeconds ← integerField profile.maxTokenAgeSeconds
    (fun value => decide (0 < value ∧ value ≤ MAX_TOKEN_AGE_SECONDS))
    (label ++ js " maxTokenAgeSeconds must be a positive integer <= 3600")
  let clockToleranceSeconds ← integerField profile.clockToleranceSeconds
    (fun value => decide (0 ≤ value))
    (label ++ js " clockToleranceSeconds must be a non-negative integer")
  ensure (decide (clockToleranceSeconds < maxTokenAgeSeconds))
    (label ++ js " clockToleranceSeconds must be smaller than maxTokenAgeSeconds")
  let provisioning ← parseProvisioning label profile.provisioning
  pure { expectedIssuer := profile.expectedIssuer
         allowInsecureHttp := profile.allowInsecureHttp
         requiredAudience := profile.requiredAudience
         additionalAllowedAudiences := profile.additionalAllowedAudiences
         allowedClientIds := profile.allowedClientIds
         requiredScopes := profile.requiredScopes
         delegationScopeNamespace := profile.delegationScopeNamespace
         maxTokenAgeSeconds, clockToleranceSeconds, provisioning }

def resolveEntries : List (JsString × DelegatedOidcTrustProfile N) →
    Except JsString (List (JsString × ResolvedDelegatedOidcTrustProfile))
  | [] => .ok []
  | (name, profile) :: rest => do
    let resolved ← validateProfile parseUrl name profile
    let later ← resolveEntries rest
    pure ((name, resolved) :: later)

def validateDelegatedProfiles (profiles : List (JsString × DelegatedOidcTrustProfile N)) :
    Except JsString (List (JsString × ResolvedDelegatedOidcTrustProfile)) := do
  ensure (decide (profiles ≠ []))
    (js "DelegatedAuthModule.forFeature() requires at least one profile")
  resolveEntries parseUrl profiles

end Profiles

section Claims

variable {N : Type} [PayloadNumber N]

abbrev Members (N : Type) := List (JsString × Json N)

/-- The claim, when it is a text. -/
def asString : Option (Json N) → Option JsString
  | some (.str text) => some text
  | _ => none

def assertAccessTokenType (toLowerCase : JsString → JsString) (payload : Members N)
    (joseHeaderType : Option (Json N)) : Except JsString Unit :=
  let payloadTyp := ((asString (get payload (js "typ"))).map toLowerCase).getD []
  let headerTyp := ((asString joseHeaderType).map toLowerCase).getD []
  ensure (decide (payloadTyp = js "bearer") || decide (headerTyp = js "at+jwt"))
    (js "delegated token does not look like an access token")

def normalizeAudience : Option (Json N) → List JsString
  | some (.str aud) => [aud]
  | some (.arr items) => (items.mapM fun item => asString (some item)).getD []
  | _ => []

def assertAudience (payload : Members N) (profile : ResolvedDelegatedOidcTrustProfile) :
    Except JsString Unit := do
  let audiences := normalizeAudience (get payload (js "aud"))
  let allowed := profile.requiredAudience :: profile.additionalAllowedAudiences
  ensure (decide (profile.requiredAudience ∈ audiences))
    (js "delegated token does not include the required audience")
  ensure (audiences.all fun aud => decide (aud ∈ allowed))
    (js "delegated token has an audience outside the allowed set")

/-- A claim that is a text and not the empty one. -/
def nonEmptyClaim (payload : Members N) (name : JsString) : Option JsString :=
  (asString (get payload name)).filter fun text => decide (text ≠ [])

def normalizeClientId (payload : Members N) : Except JsString JsString :=
  match nonEmptyClaim payload (js "azp"), nonEmptyClaim payload (js "client_id") with
  | some azp, some clientId =>
    if azp ≠ clientId then
      .error (js "delegated token has conflicting azp and client_id claims")
    else .ok azp
  | some azp, none => .ok azp
  | none, some clientId => .ok clientId
  | none, none => .error (js "delegated token has no azp or client_id claim")

def assertAllowedClient (clientId : JsString) (profile : ResolvedDelegatedOidcTrustProfile) :
    Except JsString Unit :=
  ensure (decide (clientId ∈ profile.allowedClientIds))
    (js "delegated token was not issued to an allowed source client")

def requireExternalSubject (payload : Members N) : Except JsString JsString :=
  match nonEmptyClaim payload (js "sub") with
  | none => .error (js "delegated token is missing a subject claim")
  | some sub => .ok sub

/-- `payload.scope.split(' ').filter(Boolean)`. -/
def scopesOf (payload : Members N) : List JsString :=
  match asString (get payload (js "scope")) with
  | none => []
  | some scope => (scope.splitOn (unit ' ')).filter fun text => decide (text ≠ [])

def assertScopesAndReturn (payload : Members N) (profile : ResolvedDelegatedOidcTrustProfile) :
    Except JsString (List JsString) := do
  let scopes := scopesOf payload
  ensure (profile.requiredScopes.all fun required => decide (required ∈ scopes))
    (js "delegated token is missing a required delegation scope")
  ensure (scopes.all fun scope => !startsWith scope profile.delegationScopeNamespace ||
      decide (scope ∈ profile.requiredScopes))
    (js "delegated token has an unrecognized delegation scope")
  pure scopes

/-- The claim, when it is a number. -/
def asNumber : Option (Json N) → Option N
  | some (.num n) => some n
  | _ => none

/-- `nowMs` is `Date.now()`. -/
def assertTokenAge (nowMs : ℤ) (payload : Members N)
    (profile : ResolvedDelegatedOidcTrustProfile) : Except JsString Unit :=
  match asNumber (get payload (js "iat")), asNumber (get payload (js "exp")) with
  | some issued, some expires =>
    match PayloadNumber.toInteger issued, PayloadNumber.toInteger expires with
    | some iat, some exp => do
      ensure (decide (iat < exp)) (js "delegated token has an invalid iat/exp relationship")
      let now := nowMs / 1000
      ensure (decide (iat ≤ now + profile.clockToleranceSeconds))
        (js "delegated token was issued in the future")
      let maximumAge := profile.maxTokenAgeSeconds + profile.clockToleranceSeconds
      ensure (decide (exp - iat ≤ maximumAge ∧ now - iat ≤ maximumAge))
        (js "delegated token exceeds the maximum allowed age")
    | _, _ => .error (js "delegated token has an invalid iat/exp relationship")
  | _, _ => .error (js "delegated token is missing iat/exp claims")

end Claims

section Verification

structure VerifiedDelegatedClaims where
  issuer : JsString
  externalSubject : JsString
  sourceClientId : JsString
  audience : JsString
  scopes : List JsString
  deriving DecidableEq

structure DelegatedTokenVerificationResult where
  claims : VerifiedDelegatedClaims
  email : Option JsString
  emailVerified : Bool
  name : Option JsString
  deriving DecidableEq

structure VerifyOptions where
  algorithms : List JsString
  issuer : JsString
  clockTolerance : ℤ

/-- What the service calls: `jwt.decode`, which gives the header, the client of the key set, absent
while `OIDC_JWKS_URL` is, and `jwt.verify` at a time of the clock, which gives the payload. -/
structure Libraries (T K N : Type) where
  decode : T → Option (Members N)
  oidcClient : Option (JsString → Option K)
  verify : T → K → VerifyOptions → ℤ → Option (Json N)

/-- The two readings of the clock, in milliseconds. -/
structure Clock where
  verifiedAt : ℤ
  checkedAt : ℤ

variable {T K N : Type} [PayloadNumber N]

/-- What is not falsy, an array or a text. -/
def isPayload : Json N → Bool
  | .null => false
  | .bool b => b
  | .num n => decide (PayloadNumber.toInteger n ≠ some 0)
  | .str _ => false
  | .arr _ => false
  | .obj _ => true

/-- The properties of the payload; only an object has any. -/
def membersOf : Json N → Members N
  | .obj members => members
  | _ => []

def verifyOptions (profile : ResolvedDelegatedOidcTrustProfile) : VerifyOptions :=
  ⟨[js "RS256"], profile.expectedIssuer, profile.clockToleranceSeconds⟩

/-- `getSigningKey` and `verifySignature`. -/
def signedPayload (libraries : Libraries T K N) (token : T) (kid : JsString)
    (profile : ResolvedDelegatedOidcTrustProfile) (nowMs : ℤ) : Except JsString (Json N) :=
  match libraries.oidcClient with
  | none => .error (js "OIDC JWKS URL is not configured")
  | some getSigningKey =>
    match getSigningKey kid with
    | none => .error (js "Invalid delegated token")
    | some signingKey =>
      match libraries.verify token signingKey (verifyOptions profile) nowMs with
      | none => .error (js "Invalid delegated token")
      | some payload =>
        if isPayload payload then .ok payload
        else .error (js "delegated token payload is invalid")

/-- The checks of a payload whose signature is verified. -/
def checkClaims (toLowerCase : JsString → JsString) (header payload : Members N)
    (profile : ResolvedDelegatedOidcTrustProfile) (nowMs : ℤ) :
    Except JsString DelegatedTokenVerificationResult := do
  assertAccessTokenType toLowerCase payload (get header (js "typ"))
  assertAudience payload profile
  let clientId ← normalizeClientId payload
  assertAllowedClient clientId profile
  let externalSubject ← requireExternalSubject payload
  let scopes ← assertScopesAndReturn payload profile
  assertTokenAge nowMs payload profile
  pure { claims := ⟨profile.expectedIssuer, externalSubject, clientId, profile.requiredAudience,
           scopes⟩
         email := asString (get payload (js "email"))
         emailVerified := match get payload (js "email_verified") with
           | some (.bool true) => true
           | _ => false
         name := asString (get payload (js "name")) }

def verify (libraries : Libraries T K N) (toLowerCase : JsString → JsString) (token : T)
    (profile : ResolvedDelegatedOidcTrustProfile) (clock : Clock) :
    Except JsString DelegatedTokenVerificationResult :=
  match libraries.decode token with
  | none => .error (js "delegated token is missing a key id")
  | some header =>
    match nonEmptyClaim header (js "kid") with
    | none => .error (js "delegated token is missing a key id")
    | some kid => do
      let payload ← signedPayload libraries token kid profile clock.verifiedAt
      checkClaims toLowerCase header (membersOf payload) profile clock.checkedAt

end Verification

section Trust

variable {T K N : Type} [PayloadNumber N]

/-- The signature check passes, with the header and the payload of the token. -/
def SignaturePasses (libraries : Libraries T K N) (token : T)
    (profile : ResolvedDelegatedOidcTrustProfile) (nowMs : ℤ) (header : Members N)
    (payload : Json N) : Prop :=
  libraries.decode token = some header ∧ ∃ kid getSigningKey signingKey,
    get header (js "kid") = some (.str kid) ∧ kid ≠ [] ∧
    libraries.oidcClient = some getSigningKey ∧ getSigningKey kid = some signingKey ∧
    libraries.verify token signingKey (verifyOptions profile) nowMs = some payload

def TypedAsAccessToken (toLowerCase : JsString → JsString) (header payload : Members N) : Prop :=
  (∃ typ, get payload (js "typ") = some (.str typ) ∧ toLowerCase typ = js "bearer") ∨
    ∃ typ, get header (js "typ") = some (.str typ) ∧ toLowerCase typ = js "at+jwt"

/-- The audience set of a payload: the elements of an array, or the claim itself. -/
def audienceSet (payload : Members N) : List (Json N) :=
  match get payload (js "aud") with
  | none => []
  | some (.arr items) => items
  | some aud => [aud]

/-- It contains the required audience, and nothing outside the allowed ones. -/
def AudienceFits (profile : ResolvedDelegatedOidcTrustProfile) (payload : Members N) : Prop :=
  .str profile.requiredAudience ∈ audienceSet payload ∧
    ∀ entry ∈ audienceSet payload, ∃ aud, entry = .str aud ∧
      (aud = profile.requiredAudience ∨ aud ∈ profile.additionalAllowedAudiences)

/-- Every client claim that the payload carries is one allowed id, and it carries one. -/
def OneClient (profile : ResolvedDelegatedOidcTrustProfile) (payload : Members N) : Prop :=
  (get payload (js "azp") ≠ none ∨ get payload (js "client_id") ≠ none) ∧
    ∃ id ∈ profile.allowedClientIds, ∀ name ∈ [js "azp", js "client_id"],
      ∀ claim, get payload name = some claim → claim = .str id

def HasSubject (payload : Members N) : Prop :=
  ∃ sub, get payload (js "sub") = some (.str sub) ∧ sub ≠ []

/-- The scopes inside the namespace are exactly the required ones. -/
def ScopesFit (profile : ResolvedDelegatedOidcTrustProfile) (payload : Members N) : Prop :=
  ∀ scope, (scope ∈ scopesOf payload ∧ profile.delegationScopeNamespace <+: scope) ↔
    scope ∈ profile.requiredScopes

/-- `now` is in seconds. -/
def AgeFits (now : ℤ) (profile : ResolvedDelegatedOidcTrustProfile) (payload : Members N) : Prop :=
  ∃ issued expires iat exp, get payload (js "iat") = some (.num issued) ∧
    get payload (js "exp") = some (.num expires) ∧
    PayloadNumber.toInteger issued = some iat ∧ PayloadNumber.toInteger expires = some exp ∧
    iat < exp ∧ exp - iat ≤ profile.maxTokenAgeSeconds + profile.clockToleranceSeconds ∧
    now - iat ≤ profile.maxTokenAgeSeconds + profile.clockToleranceSeconds ∧
    iat ≤ now + profile.clockToleranceSeconds

/-- What is asked of a payload beside its client. -/
structure PassesOtherwise (toLowerCase : JsString → JsString)
    (profile : ResolvedDelegatedOidcTrustProfile) (header payload : Members N) (now : ℤ) :
    Prop where
  typed : TypedAsAccessToken toLowerCase header payload
  audience : AudienceFits profile payload
  subject : HasSubject payload
  scopes : ScopesFit profile payload
  age : AgeFits now profile payload

/-- A token to be trusted, as the checks are meant. -/
def Trusted (libraries : Libraries T K N) (toLowerCase : JsString → JsString) (token : T)
    (profile : ResolvedDelegatedOidcTrustProfile) (clock : Clock) : Prop :=
  ∃ header payload, SignaturePasses libraries token profile clock.verifiedAt header payload ∧
    PassesOtherwise toLowerCase profile header (membersOf payload) (clock.checkedAt / 1000) ∧
    OneClient profile (membersOf payload)

/-- One client claim is an allowed id, the other is carried and no text, or the empty one. -/
def PollutedClient (profile : ResolvedDelegatedOidcTrustProfile) (payload : Members N) : Prop :=
  ∃ id ∈ profile.allowedClientIds, ∃ name other,
    ((name = js "azp" ∧ other = js "client_id") ∨ (name = js "client_id" ∧ other = js "azp")) ∧
    get payload name = some (.str id) ∧ get payload other ≠ none ∧
    nonEmptyClaim payload other = none

end Trust

section ValidatedProfiles

variable {N : Type} [PayloadNumber N] {parseUrl : JsString → Option Url}

/-- What the checks of a token rely on in the profile. -/
structure Usable (profile : ResolvedDelegatedOidcTrustProfile) : Prop where
  clients : ∀ id ∈ profile.allowedClientIds, id ≠ []
  scopes : ∀ scope ∈ profile.requiredScopes, profile.delegationScopeNamespace <+: scope

lemma assertIdentifiers_ok {name : JsString} {value : List JsString} {u : Unit}
    (h : assertIdentifiers name value = .ok u) : ∀ entry ∈ value, entry ≠ [] := by
  induction value with
  | nil => exact fun entry h => absurd h List.not_mem_nil
  | cons first rest ih =>
    obtain ⟨_, hfirst, hrest⟩ := bind_eq_ok.mp h
    have hne : first ≠ [] := by
      have hok := ensure_eq_ok.mp hfirst
      simp only [Bool.and_eq_true, decide_eq_true_eq] at hok
      exact hok.1
    intro entry hentry
    rcases List.mem_cons.mp hentry with rfl | hlater
    · exact hne
    · exact ih hrest entry hlater

lemma assertStringArray_ok {value : List JsString} {name : JsString} {allowEmpty : Bool} {u : Unit}
    (h : assertStringArray value name allowEmpty = .ok u) : ∀ entry ∈ value, entry ≠ [] := by
  obtain ⟨_, -, h⟩ := bind_eq_ok.mp h
  obtain ⟨_, hentries, -⟩ := bind_eq_ok.mp h
  exact assertIdentifiers_ok hentries

lemma usable_of_validateProfile {name : JsString} {raw : DelegatedOidcTrustProfile N}
    {profile : ResolvedDelegatedOidcTrustProfile}
    (h : validateProfile parseUrl name raw = .ok profile) : Usable profile := by
  obtain ⟨_, -, h⟩ := bind_eq_ok.mp h
  obtain ⟨issuer, -, h⟩ := bind_eq_ok.mp h
  obtain ⟨_, -, h⟩ := bind_eq_ok.mp h
  obtain ⟨_, -, h⟩ := bind_eq_ok.mp h
  obtain ⟨_, -, h⟩ := bind_eq_ok.mp h
  obtain ⟨_, hclients, h⟩ := bind_eq_ok.mp h
  obtain ⟨_, -, h⟩ := bind_eq_ok.mp h
  obtain ⟨_, -, h⟩ := bind_eq_ok.mp h
  obtain ⟨_, -, h⟩ := bind_eq_ok.mp h
  obtain ⟨_, -, h⟩ := bind_eq_ok.mp h
  obtain ⟨_, hscopes, h⟩ := bind_eq_ok.mp h
  obtain ⟨maxTokenAgeSeconds, -, h⟩ := bind_eq_ok.mp h
  obtain ⟨clockToleranceSeconds, -, h⟩ := bind_eq_ok.mp h
  obtain ⟨_, -, h⟩ := bind_eq_ok.mp h
  obtain ⟨provisioning, -, h⟩ := bind_eq_ok.mp h
  obtain rfl := Except.ok.inj h
  refine ⟨assertStringArray_ok hclients, fun scope hscope => ?_⟩
  exact startsWith_iff.mp (List.all_eq_true.mp (ensure_eq_ok.mp hscopes) scope hscope)

lemma mem_resolveEntries {profiles : List (JsString × DelegatedOidcTrustProfile N)}
    {resolved : List (JsString × ResolvedDelegatedOidcTrustProfile)}
    (h : resolveEntries parseUrl profiles = .ok resolved)
    {entry : JsString × ResolvedDelegatedOidcTrustProfile} (hmem : entry ∈ resolved) :
    ∃ raw : DelegatedOidcTrustProfile N, validateProfile parseUrl entry.1 raw = .ok entry.2 := by
  induction profiles generalizing resolved with
  | nil =>
    obtain rfl := Except.ok.inj h
    exact absurd hmem List.not_mem_nil
  | cons first profiles ih =>
    obtain ⟨profile, hprofile, h⟩ := bind_eq_ok.mp h
    obtain ⟨later, hlater, h⟩ := bind_eq_ok.mp h
    obtain rfl := Except.ok.inj h
    rcases List.mem_cons.mp hmem with rfl | hrest
    · exact ⟨first.2, hprofile⟩
    · exact ih hlater hrest

lemma usable_of_mem {profiles : List (JsString × DelegatedOidcTrustProfile N)}
    {resolved : List (JsString × ResolvedDelegatedOidcTrustProfile)}
    (h : validateDelegatedProfiles parseUrl profiles = .ok resolved)
    {entry : JsString × ResolvedDelegatedOidcTrustProfile} (hmem : entry ∈ resolved) :
    Usable entry.2 := by
  obtain ⟨_, -, h⟩ := bind_eq_ok.mp h
  obtain ⟨raw, hraw⟩ := mem_resolveEntries h hmem
  exact usable_of_validateProfile hraw

end ValidatedProfiles

section Checks

variable {T K N : Type} [PayloadNumber N] {toLowerCase : JsString → JsString}
  {header payload : Members N} {profile : ResolvedDelegatedOidcTrustProfile}

omit [PayloadNumber N] in
lemma asString_eq_some {claim : Option (Json N)} {text : JsString} :
    asString claim = some text ↔ claim = some (.str text) := by
  unfold asString
  split <;> simp_all

omit [PayloadNumber N] in
lemma nonEmptyClaim_eq_some {name text : JsString} :
    nonEmptyClaim payload name = some text ↔ get payload name = some (.str text) ∧ text ≠ [] := by
  simp [nonEmptyClaim, Option.filter_eq_some_iff, asString_eq_some]

omit [PayloadNumber N] in
lemma lowered_eq {claim : Option (Json N)} {text : JsString} (htext : text ≠ []) :
    ((asString claim).map toLowerCase).getD [] = text ↔
      ∃ typ, claim = some (.str typ) ∧ toLowerCase typ = text := by
  cases hclaim : asString claim with
  | none =>
    have hnot : ∀ typ, claim ≠ some (.str typ) := by
      intro typ htyp
      rw [asString_eq_some.mpr htyp] at hclaim
      cases hclaim
    simpa [hnot] using htext.symm
  | some typ =>
    obtain rfl := asString_eq_some.mp hclaim
    simp

omit [PayloadNumber N] in
lemma assertAccessTokenType_ok_iff {u : Unit} :
    assertAccessTokenType toLowerCase payload (get header (js "typ")) = .ok u ↔
      TypedAsAccessToken toLowerCase header payload := by
  simp only [assertAccessTokenType, ensure_eq_ok, Bool.or_eq_true, decide_eq_true_eq]
  rw [lowered_eq (by decide), lowered_eq (by decide)]
  rfl

omit [PayloadNumber N] in
lemma asString_mapM {items : List (Json N)} {texts : List JsString} :
    (items.mapM fun item => asString (some item)) = some texts ↔ items = texts.map .str := by
  induction items generalizing texts with
  | nil => cases texts <;> simp
  | cons item items ih =>
    simp only [List.mapM_cons, Option.bind_eq_bind, Option.bind_eq_some_iff, asString_eq_some,
      Option.some.injEq, ih]
    cases texts with
    | nil => simp
    | cons text texts => simp [and_comm]

omit [PayloadNumber N] in
lemma exists_of_mapM_none {items : List (Json N)}
    (h : (items.mapM fun item => asString (some item)) = none) :
    ∃ item ∈ items, ∀ text, item ≠ .str text := by
  by_contra hall
  push Not at hall
  have htexts : ∃ texts : List JsString, items = texts.map .str := by
    clear h
    induction items with
    | nil => exact ⟨[], rfl⟩
    | cons item items ih =>
      obtain ⟨text, rfl⟩ := hall item List.mem_cons_self
      obtain ⟨texts, rfl⟩ := ih fun other hother => hall other (List.mem_cons_of_mem _ hother)
      exact ⟨text :: texts, rfl⟩
  obtain ⟨texts, htexts⟩ := htexts
  rw [asString_mapM.mpr htexts] at h
  cases h

omit [PayloadNumber N] in
/-- The audiences are the elements of the set when these are texts, and none otherwise. -/
lemma normalizeAudience_cases (payload : Members N) :
    audienceSet payload = (normalizeAudience (get payload (js "aud"))).map .str ∨
      (normalizeAudience (get payload (js "aud")) = [] ∧
        ∃ entry ∈ audienceSet payload, ∀ text, entry ≠ .str text) := by
  unfold audienceSet normalizeAudience
  cases get payload (js "aud") with
  | none => exact .inl rfl
  | some claim =>
    cases claim with
    | arr items =>
      cases hmap : items.mapM fun item => asString (some item) with
      | none => exact .inr ⟨by simp [hmap], exists_of_mapM_none hmap⟩
      | some texts => exact .inl (by simpa [hmap] using asString_mapM.mp hmap)
    | str text => exact .inl rfl
    | null => exact .inr ⟨rfl, .null, List.mem_singleton_self _, by simp⟩
    | bool b => exact .inr ⟨rfl, .bool b, List.mem_singleton_self _, by simp⟩
    | num n => exact .inr ⟨rfl, .num n, List.mem_singleton_self _, by simp⟩
    | obj members => exact .inr ⟨rfl, .obj members, List.mem_singleton_self _, by simp⟩

omit [PayloadNumber N] in
lemma assertAudience_ok_iff {u : Unit} :
    assertAudience payload profile = .ok u ↔ AudienceFits profile payload := by
  have hcode : assertAudience payload profile = .ok u ↔
      profile.requiredAudience ∈ normalizeAudience (get payload (js "aud")) ∧
        ∀ aud ∈ normalizeAudience (get payload (js "aud")),
          aud = profile.requiredAudience ∨ aud ∈ profile.additionalAllowedAudiences := by
    rw [assertAudience, bind_eq_ok]
    simp only [ensure_eq_ok, decide_eq_true_eq, List.all_eq_true, List.mem_cons]
    exact ⟨fun h => h.elim fun _ hfits => hfits, fun h => ⟨(), h⟩⟩
  rw [hcode, AudienceFits]
  rcases normalizeAudience_cases payload with hset | ⟨hnone, entry, hentry, hnot⟩
  · rw [hset]
    simp
  · rw [hnone]
    constructor
    · rintro ⟨hmem, -⟩
      exact absurd hmem List.not_mem_nil
    · rintro ⟨-, hall⟩
      obtain ⟨aud, haud, -⟩ := hall entry hentry
      exact absurd haud (hnot aud)

omit [PayloadNumber N] in
lemma requireExternalSubject_ok_iff :
    (∃ sub, requireExternalSubject payload = .ok sub) ↔ HasSubject payload := by
  unfold requireExternalSubject HasSubject
  cases hclaim : nonEmptyClaim payload (js "sub") with
  | none =>
    have hnot : ¬ ∃ sub, get payload (js "sub") = some (.str sub) ∧ sub ≠ [] := by
      rintro ⟨sub, hsub⟩
      rw [nonEmptyClaim_eq_some.mpr hsub] at hclaim
      cases hclaim
    simpa using hnot
  | some sub => simpa using ⟨sub, nonEmptyClaim_eq_some.mp hclaim⟩

omit [PayloadNumber N] in
lemma assertScopesAndReturn_ok_iff (husable : Usable profile) :
    (∃ scopes, assertScopesAndReturn payload profile = .ok scopes) ↔ ScopesFit profile payload := by
  have hcode : (∃ scopes, assertScopesAndReturn payload profile = .ok scopes) ↔
      (∀ required ∈ profile.requiredScopes, required ∈ scopesOf payload) ∧
        ∀ scope ∈ scopesOf payload, profile.delegationScopeNamespace <+: scope →
          scope ∈ profile.requiredScopes := by
    simp only [assertScopesAndReturn, bind_eq_ok, ensure_eq_ok, List.all_eq_true,
      decide_eq_true_eq, Bool.or_eq_true, Bool.not_eq_true', ← startsWith_iff]
    constructor
    · rintro ⟨scopes, _, hrequired, _, hinside, -⟩
      exact ⟨hrequired, fun scope hscope hstarts =>
        (hinside scope hscope).resolve_left (by simp [hstarts])⟩
    · rintro ⟨hrequired, hinside⟩
      refine ⟨scopesOf payload, (), hrequired, (), fun scope hscope => ?_, rfl⟩
      cases hstarts : startsWith scope profile.delegationScopeNamespace with
      | false => exact .inl rfl
      | true => exact .inr (hinside scope hscope hstarts)
  rw [hcode]
  constructor
  · rintro ⟨hrequired, hinside⟩ scope
    exact ⟨fun h => hinside scope h.1 h.2,
      fun h => ⟨hrequired scope h, husable.scopes scope h⟩⟩
  · intro hfit
    exact ⟨fun scope h => ((hfit scope).mpr h).1, fun scope h hstarts =>
      (hfit scope).mp ⟨h, hstarts⟩⟩

omit [PayloadNumber N] in
lemma asNumber_eq_some {claim : Option (Json N)} {n : N} :
    asNumber claim = some n ↔ claim = some (.num n) := by
  unfold asNumber
  split <;> simp_all

lemma assertTokenAge_ok_iff {nowMs : ℤ} {u : Unit} :
    assertTokenAge nowMs payload profile = .ok u ↔ AgeFits (nowMs / 1000) profile payload := by
  unfold assertTokenAge AgeFits
  constructor
  · intro h
    split at h
    · rename_i issued expires hissued hexpires
      split at h
      · rename_i iat exp hiat hexp
        obtain ⟨_, horder, h⟩ := bind_eq_ok.mp h
        obtain ⟨_, hfuture, h⟩ := bind_eq_ok.mp h
        obtain ⟨hlifetime, hage⟩ := of_decide_eq_true (ensure_eq_ok.mp h)
        exact ⟨issued, expires, iat, exp, asNumber_eq_some.mp hissued,
          asNumber_eq_some.mp hexpires, hiat, hexp, of_decide_eq_true (ensure_eq_ok.mp horder),
          hlifetime, hage, of_decide_eq_true (ensure_eq_ok.mp hfuture)⟩
      · cases h
    · cases h
  · rintro ⟨issued, expires, iat, exp, hissued, hexpires, hiat, hexp, horder, hlifetime, hage,
      hfuture⟩
    simp only [asNumber_eq_some.mpr hissued, asNumber_eq_some.mpr hexpires, hiat, hexp]
    refine bind_eq_ok.mpr ⟨(), ensure_eq_ok.mpr (decide_eq_true horder), ?_⟩
    refine bind_eq_ok.mpr ⟨(), ensure_eq_ok.mpr (decide_eq_true hfuture), ?_⟩
    exact ensure_eq_ok.mpr (decide_eq_true ⟨hlifetime, hage⟩)

omit [PayloadNumber N] in
lemma nonEmptyClaim_eq_none {name : JsString} (h : nonEmptyClaim payload name = none)
    {text : JsString} (htext : text ≠ []) : get payload name ≠ some (.str text) := by
  intro hget
  rw [nonEmptyClaim_eq_some.mpr ⟨hget, htext⟩] at h
  cases h

omit [PayloadNumber N] in
/-- A claim beside one that is an id is the same id, is absent or pollutes it. -/
lemma beside_cases {other id : JsString} (h : nonEmptyClaim payload other = none) :
    (∀ claim, get payload other = some claim → claim = .str id) ∨
      (get payload other ≠ none ∧ nonEmptyClaim payload other = none) := by
  cases hget : get payload other with
  | none => exact .inl (by simp)
  | some claim => exact .inr ⟨by simp, h⟩

omit [PayloadNumber N] in
lemma oneClient_of_claims {id : JsString} (hid : id ∈ profile.allowedClientIds)
    (hcarried : get payload (js "azp") ≠ none ∨ get payload (js "client_id") ≠ none)
    (hazp : ∀ claim, get payload (js "azp") = some claim → claim = .str id)
    (hclient : ∀ claim, get payload (js "client_id") = some claim → claim = .str id) :
    OneClient profile payload := by
  refine ⟨hcarried, id, hid, fun name hname => ?_⟩
  simp only [List.mem_cons, List.not_mem_nil, or_false] at hname
  rcases hname with rfl | rfl
  · exact hazp
  · exact hclient

omit [PayloadNumber N] in
lemma eq_of_get {name id : JsString} (h : get payload name = some (.str id)) :
    ∀ claim, get payload name = some claim → claim = .str id :=
  fun _ hclaim => Option.some.inj (hclaim.symm.trans h)

omit [PayloadNumber N] in
/-- What the code takes for one allowed client is that, or one beside a claim it overlooks. -/
lemma clients_of_code {id : JsString} (hcode : normalizeClientId payload = .ok id)
    (hid : id ∈ profile.allowedClientIds) :
    OneClient profile payload ∨ PollutedClient profile payload := by
  unfold normalizeClientId at hcode
  split at hcode
  · rename_i azp clientId hazp hclient
    split_ifs at hcode with heq
    obtain rfl := Except.ok.inj hcode
    obtain rfl := not_not.mp heq
    have hget := (nonEmptyClaim_eq_some.mp hazp).1
    exact .inl (oneClient_of_claims hid (.inl (by simp [hget])) (eq_of_get hget)
      (eq_of_get (nonEmptyClaim_eq_some.mp hclient).1))
  · rename_i azp hazp hclient
    obtain rfl := Except.ok.inj hcode
    have hget := (nonEmptyClaim_eq_some.mp hazp).1
    rcases beside_cases hclient with hsame | ⟨hcarried, hnone⟩
    · exact .inl (oneClient_of_claims hid (.inl (by simp [hget])) (eq_of_get hget) hsame)
    · exact .inr ⟨_, hid, _, _, .inl ⟨rfl, rfl⟩, hget, hcarried, hnone⟩
  · rename_i clientId hazp hclient
    obtain rfl := Except.ok.inj hcode
    have hget := (nonEmptyClaim_eq_some.mp hclient).1
    rcases beside_cases hazp with hsame | ⟨hcarried, hnone⟩
    · exact .inl (oneClient_of_claims hid (.inr (by simp [hget])) hsame (eq_of_get hget))
    · exact .inr ⟨_, hid, _, _, .inr ⟨rfl, rfl⟩, hget, hcarried, hnone⟩
  · cases hcode

omit [PayloadNumber N] in
/-- An absent claim, or one that is the id. -/
lemma claim_cases {name id : JsString} (hid : id ≠ [])
    (h : ∀ claim, get payload name = some claim → claim = .str id) :
    (get payload name = none ∧ nonEmptyClaim payload name = none) ∨
      nonEmptyClaim payload name = some id := by
  cases hget : get payload name with
  | none => exact .inl ⟨rfl, by simp [nonEmptyClaim, asString, hget]⟩
  | some claim => exact .inr (nonEmptyClaim_eq_some.mpr ⟨hget.trans (by rw [h claim hget]), hid⟩)

omit [PayloadNumber N] in
lemma code_of_oneClient (husable : Usable profile) (h : OneClient profile payload) :
    ∃ id ∈ profile.allowedClientIds, normalizeClientId payload = .ok id := by
  obtain ⟨hcarried, id, hid, hclaims⟩ := h
  refine ⟨id, hid, ?_⟩
  have hazp := claim_cases (husable.clients id hid) (hclaims (js "azp") (by simp))
  have hclient := claim_cases (husable.clients id hid) (hclaims (js "client_id") (by simp))
  unfold normalizeClientId
  rcases hazp with ⟨hazpAbsent, hazp⟩ | hazp <;>
    rcases hclient with ⟨hclientAbsent, hclient⟩ | hclient
  · exact absurd hcarried (by simp [hazpAbsent, hclientAbsent])
  all_goals simp [hazp, hclient]

omit [PayloadNumber N] in
lemma code_of_pollutedClient (husable : Usable profile) (h : PollutedClient profile payload) :
    ∃ id ∈ profile.allowedClientIds, normalizeClientId payload = .ok id := by
  obtain ⟨id, hid, name, other, hnames, hget, -, hnone⟩ := h
  refine ⟨id, hid, ?_⟩
  have hsome := nonEmptyClaim_eq_some.mpr ⟨hget, husable.clients id hid⟩
  unfold normalizeClientId
  rcases hnames with ⟨rfl, rfl⟩ | ⟨rfl, rfl⟩ <;> simp [hsome, hnone]

omit [PayloadNumber N] in
lemma not_oneClient_of_polluted (husable : Usable profile) (h : PollutedClient profile payload) :
    ¬ OneClient profile payload := by
  rintro ⟨-, id, hid, hclaims⟩
  obtain ⟨-, -, name, other, hnames, -, hcarried, hnone⟩ := h
  have hother : other ∈ [js "azp", js "client_id"] := by
    rcases hnames with ⟨-, rfl⟩ | ⟨-, rfl⟩ <;> simp
  obtain ⟨claim, hclaim⟩ := Option.ne_none_iff_exists'.mp hcarried
  refine nonEmptyClaim_eq_none hnone (husable.clients id hid) ?_
  rw [hclaim, hclaims other hother claim hclaim]

lemma checkClaims_ok_iff (husable : Usable profile) {nowMs : ℤ} :
    (∃ result, checkClaims toLowerCase header payload profile nowMs = .ok result) ↔
      PassesOtherwise toLowerCase profile header payload (nowMs / 1000) ∧
        (OneClient profile payload ∨ PollutedClient profile payload) := by
  constructor
  · rintro ⟨result, h⟩
    obtain ⟨_, htype, h⟩ := bind_eq_ok.mp h
    obtain ⟨_, haudience, h⟩ := bind_eq_ok.mp h
    obtain ⟨clientId, hclient, h⟩ := bind_eq_ok.mp h
    obtain ⟨_, hallowed, h⟩ := bind_eq_ok.mp h
    obtain ⟨sub, hsub, h⟩ := bind_eq_ok.mp h
    obtain ⟨scopes, hscopes, h⟩ := bind_eq_ok.mp h
    obtain ⟨_, hage, -⟩ := bind_eq_ok.mp h
    have hid := of_decide_eq_true (ensure_eq_ok.mp hallowed)
    exact ⟨⟨assertAccessTokenType_ok_iff.mp htype, assertAudience_ok_iff.mp haudience,
      requireExternalSubject_ok_iff.mp ⟨sub, hsub⟩,
      (assertScopesAndReturn_ok_iff husable).mp ⟨scopes, hscopes⟩,
      assertTokenAge_ok_iff.mp hage⟩, clients_of_code hclient hid⟩
  · rintro ⟨hpasses, hclients⟩
    obtain ⟨id, hid, hcode⟩ := hclients.elim (code_of_oneClient husable)
      (code_of_pollutedClient husable)
    obtain ⟨sub, hsub⟩ := requireExternalSubject_ok_iff.mpr hpasses.subject
    obtain ⟨scopes, hscopes⟩ := (assertScopesAndReturn_ok_iff husable).mpr hpasses.scopes
    have htype := assertAccessTokenType_ok_iff (u := ()).mpr hpasses.typed
    have haudience := assertAudience_ok_iff (u := ()).mpr hpasses.audience
    have hage := assertTokenAge_ok_iff (u := ()).mpr hpasses.age
    have hallowed : assertAllowedClient id profile = .ok () :=
      ensure_eq_ok.mpr (decide_eq_true hid)
    unfold checkClaims
    rw [htype, haudience, hcode]
    simp only [bind, Except.bind, hallowed, hsub, hscopes, hage]
    exact ⟨_, rfl⟩

end Checks

section Verdict

variable {T K N : Type} [PayloadNumber N] {libraries : Libraries T K N}
  {toLowerCase : JsString → JsString} {token : T} {profile : ResolvedDelegatedOidcTrustProfile}
  {clock : Clock}

omit [PayloadNumber N] in
lemma SignaturePasses.unique {nowMs : ℤ} {header header' : Members N} {payload payload' : Json N}
    (h : SignaturePasses libraries token profile nowMs header payload)
    (h' : SignaturePasses libraries token profile nowMs header' payload') :
    header = header' ∧ payload = payload' := by
  obtain ⟨hheader, kid, getKey, key, hkid, -, hclient, hkey, hverify⟩ := h
  obtain ⟨hheader', kid', getKey', key', hkid', -, hclient', hkey', hverify'⟩ := h'
  obtain rfl := Option.some.inj (hheader.symm.trans hheader')
  obtain rfl : kid = kid' := by simpa using hkid.symm.trans hkid'
  obtain rfl := Option.some.inj (hclient.symm.trans hclient')
  obtain rfl := Option.some.inj (hkey.symm.trans hkey')
  exact ⟨rfl, Option.some.inj (hverify.symm.trans hverify')⟩

lemma signedPayload_ok_iff {kid : JsString} {nowMs : ℤ} {payload : Json N} :
    signedPayload libraries token kid profile nowMs = .ok payload ↔
      isPayload payload = true ∧ ∃ getSigningKey signingKey,
        libraries.oidcClient = some getSigningKey ∧ getSigningKey kid = some signingKey ∧
        libraries.verify token signingKey (verifyOptions profile) nowMs = some payload := by
  unfold signedPayload
  constructor
  · intro h
    split at h
    · cases h
    · rename_i getSigningKey hclient
      split at h
      · cases h
      · rename_i signingKey hkey
        split at h
        · cases h
        · rename_i signed hverify
          split at h
          · rename_i hpayload
            obtain rfl := Except.ok.inj h
            exact ⟨hpayload, getSigningKey, signingKey, hclient, hkey, hverify⟩
          · cases h
  · rintro ⟨hpayload, getSigningKey, signingKey, hclient, hkey, hverify⟩
    simp only [hclient, hkey, hverify, hpayload, if_true]

lemma isPayload_of_subject {payload : Json N} (h : HasSubject (membersOf payload)) :
    isPayload payload = true := by
  obtain ⟨sub, hsub, -⟩ := h
  cases payload with
  | obj members => rfl
  | _ => exact absurd hsub (by simp [membersOf])

lemma verify_ok_iff (husable : Usable profile) :
    (∃ result, verify libraries toLowerCase token profile clock = .ok result) ↔
      ∃ header payload,
        SignaturePasses libraries token profile clock.verifiedAt header payload ∧
        PassesOtherwise toLowerCase profile header (membersOf payload)
          (clock.checkedAt / 1000) ∧
        (OneClient profile (membersOf payload) ∨ PollutedClient profile (membersOf payload)) := by
  unfold verify
  constructor
  · rintro ⟨result, h⟩
    split at h
    · cases h
    · rename_i header hheader
      split at h
      · cases h
      · rename_i kid hkid
        obtain ⟨payload, hpayload, h⟩ := bind_eq_ok.mp h
        obtain ⟨-, getSigningKey, signingKey, hclient, hkey, hverify⟩ :=
          signedPayload_ok_iff.mp hpayload
        obtain ⟨hkidClaim, hkidNe⟩ := nonEmptyClaim_eq_some.mp hkid
        obtain ⟨hpasses, hclients⟩ := (checkClaims_ok_iff husable).mp ⟨result, h⟩
        exact ⟨header, payload, ⟨hheader, kid, getSigningKey, signingKey, hkidClaim, hkidNe,
          hclient, hkey, hverify⟩, hpasses, hclients⟩
  · rintro ⟨header, payload, ⟨hheader, kid, getSigningKey, signingKey, hkidClaim, hkidNe,
      hclient, hkey, hverify⟩, hpasses, hclients⟩
    obtain ⟨result, hresult⟩ := (checkClaims_ok_iff husable).mpr ⟨hpasses, hclients⟩
    have hkid := nonEmptyClaim_eq_some.mpr ⟨hkidClaim, hkidNe⟩
    have hsigned := signedPayload_ok_iff.mpr ⟨isPayload_of_subject hpasses.subject, getSigningKey,
      signingKey, hclient, hkey, hverify⟩
    simp only [hheader, hkid]
    exact ⟨result, bind_eq_ok.mpr ⟨payload, hsigned, hresult⟩⟩

/-- A token is accepted if and only if it is to be trusted, unless one of its two client claims is
an allowed id and the other is no id at all; and none is accepted beyond its age. -/
theorem verify_iff_trusted_iff {parseUrl : JsString → Option Url}
    {profiles : List (JsString × DelegatedOidcTrustProfile N)}
    {resolved : List (JsString × ResolvedDelegatedOidcTrustProfile)}
    (hprofiles : validateDelegatedProfiles parseUrl profiles = .ok resolved) {name : JsString}
    (hprofile : (name, profile) ∈ resolved) :
    (((∃ result, verify libraries toLowerCase token profile clock = .ok result) ↔
        Trusted libraries toLowerCase token profile clock) ↔
      ¬ ∃ header payload,
        SignaturePasses libraries token profile clock.verifiedAt header payload ∧
        PassesOtherwise toLowerCase profile header (membersOf payload)
          (clock.checkedAt / 1000) ∧
        PollutedClient profile (membersOf payload)) ∧
    ∀ result, verify libraries toLowerCase token profile clock = .ok result →
      ∃ header payload issued iat,
        SignaturePasses libraries token profile clock.verifiedAt header payload ∧
        get (membersOf payload) (js "iat") = some (.num issued) ∧
        PayloadNumber.toInteger issued = some iat ∧
        clock.checkedAt / 1000 ≤
          iat + profile.maxTokenAgeSeconds + profile.clockToleranceSeconds := by
  have husable : Usable profile := usable_of_mem hprofiles hprofile
  constructor
  · rw [verify_ok_iff husable]
    constructor
    · rintro hiff ⟨header, payload, hsigned, hpasses, hpolluted⟩
      obtain ⟨header', payload', hsigned', -, hone⟩ :=
        hiff.mp ⟨header, payload, hsigned, hpasses, .inr hpolluted⟩
      obtain ⟨rfl, rfl⟩ := hsigned.unique hsigned'
      exact not_oneClient_of_polluted husable hpolluted hone
    · intro hclean
      constructor
      · rintro ⟨header, payload, hsigned, hpasses, hone | hpolluted⟩
        · exact ⟨header, payload, hsigned, hpasses, hone⟩
        · exact absurd ⟨header, payload, hsigned, hpasses, hpolluted⟩ hclean
      · rintro ⟨header, payload, hsigned, hpasses, hone⟩
        exact ⟨header, payload, hsigned, hpasses, .inl hone⟩
  · intro result hresult
    obtain ⟨header, payload, hsigned, hpasses, -⟩ := (verify_ok_iff husable).mp ⟨result, hresult⟩
    obtain ⟨issued, _, iat, _, hissued, -, hiat, -, -, -, hage, -⟩ := hpasses.age
    exact ⟨header, payload, issued, iat, hsigned, hissued, hiat, by omega⟩

end Verdict

section Example

instance : PayloadNumber ℤ := ⟨some⟩

def httpsUrl : JsString → Option Url := fun _ => some ⟨js "https:", [], []⟩

def submitProfile : DelegatedOidcTrustProfile ℤ where
  expectedIssuer := js "https://issuer.example/realms/appspine-dev"
  requiredAudience := js "approve"
  additionalAllowedAudiences := []
  allowedClientIds := [js "wiki-delegation"]
  requiredScopes := [js "approve:knowledge-document-change:submit"]
  delegationScopeNamespace := js "approve:"
  maxTokenAgeSeconds := 120
  clockToleranceSeconds := 10

def resolvedProfile : ResolvedDelegatedOidcTrustProfile where
  expectedIssuer := js "https://issuer.example/realms/appspine-dev"
  allowInsecureHttp := false
  requiredAudience := js "approve"
  additionalAllowedAudiences := []
  allowedClientIds := [js "wiki-delegation"]
  requiredScopes := [js "approve:knowledge-document-change:submit"]
  delegationScopeNamespace := js "approve:"
  maxTokenAgeSeconds := 120
  clockToleranceSeconds := 10
  provisioning := .never

/-- A token with these client claims, issued at 1000 and good for 100 seconds. -/
def claimsWith (clients : Members ℤ) : Members ℤ :=
  [(js "typ", .str (js "Bearer")), (js "sub", .str (js "external-user-1")),
    (js "aud", .str (js "approve")),
    (js "scope", .str (js "profile approve:knowledge-document-change:submit")),
    (js "iat", .num 1000), (js "exp", .num 1100)] ++ clients

/-- The token is signed by the one key there is. -/
def signedLibraries (payload : Members ℤ) : Libraries Unit Unit ℤ where
  decode := fun _ => some [(js "kid", .str (js "key-1"))]
  oidcClient := some fun _ => some ()
  verify := fun _ _ _ _ => some (.obj payload)

def azpOnly : Members ℤ := claimsWith [(js "azp", .str (js "wiki-delegation"))]

/-- `azp` is an array, `client_id` the id in it. -/
def pollutedAzp : Members ℤ :=
  claimsWith [(js "azp", .arr [.str (js "wiki-delegation")]),
    (js "client_id", .str (js "wiki-delegation"))]

lemma validate_submitProfile :
    validateDelegatedProfiles httpsUrl [(js "submit", submitProfile)] =
      .ok [(js "submit", resolvedProfile)] := by
  rfl

theorem verify_iff_trusted_iff_azpOnly :
    ((∃ result, verify (signedLibraries azpOnly) asciiLower () resolvedProfile
        ⟨1050000, 1050000⟩ = .ok result) ↔
      Trusted (signedLibraries azpOnly) asciiLower () resolvedProfile ⟨1050000, 1050000⟩) ↔
    ¬ ∃ header payload,
      SignaturePasses (signedLibraries azpOnly) () resolvedProfile 1050000 header payload ∧
      PassesOtherwise asciiLower resolvedProfile header (membersOf payload) (1050000 / 1000) ∧
      PollutedClient resolvedProfile (membersOf payload) :=
  (verify_iff_trusted_iff validate_submitProfile (List.mem_singleton_self _)).1

/-- A token whose `azp` is an array is accepted for its `client_id`. -/
theorem polluted_azp_accepted :
    validateDelegatedProfiles httpsUrl [(js "submit", submitProfile)] =
      .ok [(js "submit", resolvedProfile)] ∧
    (∃ result, verify (signedLibraries pollutedAzp) asciiLower () resolvedProfile
      ⟨1050000, 1050000⟩ = .ok result) ∧
    ¬ Trusted (signedLibraries pollutedAzp) asciiLower () resolvedProfile
      ⟨1050000, 1050000⟩ := by
  refine ⟨validate_submitProfile, ⟨_, rfl⟩, ?_⟩
  rintro ⟨header, payload, ⟨-, kid, getSigningKey, signingKey, -, -, -, -, hverify⟩, -,
    -, id, -, hclaims⟩
  obtain rfl := Option.some.inj hverify
  have hazp := hclaims (js "azp") List.mem_cons_self (.arr [.str (js "wiki-delegation")]) rfl
  cases hazp

end Example

end Appspine.DelegatedTokens
