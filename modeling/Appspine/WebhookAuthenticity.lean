import Appspine.Results
import Appspine.Webhook

/-!
# What a verified webhook is worth

The signing input is joined by line feeds, which none of its fields contains, so a signature
of a signed input is accepted for that input's fields only. Built headers are accepted for
the key they were built for.
-/
namespace Appspine.Webhook
open JsText InsertionMap Utf16 Results

variable {p : Platform}

section Inversion

lemma rejectIf_eq_ok {bad : Bool} {error : WebhookVerificationError} {u : Unit} :
    rejectIf bad error = .ok u ↔ bad = false := by
  cases bad <;> simp [rejectIf]

/-- The header is there, and is not empty. -/
def HasHeader (headers : Entries JsString JsString) (name value : JsString) : Prop :=
  InsertionMap.get headers name = some value ∧ value ≠ []

lemma requiredHeader_eq_ok {headers : Entries JsString JsString} {name value : JsString} :
    requiredHeader headers name = .ok value ↔ HasHeader headers name value := by
  unfold requiredHeader HasHeader
  cases hget : InsertionMap.get headers name with
  | none => simp
  | some found =>
    simp only [Option.some.injEq]
    split_ifs with hnil
    · constructor
      · intro h
        cases h
      · rintro ⟨rfl, hne⟩
        exact absurd hnil hne
    · rw [Except.ok.injEq]
      exact ⟨fun h => ⟨h, h ▸ hnil⟩, fun h => h.1⟩

/-- What acceptance of a request by a key amounts to. -/
structure Verifies (p : Platform) (input : VerifyWebhookV2Input) (context : WebhookKey)
    (verified : VerifiedWebhook) : Prop where
  size : ∀ limit ∈ input.maxBodyBytes, (input.body.data.length : ℚ) ≤ limit
  version : InsertionMap.get (normalizeHeaders p input.headers) (js "x-appspine-webhook-version") =
    some WEBHOOK_V2_VERSION
  keyId : HasHeader (normalizeHeaders p input.headers) (js "x-appspine-key-id") verified.keyId
  resolved : input.keyResolver verified.keyId = some context
  digest : context.capabilityDigest ≠ []
  capabilityId : HasHeader (normalizeHeaders p input.headers) (js "x-appspine-capability-id")
    verified.capabilityId
  capabilityVersion : HasHeader (normalizeHeaders p input.headers)
    (js "x-appspine-capability-version") verified.capabilityVersion
  bindingId : HasHeader (normalizeHeaders p input.headers) (js "x-appspine-binding-id")
    verified.bindingId
  bindingVersion : HasHeader (normalizeHeaders p input.headers) (js "x-appspine-binding-version")
    verified.bindingVersion
  timestamp : HasHeader (normalizeHeaders p input.headers) (js "x-appspine-timestamp")
    verified.timestamp
  eventId : HasHeader (normalizeHeaders p input.headers) (js "x-appspine-event-id") verified.eventId
  pins : verified.sourceApp = context.sourceApp ∧ verified.capabilityId = context.capabilityId ∧
    verified.capabilityVersion = context.capabilityVersion ∧
    verified.capabilityDigest = context.capabilityDigest ∧
    verified.bindingId = context.bindingId ∧ verified.bindingVersion = context.bindingVersion
  fresh : isStale input.now (p.dateParse verified.timestamp) (input.maxAgeMs.getD 300000) = false
  signature : ∃ signature, HasHeader (normalizeHeaders p input.headers) (js "x-appspine-signature")
      signature ∧ ∃ secret ∈ acceptedSecrets p context input.now,
        safeEqual (suppliedSignature signature)
          (createWebhookV2Signature p (expectedInput input verified secret)) = true

lemma elim_eq_ok {ε α : Type} {found : Option α} {error : ε} {a : α} :
    found.elim (.error error) (.ok : α → Except ε α) = .ok a ↔ found = some a := by
  cases found <;> simp

/-- No pin differs from the configured one. -/
lemma pinned_iff {ci cv bi bv ci' cv' bi' bv' : JsString} :
    (decide (ci ≠ ci') || decide (cv ≠ cv') || decide (bi ≠ bi') || decide (bv ≠ bv')) = false ↔
      ci = ci' ∧ cv = cv' ∧ bi = bi' ∧ bv = bv' := by
  simp only [Bool.or_eq_false_iff, decide_eq_false_iff_not, ne_eq, not_not, and_assoc]

lemma verifyWebhookV2_eq_ok {input : VerifyWebhookV2Input} {verified : VerifiedWebhook} :
    verifyWebhookV2 p input = .ok verified ↔ ∃ context, Verifies p input context verified := by
  simp only [verifyWebhookV2, bind_eq_ok, rejectIf_eq_ok, requiredHeader_eq_ok, elim_eq_ok,
    exists_const, decide_eq_false_iff_not, ne_eq, not_not, Bool.not_eq_false']
  constructor
  · rintro ⟨hsize, hversion, keyId, hkey, context, hcontext, hdigest, ci, hci, cv, hcv, bi, hbi, bv,
      hbv, ts, hts, ei, hei, hpins, hfresh, sig, hsig, hvalid, heq⟩
    obtain rfl := Except.ok.inj heq
    obtain ⟨hpi, hpv, hpb, hpbv⟩ := pinned_iff.mp hpins
    refine ⟨context, ?_, hversion, hkey, hcontext, hdigest, hci, hcv, hbi, hbv, hts, hei,
      ⟨rfl, hpi, hpv, rfl, hpb, hpbv⟩, hfresh, sig, hsig, List.any_eq_true.mp hvalid⟩
    intro limit hlimit
    simpa [Option.mem_def.mp hlimit] using hsize
  · rintro ⟨context, h⟩
    obtain ⟨⟨keyId, app, ci, cv, cd, bi, bv⟩, ei, ts⟩ := verified
    obtain ⟨sig, hsig, hvalid⟩ := h.signature
    obtain ⟨happ, hpi, hpv, hpd, hpb, hpbv⟩ := h.pins
    simp only at happ hpd
    subst happ hpd
    refine ⟨?_, h.version, keyId, h.keyId, context, h.resolved, h.digest, ci, h.capabilityId, cv,
      h.capabilityVersion, bi, h.bindingId, bv, h.bindingVersion, ts, h.timestamp, ei, h.eventId,
      pinned_iff.mpr ⟨hpi, hpv, hpb, hpbv⟩, h.fresh, sig, hsig, List.any_eq_true.mpr hvalid, rfl⟩
    cases hmax : input.maxBodyBytes with
    | none => rfl
    | some limit => simpa using h.size limit hmax

end Inversion

section Authentic

/-- HMAC and SHA-256 as ideal functions: injective, and their hex texts are ASCII of one line. -/
structure Ideal (p : Platform) : Prop where
  hmac_inj : ∀ secret message secret' message',
    p.hmacHex secret message = p.hmacHex secret' message' → secret = secret' ∧ message = message'
  hmac_ascii : ∀ secret message, isAscii (p.hmacHex secret message) = true
  sha256_inj : Function.Injective p.sha256Hex
  sha256_line : ∀ data, unit '\n' ∉ p.sha256Hex data

/-- The header values and the target of a signed input have no line feed. -/
structure SignedLines (signed : WebhookV2Input) : Prop where
  requestTarget : unit '\n' ∉ signed.requestTarget
  timestamp : unit '\n' ∉ signed.timestamp
  eventId : unit '\n' ∉ signed.eventId
  capabilityId : unit '\n' ∉ signed.capabilityId
  capabilityVersion : unit '\n' ∉ signed.capabilityVersion
  bindingId : unit '\n' ∉ signed.bindingId
  bindingVersion : unit '\n' ∉ signed.bindingVersion

/-- The header values and the target of a request have no line feed. -/
structure RequestLines (input : VerifyWebhookV2Input) : Prop where
  headers : ∀ name value, (name, some value) ∈ input.headers → unit '\n' ∉ value
  requestTarget : unit '\n' ∉ input.requestTarget

/-- The request carries the signature header that is built for the signed input. -/
def CarriesSignature (p : Platform) (input : VerifyWebhookV2Input) (signed : WebhookV2Input) : Prop :=
  InsertionMap.get (normalizeHeaders p input.headers) (js "x-appspine-signature") =
    InsertionMap.get (buildWebhookV2Headers p signed) (js "X-Appspine-Signature")

/-- The accepted request is the signed one, and its fields are the key's pins. -/
structure SameRequest (p : Platform) (input : VerifyWebhookV2Input) (verified : VerifiedWebhook)
    (signed : WebhookV2Input) (key : WebhookKey) : Prop where
  method : toUpperCase p input.method = toUpperCase p signed.method
  requestTarget : input.requestTarget = signed.requestTarget
  timestamp : verified.timestamp = signed.timestamp
  eventId : verified.eventId = signed.eventId
  body : input.body.data = signed.body.data
  capabilityId : verified.capabilityId = signed.capabilityId ∧ verified.capabilityId = key.capabilityId
  capabilityVersion : verified.capabilityVersion = signed.capabilityVersion ∧
    verified.capabilityVersion = key.capabilityVersion
  bindingId : verified.bindingId = signed.bindingId ∧ verified.bindingId = key.bindingId
  bindingVersion : verified.bindingVersion = signed.bindingVersion ∧
    verified.bindingVersion = key.bindingVersion

lemma exists_of_normalizeHeaders {headers : Entries JsString (Option JsString)} {name value : JsString}
    (h : InsertionMap.get (normalizeHeaders p headers) name = some value) :
    ∃ key, (key, some value) ∈ headers := by
  have hnone : InsertionMap.get ([] : Entries JsString JsString) name ≠ some value := by
    intro hget
    cases hget
  suffices hfold : (∃ key, (key, some value) ∈ headers) ∨
      InsertionMap.get ([] : Entries JsString JsString) name = some value from
    hfold.resolve_right hnone
  unfold normalizeHeaders at h
  clear hnone
  generalize ([] : Entries JsString JsString) = m at h ⊢
  induction headers generalizing m with
  | nil => exact Or.inr h
  | cons e headers ih =>
    obtain ⟨key, stored⟩ := e
    rcases ih _ h with ⟨key', hmem⟩ | hget
    · exact Or.inl ⟨key', List.mem_cons_of_mem _ hmem⟩
    · cases stored with
      | none => exact Or.inr hget
      | some v =>
        simp only [get_set] at hget
        split_ifs at hget with hname
        · obtain rfl := Option.some.inj hget
          exact Or.inl ⟨key, by simp⟩
        · exact Or.inr hget

lemma suppliedSignature_append (s : JsString) : suppliedSignature (js "sha256=" ++ s) = s := by
  rw [suppliedSignature, if_pos (startsWith_iff.mpr (List.prefix_append _ _)), List.drop_left]

lemma js_line_feed : js "\n" = [unit '\n'] := by decide

/-- The signing input determines the fields it is joined from. -/
lemma signingInput_inj (hp : Ideal p) {a b : WebhookV2Input} (ha : SignedLines a)
    (hb : SignedLines b)
    (h : buildWebhookV2SigningInput p a = buildWebhookV2SigningInput p b) :
    toUpperCase p a.method = toUpperCase p b.method ∧ a.requestTarget = b.requestTarget ∧
      a.timestamp = b.timestamp ∧ a.eventId = b.eventId ∧ a.capabilityId = b.capabilityId ∧
      a.capabilityVersion = b.capabilityVersion ∧ a.bindingId = b.bindingId ∧
      a.bindingVersion = b.bindingVersion ∧ a.body.data = b.body.data := by
  have hlines : ∀ c : WebhookV2Input, SignedLines c → ∀ s ∈ [c.requestTarget, c.timestamp, c.eventId,
      c.capabilityId, c.capabilityVersion, c.bindingId, c.bindingVersion, p.sha256Hex c.body.data],
      unit '\n' ∉ s := by
    intro c hc
    simp only [List.forall_mem_cons]
    exact ⟨hc.requestTarget, hc.timestamp, hc.eventId, hc.capabilityId, hc.capabilityVersion,
      hc.bindingId, hc.bindingVersion, hp.sha256_line _, by simp⟩
  have hcut : ∀ c : WebhookV2Input, buildWebhookV2SigningInput p c =
      js "v" ++ WEBHOOK_V2_VERSION ++ js "\n" ++ join [unit '\n'] (toUpperCase p c.method ::
        [c.requestTarget, c.timestamp, c.eventId, c.capabilityId, c.capabilityVersion, c.bindingId,
          c.bindingVersion, p.sha256Hex c.body.data]) := by
    intro c
    rw [buildWebhookV2SigningInput, join_cons_cons, js_line_feed]
  rw [hcut a, hcut b] at h
  have hjoin := List.append_cancel_left h
  obtain ⟨hmethod, hrest⟩ := join_cons_inj (by rfl) (hlines a ha) (hlines b hb) hjoin
  simp only [List.cons.injEq, and_true] at hrest
  obtain ⟨htarget, hts, hev, hci, hcv, hbi, hbv, hbody⟩ := hrest
  exact ⟨hmethod, htarget, hts, hev, hci, hcv, hbi, hbv, hp.sha256_inj hbody⟩

lemma sameRequest_of_verifies (hp : Ideal p) {input : VerifyWebhookV2Input} {context : WebhookKey}
    {verified : VerifiedWebhook} (h : Verifies p input context verified)
    (hinput : RequestLines input) {signed : WebhookV2Input} (hsigned : SignedLines signed)
    (hcarries : CarriesSignature p input signed) : SameRequest p input verified signed context := by
  obtain ⟨sig, ⟨hsig, _⟩, secret, _, hequal⟩ := h.signature
  have hbuilt : InsertionMap.get (buildWebhookV2Headers p signed) (js "X-Appspine-Signature") =
      some (js "sha256=" ++ createWebhookV2Signature p signed) := by
    simp only [buildWebhookV2Headers, get_cons]
    rfl
  rw [CarriesSignature, hsig, hbuilt, Option.some.injEq] at hcarries
  rw [hcarries, suppliedSignature_append, safeEqual, decide_eq_true_eq] at hequal
  have hmac : createWebhookV2Signature p signed =
      createWebhookV2Signature p (expectedInput input verified secret) :=
    utf8_inj_of_ascii (hp.hmac_ascii _ _) (hp.hmac_ascii _ _) hequal
  have hline : ∀ {name value : JsString}, HasHeader (normalizeHeaders p input.headers) name value →
      unit '\n' ∉ value := by
    intro name value hheader
    obtain ⟨key, hmem⟩ := exists_of_normalizeHeaders hheader.1
    exact hinput.headers key value hmem
  have hexpected : SignedLines (expectedInput input verified secret) :=
    ⟨hinput.requestTarget, hline h.timestamp, hline h.eventId, hline h.capabilityId,
      hline h.capabilityVersion, hline h.bindingId, hline h.bindingVersion⟩
  obtain ⟨hmethod, htarget, hts, hev, hci, hcv, hbi, hbv, hbody⟩ :=
    signingInput_inj hp hexpected hsigned (hp.hmac_inj _ _ _ _ hmac).2.symm
  obtain ⟨_, hpi, hpv, _, hpb, hpbv⟩ := h.pins
  exact ⟨hmethod, htarget, hts, hev, hbody, ⟨hci, hpi⟩, ⟨hcv, hpv⟩, ⟨hbi, hpb⟩, ⟨hbv, hpbv⟩⟩

end Authentic

section Accepted

/-- The request carries the built headers of the signed input, which is for the key. -/
structure BuiltFor (p : Platform) (input : VerifyWebhookV2Input) (signed : WebhookV2Input)
    (key : WebhookKey) : Prop where
  headers : input.headers = (buildWebhookV2Headers p signed).map (fun e => (e.1, some e.2))
  method : input.method = signed.method
  requestTarget : input.requestTarget = signed.requestTarget
  body : input.body = signed.body
  resolved : input.keyResolver signed.keyId = some key
  capabilityId : signed.capabilityId = key.capabilityId
  capabilityVersion : signed.capabilityVersion = key.capabilityVersion
  bindingId : signed.bindingId = key.bindingId
  bindingVersion : signed.bindingVersion = key.bindingVersion

/-- No header value is empty, and the key pins a digest. -/
structure Presentable (signed : WebhookV2Input) (key : WebhookKey) : Prop where
  keyId : signed.keyId ≠ []
  eventId : signed.eventId ≠ []
  timestamp : signed.timestamp ≠ []
  capabilityId : signed.capabilityId ≠ []
  capabilityVersion : signed.capabilityVersion ≠ []
  bindingId : signed.bindingId ≠ []
  bindingVersion : signed.bindingVersion ≠ []
  digest : key.capabilityDigest ≠ []

/-- The timestamp denotes a time at most `maxAgeMs` away from now. -/
def InWindow (p : Platform) (input : VerifyWebhookV2Input) (timestamp : JsString) : Prop :=
  ∃ t n, p.dateParse timestamp = some t ∧ input.now = some n ∧
    ((|n - t| : ℤ) : ℚ) ≤ input.maxAgeMs.getD 300000

/-- The current secret, or the previous one until it expires. -/
def MaySign (p : Platform) (key : WebhookKey) (now : Option ℤ) (secret : JsString) : Prop :=
  secret = key.secret ∨ ∃ expires t n, key.previousSecret = some secret ∧ secret ≠ [] ∧
    key.previousKeyExpiresAt = some expires ∧ expires ≠ [] ∧ p.dateParse expires = some t ∧
    now = some n ∧ n ≤ t

lemma MaySign.accepted {key : WebhookKey} {now : Option ℤ} {secret : JsString}
    (h : MaySign p key now secret) : secret ∈ acceptedSecrets p key now := by
  rcases h with rfl | ⟨expires, t, n, hprevious, hne, hexpires, hset, ht, rfl, hle⟩
  · simp [acceptedSecrets]
  · have hlive : secret ≠ [] ∧ expires ≠ [] ∧ ∃ t ∈ p.dateParse expires, n ≤ t :=
      ⟨hne, hset, t, ht, hle⟩
    unfold acceptedSecrets
    simp only [hprevious, hexpires]
    rw [if_pos hlive]
    exact List.mem_cons_of_mem _ (List.mem_singleton_self _)

lemma toLowerCase_ascii {s : JsString} (h : isAscii s = true) : toLowerCase p s = s.map lowerUnit := by
  rw [toLowerCase, if_pos h]

/-- The names of the built headers, in lower case. -/
def HEADER_NAMES : List JsString :=
  [js "content-type", js "x-appspine-webhook-version", js "x-appspine-key-id",
    js "x-appspine-event-id", js "x-appspine-capability-id", js "x-appspine-capability-version",
    js "x-appspine-binding-id", js "x-appspine-binding-version", js "x-appspine-timestamp",
    js "x-appspine-signature"]

/-- The values of the built headers, in the order of the names. -/
def headerValues (p : Platform) (signed : WebhookV2Input) : List JsString :=
  [js "application/json", WEBHOOK_V2_VERSION, signed.keyId, signed.eventId, signed.capabilityId,
    signed.capabilityVersion, signed.bindingId, signed.bindingVersion, signed.timestamp,
    js "sha256=" ++ createWebhookV2Signature p signed]

lemma lower_names (signed : WebhookV2Input) :
    (buildWebhookV2Headers p signed).map (fun e => toLowerCase p e.1) = HEADER_NAMES := by
  have hascii : ∀ e ∈ buildWebhookV2Headers p signed, isAscii e.1 = true := by
    simp only [buildWebhookV2Headers, List.forall_mem_cons]
    decide +kernel
  rw [List.map_congr_left (fun e he => toLowerCase_ascii (hascii e he))]
  simp only [buildWebhookV2Headers, List.map_cons, List.map_nil]
  decide +kernel

/-- The built headers under their lower-case names. -/
lemma normalize_built (signed : WebhookV2Input) :
    normalizeHeaders p ((buildWebhookV2Headers p signed).map (fun e => (e.1, some e.2))) =
      HEADER_NAMES.zip (headerValues p signed) := by
  have hnodup : HEADER_NAMES.Nodup := by decide +kernel
  have hset : normalizeHeaders p ((buildWebhookV2Headers p signed).map (fun e => (e.1, some e.2))) =
      ((buildWebhookV2Headers p signed).map (fun e => (toLowerCase p e.1, e.2))).foldl
        (fun m e => InsertionMap.set m e.1 e.2) [] := by
    rw [normalizeHeaders, List.foldl_map, List.foldl_map]
  have hkeys : ((buildWebhookV2Headers p signed).map (fun e => (toLowerCase p e.1, e.2))).map Prod.fst =
      HEADER_NAMES := by
    rw [List.map_map]
    exact lower_names signed
  rw [hset, foldl_set_of_nodup _ [] (by rw [List.nil_append, hkeys]; exact hnodup), List.nil_append]
  have hvalues : (buildWebhookV2Headers p signed).map (fun e => e.2) = headerValues p signed := rfl
  rw [← lower_names signed, ← hvalues, List.zip_map']

lemma get_built {signed : WebhookV2Input} {name value : JsString}
    (h : (name, value) ∈ HEADER_NAMES.zip (headerValues p signed)) :
    InsertionMap.get (HEADER_NAMES.zip (headerValues p signed)) name = some value := by
  refine get_of_mem ?_ h
  have hkeys : keys (HEADER_NAMES.zip (headerValues p signed)) = HEADER_NAMES :=
    List.map_fst_zip (by rfl)
  rw [hkeys]
  decide +kernel

lemma hasHeader_of_mem {signed : WebhookV2Input} {name value : JsString}
    (h : (name, value) ∈ HEADER_NAMES.zip (headerValues p signed)) (hne : value ≠ []) :
    HasHeader (HEADER_NAMES.zip (headerValues p signed)) name value :=
  ⟨get_built h, hne⟩

/-- What the verifier returns for a request signed for the key. -/
def verifiedFor (signed : WebhookV2Input) (key : WebhookKey) : VerifiedWebhook :=
  { signed with
    sourceApp := key.sourceApp
    capabilityDigest := key.capabilityDigest }

lemma signingInput_expected {input : VerifyWebhookV2Input} {signed : WebhookV2Input}
    {key : WebhookKey} (h : BuiltFor p input signed key) :
    createWebhookV2Signature p (expectedInput input (verifiedFor signed key) signed.secret) =
      createWebhookV2Signature p signed := by
  simp only [createWebhookV2Signature, buildWebhookV2SigningInput, expectedInput, verifiedFor,
    h.method, h.requestTarget, h.body]

/-- Built headers satisfy every check of the verifier. -/
lemma verifies_built {input : VerifyWebhookV2Input} {signed : WebhookV2Input} {key : WebhookKey}
    (h : BuiltFor p input signed key) (hne : Presentable signed key)
    (hsize : ∀ limit ∈ input.maxBodyBytes, (input.body.data.length : ℚ) ≤ limit)
    (hfresh : InWindow p input signed.timestamp) (hsecret : MaySign p key input.now signed.secret) :
    Verifies p input key (verifiedFor signed key) := by
  have hheaders : normalizeHeaders p input.headers = HEADER_NAMES.zip (headerValues p signed) := by
    rw [h.headers, normalize_built]
  have hmem : ∀ {name value : JsString}, (name, value) ∈ HEADER_NAMES.zip (headerValues p signed) →
      value ≠ [] → HasHeader (normalizeHeaders p input.headers) name value := by
    intro name value hin hvalue
    rw [hheaders]
    exact hasHeader_of_mem hin hvalue
  simp only [HEADER_NAMES, headerValues, List.zip_cons_cons, List.zip_nil_left] at hmem
  refine ⟨hsize, (hmem (by simp) (by decide)).1, hmem (by simp [verifiedFor]) hne.keyId, h.resolved,
    hne.digest, hmem (by simp [verifiedFor]) hne.capabilityId,
    hmem (by simp [verifiedFor]) hne.capabilityVersion, hmem (by simp [verifiedFor]) hne.bindingId,
    hmem (by simp [verifiedFor]) hne.bindingVersion, hmem (by simp [verifiedFor]) hne.timestamp,
    hmem (by simp [verifiedFor]) hne.eventId,
    ⟨rfl, h.capabilityId, h.capabilityVersion, rfl, h.bindingId, h.bindingVersion⟩, ?_, ?_⟩
  · obtain ⟨t, n, ht, hn, hage⟩ := hfresh
    have hts : p.dateParse (verifiedFor signed key).timestamp = some t := ht
    rw [hts, hn, isStale, decide_eq_false_iff_not, not_lt]
    exact hage
  · refine ⟨js "sha256=" ++ createWebhookV2Signature p signed,
      hmem (by simp) (List.append_ne_nil_of_left_ne_nil (by decide) _), signed.secret,
      hsecret.accepted, ?_⟩
    rw [suppliedSignature_append, signingInput_expected h, safeEqual, decide_eq_true_eq]

end Accepted

/-- Acceptance under a built signature is acceptance of the signed request, and the built headers
of a request for the key are accepted with the current and with the live previous secret. -/
theorem webhookV2_authenticity (hp : Ideal p) :
    (∀ (input : VerifyWebhookV2Input) (verified : VerifiedWebhook) (signed : WebhookV2Input),
      verifyWebhookV2 p input = .ok verified → RequestLines input → SignedLines signed →
      CarriesSignature p input signed →
      ∃ key, input.keyResolver verified.keyId = some key ∧
        SameRequest p input verified signed key) ∧
    (∀ (input : VerifyWebhookV2Input) (signed : WebhookV2Input) (key : WebhookKey),
      BuiltFor p input signed key → Presentable signed key →
      (∀ limit ∈ input.maxBodyBytes, (input.body.data.length : ℚ) ≤ limit) →
      InWindow p input signed.timestamp → MaySign p key input.now signed.secret →
      verifyWebhookV2 p input = .ok (verifiedFor signed key)) := by
  constructor
  · intro input verified signed haccepted hinput hsigned hcarries
    obtain ⟨key, hverifies⟩ := verifyWebhookV2_eq_ok.mp haccepted
    exact ⟨key, hverifies.resolved, sameRequest_of_verifies hp hverifies hinput hsigned hcarries⟩
  · intro input signed key hbuilt hne hsize hfresh hsecret
    exact verifyWebhookV2_eq_ok.mpr ⟨key, verifies_built hbuilt hne hsize hfresh hsecret⟩

section Plain

def hexDigit (n : ℕ) : CodeUnit := if n < 10 then Fin.ofNat 65536 (48 + n) else Fin.ofNat 65536 (87 + n)

def hexUnit (u : CodeUnit) : JsString :=
  [hexDigit (u.val / 4096), hexDigit (u.val / 256 % 16), hexDigit (u.val / 16 % 16),
    hexDigit (u.val % 16)]

def hexByte (b : UInt8) : JsString := [hexDigit (b.toNat / 16), hexDigit (b.toNat % 16)]

/-- The units of a text in hex, each after an `a`, then a `b` and the rest. -/
def hexText (s rest : JsString) : JsString :=
  s.foldr (fun u text => unit 'a' :: (hexUnit u ++ text)) (unit 'b' :: rest)

/-- Hashes that spell out their input, and the one date of the requests below. -/
def plain : Platform where
  hmacHex secret message := hexText secret (hexText message [])
  sha256Hex data := data.flatMap hexByte
  dateParse s := if s = js "1970-01-01T00:00:00.000Z" then some 0 else none
  unicodeUpper s := s
  unicodeLower s := s

lemma hexDigit_inj : ∀ m < 16, ∀ n < 16, hexDigit m = hexDigit n → m = n := by decide

lemma hexDigit_ascii : ∀ n < 16, (hexDigit n).val < 0x80 ∧ hexDigit n ≠ unit '\n' := by decide

lemma hexUnit_inj {u v : CodeUnit} (h : hexUnit u = hexUnit v) : u = v := by
  simp only [hexUnit, List.cons.injEq, and_true] at h
  obtain ⟨h₁, h₂, h₃, h₄⟩ := h
  have hu := u.isLt
  have hv := v.isLt
  have e₁ := hexDigit_inj _ (by omega) _ (by omega) h₁
  have e₂ := hexDigit_inj _ (by omega) _ (by omega) h₂
  have e₃ := hexDigit_inj _ (by omega) _ (by omega) h₃
  have e₄ := hexDigit_inj _ (by omega) _ (by omega) h₄
  exact Fin.ext (by omega)

lemma hexByte_inj {a b : UInt8} (h : hexByte a = hexByte b) : a = b := by
  simp only [hexByte, List.cons.injEq, and_true] at h
  have ha := a.toNat_lt
  have hb := b.toNat_lt
  have e₁ := hexDigit_inj _ (by omega) _ (by omega) h.1
  have e₂ := hexDigit_inj _ (by omega) _ (by omega) h.2
  exact UInt8.toNat_inj.mp (by omega)

lemma hexText_inj {s t r r' : JsString} (h : hexText s r = hexText t r') : s = t ∧ r = r' := by
  induction s generalizing t with
  | nil =>
    cases t with
    | nil => exact ⟨rfl, (List.cons.inj h).2⟩
    | cons v t => exact absurd (List.cons.inj h).1 (by decide)
  | cons u s ih =>
    cases t with
    | nil => exact absurd (List.cons.inj h).1 (by decide)
    | cons v t =>
      obtain ⟨hunit, hrest⟩ := List.append_inj (List.cons.inj h).2 (by rfl)
      obtain ⟨rfl, hr⟩ := ih hrest
      exact ⟨by rw [hexUnit_inj hunit], hr⟩

lemma hexText_ascii {s r : JsString} (h : isAscii r = true) : isAscii (hexText s r) = true := by
  simp only [isAscii, List.all_eq_true, decide_eq_true_eq] at h ⊢
  induction s with
  | nil => exact List.forall_mem_cons.mpr ⟨by decide, h⟩
  | cons u s ih =>
    have hu := u.isLt
    refine List.forall_mem_cons.mpr ⟨by decide, List.forall_mem_append.mpr ⟨?_, ih⟩⟩
    simp only [hexUnit, List.forall_mem_cons]
    exact ⟨(hexDigit_ascii _ (by omega)).1, (hexDigit_ascii _ (by omega)).1,
      (hexDigit_ascii _ (by omega)).1, (hexDigit_ascii _ (by omega)).1, by simp⟩

lemma hexBytes_inj : ∀ {a b : List UInt8}, a.flatMap hexByte = b.flatMap hexByte → a = b
  | [], [], _ => rfl
  | [], _ :: _, h => by cases h
  | _ :: _, [], h => by cases h
  | x :: a, y :: b, h => by
    rw [List.flatMap_cons, List.flatMap_cons] at h
    obtain ⟨hbyte, hrest⟩ := List.append_inj h (by rfl)
    rw [hexByte_inj hbyte, hexBytes_inj hrest]

lemma plain_ideal : Ideal plain where
  hmac_inj secret message secret' message' h := by
    obtain ⟨hsecret, hmessage⟩ := hexText_inj h
    exact ⟨hsecret, (hexText_inj hmessage).1⟩
  hmac_ascii _ _ := hexText_ascii (hexText_ascii rfl)
  sha256_inj _ _ h := hexBytes_inj h
  sha256_line data := by
    intro hmem
    obtain ⟨b, _, hb⟩ := List.mem_flatMap.mp hmem
    have hlt := b.toNat_lt
    simp only [hexByte, List.mem_cons, List.not_mem_nil, or_false] at hb
    rcases hb with hb | hb
    · exact (hexDigit_ascii _ (by omega)).2 hb.symm
    · exact (hexDigit_ascii _ (by omega)).2 hb.symm

/-- A key whose previous secret expires at the time of the requests. -/
def pageKey : WebhookKey where
  keyId := js "k1"
  sourceApp := js "wiki"
  capabilityId := js "page"
  capabilityVersion := js "1"
  capabilityDigest := js "sha256:page"
  bindingId := js "b"
  bindingVersion := js "1"
  secret := js "new"
  previousSecret := some (js "old")
  previousKeyExpiresAt := some (js "1970-01-01T00:00:00.000Z")

/-- An event for the key, signed with its previous secret. -/
def pageEvent (eventId : JsString) : WebhookV2Input :=
  { pageKey with
    eventId := eventId
    method := js "post"
    requestTarget := js "/hooks"
    timestamp := js "1970-01-01T00:00:00.000Z"
    body := .text (js "[]")
    secret := js "old" }

/-- The request that carries the built headers, to a receiver that knows one key. -/
def pageRequest (signed : WebhookV2Input) (key : WebhookKey) (maxBodyBytes : Option ℚ) :
    VerifyWebhookV2Input where
  method := signed.method
  requestTarget := signed.requestTarget
  body := signed.body
  headers := (buildWebhookV2Headers plain signed).map (fun e => (e.1, some e.2))
  now := some 0
  maxAgeMs := none
  maxBodyBytes := maxBodyBytes
  keyResolver keyId := if keyId = key.keyId then some key else none

lemma builtFor_pageRequest (eventId : JsString) (maxBodyBytes : Option ℚ) :
    BuiltFor plain (pageRequest (pageEvent eventId) pageKey maxBodyBytes) (pageEvent eventId)
      pageKey :=
  ⟨rfl, rfl, rfl, rfl, by simp [pageRequest, pageEvent], rfl, rfl, rfl, rfl⟩

lemma inWindow_pageRequest (eventId : JsString) (maxBodyBytes : Option ℚ) :
    InWindow plain (pageRequest (pageEvent eventId) pageKey maxBodyBytes)
      (pageEvent eventId).timestamp :=
  ⟨0, 0, by simp [plain, pageEvent], rfl, by norm_num [pageRequest]⟩

lemma maySign_pageEvent (eventId : JsString) :
    MaySign plain pageKey (some 0) (pageEvent eventId).secret :=
  Or.inr ⟨js "1970-01-01T00:00:00.000Z", 0, 0, rfl, by simp only [pageEvent]; decide, rfl,
    by decide, by decide, rfl, le_refl 0⟩

/-- An event under the previous secret is accepted, as the event that was signed. -/
theorem webhookV2_authenticity_page :
    verifyWebhookV2 plain (pageRequest (pageEvent (js "e1")) pageKey none) =
        .ok (verifiedFor (pageEvent (js "e1")) pageKey) ∧
      ∃ key, (pageRequest (pageEvent (js "e1")) pageKey none).keyResolver (js "k1") = some key ∧
        SameRequest plain (pageRequest (pageEvent (js "e1")) pageKey none)
          (verifiedFor (pageEvent (js "e1")) pageKey) (pageEvent (js "e1")) key := by
  have haccepted := (webhookV2_authenticity plain_ideal).2 _ _ _
    (builtFor_pageRequest (js "e1") none)
    ⟨by decide, by decide, by decide, by decide, by decide, by decide, by decide, by decide⟩
    (by intro limit h; cases h) (inWindow_pageRequest _ _) (maySign_pageEvent _)
  refine ⟨haccepted, (webhookV2_authenticity plain_ideal).1 _ _ _ haccepted ⟨?_, by decide⟩
    ⟨by decide, by decide, by decide, by decide, by decide, by decide, by decide⟩ ?_⟩
  · intro name value hmem
    obtain ⟨e, he, heq⟩ := List.mem_map.mp hmem
    obtain rfl := Option.some.inj (Prod.mk.inj heq).2
    have hlines : ∀ e ∈ buildWebhookV2Headers plain (pageEvent (js "e1")), unit '\n' ∉ e.2 := by
      decide +kernel
    exact hlines e he
  · rw [CarriesSignature]
    decide +kernel

/-- A matching key does not suffice: an empty event id and a body above the limit are rejected. -/
theorem built_headers_rejected :
    (BuiltFor plain (pageRequest (pageEvent []) pageKey none) (pageEvent []) pageKey ∧
      InWindow plain (pageRequest (pageEvent []) pageKey none) (pageEvent []).timestamp ∧
      MaySign plain pageKey (some 0) (pageEvent []).secret ∧
      verifyWebhookV2 plain (pageRequest (pageEvent []) pageKey none) =
        .error (unauthorized (js "missing_header")
          (js "Missing required header x-appspine-event-id"))) ∧
    (BuiltFor plain (pageRequest (pageEvent (js "e1")) pageKey (some 1)) (pageEvent (js "e1"))
        pageKey ∧
      InWindow plain (pageRequest (pageEvent (js "e1")) pageKey (some 1))
        (pageEvent (js "e1")).timestamp ∧
      MaySign plain pageKey (some 0) (pageEvent (js "e1")).secret ∧
      verifyWebhookV2 plain (pageRequest (pageEvent (js "e1")) pageKey (some 1)) =
        .error { unauthorized (js "body_too_large")
          (js "Webhook body exceeds the configured limit") with status := 413 }) :=
  ⟨⟨builtFor_pageRequest _ _, inWindow_pageRequest _ _, maySign_pageEvent _, by decide +kernel⟩,
    builtFor_pageRequest _ _, inWindow_pageRequest _ _, maySign_pageEvent _, by decide +kernel⟩

end Plain

end Appspine.Webhook
