import Appspine.InsertionMap
import Appspine.Utf16

/-!
# Webhook protocol, version 2

Signed headers and their verification. Hashes, dates and letters beyond ASCII are those of
the platform.
-/
namespace Appspine.Webhook
open JsText InsertionMap Utf16

/-- What the platform provides: HMAC-SHA256 and SHA-256 in hex, the time a date text denotes, and
the letter cases of texts that are not ASCII. -/
structure Platform where
  hmacHex : JsString → JsString → JsString
  sha256Hex : List UInt8 → JsString
  dateParse : JsString → Option ℤ
  unicodeUpper : JsString → JsString
  unicodeLower : JsString → JsString

def upperUnit (u : CodeUnit) : CodeUnit := if 97 ≤ u.val ∧ u.val ≤ 122 then u - 32 else u

def lowerUnit (u : CodeUnit) : CodeUnit := if 65 ≤ u.val ∧ u.val ≤ 90 then u + 32 else u

def toUpperCase (p : Platform) (s : JsString) : JsString :=
  if isAscii s then s.map upperUnit else p.unicodeUpper s

def toLowerCase (p : Platform) (s : JsString) : JsString :=
  if isAscii s then s.map lowerUnit else p.unicodeLower s

/-- A raw body: text, or the bytes received. -/
inductive RawBody where
  | text (s : JsString)
  | bytes (data : List UInt8)

def RawBody.data : RawBody → List UInt8
  | .text s => utf8 s
  | .bytes data => data

structure WebhookVerificationContext where
  keyId : JsString
  sourceApp : JsString
  capabilityId : JsString
  capabilityVersion : JsString
  capabilityDigest : JsString
  bindingId : JsString
  bindingVersion : JsString
  deriving DecidableEq

structure WebhookKey extends WebhookVerificationContext where
  secret : JsString
  previousSecret : Option JsString
  previousKeyExpiresAt : Option JsString

structure WebhookV2Input extends WebhookVerificationContext where
  eventId : JsString
  method : JsString
  requestTarget : JsString
  timestamp : JsString
  body : RawBody
  secret : JsString

structure WebhookVerificationError where
  code : JsString
  message : JsString
  retryable : Bool
  status : ℕ
  deriving DecidableEq

/-- The context a verified request was accepted for, with its event id and timestamp. -/
structure VerifiedWebhook extends WebhookVerificationContext where
  eventId : JsString
  timestamp : JsString
  deriving DecidableEq

/-- `now` has no time when it is an invalid date. -/
structure VerifyWebhookV2Input where
  method : JsString
  requestTarget : JsString
  body : RawBody
  headers : Entries JsString (Option JsString)
  now : Option ℤ
  maxAgeMs : Option ℚ
  maxBodyBytes : Option ℚ
  keyResolver : JsString → Option WebhookKey

def WEBHOOK_V2_VERSION : JsString := js "2"

section Signing

variable (p : Platform)

def buildWebhookV2SigningInput (input : WebhookV2Input) : JsString :=
  join (js "\n")
    [js "v" ++ WEBHOOK_V2_VERSION, toUpperCase p input.method, input.requestTarget,
      input.timestamp, input.eventId, input.capabilityId, input.capabilityVersion,
      input.bindingId, input.bindingVersion, p.sha256Hex input.body.data]

def createWebhookV2Signature (input : WebhookV2Input) : JsString :=
  p.hmacHex input.secret (buildWebhookV2SigningInput p input)

def buildWebhookV2Headers (input : WebhookV2Input) : Entries JsString JsString :=
  [(js "content-type", js "application/json"),
    (js "X-Appspine-Webhook-Version", WEBHOOK_V2_VERSION),
    (js "X-Appspine-Key-Id", input.keyId),
    (js "X-Appspine-Event-Id", input.eventId),
    (js "X-Appspine-Capability-Id", input.capabilityId),
    (js "X-Appspine-Capability-Version", input.capabilityVersion),
    (js "X-Appspine-Binding-Id", input.bindingId),
    (js "X-Appspine-Binding-Version", input.bindingVersion),
    (js "X-Appspine-Timestamp", input.timestamp),
    (js "X-Appspine-Signature", js "sha256=" ++ createWebhookV2Signature p input)]

end Signing

section Verification

variable (p : Platform)

/-- The defined headers under their lower-case names; of two names that coincide the later wins. -/
def normalizeHeaders (headers : Entries JsString (Option JsString)) : Entries JsString JsString :=
  headers.foldl (fun m e =>
    match e.2 with
    | some value => InsertionMap.set m (toLowerCase p e.1) value
    | none => m) []

/-- An error with the default options. -/
def unauthorized (code message : JsString) : WebhookVerificationError :=
  { code := code, message := message, retryable := false, status := 401 }

/-- `if (bad) throw error`. -/
def rejectIf (bad : Bool) (error : WebhookVerificationError) :
    Except WebhookVerificationError Unit :=
  if bad then .error error else .ok ()

def requiredHeader (headers : Entries JsString JsString) (name : JsString) :
    Except WebhookVerificationError JsString :=
  let missing := unauthorized (js "missing_header") (js "Missing required header " ++ name)
  match InsertionMap.get headers name with
  | some value => if value = [] then .error missing else .ok value
  | none => .error missing

/-- An age that is not a number is not above the limit. -/
def isStale (now timestamp : Option ℤ) (maxAgeMs : ℚ) : Bool :=
  match timestamp, now with
  | none, _ => true
  | some _, none => false
  | some t, some n => decide (maxAgeMs < (|n - t| : ℤ))

/-- The text after the prefix, and the empty text when it is missing. -/
def suppliedSignature (signature : JsString) : JsString :=
  if startsWith signature (js "sha256=") then signature.drop (js "sha256=").length else []

/-- The secrets a key accepts at a time. -/
def acceptedSecrets (key : WebhookKey) (now : Option ℤ) : List JsString :=
  key.secret ::
    match key.previousSecret, key.previousKeyExpiresAt, now with
    | some previous, some expires, some n =>
      if previous ≠ [] ∧ expires ≠ [] ∧ ∃ t ∈ p.dateParse expires, n ≤ t then [previous] else []
    | _, _, _ => []

def safeEqual (left right : JsString) : Bool := decide (utf8 left = utf8 right)

/-- The fields a request is checked for, to be signed with a secret of the key. -/
def expectedInput (input : VerifyWebhookV2Input) (verified : VerifiedWebhook) (secret : JsString) :
    WebhookV2Input :=
  { verified with
    method := input.method
    requestTarget := input.requestTarget
    body := input.body
    secret := secret }

def verifyWebhookV2 (input : VerifyWebhookV2Input) :
    Except WebhookVerificationError VerifiedWebhook := do
  let headers := normalizeHeaders p input.headers
  rejectIf (input.maxBodyBytes.any (fun limit => decide (limit < (input.body.data.length : ℚ))))
    { unauthorized (js "body_too_large") (js "Webhook body exceeds the configured limit") with
      status := 413 }
  rejectIf (InsertionMap.get headers (js "x-appspine-webhook-version") ≠ some WEBHOOK_V2_VERSION)
    (unauthorized (js "unsupported_version") (js "Unsupported webhook protocol version"))
  let keyId ← requiredHeader headers (js "x-appspine-key-id")
  let context ← (input.keyResolver keyId).elim
    (.error (unauthorized (js "unknown_key") (js "Webhook key is not configured"))) .ok
  rejectIf (context.capabilityDigest = [])
    (unauthorized (js "missing_capability_digest")
      (js "Webhook key is missing the pinned capability digest"))
  let capabilityId ← requiredHeader headers (js "x-appspine-capability-id")
  let capabilityVersion ← requiredHeader headers (js "x-appspine-capability-version")
  let bindingId ← requiredHeader headers (js "x-appspine-binding-id")
  let bindingVersion ← requiredHeader headers (js "x-appspine-binding-version")
  let timestamp ← requiredHeader headers (js "x-appspine-timestamp")
  let eventId ← requiredHeader headers (js "x-appspine-event-id")
  let verified : VerifiedWebhook :=
    { keyId := keyId, sourceApp := context.sourceApp, capabilityId := capabilityId,
      capabilityVersion := capabilityVersion, capabilityDigest := context.capabilityDigest,
      bindingId := bindingId, bindingVersion := bindingVersion, eventId := eventId,
      timestamp := timestamp }
  rejectIf (capabilityId ≠ context.capabilityId || capabilityVersion ≠ context.capabilityVersion ||
      bindingId ≠ context.bindingId || bindingVersion ≠ context.bindingVersion)
    (unauthorized (js "binding_mismatch")
      (js "Webhook binding metadata does not match the configured key"))
  rejectIf (isStale input.now (p.dateParse timestamp) (input.maxAgeMs.getD 300000))
    (unauthorized (js "stale_timestamp") (js "Webhook timestamp is outside the freshness window"))
  let signature ← requiredHeader headers (js "x-appspine-signature")
  rejectIf (!(acceptedSecrets p context input.now).any (fun secret =>
      safeEqual (suppliedSignature signature)
        (createWebhookV2Signature p (expectedInput input verified secret))))
    (unauthorized (js "invalid_signature") (js "Webhook signature is invalid"))
  return verified

end Verification

end Appspine.Webhook
