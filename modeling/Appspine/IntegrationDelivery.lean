import Appspine.IntegrationEnvelope
import Appspine.JsNumerals
import Appspine.SchemaValidate
import Appspine.Utf8Decoding
import Appspine.WebhookAuthenticity

/-!
# From the recorded event to the receipt

`DomainEventsService.record` freezes the integration metadata of an event,
`buildIntegrationEventEnvelope` and `postDomainEventWebhookV2` make a signed request of what is
stored, and `verifyDomainEventWebhookV2` takes it in. The row is stored as it was written.
-/
namespace Appspine.Integration
open JsText JsonText InsertionMap Utf16 Webhook Results

variable {N : Type}

section Envelope

variable [JsonNumber N] (sha256Hex : JsString → JsString)

structure IntegrationEventMetadata (N : Type) where
  capabilityId : JsString
  capabilityVersion : JsString
  capabilityDigest : Option JsString
  bindingId : JsString
  bindingVersion : JsString
  envelopeVersion : Option JsString
  sourceApp : JsString
  payload : JsonValue N
  payloadDigest : Option JsString
  payloadSchema : Option (Json N)

omit [JsonNumber N] in
/-- The canonical copy of a value. -/
def freezeJsonValue (value : JsonValue N) : JsonValue N :=
  ⟨canonicalJsonValue value.json, uniqueKeys_canonicalJsonValue value.unique⟩

/-- `given && given !== payloadDigest`. -/
def digestDiffers (given : Option JsString) (payloadDigest : JsString) : Bool :=
  given.any (fun digest => decide (digest ≠ [] ∧ digest ≠ payloadDigest))

def digestMismatch (what given payloadDigest : JsString) : JsString :=
  what ++ js " payload digest mismatch: expected " ++ given ++ js ", got " ++ payloadDigest

def freezeIntegrationMetadata (input : IntegrationEventMetadata N) :
    Except JsString (IntegrationEventMetadata N) :=
  let payload := freezeJsonValue input.payload
  let payloadDigest := sha256Digest sha256Hex payload.json
  if digestDiffers input.payloadDigest payloadDigest then
    .error (digestMismatch (js "Integration") (input.payloadDigest.getD []) payloadDigest)
  else
    .ok { input with
      envelopeVersion := some (input.envelopeVersion.getD (js "2"))
      payload := payload
      payloadDigest := some payloadDigest }

structure ExternalEventEnvelopeInput (N : Type) where
  eventId : JsString
  eventType : JsString
  capabilityId : JsString
  capabilityVersion : JsString
  capabilityDigest : JsString
  bindingId : JsString
  bindingVersion : JsString
  envelopeVersion : Option JsString
  sourceApp : JsString
  occurredAt : JsString
  aggregateType : JsString
  aggregateId : JsString
  correlationId : Option JsString
  actorUserId : Option JsString
  payload : JsonValue N
  payloadDigest : Option JsString

/-- The envelope of the input, its payload frozen. -/
def ExternalEventEnvelopeInput.envelope (input : ExternalEventEnvelopeInput N) :
    ExternalEventEnvelope N :=
  { eventId := input.eventId, eventType := input.eventType, capabilityId := input.capabilityId,
    capabilityVersion := input.capabilityVersion, capabilityDigest := input.capabilityDigest,
    bindingId := input.bindingId, bindingVersion := input.bindingVersion,
    envelopeVersion := input.envelopeVersion.getD (js "2"), sourceApp := input.sourceApp,
    occurredAt := input.occurredAt, aggregateType := input.aggregateType,
    aggregateId := input.aggregateId, correlationId := input.correlationId,
    actorUserId := input.actorUserId, payload := freezeJsonValue input.payload,
    payloadDigest := sha256Digest sha256Hex (freezeJsonValue input.payload).json }

def buildExternalEventEnvelope (input : ExternalEventEnvelopeInput N) :
    Except JsString (ExternalEventEnvelope N) :=
  let payloadDigest := sha256Digest sha256Hex (freezeJsonValue input.payload).json
  if digestDiffers input.payloadDigest payloadDigest then
    .error (digestMismatch (js "External event") (input.payloadDigest.getD []) payloadDigest)
  else .ok (input.envelope sha256Hex)

omit [JsonNumber N] in
def textOrNull (text : Option JsString) : Json N := (text.map .str).getD .null

omit [JsonNumber N] in
/-- The envelope as the object that is sent. -/
def ExternalEventEnvelope.object (envelope : ExternalEventEnvelope N) : Json N :=
  .obj [(js "eventId", .str envelope.eventId), (js "eventType", .str envelope.eventType),
    (js "capabilityId", .str envelope.capabilityId),
    (js "capabilityVersion", .str envelope.capabilityVersion),
    (js "capabilityDigest", .str envelope.capabilityDigest),
    (js "bindingId", .str envelope.bindingId),
    (js "bindingVersion", .str envelope.bindingVersion),
    (js "envelopeVersion", .str envelope.envelopeVersion),
    (js "sourceApp", .str envelope.sourceApp), (js "occurredAt", .str envelope.occurredAt),
    (js "aggregateType", .str envelope.aggregateType),
    (js "aggregateId", .str envelope.aggregateId),
    (js "correlationId", textOrNull envelope.correlationId),
    (js "actor", .obj [(js "userId", textOrNull envelope.actorUserId)]),
    (js "payload", envelope.payload.json), (js "payloadDigest", .str envelope.payloadDigest)]

/-- The payload check of `withIntegrationEventReceipt` on an envelope that was parsed. -/
def receiptDigestMatches (parsed : Json N) : Bool :=
  match field (js "payload") parsed, field (js "payloadDigest") parsed with
  | some payload, some (.str digest) => decide (sha256Digest sha256Hex payload = digest)
  | _, _ => false

end Envelope

section Record

variable [JsonSchema.NumberValue N]

structure ContractReference where
  capabilityId : JsString
  capabilityVersion : JsString
  bindingId : JsString
  bindingVersion : JsString

structure DomainEventContract (N : Type) where
  capabilityDigest : JsString
  payloadSchema : Json N

abbrev DomainEventContractResolver (N : Type) :=
  ContractReference → Option (DomainEventContract N)

structure RecordDomainEventInput (N : Type) where
  aggregateType : JsString
  aggregateId : JsString
  eventType : JsString
  actorUserId : Option JsString
  correlationId : Option JsString
  integration : Option (IntegrationEventMetadata N)
  integrationPayloadSchema : Option (Json N)

/-- What is written of an event, as far as its envelope is made of it. -/
structure DomainEventData (N : Type) where
  aggregateType : JsString
  aggregateId : JsString
  eventType : JsString
  actorUserId : Option JsString
  correlationId : Option JsString
  integrationCapabilityId : Option JsString
  integrationCapabilityVersion : Option JsString
  integrationCapabilityDigest : Option JsString
  integrationBindingId : Option JsString
  integrationBindingVersion : Option JsString
  integrationEnvelopeVersion : Option JsString
  integrationSourceApp : Option JsString
  integrationPayload : JsonValue N
  integrationPayloadDigest : Option JsString

/-- The row: `createdAt` is the text of its time. -/
structure DomainEventRecord (N : Type) extends DomainEventData N where
  id : JsString
  createdAt : JsString

def IntegrationEventMetadata.reference (integration : IntegrationEventMetadata N) :
    ContractReference :=
  ⟨integration.capabilityId, integration.capabilityVersion, integration.bindingId,
    integration.bindingVersion⟩

/-- `given && canonicalJson(given) !== canonicalJson(payloadSchema)`. -/
def schemaDiffers (given : Option (Json N)) (payloadSchema : Json N) : Bool :=
  given.any (fun schema => JsonSchema.truthy (.json schema) &&
    decide (canonicalJson schema ≠ canonicalJson payloadSchema))

variable (P : JsonSchema.Platform) (sha256Hex : JsString → JsString)
  (contractResolver : Option (DomainEventContractResolver N))

/-- The metadata `record` stores; `none` is a validation that takes more than `n` calls inside one
another. -/
def pinnedIntegration (n : ℕ) (input : RecordDomainEventInput N)
    (integration : IntegrationEventMetadata N) :
    Option (Except JsString (IntegrationEventMetadata N)) :=
  match contractResolver.bind (fun resolve => resolve integration.reference) with
  | none =>
    some (.error (js "Integration event contract is not registered in the runtime snapshot"))
  | some contract =>
    if JsonSchema.truthy (.json contract.payloadSchema) = false then
      some (.error (js "Integration event contract has no payload schema"))
    else if schemaDiffers input.integrationPayloadSchema contract.payloadSchema ||
        schemaDiffers integration.payloadSchema contract.payloadSchema then
      some (.error
        (js "Integration event payload schema does not match the pinned runtime contract"))
    else
      (JsonSchema.validateJsonSchema P n (.json integration.payload.json) contract.payloadSchema
        ⟨some .strict, none, none⟩).map (fun issues =>
          match JsonSchema.assertMessage issues with
          | some message => .error message
          | none => freezeIntegrationMetadata sha256Hex
            { integration with
              capabilityDigest := some contract.capabilityDigest
              payloadSchema := some contract.payloadSchema })

/-- The data that `record` writes. -/
def recordedData (input : RecordDomainEventInput N)
    (integration : Option (IntegrationEventMetadata N)) : DomainEventData N :=
  { aggregateType := input.aggregateType, aggregateId := input.aggregateId,
    eventType := input.eventType, actorUserId := input.actorUserId,
    correlationId := input.correlationId
    integrationCapabilityId := integration.map (·.capabilityId)
    integrationCapabilityVersion := integration.map (·.capabilityVersion)
    integrationCapabilityDigest := integration.bind (·.capabilityDigest)
    integrationBindingId := integration.map (·.bindingId)
    integrationBindingVersion := integration.map (·.bindingVersion)
    integrationEnvelopeVersion := integration.bind (·.envelopeVersion)
    integrationSourceApp := integration.map (·.sourceApp)
    integrationPayload := (integration.map (·.payload)).getD ⟨.null, rfl⟩
    integrationPayloadDigest := integration.bind (·.payloadDigest) }

def record (n : ℕ) (input : RecordDomainEventInput N) :
    Option (Except JsString (DomainEventData N)) :=
  match input.integration with
  | none => some (.ok (recordedData input none))
  | some integration =>
    (pinnedIntegration P sha256Hex contractResolver n input integration).map
      (fun frozen => frozen.map (fun integration => recordedData input (some integration)))

end Record

section Deliver

variable [JsonNumber N] (sha256Hex : JsString → JsString)

omit [JsonNumber N] in
def isNull : Json N → Bool
  | .null => true
  | _ => false

/-- `!value` of a text or `null`. -/
def isMissing (value : Option JsString) : Bool := decide (value.getD [] = [])

omit [JsonNumber N] in
/-- The input of the envelope, as the row has it. -/
def DomainEventRecord.envelopeInput (event : DomainEventRecord N) : ExternalEventEnvelopeInput N :=
  { eventId := event.id, eventType := event.eventType
    capabilityId := event.integrationCapabilityId.getD []
    capabilityVersion := event.integrationCapabilityVersion.getD []
    capabilityDigest := event.integrationCapabilityDigest.getD []
    bindingId := event.integrationBindingId.getD []
    bindingVersion := event.integrationBindingVersion.getD []
    envelopeVersion := some (event.integrationEnvelopeVersion.getD (js "2"))
    sourceApp := event.integrationSourceApp.getD []
    occurredAt := event.createdAt
    aggregateType := event.aggregateType, aggregateId := event.aggregateId
    correlationId := event.correlationId, actorUserId := event.actorUserId
    payload := event.integrationPayload
    payloadDigest := event.integrationPayloadDigest }

def buildIntegrationEventEnvelope (event : DomainEventRecord N) :
    Except JsString (ExternalEventEnvelope N) :=
  if isMissing event.integrationCapabilityId || isMissing event.integrationCapabilityVersion ||
      isMissing event.integrationCapabilityDigest || isMissing event.integrationBindingId ||
      isMissing event.integrationBindingVersion || isMissing event.integrationSourceApp ||
      isNull event.integrationPayload.json then
    .error (js "Domain event " ++ event.id ++
      js " does not contain frozen integration metadata")
  else buildExternalEventEnvelope sha256Hex event.envelopeInput

/-- How `postDomainEventWebhookV2` is called; `timestamp` is the text of its time. -/
structure Posting where
  requestTarget : JsString
  keyId : JsString
  secret : JsString
  timestamp : JsString

/-- The request that is signed and sent. -/
def Posting.signed (posting : Posting) (envelope : ExternalEventEnvelope N) : WebhookV2Input :=
  { keyId := posting.keyId, secret := posting.secret, method := js "POST"
    requestTarget := posting.requestTarget, timestamp := posting.timestamp
    eventId := envelope.eventId, sourceApp := envelope.sourceApp
    capabilityId := envelope.capabilityId, capabilityVersion := envelope.capabilityVersion
    capabilityDigest := envelope.capabilityDigest, bindingId := envelope.bindingId
    bindingVersion := envelope.bindingVersion
    body := .text (canonicalJson envelope.object) }

end Deliver

section Receive

variable (N) [JsonNumber N] (p : Webhook.Platform)

/-- A unit as a case-insensitive Unicode pattern of ASCII letters sees it. -/
def foldCase (u : CodeUnit) : CodeUnit := if u.val = 0x17F then unit 's' else lowerUnit u

/-- `/^application\/json(?:\s*;|$)/iu`. -/
def isJsonContentType (contentType : JsString) : Bool :=
  let type := js "application/json"
  let rest := contentType.drop type.length
  decide ((contentType.take type.length).map foldCase = type) &&
    (decide (rest = []) || startsWith (rest.dropWhile isWhiteSpace) (js ";"))

/-- `typeof body === 'string' ? body : Buffer.from(body).toString('utf8')`. -/
def bodyText : RawBody → JsString
  | .text s => s
  | .bytes data => decodeUtf8 data

/-- `body[key] === value`. -/
def fieldIs {N : Type} (body : Json N) (key value : JsString) : Bool :=
  match field key body with
  | some (.str s) => decide (s = value)
  | _ => false

/-- `headers['content-type'] ?? headers['Content-Type'] ?? ''`. -/
def contentTypeOf (headers : Entries JsString (Option JsString)) : JsString :=
  (((InsertionMap.get headers (js "content-type")).bind id).or
    ((InsertionMap.get headers (js "Content-Type")).bind id)).getD []

/-- The signed fields an envelope has to repeat. -/
def expectedFields (verified : VerifiedWebhook) : List (JsString × JsString) :=
  [(js "eventId", verified.eventId), (js "sourceApp", verified.sourceApp),
    (js "capabilityId", verified.capabilityId),
    (js "capabilityVersion", verified.capabilityVersion),
    (js "bindingId", verified.bindingId), (js "bindingVersion", verified.bindingVersion)]

/-- What the envelope itself is checked for. -/
def checkEnvelope {N : Type} (verified : VerifiedWebhook) (body : Json N) :
    Except WebhookVerificationError Unit :=
  match (expectedFields verified).find? (fun e => !fieldIs body e.1 e.2) with
  | some e =>
    .error (unauthorized (js "envelope_binding_mismatch")
      (js "Webhook envelope " ++ e.1 ++ js " does not match signed headers"))
  | none => do
    rejectIf (!fieldIs body (js "envelopeVersion") (js "2"))
      (unauthorized (js "unsupported_envelope")
        (js "Unsupported external event envelope version"))
    rejectIf (!fieldIs body (js "capabilityDigest") verified.capabilityDigest)
      (unauthorized (js "capability_digest_mismatch")
        (js "Webhook envelope capability digest does not match the configured key"))

def verifyDomainEventWebhookV2 (input : VerifyWebhookV2Input)
    (bindingEnabled : Option (JsString → Bool)) :
    Except WebhookVerificationError VerifiedWebhook := do
  rejectIf (!isJsonContentType (contentTypeOf input.headers))
    (unauthorized (js "unsupported_content_type")
      (js "Webhook content type must be application/json"))
  let verified ← verifyWebhookV2 p
    { input with maxBodyBytes := some (input.maxBodyBytes.getD 1048576) }
  rejectIf (bindingEnabled.any (fun enabled => !enabled verified.bindingId))
    { unauthorized (js "binding_disabled") (js "Webhook binding is temporarily disabled") with
      retryable := true, status := 503 }
  let envelope : Json N ← (parse (bodyText input.body)).elim
    (.error (unauthorized (js "invalid_json") (js "Webhook body is not valid JSON"))) .ok
  rejectIf (!JsonSchema.isNode envelope)
    (unauthorized (js "invalid_envelope") (js "Webhook body is not an envelope"))
  checkEnvelope verified envelope
  return verified

end Receive

end Appspine.Integration
