import Appspine.JsonCanonical

/-!
# External event envelopes

What two apps exchange about an event, and the digest of its payload.
-/
namespace Appspine.Integration
open JsText JsonText

/-- JSON data: no object has two properties of one name. -/
structure JsonValue (N : Type) where
  json : Json N
  unique : uniqueKeys json = true

structure ExternalEventEnvelope (N : Type) where
  eventId : JsString
  eventType : JsString
  capabilityId : JsString
  capabilityVersion : JsString
  capabilityDigest : JsString
  bindingId : JsString
  bindingVersion : JsString
  envelopeVersion : JsString
  sourceApp : JsString
  occurredAt : JsString
  aggregateType : JsString
  aggregateId : JsString
  correlationId : Option JsString
  actorUserId : Option JsString
  payload : JsonValue N
  payloadDigest : JsString

variable {N : Type} [JsonNumber N] (sha256Hex : JsString → JsString)

def sha256Digest (value : Json N) : JsString := js "sha256:" ++ sha256Hex (canonicalJson value)

/-- The envelope's digest is that of its payload. -/
def ExternalEventEnvelope.digestMatches (envelope : ExternalEventEnvelope N) : Bool :=
  decide (sha256Digest sha256Hex envelope.payload.json = envelope.payloadDigest)

end Appspine.Integration
