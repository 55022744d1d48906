import Appspine.IntegrationDelivery

/-!
# Which recorded events are delivered

The metadata is stored under the digest of its contract, with its payload frozen. What is sent of
it comes back from the body as it was, so a receiver with the key of the contract rejects an event
for what the stored row lacks, for its envelope version or for its size, and for nothing else.
-/
namespace Appspine.Integration
open JsText JsonText InsertionMap Utf16 Webhook Results

variable {N : Type}

section Recorded

variable [JsonSchema.NumberValue N] {P : JsonSchema.Platform} {sha256Hex : JsString → JsString}
  {contractResolver : Option (DomainEventContractResolver N)} {n : ℕ}
  {input : RecordDomainEventInput N} {integration : IntegrationEventMetadata N}
  {contract : DomainEventContract N} {data : DomainEventData N}

/-- The metadata as it is stored under its contract. -/
def IntegrationEventMetadata.pinned (sha256Hex : JsString → JsString)
    (integration : IntegrationEventMetadata N) (contract : DomainEventContract N) :
    IntegrationEventMetadata N :=
  { integration with
    capabilityDigest := some contract.capabilityDigest
    payloadSchema := some contract.payloadSchema
    envelopeVersion := some (integration.envelopeVersion.getD (js "2"))
    payload := freezeJsonValue integration.payload
    payloadDigest := some (sha256Digest sha256Hex (freezeJsonValue integration.payload).json) }

lemma eq_of_freezeIntegrationMetadata {input frozen : IntegrationEventMetadata N}
    (h : freezeIntegrationMetadata sha256Hex input = .ok frozen) :
    frozen = { input with
      envelopeVersion := some (input.envelopeVersion.getD (js "2"))
      payload := freezeJsonValue input.payload
      payloadDigest := some (sha256Digest sha256Hex (freezeJsonValue input.payload).json) } := by
  simp only [freezeIntegrationMetadata] at h
  split_ifs at h with hdiffers
  exact (Except.ok.inj h).symm

lemma eq_pinned {frozen : IntegrationEventMetadata N}
    (hcontract : contractResolver.bind (fun resolve => resolve integration.reference) =
      some contract)
    (h : pinnedIntegration P sha256Hex contractResolver n input integration = some (.ok frozen)) :
    frozen = integration.pinned sha256Hex contract := by
  simp only [pinnedIntegration, hcontract] at h
  split_ifs at h with hschema hdiffers
  · cases h
  · cases h
  · obtain ⟨issues, _, hissues⟩ := Option.map_eq_some_iff.mp h
    cases hmessage : JsonSchema.assertMessage issues with
    | some message => simp [hmessage] at hissues
    | none =>
      simp only [hmessage] at hissues
      exact eq_of_freezeIntegrationMetadata hissues

/-- A recorded event has the metadata of its input, pinned to the contract. -/
lemma eq_recordedData (hintegration : input.integration = some integration)
    (hcontract : contractResolver.bind (fun resolve => resolve integration.reference) =
      some contract)
    (h : record P sha256Hex contractResolver n input = some (.ok data)) :
    data = recordedData input (some (integration.pinned sha256Hex contract)) := by
  simp only [record, hintegration] at h
  obtain ⟨frozen, hpinned, hdata⟩ := Option.map_eq_some_iff.mp h
  obtain ⟨stored, rfl, rfl⟩ := map_eq_ok.mp hdata
  rw [eq_pinned hcontract hpinned]

/-- A payload that its contract accepts is recorded, unless another digest is given of it. -/
lemma record_of_valid {issues : List JsonSchema.Issue}
    (hintegration : input.integration = some integration)
    (hcontract : contractResolver.bind (fun resolve => resolve integration.reference) =
      some contract)
    (hschema : JsonSchema.truthy (.json contract.payloadSchema) = true)
    (hsame : (schemaDiffers input.integrationPayloadSchema contract.payloadSchema ||
      schemaDiffers integration.payloadSchema contract.payloadSchema) = false)
    (hvalid : JsonSchema.validateJsonSchema P n (.json integration.payload.json)
      contract.payloadSchema ⟨some .strict, none, none⟩ = some issues)
    (hissues : JsonSchema.assertMessage issues = none)
    (hdigest : digestDiffers integration.payloadDigest
      (sha256Digest sha256Hex (freezeJsonValue integration.payload).json) = false) :
    record P sha256Hex contractResolver n input =
      some (.ok (recordedData input (some (integration.pinned sha256Hex contract)))) := by
  have hpinned : pinnedIntegration P sha256Hex contractResolver n input integration =
      some (.ok (integration.pinned sha256Hex contract)) := by
    simp only [pinnedIntegration, hcontract, hschema, hsame, hvalid, hissues, Option.map_some,
      freezeIntegrationMetadata, hdigest]
    rfl
  simp only [record, hintegration, hpinned]
  rfl

end Recorded

section Built

variable [JsonSchema.NumberValue N] {sha256Hex : JsString → JsString}

lemma sha256Digest_freezeJsonValue (payload : JsonValue N) :
    sha256Digest sha256Hex (freezeJsonValue payload).json = sha256Digest sha256Hex payload.json := by
  rw [sha256Digest, sha256Digest, freezeJsonValue, canonicalJson_canonicalJsonValue payload.unique]

omit [JsonSchema.NumberValue N] in
lemma isNull_canonicalJsonValue (value : Json N) :
    isNull (canonicalJsonValue value) = isNull value := by
  cases value <;> rfl

lemma isMissing_some {value : JsString} : isMissing (some value) = true ↔ value = [] := by
  rw [isMissing, Option.getD_some, decide_eq_true_eq]

/-- The row of an event with pinned metadata. -/
def storedEvent (sha256Hex : JsString → JsString) (input : RecordDomainEventInput N)
    (integration : IntegrationEventMetadata N) (contract : DomainEventContract N)
    (id createdAt : JsString) : DomainEventRecord N :=
  { recordedData input (some (integration.pinned sha256Hex contract)) with
    id := id, createdAt := createdAt }

/-- What a row is asked for before there is an envelope of it. -/
structure Complete (integration : IntegrationEventMetadata N)
    (contract : DomainEventContract N) : Prop where
  capabilityId : integration.capabilityId ≠ []
  capabilityVersion : integration.capabilityVersion ≠ []
  capabilityDigest : contract.capabilityDigest ≠ []
  bindingId : integration.bindingId ≠ []
  bindingVersion : integration.bindingVersion ≠ []
  sourceApp : integration.sourceApp ≠ []
  payload : isNull integration.payload.json = false

/-- The envelope of the row. -/
def DomainEventRecord.envelope (sha256Hex : JsString → JsString) (event : DomainEventRecord N) :
    ExternalEventEnvelope N := event.envelopeInput.envelope sha256Hex

lemma buildIntegrationEventEnvelope_eq_ok {input : RecordDomainEventInput N}
    {integration : IntegrationEventMetadata N} {contract : DomainEventContract N}
    {id createdAt : JsString} {envelope : ExternalEventEnvelope N} :
    buildIntegrationEventEnvelope sha256Hex
        (storedEvent sha256Hex input integration contract id createdAt) = .ok envelope ↔
      Complete integration contract ∧
        envelope = (storedEvent sha256Hex input integration contract id createdAt).envelope
          sha256Hex := by
  have hdigest : digestDiffers (some (sha256Digest sha256Hex
      (freezeJsonValue integration.payload).json))
      (sha256Digest sha256Hex (freezeJsonValue (freezeJsonValue integration.payload)).json) =
        false := by
    rw [sha256Digest_freezeJsonValue (freezeJsonValue integration.payload)]
    simp [digestDiffers]
  have hbuilt : buildExternalEventEnvelope sha256Hex
      (storedEvent sha256Hex input integration contract id createdAt).envelopeInput =
        .ok ((storedEvent sha256Hex input integration contract id createdAt).envelope
          sha256Hex) := by
    simp only [buildExternalEventEnvelope, DomainEventRecord.envelopeInput, storedEvent,
      recordedData, IntegrationEventMetadata.pinned, Option.map_some, Option.bind_some,
      Option.getD_some, hdigest]
    rfl
  have hnull : isNull (freezeJsonValue integration.payload).json =
      isNull integration.payload.json := isNull_canonicalJsonValue _
  unfold buildIntegrationEventEnvelope
  rw [hbuilt]
  split
  next hmissing =>
    constructor
    · intro h
      cases h
    · rintro ⟨hcomplete, _⟩
      exfalso
      simp only [storedEvent, recordedData, IntegrationEventMetadata.pinned, Option.map_some,
        Option.bind_some, Option.getD_some, hnull, hcomplete.payload, Bool.or_eq_true,
        isMissing_some, Bool.false_eq_true, or_false] at hmissing
      rcases hmissing with ((((h | h) | h) | h) | h) | h
      · exact hcomplete.capabilityId h
      · exact hcomplete.capabilityVersion h
      · exact hcomplete.capabilityDigest h
      · exact hcomplete.bindingId h
      · exact hcomplete.bindingVersion h
      · exact hcomplete.sourceApp h
  next hmissing =>
    simp only [storedEvent, recordedData, IntegrationEventMetadata.pinned, Option.map_some,
      Option.bind_some, Option.getD_some, hnull, Bool.or_eq_true, isMissing_some, not_or,
      Bool.not_eq_true] at hmissing
    obtain ⟨⟨⟨⟨⟨⟨h₁, h₂⟩, h₃⟩, h₄⟩, h₅⟩, h₆⟩, h₇⟩ := hmissing
    rw [Except.ok.injEq]
    exact ⟨fun h => ⟨⟨h₁, h₂, h₃, h₄, h₅, h₆, h₇⟩, h.symm⟩, fun h => h.2.symm⟩

end Built

section Received

variable [JsonSchema.NumberValue N] {p : Webhook.Platform}

/-- The members of the envelope that is sent. -/
def ExternalEventEnvelope.members (envelope : ExternalEventEnvelope N) :
    List (JsString × Json N) :=
  match envelope.object with
  | .obj members => members
  | _ => []

omit [JsonSchema.NumberValue N] in
lemma ExternalEventEnvelope.object_eq (envelope : ExternalEventEnvelope N) :
    envelope.object = .obj envelope.members := rfl

omit [JsonSchema.NumberValue N] in
lemma nodup_members (envelope : ExternalEventEnvelope N) :
    (envelope.members.map Prod.fst).Nodup := by
  simp only [ExternalEventEnvelope.members, ExternalEventEnvelope.object, List.map_cons,
    List.map_nil]
  decide +kernel

omit [JsonSchema.NumberValue N] in
/-- A member comes back from the body as its canonical copy. -/
lemma field_sent {envelope : ExternalEventEnvelope N} {key : JsString} {value : Json N}
    (h : (key, value) ∈ envelope.members) :
    field key (canonicalJsonValue envelope.object) = some (canonicalJsonValue value) := by
  rw [ExternalEventEnvelope.object_eq, field_canonicalJsonValue (nodup_members envelope),
    get_of_mem (nodup_members envelope) h, Option.map_some]

omit [JsonSchema.NumberValue N] in
lemma fieldIs_sent {envelope : ExternalEventEnvelope N} {key value expected : JsString}
    (h : (key, .str value) ∈ envelope.members) :
    fieldIs (canonicalJsonValue envelope.object) key expected = decide (value = expected) := by
  have hvalue : canonicalJsonValue (.str value : Json N) = .str value := rfl
  rw [fieldIs, field_sent h, hvalue]

omit [JsonSchema.NumberValue N] in
/-- A body is checked for the signed fields, the version and the digest of the key. -/
lemma checkEnvelope_eq_ok {verified : VerifiedWebhook} {body : Json N} :
    checkEnvelope verified body = .ok () ↔
      (∀ e ∈ expectedFields verified, fieldIs body e.1 e.2 = true) ∧
        fieldIs body (js "envelopeVersion") (js "2") = true ∧
        fieldIs body (js "capabilityDigest") verified.capabilityDigest = true := by
  unfold checkEnvelope
  cases hfind : (expectedFields verified).find? (fun e => !fieldIs body e.1 e.2) with
  | some e =>
    constructor
    · intro h
      cases h
    · rintro ⟨hfields, _⟩
      have hbad := List.find?_some hfind
      rw [hfields e (List.mem_of_find?_eq_some hfind)] at hbad
      cases hbad
  | none =>
    have hfields : ∀ e ∈ expectedFields verified, fieldIs body e.1 e.2 = true := by
      intro e he
      simpa using List.find?_eq_none.mp hfind e he
    simp only [bind_eq_ok, rejectIf_eq_ok, exists_const, Bool.not_eq_false']
    exact ⟨fun h => ⟨hfields, h⟩, fun h => h.2⟩

lemma verifyDomainEventWebhookV2_eq_ok {request : VerifyWebhookV2Input}
    {bindingEnabled : Option (JsString → Bool)} {verified : VerifiedWebhook} :
    verifyDomainEventWebhookV2 N p request bindingEnabled = .ok verified ↔
      isJsonContentType (contentTypeOf request.headers) = true ∧
        verifyWebhookV2 p { request with
          maxBodyBytes := some (request.maxBodyBytes.getD 1048576) } = .ok verified ∧
        (∀ enabled ∈ bindingEnabled, enabled verified.bindingId = true) ∧
        ∃ parsed : Json N, parse (bodyText request.body) = some parsed ∧
          JsonSchema.isNode parsed = true ∧ checkEnvelope verified parsed = .ok () := by
  simp only [verifyDomainEventWebhookV2, bind_eq_ok, rejectIf_eq_ok, elim_eq_ok, exists_const,
    Bool.not_eq_false', pure, Except.pure, Except.ok.injEq]
  constructor
  · rintro ⟨htype, found, hfound, henabled, parsed, hparsed, hnode, ⟨⟩, hcheck, rfl⟩
    refine ⟨htype, hfound, ?_, parsed, hparsed, hnode, hcheck⟩
    intro enabled hmem
    simpa [Option.mem_def.mp hmem] using henabled
  · rintro ⟨htype, hfound, henabled, parsed, hparsed, hnode, hcheck⟩
    refine ⟨htype, verified, hfound, ?_, parsed, hparsed, hnode, (), hcheck, rfl⟩
    cases bindingEnabled with
    | none => rfl
    | some enabled => simp [henabled enabled rfl]

/-- The settings of a receiver, and whether it is handed bytes or text. -/
structure Receiver where
  now : Option ℤ
  maxAgeMs : Option ℚ
  maxBodyBytes : Option ℚ
  keyResolver : JsString → Option WebhookKey
  bindingEnabled : Option (JsString → Bool)
  asBytes : Bool

/-- What is received of a signed request. -/
def Receiver.received (receiver : Receiver) (p : Webhook.Platform) (signed : WebhookV2Input) :
    VerifyWebhookV2Input where
  method := signed.method
  requestTarget := signed.requestTarget
  body := if receiver.asBytes then .bytes signed.body.data else signed.body
  headers := (buildWebhookV2Headers p signed).map (fun e => (e.1, some e.2))
  now := receiver.now
  maxAgeMs := receiver.maxAgeMs
  maxBodyBytes := receiver.maxBodyBytes
  keyResolver := receiver.keyResolver

/-- There is an envelope of the event, the request that is made of it is accepted, and the
envelope in its body passes the check of the receipt. -/
def Delivered (p : Webhook.Platform) (posting : Posting) (receiver : Receiver)
    (event : DomainEventRecord N) : Prop :=
  ∃ (envelope : ExternalEventEnvelope N) (verified : VerifiedWebhook) (parsed : Json N),
    buildIntegrationEventEnvelope (fun s => p.sha256Hex (utf8 s)) event = .ok envelope ∧
      verifyDomainEventWebhookV2 N p
        (receiver.received p (posting.signed envelope)) receiver.bindingEnabled = .ok verified ∧
      parse (bodyText (receiver.received p (posting.signed envelope)).body) =
        some parsed ∧
      receiptDigestMatches (fun s => p.sha256Hex (utf8 s)) parsed = true

/-- The receiver has a key that pins the metadata and its contract, the sender signs with a secret
of it, and the clock of the receiver is within the window. -/
structure PinnedBy (p : Webhook.Platform) (posting : Posting) (receiver : Receiver)
    (integration : IntegrationEventMetadata N) (contract : DomainEventContract N)
    (key : WebhookKey) : Prop where
  resolved : receiver.keyResolver posting.keyId = some key
  sourceApp : key.sourceApp = integration.sourceApp
  capabilityId : key.capabilityId = integration.capabilityId
  capabilityVersion : key.capabilityVersion = integration.capabilityVersion
  capabilityDigest : key.capabilityDigest = contract.capabilityDigest
  bindingId : key.bindingId = integration.bindingId
  bindingVersion : key.bindingVersion = integration.bindingVersion
  secret : MaySign p key receiver.now posting.secret
  fresh : ∃ t now, p.dateParse posting.timestamp = some t ∧ receiver.now = some now ∧
    ((|now - t| : ℤ) : ℚ) ≤ receiver.maxAgeMs.getD 300000

variable {posting : Posting} {receiver : Receiver}

/-- The received body with the built headers of the request. -/
def Receiver.signedAs (receiver : Receiver) (signed : WebhookV2Input) : WebhookV2Input :=
  { signed with body := if receiver.asBytes then .bytes signed.body.data else signed.body }

lemma data_signedAs (signed : WebhookV2Input) :
    (receiver.signedAs signed).body.data = signed.body.data := by
  rw [Receiver.signedAs]
  split_ifs <;> rfl

/-- Headers depend on the bytes of the body only. -/
lemma headers_signedAs (signed : WebhookV2Input) :
    buildWebhookV2Headers p (receiver.signedAs signed) = buildWebhookV2Headers p signed := by
  have hsignature : createWebhookV2Signature p (receiver.signedAs signed) =
      createWebhookV2Signature p signed := by
    simp only [createWebhookV2Signature, buildWebhookV2SigningInput, data_signedAs]
    rfl
  rw [buildWebhookV2Headers, buildWebhookV2Headers, hsignature]
  rfl

lemma contentTypeOf_received (signed : WebhookV2Input) :
    isJsonContentType (contentTypeOf (receiver.received p signed).headers) = true := by
  have htype : contentTypeOf (receiver.received p signed).headers = js "application/json" := by
    simp only [contentTypeOf, Receiver.received, buildWebhookV2Headers, List.map_cons, get_cons]
    rfl
  rw [htype]
  decide +kernel

/-- The text of the body is the text that was signed. -/
lemma bodyText_received (envelope : ExternalEventEnvelope N) :
    bodyText (receiver.received p (posting.signed envelope)).body =
      canonicalJson envelope.object := by
  simp only [Receiver.received, Posting.signed]
  split_ifs
  · exact decodeUtf8_utf8 (wellFormed_canonicalJson _)
  · rfl

section Pinned

variable {input : RecordDomainEventInput N} {integration : IntegrationEventMetadata N}
  {contract : DomainEventContract N} {key : WebhookKey} {id createdAt : JsString}

/-- What is posted of a recorded event. -/
def sent (p : Webhook.Platform) (input : RecordDomainEventInput N)
    (integration : IntegrationEventMetadata N) (contract : DomainEventContract N)
    (id createdAt : JsString) : ExternalEventEnvelope N :=
  (storedEvent (fun s => p.sha256Hex (utf8 s)) input integration contract id createdAt).envelope
    (fun s => p.sha256Hex (utf8 s))

/-- The request as the verifier of the headers sees it. -/
def limited (p : Webhook.Platform) (receiver : Receiver) (signed : WebhookV2Input) :
    VerifyWebhookV2Input :=
  { receiver.received p signed with
    maxBodyBytes := some (receiver.maxBodyBytes.getD 1048576) }

lemma builtFor_limited (hkey : PinnedBy p posting receiver integration contract key) :
    BuiltFor p (limited p receiver (posting.signed (sent p input integration contract id createdAt)))
      (receiver.signedAs (posting.signed (sent p input integration contract id createdAt))) key where
  headers := by rw [headers_signedAs]; rfl
  method := rfl
  requestTarget := rfl
  body := rfl
  resolved := hkey.resolved
  capabilityId := hkey.capabilityId.symm
  capabilityVersion := hkey.capabilityVersion.symm
  bindingId := hkey.bindingId.symm
  bindingVersion := hkey.bindingVersion.symm

/-- What the headers and the size of the body are rejected for. -/
structure Acceptable (p : Webhook.Platform) (posting : Posting) (receiver : Receiver)
    (envelope : ExternalEventEnvelope N) : Prop where
  keyId : posting.keyId ≠ []
  eventId : envelope.eventId ≠ []
  size : ((utf8 (canonicalJson envelope.object)).length : ℚ) ≤
    receiver.maxBodyBytes.getD 1048576

lemma size_limited (envelope : ExternalEventEnvelope N) :
    (limited p receiver (posting.signed envelope)).body.data = utf8 (canonicalJson envelope.object) :=
  data_signedAs (posting.signed envelope)

/-- With the key of a complete event, headers are rejected for an empty id and for the size. -/
lemma verifyWebhookV2_limited (hdate : p.dateParse [] = none)
    (hkey : PinnedBy p posting receiver integration contract key)
    (hcomplete : Complete integration contract) {verified : VerifiedWebhook} :
    verifyWebhookV2 p
        (limited p receiver (posting.signed (sent p input integration contract id createdAt))) =
      .ok verified ↔
      Acceptable p posting receiver (sent p input integration contract id createdAt) ∧
        verified = verifiedFor
          (receiver.signedAs (posting.signed (sent p input integration contract id createdAt)))
          key := by
  have hbuilt : BuiltFor p
      (limited p receiver (posting.signed (sent p input integration contract id createdAt)))
      (receiver.signedAs (posting.signed (sent p input integration contract id createdAt))) key :=
    builtFor_limited hkey
  have htimestamp : posting.timestamp ≠ [] := by
    obtain ⟨t, now, ht, _⟩ := hkey.fresh
    rintro hnil
    rw [hnil, hdate] at ht
    cases ht
  have hverifies (haccept : Acceptable p posting receiver
      (sent p input integration contract id createdAt)) :
      verifyWebhookV2 p
        (limited p receiver (posting.signed (sent p input integration contract id createdAt))) =
      .ok (verifiedFor
        (receiver.signedAs (posting.signed (sent p input integration contract id createdAt)))
        key) := by
    refine verifyWebhookV2_eq_ok.mpr ⟨key, verifies_built hbuilt
      ⟨haccept.keyId, haccept.eventId, htimestamp, hcomplete.capabilityId,
        hcomplete.capabilityVersion, hcomplete.bindingId, hcomplete.bindingVersion, ?_⟩
      ?_ hkey.fresh hkey.secret⟩
    · rw [hkey.capabilityDigest]
      exact hcomplete.capabilityDigest
    · intro limit hlimit
      obtain rfl := Option.some.inj hlimit
      rw [size_limited]
      exact haccept.size
  constructor
  · intro h
    obtain ⟨context, hcontext⟩ := verifyWebhookV2_eq_ok.mp h
    have hheader : ∀ {name value found : JsString}, (name, value) ∈ HEADER_NAMES.zip (headerValues p
        (receiver.signedAs (posting.signed (sent p input integration contract id createdAt)))) →
        HasHeader (normalizeHeaders p (limited p receiver
          (posting.signed (sent p input integration contract id createdAt))).headers) name found →
        value ≠ [] := by
      intro name value found hmem hfound hnil
      rw [hbuilt.headers, normalize_built] at hfound
      have hget := get_built hmem
      rw [hfound.1, Option.some.injEq] at hget
      exact hfound.2 (hget.trans hnil)
    have haccept : Acceptable p posting receiver
        (sent p input integration contract id createdAt) := by
      refine ⟨hheader (by simp [HEADER_NAMES, headerValues, Receiver.signedAs, Posting.signed])
          hcontext.keyId,
        hheader (by simp [HEADER_NAMES, headerValues, Receiver.signedAs, Posting.signed])
          hcontext.eventId, ?_⟩
      have hsize := hcontext.size _ rfl
      rwa [size_limited] at hsize
    exact ⟨haccept, Except.ok.inj (h.symm.trans (hverifies haccept))⟩
  · rintro ⟨haccept, rfl⟩
    exact hverifies haccept

/-- What an event needs to be delivered under its key. -/
structure Deliverable (p : Webhook.Platform) (posting : Posting) (receiver : Receiver)
    (integration : IntegrationEventMetadata N) (contract : DomainEventContract N)
    (envelope : ExternalEventEnvelope N) : Prop extends Complete integration contract,
    Acceptable p posting receiver envelope where
  envelopeVersion : ∀ version ∈ integration.envelopeVersion, version = js "2"
  enabled : ∀ enabled ∈ receiver.bindingEnabled, enabled integration.bindingId = true

lemma expectedFields_mem {envelope : ExternalEventEnvelope N}
    (hsource : key.sourceApp = envelope.sourceApp) :
    ∀ e ∈ expectedFields (verifiedFor (receiver.signedAs (posting.signed envelope)) key),
      (e.1, Json.str e.2) ∈ envelope.members := by
  intro e he
  have hpairs : (expectedFields (verifiedFor (receiver.signedAs (posting.signed envelope)) key)).map
      (fun e => (e.1, (Json.str e.2 : Json N))) ⊆ envelope.members := by
    simp [expectedFields, verifiedFor, hsource, ExternalEventEnvelope.members,
      ExternalEventEnvelope.object, Receiver.signedAs, Posting.signed]
  exact hpairs (List.mem_map_of_mem he)

/-- Under its key, a body is rejected for its envelope version only. -/
lemma checkEnvelope_sent {envelope : ExternalEventEnvelope N}
    (hsource : key.sourceApp = envelope.sourceApp)
    (hdigest : key.capabilityDigest = envelope.capabilityDigest) :
    checkEnvelope (verifiedFor (receiver.signedAs (posting.signed envelope)) key)
      (canonicalJsonValue envelope.object) = .ok () ↔ envelope.envelopeVersion = js "2" := by
  have hfields : ∀ e ∈ expectedFields
      (verifiedFor (receiver.signedAs (posting.signed envelope)) key),
      fieldIs (canonicalJsonValue envelope.object) e.1 e.2 = true := by
    intro e he
    rw [fieldIs_sent (expectedFields_mem hsource e he), decide_eq_true_eq]
  have hversion : (js "envelopeVersion", Json.str envelope.envelopeVersion) ∈ envelope.members := by
    simp [ExternalEventEnvelope.members, ExternalEventEnvelope.object]
  have hpinned : (js "capabilityDigest", Json.str envelope.capabilityDigest) ∈
      envelope.members := by
    simp [ExternalEventEnvelope.members, ExternalEventEnvelope.object]
  rw [checkEnvelope_eq_ok, fieldIs_sent hversion, fieldIs_sent hpinned, decide_eq_true_eq,
    decide_eq_true_eq]
  exact ⟨fun h => h.2.1, fun h => ⟨hfields, h, hdigest.symm⟩⟩

lemma envelopeVersion_sent :
    (sent p input integration contract id createdAt).envelopeVersion = js "2" ↔
      ∀ version ∈ integration.envelopeVersion, version = js "2" := by
  change integration.envelopeVersion.getD (js "2") = js "2" ↔ _
  cases integration.envelopeVersion with
  | none => simp
  | some version => simp

/-- The check of the receipt is that of the envelope, on the copy that was parsed. -/
lemma receiptDigestMatches_sent {sha256Hex : JsString → JsString}
    (envelope : ExternalEventEnvelope N) :
    receiptDigestMatches sha256Hex (canonicalJsonValue envelope.object) =
      envelope.digestMatches sha256Hex := by
  have hpayload : field (js "payload") (canonicalJsonValue envelope.object) =
      some (canonicalJsonValue envelope.payload.json) :=
    field_sent (by simp [ExternalEventEnvelope.members, ExternalEventEnvelope.object])
  have hdigest : field (js "payloadDigest") (canonicalJsonValue envelope.object) =
      some (canonicalJsonValue (.str envelope.payloadDigest)) :=
    field_sent (by simp [ExternalEventEnvelope.members, ExternalEventEnvelope.object])
  rw [receiptDigestMatches, hpayload, hdigest, ExternalEventEnvelope.digestMatches]
  exact congrArg (fun digest => decide (digest = envelope.payloadDigest))
    (sha256Digest_freezeJsonValue envelope.payload)

/-- A recorded event is delivered under the key of its contract just when its row gives an
envelope, the envelope is of version 2 and fits, and the binding is enabled. -/
theorem recorded_delivered_iff {P : JsonSchema.Platform}
    {contractResolver : Option (DomainEventContractResolver N)} {n : ℕ} {data : DomainEventData N}
    (hdate : p.dateParse [] = none)
    (hintegration : input.integration = some integration)
    (hcontract : contractResolver.bind (fun resolve => resolve integration.reference) =
      some contract)
    (hrecord : record P (fun s => p.sha256Hex (utf8 s)) contractResolver n input =
      some (.ok data))
    (hkey : PinnedBy p posting receiver integration contract key) :
    Delivered p posting receiver
        ({ data with id := id, createdAt := createdAt } : DomainEventRecord N) ↔
      Deliverable p posting receiver integration contract
        (sent p input integration contract id createdAt) := by
  obtain rfl := eq_recordedData hintegration hcontract hrecord
  have hparse : parse (bodyText (receiver.received p
      (posting.signed (sent p input integration contract id createdAt))).body) =
        some (canonicalJsonValue (sent p input integration contract id createdAt).object) := by
    rw [bodyText_received, parse_canonicalJson]
  constructor
  · rintro ⟨envelope, verified, _, hbuild, hverify, _, _⟩
    obtain ⟨hcomplete, rfl⟩ := buildIntegrationEventEnvelope_eq_ok.mp hbuild
    obtain ⟨_, hheaders, henabled, parsed, hparsed, _, hcheck⟩ :=
      verifyDomainEventWebhookV2_eq_ok.mp hverify
    obtain rfl := Option.some.inj (hparsed.symm.trans hparse)
    obtain ⟨haccept, rfl⟩ := (verifyWebhookV2_limited hdate hkey hcomplete).mp hheaders
    exact ⟨hcomplete, haccept, envelopeVersion_sent.mp
      ((checkEnvelope_sent hkey.sourceApp hkey.capabilityDigest).mp hcheck), henabled⟩
  · intro h
    refine ⟨sent p input integration contract id createdAt, verifiedFor
      (receiver.signedAs (posting.signed (sent p input integration contract id createdAt))) key, _,
      buildIntegrationEventEnvelope_eq_ok.mpr ⟨h.toComplete, rfl⟩,
      verifyDomainEventWebhookV2_eq_ok.mpr ⟨contentTypeOf_received _,
        (verifyWebhookV2_limited hdate hkey h.toComplete).mpr ⟨h.toAcceptable, rfl⟩, h.enabled, _,
        hparse, rfl, (checkEnvelope_sent hkey.sourceApp hkey.capabilityDigest).mpr
          (envelopeVersion_sent.mpr h.envelopeVersion)⟩, hparse, ?_⟩
    rw [receiptDigestMatches_sent]
    exact decide_eq_true rfl

/-- Metadata for the key of the pages. -/
def pageMetadata (payload : JsonValue ℤ) : IntegrationEventMetadata ℤ where
  capabilityId := js "page"
  capabilityVersion := js "1"
  capabilityDigest := none
  bindingId := js "b"
  bindingVersion := js "1"
  envelopeVersion := none
  sourceApp := js "wiki"
  payload := payload
  payloadDigest := none
  payloadSchema := none

/-- A contract for the same key, with payloads of one type. -/
def pageContract (type : JsString) : DomainEventContract ℤ where
  capabilityDigest := js "sha256:page"
  payloadSchema := .obj [(js "type", .str type),
    (js "x-appspine-data-classification", .str (js "PUBLIC"))]

def pageRecorded (payload : JsonValue ℤ) : RecordDomainEventInput ℤ where
  aggregateType := js "page"
  aggregateId := js "p1"
  eventType := js "saved"
  actorUserId := none
  correlationId := none
  integration := some (pageMetadata payload)
  integrationPayloadSchema := none

def pagePosting : Posting :=
  ⟨js "/hooks", js "k1", js "new", js "1970-01-01T00:00:00.000Z"⟩

def pageReceiver : Receiver :=
  ⟨some 0, none, none, fun keyId => if keyId = js "k1" then some pageKey else none, none, true⟩

/-- Patterns that match nothing, and any other format. -/
def pagePlatform : JsonSchema.Platform := ⟨fun _ _ => false, fun _ => true⟩

lemma pinnedBy_page (payload : JsonValue ℤ) (type : JsString) :
    PinnedBy plain pagePosting pageReceiver (pageMetadata payload) (pageContract type) pageKey where
  resolved := by simp [pageReceiver, pagePosting]
  sourceApp := rfl
  capabilityId := rfl
  capabilityVersion := rfl
  capabilityDigest := rfl
  bindingId := rfl
  bindingVersion := rfl
  secret := Or.inl rfl
  fresh := ⟨0, 0, by simp [plain, pagePosting], rfl, by norm_num [pageReceiver]⟩

lemma record_page {payload : JsonValue ℤ} {type : JsString}
    (hvalid : JsonSchema.validateJsonSchema pagePlatform 3 (.json payload.json)
      (pageContract type).payloadSchema ⟨some .strict, none, none⟩ = some []) :
    record pagePlatform (fun s => plain.sha256Hex (utf8 s)) (some (fun _ => some (pageContract type)))
        3 (pageRecorded payload) =
      some (.ok (recordedData (pageRecorded payload)
        (some ((pageMetadata payload).pinned (fun s => plain.sha256Hex (utf8 s))
          (pageContract type))))) :=
  record_of_valid rfl rfl rfl rfl hvalid rfl rfl

/-- A page that was saved as `true` is delivered. -/
theorem recorded_delivered_page :
    Delivered plain pagePosting pageReceiver
      (storedEvent (fun s => plain.sha256Hex (utf8 s)) (pageRecorded ⟨.bool true, rfl⟩)
        (pageMetadata ⟨.bool true, rfl⟩) (pageContract (js "boolean")) (js "e1")
        (js "1970-01-01T00:00:00.000Z")) := by
  refine (recorded_delivered_iff (by decide) rfl rfl
    (@record_page _ (js "boolean") (by decide +kernel)) (pinnedBy_page _ _)).mpr ?_
  exact ⟨⟨by decide, by decide, by decide, by decide, by decide, by decide, rfl⟩,
    ⟨by decide, by decide, by decide +kernel⟩, by simp [pageMetadata], by simp [pageReceiver]⟩

/-- The payload `null` meets its contract and is recorded, and there is no envelope of it. -/
theorem null_undelivered :
    ∃ data : DomainEventData ℤ,
      record pagePlatform (fun s => plain.sha256Hex (utf8 s))
          (some (fun _ => some (pageContract (js "null")))) 3 (pageRecorded ⟨.null, rfl⟩) =
        some (.ok data) ∧
      PinnedBy plain pagePosting pageReceiver (pageMetadata ⟨.null, rfl⟩)
        (pageContract (js "null")) pageKey ∧
      buildIntegrationEventEnvelope (fun s => plain.sha256Hex (utf8 s))
          ({ data with id := js "e1", createdAt := js "1970-01-01T00:00:00.000Z" } :
            DomainEventRecord ℤ) =
        .error (js "Domain event e1 does not contain frozen integration metadata") ∧
      ¬ Delivered plain pagePosting pageReceiver
          ({ data with id := js "e1", createdAt := js "1970-01-01T00:00:00.000Z" } :
            DomainEventRecord ℤ) := by
  have hbuild : buildIntegrationEventEnvelope (fun s => plain.sha256Hex (utf8 s))
      (storedEvent (fun s => plain.sha256Hex (utf8 s)) (pageRecorded ⟨.null, rfl⟩)
        (pageMetadata ⟨.null, rfl⟩) (pageContract (js "null")) (js "e1")
        (js "1970-01-01T00:00:00.000Z")) =
      .error (js "Domain event e1 does not contain frozen integration metadata") := rfl
  refine ⟨_, @record_page _ (js "null") (by decide +kernel), pinnedBy_page _ _, hbuild, ?_⟩
  rintro ⟨envelope, verified, parsed, hbuilt, _⟩
  cases hbuild.symm.trans hbuilt

end Pinned

end Received

end Appspine.Integration
