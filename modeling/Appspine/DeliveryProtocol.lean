import Appspine.DeliveredEvents
import Appspine.DispatcherLease
import Appspine.JsonParse
import Appspine.Receipt

/-!
# From the outbox to the inbox

The dispatchers of one application post the deliveries of its integration events to another
application, which takes them in under `withIntegrationEventReceipt`. Requests and answers get lost
or come late, workers stop between any two steps, and a delivery whose lease runs out is posted
again.
-/
namespace Appspine.DeliveryProtocol
open JsText JsonText Delivery Integration Receipt Transitions

section Outcome

/-- What `Number` and `Date.parse` make of a text: a finite number, and a time. -/
structure HeaderValues where
  number : JsString → Option ℚ
  dateParse : JsString → Option ℤ

def MAX_RETRY_AFTER_MS : ℤ := 86400000

/-- `boundedRetryAfter`, at the time `now`. -/
def boundedRetryAfter (p : HeaderValues) (now : ℤ) (value : Option JsString) : Option ℤ :=
  match value.filter (fun value => decide (value ≠ [])) with
  | none => none
  | some value =>
    match (p.number value).filter (fun seconds => decide (0 ≤ seconds)) with
    -- `Math.round`
    | some seconds => some (min ⌊seconds * 1000 + 1 / 2⌋ MAX_RETRY_AFTER_MS)
    | none =>
      (p.dateParse value).map fun timestamp => min (max (timestamp - now) 0) MAX_RETRY_AFTER_MS

inductive DeliveryOutcome where
  | processed (status : ℕ) (eventId reason : Option JsString)
  | retryable (status : ℕ) (retryAfterMs : Option ℤ)
  | terminal (status : ℕ)
  deriving DecidableEq

variable {N : Type}

/-- The event that the body of a conflict says was processed before. -/
def alreadyProcessed (body : Option (Json N)) : Option JsString :=
  match body.bind (field (js "status")), body.bind (field (js "eventId")) with
  | some (.str status), some (.str eventId) =>
    if status = js "already_processed" then some eventId else none
  | _, _ => none

def classifyHttpOutcome (p : HeaderValues) (now : ℤ) (status : ℕ) (retryAfter : Option JsString)
    (body : Option (Json N)) (expectedEventId : Option JsString) : DeliveryOutcome :=
  let eventId := (alreadyProcessed body).filter fun eventId => expectedEventId.all (· = eventId)
  if 200 ≤ status ∧ status < 300 then .processed status none none
  else if status = 409 ∧ eventId.isSome then
    .processed status eventId (some (js "already_processed"))
  else if status = 408 ∨ status = 425 ∨ status = 429 ∨ 500 ≤ status then
    .retryable status (boundedRetryAfter p now retryAfter)
  else .terminal status

/-- What comes back: the status, the header `retry-after`, and the text of the body. -/
structure Response where
  status : ℕ
  retryAfter : Option JsString
  body : JsString
  deriving DecidableEq

variable [JsonNumber N]

/-- `parseJson`: nothing of an empty text, or of one that is not JSON. -/
def parseBody (N : Type) [JsonNumber N] (body : JsString) : Option (Json N) :=
  if body = [] then none else parse body

def Response.outcome (N : Type) [JsonNumber N] (p : HeaderValues) (now : ℤ) (eventId : JsString)
    (response : Response) : DeliveryOutcome :=
  classifyHttpOutcome p now response.status response.retryAfter (parseBody N response.body)
    (some eventId)

def deliveryFailed (status : ℕ) : JsString :=
  js "Webhook delivery failed with HTTP " ++ natText status

/-- How `postDomainEventWebhookV2` ends on an answer. -/
def handlerOutcome : DeliveryOutcome → HandlerOutcome
  | .processed _ _ _ => .handled
  | .retryable status retryAfterMs => .failed ⟨deliveryFailed status, retryAfterMs⟩
  | .terminal status => .terminal (deliveryFailed status)

def requestFailed : JsString := js "Webhook request failed"

end Outcome

section System

/-- A request that was sent. -/
structure Post where
  number : ℕ
  eventId : JsString
  deriving DecidableEq

/-- What the receiver takes in: our requests, and whatever else it is sent. -/
abbrev Call := Post ⊕ ℕ

/-- The parties and what they are set up with: `stored` are the rows of the events, `mayAnswer`
is what the application behind the receiver answers a request, by where its call stands. -/
structure Setup (N Eff : Type) where
  options : DomainEventDispatcherOptions
  handlerKey : JsString
  stored : JsString → Integration.DomainEventRecord N
  storedId : ∀ eventId, (stored eventId).id = eventId
  others : ℕ → ExternalEventEnvelope N
  headerValues : HeaderValues
  sha256Hex : JsString → JsString
  mayAnswer : Post → CallPhase Eff → Response → Bool

variable {W N Eff : Type} [DecidableEq W] [JsonNumber N] (c : Setup N Eff)

/-- The envelope of an event, when there is one. -/
def Setup.envelope (eventId : JsString) : ExternalEventEnvelope N :=
  (c.stored eventId).envelopeInput.envelope c.sha256Hex

/-- The envelopes that the calls bring. -/
def Setup.envelopes : Call → ExternalEventEnvelope N
  | .inl post => c.envelope post.eventId
  | .inr n => c.others n

/-- `posts` is history; `awaits` is the request that the handler of a worker waits for. -/
structure State (W Eff : Type) where
  sender : DispatchState W
  receiver : InboxState Call Eff
  posts : List Post
  awaits : W → Option Post

inductive Action (W Eff : Type) where
  | sender (action : Delivery.Action W)
  | post (worker : W)
  | answer (worker : W) (response : Response)
  | unanswered (worker : W) (message : JsString)
  | receiver (action : Receipt.Action Call Eff)

/-- The delivery that the webhook handler of the worker is handling. -/
def posting (s : State W Eff) (worker : W) : Option DomainEventDelivery :=
  match s.sender.phase worker with
  | .handling delivery _ => if delivery.handlerKey = c.handlerKey then some delivery else none
  | _ => none

/-- Whether the step is the end of a webhook handler, which has steps of its own. -/
def endsPosting (s : State W Eff) : Delivery.Action W → Bool
  | .outcome worker _ => (posting c s worker).isSome
  | _ => false

/-- A handler that is called has not sent anything yet. -/
def forget (awaits : W → Option Post) : Delivery.Action W → W → Option Post
  | .process worker _ _ => Function.update awaits worker none
  | _ => awaits

/-- The handler of a worker ends. -/
def settlePost (s : State W Eff) (worker : W) (result : HandlerOutcome) : Option (State W Eff) :=
  (Delivery.step c.options s.sender (.outcome worker result)).map
    fun sender => { s with sender := sender }

/-- A call begins only with a request that was sent. -/
def reaches (s : State W Eff) : Receipt.Action Call Eff → Bool
  | .call (.inl post) => decide (post ∈ s.posts)
  | _ => true

def step (s : State W Eff) : Action W Eff → Option (State W Eff)
  | .sender action =>
    if endsPosting c s action then none
    else (Delivery.step c.options s.sender action).map
      fun sender => { s with sender := sender, awaits := forget s.awaits action }
  | .post worker =>
    match posting c s worker, s.awaits worker with
    | some delivery, none =>
      match buildIntegrationEventEnvelope c.sha256Hex (c.stored delivery.event.id) with
      | .error _ => none
      | .ok _ =>
        let post : Post := ⟨s.posts.length, delivery.event.id⟩
        some { s with
          posts := s.posts ++ [post], awaits := Function.update s.awaits worker (some post) }
    | _, _ => none
  | .answer worker response =>
    match posting c s worker, s.awaits worker with
    | some _, some post =>
      if c.mayAnswer post (s.receiver.phase (.inl post)) response then
        settlePost c s worker
          (handlerOutcome (response.outcome N c.headerValues s.sender.now post.eventId))
      else none
    | _, _ => none
  | .unanswered worker message =>
    match posting c s worker, s.awaits worker with
    | some _, none => settlePost c s worker (.failed ⟨message, none⟩)
    | some _, some _ => settlePost c s worker (.failed ⟨requestFailed, none⟩)
    | none, _ => none
  | .receiver action =>
    if reaches s action then
      (Receipt.step c.sha256Hex c.envelopes s.receiver action).map
        fun receiver => { s with receiver := receiver }
    else none

/-- Between two ticks of every worker, before the first request. -/
structure Initial (s : State W Eff) : Prop where
  sender : Delivery.Initial s.sender
  receiver : Receipt.Initial s.receiver
  posts : s.posts = []

/-- The application behind the receiver says that a request was processed only when its call has
returned. -/
def Truthful : Prop :=
  ∀ post phase response now status eventId reason, c.mayAnswer post phase response = true →
    response.outcome N c.headerValues now post.eventId = .processed status eventId reason →
      ∃ duplicate receipt, phase = .returned duplicate receipt

end System

section Sender

variable {W : Type} [DecidableEq W] {options : DomainEventDispatcherOptions}
  {s t : DispatchState W} {a : Delivery.Action W}

/-- Rows and snapshots of one delivery. -/
def SameDelivery (row delivery : DomainEventDelivery) : Prop :=
  row.id = delivery.id ∧ row.event = delivery.event ∧ row.handlerKey = delivery.handlerKey

omit [DecidableEq W] in
theorem sameDelivery_of_change {row row' : DomainEventDelivery}
    (h : RowChange options s a row row') : SameDelivery row' row := by
  cases h with
  | kept => exact ⟨rfl, rfl, rfl⟩
  | @reclaimed _ _ _ statement _ _ _ => cases statement <;> exact ⟨rfl, rfl, rfl⟩
  | claimed _ _ => exact ⟨rfl, rfl, rfl⟩
  | completed _ _ _ _ _ _ _ => exact ⟨rfl, rfl, rfl⟩
  | admin _ => exact ⟨rfl, rfl, rfl⟩

/-- Every delivery a worker holds has its row. -/
theorem held_row_step (ids : (s.table.map (fun row => row.id)).Nodup)
    (hheld : ∀ w, ∀ delivery ∈ (s.phase w).held, ∃ row ∈ s.table, SameDelivery row delivery)
    (h : Delivery.step options s a = some t) (w : W) :
    ∀ delivery ∈ (t.phase w).held, ∃ row ∈ t.table, SameDelivery row delivery := by
  intro delivery hdelivery
  rcases held_step h w with ⟨hsub, -⟩ | ⟨leaseId, locked, rfl, -, hclaimed, -⟩
  · obtain ⟨row, hrow, hid, hevent, hkey⟩ := hheld w delivery (hsub.subset hdelivery)
    obtain ⟨row', hrow', hchange⟩ := exists_table_step ids h hrow
    obtain ⟨hid', hevent', hkey'⟩ := sameDelivery_of_change hchange
    exact ⟨row', hrow', hid'.trans hid, hevent'.trans hevent, hkey'.trans hkey⟩
  · rw [hclaimed] at hdelivery
    refine ⟨delivery, ?_, rfl, rfl, rfl⟩
    rw [(claim_step h).2]
    exact (mem_claimDueDeliveries ids hdelivery).1

theorem markFailed_not_processed {now : ℤ} {delivery : DomainEventDelivery} {error : Failure} :
    (markFailed options now delivery error).status ≠ some .PROCESSED := by
  simp only [markFailed, ne_eq, Option.some.injEq]
  split_ifs
  · exact nofun
  · exact nofun

theorem settle_processed {now : ℤ} {delivery : DomainEventDelivery} {result : HandlerOutcome}
    (h : (settle options now delivery result).status = some .PROCESSED) : result = .handled := by
  cases result with
  | handled => rfl
  | ignored _ => cases h
  | terminal _ => cases h
  | failed _ => exact absurd h markFailed_not_processed

theorem admission_not_processed {now : ℤ} {delivery : DomainEventDelivery} {registered : Bool}
    {binding : BindingCheck} {data : DeliveryCompletionData} {caught : Bool}
    (h : admission options now delivery registered binding = .finish data caught) :
    data.status ≠ some .PROCESSED := by
  unfold admission at h
  split at h
  · split at h
    · cases h
    · cases h
    · cases h
      exact fun hstatus => by cases hstatus
    · cases h
      exact markFailed_not_processed
  · cases h
    exact fun hstatus => by cases hstatus

/-- Where a step can bring a worker, and what it takes to put it before the completion of a
processed delivery. -/
inductive Arrival (a : Delivery.Action W) (s : DispatchState W) (w : W) : Phase → Prop
  | idle : Arrival a s w .idle
  | reclaiming (staleBefore : ℤ) (statements : List Reclaim) :
      Arrival a s w (.reclaiming staleBefore statements)
  | working (queue : List DomainEventDelivery) : Arrival a s w (.working queue)
  | called {delivery : DomainEventDelivery} {queue : List DomainEventDelivery} {registered : Bool}
      {binding : BindingCheck} (haction : a = .process w registered binding) :
      Arrival a s w (.handling delivery queue)
  | processed {delivery : DomainEventDelivery} {queue : List DomainEventDelivery}
      {data : DeliveryCompletionData} {caught : Bool} (haction : a = .outcome w .handled)
      (hphase : s.phase w = .handling delivery queue) :
      Arrival a s w (.completing delivery queue data caught)
  | unprocessed {delivery : DomainEventDelivery} {queue : List DomainEventDelivery}
      {data : DeliveryCompletionData} {caught : Bool} (hstatus : data.status ≠ some .PROCESSED) :
      Arrival a s w (.completing delivery queue data caught)

omit [DecidableEq W] in
theorem arrival_nextPhase (queue : List DomainEventDelivery) (w : W) :
    Arrival a s w (nextPhase queue) := by
  cases queue with
  | nil => exact .idle
  | cons delivery queue => exact .working _

theorem arrival_step (h : Delivery.step options s a = some t) (w : W) :
    t.phase w = s.phase w ∨ Arrival a s w (t.phase w) := by
  have hmoved : ∀ {u : DispatchState W} {worker : W} {p : Phase},
      some (u.setPhase worker p) = some t → u.phase = s.phase →
        (worker = w → Arrival a s w p) → t.phase w = s.phase w ∨ Arrival a s w (t.phase w) := by
    intro u worker p ht hu hp
    obtain rfl := Option.some.inj ht
    show Function.update u.phase worker p w = s.phase w ∨
      Arrival a s w (Function.update u.phase worker p w)
    by_cases hw : w = worker
    · subst hw
      rw [Function.update_self]
      exact .inr (hp rfl)
    · rw [Function.update_of_ne hw, hu]
      exact .inl rfl
  cases a with
  | advance ms =>
    obtain rfl := Option.some.inj h
    exact .inl rfl
  | record event deliveries =>
    simp only [Delivery.step] at h
    split at h
    · obtain rfl := Option.some.inj h
      exact .inl rfl
    · cases h
  | start worker =>
    simp only [Delivery.step] at h
    split at h
    · exact hmoved h rfl fun _ => .reclaiming _ _
    · cases h
  | reclaim worker statement =>
    simp only [Delivery.step] at h
    split at h
    · split at h
      · exact hmoved h rfl fun _ => .reclaiming _ _
      · cases h
    · cases h
  | claim worker leaseId locked =>
    simp only [Delivery.step] at h
    split at h
    · split at h
      · cases h
      · exact hmoved h rfl fun _ => arrival_nextPhase _ w
    · cases h
  | process worker registered binding =>
    simp only [Delivery.step] at h
    split at h
    · split at h
      · refine hmoved h rfl ?_
        rintro rfl
        exact .called rfl
      · next hverdict =>
        exact hmoved h rfl fun _ => .unprocessed (admission_not_processed hverdict)
    · cases h
  | outcome worker result =>
    simp only [Delivery.step] at h
    split at h
    · next delivery queue hphase =>
      refine hmoved h rfl ?_
      rintro rfl
      by_cases hresult : result = .handled
      · subst hresult
        exact .processed rfl hphase
      · exact .unprocessed fun hstatus => hresult (settle_processed hstatus)
    · cases h
  | complete worker =>
    simp only [Delivery.step] at h
    split at h
    · exact hmoved h rfl fun _ => arrival_nextPhase _ w
    · cases h
  | completionFails worker applied message =>
    simp only [Delivery.step] at h
    split at h
    · refine hmoved h rfl fun _ => ?_
      split_ifs
      · exact .unprocessed markFailed_not_processed
      · exact .idle
    · cases h
  | abort worker => exact hmoved h rfl fun _ => .idle
  | admin action id =>
    simp only [Delivery.step] at h
    split at h
    · obtain rfl := Option.some.inj h
      exact .inl rfl
    · obtain rfl := Option.some.inj h
      exact .inl rfl

end Sender

section Receiver

variable {C Eff N : Type} [DecidableEq C] [JsonNumber N] {sha256Hex : JsString → JsString}
  {envelopes : C → ExternalEventEnvelope N} {s t : InboxState C Eff} {a : Receipt.Action C Eff}

theorem receipts_step (h : Receipt.step sha256Hex envelopes s a = some t) :
    s.receipts ⊆ t.receipts ∧ t.prior = s.prior := by
  rcases Receipt.step_cases h with ⟨_, _, _, _, rfl⟩ | ⟨_, receipt, _, _, _, rfl⟩
  · exact ⟨List.Subset.refl _, rfl⟩
  · refine ⟨?_, rfl⟩
    simp only [InboxState.receipts, InboxState.setPhase, List.map_append]
    rw [← List.append_assoc]
    exact List.subset_append_left _ _

/-- A call that has returned left its receipt. -/
def Receipted (envelopes : C → ExternalEventEnvelope N) (s : InboxState C Eff) : Prop :=
  ∀ call duplicate receipt, s.phase call = .returned duplicate receipt →
    receiptData (envelopes call) ∈ s.receipts

theorem receipted_step (hi : InboxInvariant envelopes s) (hr : Receipted envelopes s)
    (h : Receipt.step sha256Hex envelopes s a = some t) : Receipted envelopes t := by
  intro call duplicate receipt hphase
  have hold : s.phase call = .returned duplicate receipt →
      receiptData (envelopes call) ∈ t.receipts :=
    fun hbefore => (receipts_step h).1 (hr call duplicate receipt hbefore)
  have hok : ∀ q, s.phase call = q → PhaseOk envelopes s call q := fun q hq => hq ▸ hi.phases call
  rcases Receipt.step_cases h with ⟨c, p, _, hchange, rfl⟩ | ⟨c, committed, effects, hbefore, _, rfl⟩
  · rw [setPhase_phase] at hphase
    split_ifs at hphase with hc
    · subst hc
      rw [hphase] at hchange
      cases hchange with
      | duplicate hthere => exact hthere
      | confirmed hfound =>
        obtain ⟨hthere, heq⟩ := hok _ hfound
        exact heq ▸ hthere
    · exact hold hphase
  · by_cases hc : call = c
    · subst hc
      have heq : committed = receiptData (envelopes call) := hok _ hbefore
      simp [InboxState.receipts, InboxState.setPhase, heq]
    · refine hold ?_
      rw [← hphase]
      show _ = Function.update s.phase c _ call
      rw [Function.update_of_ne hc]

/-- A call stands anywhere only once it has been made. -/
theorem called_step (h : Receipt.step sha256Hex envelopes s a = some t) {call : C}
    (hcalled : t.phase call ≠ .notCalled) : s.phase call ≠ .notCalled ∨ a = .call call := by
  by_contra hnot
  obtain ⟨hphase, ha⟩ := not_or.mp hnot
  rw [not_not] at hphase
  have hne : ∀ {c : C}, s.phase c ≠ .notCalled → call ≠ c := by
    rintro c hc rfl
    exact hc hphase
  have hset : ∀ {c : C} {p : CallPhase Eff}, call ≠ c → (s.setPhase c p).phase call = .notCalled := by
    intro c p hc
    rw [setPhase_phase, if_neg hc, hphase]
  cases a with
  | call c =>
    have hc : call ≠ c := fun heq => ha (heq ▸ rfl)
    simp only [Receipt.step] at h
    split at h
    · split at h
      · obtain rfl := Option.some.inj h
        exact hcalled (hset hc)
      · obtain rfl := Option.some.inj h
        exact hcalled (hset hc)
    · cases h
  | find c result =>
    simp only [Receipt.step] at h
    split at h
    · next hopened =>
      have hc : call ≠ c := hne (by rw [hopened]; simp)
      split at h
      · obtain rfl := Option.some.inj h
        exact hcalled (hset hc)
      · split at h
        · obtain rfl := Option.some.inj h
          exact hcalled (hset hc)
        · cases h
      · split at h
        · obtain rfl := Option.some.inj h
          exact hcalled (hset hc)
        · cases h
    · cases h
  | create c result =>
    simp only [Receipt.step] at h
    split at h
    · next hmissed =>
      have hc : call ≠ c := hne (by rw [hmissed]; simp)
      split at h
      · obtain rfl := Option.some.inj h
        exact hcalled (hset hc)
      · obtain rfl := Option.some.inj h
        exact hcalled (hset hc)
    · cases h
  | process c result =>
    simp only [Receipt.step] at h
    split at h
    · next hcreated =>
      have hc : call ≠ c := hne (by rw [hcreated]; simp)
      split at h
      · obtain rfl := Option.some.inj h
        exact hcalled (hset hc)
      · obtain rfl := Option.some.inj h
        exact hcalled (hset hc)
    · cases h
  | commit c result =>
    simp only [Receipt.step] at h
    split at h
    · next hprocessed =>
      obtain rfl := Option.some.inj h
      exact hcalled (hset (hne (by rw [hprocessed]; simp)))
    · next hprocessed =>
      split at h
      · obtain rfl := Option.some.inj h
        exact hcalled (hset (hne (by rw [hprocessed]; simp)))
      · cases h
    · next hfound =>
      obtain rfl := Option.some.inj h
      exact hcalled (hset (hne (by rw [hfound]; simp)))
    · next hfound =>
      obtain rfl := Option.some.inj h
      exact hcalled (hset (hne (by rw [hfound]; simp)))
    · cases h
  | resolve c result =>
    simp only [Receipt.step] at h
    split at h
    · next hconflicted =>
      have hc : call ≠ c := hne (by rw [hconflicted]; simp)
      split at h
      · obtain rfl := Option.some.inj h
        exact hcalled (hset hc)
      · split at h
        · obtain rfl := Option.some.inj h
          exact hcalled (hset hc)
        · cases h
      · split at h
        · obtain rfl := Option.some.inj h
          exact hcalled (hset hc)
        · cases h
    · cases h

end Receiver

end Appspine.DeliveryProtocol
