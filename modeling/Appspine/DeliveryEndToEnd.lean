import Appspine.DeliveryProtocol

/-!
# What the outbox and the inbox guarantee together

A delivery is put down as processed only when the receiver has its event, and no event is taken in
twice, through every loss, delay and repetition between the two applications.
-/
namespace Appspine.DeliveryProtocol
open JsText JsonText Delivery Integration Receipt Transitions

section Invariant

variable {W N Eff : Type} [DecidableEq W] [JsonNumber N] {c : Setup N Eff} {s t : State W Eff}

/-- The receiver holds the receipt of the event. -/
def Received (c : Setup N Eff) (s : State W Eff) (eventId : JsString) : Prop :=
  receiptData (c.envelope eventId) ∈ s.receiver.receipts

structure Linked (c : Setup N Eff) (s : State W Eff) : Prop where
  ids : (s.sender.table.map (fun row => row.id)).Nodup
  held : ∀ w, ∀ delivery ∈ (s.sender.phase w).held, ∃ row ∈ s.sender.table, SameDelivery row delivery
  inbox : InboxInvariant c.envelopes s.receiver
  receipted : Receipted c.envelopes s.receiver
  awaits : ∀ w delivery post, posting c s w = some delivery → s.awaits w = some post →
    post.eventId = delivery.event.id
  posted : ∀ post ∈ s.posts,
    ∃ row ∈ s.sender.table, row.event.id = post.eventId ∧ row.handlerKey = c.handlerKey
  called : ∀ post, s.receiver.phase (.inl post) ≠ .notCalled → post ∈ s.posts
  completing : ∀ w delivery queue data caught,
    s.sender.phase w = .completing delivery queue data caught →
      delivery.handlerKey = c.handlerKey → data.status = some .PROCESSED →
        Received c s delivery.event.id
  rows : ∀ row ∈ s.sender.table, row.handlerKey = c.handlerKey → row.status = .PROCESSED →
    Received c s row.event.id

omit [DecidableEq W] in
theorem Linked.initial (h : Initial s) : Linked c s where
  ids := h.sender.ids
  held := by
    intro w delivery hdelivery
    rw [h.sender.idle w] at hdelivery
    cases hdelivery
  inbox := .initial h.receiver
  receipted := by
    intro call duplicate receipt hphase
    rw [h.receiver.phase call] at hphase
    cases hphase
  awaits := by
    intro w delivery post hposting _
    rw [posting, h.sender.idle w] at hposting
    cases hposting
  posted := by
    intro post hpost
    rw [h.posts] at hpost
    cases hpost
  called := fun post hphase => absurd (h.receiver.phase (.inl post)) hphase
  completing := by
    intro w delivery queue data caught hphase
    rw [h.sender.idle w] at hphase
    cases hphase
  rows := by
    intro row hrow _ hstatus
    rw [h.sender.recorded row hrow] at hstatus
    cases hstatus

omit [DecidableEq W] [JsonNumber N] in
theorem posting_eq_some {w : W} {delivery : DomainEventDelivery} :
    posting c s w = some delivery ↔
      (∃ queue, s.sender.phase w = .handling delivery queue) ∧ delivery.handlerKey = c.handlerKey := by
  unfold posting
  split
  · next current queue hphase =>
    constructor
    · intro h
      split_ifs at h with hkey
      obtain rfl := Option.some.inj h
      exact ⟨⟨queue, hphase⟩, hkey⟩
    · rintro ⟨⟨queue', hphase'⟩, hkey⟩
      rw [hphase] at hphase'
      obtain ⟨rfl, -⟩ := Phase.handling.inj hphase'
      rw [if_pos hkey]
  · next hnot =>
    constructor
    · intro h
      cases h
    · rintro ⟨⟨queue, hphase⟩, -⟩
      exact absurd hphase (hnot delivery queue)

/-- What a handler waits for belongs to its own delivery. -/
theorem awaits_step (h : Linked c s) {a : Delivery.Action W} {sender : DispatchState W}
    (hstep : Delivery.step c.options s.sender a = some sender) {w : W}
    {delivery : DomainEventDelivery} {post : Post}
    (hposting : posting c { s with sender := sender, awaits := forget s.awaits a } w = some delivery)
    (hawaits : forget s.awaits a w = some post) : post.eventId = delivery.event.id := by
  obtain ⟨⟨queue, hphase⟩, hkey⟩ := posting_eq_some.mp hposting
  have hphase : sender.phase w = .handling delivery queue := hphase
  have hcalled : ∀ {registered : Bool} {binding : BindingCheck},
      a ≠ .process w registered binding := by
    rintro registered binding rfl
    simp [forget] at hawaits
  rcases arrival_step hstep w with hsame | harrival
  · refine h.awaits w delivery post (posting_eq_some.mpr ⟨⟨queue, hsame ▸ hphase⟩, hkey⟩) ?_
    cases a with
    | process worker registered binding =>
      have hne : w ≠ worker := by
        rintro rfl
        exact hcalled rfl
      rwa [forget, Function.update_of_ne hne] at hawaits
    | _ => exact hawaits
  · rw [hphase] at harrival
    cases harrival with
    | called haction => exact absurd haction hcalled

/-- The event of a delivery that a worker puts down as processed has arrived. -/
theorem completing_step (h : Linked c s) {a : Delivery.Action W} {sender : DispatchState W}
    (hstep : Delivery.step c.options s.sender a = some sender)
    (hhandled : ∀ w delivery, a = .outcome w .handled → posting c s w = some delivery →
      Received c s delivery.event.id) {w : W} {delivery : DomainEventDelivery}
    {queue : List DomainEventDelivery} {data : DeliveryCompletionData} {caught : Bool}
    (hphase : sender.phase w = .completing delivery queue data caught)
    (hkey : delivery.handlerKey = c.handlerKey) (hstatus : data.status = some .PROCESSED) :
    Received c s delivery.event.id := by
  rcases arrival_step hstep w with hsame | harrival
  · exact h.completing w delivery queue data caught (hsame ▸ hphase) hkey hstatus
  · rw [hphase] at harrival
    cases harrival with
    | processed haction hbefore =>
      exact hhandled w delivery haction (posting_eq_some.mpr ⟨⟨queue, hbefore⟩, hkey⟩)
    | unprocessed hnot => exact absurd hstatus hnot

/-- The event of a row that becomes processed has arrived. -/
theorem rows_step (h : Linked c s) {a : Delivery.Action W} {sender : DispatchState W}
    (hstep : Delivery.step c.options s.sender a = some sender) {row' : DomainEventDelivery}
    (hrow' : row' ∈ sender.table) (hkey : row'.handlerKey = c.handlerKey)
    (hstatus : row'.status = .PROCESSED) : Received c s row'.event.id := by
  rcases mem_table_step h.ids hstep hrow' with ⟨row, hrow, hchange⟩ | hadded
  · cases hchange with
    | kept => exact h.rows _ hrow hkey hstatus
    | @reclaimed _ _ _ statement _ _ _ => cases statement <;> cases hstatus
    | claimed _ _ => cases hstatus
    | @completed _ w delivery queue data caught _ hphase _ hid hbefore _ =>
      obtain ⟨other, hother, hid', hevent, hkey'⟩ :=
        h.held w delivery (by rw [hphase]; exact List.mem_cons_self)
      obtain rfl := eq_of_id_eq h.ids hrow hother (hid.trans hid'.symm)
      have hdata : data.status = some .PROCESSED := by
        have happlied : data.status.getD _ = .PROCESSED := hstatus
        cases hgiven : data.status with
        | none =>
          rw [hgiven, Option.getD_none, hbefore] at happlied
          cases happlied
        | some status =>
          rw [hgiven, Option.getD_some] at happlied
          rw [happlied]
      have harrived := h.completing w delivery queue data caught hphase (hkey' ▸ hkey) hdata
      rwa [← hevent] at harrived
    | @admin action _ _ => cases action <;> cases hstatus
  · obtain ⟨event, heq⟩ := addedRows_recorded hadded
    rw [heq] at hstatus
    cases hstatus

/-- A statement of the dispatcher. Where it is the end of a webhook handler that reports the event
as processed, the receiver has the receipt. -/
theorem Linked.sender (h : Linked c s) {a : Delivery.Action W} {sender : DispatchState W}
    (hstep : Delivery.step c.options s.sender a = some sender)
    (hhandled : ∀ w delivery, a = .outcome w .handled → posting c s w = some delivery →
      Received c s delivery.event.id) :
    Linked c { s with sender := sender, awaits := forget s.awaits a } where
  ids := ids_step h.ids hstep
  held := held_row_step h.ids h.held hstep
  inbox := h.inbox
  receipted := h.receipted
  awaits := fun _ _ _ hposting hawaits => awaits_step h hstep hposting hawaits
  posted := by
    intro post hpost
    obtain ⟨row, hrow, hid, hkey⟩ := h.posted post hpost
    obtain ⟨row', hrow', hchange⟩ := exists_table_step h.ids hstep hrow
    obtain ⟨-, hevent, hkey'⟩ := sameDelivery_of_change hchange
    exact ⟨row', hrow', by rw [hevent, hid], hkey'.trans hkey⟩
  called := h.called
  completing := fun _ _ _ _ _ hphase hkey hstatus =>
    completing_step h hstep hhandled hphase hkey hstatus
  rows := fun _ hrow hkey hstatus => rows_step h hstep hrow hkey hstatus

omit [DecidableEq W] in
theorem Linked.receiver (h : Linked c s) {a : Receipt.Action Call Eff}
    {receiver : InboxState Call Eff} (hreaches : reaches s a = true)
    (hstep : Receipt.step c.sha256Hex c.envelopes s.receiver a = some receiver) :
    Linked c { s with receiver := receiver } := by
  have hmore : ∀ {eventId : JsString}, Received c s eventId →
      Received c { s with receiver := receiver } eventId :=
    fun harrived => (receipts_step hstep).1 harrived
  exact { h with
    inbox := Receipt.invariant_step h.inbox hstep
    receipted := receipted_step h.inbox h.receipted hstep
    called := by
      intro post hphase
      rcases called_step hstep hphase with hbefore | rfl
      · exact h.called post hbefore
      · exact of_decide_eq_true hreaches
    completing := fun w delivery queue data caught hphase hkey hstatus =>
      hmore (h.completing w delivery queue data caught hphase hkey hstatus)
    rows := fun row hrow hkey hstatus => hmore (h.rows row hrow hkey hstatus) }

theorem Linked.post (h : Linked c s) {w : W} {delivery : DomainEventDelivery}
    (hposting : posting c s w = some delivery) :
    Linked c { s with
      posts := s.posts ++ [⟨s.posts.length, delivery.event.id⟩]
      awaits := Function.update s.awaits w (some ⟨s.posts.length, delivery.event.id⟩) } := by
  refine { h with awaits := ?_, posted := ?_, called := ?_ }
  · intro w' delivery' post hposting' hawaits
    have hawaits : Function.update s.awaits w (some ⟨s.posts.length, delivery.event.id⟩) w' =
      some post := hawaits
    by_cases hw : w' = w
    · subst hw
      obtain rfl := Option.some.inj (hposting.symm.trans hposting')
      rw [Function.update_self] at hawaits
      rw [← Option.some.inj hawaits]
    · rw [Function.update_of_ne hw] at hawaits
      exact h.awaits w' delivery' post hposting' hawaits
  · intro post hpost
    rcases List.mem_append.mp hpost with hold | hnew
    · exact h.posted post hold
    · obtain ⟨⟨queue, hphase⟩, hkey⟩ := posting_eq_some.mp hposting
      obtain ⟨row, hrow, -, hevent, hkey'⟩ :=
        h.held w delivery (by rw [hphase]; exact List.mem_cons_self)
      rw [List.mem_singleton.mp hnew]
      exact ⟨row, hrow, by rw [hevent], hkey'.trans hkey⟩
  · exact fun post hphase => List.mem_append_left _ (h.called post hphase)

theorem handlerOutcome_handled {outcome : DeliveryOutcome}
    (h : handlerOutcome outcome = .handled) :
    ∃ status eventId reason, outcome = .processed status eventId reason := by
  cases outcome with
  | processed status eventId reason => exact ⟨status, eventId, reason, rfl⟩
  | retryable _ _ => cases h
  | terminal _ => cases h

theorem Linked.step (htruthful : Truthful c) (h : Linked c s) {a : Action W Eff}
    (hstep : step c s a = some t) : Linked c t := by
  cases a with
  | sender action =>
    simp only [DeliveryProtocol.step] at hstep
    split_ifs at hstep with hends
    obtain ⟨sender, hsender, rfl⟩ := Option.map_eq_some_iff.mp hstep
    refine h.sender hsender fun w delivery haction hposting => ?_
    rw [haction, endsPosting, hposting] at hends
    exact absurd rfl hends
  | post worker =>
    simp only [DeliveryProtocol.step] at hstep
    split at hstep
    · next delivery hposting _ =>
      split at hstep
      · cases hstep
      · obtain rfl := Option.some.inj hstep
        exact h.post hposting
    · cases hstep
  | answer worker response =>
    simp only [DeliveryProtocol.step] at hstep
    split at hstep
    · next current post hposting hawaits =>
      split_ifs at hstep with hanswer
      obtain ⟨sender, hsender, rfl⟩ := Option.map_eq_some_iff.mp hstep
      refine h.sender hsender fun w delivery haction hposting' => ?_
      obtain ⟨rfl, hresult⟩ := Delivery.Action.outcome.inj haction
      obtain ⟨status, eventId, reason, houtcome⟩ := handlerOutcome_handled hresult
      obtain ⟨duplicate, receipt, hreturned⟩ :=
        htruthful post _ response _ status eventId reason hanswer houtcome
      have harrived : receiptData (c.envelope post.eventId) ∈ s.receiver.receipts :=
        h.receipted (.inl post) duplicate receipt hreturned
      rwa [h.awaits _ delivery post hposting' hawaits] at harrived
    · cases hstep
  | unanswered worker message =>
    simp only [DeliveryProtocol.step] at hstep
    split at hstep
    · obtain ⟨sender, hsender, rfl⟩ := Option.map_eq_some_iff.mp hstep
      exact h.sender hsender fun w delivery haction _ => by cases haction
    · obtain ⟨sender, hsender, rfl⟩ := Option.map_eq_some_iff.mp hstep
      exact h.sender hsender fun w delivery haction _ => by cases haction
    · cases hstep
  | receiver action =>
    simp only [DeliveryProtocol.step] at hstep
    split_ifs at hstep with hreaches
    obtain ⟨receiver, hreceiver, rfl⟩ := Option.map_eq_some_iff.mp hstep
    exact h.receiver hreaches hreceiver

omit [JsonNumber N] in
theorem prior_settlePost {w : W} {result : HandlerOutcome}
    (h : settlePost c s w result = some t) : t.receiver.prior = s.receiver.prior := by
  obtain ⟨sender, -, rfl⟩ := Option.map_eq_some_iff.mp h
  rfl

theorem prior_step {a : Action W Eff} (h : DeliveryProtocol.step c s a = some t) :
    t.receiver.prior = s.receiver.prior := by
  cases a with
  | sender action =>
    simp only [DeliveryProtocol.step] at h
    split_ifs at h
    obtain ⟨sender, -, rfl⟩ := Option.map_eq_some_iff.mp h
    rfl
  | post worker =>
    simp only [DeliveryProtocol.step] at h
    split at h
    · split at h
      · cases h
      · obtain rfl := Option.some.inj h
        rfl
    · cases h
  | answer worker response =>
    simp only [DeliveryProtocol.step] at h
    split at h
    · split_ifs at h
      exact prior_settlePost h
    · cases h
  | unanswered worker message =>
    simp only [DeliveryProtocol.step] at h
    split at h
    · exact prior_settlePost h
    · exact prior_settlePost h
    · cases h
  | receiver action =>
    simp only [DeliveryProtocol.step] at h
    split_ifs at h
    obtain ⟨receiver, hreceiver, rfl⟩ := Option.map_eq_some_iff.mp h
    exact (receipts_step hreceiver).2

end Invariant

section EndToEnd

variable {W N Eff : Type} [DecidableEq W] [JsonNumber N] {c : Setup N Eff} {s₀ s : State W Eff}

/-- The calls that took the event in, each with its effects. -/
def TookIn (c : Setup N Eff) (s : State W Eff) (eventId : JsString) (m : Commit Call Eff) : Prop :=
  m ∈ s.receiver.commits ∧ keyOf (c.envelopes m.call) = keyOf (c.envelope eventId)

/-- What both applications can rely on. `prior` are the receipts from before. -/
structure EndToEnd (c : Setup N Eff) (prior : List IntegrationEventReceiptRecord) (s : State W Eff) :
    Prop where
  received : ∀ row ∈ s.sender.table, row.handlerKey = c.handlerKey → row.status = .PROCESSED →
    Received c s row.event.id ∧
      (keyOf (c.envelope row.event.id) ∉ prior.map (·.key) → ∃! m, TookIn c s row.event.id m)
  once : ∀ eventId m m', TookIn c s eventId m → TookIn c s eventId m' → m = m'
  recorded : ∀ m ∈ s.receiver.commits, ∀ post, m.call = .inl post →
    ∃ row ∈ s.sender.table, row.handlerKey = c.handlerKey ∧ row.event.id = post.eventId

omit [DecidableEq W] in
theorem Linked.agreed (h : Linked c s) : EndToEnd c s.receiver.prior s := by
  have hexactly := exactlyOnce_of_invariant h.inbox
  have honce : ∀ eventId m m', TookIn c s eventId m → TookIn c s eventId m' → m = m' := by
    rintro eventId m m' ⟨hm, hkey⟩ ⟨hm', hkey'⟩
    exact List.inj_on_of_nodup_map h.inbox.calls hm hm'
      (hexactly.once m hm m' hm' (hkey.trans hkey'.symm))
  refine ⟨fun row hrow hkey hstatus => ?_, honce, fun m hm post hpost => ?_⟩
  · have harrived := h.rows row hrow hkey hstatus
    refine ⟨harrived, fun hnew => ?_⟩
    rcases List.mem_append.mp harrived with hprior | hcommitted
    · exact absurd (List.mem_map_of_mem hprior) hnew
    · obtain ⟨m, hm, hreceipt⟩ := List.mem_map.mp hcommitted
      have htook : TookIn c s row.event.id m := by
        refine ⟨hm, ?_⟩
        rw [← receiptData_key, ← receiptData_key, ← (h.inbox.commits m hm).2, hreceipt]
      exact ⟨m, htook, fun m' htook' => honce row.event.id m' m htook' htook⟩
  · have hcalled : s.receiver.phase (.inl post) ≠ .notCalled := by
      rw [← hpost, (h.inbox.commits m hm).1]
      nofun
    obtain ⟨row, hrow, hid, hkey⟩ := h.posted post (h.called post hcalled)
    exact ⟨row, hrow, hkey, hid⟩

/-- Whatever is lost, late or repeated between the applications, and whichever workers stop: a
delivery is put down as processed only when the receiver has the event, and no event is taken in
twice. -/
theorem endToEnd (htruthful : Truthful c) (h₀ : Initial s₀) {actions : List (Action W Eff)}
    (hrun : run (DeliveryProtocol.step c) s₀ actions = some s) :
    EndToEnd c s₀.receiver.prior s := by
  have hlinked : Linked c s :=
    run_invariant (fun _ _ _ h hstep => h.step htruthful hstep) (Linked.initial h₀) hrun
  have hprior : s.receiver.prior = s₀.receiver.prior :=
    run_invariant (P := fun s => s.receiver.prior = s₀.receiver.prior)
      (fun _ _ _ h hstep => (prior_step hstep).trans h) rfl hrun
  exact hprior ▸ hlinked.agreed

section Example

def savedPage (eventId : JsString) : Integration.DomainEventRecord ℤ :=
  storedEvent id (pageRecorded ⟨.bool true, rfl⟩) (pageMetadata ⟨.bool true, rfl⟩)
    (pageContract (js "boolean")) eventId (js "1970-01-01T00:00:00.000Z")

/-- A receiver whose application answers what it likes once a call has returned, and before that
only that something went wrong. -/
def wiki : Setup ℤ Unit where
  options := DEFAULT_DISPATCHER_OPTIONS
  handlerKey := js "webhook"
  stored := savedPage
  storedId := fun _ => rfl
  others := fun _ => approvedEvent
  headerValues := ⟨fun _ => none, fun _ => none⟩
  sha256Hex := id
  mayAnswer := fun _ phase response =>
    match phase with
    | .returned _ _ => true
    | _ => decide (500 ≤ response.status)

theorem truthful_wiki : Truthful wiki := by
  intro post phase response now status eventId reason hanswer houtcome
  cases phase with
  | returned duplicate receipt => exact ⟨duplicate, receipt, rfl⟩
  | _ =>
    have hstatus : 500 ≤ response.status := of_decide_eq_true hanswer
    simp only [Response.outcome, classifyHttpOutcome] at houtcome
    rw [if_neg (by omega), if_neg (by omega), if_pos (by omega)] at houtcome
    cases houtcome

def quiet : State Unit Unit where
  sender := ⟨0, [], fun _ => .idle, []⟩
  receiver := ⟨[], [], fun _ => .notCalled⟩
  posts := []
  awaits := fun _ => none

theorem initial_quiet : Initial quiet where
  sender := ⟨List.nodup_nil, by simp [quiet], fun _ => rfl, rfl⟩
  receiver := ⟨List.nodup_nil, rfl, fun _ => rfl⟩
  posts := rfl

def claims (leaseId : JsString) : List (Action Unit Unit) :=
  [.sender (.start ()), .sender (.reclaim () .terminal), .sender (.reclaim () .retry),
    .sender (.claim () leaseId []), .sender (.process () true .enabled), .post ()]

/-- The event is taken in and the answer is lost; at the second request the receiver says so. -/
def lostAnswer : List (Action Unit Unit) :=
  let first : Call := .inl ⟨0, js "e1"⟩
  let second : Call := .inl ⟨1, js "e1"⟩
  .sender (.record ⟨js "e1", 1, some (js "b")⟩ [(js "d1", js "webhook")]) :: claims (js "w1") ++
    [.receiver (.call first), .receiver (.find first (.ok none)),
      .receiver (.create first (.ok ())), .receiver (.process first (.ok ())),
      .receiver (.commit first (.ok ())), .unanswered () [], .sender (.complete ()),
      .sender (.advance 30000)] ++ claims (js "w2") ++
    [.receiver (.call second),
      .receiver (.find second (.ok (some (receiptData (wiki.envelope (js "e1")))))),
      .receiver (.commit second (.ok ())),
      .answer () ⟨409, none, js "\x7b\"status\":\"already_processed\",\"eventId\":\"e1\"\x7d"⟩,
      .sender (.complete ())]

end Example

theorem endToEnd_lostAnswer : ∃ s, run (DeliveryProtocol.step wiki) quiet lostAnswer = some s ∧
    s.sender.table.map (fun row => row.status) = [.PROCESSED] ∧ s.posts.length = 2 ∧
      EndToEnd wiki [] s := by
  have hstate : (run (DeliveryProtocol.step wiki) quiet lostAnswer).map
      (fun s => (s.sender.table.map (fun row => row.status), s.posts.length)) =
        some ([.PROCESSED], 2) := by
    decide +kernel
  obtain ⟨s, hrun, heq⟩ := Option.map_eq_some_iff.mp hstate
  obtain ⟨hstatus, hposts⟩ := Prod.mk.inj heq
  exact ⟨s, hrun, hstatus, hposts, endToEnd truthful_wiki initial_quiet hrun⟩

end EndToEnd

end Appspine.DeliveryProtocol
