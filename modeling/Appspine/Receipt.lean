import Appspine.IntegrationEnvelope
import Appspine.JsonNumbers
import Appspine.Transitions

/-!
# Integration event receipts

Calls of `withIntegrationEventReceipt` over one database whose transactions are atomic and
isolated, and which admits no second committed receipt of one source app and event id. A call
goes from one database statement to the next, and calls interleave.
-/
namespace Appspine.Receipt
open JsText Integration Transitions

structure IntegrationEventReceiptRecord where
  sourceApp : JsString
  eventId : JsString
  capabilityId : JsString
  capabilityVersion : JsString
  capabilityDigest : JsString
  bindingId : JsString
  bindingVersion : JsString
  payloadDigest : JsString
  deriving DecidableEq

/-- What may be thrown, as far as it is told apart: by class, or by its `code`. -/
inductive Thrown where
  | receiptUniqueConflict
  | terminal (message : JsString)
  | other (code : Option JsString)
  deriving DecidableEq

def isUniqueConstraintViolation (error : Thrown) : Bool := error = .other (some (js "P2002"))

def IntegrationEventReceiptRecord.key (r : IntegrationEventReceiptRecord) : JsString × JsString :=
  (r.sourceApp, r.eventId)

section Envelope

variable {N : Type}

def keyOf (envelope : ExternalEventEnvelope N) : JsString × JsString :=
  (envelope.sourceApp, envelope.eventId)

/-- The data of the receipt a call creates. -/
def receiptData (envelope : ExternalEventEnvelope N) : IntegrationEventReceiptRecord :=
  { sourceApp := envelope.sourceApp
    eventId := envelope.eventId
    capabilityId := envelope.capabilityId
    capabilityVersion := envelope.capabilityVersion
    capabilityDigest := envelope.capabilityDigest
    bindingId := envelope.bindingId
    bindingVersion := envelope.bindingVersion
    payloadDigest := envelope.payloadDigest }

def assertMatchingReceipt (existing : IntegrationEventReceiptRecord)
    (envelope : ExternalEventEnvelope N) : Except Thrown IntegrationEventReceiptRecord :=
  if existing.payloadDigest ≠ envelope.payloadDigest then
    .error (.terminal (js "Integration event receipt digest mismatch for " ++ envelope.eventId))
  else if existing.capabilityId ≠ envelope.capabilityId ∨
      existing.capabilityVersion ≠ envelope.capabilityVersion ∨
      existing.capabilityDigest ≠ envelope.capabilityDigest ∨
      existing.bindingId ≠ envelope.bindingId ∨
      existing.bindingVersion ≠ envelope.bindingVersion then
    .error (.terminal (js "Integration event receipt contract mismatch for " ++ envelope.eventId))
  else .ok existing

lemma receiptData_key (envelope : ExternalEventEnvelope N) :
    (receiptData envelope).key = keyOf envelope := rfl

/-- A receipt of the envelope's key that passes the assertion is the receipt of the envelope. -/
lemma assertMatchingReceipt_ok {existing receipt : IntegrationEventReceiptRecord}
    {envelope : ExternalEventEnvelope N} (hkey : existing.key = keyOf envelope)
    (h : assertMatchingReceipt existing envelope = .ok receipt) :
    receipt = existing ∧ existing = receiptData envelope := by
  obtain ⟨app, event, ci, cv, cd, bi, bv, pd⟩ := existing
  simp only [IntegrationEventReceiptRecord.key, keyOf, Prod.mk.injEq] at hkey
  unfold assertMatchingReceipt at h
  split_ifs at h with hdigest hpins
  simp only [ne_eq, not_not] at hdigest
  simp only [ne_eq, not_or, not_not] at hpins
  refine ⟨(Except.ok.inj h).symm, ?_⟩
  simp [receiptData, hkey, hdigest, hpins]

end Envelope

/-- Where a call is: which statement it has behind it. -/
inductive CallPhase (Eff : Type) where
  | notCalled
  | opened (snapshot : List IntegrationEventReceiptRecord)
  | missed
  | created (receipt : IntegrationEventReceiptRecord)
  | processed (receipt : IntegrationEventReceiptRecord) (effects : Eff)
  | found (receipt : IntegrationEventReceiptRecord)
  | conflicted
  | returned (duplicate : Bool) (receipt : IntegrationEventReceiptRecord)
  | threw (error : Thrown)

/-- What one transaction committed: its receipt and the effects of its callback. -/
structure Commit (C Eff : Type) where
  call : C
  receipt : IntegrationEventReceiptRecord
  effects : Eff

/-- The receipts from before, what was committed since, and the calls. -/
structure InboxState (C Eff : Type) where
  prior : List IntegrationEventReceiptRecord
  commits : List (Commit C Eff)
  phase : C → CallPhase Eff

/-- The next statement of a call, with what the database or the callback makes of it. A
statement may fail at any time, with any error. -/
inductive Action (C Eff : Type) where
  | call (c : C)
  | find (c : C) (result : Except Thrown (Option IntegrationEventReceiptRecord))
  | create (c : C) (result : Except Thrown Unit)
  | process (c : C) (result : Except Thrown Eff)
  | commit (c : C) (result : Except Thrown Unit)
  | resolve (c : C) (result : Except Thrown (Option IntegrationEventReceiptRecord))

section Step

variable {C Eff N : Type} [DecidableEq C]

def InboxState.receipts (s : InboxState C Eff) : List IntegrationEventReceiptRecord :=
  s.prior ++ s.commits.map (·.receipt)

def InboxState.setPhase (s : InboxState C Eff) (c : C) (p : CallPhase Eff) : InboxState C Eff :=
  { s with phase := Function.update s.phase c p }

/-- The transaction is rolled back; only a conflict on the receipt is looked into. -/
def rolledBack (error : Thrown) : CallPhase Eff :=
  if error = .receiptUniqueConflict then .conflicted else .threw error

/-- The error the `catch` around the insert throws. -/
def createError (error : Thrown) : Thrown :=
  if isUniqueConstraintViolation error then .receiptUniqueConflict else error

/-- `existing` was found inside the transaction. -/
def foundInside (existing : IntegrationEventReceiptRecord) (envelope : ExternalEventEnvelope N) :
    CallPhase Eff :=
  match assertMatchingReceipt existing envelope with
  | .ok receipt => .found receipt
  | .error error => rolledBack error

/-- What the look-up after a conflict ends in. -/
def resolved (existing : Option IntegrationEventReceiptRecord)
    (envelope : ExternalEventEnvelope N) : CallPhase Eff :=
  match existing with
  | none => .threw .receiptUniqueConflict
  | some existing =>
    match assertMatchingReceipt existing envelope with
    | .ok receipt => .returned true receipt
    | .error error => .threw error

variable [JsonText.JsonNumber N] (sha256Hex : JsString → JsString)
  (envelopes : C → ExternalEventEnvelope N)

/-- One statement of one call. A look-up inside a transaction sees a committed receipt, or none
when there was none as the transaction began. -/
def step (s : InboxState C Eff) : Action C Eff → Option (InboxState C Eff)
  | .call c =>
    match s.phase c with
    | .notCalled =>
      if (envelopes c).digestMatches sha256Hex then some (s.setPhase c (.opened s.receipts))
      else some (s.setPhase c (.threw (.terminal
        (js "Integration event payload digest mismatch for " ++ (envelopes c).eventId))))
    | _ => none
  | .find c result =>
    match s.phase c with
    | .opened snapshot =>
      match result with
      | .error error => some (s.setPhase c (rolledBack error))
      | .ok (some existing) =>
        if existing ∈ s.receipts ∧ existing.key = keyOf (envelopes c) then
          some (s.setPhase c (foundInside existing (envelopes c)))
        else none
      | .ok none =>
        if keyOf (envelopes c) ∉ snapshot.map (·.key) then some (s.setPhase c .missed) else none
    | _ => none
  | .create c result =>
    match s.phase c with
    | .missed =>
      match result with
      | .error error => some (s.setPhase c (rolledBack (createError error)))
      | .ok _ => some (s.setPhase c (.created (receiptData (envelopes c))))
    | _ => none
  | .process c result =>
    match s.phase c with
    | .created receipt =>
      match result with
      | .error error => some (s.setPhase c (rolledBack error))
      | .ok effects => some (s.setPhase c (.processed receipt effects))
    | _ => none
  | .commit c result =>
    match s.phase c, result with
    | .processed _ _, .error error => some (s.setPhase c (rolledBack error))
    | .processed receipt effects, .ok _ =>
      if receipt.key ∉ s.receipts.map (·.key) then
        some { s.setPhase c (.returned false receipt) with
          commits := s.commits ++ [⟨c, receipt, effects⟩] }
      else none
    | .found _, .error error => some (s.setPhase c (rolledBack error))
    | .found receipt, .ok _ => some (s.setPhase c (.returned true receipt))
    | _, _ => none
  | .resolve c result =>
    match s.phase c with
    | .conflicted =>
      match result with
      | .error error => some (s.setPhase c (.threw error))
      | .ok (some existing) =>
        if existing ∈ s.receipts ∧ existing.key = keyOf (envelopes c) then
          some (s.setPhase c (resolved (some existing) (envelopes c)))
        else none
      | .ok none =>
        if keyOf (envelopes c) ∉ s.receipts.map (·.key) then
          some (s.setPhase c (resolved none (envelopes c)))
        else none
    | _ => none

end Step

section Change

variable {C Eff N : Type} {envelopes : C → ExternalEventEnvelope N} {s : InboxState C Eff}

/-- The call has neither returned nor thrown. -/
def CallPhase.Open : CallPhase Eff → Prop
  | .returned _ _ => False
  | .threw _ => False
  | _ => True

/-- What a call may turn into without a commit, and what is known then. -/
inductive Change (envelopes : C → ExternalEventEnvelope N) (s : InboxState C Eff) (c : C) :
    CallPhase Eff → Prop
  | opened : Change envelopes s c (.opened s.receipts)
  | missed : Change envelopes s c .missed
  | created : Change envelopes s c (.created (receiptData (envelopes c)))
  | processed {receipt : IntegrationEventReceiptRecord} (effects : Eff)
      (before : s.phase c = .created receipt) : Change envelopes s c (.processed receipt effects)
  | found (there : receiptData (envelopes c) ∈ s.receipts) :
      Change envelopes s c (.found (receiptData (envelopes c)))
  | conflicted : Change envelopes s c .conflicted
  | duplicate (there : receiptData (envelopes c) ∈ s.receipts) :
      Change envelopes s c (.returned true (receiptData (envelopes c)))
  | confirmed {receipt : IntegrationEventReceiptRecord} (before : s.phase c = .found receipt) :
      Change envelopes s c (.returned true receipt)
  | threw (error : Thrown) : Change envelopes s c (.threw error)

lemma change_rolledBack (c : C) (error : Thrown) : Change envelopes s c (rolledBack error) := by
  unfold rolledBack
  split_ifs
  · exact .conflicted
  · exact .threw error

lemma change_foundInside {c : C} {existing : IntegrationEventReceiptRecord}
    (hmem : existing ∈ s.receipts) (hkey : existing.key = keyOf (envelopes c)) :
    Change envelopes s c (foundInside existing (envelopes c)) := by
  unfold foundInside
  cases ha : assertMatchingReceipt existing (envelopes c) with
  | ok receipt =>
    obtain ⟨rfl, rfl⟩ := assertMatchingReceipt_ok hkey ha
    exact .found hmem
  | error error => exact change_rolledBack c error

lemma change_resolved {c : C} {existing : IntegrationEventReceiptRecord}
    (hmem : existing ∈ s.receipts) (hkey : existing.key = keyOf (envelopes c)) :
    Change envelopes s c (resolved (some existing) (envelopes c)) := by
  unfold resolved
  simp only
  cases ha : assertMatchingReceipt existing (envelopes c) with
  | ok receipt =>
    obtain ⟨rfl, rfl⟩ := assertMatchingReceipt_ok hkey ha
    exact .duplicate hmem
  | error error => exact .threw error

end Change

section Inversion

variable {C Eff N : Type} [DecidableEq C] [JsonText.JsonNumber N] {sha256Hex : JsString → JsString}
  {envelopes : C → ExternalEventEnvelope N} {s t : InboxState C Eff}

@[simp] lemma setPhase_receipts (s : InboxState C Eff) (c : C) (p : CallPhase Eff) :
    (s.setPhase c p).receipts = s.receipts := rfl

@[simp] lemma setPhase_commits (s : InboxState C Eff) (c : C) (p : CallPhase Eff) :
    (s.setPhase c p).commits = s.commits := rfl

lemma setPhase_phase (s : InboxState C Eff) (c c' : C) (p : CallPhase Eff) :
    (s.setPhase c p).phase c' = if c' = c then p else s.phase c' := by
  simp [InboxState.setPhase, Function.update_apply]

/-- A step moves one open call on, or commits its transaction. -/
lemma step_cases {a : Action C Eff} (h : step sha256Hex envelopes s a = some t) :
    (∃ c p, (s.phase c).Open ∧ Change envelopes s c p ∧ t = s.setPhase c p) ∨
      ∃ c receipt effects, s.phase c = .processed receipt effects ∧
        receipt.key ∉ s.receipts.map (·.key) ∧
        t = { s.setPhase c (.returned false receipt) with
          commits := s.commits ++ [⟨c, receipt, effects⟩] } := by
  have move : ∀ {c p}, (s.phase c).Open → Change envelopes s c p → some (s.setPhase c p) = some t →
      (∃ c p, (s.phase c).Open ∧ Change envelopes s c p ∧ t = s.setPhase c p) := by
    intro c p ho hc heq
    exact ⟨c, p, ho, hc, (Option.some.inj heq).symm⟩
  cases a with
  | call c =>
    simp only [step] at h
    split at h
    · rename_i hphase
      split_ifs at h
      · exact Or.inl (move (by simp [hphase, CallPhase.Open]) .opened h)
      · exact Or.inl (move (by simp [hphase, CallPhase.Open]) (.threw _) h)
    · cases h
  | find c result =>
    simp only [step] at h
    split at h
    · rename_i snapshot hphase
      have hopen : (s.phase c).Open := by simp [hphase, CallPhase.Open]
      split at h
      · exact Or.inl (move hopen (change_rolledBack c _) h)
      · split_ifs at h with hfound
        exact Or.inl (move hopen (change_foundInside hfound.1 hfound.2) h)
      · split_ifs at h
        exact Or.inl (move hopen .missed h)
    · cases h
  | create c result =>
    simp only [step] at h
    split at h
    · rename_i hphase
      have hopen : (s.phase c).Open := by simp [hphase, CallPhase.Open]
      split at h
      · exact Or.inl (move hopen (change_rolledBack c _) h)
      · exact Or.inl (move hopen .created h)
    · cases h
  | process c result =>
    simp only [step] at h
    split at h
    · rename_i receipt hphase
      have hopen : (s.phase c).Open := by simp [hphase, CallPhase.Open]
      split at h
      · exact Or.inl (move hopen (change_rolledBack c _) h)
      · exact Or.inl (move hopen (.processed _ hphase) h)
    · cases h
  | commit c result =>
    simp only [step] at h
    split at h
    · rename_i hphase
      exact Or.inl (move (by simp [hphase, CallPhase.Open]) (change_rolledBack c _) h)
    · rename_i receipt effects _ hphase
      split_ifs at h with hkey
      exact Or.inr ⟨c, receipt, effects, hphase, hkey, (Option.some.inj h).symm⟩
    · rename_i hphase
      exact Or.inl (move (by simp [hphase, CallPhase.Open]) (change_rolledBack c _) h)
    · rename_i receipt _ hphase
      exact Or.inl (move (by simp [hphase, CallPhase.Open]) (.confirmed hphase) h)
    · cases h
  | resolve c result =>
    simp only [step] at h
    split at h
    · rename_i hphase
      have hopen : (s.phase c).Open := by simp [hphase, CallPhase.Open]
      split at h
      · exact Or.inl (move hopen (.threw _) h)
      · split_ifs at h with hfound
        exact Or.inl (move hopen (change_resolved hfound.1 hfound.2) h)
      · split_ifs at h
        exact Or.inl (move hopen (.threw _) h)
    · cases h

end Inversion

section Invariant

variable {C Eff N : Type} {envelopes : C → ExternalEventEnvelope N} {s t : InboxState C Eff}

/-- What the phase of a call says about its receipt. -/
def PhaseOk (envelopes : C → ExternalEventEnvelope N) (s : InboxState C Eff) (c : C) :
    CallPhase Eff → Prop
  | .created receipt => receipt = receiptData (envelopes c)
  | .processed receipt _ => receipt = receiptData (envelopes c)
  | .found receipt => receipt ∈ s.receipts ∧ receipt = receiptData (envelopes c)
  | .returned true receipt => receipt ∈ s.receipts ∧ receipt = receiptData (envelopes c)
  | _ => True

structure InboxInvariant (envelopes : C → ExternalEventEnvelope N) (s : InboxState C Eff) :
    Prop where
  keys : (s.receipts.map (·.key)).Nodup
  phases : ∀ c, PhaseOk envelopes s c (s.phase c)
  commits : ∀ m ∈ s.commits, s.phase m.call = .returned false m.receipt ∧
    m.receipt = receiptData (envelopes m.call)
  calls : (s.commits.map (·.call)).Nodup

/-- No call has been made, and the receipts from before have different keys. -/
structure Initial (s : InboxState C Eff) : Prop where
  prior : (s.prior.map (·.key)).Nodup
  commits : s.commits = []
  phase : ∀ c, s.phase c = .notCalled

lemma InboxInvariant.initial (h : Initial s) : InboxInvariant envelopes s where
  keys := by simpa [InboxState.receipts, h.commits] using h.prior
  phases := fun c => by simp [h.phase c, PhaseOk]
  commits := by simp [h.commits]
  calls := by simp [h.commits]

lemma PhaseOk.mono {c : C} {p : CallPhase Eff} (h : PhaseOk envelopes s c p)
    (hsub : s.receipts ⊆ t.receipts) : PhaseOk envelopes t c p := by
  cases p with
  | found receipt => exact ⟨hsub h.1, h.2⟩
  | returned duplicate receipt =>
    cases duplicate with
    | true => exact ⟨hsub h.1, h.2⟩
    | false => trivial
  | created receipt => exact h
  | processed receipt effects => exact h
  | notCalled => trivial
  | opened snapshot => trivial
  | missed => trivial
  | conflicted => trivial
  | threw error => trivial

lemma phaseOk_of_change (hi : InboxInvariant envelopes s) {c : C} {p : CallPhase Eff}
    (h : Change envelopes s c p) : PhaseOk envelopes s c p := by
  cases h with
  | created => rfl
  | processed effects before =>
    have hphase := hi.phases c
    rw [before] at hphase
    exact hphase
  | found there => exact ⟨there, rfl⟩
  | duplicate there => exact ⟨there, rfl⟩
  | confirmed before =>
    have hphase := hi.phases c
    rw [before] at hphase
    exact hphase
  | opened => trivial
  | missed => trivial
  | conflicted => trivial
  | threw error => trivial

variable [DecidableEq C] [JsonText.JsonNumber N] {sha256Hex : JsString → JsString}

lemma invariant_step {a : Action C Eff} (hi : InboxInvariant envelopes s)
    (h : step sha256Hex envelopes s a = some t) : InboxInvariant envelopes t := by
  rcases step_cases h with ⟨c, p, hopen, hchange, rfl⟩ | ⟨c, receipt, effects, hphase, hkey, rfl⟩
  · refine ⟨hi.keys, ?_, ?_, hi.calls⟩
    · intro c'
      rw [setPhase_phase]
      split_ifs with hc
      · rw [hc]
        exact phaseOk_of_change hi hchange
      · exact hi.phases c'
    · intro m hm
      obtain ⟨hreturned, hreceipt⟩ := hi.commits m hm
      have hne : m.call ≠ c := by
        rintro rfl
        rw [hreturned] at hopen
        exact hopen
      rw [setPhase_phase, if_neg hne]
      exact ⟨hreturned, hreceipt⟩
  · have hreceipts : ({ s.setPhase c (.returned false receipt) with
        commits := s.commits ++ [⟨c, receipt, effects⟩] } : InboxState C Eff).receipts =
          s.receipts ++ [receipt] := by
      simp [InboxState.receipts, InboxState.setPhase]
    have hnew : ∀ m ∈ s.commits, m.call ≠ c := by
      intro m hm heq
      have hreturned := (hi.commits m hm).1
      rw [heq, hphase] at hreturned
      cases hreturned
    refine ⟨?_, ?_, ?_, ?_⟩
    · rw [hreceipts, List.map_append, List.nodup_append]
      refine ⟨hi.keys, by simp, ?_⟩
      intro k hk k' hk' heq
      rw [List.map_singleton, List.mem_singleton] at hk'
      exact hkey (hk' ▸ heq ▸ hk)
    · intro c'
      have hsub : s.receipts ⊆ ({ s.setPhase c (.returned false receipt) with
          commits := s.commits ++ [⟨c, receipt, effects⟩] } : InboxState C Eff).receipts := by
        rw [hreceipts]
        exact List.subset_append_left _ _
      show PhaseOk envelopes _ c' ((s.setPhase c (.returned false receipt)).phase c')
      rw [setPhase_phase]
      split_ifs
      · trivial
      · exact (hi.phases c').mono hsub
    · intro m hm
      show (s.setPhase c (.returned false receipt)).phase m.call = _ ∧ _
      rw [setPhase_phase]
      rcases List.mem_append.mp hm with hm | hm
      · rw [if_neg (hnew m hm)]
        exact hi.commits m hm
      · rw [List.mem_singleton.mp hm, if_pos rfl]
        have hok := hi.phases c
        rw [hphase] at hok
        exact ⟨rfl, hok⟩
    · rw [List.map_append, List.nodup_append]
      refine ⟨hi.calls, by simp, ?_⟩
      intro c₁ hc₁ c₂ hc₂ heq
      obtain ⟨m, hm, rfl⟩ := List.mem_map.mp hc₁
      rw [List.map_singleton, List.mem_singleton] at hc₂
      exact hnew m hm (heq.trans hc₂)

end Invariant

section ExactlyOnce

variable {C Eff N : Type} {s s₀ t : InboxState C Eff}

/-- At most one call of a key commits, and commits once; a duplicate is answered from a committed
receipt of the same digest and pins; a call that throws has committed nothing. -/
structure ExactlyOnce (envelopes : C → ExternalEventEnvelope N) (s : InboxState C Eff) : Prop where
  once : ∀ m ∈ s.commits, ∀ m' ∈ s.commits,
    keyOf (envelopes m.call) = keyOf (envelopes m'.call) → m.call = m'.call
  calls : (s.commits.map (·.call)).Nodup
  duplicate : ∀ c receipt, s.phase c = .returned true receipt →
    receipt ∈ s.receipts ∧ receipt = receiptData (envelopes c)
  thrown : ∀ c error, s.phase c = .threw error → ∀ m ∈ s.commits, m.call ≠ c

lemma exactlyOnce_of_invariant {envelopes : C → ExternalEventEnvelope N}
    (hi : InboxInvariant envelopes s) : ExactlyOnce envelopes s where
  once := by
    intro m hm m' hm' hkey
    have hkeys : (s.commits.map (fun m => m.receipt.key)).Nodup := by
      have hnodup := hi.keys
      rw [InboxState.receipts, List.map_append, List.map_map] at hnodup
      exact hnodup.of_append_right
    have heq : m.receipt.key = m'.receipt.key := by
      rw [(hi.commits m hm).2, (hi.commits m' hm').2, receiptData_key, receiptData_key, hkey]
    rw [List.inj_on_of_nodup_map hkeys hm hm' heq]
  calls := hi.calls
  duplicate := by
    intro c receipt hphase
    have hok := hi.phases c
    rw [hphase] at hok
    exact hok
  thrown := by
    intro c error hphase m hm heq
    have hreturned := (hi.commits m hm).1
    rw [heq, hphase] at hreturned
    cases hreturned

variable [DecidableEq C] [JsonText.JsonNumber N] (sha256Hex : JsString → JsString)
  (envelopes : C → ExternalEventEnvelope N)

/-- A callback that throws commits nothing, an error of its own is passed on, and as long as the
key has no receipt a further call can be processed, by its own steps alone. -/
structure Processable (s : InboxState C Eff) : Prop where
  throwing : ∀ c error t, step sha256Hex envelopes s (.process c (.error error)) = some t →
    t.receipts = s.receipts ∧ t.commits = s.commits ∧
      (error ≠ .receiptUniqueConflict → t.phase c = .threw error)
  fresh : ∀ c (effects : Eff), s.phase c = .notCalled →
    (envelopes c).digestMatches sha256Hex = true →
    keyOf (envelopes c) ∉ s.receipts.map (·.key) →
    ∃ t, run (step sha256Hex envelopes) s
        [.call c, .find c (.ok none), .create c (.ok ()), .process c (.ok effects),
          .commit c (.ok ())] = some t ∧
      t.phase c = .returned false (receiptData (envelopes c)) ∧
      t.commits = s.commits ++ [⟨c, receiptData (envelopes c), effects⟩]

variable {sha256Hex envelopes}

lemma processable (s : InboxState C Eff) : Processable sha256Hex envelopes s where
  throwing := by
    intro c error t h
    simp only [step] at h
    split at h
    · obtain rfl := Option.some.inj h
      refine ⟨rfl, rfl, fun hother => ?_⟩
      rw [setPhase_phase, if_pos rfl, rolledBack, if_neg hother]
    · cases h
  fresh := by
    intro c effects hphase hdigest hkey
    set receipt := receiptData (envelopes c) with hreceipt
    have hkey' : receipt.key ∉ s.receipts.map (·.key) := by rwa [hreceipt, receiptData_key]
    set s₁ := s.setPhase c (.opened s.receipts)
    set s₂ := s₁.setPhase c .missed
    set s₃ := s₂.setPhase c (.created receipt)
    set s₄ := s₃.setPhase c (.processed receipt effects)
    have hcall : step sha256Hex envelopes s (.call c) = some s₁ := by simp [step, hphase, hdigest, s₁]
    have hfind : step sha256Hex envelopes s₁ (.find c (.ok none)) = some s₂ := by
      simp [step, s₁, s₂, setPhase_phase, hkey]
    have hcreate : step sha256Hex envelopes s₂ (.create c (.ok ())) = some s₃ := by
      simp [step, s₂, s₃, setPhase_phase, hreceipt]
    have hprocess : step sha256Hex envelopes s₃ (.process c (.ok effects)) = some s₄ := by
      simp [step, s₃, s₄, setPhase_phase]
    have hcommit : step sha256Hex envelopes s₄ (.commit c (.ok ())) =
        some { s₄.setPhase c (.returned false receipt) with
          commits := s₄.commits ++ [⟨c, receipt, effects⟩] } := by
      have hphase₄ : s₄.phase c = .processed receipt effects := by simp [s₄, setPhase_phase]
      have hfree : receipt.key ∉ s₄.receipts.map (·.key) := hkey'
      simp only [step, hphase₄, hfree, not_false_eq_true, if_true]
    refine ⟨_, run_cons.mpr ⟨s₁, hcall, run_cons.mpr ⟨s₂, hfind, run_cons.mpr ⟨s₃, hcreate,
      run_cons.mpr ⟨s₄, hprocess, run_cons.mpr ⟨_, hcommit, rfl⟩⟩⟩⟩⟩, ?_, rfl⟩
    exact (setPhase_phase _ c c _).trans (if_pos rfl)

/-- Whatever calls interleave, and whatever their callbacks and the database do. -/
theorem withIntegrationEventReceipt_exactlyOnce (h₀ : Initial s₀) {actions : List (Action C Eff)}
    (hrun : run (step sha256Hex envelopes) s₀ actions = some s) :
    ExactlyOnce envelopes s ∧ Processable sha256Hex envelopes s := by
  have hi : InboxInvariant envelopes s :=
    run_invariant (fun _ _ _ hi h => invariant_step hi h) (InboxInvariant.initial h₀) hrun
  exact ⟨exactlyOnce_of_invariant hi, processable s⟩

section Example

def approvedEvent : ExternalEventEnvelope ℤ :=
  { eventId := js "event-1", eventType := js "document.approved"
    capabilityId := js "approve.document.approved", capabilityVersion := js "1.0.0"
    capabilityDigest := js "sha256:capability", bindingId := js "approve-to-wiki"
    bindingVersion := js "1.0.0", envelopeVersion := js "2", sourceApp := js "approve"
    occurredAt := js "2026-08-07T00:00:00.000Z", aggregateType := js "WikiPage"
    aggregateId := js "doc-1", correlationId := none, actorUserId := none
    payload := ⟨.null, rfl⟩, payloadDigest := js "sha256:null" }

def emptyInbox : InboxState Bool Unit := { prior := [], commits := [], phase := fun _ => .notCalled }

lemma initial_emptyInbox : Initial emptyInbox := ⟨List.nodup_nil, rfl, fun _ => rfl⟩

/-- Both calls miss, one creates the receipt, the other meets the conflict and looks it up. -/
def raced : List (Action Bool Unit) :=
  [.call true, .call false, .find true (.ok none), .find false (.ok none), .create true (.ok ()),
    .create false (.error (.other (some (js "P2002")))), .process true (.ok ()),
    .commit true (.ok ()), .resolve false (.ok (some (receiptData approvedEvent)))]

end Example

theorem withIntegrationEventReceipt_exactlyOnce_raced : ∃ s : InboxState Bool Unit,
    run (step id (fun _ => approvedEvent)) emptyInbox raced = some s ∧
      s.phase false = .returned true (receiptData approvedEvent) ∧
      ExactlyOnce (fun _ => approvedEvent) s ∧ Processable id (fun _ => approvedEvent) s := by
  have hsome : ∃ s, run (step id (fun _ => approvedEvent)) emptyInbox raced = some s ∧
      s.phase false = .returned true (receiptData approvedEvent) := ⟨_, rfl, rfl⟩
  obtain ⟨s, hrun, hphase⟩ := hsome
  exact ⟨s, hrun, hphase, withIntegrationEventReceipt_exactlyOnce initial_emptyInbox hrun⟩

end ExactlyOnce

end Appspine.Receipt
