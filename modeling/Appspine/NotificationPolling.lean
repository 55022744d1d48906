import Appspine.Transitions

/-!
# Polling for unread notifications

`createNotificationPollingController`: its five variables, updated by its methods, by ticks of its
timer and by the settlements of the requests it issued, in any order. What a request reports and
what its promise does afterwards are two steps, since callbacks may call the controller again.
-/
namespace Appspine.NotificationPolling
open Transitions

section Controller

structure NotificationPollingOptions where
  intervalMs : Option ℚ := none
  enabled : Option Bool := none

def defaultIntervalMs : ℚ := 30000

def intervalMs (options : NotificationPollingOptions) : ℚ :=
  max 1000 (options.intervalMs.getD defaultIntervalMs)

/-- What `loadUnreadCount` comes to: a number, absent where it is not finite, or a failure. -/
inductive Outcome where
  | count (next : Option ℚ)
  | countObject (next : Option ℚ)
  | error (code : ℕ)
  deriving DecidableEq

/-- A call of `onCount` or of `onError`. -/
inductive Report where
  | count (next : ℚ)
  | error (code : ℕ)
  deriving DecidableEq

def reportOf : Outcome → Report
  | .count next => .count (max 0 (next.getD 0))
  | .countObject next => .count (max 0 (next.getD 0))
  | .error code => .error code

/-- What happened, in order. -/
inductive Event where
  /-- A start of a stopped controller, and whether it is enabled and visible. -/
  | started (due : Bool)
  | stopped
  | issued (request : ℕ)
  /-- The request settled, with what was reported of it. -/
  | settled (request : ℕ) (report : Option Report)
  /-- The `finally` of the request ran. -/
  | finished (request : ℕ)
  deriving DecidableEq

/-- The variables of the controller, and the requests and the history around them. A promise is
known by the sequence number of its request. -/
structure PollingState where
  timer : Option ℚ := none
  inFlight : Option ℕ := none
  visible : Bool := true
  active : Bool := false
  requestSequence : ℕ := 0
  /-- Issued and not settled. -/
  loading : List ℕ := []
  /-- Settled, but the `finally` has not run. -/
  finishing : List ℕ := []
  history : List Event := []
  deriving DecidableEq

variable (options : NotificationPollingOptions) (s : PollingState)

def issueRequest : PollingState :=
  let sequence := s.requestSequence + 1
  { s with
    requestSequence := sequence
    inFlight := some sequence
    loading := s.loading ++ [sequence]
    history := s.history ++ [.issued sequence] }

def refresh : PollingState :=
  if s.active = false ∨ s.visible = false then s
  else if s.inFlight.isSome then s
  else issueRequest s

def forceRefresh : PollingState := if s.active = false then s else issueRequest s

def start : PollingState :=
  if s.active = true then s
  else
    let started := { s with
      active := true
      history := s.history ++ [.started (decide (options.enabled ≠ some false) && s.visible)] }
    if options.enabled = some false then started
    else { refresh started with timer := some (intervalMs options) }

def stop : PollingState :=
  { s with
    active := false
    requestSequence := s.requestSequence + 1
    timer := none
    history := s.history ++ [.stopped] }

def setVisible (nextVisible : Bool) : PollingState :=
  let shown := { s with visible := nextVisible }
  if nextVisible = true ∧ s.active = true ∧ options.enabled ≠ some false then refresh shown
  else shown

/-- The callbacks of a settled request. -/
def settle (request : ℕ) (outcome : Outcome) : PollingState :=
  { s with
    loading := s.loading.erase request
    finishing := s.finishing ++ [request]
    history := s.history ++ [.settled request
      (if request = s.requestSequence then some (reportOf outcome) else none)] }

/-- The `finally` of a request. -/
def finish (request : ℕ) : PollingState :=
  { s with
    finishing := s.finishing.erase request
    inFlight := if s.inFlight = some request then none else s.inFlight
    history := s.history ++ [.finished request] }

inductive Action where
  | start
  | stop
  | setVisible (nextVisible : Bool)
  | refresh
  | forceRefresh
  | tick
  | settle (request : ℕ) (outcome : Outcome)
  | finish (request : ℕ)
  deriving DecidableEq

def step (options : NotificationPollingOptions) (s : PollingState) : Action → Option PollingState
  | .start => some (start options s)
  | .stop => some (stop s)
  | .setVisible nextVisible => some (setVisible options s nextVisible)
  | .refresh => some (refresh s)
  | .forceRefresh => some (forceRefresh s)
  | .tick => if s.timer.isSome then some (refresh s) else none
  | .settle request outcome => if request ∈ s.loading then some (settle s request outcome) else none
  | .finish request => if request ∈ s.finishing then some (finish s request) else none

end Controller

section Histories

/-- The requests in the order in which they were issued. -/
def requests (history : List Event) : List ℕ :=
  history.filterMap fun
    | .issued request => some request
    | _ => none

/-- The requests that were reported, in order. -/
def reports (history : List Event) : List ℕ :=
  history.filterMap fun
    | .settled request (some _) => some request
    | _ => none

/-- The last start or stop was a start. -/
def running (history : List Event) : Bool :=
  history.foldl (fun on event => match event with
    | .started _ => true
    | .stopped => false
    | _ => on) false

/-- The requests that were issued after the last stop. -/
def sinceStop (history : List Event) : List ℕ :=
  history.foldl (fun issued event => match event with
    | .issued request => issued ++ [request]
    | .stopped => []
    | _ => issued) []

/-- The request that was issued last, when no stop came after it. -/
def latest (history : List Event) : Option ℕ := (sinceStop history).getLast?

/-- What a history of the controller is to meet. -/
structure Sound (history : List Event) : Prop where
  /-- The requests are numbered in the order in which they are issued. -/
  numbered : (requests history).Pairwise (· < ·)
  increasing : (reports history).Pairwise (· < ·)
  whileRunning : ∀ before request report after,
    history = before ++ .settled request (some report) :: after → running before = true
  afterStop : ∀ before request report after,
    history = before ++ .settled request (some report) :: after → request ∈ sinceStop before
  reportedOnce : ∀ before request report after,
    history = before ++ .settled request report :: after → latest before = some request →
      (reports history).count request = 1
  ownRequest : ∀ before after, history = before ++ .started true :: after →
    ∃ request rest, after = .issued request :: rest

/-- A start that is due to load finds the request that was issued last at its end. -/
def Ready (options : NotificationPollingOptions) (s : PollingState) (a : Action) : Prop :=
  a = .start → s.active = false → options.enabled ≠ some false → s.visible = true →
    ∀ request, (requests s.history).getLast? = some request → .finished request ∈ s.history

end Histories

section Folds

variable (history : List Event) (event : Event)

lemma requests_append (events : List Event) :
    requests (history ++ events) = requests history ++ requests events :=
  List.filterMap_append

lemma reports_append (events : List Event) :
    reports (history ++ events) = reports history ++ reports events :=
  List.filterMap_append

@[simp] lemma running_append : running (history ++ [event]) = match event with
    | .started _ => true
    | .stopped => false
    | _ => running history := by
  simp only [running, List.foldl_append, List.foldl_cons, List.foldl_nil]

@[simp] lemma sinceStop_append : sinceStop (history ++ [event]) = match event with
    | .issued request => sinceStop history ++ [request]
    | .stopped => []
    | _ => sinceStop history := by
  simp only [sinceStop, List.foldl_append, List.foldl_cons, List.foldl_nil]

/-- What holds at each event of a history, the new one included. -/
lemma forall_split_append {P : List Event → Event → Prop} {history : List Event} {event : Event} :
    (∀ before e after, history ++ [event] = before ++ e :: after → P before e) ↔
      (∀ before e after, history = before ++ e :: after → P before e) ∧ P history event := by
  constructor
  · intro h
    refine ⟨fun before e after hsplit => ?_, h history event [] rfl⟩
    exact h before e (after ++ [event]) (by simp [hsplit])
  · rintro ⟨hold, hnew⟩ before e after hsplit
    rcases List.eq_nil_or_concat after with rfl | ⟨rest, last, rfl⟩
    · obtain ⟨rfl, hevent⟩ := List.append_inj' hsplit rfl
      obtain rfl := (List.cons.inj hevent).1
      exact hnew
    · rw [List.concat_eq_append, ← List.cons_append, ← List.append_assoc] at hsplit
      exact hold before e rest (List.append_inj' hsplit rfl).1

end Folds

section Invariant

/-- How the variables follow from the history, and what holds of the history in any case. -/
structure Invariant (s : PollingState) : Prop where
  active : s.active = running s.history
  numbered : (requests s.history).Pairwise (· < ·)
  bound : ∀ r ∈ requests s.history, r ≤ s.requestSequence
  current : ∀ r ∈ requests s.history, r = s.requestSequence → r ∈ sinceStop s.history
  latest : ∀ r, latest s.history = some r → r = s.requestSequence
  idle : s.active = false → sinceStop s.history = []
  inFlight : ∀ r, s.inFlight = some r ↔
    (requests s.history).getLast? = some r ∧ .finished r ∉ s.history
  loading : ∀ r ∈ s.loading, r ∈ requests s.history
  loadingOnce : s.loading.Nodup
  finishing : ∀ r ∈ s.finishing, r ∈ requests s.history
  finished : ∀ r, .finished r ∈ s.history → r ∈ requests s.history
  settled : ∀ r report, .settled r report ∈ s.history → r ∈ requests s.history ∧ r ∉ s.loading
  increasing : (reports s.history).Pairwise (· < ·)
  whileRunning : ∀ before e after, s.history = before ++ e :: after →
    ∀ request report, e = .settled request (some report) → running before = true
  afterStop : ∀ before e after, s.history = before ++ e :: after →
    ∀ request report, e = .settled request (some report) → request ∈ sinceStop before
  reported : ∀ before e after, s.history = before ++ e :: after →
    ∀ request report, e = .settled request report →
      NotificationPolling.latest before = some request → request ∈ reports s.history

/-- Each due start is followed by the issue of a request. -/
def OwnRequest (history : List Event) : Prop :=
  ∀ before after, history = before ++ .started true :: after →
    ∃ request rest, after = .issued request :: rest

lemma mem_reports {history : List Event} {r : ℕ} :
    r ∈ reports history ↔ ∃ report, .settled r (some report) ∈ history := by
  unfold reports
  rw [List.mem_filterMap]
  constructor
  · rintro ⟨event, hevent, hr⟩
    split at hr
    · rename_i request report
      obtain rfl := Option.some.inj hr
      exact ⟨report, hevent⟩
    · cases hr
  · rintro ⟨report, hevent⟩
    exact ⟨_, hevent, rfl⟩

lemma Invariant.sound {s : PollingState} (h : Invariant s) (hown : OwnRequest s.history) :
    Sound s.history where
  numbered := h.numbered
  increasing := h.increasing
  whileRunning before request report after hsplit :=
    h.whileRunning before _ after hsplit request report rfl
  afterStop before request report after hsplit :=
    h.afterStop before _ after hsplit request report rfl
  reportedOnce before request report after hsplit hlatest := by
    have hmem := h.reported before _ after hsplit request report rfl hlatest
    exact List.count_eq_one_of_mem (h.increasing.imp fun hlt => Nat.ne_of_lt hlt) hmem
  ownRequest := hown

lemma invariant_init : Invariant {} := by
  constructor <;> simp [running, requests, reports, sinceStop, NotificationPolling.latest]

variable {s : PollingState}

/-- The timer and the visibility are read by no invariant. -/
lemma Invariant.timer (h : Invariant s) (timer : Option ℚ) :
    Invariant { s with timer := timer } :=
  ⟨h.1, h.2, h.3, h.4, h.5, h.6, h.7, h.8, h.9, h.10, h.11, h.12, h.13, h.14, h.15, h.16⟩

lemma Invariant.visible (h : Invariant s) (visible : Bool) :
    Invariant { s with visible := visible } :=
  ⟨h.1, h.2, h.3, h.4, h.5, h.6, h.7, h.8, h.9, h.10, h.11, h.12, h.13, h.14, h.15, h.16⟩

/-- What is said of each event stays true when the new event is no settlement. -/
lemma Invariant.splits (h : Invariant s) {event : Event}
    (hevent : ∀ request report, event ≠ .settled request report) :
    (∀ before e after, s.history ++ [event] = before ++ e :: after →
      ∀ request report, e = .settled request (some report) → running before = true) ∧
    (∀ before e after, s.history ++ [event] = before ++ e :: after →
      ∀ request report, e = .settled request (some report) → request ∈ sinceStop before) ∧
    ∀ before e after, s.history ++ [event] = before ++ e :: after →
      ∀ request report, e = .settled request report →
        NotificationPolling.latest before = some request →
        request ∈ reports (s.history ++ [event]) := by
  refine ⟨forall_split_append.mpr ⟨h.whileRunning, ?_⟩, forall_split_append.mpr ⟨h.afterStop, ?_⟩,
    forall_split_append.mpr ⟨?_, ?_⟩⟩
  · exact fun request report heq => absurd heq (hevent request _)
  · exact fun request report heq => absurd heq (hevent request _)
  · intro before e after hsplit request report heq hlatest
    rw [reports_append]
    exact List.mem_append_left _ (h.reported before e after hsplit request report heq hlatest)
  · exact fun request report heq => absurd heq (hevent request report)

lemma Invariant.issueRequest (h : Invariant s) (hactive : s.active = true) :
    Invariant (issueRequest s) := by
  have hsplits := @Invariant.splits s h (.issued (s.requestSequence + 1)) (by simp)
  have hnew : ∀ r ∈ requests s.history, r ≠ s.requestSequence + 1 := by
    intro r hr
    have := h.bound r hr
    omega
  have hrequests : requests (s.history ++ [.issued (s.requestSequence + 1)]) =
      requests s.history ++ [s.requestSequence + 1] := requests_append _ _
  constructor
  case active => simpa [NotificationPolling.issueRequest] using h.active
  case numbered =>
    simp only [NotificationPolling.issueRequest, hrequests, List.pairwise_append,
      List.pairwise_singleton, List.mem_singleton]
    refine ⟨h.numbered, trivial, fun r hr r' hr' => ?_⟩
    have := h.bound r hr
    omega
  case bound =>
    simp only [NotificationPolling.issueRequest, hrequests, List.mem_append, List.mem_singleton]
    rintro r (hr | rfl)
    · have := h.bound r hr
      omega
    · exact le_rfl
  case current =>
    simp only [NotificationPolling.issueRequest, hrequests, sinceStop_append, List.mem_append,
      List.mem_singleton]
    exact fun r _ heq => .inr heq
  case latest =>
    intro r hr
    simp [NotificationPolling.latest, NotificationPolling.issueRequest] at hr
    exact hr.symm
  case idle => simp [NotificationPolling.issueRequest, hactive]
  case inFlight =>
    intro r
    simp only [NotificationPolling.issueRequest, hrequests, List.getLast?_concat,
      Option.some.injEq, List.mem_append, List.mem_singleton, reduceCtorEq, or_false]
    constructor
    · rintro rfl
      exact ⟨rfl, fun hmem => hnew _ (h.finished _ hmem) rfl⟩
    · exact fun hr => hr.1
  case loading =>
    simp only [NotificationPolling.issueRequest, hrequests, List.mem_append, List.mem_singleton]
    exact fun r hr => hr.imp_left (h.loading r)
  case loadingOnce =>
    refine h.loadingOnce.append (List.nodup_singleton _) fun r hr hr' => ?_
    exact hnew r (h.loading r hr) (List.mem_singleton.mp hr')
  case finishing =>
    simp only [NotificationPolling.issueRequest, hrequests, List.mem_append]
    exact fun r hr => .inl (h.finishing r hr)
  case finished =>
    simp only [NotificationPolling.issueRequest, hrequests, List.mem_append, List.mem_singleton,
      reduceCtorEq, or_false]
    exact fun r hr => .inl (h.finished r hr)
  case settled =>
    simp only [NotificationPolling.issueRequest, hrequests, List.mem_append, List.mem_singleton,
      reduceCtorEq, or_false, not_or]
    intro r report hr
    obtain ⟨hmem, hnot⟩ := h.settled r report hr
    exact ⟨.inl hmem, hnot, hnew r hmem⟩
  case increasing =>
    simpa [NotificationPolling.issueRequest, reports_append, reports] using h.increasing
  case whileRunning => exact hsplits.1
  case afterStop => exact hsplits.2.1
  case reported => exact hsplits.2.2

lemma Invariant.stop (h : Invariant s) : Invariant (stop s) := by
  have hsplits := @Invariant.splits s h .stopped (by simp)
  have hrequests : requests (s.history ++ [.stopped]) = requests s.history := by
    simp [requests]
  constructor
  case active => simp [NotificationPolling.stop]
  case numbered => simpa [NotificationPolling.stop, hrequests] using h.numbered
  case bound =>
    simp only [NotificationPolling.stop, hrequests]
    exact fun r hr => (h.bound r hr).trans (Nat.le_succ _)
  case current =>
    simp only [NotificationPolling.stop, hrequests]
    intro r hr heq
    have := h.bound r hr
    omega
  case latest => simp [NotificationPolling.stop, NotificationPolling.latest]
  case idle => simp [NotificationPolling.stop]
  case inFlight => simpa [NotificationPolling.stop, hrequests] using h.inFlight
  case loading => simpa [NotificationPolling.stop, hrequests] using h.loading
  case loadingOnce => exact h.loadingOnce
  case finishing => simpa [NotificationPolling.stop, hrequests] using h.finishing
  case finished => simpa [NotificationPolling.stop, hrequests] using h.finished
  case settled => simpa [NotificationPolling.stop, hrequests] using h.settled
  case increasing => simpa [NotificationPolling.stop, reports_append, reports] using h.increasing
  case whileRunning => exact hsplits.1
  case afterStop => exact hsplits.2.1
  case reported => exact hsplits.2.2

lemma Invariant.started (h : Invariant s) (due : Bool) :
    Invariant { s with active := true, history := s.history ++ [.started due] } := by
  have hsplits := @Invariant.splits s h (.started due) (by simp)
  have hrequests : requests (s.history ++ [.started due]) = requests s.history := by
    simp [requests]
  constructor
  case active => simp
  case numbered => simpa [hrequests] using h.numbered
  case bound => simpa [hrequests] using h.bound
  case current => simpa [hrequests] using h.current
  case latest => simpa [NotificationPolling.latest] using h.latest
  case idle => simp
  case inFlight => simpa [hrequests] using h.inFlight
  case loading => simpa [hrequests] using h.loading
  case loadingOnce => exact h.loadingOnce
  case finishing => simpa [hrequests] using h.finishing
  case finished => simpa [hrequests] using h.finished
  case settled => simpa [hrequests] using h.settled
  case increasing => simpa [reports_append, reports] using h.increasing
  case whileRunning => exact hsplits.1
  case afterStop => exact hsplits.2.1
  case reported => exact hsplits.2.2

lemma Invariant.finish (h : Invariant s) {request : ℕ} (hrequest : request ∈ s.finishing) :
    Invariant (finish s request) := by
  have hsplits := @Invariant.splits s h (.finished request) (by simp)
  have hrequests : requests (s.history ++ [.finished request]) = requests s.history := by
    simp [requests]
  constructor
  case active => simpa [NotificationPolling.finish] using h.active
  case numbered => simpa [NotificationPolling.finish, hrequests] using h.numbered
  case bound => simpa [NotificationPolling.finish, hrequests] using h.bound
  case current => simpa [NotificationPolling.finish, hrequests] using h.current
  case latest => simpa [NotificationPolling.finish, NotificationPolling.latest] using h.latest
  case idle => simpa [NotificationPolling.finish] using h.idle
  case inFlight =>
    intro r
    simp only [NotificationPolling.finish, hrequests, List.mem_append, List.mem_singleton,
      Event.finished.injEq, not_or]
    split_ifs with hsame
    · have hlast := (h.inFlight request).mp hsame
      constructor
      · exact fun hr => absurd hr (by simp)
      · rintro ⟨hr, -, hne⟩
        exact absurd (Option.some.inj (hr.symm.trans hlast.1)) hne
    · rw [h.inFlight r]
      constructor
      · rintro ⟨hr, hfinished⟩
        refine ⟨hr, hfinished, ?_⟩
        rintro rfl
        exact hsame ((h.inFlight r).mpr ⟨hr, hfinished⟩)
      · exact fun hr => ⟨hr.1, hr.2.1⟩
  case loading => simpa [NotificationPolling.finish, hrequests] using h.loading
  case loadingOnce => exact h.loadingOnce
  case finishing =>
    simp only [NotificationPolling.finish, hrequests]
    exact fun r hr => h.finishing r (List.mem_of_mem_erase hr)
  case finished =>
    simp only [NotificationPolling.finish, hrequests, List.mem_append, List.mem_singleton,
      Event.finished.injEq]
    rintro r (hr | rfl)
    · exact h.finished r hr
    · exact h.finishing r hrequest
  case settled => simpa [NotificationPolling.finish, hrequests] using h.settled
  case increasing => simpa [NotificationPolling.finish, reports_append, reports] using h.increasing
  case whileRunning => exact hsplits.1
  case afterStop => exact hsplits.2.1
  case reported => exact hsplits.2.2

/-- A request is reported when it is the latest one and no stop came after it. -/
lemma Invariant.settle_current (h : Invariant s) {request : ℕ} (hrequest : request ∈ s.loading)
    (hcurrent : request = s.requestSequence) :
    running s.history = true ∧ request ∈ sinceStop s.history ∧
      ∀ r ∈ reports s.history, r < request := by
  have hsince := h.current request (h.loading request hrequest) hcurrent
  refine ⟨?_, hsince, fun r hr => ?_⟩
  · rw [← h.active]
    by_contra hidle
    rw [Bool.not_eq_true] at hidle
    rw [h.idle hidle] at hsince
    cases hsince
  · obtain ⟨report, hreport⟩ := mem_reports.mp hr
    obtain ⟨hmem, hnot⟩ := h.settled r _ hreport
    have hle := h.bound r hmem
    have hne : r ≠ request := by
      rintro rfl
      exact hnot hrequest
    omega

lemma Invariant.settle (h : Invariant s) {request : ℕ} (hrequest : request ∈ s.loading)
    (outcome : Outcome) : Invariant (settle s request outcome) := by
  have hrequests : ∀ report, requests (s.history ++ [.settled request report]) =
      requests s.history := by
    intro report
    simp [requests]
  constructor
  case active => simpa [NotificationPolling.settle] using h.active
  case numbered => simpa [NotificationPolling.settle, hrequests] using h.numbered
  case bound => simpa [NotificationPolling.settle, hrequests] using h.bound
  case current => simpa [NotificationPolling.settle, hrequests] using h.current
  case latest => simpa [NotificationPolling.settle, NotificationPolling.latest] using h.latest
  case idle => simpa [NotificationPolling.settle] using h.idle
  case inFlight => simpa [NotificationPolling.settle, hrequests] using h.inFlight
  case loading =>
    simp only [NotificationPolling.settle, hrequests]
    exact fun r hr => h.loading r (List.mem_of_mem_erase hr)
  case loadingOnce => exact h.loadingOnce.erase request
  case finishing =>
    simp only [NotificationPolling.settle, hrequests, List.mem_append, List.mem_singleton]
    rintro r (hr | rfl)
    · exact h.finishing r hr
    · exact h.loading r hrequest
  case finished => simpa [NotificationPolling.settle, hrequests] using h.finished
  case settled =>
    simp only [NotificationPolling.settle, hrequests, List.mem_append, List.mem_singleton,
      Event.settled.injEq]
    rintro r report (hr | ⟨rfl, -⟩)
    · obtain ⟨hmem, hnot⟩ := h.settled r report hr
      exact ⟨hmem, fun herase => hnot (List.mem_of_mem_erase herase)⟩
    · exact ⟨h.loading r hrequest, h.loadingOnce.not_mem_erase⟩
  case increasing =>
    simp only [NotificationPolling.settle, reports_append]
    split_ifs with hcurrent
    · simp only [reports, List.filterMap_cons, List.filterMap_nil, List.pairwise_append,
        List.pairwise_singleton, List.mem_singleton]
      exact ⟨h.increasing, trivial, fun r hr _ hr' =>
        hr' ▸ (h.settle_current hrequest hcurrent).2.2 r hr⟩
    · simpa [reports] using h.increasing
  case whileRunning =>
    refine forall_split_append.mpr ⟨h.whileRunning, fun r report heq => ?_⟩
    split_ifs at heq with hcurrent
    · exact (h.settle_current hrequest hcurrent).1
    · simp at heq
  case afterStop =>
    refine forall_split_append.mpr ⟨h.afterStop, fun r report heq => ?_⟩
    split_ifs at heq with hcurrent
    · obtain ⟨rfl, -⟩ := Event.settled.inj heq
      exact (h.settle_current hrequest hcurrent).2.1
    · simp at heq
  case reported =>
    refine forall_split_append.mpr ⟨?_, fun r report heq hlatest => ?_⟩
    · intro before e after hsplit r report heq hlatest
      simp only [NotificationPolling.settle, reports_append]
      exact List.mem_append_left _ (h.reported before e after hsplit r report heq hlatest)
    · obtain ⟨rfl, -⟩ := Event.settled.inj heq
      simp only [NotificationPolling.settle, if_pos (h.latest request hlatest), reports_append]
      exact List.mem_append_right _ (by simp [reports])

lemma Invariant.refresh (h : Invariant s) : Invariant (refresh s) := by
  unfold NotificationPolling.refresh
  split_ifs with hidle hloading
  · exact h
  · exact h
  · push Not at hidle
    exact h.issueRequest (Bool.not_eq_false _ ▸ hidle.1)

variable {options : NotificationPollingOptions}

lemma Invariant.step (h : Invariant s) {a : Action} {t : PollingState}
    (hstep : step options s a = some t) : Invariant t := by
  cases a with
  | start =>
    obtain rfl := Option.some.inj hstep
    simp only [start]
    split_ifs
    · exact h
    · exact h.started _
    · exact (h.started _).refresh.timer _
  | stop =>
    obtain rfl := Option.some.inj hstep
    exact h.stop
  | setVisible nextVisible =>
    obtain rfl := Option.some.inj hstep
    simp only [setVisible]
    split_ifs
    · exact (h.visible nextVisible).refresh
    · exact h.visible nextVisible
  | refresh =>
    obtain rfl := Option.some.inj hstep
    exact h.refresh
  | forceRefresh =>
    obtain rfl := Option.some.inj hstep
    simp only [forceRefresh]
    split_ifs with hidle
    · exact h
    · exact h.issueRequest (Bool.not_eq_false _ ▸ hidle)
  | tick =>
    simp only [NotificationPolling.step] at hstep
    split_ifs at hstep
    obtain rfl := Option.some.inj hstep
    exact h.refresh
  | settle request outcome =>
    simp only [NotificationPolling.step] at hstep
    split_ifs at hstep with hrequest
    obtain rfl := Option.some.inj hstep
    exact h.settle hrequest outcome
  | finish request =>
    simp only [NotificationPolling.step] at hstep
    split_ifs at hstep with hrequest
    obtain rfl := Option.some.inj hstep
    exact h.finish hrequest

end Invariant

section OwnRequests

variable {options : NotificationPollingOptions} {s t : PollingState} {history : List Event}

lemma OwnRequest.append (h : OwnRequest history) {event : Event} (hevent : event ≠ .started true) :
    OwnRequest (history ++ [event]) := by
  intro before after hsplit
  rcases List.eq_nil_or_concat after with rfl | ⟨rest, last, rfl⟩
  · obtain ⟨-, hlast⟩ := List.append_inj' hsplit rfl
    exact absurd (List.cons.inj hlast).1 hevent
  · rw [List.concat_eq_append, ← List.cons_append, ← List.append_assoc] at hsplit
    obtain ⟨request, tail, rfl⟩ := h before rest (List.append_inj' hsplit rfl).1
    exact ⟨request, tail ++ [last], by simp⟩

/-- A due start that issues a request. -/
lemma OwnRequest.append_issued (h : OwnRequest history) (due : Bool) (request : ℕ) :
    OwnRequest (history ++ [.started due] ++ [.issued request]) := by
  intro before after hsplit
  rcases List.eq_nil_or_concat after with rfl | ⟨rest, last, rfl⟩
  · obtain ⟨-, hlast⟩ := List.append_inj' hsplit rfl
    cases (List.cons.inj hlast).1
  · rw [List.concat_eq_append, ← List.cons_append, ← List.append_assoc] at hsplit
    obtain ⟨hstarted, hissued⟩ := List.append_inj' hsplit rfl
    obtain rfl := (List.cons.inj hissued).1
    rcases List.eq_nil_or_concat rest with rfl | ⟨rest, first, rfl⟩
    · exact ⟨request, [], rfl⟩
    · rw [List.concat_eq_append, ← List.cons_append, ← List.append_assoc] at hstarted
      obtain ⟨hold, -⟩ := List.append_inj' hstarted rfl
      obtain ⟨other, tail, rfl⟩ := h before rest hold
      exact ⟨other, tail ++ [first] ++ [.issued request], by simp⟩

lemma OwnRequest.refresh (h : OwnRequest s.history) : OwnRequest (refresh s).history := by
  unfold NotificationPolling.refresh
  split_ifs
  · exact h
  · exact h
  · exact h.append (by simp)

/-- Only a start can be due and without a request of its own. -/
lemma OwnRequest.step (h : OwnRequest s.history) {a : Action} (ha : a ≠ .start)
    (hstep : step options s a = some t) : OwnRequest t.history := by
  cases a with
  | start => exact absurd rfl ha
  | stop =>
    obtain rfl := Option.some.inj hstep
    exact h.append (by simp)
  | setVisible nextVisible =>
    obtain rfl := Option.some.inj hstep
    simp only [setVisible]
    split_ifs
    · exact OwnRequest.refresh (s := { s with visible := nextVisible }) h
    · exact h
  | refresh =>
    obtain rfl := Option.some.inj hstep
    exact h.refresh
  | forceRefresh =>
    obtain rfl := Option.some.inj hstep
    simp only [forceRefresh]
    split_ifs
    · exact h
    · exact h.append (by simp)
  | tick =>
    simp only [NotificationPolling.step] at hstep
    split_ifs at hstep
    obtain rfl := Option.some.inj hstep
    exact h.refresh
  | settle request outcome =>
    simp only [NotificationPolling.step] at hstep
    split_ifs at hstep
    obtain rfl := Option.some.inj hstep
    exact h.append (by simp)
  | finish request =>
    simp only [NotificationPolling.step] at hstep
    split_ifs at hstep
    obtain rfl := Option.some.inj hstep
    exact h.append (by simp)

/-- A start of a stopped controller, by whether it is due and whether a promise is in flight. -/
lemma history_start (hidle : s.active = false) :
    (start options s).history =
      let due := decide (options.enabled ≠ some false) && s.visible
      if due = true ∧ s.inFlight = none then
        s.history ++ [.started due] ++ [.issued (s.requestSequence + 1)]
      else s.history ++ [.started due] := by
  unfold start
  rw [if_neg (by simp [hidle])]
  by_cases henabled : options.enabled = some false
  · simp [henabled]
  · cases s.visible with
    | false => simp [henabled, refresh]
    | true =>
      cases s.inFlight with
      | none => simp [henabled, refresh, issueRequest]
      | some request => simp [henabled, refresh]

/-- The promise in flight is that of the request issued last, up to its `finally`. -/
lemma Invariant.inFlight_eq_none (h : Invariant s) : s.inFlight = none ↔
    ∀ request, (requests s.history).getLast? = some request → .finished request ∈ s.history := by
  rw [Option.eq_none_iff_forall_not_mem]
  constructor
  · intro hnone request hlast
    by_contra hfinished
    exact hnone request ((h.inFlight request).mpr ⟨hlast, hfinished⟩)
  · intro hready request hrequest
    obtain ⟨hlast, hfinished⟩ := (h.inFlight request).mp hrequest
    exact hfinished (hready request hlast)

lemma OwnRequest.start (h : Invariant s) (hown : OwnRequest s.history)
    (hready : Ready options s .start) : OwnRequest (start options s).history := by
  by_cases hactive : s.active = true
  · simpa [NotificationPolling.start, hactive] using hown
  · rw [Bool.not_eq_true] at hactive
    rw [history_start hactive]
    dsimp only
    split_ifs with hissued
    · exact hown.append_issued _ _
    · refine hown.append ?_
      intro heq
      have hdue := Event.started.inj heq
      simp only [Bool.and_eq_true, decide_eq_true_eq] at hdue
      exact hissued ⟨by simpa using hdue,
        h.inFlight_eq_none.mpr (hready rfl hactive hdue.1 hdue.2)⟩

lemma Invariant.ready (h : Invariant s) {a : Action}
    (hstep : NotificationPolling.step options s a = some t) (hown : OwnRequest t.history) :
    Ready options s a := by
  rintro rfl hactive henabled hvisible
  obtain rfl := Option.some.inj hstep
  rw [← h.inFlight_eq_none]
  by_contra hflight
  rw [history_start hactive] at hown
  simp only [henabled, hvisible, hflight, ne_eq, not_false_eq_true, decide_true, Bool.and_true,
    and_false, if_false] at hown
  obtain ⟨request, rest, hnil⟩ := hown s.history [] rfl
  cases hnil

/-- In a run of the controller everything is as it is to be if and only if each start that is due
to load finds the request that was issued last at its end. -/
theorem polling_sound_iff (options : NotificationPollingOptions) (actions : List Action)
    (t : PollingState) (hrun : run (step options) {} actions = some t) :
    Throughout (step options) (fun s => Sound s.history) {} actions ↔
      Steps (step options) (Ready options) {} actions := by
  refine (steps_iff_throughout (Q := fun s => Invariant s ∧ OwnRequest s.history)
    ?_ ?_ ?_ ⟨invariant_init, ?_⟩ hrun).symm
  · rintro s a t ⟨hinv, hown⟩ hready hstep
    refine ⟨hinv.step hstep, ?_⟩
    by_cases ha : a = .start
    · subst ha
      obtain rfl := Option.some.inj hstep
      exact OwnRequest.start hinv hown hready
    · exact hown.step ha hstep
  · rintro s ⟨hinv, hown⟩
    exact hinv.sound hown
  · rintro s a t ⟨hinv, -⟩ hstep hsound
    exact hinv.ready hstep hsound.ownRequest
  · intro before after hsplit
    simp at hsplit

/-- Two runs of the controller, the second after the first request has come to its end. -/
theorem polling_sound_iff_restart :
    Throughout (step {}) (fun s => Sound s.history) {}
        [.start, .settle 1 (.count (some 3)), .finish 1, .stop, .start] ↔
      Steps (step {}) (Ready {}) {}
        [.start, .settle 1 (.count (some 3)), .finish 1, .stop, .start] :=
  polling_sound_iff {} _ _ (by rfl)

/-- A start while the request of the start before is still loading issues none. -/
theorem restart_issues_nothing :
    ∃ t, run (step {}) {} [.start, .stop, .start] = some t ∧ ¬ Sound t.history := by
  refine ⟨_, rfl, fun h => ?_⟩
  obtain ⟨request, rest, hnil⟩ := h.ownRequest [.started true, .issued 1, .stopped] [] (by rfl)
  cases hnil

end OwnRequests

end Appspine.NotificationPolling
