import Appspine.JsText
import Appspine.StableSort

/-!
# The delivery table

Rows of `domain_event_deliveries` with the joined columns of their event, and the
statements that the dispatcher and the admin service run over them. Instants and
delays are milliseconds.
-/
namespace Appspine.Delivery
open JsText StableSort

inductive DomainEventDeliveryStatus
  | PENDING
  | PROCESSING
  | PROCESSED
  | DEAD_LETTER
  | IGNORED
  deriving DecidableEq, Repr

/-- The columns of `domain_events` that the dispatcher reads. -/
structure DomainEventRecord where
  id : JsString
  seq : ℕ
  integrationBindingId : Option JsString
  deriving DecidableEq

structure DomainEventDelivery where
  id : JsString
  event : DomainEventRecord
  handlerKey : JsString
  status : DomainEventDeliveryStatus
  attempts : ℕ
  nextAttemptAt : Option ℤ
  lockedAt : Option ℤ
  lockedBy : Option JsString
  lastError : Option JsString
  processedAt : Option ℤ
  deriving DecidableEq

abbrev DeliveryTable := List DomainEventDelivery

/-- A partial update: a column that is absent keeps its value. -/
structure DeliveryCompletionData where
  status : Option DomainEventDeliveryStatus := none
  attempts : Option ℕ := none
  nextAttemptAt : Option (Option ℤ) := none
  lockedAt : Option (Option ℤ) := none
  lockedBy : Option (Option JsString) := none
  lastError : Option (Option JsString) := none
  processedAt : Option (Option ℤ) := none
  deriving DecidableEq

structure DomainEventDispatcherOptions where
  batchSize : ℕ
  maxAttempts : ℤ
  staleLockMs : ℤ
  baseBackoffMs : ℤ
  maxBackoffMs : ℤ

def DEFAULT_DISPATCHER_OPTIONS : DomainEventDispatcherOptions where
  batchSize := 20
  maxAttempts := 8
  staleLockMs := 300000
  baseBackoffMs := 30000
  maxBackoffMs := 3600000

def STALE_LOCK_RECLAIMED_ERROR : JsString := js "Reclaimed after stale lock timeout"

def STALE_LOCK_RECLAIMED_TERMINAL_ERROR : JsString :=
  js "Reclaimed after stale lock timeout: max attempts exceeded"

def DomainEventDelivery.apply (row : DomainEventDelivery) (data : DeliveryCompletionData) :
    DomainEventDelivery :=
  { row with
    status := data.status.getD row.status
    attempts := data.attempts.getD row.attempts
    nextAttemptAt := data.nextAttemptAt.getD row.nextAttemptAt
    lockedAt := data.lockedAt.getD row.lockedAt
    lockedBy := data.lockedBy.getD row.lockedBy
    lastError := data.lastError.getD row.lastError
    processedAt := data.processedAt.getD row.processedAt }

/-- `UPDATE … WHERE`, one atomic statement. -/
def updateMany (table : DeliveryTable) (selects : DomainEventDelivery → Bool)
    (change : DomainEventDelivery → DomainEventDelivery) : DeliveryTable :=
  table.map (fun row => if selects row then change row else row)

/-- A row as `record` inserts it, with the defaults of the schema. -/
def recordedDelivery (event : DomainEventRecord) (id handlerKey : JsString) :
    DomainEventDelivery where
  id := id
  event := event
  handlerKey := handlerKey
  status := .PENDING
  attempts := 0
  nextAttemptAt := none
  lockedAt := none
  lockedBy := none
  lastError := none
  processedAt := none

section Reclaim

/-- The two statements of `reclaimStaleLocks`. -/
inductive Reclaim
  | terminal
  | retry
  deriving DecidableEq

/-- `lockedAt: { lt: staleBefore }`, which no null matches. -/
def lockedBefore (staleBefore : ℤ) (row : DomainEventDelivery) : Bool :=
  row.lockedAt.any (· < staleBefore)

def reclaims (options : DomainEventDispatcherOptions) (staleBefore : ℤ) (row : DomainEventDelivery) :
    Reclaim → Bool
  | .terminal => decide (row.status = .PROCESSING) && lockedBefore staleBefore row &&
      decide (options.maxAttempts - 1 ≤ row.attempts)
  | .retry => decide (row.status = .PROCESSING) && lockedBefore staleBefore row &&
      decide ((row.attempts : ℤ) < options.maxAttempts - 1)

def reclaimed (row : DomainEventDelivery) : Reclaim → DomainEventDelivery
  | .terminal => row.apply {
      status := some .DEAD_LETTER
      attempts := some (row.attempts + 1)
      lockedAt := some none
      lockedBy := some none
      lastError := some (some STALE_LOCK_RECLAIMED_TERMINAL_ERROR) }
  | .retry => row.apply {
      status := some .PENDING
      attempts := some (row.attempts + 1)
      lockedAt := some none
      lockedBy := some none
      lastError := some (some STALE_LOCK_RECLAIMED_ERROR) }

def runReclaim (options : DomainEventDispatcherOptions) (staleBefore : ℤ) (statement : Reclaim)
    (table : DeliveryTable) : DeliveryTable :=
  updateMany table (fun row => reclaims options staleBefore row statement)
    (fun row => reclaimed row statement)

end Reclaim

section Claim

def isDue (now : ℤ) (row : DomainEventDelivery) : Bool :=
  decide (row.status = .PENDING) && row.nextAttemptAt.all (· ≤ now)

/-- Ids of the due rows with the lowest `seq`, rows locked by other transactions skipped. -/
def dueIds (options : DomainEventDispatcherOptions) (now : ℤ) (locked : List JsString)
    (table : DeliveryTable) : List JsString :=
  ((sortBy (fun row => row.event.seq)
    (table.filter (fun row => isDue now row && !locked.contains row.id))).take
      options.batchSize).map (fun row => row.id)

def claimed (now : ℤ) (leaseId : JsString) (row : DomainEventDelivery) : DomainEventDelivery :=
  row.apply { status := some .PROCESSING, lockedAt := some (some now), lockedBy := some (some leaseId) }

/-- The claiming transaction: the table after it, and the claimed rows by `seq`. -/
def claimDueDeliveries (options : DomainEventDispatcherOptions) (now : ℤ) (leaseId : JsString)
    (locked : List JsString) (table : DeliveryTable) : DeliveryTable × List DomainEventDelivery :=
  let ids := dueIds options now locked table
  let after := updateMany table (fun row => ids.contains row.id) (claimed now leaseId)
  (after, sortBy (fun row => row.event.seq) (after.filter (fun row => ids.contains row.id)))

end Claim

section Process

/-- What `bindingEnabled` answers: its verdict, or the text of the error it throws. -/
inductive BindingCheck
  | enabled
  | disabled
  | failed (message : JsString)
  deriving DecidableEq

/-- An error without a class of its own: its text, and the delay a retryable error asks for. -/
structure Failure where
  message : JsString
  retryAfterMs : Option ℤ
  deriving DecidableEq

/-- How `handler.handle` ends. -/
inductive HandlerOutcome
  | handled
  | ignored (message : JsString)
  | terminal (message : JsString)
  | failed (error : Failure)
  deriving DecidableEq

def boundedError (value : JsString) : JsString :=
  if 1000 < value.length then value.take 1000 ++ js "…" else value

def retryDelayMs (options : DomainEventDispatcherOptions) (attempts : ℕ) (error : Failure) : ℤ :=
  match error.retryAfterMs with
  | some retryAfterMs => min (max retryAfterMs 0) options.maxBackoffMs
  | none => min (options.baseBackoffMs * 2 ^ attempts) options.maxBackoffMs

def missingHandler (now : ℤ) (delivery : DomainEventDelivery) : DeliveryCompletionData where
  status := some .IGNORED
  processedAt := some (some now)
  lastError := some (some (js "No handler registered for " ++ delivery.handlerKey))
  lockedAt := some none
  lockedBy := some none

def bindingDisabled (delivery : DomainEventDelivery) (bindingId : JsString) :
    DeliveryCompletionData where
  status := some .PENDING
  attempts := some delivery.attempts
  nextAttemptAt := some none
  lockedAt := some none
  lockedBy := some none
  lastError := some (some (js "Integration binding disabled: " ++ bindingId))

def markFailed (options : DomainEventDispatcherOptions) (now : ℤ) (delivery : DomainEventDelivery)
    (error : Failure) : DeliveryCompletionData :=
  let nextAttempts := delivery.attempts + 1
  let terminal := decide (options.maxAttempts ≤ nextAttempts)
  { status := some (if terminal then .DEAD_LETTER else .PENDING)
    attempts := some nextAttempts
    nextAttemptAt := some
      (if terminal then none else some (now + retryDelayMs options delivery.attempts error))
    lastError := some (some (boundedError error.message))
    lockedAt := some none
    lockedBy := some none }

/-- The completion of a delivery whose handler was called. -/
def settle (options : DomainEventDispatcherOptions) (now : ℤ) (delivery : DomainEventDelivery) :
    HandlerOutcome → DeliveryCompletionData
  | .handled => {
      status := some .PROCESSED
      processedAt := some (some now)
      lockedAt := some none
      lockedBy := some none
      lastError := some none }
  | .ignored message => {
      status := some .IGNORED
      processedAt := some (some now)
      lastError := some (some message)
      lockedAt := some none
      lockedBy := some none }
  | .terminal message => {
      status := some .DEAD_LETTER
      processedAt := some (some now)
      lastError := some (some (boundedError message))
      lockedAt := some none
      lockedBy := some none }
  | .failed error => markFailed options now delivery error

/-- The binding that gates the deliveries of an event; an empty id is falsy and gates nothing. -/
def gatingBinding (event : DomainEventRecord) : Option JsString :=
  event.integrationBindingId.filter (fun bindingId => decide (bindingId ≠ []))

/-- Where `processDelivery` stands once the registry and the binding lookup have answered. -/
inductive Verdict
  | invoke
  | finish (data : DeliveryCompletionData) (caught : Bool)
  deriving DecidableEq

/-- `processDelivery` up to the call of the handler. Only a completion inside the `try`
block has its own failure caught. -/
def admission (options : DomainEventDispatcherOptions) (now : ℤ) (delivery : DomainEventDelivery)
    (registered : Bool) (binding : BindingCheck) : Verdict :=
  if registered then
    match gatingBinding delivery.event, binding with
    | none, _ => .invoke
    | some _, .enabled => .invoke
    | some bindingId, .disabled => .finish (bindingDisabled delivery bindingId) true
    | some _, .failed message => .finish (markFailed options now delivery ⟨message, none⟩) false
  else .finish (missingHandler now delivery) false

def missingLease : JsString := js "__missing_lease__"

/-- The update of a row this worker claimed, guarded on it still being under that lease. -/
def completeDelivery (delivery : DomainEventDelivery) (data : DeliveryCompletionData)
    (table : DeliveryTable) : DeliveryTable :=
  updateMany table
    (fun row => decide (row.id = delivery.id) && decide (row.status = .PROCESSING) &&
      decide (row.lockedBy = some (delivery.lockedBy.getD missingLease)))
    (fun row => row.apply data)

end Process

section Admin

inductive AdminAction
  | RETRY_DELIVERY
  | IGNORE_DELIVERY
  deriving DecidableEq

def adminData (now : ℤ) : AdminAction → DeliveryCompletionData
  | .RETRY_DELIVERY => {
      status := some .PENDING
      nextAttemptAt := some (some now)
      lockedAt := some none
      lockedBy := some none
      processedAt := some none }
  | .IGNORE_DELIVERY => {
      status := some .IGNORED
      lockedAt := some none
      lockedBy := some none
      processedAt := some (some now) }

inductive AdminError
  | NotFoundException (message : JsString)
  | ConflictException (message : JsString)
  deriving DecidableEq

def isDeadLetter (id : JsString) (row : DomainEventDelivery) : Bool :=
  decide (row.id = id) && decide (row.status = .DEAD_LETTER)

def updateDeadLetterDelivery (now : ℤ) (action : AdminAction) (id : JsString)
    (table : DeliveryTable) : Except AdminError DeliveryTable :=
  if table.all (fun row => row.id ≠ id) then
    .error (.NotFoundException (js "Domain event delivery not found"))
  else if table.any (isDeadLetter id) then
    .ok (updateMany table (isDeadLetter id) (fun row => row.apply (adminData now action)))
  else
    .error (.ConflictException (js "Only dead-lettered deliveries can be retried or ignored."))

end Admin

end Appspine.Delivery
