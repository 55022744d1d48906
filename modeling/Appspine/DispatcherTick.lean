import Appspine.DispatcherLease
import Appspine.QueueDrain

/-!
# One tick of an undisturbed worker

`tick` as a function of the table, and what it amounts to: the claimed rows are settled one
by one and every other row is left alone. On the queue of due deliveries it is one round of
draining, in which the deliveries of disabled bindings stick.
-/
namespace Appspine.Delivery
open JsText StableSort QueueDrain

/-- The instants at which a tick reads the clock: for the reclaim, in the claiming
transaction, and when it completes the delivery of an id. -/
structure TickClock where
  started : ℤ
  claimed : ℤ
  settled : JsString → ℤ

/-- What a worker consults: the registry, the binding lookup and the handlers. -/
structure Handlers where
  registered : JsString → Bool
  bindingEnabled : JsString → Bool
  handle : DomainEventDelivery → HandlerOutcome

/-- The columns that name a delivery; nothing ever changes them. -/
structure Identity where
  id : JsString
  event : DomainEventRecord
  handlerKey : JsString
  deriving DecidableEq

def DomainEventDelivery.identity (row : DomainEventDelivery) : Identity :=
  ⟨row.id, row.event, row.handlerKey⟩

def bindingCheck (handlers : Handlers) (delivery : DomainEventDelivery) : BindingCheck :=
  if (gatingBinding delivery.event).all handlers.bindingEnabled then .enabled else .disabled

/-- How `processDelivery` completes a delivery. -/
def completion (options : DomainEventDispatcherOptions) (handlers : Handlers) (now : ℤ)
    (delivery : DomainEventDelivery) : DeliveryCompletionData :=
  match admission options now delivery (handlers.registered delivery.handlerKey)
    (bindingCheck handlers delivery) with
  | .invoke => settle options now delivery (handlers.handle delivery)
  | .finish data _ => data

def processDelivery (options : DomainEventDispatcherOptions) (handlers : Handlers) (now : ℤ)
    (table : DeliveryTable) (delivery : DomainEventDelivery) : DeliveryTable :=
  completeDelivery delivery (completion options handlers now delivery) table

def reclaimStaleLocks (options : DomainEventDispatcherOptions) (now : ℤ) (table : DeliveryTable) :
    DeliveryTable :=
  runReclaim options (now - options.staleLockMs) .retry
    (runReclaim options (now - options.staleLockMs) .terminal table)

def tick (options : DomainEventDispatcherOptions) (handlers : Handlers) (clock : TickClock)
    (leaseId : JsString) (table : DeliveryTable) : DeliveryTable :=
  let claim := claimDueDeliveries options clock.claimed leaseId []
    (reclaimStaleLocks options clock.started table)
  claim.2.foldl (fun table delivery =>
    processDelivery options handlers (clock.settled delivery.id) table delivery) claim.1

/-- One tick after the other, each with its clock and its lease. -/
def ticks (options : DomainEventDispatcherOptions) (handlers : Handlers) :
    List (TickClock × JsString) → DeliveryTable → DeliveryTable
  | [], table => table
  | (clock, leaseId) :: rest, table =>
    ticks options handlers rest (tick options handlers clock leaseId table)

/-- A handler is registered and no disabled binding is in the way. -/
def deliverable (handlers : Handlers) (row : Identity) : Bool :=
  handlers.registered row.handlerKey && (gatingBinding row.event).all handlers.bindingEnabled

/-- A handler is registered, and the binding of the event is disabled. -/
def blocked (handlers : Handlers) (row : Identity) : Bool :=
  handlers.registered row.handlerKey && !(gatingBinding row.event).all handlers.bindingEnabled

variable {options : DomainEventDispatcherOptions} {handlers : Handlers}

section Fold

/-- The guarded update of one row. -/
def completeRow (delivery : DomainEventDelivery) (data : DeliveryCompletionData)
    (row : DomainEventDelivery) : DomainEventDelivery :=
  if decide (row.id = delivery.id) && decide (row.status = .PROCESSING) &&
    decide (row.lockedBy = some (delivery.lockedBy.getD missingLease)) then row.apply data else row

lemma foldl_map {α β : Type*} (f : β → α → α) (bs : List β) (xs : List α) :
    bs.foldl (fun xs b => xs.map (f b)) xs = xs.map (fun x => bs.foldl (fun x b => f b x) x) := by
  induction bs generalizing xs with
  | nil => simp
  | cons b bs ih =>
    rw [List.foldl_cons, ih, List.map_map]
    rfl

lemma foldl_completeRow_of_ne (data : DomainEventDelivery → DeliveryCompletionData)
    {deliveries : List DomainEventDelivery} {row : DomainEventDelivery}
    (h : ∀ delivery ∈ deliveries, row.id ≠ delivery.id) :
    deliveries.foldl (fun row delivery => completeRow delivery (data delivery) row) row = row := by
  induction deliveries with
  | nil => rfl
  | cons delivery deliveries ih =>
    have hne : row.id ≠ delivery.id := h delivery List.mem_cons_self
    have hkeep : completeRow delivery (data delivery) row = row := by simp [completeRow, hne]
    rw [List.foldl_cons, hkeep]
    exact ih (fun d hd => h d (List.mem_cons_of_mem _ hd))

/-- A snapshot that is the row itself is completed once. -/
lemma foldl_completeRow_of_mem (data : DomainEventDelivery → DeliveryCompletionData)
    {deliveries : List DomainEventDelivery}
    (hnodup : (deliveries.map (fun delivery => delivery.id)).Nodup)
    {delivery : DomainEventDelivery} (hmem : delivery ∈ deliveries)
    (hstatus : delivery.status = .PROCESSING) (hlease : delivery.lockedBy.isSome) :
    deliveries.foldl (fun row delivery => completeRow delivery (data delivery) row) delivery =
      delivery.apply (data delivery) := by
  induction deliveries with
  | nil => cases hmem
  | cons head deliveries ih =>
    rw [List.map_cons, List.nodup_cons] at hnodup
    rw [List.foldl_cons]
    rcases List.mem_cons.mp hmem with rfl | hmem
    · obtain ⟨leaseId, hl⟩ := Option.isSome_iff_exists.mp hlease
      have hdone : completeRow delivery (data delivery) delivery = delivery.apply (data delivery) := by
        simp [completeRow, hstatus, hl]
      rw [hdone]
      apply foldl_completeRow_of_ne
      intro other hother heq
      exact hnodup.1 (heq ▸ List.mem_map_of_mem hother)
    · have hne : delivery.id ≠ head.id := by
        intro heq
        exact hnodup.1 (heq ▸ List.mem_map_of_mem hmem)
      have hkeep : completeRow head (data head) delivery = delivery := by simp [completeRow, hne]
      rw [hkeep]
      exact ih hnodup.2 hmem

end Fold

/-- A due row after it has been claimed and completed. -/
def settledRow (options : DomainEventDispatcherOptions) (handlers : Handlers) (clock : TickClock)
    (leaseId : JsString) (row : DomainEventDelivery) : DomainEventDelivery :=
  let delivery := claimed clock.claimed leaseId row
  delivery.apply (completion options handlers (clock.settled delivery.id) delivery)

section Effect

variable {clock : TickClock} {leaseId : JsString} {table : DeliveryTable}

lemma updateMany_of_none {selects : DomainEventDelivery → Bool}
    {change : DomainEventDelivery → DomainEventDelivery}
    (h : ∀ row ∈ table, selects row = false) : updateMany table selects change = table := by
  unfold updateMany
  conv_rhs => rw [← List.map_id table]
  apply List.map_congr_left
  intro row hrow
  simp [h row hrow]

/-- Without stale locks there is nothing to reclaim. -/
lemma reclaimStaleLocks_of_fresh {now : ℤ}
    (h : ∀ row ∈ table, row.status = .PROCESSING →
      lockedBefore (now - options.staleLockMs) row = false) :
    reclaimStaleLocks options now table = table := by
  have hnone : ∀ statement, ∀ row ∈ table,
      reclaims options (now - options.staleLockMs) row statement = false := by
    intro statement row hrow
    by_cases hs : row.status = .PROCESSING
    · cases statement <;> simp [reclaims, h row hrow hs]
    · cases statement <;> simp [reclaims, hs]
  have hsame : ∀ statement,
      runReclaim options (now - options.staleLockMs) statement table = table :=
    fun statement => updateMany_of_none (hnone statement)
  unfold reclaimStaleLocks
  rw [hsame .terminal, hsame .retry]

/-- The whole effect of a tick: each claimed row is settled, every other row stays. -/
theorem tick_eq (ids : (table.map (fun row => row.id)).Nodup)
    (fresh : ∀ row ∈ table, row.status = .PROCESSING →
      lockedBefore (clock.started - options.staleLockMs) row = false) :
    tick options handlers clock leaseId table = table.map (fun row =>
      if (dueIds options clock.claimed [] table).contains row.id then
        settledRow options handlers clock leaseId row else row) := by
  unfold tick
  rw [reclaimStaleLocks_of_fresh fresh]
  set claim := claimDueDeliveries options clock.claimed leaseId [] table with hclaim
  have hfold : ∀ table, claim.2.foldl (fun table delivery =>
      processDelivery options handlers (clock.settled delivery.id) table delivery) table =
      table.map (fun row => claim.2.foldl (fun row delivery => completeRow delivery
        (completion options handlers (clock.settled delivery.id) delivery) row) row) := by
    intro table
    exact foldl_map (fun delivery => completeRow delivery
      (completion options handlers (clock.settled delivery.id) delivery)) claim.2 table
  have hafter : claim.1 = table.map (fun row =>
      if (dueIds options clock.claimed [] table).contains row.id then
        claimed clock.claimed leaseId row else row) := rfl
  simp only [hfold]
  rw [hafter, List.map_map]
  apply List.map_congr_left
  intro row hrow
  simp only [Function.comp]
  by_cases hc : (dueIds options clock.claimed [] table).contains row.id = true
  · rw [if_pos hc, if_pos hc]
    have hmem : claimed clock.claimed leaseId row ∈ claim.2 := by
      rw [hclaim]
      simp only [claimDueDeliveries, mem_sortBy, List.mem_filter]
      refine ⟨List.mem_map.mpr ⟨row, hrow, if_pos hc⟩, hc⟩
    exact foldl_completeRow_of_mem
      (fun delivery => completion options handlers (clock.settled delivery.id) delivery)
      (nodup_claimDueDeliveries ids) hmem rfl rfl
  · rw [if_neg hc, if_neg hc]
    apply foldl_completeRow_of_ne
    intro delivery hd heq
    rw [hclaim] at hd
    simp only [claimDueDeliveries, mem_sortBy, List.mem_filter] at hd
    rw [← heq] at hd
    exact hc hd.2

end Effect

end Appspine.Delivery
