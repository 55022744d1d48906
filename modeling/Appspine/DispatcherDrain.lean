import Appspine.DispatcherTick

/-!
# Draining the queue of due deliveries

How many ticks of an undisturbed worker it takes to get every deliverable row processed,
and what the rows of disabled bindings, which are put back as immediately due, do to it.
-/
namespace Appspine.Delivery
open JsText StableSort QueueDrain

variable {options : DomainEventDispatcherOptions} {handlers : Handlers}

/-- The ticks see the same rows due and find no stale lock. -/
structure Quiet (options : DomainEventDispatcherOptions) (now : ℤ)
    (clocks : List (TickClock × JsString)) (table : DeliveryTable) : Prop where
  ids : (table.map (fun row => row.id)).Nodup
  due : ∀ clock ∈ clocks, ∀ row ∈ table, isDue clock.1.claimed row = isDue now row
  fresh : ∀ clock ∈ clocks, ∀ row ∈ table, row.status = .PROCESSING →
    lockedBefore (clock.1.started - options.staleLockMs) row = false

section Settled

variable {clock : TickClock} {leaseId : JsString}

@[simp] lemma settledRow_identity (row : DomainEventDelivery) :
    (settledRow options handlers clock leaseId row).identity = row.identity := rfl

/-- How a claimed row ends, by its handler and its binding. -/
lemma settledRow_cases (options : DomainEventDispatcherOptions) (clock : TickClock)
    (leaseId : JsString)
    (handled : ∀ delivery, handlers.handle delivery = .handled)
    (row : DomainEventDelivery) :
    (blocked handlers row.identity = true ∧ deliverable handlers row.identity = false ∧
        (settledRow options handlers clock leaseId row).status = .PENDING ∧
        (settledRow options handlers clock leaseId row).nextAttemptAt = none) ∨
      (blocked handlers row.identity = false ∧ deliverable handlers row.identity = true ∧
        (settledRow options handlers clock leaseId row).status = .PROCESSED) ∨
      (blocked handlers row.identity = false ∧ deliverable handlers row.identity = false ∧
        (settledRow options handlers clock leaseId row).status = .IGNORED) := by
  have hkey : (claimed clock.claimed leaseId row).handlerKey = row.handlerKey := rfl
  cases hreg : handlers.registered row.handlerKey with
  | false =>
    refine .inr (.inr ⟨by simp [blocked, DomainEventDelivery.identity, hreg],
      by simp [deliverable, DomainEventDelivery.identity, hreg], ?_⟩)
    simp [settledRow, completion, hkey, hreg, admission, missingHandler, DomainEventDelivery.apply]
  | true =>
    cases hgate : gatingBinding row.event with
    | none =>
      refine .inr (.inl ⟨by simp [blocked, DomainEventDelivery.identity, hreg, hgate],
        by simp [deliverable, DomainEventDelivery.identity, hreg, hgate], ?_⟩)
      simp [settledRow, completion, hkey, hreg, admission, hgate, handled, settle,
        DomainEventDelivery.apply]
    | some bindingId =>
      cases hbinding : handlers.bindingEnabled bindingId with
      | false =>
        refine .inl ⟨by simp [blocked, DomainEventDelivery.identity, hreg, hgate, hbinding],
          by simp [deliverable, DomainEventDelivery.identity, hreg, hgate, hbinding], ?_⟩
        simp [settledRow, completion, hkey, hreg, admission, hgate, bindingCheck, hbinding,
          bindingDisabled, DomainEventDelivery.apply]
      | true =>
        refine .inr (.inl ⟨by simp [blocked, DomainEventDelivery.identity, hreg, hgate, hbinding],
          by simp [deliverable, DomainEventDelivery.identity, hreg, hgate, hbinding], ?_⟩)
        simp [settledRow, completion, hkey, hreg, admission, hgate, bindingCheck, hbinding,
          handled, settle, DomainEventDelivery.apply]

/-- A settled row is due again, at any time, exactly when its binding is disabled. -/
lemma isDue_settledRow (handled : ∀ delivery, handlers.handle delivery = .handled) (now : ℤ)
    (row : DomainEventDelivery) :
    isDue now (settledRow options handlers clock leaseId row) = blocked handlers row.identity := by
  rcases settledRow_cases options clock leaseId handled row with
    ⟨hb, _, hs, hn⟩ | ⟨hb, _, hs⟩ | ⟨hb, _, hs⟩
  · simp [isDue, hb, hs, hn]
  · simp [isDue, hb, hs]
  · simp [isDue, hb, hs]

end Settled

section Tick

variable {now : ℤ} {clock : TickClock} {leaseId : JsString}
  {clocks : List (TickClock × JsString)} {table : DeliveryTable}

/-- The effect of a tick on one row of the table. -/
def tickRow (options : DomainEventDispatcherOptions) (handlers : Handlers) (clock : TickClock)
    (leaseId : JsString) (table : DeliveryTable) (row : DomainEventDelivery) :
    DomainEventDelivery :=
  if (dueIds options clock.claimed [] table).contains row.id then
    settledRow options handlers clock leaseId row else row

lemma tickRow_identity (row : DomainEventDelivery) :
    (tickRow options handlers clock leaseId table row).identity = row.identity := by
  unfold tickRow
  split_ifs <;> rfl

lemma Quiet.tick_eq (h : Quiet options now ((clock, leaseId) :: clocks) table) :
    tick options handlers clock leaseId table =
      table.map (tickRow options handlers clock leaseId table) :=
  Delivery.tick_eq h.ids (h.fresh _ List.mem_cons_self)

/-- After a tick a row is due at some time only if it was claimed and is blocked, or was not
claimed and was due at that time before. -/
lemma isDue_tickRow (handled : ∀ delivery, handlers.handle delivery = .handled) (time : ℤ)
    (row : DomainEventDelivery) :
    isDue time (tickRow options handlers clock leaseId table row) =
      if (dueIds options clock.claimed [] table).contains row.id then
        blocked handlers row.identity else isDue time row := by
  unfold tickRow
  split_ifs
  · exact isDue_settledRow handled time row
  · rfl

theorem Quiet.tick (handled : ∀ delivery, handlers.handle delivery = .handled)
    (h : Quiet options now ((clock, leaseId) :: clocks) table) :
    Quiet options now clocks (tick options handlers clock leaseId table) where
  ids := by
    rw [h.tick_eq, List.map_map]
    have hsame : (fun row : DomainEventDelivery => row.id) ∘
        tickRow options handlers clock leaseId table = fun row => row.id := by
      funext row
      exact congrArg Identity.id (tickRow_identity row)
    rw [hsame]
    exact h.ids
  due := by
    intro other hother row' hrow'
    rw [h.tick_eq] at hrow'
    obtain ⟨row, hrow, rfl⟩ := List.mem_map.mp hrow'
    rw [isDue_tickRow handled, isDue_tickRow handled,
      h.due other (List.mem_cons_of_mem _ hother) row hrow]
  fresh := by
    intro other hother row' hrow'
    rw [h.tick_eq] at hrow'
    obtain ⟨row, hrow, rfl⟩ := List.mem_map.mp hrow'
    unfold tickRow
    split_ifs
    · intro hs
      rcases settledRow_cases options clock leaseId handled row with ⟨_, _, hp, _⟩ | ⟨_, _, hp⟩ | ⟨_, _, hp⟩ <;>
      · rw [hp] at hs
        cases hs
    · exact h.fresh other (List.mem_cons_of_mem _ hother) row hrow

end Tick

section Ticks

variable {now : ℤ} {clocks : List (TickClock × JsString)} {table : DeliveryTable}

theorem Quiet.ticks (handled : ∀ delivery, handlers.handle delivery = .handled)
    (h : Quiet options now clocks table) :
    Quiet options now [] (Delivery.ticks options handlers clocks table) := by
  induction clocks generalizing table with
  | nil => exact h
  | cons clock clocks ih => exact ih (h.tick handled)

/-- Still in the queue, or done. -/
def Pursued (now : ℤ) (identity : Identity) (table : DeliveryTable) : Prop :=
  ∃ row ∈ table, row.identity = identity ∧ (isDue now row = true ∨ row.status = .PROCESSED)

lemma Pursued.ticks (handled : ∀ delivery, handlers.handle delivery = .handled)
    (h : Quiet options now clocks table) {identity : Identity}
    (hlive : deliverable handlers identity = true) (hp : Pursued now identity table) :
    Pursued now identity (Delivery.ticks options handlers clocks table) := by
  induction clocks generalizing table with
  | nil => exact hp
  | cons clock clocks ih =>
    apply ih (h.tick handled)
    obtain ⟨row, hrow, rfl, hstate⟩ := hp
    refine ⟨tickRow options handlers clock.1 clock.2 table row, ?_, tickRow_identity row, ?_⟩
    · rw [h.tick_eq]
      exact List.mem_map_of_mem hrow
    · unfold tickRow
      split_ifs
      · rcases settledRow_cases options clock.1 clock.2 handled row with ⟨_, hd, _⟩ | ⟨_, _, hs⟩ | ⟨_, hd, _⟩
        · rw [hd] at hlive
          cases hlive
        · exact .inr hs
        · rw [hd] at hlive
          cases hlive
      · exact hstate

end Ticks

section Example

end Example

end Appspine.Delivery
