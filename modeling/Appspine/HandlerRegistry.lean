import Appspine.InsertionMap
import Appspine.JsText

/-!
# The registry of event handlers

`DomainEventRegistry`: handlers by event type and by key, resolvers by the start of a key, and
descriptors of subscribers. A call that throws keeps what it wrote before.
-/
namespace Appspine.HandlerRegistry
open JsText InsertionMap

section Registry

structure DomainEventSubscriberDescriptor where
  eventTypes : List JsString
  key : JsString
  description : JsString
  deriving DecidableEq

/-- Handlers are objects of `H`, compared by identity. -/
structure DomainEventRegistry (H : Type) where
  exactHandlers : Entries JsString (List H) := []
  prefixResolvers : Entries JsString (JsString → Option H) := []
  handlersByKey : Entries JsString H := []
  /-- The keys that each contributor adds to an event type. -/
  handlerKeyContributors : List (JsString → List JsString) := []
  subscriberDescriptors : Entries JsString DomainEventSubscriberDescriptor := []

structure DomainEventRegistryDescription where
  subscribers : List DomainEventSubscriberDescriptor
  dataDrivenPrefixes : List JsString
  hasHandlerKeyContributors : Bool
  deriving DecidableEq

/-- A method that may throw and may have written to the registry before it did. -/
abbrev RegistryM (H : Type) := ExceptT JsString (StateM (DomainEventRegistry H))

variable {H : Type} [DecidableEq H] (key : H → JsString)

omit [DecidableEq H] in
def throwIf (condition : Bool) (error : JsString) : RegistryM H Unit :=
  if condition then throw error else pure ()

omit [DecidableEq H] in
def assertValidHandlerKey (handlerKey : JsString) : RegistryM H Unit :=
  throwIf (decide (unit ':' ∈ handlerKey))
    (js "Domain event handler key must not contain ':': " ++ handlerKey)

def on (eventType : JsString) (handler : H) : RegistryM H Unit := do
  assertValidHandlerKey (key handler)
  let existing := InsertionMap.get (← get).handlersByKey (key handler)
  throwIf (existing.any fun other => decide (other ≠ handler))
    (js "Domain event handler key already registered to a different handler: " ++ key handler)
  let handlers := (InsertionMap.get (← get).exactHandlers eventType).getD []
  throwIf (handlers.any fun candidate => decide (key candidate = key handler))
    (js "Domain event handler key already registered for " ++ eventType ++ js ": " ++ key handler)
  modify fun r => { r with handlersByKey := InsertionMap.set r.handlersByKey (key handler) handler }
  modify fun r =>
    { r with exactHandlers := InsertionMap.set r.exactHandlers eventType (handlers ++ [handler]) }

omit [DecidableEq H] in
def registerPrefix (start : JsString) (resolve : JsString → Option H) : RegistryM H Unit := do
  throwIf (InsertionMap.has (← get).prefixResolvers start)
    (js "Domain event handler prefix already registered: " ++ start)
  modify fun r => { r with prefixResolvers := InsertionMap.set r.prefixResolvers start resolve }

omit [DecidableEq H] in
def registerHandlerKeyContributor (contributor : JsString → List JsString) : RegistryM H Unit :=
  modify fun r => { r with handlerKeyContributors := r.handlerKeyContributors ++ [contributor] }

omit [DecidableEq H] in
def describeSubscriber (descriptor : DomainEventSubscriberDescriptor) : RegistryM H Unit := do
  throwIf (InsertionMap.has (← get).subscriberDescriptors descriptor.key)
    (js "Domain event subscriber already described for key: " ++ descriptor.key)
  modify fun r => { r with
    subscriberDescriptors := InsertionMap.set r.subscriberDescriptors descriptor.key descriptor }

variable (r : DomainEventRegistry H)

omit [DecidableEq H] in
def matchingHandlers (eventType : JsString) : List H :=
  (InsertionMap.get r.exactHandlers eventType).getD []

omit [DecidableEq H] in
def matchingHandlerKeys (eventType : JsString) : List JsString :=
  (matchingHandlers r eventType).map key

omit [DecidableEq H] in
def contributeHandlerKeys (eventType : JsString) : List JsString :=
  r.handlerKeyContributors.flatMap fun contributor => contributor eventType

/-- The keys for which `record` creates a delivery. -/
def recordedHandlerKeys (eventType : JsString) : List JsString :=
  distinct (matchingHandlerKeys key r eventType ++ contributeHandlerKeys r eventType)

omit [DecidableEq H] in
def resolve (handlerKey : JsString) : Option H :=
  match InsertionMap.get r.handlersByKey handlerKey with
  | some exact => some exact
  | none => (r.prefixResolvers.filter fun e => startsWith handlerKey e.1).findSome?
      fun e => e.2 handlerKey

omit [DecidableEq H] in
def describe : DomainEventRegistryDescription where
  subscribers := r.subscriberDescriptors.map Prod.snd
  dataDrivenPrefixes := keys r.prefixResolvers
  hasHandlerKeyContributors := decide (0 < r.handlerKeyContributors.length)

end Registry

section Calls

inductive Call (H : Type) where
  | on (eventType : JsString) (handler : H)
  | registerPrefix (start : JsString) (resolve : JsString → Option H)
  | registerHandlerKeyContributor (contributor : JsString → List JsString)
  | describeSubscriber (descriptor : DomainEventSubscriberDescriptor)

variable {H : Type} [DecidableEq H] (key : H → JsString)

def Call.method : Call H → RegistryM H Unit
  | .on eventType handler => HandlerRegistry.on key eventType handler
  | .registerPrefix start resolve => HandlerRegistry.registerPrefix start resolve
  | .registerHandlerKeyContributor contributor =>
    HandlerRegistry.registerHandlerKeyContributor contributor
  | .describeSubscriber descriptor => HandlerRegistry.describeSubscriber descriptor

/-- The outcome of one call, and the registry after it. -/
def perform (r : DomainEventRegistry H) (call : Call H) :
    Except JsString Unit × DomainEventRegistry H :=
  (call.method key).run.run r

/-- The registry after a sequence of calls, of which some may have thrown. -/
def performAll (calls : List (Call H)) : DomainEventRegistry H :=
  calls.foldl (fun r call => (perform key r call).2) {}

/-- One of the calls registered the handler for the event type. -/
def Registers (calls : List (Call H)) (eventType : JsString) (handler : H) : Prop :=
  ∃ before after, calls = before ++ .on eventType handler :: after ∧
    (perform key (performAll key before) (.on eventType handler)).1 = .ok ()

end Calls

section Steps

variable {H : Type} [DecidableEq H] {key : H → JsString} {r : DomainEventRegistry H}

omit [DecidableEq H] in
lemma run_throwIf (condition : Bool) (error : JsString) (next : Unit → RegistryM H Unit) :
    (throwIf condition error >>= next).run.run r =
      if condition then (.error error, r) else (next ()).run.run r := by
  cases condition <;> rfl

omit [DecidableEq H] in
lemma run_get (next : DomainEventRegistry H → RegistryM H Unit) :
    (get >>= next).run.run r = (next r).run.run r := rfl

omit [DecidableEq H] in
lemma run_modify (f : DomainEventRegistry H → DomainEventRegistry H) :
    (modify f : RegistryM H Unit).run.run r = (.ok (), f r) := rfl

/-- The registry after an accepted `on`. -/
def registered (key : H → JsString) (r : DomainEventRegistry H) (eventType : JsString)
    (handler : H) : DomainEventRegistry H :=
  { r with
    handlersByKey := InsertionMap.set r.handlersByKey (key handler) handler
    exactHandlers := InsertionMap.set r.exactHandlers eventType
      (matchingHandlers r eventType ++ [handler]) }

/-- What is checked before `on` writes. -/
structure Accepts (key : H → JsString) (r : DomainEventRegistry H) (eventType : JsString)
    (handler : H) : Prop where
  free : ∀ other, InsertionMap.get r.handlersByKey (key handler) = some other → other = handler
  fresh : ∀ candidate ∈ matchingHandlers r eventType, key candidate ≠ key handler

lemma perform_on (eventType : JsString) (handler : H) :
    (Accepts key r eventType handler ∧
      perform key r (.on eventType handler) = (.ok (), registered key r eventType handler)) ∨
    ∃ error, perform key r (.on eventType handler) = (.error error, r) := by
  simp only [perform, Call.method, HandlerRegistry.on, assertValidHandlerKey, run_throwIf, run_get]
  split_ifs with hvalid hfree hfresh
  · exact .inr ⟨_, rfl⟩
  · exact .inr ⟨_, rfl⟩
  · exact .inr ⟨_, rfl⟩
  · refine .inl ⟨⟨fun other hother => ?_, fun candidate hmem heq => ?_⟩, rfl⟩
    · by_contra hne
      exact hfree (by simp [hother, hne])
    · exact hfresh (List.any_eq_true.mpr ⟨candidate, hmem, decide_eq_true heq⟩)

/-- Every call succeeds or leaves the registry as it was, and `on` alone touches the handlers. -/
lemma perform_other (call : Call H) (hcall : ∀ eventType handler, call ≠ .on eventType handler) :
    ((perform key r call).1 = .ok () ∨ (perform key r call).2 = r) ∧
      (perform key r call).2.exactHandlers = r.exactHandlers ∧
      (perform key r call).2.handlersByKey = r.handlersByKey := by
  cases call with
  | on eventType handler => exact absurd rfl (hcall eventType handler)
  | registerPrefix start resolve =>
    simp only [perform, Call.method, HandlerRegistry.registerPrefix, run_throwIf, run_get,
      run_modify]
    split_ifs <;> simp
  | registerHandlerKeyContributor contributor =>
    simp only [perform, Call.method, HandlerRegistry.registerHandlerKeyContributor, run_modify]
    simp
  | describeSubscriber descriptor =>
    simp only [perform, Call.method, HandlerRegistry.describeSubscriber, run_throwIf, run_get,
      run_modify]
    split_ifs <;> simp

/-- A call that throws has written nothing. -/
theorem perform_error {call : Call H} {error : JsString}
    (h : (perform key r call).1 = .error error) : (perform key r call).2 = r := by
  by_cases hcall : ∃ eventType handler, call = .on eventType handler
  · obtain ⟨eventType, handler, rfl⟩ := hcall
    rcases @perform_on H _ key r eventType handler with ⟨-, hok⟩ | ⟨_, herror⟩
    · rw [hok] at h
      cases h
    · rw [herror]
  · push Not at hcall
    rcases (@perform_other H _ key r call hcall).1 with hok | hsame
    · rw [hok] at h
      cases h
    · exact hsame

end Steps

section Runs

variable {H : Type} [DecidableEq H] {key : H → JsString}

lemma performAll_append (calls : List (Call H)) (call : Call H) :
    performAll key (calls ++ [call]) = (perform key (performAll key calls) call).2 := by
  simp [performAll]

lemma registers_append {calls : List (Call H)} {call : Call H} {eventType : JsString}
    {handler : H} :
    Registers key (calls ++ [call]) eventType handler ↔
      Registers key calls eventType handler ∨ (call = .on eventType handler ∧
        (perform key (performAll key calls) (.on eventType handler)).1 = .ok ()) := by
  constructor
  · rintro ⟨before, after, hsplit, hok⟩
    rcases List.eq_nil_or_concat after with rfl | ⟨after, last, rfl⟩
    · obtain ⟨rfl, hlast⟩ := List.append_inj' hsplit rfl
      exact .inr ⟨(List.cons.inj hlast).1, hok⟩
    · rw [List.concat_eq_append, ← List.cons_append, ← List.append_assoc] at hsplit
      exact .inl ⟨before, after, (List.append_inj' hsplit rfl).1, hok⟩
  · rintro (⟨before, after, rfl, hok⟩ | ⟨rfl, hok⟩)
    · exact ⟨before, after ++ [call], by simp, hok⟩
    · exact ⟨calls, [], rfl, hok⟩

omit [DecidableEq H] in
lemma matchingHandlers_registered (r : DomainEventRegistry H) (eventType other : JsString)
    (handler : H) :
    matchingHandlers (registered key r eventType handler) other =
      if other = eventType then matchingHandlers r eventType ++ [handler]
      else matchingHandlers r other := by
  unfold matchingHandlers registered
  rw [get_set]
  split_ifs <;> rfl

/-- The handlers of each event type are those registered for it, with a key each, under which they
are found. -/
structure Consistent (key : H → JsString) (calls : List (Call H)) (r : DomainEventRegistry H) :
    Prop where
  registers : ∀ eventType handler,
    handler ∈ matchingHandlers r eventType ↔ Registers key calls eventType handler
  nodup : ∀ eventType, (matchingHandlerKeys key r eventType).Nodup
  byKey : ∀ eventType, ∀ handler ∈ matchingHandlers r eventType,
    InsertionMap.get r.handlersByKey (key handler) = some handler

variable {calls : List (Call H)} {r : DomainEventRegistry H}

/-- A call that registers no handler keeps the handlers consistent. -/
lemma Consistent.of_same {call : Call H} {r' : DomainEventRegistry H} (h : Consistent key calls r)
    (hexact : r'.exactHandlers = r.exactHandlers) (hkeys : r'.handlersByKey = r.handlersByKey)
    (hcall : ∀ eventType handler, Registers key (calls ++ [call]) eventType handler ↔
      Registers key calls eventType handler) : Consistent key (calls ++ [call]) r' where
  registers eventType handler := by
    rw [hcall, ← h.registers, matchingHandlers, hexact]
    rfl
  nodup eventType := by
    rw [matchingHandlerKeys, matchingHandlers, hexact]
    exact h.nodup eventType
  byKey eventType := by
    rw [matchingHandlers, hexact, hkeys]
    exact h.byKey eventType

lemma Consistent.registered {eventType : JsString} {handler : H} (h : Consistent key calls r)
    (haccepts : Accepts key r eventType handler)
    (hcall : ∀ other candidate, Registers key (calls ++ [.on eventType handler]) other candidate ↔
      Registers key calls other candidate ∨ (other = eventType ∧ candidate = handler)) :
    Consistent key (calls ++ [.on eventType handler]) (registered key r eventType handler) where
  registers other candidate := by
    rw [hcall, ← h.registers, matchingHandlers_registered]
    split_ifs with hother
    · simp [hother]
    · simp [hother]
  nodup other := by
    rw [matchingHandlerKeys, matchingHandlers_registered]
    split_ifs with hother
    · rw [List.map_append]
      refine (h.nodup eventType).append (List.nodup_singleton _) ?_
      intro k hk hself
      obtain ⟨candidate, hmem, rfl⟩ := List.mem_map.mp hk
      exact haccepts.fresh candidate hmem (List.mem_singleton.mp hself)
    · exact h.nodup other
  byKey other candidate hmem := by
    -- A candidate with the key of the new handler was found under it before, so it is that handler.
    have hold : ∀ eventType, candidate ∈ matchingHandlers r eventType →
        InsertionMap.get (HandlerRegistry.registered key r eventType handler).handlersByKey
          (key candidate) = some candidate := by
      intro eventType hmem
      have hfound := h.byKey eventType candidate hmem
      simp only [HandlerRegistry.registered, get_set]
      split_ifs with hkey
      · rw [hkey] at hfound
        rw [haccepts.free candidate hfound]
      · exact hfound
    rw [matchingHandlers_registered] at hmem
    split_ifs at hmem with hother
    · rcases List.mem_append.mp hmem with hmem | hself
      · exact hold eventType hmem
      · rw [List.mem_singleton.mp hself]
        simp [HandlerRegistry.registered, get_set]
    · exact hold other hmem

/-- Every sequence of calls keeps the handlers consistent. -/
theorem consistent_performAll (calls : List (Call H)) :
    Consistent key calls (performAll key calls) := by
  induction calls using List.reverseRecOn with
  | nil =>
    refine ⟨fun eventType handler => ⟨fun h => absurd h List.not_mem_nil, ?_⟩,
      fun eventType => List.nodup_nil, fun eventType handler h => absurd h List.not_mem_nil⟩
    rintro ⟨before, after, hsplit, -⟩
    simp at hsplit
  | append_singleton calls call ih =>
    rw [performAll_append]
    by_cases hcall : ∃ eventType handler, call = .on eventType handler
    · obtain ⟨eventType, handler, rfl⟩ := hcall
      rcases @perform_on H _ key (performAll key calls) eventType handler with
        ⟨haccepts, hok⟩ | ⟨error, herror⟩
      · rw [hok]
        refine ih.registered haccepts fun other candidate => ?_
        rw [registers_append]
        refine or_congr_right ⟨?_, ?_⟩
        · rintro ⟨heq, -⟩
          cases heq
          exact ⟨rfl, rfl⟩
        · rintro ⟨rfl, rfl⟩
          exact ⟨rfl, by rw [hok]⟩
      · rw [herror]
        refine ih.of_same rfl rfl fun other candidate => ?_
        rw [registers_append, or_iff_left]
        rintro ⟨heq, hok⟩
        cases heq
        rw [herror] at hok
        cases hok
    · push Not at hcall
      obtain ⟨-, hexact, hkeys⟩ := @perform_other H _ key (performAll key calls) call hcall
      refine ih.of_same hexact hkeys fun other candidate => ?_
      rw [registers_append, or_iff_left]
      exact fun h => hcall other candidate h.1

lemma resolve_of_registers {eventType : JsString} {handler : H}
    (h : Registers key calls eventType handler) :
    resolve (performAll key calls) (key handler) = some handler := by
  have hconsistent := @consistent_performAll H _ key calls
  have hfound := hconsistent.byKey eventType handler
    ((hconsistent.registers eventType handler).mpr h)
  simp [resolve, hfound]

/-- After any calls the keys for an event type are distinct, each is resolved to the one handler
registered under it for that event type, and a call that throws changes nothing to be seen. -/
theorem registered_handlers_resolve (key : H → JsString) (calls : List (Call H)) :
    (∀ eventType, (matchingHandlerKeys key (performAll key calls) eventType).Nodup ∧
      ∀ handlerKey ∈ matchingHandlerKeys key (performAll key calls) eventType,
        ∃ handler, Registers key calls eventType handler ∧ key handler = handlerKey ∧
          resolve (performAll key calls) handlerKey = some handler ∧
          ∀ other, Registers key calls eventType other → key other = handlerKey →
            other = handler) ∧
    ∀ call error, (perform key (performAll key calls) call).1 = .error error →
      matchingHandlerKeys key (performAll key (calls ++ [call])) =
          matchingHandlerKeys key (performAll key calls) ∧
        resolve (performAll key (calls ++ [call])) = resolve (performAll key calls) ∧
        describe (performAll key (calls ++ [call])) = describe (performAll key calls) := by
  have hconsistent := @consistent_performAll H _ key calls
  refine ⟨fun eventType => ⟨hconsistent.nodup eventType, fun handlerKey hmem => ?_⟩,
    fun call error herror => ?_⟩
  · obtain ⟨handler, hhandler, rfl⟩ := List.mem_map.mp hmem
    have hregisters := (hconsistent.registers eventType handler).mp hhandler
    have hresolve := resolve_of_registers hregisters
    refine ⟨handler, hregisters, rfl, hresolve, fun other hother hkey => ?_⟩
    have hsame := resolve_of_registers hother
    rw [hkey, hresolve] at hsame
    exact (Option.some.inj hsame).symm
  · rw [performAll_append, perform_error herror]
    exact ⟨rfl, rfl, rfl⟩

/-- A handler of two event types, and another one that comes for its key. -/
theorem registered_handlers_resolve_rival :
    let calls : List (Call (ℕ × JsString)) := [.on (js "submitted") (1, js "audit"),
      .on (js "approved") (1, js "audit"), .registerPrefix (js "audit") fun _ => none]
    (∃ handler, Registers Prod.snd calls (js "approved") handler ∧ handler.2 = js "audit" ∧
      resolve (performAll Prod.snd calls) (js "audit") = some handler) ∧
    matchingHandlerKeys Prod.snd
        (performAll Prod.snd (calls ++ [.on (js "approved") (2, js "audit")])) =
      matchingHandlerKeys Prod.snd (performAll Prod.snd calls) := by
  intro calls
  have hmem : js "audit" ∈
      matchingHandlerKeys Prod.snd (performAll Prod.snd calls) (js "approved") := by
    decide +kernel
  obtain ⟨handler, hregisters, hkey, hresolve, -⟩ :=
    ((registered_handlers_resolve Prod.snd calls).1 (js "approved")).2 (js "audit") hmem
  exact ⟨⟨handler, hregisters, hkey, hresolve⟩,
    ((registered_handlers_resolve Prod.snd calls).2 (.on (js "approved") (2, js "audit")) _
      rfl).1⟩

end Runs

end Appspine.HandlerRegistry
