import Appspine.JsText
import Appspine.StableSort
import Appspine.Results

/-!
# Authentication strategies and the guards over them

Modules register their strategies when they come up; a guard asks the strategies of its kinds, one
after the other, and the first that does not pass decides.
-/
namespace Appspine.AuthStrategies
open JsText StableSort

section Source

inductive AuthStrategyKind where
  | interactive
  | machine
  deriving DecidableEq

def AuthStrategyKind.text : AuthStrategyKind → JsString
  | .interactive => js "interactive"
  | .machine => js "machine"

/-- A strategy reads and changes the world `σ`, the request in it. It answers with a principal, with
`null`, or throws. -/
structure AuthenticationStrategy (σ ε π : Type) where
  id : JsString
  kind : AuthStrategyKind
  authenticate : σ → Except ε (Option π) × σ

variable {σ ε π : Type}

/-- The strategies in the order in which they were registered. -/
abbrev Registry (σ ε π : Type) := List (AuthenticationStrategy σ ε π)

def list (registry : Registry σ ε π) (kind : Option AuthStrategyKind) :
    List (AuthenticationStrategy σ ε π) :=
  sortBy (fun strategy => strategy.id)
    (registry.filter fun strategy => kind.all fun kind => decide (strategy.kind = kind))

def has (registry : Registry σ ε π) (id : JsString) : Bool :=
  registry.any fun strategy => decide (strategy.id = id)

structure DuplicateAuthStrategyError where
  message : JsString
  deriving DecidableEq

def alreadyRegistered (id : JsString) : DuplicateAuthStrategyError :=
  ⟨js "Authentication strategy \"" ++ id ++ js "\" is already registered"⟩

def exclusive (existing id : JsString) : DuplicateAuthStrategyError :=
  ⟨js "Interactive authentication provider \"" ++ existing ++ js "\" is already registered; \"" ++
    id ++ js "\" cannot also be enabled. " ++
    js "Interactive providers are mutually exclusive in v1 (051 decision 8) — enabling both needs " ++
    js "an account-linking plan, not a second registration."⟩

def register (registry : Registry σ ε π) (strategy : AuthenticationStrategy σ ε π) :
    Except DuplicateAuthStrategyError (Registry σ ε π) :=
  if has registry strategy.id then .error (alreadyRegistered strategy.id)
  else
    match strategy.kind, list registry (some .interactive) with
    | .interactive, existing :: _ => .error (exclusive existing.id strategy.id)
    | _, _ => .ok (registry ++ [strategy])

/-- `onModuleInit` of the modules that bring a strategy. -/
def onModuleInit (registry : Registry σ ε π) (strategy : AuthenticationStrategy σ ε π) :
    Except DuplicateAuthStrategyError (Registry σ ε π) :=
  if has registry strategy.id then .ok registry else register registry strategy

/-- The modules come up in some order; the first error stops the app. -/
def boot (modules : List (AuthenticationStrategy σ ε π)) :
    Except DuplicateAuthStrategyError (Registry σ ε π) :=
  modules.foldlM onModuleInit []

inductive Refusal (ε : Type) where
  | UnauthorizedException (message : JsString)
  | thrown (error : ε)
  deriving DecidableEq

/-- What a guard works on: the world, `request.user`, and the store of the principal context, if
one was entered. -/
structure Request (σ π : Type) where
  world : σ
  user : Option π
  store : Option (Option π)
  deriving DecidableEq

def attach (principal : π) (request : Request σ π) : Request σ π :=
  { request with user := some principal, store := request.store.map fun _ => some principal }

/-- The loop of `canActivate`. -/
def attempt : List (AuthenticationStrategy σ ε π) → Request σ π →
    Except (Refusal ε) Bool × Request σ π
  | [], request => (.error (.UnauthorizedException (js "Unauthorized")), request)
  | strategy :: rest, request =>
    match strategy.authenticate request.world with
    | (.error error, world) => (.error (.thrown error), { request with world := world })
    | (.ok (some principal), world) => (.ok true, attach principal { request with world := world })
    | (.ok none, world) => attempt rest { request with world := world }

def noneRegistered (kinds : List AuthStrategyKind) : Refusal ε :=
  .UnauthorizedException
    (js "No " ++ join (js "/") (kinds.map AuthStrategyKind.text) ++
      js " authentication strategy is registered on this App")

def canActivate (kinds : List AuthStrategyKind) (registry : Registry σ ε π)
    (request : Request σ π) : Except (Refusal ε) Bool × Request σ π :=
  match kinds.flatMap fun kind => list registry (some kind) with
  | [] => (.error (noneRegistered kinds), request)
  | strategies => attempt strategies request

def AppspineAuthGuard : Registry σ ε π → Request σ π → Except (Refusal ε) Bool × Request σ π :=
  canActivate [.interactive, .machine]

def InteractiveAuthGuard : Registry σ ε π → Request σ π → Except (Refusal ε) Bool × Request σ π :=
  canActivate [.interactive]

def MachineAuthGuard : Registry σ ε π → Request σ π → Except (Refusal ε) Bool × Request σ π :=
  canActivate [.machine]

end Source

section Registration

variable {σ ε π : Type} {registry registry' : Registry σ ε π}
  {strategy : AuthenticationStrategy σ ε π} {modules modules' : List (AuthenticationStrategy σ ε π)}

theorem has_iff {id : JsString} :
    has registry id = true ↔ id ∈ registry.map (fun strategy => strategy.id) := by
  simp [has]

theorem mem_list {kind : Option AuthStrategyKind} :
    strategy ∈ list registry kind ↔ strategy ∈ registry ∧ ∀ k ∈ kind, strategy.kind = k := by
  cases kind <;> simp [list]

/-- The ids are distinct, and there is one interactive strategy at most. -/
structure WellFormed (registry : Registry σ ε π) : Prop where
  ids : (registry.map (fun strategy => strategy.id)).Nodup
  interactive : ∀ s ∈ registry, ∀ t ∈ registry, s.kind = .interactive → t.kind = .interactive →
    s = t

theorem register_eq_ok : register registry strategy = .ok registry' ↔
    strategy.id ∉ registry.map (fun strategy => strategy.id) ∧
      (strategy.kind = .interactive → ∀ s ∈ registry, s.kind ≠ .interactive) ∧
      registry' = registry ++ [strategy] := by
  unfold register
  rw [← has_iff, Bool.not_eq_true]
  cases hhas : has registry strategy.id with
  | true => simp
  | false =>
    simp only [Bool.false_eq_true, if_false, true_and]
    cases hlist : list registry (some .interactive) with
    | nil =>
      have hnone : ∀ s ∈ registry, s.kind ≠ .interactive := by
        intro s hs hkind
        have hmem : s ∈ list registry (some .interactive) :=
          mem_list.mpr ⟨hs, by simpa using hkind⟩
        rw [hlist] at hmem
        cases hmem
      cases strategy.kind with
      | interactive =>
        simp only [Except.ok.injEq, eq_comm, true_implies]
        exact ⟨fun heq => ⟨hnone, heq⟩, And.right⟩
      | machine => simp [eq_comm]
    | cons existing rest =>
      obtain ⟨hmem, hkind⟩ := mem_list.mp (hlist ▸ List.mem_cons_self : existing ∈ list registry _)
      cases hstrategy : strategy.kind with
      | interactive =>
        have hnot : ¬ ∀ s ∈ registry, s.kind ≠ .interactive :=
          fun hnone => hnone existing hmem (hkind _ rfl)
        simp [hnot]
      | machine => simp [eq_comm]

theorem WellFormed.register (h : WellFormed registry)
    (hregister : register registry strategy = .ok registry') : WellFormed registry' := by
  obtain ⟨hid, hkind, rfl⟩ := register_eq_ok.mp hregister
  constructor
  · rw [List.map_append, List.nodup_append]
    refine ⟨h.ids, List.nodup_singleton _, ?_⟩
    rintro a ha b hb rfl
    rw [List.mem_singleton.mp hb] at ha
    exact hid ha
  · intro s hs t ht hs' ht'
    rcases List.mem_append.mp hs with hs | hs
    · rcases List.mem_append.mp ht with ht | ht
      · exact h.interactive s hs t ht hs' ht'
      · rw [List.mem_singleton.mp ht] at ht'
        exact absurd hs' (hkind ht' s hs)
    · obtain rfl := List.mem_singleton.mp hs
      rcases List.mem_append.mp ht with ht | ht
      · exact absurd ht' (hkind hs' t ht)
      · exact (List.mem_singleton.mp ht).symm

/-- The strategies of the modules that came up, each under its id. -/
structure Booted (modules : List (AuthenticationStrategy σ ε π)) (registry : Registry σ ε π) :
    Prop extends WellFormed registry where
  subset : registry ⊆ modules
  ids_covered : ∀ s ∈ modules, s.id ∈ registry.map (fun strategy => strategy.id)

theorem boot_snoc : boot (modules ++ [strategy]) = .ok registry' ↔
    ∃ registry, boot modules = .ok registry ∧ onModuleInit registry strategy = .ok registry' := by
  unfold boot
  rw [List.foldlM_append, Results.bind_eq_ok]
  simp

theorem booted_of_boot (h : boot modules = .ok registry) : Booted modules registry := by
  induction modules using List.reverseRecOn generalizing registry with
  | nil =>
    obtain rfl := Except.ok.inj h
    exact ⟨⟨List.nodup_nil, nofun⟩, nofun, nofun⟩
  | append_singleton modules strategy ih =>
    obtain ⟨before, hbefore, hinit⟩ := boot_snoc.mp h
    have hbooted := ih hbefore
    unfold onModuleInit at hinit
    split_ifs at hinit with hhas
    · obtain rfl := Except.ok.inj hinit
      refine ⟨hbooted.toWellFormed, fun s hs => List.mem_append_left _ (hbooted.subset hs), ?_⟩
      intro s hs
      rcases List.mem_append.mp hs with hs | hs
      · exact hbooted.ids_covered s hs
      · rw [List.mem_singleton.mp hs]
        exact has_iff.mp hhas
    · obtain ⟨-, -, heq⟩ := register_eq_ok.mp hinit
      refine ⟨hbooted.toWellFormed.register hinit, ?_, ?_⟩
      · rw [heq]
        exact List.append_subset.mpr ⟨fun s hs => List.mem_append_left _ (hbooted.subset hs),
          List.subset_append_right _ _⟩
      · intro s hs
        rw [heq, List.map_append, List.mem_append]
        rcases List.mem_append.mp hs with hs | hs
        · exact .inl (hbooted.ids_covered s hs)
        · rw [List.mem_singleton.mp hs]
          exact .inr (List.mem_singleton_self _)

/-- Modules that bring a strategy under the same id bring the same one. -/
def Consistent (modules : List (AuthenticationStrategy σ ε π)) : Prop :=
  ∀ s ∈ modules, ∀ t ∈ modules, s.id = t.id → s = t

theorem mem_of_booted (hsame : Consistent modules) (h : Booted modules registry) :
    strategy ∈ registry ↔ strategy ∈ modules := by
  constructor
  · exact fun hmem => h.subset hmem
  · intro hmem
    obtain ⟨other, hother, hid⟩ := List.mem_map.mp (h.ids_covered strategy hmem)
    rwa [← hsame other (h.subset hother) strategy hmem hid]

end Registration

section Sample

/-- A login and a key, told apart by the first sign of the request. -/
def login : AuthenticationStrategy JsString Unit JsString where
  id := js "oidc"
  kind := .interactive
  authenticate := fun world =>
    if world.head? = some (unit 'b') then (.ok (some (js "user")), world) else (.ok none, world)

def apiKey : AuthenticationStrategy JsString Unit JsString where
  id := js "api-key"
  kind := .machine
  authenticate := fun world =>
    if world.head? = some (unit 'k') then (.ok (some (js "key")), world) else (.error (), world)

theorem consistent_sample : Consistent [login, apiKey, login] := by
  intro s hs t ht hid
  have hne : js "oidc" ≠ js "api-key" := by decide
  simp only [List.mem_cons, List.not_mem_nil, or_false] at hs ht
  rcases hs with rfl | rfl | rfl <;> rcases ht with rfl | rfl | rfl <;>
    first | rfl | exact absurd hid hne | exact absurd hid.symm hne

end Sample

section Order

variable {σ ε π : Type} {modules modules' : List (AuthenticationStrategy σ ε π)}
  {registry : Registry σ ε π}

end Order

section Deciding

variable {σ ε π : Type} {strategies : List (AuthenticationStrategy σ ε π)}
  {request : Request σ π}

/-- Every one of these strategies passes, and this is the world after them. -/
inductive Pass : List (AuthenticationStrategy σ ε π) → σ → σ → Prop
  | nil (world : σ) : Pass [] world world
  | cons {strategy : AuthenticationStrategy σ ε π} {rest : List (AuthenticationStrategy σ ε π)}
      {world next last : σ} (h : strategy.authenticate world = (.ok none, next))
      (hrest : Pass rest next last) : Pass (strategy :: rest) world last

/-- How the strategies decide: those before pass, one decides, and those after are not asked. -/
inductive Decided (strategies : List (AuthenticationStrategy σ ε π)) (request : Request σ π) :
    Except (Refusal ε) Bool × Request σ π → Prop
  | accepted {before after : List (AuthenticationStrategy σ ε π)}
      {strategy : AuthenticationStrategy σ ε π} {world last : σ} {principal : π}
      (hsplit : strategies = before ++ strategy :: after) (hpass : Pass before request.world world)
      (h : strategy.authenticate world = (.ok (some principal), last)) :
      Decided strategies request (.ok true, attach principal { request with world := last })
  | rejected {before after : List (AuthenticationStrategy σ ε π)}
      {strategy : AuthenticationStrategy σ ε π} {world last : σ} {error : ε}
      (hsplit : strategies = before ++ strategy :: after) (hpass : Pass before request.world world)
      (h : strategy.authenticate world = (.error error, last)) :
      Decided strategies request (.error (.thrown error), { request with world := last })
  | exhausted {world : σ} (hpass : Pass strategies request.world world) :
      Decided strategies request
        (.error (.UnauthorizedException (js "Unauthorized")), { request with world := world })

theorem Decided.cons {strategy : AuthenticationStrategy σ ε π} {world : σ}
    (h : strategy.authenticate request.world = (.ok none, world))
    {result : Except (Refusal ε) Bool × Request σ π}
    (hrest : Decided strategies { request with world := world } result) :
    Decided (strategy :: strategies) request result := by
  cases hrest with
  | accepted hsplit hpass hstrategy =>
    exact .accepted (by rw [hsplit, List.cons_append]) (.cons h hpass) hstrategy
  | rejected hsplit hpass hstrategy =>
    exact .rejected (by rw [hsplit, List.cons_append]) (.cons h hpass) hstrategy
  | exhausted hpass => exact .exhausted (.cons h hpass)

theorem decided_attempt (strategies : List (AuthenticationStrategy σ ε π)) (request : Request σ π) :
    Decided strategies request (attempt strategies request) := by
  induction strategies generalizing request with
  | nil => exact .exhausted (.nil _)
  | cons strategy rest ih =>
    rcases hanswer : strategy.authenticate request.world with ⟨answer, world⟩
    simp only [attempt, hanswer]
    cases answer with
    | error error => exact .rejected (List.nil_append _).symm (.nil _) hanswer
    | ok principal =>
      cases principal with
      | none => exact (ih _).cons hanswer
      | some principal => exact .accepted (List.nil_append _).symm (.nil _) hanswer

/-- The order in which a guard asks: by the kinds of the guard, and by id within a kind. -/
def AskedBefore (kinds : List AuthStrategyKind) (s t : AuthenticationStrategy σ ε π) : Prop :=
  kinds.idxOf s.kind < kinds.idxOf t.kind ∨ s.kind = t.kind ∧ s.id < t.id

theorem pairwise_list {registry : Registry σ ε π} (h : WellFormed registry)
    (kind : Option AuthStrategyKind) :
    (list registry kind).Pairwise fun s t => s.id < t.id := by
  have hsorted : (list registry kind).Pairwise fun s t => s.id ≤ t.id := sortBy_pairwise _ _
  have hids : ((list registry kind).map fun s => s.id).Nodup :=
    (((sortBy_perm _ _).map _).nodup_iff).mpr (h.ids.sublist (List.filter_sublist.map _))
  refine (hsorted.and (List.pairwise_map.mp hids)).imp fun hboth => ?_
  exact lt_of_le_of_ne hboth.1 hboth.2

theorem pairwise_asked {registry : Registry σ ε π} (h : WellFormed registry)
    {kinds : List AuthStrategyKind} (hkinds : kinds.Nodup) :
    (kinds.flatMap fun kind => list registry (some kind)).Pairwise (AskedBefore kinds) := by
  have hkind : ∀ {kind : AuthStrategyKind} {s : AuthenticationStrategy σ ε π},
      s ∈ list registry (some kind) → s.kind = kind := fun hs => (mem_list.mp hs).2 _ rfl
  refine List.pairwise_flatMap.mpr ⟨fun kind _ => ?_, ?_⟩
  · refine (pairwise_list h (some kind)).imp_of_mem fun hs ht hlt => .inr ⟨?_, hlt⟩
    rw [hkind hs, hkind ht]
  · rw [List.pairwise_iff_getElem]
    intro i j hi hj hij s hs t ht
    refine .inl ?_
    rw [hkind hs, hkind ht, List.Nodup.idxOf_getElem hkinds, List.Nodup.idxOf_getElem hkinds]
    exact hij

/-- What a guard of a booted app does: it asks the strategies of its kinds in their order until one
does not pass. -/
theorem canActivate_decided {modules : List (AuthenticationStrategy σ ε π)}
    {registry : Registry σ ε π} (hsame : Consistent modules) (h : boot modules = .ok registry)
    {kinds : List AuthStrategyKind} (hkinds : kinds.Nodup) (request : Request σ π) :
    ∃ strategies, (∀ s, s ∈ strategies ↔ s ∈ modules ∧ s.kind ∈ kinds) ∧
      strategies.Pairwise (AskedBefore kinds) ∧
      (strategies = [] → canActivate kinds registry request =
        (.error (noneRegistered kinds), request)) ∧
      (strategies ≠ [] → Decided strategies request (canActivate kinds registry request)) := by
  have hbooted := booted_of_boot h
  refine ⟨kinds.flatMap fun kind => list registry (some kind), fun s => ?_,
    pairwise_asked hbooted.toWellFormed hkinds, fun hnil => ?_, fun hne => ?_⟩
  · rw [← mem_of_booted hsame hbooted]
    simp only [List.mem_flatMap, mem_list, Option.mem_def, Option.some.injEq, forall_eq']
    constructor
    · rintro ⟨kind, hkind, hs, rfl⟩
      exact ⟨hs, hkind⟩
    · rintro ⟨hs, hkind⟩
      exact ⟨_, hkind, hs, rfl⟩
  · rw [canActivate, hnil]
  · have hattempt := decided_attempt (kinds.flatMap fun kind => list registry (some kind)) request
    unfold canActivate
    cases hlist : kinds.flatMap fun kind => list registry (some kind) with
    | nil => exact absurd hlist hne
    | cons strategy rest => rwa [hlist] at hattempt

theorem canActivate_decided_sample : ∃ strategies,
    (∀ s, s ∈ strategies ↔ s ∈ [login, apiKey, login] ∧ s.kind ∈ [.interactive, .machine]) ∧
      strategies.Pairwise (AskedBefore [.interactive, .machine]) ∧
      (strategies = [] →
        canActivate [.interactive, .machine] [login, apiKey] ⟨js "k", none, none⟩ =
          (.error (noneRegistered [.interactive, .machine]), ⟨js "k", none, none⟩)) ∧
      (strategies ≠ [] → Decided strategies ⟨js "k", none, none⟩
        (canActivate [.interactive, .machine] [login, apiKey] ⟨js "k", none, none⟩)) :=
  canActivate_decided consistent_sample rfl (by decide) _

end Deciding

end Appspine.AuthStrategies
