import Appspine.JsText
import Appspine.Transitions

/-!
# Multi-round tool calls

Tool calls of one MCP server, interleaved. The server keeps nothing between calls: what a handler
passes to `requestInput` goes to the client inside a sealed token, and a later call that echoes
the token is handed it back. The codec that seals is the SDK's, and a parameter here.
-/
namespace Appspine.Mcp
open JsText Transitions

/-- What a token seals. -/
structure McpMultiRoundStatePayload (D : Type) where
  round : ℕ
  data : D
  deriving DecidableEq

/-- The SDK's codec under one signing key. Beside the payload or the token it takes the bind
string of the request and the time. -/
structure RequestStateCodec (Token D : Type) where
  mint : McpMultiRoundStatePayload D → JsString → ℕ → Token
  verify : Token → JsString → ℕ → Option (McpMultiRoundStatePayload D)

/-- A token is good for what was sealed in it, under the bind value it was sealed with. -/
def RequestStateCodec.HonoursBind {Token D : Type} (codec : RequestStateCodec Token D) : Prop :=
  ∀ payload bind time opened bind' time',
    codec.verify (codec.mint payload bind time) bind' time' = some opened →
      opened = payload ∧ bind' = bind

/-- What is read of the SDK's `ServerContext`. -/
structure ServerContext (D V : Type) where
  method : JsString
  /-- The payload that the `requestState.verify` hook returned, when a token was echoed. -/
  requestState : Option (McpMultiRoundStatePayload D)
  inputResponses : Option (List (JsString × V))

inductive McpError where
  | maxRoundsRange
  | invalidRequestState
  | roundLimit (maxRounds : ℤ)
  | keyNotConfigured
  deriving DecidableEq

def McpError.message : McpError → JsString
  | .maxRoundsRange => js "requestState maxRounds must be a positive integer"
  | .invalidRequestState => js "Invalid requestState"
  | .roundLimit maxRounds => js s!"MCP requestState round limit exceeded (max {maxRounds})"
  | .keyNotConfigured =>
    js "ctx.mrtr.requestInput requires MCP_REQUEST_STATE_KEY to be configured for this app"

section Store

variable {Token D V : Type}

/-- A codec for the tokens of one caller. -/
structure McpRequestStateCodec (Token D : Type) where
  codec : RequestStateCodec Token D
  principal : JsString
  maxRounds : ℤ

/-- Re-entries of a flow that its store does not limit otherwise. -/
def defaultMaxRounds : ℤ := 8

def createMcpRequestStateStore (codec : RequestStateCodec Token D) (maxRounds : Option ℤ)
    (principal : JsString) : Except McpError (McpRequestStateCodec Token D) :=
  let maxRounds := maxRounds.getD defaultMaxRounds
  if maxRounds ≤ 0 then .error .maxRoundsRange
  else .ok ⟨codec, principal, maxRounds⟩

/-- `${ctx.mcpReq.method}\0${options.principal}`. -/
def bind (method principal : JsString) : JsString := method ++ 0 :: principal

def McpRequestStateCodec.verify (store : McpRequestStateCodec Token D) (token : Token)
    (method : JsString) (now : ℕ) : Except McpError (McpMultiRoundStatePayload D) :=
  match store.codec.verify token (bind method store.principal) now with
  | none => .error .invalidRequestState
  | some payload =>
    if (payload.round : ℤ) ≥ store.maxRounds then .error (.roundLimit store.maxRounds)
    else .ok payload

def McpRequestStateCodec.mint (store : McpRequestStateCodec Token D) (data : D)
    (method : JsString) (now : ℕ) : Token :=
  store.codec.mint ⟨0, data⟩ (bind method store.principal) now

def McpRequestStateCodec.mintNextRound (store : McpRequestStateCodec Token D) (data : D)
    (previousRound : ℕ) (method : JsString) (now : ℕ) : Except McpError Token :=
  let nextRound := previousRound + 1
  if (nextRound : ℤ) ≥ store.maxRounds then .error (.roundLimit store.maxRounds)
  else .ok (store.codec.mint ⟨nextRound, data⟩ (bind method store.principal) now)

/-- `ctx.mrtr.resumed`. -/
structure Resumed (D V : Type) where
  data : D
  round : ℕ
  inputResponses : List (JsString × V)
  deriving DecidableEq

/-- The half of `buildMrtrContext` that a handler reads. -/
def resumedOf (sdkCtx : ServerContext D V) : Option (Resumed D V) :=
  sdkCtx.requestState.map fun payload =>
    ⟨payload.data, payload.round, sdkCtx.inputResponses.getD []⟩

/-- The half of `buildMrtrContext` that a handler calls: the token of the result. -/
def requestInput (store : Option (McpRequestStateCodec Token D)) (resumedRound : Option ℕ)
    (data : D) (method : JsString) (now : ℕ) : Except McpError Token :=
  match store, resumedRound with
  | none, _ => .error .keyNotConfigured
  | some store, some round => store.mintNextRound data round method now
  | some store, none => .ok (store.mint data method now)

end Store

section Server

structure McpCallContext where
  scopes : List JsString
  /-- The id of the calling API key. -/
  sub : JsString
  deriving DecidableEq

structure McpToolDefinition where
  name : JsString
  requiredScopes : List JsString
  deriving DecidableEq

abbrev ScopeMatcher := List JsString → JsString → Bool

/-- `scope.split(':')`, as far as it is read. -/
def scopeParts (scope : JsString) : JsString × Option JsString :=
  let parts := breakAt (unit ':') scope
  (parts.1, parts.2.map fun rest => (breakAt (unit ':') rest).1)

def matchesScope (scopeMatcher : Option ScopeMatcher) (grantedScopes : List JsString)
    (requiredScope : JsString) : Bool :=
  match scopeMatcher with
  | some matcher => matcher grantedScopes requiredScope
  | none =>
    decide (js "*" ∈ grantedScopes) || grantedScopes.any fun g =>
      decide ((scopeParts g).1 = (scopeParts requiredScope).1) &&
        (decide ((scopeParts g).2 = some (js "*")) ||
          decide ((scopeParts g).2 = (scopeParts requiredScope).2))

/-- One server: the tools of its registry by name, and its codec when it has a signing key. -/
structure McpService (Token D : Type) where
  tools : List McpToolDefinition
  scopeMatcher : Option ScopeMatcher := none
  requestStateKey : Option (RequestStateCodec Token D)

variable {Token D V : Type}

def listTools (service : McpService Token D) (ctx : McpCallContext) : List McpToolDefinition :=
  service.tools.filter fun tool =>
    tool.requiredScopes.all (matchesScope service.scopeMatcher ctx.scopes)

/-- The codec that `createServer` builds for one request, with the default round limit. -/
def requestStateCodec (service : McpService Token D) (sub : JsString) :
    Option (McpRequestStateCodec Token D) :=
  service.requestStateKey.bind fun key => (createMcpRequestStateStore key none sub).toOption

structure ToolCall (Token V : Type) where
  ctx : McpCallContext
  name : JsString
  requestState : Option Token := none
  inputResponses : Option (List (JsString × V)) := none

/-- A call that reached the handler of its tool. -/
structure Invocation (D V : Type) where
  tool : JsString
  principal : JsString
  resumed : Option (Resumed D V)
  deriving DecidableEq

def toolsCall : JsString := js "tools/call"

/-- The verify hook, when the request echoes a token. -/
def verifyRequestState (service : McpService Token D) (request : ToolCall Token V) (now : ℕ) :
    Except McpError (Option (McpMultiRoundStatePayload D)) :=
  match request.requestState, requestStateCodec service request.ctx.sub with
  | none, _ => .ok none
  | some _, none => .error .invalidRequestState
  | some token, some store => (store.verify token toolsCall now).map some

/-- A `tools/call` request up to the handler, or nothing when it does not get there. -/
def callTool (service : McpService Token D) (request : ToolCall Token V) (now : ℕ) :
    Option (Invocation D V) := do
  let tool ← (listTools service request.ctx).find? (fun tool => decide (tool.name = request.name))
  let payload ← (verifyRequestState service request now).toOption
  pure ⟨tool.name, request.ctx.sub, resumedOf ⟨toolsCall, payload, request.inputResponses⟩⟩

end Server

section Runs

/-- A token that a `requestInput` call made. -/
structure Minted (Token D : Type) where
  /-- The place of the tool call in the log. -/
  call : ℕ
  data : D
  token : Token
  deriving DecidableEq

/-- The time, and the logs of the handlers that ran and of the tokens that were handed out. -/
structure McpState (Token D V : Type) where
  now : ℕ
  calls : List (Invocation D V) := []
  minted : List (Minted Token D) := []
  deriving DecidableEq

inductive Action (Token D V : Type) where
  | wait (seconds : ℕ)
  | call (request : ToolCall Token V)
  /-- The handler of a call, at any time after it started, passes `data` to `requestInput`. -/
  | requestInput (call : ℕ) (data : D)

variable {Token D V : Type} [DecidableEq Token]

/-- A token that verifies although it was never handed out. -/
def Forged (service : McpService Token D) (s : McpState Token D V) (request : ToolCall Token V) :
    Prop :=
  ∃ token ∈ request.requestState, token ∉ s.minted.map (·.token) ∧
    (verifyRequestState service request s.now).toOption ≠ none

instance (service : McpService Token D) (s : McpState Token D V) (request : ToolCall Token V) :
    Decidable (Forged service s request) :=
  decidable_of_iff (∃ token ∈ request.requestState.toList, token ∉ s.minted.map (·.token) ∧
    ((verifyRequestState service request s.now).toOption.isSome = true)) (by
      simp [Forged, Option.isSome_iff_ne_none])

/-- One step of the server and its clients. Forged tokens are beyond them. -/
def step (service : McpService Token D) (s : McpState Token D V) :
    Action Token D V → Option (McpState Token D V)
  | .wait seconds => some { s with now := s.now + seconds }
  | .call request =>
    if Forged service s request then none
    else match callTool service request s.now with
      | none => some s
      | some invocation => some { s with calls := s.calls ++ [invocation] }
  | .requestInput call data =>
    match s.calls[call]? with
    | none => none
    | some invocation =>
      match requestInput (requestStateCodec service invocation.principal)
          (invocation.resumed.map (·.round)) data toolsCall s.now with
      | .error _ => some s
      | .ok token => some { s with minted := s.minted ++ [⟨call, data, token⟩] }

end Runs

section Resuming

variable {Token D V : Type} {service : McpService Token D}

/-- The round in which the client answers what this call asks for. -/
def Invocation.nextRound (invocation : Invocation D V) : ℕ :=
  match invocation.resumed with
  | none => 0
  | some resumed => resumed.round + 1

/-- A resumed call has data that an earlier call of the same tool by the same principal passed
to `requestInput`, one round before. -/
def ResumesOwnCalls (s : McpState Token D V) : Prop :=
  ∀ (i : ℕ) (invocation : Invocation D V) (resumed : Resumed D V),
    s.calls[i]? = some invocation → invocation.resumed = some resumed →
      (resumed.round : ℤ) < defaultMaxRounds ∧
      ∃ (j : ℕ) (asked : Invocation D V), j < i ∧ s.calls[j]? = some asked ∧
        asked.tool = invocation.tool ∧ asked.principal = invocation.principal ∧
        (∃ minted ∈ s.minted, minted.call = j ∧ minted.data = resumed.data) ∧
        asked.nextRound = resumed.round

/-- A token that was handed out is echoed to a tool in whose calls it was. -/
def EchoesToItsTool (s : McpState Token D V) : Action Token D V → Prop
  | .call request => ∀ token ∈ request.requestState, token ∈ s.minted.map (·.token) →
      ∃ minted ∈ s.minted, minted.token = token ∧
        ∃ asked, s.calls[minted.call]? = some asked ∧ asked.tool = request.name
  | _ => True

/-- Every token that was handed out seals what one logged call asked for. -/
def Traced (service : McpService Token D) (s : McpState Token D V) : Prop :=
  ∀ minted ∈ s.minted, ∃ asked codec time, s.calls[minted.call]? = some asked ∧
    service.requestStateKey = some codec ∧
    minted.token = codec.mint ⟨asked.nextRound, minted.data⟩ (bind toolsCall asked.principal) time

lemma bind_inj {method principal principal' : JsString}
    (h : bind method principal = bind method principal') : principal = principal' := by
  have htail : (0 : CodeUnit) :: principal = 0 :: principal' := List.append_cancel_left h
  exact (List.cons.inj htail).2

lemma requestStateCodec_eq (service : McpService Token D) (sub : JsString) :
    requestStateCodec service sub =
      service.requestStateKey.map (fun codec => ⟨codec, sub, defaultMaxRounds⟩) := by
  unfold requestStateCodec
  cases service.requestStateKey with
  | none => rfl
  | some codec => rfl

lemma verifyRequestState_cases {request : ToolCall Token V} {now : ℕ}
    {payload : McpMultiRoundStatePayload D}
    (h : verifyRequestState service request now = .ok (some payload)) :
    ∃ codec token, service.requestStateKey = some codec ∧ request.requestState = some token ∧
      codec.verify token (bind toolsCall request.ctx.sub) now = some payload ∧
      (payload.round : ℤ) < defaultMaxRounds := by
  unfold verifyRequestState at h
  rw [requestStateCodec_eq] at h
  cases htoken : request.requestState with
  | none => simp [htoken] at h
  | some token =>
    cases hkey : service.requestStateKey with
    | none => simp [htoken, hkey] at h
    | some codec =>
      simp only [htoken, hkey, Option.map_some, McpRequestStateCodec.verify] at h
      cases hverify : codec.verify token (bind toolsCall request.ctx.sub) now with
      | none => simp [hverify, Except.map] at h
      | some opened =>
        simp only [hverify] at h
        split_ifs at h with hround
        · simp [Except.map] at h
        · obtain rfl : opened = payload := by simpa [Except.map] using h
          exact ⟨codec, token, rfl, rfl, hverify, by omega⟩

/-- What a call that reached its handler says about the request. -/
lemma callTool_cases {request : ToolCall Token V} {now : ℕ} {invocation : Invocation D V}
    (h : callTool service request now = some invocation) :
    invocation.tool = request.name ∧ invocation.principal = request.ctx.sub ∧
      ∃ payload, verifyRequestState service request now = .ok payload ∧
        invocation.resumed = resumedOf ⟨toolsCall, payload, request.inputResponses⟩ := by
  unfold callTool at h
  obtain ⟨tool, htool, h⟩ := Option.bind_eq_some_iff.mp h
  obtain ⟨payload, hpayload, h⟩ := Option.bind_eq_some_iff.mp h
  obtain rfl := Option.some.inj h
  have hname := List.find?_some htool
  refine ⟨by simpa using hname, rfl, payload, ?_, rfl⟩
  cases hverify : verifyRequestState service request now with
  | error error => simp [hverify, Except.toOption] at hpayload
  | ok verified =>
    obtain rfl : verified = payload := by simpa [hverify, Except.toOption] using hpayload
    rfl

lemma requestInput_cases {invocation : Invocation D V} {data : D} {now : ℕ} {token : Token}
    (h : requestInput (requestStateCodec service invocation.principal)
      (invocation.resumed.map (·.round)) data toolsCall now = .ok token) :
    ∃ codec, service.requestStateKey = some codec ∧
      token = codec.mint ⟨invocation.nextRound, data⟩ (bind toolsCall invocation.principal) now := by
  rw [requestStateCodec_eq] at h
  cases hkey : service.requestStateKey with
  | none => simp [hkey, requestInput] at h
  | some codec =>
    refine ⟨codec, rfl, ?_⟩
    unfold Invocation.nextRound
    cases hresumed : invocation.resumed with
    | none =>
      simp only [hkey, hresumed, Option.map_some, Option.map_none, requestInput,
        McpRequestStateCodec.mint] at h
      exact (Except.ok.inj h).symm
    | some resumed =>
      simp only [hkey, hresumed, Option.map_some, requestInput,
        McpRequestStateCodec.mintNextRound] at h
      split_ifs at h
      exact (Except.ok.inj h).symm

variable [DecidableEq Token] {s t : McpState Token D V}

/-- What a step does to the logs. -/
lemma step_cases {a : Action Token D V} (h : step service s a = some t) :
    (t.calls = s.calls ∧ t.minted = s.minted) ∨
    (∃ request invocation, a = .call request ∧ ¬ Forged service s request ∧
      callTool service request s.now = some invocation ∧
      t.calls = s.calls ++ [invocation] ∧ t.minted = s.minted) ∨
    (∃ call data asked token, s.calls[call]? = some asked ∧
      requestInput (requestStateCodec service asked.principal) (asked.resumed.map (·.round)) data
        toolsCall s.now = .ok token ∧
      t.calls = s.calls ∧ t.minted = s.minted ++ [⟨call, data, token⟩]) := by
  cases a with
  | wait seconds => exact .inl (Option.some.inj h ▸ ⟨rfl, rfl⟩)
  | call request =>
    simp only [step] at h
    split_ifs at h with hforged
    cases hcall : callTool service request s.now with
    | none =>
      rw [hcall] at h
      exact .inl (Option.some.inj h ▸ ⟨rfl, rfl⟩)
    | some invocation =>
      rw [hcall] at h
      exact .inr (.inl ⟨request, invocation, rfl, hforged, hcall, Option.some.inj h ▸ ⟨rfl, rfl⟩⟩)
  | requestInput call data =>
    simp only [step] at h
    cases hasked : s.calls[call]? with
    | none => simp [hasked] at h
    | some asked =>
      simp only [hasked] at h
      cases htoken : requestInput (requestStateCodec service asked.principal)
          (asked.resumed.map (·.round)) data toolsCall s.now with
      | error error =>
        rw [htoken] at h
        exact .inl (Option.some.inj h ▸ ⟨rfl, rfl⟩)
      | ok token =>
        rw [htoken] at h
        exact .inr (.inr ⟨call, data, asked, token, hasked, htoken, Option.some.inj h ▸ ⟨rfl, rfl⟩⟩)

lemma getElem?_append_of_some {α : Type} {l l' : List α} {i : ℕ} {a : α} (h : l[i]? = some a) :
    (l ++ l')[i]? = some a := by
  have hi : i < l.length := (List.getElem?_eq_some_iff.mp h).1
  rw [List.getElem?_append_left hi, h]

lemma traced_step {a : Action Token D V} (hs : Traced service s) (h : step service s a = some t) :
    Traced service t := by
  intro minted hminted
  obtain ⟨hcalls, htokens⟩ | ⟨request, invocation, rfl, -, -, hcalls, htokens⟩ |
    ⟨call, data, asked, token, hasked, htoken, hcalls, htokens⟩ := step_cases h
  · rw [htokens] at hminted
    rw [hcalls]
    exact hs minted hminted
  · rw [htokens] at hminted
    obtain ⟨asked, codec, time, hasked, hrest⟩ := hs minted hminted
    exact ⟨asked, codec, time, hcalls ▸ getElem?_append_of_some hasked, hrest⟩
  · rw [hcalls]
    rw [htokens, List.mem_append, List.mem_singleton] at hminted
    obtain hminted | rfl := hminted
    · exact hs minted hminted
    · obtain ⟨codec, hkey, htoken⟩ := requestInput_cases htoken
      exact ⟨asked, codec, s.now, hasked, hkey, htoken⟩

/-- A token that got through was handed out, and carries what its call asked for. -/
lemma resumed_traced (hcodec : ∀ codec ∈ service.requestStateKey, codec.HonoursBind)
    (hs : Traced service s) {request : ToolCall Token V} {invocation : Invocation D V}
    {resumed : Resumed D V} (hforged : ¬ Forged service s request)
    (hcall : callTool service request s.now = some invocation)
    (hresumed : invocation.resumed = some resumed) :
    (resumed.round : ℤ) < defaultMaxRounds ∧
      ∃ token ∈ request.requestState, token ∈ s.minted.map (·.token) ∧
        ∀ minted ∈ s.minted, minted.token = token → ∃ asked, s.calls[minted.call]? = some asked ∧
          asked.principal = invocation.principal ∧ minted.data = resumed.data ∧
          asked.nextRound = resumed.round := by
  obtain ⟨-, hprincipal, payload, hpayload, hpassed⟩ := callTool_cases hcall
  cases payload with
  | none =>
    rw [hpassed] at hresumed
    simp [resumedOf] at hresumed
  | some payload =>
    obtain ⟨codec, token, hkey, htoken, hverify, hround⟩ := verifyRequestState_cases hpayload
    obtain rfl : _ = resumed := Option.some.inj (hpassed ▸ hresumed)
    have hminted : token ∈ s.minted.map (·.token) := by
      by_contra hnot
      exact hforged ⟨token, htoken, hnot, by simp [hpayload, Except.toOption]⟩
    refine ⟨hround, token, htoken, hminted, fun minted hmem heq => ?_⟩
    obtain ⟨asked, codec', time, hasked, hkey', hseal⟩ := hs minted hmem
    obtain rfl : codec = codec' := Option.some.inj (hkey.symm.trans hkey')
    rw [← heq, hseal] at hverify
    obtain ⟨rfl, hbind⟩ := hcodec codec hkey _ _ _ _ _ _ hverify
    exact ⟨asked, hasked, by rw [hprincipal, bind_inj hbind], rfl, rfl⟩

omit [DecidableEq Token] in
/-- More calls and more tokens take nothing from the calls there are. -/
lemma ResumesOwnCalls.mono (hs : ResumesOwnCalls s) {calls : List (Invocation D V)}
    {tokens : List (Minted Token D)} (hcalls : t.calls = s.calls ++ calls)
    (htokens : t.minted = s.minted ++ tokens) {i : ℕ} {invocation : Invocation D V}
    {resumed : Resumed D V} (hcall : s.calls[i]? = some invocation)
    (hresumed : invocation.resumed = some resumed) :
    (resumed.round : ℤ) < defaultMaxRounds ∧
      ∃ (j : ℕ) (asked : Invocation D V), j < i ∧ t.calls[j]? = some asked ∧
        asked.tool = invocation.tool ∧ asked.principal = invocation.principal ∧
        (∃ minted ∈ t.minted, minted.call = j ∧ minted.data = resumed.data) ∧
        asked.nextRound = resumed.round := by
  obtain ⟨hround, j, asked, hlt, hasked, htool, hprincipal, ⟨minted, hmem, hminted⟩, hnext⟩ :=
    hs i invocation resumed hcall hresumed
  refine ⟨hround, j, asked, hlt, ?_, htool, hprincipal, ⟨minted, ?_, hminted⟩, hnext⟩
  · rw [hcalls]
    exact getElem?_append_of_some hasked
  · rw [htokens]
    exact List.mem_append_left tokens hmem

lemma resumes_step (hcodec : ∀ codec ∈ service.requestStateKey, codec.HonoursBind)
    {a : Action Token D V} (htraced : Traced service s) (hs : ResumesOwnCalls s)
    (hecho : EchoesToItsTool s a) (h : step service s a = some t) : ResumesOwnCalls t := by
  intro i invocation resumed hi hresumed
  obtain ⟨hcalls, htokens⟩ | ⟨request, started, rfl, hforged, hcall, hcalls, htokens⟩ |
    ⟨call, data, asked, token, -, -, hcalls, htokens⟩ := step_cases h
  · have hold : s.calls[i]? = some invocation := hcalls ▸ hi
    exact hs.mono (hcalls.trans (List.append_nil _).symm) (htokens.trans (List.append_nil _).symm)
      hold hresumed
  · rcases Nat.lt_or_ge i s.calls.length with hlt | hge
    · have hold : s.calls[i]? = some invocation := by
        rwa [hcalls, List.getElem?_append_left hlt] at hi
      exact hs.mono hcalls (htokens.trans (List.append_nil _).symm) hold hresumed
    · -- the call of this step
      obtain rfl : started = invocation := by
        rw [hcalls, List.getElem?_append_right hge] at hi
        have hmem : invocation ∈ [started] := List.mem_of_getElem? hi
        exact (List.mem_singleton.mp hmem).symm
      obtain ⟨hround, token, htoken, hhanded, hsealed⟩ :=
        resumed_traced hcodec htraced hforged hcall hresumed
      obtain ⟨minted, hmem, heq, asked, hasked, htool⟩ := hecho token htoken hhanded
      obtain ⟨asked', hasked', hprincipal, hdata, hnext⟩ := hsealed minted hmem heq
      obtain rfl : asked = asked' := Option.some.inj (hasked.symm.trans hasked')
      have hj : minted.call < s.calls.length := (List.getElem?_eq_some_iff.mp hasked).1
      refine ⟨hround, minted.call, asked, by omega, ?_, ?_, hprincipal, ⟨minted, ?_, rfl, hdata⟩,
        hnext⟩
      · rw [hcalls]
        exact getElem?_append_of_some hasked
      · rw [htool, (callTool_cases hcall).1]
      · rw [htokens]
        exact hmem
  · have hold : s.calls[i]? = some invocation := hcalls ▸ hi
    exact hs.mono (hcalls.trans (List.append_nil _).symm) htokens hold hresumed

/-- In a run whose clients echo tokens only to the tools they come from, every resumed handler
has the data that its own tool asked the same principal about one round before. -/
theorem handlers_resume_own_calls (service : McpService Token D)
    (hcodec : ∀ codec ∈ service.requestStateKey, codec.HonoursBind) (now : ℕ)
    (as : List (Action Token D V))
    (h : Steps (step service) EchoesToItsTool (⟨now, [], []⟩ : McpState Token D V) as) :
    Throughout (step service) ResumesOwnCalls (⟨now, [], []⟩ : McpState Token D V) as := by
  have hinv : Throughout (step service) (fun s => Traced service s ∧ ResumesOwnCalls s)
      (⟨now, [], []⟩ : McpState Token D V) as := by
    refine throughout_of_steps (fun s a t hs hecho hstep => ?_) ⟨?_, ?_⟩ h
    · exact ⟨traced_step hs.1 hstep, resumes_step hcodec hs.1 hs.2 hecho hstep⟩
    · intro minted hminted
      exact absurd hminted (List.not_mem_nil)
    · intro i invocation resumed hi
      simp at hi
  exact hinv.mono fun s hs => hs.2

end Resuming

section OtherTools

/-- A codec whose tokens show what they seal. -/
def plainCodec : RequestStateCodec (McpMultiRoundStatePayload ℕ × JsString × ℕ) ℕ where
  mint payload bind now := (payload, bind, now + 600)
  verify token bind now := if token.2.1 = bind ∧ now ≤ token.2.2 then some token.1 else none

lemma plainCodec_honoursBind : plainCodec.HonoursBind := by
  intro payload bind time opened bind' time' h
  simp only [plainCodec] at h
  split_ifs at h with hbind
  exact ⟨(Option.some.inj h).symm, hbind.1.symm⟩

def twoTools : McpService (McpMultiRoundStatePayload ℕ × JsString × ℕ) ℕ where
  tools := [⟨js "delete_page", []⟩, ⟨js "pay", []⟩]
  requestStateKey := some plainCodec

abbrev PlainState := McpState (McpMultiRoundStatePayload ℕ × JsString × ℕ) ℕ Unit

def deletePageToken : McpMultiRoundStatePayload ℕ × JsString × ℕ :=
  (⟨0, 7⟩, bind toolsCall (js "key-1"), 600)

/-- A call of `delete_page` has asked with `7`. -/
def askedState : PlainState where
  now := 0
  calls := [⟨js "delete_page", js "key-1", none⟩]
  minted := [⟨0, 7, deletePageToken⟩]

/-- The token of `delete_page` was echoed to a tool. -/
def echoedState (tool : JsString) : PlainState :=
  { askedState with calls := askedState.calls ++ [⟨tool, js "key-1", some ⟨7, 0, []⟩⟩] }

/-- A call of `delete_page` asks, and its token is echoed to a tool. -/
def askAndEcho (tool : JsString) :
    List (Action (McpMultiRoundStatePayload ℕ × JsString × ℕ) ℕ Unit) :=
  [.call ⟨⟨[], js "key-1"⟩, js "delete_page", none, none⟩, .requestInput 0 7,
    .call ⟨⟨[], js "key-1"⟩, tool, some deletePageToken, none⟩]

theorem handlers_resume_own_calls_echoed :
    run (step twoTools) (⟨0, [], []⟩ : PlainState) (askAndEcho (js "delete_page")) =
        some (echoedState (js "delete_page")) ∧
      Throughout (step twoTools) ResumesOwnCalls ⟨0, [], []⟩ (askAndEcho (js "delete_page")) := by
  have hstart : run (step twoTools) (⟨0, [], []⟩ : PlainState)
      ((askAndEcho (js "delete_page")).take 2) = some askedState := by decide +kernel
  refine ⟨by decide +kernel, handlers_resume_own_calls twoTools ?_ 0 _ ?_⟩
  · intro codec hcodec
    obtain rfl : plainCodec = codec := Option.some.inj hcodec
    exact plainCodec_honoursBind
  · refine ⟨fun token htoken => (nomatch htoken), fun called hcalled => ⟨trivial, fun s hs => ?_⟩⟩
    obtain rfl : s = askedState := by
      have hrun : run (step twoTools) (⟨0, [], []⟩ : PlainState)
          ((askAndEcho (js "delete_page")).take 2) = some s :=
        run_cons.mpr ⟨called, hcalled, run_cons.mpr ⟨s, hs, rfl⟩⟩
      exact Option.some.inj (hrun.symm.trans hstart)
    refine ⟨fun token htoken _ => ?_, fun _ _ => trivial⟩
    obtain rfl : deletePageToken = token := Option.some.inj htoken
    exact ⟨⟨0, 7, deletePageToken⟩, List.mem_singleton.mpr rfl, rfl, _, rfl, rfl⟩

/-- The token of `delete_page` resumes `pay`, which never asked for anything. -/
theorem token_resumes_other_tool :
    ¬ ∀ s, run (step twoTools) (⟨0, [], []⟩ : PlainState) (askAndEcho (js "pay")) = some s →
      ResumesOwnCalls s := by
  intro h
  have hrun : run (step twoTools) (⟨0, [], []⟩ : PlainState) (askAndEcho (js "pay")) =
      some (echoedState (js "pay")) := by decide +kernel
  obtain ⟨-, j, asked, hlt, hasked, htool, -⟩ := h _ hrun 1 _ _ rfl rfl
  obtain rfl : j = 0 := by omega
  obtain rfl := Option.some.inj hasked
  exact absurd htool (by decide +kernel)

end OtherTools

end Appspine.Mcp
