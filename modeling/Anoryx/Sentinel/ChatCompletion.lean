import Anoryx.PyJson.Unpaired
import Anoryx.Raising

/-!
# Anoryx.Sentinel.ChatCompletion

The handler of `POST /v1/chat/completions` (`gateway/routes/chat_completions.py`), with
its request model (`gateway/models.py`), the error table (`gateway/exceptions.py`) and
the terminal record (`emit_terminal_record` of `gateway/middleware/audit.py`).

A body is what `json.loads` makes of the raw bytes, and a step outside these files (the
tenant context, the rate limiter, the hooks, the router) comes as the outcome that it
has: its result, or what it raises.  Neither the headers that a response carries beside
the rate limit's nor the metrics' values are part of the model.
-/

namespace Anoryx.Sentinel.Gateway

open PyJson Raising

/-! ## the request model -/

/-- The numbers of a body, as Python's `bool` and pydantic's lax mode take them. -/
class LaxNumbers (F : Type) where
  isZero : F → Bool
  isOne : F → Bool
  isZero_of_isOne : ∀ x, isOne x = true → isZero x = false
  /-- the integer that a number is -/
  intOfFloat : F → Option Int
  /-- the integer that a text spells -/
  intOfStr : PyStr → Option Int
  /-- the number that an integer or a text is -/
  floatOfInt : Int → F
  floatOfStr : PyStr → Option F
  /-- `ge=0.0` and `le` -/
  within : Nat → F → Bool

inductive Role
  | system
  | user
  | assistant
  | tool
deriving DecidableEq

structure ChatMessage where
  role : Role
  content : PyStr
  name : Option PyStr
deriving DecidableEq

inductive Stop
  | text (s : PyStr)
  | texts (ss : List PyStr)
deriving DecidableEq

structure CreateChatCompletionRequest (F : Type) where
  model : PyStr
  messages : List ChatMessage
  stream : Bool
  temperature : Option F
  topP : Option F
  n : Int
  maxTokens : Option Int
  stop : Option Stop
  user : Option PyStr

section Validation

variable {F α : Type} [LaxNumbers F]

/-- `str` with `max_length`; a text that cannot be encoded is none. -/
def strField (maxLength : Nat) : PyValue F → Option PyStr
  | .str s => if s.encode.isSome ∧ s.length ≤ maxLength then some s else none
  | _ => none

def asciiLower (c : CodePoint) : CodePoint := if 0x41 ≤ c ∧ c ≤ 0x5a then c + 0x20 else c

def spells (s : PyStr) (words : List String) : Bool :=
  words.any fun word => s.points.map asciiLower = (PyStr.ofString word).points

/-- `bool`, in lax mode -/
def boolField : PyValue F → Option Bool
  | .bool b => some b
  | .int n => if n = 1 then some true else if n = 0 then some false else none
  | .float x => if LaxNumbers.isOne x then some true else if LaxNumbers.isZero x then some false else none
  | .str s =>
      if spells s ["1", "on", "t", "true", "y", "yes"] then some true
      else if spells s ["0", "off", "f", "false", "n", "no"] then some false
      else none
  | _ => none

/-- `int` with `ge` and `le`, in lax mode -/
def intField (ge le : Int) (v : PyValue F) : Option Int :=
  let value := match v with
    | .int n => some n
    | .bool b => some (if b then 1 else 0)
    | .float x => LaxNumbers.intOfFloat x
    | .str s => LaxNumbers.intOfStr F s
    | _ => none
  value.filter fun n => ge ≤ n ∧ n ≤ le

/-- `float` with `ge=0.0` and `le`, in lax mode -/
def floatField (le : Nat) (v : PyValue F) : Option F :=
  let value := match v with
    | .int n => some (LaxNumbers.floatOfInt n)
    | .bool b => some (LaxNumbers.floatOfInt (if b then 1 else 0))
    | .float x => some x
    | .str s => LaxNumbers.floatOfStr s
    | _ => none
  value.filter (LaxNumbers.within le)

/-- A field that may be `None`, and is by default -/
def optional (field : PyValue F → Option α) : Option (PyValue F) → Option (Option α)
  | none | some .null => some none
  | some v => (field v).map some

def withDefault (default : α) (field : PyValue F → Option α) : Option (PyValue F) → Option α
  | none => some default
  | some v => field v

/-- `extra="forbid"` -/
def closed (names : List String) (members : List (PyStr × PyValue F)) : Bool :=
  members.all fun p => p.1 ∈ names.map PyStr.ofString

def item (name : String) (members : List (PyStr × PyValue F)) : Option (PyValue F) :=
  pyItem (PyStr.ofString name) members

def roleField : PyValue F → Option Role
  | .str s =>
      if s = PyStr.ofString "system" then some .system
      else if s = PyStr.ofString "user" then some .user
      else if s = PyStr.ofString "assistant" then some .assistant
      else if s = PyStr.ofString "tool" then some .tool
      else none
  | _ => none

def ChatMessage.validate : PyValue F → Option ChatMessage
  | .obj members => do
      guard (closed ["role", "content", "name"] members)
      let role ← (item "role" members).bind roleField
      let content ← (item "content" members).bind (strField 131072)
      let name ← optional (strField 256) (item "name" members)
      some ⟨role, content, name⟩
  | _ => none

def messagesField : PyValue F → Option (List ChatMessage)
  | .arr items => if 1 ≤ items.length ∧ items.length ≤ 256 then items.mapM ChatMessage.validate else none
  | _ => none

def stopField : PyValue F → Option Stop
  | .arr items => if items.length ≤ 4 then (items.mapM (strField 256)).map .texts else none
  | v => (strField 256 v).map .text

/-- `CreateChatCompletionRequest(**body_dict)`; what is no mapping is a `TypeError`. -/
def CreateChatCompletionRequest.validate : PyValue F → Option (CreateChatCompletionRequest F)
  | .obj members => do
      guard (closed ["model", "messages", "stream", "temperature", "top_p", "n", "max_tokens", "stop", "user"] members)
      let model ← (item "model" members).bind (strField 256)
      let messages ← (item "messages" members).bind messagesField
      let stream ← withDefault false boolField (item "stream" members)
      let temperature ← optional (floatField 2) (item "temperature" members)
      let topP ← optional (floatField 1) (item "top_p" members)
      let n ← withDefault 1 (intField 1 8) (item "n" members)
      let maxTokens ← optional (intField 1 131072) (item "max_tokens" members)
      let stop ← optional stopField (item "stop" members)
      let user ← optional (strField 256) (item "user" members)
      some { model, messages, stream, temperature, topP, n, maxTokens, stop, user }
  | _ => none

end Validation

/-! ## the stream flag -/

/-- A body: there are no bytes, `json.loads` raises, or it gives a value. -/
inductive RawBody (F : Type)
  | empty
  | malformed
  | json (v : PyValue F)

section Peek

variable {F : Type} [LaxNumbers F]

/-- `bool(v)` -/
def truthy : PyValue F → Bool
  | .null => false
  | .bool b => b
  | .int n => n ≠ 0
  | .float x => !LaxNumbers.isZero x
  | .str s => s.points ≠ []
  | .arr items => items.length ≠ 0
  | .obj members => members.length ≠ 0

/-- `_peek_stream_flag`; what has no `get` raises, and is no stream. -/
def peekStreamFlag : RawBody F → Bool
  | .json (.obj members) => ((item "stream" members).map truthy).getD false
  | _ => false

theorem not_spells_nil {words : List String} (h : ∀ word ∈ words, (PyStr.ofString word).points ≠ []) :
    spells ⟨[]⟩ words = false := by
  rw [spells, List.any_eq_false]
  intro word hword hspelt
  exact h word hword (of_decide_eq_true hspelt).symm

theorem truthy_of_boolField {v : PyValue F} (h : boolField v = some true) : truthy v = true := by
  cases v with
  | null => simp [boolField] at h
  | bool b => simpa [boolField, truthy] using h
  | int n =>
      have hn : n = 1 := by
        by_contra hne
        by_cases hzero : n = 0 <;> simp [boolField, hne, hzero] at h
      simp [truthy, hn]
  | float x =>
      have hone : LaxNumbers.isOne x = true := by
        by_contra hne
        by_cases hzero : LaxNumbers.isZero x = true <;> simp [boolField, hne, hzero] at h
      simp [truthy, LaxNumbers.isZero_of_isOne x hone]
  | str s =>
      have hne : s.points ≠ [] := by
        intro hnil
        have hempty : s = ⟨[]⟩ := by
          cases s
          simpa using hnil
        rw [hempty] at h
        rw [boolField, not_spells_nil (by decide), not_spells_nil (by decide)] at h
        contradiction
      simpa [truthy] using hne
  | arr items => simp [boolField] at h
  | obj members => simp [boolField] at h

theorem peekStreamFlag_of_validate {v : PyValue F} {body : CreateChatCompletionRequest F}
    (h : CreateChatCompletionRequest.validate v = some body) (hstream : body.stream = true) :
    peekStreamFlag (.json v) = true := by
  cases v with
  | obj members =>
      simp only [CreateChatCompletionRequest.validate, Option.bind_eq_bind, Option.bind_eq_some_iff, Option.some.injEq] at h
      obtain ⟨_, _, model, _, messages, _, stream, hfield, _, _, _, _, _, _, _, _, _, _, _, _, rfl⟩ := h
      obtain rfl : stream = true := hstream
      cases hitem : item "stream" members with
      | none => simp [hitem, withDefault] at hfield
      | some v =>
          rw [hitem] at hfield
          simp [peekStreamFlag, hitem, truthy_of_boolField hfield]
  | _ => contradiction

end Peek

/-! ## errors -/

/-- The codes of `ERROR_TABLE` -/
inductive ErrorCode
  | missingRequiredHeader
  | invalidRequest
  | requestTooLarge
  | invalidApiKey
  | idContextMismatch
  | policyBlocked
  | rateLimitExceeded
  | notFound
  | internalError
deriving DecidableEq

def ErrorCode.status : ErrorCode → Nat
  | .missingRequiredHeader | .invalidRequest => 400
  | .requestTooLarge => 413
  | .invalidApiKey => 401
  | .idContextMismatch | .policyBlocked => 403
  | .rateLimitExceeded => 429
  | .notFound => 404
  | .internalError => 500

/-- What a step raises: a `GatewayError`, an error of the hooks, one of the database's
that the egress monitor is allowed to have, a `TypeError` or `ValueError`, or another. -/
inductive Raised
  | gateway (errorCode : ErrorCode) (retryAfter : Option Nat)
  | hookFailSafe
  | hookBlocked
  | database
  | value
  | other
deriving DecidableEq

/-! ## the terminal record -/

structure TenantContext where
  tenantId : String
  teamId : String
  projectId : String
  agentId : String
  virtualKeyId : String
deriving DecidableEq

/-- A usage event, without its id, its times and the estimate of its cost. -/
structure UsageEvent where
  requestId : String
  tenantId : String
  teamId : String
  projectId : String
  agentId : String
  model : PyStr
  tokensIn : Int
  tokensOut : Int
deriving DecidableEq

def maxTokens : Int := 10000000

def clamp (value low high : Int) : Int := max low (min high value)

def zeroUuid : String := "00000000-0000-0000-0000-000000000000"

def buildUsageEvent (requestId : String) (context : Option TenantContext) (model : PyStr) (tokensIn tokensOut : Int) :
    UsageEvent :=
  { requestId
    tenantId := (context.map (·.tenantId)).getD zeroUuid
    teamId := (context.map (·.teamId)).getD zeroUuid
    projectId := (context.map (·.projectId)).getD zeroUuid
    agentId := (context.map (·.agentId)).getD "gateway-core"
    model := if model.points = [] then PyStr.ofString "unknown" else ⟨model.points.take 256⟩
    tokensIn := clamp tokensIn 0 maxTokens
    tokensOut := clamp tokensOut 0 maxTokens }

/-- What becomes of an append: it is done, it raises and nothing is appended, or it
raises when the record is committed. -/
inductive AppendFate
  | appended
  | failed
  | unacknowledged
deriving DecidableEq

/-- The headers of the rate limit -/
structure RateHeaders where
  limit : Int
  remaining : Int
  reset : Int
deriving DecidableEq

/-- A request on its way: what the handler and `request.state` know of it, the records
that are appended for it, and the slots for streams that it has taken and given back. -/
structure RequestState where
  tenantContext : Option TenantContext
  model : PyStr
  limits : RateHeaders
  auditEmitted : Bool
  attempts : Nat
  records : List UsageEvent
  taken : Nat
  released : Nat

abbrev Handler := Prog Raised RequestState

structure GatewaySettings where
  rateLimitRpm : Int
  maxTokensPerRequest : Int

/-- How the iteration of a stream's body ends. -/
inductive StreamExit
  | exhausted
  | blocked
  | raised (e : Raised)
  | cancelled

/-- The iteration of a stream's body, with the tokens that were counted. -/
structure Iteration where
  tokensIn : Int
  tokensOut : Int
  exit : StreamExit

/-- A request, with the outcomes of its steps; `iteration` is `none` if the response is
dropped before its body is iterated. -/
structure ChatCall (F : Type) where
  requestId : String
  rawBody : RawBody F
  /-- whether there are hooks -/
  registry : Except Raised Bool
  context : Except Raised TenantContext
  egress : Except Raised Unit
  admission : Except Raised RateHeaders
  providers : Except Raised Unit
  preRequest : PyStr → Except Raised PyStr
  preflight : Except Raised Unit
  /-- the tokens of the completion -/
  route : CreateChatCompletionRequest F → Except Raised (Int × Int)
  postHooks : Except Raised Unit
  serialize : Except Raised String
  dataLock : String → Except Raised String
  deferred : Except Raised Unit
  metrics : Bool
  iteration : Option Iteration
  /-- what becomes of the appends, one after the other -/
  fates : Nat → AppendFate

/-- A `GatewayError` without a `retry_after` -/
def gatewayError (errorCode : ErrorCode) : Raised := .gateway errorCode none

def RequestState.appended (s : RequestState) (fate : AppendFate) (event : UsageEvent) : RequestState :=
  { s with
    attempts := s.attempts + 1
    records := if fate = .failed then s.records else s.records ++ [event] }

/-- `emit_terminal_record`; the fates are those of the appends of a request, in order. -/
def emitTerminalRecord (requestId : String) (fates : Nat → AppendFate) (tokensIn tokensOut : Int) : Handler Unit := do
  let s ← get
  modify fun s =>
    s.appended (fates s.attempts) (buildUsageEvent requestId s.tenantContext s.model tokensIn tokensOut)
  Prog.ofExcept (if fates s.attempts = .appended then .ok () else .error (gatewayError .internalError))

section Handler

variable {F : Type} [LaxNumbers F] (settings : GatewaySettings) (call : ChatCall F)

/-! ## the handler -/

/-- `except HookFailSafeError` and `except HookBlockedError` -/
def hookError : Raised → Raised
  | .hookFailSafe => gatewayError .internalError
  | .hookBlocked => gatewayError .policyBlocked
  | e => e

def guarded {α : Type} (x : Except Raised α) : Handler α := Prog.ofExcept (x.mapError hookError)

/-- The errors of the database that the egress binding may have are logged. -/
def bindEgressContext : Except Raised Unit :=
  match call.egress with
  | .error .database => .ok ()
  | x => x

/-- The hook registry and step 5 -/
def enter : Handler Bool := do
  let hooks ← Prog.ofExcept (call.registry.mapError fun _ => gatewayError .internalError)
  let context ← Prog.ofExcept call.context
  modify fun s => { s with tenantContext := some context }
  Prog.ofExcept (bindEgressContext call)
  pure hooks

/-- Step 6: `check_rate_limit` takes a slot for what it is told is a stream. -/
def checkRateLimit : Handler Unit := do
  let limits ← Prog.ofExcept call.admission
  modify fun s => { s with limits, taken := s.taken + (peekStreamFlag call.rawBody).toNat }

/-- What precedes the body's validation; the answer is whether there are hooks. -/
def wayIn : Handler Bool := do
  let hooks ← enter call
  checkRateLimit call
  pure hooks

/-- Step 7 -/
def validated : Except Raised (CreateChatCompletionRequest F) :=
  match call.rawBody with
  | .json v => ((CreateChatCompletionRequest.validate v).map .ok).getD (.error (gatewayError .invalidRequest))
  | _ => .error (gatewayError .invalidRequest)

/-- The cap on `max_tokens` -/
def withinCap (body : CreateChatCompletionRequest F) : Bool :=
  match body.maxTokens with
  | some n => n ≤ settings.maxTokensPerRequest
  | none => true

def originalUserContent (messages : List ChatMessage) : PyStr :=
  ⟨List.intercalate [0x0a] ((messages.filter (·.role = .user)).map (·.content.points))⟩

/-- `_apply_masked_user_content`: the first message of the user's gets all of it. -/
def maskMessages (masked : PyStr) : List ChatMessage → List ChatMessage
  | [] => []
  | message :: messages =>
      if message.role = .user then
        { message with content := ⟨masked.points.take 131072⟩ } ::
          messages.map fun m => if m.role = .user then { m with content := ⟨[]⟩ } else m
      else message :: maskMessages masked messages

/-- Step 7b, if there are hooks -/
def runPreRequest (hooks : Bool) (body : CreateChatCompletionRequest F) : Handler (CreateChatCompletionRequest F) :=
  if hooks then do
    let content := originalUserContent body.messages
    let forwarded ← guarded (call.preRequest content)
    pure (if forwarded = content then body else { body with messages := maskMessages forwarded body.messages })
  else pure body

/-- Step 7 -/
def prepare (hooks : Bool) : Handler (CreateChatCompletionRequest F) := do
  let body ← Prog.ofExcept (validated call)
  modify fun s => { s with model := body.model }
  Prog.ofExcept (if withinCap settings body then .ok () else .error (gatewayError .invalidRequest))
  Prog.ofExcept call.providers
  runPreRequest call hooks body

inductive Response (F : Type)
  | completion (body : String) (limits : RateHeaders)
  | eventStream (body : CreateChatCompletionRequest F) (limits : RateHeaders)
  | error (errorCode : ErrorCode) (retryAfter : Option Nat) (limits : RateHeaders)

def Response.status : Response F → Nat
  | .completion _ _ | .eventStream _ _ => 200
  | .error errorCode _ _ => errorCode.status

def Response.isStream : Response F → Bool
  | .eventStream _ _ => true
  | _ => false

/-- A step that is there only with hooks -/
def withHooks (hooks : Bool) (x : Except Raised Unit) : Handler Unit := if hooks then guarded x else pure ()

/-- The streaming path, with the data-lock preflight -/
def answerStream (hooks : Bool) (body : CreateChatCompletionRequest F) : Handler (Response F) := do
  withHooks hooks call.preflight
  let s ← get
  pure (.eventStream body s.limits)

/-- `except (TypeError, ValueError)` -/
def valueError : Raised → Raised
  | .value => gatewayError .internalError
  | e => e

def runDataLock (hooks : Bool) (text : String) : Handler String :=
  if hooks then guarded (call.dataLock text) else pure text

/-- The non-streaming path up to its record: the final body and the tokens -/
def complete (hooks : Bool) (body : CreateChatCompletionRequest F) : Handler (String × Int × Int) := do
  let tokens ← Prog.ofExcept (call.route body)
  withHooks hooks call.postHooks
  let text ← Prog.ofExcept (call.serialize.mapError valueError)
  let text ← runDataLock call hooks text
  Prog.ofExcept call.deferred
  pure (text, tokens)

def recordMetrics : Handler Unit := Prog.ofExcept (if call.metrics then .ok () else .error .other)

def markEmitted : Handler Unit := modify fun s => { s with auditEmitted := true }

/-- The non-streaming path -/
def answer (hooks : Bool) (body : CreateChatCompletionRequest F) : Handler (Response F) := do
  let (text, tokensIn, tokensOut) ← complete call hooks body
  emitTerminalRecord call.requestId call.fates tokensIn tokensOut
  markEmitted
  recordMetrics call
  let s ← get
  pure (.completion text s.limits)

/-- `except GatewayError`: an append that raises makes it an internal error. -/
def rejected (errorCode : ErrorCode) (retryAfter : Option Nat) : Handler (Response F) := do
  let (errorCode, retryAfter) ← Prog.catching
    (do
      emitTerminalRecord call.requestId call.fates 0 0
      pure (errorCode, retryAfter))
    fun _ => pure (.internalError, none)
  markEmitted
  recordMetrics call
  let s ← get
  pure (.error errorCode retryAfter s.limits)

/-- The `try` of the handler after the admission -/
def admitted (hooks : Bool) : Handler (Response F) := do
  let body ← prepare settings call hooks
  if body.stream then answerStream call hooks body else answer call hooks body

/-- Another exception than a `GatewayError` is not caught. -/
def onError : Raised → Handler (Response F)
  | .gateway errorCode retryAfter => rejected call errorCode retryAfter
  | e => throw e

/-- The `try` of the handler -/
def attempt : Handler (Response F) := do
  let hooks ← wayIn call
  admitted settings call hooks

def createChatCompletion : Handler (Response F) := Prog.catching (attempt settings call) (onError call)

/-! ## the stream -/

/-- `_generate`, once it is iterated: its record is a best effort, and `stream_slot` gives
the slot back however it is left. -/
def generate (iteration : Iteration) : Handler Unit := do
  Prog.catching (emitTerminalRecord call.requestId call.fates iteration.tokensIn iteration.tokensOut) fun _ => pure ()
  modify fun s => { s with released := s.released + 1 }
  Prog.ofExcept (match iteration.exit with
    | .raised e => .error e
    | _ => .ok ())

/-- The response goes out; a stream's body is iterated then. -/
def sendBody (response : Response F) : Handler Unit :=
  match response, call.iteration with
  | .eventStream _ _, some iteration => generate call iteration
  | _, _ => pure ()

/-- The handler and the response that it returns -/
def serve : Handler Unit := do
  let response ← createChatCompletion settings call
  sendBody call response

/-- A request that comes in -/
def RequestState.start : RequestState where
  tenantContext := none
  model := ⟨[]⟩
  limits := ⟨settings.rateLimitRpm, settings.rateLimitRpm, 0⟩
  auditEmitted := false
  attempts := 0
  records := []
  taken := 0
  released := 0

end Handler

/-! ## what the steps leave alone -/

/-- What is read of a request's state has nothing to do with its context, its model and
the headers of its rate limit. -/
structure Blind {γ : Type} (view : RequestState → γ) : Prop where
  tenantContext : ∀ s context, view { s with tenantContext := context } = view s
  model : ∀ s model, view { s with model := model } = view s

section Keeps

variable {F γ : Type} {settings : GatewaySettings} {call : ChatCall F} {hooks : Bool}
  {body : CreateChatCompletionRequest F} {view : RequestState → γ}

theorem keeps_guarded {α : Type} (x : Except Raised α) : Prog.Keeps view (guarded x) := .ofExcept _

theorem keeps_withHooks (x : Except Raised Unit) : Prog.Keeps view (withHooks hooks x) := by
  unfold withHooks
  split
  · exact keeps_guarded x
  · exact .pure ()

theorem keeps_runPreRequest : Prog.Keeps view (runPreRequest call hooks body) := by
  unfold runPreRequest
  split
  · exact .bind (keeps_guarded _) fun _ => .pure _
  · exact .pure _

theorem keeps_runDataLock (text : String) : Prog.Keeps view (runDataLock call hooks text) := by
  unfold runDataLock
  split
  · exact keeps_guarded _
  · exact .pure _

theorem keeps_answerStream : Prog.Keeps view (answerStream call hooks body) :=
  .bind (keeps_withHooks _) fun _ => .bind .get fun _ => .pure _

theorem keeps_complete : Prog.Keeps view (complete call hooks body) :=
  .bind (.ofExcept _) fun _ => .bind (keeps_withHooks _) fun _ => .bind (.ofExcept _) fun _ =>
    .bind (keeps_runDataLock _) fun _ => .bind (.ofExcept _) fun _ => .pure _

theorem keeps_enter (hview : Blind view) : Prog.Keeps view (enter call) :=
  .bind (.ofExcept _) fun _ => .bind (.ofExcept _) fun _ =>
    .bind (.modify fun s => hview.tenantContext s _) fun _ => .bind (.ofExcept _) fun _ => .pure _

theorem keeps_prepare [LaxNumbers F] (hview : Blind view) : Prog.Keeps view (prepare settings call hooks) :=
  .bind (.ofExcept _) fun _ => .bind (.modify fun s => hview.model s _) fun _ =>
    .bind (.ofExcept _) fun _ => .bind (.ofExcept _) fun _ => keeps_runPreRequest

end Keeps

section Sample

/-- Numbers without fractions -/
instance : LaxNumbers Nat where
  isZero n := n = 0
  isOne n := n = 1
  isZero_of_isOne _ h := decide_eq_false fun hzero => Nat.zero_ne_one (hzero.symm.trans (of_decide_eq_true h))
  intOfFloat n := some n
  intOfStr _ := none
  floatOfInt n := n.toNat
  floatOfStr _ := none
  within le n := n ≤ le

def sampleText (text : String) : PyValue Nat := .str (PyStr.ofString text)

/-- One message of the user's, and `stream` -/
def sampleBody (stream : PyValue Nat) : PyValue Nat :=
  .obj [
    (PyStr.ofString "model", sampleText "gpt-4o-mini"),
    (PyStr.ofString "messages",
      .arr [.obj [(PyStr.ofString "role", sampleText "user"), (PyStr.ofString "content", sampleText "hi")]]),
    (PyStr.ofString "stream", stream)]

def sampleSettings : GatewaySettings := ⟨600, 131072⟩

def sampleContext : TenantContext where
  tenantId := "11111111-1111-4111-8111-111111111111"
  teamId := "22222222-2222-4222-8222-222222222222"
  projectId := "33333333-3333-4333-8333-333333333333"
  agentId := "agent-1"
  virtualKeyId := "77777777-7777-4777-8777-777777777777"

def sampleCall (body : PyValue Nat) : ChatCall Nat where
  requestId := "req-0123456789abcdef0123456789abcdef"
  rawBody := .json body
  registry := .ok false
  context := .ok sampleContext
  egress := .ok ()
  admission := .ok ⟨600, 599, 1782898260⟩
  providers := .ok ()
  preRequest content := .ok content
  preflight := .ok ()
  route _ := .ok (1, 1)
  postHooks := .ok ()
  serialize := .ok "\x7b\x7d"
  dataLock text := .ok text
  deferred := .ok ()
  metrics := true
  iteration := some ⟨1, 1, .exhausted⟩
  fates _ := .appended

end Sample

end Anoryx.Sentinel.Gateway
