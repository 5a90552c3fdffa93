import Anoryx.PyDecimal
import Anoryx.PyJson.SortKeys
import Anoryx.Delta.Posting

/-!
# Anoryx.Delta.IngestPayload

What Delta's ingest makes of the body of an event (`ingest/posting.py`, `ingest/router.py`,
`money.py`): `build_usage_record` and `build_revenue_record`, with the errors they raise
and what they attribute to a refused event, and the answers of the two endpoints.

A body is any JSON value.  A refusal is a `PermanentIngestError` and goes to the dead
letters.  Two exceptions are none: `Decimal()` raises `InvalidOperation` at a text that is
no number, and a list has no hash to look it up in a set with (`TypeError`).

`Libraries` is what others decide: the datetimes pydantic reads, the text of one of its
errors, and `repr` of a value.  The counter of attempts and the copy of the body in a dead
letter are left out, and so are the hooks after a posting, which raise nothing.
-/

namespace Anoryx.Delta

open PyJson

/-- What the ingest takes from elsewhere. -/
structure Libraries (F : Type) where
  /-- the datetime of a field, and its moment if it has an offset -/
  datetime : Value F → Option (Option DateTime)
  /-- the text of a pydantic error: field, message, and input -/
  validationText : String → String → Int → String
  /-- `repr(value)` -/
  repr : Value F → String

/-! ## errors -/

inductive DeadLetterReason
  | unknownTenant
  | invalidCost
  | unresolvableAccount
  | malformedPayload
deriving DecidableEq

/-- What is known of an event that is refused. -/
structure Attribution where
  tenantId : Option String
  eventId : Option String
  eventType : Option String
deriving DecidableEq

structure PermanentIngestError where
  reason : DeadLetterReason
  message : String
  attribution : Attribution
deriving DecidableEq

/-- What the two functions raise. -/
inductive IngestException
  | permanent (e : PermanentIngestError)
  | invalidOperation
  | typeError
deriving DecidableEq

/-- A record or a refusal, and nothing else. -/
def Total {α : Type} (result : Except IngestException α) : Prop :=
  (∃ a, result = .ok a) ∨ ∃ e, result = .error (.permanent e)

/-! ## fields -/

section Fields

variable {F : Type}

/-- `payload.get(key)` -/
def get (k : String) (ms : List (String × Value F)) : Value F := (getItem k ms).getD .null

/-- `value if isinstance(value, str) else None` -/
def textOf : Value F → Option String
  | .str s => some s
  | _ => none

/-- `_is_valid_tenant`: `$` also matches before a newline at the end. -/
def isValidTenant (s : String) : Bool :=
  isUuid s || s.toList.getLast? = some '\n' && isUuid (String.ofList s.toList.dropLast)

def tenantOf (v : Value F) : Option String := (textOf v).filter isValidTenant

def uuidStr (v : Value F) : Option { s : String // isUuid s = true } :=
  (textOf v).bind fun s => if h : isUuid s = true then some ⟨s, h⟩ else none

/-- A text of bounded length. -/
def boundedStr (minLength maxLength : Nat) (v : Value F) : Option { s : String // s.length ≤ maxLength } :=
  (textOf v).bind fun s => if h : s.length ≤ maxLength then if minLength ≤ s.length then some ⟨s, h⟩ else none else none

/-- A text that matches a pattern. -/
def patternStr (pattern : List Char → Bool) (v : Value F) : Option String :=
  (textOf v).filter fun s => pattern s.toList

/-- `bounded_count`: no bool, no float, and within the bounds. -/
def boundedCount (maximum : Nat) : Value F → Option { n : Nat // n ≤ maximum }
  | .int n => if h : 0 ≤ n ∧ n.toNat ≤ maximum then some ⟨n.toNat, h.2⟩ else none
  | _ => none

def isLower (c : Char) : Bool := ('a' ≤ c && c ≤ 'z') || ('0' ≤ c && c ≤ '9')

def isAlphanumeric (c : Char) : Bool := isLower c || ('A' ≤ c && c ≤ 'Z')

/-- `^[a-z0-9]+(-[a-z0-9]+)*$`, at most 64 characters -/
def isAgentId (cs : List Char) : Bool :=
  cs.length ≤ 64 && (cs.splitOnP (· = '-')).all fun part => part ≠ [] && part.all isLower

/-- `^[A-Za-z0-9._-]{1,64}$` -/
def isRequestId (cs : List Char) : Bool :=
  1 ≤ cs.length && cs.length ≤ 64 && cs.all fun c => isAlphanumeric c || c ∈ ['.', '_', '-']

end Fields

def maxUsageTokens : Nat := 10000000

def defaultCurrency : String := "USD"

/-! ## costs -/

section Costs

variable {F : Type} [FloatFormat F]

/-- What `Money.from_wire_cents` raises. -/
inductive CostError
  | valueError (message : String)
  | validationError (message : String) (minorUnits : Int)
  | invalidOperation
deriving DecidableEq

/-- `Decimal(str(value))`; the text of a null, an array or an object is no number. -/
def decimalOf : Value F → Option PyDecimal.Decimal
  | .int n => some (.finite (n < 0) n.natAbs 0)
  | .float x => PyDecimal.ofText (FloatFormat.repr x)
  | .str s => PyDecimal.ofText s.toList
  | _ => none

/-- `Money(minor_units=...)` -/
def minorUnits (n : Int) : Except CostError Nat :=
  if n < 0 then .error (.validationError "minor_units must be non-negative" n)
  else if (maxMoneyMinorUnits : Int) < n then
    .error (.validationError "minor_units exceeds wire maximum 100000000000" n)
  else .ok n.toNat

/-- `Money.from_wire_cents` -/
def fromWireCents (value : Value F) : Except CostError Nat :=
  match value with
  | .bool _ => .error (.valueError "wire cost estimate must be numeric, not bool")
  | value =>
      match decimalOf value with
      | none => .error .invalidOperation
      | some (.finite negative coefficient exponent) =>
          match PyDecimal.quantizeUnit negative coefficient exponent with
          | none => .error (.valueError "wire cost estimate magnitude is out of range")
          | some quantized => minorUnits quantized
      | some _ => .error (.valueError "wire cost estimate must be finite")

end Costs

/-! ## usage events -/

section Build

variable {F : Type} [FloatFormat F] (libs : Libraries F)

/-- What a usage event that is refused is attributed to. -/
def usageAttribution (ms : List (String × Value F)) : Attribution where
  tenantId := tenantOf (get "tenant_id" ms)
  eventId := textOf (get "event_id" ms)
  eventType := textOf (get "event_type" ms)

/-- `UsageRecord(...)`; `none` is a `ValidationError`. -/
def usageRecord (ms : List (String × Value F)) (costCents : Nat) : Option UsageRecord := do
  let tenantId ← uuidStr (get "tenant_id" ms)
  let teamId ← uuidStr (get "team_id" ms)
  let projectId ← uuidStr (get "project_id" ms)
  let agentId ← patternStr isAgentId (get "agent_id" ms)
  let model ← boundedStr 1 256 (get "model" ms)
  let _ ← boundedCount maxUsageTokens (get "tokens_in" ms)
  let _ ← boundedCount maxUsageTokens (get "tokens_out" ms)
  let cost ← boundedCount maxUsageCostCents (.int costCents : Value F)
  let _ ← patternStr isRequestId (get "request_id" ms)
  let eventId ← uuidStr (get "event_id" ms)
  let eventTimestamp ← (libs.datetime (get "event_timestamp" ms)).join
  pure {
    tenantId := tenantId.val
    teamId := teamId.val
    projectId := projectId.val
    agentId
    model := model.val
    costEstimateCents := cost.val
    currency := defaultCurrency
    eventId := eventId.val
    eventTimestamp
    model_le := model.property
    cost_le := cost.property
    eventId_uuid := eventId.property }

/-- `isinstance(value, int)` without the bools -/
def isInteger : Value F → Bool
  | .int _ => true
  | _ => false

/-- The refusal of a cost, or what is raised instead. -/
def costException (attribution : Attribution) : CostError → IngestException
  | .invalidOperation => .invalidOperation
  | .valueError message =>
      .permanent ⟨.invalidCost, "invalid cost_estimate_cents: " ++ message, attribution⟩
  | .validationError message n =>
      .permanent ⟨.invalidCost, "invalid cost_estimate_cents: " ++ libs.validationText "minor_units" message n,
        attribution⟩

/-- `build_usage_record` of an object, from the cost on. -/
def buildCosted (ms : List (String × Value F)) (cost : Value F) : Except IngestException UsageRecord :=
  match fromWireCents cost with
  | .error e => .error (costException libs (usageAttribution ms) e)
  | .ok costCents =>
      if !isInteger (get "latency_ms" ms) then
        .error (.permanent ⟨.malformedPayload, "missing or non-integer latency_ms", usageAttribution ms⟩)
      else
        match usageRecord libs ms costCents with
        | none =>
            .error (.permanent ⟨.malformedPayload, "usage event failed schema validation", usageAttribution ms⟩)
        | some record => .ok record

def buildUsageRecord : Value F → Except IngestException UsageRecord
  | .obj ms =>
      if textOf (get "event_type" ms) ≠ some "usage" then
        .error (.permanent ⟨.malformedPayload,
          "unsupported event_type " ++ libs.repr (get "event_type" ms) ++ " (only 'usage' is ingested)",
          usageAttribution ms⟩)
      else if tenantOf (get "tenant_id" ms) = none then
        .error (.permanent ⟨.unknownTenant, "missing or malformed tenant_id",
          { usageAttribution ms with tenantId := none }⟩)
      else
        match getItem "cost_estimate_cents" ms with
        | none =>
            .error (.permanent ⟨.malformedPayload, "missing cost_estimate_cents", usageAttribution ms⟩)
        | some cost => buildCosted libs ms cost
  | _ => .error (.permanent ⟨.malformedPayload, "event payload is not a JSON object", ⟨none, none, none⟩⟩)

/-! ## revenue events -/

/-- Lists and dicts have no hash. -/
def isUnhashable : Value F → Bool
  | .arr _ | .obj _ => true
  | _ => false

variable {v payload : Value F}

/-- What an endpoint answers; after an exception that nothing catches, the server does. -/
inductive IngestAnswer
  | unauthorized
  | accepted
  | deadLettered (e : PermanentIngestError)
  | deadLetterFailed (e : PermanentIngestError)
  | retry
  | unhandled (x : IngestException)

/-- Accepted, dead-lettered, logged as a dead letter, or to be sent again. -/
def Answered : IngestAnswer → Prop
  | .accepted | .deadLettered _ | .deadLetterFailed _ | .retry => True
  | .unauthorized | .unhandled _ => False

variable {libs}

end Build

def sampleLibraries : Libraries Empty where
  datetime _ := none
  validationText field message _ := field ++ ": " ++ message
  repr _ := ""

end Anoryx.Delta
