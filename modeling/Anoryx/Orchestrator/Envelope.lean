import Anoryx.PgColumn
import Anoryx.PyJson.Unpaired

/-!
# Anoryx.Orchestrator.Envelope

The envelope in which an event reaches the Orchestrator
(`contracts/event-envelope.schema.json`), as `envelope_structure_errors` checks it: its own
fields, with any object for a payload.

`Validator` is what the JSON Schema library brings: two formats, the check of a payload
against the locked `events.schema.json`, and whether it fails on a value that is nested so
deeply that it cannot write its message.
-/

namespace Anoryx.Orchestrator

open PyJson PgColumn

/-! ## patterns -/

/-- A pattern between `^` and `$`; `$` also stands before a newline at the end. -/
def anchored (p : List CodePoint → Bool) (s : PyStr) : Bool :=
  p s.points || (s.points.getLast? = some 0x0a && p s.points.dropLast)

def isLower (c : CodePoint) : Bool := 0x61 ≤ c && c ≤ 0x7a

def isUpper (c : CodePoint) : Bool := 0x41 ≤ c && c ≤ 0x5a

def isDigit (c : CodePoint) : Bool := 0x30 ≤ c && c ≤ 0x39

/-- `[a-z0-9]+(_[a-z0-9]+)*` -/
def isSlug (cs : List CodePoint) : Bool :=
  (cs.splitOnP (· = 0x5f)).all fun part => part ≠ [] && part.all fun c => isLower c || isDigit c

/-- `[A-Za-z0-9._:-]` -/
def isKeyChar (c : CodePoint) : Bool :=
  isUpper c || isLower c || isDigit c || c = 0x2e || c = 0x5f || c = 0x3a || c = 0x2d

/-- `[A-Za-z0-9._:-]{1,128}` -/
def isKey (cs : List CodePoint) : Bool := cs ≠ [] && cs.length ≤ 128 && cs.all isKeyChar

/-! ## the schema -/

section Schema

variable {F : Type} [Numerals F]

/-- An integer of JSON Schema: `1.0` is one, `true` is none. -/
def integerValue : PyValue F → Option Int
  | .int n => some n
  | .float x =>
      match Numerals.toDecimal x with
      | .finite q => if q.den = 1 then some q.num else none
      | _ => none
  | _ => none

def isIntegerBetween (low high : Int) (v : PyValue F) : Bool :=
  ((integerValue v).map fun n => decide (low ≤ n ∧ n ≤ high)).getD false

omit [Numerals F] in
def isText (maxLength : Nat) (p : PyStr → Bool) : PyValue F → Bool
  | .str s => s.length ≤ maxLength && p s
  | _ => false

omit [Numerals F] in
def isOneOf (values : List String) : PyValue F → Bool
  | .str s => s ∈ values.map PyStr.ofString
  | _ => false

omit [Numerals F] in
def isObject : PyValue F → Bool
  | .obj _ => true
  | _ => false

def sourceProducts : List String := ["sentinel", "orchestrator", "delta", "rendly"]

/-- What the JSON Schema library decides. -/
structure Validator (F : Type) where
  /-- the format `uuid` -/
  uuid : PyStr → Bool
  /-- the format `date-time` -/
  dateTime : PyStr → Bool
  /-- `not payload_errors(payload)` -/
  payloadValid : PyValue F → Bool
  /-- `envelope_structure_errors` ends in a `RecursionError` -/
  structureRaises : PyValue F → Bool

variable (validator : Validator F)

/-- The properties of the schema. -/
def envelopeProperties : List (String × (PyValue F → Bool)) :=
  [("schema_version", isIntegerBetween 1 1000), ("envelope_id", isText 64 validator.uuid),
    ("event_type", isText 64 (anchored isSlug)),
    ("source_product", isOneOf sourceProducts),
    ("occurred_at", isText 64 validator.dateTime), ("idempotency_key", isText 128 (anchored isKey)),
    ("sequence", isIntegerBetween 0 9007199254740991), ("correlation_id", isText 128 (anchored isKey)),
    ("causation_id", isText 128 (anchored isKey)), ("payload", isObject)]

def requiredProperties : List String :=
  ["schema_version", "envelope_id", "event_type", "source_product", "occurred_at", "idempotency_key",
    "sequence", "correlation_id", "payload"]

/-- A member is one of the properties. -/
def memberValid (member : PyStr × PyValue F) : Bool :=
  match (envelopeProperties validator).find? fun property => PyStr.ofString property.1 = member.1 with
  | some property => property.2 member.2
  | none => false

/-- `envelope_structure_errors` finds nothing. -/
def envelopeValid (members : List (PyStr × PyValue F)) : Bool :=
  (requiredProperties.all fun key => (pyItem (PyStr.ofString key) members).isSome) &&
    members.all (memberValid validator)

/-- An envelope that is structurally valid. -/
structure Envelope where
  members : List (PyStr × PyValue F)
  valid : envelopeValid validator members = true
  distinct : (PyValue.obj members).Distinct

end Schema

namespace Envelope

variable {F : Type} [Numerals F] {validator : Validator F} (envelope : Envelope validator)

/-- `envelope.get(key)` -/
def get (key : String) : Option (PyValue F) := pyItem (PyStr.ofString key) envelope.members

/-- `envelope[key]`, a text -/
def text (key : String) : PyStr :=
  match envelope.get key with
  | some (.str s) => s
  | _ => ⟨[]⟩

/-- `envelope[key]`, an integer -/
def integer (key : String) : Int := ((envelope.get key).bind integerValue).getD 0

/-- `envelope["payload"]` -/
def payload : PyValue F := (envelope.get "payload").getD .null

/-- The envelope itself. -/
def value : PyValue F := .obj envelope.members

end Envelope

end Anoryx.Orchestrator
