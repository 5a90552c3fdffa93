import Anoryx.Splice
import Mathlib.Algebra.Order.Field.Rat

/-!
# Anoryx.Sentinel.PiiMasking

The hook that masks the findings of Presidio (`detectors/pii_detector.py`), and what it shares
with the other hooks.

`_apply_pii_masks` replaces each finding with a mark, the latest start first.  The findings may
overlap; then an edit takes out what lies between its offsets after the edits before it, mark or
text.
-/

namespace Anoryx.Sentinel.PiiMasking

open Splice

/-! ## results of hooks -/

/-- `pii_action`; any other text is taken as `mask`. -/
inductive Action where
  | mask
  | tokenize
  | block
  deriving DecidableEq, Repr

/-- What a `DetectorResult` asks for. -/
inductive Outcome where
  | pass
  | mask
  | block
  deriving DecidableEq, Repr

/-- The event of a finding of PII, its fields besides the envelope. -/
structure PiiEvent where
  eventType : String
  patternName : List Char
  severity : String
  actionTaken : String

structure DetectorResult where
  action : Outcome
  event : Option PiiEvent
  modifiedPayload : Option (List Char)

def DetectorResult.passed : DetectorResult := ⟨.pass, none, none⟩

/-- `_confidence_to_severity`; the bounds are the floats nearest to 0.9, 0.8 and 0.7. -/
def confidenceToSeverity (score : ℚ) : String :=
  if (8106479329266893 : ℚ) / 2 ^ 53 ≤ score then "critical"
  else if (7205759403792794 : ℚ) / 2 ^ 53 ≤ score then "high"
  else if (6305039478318694 : ℚ) / 2 ^ 53 ≤ score then "medium"
  else "low"

def actionTakenFor : Action → String
  | .mask => "masked"
  | .tokenize => "tokenized"
  | .block => "blocked"

def patternNameSafe (name : List Char) : List Char :=
  (name.map fun c => if c.isAlphanum ∨ c = '_' then c.toLower else '_').take 128

/-- The mark of a span: `[REDACTED:name]`, or `[TOKEN:name:start:end]`. -/
def mark (action : Action) (name : List Char) (start stop : Nat) : List Char :=
  match action with
  | .tokenize =>
      ['[', 'T', 'O', 'K', 'E', 'N', ':'] ++ name ++ ':' :: Nat.toDigits 10 start ++ ':' :: Nat.toDigits 10 stop ++ [']']
  | _ => ['[', 'R', 'E', 'D', 'A', 'C', 'T', 'E', 'D', ':'] ++ name ++ [']']

/-! ## findings -/

/-- A `RecognizerResult` of Presidio. -/
structure RecognizerResult where
  entityType : List Char
  start : Nat
  stop : Nat
  score : ℚ
  lt : start < stop

def RecognizerResult.edit (action : Action) (r : RecognizerResult) : Edit Char :=
  ⟨r.start, r.stop, Nat.le_of_lt r.lt, mark action r.entityType r.start r.stop⟩

def applyPiiMasks (text : List Char) (results : List RecognizerResult) (action : Action) : List Char :=
  if action = .block then text else run (latestFirst (results.map (·.edit action))) text

/-- `OrchestrationSettings`, what the hook reads. -/
structure Settings where
  piiAction : Action
  piiConfidenceThreshold : ℚ
  maxPiiInspectChars : Nat

def phoneNumber : List Char := ['P', 'H', 'O', 'N', 'E', '_', 'N', 'U', 'M', 'B', 'E', 'R']

/-- The threshold of an entity: of phone numbers the float nearest to 0.4, else the global one. -/
def threshold (settings : Settings) (entityType : List Char) : ℚ :=
  if entityType = phoneNumber then (3602879701896397 : ℚ) / 2 ^ 53 else settings.piiConfidenceThreshold

/-- The findings the hook keeps, those of the highest score first. -/
def aboveThreshold (settings : Settings) (results : List RecognizerResult) : List RecognizerResult :=
  (results.filter fun r => threshold settings r.entityType ≤ r.score).insertionSort fun r r' => r'.score ≤ r.score

/-- `PIIHook.inspect`; nothing when the analyzer does not load. -/
def inspect (settings : Settings) (analyzer : Option (List Char → List RecognizerResult)) (content : List Char) :
    Option DetectorResult :=
  if content = [] then some .passed
  else
    let inspected := content.take settings.maxPiiInspectChars
    analyzer.map fun analyze =>
      match aboveThreshold settings (analyze inspected) with
      | [] => .passed
      | primary :: others =>
          let event : PiiEvent :=
            { eventType := "pii_blocked"
              patternName := patternNameSafe primary.entityType
              severity := confidenceToSeverity primary.score
              actionTaken := actionTakenFor settings.piiAction }
          if settings.piiAction = .block then ⟨.block, some event, none⟩
          else
            let masked := applyPiiMasks inspected (primary :: others) settings.piiAction
            ⟨.mask, some event, some (masked ++ content.drop settings.maxPiiInspectChars)⟩

end Anoryx.Sentinel.PiiMasking
