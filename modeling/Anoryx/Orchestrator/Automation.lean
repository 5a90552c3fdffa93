import Anoryx.PgColumn
import Anoryx.PyJson.Unpaired
import Anoryx.ReadCommitted.Effects
import Anoryx.ReadCommitted.UniqueIndex

/-!
# Anoryx.Orchestrator.Automation

The automation rules of a tenant, evaluated for an event that was accepted
(`automation/engine.py`, `automation/matcher.py`): each rule that matches performs its
action, and its execution is recorded.

An action is performed outside the database: `performed` lists what was done, and no
rollback takes it back.  What a call finds in `automation_rules`, and how its actions and
sessions end, come with the call.  The hash columns of `automation_executions` are left out.
-/

namespace Anoryx.Orchestrator

open ReadCommitted PyJson PgColumn

variable {F : Type}

/-! ## the matcher -/

section Matcher

variable [Numerals F]

omit [Numerals F] in
def isScalar : PyValue F → Bool
  | .str _ | .int _ | .float _ | .bool _ => true
  | _ => false

omit [Numerals F] in
def isBool : PyValue F → Bool
  | .bool _ => true
  | _ => false

/-- The number that an `int` or a `float` is. -/
def asNumber : PyValue F → Option Decimal
  | .int n => some (.finite n)
  | .float x => some (Numerals.toDecimal x)
  | _ => none

/-- `actual == expected`, of two scalars that are both `bool` or both not. -/
def scalarEq : PyValue F → PyValue F → Bool
  | .str s, .str s' => s = s'
  | .bool b, .bool b' => b = b'
  | actual, expected =>
      match asNumber actual, asNumber expected with
      | some x, some y => x = y && x ≠ .nan
      | _, _ => false

/-- `not value` -/
def isFalsy : PyValue F → Bool
  | .null => true
  | .bool b => !b
  | .int n => n = 0
  | .float x => Numerals.toDecimal x = .finite 0
  | .str s => s.points = []
  | .arr items => items.isEmpty
  | .obj members => members.isEmpty

/-- `value or {}` -/
def orEmpty (value : PyValue F) : PyValue F := if isFalsy value then .obj [] else value

/-- One of the `trigger_conditions`. -/
def conditionHolds (payload : PyValue F) (condition : PyStr × PyValue F) : Bool :=
  isScalar condition.2 &&
    match payload with
    | .obj members =>
        match pyItem condition.1 members with
        | some actual => isScalar actual && isBool actual = isBool condition.2 && scalarEq actual condition.2
        | none => false
    | _ => false

end Matcher

/-- A row of `automation_rules`. -/
structure AutomationRule (F : Type) where
  id : String
  tenantId : String
  enabled : Bool
  triggerEventType : String
  triggerSourceProduct : Option String
  triggerConditions : PyValue F
  actionType : String
  actionConfig : PyValue F

def ruleMatches [Numerals F] (rule : AutomationRule F) (eventType sourceProduct : String) (payload : PyValue F) :
    Bool :=
  rule.triggerEventType = eventType &&
    (match rule.triggerSourceProduct with
      | none => true
      | some product => product = sourceProduct) &&
    match orEmpty rule.triggerConditions with
    | .obj conditions => conditions.all (conditionHolds payload)
    | _ => false

/-! ## calls -/

/-- An error of a session: one of `_DB_CONNECTIVITY_ERRORS`, or another one. -/
inductive SessionError
  | connectivity
  | other
deriving DecidableEq

/-- How a session ends that appends a link, unless a link is there already. -/
inductive AppendFate
  | completes
  /-- before the INSERT -/
  | breaks (e : SessionError)
  /-- at the COMMIT, which is done or is not -/
  | breaksAtCommit (e : SessionError) (committed : Bool)

/-- How the execution of a rule goes. -/
structure RuleFate where
  /-- `drive_distribution` returns -/
  actionReturns : Bool
  append : AppendFate
  /-- the session of `_record_unexpected_failure` -/
  record : AppendFate

/-- The rows of `automation_rules`, by their primary key. -/
structure RuleTable (F : Type) where
  rows : List (AutomationRule F)
  distinct : (rows.map AutomationRule.id).Nodup

/-- `evaluate_and_execute`, with the rules that are there when it looks. -/
structure EvaluateCall (F : Type) where
  tenantId : String
  eventId : String
  eventType : String
  sourceProduct : String
  payload : PyValue F
  /-- `automation_settings.enabled` -/
  enabled : Bool
  rules : Except SessionError (RuleTable F)
  fate : String → RuleFate

/-! ## the database -/

inductive ExecutionDisposition
  | executed
  | failed
deriving DecidableEq

/-- A row of `automation_executions`. -/
structure AutomationExecution where
  ruleId : String
  tenantId : String
  triggeringEventId : String
  actionType : String
  disposition : ExecutionDisposition
  errorReason : Option String

/-- `UNIQUE(rule_id, triggering_event_id)` -/
def AutomationExecution.key (row : AutomationExecution) : String × String := (row.ruleId, row.triggeringEventId)

/-- An action that was performed. -/
structure Performed where
  run : Txn
  ruleId : String
  eventId : String
  returned : Bool

structure AutomationDb where
  executions : LockedLog AutomationExecution Unit
  /-- The actions.  No statement reads it. -/
  performed : List Performed

def AutomationDb.empty : AutomationDb := ⟨LockedLog.empty, []⟩

instance : Database AutomationDb where
  commit t d := { d with executions := Database.commit t d.executions }
  rollback t d := { d with executions := Database.rollback t d.executions }

/-- `_AUTOMATION_CHAIN_LOCK_KEY` -/
def automationChainLock (t : Txn) (d : AutomationDb) : Option (Unit × AutomationDb) :=
  (d.executions.advisoryXactLock () t).map fun p => (p.1, { d with executions := p.2 })

def insertExecution (row : AutomationExecution) (t : Txn) (d : AutomationDb) : Option (Option Nat × AutomationDb) :=
  (d.executions.insertUnique AutomationExecution.key row t).map fun p => (p.1, { d with executions := p.2 })

/-- An action is performed. -/
def perform (ruleId eventId : String) (returned : Bool) (t : Txn) (d : AutomationDb) : Option (Bool × AutomationDb) :=
  some (returned, { d with performed := d.performed ++ [⟨t, ruleId, eventId, returned⟩] })

/-! ## the engine -/

/-- How a session that appends a link has ended. -/
inductive AppendResult
  | appended
  | integrityError
  | broke (e : SessionError)

def endAppend : AppendFate → Prog AutomationDb SessionError AppendResult
  | .completes => do
      Prog.commitWork
      pure .appended
  | .breaks e => do
      Prog.rollbackWork
      pure (.broke e)
  | .breaksAtCommit e true => do
      Prog.commitWork
      pure (.broke e)
  | .breaksAtCommit e false => do
      Prog.rollbackWork
      pure (.broke e)

/-- `append_automation_audit_link`, in a session of its own -/
def appendAutomationAuditLink (row : AutomationExecution) (fate : AppendFate) :
    Prog AutomationDb SessionError AppendResult :=
  match fate with
  | .breaks e => do
      Prog.rollbackWork
      pure (.broke e)
  | fate => do
      Prog.exec automationChainLock
      let inserted ← Prog.exec (insertExecution row)
      match inserted with
      | some _ => endAppend fate
      | none => do
          Prog.rollbackWork
          pure .integrityError

def redistributePolicy : String := "redistribute_policy"

section Engine

variable [Numerals F] (call : EvaluateCall F) (rule : AutomationRule F)

/-- The link of an execution. -/
def executionRow (actionType : String) (disposition : ExecutionDisposition) (errorReason : Option String) :
    AutomationExecution :=
  ⟨rule.id, call.tenantId, call.eventId, actionType, disposition, errorReason⟩

omit [Numerals F] in
/-- `_record_unexpected_failure`: whatever happens, it returns. -/
def recordUnexpectedFailure : Prog AutomationDb SessionError Unit := do
  let actionType := if rule.actionType = "" then redistributePolicy else rule.actionType
  let _ ← appendAutomationAuditLink (executionRow call rule actionType .failed (some "unexpected_error"))
    (call.fate rule.id).record
  pure ()

omit [Numerals F] in
/-- A link, and what is left to do when its session breaks. -/
def recordExecution (disposition : ExecutionDisposition) (errorReason : Option String) :
    Prog AutomationDb SessionError Unit := do
  let result ← appendAutomationAuditLink (executionRow call rule rule.actionType disposition errorReason)
    (call.fate rule.id).append
  match result with
  | .broke .other => recordUnexpectedFailure call rule
  | _ => pure ()

/-- `(rule.get("action_config") or {}).get("distribution_id")` does not raise. -/
def hasDistributionId : Bool :=
  match orEmpty rule.actionConfig with
  | .obj _ => true
  | _ => false

/-- `_execute_rule`, and what its caller does with an error. -/
def executeRule : Prog AutomationDb SessionError Unit :=
  if rule.actionType = redistributePolicy then
    if hasDistributionId rule then do
      let returned ← Prog.exec (perform rule.id call.eventId (call.fate rule.id).actionReturns)
      if returned then recordExecution call rule .executed none
      else recordExecution call rule .failed (some "redistribute_policy_error")
    else recordUnexpectedFailure call rule
  else recordExecution call rule .failed (some "unknown_action_type")

omit [Numerals F] in
def listEnabledAutomationRules (rules : RuleTable F) : List (AutomationRule F) :=
  rules.rows.filter fun rule => rule.tenantId = call.tenantId && rule.enabled && rule.triggerEventType = call.eventType

/-- The loop. -/
def executeRules : List (AutomationRule F) → Prog AutomationDb SessionError Unit
  | [] => pure ()
  | rule :: rules =>
      if ruleMatches rule call.eventType call.sourceProduct call.payload then do
        executeRule call rule
        executeRules rules
      else executeRules rules

def evaluateAndExecute : Prog AutomationDb SessionError Unit :=
  if call.enabled then
    match call.rules with
    | .ok rules => executeRules call (listEnabledAutomationRules call rules)
    | .error .connectivity => pure ()
    | .error .other => Prog.raise .other
  else pure ()

/-! ## what a call is to do -/

/-- The rule matches, and has an action. -/
def acts : Bool :=
  ruleMatches rule call.eventType call.sourceProduct call.payload &&
    (rule.actionType = redistributePolicy && hasDistributionId rule)

/-- The rules whose actions a call performs. -/
def EvaluateCall.acting : List (AutomationRule F) :=
  if call.enabled then
    match call.rules with
    | .ok rules => (listEnabledAutomationRules call rules).filter (acts call)
    | .error _ => []
  else []

/-- The call finds the rule enabled and matching, with an action to perform. -/
def EvaluateCall.Selects (ruleId : String) : Prop := ∃ rule ∈ call.acting, rule.id = ruleId

end Engine

end Anoryx.Orchestrator
