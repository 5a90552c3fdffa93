import Anoryx.Delta.Spend

/-!
# Anoryx.Delta.BudgetEngine

The evaluation of a budget (`budget_engine/evaluator.py`) with the stores it
writes: the enforcement state per period bucket (`state.py`), the publish
outbox (`outbox.py`) and the audit history (`persistence/audit_log.py`).

An evaluation is one transaction.  Its `get_or_create_state` is an
`INSERT … ON CONFLICT DO NOTHING` whose `last_published_version` comes from a
subquery; the subquery reads the statement's snapshot, so a row may go in with
a maximum that is no longer current.  The model keeps the two apart: `seedVersion`
reads, the insert follows, and other transactions may move in between.

Two columns record provenance and are read by no statement: `bumpedBy` is the
transaction whose conditional UPDATE produced a row's version, `insertedBy` the
transaction that inserted a row (its `xmin`).
-/

namespace Anoryx.Delta

open ReadCommitted

/-! ## the stores -/

inductive EnforcementState
  | under
  | enforced
deriving DecidableEq

/-- A row of `budget_enforcement_state`. -/
structure StateRow where
  state : EnforcementState
  enforcedPolicyVersion : Option Nat
  lastPublishedVersion : Nat
  lastWarnedPct : Option Nat
  updatedAt : DateTime
  bumpedBy : Option Txn
deriving DecidableEq

/-- `(tenant_id, budget_id, period_bucket)` -/
abbrev StateKey := String × String × BucketLabel

/-- The direction of a published decision. -/
inductive Transition
  | enforce
  | refresh
deriving DecidableEq

/-- Where the delivery of an outbox row stands. -/
inductive Delivery
  | pending
  | distributed
  | failed
deriving DecidableEq

/-- A row of `budget_publish_outbox`. -/
structure DecisionRow where
  budgetId : String
  transition : Transition
  policyPayload : BudgetLimitPolicy
  distributionId : Option String
  state : Delivery
  attempts : Nat
  nextAttemptAt : DateTime
  lastError : Option String
  createdAt : DateTime
  insertedBy : Txn
deriving DecidableEq

/-- `(tenant_id, policy_id, policy_version)` -/
abbrev DecisionKey := String × String × Nat

/-- A row of `change_history`, without its chain hashes. -/
structure HistoryRow where
  tenantId : String
  entityType : String
  entityId : String
  action : Transition
  actor : String
  note : String
  createdAt : DateTime
  insertedBy : Txn
deriving DecidableEq

structure BudgetDb where
  states : Table StateKey StateRow
  outbox : Table DecisionKey DecisionRow
  history : Log HistoryRow

namespace BudgetDb

def empty : BudgetDb := ⟨.empty, .empty, .empty⟩

instance : Database BudgetDb where
  commit t d := ⟨d.states.commit t, d.outbox.commit t, d.history.commit t⟩
  rollback t d := ⟨d.states.rollback t, d.outbox.rollback t, d.history.rollback t⟩

end BudgetDb

inductive BudgetError
  | dateOutOfRange
  | noResultFound
  | emit (e : EmitError)
deriving DecidableEq

/-! ## the enforcement state -/

/-- The subquery of `get_or_create_state`: the highest version over all buckets of
the budget, 0 when there are none. -/
def seedVersion (tenantId budgetId : String) (t : Txn) (d : BudgetDb) : Nat :=
  (((d.states.scan t).filter fun p => p.1.1 = tenantId ∧ p.1.2.1 = budgetId).map
    fun p => p.2.lastPublishedVersion).max?.getD 0

def getOrCreateState (key : StateKey) (now : DateTime) : Prog BudgetDb BudgetError StateRow := do
  let seed ← Prog.query fun t d => seedVersion key.1 key.2.1 t d
  Prog.exec fun t d => (d.states.insertOrIgnore t key
    { state := .under
      enforcedPolicyVersion := none
      lastPublishedVersion := seed
      lastWarnedPct := none
      updatedAt := now
      bumpedBy := none }).map fun p => ((), { d with states := p.2 })
  match ← Prog.query fun t d => d.states.visible t key with
  | some row => pure row
  | none => .raise .noResultFound

/-- The row a transition writes: the version is the pre-image plus one. -/
def StateRow.transition (row : StateRow) (toState : EnforcementState) (setEnforcedVersion : Bool)
    (now : DateTime) (t : Txn) : StateRow :=
  { row with
    state := toState
    lastPublishedVersion := row.lastPublishedVersion + 1
    updatedAt := now
    enforcedPolicyVersion := if setEnforcedVersion then some (row.lastPublishedVersion + 1) else none
    bumpedBy := some t }

/-- `_conditional_transition`: the new version, or `none` when the row is not in
`fromState` (any more). -/
def conditionalTransition (key : StateKey) (fromState toState : EnforcementState)
    (setEnforcedVersion : Bool) (now : DateTime) : Prog BudgetDb BudgetError (Option Nat) :=
  .exec fun t d => (d.states.updateWhere t key (fun row => row.state = fromState)
    fun row => row.transition toState setEnforcedVersion now t).map
      fun p => (p.1.map StateRow.lastPublishedVersion, { d with states := p.2 })

def tryTransitionToEnforced (key : StateKey) (now : DateTime) :
    Prog BudgetDb BudgetError (Option Nat) :=
  conditionalTransition key .under .enforced true now

def tryTransitionToUnder (key : StateKey) (now : DateTime) :
    Prog BudgetDb BudgetError (Option Nat) :=
  conditionalTransition key .enforced .under false now

/-- The row a warning writes. -/
def StateRow.warn (row : StateRow) (pct : Nat) (now : DateTime) : StateRow :=
  { row with lastWarnedPct := some pct, updatedAt := now }

/-- `try_bump_warned_pct`: true when the band is higher than any recorded before. -/
def tryBumpWarnedPct (key : StateKey) (pct : Nat) (now : DateTime) :
    Prog BudgetDb BudgetError Bool :=
  .exec fun t d => (d.states.updateWhere t key (fun row => row.lastWarnedPct.all (· < pct))
    fun row => row.warn pct now).map
      fun p => (p.1.isSome, { d with states := p.2 })

/-! ## the outbox and the history -/

/-- `enqueue_decision`: no-op if this policy and version is already queued. -/
def enqueueDecision (tenantId budgetId policyId : String) (policyVersion : Nat)
    (transition : Transition) (policyPayload : BudgetLimitPolicy) (now : DateTime) :
    Prog BudgetDb BudgetError Unit :=
  .exec fun t d => (d.outbox.insertOrIgnore t (tenantId, policyId, policyVersion)
    { budgetId := budgetId
      transition := transition
      policyPayload := policyPayload
      distributionId := none
      state := .pending
      attempts := 0
      nextAttemptAt := now
      lastError := none
      createdAt := now
      insertedBy := t }).map fun p => ((), { d with outbox := p.2 })

def BudgetScope.value : BudgetScope → String
  | tenant => "tenant"
  | team => "team"
  | project => "project"
  | agent => "agent"

/-- `append_history` for an enforcement decision, under the tenant's advisory lock. -/
def appendHistory (b : BudgetDefinition) (version : Nat) (transition : Transition)
    (now : DateTime) : Prog BudgetDb BudgetError Unit :=
  .exec fun t d => (d.history.append t
    { tenantId := b.tenantId
      entityType := "budget_enforcement"
      entityId := b.budgetId
      action := transition
      actor := "budget-engine"
      note := s!"policy_id={b.policyId} version={version} scope={b.scope.value}"
      createdAt := now
      insertedBy := t }).map fun p => ((), { d with history := p.2 })

def enqueue (b : BudgetDefinition) (version : Nat) (transition : Transition) (now : DateTime) :
    Prog BudgetDb BudgetError Unit :=
  match buildPolicyPayload b version now with
  | .error e => .raise (.emit e)
  | .ok payload => do
      enqueueDecision b.tenantId b.budgetId b.policyId version transition payload now
      appendHistory b version transition now

/-! ## the evaluation -/

/-- What an evaluation logs: a decision with its version, a lost race, an advisory
warning with its band, or nothing.  It returns `True` for a decision. -/
inductive Outcome
  | decided (transition : Transition) (version : Nat)
  | lost
  | warned (pct : Nat)
  | quiet
deriving DecidableEq

/-- The state row a budget is evaluated against at `now`. -/
def stateKey (b : BudgetDefinition) (now : DateTime) : StateKey :=
  (b.tenantId, b.budgetId, periodBucketLabel b.period now)

/-- `_evaluate_budget`, on the ledger rows its spend query reads. -/
def evaluateBudget (softWarningPcts : List Nat) (b : BudgetDefinition) (ledger : LedgerView)
    (now : DateTime) : Prog BudgetDb BudgetError Outcome :=
  match periodEnd b.period now with
  | none => .raise .dateOutOfRange
  | some stop => do
      let key := stateKey b now
      let spend := scopeSpendCents ledger b.scope b.tenantId b.teamId b.projectId b.agentId
        b.currency (periodStart b.period now) stop
      let state ← getOrCreateState key now
      let isOver := isOverCostCap spend b
      if isOver ∧ state.state = .under then
        match ← tryTransitionToEnforced key now with
        | none => pure .lost
        | some version => do
            enqueue b version .enforce now
            pure (.decided .enforce version)
      else if ¬ isOver ∧ state.state = .enforced then
        match ← tryTransitionToUnder key now with
        | none => pure .lost
        | some version => do
            enqueue b version .refresh now
            pure (.decided .refresh version)
      else
        match softWarningBand spend b softWarningPcts with
        | none => pure .quiet
        | some band => do
            if ← tryBumpWarnedPct key band now then pure (.warned band) else pure .quiet

/-- One evaluation of a budget: the cap as it is when the budget is read, the
ledger as the spend query sees it, and the clock. -/
structure Evaluation where
  limitCostCents : Option Nat
  ledger : LedgerView
  now : DateTime

/-- The evaluations of one budget; only its cap changes over time. -/
def budgetProg (pcts : List Nat) (b : BudgetDefinition) (e : Evaluation) :
    Prog BudgetDb BudgetError Outcome :=
  evaluateBudget pcts { b with limitCostCents := e.limitCostCents } e.ledger e.now

abbrev BudgetSys := Sys BudgetDb BudgetError Evaluation Outcome

def BudgetSys.init : BudgetSys := Sys.start BudgetDb.empty

end Anoryx.Delta
