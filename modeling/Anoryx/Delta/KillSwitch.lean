import Anoryx.Delta.BudgetEngine

/-!
# Anoryx.Delta.KillSwitch

The kill switch (`kill_switch/`): an emergency brake per
`(tenant, team, project, agent)` scope.  A usage event of an agent that is not
on the tenant's allow-list, or whose own cost exceeds a ceiling, kills its
scope; `authorize_agent` and `clear_kill_switch` clear it again.  Every
transition is queued as a zero-cap or maximum-cap `budget_limit` record.

A deleted allow-list row is a version without a value.  The UPDATE of
`_conditional_transition` selects by `kill_id`; a scope never gets a second row
and a row keeps its `kill_id`, so the model looks the row up under its scope and
compares the id.

Two fields of the database are read by no statement: `listed` holds the scopes
an open `authorize_agent` call has found killed and not yet taken up, `released`
every killed → clear transition that was applied, with the reason the row
carried at that moment.
-/

namespace Anoryx.Delta

open ReadCommitted

/-! ## triggers -/

inductive KillReason
  | unauthorizedAgent
  | anomalousSingleTx
deriving DecidableEq

def KillReason.value : KillReason → String
  | unauthorizedAgent => "unauthorized_agent"
  | anomalousSingleTx => "anomalous_single_tx"

def unauthorizedReason (gated authorized : Bool) : Option KillReason :=
  if gated ∧ ¬ authorized then some .unauthorizedAgent else none

/-- Strictly above the ceiling, if one is configured. -/
def anomalousReason (costCents : Nat) (maxSingleTxCostCents : Option Nat) : Option KillReason :=
  match maxSingleTxCostCents with
  | some ceiling => if ceiling < costCents then some .anomalousSingleTx else none
  | none => none

/-- The first triggered reason; unauthorized is checked before anomalous. -/
def detectReason (gated authorized : Bool) (costCents : Nat) (maxSingleTxCostCents : Option Nat) :
    Option KillReason :=
  match unauthorizedReason gated authorized with
  | some reason => some reason
  | none => anomalousReason costCents maxSingleTxCostCents

/-! ## the stores -/

/-- `(tenant_id, team_id, project_id, agent_id)` -/
structure KillScope where
  tenantId : String
  teamId : String
  projectId : String
  agentId : String
deriving DecidableEq

inductive KillState
  | clear
  | killed
deriving DecidableEq

/-- A row of `kill_switch_state`, under its scope. -/
structure KillRow where
  killId : String
  policyId : String
  state : KillState
  reason : Option KillReason
  lastPublishedVersion : Nat
  updatedAt : DateTime
deriving DecidableEq

inductive KillTransition
  | kill
  | clear
deriving DecidableEq

/-- A row of `kill_switch_outbox`, under `(tenant_id, policy_id, policy_version)`. -/
structure KillDecisionRow where
  killId : String
  transition : KillTransition
  policyPayload : BudgetLimitPolicy
  distributionId : Option String
  state : Delivery
  attempts : Nat
  nextAttemptAt : DateTime
  lastError : Option String
  createdAt : DateTime
deriving DecidableEq

/-- A row of `change_history`, without its chain hashes. -/
structure KillHistoryRow where
  entityType : String
  entityId : String
  action : KillTransition
  actor : String
  note : String
  createdAt : DateTime
deriving DecidableEq

/-- Who clears a scope. -/
inductive Caller
  | authorizeAgent
  | clearKillSwitch
deriving DecidableEq

/-- A killed → clear transition that was applied. -/
structure Release where
  caller : Caller
  scope : KillScope
  reason : Option KillReason
deriving DecidableEq

structure KillDb where
  authorizations : Table (String × String) (Option DateTime)
  states : Table KillScope KillRow
  outbox : Table DecisionKey KillDecisionRow
  /-- per tenant, as the advisory lock of an append is per tenant -/
  history : String → Log KillHistoryRow
  listed : List (Txn × KillScope)
  released : List Release

namespace KillDb

def empty : KillDb := ⟨.empty, .empty, .empty, fun _ => .empty, [], []⟩

instance : Database KillDb where
  commit t d :=
    { authorizations := d.authorizations.commit t
      states := d.states.commit t
      outbox := d.outbox.commit t
      history := fun tenantId => (d.history tenantId).commit t
      listed := d.listed.filter fun p => p.1 ≠ t
      released := d.released }
  rollback t d :=
    { authorizations := d.authorizations.rollback t
      states := d.states.rollback t
      outbox := d.outbox.rollback t
      history := fun tenantId => (d.history tenantId).rollback t
      listed := d.listed.filter fun p => p.1 ≠ t
      released := d.released }

end KillDb

inductive KillError
  | noResultFound
  | emit (e : EmitError)
deriving DecidableEq

/-! ## state -/

/-- `get_or_create_state`: created clear, with a fresh policy id, if new. -/
def getOrCreateKillState (uuid4 : Txn → Nat → String) (scope : KillScope) (now : DateTime) :
    Prog KillDb KillError KillRow := do
  Prog.exec fun t d => (d.states.insertOrIgnore t scope
    { killId := uuid4 t 0
      policyId := uuid4 t 1
      state := .clear
      reason := none
      lastPublishedVersion := 0
      updatedAt := now }).map fun p => ((), { d with states := p.2 })
  match ← Prog.query fun t d => d.states.visible t scope with
  | some row => pure row
  | none => .raise .noResultFound

/-- `killed_scopes_for_agent` as `t` sees them. -/
def killedScopesForAgent (tenantId agentId : String) (reason : KillReason) (t : Txn) (d : KillDb) :
    List (KillScope × KillRow) :=
  (d.states.scan t).filter fun p => p.1.tenantId = tenantId ∧ p.1.agentId = agentId ∧
    p.2.state = .killed ∧ p.2.reason = some reason

/-- The row a transition writes. -/
def KillRow.transition (row : KillRow) (toState : KillState) (reason : Option KillReason)
    (now : DateTime) : KillRow :=
  { row with
    state := toState
    reason := reason
    lastPublishedVersion := row.lastPublishedVersion + 1
    updatedAt := now }

/-- The WHERE clause of `_conditional_transition`. -/
def KillRow.inState (killId : String) (fromState : KillState) (row : KillRow) : Bool :=
  row.killId = killId ∧ row.state = fromState

/-- `try_transition_to_killed`: the new version, or `none` when the scope is not
clear (any more). -/
def tryTransitionToKilled (scope : KillScope) (killId : String) (reason : KillReason)
    (now : DateTime) : Prog KillDb KillError (Option Nat) :=
  .exec fun t d => (d.states.updateWhere t scope (KillRow.inState killId .clear)
    fun row => row.transition .killed (some reason) now).map
      fun p => (p.1.map KillRow.lastPublishedVersion, { d with states := p.2 })

/-- The reason `try_transition_to_clear` reads, to keep it across the clear. -/
def currentReason (scope : KillScope) (killId : String) (t : Txn) (d : KillDb) :
    Option KillReason :=
  ((d.states.visible t scope).filter fun row => row.killId = killId).bind KillRow.reason

/-- `try_transition_to_clear`: reads the reason, then flips whatever is killed. -/
def tryTransitionToClear (caller : Caller) (scope : KillScope) (killId : String) (now : DateTime) :
    Prog KillDb KillError (Option Nat) := do
  let reason ← Prog.query (currentReason scope killId)
  Prog.exec fun t d => (d.states.updateWhere t scope (KillRow.inState killId .killed)
    fun row => row.transition .clear reason now).map fun p =>
      (p.1.map KillRow.lastPublishedVersion,
        { d with
          states := p.2
          listed := d.listed.filter fun q => q ≠ (t, scope)
          released := if p.1.isSome then
              d.released ++ [⟨caller, scope, (d.states.visible t scope).bind KillRow.reason⟩]
            else d.released })

/-! ## decisions -/

/-- `_kill_switch_concept` with both caps at zero. -/
def killConcept (scope : KillScope) : BudgetConcept where
  tenantId := scope.tenantId
  teamId := scope.teamId
  projectId := scope.projectId
  agentId := scope.agentId
  scope := .agent
  period := .daily
  limitTokens := some 0
  limitCostCents := some 0
  tokens_le := by decide
  cost_le := by decide
  limited := by decide

/-- `_kill_switch_concept` with both caps at the schema's maxima. -/
def clearConcept (scope : KillScope) : BudgetConcept where
  tenantId := scope.tenantId
  teamId := scope.teamId
  projectId := scope.projectId
  agentId := scope.agentId
  scope := .agent
  period := .daily
  limitTokens := some maxBudgetTokens
  limitCostCents := some maxBudgetCostCents
  tokens_le := by decide
  cost_le := by decide
  limited := by decide

/-- `build_kill_payload` and `build_clear_payload`. -/
def KillTransition.buildPayload (transition : KillTransition) (scope : KillScope)
    (policyId : String) (policyVersion : Nat) (effectiveFrom : DateTime) :
    Except EmitError BudgetLimitPolicy :=
  let concept := match transition with
    | kill => killConcept scope
    | clear => clearConcept scope
  budgetConceptToPolicyPayload concept policyId policyVersion effectiveFrom placeholderSignature

/-- `enqueue_decision`: no-op if this policy and version is already queued. -/
def enqueueKillDecision (tenantId killId policyId : String) (policyVersion : Nat)
    (transition : KillTransition) (policyPayload : BudgetLimitPolicy) (now : DateTime) :
    Prog KillDb KillError Unit :=
  .exec fun t d => (d.outbox.insertOrIgnore t (tenantId, policyId, policyVersion)
    { killId := killId
      transition := transition
      policyPayload := policyPayload
      distributionId := none
      state := .pending
      attempts := 0
      nextAttemptAt := now
      lastError := none
      createdAt := now }).map fun p => ((), { d with outbox := p.2 })

/-- `append_history` for a kill-switch decision. -/
def appendKillHistory (tenantId killId : String) (transition : KillTransition) (note : String)
    (now : DateTime) : Prog KillDb KillError Unit :=
  .exec fun t d => ((d.history tenantId).append t
    { entityType := "kill_switch_enforcement"
      entityId := killId
      action := transition
      actor := "kill-switch"
      note := note
      createdAt := now }).map
        fun p => ((), { d with history := Function.update d.history tenantId p.2 })

/-- The tail that kills and clears share: payload, outbox row, history row. -/
def publishKillDecision (scope : KillScope) (state : KillRow) (version : Nat)
    (transition : KillTransition) (note : String) (now : DateTime) : Prog KillDb KillError Unit :=
  match transition.buildPayload scope state.policyId version now with
  | .error e => .raise (.emit e)
  | .ok payload => do
      enqueueKillDecision scope.tenantId state.killId state.policyId version transition payload now
      appendKillHistory scope.tenantId state.killId transition note now

def KillScope.note (scope : KillScope) (policyId : String) (version : Nat) : String :=
  s!"policy_id={policyId} version={version} team={scope.teamId} " ++
    s!"project={scope.projectId} agent={scope.agentId}"

/-! ## the evaluator -/

/-- What a call returns or logs; the evaluator's outcomes carry the policy id it read. -/
inductive KillOutcome
  | passed
  | notClear (policyId : String)
  | lost (policyId : String)
  | killed (policyId : String) (version : Nat)
  | authorized (cleared : List String)
  | cleared (performed : Bool)
  | revoked
deriving DecidableEq

/-- `is_tenant_gated`: the tenant has opted in to the allow-list. -/
def isTenantGated (tenantId : String) (t : Txn) (d : KillDb) : Bool :=
  (d.authorizations.scan t).any fun p => p.1.1 = tenantId ∧ p.2.isSome

def isAuthorized (tenantId agentId : String) (t : Txn) (d : KillDb) : Bool :=
  ((d.authorizations.visible t (tenantId, agentId)).bind id).isSome

def kill (uuid4 : Txn → Nat → String) (scope : KillScope) (reason : KillReason) (now : DateTime) :
    Prog KillDb KillError KillOutcome := do
  let state ← getOrCreateKillState uuid4 scope now
  if state.state ≠ .clear then pure (.notClear state.policyId)
  else
    match ← tryTransitionToKilled scope state.killId reason now with
    | none => pure (.lost state.policyId)
    | some version => do
        publishKillDecision scope state version .kill
          (s!"reason={reason.value} " ++ scope.note state.policyId version) now
        pure (.killed state.policyId version)

/-- The scope a usage event touches. -/
def UsageRecord.killScope (record : UsageRecord) : KillScope :=
  ⟨record.tenantId, record.teamId, record.projectId, record.agentId⟩

/-- The transaction of `_evaluate`. -/
def evaluateKill (uuid4 : Txn → Nat → String) (record : UsageRecord)
    (maxSingleTxCostCents : Option Nat) (now : DateTime) : Prog KillDb KillError KillOutcome := do
  let gated ← Prog.query (isTenantGated record.tenantId)
  let authorized ← if gated then Prog.query (isAuthorized record.tenantId record.agentId)
    else pure false
  match detectReason gated authorized record.costEstimateCents maxSingleTxCostCents with
  | none => pure .passed
  | some reason => kill uuid4 record.killScope reason now

/-! ## authorizations -/

/-- `_clear_scope`: transition one killed scope to clear and queue the decision. -/
def clearScope (caller : Caller) (scope : KillScope) (state : KillRow) (now : DateTime) :
    Prog KillDb KillError Bool := do
  match ← tryTransitionToClear caller scope state.killId now with
  | none => pure false
  | some version => do
      publishKillDecision scope state version .clear (scope.note state.policyId version) now
      pure true

/-- The loop of `authorize_agent`. -/
def clearScopes (now : DateTime) :
    List (KillScope × KillRow) → List String → Prog KillDb KillError (List String)
  | [], cleared => pure cleared
  | (scope, state) :: rest, cleared => do
      if ← clearScope .authorizeAgent scope state now then
        clearScopes now rest (cleared ++ [state.killId])
      else clearScopes now rest cleared

/-- `INSERT … ON CONFLICT DO NOTHING` on the allow-list. -/
def insertAuthorization (tbl : Table (String × String) (Option DateTime)) (t : Txn)
    (k : String × String) (now : DateTime) :
    Option (Bool × Table (String × String) (Option DateTime)) :=
  if tbl.free t k then
    match tbl.visible t k with
    | some (some _) => some (false, tbl)
    | _ => some (true, tbl.write t k (some now))
  else none

def authorizeAgent (tenantId agentId : String) (now : DateTime) :
    Prog KillDb KillError KillOutcome := do
  Prog.exec fun t d => (insertAuthorization d.authorizations t (tenantId, agentId) now).map
    fun p => ((), { d with authorizations := p.2 })
  let states ← Prog.exec fun t d =>
    let states := killedScopesForAgent tenantId agentId .unauthorizedAgent t d
    some (states, { d with listed := d.listed ++ states.map fun p => (t, p.1) })
  let cleared ← clearScopes now states []
  pure (.authorized cleared)

def revokeAgent (tenantId agentId : String) : Prog KillDb KillError KillOutcome := do
  Prog.exec fun t d => (d.authorizations.updateWhere t (tenantId, agentId) Option.isSome
    fun _ => none).map fun p => ((), { d with authorizations := p.2 })
  pure .revoked

/-- `clear_kill_switch`: a scope that is not killed, or never seen, is a no-op. -/
def clearKillSwitch (scope : KillScope) (now : DateTime) : Prog KillDb KillError KillOutcome := do
  match ← Prog.query fun t d => d.states.visible t scope with
  | none => pure (.cleared false)
  | some state =>
      if state.state ≠ .killed then pure (.cleared false)
      else do
        let performed ← clearScope .clearKillSwitch scope state now
        pure (.cleared performed)

/-! ## the system -/

/-- A call on the kill switch: one transaction each. -/
inductive KillCall
  | evaluate (record : UsageRecord) (maxSingleTxCostCents : Option Nat) (now : DateTime)
  | authorize (tenantId agentId : String) (now : DateTime)
  | revoke (tenantId agentId : String)
  | clear (scope : KillScope) (now : DateTime)

def killProg (uuid4 : Txn → Nat → String) : KillCall → Prog KillDb KillError KillOutcome
  | .evaluate record ceiling now => evaluateKill uuid4 record ceiling now
  | .authorize tenantId agentId now => authorizeAgent tenantId agentId now
  | .revoke tenantId agentId => revokeAgent tenantId agentId
  | .clear scope now => clearKillSwitch scope now

abbrev KillSys := Sys KillDb KillError KillCall KillOutcome

def KillSys.init : KillSys := Sys.start KillDb.empty

end Anoryx.Delta
