import Anoryx.Delta.Budget
import Anoryx.Delta.Ledger
import Anoryx.ReadCommitted.Family
import Anoryx.ReadCommitted.References
import Anoryx.ReadCommitted.RelyGuarantee

/-!
# Anoryx.Delta.AllocationAdmin

Allocations of a budget total (`allocation_admin/service.py`, `store.py`): a request is
persisted with its targets once they reconcile with the total (`allocation.py`,
`reconciliation.py`), and is then approved or rejected.  An approval makes every target a
budget.

A decision takes effect by a conditional UPDATE of the allocation; the version that it
leaves in flight is the lock under which the targets are written.
-/

namespace Anoryx.Delta

open ReadCommitted

/-! ## reconciliation -/

structure AllocationTarget where
  scopeRef : String
  amount : Money

/-- Python's `str` of a sorted list of currencies. -/
def currenciesText (currencies : List String) : String :=
  "[" ++ ", ".intercalate ((currencies.mergeSort fun a b => a ≤ b).map fun c => "'" ++ c ++ "'") ++ "]"

def reconcileAllocation (total : Money) (targets : List Money) : List String :=
  let currencies := (total.currency :: targets.map Money.currency).dedup
  if currencies.length ≠ 1 then
    ["mixed-currency allocation rejected: " ++ currenciesText currencies]
  else
    let distributed := (targets.map Money.minorUnits).sum
    if distributed ≠ total.minorUnits then
      ["allocation not reconciled: distributed " ++ toString distributed ++ " != total " ++ toString total.minorUnits]
    else []

/-- `Allocation`: a total and its targets, which reconcile. -/
structure Allocation where
  tenantId : String
  total : Money
  targets : List AllocationTarget
  period : BudgetPeriod
  reconciled : reconcileAllocation total (targets.map AllocationTarget.amount) = []

theorem sum_of_reconciled {total : Money} {targets : List Money} (h : reconcileAllocation total targets = []) :
    (targets.map Money.minorUnits).sum = total.minorUnits := by
  unfold reconcileAllocation at h
  grind

/-! ## the tables -/

inductive AllocationStatus
  | requested
  | approved
  | rejected
deriving DecidableEq

/-- A row of `allocations`, under its `allocation_id`. -/
structure AllocationRow where
  tenantId : String
  totalMinorUnits : Nat
  currency : String
  period : BudgetPeriod
  status : AllocationStatus
  requestedBy : String
  requestedAt : Int
  decidedBy : Option String
  decidedAt : Option Int
deriving DecidableEq

/-- A row of `allocation_targets`, under its `target_id`. -/
structure TargetRow where
  allocationId : String
  tenantId : String
  scope : BudgetScope
  teamId : String
  projectId : String
  agentId : String
  amountMinorUnits : Nat
  budgetId : Option String
deriving DecidableEq

structure AllocationDb where
  allocations : Table String AllocationRow
  targets : Table String TargetRow
  budgets : Table String BudgetDefinition

def AllocationDb.empty : AllocationDb := ⟨Table.empty, Table.empty, Table.empty⟩

instance : Database AllocationDb where
  commit t d := ⟨d.allocations.commit t, d.targets.commit t, d.budgets.commit t⟩
  rollback t d := ⟨d.allocations.rollback t, d.targets.rollback t, d.budgets.rollback t⟩

/-- An allocation with its targets. -/
structure AllocationRecord where
  allocationId : String
  row : AllocationRow
  targets : List (String × TargetRow)

/-! ## the requests -/

structure AllocationTargetIn where
  scope : BudgetScope
  teamId : String
  projectId : String
  agentId : String
  amountMinorUnits : Nat

/-- A valid `AllocationCreateRequest`, with the ids and the moment that the call takes. -/
structure AllocationCreateRequest where
  tenantId : String
  totalMinorUnits : Nat
  currency : String
  period : BudgetPeriod
  targets : List AllocationTargetIn
  requestedBy : String
  allocationId : String
  targetId : Nat → String
  now : Int

inductive ApprovalAction
  | approve
  | reject
deriving DecidableEq

/-- A valid `ApprovalDecisionRequest` for an allocation, with the ids and the moment that the
call takes. -/
structure ApprovalDecisionRequest where
  allocationId : String
  tenantId : String
  action : ApprovalAction
  actor : String
  budgetId : Nat → String
  policyId : Nat → String
  now : Int

inductive AllocationError
  /-- the `ValueError` that pydantic wraps -/
  | reconciliation (message : String)
  | notFound (allocationId : String)
  | alreadyDecided (allocationId : String)
  | limitOutOfRange
  | uniqueViolation
deriving DecidableEq

/-! ## create -/

def targetScopeRef (tenantId : String) (target : AllocationTargetIn) : String :=
  match target.scope with
  | .tenant => tenantId
  | .team => target.teamId
  | .project => target.projectId
  | .agent => target.agentId

/-- `Money(…)`: `bounded_count` refuses what no wire contract can carry. -/
def money (minorUnits : Nat) (currency : String) : Except AllocationError Money :=
  if h : minorUnits ≤ maxMoneyMinorUnits then .ok ⟨minorUnits, currency, h⟩
  else .error (.reconciliation "minor_units exceeds wire maximum 100000000000")

def AllocationCreateRequest.target (req : AllocationCreateRequest) (target : AllocationTargetIn) :
    Except AllocationError AllocationTarget :=
  (money target.amountMinorUnits req.currency).map fun amount => ⟨targetScopeRef req.tenantId target, amount⟩

/-- The check of `create_allocation_request`: an `Allocation` of what is asked for. -/
def AllocationCreateRequest.allocation (req : AllocationCreateRequest) : Except AllocationError Allocation := do
  let total ← money req.totalMinorUnits req.currency
  let targets ← req.targets.mapM req.target
  if h : reconcileAllocation total (targets.map AllocationTarget.amount) = [] then
    .ok ⟨req.tenantId, total, targets, req.period, h⟩
  else
    .error (.reconciliation ("; ".intercalate (reconcileAllocation total (targets.map AllocationTarget.amount))))

def AllocationCreateRequest.row (req : AllocationCreateRequest) : AllocationRow where
  tenantId := req.tenantId
  totalMinorUnits := req.totalMinorUnits
  currency := req.currency
  period := req.period
  status := .requested
  requestedBy := req.requestedBy
  requestedAt := req.now
  decidedBy := none
  decidedAt := none

def AllocationCreateRequest.targetRow (req : AllocationCreateRequest) (target : AllocationTargetIn) : TargetRow where
  allocationId := req.allocationId
  tenantId := req.tenantId
  scope := target.scope
  teamId := target.teamId
  projectId := target.projectId
  agentId := target.agentId
  amountMinorUnits := target.amountMinorUnits
  budgetId := none

/-- The INSERT of an allocation; `false` when there is one under the id. -/
def insertAllocation (allocationId : String) (row : AllocationRow) (t : Txn) (d : AllocationDb) :
    Option (Bool × AllocationDb) :=
  (d.allocations.insertOrIgnore t allocationId row).map fun p => (p.1, { d with allocations := p.2 })

def insertTarget (targetId : String) (row : TargetRow) (t : Txn) (d : AllocationDb) : Option (Bool × AllocationDb) :=
  (d.targets.insertOrIgnore t targetId row).map fun p => (p.1, { d with targets := p.2 })

def insertBudget (budgetId : String) (definition : BudgetDefinition) (t : Txn) (d : AllocationDb) :
    Option (Bool × AllocationDb) :=
  (d.budgets.insertOrIgnore t budgetId definition).map fun p => (p.1, { d with budgets := p.2 })

/-- The loop of `create_allocation`. -/
def insertTargets (req : AllocationCreateRequest) :
    Nat → List AllocationTargetIn → Prog AllocationDb AllocationError (List (String × TargetRow))
  | _, [] => pure []
  | i, target :: targets => do
      Prog.inserting .uniqueViolation (insertTarget (req.targetId i) (req.targetRow target))
      let records ← insertTargets req (i + 1) targets
      pure ((req.targetId i, req.targetRow target) :: records)

def createAllocation (req : AllocationCreateRequest) : Prog AllocationDb AllocationError AllocationRecord := do
  Prog.inserting .uniqueViolation (insertAllocation req.allocationId req.row)
  let records ← insertTargets req 0 req.targets
  pure ⟨req.allocationId, req.row, records⟩

def createAllocationRequest (req : AllocationCreateRequest) : Prog AllocationDb AllocationError AllocationRecord := do
  let _ ← Prog.ofExcept req.allocation
  createAllocation req

/-! ## decide -/

/-- The row of `get_allocation`, in a session of the tenant. -/
def selectAllocation (tenantId allocationId : String) (t : Txn) (d : AllocationDb) : Option AllocationRow :=
  (d.allocations.visible t allocationId).filter fun row => row.tenantId = tenantId

/-- Its targets, in a session of the tenant. -/
def selectTargets (tenantId allocationId : String) (t : Txn) (d : AllocationDb) : List (String × TargetRow) :=
  (d.targets.scan t).filter fun p => p.2.allocationId = allocationId ∧ p.2.tenantId = tenantId

/-- `get_allocation`, in a session of the tenant. -/
def getAllocation (tenantId allocationId : String) : Prog AllocationDb AllocationError (Option AllocationRecord) := do
  let row ← Prog.query (selectAllocation tenantId allocationId)
  match row with
  | none => pure none
  | some row =>
    let targets ← Prog.query (selectTargets tenantId allocationId)
    pure (some ⟨allocationId, row, targets⟩)

def ApprovalAction.status : ApprovalAction → AllocationStatus
  | approve => .approved
  | reject => .rejected

/-- The values that a decision sets. -/
def ApprovalDecisionRequest.decide (decision : ApprovalDecisionRequest) (row : AllocationRow) : AllocationRow :=
  { row with
    status := decision.action.status
    decidedBy := some decision.actor
    decidedAt := some decision.now }

/-- `try_decide_allocation`, in a session of the tenant. -/
def tryDecideAllocation (decision : ApprovalDecisionRequest) (t : Txn) (d : AllocationDb) :
    Option (Bool × AllocationDb) :=
  (d.allocations.updateWhere t decision.allocationId
    (fun row => row.tenantId = decision.tenantId ∧ row.status = .requested) decision.decide).map
    fun p => (p.1.isSome, { d with allocations := p.2 })

/-- The `BudgetConcept` of a target: its amount caps the cost, nothing the tokens. -/
def AllocationRow.concept (row : AllocationRow) (target : TargetRow) : Except AllocationError BudgetConcept :=
  if h : target.amountMinorUnits ≤ maxBudgetCostCents then
    .ok {
      tenantId := row.tenantId
      teamId := target.teamId
      projectId := target.projectId
      agentId := target.agentId
      scope := target.scope
      period := row.period
      limitTokens := none
      limitCostCents := some target.amountMinorUnits
      tokens_le := rfl
      cost_le := decide_eq_true h
      limited := rfl }
  else .error .limitOutOfRange

def BudgetConcept.definition (concept : BudgetConcept) (currency budgetId policyId : String) : BudgetDefinition where
  budgetId := budgetId
  tenantId := concept.tenantId
  scope := concept.scope
  teamId := concept.teamId
  projectId := concept.projectId
  agentId := concept.agentId
  period := concept.period
  limitTokens := concept.limitTokens
  limitCostCents := concept.limitCostCents
  currency := currency
  policyId := policyId

/-- `create_budget`, for a concept in `currency`. -/
def createBudget (concept : BudgetConcept) (currency budgetId policyId : String) :
    Prog AllocationDb AllocationError BudgetDefinition := do
  Prog.inserting .uniqueViolation (insertBudget budgetId (concept.definition currency budgetId policyId))
  pure (concept.definition currency budgetId policyId)

/-- `set_target_budget_id`, in a session of the tenant. -/
def setTargetBudgetId (tenantId targetId budgetId : String) (t : Txn) (d : AllocationDb) :
    Option (Unit × AllocationDb) :=
  (d.targets.updateWhere t targetId (fun target => target.tenantId = tenantId)
    fun target => { target with budgetId := some budgetId }).map fun p => ((), { d with targets := p.2 })

/-- The loop of an approval. -/
def materialize (decision : ApprovalDecisionRequest) (row : AllocationRow) :
    Nat → List (String × TargetRow) → Prog AllocationDb AllocationError (List (String × TargetRow))
  | _, [] => pure []
  | i, (targetId, target) :: targets => do
      let concept ← Prog.ofExcept (row.concept target)
      let budget ← createBudget concept row.currency (decision.budgetId i) (decision.policyId i)
      Prog.exec (setTargetBudgetId decision.tenantId targetId budget.budgetId)
      let materialized ← materialize decision row (i + 1) targets
      pure ((targetId, { target with budgetId := some budget.budgetId }) :: materialized)

/-- `updated_targets` of `decide_allocation`. -/
def updatedTargets (decision : ApprovalDecisionRequest) (record : AllocationRecord) :
    Prog AllocationDb AllocationError (List (String × TargetRow)) :=
  if decision.action = .approve then materialize decision record.row 0 record.targets
  else pure record.targets

def decideAllocation (decision : ApprovalDecisionRequest) : Prog AllocationDb AllocationError AllocationRecord := do
  let record ← getAllocation decision.tenantId decision.allocationId
  match record with
  | none => Prog.raise (.notFound decision.allocationId)
  | some record =>
    if record.row.tenantId ≠ decision.tenantId then
      Prog.raise (.notFound decision.allocationId)
    else
      let transitioned ← Prog.exec (tryDecideAllocation decision)
      if transitioned = false then
        Prog.raise (.alreadyDecided decision.allocationId)
      else
        let targets ← updatedTargets decision record
        pure ⟨record.allocationId, decision.decide record.row, targets⟩

/-! ## the calls -/

inductive AllocationCall
  | create (req : AllocationCreateRequest)
  | decide (decision : ApprovalDecisionRequest)

/-- The transaction of a call. -/
def AllocationCall.prog : AllocationCall → Prog AllocationDb AllocationError AllocationRecord
  | create req => createAllocationRequest req
  | decide decision => decideAllocation decision

end Anoryx.Delta
