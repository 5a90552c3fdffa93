import Anoryx.Calendar

/-!
# Anoryx.Delta.Budget

Budgets as the engine evaluates them: scopes and periods (`budget.py`), the
window a period puts around an instant (`budget_engine/periods.py`), the
persisted definition and its selection by event (`definitions.py`), the
spend-versus-cap decisions (`decision.py`) and the `budget_limit` record that
is published for a budget (`emit.py`, `attribution.py`).
-/

namespace Anoryx.Delta

/-! ## scopes and periods -/

inductive BudgetScope
  | tenant
  | team
  | project
  | agent
deriving DecidableEq

inductive BudgetPeriod
  | hourly
  | daily
  | monthly
deriving DecidableEq

/-- The start of the budget window containing `now`. -/
def periodStart (period : BudgetPeriod) (now : DateTime) : DateTime :=
  match period with
  | .hourly => now.startOfHour
  | .daily => now.startOfDay
  | .monthly => now.startOfMonth

/-- The start of the next window; `none` where `datetime` raises, at the end of
year 9999. -/
def periodEnd (period : BudgetPeriod) (now : DateTime) : Option DateTime :=
  match period with
  | .hourly => (periodStart .hourly now).nextHour
  | .daily => (periodStart .daily now).nextDay
  | .monthly => (periodStart .monthly now).nextMonth

/-- The fields that `%Y-%m-%dT%H:%M:%SZ` prints. -/
structure BucketLabel where
  year : Nat
  month : Nat
  day : Nat
  hour : Nat
  minute : Nat
  second : Nat
deriving DecidableEq

/-- The key of the window: the printed form of its start. -/
def periodBucketLabel (period : BudgetPeriod) (now : DateTime) : BucketLabel :=
  let start := periodStart period now
  ⟨start.year, start.month, start.day, start.hour, start.minute, start.second⟩

theorem periodStart_le (period : BudgetPeriod) (now : DateTime) : periodStart period now ≤ now := by
  cases period with
  | hourly => exact now.startOfHour_le
  | daily => exact now.startOfDay_le
  | monthly => exact now.startOfMonth_le

theorem lt_periodEnd {period : BudgetPeriod} {now stop : DateTime}
    (h : periodEnd period now = some stop) : now < stop := by
  cases period with
  | hourly => exact DateTime.lt_nextHour (d := now.startOfHour) rfl rfl h
  | daily => exact DateTime.lt_of_dateRank_lt (DateTime.dateRank_lt_nextDay (d := now.startOfDay) rfl h)
  | monthly =>
      exact DateTime.lt_of_dateRank_lt
        (DateTime.dateRank_lt_nextMonth (d := now.startOfMonth) rfl rfl h)

/-! ## definitions -/

def maxBudgetTokens : Nat := 1000000000000

def maxBudgetCostCents : Nat := 100000000000

/-- A persisted budget cap. -/
structure BudgetDefinition where
  budgetId : String
  tenantId : String
  scope : BudgetScope
  teamId : String
  projectId : String
  agentId : String
  period : BudgetPeriod
  limitTokens : Option Nat
  limitCostCents : Option Nat
  currency : String
  policyId : String
deriving DecidableEq

/-- The WHERE clause of `budgets_for_event`. -/
def BudgetDefinition.touchedBy (b : BudgetDefinition) (teamId projectId agentId : String) : Bool :=
  match b.scope with
  | .tenant => true
  | .team => b.teamId = teamId
  | .project => b.projectId = projectId
  | .agent => b.agentId = agentId

/-- `budgets_for_event`, on a session of `tenantId`. -/
def budgetsForEvent (definitions : List BudgetDefinition)
    (tenantId teamId projectId agentId : String) : List BudgetDefinition :=
  definitions.filter fun b => b.tenantId = tenantId ∧ b.touchedBy teamId projectId agentId

/-! ## decisions -/

/-- Cumulative cost has strictly exceeded the cost cap. -/
def isOverCostCap (spendCents : Int) (b : BudgetDefinition) : Bool :=
  match b.limitCostCents with
  | none => false
  | some cap => (cap : Int) < spendCents

/-- The highest soft-threshold percentage crossed while spend is within the cap. -/
def softWarningBand (spendCents : Int) (b : BudgetDefinition) (pcts : List Nat) : Option Nat :=
  match b.limitCostCents with
  | none => none
  | some cap =>
      if cap = 0 then none
      else if (cap : Int) < spendCents then none
      else (pcts.filter fun p => 0 < p ∧ p < 100 ∧ ((p * cap : Nat) : Int) ≤ spendCents * 100).max?

/-! ## the published record -/

/-- A `budget_limit` policy record. -/
structure BudgetLimitPolicy where
  tenantId : String
  teamId : String
  projectId : String
  agentId : String
  policyId : String
  policyVersion : Nat
  effectiveFrom : DateTime
  signature : String
  period : BudgetPeriod
  scope : BudgetScope
  maxTokensPerPeriod : Option Nat
  maxCostCentsPerPeriod : Option Nat
deriving DecidableEq

inductive EmitError
  | limitMissing
  | limitOutOfRange
  | policyVersionOutOfRange
deriving DecidableEq

/-- `_MAX_POLICY_VERSION`: 2^53 - 1. -/
def maxPolicyVersion : Nat := 9007199254740991

/-- `_PLACEHOLDER_SIGNATURE`, replaced at drain time. -/
def placeholderSignature : String := "AAAAAAAAAAAA.BBBBBBBBBBBB.CCCCCCCCCCCC"

/-- `BudgetConcept`: a ceiling per period at a scope, with its limits in bounds and
at least one of them set. -/
structure BudgetConcept where
  tenantId : String
  teamId : String
  projectId : String
  agentId : String
  scope : BudgetScope
  period : BudgetPeriod
  limitTokens : Option Nat
  limitCostCents : Option Nat
  tokens_le : limitTokens.all (· ≤ maxBudgetTokens) = true
  cost_le : limitCostCents.all (· ≤ maxBudgetCostCents) = true
  limited : limitTokens.isSome || limitCostCents.isSome

/-- `to_concept`: the field validators, then the at-least-one-of rule. -/
def BudgetDefinition.toConcept (b : BudgetDefinition) : Except EmitError BudgetConcept :=
  if hbound : b.limitTokens.all (· ≤ maxBudgetTokens) = true ∧
      b.limitCostCents.all (· ≤ maxBudgetCostCents) = true then
    if hlimited : b.limitTokens.isSome || b.limitCostCents.isSome then
      .ok ⟨b.tenantId, b.teamId, b.projectId, b.agentId, b.scope, b.period, b.limitTokens,
        b.limitCostCents, hbound.1, hbound.2, hlimited⟩
    else .error .limitMissing
  else .error .limitOutOfRange

/-- `budget_concept_to_policy_payload`, for a signature that is compact JWS. -/
def budgetConceptToPolicyPayload (concept : BudgetConcept) (policyId : String) (policyVersion : Nat)
    (effectiveFrom : DateTime) (signature : String) : Except EmitError BudgetLimitPolicy :=
  if 1 ≤ policyVersion ∧ policyVersion ≤ maxPolicyVersion then
    .ok {
      tenantId := concept.tenantId
      teamId := concept.teamId
      projectId := concept.projectId
      agentId := concept.agentId
      policyId := policyId
      policyVersion := policyVersion
      effectiveFrom := effectiveFrom
      signature := signature
      period := concept.period
      scope := concept.scope
      maxTokensPerPeriod := concept.limitTokens
      maxCostCentsPerPeriod := concept.limitCostCents }
  else .error .policyVersionOutOfRange

def buildPolicyPayload (b : BudgetDefinition) (policyVersion : Nat) (effectiveFrom : DateTime) :
    Except EmitError BudgetLimitPolicy := do
  let concept ← b.toConcept
  budgetConceptToPolicyPayload concept b.policyId policyVersion effectiveFrom placeholderSignature

end Anoryx.Delta
