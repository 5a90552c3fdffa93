import Anoryx.Sentinel.PolicyStore

/-!
# Anoryx.Sentinel.Enforcement

The budget half of request-time enforcement (`policy/enforcement.py`): which
requests a budget policy applies to, and what has been used of it.

A budget has no wildcards; its own `scope` says which of the four ids are
significant, and a narrower scope keeps the ids of the wider ones.  "Used" is a
sum over the usage rows of the audit log since the start of the period; the row's
cost is a number of cents, not necessarily whole.
-/

namespace Anoryx.Sentinel

/-- The four ids of a request. -/
structure RequestScope where
  tenantId : String
  teamId : String
  projectId : String
  agentId : String
deriving DecidableEq

/-- The typed view of a `budget_limit` payload. -/
structure BudgetLimitPolicy where
  policyId : String
  tenantId : String
  teamId : String
  projectId : String
  agentId : String
  policyVersion : Nat
  period : BudgetPeriod
  scope : BudgetScope
  maxTokensPerPeriod : Option Nat
  maxCostCentsPerPeriod : Option ℚ
deriving DecidableEq

def budgetMatchesScope (view : BudgetLimitPolicy) (scope : RequestScope) : Bool :=
  if view.tenantId ≠ scope.tenantId then false
  else if view.scope ∈ [.team, .project, .agent] ∧ view.teamId ≠ scope.teamId then false
  else if view.scope ∈ [.project, .agent] ∧ view.projectId ≠ scope.projectId then false
  else if view.scope = .agent ∧ view.agentId ≠ scope.agentId then false
  else true

def periodStart (period : BudgetPeriod) (now : DateTime) : DateTime :=
  match period with
  | .hourly => now.startOfHour
  | .daily => now.startOfDay
  | .monthly => now.startOfMonth

/-- A row of `events_audit_log` with `event_type = 'usage'`. -/
structure UsageRow where
  tenantId : String
  teamId : String
  projectId : String
  agentId : String
  eventTimestamp : DateTime
  tokensIn : Nat
  tokensOut : Nat
  costEstimateCents : ℚ

def UsageRow.requestScope (row : UsageRow) : RequestScope :=
  ⟨row.tenantId, row.teamId, row.projectId, row.agentId⟩

/-- The WHERE clause of `budget_period_used`. -/
def inPeriodUsed (scope : RequestScope) (budget : BudgetLimitPolicy) (now : DateTime)
    (row : UsageRow) : Bool :=
  row.tenantId = scope.tenantId ∧
    (budget.scope ∈ [.team, .project, .agent] → row.teamId = scope.teamId) ∧
    (budget.scope ∈ [.project, .agent] → row.projectId = scope.projectId) ∧
    (budget.scope = .agent → row.agentId = scope.agentId) ∧
    periodStart budget.period now ≤ row.eventTimestamp

/-- `budget_period_used`: tokens and cost of the current period. -/
def budgetPeriodUsed (rows : List UsageRow) (scope : RequestScope) (budget : BudgetLimitPolicy)
    (now : DateTime) : Nat × ℚ :=
  let used := rows.filter (inPeriodUsed scope budget now)
  ((used.map fun row => row.tokensIn + row.tokensOut).sum, (used.map UsageRow.costEstimateCents).sum)

/-- A usage row counts towards a budget: the budget applies to its ids and it lies in
the current period. -/
def charges (budget : BudgetLimitPolicy) (now : DateTime) (row : UsageRow) : Bool :=
  budgetMatchesScope budget row.requestScope && decide (periodStart budget.period now ≤ row.eventTimestamp)

variable {view budget : BudgetLimitPolicy} {scope : RequestScope}

theorem budgetMatchesScope_iff :
    budgetMatchesScope view scope = true ↔ view.tenantId = scope.tenantId ∧
      (view.scope ∈ [.team, .project, .agent] → view.teamId = scope.teamId) ∧
      (view.scope ∈ [.project, .agent] → view.projectId = scope.projectId) ∧
      (view.scope = .agent → view.agentId = scope.agentId) := by
  unfold budgetMatchesScope
  split_ifs with h₁ h₂ h₃ h₄
  · simp [h₁]
  · simp only [false_iff]
    exact fun h => h₂.2 (h.2.1 h₂.1)
  · simp only [false_iff]
    exact fun h => h₃.2 (h.2.2.1 h₃.1)
  · simp only [false_iff]
    exact fun h => h₄.2 (h.2.2.2 h₄.1)
  · simp only [true_iff]
    exact ⟨not_not.mp h₁, fun h => not_not.mp fun hne => h₂ ⟨h, hne⟩,
      fun h => not_not.mp fun hne => h₃ ⟨h, hne⟩, fun h => not_not.mp fun hne => h₄ ⟨h, hne⟩⟩

theorem inPeriodUsed_eq_charges (h : budgetMatchesScope budget scope = true) (now : DateTime)
    (row : UsageRow) : inPeriodUsed scope budget now row = charges budget now row := by
  obtain ⟨hten, hteam, hproj, hagent⟩ := budgetMatchesScope_iff.mp h
  rw [Bool.eq_iff_iff, charges, Bool.and_eq_true, budgetMatchesScope_iff, inPeriodUsed,
    decide_eq_true_eq, decide_eq_true_eq]
  simp only [UsageRow.requestScope]
  constructor
  · rintro ⟨h₁, h₂, h₃, h₄, h₅⟩
    exact ⟨⟨hten.trans h₁.symm, fun hs => (hteam hs).trans (h₂ hs).symm,
      fun hs => (hproj hs).trans (h₃ hs).symm, fun hs => (hagent hs).trans (h₄ hs).symm⟩, h₅⟩
  · rintro ⟨⟨h₁, h₂, h₃, h₄⟩, h₅⟩
    exact ⟨h₁.symm.trans hten, fun hs => (h₂ hs).symm.trans (hteam hs),
      fun hs => (h₃ hs).symm.trans (hproj hs), fun hs => (h₄ hs).symm.trans (hagent hs), h₅⟩

theorem budgetPeriodUsed_cost (h : budgetMatchesScope budget scope = true) (rows : List UsageRow)
    (now : DateTime) :
    (budgetPeriodUsed rows scope budget now).2 =
      ((rows.filter (charges budget now)).map UsageRow.costEstimateCents).sum := by
  have hfilter : rows.filter (inPeriodUsed scope budget now) = rows.filter (charges budget now) :=
    List.filter_congr fun row _ => inPeriodUsed_eq_charges h now row
  simp only [budgetPeriodUsed, hfilter]

end Anoryx.Sentinel
