import Anoryx.Delta.BudgetEngine
import Anoryx.Delta.Reversal

/-!
# Anoryx.Delta.Forecast

The spend that a forecast starts from (`forecasting/service.py`), beside the spend that the
engine enforces on (`_evaluate_budget`).

Both ask `scope_spend_cents`, for the current period of the same budget; the forecast asks up
to `now`, the engine up to the end of the period.  `forecast_agrees_iff` says when that is the
same.  The projection, the exhaustion and the recommendations are floating-point estimates over
the reported spend and are left out.
-/

namespace Anoryx.Delta

open ReadCommitted

/-! ## the forecast -/

def periodSpend (ledger : LedgerView) (b : BudgetDefinition) (start stop : DateTime) : Int :=
  scopeSpendCents ledger b.scope b.tenantId b.teamId b.projectId b.agentId b.currency start stop

/-- What is exact in a `BudgetForecastView`. -/
structure BudgetForecastView where
  budgetId : String
  tenantId : String
  scope : BudgetScope
  teamId : String
  projectId : String
  agentId : String
  period : BudgetPeriod
  currency : String
  capCostCents : Option Nat
  periodStart : DateTime
  periodEnd : DateTime
  currentPeriodSpendCents : Int

/-- `_forecast_for`; `period_end` raises in the last window of year 9999. -/
def forecastFor (ledger : LedgerView) (b : BudgetDefinition) (now : DateTime) : Option BudgetForecastView := do
  let start := periodStart b.period now
  let stop ← periodEnd b.period now
  some {
    budgetId := b.budgetId
    tenantId := b.tenantId
    scope := b.scope
    teamId := b.teamId
    projectId := b.projectId
    agentId := b.agentId
    period := b.period
    currency := b.currency
    capCostCents := b.limitCostCents
    periodStart := start
    periodEnd := stop
    currentPeriodSpendCents := periodSpend ledger b start now }

/-! ## the enforced spend -/

/-- What `_evaluate_budget` compares with the cap. -/
def evaluatedSpend (ledger : LedgerView) (b : BudgetDefinition) (now : DateTime) : Option Int :=
  (periodEnd b.period now).map (periodSpend ledger b (periodStart b.period now))

/-! ## agreement -/

/-- The entries of the budget's spend that are dated in `[now, stop)`. -/
def aheadEntries (ledger : LedgerView) (b : BudgetDefinition) (now stop : DateTime) : List EntryRow :=
  ledger.entries.filter
    (inScopeSpend ledger b.scope b.tenantId b.teamId b.projectId b.agentId b.currency now stop)

theorem periodSpend_add (ledger : LedgerView) (b : BudgetDefinition) {start now stop : DateTime}
    (hstart : start ≤ now) (hstop : now ≤ stop) :
    periodSpend ledger b start stop = periodSpend ledger b start now + periodSpend ledger b now stop := by
  simp only [periodSpend, scopeSpendCents, sum_map_filter]
  rw [← List.sum_map_add]
  congr 1
  refine List.map_congr_left fun e _ => ?_
  -- an entry lies before `now` or not, and in one of the two halves accordingly
  by_cases hbefore : e.timestamp < now
  · have hahead : inWindow now stop e = false := by simp [inWindow, hbefore]
    have hcut : inWindow start stop e = inWindow start now e := by
      simp [inWindow, hbefore, hbefore.trans_le hstop]
    simp [inScopeSpend, hahead, hcut]
  · have hbehind : inWindow start now e = false := by simp [inWindow, hbefore]
    have hcut : inWindow start stop e = inWindow now stop e := by
      simp [inWindow, not_lt.mp hbefore, hstart.trans (not_lt.mp hbefore)]
    simp [inScopeSpend, hbehind, hcut]

theorem periodSpend_ahead (ledger : LedgerView) (b : BudgetDefinition) (now stop : DateTime) :
    periodSpend ledger b now stop =
      rowTotal .debit (aheadEntries ledger b now stop) - rowTotal .credit (aheadEntries ledger b now stop) :=
  (rowTotal_sub (aheadEntries ledger b now stop)).symm

/-- **When the forecast reports what is enforced**: exactly when, among the entries of the budget's
spend that are dated from `now` to the end of the period, the debits and the credits add up to the
same. -/
theorem forecast_agrees_iff (ledger : LedgerView) (b : BudgetDefinition) (now : DateTime) :
    (forecastFor ledger b now).map BudgetForecastView.currentPeriodSpendCents = evaluatedSpend ledger b now ↔
      ∀ stop, periodEnd b.period now = some stop →
        rowTotal .debit (aheadEntries ledger b now stop) = rowTotal .credit (aheadEntries ledger b now stop) := by
  unfold forecastFor evaluatedSpend
  cases hstop : periodEnd b.period now with
  | none => simp
  | some stop =>
      have hcut := periodSpend_add ledger b (periodStart_le b.period now) (lt_periodEnd hstop).le
      rw [periodSpend_ahead ledger b now stop] at hcut
      simp only [Option.bind_eq_bind, Option.bind_some, Option.map_some, Option.some.injEq, forall_eq']
      omega

def sampleTenantBudget : BudgetDefinition where
  budgetId := "budget"
  tenantId := sampleTenant
  scope := .tenant
  teamId := ""
  projectId := ""
  agentId := ""
  period := .daily
  limitTokens := none
  limitCostCents := some 500
  currency := "USD"
  policyId := "policy"

def sampleNow : DateTime := .ofFields 2026 7 1 9 0 0 0 (Eq.refl true)

/-- Of events that are dated after `now` the forecast counts nothing, and the engine all: it
enforces a cap of 500 cents on 700, and the forecast reports none. -/
theorem forecast_disagrees : ∃ s, run (ledgerProg sampleUuid5) LedgerSys.init sampleSchedule = some s ∧
    (forecastFor (s.db.view sampleTenant) sampleTenantBudget sampleNow).map
      BudgetForecastView.currentPeriodSpendCents = some 0 ∧
    evaluatedSpend (s.db.view sampleTenant) sampleTenantBudget sampleNow = some 700 ∧
    isOverCostCap 700 sampleTenantBudget = true ∧ isOverCostCap 0 sampleTenantBudget = false := by
  have hrun : (run (ledgerProg sampleUuid5) LedgerSys.init sampleSchedule).map (fun s =>
      ((forecastFor (s.db.view sampleTenant) sampleTenantBudget sampleNow).map
        BudgetForecastView.currentPeriodSpendCents,
      evaluatedSpend (s.db.view sampleTenant) sampleTenantBudget sampleNow)) = some (some 0, some 700) := by
    decide +kernel
  obtain ⟨s, hs, hval⟩ := Option.map_eq_some_iff.mp hrun
  obtain ⟨hforecast, hspend⟩ := Prod.mk.inj hval
  exact ⟨s, hs, hforecast, hspend, by decide, by decide⟩

end Anoryx.Delta
