import Anoryx.Delta.Budget
import Anoryx.Delta.LedgerIntegrity

/-!
# Anoryx.Delta.Spend

The two readers of spend: the budget engine's `scope_spend_cents`
(`budget_engine/spend.py`) nets debits against credits over the expense
accounts of one currency; the dashboards' `spend_summary`
(`dashboards/store.py`) adds up every debit.

`spendSummary_eq_scopeSpend_iff` says when they report the same number.  Entry
by entry the dashboards never report less, so the totals agree exactly when no
single entry is read differently.
-/

namespace Anoryx.Delta

open ReadCommitted

/-- The ledger rows that a session bound to one tenant can read. -/
structure LedgerView where
  entries : List EntryRow
  account : String → Option AccountRow

/-- What a session of `tenant` reads of the committed ledger, under row-level
security. -/
def LedgerDb.view (d : LedgerDb) (tenant : String) : LedgerView where
  entries := (d.entries.rows.map Prod.snd).filter fun e => e.tenantId = tenant
  account k := (d.accounts.committed k).filter fun a => a.tenantId = tenant

/-! ## the budget engine's reader -/

/-- The scope's filter on an entry. -/
def inScope (scope : BudgetScope) (teamId projectId agentId : String) (e : EntryRow) : Bool :=
  match scope with
  | .tenant => true
  | .team => e.teamId = teamId
  | .project => e.projectId = projectId
  | .agent => e.agentId = agentId

/-- The half-open window `[start, stop)`. -/
def inWindow (start stop : DateTime) (e : EntryRow) : Bool :=
  decide (start ≤ e.timestamp) && decide (e.timestamp < stop)

/-- The joined account is an expense account in the currency. -/
def onExpenseAccount (v : LedgerView) (currency : String) (e : EntryRow) : Bool :=
  (v.account e.accountId).any fun a => a.type = .expense ∧ a.currency = currency

/-- A debit counts, a credit counts back. -/
def signedAmount (e : EntryRow) : Int :=
  match e.direction with
  | .debit => e.amountMinorUnits
  | .credit => -e.amountMinorUnits

/-- The WHERE clause of `scope_spend_cents`. -/
def inScopeSpend (v : LedgerView) (scope : BudgetScope)
    (tenantId teamId projectId agentId currency : String) (start stop : DateTime) (e : EntryRow) :
    Bool :=
  e.tenantId = tenantId && onExpenseAccount v currency e && inWindow start stop e &&
    inScope scope teamId projectId agentId e

/-- `scope_spend_cents`: the net expense balance of a scope over a window. -/
def scopeSpendCents (v : LedgerView) (scope : BudgetScope)
    (tenantId teamId projectId agentId currency : String) (start stop : DateTime) : Int :=
  ((v.entries.filter
    (inScopeSpend v scope tenantId teamId projectId agentId currency start stop)).map signedAmount).sum

/-! ## the dashboards' reader -/

/-- `ScopeFilter`: optional narrowing by the caller. -/
structure ScopeFilter where
  teamId : Option String := none
  projectId : Option String := none
  agentId : Option String := none

/-- `_scope_clauses` -/
def ScopeFilter.matches (f : ScopeFilter) (e : EntryRow) : Bool :=
  f.teamId.all (e.teamId = ·) && f.projectId.all (e.projectId = ·) && f.agentId.all (e.agentId = ·)

structure SpendSummaryRow where
  totalCostCents : Nat
  requestCount : Nat
deriving DecidableEq

/-- `spend_summary`: every debit of the window, narrowed by the scope. -/
def spendSummary (v : LedgerView) (start stop : DateTime) (scope : ScopeFilter) : SpendSummaryRow :=
  let rows := v.entries.filter fun e =>
    (e.direction = .debit) && inWindow start stop e && scope.matches e
  ⟨(rows.map EntryRow.amountMinorUnits).sum, rows.length⟩

/-- The dashboards' filter for a budget scope. -/
def scopeFilter (scope : BudgetScope) (teamId projectId agentId : String) : ScopeFilter :=
  match scope with
  | .tenant => {}
  | .team => { teamId := some teamId }
  | .project => { projectId := some projectId }
  | .agent => { agentId := some agentId }

theorem scopeFilter_matches (scope : BudgetScope) (teamId projectId agentId : String)
    (e : EntryRow) :
    (scopeFilter scope teamId projectId agentId).matches e = inScope scope teamId projectId agentId e := by
  cases scope <;> simp [scopeFilter, ScopeFilter.matches, inScope]

/-! ## agreement -/

/-- What the dashboards report beyond the engine, for one entry. -/
def overstatement (v : LedgerView) (currency : String) (e : EntryRow) : Nat :=
  if (e.direction = .debit) = (onExpenseAccount v currency e = true) then 0 else e.amountMinorUnits

theorem spendSummary_eq_add_overstatement {v : LedgerView} {tenant : String}
    (hv : ∀ e ∈ v.entries, e.tenantId = tenant) (scope : BudgetScope)
    (teamId projectId agentId currency : String) (start stop : DateTime) :
    ((spendSummary v start stop (scopeFilter scope teamId projectId agentId)).totalCostCents : Int) =
      scopeSpendCents v scope tenant teamId projectId agentId currency start stop +
        (((v.entries.filter fun e => inWindow start stop e &&
          inScope scope teamId projectId agentId e).map (overstatement v currency)).sum : Nat) := by
  unfold spendSummary scopeSpendCents
  simp only [scopeFilter_matches]
  generalize v.entries = l at hv ⊢
  induction l with
  | nil => rfl
  | cons e es ih =>
      have hten : e.tenantId = tenant := hv e (by simp)
      have ih := ih fun e' he' => hv e' (by simp [he'])
      by_cases hread : (inWindow start stop e && inScope scope teamId projectId agentId e) = true
      · rw [Bool.and_eq_true] at hread
        simp only [List.filter_cons, inScopeSpend, hten, hread.1, hread.2, decide_true, Bool.true_and,
          Bool.and_true, if_true]
        cases hd : e.direction <;> cases hx : onExpenseAccount v currency e <;>
          simp only [hd, hx, overstatement, signedAmount, decide_true, decide_false, if_true, if_false,
            reduceCtorEq, Bool.false_eq_true, List.map_cons, List.sum_cons, eq_iff_iff, iff_false,
            iff_true, not_true_eq_false] <;>
          omega
      · rw [Bool.and_eq_true, not_and_or] at hread
        rcases hread with hw | hs
        · simpa [inScopeSpend, hw] using ih
        · simpa [inScopeSpend, hs] using ih

/-- **When the two readers of spend agree**: the dashboards and the budget engine
report the same total for a scope and a window exactly when every nonzero entry
there is a debit if it is on an expense account of the currency, and a credit
if it is not. -/
theorem spendSummary_eq_scopeSpend_iff (d : LedgerDb) (tenant : String) (scope : BudgetScope)
    (teamId projectId agentId currency : String) (start stop : DateTime) :
    ((spendSummary (d.view tenant) start stop
        (scopeFilter scope teamId projectId agentId)).totalCostCents : Int) =
      scopeSpendCents (d.view tenant) scope tenant teamId projectId agentId currency start stop ↔
    ∀ e ∈ (d.view tenant).entries, inWindow start stop e = true →
      inScope scope teamId projectId agentId e = true → e.amountMinorUnits ≠ 0 →
        (e.direction = .debit ↔ onExpenseAccount (d.view tenant) currency e = true) := by
  have hv : ∀ e ∈ (d.view tenant).entries, e.tenantId = tenant := by
    intro e he
    simpa using (List.mem_filter.mp he).2
  rw [spendSummary_eq_add_overstatement hv scope teamId projectId agentId currency start stop]
  have hzero : ∀ (x : Int) (n : Nat), x + n = x ↔ n = 0 := by omega
  rw [hzero, List.sum_eq_zero_iff_forall_eq_nat]
  constructor
  · intro h e he hw hs hne
    have hover := h _ (List.mem_map_of_mem
      (List.mem_filter.mpr ⟨he, by rw [hw, hs]; rfl⟩))
    unfold overstatement at hover
    split at hover
    · next heq => exact Eq.to_iff heq
    · exact absurd hover hne
  · intro h n hn
    obtain ⟨e, he, rfl⟩ := List.mem_map.mp hn
    obtain ⟨hmem, hread⟩ := List.mem_filter.mp he
    rw [Bool.and_eq_true] at hread
    unfold overstatement
    split
    · rfl
    · next hdiff =>
        by_contra hne
        exact hdiff (propext (h e hmem hread.1 hread.2 hne))

def sampleSpends (s : LedgerSys) : Nat × Int :=
  let v := s.db.view sampleTenant
  ((spendSummary v sampleTime.startOfDay sampleNextDay (scopeFilter .tenant "" "" "")).totalCostCents,
    scopeSpendCents v .tenant sampleTenant "" "" "" "USD" sampleTime.startOfDay sampleNextDay)

/-- The dashboards count the debit on the subscription receivable as spend: they
report 1200 cents where the engine enforces on 700. -/
theorem spendSummary_ne_scopeSpend_sample : ∃ s,
    run (ledgerProg sampleUuid5) LedgerSys.init sampleSchedule = some s ∧
      ((spendSummary (s.db.view sampleTenant) sampleTime.startOfDay sampleNextDay
        (scopeFilter .tenant "" "" "")).totalCostCents : Int) ≠
      scopeSpendCents (s.db.view sampleTenant) .tenant sampleTenant "" "" "" "USD"
        sampleTime.startOfDay sampleNextDay := by
  have hrun : (run (ledgerProg sampleUuid5) LedgerSys.init sampleSchedule).map sampleSpends =
      some (1200, 700) := by
    decide +kernel
  obtain ⟨s, hs, hval⟩ := Option.map_eq_some_iff.mp hrun
  refine ⟨s, hs, ?_⟩
  obtain ⟨htotal, hspend⟩ := Prod.mk.inj hval
  rw [htotal, hspend]
  decide

end Anoryx.Delta
