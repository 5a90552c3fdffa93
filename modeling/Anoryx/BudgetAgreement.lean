import Anoryx.Delta.Spend
import Anoryx.Sentinel.Enforcement

/-!
# Anoryx.BudgetAgreement

One budget, two services.  Delta sums the ledger entries of a budget and publishes
the budget as a policy; Sentinel sums the usage rows of that policy and enforces
it.  Each decides for itself which events belong to the budget.

Delta narrows by the one id its scope names: a project budget counts every event of
the project, an agent budget every event of the agent.  Sentinel keeps the ids of
the wider scopes: the project in the budget's team, the agent in the budget's team
and project.  `scopeAgreement_iff` says when that makes no difference.  The two also
part where the budget is kept in a currency that usage is not posted in, which
Sentinel does not know about.
-/

namespace Anoryx

open Delta

open Delta (BudgetDefinition EntryRow LedgerView)

/-! ## the events and the policy on both sides -/

/-- A usage event of whole cents, with the tokens that Delta does not book. -/
structure UsageEvent extends Delta.UsageRecord where
  tokensIn : Nat
  tokensOut : Nat
deriving DecidableEq

def UsageEvent.auditRow (e : UsageEvent) : Sentinel.UsageRow where
  tenantId := e.tenantId
  teamId := e.teamId
  projectId := e.projectId
  agentId := e.agentId
  eventTimestamp := e.eventTimestamp
  tokensIn := e.tokensIn
  tokensOut := e.tokensOut
  costEstimateCents := e.costEstimateCents

section Ledger

variable (uuid5 : String → String → String)

def UsageEvent.posting (e : UsageEvent) : Transaction :=
  buildTransaction uuid5 e.toUsageRecord (resolveAccountIds uuid5 e.tenantId e.currency)

/-- The entry on the expense account. -/
def UsageEvent.expenseLeg (e : UsageEvent) : EntryRow where
  txnId := (e.posting uuid5).txnId
  tenantId := e.tenantId
  accountId := (resolveAccountIds uuid5 e.tenantId e.currency).expenseAccountId
  direction := .debit
  amountMinorUnits := e.costEstimateCents
  currency := e.currency
  teamId := e.teamId
  projectId := e.projectId
  agentId := e.agentId
  timestamp := e.eventTimestamp

/-- The entry on the clearing account. -/
def UsageEvent.contraLeg (e : UsageEvent) : EntryRow :=
  { e.expenseLeg uuid5 with
    accountId := (resolveAccountIds uuid5 e.tenantId e.currency).contraAccountId
    direction := .credit }

theorem UsageEvent.posting_legs (e : UsageEvent) :
    (e.posting uuid5).entries.map (LedgerEntry.toRow (e.posting uuid5).txnId) =
      [e.expenseLeg uuid5, e.contraLeg uuid5] := rfl

/-- The committed ledger holds the events: their entries, on the accounts that
`ensure_accounts` put there, besides others that are on no expense account. -/
structure Holds (d : LedgerDb) (events : List UsageEvent) (others : List EntryRow) : Prop where
  entries : (d.entries.rows.map Prod.snd).Perm
    ((events.flatMap fun e => (e.posting uuid5).entries.map
      (LedgerEntry.toRow (e.posting uuid5).txnId)) ++ others)
  expense : ∀ e ∈ events, ∃ a, d.accounts.committed (e.expenseLeg uuid5).accountId = some a ∧
    a.tenantId = e.tenantId ∧ a.type = .expense ∧ a.currency = e.currency
  contra : ∀ e ∈ events, ∃ a, d.accounts.committed (e.contraLeg uuid5).accountId = some a ∧
    a.type = .liability
  others : ∀ x ∈ others, ∃ a, d.accounts.committed x.accountId = some a ∧ a.type ≠ .expense

end Ledger

def scopeValue : BudgetScope → Sentinel.BudgetScope
  | .tenant => .tenant
  | .team => .team
  | .project => .project
  | .agent => .agent

def periodValue : BudgetPeriod → Sentinel.BudgetPeriod
  | .hourly => .hourly
  | .daily => .daily
  | .monthly => .monthly

/-- The published record as Sentinel parses it. -/
def policyView (payload : BudgetLimitPolicy) : Sentinel.BudgetLimitPolicy where
  policyId := payload.policyId
  tenantId := payload.tenantId
  teamId := payload.teamId
  projectId := payload.projectId
  agentId := payload.agentId
  policyVersion := payload.policyVersion
  period := periodValue payload.period
  scope := scopeValue payload.scope
  maxTokensPerPeriod := payload.maxTokensPerPeriod
  maxCostCentsPerPeriod := payload.maxCostCentsPerPeriod.map Nat.cast

/-! ## the charged events -/

/-- Delta charges the event to the budget: `budgets_for_event` selects the budget for it
and its expense entry passes the filter of `scope_spend_cents`. -/
def deltaCharges (uuid5 : String → String → String) (v : LedgerView) (b : BudgetDefinition)
    (now : DateTime) (e : UsageEvent) : Bool :=
  decide (b ∈ budgetsForEvent [b] e.tenantId e.teamId e.projectId e.agentId) &&
    match periodEnd b.period now with
    | none => false
    | some stop =>
        inScopeSpend v b.scope b.tenantId b.teamId b.projectId b.agentId b.currency
          (periodStart b.period now) stop (e.expenseLeg uuid5)

def sentinelCharges (policy : Sentinel.BudgetLimitPolicy) (now : DateTime) (e : UsageEvent) : Bool :=
  Sentinel.charges policy now e.auditRow

/-- An event of the budget's tenant in the current period. -/
def InPeriod (b : BudgetDefinition) (now : DateTime) (e : UsageEvent) : Prop :=
  e.tenantId = b.tenantId ∧ periodStart b.period now ≤ e.eventTimestamp

/-- The event carries every id of the budget down to its scope. -/
def Carries (b : BudgetDefinition) (e : UsageEvent) : Prop :=
  match b.scope with
  | .tenant => True
  | .team => e.teamId = b.teamId
  | .project => e.teamId = b.teamId ∧ e.projectId = b.projectId
  | .agent => e.teamId = b.teamId ∧ e.projectId = b.projectId ∧ e.agentId = b.agentId

/-- The event carries the id that the budget's scope names, under another team or
project. -/
def Strays (b : BudgetDefinition) (e : UsageEvent) : Prop :=
  match b.scope with
  | .tenant => False
  | .team => False
  | .project => e.projectId = b.projectId ∧ e.teamId ≠ b.teamId
  | .agent => e.agentId = b.agentId ∧ (e.teamId ≠ b.teamId ∨ e.projectId ≠ b.projectId)

variable {b : BudgetDefinition} {e : UsageEvent} {start stop effectiveFrom : DateTime}
  {version : Nat} {payload : BudgetLimitPolicy}

theorem touchedBy_iff :
    b.touchedBy e.teamId e.projectId e.agentId = true ↔ Carries b e ∨ Strays b e := by
  unfold BudgetDefinition.touchedBy Carries Strays
  cases b.scope <;> simp only [decide_eq_true_eq, or_false] <;> grind

theorem not_carries_of_strays (h : Strays b e) : ¬ Carries b e := by
  unfold Strays at h
  unfold Carries
  cases hs : b.scope <;> simp only [hs] at h ⊢ <;> grind

theorem mem_budgetsForEvent_iff :
    b ∈ budgetsForEvent [b] e.tenantId e.teamId e.projectId e.agentId ↔
      e.tenantId = b.tenantId ∧ (Carries b e ∨ Strays b e) := by
  rw [← touchedBy_iff, eq_comm (b := b.tenantId)]
  simp [budgetsForEvent]

theorem inScope_iff {uuid5 : String → String → String} :
    inScope b.scope b.teamId b.projectId b.agentId (e.expenseLeg uuid5) = true ↔
      Carries b e ∨ Strays b e := by
  rw [← touchedBy_iff]
  unfold inScope BudgetDefinition.touchedBy
  cases b.scope <;> simp only [UsageEvent.expenseLeg, decide_eq_true_eq]
  all_goals exact decide_eq_true_iff.trans eq_comm

section Charges

variable {uuid5 : String → String → String} {d : LedgerDb} {events : List UsageEvent}
  {others : List EntryRow} {b : BudgetDefinition} {now : DateTime} {e : UsageEvent}

theorem Holds.onExpenseAccount_expenseLeg (h : Holds uuid5 d events others) (he : e ∈ events)
    (currency : String) :
    onExpenseAccount (d.view e.tenantId) currency (e.expenseLeg uuid5) =
      decide (e.currency = currency) := by
  obtain ⟨a, ha, hten, htype, hcur⟩ := h.expense e he
  simp [onExpenseAccount, LedgerDb.view, ha, hten, htype, hcur]

theorem inScopeSpend_of_not_expense {x : EntryRow} {a : AccountRow}
    (ha : d.accounts.committed x.accountId = some a) (htype : a.type ≠ .expense)
    {scope : BudgetScope} {tenant view team project agent currency : String} :
    inScopeSpend (d.view view) scope tenant team project agent currency start stop x =
      false := by
  have hoff : onExpenseAccount (d.view view) currency x = false := by
    simp only [onExpenseAccount, LedgerDb.view, ha]
    cases hf : Option.filter (fun a => decide (a.tenantId = view)) (some a) with
    | none => rfl
    | some a' =>
        obtain ⟨heq, -⟩ := Option.filter_eq_some_iff.mp hf
        cases heq
        simp [htype]
  simp [inScopeSpend, hoff]

theorem deltaCharges_eq_inScopeSpend {v : LedgerView}
    (hstop : periodEnd b.period now = some stop) :
    deltaCharges uuid5 v b now e =
      inScopeSpend v b.scope b.tenantId b.teamId b.projectId b.agentId b.currency
        (periodStart b.period now) stop (e.expenseLeg uuid5) := by
  simp only [deltaCharges, hstop, Bool.and_eq_right_iff_imp, decide_eq_true_eq]
  intro hspend
  simp only [inScopeSpend, Bool.and_eq_true, decide_eq_true_eq, inScope_iff] at hspend
  exact mem_budgetsForEvent_iff.mpr ⟨hspend.1.1.1, hspend.2⟩

/-- Delta charges the events of the period that carry the ids or stray. -/
theorem deltaCharges_iff (h : Holds uuid5 d events others) (he : e ∈ events)
    (hnow : e.eventTimestamp ≤ now) :
    deltaCharges uuid5 (d.view b.tenantId) b now e = true ↔
      InPeriod b now e ∧ (Carries b e ∨ Strays b e) ∧ (periodEnd b.period now).isSome ∧
        e.currency = b.currency := by
  cases hend : periodEnd b.period now with
  | none => simp [deltaCharges, hend]
  | some stop =>
      have hstop : e.eventTimestamp < stop := lt_of_le_of_lt hnow (lt_periodEnd hend)
      simp only [deltaCharges_eq_inScopeSpend hend, inScopeSpend, Bool.and_eq_true,
        decide_eq_true_eq, inScope_iff, inWindow, InPeriod, Option.isSome_some, true_and]
      constructor
      · rintro ⟨⟨⟨hten, hacc⟩, hstart, -⟩, hscope⟩
        change e.tenantId = b.tenantId at hten
        rw [← hten, h.onExpenseAccount_expenseLeg he, decide_eq_true_eq] at hacc
        exact ⟨⟨hten, hstart⟩, hscope, hacc⟩
      · rintro ⟨⟨hten, hstart⟩, hscope, hcur⟩
        refine ⟨⟨⟨hten, ?_⟩, hstart, hstop⟩, hscope⟩
        rw [← hten, h.onExpenseAccount_expenseLeg he, decide_eq_true_eq]
        exact hcur

theorem periodStart_periodValue (period : BudgetPeriod) (now : DateTime) :
    Sentinel.periodStart (periodValue period) now = periodStart period now := by
  cases period <;> rfl

theorem buildPolicyPayload_fields
    (hp : buildPolicyPayload b version effectiveFrom = .ok payload) :
    payload = {
      tenantId := b.tenantId
      teamId := b.teamId
      projectId := b.projectId
      agentId := b.agentId
      policyId := b.policyId
      policyVersion := version
      effectiveFrom := effectiveFrom
      signature := placeholderSignature
      period := b.period
      scope := b.scope
      maxTokensPerPeriod := b.limitTokens
      maxCostCentsPerPeriod := b.limitCostCents } := by
  unfold buildPolicyPayload BudgetDefinition.toConcept budgetConceptToPolicyPayload at hp
  split at hp
  · split at hp
    · simp only [bind, Except.bind] at hp
      split at hp
      · cases hp
        rfl
      · contradiction
    · contradiction
  · contradiction

theorem sentinelCharges_iff (hp : buildPolicyPayload b version effectiveFrom = .ok payload) :
    sentinelCharges (policyView payload) now e = true ↔ InPeriod b now e ∧ Carries b e := by
  rw [buildPolicyPayload_fields hp]
  rw [sentinelCharges, Sentinel.charges, Bool.and_eq_true, decide_eq_true_eq,
    Sentinel.budgetMatchesScope_iff]
  simp only [policyView, UsageEvent.auditRow, Sentinel.UsageRow.requestScope,
    periodStart_periodValue]
  unfold InPeriod Carries
  cases b.scope <;> simp [scopeValue] <;> grind

/-- The spend of a scope is the sum over its events. -/
theorem Holds.scopeSpendCents_eq (h : Holds uuid5 d events others) (scope : BudgetScope)
    (tenant team project agent currency : String) (start stop : DateTime) :
    scopeSpendCents (d.view tenant) scope tenant team project agent currency start stop =
      ((events.filter fun e => inScopeSpend (d.view tenant) scope tenant team project agent
        currency start stop (e.expenseLeg uuid5)).map fun e => (e.costEstimateCents : Int)).sum := by
  let p := inScopeSpend (d.view tenant) scope tenant team project agent currency start stop
  have hview : (d.view tenant).entries.filter p = (d.entries.rows.map Prod.snd).filter p := by
    simp only [LedgerDb.view, List.filter_filter]
    refine List.filter_congr fun x _ => ?_
    cases hx : p x with
    | false => simp
    | true =>
        simp only [p, inScopeSpend, Bool.and_eq_true] at hx
        simpa using hx.1.1.1
  have hothers : others.filter p = [] := by
    refine List.filter_eq_nil_iff.mpr fun x hx => ?_
    obtain ⟨a, ha, htype⟩ := h.others x hx
    simp [p, inScopeSpend_of_not_expense ha htype]
  have hlegs : (events.flatMap fun e => (e.posting uuid5).entries.map
      (LedgerEntry.toRow (e.posting uuid5).txnId)).filter p =
        (events.filter fun e => p (e.expenseLeg uuid5)).map (UsageEvent.expenseLeg uuid5) := by
    have hcontra := h.contra
    clear h hview
    induction events with
    | nil => rfl
    | cons e es ih =>
        obtain ⟨a, ha, htype⟩ := hcontra e (by simp)
        have hoff : p (e.contraLeg uuid5) = false :=
          inScopeSpend_of_not_expense ha (by simp [htype])
        have ih := ih fun e' he' => hcontra e' (by simp [he'])
        rw [List.flatMap_cons, List.filter_append, ih, UsageEvent.posting_legs]
        cases hon : p (e.expenseLeg uuid5) <;> simp [hon, hoff]
  have hsum := ((h.entries.filter p).map signedAmount).sum_eq
  rw [List.filter_append, hothers, List.append_nil, hlegs, List.map_map] at hsum
  rw [scopeSpendCents, hview, hsum]
  rfl

end Charges

/-! ## agreement -/

/-- Both services charge the same events to the budget, and compare the same spend with
the same cap. -/
structure ScopeAgreement (uuid5 : String → String → String) (d : LedgerDb)
    (events : List UsageEvent) (b : BudgetDefinition) (policy : Sentinel.BudgetLimitPolicy)
    (now : DateTime) : Prop where
  charged : ∀ e ∈ events,
    deltaCharges uuid5 (d.view b.tenantId) b now e = sentinelCharges policy now e
  spend : ∀ stop scope, periodEnd b.period now = some stop →
    Sentinel.budgetMatchesScope policy scope = true →
      ((scopeSpendCents (d.view b.tenantId) b.scope b.tenantId b.teamId b.projectId b.agentId
        b.currency (periodStart b.period now) stop : Int) : ℚ) =
        (Sentinel.budgetPeriodUsed (events.map UsageEvent.auditRow) scope policy now).2
  cap : policy.maxCostCentsPerPeriod = b.limitCostCents.map Nat.cast

section Agreement

variable {uuid5 : String → String → String} {d : LedgerDb} {events : List UsageEvent}
  {others : List EntryRow} {b : BudgetDefinition} {now : DateTime}

theorem Holds.spend_of_charged (h : Holds uuid5 d events others)
    {policy : Sentinel.BudgetLimitPolicy} (hcharged : ∀ e ∈ events,
      deltaCharges uuid5 (d.view b.tenantId) b now e = sentinelCharges policy now e)
    {scope : Sentinel.RequestScope} (hstop : periodEnd b.period now = some stop)
    (hscope : Sentinel.budgetMatchesScope policy scope = true) :
    ((scopeSpendCents (d.view b.tenantId) b.scope b.tenantId b.teamId b.projectId b.agentId
      b.currency (periodStart b.period now) stop : Int) : ℚ) =
      (Sentinel.budgetPeriodUsed (events.map UsageEvent.auditRow) scope policy now).2 := by
  have hfilter : (events.filter fun e => inScopeSpend (d.view b.tenantId) b.scope b.tenantId
      b.teamId b.projectId b.agentId b.currency (periodStart b.period now) stop
        (e.expenseLeg uuid5)) = events.filter (sentinelCharges policy now) := by
    refine List.filter_congr fun e he => ?_
    rw [← deltaCharges_eq_inScopeSpend hstop, hcharged e he]
  rw [h.scopeSpendCents_eq, hfilter, Sentinel.budgetPeriodUsed_cost hscope, List.filter_map,
    List.map_map]
  change _ = (List.map _ (events.filter (sentinelCharges policy now))).sum
  induction events.filter (sentinelCharges policy now) with
  | nil => simp
  | cons e es ih =>
      simp only [List.map_cons, List.sum_cons, Int.cast_add, ih]
      rfl

/-- **When Delta and Sentinel charge a budget alike**: exactly when no event of the
current period carries the id of the budget's scope under another team or project,
and every event that carries all of the budget's ids is posted in the budget's
currency.  (In the last hour, day or month of year 9999, Delta has no window.) -/
theorem scopeAgreement_iff (h : Holds uuid5 d events others)
    (hnow : ∀ e ∈ events, e.eventTimestamp ≤ now) {version : Nat} {effectiveFrom : DateTime}
    {payload : BudgetLimitPolicy}
    (hp : buildPolicyPayload b version effectiveFrom = .ok payload) :
    ScopeAgreement uuid5 d events b (policyView payload) now ↔
      ∀ e ∈ events, InPeriod b now e →
        ((periodEnd b.period now).isSome → e.currency = b.currency → ¬ Strays b e) ∧
        (Carries b e → (periodEnd b.period now).isSome ∧ e.currency = b.currency) := by
  have hcharged : ∀ e ∈ events,
      (deltaCharges uuid5 (d.view b.tenantId) b now e = sentinelCharges (policyView payload) now e ↔
        (InPeriod b now e →
          ((periodEnd b.period now).isSome → e.currency = b.currency → ¬ Strays b e) ∧
          (Carries b e → (periodEnd b.period now).isSome ∧ e.currency = b.currency))) := by
    intro e he
    have hstrays := not_carries_of_strays (b := b) (e := e)
    rw [Bool.eq_iff_iff, deltaCharges_iff h he (hnow e he), sentinelCharges_iff hp]
    tauto
  constructor
  · intro hagree e he
    exact (hcharged e he).mp (hagree.charged e he)
  · intro hcond
    have hall := fun e he => (hcharged e he).mpr (hcond e he)
    refine ⟨hall, fun stop scope hstop hscope => h.spend_of_charged hall hstop hscope, ?_⟩
    rw [buildPolicyPayload_fields hp]
    rfl

end Agreement

section Sample

open Delta (sampleUuid5 sampleUsage sampleRevenue sampleTenant sampleTime sampleSchedule)
open ReadCommitted (run)

def sampleEvent : UsageEvent := { sampleUsage with tokensIn := 900, tokensOut := 100 }

def sampleRevenueEntries : List EntryRow :=
  let txn := buildRevenueTransaction sampleUuid5 sampleRevenue
    (resolveRevenueAccountIds sampleUuid5 sampleTenant "USD")
  txn.entries.map (LedgerEntry.toRow txn.txnId)

/-- A daily budget of ten dollars for the sample project, defined in a team. -/
def projectBudget (teamId : String) : BudgetDefinition where
  budgetId := "66666666-6666-4666-8666-666666666666"
  tenantId := sampleTenant
  scope := .project
  teamId := teamId
  projectId := "33333333-3333-4333-8333-333333333333"
  agentId := "billing-agent"
  period := .daily
  limitTokens := none
  limitCostCents := some 1000
  currency := "USD"
  policyId := "77777777-7777-4777-8777-777777777777"

def otherTeam : String := "55555555-5555-4555-8555-555555555555"

theorem holds_sample : ∃ s, run (ledgerProg sampleUuid5) LedgerSys.init sampleSchedule =
    some s ∧ Holds sampleUuid5 s.db [sampleEvent] sampleRevenueEntries := by
  have hrun : (run (ledgerProg sampleUuid5) LedgerSys.init sampleSchedule).map
      (fun s => decide (s.db.entries.rows.map Prod.snd =
          [sampleEvent.expenseLeg sampleUuid5, sampleEvent.contraLeg sampleUuid5] ++
            sampleRevenueEntries) &&
        ((s.db.accounts.committed (sampleEvent.expenseLeg sampleUuid5).accountId).any fun a =>
          a.tenantId = sampleTenant ∧ a.type = .expense ∧ a.currency = "USD") &&
        ((s.db.accounts.committed (sampleEvent.contraLeg sampleUuid5).accountId).any fun a =>
          a.type = .liability) &&
        sampleRevenueEntries.all fun x =>
          (s.db.accounts.committed x.accountId).any fun a => a.type ≠ .expense) = some true := by
    decide +kernel
  obtain ⟨s, hs, hval⟩ := Option.map_eq_some_iff.mp hrun
  simp only [Bool.and_eq_true, decide_eq_true_eq, Option.any_eq_true, List.all_eq_true] at hval
  obtain ⟨⟨⟨hentries, hexpense⟩, hcontra⟩, hothers⟩ := hval
  refine ⟨s, hs, ⟨?_, ?_, ?_, hothers⟩⟩
  · rw [hentries]
    exact .refl _
  · intro e he
    rw [List.mem_singleton] at he
    rw [he]
    exact hexpense
  · intro e he
    rw [List.mem_singleton] at he
    rw [he]
    exact hcontra

theorem scopeAgreement_same_team : ∃ s payload,
    run (ledgerProg sampleUuid5) LedgerSys.init sampleSchedule = some s ∧
      buildPolicyPayload (projectBudget sampleUsage.teamId) 1 sampleTime = .ok payload ∧
      ScopeAgreement sampleUuid5 s.db [sampleEvent] (projectBudget sampleUsage.teamId)
        (policyView payload) sampleTime := by
  obtain ⟨s, hs, hholds⟩ := holds_sample
  have hp : buildPolicyPayload (projectBudget sampleUsage.teamId) 1 sampleTime = .ok _ := rfl
  refine ⟨s, _, hs, hp, (scopeAgreement_iff hholds ?_ hp).mpr ?_⟩
  · intro e he
    rw [List.mem_singleton] at he
    rw [he]
    exact le_refl _
  · intro e he _
    rw [List.mem_singleton] at he
    rw [he]
    exact ⟨fun _ _ hstrays => hstrays.2 rfl, fun _ => ⟨rfl, rfl⟩⟩

/-- The project's budget was defined in another team: Delta charges the event to it,
Sentinel does not. -/
theorem other_team_disagrees : ∃ s payload,
    run (ledgerProg sampleUuid5) LedgerSys.init sampleSchedule = some s ∧
      buildPolicyPayload (projectBudget otherTeam) 1 sampleTime = .ok payload ∧
      Holds sampleUuid5 s.db [sampleEvent] sampleRevenueEntries ∧
      sampleEvent.eventTimestamp ≤ sampleTime ∧
      ¬ ScopeAgreement sampleUuid5 s.db [sampleEvent] (projectBudget otherTeam) (policyView payload)
        sampleTime := by
  obtain ⟨s, hs, hholds⟩ := holds_sample
  have hp : buildPolicyPayload (projectBudget otherTeam) 1 sampleTime = .ok _ := rfl
  have hnow : sampleEvent.eventTimestamp ≤ sampleTime := le_refl _
  refine ⟨s, _, hs, hp, hholds, hnow, fun hagree => ?_⟩
  have hmem : sampleEvent ∈ [sampleEvent] := List.mem_singleton_self _
  have hstrays : Strays (projectBudget otherTeam) sampleEvent := ⟨rfl, by decide⟩
  have hperiod : InPeriod (projectBudget otherTeam) sampleTime sampleEvent :=
    ⟨rfl, periodStart_le _ _⟩
  have hdelta := (deltaCharges_iff hholds hmem hnow).mpr ⟨hperiod, .inr hstrays, rfl, rfl⟩
  rw [hagree.charged sampleEvent hmem, sentinelCharges_iff hp] at hdelta
  exact not_carries_of_strays hstrays hdelta.2

end Sample

end Anoryx
