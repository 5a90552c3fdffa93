import Anoryx.BudgetAgreement
import Anoryx.Delta.KillSwitch
import Anoryx.Sentinel.BudgetCheck
import Anoryx.Sentinel.PolicyMirror

/-!
# Anoryx.KillEnforcement

A kill, from the switch in Delta to the request in Sentinel.  The record that the
switch publishes is a budget like any other: a kill is a budget of nothing, a clear a
budget of the most that the schema allows.  What makes a kill hold is on the other
side: no request is estimated at nothing (`kill_denies`).
-/

namespace Anoryx

open ReadCommitted Sentinel Delta

/-- The record that Sentinel holds is the one that Delta built, under its own signature. -/
structure Receives (record : PolicyRecord) (payload : Delta.BudgetLimitPolicy) : Prop where
  policyId : record.policyId = payload.policyId
  policyVersion : record.policyVersion = payload.policyVersion
  tenantId : record.tenantId = payload.tenantId
  teamId : record.teamId = payload.teamId
  projectId : record.projectId = payload.projectId
  agentId : record.agentId = payload.agentId
  effectiveFrom : record.effectiveFrom = payload.effectiveFrom
  body : record.body = .budgetLimit (periodValue payload.period) (scopeValue payload.scope)
    payload.maxTokensPerPeriod (payload.maxCostCentsPerPeriod.map Nat.cast)

variable {payload : Delta.BudgetLimitPolicy}

theorem Receives.budgetView {record : PolicyRecord}
    (h : Receives record payload) : record.budgetView = some (policyView payload) := by
  simp [PolicyRecord.budgetView, h.body, policyView, h.policyId, h.policyVersion, h.tenantId, h.teamId,
    h.projectId, h.agentId]

/-- The record is the current policy under its id, in effect, and its tenant's reader
returns it. -/
structure InEffect (d : PolicyDb) (now : DateTime) (tenantId : String)
    (payload : Delta.BudgetLimitPolicy) : Prop where
  active : ∃ row, (payload.policyId, row) ∈ getActivePoliciesForScope d tenantId .budgetLimit now ∧
    Receives row.policyPayload payload

/-- What the emitter puts into a record. -/
structure Built (transition : Delta.KillTransition) (scope : Delta.KillScope) (policyId : String)
    (payload : Delta.BudgetLimitPolicy) : Prop where
  policyId : payload.policyId = policyId
  tenantId : payload.tenantId = scope.tenantId
  teamId : payload.teamId = scope.teamId
  projectId : payload.projectId = scope.projectId
  agentId : payload.agentId = scope.agentId
  scope : payload.scope = .agent
  caps : (payload.maxTokensPerPeriod, payload.maxCostCentsPerPeriod) =
    if transition = .kill then (some 0, some 0)
    else (some maxBudgetTokens, some maxBudgetCostCents)

variable {scope : KillScope} {policyId : String}

variable {transition : KillTransition} {effectiveFrom now : DateTime} {d : PolicyDb} {b : ActiveBudget}

theorem built_of_buildPayload {policyVersion : Nat}
    (h : transition.buildPayload scope policyId policyVersion effectiveFrom = .ok payload) :
    Built transition scope policyId payload := by
  unfold Delta.KillTransition.buildPayload Delta.budgetConceptToPolicyPayload at h
  dsimp only at h
  split at h
  · obtain rfl := Except.ok.inj h
    cases transition <;> exact ⟨rfl, rfl, rfl, rfl, rfl, rfl, rfl⟩
  · contradiction

/-- The request of a caller in the scope of the switch. -/
def requestScope (scope : KillScope) : RequestScope :=
  ⟨scope.tenantId, scope.teamId, scope.projectId, scope.agentId⟩

theorem Built.matches (h : Built transition scope policyId payload) :
    budgetMatchesScope (policyView payload) (requestScope scope) = true :=
  budgetMatchesScope_iff.mpr ⟨h.tenantId, fun _ => h.teamId, fun _ => h.projectId, fun _ => h.agentId⟩

/-! ## the check in Sentinel -/

/-- The store after some deliveries, one after the other. -/
def Reached (d : PolicyDb) : Prop :=
  ∃ t records accepted, intakeAll t records PolicyDb.empty = some (accepted, d)

theorem Reached.policyType (h : Reached d) {id : String} {row : PolicyRow} (hrow : d.policies.committed id = some row) :
    row.policyType = row.policyPayload.policyType := by
  obtain ⟨t, records, accepted, hrun⟩ := h
  have hempty : Mirrored [] PolicyDb.empty := fun _ => rfl
  have hm : Mirrored accepted d := mirrored_intakeAll t records stored_empty.quiet hempty hrun
  cases hof : ofPolicy accepted id with
  | nil =>
      rw [hm id, hof] at hrow
      contradiction
  | cons first rest =>
      rw [hm id, hof, headRow_cons, Option.some.injEq] at hrow
      subst hrow
      rfl

theorem Reached.exists_budgets (h : Reached d) (now : DateTime) (reads : String → UsageReads) (q : RequestScope) :
    ∃ budgets, loadActiveBudgets reads q (getActivePoliciesForScope d q.tenantId .budgetLimit now) =
      some budgets := by
  refine exists_loadActiveBudgets reads q fun p hp => ?_
  obtain ⟨hrow, -, htype, -⟩ := mem_getActive.mp (show (p.1, p.2) ∈ _ from hp)
  rw [← h.policyType hrow, htype]

/-- A request is denied: whatever the check decides is a denial, and after deliveries one
after the other it decides. -/
structure Denied (d : PolicyDb) (now : DateTime) (reads : String → UsageReads) (q : RequestScope)
    (body : CreateChatCompletionRequest) : Prop where
  denial : ∀ decision, enforceBudgetsPreRequest d now reads q body = some decision →
    ∃ policyId reason, decision = .exceeded policyId reason
  decided : Reached d → ∃ policyId reason,
    enforceBudgetsPreRequest d now reads q body = some (.exceeded policyId reason)

theorem evaluate_ne_ok_of_zero (h : b.budget.maxTokensPerPeriod = some 0) (body : CreateChatCompletionRequest)
    (cost : ℚ) : b.evaluate body.promptTokenProxy cost ≠ .ok := by
  have hpos := body.promptTokenProxy_pos
  rw [ActiveBudget.evaluate, if_pos]
  · simp
  · simp only [h, Option.any_some, decide_eq_true_eq]
    omega

/-- A kill in effect denies every request of its scope. -/
theorem kill_denies (hbuilt : Built .kill scope policyId payload) (hin : InEffect d now scope.tenantId payload)
    (reads : String → UsageReads) (body : CreateChatCompletionRequest) :
    Denied d now reads (requestScope scope) body := by
  have hdenial : ∀ budgets, loadActiveBudgets reads (requestScope scope)
      (getActivePoliciesForScope d scope.tenantId .budgetLimit now) = some budgets →
      ∃ policyId reason,
        evaluateBudgetAgainst body.promptTokenProxy (estCost body) budgets = .exceeded policyId reason := by
    intro budgets hload
    obtain ⟨row, hactive, hreceives⟩ := hin.active
    let used := budgetPeriodUsed (reads payload.policyId).rows (requestScope scope) (policyView payload)
      (reads payload.policyId).now
    have hmem := (mem_loadActiveBudgets hload (b := ⟨policyView payload, used.1, used.2⟩)).mpr
      ⟨payload.policyId, row, hactive, hreceives.budgetView, hbuilt.matches, rfl⟩
    have hzero : (policyView payload).maxTokensPerPeriod = some 0 :=
      congrArg Prod.fst hbuilt.caps
    cases hdecision : evaluateBudgetAgainst body.promptTokenProxy (estCost body) budgets with
    | ok =>
        exact absurd (evaluateBudgetAgainst_eq_ok_iff.mp hdecision _ hmem)
          (evaluate_ne_ok_of_zero hzero body _)
    | exceeded policyId reason => exact ⟨policyId, reason, rfl⟩
  constructor
  · intro decision h
    obtain ⟨budgets, hload, h⟩ := Option.bind_eq_some_iff.mp h
    obtain rfl := Option.some.inj h
    exact hdenial budgets hload
  · intro hreached
    obtain ⟨budgets, hload⟩ := hreached.exists_budgets now reads (requestScope scope)
    obtain ⟨policyId, reason, heq⟩ := hdenial budgets hload
    refine ⟨policyId, reason, ?_⟩
    rw [← heq]
    exact Option.bind_eq_some_iff.mpr ⟨budgets, hload, rfl⟩

/-- The decision is that of the other budgets. -/
def NoPart (d : PolicyDb) (now : DateTime) (reads : String → UsageReads) (q : RequestScope)
    (body : CreateChatCompletionRequest) (payload : Delta.BudgetLimitPolicy) : Prop :=
  ∀ budgets, loadActiveBudgets reads q (getActivePoliciesForScope d q.tenantId .budgetLimit now) =
      some budgets →
    (∀ b ∈ budgets, b.budget = policyView payload →
      b.usedTokens + body.promptTokenProxy ≤ maxBudgetTokens ∧
        b.usedCost + estCost body ≤ maxBudgetCostCents) →
    enforceBudgetsPreRequest d now reads q body = some (evaluateBudgetAgainst body.promptTokenProxy
      (estCost body) (budgets.filter fun b => b.budget ≠ policyView payload))

theorem evaluate_eq_ok_of_maxima {estTokens : Nat} {cost : ℚ}
    (htokens : b.budget.maxTokensPerPeriod = some maxBudgetTokens)
    (hcost : b.budget.maxCostCentsPerPeriod = some (maxBudgetCostCents : ℚ))
    (h : b.usedTokens + estTokens ≤ maxBudgetTokens ∧
      b.usedCost + cost ≤ maxBudgetCostCents) : b.evaluate estTokens cost = .ok := by
  rw [ActiveBudget.evaluate, if_neg, if_neg]
  · simpa [hcost] using h.2
  · simpa [htokens] using h.1

theorem clear_noPart
    (hbuilt : Built .clear scope policyId payload) (d : PolicyDb) (now : DateTime)
    (reads : String → UsageReads) (q : RequestScope) (body : CreateChatCompletionRequest) :
    NoPart d now reads q body payload := by
  intro budgets hload hwithin
  rw [← evaluateBudgetAgainst_filter]
  · exact Option.bind_eq_some_iff.mpr ⟨budgets, hload, rfl⟩
  · intro b hb hview
    have hview : b.budget = policyView payload := by simpa using hview
    have hcaps := hbuilt.caps
    rw [if_neg (by decide), Prod.mk.injEq] at hcaps
    refine evaluate_eq_ok_of_maxima ?_ ?_ (hwithin b hb hview)
    · rw [hview]
      exact hcaps.1
    · rw [hview]
      show payload.maxCostCentsPerPeriod.map Nat.cast = _
      rw [hcaps.2]
      rfl

/-- **A kill, end to end**: while the record of a kill is in effect, every request of its
scope is denied, whatever has been used before and whatever the body; the record of a
clear has no part in any decision on amounts within the maxima it carries. -/
theorem kill_payload_enforced (transition : KillTransition) (scope : KillScope)
    (policyId : String) (policyVersion : Nat) (effectiveFrom : DateTime)
    (payload : Delta.BudgetLimitPolicy)
    (hbuilt : transition.buildPayload scope policyId policyVersion effectiveFrom = .ok payload)
    (d : PolicyDb) (now : DateTime) (reads : String → UsageReads) (body : CreateChatCompletionRequest)
    (hin : InEffect d now scope.tenantId payload) :
    (transition = .kill → Denied d now reads (requestScope scope) body) ∧
      (transition = .clear → ∀ q, NoPart d now reads q body payload) := by
  constructor
  · rintro rfl
    exact kill_denies (built_of_buildPayload hbuilt) hin reads body
  · rintro rfl q
    exact clear_noPart (built_of_buildPayload hbuilt) d now reads q body

section Sample

def sampleKillScope : KillScope where
  tenantId := "11111111-1111-4111-8111-111111111111"
  teamId := "22222222-2222-4222-8222-222222222222"
  projectId := "33333333-3333-4333-8333-333333333333"
  agentId := "billing-agent"

def sampleKillPayload : Delta.BudgetLimitPolicy where
  tenantId := sampleKillScope.tenantId
  teamId := sampleKillScope.teamId
  projectId := sampleKillScope.projectId
  agentId := sampleKillScope.agentId
  policyId := "99999999-9999-4999-8999-999999999999"
  policyVersion := 1
  effectiveFrom := samplePolicyTime
  signature := placeholderSignature
  period := .daily
  scope := .agent
  maxTokensPerPeriod := some 0
  maxCostCentsPerPeriod := some 0

def sampleKillRecord : PolicyRecord where
  policyId := sampleKillPayload.policyId
  policyVersion := 0 + 1
  tenantId := sampleKillScope.tenantId
  teamId := sampleKillScope.teamId
  projectId := sampleKillScope.projectId
  agentId := sampleKillScope.agentId
  effectiveFrom := samplePolicyTime
  signature := "DDDDDDDDDDDD.EEEEEEEEEEEE.FFFFFFFFFFFF"
  body := .budgetLimit .daily .agent (some 0) (some 0)
  version_pos := Nat.succ_pos 0

/-- A request that says nothing. -/
def emptyRequest : CreateChatCompletionRequest where
  model := "gpt-4o"
  messages := [⟨"", Nat.zero_le _⟩]
  n := 1
  maxTokens := none
  model_le := Nat.le_of_ble_eq_true rfl
  messages_bounds := ⟨Nat.le_refl 1, Nat.le_of_ble_eq_true rfl⟩
  n_bounds := ⟨Nat.le_refl 1, Nat.le_of_ble_eq_true rfl⟩
  maxTokens_bounds _ h := absurd h.symm (Option.some_ne_none _)

/-- Nothing has been used, the request says nothing, and it is denied. -/
theorem kill_denies_empty_request : ∃ d,
    intakeAll 1 [sampleKillRecord] PolicyDb.empty = some ([sampleKillRecord], d) ∧
      ∃ policyId reason, enforceBudgetsPreRequest d sampleMidMonth (fun _ => ⟨sampleMidMonth, []⟩)
        (requestScope sampleKillScope) emptyRequest = some (.exceeded policyId reason) := by
  have hrun : (intakeAll 1 [sampleKillRecord] PolicyDb.empty).map (fun q =>
      (q.1, q.2.policies.committed sampleKillPayload.policyId)) =
      some ([sampleKillRecord], some sampleKillRecord.toRow) := by
    decide +kernel
  obtain ⟨⟨accepted, d⟩, hd, he⟩ := Option.map_eq_some_iff.mp hrun
  obtain ⟨rfl, hrow⟩ := Prod.mk.inj he
  have hin : InEffect d sampleMidMonth sampleKillScope.tenantId sampleKillPayload :=
    ⟨sampleKillRecord.toRow, mem_getActive.mpr ⟨hrow, rfl, rfl, by decide⟩,
      ⟨rfl, rfl, rfl, rfl, rfl, rfl, rfl, by simp [sampleKillRecord, PolicyRecord.toRow,
        sampleKillPayload, periodValue, scopeValue]⟩⟩
  have hbuilt : Delta.KillTransition.kill.buildPayload sampleKillScope sampleKillPayload.policyId 1
      samplePolicyTime = .ok sampleKillPayload := by
    decide +kernel
  exact ⟨d, hd, ((kill_payload_enforced .kill sampleKillScope _ 1 samplePolicyTime sampleKillPayload
    hbuilt d sampleMidMonth _ emptyRequest hin).1 rfl).decided ⟨1, _, _, hd⟩⟩

end Sample

end Anoryx
