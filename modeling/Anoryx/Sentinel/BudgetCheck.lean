import Anoryx.Sentinel.Enforcement

/-!
# Anoryx.Sentinel.BudgetCheck

The budget check before a chat request is routed (`gateway/router/selection.py`,
`_enforce_policies_pre_request`): the estimate of what the request will use
(`router/cost.py`), the active budgets of the caller with what has been used of them,
and the decision (`policy/enforcement.py`).

Amounts of money are exact; the source has them as floats.
-/

namespace Anoryx.Sentinel

/-! ## the request -/

structure ChatMessage where
  content : String
  content_le : content.length ≤ 131072

/-- The fields of `CreateChatCompletionRequest` that the check reads, with the bounds
of the gateway model. -/
structure CreateChatCompletionRequest where
  model : String
  messages : List ChatMessage
  n : Nat
  maxTokens : Option Nat
  model_le : model.length ≤ 256
  messages_bounds : 1 ≤ messages.length ∧ messages.length ≤ 256
  n_bounds : 1 ≤ n ∧ n ≤ 8
  maxTokens_bounds : ∀ m, maxTokens = some m → 1 ≤ m ∧ m ≤ 131072

/-- The characters that `str.split` splits at. -/
def isSpace (c : Char) : Bool :=
  (0x09 ≤ c.toNat ∧ c.toNat ≤ 0x0d) ∨ (0x1c ≤ c.toNat ∧ c.toNat ≤ 0x20) ∨
    (0x2000 ≤ c.toNat ∧ c.toNat ≤ 0x200a) ∨
    c.toNat ∈ [0x85, 0xa0, 0x1680, 0x2028, 0x2029, 0x202f, 0x205f, 0x3000]

/-- `len(text.split())` -/
def wordCount (text : String) : Nat := (text.toList.splitOnP isSpace).countP (· ≠ [])

/-! ## estimates -/

namespace CreateChatCompletionRequest

variable (body : CreateChatCompletionRequest)

def promptWordProxy : Nat := (body.messages.map fun m => wordCount m.content).sum

/-- The output proxy: `max_tokens`, or the prompt again. -/
def outProxy : Nat := body.maxTokens.getD (max body.promptWordProxy 1)

def promptTokenProxy : Nat := body.promptWordProxy + body.outProxy * max body.n 1

end CreateChatCompletionRequest

/-- `COST_TABLE`: provider, prefix of the model, cents per thousand tokens in and out. -/
def costTable : List (String × String × ℚ × ℚ) :=
  [("openai", "gpt-4o-mini", 0.015, 0.06),
   ("openai", "gpt-4o", 0.25, 1.0),
   ("openai", "gpt-4-turbo", 1.0, 3.0),
   ("openai", "gpt-4", 3.0, 6.0),
   ("openai", "gpt-3.5-turbo", 0.05, 0.15),
   ("openai", "gpt-3.5", 0.05, 0.15),
   ("anthropic", "claude-3-5-haiku", 0.08, 0.4),
   ("anthropic", "claude-3-5-sonnet", 0.3, 1.5),
   ("anthropic", "claude-3-haiku", 0.025, 0.125),
   ("anthropic", "claude-3-sonnet", 0.3, 1.5),
   ("anthropic", "claude-3-opus", 1.5, 7.5),
   ("anthropic", "claude-opus", 1.5, 7.5),
   ("anthropic", "claude-sonnet", 0.3, 1.5),
   ("anthropic", "claude", 0.3, 1.5),
   ("bedrock", "anthropic.claude-3-5-sonnet", 0.3, 1.5),
   ("bedrock", "anthropic.claude-3-haiku", 0.025, 0.125),
   ("bedrock", "anthropic.claude", 0.3, 1.5),
   ("bedrock", "amazon.titan", 0.02, 0.06),
   ("bedrock", "meta.llama", 0.03, 0.06)]

/-- `text.startswith(start)` -/
def startsWith (text start : String) : Bool := start.toList.isPrefixOf text.toList

/-- `part in text` -/
def containsText (text part : String) : Bool := text.toList.tails.any part.toList.isPrefixOf

/-- `lookup_rate`: the longest prefix of the provider, or the default. -/
def lookupRate (provider model : String) : ℚ × ℚ :=
  let best := costTable.foldl (fun (best : Option (Nat × ℚ × ℚ)) (p, start, rate) =>
    if p = provider ∧ startsWith model start ∧ best.all (fun b => b.1 < start.length) then
      some (start.length, rate)
    else best) none
  best.elim (3, 6) Prod.snd

/-- `str.lower`, as far as the tests of `_guess_provider` can see: besides the ASCII
letters, the Kelvin sign is the one character whose lower case is an ASCII letter. -/
def lower (text : String) : String :=
  text.map fun c => if c.toNat = 0x212a then 'k' else c.toLower

def guessProvider (model : String) : String :=
  let m := lower model
  if startsWith m "claude" ∨ containsText m "anthropic" then "anthropic"
  else if startsWith m "amazon." ∨ startsWith m "meta." ∨ startsWith m "bedrock" then "bedrock"
  else "openai"

def estimatePreRequest (body : CreateChatCompletionRequest) (provider model : String) : ℚ :=
  let (inRate, outRate) := lookupRate provider model
  (body.promptWordProxy : ℚ) / 1000 * inRate + (body.outProxy : ℚ) / 1000 * outRate

/-- The cost estimate of the check, for all `n` completions. -/
def estCost (body : CreateChatCompletionRequest) : ℚ :=
  estimatePreRequest body (guessProvider body.model) body.model * (max body.n 1 : Nat)

/-! ## the decision -/

inductive BudgetReason
  | budgetTokensExceeded
  | budgetCostExceeded
deriving DecidableEq

inductive BudgetDecision
  | ok
  | exceeded (policyId : String) (reason : BudgetReason)
deriving DecidableEq

/-- A matched budget with what has been used of it. -/
structure ActiveBudget where
  budget : BudgetLimitPolicy
  usedTokens : Nat
  usedCost : ℚ

/-- The test of one budget. -/
def ActiveBudget.evaluate (b : ActiveBudget) (estTokens : Nat) (estCost : ℚ) : BudgetDecision :=
  if b.budget.maxTokensPerPeriod.any (fun cap => cap < b.usedTokens + estTokens) then
    .exceeded b.budget.policyId .budgetTokensExceeded
  else if b.budget.maxCostCentsPerPeriod.any (fun cap => cap < b.usedCost + estCost) then
    .exceeded b.budget.policyId .budgetCostExceeded
  else .ok

/-- `evaluate_budget_against`: the first budget that is exceeded. -/
def evaluateBudgetAgainst (estTokens : Nat) (estCost : ℚ) : List ActiveBudget → BudgetDecision
  | [] => .ok
  | b :: budgets =>
      match b.evaluate estTokens estCost with
      | .ok => evaluateBudgetAgainst estTokens estCost budgets
      | .exceeded policyId reason => .exceeded policyId reason

/-- `BudgetLimitPolicy(**json.loads(policy_payload))`; a payload of another type does
not validate. -/
def PolicyRecord.budgetView (record : PolicyRecord) : Option BudgetLimitPolicy :=
  match record.body with
  | .budgetLimit period scope maxTokensPerPeriod maxCostCentsPerPeriod =>
      some {
        policyId := record.policyId
        tenantId := record.tenantId
        teamId := record.teamId
        projectId := record.projectId
        agentId := record.agentId
        policyVersion := record.policyVersion
        period, scope, maxTokensPerPeriod, maxCostCentsPerPeriod }
  | _ => none

/-- What the check finds when it reads the use of a budget: the clock, and the usage
rows that are committed by then. -/
structure UsageReads where
  now : DateTime
  rows : List UsageRow

/-- `load_active_budgets`; `none` if a payload does not validate. -/
def loadActiveBudgets (reads : String → UsageReads) (scope : RequestScope) :
    List (String × PolicyRow) → Option (List ActiveBudget)
  | [] => some []
  | (id, row) :: rows => do
      let budget ← row.policyPayload.budgetView
      let rest ← loadActiveBudgets reads scope rows
      if budgetMatchesScope budget scope then
        let used := budgetPeriodUsed (reads id).rows scope budget (reads id).now
        pure (⟨budget, used.1, used.2⟩ :: rest)
      else pure rest

/-- The budget half of `_enforce_policies_pre_request`; without a result the request
fails and is blocked. -/
def enforceBudgetsPreRequest (d : PolicyDb) (now : DateTime) (reads : String → UsageReads)
    (scope : RequestScope) (body : CreateChatCompletionRequest) : Option BudgetDecision := do
  let budgets ← loadActiveBudgets reads scope
    (getActivePoliciesForScope d scope.tenantId .budgetLimit now)
  pure (evaluateBudgetAgainst body.promptTokenProxy (estCost body) budgets)

/-! ## lemmas -/

theorem CreateChatCompletionRequest.promptTokenProxy_pos (body : CreateChatCompletionRequest) :
    0 < body.promptTokenProxy := by
  have hout : 0 < body.outProxy := by
    unfold CreateChatCompletionRequest.outProxy
    cases hm : body.maxTokens with
    | none => simp
    | some m => exact (body.maxTokens_bounds m hm).1
  have hmul : 0 < body.outProxy * max body.n 1 := Nat.mul_pos hout (by omega)
  unfold CreateChatCompletionRequest.promptTokenProxy
  omega

variable {estTokens : Nat} {estCost : ℚ} {budgets : List ActiveBudget}
  {rows : List (String × PolicyRow)}

theorem evaluateBudgetAgainst_eq_ok_iff :
    evaluateBudgetAgainst estTokens estCost budgets = .ok ↔
      ∀ b ∈ budgets, b.evaluate estTokens estCost = .ok := by
  induction budgets with
  | nil => simp [evaluateBudgetAgainst]
  | cons b budgets ih =>
      cases hb : b.evaluate estTokens estCost with
      | ok => simp [evaluateBudgetAgainst, hb, ih]
      | exceeded policyId reason => simp [evaluateBudgetAgainst, hb]

theorem evaluateBudgetAgainst_filter (p : ActiveBudget → Bool)
    (h : ∀ b ∈ budgets, p b = false → b.evaluate estTokens estCost = .ok) :
    evaluateBudgetAgainst estTokens estCost budgets =
      evaluateBudgetAgainst estTokens estCost (budgets.filter p) := by
  induction budgets with
  | nil => rfl
  | cons b budgets ih =>
      have ih := ih fun b' hb' => h b' (List.mem_cons_of_mem b hb')
      cases hp : p b with
      | false =>
          rw [List.filter_cons_of_neg (by simp [hp]), evaluateBudgetAgainst,
            h b List.mem_cons_self hp]
          exact ih
      | true =>
          rw [List.filter_cons_of_pos hp, evaluateBudgetAgainst, evaluateBudgetAgainst, ih]

/-- Loaded are the budgets of the rows that match the scope. -/
theorem mem_loadActiveBudgets {reads : String → UsageReads} {scope : RequestScope}
    (h : loadActiveBudgets reads scope rows = some budgets) {b : ActiveBudget} :
    b ∈ budgets ↔ ∃ id row, (id, row) ∈ rows ∧ row.policyPayload.budgetView = some b.budget ∧
      budgetMatchesScope b.budget scope = true ∧
      (b.usedTokens, b.usedCost) = budgetPeriodUsed (reads id).rows scope b.budget (reads id).now := by
  induction rows generalizing budgets with
  | nil =>
      obtain rfl := Option.some.inj h
      simp
  | cons p rows ih =>
      obtain ⟨id, row⟩ := p
      simp only [loadActiveBudgets, Option.bind_eq_bind, Option.bind_eq_some_iff] at h
      obtain ⟨budget, hbudget, rest, hrest, h⟩ := h
      specialize ih hrest
      split at h
      · next hmatch =>
          obtain rfl := Option.some.inj h
          rw [List.mem_cons, ih]
          constructor
          · rintro (rfl | ⟨id', row', hmem, hb⟩)
            · exact ⟨id, row, List.mem_cons_self, hbudget, hmatch, rfl⟩
            · exact ⟨id', row', List.mem_cons_of_mem _ hmem, hb⟩
          · rintro ⟨id', row', hmem, hview, hmatch', hused⟩
            rcases List.mem_cons.mp hmem with he | hmem
            · obtain ⟨rfl, rfl⟩ := Prod.mk.inj he
              rw [hbudget, Option.some.injEq] at hview
              subst hview
              left
              rw [← hused]
            · exact .inr ⟨id', row', hmem, hview, hmatch', hused⟩
      · next hmatch =>
          obtain rfl := Option.some.inj h
          rw [ih]
          constructor
          · rintro ⟨id', row', hmem, hb⟩
            exact ⟨id', row', List.mem_cons_of_mem _ hmem, hb⟩
          · rintro ⟨id', row', hmem, hview, hmatch', hused⟩
            rcases List.mem_cons.mp hmem with he | hmem
            · obtain ⟨rfl, rfl⟩ := Prod.mk.inj he
              rw [hbudget, Option.some.injEq] at hview
              exact absurd (hview ▸ hmatch') hmatch
            · exact ⟨id', row', hmem, hview, hmatch', hused⟩

theorem exists_loadActiveBudgets (reads : String → UsageReads) (scope : RequestScope)
    (h : ∀ p ∈ rows, p.2.policyPayload.policyType = .budgetLimit) :
    ∃ budgets, loadActiveBudgets reads scope rows = some budgets := by
  induction rows with
  | nil => exact ⟨[], rfl⟩
  | cons p rows ih =>
      obtain ⟨rest, hrest⟩ := ih fun p' hp' => h p' (List.mem_cons_of_mem p hp')
      have htype := h p List.mem_cons_self
      obtain ⟨budget, hbudget⟩ : ∃ budget, p.2.policyPayload.budgetView = some budget := by
        unfold PolicyRecord.policyType at htype
        unfold PolicyRecord.budgetView
        cases hbody : p.2.policyPayload.body with
        | budgetLimit period scope maxTokens maxCost => exact ⟨_, rfl⟩
        | _ => simp [hbody, PolicyBody.policyType] at htype
      simp only [loadActiveBudgets, hbudget, hrest, Option.bind_eq_bind, Option.bind_some]
      split
      · exact ⟨_, rfl⟩
      · exact ⟨_, rfl⟩

end Anoryx.Sentinel
