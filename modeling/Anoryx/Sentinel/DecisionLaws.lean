import Mathlib
import Anoryx.Sentinel.ModelPolicy

/-!
# Anoryx.Sentinel.DecisionLaws

The laws of model decisions (`policy/enforcement.py`): `evaluate_model_policies` as a
function of the rows its SELECTs find (`evaluateModelPolicies_rows`), and what becomes of
its verdict when rows change their places or others come to them.

The verdict does not depend on the places: `max` picks by specificity, version and id, and
no two policies have one id (`mostSpecific_perm`).  Only the id that a denial names may,
where several deny-lists hold the model.
-/

namespace Anoryx.Sentinel

/-! ## the most specific policy -/

/-- `(specificity, policy_version, policy_id)` -/
def modelRank (view : PolicyRecord) : Nat ×ₗ Nat ×ₗ String :=
  toLex (modelSpecificity view, toLex (view.policyVersion, view.policyId))

theorem lessSpecific_iff (v w : PolicyRecord) : lessSpecific v w = true ↔ modelRank v < modelRank w := by
  simp [lessSpecific, modelRank, Prod.Lex.toLex_lt_toLex]

/-- The most specific view is the one of the highest rank. -/
theorem mostSpecific_eq_argmax (views : List PolicyRecord) : mostSpecific views = views.argmax modelRank := by
  obtain _ | ⟨v, views⟩ := views
  · rfl
  · rw [mostSpecific, List.argmax, List.foldl_cons]
    suffices hfold : ∀ best, (views.foldl (List.argAux fun b c => modelRank c < modelRank b) (some best)) =
        some (views.foldl (fun best w => if lessSpecific best w then w else best) best) from (hfold v).symm
    induction views with
    | nil => exact fun _ => rfl
    | cons w views ih =>
        intro best
        rw [List.foldl_cons, List.foldl_cons, ← ih]
        change List.foldl _ (if modelRank best < modelRank w then some w else some best) views = _
        by_cases h : modelRank best < modelRank w
        · rw [if_pos h, if_pos ((lessSpecific_iff best w).mpr h)]
        · rw [if_neg h, if_neg (mt (lessSpecific_iff best w).mp h)]

variable {views views' : List PolicyRecord} {v view approval : PolicyRecord} {r : Reading}
  {decision decision' : ModelDecision}

theorem mostSpecific_mem (h : mostSpecific views = some v) : v ∈ views :=
  List.argmax_mem (mostSpecific_eq_argmax views ▸ h)

theorem mostSpecific_eq_none : mostSpecific views = none ↔ views = [] := by
  rw [mostSpecific_eq_argmax, List.argmax_eq_none]

theorem mostSpecific_perm (h : views.Perm views') (hids : (views.map PolicyRecord.policyId).Nodup) :
    mostSpecific views = mostSpecific views' := by
  cases hv : mostSpecific views with
  | none =>
      rw [mostSpecific_eq_none] at hv
      subst hv
      rw [List.nil_perm.mp h]
      rfl
  | some v =>
      cases hw : mostSpecific views' with
      | none =>
          rw [mostSpecific_eq_none] at hw
          subst hw
          rw [List.perm_nil.mp h] at hv
          contradiction
      | some w =>
          have hvmem := mostSpecific_mem hv
          have hwmem := h.mem_iff.mpr (mostSpecific_mem hw)
          rw [mostSpecific_eq_argmax] at hv hw
          have hrank : modelRank v = modelRank w :=
            le_antisymm (List.le_of_mem_argmax (h.mem_iff.mp hvmem) hw) (List.le_of_mem_argmax hwmem hv)
          have hid : v.policyId = w.policyId := congrArg (fun r => (ofLex (ofLex r).2).2) hrank
          rw [List.inj_on_of_nodup_map hids hvmem hwmem hid]

/-! ## the evaluation on rows -/

section Rows

variable (fromisoformat : String → Option DateTime) (scope : RequestScope) (modelId : String) (now : DateTime)

/-- The views of the rows of a type that match the scope; `none` if a payload does not
validate as that type. -/
def viewsOf (policyType : PolicyType) (rows : List PolicyRow) : Option (List PolicyRecord) :=
  let views := (rows.filter fun row => row.policyType = policyType).map PolicyRow.policyPayload
  if views.all fun view => view.policyType = policyType then
    some (views.filter fun view => modelMatchesScope view scope)
  else none

/-- `evaluate_model_policies` where the SELECTs find these rows; `none` if it raises. -/
def evaluateRows (rows : List PolicyRow) (inventory : Reading) : Option ModelDecision :=
  match viewsOf scope .modelDenylist rows, viewsOf scope .modelAllowlist rows with
  | some denyViews, some allowViews =>
      match resolveModelDecision (allowViews.filter fun view => allowlistActive fromisoformat view now)
        denyViews modelId with
      | .deny policyId reason => some (.deny policyId reason)
      | .allow policyId =>
          (viewsOf scope .modelApproval rows).map fun approvalViews =>
            match mostSpecific approvalViews with
            | none => .allow policyId
            | some approval => approvalDecision approval scope modelId now inventory
  | _, _ => none

/-- The rows that a SELECT finds for a type. -/
def effectiveRows (policyType : PolicyType) (r : Reading) : List PolicyRow :=
  (getActivePoliciesForScope r.store scope.tenantId policyType r.now).map Prod.snd

theorem policyType_effectiveRows {policyType : PolicyType} {row : PolicyRow}
    (h : row ∈ effectiveRows scope policyType r) : row.policyType = policyType := by
  simp only [effectiveRows, getActivePoliciesForScope, List.mem_map, List.mem_insertionSort, List.mem_filter,
    decide_eq_true_eq] at h
  obtain ⟨p, ⟨-, -, htype, -⟩, rfl⟩ := h
  exact htype

/-- What the SELECTs of an evaluation find together. -/
def selectedRows (deny allow approval : Reading) : List PolicyRow :=
  effectiveRows scope .modelDenylist deny ++ effectiveRows scope .modelAllowlist allow ++
    effectiveRows scope .modelApproval approval

theorem filter_effectiveRows (policyType policyType' : PolicyType) (r : Reading) :
    (effectiveRows scope policyType' r).filter (fun row => row.policyType = policyType) =
      if policyType' = policyType then effectiveRows scope policyType' r else [] := by
  have htype := fun row (h : row ∈ effectiveRows scope policyType' r) => policyType_effectiveRows scope h
  split
  · next h =>
      refine List.filter_eq_self.mpr fun row hrow => ?_
      rw [htype row hrow, h]
      exact decide_eq_true rfl
  · next h =>
      refine List.filter_eq_nil_iff.mpr fun row hrow => ?_
      rw [htype row hrow]
      simpa using h

theorem viewsOf_eq_matchingViews {policyType : PolicyType} {rows : List PolicyRow}
    (h : rows.filter (fun row => row.policyType = policyType) = effectiveRows scope policyType r) :
    viewsOf scope policyType rows = matchingViews policyType scope r := by
  rw [viewsOf, h, matchingViews, effectiveRows, List.map_map]
  rfl

/-- **The model of the evaluation**, SELECT by SELECT, is the one on rows. -/
theorem evaluateModelPolicies_rows (deny allow approval inventory : Reading) :
    evaluateModelPolicies fromisoformat scope modelId now [deny, allow, approval, inventory] =
      match evaluateRows fromisoformat scope modelId now (selectedRows scope deny allow approval) inventory with
      | some decision => .decided decision
      | none => .raised := by
  have hdeny : viewsOf scope .modelDenylist (selectedRows scope deny allow approval) =
      matchingViews .modelDenylist scope deny :=
    viewsOf_eq_matchingViews scope (by simp [selectedRows, filter_effectiveRows])
  have hallow : viewsOf scope .modelAllowlist (selectedRows scope deny allow approval) =
      matchingViews .modelAllowlist scope allow :=
    viewsOf_eq_matchingViews scope (by simp [selectedRows, filter_effectiveRows])
  have happroval : viewsOf scope .modelApproval (selectedRows scope deny allow approval) =
      matchingViews .modelApproval scope approval :=
    viewsOf_eq_matchingViews scope (by simp [selectedRows, filter_effectiveRows])
  rw [evaluateModelPolicies, evaluateRows, hdeny, hallow, happroval]
  cases matchingViews .modelDenylist scope deny with
  | none => rfl
  | some denyViews =>
      cases matchingViews .modelAllowlist scope allow with
      | none => rfl
      | some allowViews =>
          dsimp only
          cases resolveModelDecision (allowViews.filter fun view => allowlistActive fromisoformat view now)
            denyViews modelId with
          | deny policyId reason => rfl
          | allow policyId =>
              dsimp only
              cases matchingViews .modelApproval scope approval with
              | none => rfl
              | some approvalViews =>
                  dsimp only [Option.map_some]
                  cases mostSpecific approvalViews <;> rfl

end Rows

/-! ## the verdict -/

inductive Verdict
  | allow
  | deny (reason : ModelDenyReason)
deriving DecidableEq

/-- A decision without the policy that it names. -/
def ModelDecision.verdict : ModelDecision → Verdict
  | .allow _ => .allow
  | .deny _ reason => .deny reason

/-- Effective policies: rows with an id of their own and a payload of their type. -/
structure Effective (rows : List PolicyRow) : Prop where
  ids : (rows.map fun row => row.policyPayload.policyId).Nodup
  types : ∀ row ∈ rows, row.policyPayload.policyType = row.policyType

/-- The policies of a type that match the scope. -/
def viewsFor (scope : RequestScope) (policyType : PolicyType) (rows : List PolicyRow) : List PolicyRecord :=
  ((rows.filter fun row => row.policyType = policyType).map PolicyRow.policyPayload).filter
    fun view => modelMatchesScope view scope

section Laws

variable {fromisoformat : String → Option DateTime} {scope : RequestScope} {modelId : String} {now : DateTime}
  {rows rows' : List PolicyRow} {row : PolicyRow} {policyType : PolicyType} {inventory : Reading}

theorem mem_viewsFor : view ∈ viewsFor scope policyType rows ↔
    ∃ row ∈ rows, row.policyType = policyType ∧ row.policyPayload = view ∧ modelMatchesScope view scope = true := by
  simp only [viewsFor, List.mem_filter, List.mem_map, decide_eq_true_eq]
  grind

theorem viewsFor_perm (h : rows.Perm rows') : (viewsFor scope policyType rows).Perm (viewsFor scope policyType rows') :=
  ((h.filter _).map _).filter _

theorem Effective.perm (h : Effective rows) (hperm : rows.Perm rows') : Effective rows' where
  ids := ((hperm.map _).nodup_iff).mp h.ids
  types row hrow := h.types row (hperm.mem_iff.mpr hrow)

theorem Effective.nodup_viewsFor (h : Effective rows) :
    ((viewsFor scope policyType rows).map PolicyRecord.policyId).Nodup := by
  have hsub : ((viewsFor scope policyType rows).map PolicyRecord.policyId).Sublist
      ((rows.map PolicyRow.policyPayload).map PolicyRecord.policyId) :=
    (List.filter_sublist.trans (List.filter_sublist.map _)).map _
  rw [List.map_map] at hsub
  exact hsub.nodup h.ids

theorem Effective.viewsOf_eq (h : Effective rows) :
    viewsOf scope policyType rows = some (viewsFor scope policyType rows) := by
  rw [viewsOf, if_pos, viewsFor]
  refine List.all_eq_true.mpr fun view hview => decide_eq_true ?_
  obtain ⟨row, hrow, rfl⟩ := List.mem_map.mp hview
  obtain ⟨hmem, htype⟩ := List.mem_filter.mp hrow
  exact (h.types row hmem).trans (of_decide_eq_true htype)

/-- The decision before the default-deny gate. -/
def listDecision (fromisoformat : String → Option DateTime) (scope : RequestScope) (modelId : String) (now : DateTime)
    (rows : List PolicyRow) : ModelDecision :=
  resolveModelDecision ((viewsFor scope .modelAllowlist rows).filter fun view => allowlistActive fromisoformat view now)
    (viewsFor scope .modelDenylist rows) modelId

/-- The gate: an allowance holds unless the scope is in approval mode, and is then the
inventory's. -/
def gated (scope : RequestScope) (modelId : String) (now : DateTime) (rows : List PolicyRow) (inventory : Reading) :
    ModelDecision → ModelDecision
  | .deny policyId reason => .deny policyId reason
  | .allow policyId =>
      match mostSpecific (viewsFor scope .modelApproval rows) with
      | none => .allow policyId
      | some approval => approvalDecision approval scope modelId now inventory

theorem Effective.evaluateRows_eq (h : Effective rows) :
    evaluateRows fromisoformat scope modelId now rows inventory =
      some (gated scope modelId now rows inventory (listDecision fromisoformat scope modelId now rows)) := by
  rw [evaluateRows, h.viewsOf_eq, h.viewsOf_eq, h.viewsOf_eq]
  dsimp only [listDecision, Option.map_some]
  cases resolveModelDecision ((viewsFor scope .modelAllowlist rows).filter fun view =>
    allowlistActive fromisoformat view now) (viewsFor scope .modelDenylist rows) modelId <;> rfl

/-! ## the lists -/

/-- A deny-list for the scope holds the model. -/
def Denied (scope : RequestScope) (modelId : String) (rows : List PolicyRow) : Prop :=
  ∃ row ∈ rows, row.policyType = .modelDenylist ∧ modelMatchesScope row.policyPayload scope = true ∧
    isDenied row.policyPayload modelId = true

theorem denied_iff_find? : Denied scope modelId rows ↔
    ((viewsFor scope .modelDenylist rows).find? fun view => isDenied view modelId).isSome = true := by
  simp only [Denied, List.find?_isSome, mem_viewsFor]
  grind

theorem verdict_listDecision_of_denied (h : Denied scope modelId rows) :
    (listDecision fromisoformat scope modelId now rows).verdict = .deny .modelDenied := by
  obtain ⟨view, hview⟩ := Option.isSome_iff_exists.mp (denied_iff_find?.mp h)
  rw [listDecision, resolveModelDecision, hview]
  rfl

theorem listDecision_of_not_denied (h : ¬ Denied scope modelId rows) :
    listDecision fromisoformat scope modelId now rows =
      match mostSpecific ((viewsFor scope .modelAllowlist rows).filter fun view =>
        allowlistActive fromisoformat view now) with
      | none => .allow none
      | some chosen =>
          if isAllowed chosen modelId then .allow (some chosen.policyId)
          else .deny chosen.policyId .modelNotInAllowlist := by
  rw [denied_iff_find?, Bool.not_eq_true, Option.isSome_eq_false_iff, Option.isNone_iff_eq_none] at h
  cases hchosen : mostSpecific ((viewsFor scope .modelAllowlist rows).filter fun view =>
    allowlistActive fromisoformat view now) with
  | none => simp only [listDecision, resolveModelDecision, h, hchosen]
  | some chosen => simp only [listDecision, resolveModelDecision, h, hchosen]

/-- The verdict does not depend on the order of the rows. -/
theorem verdict_listDecision_perm (h : Effective rows) (hperm : rows.Perm rows') :
    (listDecision fromisoformat scope modelId now rows).verdict =
      (listDecision fromisoformat scope modelId now rows').verdict := by
  by_cases hdenied : Denied scope modelId rows
  · have hdenied' : Denied scope modelId rows' := by
      obtain ⟨row, hrow, hrest⟩ := hdenied
      exact ⟨row, hperm.mem_iff.mp hrow, hrest⟩
    rw [verdict_listDecision_of_denied hdenied, verdict_listDecision_of_denied hdenied']
  · have hdenied' : ¬ Denied scope modelId rows' := by
      rintro ⟨row, hrow, hrest⟩
      exact hdenied ⟨row, hperm.mem_iff.mpr hrow, hrest⟩
    rw [listDecision_of_not_denied hdenied, listDecision_of_not_denied hdenied',
      mostSpecific_perm ((viewsFor_perm hperm).filter _) (h.nodup_viewsFor.sublist (List.filter_sublist.map _))]

/-! ## the gate -/

def ApprovalMode (scope : RequestScope) (rows : List PolicyRow) : Prop :=
  ∃ row ∈ rows, row.policyType = .modelApproval ∧ modelMatchesScope row.policyPayload scope = true

/-- The inventory has the model as approved, and its retirement has not come. -/
def Approved (scope : RequestScope) (modelId : String) (now : DateTime) (inventory : Reading) : Prop :=
  ∃ table row, inventory.inventory = some table ∧ table (scope.tenantId, modelId) = some row ∧
    row.state = .approved ∧ (row.retireAt.any fun retireAt => retireAt < now) = false

theorem approvalDecision_allow :
    (approvalDecision approval scope modelId now inventory).verdict = .allow ↔ Approved scope modelId now inventory := by
  unfold approvalDecision Approved
  cases hinventory : inventory.inventory with
  | none => simp [ModelDecision.verdict]
  | some table =>
      cases hrow : table (scope.tenantId, modelId) with
      | none => simp [ModelDecision.verdict, hrow]
      | some row =>
          by_cases hstate : row.state = .approved
          · cases hretired : row.retireAt.any fun retireAt => retireAt < now with
            | true => simp [ModelDecision.verdict, hrow, hstate, hretired]
            | false => simp [ModelDecision.verdict, hrow, hstate, hretired]
          · simp [ModelDecision.verdict, hrow, hstate]

theorem mostSpecific_approval : mostSpecific (viewsFor scope .modelApproval rows) = none ↔ ¬ ApprovalMode scope rows := by
  rw [mostSpecific_eq_none, ApprovalMode, List.eq_nil_iff_forall_not_mem]
  simp only [mem_viewsFor]
  grind

/-- **What is allowed**: what the lists allow, and in approval mode the inventory. -/
theorem verdict_gated_allow :
    (gated scope modelId now rows inventory decision).verdict = .allow ↔
      decision.verdict = .allow ∧ (ApprovalMode scope rows → Approved scope modelId now inventory) := by
  cases decision with
  | deny policyId reason => simp [gated, ModelDecision.verdict]
  | allow policyId =>
      rw [gated]
      cases happroval : mostSpecific (viewsFor scope .modelApproval rows) with
      | none => simp [mostSpecific_approval.mp happroval, ModelDecision.verdict]
      | some approval =>
          have hmode : ApprovalMode scope rows := by
            by_contra hnot
            rw [mostSpecific_approval.mpr hnot] at happroval
            contradiction
          dsimp only
          rw [approvalDecision_allow]
          simp [hmode, ModelDecision.verdict]

theorem verdict_gated_perm (h : Effective rows) (hperm : rows.Perm rows')
    (hverdict : decision.verdict = decision'.verdict) :
    (gated scope modelId now rows inventory decision).verdict =
      (gated scope modelId now rows' inventory decision').verdict := by
  cases decision with
  | deny policyId reason =>
      cases decision' with
      | deny policyId' reason' => exact hverdict
      | allow policyId' => simp [ModelDecision.verdict] at hverdict
  | allow policyId =>
      cases decision' with
      | deny policyId' reason' => simp [ModelDecision.verdict] at hverdict
      | allow policyId' =>
          rw [gated, gated, mostSpecific_perm (viewsFor_perm hperm) h.nodup_viewsFor]
          cases mostSpecific (viewsFor scope .modelApproval rows') <;> rfl

/-! ## more policies -/

theorem viewsFor_cons_of_ne (h : row.policyType ≠ policyType) :
    viewsFor scope policyType (row :: rows) = viewsFor scope policyType rows := by
  rw [viewsFor, List.filter_cons_of_neg (by simpa using h), viewsFor]

theorem listDecision_cons (hne : row.policyType ≠ .modelAllowlist)
    (hallow : (listDecision fromisoformat scope modelId now (row :: rows)).verdict = .allow) :
    (listDecision fromisoformat scope modelId now rows).verdict = .allow := by
  have hdenied : ¬ Denied scope modelId (row :: rows) := by
    intro hdenied
    rw [verdict_listDecision_of_denied hdenied] at hallow
    contradiction
  have hdenied' : ¬ Denied scope modelId rows := by
    rintro ⟨r, hr, hrest⟩
    exact hdenied ⟨r, List.mem_cons_of_mem _ hr, hrest⟩
  rw [listDecision_of_not_denied hdenied, viewsFor_cons_of_ne hne] at hallow
  rwa [listDecision_of_not_denied hdenied']

end Laws

/-- The verdict on the rows; there is one, for effective policies raise nothing. -/
def verdictOf (fromisoformat : String → Option DateTime) (scope : RequestScope) (modelId : String) (now : DateTime)
    (rows : List PolicyRow) (inventory : Reading) : Option Verdict :=
  (evaluateRows fromisoformat scope modelId now rows inventory).map ModelDecision.verdict

/-- **The laws of model decisions**: the order of the rows does not matter, a deny-list with
the model denies whatever else there is, one more deny-list or approval policy allows nothing
that was denied, and in approval mode only what is approved and not retired is allowed. -/
theorem model_decision_laws (fromisoformat : String → Option DateTime) (scope : RequestScope) (modelId : String)
    (now : DateTime) (rows : List PolicyRow) (inventory : Reading) (h : Effective rows) :
    (∀ rows', rows.Perm rows' →
      verdictOf fromisoformat scope modelId now rows inventory =
        verdictOf fromisoformat scope modelId now rows' inventory) ∧
    (Denied scope modelId rows →
      verdictOf fromisoformat scope modelId now rows inventory = some (.deny .modelDenied)) ∧
    (∀ row, (row.policyType = .modelDenylist ∨ row.policyType = .modelApproval) → Effective (row :: rows) →
      ∀ reason, verdictOf fromisoformat scope modelId now rows inventory = some (.deny reason) →
        verdictOf fromisoformat scope modelId now (row :: rows) inventory ≠ some .allow) ∧
    (ApprovalMode scope rows →
      verdictOf fromisoformat scope modelId now rows inventory = some .allow →
        Approved scope modelId now inventory) := by
  have hverdict : ∀ {rows}, Effective rows → verdictOf fromisoformat scope modelId now rows inventory =
      some (gated scope modelId now rows inventory (listDecision fromisoformat scope modelId now rows)).verdict := by
    intro rows hrows
    rw [verdictOf, hrows.evaluateRows_eq, Option.map_some]
  refine ⟨fun rows' hperm => ?_, fun hdenied => ?_, fun row htype hmore reason hdeny hallow => ?_,
    fun hmode hallow => ?_⟩
  · rw [hverdict h, hverdict (h.perm hperm), verdict_gated_perm h hperm (verdict_listDecision_perm h hperm)]
  · have hlist : (listDecision fromisoformat scope modelId now rows).verdict = .deny .modelDenied :=
      verdict_listDecision_of_denied hdenied
    rw [hverdict h]
    cases hdecision : listDecision fromisoformat scope modelId now rows with
    | allow policyId => simp [hdecision, ModelDecision.verdict] at hlist
    | deny policyId reason => rw [gated, ← hdecision, hlist]
  · rw [hverdict hmore, Option.some.injEq, verdict_gated_allow] at hallow
    have hne : row.policyType ≠ .modelAllowlist := by
      rcases htype with htype | htype <;> rw [htype] <;> decide
    have hbefore : (gated scope modelId now rows inventory
        (listDecision fromisoformat scope modelId now rows)).verdict = .allow := by
      refine verdict_gated_allow.mpr ⟨listDecision_cons hne hallow.1, ?_⟩
      rintro ⟨r, hr, hrest⟩
      exact hallow.2 ⟨r, List.mem_cons_of_mem _ hr, hrest⟩
    rw [hverdict h, hbefore] at hdeny
    simp at hdeny
  · rw [hverdict h, Option.some.injEq, verdict_gated_allow] at hallow
    exact hallow.2 hmode

/-! ## two policies -/

def lawScope : RequestScope where
  tenantId := "11111111-1111-4111-8111-111111111111"
  teamId := "team"
  projectId := "project"
  agentId := "agent"

/-- A policy for all of the tenant. -/
def lawPolicy (policyId : String) (body : PolicyBody) : PolicyRow :=
  PolicyRecord.toRow {
    policyId
    policyVersion := 1
    tenantId := lawScope.tenantId
    teamId := wildcardUuid
    projectId := wildcardUuid
    agentId := wildcardAgent
    effectiveFrom := DateTime.ofFields 2026 1 1 0 0 0 0 (Eq.refl true)
    signature := ""
    body
    version_pos := Nat.one_pos }

/-- Approval mode, and a deny-list. -/
def lawRows : List PolicyRow :=
  [lawPolicy "a" .modelApproval, lawPolicy "b" (.modelDenylist ["model-x"] "unsafe")]

theorem model_decision_laws_sample :
    Effective lawRows ∧ ∀ inventory,
      verdictOf (fun _ => none) lawScope "model-x" (DateTime.ofFields 2026 1 2 0 0 0 0 (Eq.refl true)) lawRows inventory =
        some (.deny .modelDenied) := by
  have heffective : Effective lawRows := ⟨by decide, by decide⟩
  refine ⟨heffective, fun inventory => (model_decision_laws _ _ _ _ lawRows inventory heffective).2.1 ?_⟩
  exact ⟨lawPolicy "b" (.modelDenylist ["model-x"] "unsafe"), by simp [lawRows], rfl, by decide, by decide⟩

end Anoryx.Sentinel
