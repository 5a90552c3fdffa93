import Anoryx.Delta.AllocationAdmin

/-!
# Anoryx.Delta.AllocationDecisions

What the calls of `AllocationAdmin` do to an allocation, its targets and their budgets,
whatever the order of their statements.

`Distributed` is what is true of an allocation: its targets make up its total, and each of
them has its budget if and only if the allocation is approved.  `Allocated` says so of
everything that is committed; whoever has written an allocation `Writes` its family alone,
and commits when what he sees of it is `Distributed`.
-/

namespace Anoryx.Delta

open ReadCommitted Table Logic

/-! ## what is true of an allocation -/

/-- The budget of a target of an approved allocation. -/
structure Caps (row : AllocationRow) (target : TargetRow) (budget : BudgetDefinition) : Prop where
  cost : budget.limitCostCents = some target.amountMinorUnits
  tokens : budget.limitTokens = none
  currency : budget.currency = row.currency
  period : budget.period = row.period
  tenant : budget.tenantId = row.tenantId
  scope : budget.scope = target.scope
  team : budget.teamId = target.teamId
  project : budget.projectId = target.projectId
  agent : budget.agentId = target.agentId

def HasBudget (budgets : String → Option BudgetDefinition) (row : AllocationRow) (target : TargetRow) : Prop :=
  ∃ budgetId budget, target.budgetId = some budgetId ∧ budgets budgetId = some budget ∧ Caps row target budget

/-- An allocation and its targets. -/
structure Distributed (budgets : String → Option BudgetDefinition) (row : AllocationRow)
    (targets : Multiset (String × TargetRow)) : Prop where
  tenant : ∀ p ∈ targets, p.2.tenantId = row.tenantId
  total : (targets.map fun p => p.2.amountMinorUnits).sum = row.totalMinorUnits
  approved : row.status = .approved → ∀ p ∈ targets, HasBudget budgets row p.2
  pending : row.status ≠ .approved → ∀ p ∈ targets, p.2.budgetId = none

/-- What a target says of its budget. -/
def CapOf (target : TargetRow) (budget : BudgetDefinition) : Prop :=
  budget.limitCostCents = some target.amountMinorUnits

/-- What is true of the database between any two statements; `old` are the budgets that no
allocation has made. -/
structure Allocated (old : Set String) (d : AllocationDb) : Prop where
  guards : Guards TargetRow.allocationId d.allocations d.targets
  refers : References TargetRow.budgetId CapOf d.targets d.budgets
  decides : ∀ a t row row', d.allocations.inflight a = some (t, row) → d.allocations.committed a = some row' →
    row'.status = .requested ∧ row.status ≠ .requested
  distributed : ∀ a row, d.allocations.committed a = some row →
    Distributed d.budgets.committed row (d.targets.children TargetRow.allocationId d.targets.committed a)
  owned : ∀ x target, d.targets.committed x = some target →
    ∃ row, d.allocations.committed target.allocationId = some row
  materialized : ∀ budgetId budget, d.budgets.committed budgetId = some budget → budgetId ∉ old →
    ∃ x target, d.targets.committed x = some target ∧ target.budgetId = some budgetId

/-- What `u` may rely on: what it holds, the budgets, and that an allocation that is decided, or
is not decided yet, is what it was. -/
structure AllocationRely (u : Txn) (d d' : AllocationDb) : Prop where
  keeps : Keeps TargetRow.allocationId u d.allocations d.targets d'.allocations d'.targets
  budgets : Frame u d.budgets d'.budgets
  grows : Grows d.budgets d'.budgets
  settled : ∀ a row, d.allocations.committed a = some row → ∃ row', d'.allocations.committed a = some row' ∧
    (row.status ≠ .requested ∨ row'.status = .requested → Family TargetRow.allocationId a
      d.allocations.committed d.targets.committed d'.allocations.committed d'.targets.committed)

/-- `t` has nothing in flight. -/
structure Unheld (t : Txn) (d : AllocationDb) : Prop where
  allocations : ∀ a row, d.allocations.inflight a ≠ some (t, row)
  targets : ∀ x target, d.targets.inflight x ≠ some (t, target)
  budgets : ∀ budgetId budget, d.budgets.inflight budgetId ≠ some (t, budget)

/-- `t` has written the allocation `a` and nothing else: what it sees of its targets, and that it
owes a target at most for the budget that it has inserted last. -/
structure Writes (t : Txn) (a : String) (row : AllocationRow) (targets : Multiset (String × TargetRow))
    (owed : Option (String × BudgetDefinition)) (d : AllocationDb) : Prop where
  holds : d.allocations.inflight a = some (t, row)
  alone : ∀ a' row', d.allocations.inflight a' = some (t, row') → a' = a
  sees : d.targets.children TargetRow.allocationId (d.targets.visible t) a = targets
  owes : ∀ p, owed = some p → d.budgets.inflight p.1 = some (t, p.2) ∧
    ∀ x target, d.targets.inflight x = some (t, target) → target.budgetId ≠ some p.1
  settled : ∀ budgetId budget, d.budgets.inflight budgetId = some (t, budget) →
    (∃ p, owed = some p ∧ p.1 = budgetId) ∨
      ∃ x target, d.targets.inflight x = some (t, target) ∧ target.budgetId = some budgetId

variable {budgets budgets' : String → Option BudgetDefinition} {target : TargetRow} {d₁ d₂ d₃ d : AllocationDb}
  {budgetId x tenantId currency a policyId : String} {b : Bool} {rest done targets : Multiset (String × TargetRow)}
  {decision : ApprovalDecisionRequest} {record : AllocationRecord} {minorUnits i : Nat}
  {req : AllocationCreateRequest} {ts : List AllocationTargetIn} {row : AllocationRow} {concept : BudgetConcept}

section Steps

variable {old : Set String} {d d' : AllocationDb} {t u : Txn} {a : String} {row : AllocationRow}
  {targets : Multiset (String × TargetRow)} {owed : Option (String × BudgetDefinition)}

theorem HasBudget.mono (h : HasBudget budgets row target)
    (hgrows : ∀ budgetId budget, budgets budgetId = some budget → budgets' budgetId = some budget) :
    HasBudget budgets' row target := by
  obtain ⟨budgetId, budget, hid, hbudget, hcaps⟩ := h
  exact ⟨budgetId, budget, hid, hgrows budgetId budget hbudget, hcaps⟩

theorem Distributed.mono (h : Distributed budgets row targets)
    (hgrows : ∀ budgetId budget, budgets budgetId = some budget → budgets' budgetId = some budget) :
    Distributed budgets' row targets where
  tenant := h.tenant
  total := h.total
  approved hstatus p hp := (h.approved hstatus p hp).mono hgrows
  pending := h.pending

theorem AllocationRely.refl (u : Txn) (d : AllocationDb) : AllocationRely u d d :=
  ⟨Keeps.refl u _ _, Frame.refl u _, Grows.refl _,
    fun a row h => ⟨row, h, fun _ => Family.refl a _ _⟩⟩

theorem AllocationRely.trans (h : AllocationRely u d₁ d₂) (h' : AllocationRely u d₂ d₃) : AllocationRely u d₁ d₃ := by
  refine ⟨h.keeps.trans h'.keeps, h.budgets.trans h'.budgets, h.grows.trans h'.grows, fun a row hrow => ?_⟩
  obtain ⟨row₂, hrow₂, hfamily⟩ := h.settled a row hrow
  obtain ⟨row₃, hrow₃, hfamily'⟩ := h'.settled a row₂ hrow₂
  refine ⟨row₃, hrow₃, fun hstatus => ?_⟩
  rcases hstatus with hdecided | hrequested
  · have h₁ := hfamily (.inl hdecided)
    obtain rfl : row = row₂ := Option.some.inj (hrow.symm.trans (h₁.row.trans hrow₂))
    exact h₁.trans (hfamily' (.inl hdecided))
  · have h₂ := hfamily' (.inr hrequested)
    obtain rfl : row₂ = row₃ := Option.some.inj (hrow₂.symm.trans (h₂.row.trans hrow₃))
    exact (hfamily (.inr hrequested)).trans h₂

theorem Unheld.rely (h : Unheld t d) (hr : AllocationRely t d d') : Unheld t d' where
  allocations a row hin := h.allocations a row ((hr.keeps.own.inflight a row).mpr hin)
  targets x target hin := h.targets x target ((hr.keeps.ownChildren.inflight x target).mpr hin)
  budgets budgetId budget hin := h.budgets budgetId budget ((hr.budgets.inflight budgetId budget).mpr hin)

theorem AllocationRely.budget (h : AllocationRely u d d') (hd : Allocated old d') {budget : BudgetDefinition}
    (hbudget : d.budgets.visible u budgetId = some budget) : d'.budgets.visible u budgetId = some budget :=
  h.budgets.visible_of_grows h.grows hd.refers.insertOnly hbudget

theorem Writes.rely (h : Writes t a row targets owed d) (hr : AllocationRely t d d') :
    Writes t a row targets owed d' where
  holds := (hr.keeps.own.inflight a row).mp h.holds
  alone a' row' hin := h.alone a' row' ((hr.keeps.own.inflight a' row').mpr hin)
  sees := by
    rw [← h.sees]
    exact ((hr.keeps.visible h.holds).children_eq (d.targets.reads_visible t) (d'.targets.reads_visible t)).symm
  owes p hp := ⟨(hr.budgets.inflight p.1 p.2).mp (h.owes p hp).1,
    fun x target hin => (h.owes p hp).2 x target ((hr.keeps.ownChildren.inflight x target).mpr hin)⟩
  settled budgetId budget hin := by
    rcases h.settled budgetId budget ((hr.budgets.inflight budgetId budget).mpr hin) with hp | ⟨x, target, hx, hid⟩
    · exact .inl hp
    · exact .inr ⟨x, target, (hr.keeps.ownChildren.inflight x target).mp hx, hid⟩

/-! ## the writes -/

/-- What a write leaves: the invariant, and to the others their rely. -/
def Step (old : Set String) (t : Txn) (d d' : AllocationDb) : Prop :=
  Allocated old d' ∧ ∀ u, u ≠ t → AllocationRely u d d'

theorem Step.refl (h : Allocated old d) : Step old t d d := ⟨h, fun u _ => AllocationRely.refl u d⟩

theorem settled_of_committed (ha : d'.allocations.committed = d.allocations.committed)
    (hx : d'.targets.committed = d.targets.committed) (a : String) (row : AllocationRow)
    (hrow : d.allocations.committed a = some row) : ∃ row', d'.allocations.committed a = some row' ∧
      (row.status ≠ .requested ∨ row'.status = .requested → Family TargetRow.allocationId a
        d.allocations.committed d.targets.committed d'.allocations.committed d'.targets.committed) := by
  rw [ha, hx]
  exact ⟨row, hrow, fun _ => Family.refl a _ _⟩

theorem free_of_not_inflight {K V : Type} {tbl : Table K V} {k : K} (h : tbl.inflight k = none) (t : Txn) :
    tbl.free t k = true := free_iff.mpr fun t' v hv => by
  rw [h] at hv
  contradiction

theorem Allocated.writeAllocation (h : Allocated old d) (hfree : d.allocations.free t a = true)
    (hdecides : ∀ row', d.allocations.committed a = some row' → row'.status = .requested ∧ row.status ≠ .requested) :
    Step old t d { d with allocations := d.allocations.write t a row } := by
  obtain ⟨hguards, hkeeps⟩ := h.guards.write_parent hfree row
  refine ⟨⟨hguards, h.refers, fun a' t' row₁ row₂ hin hc => ?_, h.distributed, h.owned, h.materialized⟩,
    fun u hu => ⟨hkeeps u hu, Frame.refl u _, Grows.refl _, settled_of_committed rfl rfl⟩⟩
  rcases inflight_write_cases hin with ⟨rfl, -, rfl⟩ | ⟨-, hin⟩
  · exact hdecides row₂ hc
  · exact h.decides a' t' row₁ row₂ hin hc

theorem Allocated.writeTarget (h : Allocated old d) (hfree : d.targets.free t x = true)
    (hheld : d.allocations.inflight target.allocationId = some (t, row))
    (hfixed : ∀ target', d.targets.committed x = some target' → target'.allocationId = target.allocationId)
    (hrefers : ∀ budgetId, target.budgetId = some budgetId →
      (∃ budget, d.budgets.inflight budgetId = some (t, budget) ∧ CapOf target budget) ∧
        ∀ x' target', d.targets.inflight x' = some (t, target') → target'.budgetId ≠ some budgetId) :
    Step old t d { d with targets := d.targets.write t x target } := by
  obtain ⟨hguards, hkeeps⟩ := h.guards.write_child hfree hheld hfixed
  refine ⟨⟨hguards, h.refers.write_left hrefers, h.decides, fun a row hrow => ?_, h.owned, h.materialized⟩,
    fun u hu => ⟨hkeeps u hu, Frame.refl u _, Grows.refl _, settled_of_committed rfl rfl⟩⟩
  show Distributed _ row ((d.targets.write t x target).children _ (d.targets.write t x target).committed a)
  rw [children_committed_write]
  exact h.distributed a row hrow

theorem Allocated.writeBudget (h : Allocated old d) {budget : BudgetDefinition}
    (hin : d.budgets.inflight budgetId = none) (hc : d.budgets.committed budgetId = none) :
    Step old t d { d with budgets := d.budgets.write t budgetId budget } :=
  ⟨⟨h.guards, h.refers.write_right hin hc, h.decides, h.distributed, h.owned, h.materialized⟩,
    fun u hu => ⟨Keeps.refl u _ _, frame_write hu (free_of_not_inflight hin t), Grows.refl _,
      settled_of_committed rfl rfl⟩⟩

/-! ## the end of a transaction -/

/-- Who has written nothing, or an allocation that is distributed as he sees it. -/
structure Committable (t : Txn) (d : AllocationDb) : Prop where
  distributed : ∀ a row, d.allocations.inflight a = some (t, row) →
    Distributed (d.budgets.visible t) row (d.targets.children TargetRow.allocationId (d.targets.visible t) a)
  settled : ∀ budgetId budget, d.budgets.inflight budgetId = some (t, budget) →
    ∃ x target, d.targets.inflight x = some (t, target) ∧ target.budgetId = some budgetId

theorem Writes.committable (h : Writes t a row targets none d) (hd : Distributed (d.budgets.visible t) row targets) :
    Committable t d where
  distributed a' row' hin := by
    obtain rfl := h.alone a' row' hin
    obtain rfl : row = row' := congrArg Prod.snd (Option.some.inj (h.holds.symm.trans hin))
    rwa [h.sees]
  settled budgetId budget hin := by
    rcases h.settled budgetId budget hin with ⟨p, hp, -⟩ | htarget
    · exact absurd hp.symm (Option.some_ne_none p)
    · exact htarget

theorem Allocated.visible (h : Allocated old d) (ha : ∀ row, d.allocations.inflight a ≠ some (t, row)) :
    Family TargetRow.allocationId a (d.allocations.visible t) (d.targets.visible t) d.allocations.committed
      d.targets.committed :=
  h.guards.visible ha

/-- A decision is committed with all the budgets of its targets. -/
theorem Allocated.commit (h : Allocated old d) (hs : Committable t d) : Step old t d (Database.commit t d) := by
  refine ⟨⟨h.guards.commit t, h.refers.commit t, fun a' t' row₁ row₂ hin hc => ?_, fun a' row' hrow => ?_,
    fun x target hx => ?_, fun budgetId budget hbudget hold => ?_⟩, fun u hu => ⟨h.guards.keeps_commit hu,
      frame_commit _ hu, h.refers.insertOnly.grows_commit t, fun a' row' hrow => ?_⟩⟩
  · obtain ⟨hin, hne⟩ := inflight_commit_eq_some.mp hin
    exact h.decides a' t' row₁ row₂ hin ((visible_of_inflight_ne hin hne).symm.trans hc)
  · show Distributed (d.budgets.visible t) row' (d.targets.children _ (d.targets.visible t) a')
    rcases visible_cases d.allocations t a' with ⟨row, hin, hvisible⟩ | ⟨hno, hvisible⟩
    · obtain rfl : row = row' := Option.some.inj (hvisible.symm.trans hrow)
      exact hs.distributed a' row hin
    · have hfamily := h.visible hno
      rw [hfamily.children_eq (d.targets.reads_visible t) d.targets.reads_committed]
      exact (h.distributed a' row' (hvisible.symm.trans hrow)).mono (h.refers.insertOnly.grows_commit t)
  · rcases visible_cases d.targets t x with ⟨target', hin, hvisible⟩ | ⟨-, hvisible⟩
    · obtain rfl : target' = target := Option.some.inj (hvisible.symm.trans hx)
      obtain ⟨row, hrow⟩ := h.guards.held x t target' hin
      exact ⟨row, visible_of_inflight hrow⟩
    · obtain ⟨row, hrow⟩ := h.owned x target (hvisible.symm.trans hx)
      rcases visible_cases d.allocations t target.allocationId with ⟨row', -, hrow'⟩ | ⟨-, hrow'⟩
      · exact ⟨row', hrow'⟩
      · exact ⟨row, hrow'.trans hrow⟩
  · rcases visible_cases d.budgets t budgetId with ⟨budget', hin, -⟩ | ⟨-, hvisible⟩
    · obtain ⟨x, target, hx, hid⟩ := hs.settled budgetId budget' hin
      exact ⟨x, target, visible_of_inflight hx, hid⟩
    · obtain ⟨x, target, hx, hid⟩ := h.materialized budgetId budget (hvisible.symm.trans hbudget) hold
      rcases visible_cases d.targets t x with ⟨target', hin, hx'⟩ | ⟨-, hx'⟩
      · -- a target that has its budget is not written again
        obtain ⟨row, hrow⟩ := h.guards.held x t target' hin
        obtain ⟨row₀, hrow₀⟩ := h.owned x target hx
        rw [← h.guards.fixed x t target' target hin hx] at hrow
        have hrequested := (h.decides _ t row row₀ hrow hrow₀).1
        have hnone := (h.distributed _ row₀ hrow₀).pending (by rw [hrequested]; exact AllocationStatus.noConfusion)
          (x, target) ((mem_children d.targets.reads_committed).mpr ⟨hx, rfl⟩)
        exact absurd (hnone.symm.trans hid).symm (Option.some_ne_none _)
      · exact ⟨x, target, hx'.trans hx, hid⟩
  · rcases visible_cases d.allocations t a' with ⟨row, hin, hvisible⟩ | ⟨hno, hvisible⟩
    · obtain ⟨hrequested, hdecided⟩ := h.decides a' t row row' hin hrow
      exact ⟨row, hvisible, fun hstatus => hstatus.elim (absurd hrequested) fun he => absurd he hdecided⟩
    · exact ⟨row', hvisible.trans hrow, fun _ => (h.visible hno).symm⟩

theorem Allocated.rollback (h : Allocated old d) (t : Txn) : Step old t d (Database.rollback t d) :=
  ⟨⟨h.guards.rollback t, h.refers.rollback t, fun a' t' row₁ row₂ hin hc =>
      h.decides a' t' row₁ row₂ (inflight_rollback_eq_some.mp hin).1 hc, h.distributed, h.owned, h.materialized⟩,
    fun _ hu => ⟨keeps_rollback _ _ hu, frame_rollback _ hu, fun _ _ hold => hold,
      settled_of_committed rfl rfl⟩⟩

theorem unheld_rollback (t : Txn) (d : AllocationDb) : Unheld t (Database.rollback t d) where
  allocations _ _ hin := (inflight_rollback_eq_some.mp hin).2 rfl
  targets _ _ hin := (inflight_rollback_eq_some.mp hin).2 rfl
  budgets _ _ hin := (inflight_rollback_eq_some.mp hin).2 rfl

/-! ## the statements -/

theorem Unheld.insertAllocation (hu : Unheld t d) (h : Allocated old d)
    (hins : insertAllocation a row t d = some (b, d')) : Step old t d d' ∧ (b = true → Writes t a row 0 none d') := by
  obtain ⟨⟨b', allocations⟩, hinsert, he⟩ := Option.map_eq_some_iff.mp hins
  obtain ⟨rfl, rfl⟩ := Prod.mk.inj he
  rcases insertOrIgnore_cases hinsert with ⟨rfl, rfl, -⟩ | ⟨rfl, rfl, hin, hc⟩
  · exact ⟨Step.refl h, fun hb => absurd hb Bool.false_ne_true⟩
  have hnew : ∀ row', d.allocations.committed a ≠ some row' := by simp [hc]
  refine ⟨h.writeAllocation (free_of_not_inflight hin t) fun row' hrow => absurd hrow (hnew row'), fun _ =>
    ⟨inflight_write_self .., fun a' row' hin' => ?_, ?_, fun p hp => absurd hp.symm (Option.some_ne_none p),
      fun budgetId budget hin' => absurd hin' (hu.budgets budgetId budget)⟩⟩
  · exact ((inflight_write_cases hin').resolve_right fun hold => hu.allocations a' row' hold.2).1
  · -- there are no targets of an allocation that is not there
    show d.targets.children TargetRow.allocationId (d.targets.visible t) a = 0
    rw [(h.visible (hu.allocations a)).children_eq (d.targets.reads_visible t) d.targets.reads_committed,
      Multiset.eq_zero_iff_forall_notMem]
    intro p hp
    obtain ⟨hcommitted, rfl⟩ := (mem_children d.targets.reads_committed).mp hp
    obtain ⟨row', hrow⟩ := h.owned p.1 p.2 hcommitted
    exact hnew row' hrow

theorem Writes.insertTarget (hw : Writes t a row targets none d) (h : Allocated old d) (hof : target.allocationId = a)
    (hnone : target.budgetId = none) (hins : insertTarget x target t d = some (b, d')) :
    Step old t d d' ∧ (b = true → Writes t a row ((x, target) ::ₘ targets) none d') := by
  obtain ⟨⟨b', rows⟩, hinsert, he⟩ := Option.map_eq_some_iff.mp hins
  obtain ⟨rfl, rfl⟩ := Prod.mk.inj he
  rcases insertOrIgnore_cases hinsert with ⟨rfl, rfl, -⟩ | ⟨rfl, rfl, hin, hc⟩
  · exact ⟨Step.refl h, fun hb => absurd hb Bool.false_ne_true⟩
  have hvisible : d.targets.visible t x = none := (visible_of_inflight_none hin).trans hc
  refine ⟨h.writeTarget (free_of_not_inflight hin t) (hof ▸ hw.holds) (fun target' ht => ?_) fun budgetId hid => ?_,
    fun _ => ⟨hw.holds, hw.alone, ?_, fun p hp => absurd hp.symm (Option.some_ne_none p), fun budgetId budget hb => ?_⟩⟩
  · rw [hc] at ht
    contradiction
  · exact absurd (hnone.symm.trans hid).symm (Option.some_ne_none _)
  · rw [← hw.sees]
    exact Multiset.coe_eq_coe.mpr (rowsOf_visible_write hvisible (decide_eq_true hof))
  · rcases hw.settled budgetId budget hb with ⟨p, hp, -⟩ | ⟨x', target', hx', hid⟩
    · exact absurd hp.symm (Option.some_ne_none p)
    · have hne : x' ≠ x := by
        rintro rfl
        rw [hin] at hx'
        contradiction
      exact .inr ⟨x', target', (inflight_write_of_ne hne).trans hx', hid⟩

theorem Writes.insertBudget (hw : Writes t a row targets none d) (h : Allocated old d) {budget : BudgetDefinition}
    (hins : insertBudget budgetId budget t d = some (b, d')) :
    Step old t d d' ∧ (b = true → Writes t a row targets (some (budgetId, budget)) d' ∧
      d'.budgets.visible t budgetId = some budget ∧
      ∀ id b', d.budgets.visible t id = some b' → d'.budgets.visible t id = some b') := by
  obtain ⟨⟨b', budgets⟩, hinsert, he⟩ := Option.map_eq_some_iff.mp hins
  obtain ⟨rfl, rfl⟩ := Prod.mk.inj he
  have hgrows : ∀ id b', d.budgets.visible t id = some b' → budgets.visible t id = some b' :=
    fun id b' => visible_insertOrIgnore_of_some hinsert
  rcases insertOrIgnore_cases hinsert with ⟨rfl, rfl, -⟩ | ⟨rfl, rfl, hin, hc⟩
  · exact ⟨Step.refl h, fun hb => absurd hb Bool.false_ne_true⟩
  refine ⟨h.writeBudget hin hc, fun _ => ⟨⟨hw.holds, hw.alone, hw.sees, fun p hp => ?_, fun id b' hb => ?_⟩,
    visible_write_self .., hgrows⟩⟩
  · obtain rfl := Option.some.inj hp
    refine ⟨inflight_write_self .., fun x target hx hid => ?_⟩
    -- a target that refers to it would have found it there
    obtain ⟨b', hb', -⟩ := h.refers.inflight x t target budgetId hx hid
    rw [hin] at hb'
    contradiction
  · by_cases hid : id = budgetId
    · exact .inl ⟨_, rfl, hid.symm⟩
    · rcases hw.settled id b' ((inflight_write_of_ne hid).symm.trans hb) with ⟨p, hp, -⟩ | htarget
      · exact absurd hp.symm (Option.some_ne_none p)
      · exact .inr htarget

/-- A target is given the budget that was just written for it. -/
theorem Writes.setTargetBudgetId {budget : BudgetDefinition}
    (hw : Writes t a row ((x, target) ::ₘ rest) (some (budgetId, budget)) d) (h : Allocated old d)
    (htenant : target.tenantId = tenantId) (hnone : target.budgetId = none) (hcap : CapOf target budget) {r : Unit}
    (hset : setTargetBudgetId tenantId x budgetId t d = some (r, d')) :
    Step old t d d' ∧ Writes t a row ((x, { target with budgetId := some budgetId }) ::ₘ rest) none d' ∧
      d'.budgets = d.budgets := by
  have hmem : d.targets.visible t x = some target ∧ target.allocationId = a :=
    (mem_children (d.targets.reads_visible t)).mp (hw.sees ▸ Multiset.mem_cons_self (x, target) rest)
  obtain ⟨hvisible, hof⟩ := hmem
  obtain ⟨⟨r', rows⟩, hupdate, he⟩ := Option.map_eq_some_iff.mp hset
  obtain ⟨-, rfl⟩ := Prod.mk.inj he
  rcases updateWhere_cases hupdate with ⟨-, -, hno⟩ | ⟨target', hvisible', -, hfree, -, rfl⟩
  · exact absurd (decide_eq_true htenant) (Bool.eq_false_iff.mp (hno target hvisible))
  obtain rfl : target' = target := Option.some.inj (hvisible'.symm.trans hvisible)
  obtain ⟨howed, hunreferred⟩ := hw.owes _ rfl
  refine ⟨h.writeTarget hfree (hof ▸ hw.holds) (fun target'' hc => ?_) fun id hid => ?_,
    ⟨hw.holds, hw.alone, ?_, fun p hp => absurd hp.symm (Option.some_ne_none p), fun id b' hb => ?_⟩, rfl⟩
  · rcases visible_cases d.targets t x with ⟨w, hin, hw'⟩ | ⟨-, hw'⟩
    · obtain rfl : w = target' := Option.some.inj (hw'.symm.trans hvisible)
      exact h.guards.fixed x t w target'' hin hc
    · obtain rfl : target'' = target' := Option.some.inj (hc.symm.trans (hw'.symm.trans hvisible))
      rfl
  · obtain rfl : budgetId = id := Option.some.inj hid
    exact ⟨⟨budget, howed, hcap⟩, hunreferred⟩
  · have hperm : (d.targets.rowsOf (d.targets.visible t) fun w => w.allocationId = a).Perm
        ((x, target') :: rest.toList) := by
      rw [← Multiset.coe_eq_coe, ← Multiset.cons_coe, Multiset.coe_toList]
      exact hw.sees
    have hnew : decide (({ target' with budgetId := some budgetId } : TargetRow).allocationId = a) = true :=
      decide_eq_true hof
    have hrewritten := rowsOf_visible_rewrite hperm hnew
    rw [← Multiset.coe_eq_coe, ← Multiset.cons_coe, Multiset.coe_toList] at hrewritten
    exact hrewritten
  · rcases hw.settled id b' hb with ⟨p, hp, rfl⟩ | ⟨x', target'', hx', hid⟩
    · obtain rfl := Option.some.inj hp
      exact .inr ⟨x, _, inflight_write_self .., rfl⟩
    · have hne : x' ≠ x := by
        rintro rfl
        obtain rfl : target'' = target' := Option.some.inj ((visible_of_inflight hx').symm.trans hvisible)
        exact absurd (hnone.symm.trans hid).symm (Option.some_ne_none _)
      exact .inr ⟨x', target'', (inflight_write_of_ne hne).trans hx', hid⟩

/-- **The conditional UPDATE**: it takes effect on an allocation that nobody has decided. -/
theorem Unheld.tryDecideAllocation (hu : Unheld t d) (h : Allocated old d)
    (hupdate : tryDecideAllocation decision t d = some (b, d')) :
    Step old t d d' ∧ (b = true → ∃ row, d.allocations.committed decision.allocationId = some row ∧
      row.tenantId = decision.tenantId ∧ row.status = .requested ∧
      Writes t decision.allocationId (decision.decide row)
        (d.targets.children TargetRow.allocationId d.targets.committed decision.allocationId) none d' ∧
      d'.budgets = d.budgets) := by
  obtain ⟨⟨r, allocations⟩, hwrite, he⟩ := Option.map_eq_some_iff.mp hupdate
  obtain ⟨rfl, rfl⟩ := Prod.mk.inj he
  rcases updateWhere_cases hwrite with ⟨rfl, rfl, -⟩ | ⟨row, hvisible, hrow, hfree, rfl, rfl⟩
  · exact ⟨Step.refl h, fun hb => absurd hb Bool.false_ne_true⟩
  obtain ⟨htenant, hrequested⟩ := of_decide_eq_true hrow
  have hfamily := h.visible (hu.allocations decision.allocationId)
  have hcommitted : d.allocations.committed decision.allocationId = some row := hfamily.row.symm.trans hvisible
  have hdecided : (decision.decide row).status ≠ .requested := by
    cases haction : decision.action <;> simp [ApprovalDecisionRequest.decide, ApprovalAction.status, haction]
  refine ⟨h.writeAllocation hfree fun row' hrow' => ?_, fun _ => ⟨row, hcommitted, htenant, hrequested,
    ⟨inflight_write_self .., fun a' row' hin => ?_, ?_, fun p hp => absurd hp.symm (Option.some_ne_none p),
      fun budgetId budget hin => absurd hin (hu.budgets budgetId budget)⟩, rfl⟩⟩
  · obtain rfl : row' = row := Option.some.inj (hrow'.symm.trans hcommitted)
    exact ⟨hrequested, hdecided⟩
  · exact ((inflight_write_cases hin).resolve_right fun hold => hu.allocations a' row' hold.2).1
  · exact hfamily.children_eq (d.targets.reads_visible t) d.targets.reads_committed

end Steps

/-! ## the calls -/

/-- A decision that is about to be committed. -/
structure Decides (t : Txn) (decision : ApprovalDecisionRequest) (record : AllocationRecord) (d : AllocationDb) :
    Prop where
  holds : d.allocations.inflight decision.allocationId = some (t, record.row)
  sees : d.targets.children TargetRow.allocationId (d.targets.visible t) decision.allocationId = record.targets
  status : record.row.status = decision.action.status
  actor : record.row.decidedBy = some decision.actor

/-- A decision that has taken effect: its answer is what is committed. -/
structure Decided (decision : ApprovalDecisionRequest) (record : AllocationRecord) (d : AllocationDb) : Prop where
  row : d.allocations.committed decision.allocationId = some record.row
  targets : d.targets.children TargetRow.allocationId d.targets.committed decision.allocationId = record.targets
  status : record.row.status = decision.action.status
  actor : record.row.decidedBy = some decision.actor

def allocationLogic (old : Set String) : Logic AllocationDb AllocationCall AllocationRecord where
  inv := Allocated old
  rely := AllocationRely
  fresh := Unheld
  post t call record d := Committable t d ∧ ∀ decision, call = .decide decision → Decides t decision record d
  ensures _ call record d := ∀ decision, call = .decide decision → Decided decision record d
  undone := Unheld

theorem ApprovalAction.status_ne_requested (action : ApprovalAction) : action.status ≠ .requested := by
  cases action <;> simp [ApprovalAction.status]

section Calls

variable {old : Set String} {d d' : AllocationDb} {t : Txn}

theorem Step.keeps (h : Step old t d d') : (allocationLogic old).Keeps t d d' := ⟨h.1, h.2⟩

theorem Decided.rely {u : Txn} (h : Decided decision record d) (hr : AllocationRely u d d') :
    Decided decision record d' := by
  obtain ⟨row', hrow', hfamily⟩ := hr.settled _ record.row h.row
  have hsame := hfamily (.inl (by rw [h.status]; exact decision.action.status_ne_requested))
  refine ⟨hsame.row.symm.trans h.row, ?_, h.status, h.actor⟩
  rw [← h.targets]
  exact (hsame.children_eq d.targets.reads_committed d'.targets.reads_committed).symm

theorem Decides.commit (h : Decides t decision record d) : Decided decision record (Database.commit t d) :=
  ⟨visible_of_inflight h.holds, h.sees, h.status, h.actor⟩

/-! ### create -/

theorem minorUnits_of_money {m : Money} (h : money minorUnits currency = .ok m) : m.minorUnits = minorUnits := by
  unfold money at h
  split at h
  · cases h
    rfl
  · contradiction

theorem amounts_of_targets {targets : List AllocationTarget} (h : ts.mapM req.target = .ok targets) :
    targets.map (fun target => target.amount.minorUnits) = ts.map AllocationTargetIn.amountMinorUnits := by
  induction ts generalizing targets with
  | nil =>
      cases h
      rfl
  | cons target ts ih =>
      rw [List.mapM_cons] at h
      cases hm : money target.amountMinorUnits req.currency with
      | error e => simp [AllocationCreateRequest.target, hm, Except.map, bind, Except.bind] at h
      | ok m =>
          cases hts : ts.mapM req.target with
          | error e => simp [AllocationCreateRequest.target, hm, hts, Except.map, bind, Except.bind] at h
          | ok rest =>
              simp only [AllocationCreateRequest.target, hm, hts, Except.map, bind, Except.bind, pure, Except.pure,
                Except.ok.injEq] at h
              subst h
              rw [List.map_cons, List.map_cons, ih hts, minorUnits_of_money hm]

theorem sum_of_allocation {allocation : Allocation} (h : req.allocation = .ok allocation) :
    (req.targets.map AllocationTargetIn.amountMinorUnits).sum = req.totalMinorUnits := by
  unfold AllocationCreateRequest.allocation at h
  cases hm : money req.totalMinorUnits req.currency with
  | error e => simp [hm, bind, Except.bind] at h
  | ok total =>
      cases hts : req.targets.mapM req.target with
      | error e => simp [hm, hts, bind, Except.bind] at h
      | ok targets =>
          simp only [hm, hts, bind, Except.bind] at h
          split at h
          · next hreconciled =>
              have hsum := sum_of_reconciled hreconciled
              rw [List.map_map] at hsum
              rw [← amounts_of_targets hts, ← minorUnits_of_money hm]
              exact hsum
          · contradiction

theorem wp_insertTargets (hw : Writes t req.allocationId row done none d) :
    (allocationLogic old).wp t (fun (records : List (String × TargetRow)) d' =>
      records.map Prod.snd = ts.map req.targetRow ∧
        Writes t req.allocationId row ((records : Multiset (String × TargetRow)) + done) none d')
      (insertTargets req i ts) d := by
  induction ts generalizing i done d with
  | nil =>
      intro d₁ _ hr₁
      refine ⟨rfl, ?_⟩
      rw [Multiset.coe_nil, zero_add]
      exact hw.rely hr₁
  | cons target ts ih =>
      refine wp_inserting_bind fun d₁ h₁ hr₁ b d₂ hins _ => ?_
      obtain ⟨hstep, hwritten⟩ := (hw.rely hr₁).insertTarget h₁ rfl rfl hins
      refine ⟨hstep.keeps, fun hb => wp_bind (AllocationRely.refl t) hstep.1
        (wp_mono (fun records d₃ _ hrest => ?_) (ih (hwritten hb)))⟩
      intro d₄ _ hr₄
      have hdone : ((req.targetId i, req.targetRow target) :: records : List (String × TargetRow)) + done =
          (records : Multiset (String × TargetRow)) + (req.targetId i, req.targetRow target) ::ₘ done := by
        rw [← Multiset.cons_coe, Multiset.cons_add, Multiset.add_cons]
      exact ⟨by rw [List.map_cons, List.map_cons, hrest.1], hdone ▸ hrest.2.rely hr₄⟩

theorem wp_createAllocationRequest (hu : Unheld t d) :
    (allocationLogic old).wp t (fun _ d' => Committable t d') (createAllocationRequest req) d := by
  refine wp_ofExcept_bind fun allocation hallocation => ?_
  refine wp_inserting_bind fun d₁ h₁ hr₁ b d₂ hins _ => ?_
  obtain ⟨hstep, hwritten⟩ := (hu.rely hr₁).insertAllocation h₁ hins
  refine ⟨hstep.keeps, fun hb => wp_bind (AllocationRely.refl t) hstep.1
    (wp_mono (fun records d₃ _ hrest => ?_) (wp_insertTargets (hwritten hb)))⟩
  intro d₄ _ hr₄
  obtain ⟨hrows, hwrites⟩ := hrest
  have hmem : ∀ p ∈ (records : Multiset (String × TargetRow)) + 0, ∃ target ∈ req.targets, p.2 = req.targetRow target := by
    intro p hp
    rw [add_zero, Multiset.mem_coe] at hp
    have hrow : p.2 ∈ req.targets.map req.targetRow := hrows ▸ List.mem_map_of_mem hp
    obtain ⟨target, htarget, he⟩ := List.mem_map.mp hrow
    exact ⟨target, htarget, he.symm⟩
  refine (hwrites.rely hr₄).committable ⟨fun p hp => ?_, ?_, fun hstatus => ?_, fun _ p hp => ?_⟩
  · obtain ⟨target, -, he⟩ := hmem p hp
    rw [he]
    rfl
  · have hamounts : records.map (fun p => p.2.amountMinorUnits) =
        req.targets.map AllocationTargetIn.amountMinorUnits := by
      have := congrArg (List.map TargetRow.amountMinorUnits) hrows
      rwa [List.map_map, List.map_map] at this
    rw [add_zero, Multiset.map_coe, Multiset.sum_coe, hamounts]
    exact sum_of_allocation hallocation
  · exact AllocationStatus.noConfusion hstatus
  · obtain ⟨target, -, he⟩ := hmem p hp
    rw [he]
    rfl

/-! ### decide -/

/-- What `get_allocation` has found of an allocation that still waits for a decision. -/
structure Found (decision : ApprovalDecisionRequest) (record : AllocationRecord) (d : AllocationDb) : Prop where
  id : record.allocationId = decision.allocationId
  pending : ∃ row, d.allocations.committed decision.allocationId = some row ∧ (row.status = .requested →
    row = record.row ∧
      d.targets.children TargetRow.allocationId d.targets.committed decision.allocationId = record.targets)

theorem Found.rely (h : Found decision record d) (hr : AllocationRely t d d') : Found decision record d' := by
  obtain ⟨row, hrow, hfound⟩ := h.pending
  obtain ⟨row', hrow', hfamily⟩ := hr.settled _ row hrow
  refine ⟨h.id, row', hrow', fun hrequested => ?_⟩
  have hsame := hfamily (.inr hrequested)
  obtain rfl : row = row' := Option.some.inj (hrow.symm.trans (hsame.row.trans hrow'))
  obtain ⟨hrow, htargets⟩ := hfound hrequested
  refine ⟨hrow, ?_⟩
  rw [← htargets]
  exact (hsame.children_eq d.targets.reads_committed d'.targets.reads_committed).symm

theorem selectTargets_eq (h : Allocated old d) (hu : Unheld t d) (hrow : d.allocations.committed a = some row)
    (htenant : row.tenantId = tenantId) :
    d.targets.children TargetRow.allocationId d.targets.committed a = selectTargets tenantId a t d := by
  rw [← (h.visible (hu.allocations a)).children_eq (d.targets.reads_visible t) d.targets.reads_committed]
  refine congrArg _ (List.filter_congr fun p hp => ?_)
  by_cases hof : p.2.allocationId = a
  · have hmem : p ∈ d.targets.children TargetRow.allocationId (d.targets.visible t) a :=
      (mem_children (d.targets.reads_visible t)).mpr ⟨mem_scan.mp hp, hof⟩
    rw [(h.visible (hu.allocations a)).children_eq (d.targets.reads_visible t) d.targets.reads_committed] at hmem
    simp [hof, (h.distributed a row hrow).tenant p hmem, htenant]
  · simp [hof]

theorem wp_getAllocation (hu : Unheld t d) :
    (allocationLogic old).wp t (fun record d' => Unheld t d' ∧ ∀ r, record = some r → Found decision r d')
      (getAllocation decision.tenantId decision.allocationId) d := by
  refine wp_query_bind AllocationRely.refl fun d₁ h₁ hr₁ => ?_
  split
  case h_1 => exact fun d₂ _ hr₂ => ⟨(hu.rely hr₁).rely hr₂, fun r hr => absurd hr.symm (Option.some_ne_none r)⟩
  next row hselect =>
  refine wp_query_bind AllocationRely.refl fun d₂ h₂ hr₂ => ?_
  have hu₁ := hu.rely hr₁
  obtain ⟨hvisible, htenant⟩ := Option.filter_eq_some_iff.mp hselect
  have hrow : d₁.allocations.committed decision.allocationId = some row :=
    (h₁.visible (hu₁.allocations _)).row.symm.trans hvisible
  have hfound : Found decision ⟨decision.allocationId, row, selectTargets decision.tenantId decision.allocationId t d₂⟩
      d₂ := by
    obtain ⟨row', hrow', hfamily⟩ := hr₂.settled _ row hrow
    refine ⟨rfl, row', hrow', fun hrequested => ?_⟩
    have hsame := hfamily (.inr hrequested)
    obtain rfl : row = row' := Option.some.inj (hrow.symm.trans (hsame.row.trans hrow'))
    exact ⟨rfl, selectTargets_eq h₂ (hu₁.rely hr₂) hrow' (of_decide_eq_true htenant)⟩
  intro d₃ _ hr₃
  refine ⟨(hu₁.rely hr₂).rely hr₃, fun r hr => ?_⟩
  obtain rfl := Option.some.inj hr
  exact hfound.rely hr₃

/-- An approval under way: the targets that have their budgets, and the rest. -/
structure Materializing (t : Txn) (a : String) (row : AllocationRow) (done rest : Multiset (String × TargetRow))
    (d : AllocationDb) : Prop where
  writes : Writes t a row (done + rest) none d
  budgets : ∀ p ∈ done, HasBudget (d.budgets.visible t) row p.2
  pending : ∀ p ∈ rest, p.2.budgetId = none
  tenant : ∀ p ∈ done + rest, p.2.tenantId = row.tenantId
  total : ((done + rest).map fun p => p.2.amountMinorUnits).sum = row.totalMinorUnits

theorem Materializing.rely (h : Materializing t a row done rest d) (hd : Allocated old d')
    (hr : AllocationRely t d d') : Materializing t a row done rest d' where
  writes := h.writes.rely hr
  budgets p hp := (h.budgets p hp).mono fun _ _ hb => hr.budget hd hb
  pending := h.pending
  tenant := h.tenant
  total := h.total

theorem wp_createBudget_bind {γ : Type} {Q : γ → AllocationDb → Prop}
    {k : BudgetDefinition → Prog AllocationDb AllocationError γ}
    (h : ∀ d₁, Allocated old d₁ → AllocationRely t d d₁ → ∀ b d₂,
      insertBudget budgetId (concept.definition currency budgetId policyId) t d₁ = some (b, d₂) →
      (allocationLogic old).Keeps t d₁ d₂ ∧
        (b = true → (allocationLogic old).wp t Q (k (concept.definition currency budgetId policyId)) d₂)) :
    (allocationLogic old).wp t Q (createBudget concept currency budgetId policyId >>= k) d := by
  intro d₁ h₁ hr₁ b d₂ hins _
  obtain ⟨hk, hrest⟩ := h d₁ h₁ hr₁ b d₂ hins
  refine ⟨hk, ?_⟩
  cases b with
  | false => trivial
  | true => exact hrest rfl

theorem caps_of_concept (h : row.concept target = .ok concept) (budgetId policyId : String) :
    Caps row target (concept.definition row.currency budgetId policyId) := by
  unfold AllocationRow.concept at h
  split at h
  · cases h
    exact ⟨rfl, rfl, rfl, rfl, rfl, rfl, rfl, rfl, rfl⟩
  · contradiction

/-- The targets get their budgets one by one; nobody sees them before the commit. -/
theorem wp_materialize (htenant : row.tenantId = decision.tenantId) {ts : List (String × TargetRow)}
    (hm : Materializing t decision.allocationId (decision.decide row) done ts d) :
    (allocationLogic old).wp t (fun (records : List (String × TargetRow)) d' => Materializing t decision.allocationId
      (decision.decide row) ((records : Multiset (String × TargetRow)) + done) 0 d') (materialize decision row i ts) d := by
  induction ts generalizing i done d with
  | nil =>
      intro d₁ h₁ hr₁
      rw [Multiset.coe_nil, zero_add, ← Multiset.coe_nil]
      exact hm.rely h₁ hr₁
  | cons p ts ih =>
      obtain ⟨targetId, target⟩ := p
      refine wp_ofExcept_bind fun concept hconcept => ?_
      refine wp_createBudget_bind fun d₁ h₁ hr₁ b d₂ hins => ?_
      have hm₁ := hm.rely h₁ hr₁
      obtain ⟨hstep, hinserted⟩ := hm₁.writes.insertBudget h₁ hins
      refine ⟨hstep.keeps, fun hb => ?_⟩
      obtain ⟨hwrites₂, hbudget₂, hgrows₂⟩ := hinserted hb
      refine wp_exec_bind fun d₃ h₃ hr₃ r d₄ hset _ => ?_
      have hfront : done + ((targetId, target) :: ts : List (String × TargetRow)) =
          (targetId, target) ::ₘ (done + (ts : Multiset (String × TargetRow))) := by
        rw [← Multiset.cons_coe, Multiset.add_cons]
      have hmem : (targetId, target) ∈ done + ((targetId, target) :: ts : List (String × TargetRow)) :=
        hfront ▸ Multiset.mem_cons_self _ _
      have hcaps := caps_of_concept hconcept (decision.budgetId i) (decision.policyId i)
      have hwrites₃ := hwrites₂.rely hr₃
      rw [hfront] at hwrites₃
      obtain ⟨hstep', hwrites₄, hsame⟩ := hwrites₃.setTargetBudgetId h₃ ((hm.tenant _ hmem).trans htenant)
        (hm.pending (targetId, target) List.mem_cons_self) hcaps.cost hset
      have hback : (targetId, { target with budgetId := some (decision.budgetId i) }) ::ₘ
          (done + (ts : Multiset (String × TargetRow))) =
          ((targetId, { target with budgetId := some (decision.budgetId i) }) ::ₘ done) + ts := by
        rw [Multiset.cons_add]
      have hm₄ : Materializing t decision.allocationId (decision.decide row)
          ((targetId, { target with budgetId := some (decision.budgetId i) }) ::ₘ done) ts d₄ := by
        refine ⟨hback ▸ hwrites₄, fun p hp => ?_, fun p hp => hm.pending p (List.mem_cons_of_mem _ hp), fun p hp => ?_, ?_⟩
        · rw [hsame]
          rcases Multiset.mem_cons.mp hp with rfl | hp
          · exact ⟨_, _, rfl, hr₃.budget h₃ hbudget₂, ⟨hcaps.cost, hcaps.tokens, hcaps.currency, hcaps.period, hcaps.tenant,
              hcaps.scope, hcaps.team, hcaps.project, hcaps.agent⟩⟩
          · exact (hm₁.budgets p hp).mono fun id b' hb' => hr₃.budget h₃ (hgrows₂ id b' hb')
        · rw [← hback] at hp
          rcases Multiset.mem_cons.mp hp with rfl | hp
          · exact hm.tenant (targetId, target) hmem
          · exact hm.tenant p (hfront ▸ Multiset.mem_cons_of_mem hp)
        · have htotal := hm.total
          rw [hfront, Multiset.map_cons, Multiset.sum_cons] at htotal
          rw [← hback, Multiset.map_cons, Multiset.sum_cons]
          exact htotal
      refine ⟨hstep'.keeps, wp_bind (AllocationRely.refl t) hstep'.1
        (wp_mono (fun records d₅ _ hrest => ?_) (ih hm₄))⟩
      intro d₆ h₆ hr₆
      have hdone : ((targetId, { target with budgetId := some (decision.budgetId i) }) :: records :
          List (String × TargetRow)) + done = (records : Multiset (String × TargetRow)) +
            (targetId, { target with budgetId := some (decision.budgetId i) }) ::ₘ done := by
        rw [← Multiset.cons_coe, Multiset.cons_add, Multiset.add_cons]
      exact hdone ▸ hrest.rely h₆ hr₆

theorem Materializing.distributed (h : Materializing t a row done 0 d) (hstatus : row.status = .approved) :
    Writes t a row done none d ∧ Distributed (d.budgets.visible t) row done := by
  obtain ⟨hwrites, hbudgets, -, htenant, htotal⟩ := h
  rw [add_zero] at hwrites htenant htotal
  exact ⟨hwrites, htenant, htotal, fun _ => hbudgets, fun hne => absurd hstatus hne⟩

/-- A decision decides a pending allocation, once. -/
theorem wp_decideAllocation (h : Allocated old d) (hu : Unheld t d) :
    (allocationLogic old).wp t (fun record d' => Committable t d' ∧ Decides t decision record d')
      (decideAllocation decision) d := by
  refine wp_bind (AllocationRely.refl t) h (wp_mono (fun record d₁ h₁ hget => ?_) (wp_getAllocation hu))
  obtain ⟨hu₁, hfound⟩ := hget
  split
  case h_1 => trivial
  next record =>
  split
  case isTrue => trivial
  refine wp_exec_bind fun d₂ h₂ hr₂ b d₃ hupdate _ => ?_
  obtain ⟨hstep, htaken⟩ := (hu₁.rely hr₂).tryDecideAllocation h₂ hupdate
  refine ⟨hstep.keeps, ?_⟩
  split
  case isTrue => trivial
  next hb =>
  obtain ⟨row, hrow, htenant, hrequested, hwrites, -⟩ := htaken (Bool.eq_true_of_not_eq_false hb)
  -- what was read is what the UPDATE has found
  obtain ⟨hid, row', hrow', hsame⟩ := (hfound record rfl).rely hr₂
  obtain rfl : row = row' := Option.some.inj (hrow.symm.trans hrow')
  obtain ⟨rfl, htargets⟩ := hsame hrequested
  have hdistributed := h₂.distributed _ _ hrow
  rw [htargets] at hwrites hdistributed
  have hnone : ∀ p ∈ (record.targets : Multiset (String × TargetRow)), p.2.budgetId = none :=
    hdistributed.pending (by rw [hrequested]; exact AllocationStatus.noConfusion)
  have hdone : ∀ (targets : List (String × TargetRow)) d₄, Writes t decision.allocationId (decision.decide record.row)
      targets none d₄ → Distributed (d₄.budgets.visible t) (decision.decide record.row) targets →
      Committable t d₄ ∧ Decides t decision ⟨record.allocationId, decision.decide record.row, targets⟩ d₄ :=
    fun targets d₄ hw hd => ⟨hw.committable hd, hw.holds, hw.sees, rfl, rfl⟩
  refine wp_bind (L := allocationLogic old) (AllocationRely.refl t) hstep.1 ?_
  unfold updatedTargets
  split
  case isTrue happrove =>
    have hstatus : (decision.decide record.row).status = .approved := congrArg ApprovalAction.status happrove
    have hstart : Materializing t decision.allocationId (decision.decide record.row) 0 record.targets _ :=
      ⟨by rwa [zero_add], fun p hp => absurd hp (Multiset.notMem_zero p), hnone, by rw [zero_add]; exact hdistributed.tenant,
        by rw [zero_add]; exact hdistributed.total⟩
    refine wp_mono (fun targets d₄ _ hm d₅ h₅ hr₅ => ?_) (wp_materialize htenant hstart)
    have hm₅ := hm.rely h₅ hr₅
    rw [add_zero] at hm₅
    exact hdone targets d₅ (hm₅.distributed hstatus).1 (hm₅.distributed hstatus).2
  case isFalse hreject =>
    have hstatus : (decision.decide record.row).status ≠ .approved := by
      cases haction : decision.action with
      | approve => exact absurd haction hreject
      | reject => simp [ApprovalDecisionRequest.decide, ApprovalAction.status, haction]
    intro d₄ _ hr₄ d₅ _ hr₅
    exact hdone record.targets d₅ ((hwrites.rely hr₄).rely hr₅) ⟨hdistributed.tenant, hdistributed.total,
      fun happroved => absurd happroved hstatus, fun _ => hnone⟩

theorem allocationLogic_sound : (allocationLogic old).Sound AllocationCall.prog where
  refl := AllocationRely.refl
  trans := AllocationRely.trans
  fresh_rely _ hr hu := hu.rely hr
  ensures_rely _ hr hdecided decision hcall := (hdecided decision hcall).rely hr
  undone_rely _ hr hu := hu.rely hr
  body {t call d} _ h hu := by
    cases call with
    | create req =>
        exact wp_mono (fun _ _ _ hs => ⟨hs, fun decision hcall => AllocationCall.noConfusion hcall⟩)
          (wp_createAllocationRequest hu)
    | decide decision =>
        refine wp_mono (fun record d' _ hs => ⟨hs.1, fun decision' hcall => ?_⟩) (wp_decideAllocation h hu)
        obtain rfl := AllocationCall.decide.inj hcall
        exact hs.2
  commit h hpost := ⟨(h.commit hpost.1).keeps, fun decision hcall => (hpost.2 decision hcall).commit⟩
  rollback h := ⟨(h.rollback _).keeps, unheld_rollback _ _⟩

end Calls

/-! ## what a failed call leaves -/

/-- The same rows are committed. -/
structure SameCommitted (d d' : AllocationDb) : Prop where
  allocations : d'.allocations.committed = d.allocations.committed
  targets : d'.targets.committed = d.targets.committed
  budgets : d'.budgets.committed = d.budgets.committed

theorem SameCommitted.refl (d : AllocationDb) : SameCommitted d d := ⟨rfl, rfl, rfl⟩

section Each

variable {t : Txn} {d d' : AllocationDb}

theorem same_insertAllocation (h : insertAllocation a row t d = some (b, d')) : SameCommitted d d' := by
  obtain ⟨⟨b', allocations⟩, hins, he⟩ := Option.map_eq_some_iff.mp h
  obtain ⟨-, rfl⟩ := Prod.mk.inj he
  exact ⟨committed_insertOrIgnore hins, rfl, rfl⟩

theorem same_insertTarget (h : insertTarget x target t d = some (b, d')) : SameCommitted d d' := by
  obtain ⟨⟨b', targets⟩, hins, he⟩ := Option.map_eq_some_iff.mp h
  obtain ⟨-, rfl⟩ := Prod.mk.inj he
  exact ⟨rfl, committed_insertOrIgnore hins, rfl⟩

theorem same_insertBudget {budget : BudgetDefinition} (h : insertBudget budgetId budget t d = some (b, d')) :
    SameCommitted d d' := by
  obtain ⟨⟨b', budgets⟩, hins, he⟩ := Option.map_eq_some_iff.mp h
  obtain ⟨-, rfl⟩ := Prod.mk.inj he
  exact ⟨rfl, rfl, committed_insertOrIgnore hins⟩

theorem same_tryDecideAllocation (h : tryDecideAllocation decision t d = some (b, d')) : SameCommitted d d' := by
  obtain ⟨⟨r, allocations⟩, hupdate, he⟩ := Option.map_eq_some_iff.mp h
  obtain ⟨-, rfl⟩ := Prod.mk.inj he
  exact ⟨committed_updateWhere hupdate, rfl, rfl⟩

theorem same_setTargetBudgetId {r : Unit} (h : setTargetBudgetId tenantId x budgetId t d = some (r, d')) :
    SameCommitted d d' := by
  obtain ⟨⟨r', targets⟩, hupdate, he⟩ := Option.map_eq_some_iff.mp h
  obtain ⟨-, rfl⟩ := Prod.mk.inj he
  exact ⟨rfl, committed_updateWhere hupdate, rfl⟩

theorem each_insertTargets (req : AllocationCreateRequest) (i : Nat) (ts : List AllocationTargetIn) :
    (insertTargets req i ts).Each SameCommitted := by
  induction ts generalizing i with
  | nil => exact Prog.Each.pure _
  | cons target ts ih =>
      refine (Prog.Each.inserting _ fun t d b d' h => ?_).bind fun _ => (ih (i + 1)).bind fun _ => Prog.Each.pure _
      exact same_insertTarget h

theorem each_createBudget (concept : BudgetConcept) (currency budgetId policyId : String) :
    (createBudget concept currency budgetId policyId).Each SameCommitted := by
  refine (Prog.Each.inserting _ fun t d b d' h => ?_).bind fun _ => Prog.Each.pure _
  exact same_insertBudget h

theorem each_materialize (decision : ApprovalDecisionRequest) (row : AllocationRow) (i : Nat)
    (ts : List (String × TargetRow)) : (materialize decision row i ts).Each SameCommitted := by
  induction ts generalizing i with
  | nil => exact Prog.Each.pure _
  | cons p ts ih =>
      refine (Prog.Each.ofExcept _).bind fun concept => (each_createBudget concept _ _ _).bind fun budget => ?_
      refine (Prog.Each.exec fun t d r d' h => ?_).bind fun _ => (ih (i + 1)).bind fun _ => Prog.Each.pure _
      exact same_setTargetBudgetId h

theorem each_getAllocation (tenantId a : String) : (getAllocation tenantId a).Each SameCommitted := by
  refine (Prog.Each.query SameCommitted.refl _).bind fun row => ?_
  cases row with
  | none => exact Prog.Each.pure _
  | some row => exact (Prog.Each.query SameCommitted.refl _).bind fun _ => Prog.Each.pure _

theorem each_updatedTargets (decision : ApprovalDecisionRequest) (record : AllocationRecord) :
    (updatedTargets decision record).Each SameCommitted := by
  unfold updatedTargets
  split
  · exact each_materialize decision record.row 0 record.targets
  · exact Prog.Each.pure _

theorem each_prog (call : AllocationCall) : call.prog.Each SameCommitted := by
  cases call with
  | create req =>
      refine (Prog.Each.ofExcept _).bind fun _ => (Prog.Each.inserting _ fun t d b d' h => ?_).bind fun _ =>
        (each_insertTargets req 0 req.targets).bind fun _ => Prog.Each.pure _
      exact same_insertAllocation h
  | decide decision =>
      refine (each_getAllocation _ _).bind fun record => ?_
      cases record with
      | none => exact Prog.Each.raise _
      | some record =>
          show Prog.Each SameCommitted (if _ then _ else _)
          split
          · exact Prog.Each.raise _
          refine (Prog.Each.exec fun t d b d' h => ?_).bind fun b => ?_
          · exact same_tryDecideAllocation h
          split
          · exact Prog.Each.raise _
          · exact (each_updatedTargets decision record).bind fun _ => Prog.Each.pure _

end Each

/-! ## every schedule -/

/-- A database between calls. -/
structure SettledAllocations (d : AllocationDb) : Prop where
  quiet : d.allocations.Quiet
  quietTargets : d.targets.Quiet
  quietBudgets : d.budgets.Quiet
  distributed : ∀ a row, d.allocations.committed a = some row →
    Distributed d.budgets.committed row (d.targets.children TargetRow.allocationId d.targets.committed a)
  owned : ∀ x target, d.targets.committed x = some target →
    ∃ row, d.allocations.committed target.allocationId = some row
  once : ∀ x x' target target' budgetId, d.targets.committed x = some target → d.targets.committed x' = some target' →
    target.budgetId = some budgetId → target'.budgetId = some budgetId → x = x'

theorem settledAllocations_empty : SettledAllocations AllocationDb.empty := by
  refine ⟨fun _ => rfl, fun _ => rfl, fun _ => rfl, fun _ _ h => ?_, fun _ _ h => ?_, fun _ _ _ _ _ h => ?_⟩
  all_goals exact absurd h.symm (Option.some_ne_none _)

theorem Distributed.hasBudget (h : Distributed budgets row targets) {p : String × TargetRow} (hp : p ∈ targets)
    (hid : p.2.budgetId = some budgetId) :
    row.status = .approved ∧ ∃ budget, budgets budgetId = some budget ∧ Caps row p.2 budget := by
  by_cases hstatus : row.status = .approved
  · obtain ⟨budgetId', budget, hid', hbudget, hcaps⟩ := h.approved hstatus p hp
    obtain rfl : budgetId' = budgetId := Option.some.inj (hid'.symm.trans hid)
    exact ⟨hstatus, budget, hbudget, hcaps⟩
  · exact absurd ((h.pending hstatus p hp).symm.trans hid).symm (Option.some_ne_none budgetId)

theorem SettledAllocations.allocated (h : SettledAllocations d) :
    Allocated {budgetId | d.budgets.committed budgetId ≠ none} d where
  guards := ⟨fun x t w hin => absurd ((h.quietTargets x).symm.trans hin).symm (Option.some_ne_none _),
    fun x t w w' hin => absurd ((h.quietTargets x).symm.trans hin).symm (Option.some_ne_none _)⟩
  refers := by
    refine references_of_quiet h.quietTargets h.quietBudgets (fun x target budgetId hx hid => ?_) h.once
    obtain ⟨row, hrow⟩ := h.owned x target hx
    have hmem : (x, target) ∈ d.targets.children TargetRow.allocationId d.targets.committed target.allocationId :=
      (mem_children d.targets.reads_committed).mpr ⟨hx, rfl⟩
    obtain ⟨-, budget, hbudget, hcaps⟩ := (h.distributed _ row hrow).hasBudget hmem hid
    exact ⟨budget, hbudget, hcaps.cost⟩
  decides a t row row' hin := absurd ((h.quiet a).symm.trans hin).symm (Option.some_ne_none _)
  distributed := h.distributed
  owned := h.owned
  materialized budgetId budget hbudget hold := by
    refine absurd (fun hnone => ?_) hold
    exact Option.some_ne_none budget (hbudget.symm.trans hnone)

theorem allocationLogic_start (h : SettledAllocations d) :
    (allocationLogic {budgetId | d.budgets.committed budgetId ≠ none}).Ok
      (Sys.start d : Sys AllocationDb AllocationError AllocationCall AllocationRecord) :=
  ⟨h.allocated, fun _ => ⟨fun a _ hin => absurd ((h.quiet a).symm.trans hin).symm (Option.some_ne_none _),
    fun x _ hin => absurd ((h.quietTargets x).symm.trans hin).symm (Option.some_ne_none _),
    fun budgetId _ hin => absurd ((h.quietBudgets budgetId).symm.trans hin).symm (Option.some_ne_none _)⟩⟩

def TargetRow.cap (budgets : String → Option BudgetDefinition) (target : TargetRow) : Nat :=
  ((target.budgetId.bind budgets).bind BudgetDefinition.limitCostCents).getD 0

theorem Distributed.caps (h : Distributed budgets row targets) (hstatus : row.status = .approved) :
    (targets.map fun p => p.2.cap budgets).sum = row.totalMinorUnits := by
  rw [← h.total]
  refine congrArg Multiset.sum (Multiset.map_congr rfl fun p hp => ?_)
  obtain ⟨budgetId, budget, hid, hbudget, hcaps⟩ := h.approved hstatus p hp
  simp [TargetRow.cap, hid, hbudget, hcaps.cost]

/-- **Allocation decisions**, whatever the order of the calls and of their statements: one decision
of an allocation takes effect, and the allocation ends as it says; an approved allocation has one
budget for each target, of its amount and in the allocation's currency, and the caps make up the
total; any other one has none, and there are no budgets besides; a call that has failed has
nothing in flight, and nothing but a COMMIT changes what is committed. -/
theorem allocation_decisions (d : AllocationDb) (hd : SettledAllocations d) (schedule : List (Action AllocationCall))
    (s : Sys AllocationDb AllocationError AllocationCall AllocationRecord)
    (hrun : run AllocationCall.prog (Sys.start d) schedule = some s) :
    (∀ t t' decision decision' record record', s.procs t = .committed (.decide decision) record →
      s.procs t' = .committed (.decide decision') record' → decision.allocationId = decision'.allocationId → t = t') ∧
    (∀ t decision record, s.procs t = .committed (.decide decision) record → Decided decision record s.db) ∧
    (∀ a row, s.db.allocations.committed a = some row → row.status = .approved →
      (∀ x target, s.db.targets.committed x = some target → target.allocationId = a → ∃ budgetId budget,
        target.budgetId = some budgetId ∧ s.db.budgets.committed budgetId = some budget ∧ Caps row target budget ∧
        ∀ x' target', s.db.targets.committed x' = some target' → target'.budgetId = some budgetId → x' = x) ∧
      ((s.db.targets.children TargetRow.allocationId s.db.targets.committed a).map
        fun p => p.2.cap s.db.budgets.committed).sum = row.totalMinorUnits) ∧
    (∀ a row, s.db.allocations.committed a = some row → row.status ≠ .approved →
      ∀ x target, s.db.targets.committed x = some target → target.allocationId = a → target.budgetId = none) ∧
    (∀ budgetId budget, s.db.budgets.committed budgetId = some budget → d.budgets.committed budgetId = none →
      ∃ x target row, s.db.targets.committed x = some target ∧ target.budgetId = some budgetId ∧
        s.db.allocations.committed target.allocationId = some row ∧ row.status = .approved) ∧
    (∀ t, s.procs t = .aborted → Unheld t s.db) ∧
    EveryStep AllocationCall.prog (fun s a s' => (∀ t, a ≠ .commit t) → SameCommitted s.db s'.db) (Sys.start d)
      schedule := by
  have hpermits : EveryStep AllocationCall.prog (allocationLogic {budgetId | d.budgets.committed budgetId ≠ none}).Permits
      (Sys.start d) schedule := everyStep_permits (fun _ => trivial) (fun _ _ _ => trivial) schedule
  have hok := allocationLogic_sound.run (allocationLogic_start hd) hpermits hrun
  have hinv : Allocated _ s.db := hok.inv
  have hmem : ∀ {a x target}, s.db.targets.committed x = some target → target.allocationId = a →
      (x, target) ∈ s.db.targets.children TargetRow.allocationId s.db.targets.committed a :=
    fun hx hof => (mem_children s.db.targets.reads_committed).mpr ⟨hx, hof⟩
  refine ⟨fun t t' decision decision' record record' hdone hdone' hsame => ?_, fun t decision record hdone => ?_,
    fun a row hrow hstatus => ⟨fun x target hx hof => ?_, (hinv.distributed a row hrow).caps hstatus⟩,
    fun a row hrow hstatus x target hx hof => (hinv.distributed a row hrow).pending hstatus (x, target) (hmem hx hof),
    fun budgetId budget hbudget hnew => ?_, fun t haborted => ?_, ?_⟩
  · let excludes : AllocationCall → AllocationCall → Prop := fun call call' => ∃ decision decision',
      call = .decide decision ∧ call' = .decide decision' ∧ decision.allocationId = decision'.allocationId
    have hexcludes : excludes (.decide decision) (.decide decision') := ⟨decision, decision', rfl, rfl, hsame⟩
    refine allocationLogic_sound.exclusive ?_ ?_ (allocationLogic_start hd) hpermits ?_ hrun t t' _ _ record record'
      hdone hdone' hexcludes
    · rintro _ _ ⟨decision, decision', rfl, rfl, hsame⟩
      exact ⟨decision', decision, rfl, rfl, hsame.symm⟩
    · rintro t t' _ _ b b' d hd ⟨decision, decision', rfl, rfl, hsame⟩ hdecided ⟨-, hdecides⟩
      have hcommitted := hdecided decision rfl
      have hrequested := (hd.decides _ t' _ b.row (hdecides decision' rfl).holds (hsame ▸ hcommitted.row)).1
      exact decision.action.status_ne_requested (hcommitted.status.symm.trans hrequested)
    · intro _ _ _ _ _ _ hidle
      cases hidle
  · have hproc := hok.procs t
    rw [hdone] at hproc
    exact hproc decision rfl
  · obtain ⟨budgetId, budget, hid, hbudget, hcaps⟩ :=
      (hinv.distributed a row hrow).approved hstatus (x, target) (hmem hx hof)
    exact ⟨budgetId, budget, hid, hbudget, hcaps, fun x' target' hx' hid' =>
      hinv.refers.injective x' x target' target budgetId (.inl hx') (.inl hx) hid' hid⟩
  · obtain ⟨x, target, hx, hid⟩ := hinv.materialized budgetId budget hbudget fun hold => hold hnew
    obtain ⟨row, hrow⟩ := hinv.owned x target hx
    exact ⟨x, target, row, hx, hid, hrow, ((hinv.distributed _ row hrow).hasBudget (hmem hx rfl) hid).1⟩
  · have hproc := hok.procs t
    rw [haborted] at hproc
    exact hproc
  · refine everyStep_of_each SameCommitted.refl (fun t d => ⟨rfl, rfl, rfl⟩) each_prog (fun t req p hidle => ?_) schedule
    cases hidle

section Sample

def sampleAllocation : AllocationCreateRequest where
  tenantId := "tenant"
  totalMinorUnits := 5000
  currency := "USD"
  period := .monthly
  targets := [⟨.team, "team", "project", "agent", 3000⟩, ⟨.agent, "team", "project", "agent", 2000⟩]
  requestedBy := "admin"
  allocationId := "allocation"
  targetId := fun i => if i = 0 then "target-0" else "target-1"
  now := 0

def sampleDecision (action : ApprovalAction) : ApprovalDecisionRequest where
  allocationId := "allocation"
  tenantId := "tenant"
  action := action
  actor := "admin"
  budgetId := fun i => if i = 0 then "budget-0" else "budget-1"
  policyId := fun i => if i = 0 then "policy-0" else "policy-1"
  now := 1

def sampleAllocations : List (Action AllocationCall) :=
  [.begin 1 (.create sampleAllocation), .exec 1, .exec 1, .exec 1, .commit 1, .begin 2 (.decide (sampleDecision .approve)),
    .begin 3 (.decide (sampleDecision .reject)), .exec 2, .exec 3, .exec 2, .exec 3, .exec 2, .exec 2, .exec 2, .exec 2,
    .exec 2, .commit 2, .exec 3, .abort 3]

theorem allocation_decisions_sample : ∃ s row,
    run AllocationCall.prog (Sys.start AllocationDb.empty) sampleAllocations = some s ∧
      s.db.allocations.committed "allocation" = some row ∧ row.status = .approved ∧
      ((s.db.targets.children TargetRow.allocationId s.db.targets.committed "allocation").map
        fun p => p.2.cap s.db.budgets.committed).sum = 5000 := by
  have hrow : ((run AllocationCall.prog (Sys.start AllocationDb.empty) sampleAllocations).bind fun s =>
      s.db.allocations.committed "allocation").map (fun row => (row.status, row.totalMinorUnits)) =
        some (.approved, 5000) := by
    decide +kernel
  obtain ⟨row, hfound, hvalues⟩ := Option.map_eq_some_iff.mp hrow
  obtain ⟨s, hrun, hcommitted⟩ := Option.bind_eq_some_iff.mp hfound
  obtain ⟨hstatus, htotal⟩ := Prod.mk.inj hvalues
  have hcaps := ((allocation_decisions AllocationDb.empty settledAllocations_empty sampleAllocations s hrun).2.2.1
    "allocation" row hcommitted hstatus).2
  exact ⟨s, row, hrun, hcommitted, hstatus, hcaps.trans htotal⟩

end Sample

end Anoryx.Delta
