import Anoryx.Delta.BudgetEngine

/-!
# Anoryx.Delta.BudgetEngineInvariant

What every evaluation of a budget does to the stores, once for all proofs.

`EvaluationOutline` is a proof outline of `_evaluate_budget`: one assertion per
program point and one obligation per statement.  `EvaluationOutline.wp` turns
an outline into a weakest precondition, so a property of the engine is proved
by giving its assertions and never by stepping through the program again.

`EngineInv` is the invariant that holds without any assumption on the schedule:
versions never go back, and every version in the outbox is covered by a state
row.
-/

namespace Anoryx.Delta

open ReadCommitted Table Logic

/-! ## proof outlines -/

/-- The state a transition leaves. -/
def Transition.fromState : Transition → EnforcementState
  | enforce => .under
  | refresh => .enforced

/-- The state a transition reaches. -/
def Transition.toState : Transition → EnforcementState
  | enforce => .enforced
  | refresh => .under

/-- The version is also stored as the enforced one. -/
def Transition.setsVersion : Transition → Bool
  | enforce => true
  | refresh => false

/-- The row a transition of the given direction writes. -/
def Transition.apply (tr : Transition) (row : StateRow) (now : DateTime) (t : Txn) : StateRow :=
  row.transition tr.toState tr.setsVersion now t

/-- `t` writes a version of a state row. -/
def BudgetDb.putState (d : BudgetDb) (t : Txn) (key : StateKey) (row : StateRow) : BudgetDb :=
  { d with states := d.states.write t key row }

/-- The row that `get_or_create_state` inserts. -/
def newStateRow (seed : Nat) (now : DateTime) : StateRow where
  state := .under
  enforcedPolicyVersion := none
  lastPublishedVersion := seed
  lastWarnedPct := none
  updatedAt := now
  bumpedBy := none

/-- The outbox key of a version of the budget's policy. -/
def decisionKey (b : BudgetDefinition) (version : Nat) : DecisionKey :=
  (b.tenantId, b.policyId, version)

/-- A proof outline of an evaluation by `t` of the bucket `key`. -/
structure EvaluationOutline (L : Logic BudgetDb Evaluation Outcome) (b : BudgetDefinition)
    (t : Txn) (key : StateKey) where
  /-- before the first statement -/
  fresh : BudgetDb → Prop
  /-- with the seed read -/
  seeded : Nat → BudgetDb → Prop
  /-- with the row there -/
  holding : BudgetDb → Prop
  /-- after a transition to a version -/
  flipped : Transition → Nat → BudgetDb → Prop
  /-- after its outbox insert -/
  enqueued : Transition → Nat → BudgetDb → Prop
  /-- at the end -/
  post : Outcome → BudgetDb → Prop
  refl : ∀ u d, L.rely u d d
  stable_fresh : ∀ {d d'}, L.inv d' → L.rely t d d' → fresh d → fresh d'
  stable_seeded : ∀ {s d d'}, L.inv d' → L.rely t d d' → seeded s d → seeded s d'
  stable_holding : ∀ {d d'}, L.inv d' → L.rely t d d' → holding d → holding d'
  stable_flipped : ∀ {tr v d d'}, L.inv d' → L.rely t d d' → flipped tr v d → flipped tr v d'
  stable_enqueued : ∀ {tr v d d'}, L.inv d' → L.rely t d d' → enqueued tr v d → enqueued tr v d'
  stable_post : ∀ {o d d'}, L.inv d' → L.rely t d d' → post o d → post o d'
  seed : ∀ {d}, L.inv d → fresh d → seeded (seedVersion key.1 key.2.1 t d) d
  insert : ∀ {s now x states d}, L.inv d → seeded s d →
    d.states.insertOrIgnore t key (newStateRow s now) = some (x, states) →
    L.Keeps t d { d with states } ∧ holding { d with states }
  flip : ∀ {tr now row d}, L.inv d → holding d → d.states.visible t key = some row →
    row.state = tr.fromState → d.states.free t key = true →
    L.allowed t d (d.putState t key (tr.apply row now t)) →
    L.Keeps t d (d.putState t key (tr.apply row now t)) ∧
      flipped tr (row.lastPublishedVersion + 1) (d.putState t key (tr.apply row now t))
  lost : ∀ {d}, L.inv d → holding d → post .lost d
  enqueue : ∀ {tr v row x outbox d}, L.inv d → flipped tr v d → row.transition = tr →
    row.insertedBy = t →
    d.outbox.insertOrIgnore t (decisionKey b v) row = some (x, outbox) →
    L.Keeps t d { d with outbox } ∧ enqueued tr v { d with outbox }
  record : ∀ {tr v row x history d}, L.inv d → enqueued tr v d → row.action = tr →
    row.insertedBy = t → d.history.append t row = some (x, history) →
    L.Keeps t d { d with history } ∧ post (.decided tr v) { d with history }
  warn : ∀ {pct now row d}, L.inv d → holding d → d.states.visible t key = some row →
    row.lastWarnedPct.all (· < pct) = true → d.states.free t key = true →
    L.Keeps t d (d.putState t key (row.warn pct now)) ∧
      post (.warned pct) (d.putState t key (row.warn pct now))
  quiet : ∀ {d}, L.inv d → holding d → post .quiet d

variable {pcts : List Nat} {u t : Txn} {b : BudgetDefinition} {x : Bool}
  {states : Table StateKey StateRow} {o : DecisionRow} {outbox : Table DecisionKey DecisionRow}
  {h : HistoryRow} {history : Log HistoryRow}

namespace EvaluationOutline

variable {L : Logic BudgetDb Evaluation Outcome} {b : BudgetDefinition} {t : Txn} {key : StateKey}
  (O : EvaluationOutline L b t key)

include O in
theorem keeps_self {d : BudgetDb} (hi : L.inv d) : L.Keeps t d d := ⟨hi, fun u _ => O.refl u d⟩

variable {now : DateTime}

theorem wp_getOrCreateState {d : BudgetDb} (h : O.fresh d) :
    L.wp t (fun _ d => O.holding d) (getOrCreateState key now) d := by
  refine wp_query_bind O.refl fun d₁ hi₁ hr₁ => ?_
  have h₁ := O.seed hi₁ (O.stable_fresh hi₁ hr₁ h)
  refine wp_exec_bind fun d₂ hi₂ hr₂ x d₃ hins _ => ?_
  obtain ⟨⟨x', states⟩, hrow, heq⟩ := Option.map_eq_some_iff.mp hins
  rw [Prod.mk.injEq] at heq
  rw [← heq.2]
  obtain ⟨hk, hhold⟩ := O.insert hi₂ (O.stable_seeded hi₂ hr₂ h₁) hrow
  refine ⟨hk, wp_query_bind O.refl fun d₄ hi₄ hr₄ => ?_⟩
  split
  · exact fun d₅ hi₅ hr₅ => O.stable_holding hi₅ hr₅ (O.stable_holding hi₄ hr₄ hhold)
  · exact wp_raise _

variable {b' : BudgetDefinition}

theorem wp_enqueue {tr : Transition} {v : Nat}
    {d : BudgetDb} (hkey : ∀ v, decisionKey b' v = decisionKey b v) (h : O.flipped tr v d) :
    L.wp t (fun _ d => O.post (.decided tr v) d) (Delta.enqueue b' v tr now) d := by
  unfold Delta.enqueue
  split
  · exact wp_raise _
  · refine wp_exec_bind fun d₁ hi₁ hr₁ x d₂ hins _ => ?_
    obtain ⟨⟨x', outbox⟩, hrow, heq⟩ := Option.map_eq_some_iff.mp hins
    rw [Prod.mk.injEq] at heq
    rw [← heq.2]
    change d₁.outbox.insertOrIgnore t (decisionKey b' v) _ = some (x', outbox) at hrow
    rw [hkey v] at hrow
    obtain ⟨hk, henq⟩ := O.enqueue hi₁ (O.stable_flipped hi₁ hr₁ h) rfl rfl hrow
    refine ⟨hk, ?_⟩
    intro d₃ hi₃ hr₃ y d₄ happ _
    obtain ⟨⟨y', history⟩, happ', heq'⟩ := Option.map_eq_some_iff.mp happ
    rw [Prod.mk.injEq] at heq'
    rw [← heq'.2]
    obtain ⟨hk', hpost⟩ := O.record hi₃ (O.stable_enqueued hi₃ hr₃ henq) rfl rfl happ'
    exact ⟨hk', fun d₅ hi₅ hr₅ => O.stable_post hi₅ hr₅ hpost⟩

theorem wp_transition (tr : Transition) {d : BudgetDb}
    (hkey : ∀ v, decisionKey b' v = decisionKey b v) (h : O.holding d) :
    L.wp t O.post
      (conditionalTransition key tr.fromState tr.toState tr.setsVersion now >>= fun r =>
        match r with
        | none => pure Outcome.lost
        | some version => do
            Delta.enqueue b' version tr now
            pure (Outcome.decided tr version)) d := by
  refine wp_exec_bind fun d₁ hi₁ hr₁ r d₂ hupd hall => ?_
  have h₁ := O.stable_holding hi₁ hr₁ h
  obtain ⟨⟨r', states⟩, hrow, heq⟩ := Option.map_eq_some_iff.mp hupd
  rw [Prod.mk.injEq] at heq
  obtain ⟨rfl, rfl⟩ := heq
  rcases updateWhere_cases hrow with ⟨rfl, rfl, _⟩ | ⟨row, hvis, hstate, hfree, rfl, rfl⟩
  · exact ⟨O.keeps_self hi₁, fun d₃ hi₃ hr₃ => O.stable_post hi₃ hr₃ (O.lost hi₁ h₁)⟩
  · obtain ⟨hk, hflip⟩ := O.flip hi₁ h₁ hvis (by simpa using hstate) hfree hall
    refine ⟨hk, wp_bind (O.refl t) hk.inv
      (wp_mono ?_ (O.wp_enqueue hkey hflip))⟩
    exact fun _ d₃ _ hpost d₄ hi₄ hr₄ => O.stable_post hi₄ hr₄ hpost

/-- An evaluation, for any logic with a rule for each of its steps. -/
theorem wp {ledger : LedgerView} {d : BudgetDb} (hkey : ∀ v, decisionKey b' v = decisionKey b v)
    (hstate : stateKey b' now = key) (hi : L.inv d) (h : O.fresh d) :
    L.wp t O.post (evaluateBudget pcts b' ledger now) d := by
  unfold evaluateBudget
  split
  · exact wp_raise _
  · rw [hstate]
    refine wp_bind (O.refl t) hi (wp_mono ?_ (O.wp_getOrCreateState h))
    intro state d₁ hi₁ h₁
    dsimp only
    split
    · exact O.wp_transition .enforce hkey h₁
    · split
      · exact O.wp_transition .refresh hkey h₁
      · split
        · exact fun d₂ hi₂ hr₂ => O.quiet hi₂ (O.stable_holding hi₂ hr₂ h₁)
        · refine wp_exec_bind fun d₂ hi₂ hr₂ r d₃ hupd _ => ?_
          have h₂ := O.stable_holding hi₂ hr₂ h₁
          obtain ⟨⟨r', states⟩, hrow, heq⟩ := Option.map_eq_some_iff.mp hupd
          rw [Prod.mk.injEq] at heq
          obtain ⟨rfl, rfl⟩ := heq
          rcases updateWhere_cases hrow with ⟨rfl, rfl, _⟩ | ⟨row, hvis, hp, hfree, rfl, rfl⟩
          · exact ⟨O.keeps_self hi₂, fun d₄ hi₄ hr₄ =>
              O.stable_post hi₄ hr₄ (O.quiet hi₂ h₂)⟩
          · obtain ⟨hk, hpost⟩ := O.warn hi₂ h₂ hvis hp hfree
            exact ⟨hk, fun d₄ hi₄ hr₄ => O.stable_post hi₄ hr₄ hpost⟩

end EvaluationOutline

/-! ## the invariant of every schedule -/

def OfBudget (b : BudgetDefinition) (k : StateKey) : Prop := k.1 = b.tenantId ∧ k.2.1 = b.budgetId

/-- What holds between any two statements, whatever the schedule. -/
structure EngineInv (b : BudgetDefinition) (d : BudgetDb) : Prop where
  outbox : d.outbox.InsertOnly
  key_committed : ∀ k row, d.states.committed k = some row → OfBudget b k
  key_inflight : ∀ k t row, d.states.inflight k = some (t, row) → OfBudget b k
  version_mono : ∀ k t row row', d.states.committed k = some row →
    d.states.inflight k = some (t, row') → row.lastPublishedVersion ≤ row'.lastPublishedVersion
  published_committed : ∀ v o, d.outbox.committed (decisionKey b v) = some o →
    ∃ k row, d.states.committed k = some row ∧ v ≤ row.lastPublishedVersion
  published_inflight : ∀ v t o, d.outbox.inflight (decisionKey b v) = some (t, o) →
    ∃ k row, d.states.inflight k = some (t, row) ∧ v ≤ row.lastPublishedVersion
  bumped_by : ∀ k t row w, d.states.inflight k = some (t, row) → row.bumpedBy = some w → w ≠ t →
    ∃ row₀, d.states.committed k = some row₀ ∧ row₀.bumpedBy = some w ∧
      row₀.lastPublishedVersion = row.lastPublishedVersion
  outbox_by : ∀ k t o, d.outbox.inflight k = some (t, o) → o.insertedBy = t
  history_by : ∀ t h, (t, h) ∈ d.history.inflight → h.insertedBy = t

/-- No committed row carries the provenance of `t`. -/
structure Unused (t : Txn) (d : BudgetDb) : Prop where
  states : ∀ k row, d.states.committed k = some row → row.bumpedBy ≠ some t
  outbox : ∀ k o, d.outbox.committed k = some o → o.insertedBy ≠ t
  history : ∀ h ∈ d.history.committed, h.insertedBy ≠ t

/-- What an evaluation `u` may rely on. -/
structure EngineRely (u : Txn) (d d' : BudgetDb) : Prop where
  states : Frame u d.states d'.states
  outbox : Frame u d.outbox d'.outbox
  history : d'.history.own u = d.history.own u
  outbox_grows : Grows d.outbox d'.outbox
  version_mono : ∀ k row, d.states.committed k = some row →
    ∃ row', d'.states.committed k = some row' ∧ row.lastPublishedVersion ≤ row'.lastPublishedVersion
  unused : Unused u d → Unused u d'

/-- `t` has nothing in flight. -/
structure Settled (t : Txn) (d : BudgetDb) : Prop where
  states : ∀ k row, d.states.inflight k ≠ some (t, row)
  outbox : ∀ k o, d.outbox.inflight k ≠ some (t, o)
  history : d.history.own t = []

/-- `t` has written nothing. -/
structure EngineFresh (t : Txn) (d : BudgetDb) : Prop extends Settled t d where
  unused : Unused t d

theorem EngineRely.refl (u : Txn) (d : BudgetDb) : EngineRely u d d where
  states := .refl u _
  outbox := .refl u _
  history := rfl
  outbox_grows := .refl _
  version_mono _ row h := ⟨row, h, Nat.le_refl _⟩
  unused := id

theorem EngineRely.trans {d₁ d₂ d₃ : BudgetDb} (h₁ : EngineRely u d₁ d₂) (h₂ : EngineRely u d₂ d₃) :
    EngineRely u d₁ d₃ where
  states := h₁.states.trans h₂.states
  outbox := h₁.outbox.trans h₂.outbox
  history := h₂.history.trans h₁.history
  outbox_grows := h₁.outbox_grows.trans h₂.outbox_grows
  version_mono k row h := by
    obtain ⟨row', h', hle⟩ := h₁.version_mono k row h
    obtain ⟨row'', h'', hle'⟩ := h₂.version_mono k row' h'
    exact ⟨row'', h'', Nat.le_trans hle hle'⟩
  unused h := h₂.unused (h₁.unused h)

theorem Settled.rely {d d' : BudgetDb} (hr : EngineRely t d d') (h : Settled t d) :
    Settled t d' where
  states k row hin := h.states k row ((hr.states.inflight k row).mpr hin)
  outbox k o hin := h.outbox k o ((hr.outbox.inflight k o).mpr hin)
  history := hr.history.trans h.history

theorem EngineFresh.rely {d d' : BudgetDb} (hr : EngineRely t d d') (h : EngineFresh t d) :
    EngineFresh t d' :=
  ⟨h.toSettled.rely hr, hr.unused h.unused⟩

variable {d : BudgetDb} {k : StateKey} {row : StateRow}

theorem EngineInv.key_visible (hi : EngineInv b d) (hv : d.states.visible t k = some row) :
    OfBudget b k := by
  rcases visible_cases d.states t k with ⟨w, hw, _⟩ | ⟨_, hvis⟩
  · exact hi.key_inflight k t w hw
  · exact hi.key_committed k row (hvis.symm.trans hv)

theorem EngineInv.version_le_visible {row₀ row : StateRow} (hi : EngineInv b d)
    (hc : d.states.committed k = some row₀) (hv : d.states.visible t k = some row) :
    row₀.lastPublishedVersion ≤ row.lastPublishedVersion := by
  rcases visible_cases d.states t k with ⟨w, hw, hvis⟩ | ⟨_, hvis⟩
  · rw [hvis, Option.some.injEq] at hv
    exact hv ▸ hi.version_mono k t row₀ w hc hw
  · rw [hvis, hc, Option.some.injEq] at hv
    exact Nat.le_of_eq (congrArg _ hv)

theorem EngineInv.version_le_newest {row₀ : StateRow} (hi : EngineInv b d)
    (hc : d.states.committed k = some row₀) :
    ∃ row, d.states.newest k = some row ∧ row₀.lastPublishedVersion ≤ row.lastPublishedVersion := by
  cases hin : d.states.inflight k with
  | none => exact ⟨row₀, by simp [newest, hin, hc], Nat.le_refl _⟩
  | some p => exact ⟨p.2, by simp [newest, hin], hi.version_mono k p.1 row₀ p.2 hc hin⟩

/-! ### statements -/

theorem EngineInv.insertState (hi : EngineInv b d) (hkey : OfBudget b k) (hby : row.bumpedBy = none)
    (hins : d.states.insertOrIgnore t k row = some (x, states)) :
    EngineInv b { d with states } := by
  rcases insertOrIgnore_cases hins with ⟨_, rfl, _⟩ | ⟨_, rfl, hfree, hnone⟩
  · exact hi
  refine
    { outbox := hi.outbox
      key_committed := hi.key_committed
      key_inflight := fun k' t' r hin => ?_
      version_mono := fun k' t' r r' hc hin => ?_
      published_committed := hi.published_committed
      published_inflight := fun v t' o ho => ?_
      bumped_by := fun k' t' r w hin hw hne => ?_
      outbox_by := hi.outbox_by
      history_by := hi.history_by }
  · rcases inflight_write_cases hin with ⟨rfl, -, -⟩ | ⟨-, hin⟩
    · exact hkey
    · exact hi.key_inflight k' t' r hin
  · rcases inflight_write_cases hin with ⟨rfl, -, -⟩ | ⟨-, hin⟩
    · simp [hnone] at hc
    · exact hi.version_mono k' t' r r' hc hin
  · obtain ⟨k', r, hin, hle⟩ := hi.published_inflight v t' o ho
    have hk : k' ≠ k := by
      rintro rfl
      simp [hfree] at hin
    exact ⟨k', r, by simp only [inflight_write_of_ne hk, hin], hle⟩
  · rcases inflight_write_cases hin with ⟨-, -, rfl⟩ | ⟨-, hin⟩
    · rw [hby] at hw
      contradiction
    · exact hi.bumped_by k' t' r w hin hw hne

theorem EngineRely.insertState (hins : d.states.insertOrIgnore t k row = some (x, states))
    (hne : u ≠ t) : EngineRely u d { d with states } where
  states := frame_insertOrIgnore hins hne
  outbox := .refl u _
  history := rfl
  outbox_grows := .refl _
  version_mono k' r hc := ⟨r, by simp only [committed_insertOrIgnore hins, hc], Nat.le_refl _⟩
  unused h := ⟨by simpa only [committed_insertOrIgnore hins] using h.states, h.outbox, h.history⟩

/-- A state row changes under its lock, and its version does not go back. -/
theorem EngineInv.putState {row row' : StateRow} (hi : EngineInv b d)
    (hvis : d.states.visible t k = some row) (hfree : d.states.free t k = true)
    (hle : row.lastPublishedVersion ≤ row'.lastPublishedVersion)
    (hby : row'.bumpedBy = some t ∨ (row'.bumpedBy = row.bumpedBy ∧
      row'.lastPublishedVersion = row.lastPublishedVersion)) :
    EngineInv b (d.putState t k row') where
  outbox := hi.outbox
  key_committed := hi.key_committed
  key_inflight k' t' r hin := by
    rcases inflight_write_cases hin with ⟨rfl, -, -⟩ | ⟨-, hin⟩
    · exact hi.key_visible hvis
    · exact hi.key_inflight k' t' r hin
  version_mono k' t' r r' hc hin := by
    rcases inflight_write_cases hin with ⟨rfl, -, rfl⟩ | ⟨-, hin⟩
    · exact Nat.le_trans (hi.version_le_visible hc hvis) hle
    · exact hi.version_mono k' t' r r' hc hin
  published_committed := hi.published_committed
  published_inflight v t' o ho := by
    obtain ⟨k', r, hin, hv⟩ := hi.published_inflight v t' o ho
    by_cases hk : k' = k
    · subst hk
      have ht : t' = t := free_iff.mp hfree t' r hin
      subst ht
      rw [visible_of_inflight hin, Option.some.injEq] at hvis
      refine ⟨k', row', by simp [BudgetDb.putState], ?_⟩
      rw [hvis] at hv
      exact Nat.le_trans hv hle
    · exact ⟨k', r, by simp only [BudgetDb.putState, inflight_write_of_ne hk, hin], hv⟩
  bumped_by k' t' r w hin hw hne := by
    rcases inflight_write_cases hin with ⟨rfl, rfl, rfl⟩ | ⟨-, hin⟩
    · rcases hby with hby | ⟨hby, hver⟩
      · rw [hby, Option.some.injEq] at hw
        exact absurd hw.symm hne
      · rw [hby] at hw
        rw [hver]
        rcases visible_cases d.states t' k' with ⟨v, hv, hvis'⟩ | ⟨_, hvis'⟩
        · rw [hvis', Option.some.injEq] at hvis
          subst hvis
          exact hi.bumped_by k' t' v w hv hw hne
        · exact ⟨row, hvis' ▸ hvis, hw, rfl⟩
    · exact hi.bumped_by k' t' r w hin hw hne
  outbox_by := hi.outbox_by
  history_by := hi.history_by

theorem EngineRely.putState (hfree : d.states.free t k = true) (hne : u ≠ t) :
    EngineRely u d (d.putState t k row) where
  states := frame_write hne hfree
  outbox := .refl u _
  history := rfl
  outbox_grows := .refl _
  version_mono _ r hc := ⟨r, hc, Nat.le_refl _⟩
  unused := fun h => ⟨h.states, h.outbox, h.history⟩

/-- A decision is queued under a version that its state has reached. -/
theorem EngineInv.enqueue {v : Nat} (hi : EngineInv b d)
    (hrow : d.states.inflight k = some (t, row)) (hv : v ≤ row.lastPublishedVersion)
    (hby : o.insertedBy = t)
    (hins : d.outbox.insertOrIgnore t (decisionKey b v) o = some (x, outbox)) :
    EngineInv b { d with outbox } := by
  rcases insertOrIgnore_cases hins with ⟨_, rfl, _⟩ | ⟨_, rfl, hfree, hnone⟩
  · exact hi
  refine
    { outbox := hi.outbox.insertOrIgnore hins
      key_committed := hi.key_committed
      key_inflight := hi.key_inflight
      version_mono := hi.version_mono
      published_committed := hi.published_committed
      published_inflight := fun v' t' o' ho => ?_
      bumped_by := hi.bumped_by
      outbox_by := fun k' t' o' ho => ?_
      history_by := hi.history_by }
  · rcases inflight_write_cases ho with ⟨hvv, rfl, -⟩ | ⟨-, ho⟩
    · have hveq : v' = v := congrArg (fun p : DecisionKey => p.2.2) hvv
      exact ⟨k, row, hrow, hveq ▸ hv⟩
    · exact hi.published_inflight v' t' o' ho
  · rcases inflight_write_cases ho with ⟨-, rfl, rfl⟩ | ⟨-, ho⟩
    · exact hby
    · exact hi.outbox_by k' t' o' ho

theorem EngineRely.enqueue {k : DecisionKey}
    (hins : d.outbox.insertOrIgnore t k o = some (x, outbox)) (hne : u ≠ t) :
    EngineRely u d { d with outbox } where
  states := .refl u _
  outbox := frame_insertOrIgnore hins hne
  history := rfl
  outbox_grows k' o' hc := by
    simpa only [committed_insertOrIgnore hins] using hc
  version_mono _ r hc := ⟨r, hc, Nat.le_refl _⟩
  unused := fun h =>
    ⟨h.states, by simpa only [committed_insertOrIgnore hins] using h.outbox, h.history⟩

theorem EngineInv.record {x : Unit} (hi : EngineInv b d) (hby : h.insertedBy = t)
    (happ : d.history.append t h = some (x, history)) : EngineInv b { d with history } where
  outbox := hi.outbox
  key_committed := hi.key_committed
  key_inflight := hi.key_inflight
  version_mono := hi.version_mono
  published_committed := hi.published_committed
  published_inflight := hi.published_inflight
  bumped_by := hi.bumped_by
  outbox_by := hi.outbox_by
  history_by t' h' hmem := by
    simp only [(Log.append_cases happ).2, List.mem_append, List.mem_singleton, Prod.mk.injEq] at hmem
    rcases hmem with hmem | ⟨rfl, rfl⟩
    · exact hi.history_by t' h' hmem
    · exact hby

theorem EngineRely.record {x : Unit} (happ : d.history.append t h = some (x, history)) (hne : u ≠ t) :
    EngineRely u d { d with history } where
  states := .refl u _
  outbox := .refl u _
  history := Log.own_append_of_ne happ hne
  outbox_grows := .refl _
  version_mono _ r hc := ⟨r, hc, Nat.le_refl _⟩
  unused := fun h => ⟨h.states, h.outbox, by
    simpa only [(Log.append_cases happ).1] using h.history⟩

/-! ### the end of a transaction -/

theorem EngineInv.commit (hi : EngineInv b d) : EngineInv b (Database.commit t d) where
  outbox := hi.outbox.commit t
  key_committed _ _ hc := hi.key_visible hc
  key_inflight k t' row hin := hi.key_inflight k t' row (inflight_commit_eq_some.mp hin).1
  version_mono k t' row row' hc hin := by
    obtain ⟨hin, hne⟩ := inflight_commit_eq_some.mp hin
    exact hi.version_mono k t' row row'
      ((visible_of_inflight_ne hin hne).symm.trans hc) hin
  published_committed v o ho := by
    rcases visible_cases d.outbox t (decisionKey b v) with ⟨o', ho', _⟩ | ⟨_, hvis⟩
    · obtain ⟨k, row, hin, hle⟩ := hi.published_inflight v t o' ho'
      exact ⟨k, row, visible_of_inflight hin, hle⟩
    · obtain ⟨k, row, hc, hle⟩ := hi.published_committed v o (hvis.symm.trans ho)
      rcases visible_cases d.states t k with ⟨row', hin, hvis'⟩ | ⟨_, hvis'⟩
      · exact ⟨k, row', hvis', Nat.le_trans hle (hi.version_mono k t row row' hc hin)⟩
      · exact ⟨k, row, hvis'.trans hc, hle⟩
  published_inflight v t' o ho := by
    obtain ⟨ho, hne⟩ := inflight_commit_eq_some.mp ho
    obtain ⟨k, row, hin, hle⟩ := hi.published_inflight v t' o ho
    exact ⟨k, row, inflight_commit_eq_some.mpr ⟨hin, hne⟩, hle⟩
  bumped_by k t' row w hin hw hwt := by
    obtain ⟨hin, hne⟩ := inflight_commit_eq_some.mp hin
    obtain ⟨row₀, hc, hrest⟩ := hi.bumped_by k t' row w hin hw hwt
    exact ⟨row₀, (visible_of_inflight_ne hin hne).trans hc, hrest⟩
  outbox_by k t' o ho := hi.outbox_by k t' o (inflight_commit_eq_some.mp ho).1
  history_by t' h hmem := hi.history_by t' h (List.mem_filter.mp hmem).1

theorem EngineInv.rollback (hi : EngineInv b d) : EngineInv b (Database.rollback t d) where
  outbox := hi.outbox.rollback t
  key_committed := hi.key_committed
  key_inflight k t' row hin := hi.key_inflight k t' row (inflight_rollback_eq_some.mp hin).1
  version_mono k t' row row' hc hin :=
    hi.version_mono k t' row row' hc (inflight_rollback_eq_some.mp hin).1
  published_committed := hi.published_committed
  published_inflight v t' o ho := by
    obtain ⟨ho, hne⟩ := inflight_rollback_eq_some.mp ho
    obtain ⟨k, row, hin, hle⟩ := hi.published_inflight v t' o ho
    exact ⟨k, row, inflight_rollback_eq_some.mpr ⟨hin, hne⟩, hle⟩
  bumped_by k t' row w hin hw hwt :=
    hi.bumped_by k t' row w (inflight_rollback_eq_some.mp hin).1 hw hwt
  outbox_by k t' o ho := hi.outbox_by k t' o (inflight_rollback_eq_some.mp ho).1
  history_by t' h hmem := hi.history_by t' h (List.mem_filter.mp hmem).1

theorem Unused.commit (hi : EngineInv b d) (hne : u ≠ t) (h : Unused u d) :
    Unused u (Database.commit t d) where
  states k row hrow hu := by
    rcases visible_cases d.states t k with ⟨row', hin, hvis⟩ | ⟨_, hvis⟩
    · have heq : row' = row := Option.some.inj (hvis.symm.trans hrow)
      subst heq
      obtain ⟨row₀, hc, hby, _⟩ := hi.bumped_by k t row' u hin hu hne
      exact h.states k row₀ hc hby
    · exact h.states k row (hvis.symm.trans hrow) hu
  outbox k o ho := by
    rcases visible_cases d.outbox t k with ⟨o', hin, hvis⟩ | ⟨_, hvis⟩
    · have heq : o' = o := Option.some.inj (hvis.symm.trans ho)
      subst heq
      rw [hi.outbox_by k t o' hin]
      exact hne.symm
    · exact h.outbox k o (hvis.symm.trans ho)
  history r hr := by
    rcases List.mem_append.mp hr with hr | hr
    · exact h.history r hr
    · obtain ⟨⟨t', r'⟩, hmem, rfl⟩ := List.mem_map.mp hr
      obtain ⟨hmem, ht⟩ := List.mem_filter.mp hmem
      have ht : t' = t := of_decide_eq_true ht
      rw [hi.history_by t' r' hmem, ht]
      exact hne.symm

theorem EngineRely.commit (hi : EngineInv b d) (hne : u ≠ t) :
    EngineRely u d (Database.commit t d) where
  states := frame_commit _ hne
  outbox := frame_commit _ hne
  history := Log.own_commit_of_ne hne
  outbox_grows := hi.outbox.grows_commit t
  version_mono k row hc := by
    rcases visible_cases d.states t k with ⟨row', hin, hvis⟩ | ⟨_, hvis⟩
    · exact ⟨row', hvis, hi.version_mono k t row row' hc hin⟩
    · exact ⟨row, hvis.trans hc, Nat.le_refl _⟩
  unused := Unused.commit hi hne

theorem EngineRely.rollback (hne : u ≠ t) : EngineRely u d (Database.rollback t d) where
  states := frame_rollback _ hne
  outbox := frame_rollback _ hne
  history := Log.own_rollback_of_ne hne
  outbox_grows := .refl _
  version_mono _ row hc := ⟨row, hc, Nat.le_refl _⟩
  unused := fun h => ⟨h.states, h.outbox, h.history⟩

theorem Settled.commit (t : Txn) (d : BudgetDb) : Settled t (Database.commit t d) where
  states _ _ hin := (inflight_commit_eq_some.mp hin).2 rfl
  outbox _ _ ho := (inflight_commit_eq_some.mp ho).2 rfl
  history := by
    simp [Database.commit, Log.own, Log.commit, List.filter_filter]

theorem Settled.rollback (t : Txn) (d : BudgetDb) : Settled t (Database.rollback t d) where
  states _ _ hin := (inflight_rollback_eq_some.mp hin).2 rfl
  outbox _ _ ho := (inflight_rollback_eq_some.mp ho).2 rfl
  history := by
    simp [Database.rollback, Log.own, Log.rollback, List.filter_filter]

theorem engineInv_empty (b : BudgetDefinition) : EngineInv b BudgetDb.empty where
  outbox := insertOnly_empty
  key_committed := by intro k row h; contradiction
  key_inflight := by intro k t row h; contradiction
  version_mono := by intro k t row row' h; contradiction
  published_committed := by intro v o h; contradiction
  published_inflight := by intro v t o h; contradiction
  bumped_by := by intro k t row w h; contradiction
  outbox_by := by intro k t o h; contradiction
  history_by := by intro t h hmem; contradiction

theorem engineFresh_empty (t : Txn) : EngineFresh t BudgetDb.empty where
  states := by intro k row h; contradiction
  outbox := by intro k o h; contradiction
  history := rfl
  unused := ⟨by intro k row h; contradiction, by intro k o h; contradiction,
    by intro h hmem; contradiction⟩

/-! ## every schedule -/

/-- The specification that holds of every schedule. -/
def engineLogic (b : BudgetDefinition) : Logic BudgetDb Evaluation Outcome where
  inv := EngineInv b
  rely := EngineRely
  fresh := EngineFresh
  post t e _ d := ∃ row, d.states.visible t (stateKey b e.now) = some row
  ensures t e _ d := Settled t d ∧ ∃ row, d.states.committed (stateKey b e.now) = some row
  undone := Settled

theorem EngineRely.visible {d d' : BudgetDb} (hr : EngineRely u d d')
    (h : ∃ row, d.states.visible u k = some row) : ∃ row, d'.states.visible u k = some row := by
  obtain ⟨row, hrow⟩ := h
  rcases visible_cases d'.states u k with ⟨row', _, hvis⟩ | ⟨hno, hvis⟩
  · exact ⟨row', hvis⟩
  · have hold : ∀ v, d.states.inflight k ≠ some (u, v) :=
      fun v hv => hno v ((hr.states.inflight k v).mp hv)
    obtain ⟨row', hc, _⟩ :=
      hr.version_mono k row ((visible_of_no_inflight hold).symm.trans hrow)
    exact ⟨row', hvis.trans hc⟩

/-- The proof outline: a decision is queued under the version just taken. -/
def engineOutline (b : BudgetDefinition) (t : Txn) (key : StateKey) (hkey : OfBudget b key) :
    EvaluationOutline (engineLogic b) b t key where
  fresh _ := True
  seeded _ _ := True
  holding d := ∃ row, d.states.visible t key = some row
  flipped _ v d := ∃ row, d.states.inflight key = some (t, row) ∧ row.lastPublishedVersion = v
  enqueued _ _ d := ∃ row, d.states.visible t key = some row
  post _ d := ∃ row, d.states.visible t key = some row
  refl := EngineRely.refl
  stable_fresh _ _ _ := trivial
  stable_seeded _ _ _ := trivial
  stable_holding _ hr h := hr.visible h
  stable_flipped _ hr h := h.imp fun row hrow => ⟨(hr.states.inflight key row).mp hrow.1, hrow.2⟩
  stable_enqueued _ hr h := hr.visible h
  stable_post _ hr h := hr.visible h
  seed _ _ := trivial
  insert hi _ hins :=
    ⟨⟨hi.insertState hkey rfl hins, fun _ hne => .insertState hins hne⟩,
      visible_insertOrIgnore hins⟩
  flip hi _ hvis _ hfree _ := by
    refine ⟨⟨hi.putState hvis hfree (Nat.le_succ _) (.inl rfl), fun _ hne => .putState hfree hne⟩, ?_⟩
    exact ⟨_, inflight_write_self _ _ _ _, rfl⟩
  lost _ h := h
  enqueue hi h _ hby hins := by
    obtain ⟨row, hrow, rfl⟩ := h
    exact ⟨⟨hi.enqueue hrow (Nat.le_refl _) hby hins, fun _ hne => .enqueue hins hne⟩,
      row, visible_of_inflight hrow⟩
  record hi h _ hby happ := ⟨⟨hi.record hby happ, fun _ hne => .record happ hne⟩, h⟩
  warn hi _ hvis _ hfree :=
    ⟨⟨hi.putState hvis hfree (Nat.le_refl _) (.inr ⟨rfl, rfl⟩), fun _ hne => .putState hfree hne⟩,
      _, visible_write_self _ _ _ _⟩
  quiet _ h := h

theorem engine_sound (pcts : List Nat) (b : BudgetDefinition) :
    (engineLogic b).Sound (budgetProg pcts b) where
  refl := EngineRely.refl
  trans := EngineRely.trans
  fresh_rely _ hr h := h.rely hr
  ensures_rely _ hr h :=
    ⟨h.1.rely hr, h.2.elim fun row hrow =>
      (hr.version_mono _ row hrow).imp fun _ hrow' => hrow'.1⟩
  undone_rely _ hr h := h.rely hr
  body := by
    intro t e d _ hi _
    exact (engineOutline b t (stateKey b e.now) ⟨rfl, rfl⟩).wp (fun _ => rfl) rfl hi trivial
  commit hi h := ⟨⟨hi.commit, fun _ hne => .commit hi hne⟩, Settled.commit _ _, h⟩
  rollback hi := ⟨⟨hi.rollback, fun _ hne => .rollback hne⟩, Settled.rollback _ _⟩

theorem engine_ok_init (b : BudgetDefinition) : (engineLogic b).Ok BudgetSys.init where
  inv := engineInv_empty b
  procs t := engineFresh_empty t

theorem engine_ok {as : List (Action Evaluation)} {s : BudgetSys}
    (h : run (budgetProg pcts b) BudgetSys.init as = some s) : (engineLogic b).Ok s :=
  (engine_sound pcts b).run (engine_ok_init b)
    (everyStep_permits (fun _ => trivial) (fun _ _ _ => trivial) as) h

end Anoryx.Delta
