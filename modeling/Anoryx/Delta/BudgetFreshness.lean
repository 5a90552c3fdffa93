import Anoryx.Delta.BudgetEngineInvariant

/-!
# Anoryx.Delta.BudgetFreshness

Is every enforcement decision published under a version of its own?

A transition takes its version from the row of its own period bucket, while
versions are shared by all buckets of the budget.  `versions_reused` is a
schedule in which two buckets' transitions return the same version: the second
outbox insert does nothing and the state flips without a decision.

`decisions_fresh` is the positive half.  If every transition finds its own row
to carry the newest version of the budget (`FlipsNewest`), then each committed
decision has an outbox row of its own.  The proof rests on `Exclusive`: from the
transition on, the version belongs to one transaction — no other row carries it
and nobody else has it in the outbox.
-/

namespace Anoryx.Delta

open ReadCommitted Table

/-- A step that flips a state row finds it carrying the newest version of all
the budget's rows, uncommitted ones included. -/
def FlipsNewest (t : Txn) (d d' : BudgetDb) : Prop :=
  ∀ k row row', d.states.visible t k = some row → d'.states.inflight k = some (t, row') →
    row'.lastPublishedVersion ≠ row.lastPublishedVersion →
    ∀ k' w, d.states.newest k' = some w → w.lastPublishedVersion ≤ row.lastPublishedVersion

/-! ## exclusive versions -/

/-- The version `x`, which `t` gave the row `k`, is nobody else's. -/
structure Exclusive (b : BudgetDefinition) (k : StateKey) (t : Txn) (x : Nat) (d : BudgetDb) :
    Prop where
  pos : 1 ≤ x
  inflight : ∀ k' t' w, k' ≠ k → d.states.inflight k' = some (t', w) → w.lastPublishedVersion ≠ x
  committed : ∀ k' w, d.states.committed k' = some w → w.lastPublishedVersion ≠ x
  outbox_committed : d.outbox.committed (decisionKey b x) = none
  outbox_inflight : ∀ t' o, d.outbox.inflight (decisionKey b x) = some (t', o) → t' = t

/-- The invariant: versions of open transitions are exclusive, and every
committed transition has its outbox row. -/
structure FreshnessInv (b : BudgetDefinition) (d : BudgetDb) : Prop where
  engine : EngineInv b d
  exclusive : ∀ k t row, d.states.inflight k = some (t, row) → row.bumpedBy = some t →
    Exclusive b k t row.lastPublishedVersion d
  answered : ∀ k row t, d.states.committed k = some row → row.bumpedBy = some t →
    ∃ o, d.outbox.committed (decisionKey b row.lastPublishedVersion) = some o ∧ o.insertedBy = t

/-- Others may also start transitions, but only above every committed version. -/
structure FreshnessRely (u : Txn) (d d' : BudgetDb) : Prop where
  engine : EngineRely u d d'
  flips : ∀ k v row, d'.states.inflight k = some (v, row) → row.bumpedBy = some v →
    d.states.inflight k = some (v, row) ∨
      ∀ k' w, d.states.committed k' = some w → w.lastPublishedVersion < row.lastPublishedVersion

theorem FreshnessRely.refl (u : Txn) (d : BudgetDb) : FreshnessRely u d d :=
  ⟨.refl u d, fun _ _ _ h _ => .inl h⟩

variable {u t : Txn} {d₁ d₂ d₃ d' : BudgetDb} {key k : StateKey} {v s n pct : Nat}
  {b : BudgetDefinition} {o : DecisionRow} {x : Bool} {outbox : Table DecisionKey DecisionRow}
  {now : DateTime}

theorem FreshnessRely.trans (h₁ : FreshnessRely u d₁ d₂) (h₂ : FreshnessRely u d₂ d₃) :
    FreshnessRely u d₁ d₃ := by
  refine ⟨h₁.engine.trans h₂.engine, fun k v row hin hby => ?_⟩
  rcases h₂.flips k v row hin hby with hin₂ | habove
  · exact h₁.flips k v row hin₂ hby
  · refine .inr fun k' w hw => ?_
    obtain ⟨w', hw', hle⟩ := h₁.engine.version_mono k' w hw
    exact Nat.lt_of_le_of_lt hle (habove k' w' hw')

/-! ## assertions of an evaluation -/

/-- The seed was read from the committed rows, and is not an open version. -/
structure Seeded (t : Txn) (s : Nat) (d : BudgetDb) : Prop where
  fresh : EngineFresh t d
  covered : s = 0 ∨ ∃ k w, d.states.committed k = some w ∧ s ≤ w.lastPublishedVersion
  avoids : ∀ k u row, d.states.inflight k = some (u, row) → row.bumpedBy = some u →
    s ≠ row.lastPublishedVersion

/-- `t` has made no transition. -/
def Unflipped (t : Txn) (d : BudgetDb) : Prop :=
  ∀ k row, d.states.inflight k = some (t, row) → row.bumpedBy ≠ some t

/-- `t` has made no transition and queued nothing. -/
structure Holding (t : Txn) (d : BudgetDb) : Prop where
  unflipped : Unflipped t d
  outbox : ∀ k o, d.outbox.inflight k ≠ some (t, o)
  unused : Unused t d

/-- `t` has flipped its row to version `v` and queued nothing yet. -/
structure Flipped (t : Txn) (key : StateKey) (v : Nat) (d : BudgetDb) : Prop where
  row : ∃ row, d.states.inflight key = some (t, row) ∧ row.lastPublishedVersion = v ∧
    row.bumpedBy = some t
  only : ∀ k row, d.states.inflight k = some (t, row) → row.bumpedBy = some t → k = key
  outbox : ∀ k o, d.outbox.inflight k ≠ some (t, o)

/-- `t` has queued the decision of the version it holds. -/
structure Enqueued (b : BudgetDefinition) (t : Txn) (v : Nat) (d : BudgetDb) : Prop where
  row : ∀ k row, d.states.inflight k = some (t, row) → row.bumpedBy = some t →
    row.lastPublishedVersion = v
  outbox : ∃ o, d.outbox.inflight (decisionKey b v) = some (t, o)

/-- What an evaluation owes when it ends. -/
def FreshPost (b : BudgetDefinition) (t : Txn) (o : Outcome) (d : BudgetDb) : Prop :=
  match o with
  | .decided _ v => Enqueued b t v d
  | _ => Unflipped t d

/-- What a committed evaluation leaves: its decision, in an outbox row of its own. -/
def FreshEnsures (b : BudgetDefinition) (t : Txn) (o : Outcome) (d : BudgetDb) : Prop :=
  match o with
  | .decided _ v => ∃ row, d.outbox.committed (decisionKey b v) = some row ∧ row.insertedBy = t
  | _ => True

def freshnessLogic (b : BudgetDefinition) : Logic BudgetDb Evaluation Outcome where
  inv := FreshnessInv b
  rely := FreshnessRely
  fresh := EngineFresh
  post t _ o d := FreshPost b t o d
  ensures t _ o d := Settled t d ∧ FreshEnsures b t o d
  undone := Settled
  allowed := FlipsNewest

theorem Unflipped.rely {d : BudgetDb} (hr : EngineRely t d d') (h : Unflipped t d) :
    Unflipped t d' :=
  fun k row hin => h k row ((hr.states.inflight k row).mpr hin)

theorem Holding.rely {d : BudgetDb} (hr : EngineRely t d d') (h : Holding t d) : Holding t d' :=
  ⟨h.unflipped.rely hr, fun k o hin => h.outbox k o ((hr.outbox.inflight k o).mpr hin),
    hr.unused h.unused⟩

theorem Flipped.rely {d : BudgetDb} (hr : EngineRely t d d') (h : Flipped t key v d) :
    Flipped t key v d' :=
  ⟨h.row.imp fun row hrow => ⟨(hr.states.inflight key row).mp hrow.1, hrow.2⟩,
    fun k row hin => h.only k row ((hr.states.inflight k row).mpr hin),
    fun k o hin => h.outbox k o ((hr.outbox.inflight k o).mpr hin)⟩

theorem Enqueued.rely {d : BudgetDb} (hr : EngineRely t d d') (h : Enqueued b t v d) :
    Enqueued b t v d' :=
  ⟨fun k row hin => h.row k row ((hr.states.inflight k row).mpr hin),
    h.outbox.imp fun o ho => (hr.outbox.inflight _ o).mp ho⟩

theorem FreshPost.rely {o : Outcome} {d : BudgetDb} (hr : EngineRely t d d') (h : FreshPost b t o d) :
    FreshPost b t o d' := by
  cases o with
  | decided tr v => exact Enqueued.rely hr h
  | lost => exact Unflipped.rely hr h
  | warned pct => exact Unflipped.rely hr h
  | quiet => exact Unflipped.rely hr h

theorem Seeded.rely {d : BudgetDb} (hi : FreshnessInv b d') (hr : FreshnessRely t d d')
    (h : Seeded t s d) : Seeded t s d' where
  fresh := h.fresh.rely hr.engine
  covered := h.covered.imp id fun ⟨k, w, hw, hle⟩ => by
    obtain ⟨w', hw', hle'⟩ := hr.engine.version_mono k w hw
    exact ⟨k, w', hw', Nat.le_trans hle hle'⟩
  avoids k u row hin hby := by
    rcases hr.flips k u row hin hby with hold | habove
    · exact h.avoids k u row hold hby
    · rcases h.covered with rfl | ⟨k', w, hw, hle⟩
      · have := (hi.exclusive k u row hin hby).pos
        omega
      · have := habove k' w hw
        omega

/-! ## statements -/

theorem seedVersion_cases (tenantId budgetId : String) (t : Txn) (d : BudgetDb) :
    seedVersion tenantId budgetId t d = 0 ∨
      ∃ k w, d.states.visible t k = some w ∧
        w.lastPublishedVersion = seedVersion tenantId budgetId t d := by
  unfold seedVersion
  generalize hl : ((d.states.scan t).filter fun p => p.1.1 = tenantId ∧ p.1.2.1 = budgetId).map
    (fun p => p.2.lastPublishedVersion) = l
  cases hmax : l.max? with
  | none => exact .inl rfl
  | some m =>
      have hmem : m ∈ l := List.max?_mem hmax
      rw [← hl] at hmem
      obtain ⟨⟨k, w⟩, hmem, heq⟩ := List.mem_map.mp hmem
      exact .inr ⟨k, w, mem_scan.mp (List.mem_filter.mp hmem).1, heq⟩

variable {d : BudgetDb}

theorem Seeded.of_fresh {tenantId budgetId : String} (hi : FreshnessInv b d) (h : EngineFresh t d) :
    Seeded t (seedVersion tenantId budgetId t d) d := by
  have hcases : seedVersion tenantId budgetId t d = 0 ∨ ∃ k w, d.states.committed k = some w ∧
      w.lastPublishedVersion = seedVersion tenantId budgetId t d := by
    refine (seedVersion_cases tenantId budgetId t d).imp id fun ⟨k, w, hw, heq⟩ => ⟨k, w, ?_, heq⟩
    rwa [visible_of_no_inflight (h.states k)] at hw
  refine ⟨h, hcases.imp id fun ⟨k, w, hw, heq⟩ => ⟨k, w, hw, Nat.le_of_eq heq.symm⟩, ?_⟩
  intro k u row hin hby hs
  have hex := hi.exclusive k u row hin hby
  rcases hcases with hzero | ⟨k', w, hw, heq⟩
  · have := hex.pos
    omega
  · exact hex.committed k' w hw (heq.trans hs)

variable {row : StateRow}

theorem Exclusive.putState {x : Nat} (hex : Exclusive b k u x d)
    (hne : row.lastPublishedVersion ≠ x) : Exclusive b k u x (d.putState t key row) where
  pos := hex.pos
  inflight k' t' w hk hin := by
    rcases inflight_write_cases hin with ⟨-, -, rfl⟩ | ⟨-, hin⟩
    · exact hne
    · exact hex.inflight k' t' w hk hin
  committed := hex.committed
  outbox_committed := hex.outbox_committed
  outbox_inflight := hex.outbox_inflight

theorem FreshnessInv.putState (hi : FreshnessInv b d) (hengine : EngineInv b (d.putState t key row))
    (hby : row.bumpedBy ≠ some t)
    (havoid : ∀ k u w, k ≠ key → d.states.inflight k = some (u, w) → w.bumpedBy = some u →
      row.lastPublishedVersion ≠ w.lastPublishedVersion) :
    FreshnessInv b (d.putState t key row) where
  engine := hengine
  exclusive k u w hin hw := by
    rcases inflight_write_cases hin with ⟨-, rfl, rfl⟩ | ⟨hk, hin⟩
    · exact absurd hw hby
    · exact (hi.exclusive k u w hin hw).putState (havoid k u w hk hin hw)
  answered := hi.answered

theorem FreshnessRely.putState (hfree : d.states.free t key = true) (hne : u ≠ t)
    (hby : row.bumpedBy = some t →
      ∀ k' w, d.states.committed k' = some w → w.lastPublishedVersion < row.lastPublishedVersion) :
    FreshnessRely u d (d.putState t key row) := by
  refine ⟨.putState hfree hne, fun k v w hin hw => ?_⟩
  rcases inflight_write_cases hin with ⟨-, rfl, rfl⟩ | ⟨-, hin⟩
  · exact .inr (hby hw)
  · exact .inl hin

theorem Exclusive.of_newest (hi : FreshnessInv b d)
    (hnewest : ∀ k' w, d.states.newest k' = some w → w.lastPublishedVersion ≤ n) :
    Exclusive b key t (n + 1) (d.putState t key row) := by
  have hcommitted : ∀ k' w, d.states.committed k' = some w → w.lastPublishedVersion ≤ n := by
    intro k' w hw
    obtain ⟨w', hw', hle⟩ := hi.engine.version_le_newest hw
    exact Nat.le_trans hle (hnewest k' w' hw')
  have hinflight : ∀ k' t' w, d.states.inflight k' = some (t', w) →
      w.lastPublishedVersion ≤ n :=
    fun k' t' w hw => hnewest k' w (by simp [newest, hw])
  refine ⟨by omega, fun k' t' w hk hin => ?_, fun k' w hw => ?_, ?_, fun t' o ho => ?_⟩
  · simp only [BudgetDb.putState, inflight_write_of_ne hk] at hin
    have := hinflight k' t' w hin
    omega
  · have := hcommitted k' w hw
    omega
  · cases hc : d.outbox.committed (decisionKey b (n + 1)) with
    | none => exact hc
    | some o =>
        obtain ⟨k', w, hw, hle⟩ := hi.engine.published_committed (n + 1) o hc
        have := hcommitted k' w hw
        omega
  · obtain ⟨k', w, hw, hle⟩ := hi.engine.published_inflight (n + 1) t' o ho
    have := hinflight k' t' w hw
    omega

theorem FreshnessInv.enqueue (hi : FreshnessInv b d) (hrow : d.states.inflight key = some (t, row))
    (hby : o.insertedBy = t)
    (hins : d.outbox.insertOrIgnore t (decisionKey b row.lastPublishedVersion) o = some (x, outbox)) :
    FreshnessInv b { d with outbox } where
  engine := hi.engine.enqueue hrow (Nat.le_refl _) hby hins
  exclusive k u w hin hw := by
    have hex := hi.exclusive k u w hin hw
    refine ⟨hex.pos, hex.inflight, hex.committed, ?_, fun t' o' ho' => ?_⟩
    · simpa only [committed_insertOrIgnore hins] using hex.outbox_committed
    · rcases insertOrIgnore_cases hins with ⟨_, rfl, _⟩ | ⟨_, rfl, _, _⟩
      · exact hex.outbox_inflight t' o' ho'
      · rcases inflight_write_cases ho' with ⟨hv, rfl, -⟩ | ⟨-, ho'⟩
        · have hveq : row.lastPublishedVersion = w.lastPublishedVersion :=
            (congrArg (fun p : DecisionKey => p.2.2) hv).symm
          by_cases hk : key = k
          · subst hk
            have hin' : d.states.inflight key = some (u, w) := hin
            rw [hrow, Option.some.injEq, Prod.mk.injEq] at hin'
            exact hin'.1
          · exact absurd hveq (hex.inflight key _ row hk hrow)
        · exact hex.outbox_inflight t' o' ho'
  answered k w u hw hu := by
    simpa only [committed_insertOrIgnore hins] using hi.answered k w u hw hu

theorem Exclusive.inserted (hex : Exclusive b key t v d)
    (hnone : ∀ k o, d.outbox.inflight k ≠ some (t, o))
    (hins : d.outbox.insertOrIgnore t (decisionKey b v) o = some (x, outbox)) :
    outbox.inflight (decisionKey b v) = some (t, o) := by
  rcases insertOrIgnore_cases hins with ⟨_, rfl, w, hw⟩ | ⟨_, rfl, _, _⟩
  · rw [visible_of_no_inflight (hnone _), hex.outbox_committed] at hw
    contradiction
  · exact inflight_write_self _ _ _ _

theorem Holding.not_flipped (h : Holding t d) (hvis : d.states.visible t key = some row) :
    row.bumpedBy ≠ some t := by
  rcases visible_cases d.states t key with ⟨w, hw, hvis'⟩ | ⟨_, hvis'⟩
  · rw [hvis', Option.some.injEq] at hvis
    exact hvis ▸ h.unflipped key w hw
  · exact h.unused.states key row (hvis' ▸ hvis)

/-! ## the outline -/

section Outline

variable (b : BudgetDefinition) (t : Txn) (key : StateKey)

theorem freshness_insert (hkey : OfBudget b key) {states : Table StateKey StateRow} {d : BudgetDb}
    (hi : FreshnessInv b d) (h : Seeded t s d)
    (hins : d.states.insertOrIgnore t key (newStateRow s now) = some (x, states)) :
    (freshnessLogic b).Keeps t d { d with states } ∧ Holding t { d with states } := by
  have hengine := hi.engine.insertState hkey rfl hins
  rcases insertOrIgnore_cases hins with ⟨_, rfl, _⟩ | ⟨_, rfl, hnone, _⟩
  · refine ⟨⟨hi, fun u _ => .refl u d⟩, ?_, h.fresh.outbox, h.fresh.unused⟩
    exact fun k row hin => absurd hin (h.fresh.states k row)
  · have hfree : d.states.free t key = true := free_iff.mpr (by simp [hnone])
    refine ⟨⟨hi.putState hengine (by simp [newStateRow]) ?_, fun u hne =>
      FreshnessRely.putState hfree hne (by simp [newStateRow])⟩, ?_, h.fresh.outbox,
      h.fresh.unused.states, h.fresh.unused.outbox, h.fresh.unused.history⟩
    · exact fun k u w _ hin hw => h.avoids k u w hin hw
    · intro k row hin
      rcases inflight_write_cases hin with ⟨-, -, rfl⟩ | ⟨-, hin⟩
      · simp [newStateRow]
      · exact absurd hin (h.fresh.states k row)

/-- A flip takes the newest version of all. -/
theorem freshness_flip {tr : Transition} {row : StateRow} {d : BudgetDb} (hi : FreshnessInv b d)
    (h : Holding t d) (hvis : d.states.visible t key = some row)
    (hfree : d.states.free t key = true)
    (hall : FlipsNewest t d (d.putState t key (tr.apply row now t))) :
    (freshnessLogic b).Keeps t d (d.putState t key (tr.apply row now t)) ∧
      Flipped t key (row.lastPublishedVersion + 1) (d.putState t key (tr.apply row now t)) := by
  have hnewest : ∀ k' w, d.states.newest k' = some w →
      w.lastPublishedVersion ≤ row.lastPublishedVersion :=
    hall key row (tr.apply row now t) hvis (by simp [BudgetDb.putState])
      (by simp [Transition.apply, StateRow.transition])
  have hengine : EngineInv b (d.putState t key (tr.apply row now t)) :=
    hi.engine.putState hvis hfree (by simp [Transition.apply, StateRow.transition])
      (.inl (by simp [Transition.apply, StateRow.transition]))
  refine ⟨⟨⟨hengine, fun k u w hin hw => ?_, hi.answered⟩, fun u hne =>
    FreshnessRely.putState hfree hne fun _ k' w hw => ?_⟩, ?_, ?_, h.outbox⟩
  · rcases inflight_write_cases hin with ⟨rfl, rfl, rfl⟩ | ⟨-, hin⟩
    · exact Exclusive.of_newest hi hnewest
    · have hle : w.lastPublishedVersion ≤ row.lastPublishedVersion :=
        hnewest k w (by simp [newest, hin])
      refine (hi.exclusive k u w hin hw).putState ?_
      simp only [Transition.apply, StateRow.transition]
      omega
  · obtain ⟨w', hw', hle⟩ := hi.engine.version_le_newest hw
    have := hnewest k' w' hw'
    simp only [Transition.apply, StateRow.transition]
    omega
  · exact ⟨_, inflight_write_self _ _ _ _, rfl, rfl⟩
  · intro k w hin hw
    by_contra hk
    simp only [BudgetDb.putState, inflight_write_of_ne hk] at hin
    exact h.unflipped k w hin hw

theorem freshness_warn {row : StateRow} {d : BudgetDb} (hi : FreshnessInv b d) (h : Holding t d)
    (hvis : d.states.visible t key = some row) (hfree : d.states.free t key = true) :
    (freshnessLogic b).Keeps t d (d.putState t key (row.warn pct now)) ∧
      Unflipped t (d.putState t key (row.warn pct now)) := by
  have hby : row.bumpedBy ≠ some t := h.not_flipped hvis
  have hengine : EngineInv b (d.putState t key (row.warn pct now)) :=
    hi.engine.putState hvis hfree (Nat.le_refl _) (.inr ⟨rfl, rfl⟩)
  refine ⟨⟨hi.putState hengine hby ?_, fun u hne =>
    FreshnessRely.putState hfree hne fun hw => absurd hw hby⟩, ?_⟩
  · -- the version is that of a row in sight, committed or the writer's own
    intro k u w hk hin hw heq
    have hex := hi.exclusive k u w hin hw
    rcases visible_cases d.states t key with ⟨r, hr, hvis'⟩ | ⟨_, hvis'⟩
    · rw [hvis', Option.some.injEq] at hvis
      exact hex.inflight key t r hk.symm hr (hvis ▸ heq)
    · exact hex.committed key row (hvis' ▸ hvis) heq
  · intro k w hin
    rcases inflight_write_cases hin with ⟨-, -, rfl⟩ | ⟨-, hin⟩
    · exact hby
    · exact h.unflipped k w hin

theorem freshness_enqueue {d : BudgetDb} (hi : FreshnessInv b d) (h : Flipped t key v d)
    (hby : o.insertedBy = t)
    (hins : d.outbox.insertOrIgnore t (decisionKey b v) o = some (x, outbox)) :
    (freshnessLogic b).Keeps t d { d with outbox } ∧ Enqueued b t v { d with outbox } := by
  obtain ⟨row, hrow, rfl, hflip⟩ := h.row
  refine ⟨⟨hi.enqueue hrow hby hins, fun u hne =>
    ⟨.enqueue hins hne, fun _ _ _ hin _ => .inl hin⟩⟩, ?_, ?_⟩
  · intro k w hin hw
    have hk := h.only k w hin hw
    subst hk
    have hin' : d.states.inflight k = some (t, w) := hin
    rw [hrow, Option.some.injEq, Prod.mk.injEq] at hin'
    rw [hin'.2]
  · exact ⟨o, (hi.exclusive key t row hrow hflip).inserted h.outbox hins⟩

/-- The proof outline of freshness. -/
def freshnessOutline (hkey : OfBudget b key) : EvaluationOutline (freshnessLogic b) b t key where
  fresh := EngineFresh t
  seeded := Seeded t
  holding := Holding t
  flipped _ v := Flipped t key v
  enqueued _ v := Enqueued b t v
  post := FreshPost b t
  refl := FreshnessRely.refl
  stable_fresh _ hr h := h.rely hr.engine
  stable_seeded hi hr h := h.rely hi hr
  stable_holding _ hr h := h.rely hr.engine
  stable_flipped _ hr h := h.rely hr.engine
  stable_enqueued _ hr h := h.rely hr.engine
  stable_post _ hr h := h.rely hr.engine
  seed hi h := Seeded.of_fresh hi h
  insert hi h hins := freshness_insert b t key hkey hi h hins
  flip hi h hvis _ hfree hall := freshness_flip b t key hi h hvis hfree hall
  lost _ h := h.unflipped
  enqueue hi h _ hby hins := freshness_enqueue b t key hi h hby hins
  record hi h _ hby happ := by
    refine ⟨⟨⟨hi.engine.record hby happ, fun k u w hin hw => ?_, hi.answered⟩, fun u hne =>
      ⟨.record happ hne, fun _ _ _ hin _ => .inl hin⟩⟩, h.row, h.outbox⟩
    have hex := hi.exclusive k u w hin hw
    exact ⟨hex.pos, hex.inflight, hex.committed, hex.outbox_committed, hex.outbox_inflight⟩
  warn hi h hvis _ hfree := freshness_warn b t key hi h hvis hfree
  quiet _ h := h.unflipped

end Outline

/-! ## the end of a transaction -/

theorem FreshPost.queued {o : Outcome} (h : FreshPost b t o d)
    (hin : d.states.inflight k = some (t, row)) (hby : row.bumpedBy = some t) :
    ∃ o, d.outbox.inflight (decisionKey b row.lastPublishedVersion) = some (t, o) := by
  cases o with
  | decided tr v =>
      have henq : Enqueued b t v d := h
      rw [henq.row k row hin hby]
      exact henq.outbox
  | lost => exact absurd hby (h k row hin)
  | warned pct => exact absurd hby (h k row hin)
  | quiet => exact absurd hby (h k row hin)

/-- A flip that is committed is the newest for everybody. -/
theorem FreshnessInv.commit {o : Outcome} (hi : FreshnessInv b d) (h : FreshPost b t o d) :
    FreshnessInv b (Database.commit t d) where
  engine := hi.engine.commit
  exclusive k u w hin hw := by
    obtain ⟨hin, hne⟩ := inflight_commit_eq_some.mp hin
    have hex := hi.exclusive k u w hin hw
    refine ⟨hex.pos, fun k' t' w' hk' hin' => ?_, fun k' w' hw' => ?_, ?_, fun t' o' ho' => ?_⟩
    · exact hex.inflight k' t' w' hk' (inflight_commit_eq_some.mp hin').1
    · rcases visible_cases d.states t k' with ⟨r, hr, hvis⟩ | ⟨_, hvis⟩
      · have heq : r = w' := Option.some.inj (hvis.symm.trans hw')
        subst heq
        have hk' : k' ≠ k := by
          rintro rfl
          rw [hin, Option.some.injEq, Prod.mk.injEq] at hr
          exact hne hr.1
        exact hex.inflight k' t r hk' hr
      · exact hex.committed k' w' (hvis.symm.trans hw')
    · rcases visible_cases d.outbox t (decisionKey b w.lastPublishedVersion) with
        ⟨o', ho', _⟩ | ⟨_, hvis⟩
      · exact absurd (hex.outbox_inflight t o' ho').symm hne
      · exact hvis.trans hex.outbox_committed
    · exact hex.outbox_inflight t' o' (inflight_commit_eq_some.mp ho').1
  answered k row u hrow hu := by
    rcases visible_cases d.states t k with ⟨r, hr, hvis⟩ | ⟨_, hvis⟩
    · have heq : r = row := Option.some.inj (hvis.symm.trans hrow)
      subst heq
      by_cases hut : u = t
      · subst hut
        obtain ⟨o', ho'⟩ := h.queued hr hu
        exact ⟨o', visible_of_inflight ho', hi.engine.outbox_by _ _ _ ho'⟩
      · obtain ⟨row₀, hc, hby, hver⟩ := hi.engine.bumped_by k t r u hr hu hut
        obtain ⟨o', ho', hby'⟩ := hi.answered k row₀ u hc hby
        rw [hver] at ho'
        exact ⟨o', hi.engine.outbox.grows_commit t _ _ ho', hby'⟩
    · obtain ⟨o', ho', hby'⟩ := hi.answered k row u (hvis.symm.trans hrow) hu
      exact ⟨o', hi.engine.outbox.grows_commit t _ _ ho', hby'⟩

theorem FreshnessInv.rollback (hi : FreshnessInv b d) : FreshnessInv b (Database.rollback t d) where
  engine := hi.engine.rollback
  exclusive k u w hin hw := by
    obtain ⟨hin, _⟩ := inflight_rollback_eq_some.mp hin
    have hex := hi.exclusive k u w hin hw
    exact ⟨hex.pos,
      fun k' t' w' hk' hin' => hex.inflight k' t' w' hk' (inflight_rollback_eq_some.mp hin').1,
      hex.committed, hex.outbox_committed,
      fun t' o' ho' => hex.outbox_inflight t' o' (inflight_rollback_eq_some.mp ho').1⟩
  answered := hi.answered

theorem freshness_sound (pcts : List Nat) (b : BudgetDefinition) :
    (freshnessLogic b).Sound (budgetProg pcts b) where
  refl := FreshnessRely.refl
  trans := FreshnessRely.trans
  fresh_rely _ hr h := h.rely hr.engine
  ensures_rely := by
    intro t e o d d' _ hr h
    cases o with
    | decided tr v =>
        obtain ⟨row, hrow, hby⟩ := h.2
        exact ⟨h.1.rely hr.engine, row, hr.engine.outbox_grows _ _ hrow, hby⟩
    | lost => exact ⟨h.1.rely hr.engine, trivial⟩
    | warned pct => exact ⟨h.1.rely hr.engine, trivial⟩
    | quiet => exact ⟨h.1.rely hr.engine, trivial⟩
  undone_rely _ hr h := h.rely hr.engine
  body := by
    intro t e d _ hi h
    exact (freshnessOutline b t (stateKey b e.now) ⟨rfl, rfl⟩).wp (fun _ => rfl) rfl hi h
  commit := by
    intro t e o d hi h
    refine ⟨⟨hi.commit h, fun u hne => ⟨.commit hi.engine hne, fun k v row hin _ =>
      .inl (inflight_commit_eq_some.mp hin).1⟩⟩, Settled.commit t d, ?_⟩
    cases o with
    | decided tr v =>
        obtain ⟨row, hrow⟩ := Enqueued.outbox h
        exact ⟨row, visible_of_inflight hrow, hi.engine.outbox_by _ _ _ hrow⟩
    | lost => trivial
    | warned pct => trivial
    | quiet => trivial
  rollback := by
    intro t d hi
    exact ⟨⟨hi.rollback, fun u hne => ⟨.rollback hne, fun k v row hin _ =>
      .inl (inflight_rollback_eq_some.mp hin).1⟩⟩, Settled.rollback t d⟩

/-! ## fresh decisions -/

/-- Every decision has an outbox row of its own. -/
structure DecisionsFresh (b : BudgetDefinition) (s : BudgetSys) : Prop where
  /-- a transition that returned `v` has inserted a new row with version `v` -/
  inserted : ∀ t e tr v, s.procs t = .running e (.pure (.decided tr v)) →
    ∃ row, s.db.outbox.inflight (decisionKey b v) = some (t, row)
  /-- and has committed it -/
  committed : ∀ t e tr v, s.procs t = .committed e (.decided tr v) →
    ∃ row, s.db.outbox.committed (decisionKey b v) = some row ∧ row.insertedBy = t
  /-- the committed versions are pairwise distinct -/
  distinct : ∀ t t' e e' tr tr' v, s.procs t = .committed e (.decided tr v) →
    s.procs t' = .committed e' (.decided tr' v) → t = t'
  /-- no committed flip of a state row is without its own outbox row -/
  answered : ∀ k row t, s.db.states.committed k = some row → row.bumpedBy = some t →
    ∃ o, s.db.outbox.committed (decisionKey b row.lastPublishedVersion) = some o ∧ o.insertedBy = t

/-- The steps of a schedule that flip a row flip one with the newest version. -/
def StepFlipsNewest (s : BudgetSys) (a : Action Evaluation) (s' : BudgetSys) : Prop :=
  ∀ t, a = .exec t → FlipsNewest t s.db s'.db

theorem freshness_ok_init (b : BudgetDefinition) : (freshnessLogic b).Ok BudgetSys.init where
  inv := ⟨engineInv_empty b, by intro k t row h; contradiction, by intro k row t h; contradiction⟩
  procs t := engineFresh_empty t

/-- **Fresh decisions**: along every schedule whose transitions all find the newest
version in their own row, each decision is published under a version of its own. -/
theorem decisions_fresh (pcts : List Nat) (b : BudgetDefinition) (as : List (Action Evaluation))
    (s : BudgetSys) (hrun : run (budgetProg pcts b) BudgetSys.init as = some s)
    (hnew : EveryStep (budgetProg pcts b) StepFlipsNewest BudgetSys.init as) :
    DecisionsFresh b s := by
  have hpermits : EveryStep (budgetProg pcts b) (freshnessLogic b).Permits BudgetSys.init as := by
    refine hnew.mono fun s₁ a s₂ h => ?_
    cases a with
    | begin t e => trivial
    | exec t => exact h t rfl
    | commit t => trivial
    | abort t => trivial
  have hok := (freshness_sound pcts b).run (freshness_ok_init b) hpermits hrun
  have hcommitted : ∀ t e tr v, s.procs t = .committed e (.decided tr v) →
      ∃ row, s.db.outbox.committed (decisionKey b v) = some row ∧ row.insertedBy = t := by
    intro t e tr v ht
    have := hok.procs t
    rw [ht] at this
    exact this.2
  refine ⟨fun t e tr v ht => ?_, hcommitted, fun t t' e e' tr tr' v ht ht' => ?_, hok.inv.answered⟩
  · have hwp := hok.procs t
    rw [ht] at hwp
    exact Enqueued.outbox (hwp s.db hok.inv (FreshnessRely.refl t s.db))
  · obtain ⟨row, hrow, hby⟩ := hcommitted t e tr v ht
    obtain ⟨row', hrow', hby'⟩ := hcommitted t' e' tr' v ht'
    rw [hrow, Option.some.injEq] at hrow'
    rw [← hby, ← hby', hrow']

/-! ## schedules to look at -/

section Sample

def sampleBudget : BudgetDefinition where
  budgetId := "55555555-5555-4555-8555-555555555555"
  tenantId := sampleTenant
  scope := .tenant
  teamId := "22222222-2222-4222-8222-222222222222"
  projectId := "33333333-3333-4333-8333-333333333333"
  agentId := "billing-agent"
  period := .daily
  limitTokens := none
  limitCostCents := some 100
  currency := "USD"
  policyId := "66666666-6666-4666-8666-666666666666"

def sampleDebit (timestamp : DateTime) : EntryRow where
  txnId := "77777777-7777-4777-8777-777777777777"
  tenantId := sampleTenant
  accountId := "1c296fe9-a534-55f6-927c-4f2214ef3bec"
  direction := .debit
  amountMinorUnits := 700
  currency := "USD"
  teamId := "22222222-2222-4222-8222-222222222222"
  projectId := "33333333-3333-4333-8333-333333333333"
  agentId := "billing-agent"
  timestamp := timestamp

def sampleLedger : LedgerView where
  entries := [sampleDebit sampleTime, sampleDebit sampleNextDay]
  account _ := some ⟨sampleTenant, .expense, "USD", "AI Spend Expense (USD)"⟩

def evaluationAt (now : DateTime) : Evaluation := ⟨some 100, sampleLedger, now⟩

/-- One evaluation, alone: it reads the seed, inserts and reads its row, flips it,
queues the decision and records it. -/
def evaluationSteps (t : Txn) (now : DateTime) : List (Action Evaluation) :=
  [.begin t (evaluationAt now), .exec t, .exec t, .exec t, .exec t, .exec t, .exec t, .commit t]

/-- Two evaluations around midnight: the second one reads its seed before the first
has committed. -/
def midnightSchedule : List (Action Evaluation) :=
  [.begin 1 (evaluationAt sampleTime), .exec 1, .exec 1, .exec 1, .exec 1, .exec 1, .exec 1,
    .begin 2 (evaluationAt sampleNextDay), .exec 2, .exec 2, .exec 2, .exec 2,
    .commit 1, .exec 2, .exec 2, .commit 2]

/-- What the two evaluations returned, the state of the second bucket, and who
inserted the outbox row of version 1. -/
def midnightReport (s : BudgetSys) :
    Option Outcome × Option Outcome × Option EnforcementState × Option Txn :=
  ((s.procs 1).result, (s.procs 2).result,
    (s.db.states.committed (stateKey sampleBudget sampleNextDay)).map StateRow.state,
    (s.db.outbox.committed (decisionKey sampleBudget 1)).map DecisionRow.insertedBy)

/-- Both buckets flip to version 1; the decision of the second is not published. -/
theorem versions_reused : ∃ s,
    run (budgetProg [80, 95] sampleBudget) BudgetSys.init midnightSchedule = some s ∧
      midnightReport s = (some (.decided .enforce 1), some (.decided .enforce 1), some .enforced, some 1) ∧
      ¬ DecisionsFresh sampleBudget s := by
  have hrun : (run (budgetProg [80, 95] sampleBudget) BudgetSys.init midnightSchedule).map
      midnightReport =
        some (some (.decided .enforce 1), some (.decided .enforce 1), some .enforced, some 1) := by
    decide +kernel
  obtain ⟨s, hs, hreport⟩ := Option.map_eq_some_iff.mp hrun
  refine ⟨s, hs, hreport, fun hfresh => ?_⟩
  simp only [midnightReport, Prod.mk.injEq] at hreport
  obtain ⟨e, he⟩ := Proc.result_eq_some hreport.1
  obtain ⟨e', he'⟩ := Proc.result_eq_some hreport.2.1
  have : (1 : Nat) = 2 := hfresh.distinct 1 2 e e' _ _ 1 he he'
  contradiction

/-- `FlipsNewest`, evaluated over the keys of the table. -/
def flipsNewest (t : Txn) (d d' : BudgetDb) : Bool :=
  d'.states.keys.all fun k =>
    match d.states.visible t k, d'.states.version t k with
    | some row, some row' =>
        row'.lastPublishedVersion = row.lastPublishedVersion ||
          d.states.keys.all fun k' => (d.states.newest k').all fun w =>
            w.lastPublishedVersion ≤ row.lastPublishedVersion
    | _, _ => true

theorem FlipsNewest.of_eval {d : BudgetDb} (h : flipsNewest t d d' = true) :
    FlipsNewest t d d' := by
  intro k row row' hvis hin hne k' w hw
  have hk : k ∈ d'.states.keys := by
    by_contra hk
    rw [(d'.states.complete k hk).2] at hin
    contradiction
  have hk' : k' ∈ d.states.keys := by
    by_contra hk'
    simp [newest, d.states.complete k' hk'] at hw
  have hrow := List.all_eq_true.mp h k hk
  rw [hvis, version_eq_some.mpr hin] at hrow
  simp only [Bool.or_eq_true, decide_eq_true_eq] at hrow
  rcases hrow with heq | hall
  · exact absurd heq hne
  · have := List.all_eq_true.mp hall k' hk'
    simpa [hw] using this

/-- Evaluations of two days, one after the other. -/
def twoDaySchedule : List (Action Evaluation) :=
  evaluationSteps 1 sampleTime ++ evaluationSteps 2 sampleNextDay

theorem decisions_fresh_two_days : ∃ s,
    run (budgetProg [80, 95] sampleBudget) BudgetSys.init twoDaySchedule = some s ∧
      (s.procs 2).result = some (.decided .enforce 2) ∧ DecisionsFresh sampleBudget s := by
  have hrun : (run (budgetProg [80, 95] sampleBudget) BudgetSys.init twoDaySchedule).map
      (fun s => (s.procs 2).result) = some (some (.decided .enforce 2)) := by
    decide +kernel
  obtain ⟨s, hs, hres⟩ := Option.map_eq_some_iff.mp hrun
  refine ⟨s, hs, hres, decisions_fresh _ _ _ s hs (EveryStep.of_eval
    (p := fun s₁ a s₂ => flipsNewest a.txn s₁.db s₂.db) ?_ (by decide +kernel))⟩
  rintro s₁ a s₂ h t rfl
  exact FlipsNewest.of_eval h

end Sample

end Anoryx.Delta
