import Anoryx.Alternation
import Anoryx.Delta.BudgetFreshness

/-!
# Anoryx.Delta.BudgetBucket

The enforcement state machine of one period bucket.

As long as all evaluations fall into one bucket, the bucket's row is the only
state row that moves, and its lock serialises everything an evaluation writes.
The row and the decisions queued since the bucket began are then a switch and
the log of its flips (`Alternation.InStep`): a transaction that holds the row
sees them in step, and so does everyone after its commit.
-/

namespace Anoryx.Delta

open ReadCommitted Alternation Table

/-! ## a bucket and its decisions -/

def DecisionRow.isEnforce (o : DecisionRow) : Bool := o.transition = .enforce

def StateRow.isEnforced (row : StateRow) : Bool := row.state = .enforced

/-- What a reader finds of a bucket, its row and the decisions by version, is in
step; without a row nothing has been decided since `base`. -/
structure Coherent (base : Nat) (row : Option StateRow) (log : Nat → Option DecisionRow) :
    Prop where
  nothing : row = none → ∀ v, base < v → log v = none
  inStep : ∀ r, row = some r →
    InStep DecisionRow.isEnforce base r.lastPublishedVersion r.isEnforced log

/-- The bucket as transaction `t` sees it. -/
def SeesCoherent (b : BudgetDefinition) (key : StateKey) (base : Nat) (t : Txn) (d : BudgetDb) :
    Prop :=
  Coherent base (d.states.visible t key) fun v => d.outbox.visible t (decisionKey b v)

/-- What holds between any two statements of evaluations of the bucket. -/
structure BucketInv (b : BudgetDefinition) (key : StateKey) (base : Nat) (d : BudgetDb) :
    Prop where
  engine : EngineInv b d
  /-- no other bucket moves -/
  alone : ∀ k, k ≠ key → d.states.inflight k = none
  below : ∀ k row, k ≠ key → d.states.committed k = some row → row.lastPublishedVersion ≤ base
  attained : base = 0 ∨ ∃ k row, k ≠ key ∧ d.states.committed k = some row ∧
    row.lastPublishedVersion = base
  above : ∀ v t o, d.outbox.inflight (decisionKey b v) = some (t, o) → base < v
  coherent : Coherent base (d.states.committed key) fun v => d.outbox.committed (decisionKey b v)
  audited : ∀ v o, base < v → d.outbox.committed (decisionKey b v) = some o →
    ∃ h, d.history.committed.filter (fun r => r.insertedBy = o.insertedBy) = [h] ∧
      h.action = o.transition
  warned_mono : ∀ t row row' q, d.states.committed key = some row →
    d.states.inflight key = some (t, row') → row.lastWarnedPct = some q →
    ∃ q', row'.lastWarnedPct = some q' ∧ q ≤ q'

/-- What an evaluation `u` of the bucket may rely on. -/
structure BucketRely (b : BudgetDefinition) (key : StateKey) (base : Nat) (u : Txn)
    (d d' : BudgetDb) : Prop where
  engine : EngineRely u d d'
  /-- the row lock keeps the committed row -/
  row : ∀ r, d.states.inflight key = some (u, r) →
    d'.states.committed key = d.states.committed key
  /-- and nobody else publishes -/
  log : ∀ r, d.states.inflight key = some (u, r) → ∀ v,
    d'.outbox.committed (decisionKey b v) = d.outbox.committed (decisionKey b v)
  /-- the decisions of the buckets before stay -/
  past : ∀ v, v ≤ base →
    d'.outbox.committed (decisionKey b v) = d.outbox.committed (decisionKey b v)
  warned : ∀ r q, d.states.committed key = some r → r.lastWarnedPct = some q →
    ∃ r' q', d'.states.committed key = some r' ∧ r'.lastWarnedPct = some q' ∧ q ≤ q'

variable {d₁ d₂ d₃ d₀ : BudgetDb} {v pct m i base : Nat} {x : Bool}
  {states : Table StateKey StateRow} {outbox : Table DecisionKey DecisionRow} {h r : HistoryRow}
  {history : Log HistoryRow} {l pcts : List Nat} {now : DateTime} {s : BudgetSys}

section Bucket

variable {b : BudgetDefinition} {key : StateKey} {base : Nat} {t u : Txn} {d d' : BudgetDb}

theorem BucketRely.refl (b : BudgetDefinition) (key : StateKey) (base : Nat) (u : Txn)
    (d : BudgetDb) : BucketRely b key base u d d where
  engine := .refl u d
  row _ _ := rfl
  log _ _ _ := rfl
  past _ _ := rfl
  warned r q hr hq := ⟨r, q, hr, hq, Nat.le_refl _⟩

theorem BucketRely.trans (h₁ : BucketRely b key base u d₁ d₂) (h₂ : BucketRely b key base u d₂ d₃) :
    BucketRely b key base u d₁ d₃ where
  engine := h₁.engine.trans h₂.engine
  row r hr := (h₂.row r ((h₁.engine.states.inflight key r).mp hr)).trans (h₁.row r hr)
  log r hr v := (h₂.log r ((h₁.engine.states.inflight key r).mp hr) v).trans (h₁.log r hr v)
  past v hv := (h₂.past v hv).trans (h₁.past v hv)
  warned r q hr hq := by
    obtain ⟨r', q', hr', hq', hle⟩ := h₁.warned r q hr hq
    obtain ⟨r'', q'', hr'', hq'', hle'⟩ := h₂.warned r' q' hr' hq'
    exact ⟨r'', q'', hr'', hq'', Nat.le_trans hle hle'⟩

variable {o : DecisionRow}

theorem BucketInv.holds_row (hi : BucketInv b key base d)
    (ho : d.outbox.inflight (decisionKey b v) = some (t, o)) :
    ∃ row, d.states.inflight key = some (t, row) := by
  obtain ⟨k, row, hin, _⟩ := hi.engine.published_inflight v t o ho
  by_cases hk : k = key
  · exact ⟨row, hk ▸ hin⟩
  · rw [hi.alone k hk] at hin
    contradiction

theorem BucketInv.seesCoherent (hi : BucketInv b key base d)
    (hno : ∀ row, d.states.inflight key ≠ some (t, row)) : SeesCoherent b key base t d := by
  have hlog : (fun v => d.outbox.visible t (decisionKey b v)) =
      fun v => d.outbox.committed (decisionKey b v) := by
    funext v
    refine visible_of_no_inflight fun o ho => ?_
    obtain ⟨row, hrow⟩ := hi.holds_row ho
    exact hno row hrow
  rw [SeesCoherent, visible_of_no_inflight hno, hlog]
  exact hi.coherent

variable {row : StateRow}

theorem BucketRely.visible_log (hr : BucketRely b key base t d d')
    (hrow : d.states.inflight key = some (t, row)) (v : Nat) :
    d'.outbox.visible t (decisionKey b v) = d.outbox.visible t (decisionKey b v) :=
  hr.engine.outbox.visible_eq (hr.log row hrow v)

theorem SeesCoherent.rely (hi : BucketInv b key base d') (hr : BucketRely b key base t d d')
    (h : SeesCoherent b key base t d) : SeesCoherent b key base t d' := by
  rcases visible_cases d.states t key with ⟨row, hrow, _⟩ | ⟨hno, _⟩
  · have hlog := funext (hr.visible_log hrow)
    rw [SeesCoherent, hlog, hr.engine.states.visible_eq (hr.row row hrow)]
    exact h
  · exact hi.seesCoherent fun row hrow => hno row ((hr.engine.states.inflight key row).mpr hrow)

/-! ## statements -/

theorem BucketRely.of_committed (he : EngineRely u d d')
    (hs : d'.states.committed = d.states.committed)
    (ho : d'.outbox.committed = d.outbox.committed) : BucketRely b key base u d d' where
  engine := he
  row _ _ := congrFun hs key
  log _ _ v := congrFun ho (decisionKey b v)
  past v _ := congrFun ho (decisionKey b v)
  warned r q hr hq := ⟨r, q, (congrFun hs key).trans hr, hq, Nat.le_refl _⟩

theorem BucketInv.of_committed (hi : BucketInv b key base d) (he : EngineInv b d')
    (hs : d'.states.committed = d.states.committed)
    (ho : d'.outbox.committed = d.outbox.committed)
    (hh : d'.history.committed = d.history.committed)
    (alone : ∀ k, k ≠ key → d'.states.inflight k = none)
    (above : ∀ v t o, d'.outbox.inflight (decisionKey b v) = some (t, o) → base < v)
    (warned : ∀ t row row' q, d.states.committed key = some row →
      d'.states.inflight key = some (t, row') → row.lastWarnedPct = some q →
      ∃ q', row'.lastWarnedPct = some q' ∧ q ≤ q') : BucketInv b key base d' where
  engine := he
  alone := alone
  below := by
    rw [hs]
    exact hi.below
  attained := by
    rw [hs]
    exact hi.attained
  above := above
  coherent := by
    rw [hs, ho]
    exact hi.coherent
  audited := by
    rw [ho, hh]
    exact hi.audited
  warned_mono := by
    rw [hs]
    exact warned

theorem BucketInv.insertState (hi : BucketInv b key base d) (hkey : OfBudget b key)
    (hby : row.bumpedBy = none) (hins : d.states.insertOrIgnore t key row = some (x, states)) :
    BucketInv b key base { d with states } := by
  refine hi.of_committed (hi.engine.insertState hkey hby hins)
    (committed_insertOrIgnore hins) rfl rfl ?_ hi.above ?_
  · intro k hk
    rcases insertOrIgnore_cases hins with ⟨_, rfl, _⟩ | ⟨_, rfl, _⟩
    · exact hi.alone k hk
    · exact (inflight_write_of_ne hk).trans (hi.alone k hk)
  · intro t' r r' q hr hr' hq
    rcases insertOrIgnore_cases hins with ⟨_, rfl, _⟩ | ⟨_, rfl, _, hnone⟩
    · exact hi.warned_mono t' r r' q hr hr' hq
    · rw [hnone] at hr
      contradiction

theorem BucketInv.putState (hi : BucketInv b key base d) {row row' : StateRow}
    (he : EngineInv b (d.putState t key row')) (hvis : d.states.visible t key = some row)
    (hband : ∀ q, row.lastWarnedPct = some q → ∃ q', row'.lastWarnedPct = some q' ∧ q ≤ q') :
    BucketInv b key base (d.putState t key row') := by
  refine hi.of_committed he rfl rfl rfl ?_ hi.above ?_
  · intro k hk
    exact (inflight_write_of_ne hk).trans (hi.alone k hk)
  · intro t' r r' q hr hr' hq
    simp only [BudgetDb.putState, inflight_write_self, Option.some.injEq,
      Prod.mk.injEq] at hr'
    obtain ⟨rfl, rfl⟩ := hr'
    rcases visible_cases d.states t key with ⟨w, hw, hvis'⟩ | ⟨_, hvis'⟩
    · rw [hvis', Option.some.injEq] at hvis
      obtain ⟨q₁, hq₁, hle⟩ := hi.warned_mono t r w q hr hw hq
      obtain ⟨q₂, hq₂, hle'⟩ := hband q₁ (hvis ▸ hq₁)
      exact ⟨q₂, hq₂, Nat.le_trans hle hle'⟩
    · rw [hvis', hr, Option.some.injEq] at hvis
      exact hband q (hvis ▸ hq)

theorem BucketInv.enqueue (hi : BucketInv b key base d)
    (hrow : d.states.inflight key = some (t, row)) (hv : v ≤ row.lastPublishedVersion)
    (hbase : base < v) (hby : o.insertedBy = t)
    (hins : d.outbox.insertOrIgnore t (decisionKey b v) o = some (x, outbox)) :
    BucketInv b key base { d with outbox } := by
  refine hi.of_committed (hi.engine.enqueue hrow hv hby hins) rfl
    (committed_insertOrIgnore hins) rfl hi.alone ?_ hi.warned_mono
  intro v' t' o' ho'
  rcases insertOrIgnore_cases hins with ⟨_, rfl, _⟩ | ⟨_, rfl, _⟩
  · exact hi.above v' t' o' ho'
  · by_cases hk : decisionKey b v' = decisionKey b v
    · have hv : v' = v := congrArg (fun p : DecisionKey => p.2.2) hk
      exact hv ▸ hbase
    · exact hi.above v' t' o' ((inflight_write_of_ne hk).symm.trans ho')

theorem BucketInv.record (hi : BucketInv b key base d) {x : Unit} (hby : h.insertedBy = t)
    (happ : d.history.append t h = some (x, history)) : BucketInv b key base { d with history } :=
  hi.of_committed (hi.engine.record hby happ) rfl rfl (Log.append_cases happ).1 hi.alone
    hi.above hi.warned_mono

/-! ## the program points of an evaluation -/

/-- Nothing has been published yet, and the bucket is seen in step. -/
structure Untold (b : BudgetDefinition) (key : StateKey) (base : Nat) (t : Txn) (d : BudgetDb) :
    Prop where
  outbox : ∀ k o, d.outbox.inflight k ≠ some (t, o)
  history : d.history.own t = []
  unused : Unused t d
  sees : SeesCoherent b key base t d

/-- A row the evaluation holds is the first of the bucket. -/
def HoldsFirst (key : StateKey) (t : Txn) (d : BudgetDb) : Prop :=
  ∀ row, d.states.inflight key = some (t, row) → d.states.committed key = none

/-- The row has been flipped to version `v`, one ahead of the decisions. -/
structure FlippedTo (b : BudgetDefinition) (key : StateKey) (base : Nat) (t : Txn)
    (tr : Transition) (v : Nat) (d : BudgetDb) : Prop where
  outbox : ∀ k o, d.outbox.inflight k ≠ some (t, o)
  history : d.history.own t = []
  unused : Unused t d
  row : ∃ row, d.states.inflight key = some (t, row) ∧ row.lastPublishedVersion = v ∧
    row.state = tr.toState
  behind : ∃ w, v = w + 1 ∧ InStep DecisionRow.isEnforce base w (tr.fromState = .enforced)
    fun v => d.outbox.visible t (decisionKey b v)

/-- The decision has been queued, and the history holds `told` of `t`. -/
structure Queued (b : BudgetDefinition) (key : StateKey) (base : Nat) (t : Txn) (tr : Transition)
    (told : List Transition) (d : BudgetDb) : Prop where
  outbox : ∀ k o, d.outbox.inflight k = some (t, o) → o.transition = tr
  history : (d.history.own t).map HistoryRow.action = told
  unused : Unused t d
  sees : SeesCoherent b key base t d

/-- The band of the row has been raised to `pct`, and nothing else has changed. -/
def Raised (key : StateKey) (t : Txn) (pct : Nat) (d : BudgetDb) : Prop :=
  ∃ row, d.states.inflight key = some (t, row) ∧ row.lastWarnedPct = some pct ∧
    ∀ row₀, d.states.committed key = some row₀ →
      row.state = row₀.state ∧ row.lastPublishedVersion = row₀.lastPublishedVersion ∧
        row.enforcedPolicyVersion = row₀.enforcedPolicyVersion ∧
        row₀.lastWarnedPct.all (· < pct) = true

/-- The end of an evaluation. -/
def BucketPost (b : BudgetDefinition) (key : StateKey) (base : Nat) (t : Txn) :
    Outcome → BudgetDb → Prop
  | .decided tr _, d => Queued b key base t tr [tr] d
  | .lost, d => Untold b key base t d
  | .warned pct, d => Untold b key base t d ∧ Raised key t pct d
  | .quiet, d => Untold b key base t d

/-- A committed warning stays on record, or is overtaken by a higher one. -/
def BucketEnsures (b : BudgetDefinition) (key : StateKey) (t : Txn) (e : Evaluation) :
    Outcome → BudgetDb → Prop
  | .warned pct, d => Settled t d ∧ (stateKey b e.now = key →
      ∃ row q, d.states.committed key = some row ∧ row.lastWarnedPct = some q ∧ pct ≤ q)
  | _, d => Settled t d

theorem Untold.rely (hi : BucketInv b key base d') (hr : BucketRely b key base t d d')
    (h : Untold b key base t d) : Untold b key base t d' where
  outbox k o ho := h.outbox k o ((hr.engine.outbox.inflight k o).mpr ho)
  history := hr.engine.history.trans h.history
  unused := hr.engine.unused h.unused
  sees := h.sees.rely hi hr

theorem HoldsFirst.rely (hr : BucketRely b key base t d d') (h : HoldsFirst key t d) :
    HoldsFirst key t d' := by
  intro row hrow
  have hold := (hr.engine.states.inflight key row).mpr hrow
  exact (hr.row row hold).trans (h row hold)

variable {tr : Transition}

theorem FlippedTo.base_lt (h : FlippedTo b key base t tr v d) : base < v := by
  obtain ⟨w, rfl, hstep⟩ := h.behind
  exact Nat.lt_succ_of_le hstep.le

theorem FlippedTo.rely (hr : BucketRely b key base t d d') (h : FlippedTo b key base t tr v d) :
    FlippedTo b key base t tr v d' := by
  obtain ⟨row, hrow, hrest⟩ := h.row
  refine ⟨fun k o ho => h.outbox k o ((hr.engine.outbox.inflight k o).mpr ho),
    hr.engine.history.trans h.history, hr.engine.unused h.unused,
    ⟨row, (hr.engine.states.inflight key row).mp hrow, hrest⟩, ?_⟩
  obtain ⟨w, hw, hstep⟩ := h.behind
  exact ⟨w, hw, hstep.congr fun v _ => hr.visible_log hrow v⟩

theorem Queued.rely {told : List Transition} (hi : BucketInv b key base d')
    (hr : BucketRely b key base t d d') (h : Queued b key base t tr told d) :
    Queued b key base t tr told d' where
  outbox k o ho := h.outbox k o ((hr.engine.outbox.inflight k o).mpr ho)
  history := by
    rw [hr.engine.history]
    exact h.history
  unused := hr.engine.unused h.unused
  sees := h.sees.rely hi hr

theorem Raised.rely (hr : BucketRely b key base t d d') (h : Raised key t pct d) :
    Raised key t pct d' := by
  obtain ⟨row, hrow, hpct, hold⟩ := h
  refine ⟨row, (hr.engine.states.inflight key row).mp hrow, hpct, ?_⟩
  rw [hr.row row hrow]
  exact hold

theorem BucketPost.rely {o : Outcome} (hi : BucketInv b key base d') (hr : BucketRely b key base t d d')
    (h : BucketPost b key base t o d) : BucketPost b key base t o d' := by
  cases o with
  | decided tr v => exact Queued.rely hi hr h
  | lost => exact Untold.rely hi hr h
  | warned pct => exact ⟨h.1.rely hi hr, h.2.rely hr⟩
  | quiet => exact Untold.rely hi hr h

theorem max?_getD_eq (hle : ∀ v ∈ l, v ≤ m) (hm : m = 0 ∨ m ∈ l) : l.max?.getD 0 = m := by
  cases hmax : l.max? with
  | none =>
      rcases hm with h0 | hm
      · exact h0.symm
      · rw [List.max?_eq_none_iff.mp hmax] at hm
        contradiction
  | some v =>
      obtain ⟨hv, hall⟩ := List.max?_eq_some_iff.mp hmax
      rcases hm with h0 | hm
      · exact (Nat.le_zero.mp (h0 ▸ hle v hv)).trans h0.symm
      · exact Nat.le_antisymm (hle v hv) (hall m hm)

theorem BucketInv.seedVersion_eq (hi : BucketInv b key base d) (hkey : OfBudget b key)
    (hfresh : Settled t d) (hnone : d.states.committed key = none) :
    seedVersion key.1 key.2.1 t d = base := by
  have hvis : ∀ k, d.states.visible t k = d.states.committed k :=
    fun k => visible_of_no_inflight (hfresh.states k)
  refine max?_getD_eq (fun v hv => ?_) (hi.attained.imp_right ?_)
  · obtain ⟨⟨k, row⟩, hp, rfl⟩ := List.mem_map.mp hv
    have hrow := (hvis k).symm.trans (mem_scan.mp (List.mem_filter.mp hp).1)
    refine hi.below k row ?_ hrow
    rintro rfl
    rw [hnone] at hrow
    contradiction
  · rintro ⟨k, row, _, hrow, rfl⟩
    obtain ⟨h₁, h₂⟩ := hi.engine.key_committed k row hrow
    refine List.mem_map.mpr ⟨(k, row), List.mem_filter.mpr ⟨?_, ?_⟩, rfl⟩
    · exact mem_scan.mpr ((hvis k).trans hrow)
    · simp [h₁, h₂, hkey.1, hkey.2]

/-! ## the specification of a bucket -/

/-- Evaluations of one bucket, the other buckets standing at `base`. -/
def bucketLogic (b : BudgetDefinition) (key : StateKey) (base : Nat) :
    Logic BudgetDb Evaluation Outcome where
  inv := BucketInv b key base
  rely := BucketRely b key base
  fresh := EngineFresh
  post t _ := BucketPost b key base t
  ensures t e := BucketEnsures b key t e
  undone := Settled
  admits e := stateKey b e.now = key

theorem bucket_insert (hkey : OfBudget b key) {s : Nat} (hi : BucketInv b key base d)
    (hfresh : EngineFresh t d) (hs : d.states.committed key = none → s = base)
    (hins : d.states.insertOrIgnore t key (newStateRow s now) = some (x, states)) :
    Untold b key base t { d with states } ∧ HoldsFirst key t { d with states } := by
  have hi' := hi.insertState hkey rfl hins
  have hunused : Unused t { d with states } :=
    ⟨by simpa only [committed_insertOrIgnore hins] using hfresh.unused.states,
      hfresh.unused.outbox, hfresh.unused.history⟩
  rcases insertOrIgnore_cases hins with ⟨_, rfl, _⟩ | ⟨_, rfl, _, hnone⟩
  · exact ⟨⟨hfresh.outbox, hfresh.history, hunused, hi.seesCoherent (hfresh.states key)⟩,
      fun row hrow => absurd hrow (hfresh.states key row)⟩
  · refine ⟨⟨hfresh.outbox, hfresh.history, hunused, ?_⟩, fun _ _ => hnone⟩
    refine ⟨fun h => ?_, fun r hr => ?_⟩
    · simp at h
    · simp only [visible_write_self, Option.some.injEq] at hr
      subst hr
      rw [newStateRow, hs hnone]
      refine InStep.start fun v hv => ?_
      rw [visible_of_no_inflight (hfresh.outbox _)]
      exact hi.coherent.nothing hnone v hv

theorem bucket_flip (h : Untold b key base t d) (hvis : d.states.visible t key = some row)
    (hstate : row.state = tr.fromState) :
    FlippedTo b key base t tr (row.lastPublishedVersion + 1)
      (d.putState t key (tr.apply row now t)) where
  outbox := h.outbox
  history := h.history
  unused := ⟨h.unused.states, h.unused.outbox, h.unused.history⟩
  row := ⟨_, inflight_write_self _ _ _ _, rfl, rfl⟩
  behind := by
    refine ⟨row.lastPublishedVersion, rfl, ?_⟩
    have hstep := h.sees.inStep row hvis
    rw [StateRow.isEnforced, hstate] at hstep
    exact hstep

theorem bucket_enqueue (h : FlippedTo b key base t tr v d) (htr : o.transition = tr)
    (hins : d.outbox.insertOrIgnore t (decisionKey b v) o = some (x, outbox)) :
    Queued b key base t tr [] { d with outbox } := by
  obtain ⟨row, hrow, hver, hstate⟩ := h.row
  obtain ⟨w, rfl, hstep⟩ := h.behind
  rcases insertOrIgnore_cases hins with ⟨_, _, o', ho'⟩ | ⟨_, rfl, _, _⟩
  · rw [hstep.beyond (w + 1) (Nat.lt_succ_self w)] at ho'
    contradiction
  refine ⟨fun k o' ho' => ?_, ?_, ⟨h.unused.states, h.unused.outbox, h.unused.history⟩, ?_⟩
  · rcases inflight_write_cases ho' with ⟨-, -, rfl⟩ | ⟨-, ho'⟩
    · exact htr
    · exact absurd ho' (h.outbox k o')
  · simp [h.history]
  · have hvis : d.states.visible t key = some row := visible_of_inflight hrow
    refine ⟨fun hnone => ?_, fun r hr => ?_⟩
    · rw [hvis] at hnone
      contradiction
    · have heq : row = r := Option.some.inj (hvis.symm.trans hr)
      subst heq
      have hon : o.isEnforce = !decide (tr.fromState = .enforced) := by
        rw [DecisionRow.isEnforce, htr]
        cases tr <;> rfl
      have hto : row.isEnforced = !decide (tr.fromState = .enforced) := by
        rw [StateRow.isEnforced, hstate]
        cases tr <;> rfl
      rw [hver, hto]
      refine hstep.flip hon (visible_write_self _ _ _ _) fun v hv => ?_
      refine visible_write_of_ne fun he => hv ?_
      exact congrArg (fun p : DecisionKey => p.2.2) he

theorem bucket_record {x : Unit} (h : Queued b key base t tr [] d) (haction : r.action = tr)
    (happ : d.history.append t r = some (x, history)) :
    Queued b key base t tr [tr] { d with history } where
  outbox := h.outbox
  history := by
    rw [Log.own_append_self happ, List.map_append, h.history]
    simp [haction]
  unused := ⟨h.unused.states, h.unused.outbox, by
    simpa only [(Log.append_cases happ).1] using h.unused.history⟩
  sees := h.sees

theorem bucket_warn (h : Untold b key base t d) (hfirst : HoldsFirst key t d)
    (hvis : d.states.visible t key = some row) (hp : row.lastWarnedPct.all (· < pct) = true) :
    BucketPost b key base t (.warned pct) (d.putState t key (row.warn pct now)) := by
  refine ⟨⟨h.outbox, h.history, ⟨h.unused.states, h.unused.outbox, h.unused.history⟩, ?_⟩, ?_⟩
  · refine ⟨fun hnone => ?_, fun r hr => ?_⟩
    · simp [BudgetDb.putState] at hnone
    · simp only [BudgetDb.putState, visible_write_self, Option.some.injEq] at hr
      subst hr
      exact h.sees.inStep row hvis
  · refine ⟨row.warn pct now, inflight_write_self _ _ _ _, rfl, fun row₀ hrow₀ => ?_⟩
    rcases visible_cases d.states t key with ⟨w, hw, _⟩ | ⟨_, hvis'⟩
    · have hnone := hfirst w hw
      rw [BudgetDb.putState, committed_write, hnone] at hrow₀
      contradiction
    · have heq : row = row₀ := Option.some.inj (hvis.symm.trans (hvis'.trans hrow₀))
      subst heq
      exact ⟨rfl, rfl, rfl, hp⟩

/-- The proof outline of an evaluation of the bucket. -/
def bucketOutline (b : BudgetDefinition) (key : StateKey) (base : Nat) (t : Txn)
    (hkey : OfBudget b key) : EvaluationOutline (bucketLogic b key base) b t key where
  fresh := EngineFresh t
  seeded s d := EngineFresh t d ∧ (d.states.committed key = none → s = base)
  holding d := Untold b key base t d ∧ HoldsFirst key t d
  flipped := FlippedTo b key base t
  enqueued tr _ := Queued b key base t tr []
  post := BucketPost b key base t
  refl := BucketRely.refl b key base
  stable_fresh _ hr h := h.rely hr.engine
  stable_seeded _ hr h := by
    refine ⟨h.1.rely hr.engine, fun hnone => h.2 ?_⟩
    rw [Option.eq_none_iff_forall_ne_some]
    intro row hrow
    obtain ⟨row', hrow', _⟩ := hr.engine.version_mono key row hrow
    rw [hnone] at hrow'
    contradiction
  stable_holding hi hr h := ⟨h.1.rely hi hr, h.2.rely hr⟩
  stable_flipped _ hr h := h.rely hr
  stable_enqueued hi hr h := h.rely hi hr
  stable_post hi hr h := h.rely hi hr
  seed hi h := ⟨h, fun hnone => hi.seedVersion_eq hkey h.toSettled hnone⟩
  insert hi h hins :=
    ⟨⟨hi.insertState hkey rfl hins, fun _ hne => .of_committed (.insertState hins hne)
      (committed_insertOrIgnore hins) rfl⟩, bucket_insert hkey hi h.1 h.2 hins⟩
  flip hi h hvis hstate hfree _ := by
    refine ⟨⟨hi.putState ?_ hvis fun q hq => ⟨q, hq, Nat.le_refl _⟩,
      fun _ hne => .of_committed (.putState hfree hne) rfl rfl⟩, bucket_flip h.1 hvis hstate⟩
    exact hi.engine.putState hvis hfree (Nat.le_succ _) (.inl rfl)
  lost _ h := h.1
  enqueue hi h htr hby hins := by
    obtain ⟨row, hrow, hver, _⟩ := h.row
    exact ⟨⟨hi.enqueue hrow (Nat.le_of_eq hver.symm) h.base_lt hby hins, fun _ hne =>
      .of_committed (.enqueue hins hne) rfl (committed_insertOrIgnore hins)⟩,
      bucket_enqueue h htr hins⟩
  record hi h haction hby happ :=
    ⟨⟨hi.record hby happ, fun _ hne => .of_committed (.record happ hne) rfl rfl⟩,
      bucket_record h haction happ⟩
  warn {pct _ row _} hi h hvis hp hfree := by
    refine ⟨⟨hi.putState ?_ hvis fun q hq => ⟨pct, rfl, ?_⟩,
      fun _ hne => .of_committed (.putState hfree hne) rfl rfl⟩, bucket_warn h.1 h.2 hvis hp⟩
    · exact hi.engine.putState hvis hfree (Nat.le_refl _) (.inr ⟨rfl, rfl⟩)
    · rw [hq] at hp
      exact Nat.le_of_lt (by simpa using hp)
  quiet _ h := h.1

/-! ## the end of an evaluation -/

theorem BucketPost.sees {o : Outcome} (h : BucketPost b key base t o d) :
    SeesCoherent b key base t d := by
  cases o with
  | decided tr v => exact Queued.sees h
  | lost => exact Untold.sees h
  | warned pct => exact h.1.sees
  | quiet => exact Untold.sees h

theorem BucketPost.unused {o : Outcome} (h : BucketPost b key base t o d) : Unused t d := by
  cases o with
  | decided tr v => exact Queued.unused h
  | lost => exact Untold.unused h
  | warned pct => exact h.1.unused
  | quiet => exact Untold.unused h

theorem BucketPost.told {o : Outcome} {k : DecisionKey} {row : DecisionRow}
    (h : BucketPost b key base t o d) (hrow : d.outbox.inflight k = some (t, row)) :
    ∃ r, d.history.own t = [r] ∧ r.action = row.transition := by
  cases o with
  | decided tr v =>
      obtain ⟨r, hr, haction⟩ := List.map_eq_singleton_iff.mp (Queued.history h)
      exact ⟨r, hr, haction.trans (Queued.outbox h k row hrow).symm⟩
  | lost => exact absurd hrow (Untold.outbox h k row)
  | warned pct => exact absurd hrow (h.1.outbox k row)
  | quiet => exact absurd hrow (Untold.outbox h k row)

theorem filter_history_commit (hi : EngineInv b d) (w : Txn) :
    (d.history.commit t).committed.filter (fun r => r.insertedBy = w) =
      d.history.committed.filter (fun r => r.insertedBy = w) ++
        if w = t then d.history.own t else [] := by
  have hby : ∀ r ∈ d.history.own t, r.insertedBy = t := by
    intro r hr
    obtain ⟨⟨t', r'⟩, hmem, rfl⟩ := List.mem_map.mp hr
    obtain ⟨hmem, ht⟩ := List.mem_filter.mp hmem
    have ht : t' = t := of_decide_eq_true ht
    rw [hi.history_by t' r' hmem, ht]
  rw [Log.commit, List.filter_append]
  congr 1
  split
  · next hw =>
      refine List.filter_eq_self.mpr fun r hr => ?_
      simpa [hw] using hby r hr
  · next hw =>
      refine List.filter_eq_nil_iff.mpr fun r hr => ?_
      simpa [hby r hr] using fun he => hw he.symm

/-- An evaluation's outcome is committed with its row in the outbox. -/
theorem BucketInv.commit {o : Outcome} (hi : BucketInv b key base d)
    (h : BucketPost b key base t o d) : BucketInv b key base (Database.commit t d) where
  engine := hi.engine.commit
  alone k hk := by
    simp [Database.commit, Table.commit, Table.othersInflight, hi.alone k hk]
  below k row hk hrow :=
    hi.below k row hk ((visible_of_inflight_none (hi.alone k hk)).symm.trans hrow)
  attained := by
    refine hi.attained.imp_right ?_
    rintro ⟨k, row, hk, hrow, hbase⟩
    exact ⟨k, row, hk, (visible_of_inflight_none (hi.alone k hk)).trans hrow, hbase⟩
  above v t' o ho := hi.above v t' o (inflight_commit_eq_some.mp ho).1
  coherent := h.sees
  audited v row hv hrow := by
    change ∃ r, (d.history.commit t).committed.filter _ = [r] ∧ _
    rw [filter_history_commit hi.engine]
    rcases visible_cases d.outbox t (decisionKey b v) with ⟨row', hin, hvis⟩ | ⟨_, hvis⟩
    · have heq : row' = row := Option.some.inj (hvis.symm.trans hrow)
      subst heq
      rw [hi.engine.outbox_by _ _ _ hin, if_pos rfl]
      have hnil : d.history.committed.filter (fun r => r.insertedBy = t) = [] :=
        List.filter_eq_nil_iff.mpr fun r hr => by simpa using h.unused.history r hr
      rw [hnil]
      exact h.told hin
    · have hc := hvis.symm.trans hrow
      rw [if_neg (h.unused.outbox _ _ hc), List.append_nil]
      exact hi.audited v row hv hc
  warned_mono t' row row' q hrow hin hq := by
    obtain ⟨hin, hne⟩ := inflight_commit_eq_some.mp hin
    exact hi.warned_mono t' row row' q
      ((visible_of_inflight_ne hin hne).symm.trans hrow) hin hq

theorem BucketRely.commit (hi : BucketInv b key base d) (hne : u ≠ t) :
    BucketRely b key base u d (Database.commit t d) where
  engine := .commit hi.engine hne
  row r hr := visible_of_inflight_ne hr hne
  log r hr v := by
    refine visible_of_no_inflight fun o ho => ?_
    obtain ⟨row, hrow⟩ := hi.holds_row ho
    rw [hr, Option.some.injEq, Prod.mk.injEq] at hrow
    exact hne hrow.1
  past v hv :=
    visible_of_no_inflight fun o ho => Nat.not_lt.mpr hv (hi.above v t o ho)
  warned r q hr hq := by
    rcases visible_cases d.states t key with ⟨row, hrow, hvis⟩ | ⟨_, hvis⟩
    · obtain ⟨q', hq', hle⟩ := hi.warned_mono t r row q hr hrow hq
      exact ⟨row, q', hvis, hq', hle⟩
    · exact ⟨r, q, hvis.trans hr, hq, Nat.le_refl _⟩

theorem BucketInv.rollback (hi : BucketInv b key base d) :
    BucketInv b key base (Database.rollback t d) :=
  hi.of_committed hi.engine.rollback rfl rfl rfl
    (fun k hk => by
      simp [Database.rollback, Table.rollback, Table.othersInflight, hi.alone k hk])
    (fun v t' o ho => hi.above v t' o (Table.inflight_rollback_eq_some.mp ho).1)
    fun t' row row' q hrow hin hq =>
      hi.warned_mono t' row row' q hrow (inflight_rollback_eq_some.mp hin).1 hq

theorem BucketEnsures.settled {e : Evaluation} {o : Outcome} (h : BucketEnsures b key t e o d) :
    Settled t d := by
  cases o with
  | decided tr v => exact h
  | lost => exact h
  | warned pct => exact h.1
  | quiet => exact h

/-- Every evaluation keeps the bucket's alternation. -/
theorem bucket_sound (pcts : List Nat) (b : BudgetDefinition) (key : StateKey) (base : Nat)
    (hkey : OfBudget b key) : (bucketLogic b key base).Sound (budgetProg pcts b) where
  refl := BucketRely.refl b key base
  trans := BucketRely.trans
  fresh_rely _ hr h := h.rely hr.engine
  ensures_rely := by
    intro t e o d d' _ hr h
    have hset := h.settled.rely hr.engine
    cases o with
    | decided tr v => exact hset
    | lost => exact hset
    | warned pct =>
        refine ⟨hset, fun hk => ?_⟩
        obtain ⟨row, q, hrow, hq, hle⟩ := h.2 hk
        obtain ⟨row', q', hrow', hq', hle'⟩ := hr.warned row q hrow hq
        exact ⟨row', q', hrow', hq', Nat.le_trans hle hle'⟩
    | quiet => exact hset
  undone_rely _ hr h := h.rely hr.engine
  body := by
    intro t e d hadmits hi h
    exact (bucketOutline b key base t hkey).wp (fun _ => rfl) hadmits hi h
  commit := by
    intro t e o d hi h
    refine ⟨⟨hi.commit h, fun u hne => .commit hi hne⟩, ?_⟩
    cases o with
    | decided tr v => exact Settled.commit t d
    | lost => exact Settled.commit t d
    | warned pct =>
        obtain ⟨row, hrow, hpct, _⟩ := h.2
        exact ⟨Settled.commit t d, fun _ =>
          ⟨row, pct, visible_of_inflight hrow, hpct, Nat.le_refl _⟩⟩
    | quiet => exact Settled.commit t d
  rollback := by
    intro t d hi
    exact ⟨⟨hi.rollback, fun u hne => .of_committed (.rollback hne) rfl rfl⟩, Settled.rollback t d⟩

/-! ## the state machine -/

/-- The highest version over all buckets of the budget. -/
def newestVersion (b : BudgetDefinition) (d : BudgetDb) : Nat :=
  ((d.states.rows.filter fun p => p.1.1 = b.tenantId ∧ p.1.2.1 = b.budgetId).map
    fun p => p.2.lastPublishedVersion).max?.getD 0

theorem le_newestVersion (hi : EngineInv b d) {k : StateKey}
    (hrow : d.states.committed k = some row) : row.lastPublishedVersion ≤ newestVersion b d := by
  obtain ⟨h₁, h₂⟩ := hi.key_committed k row hrow
  have hmem : row.lastPublishedVersion ∈
      (d.states.rows.filter fun p => p.1.1 = b.tenantId ∧ p.1.2.1 = b.budgetId).map
        fun p => p.2.lastPublishedVersion :=
    List.mem_map.mpr ⟨(k, row), List.mem_filter.mpr ⟨mem_rows.mpr hrow, by simp [h₁, h₂]⟩, rfl⟩
  unfold newestVersion
  cases hmax : ((d.states.rows.filter fun p => p.1.1 = b.tenantId ∧ p.1.2.1 = b.budgetId).map
      fun p => p.2.lastPublishedVersion).max? with
  | none =>
      rw [List.max?_eq_none_iff.mp hmax] at hmem
      contradiction
  | some m => exact (List.max?_eq_some_iff.mp hmax).2 _ hmem

theorem newestVersion_attained (b : BudgetDefinition) (d : BudgetDb) :
    newestVersion b d = 0 ∨ ∃ k row, d.states.committed k = some row ∧
      row.lastPublishedVersion = newestVersion b d := by
  unfold newestVersion
  cases hmax : ((d.states.rows.filter fun p => p.1.1 = b.tenantId ∧ p.1.2.1 = b.budgetId).map
      fun p => p.2.lastPublishedVersion).max? with
  | none => exact .inl rfl
  | some m =>
      obtain ⟨⟨k, row⟩, hp, hm⟩ := List.mem_map.mp (List.max?_eq_some_iff.mp hmax).1
      exact .inr ⟨k, row, mem_rows.mp (List.mem_filter.mp hp).1, hm⟩

theorem settled_of_quiescent (hok : (engineLogic b).Ok s) (hq : s.quiescent) (t : Txn) :
    Settled t s.db := by
  have hproc := hok.procs t
  cases hp : s.procs t with
  | idle =>
      rw [hp] at hproc
      exact EngineFresh.toSettled hproc
  | running e p => exact absurd hp (hq t e p)
  | committed e o =>
      rw [hp] at hproc
      exact hproc.1
  | aborted =>
      rw [hp] at hproc
      exact hproc

theorem bucket_ok_start (hok : (engineLogic b).Ok s) (hq : s.quiescent)
    (hnone : s.db.states.committed key = none) :
    (bucketLogic b key (newestVersion b s.db)).Ok s where
  inv :=
    have hset := settled_of_quiescent hok hq
    have hno : ∀ v, newestVersion b s.db < v → s.db.outbox.committed (decisionKey b v) = none := by
      intro v hv
      rw [Option.eq_none_iff_forall_ne_some]
      intro o ho
      obtain ⟨k, row, hrow, hle⟩ := hok.inv.published_committed v o ho
      exact Nat.not_lt.mpr (Nat.le_trans hle (le_newestVersion hok.inv hrow)) hv
    { engine := hok.inv
      alone := fun k _ => by
        rw [Option.eq_none_iff_forall_ne_some]
        exact fun p hp => (hset p.1).states k p.2 hp
      below := fun k row _ hrow => le_newestVersion hok.inv hrow
      attained := (newestVersion_attained b s.db).imp_right fun ⟨k, row, hrow, hver⟩ =>
        ⟨k, row, by
          rintro rfl
          rw [hnone] at hrow
          contradiction, hrow, hver⟩
      above := fun v t o ho => absurd ho ((hset t).outbox _ o)
      coherent := ⟨fun _ => hno, fun r hr => by
        rw [hnone] at hr
        contradiction⟩
      audited := fun v o hv ho => by
        rw [hno v hv] at ho
        contradiction
      warned_mono := fun t row row' q hrow => by
        rw [hnone] at hrow
        contradiction }
  procs t := by
    have hproc := hok.procs t
    cases hp : s.procs t with
    | idle =>
        rw [hp] at hproc
        exact hproc
    | running e p => exact absurd hp (hq t e p)
    | committed e o =>
        rw [hp] at hproc
        cases o with
        | decided tr v => exact hproc.1
        | lost => exact hproc.1
        | warned pct =>
            refine ⟨hproc.1, fun hk => ?_⟩
            obtain ⟨row, hrow⟩ := hproc.2
            rw [hk, hnone] at hrow
            contradiction
        | quiet => exact hproc.1
    | aborted =>
        rw [hp] at hproc
        exact hproc

/-- The schedule begins evaluations of one bucket only. -/
def InBucket (b : BudgetDefinition) (key : StateKey) (as : List (Action Evaluation)) : Prop :=
  ∀ t e, Action.begin t e ∈ as → stateKey b e.now = key

/-- The committed tables after `n` decisions of a bucket that began in `d₀`. -/
structure Alternates (b : BudgetDefinition) (key : StateKey) (d₀ d : BudgetDb) (n : Nat) :
    Prop where
  /-- enforce, refresh, enforce, … without a gap -/
  decision : ∀ i, i < n → ∃ o,
    d.outbox.committed (decisionKey b (newestVersion b d₀ + 1 + i)) = some o ∧
      o.transition = if i % 2 = 0 then .enforce else .refresh
  /-- these are the rows that were not there when the bucket began -/
  produced : ∀ v, (∃ o, d.outbox.committed (decisionKey b v) = some o) ∧
    d₀.outbox.committed (decisionKey b v) = none ↔ ∃ i, i < n ∧ v = newestVersion b d₀ + 1 + i
  /-- the row is enforced iff the last of them is an enforce -/
  enforced : (∃ row, d.states.committed key = some row ∧ row.state = .enforced) ↔
    ∃ o, 0 < n ∧ d.outbox.committed (decisionKey b (newestVersion b d₀ + n)) = some o ∧
      o.transition = .enforce
  /-- the transaction that inserted a decision has one history row, of the same direction -/
  audited : ∀ i, i < n → ∀ o,
    d.outbox.committed (decisionKey b (newestVersion b d₀ + 1 + i)) = some o →
      ∃ h, d.history.committed.filter (fun r => r.insertedBy = o.insertedBy) = [h] ∧
        h.action = o.transition

/-- The commit of a warning leaves the decisions and the enforcement state alone. -/
structure OnlyWarns (key : StateKey) (d d' : BudgetDb) : Prop where
  outbox : ∀ k, d'.outbox.committed k = d.outbox.committed k
  row : ∀ row, d.states.committed key = some row → ∃ row', d'.states.committed key = some row' ∧
    row'.state = row.state ∧ row'.lastPublishedVersion = row.lastPublishedVersion ∧
      row'.enforcedPolicyVersion = row.enforcedPolicyVersion
  first : d.states.committed key = none → ∃ row', d'.states.committed key = some row' ∧
    row'.state = .under

theorem DecisionRow.isEnforce_iff : o.isEnforce = true ↔ o.transition = .enforce :=
  decide_eq_true_iff

theorem DecisionRow.transition_of_parity (h : o.isEnforce = decide ((i + 1) % 2 = 1)) :
    o.transition = if i % 2 = 0 then .enforce else .refresh := by
  by_cases hi : i % 2 = 0
  · rw [if_pos hi]
    rw [decide_eq_true (by omega)] at h
    exact DecisionRow.isEnforce_iff.mp h
  · rw [if_neg hi]
    rw [decide_eq_false (by omega)] at h
    cases htr : o.transition with
    | enforce =>
        rw [DecisionRow.isEnforce_iff.mpr htr] at h
        contradiction
    | refresh => rfl

/-- What the invariant says of the versions above the first. -/
theorem BucketInv.alternates (hi : BucketInv b key (newestVersion b d₀) d)
    (hpast : ∀ v, v ≤ newestVersion b d₀ →
      d.outbox.committed (decisionKey b v) = d₀.outbox.committed (decisionKey b v))
    (hno : ∀ v, newestVersion b d₀ < v → d₀.outbox.committed (decisionKey b v) = none) :
    ∃ n, Alternates b key d₀ d n := by
  -- the versions above `newestVersion b d₀` that are taken, and the state they leave
  obtain ⟨n, hentry, hbeyond, hstate⟩ : ∃ n,
      (∀ i, i < n → ∃ o, d.outbox.committed (decisionKey b (newestVersion b d₀ + 1 + i)) = some o ∧
        o.isEnforce = decide ((i + 1) % 2 = 1)) ∧
      (∀ v, newestVersion b d₀ + n < v → d.outbox.committed (decisionKey b v) = none) ∧
      ((∃ row, d.states.committed key = some row ∧ row.state = .enforced) ↔ n % 2 = 1) := by
    cases hrow : d.states.committed key with
    | none =>
        refine ⟨0, fun i hi' => absurd hi' (Nat.not_lt_zero i), hi.coherent.nothing hrow, ?_⟩
        simp
    | some row =>
        have hstep := hi.coherent.inStep row hrow
        have hle := hstep.le
        refine ⟨row.lastPublishedVersion - newestVersion b d₀, fun i hi' => ?_, fun v hv => ?_, ?_⟩
        · obtain ⟨o, ho, hon⟩ := hstep.entry (newestVersion b d₀ + 1 + i) (by omega) (by omega)
          have hi'' : newestVersion b d₀ + 1 + i - newestVersion b d₀ = i + 1 := by omega
          exact ⟨o, ho, by rw [hon, hi'']⟩
        · exact hstep.beyond v (by omega)
        · have hpar := hstep.parity
          simp only [StateRow.isEnforced, decide_eq_decide] at hpar
          rw [← hpar]
          simp
  refine ⟨n, fun i hi' => ?_, fun v => ⟨?_, ?_⟩, ?_, fun i _ o ho => ?_⟩
  · obtain ⟨o, ho, hon⟩ := hentry i hi'
    exact ⟨o, ho, DecisionRow.transition_of_parity hon⟩
  · rintro ⟨⟨o, ho⟩, hnew⟩
    have habove : newestVersion b d₀ < v := by
      by_contra hle
      rw [hpast v (Nat.not_lt.mp hle), hnew] at ho
      contradiction
    have hbelow : v ≤ newestVersion b d₀ + n := by
      by_contra hlt
      rw [hbeyond v (Nat.not_le.mp hlt)] at ho
      contradiction
    exact ⟨v - newestVersion b d₀ - 1, by omega, by omega⟩
  · rintro ⟨i, hi', rfl⟩
    obtain ⟨o, ho, _⟩ := hentry i hi'
    exact ⟨⟨o, ho⟩, hno _ (by omega)⟩
  · rw [hstate]
    constructor
    · intro hn
      obtain ⟨o, ho, hon⟩ := hentry (n - 1) (by omega)
      have hlast : newestVersion b d₀ + 1 + (n - 1) = newestVersion b d₀ + n := by omega
      rw [hlast] at ho
      rw [decide_eq_true (by omega)] at hon
      exact ⟨o, by omega, ho, DecisionRow.isEnforce_iff.mp hon⟩
    · rintro ⟨o, hn, ho, htr⟩
      obtain ⟨o', ho', hon⟩ := hentry (n - 1) (by omega)
      have hlast : newestVersion b d₀ + 1 + (n - 1) = newestVersion b d₀ + n := by omega
      rw [hlast, ho, Option.some.injEq] at ho'
      rw [← ho', DecisionRow.isEnforce_iff.mpr htr] at hon
      have := of_decide_eq_true hon.symm
      omega
  · exact hi.audited _ o (by omega) ho

theorem Untold.onlyWarns (hi : BucketInv b key base d) (h : Untold b key base t d)
    (hraised : Raised key t pct d) : OnlyWarns key d (Database.commit t d) := by
  obtain ⟨row, hrow, _, hold⟩ := hraised
  have hvis : d.states.visible t key = some row := visible_of_inflight hrow
  refine ⟨fun k => visible_of_no_inflight (h.outbox k), fun row₀ hrow₀ => ?_, fun hnone => ?_⟩
  · obtain ⟨hs, hv, he, _⟩ := hold row₀ hrow₀
    exact ⟨row, hvis, hs, hv, he⟩
  · refine ⟨row, hvis, ?_⟩
    have hstep := h.sees.inStep row hvis
    have hver := hstep.eq_base fun v hv => by
      rw [visible_of_no_inflight (h.outbox _)]
      exact hi.coherent.nothing hnone v hv
    have hpar := hstep.parity
    simp only [StateRow.isEnforced, hver, Nat.sub_self, decide_eq_decide] at hpar
    cases hst : row.state with
    | under => rfl
    | enforced => simp [hst] at hpar

end Bucket

theorem everyStep_inBucket {b : BudgetDefinition} {key : StateKey} {as : List (Action Evaluation)}
    (h : InBucket b key as) :
    EveryStep (budgetProg pcts b) (bucketLogic b key base).Permits s as := by
  induction as generalizing s with
  | nil => trivial
  | cons a as ih =>
      intro s' _
      refine ⟨?_, ih fun t e he => h t e (List.mem_cons_of_mem a he)⟩
      cases a with
      | begin t e => exact h t e (List.mem_cons_self ..)
      | exec t => trivial
      | commit t => trivial
      | abort t => trivial

/-- **The bucket state machine**: from a state without a row for the bucket of
`day`, any interleaving of evaluations of that bucket leaves alternating, audited
decisions in step with the row; a warning that commits changes nothing else and
is of a higher band than all that committed before it. -/
theorem bucket_state_machine (pcts : List Nat) (b : BudgetDefinition) (day : DateTime)
    (as₀ as : List (Action Evaluation)) (s₀ s : BudgetSys)
    (hstart : run (budgetProg pcts b) BudgetSys.init as₀ = some s₀) (hq : s₀.quiescent)
    (hnone : s₀.db.states.committed (stateKey b day) = none) (hin : InBucket b (stateKey b day) as)
    (hrun : run (budgetProg pcts b) s₀ as = some s) :
    (∃ n, Alternates b (stateKey b day) s₀.db s.db n) ∧
      ∀ t s' e pct, step (budgetProg pcts b) s (.commit t) = some s' →
        s'.procs t = .committed e (.warned pct) →
        OnlyWarns (stateKey b day) s.db s'.db ∧
          ∀ u e' pct', s.procs u = .committed e' (.warned pct') →
            stateKey b e'.now = stateKey b day → pct' < pct := by
  have hsound := bucket_sound pcts b (stateKey b day) (newestVersion b s₀.db) ⟨rfl, rfl⟩
  have hok₀ := bucket_ok_start (engine_ok hstart) hq hnone
  have hok := hsound.run hok₀ (everyStep_inBucket hin) hrun
  obtain ⟨u₀, hu₀⟩ := Logic.exists_bystander as
  have hrely := hsound.run_rely hok₀ (everyStep_inBucket hin) hu₀ hrun
  refine ⟨hok.inv.alternates hrely.past (hok₀.inv.coherent.nothing hnone), ?_⟩
  intro t s' e pct hstep hproc
  obtain ⟨t', req, ha, _⟩ | ⟨t', req, γ, f, k, x, d, ha, _⟩ | ⟨t', req, o, ha, hpure, rfl⟩ |
    ⟨t', req, p, ha, _⟩ := step_cases hstep
  · cases ha
  · cases ha
  · cases ha
    simp only [Function.update_self, Proc.committed.injEq] at hproc
    obtain ⟨rfl, rfl⟩ := hproc
    have hwp := hok.procs t
    rw [hpure] at hwp
    obtain ⟨huntold, hraised⟩ : BucketPost b (stateKey b day) _ t (.warned pct) s.db :=
      hwp s.db hok.inv (hsound.refl t s.db)
    refine ⟨huntold.onlyWarns hok.inv hraised, fun u e' pct' hu hk => ?_⟩
    have hens := hok.procs u
    rw [hu] at hens
    obtain ⟨row₀, q, hrow₀, hpct', hle⟩ := hens.2 hk
    obtain ⟨row, _, _, hold⟩ := hraised
    have hall := (hold row₀ hrow₀).2.2.2
    rw [hpct'] at hall
    exact Nat.lt_of_le_of_lt hle (by simpa using hall)
  · cases ha

section Sample

/-- An evaluation of the sample ledger under another cap. -/
def cappedEvaluation (limitCostCents : Nat) : Evaluation :=
  ⟨some limitCostCents, sampleLedger, sampleTime⟩

/-- 700 cents are spent: over a cap of 100, under one of 10000, 93% of 750. -/
def bucketSchedule : List (Action Evaluation) :=
  [.begin 1 (cappedEvaluation 100), .exec 1, .begin 2 (cappedEvaluation 100), .exec 2, .exec 1,
    .exec 1, .exec 1, .exec 1, .exec 1, .commit 1, .exec 2, .exec 2, .commit 2,
    .begin 3 (cappedEvaluation 10000), .exec 3, .exec 3, .exec 3, .exec 3, .exec 3, .exec 3, .commit 3,
    .begin 4 (cappedEvaluation 750), .exec 4, .exec 4, .exec 4, .exec 4]

/-- The results so far, and the decisions of versions 1 and 2. -/
def bucketReport (s : BudgetSys) :
    Option Outcome × Option Outcome × Option Transition × Option Transition :=
  ((s.procs 1).result, (s.procs 2).result,
    (s.db.outbox.committed (decisionKey sampleBudget 1)).map DecisionRow.transition,
    (s.db.outbox.committed (decisionKey sampleBudget 2)).map DecisionRow.transition)

theorem bucket_state_machine_sample : ∃ s,
    run (budgetProg [80, 95] sampleBudget) BudgetSys.init bucketSchedule = some s ∧
      bucketReport s = (some (.decided .enforce 1), some .quiet, some .enforce, some .refresh) ∧
      (∃ n, Alternates sampleBudget (stateKey sampleBudget sampleTime) BudgetSys.init.db s.db n) ∧
      ∃ s', step (budgetProg [80, 95] sampleBudget) s (.commit 4) = some s' ∧
        (s'.procs 4).result = some (.warned 80) ∧
        OnlyWarns (stateKey sampleBudget sampleTime) s.db s'.db := by
  have hrun : ((run (budgetProg [80, 95] sampleBudget) BudgetSys.init bucketSchedule).bind fun s =>
      (step (budgetProg [80, 95] sampleBudget) s (.commit 4)).map fun s' =>
        (bucketReport s, (s'.procs 4).result)) =
      some ((some (.decided .enforce 1), some .quiet, some .enforce, some .refresh),
        some (.warned 80)) := by
    decide +kernel
  obtain ⟨s, hs, hrest⟩ := Option.bind_eq_some_iff.mp hrun
  obtain ⟨s', hs', hreport⟩ := Option.map_eq_some_iff.mp hrest
  rw [Prod.mk.injEq] at hreport
  have hin : InBucket sampleBudget (stateKey sampleBudget sampleTime) bucketSchedule := by
    intro t e he
    simp only [bucketSchedule, List.mem_cons, Action.begin.injEq, reduceCtorEq, List.not_mem_nil,
      false_or, or_false] at he
    rcases he with ⟨_, rfl⟩ | ⟨_, rfl⟩ | ⟨_, rfl⟩ | ⟨_, rfl⟩ <;> rfl
  obtain ⟨halt, hwarn⟩ := bucket_state_machine [80, 95] sampleBudget sampleTime [] bucketSchedule
    BudgetSys.init s rfl (fun t e p h => by contradiction) rfl hin hs
  obtain ⟨e, he⟩ := Proc.result_eq_some hreport.2
  exact ⟨s, hs, hreport.1, halt, s', hs', hreport.2, (hwarn 4 s' e 80 hs' he).1⟩

end Sample

end Anoryx.Delta
