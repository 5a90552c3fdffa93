import Anoryx.Orchestrator.SharedState
import Anoryx.ReadCommitted.Trail

/-!
# Anoryx.Orchestrator.SharedStateRuns

Runs of `write_state`: any number of calls at a time, cut off at any point.

`StateInv` is what holds between any two statements: the committed row of a key is the last
one of its history, whose versions count from one, and only the holder of a tenant's lock
has a new key in flight.
-/

namespace Anoryx.Orchestrator

open ReadCommitted PyJson PgColumn Table Function Logic

variable {F : Type}

/-! ## the invariant -/

/-- The link of one version of a key. -/
def namesVersion (version : (String × String) × Int) (row : StateAuditLog) : Bool :=
  row.tenantId = version.1.1 && row.stateKey = version.1.2 && row.version = version.2

variable {row : StateAuditLog} {u t : Txn} {tenantId stateKey : String} {disposition : StateDisposition}
  {expected n m : Int}

theorem namesVersion_inj {version version' : (String × String) × Int} (h : namesVersion version row = true)
    (h' : namesVersion version' row = true) : version = version' := by
  simp only [namesVersion, Bool.and_eq_true, decide_eq_true_eq] at h h'
  exact Prod.ext (Prod.ext (h.1.1.symm.trans h'.1.1) (h.1.2.symm.trans h'.1.2)) (h.2.symm.trans h'.2)

/-- The versions that were committed. -/
def committedVersions (d : StateDb F) : Set ((String × String) × Int) :=
  {version | ∃ p ∈ d.history version.1, p.2.row.version = version.2}

/-- The number of the tenant's keys. -/
def stateKeyCount (tenantId : String) (d : StateDb F) : Nat :=
  d.states.table.countKeys d.states.table.committed fun key => key.1 = tenantId

/-- Between any two statements. -/
structure StateInv (hashtext : String → Int) (cap : Nat) (d : StateDb F) : Prop where
  created : ∀ key t row, d.states.table.inflight key = some (t, row) → d.states.table.committed key = none →
    d.states.locks (hashtext key.1) = some t
  current : ∀ key, d.states.table.committed key = (d.history key).getLast?.map fun p => p.2.row
  numbered : ∀ key (i : Nat) p, (d.history key)[i]? = some p →
    p.2.row.version = i + 1 ∧ p.2.expected = if i = 0 then none else some (i : Int)
  once : ∀ key key' (i i' : Nat) p p', (d.history key)[i]? = some p → (d.history key')[i']? = some p' → p.1 = p'.1 →
    key = key' ∧ i = i'
  capped : ∀ tenantId, stateKeyCount tenantId d ≤ cap
  trail : Trail namesVersion stateChainLockKey ∅ (committedVersions d) d.chain d.unlinked

/-- What a call may rely on while others move. -/
structure StateRely (hashtext : String → Int) (u : Txn) (d d' : StateDb F) : Prop where
  states : Frame u d.states.table d'.states.table
  chain : Frame u d.chain.table d'.chain.table
  locks : ∀ k, d.states.locks k = some u → d'.states.locks k = some u
  chainLocks : ∀ k, d.chain.locks k = some u → d'.chain.locks k = some u
  held : ∀ key row, d.states.table.inflight key = some (u, row) →
    d'.states.table.committed key = d.states.table.committed key
  keys : ∀ key, d.states.locks (hashtext key.1) = some u →
    (d.states.table.committed key).isSome = (d'.states.table.committed key).isSome
  stays : ∀ key, (d.states.table.committed key).isSome = true → (d'.states.table.committed key).isSome = true
  history : ∀ key, d.history key <+: d'.history key
  mine : ∀ key write, (u, write) ∈ d'.history key → (u, write) ∈ d.history key
  unlinked : d'.unlinked u = d.unlinked u

variable {hashtext : String → Int} {cap : Nat}

theorem StateRely.refl (u : Txn) (d : StateDb F) : StateRely hashtext u d d :=
  ⟨.refl u _, .refl u _, fun _ h => h, fun _ h => h, fun _ _ _ => rfl, fun _ _ => rfl, fun _ h => h,
    fun _ => List.prefix_refl _, fun _ _ h => h, rfl⟩

theorem StateRely.trans {d₁ d₂ d₃ : StateDb F} (h : StateRely hashtext u d₁ d₂) (h' : StateRely hashtext u d₂ d₃) :
    StateRely hashtext u d₁ d₃ where
  states := h.states.trans h'.states
  chain := h.chain.trans h'.chain
  locks k hk := h'.locks k (h.locks k hk)
  chainLocks k hk := h'.chainLocks k (h.chainLocks k hk)
  held key row hin := (h'.held key row ((h.states.inflight key row).mp hin)).trans (h.held key row hin)
  keys key hk := (h.keys key hk).trans (h'.keys key (h.locks _ hk))
  stays key hk := h'.stays key (h.stays key hk)
  history key := (h.history key).trans (h'.history key)
  mine key write hw := h.mine key write (h'.mine key write hw)
  unlinked := h'.unlinked.trans h.unlinked

/-- A statement of `t` that keeps the invariant, and what the others rely on. -/
def KeepsState (hashtext : String → Int) (cap : Nat) (t : Txn) (d d' : StateDb F) : Prop :=
  StateInv hashtext cap d' ∧ ∀ u, u ≠ t → StateRely hashtext u d d'

/-- A call that has nothing in flight. -/
structure StateUnheld (t : Txn) (d : StateDb F) : Prop where
  states : d.states.table.Unheld t
  chain : d.chain.table.Unheld t

theorem StateUnheld.rely {d d' : StateDb F} (h : StateUnheld t d) (hr : StateRely hashtext t d d') :
    StateUnheld t d' :=
  ⟨h.states.frame hr.states, h.chain.frame hr.chain⟩

/-- A call that has committed nothing and has nothing in flight. -/
structure Unwritten (t : Txn) (d : StateDb F) : Prop extends StateUnheld t d where
  history : ∀ key write, (t, write) ∉ d.history key
  unlinked : d.unlinked t = none

theorem Unwritten.rely {d d' : StateDb F} (h : Unwritten t d) (hr : StateRely hashtext t d d') : Unwritten t d' :=
  ⟨h.toStateUnheld.rely hr, fun key write hw => h.history key write (hr.mine key write hw),
    hr.unlinked.trans h.unlinked⟩

/-! ## what the statements keep -/

section Statements

variable {d d' : StateDb F} {t : Txn} {key : String × String}

theorem StateInv.lockStateKeyCap (h : StateInv hashtext cap d)
    (hlock : Orchestrator.lockStateKeyCap hashtext tenantId t d = some ((), d')) :
    KeepsState hashtext cap t d d' ∧ d'.states.locks (hashtext tenantId) = some t ∧
      d' = { d with states := { d.states with locks := d'.states.locks } } := by
  obtain ⟨⟨⟨⟩, states⟩, hadvisory, he⟩ := Option.map_eq_some_iff.mp hlock
  obtain ⟨-, rfl⟩ := Prod.mk.inj he
  obtain ⟨rfl, hkeep⟩ := LockedTable.advisoryXactLock_cases hadvisory
  refine ⟨⟨⟨fun key u row hin hc => hkeep _ u (h.created key u row hin hc), h.current, h.numbered, h.once, h.capped,
    h.trail⟩, fun u _ => ?_⟩, update_self (hashtext tenantId) (some t) d.states.locks, rfl⟩
  exact ⟨.refl u _, .refl u _, fun k hk => hkeep k u hk, fun _ hk => hk, fun _ _ _ => rfl, fun _ _ => rfl,
    fun _ hk => hk, fun _ => List.prefix_refl _, fun _ _ hw => hw, rfl⟩

theorem StateInv.write (h : StateInv hashtext cap d) (row : AgentState F) (hfree : d.states.table.free t key = true)
    (hlock : d.states.table.committed key = none → d.states.locks (hashtext key.1) = some t) :
    KeepsState hashtext cap t d { d with states := { d.states with table := d.states.table.write t key row } } := by
  refine ⟨⟨fun key' u row' hin hc => ?_, h.current, h.numbered, h.once, fun tenantId => ?_, h.trail⟩, fun u hu => ?_⟩
  · rcases inflight_write_cases hin with ⟨rfl, rfl, -⟩ | ⟨-, hin⟩
    · exact hlock hc
    · exact h.created key' u row' hin hc
  · refine Nat.le_trans (Nat.le_of_eq ?_) (h.capped tenantId)
    exact countKeys_congr (reads_committed _) (reads_committed _) fun _ _ => rfl
  · exact ⟨frame_write hu hfree, .refl u _, fun _ hk => hk, fun _ hk => hk, fun _ _ _ => rfl, fun _ _ => rfl,
      fun _ hk => hk, fun _ => List.prefix_refl _, fun _ _ hw => hw, rfl⟩

theorem StateInv.stateChainLock (h : StateInv hashtext cap d)
    (hlock : Orchestrator.stateChainLock t d = some ((), d')) :
    KeepsState hashtext cap t d d' ∧ d'.chain.locks stateChainLockKey = some t ∧
      d' = { d with chain := { d.chain with locks := d'.chain.locks } } := by
  obtain ⟨⟨⟨⟩, chain⟩, hadvisory, he⟩ := Option.map_eq_some_iff.mp hlock
  obtain ⟨-, rfl⟩ := Prod.mk.inj he
  have hordered := h.trail.ordered.advisoryXactLock hadvisory
  obtain ⟨rfl, hkeep⟩ := LockedLog.advisoryXactLock_cases hadvisory
  refine ⟨⟨⟨h.created, h.current, h.numbered, h.once, h.capped,
    h.trail.ends hordered (fun _ _ _ _ => Iff.rfl) fun _ _ _ hin => hin⟩, fun u _ => ?_⟩,
    update_self stateChainLockKey (some t) d.chain.locks, rfl⟩
  exact ⟨.refl u _, .refl u _, fun _ hk => hk, fun k hk => hkeep k u hk, fun _ _ _ => rfl, fun _ _ => rfl,
    fun _ hk => hk, fun _ => List.prefix_refl _, fun _ _ hw => hw, rfl⟩

theorem StateInv.insertStateLink (h : StateInv hashtext cap d) (hlock : d.chain.locks stateChainLockKey = some t)
    (howed : ∀ x, namesVersion x row = true → d.unlinked t = some x) :
    KeepsState hashtext cap t d { d with chain := d.chain.insert t row } := by
  have hfree : d.chain.table.inflight d.chain.nextSequence = none :=
    (d.chain.table.complete _ h.trail.ordered.not_mem).2
  refine ⟨⟨h.created, h.current, h.numbered, h.once, h.capped, h.trail.insertRow hlock howed⟩, fun u hu => ?_⟩
  have hframe : Frame u d.chain.table (d.chain.insert t row).table :=
    frame_write hu (free_iff.mpr (by simp [hfree]))
  exact ⟨.refl u _, hframe, fun _ hk => hk, fun _ hk => hk, fun _ _ _ => rfl, fun _ _ => rfl,
    fun _ hk => hk, fun _ => List.prefix_refl _, fun _ _ hw => hw, rfl⟩

/-! ## the ends of transactions -/

theorem StateInv.created_ended (h : StateInv hashtext cap d) {table : Table (String × String) (AgentState F)}
    (hin : ∀ key u row, table.inflight key = some (u, row) → d.states.table.inflight key = some (u, row) ∧ u ≠ t)
    (hcommitted : ∀ key, table.committed key = none → d.states.table.committed key = none) :
    ∀ key u row, table.inflight key = some (u, row) → table.committed key = none →
      d.states.release t (hashtext key.1) = some u := by
  intro key u row hrow hc
  obtain ⟨hrow, hu⟩ := hin key u row hrow
  exact LockedTable.release_of_ne hu (h.created key u row hrow (hcommitted key hc))

theorem StateInv.rollback (h : StateInv hashtext cap d) (t : Txn) :
    KeepsState hashtext cap t d (Database.rollback t d) := by
  refine ⟨⟨h.created_ended (fun _ _ _ hin => inflight_rollback_eq_some.mp hin) fun _ hc => hc, h.current,
    h.numbered, h.once, fun tenantId => ?_, h.trail.rollback t⟩, fun u hu => ?_⟩
  · refine Nat.le_trans (Nat.le_of_eq ?_) (h.capped tenantId)
    exact countKeys_congr (reads_committed _) (reads_committed _) fun _ _ => rfl
  · exact ⟨frame_rollback _ hu, frame_rollback _ hu, fun _ hk => LockedTable.release_of_ne hu hk,
      fun _ hk => LockedLog.release_of_ne hu hk, fun _ _ _ => rfl, fun _ _ => rfl, fun _ hk => hk,
      fun _ => List.prefix_refl _, fun _ _ hw => hw, rfl⟩

theorem StateInv.commit (h : StateInv hashtext cap d) (hstates : d.states.table.Unheld t)
    {unlinked : Txn → Option ((String × String) × Int)} (hunlinked : ∀ u, u ≠ t → unlinked u = d.unlinked u)
    (htrail : Trail namesVersion stateChainLockKey ∅ (committedVersions d) (Database.commit t d.chain) unlinked) :
    KeepsState hashtext cap t d { Database.commit t d with unlinked := unlinked } := by
  have hsame : (d.states.table.commit t).committed = d.states.table.committed := funext hstates.committed_commit
  refine ⟨⟨h.created_ended (fun _ _ _ hin => inflight_commit_eq_some.mp hin) fun key hc => ?_, fun key => ?_,
    h.numbered, h.once, fun tenantId => ?_, htrail⟩, fun u hu => ?_⟩
  · exact (congrFun hsame key).symm.trans hc
  · exact (congrFun hsame key).trans (h.current key)
  · refine Nat.le_trans (Nat.le_of_eq ?_) (h.capped tenantId)
    refine countKeys_congr (reads_committed _) (reads_committed _) fun key _ => ?_
    exact congrArg Option.isSome (congrFun hsame key)
  · refine ⟨frame_commit _ hu, frame_commit _ hu, fun _ hk => LockedTable.release_of_ne hu hk,
      fun _ hk => LockedLog.release_of_ne hu hk, fun key _ _ => congrFun hsame key,
      fun key _ => congrArg Option.isSome (congrFun hsame key).symm, fun key hk => ?_,
      fun _ => List.prefix_refl _, fun _ _ hw => hw, hunlinked u hu⟩
    rw [← hsame] at hk
    exact hk

/-- What a write makes of its key: the first version, below the cap, or the next one. -/
def Replaces (hashtext : String → Int) (cap : Nat) (t : Txn) (key : String × String) (write : StateWrite F)
    (d : StateDb F) : Prop :=
  (write.expected = none ∧ d.states.table.committed key = none ∧ write.row.version = 1 ∧
    d.states.locks (hashtext key.1) = some t ∧ stateKeyCount key.1 d < cap) ∨
  ∃ state, d.states.table.committed key = some state ∧ write.expected = some state.version ∧
    write.row.version = state.version + 1

/-- What the commit of one write may count on. -/
structure Writing (hashtext : String → Int) (cap : Nat) (t : Txn) (key : String × String) (write : StateWrite F)
    (d : StateDb F) : Prop where
  row : d.states.table.HoldsOnly t key write.row
  chain : d.chain.table.Unheld t
  history : ∀ key write, (t, write) ∉ d.history key
  unlinked : d.unlinked t = none
  replaces : Replaces hashtext cap t key write d

theorem stateKeyCount_congr (hsame : ∀ key : String × String, key.1 = tenantId →
    (d.states.table.committed key).isSome = (d'.states.table.committed key).isSome) :
    stateKeyCount tenantId d = stateKeyCount tenantId d' :=
  countKeys_congr (reads_committed _) (reads_committed _) fun key hkey =>
    hsame key (of_decide_eq_true hkey)

theorem Unwritten.writing {write : StateWrite F} (h : Unwritten t d) (hreplaces : Replaces hashtext cap t key write d) :
    Writing hashtext cap t key write
      { d with states := { d.states with table := d.states.table.write t key write.row } } where
  row := h.states.write key write.row
  chain := h.chain
  history := h.history
  unlinked := h.unlinked
  replaces := by
    have hcount : ∀ tenantId, stateKeyCount tenantId
        { d with states := { d.states with table := d.states.table.write t key write.row } } =
        stateKeyCount tenantId d := fun tenantId => stateKeyCount_congr fun _ _ => rfl
    unfold Replaces
    rw [hcount]
    exact hreplaces

theorem Writing.rely {write : StateWrite F} (h : Writing hashtext cap t key write d) (hr : StateRely hashtext t d d') :
    Writing hashtext cap t key write d' where
  row := h.row.frame hr.states
  chain := h.chain.frame hr.chain
  history key write hw := h.history key write (hr.mine key write hw)
  unlinked := hr.unlinked.trans h.unlinked
  replaces := by
    have hsame := hr.held key write.row h.row.holds
    rcases h.replaces with ⟨hexpected, hnone, hversion, hlock, hcount⟩ | ⟨state, hstate, hexpected, hversion⟩
    · refine .inl ⟨hexpected, hsame.trans hnone, hversion, hr.locks _ hlock, ?_⟩
      rw [← stateKeyCount_congr fun key' hkey' => hr.keys key' (hkey' ▸ hlock)]
      exact hcount
    · exact .inr ⟨state, hsame.trans hstate, hexpected, hversion⟩

theorem Writing.numbered {write : StateWrite F} (h : Writing hashtext cap t key write d) (hd : StateInv hashtext cap d) :
    write.row.version = (d.history key).length + 1 ∧
      write.expected = if (d.history key).length = 0 then none else some ((d.history key).length : Int) := by
  have hcurrent := hd.current key
  rcases h.replaces with ⟨hexpected, hnone, hversion, -, -⟩ | ⟨state, hstate, hexpected, hversion⟩
  · rw [hnone] at hcurrent
    have hempty : d.history key = [] := by
      rw [← List.getLast?_eq_none_iff]
      exact Option.map_eq_none_iff.mp hcurrent.symm
    simp [hempty, hversion, hexpected]
  · rw [hstate] at hcurrent
    obtain ⟨p, hp, hrow⟩ := Option.map_eq_some_iff.mp hcurrent.symm
    rw [List.getLast?_eq_getElem?] at hp
    have hpos : (d.history key).length ≠ 0 := by
      intro hzero
      rw [hzero] at hp
      rw [List.length_eq_zero_iff.mp hzero] at hp
      contradiction
    obtain ⟨hnumber, -⟩ := hd.numbered key _ p hp
    have hstateVersion : state.version = (d.history key).length := by
      rw [← hrow, hnumber]
      omega
    rw [if_neg hpos, hexpected, hversion, hstateVersion]
    exact ⟨rfl, rfl⟩

theorem getElem?_update_history {write : StateWrite F} {key' : String × String} {i : Nat} {p : Txn × StateWrite F} :
    (update d.history key (d.history key ++ [(t, write)]) key')[i]? = some p ↔
      (d.history key')[i]? = some p ∨ (key' = key ∧ i = (d.history key).length ∧ p = (t, write)) := by
  by_cases hk : key' = key
  · subst hk
    rw [update_self, List.getElem?_append]
    grind
  · rw [update_of_ne hk]
    simp [hk]

/-- **The commit of a write.** -/
theorem StateInv.commitState (h : StateInv hashtext cap d) {write : StateWrite F}
    (hwriting : Writing hashtext cap t key write d) :
    KeepsState hashtext cap t d { Database.commit t d with
      history := update d.history key (d.history key ++ [(t, write)])
      unlinked := update d.unlinked t (some (key, write.row.version)) } := by
  obtain ⟨hversion, hexpected⟩ := hwriting.numbered h
  have hcommitted : ∀ key', (d.states.table.commit t).committed key' =
      if key' = key then some write.row else d.states.table.committed key' := hwriting.row.committed_commit
  have hkept : ∀ key', (d.states.table.committed key').isSome = true →
      ((d.states.table.commit t).committed key').isSome = true := by
    intro key' hk
    rw [hcommitted]
    split
    · rfl
    · exact hk
  have hother : ∀ key', d.states.locks (hashtext key'.1) ≠ some t →
      (d.states.table.committed key').isSome = ((d.states.table.commit t).committed key').isSome := by
    intro key' hlock
    rw [hcommitted]
    split
    · next hk =>
        subst hk
        rcases hwriting.replaces with ⟨-, -, -, hheld, -⟩ | ⟨state, hstate, -, -⟩
        · exact absurd hheld hlock
        · rw [hstate]
          rfl
    · rfl
  have hnotMine : ∀ key' (i : Nat) p, (d.history key')[i]? = some p → p.1 ≠ t := by
    rintro key' i ⟨u, w⟩ hp rfl
    exact hwriting.history key' w (List.mem_of_getElem? hp)
  have hfacts : committedVersions { Database.commit t d with
      history := update d.history key (d.history key ++ [(t, write)])
      unlinked := update d.unlinked t (some (key, write.row.version)) } =
      insert (key, write.row.version) (committedVersions d) := by
    ext ⟨key', version⟩
    rw [Set.mem_insert_iff, Prod.mk.injEq]
    show (∃ p ∈ update d.history key (d.history key ++ [(t, write)]) key', p.2.row.version = version) ↔
      (key' = key ∧ version = write.row.version) ∨ ∃ p ∈ d.history key', p.2.row.version = version
    by_cases hk : key' = key
    · subst hk
      rw [update_self]
      simp only [List.mem_append, List.mem_singleton]
      grind
    · rw [update_of_ne hk]
      simp [hk]
  have hnew : (key, write.row.version) ∉ committedVersions d := by
    rintro ⟨p, hp, hsame⟩
    have hsame : p.2.row.version = write.row.version := hsame
    obtain ⟨i, hi, hget⟩ : ∃ i, ∃ hi : i < (d.history key).length, (d.history key)[i] = p := List.getElem_of_mem hp
    have hnumber := (h.numbered key i p (by rw [List.getElem?_eq_getElem hi, hget])).1
    omega
  refine ⟨⟨h.created_ended (fun _ _ _ hin => inflight_commit_eq_some.mp hin) fun key' hc => ?_, fun key' => ?_,
    fun key' i p hp => ?_, fun key' key'' i i' p p' hp hp' hsame => ?_, fun tenantId => ?_, ?_⟩, fun u hu => ?_⟩
  · have hc := (hcommitted key').symm.trans hc
    split at hc
    · contradiction
    · exact hc
  · show (d.states.table.commit t).committed key' =
      (update d.history key (d.history key ++ [(t, write)]) key').getLast?.map fun p => p.2.row
    rw [hcommitted]
    by_cases hk : key' = key
    · subst hk
      simp
    · rw [if_neg hk, update_of_ne hk]
      exact h.current key'
  · rcases getElem?_update_history.mp hp with hold | ⟨rfl, rfl, rfl⟩
    · exact h.numbered key' i p hold
    · exact ⟨hversion, hexpected⟩
  · rcases getElem?_update_history.mp hp with hold | ⟨rfl, rfl, rfl⟩
    · rcases getElem?_update_history.mp hp' with hold' | ⟨rfl, rfl, rfl⟩
      · exact h.once key' key'' i i' p p' hold hold' hsame
      · exact absurd hsame (hnotMine key' i p hold)
    · rcases getElem?_update_history.mp hp' with hold' | ⟨rfl, rfl, rfl⟩
      · exact absurd hsame.symm (hnotMine key'' i' p' hold')
      · exact ⟨rfl, rfl⟩
  · -- only a first version adds a key, and it was counted under the lock
    show (d.states.table.commit t).countKeys (d.states.table.commit t).committed (fun key => key.1 = tenantId) ≤ cap
    rcases hwriting.replaces with ⟨-, hnone, -, -, hcount⟩ | ⟨state, hstate, -, -⟩
    · by_cases htenant : key.1 = tenantId
      · subst htenant
        rw [countKeys_succ (reads_committed d.states.table) (reads_committed _)
          (decide_eq_true rfl) hnone (by rw [hcommitted, if_pos rfl]; rfl)
          fun key' hk _ => by rw [hcommitted, if_neg hk]]
        exact hcount
      · refine Nat.le_trans (Nat.le_of_eq ?_) (h.capped tenantId)
        refine countKeys_congr (reads_committed _) (reads_committed _) fun key' hkey' => ?_
        have hk : key' ≠ key := by
          rintro rfl
          exact htenant (of_decide_eq_true hkey')
        rw [hcommitted, if_neg hk]
    · refine Nat.le_trans (Nat.le_of_eq ?_) (h.capped tenantId)
      refine countKeys_congr (reads_committed _) (reads_committed _) fun key' _ => ?_
      rw [hcommitted]
      split
      · next hk => rw [hk, hstate]; rfl
      · rfl
  · rw [hfacts]
    exact (h.trail.commit fun n row _ hin => absurd hin (hwriting.chain n row)).accept hnew hwriting.unlinked
  · refine ⟨frame_commit _ hu, frame_commit _ hu, fun _ hk => LockedTable.release_of_ne hu hk,
      fun _ hk => LockedLog.release_of_ne hu hk, fun key' row' hin => ?_, fun key' hk => hother key' ?_, hkept,
      fun key' => ?_, fun key' write' hw => ?_, update_of_ne hu _ _⟩
    · exact visible_of_inflight_ne hin hu
    · rw [hk]
      exact fun he => hu (Option.some.inj he)
    · show d.history key' <+: update d.history key (d.history key ++ [(t, write)]) key'
      by_cases hk : key' = key
      · subst hk
        rw [update_self]
        exact List.prefix_append _ _
      · rw [update_of_ne hk]
    · have hw : (u, write') ∈ update d.history key (d.history key ++ [(t, write)]) key' := hw
      by_cases hk : key' = key
      · subst hk
        rw [update_self, List.mem_append, List.mem_singleton] at hw
        rcases hw with hw | hw
        · exact hw
        · exact absurd (Prod.mk.inj hw).1 hu
      · rwa [update_of_ne hk] at hw

end Statements


/-! ## the specification -/

section Programs

variable [FloatFormat F] (sha256 : ByteArray → String) (hashtext cap)

/-- What an answer says of the history. -/
def StateAnswered (t : Txn) (request : WriteState F) (answer : StateAnswer) (d : StateDb F) : Prop :=
  match answer with
  | .written version updatedAt => ∃ stateKey write, textColumn 256 request.stateKey = some stateKey ∧
      (t, write) ∈ d.history (request.tenantId, stateKey) ∧ write.expected = request.expectedVersion ∧
      write.row.version = version ∧ write.row.updatedAt = updatedAt
  | _ => ∀ key write, (t, write) ∉ d.history key

/-- The specification of the calls. -/
def stateLogic : Logic (StateDb F) (WriteState F) StateAnswer where
  inv := StateInv hashtext cap
  rely := StateRely hashtext
  fresh := Unwritten
  post t request answer d := StateUnheld t d ∧ d.unlinked t = none ∧ StateAnswered t request answer d
  ensures t request answer d := d.unlinked t = none ∧ StateAnswered t request answer d
  undone _ _ := True

variable {sha256 hashtext cap} {t : Txn} {d : StateDb F} {key : String × String} {request : WriteState F}

variable {d' : StateDb F}

omit [FloatFormat F] in
theorem KeepsState.logic (h : KeepsState hashtext cap t d d') : (stateLogic hashtext cap).Keeps t d d' := ⟨h.1, h.2⟩

omit [FloatFormat F] in
theorem StateAnswered.rely {answer : StateAnswer} (h : StateAnswered t request answer d)
    (hr : StateRely hashtext t d d') : StateAnswered t request answer d' := by
  cases answer with
  | written version updatedAt =>
      obtain ⟨stateKey, write, hkey, hmem, hrest⟩ := h
      exact ⟨stateKey, write, hkey, (hr.history _).subset hmem, hrest⟩
  | alreadyExists current => exact fun key write hw => h key write (hr.mine key write hw)
  | versionConflict current => exact fun key write hw => h key write (hr.mine key write hw)
  | keyLimitExceeded limit => exact fun key write hw => h key write (hr.mine key write hw)

/-! ## a write and its link -/

/-- A write is committed, and its link is to come. -/
structure Written (t : Txn) (key : String × String) (write : StateWrite F) (d : StateDb F) : Prop where
  states : d.states.table.Unheld t
  history : (t, write) ∈ d.history key
  unlinked : d.unlinked t = some (key, write.row.version)

omit [FloatFormat F] in
theorem Written.rely {write : StateWrite F} (h : Written t key write d) (hr : StateRely hashtext t d d') :
    Written t key write d' :=
  ⟨h.states.frame hr.states, (hr.history key).subset h.history, hr.unlinked.trans h.unlinked⟩

omit [FloatFormat F] in
theorem wp_appendStateAuditLink {write : StateWrite F} (hwritten : Written t key write d)
    (hchain : d.chain.table.Unheld t) :
    (stateLogic hashtext cap).wp t (fun _ d' => Written t key write d' ∧ ∃ n row, d'.chain.table.HoldsOnly t n row ∧
      namesVersion (key, write.row.version) row = true) (appendStateAuditLink sha256 key write.row disposition) d := by
  refine wp_exec_bind fun d₁ h₁ hr₁ _ d₂ hlock _ => ?_
  obtain ⟨hkeeps, hmine, hsame⟩ := h₁.stateChainLock hlock
  refine ⟨hkeeps.logic, wp_query_bind StateRely.refl fun d₃ h₃ hr₃ => ?_⟩
  intro d₄ h₄ hr₄ x d₅ hins _
  obtain ⟨-, rfl⟩ := Prod.mk.inj (Option.some.inj hins)
  have hwritten₂ : Written t key write d₂ := by
    have h := hwritten.rely hr₁
    rw [hsame]
    exact ⟨h.states, h.history, h.unlinked⟩
  have hchain₂ : d₂.chain.table.Unheld t := by
    rw [hsame]
    exact hchain.frame hr₁.chain
  have hwritten₄ := (hwritten₂.rely hr₃).rely hr₄
  have hchain₄ := (hchain₂.frame hr₃.chain).frame hr₄.chain
  have hlock₄ : d₄.chain.locks stateChainLockKey = some t := hr₄.chainLocks _ (hr₃.chainLocks _ hmine)
  have hnames : namesVersion (key, write.row.version)
      (stateLinkRow sha256 key write.row disposition (stateChainTipHash sha256 t d₃)) = true := by
    simp [namesVersion, stateLinkRow]
  have hkeeps₅ := h₄.insertStateLink hlock₄ fun x hx => by
    rw [hwritten₄.unlinked, namesVersion_inj hx hnames]
  refine ⟨hkeeps₅.logic, fun d₆ h₆ hr₆ => ?_⟩
  have hwritten₅ : Written t key write { d₄ with chain := d₄.chain.insert t (stateLinkRow sha256 key write.row
      disposition (stateChainTipHash sha256 t d₃)) } := ⟨hwritten₄.states, hwritten₄.history, hwritten₄.unlinked⟩
  exact ⟨hwritten₅.rely hr₆, _, _, (hchain₄.write d₄.chain.nextSequence _).frame hr₆.chain, hnames⟩

omit [FloatFormat F] in
/-- A write is answered with the version that it has committed. -/
theorem wp_concludeWrite {write : StateWrite F} (hwriting : Writing hashtext cap t key write d) :
    (stateLogic hashtext cap).wp t (fun answer d' => StateUnheld t d' ∧ d'.unlinked t = none ∧
      answer = .written write.row.version write.row.updatedAt ∧ (t, write) ∈ d'.history key)
      (concludeWrite sha256 key write disposition) d := by
  refine wp_exec_bind fun d₁ h₁ hr₁ _ d₂ hcommit _ => ?_
  obtain ⟨-, rfl⟩ := Prod.mk.inj (Option.some.inj hcommit)
  have hkeeps₂ := h₁.commitState (hwriting.rely hr₁)
  refine ⟨hkeeps₂.logic, wp_bind (StateRely.refl t) hkeeps₂.1 ?_⟩
  have hwritten : Written t key write { Database.commit t d₁ with
      history := update d₁.history key (d₁.history key ++ [(t, write)])
      unlinked := update d₁.unlinked t (some (key, write.row.version)) } := by
    refine ⟨Table.unheld_commit _ t, ?_, update_self ..⟩
    show (t, write) ∈ update d₁.history key (d₁.history key ++ [(t, write)]) key
    rw [update_self]
    exact List.mem_append_right _ (List.mem_singleton_self _)
  refine wp_mono (fun _ d₃ h₃ hpost => ?_) (wp_appendStateAuditLink hwritten (Table.unheld_commit _ t))
  obtain ⟨hwritten₃, n, row, hrow, hnames⟩ := hpost
  refine wp_exec_bind fun d₄ h₄ hr₄ _ d₅ hlink _ => ?_
  obtain ⟨-, rfl⟩ := Prod.mk.inj (Option.some.inj hlink)
  have hwritten₄ := hwritten₃.rely hr₄
  have htrail : Trail namesVersion stateChainLockKey ∅ (committedVersions d₄) (Database.commit t d₄.chain)
      (update d₄.unlinked t none) :=
    Trail.commitLink (fun h h' => namesVersion_inj h h') h₄.trail (hrow.frame hr₄.chain) hnames hwritten₄.unlinked
  have hkeeps₅ := h₄.commit hwritten₄.states (fun u hu => update_of_ne hu _ _) htrail
  refine ⟨hkeeps₅.logic, fun d₆ h₆ hr₆ => ?_⟩
  have hunheld : StateUnheld t { Database.commit t d₄ with unlinked := update d₄.unlinked t none } :=
    ⟨Table.unheld_commit _ t, Table.unheld_commit _ t⟩
  refine ⟨hunheld.rely hr₆, ?_, rfl, (hr₆.history key).subset hwritten₄.history⟩
  rw [hr₆.unlinked]
  exact update_self ..

/-! ## the two kinds of write -/

/-- The key is there, or it may be created. -/
def Admitted (hashtext : String → Int) (cap : Nat) (t : Txn) (key : String × String) (d : StateDb F) : Prop :=
  (d.states.table.committed key).isSome = true ∨
    (d.states.locks (hashtext key.1) = some t ∧ stateKeyCount key.1 d < cap)

omit [FloatFormat F] in
theorem Admitted.rely (h : Admitted hashtext cap t key d) (hr : StateRely hashtext t d d') :
    Admitted hashtext cap t key d' := by
  rcases h with hkey | ⟨hlock, hcount⟩
  · exact .inl (hr.stays key hkey)
  · refine .inr ⟨hr.locks _ hlock, ?_⟩
    rwa [← stateKeyCount_congr fun key' hkey' => hr.keys key' (hkey' ▸ hlock)]

omit [FloatFormat F] in
theorem wp_admitsStateKey (key : String × String) {existing : Option Int} (hun : Unwritten t d)
    (hexisting : existing.isSome = true → (d.states.table.committed key).isSome = true) :
    (stateLogic hashtext cap).wp t (fun admitted d' => Unwritten t d' ∧
      (admitted = true → Admitted hashtext cap t key d')) (admitsStateKey hashtext cap key.1 existing) d := by
  cases existing with
  | some version => exact fun d₁ h₁ hr₁ => ⟨hun.rely hr₁, fun _ => .inl (hr₁.stays key (hexisting rfl))⟩
  | none =>
      refine wp_exec_bind fun d₁ h₁ hr₁ _ d₂ hlock _ => ?_
      obtain ⟨hkeeps, hmine, hsame⟩ := h₁.lockStateKeyCap hlock
      have hun₂ : Unwritten t d₂ := by
        have h := hun.rely hr₁
        rw [hsame]
        exact ⟨⟨h.states, h.chain⟩, h.history, h.unlinked⟩
      refine ⟨hkeeps.logic, wp_query_bind StateRely.refl fun d₃ h₃ hr₃ => ?_⟩
      have hun₃ := hun₂.rely hr₃
      have hcount : countAgentStateKeys key.1 t d₃ = stateKeyCount key.1 d₃ := by
        have hvisible : d₃.states.table.visible t = d₃.states.table.committed := funext hun₃.states.visible
        rw [countAgentStateKeys, hvisible]
        rfl
      refine fun d₄ h₄ hr₄ => ⟨hun₃.rely hr₄, fun hadmitted => Admitted.rely (.inr ⟨hr₃.locks _ hmine, ?_⟩) hr₄⟩
      rw [← hcount]
      exact of_decide_eq_true hadmitted

omit [FloatFormat F] in
theorem wp_rejectWrite (answer : Option Int → StateAnswer) (hun : Unwritten t d) :
    (stateLogic hashtext cap).wp t (fun result d' => Unwritten t d' ∧ ∃ current, result = answer current)
      (rejectWrite key answer) d := by
  have hended : ∀ {d' : StateDb F}, Unwritten t d' → Unwritten t (Database.rollback t d') := fun h =>
    ⟨⟨Table.unheld_rollback _ t, Table.unheld_rollback _ t⟩, h.history, h.unlinked⟩
  refine wp_rollbackWork_bind fun d₁ h₁ hr₁ => ⟨(h₁.rollback t).logic, ?_⟩
  refine wp_query_bind StateRely.refl fun d₂ h₂ hr₂ => ?_
  refine wp_rollbackWork_bind fun d₃ h₃ hr₃ => ⟨(h₃.rollback t).logic, fun d₄ h₄ hr₄ => ?_⟩
  have hun₃ := ((hended (hun.rely hr₁)).rely hr₂).rely hr₃
  exact ⟨(hended hun₃).rely hr₄, _, rfl⟩

/-- What a call has to end with. -/
abbrev StatePost (t : Txn) (request : WriteState F) (answer : StateAnswer) (d : StateDb F) : Prop :=
  StateUnheld t d ∧ d.unlinked t = none ∧ StateAnswered t request answer d

/-- The first version of a key, or a conflict, or the cap. -/
theorem wp_createState (hkey : textColumn 256 request.stateKey = some stateKey)
    (hexpected : request.expectedVersion = none) (hun : Unwritten t d) :
    (stateLogic hashtext cap).wp t (StatePost t request)
      (createState sha256 hashtext cap request (request.tenantId, stateKey)) d := by
  refine wp_query_bind StateRely.refl fun d₁ h₁ hr₁ => ?_
  have hun₁ := hun.rely hr₁
  refine wp_bind (StateRely.refl t) h₁ ?_
  refine wp_mono (fun admitted d₂ h₂ hpost => ?_) (wp_admitsStateKey (request.tenantId, stateKey) hun₁
    fun hsome => ?_)
  · obtain ⟨hun₂, hadmitted⟩ := hpost
    cases admitted with
    | false =>
        refine wp_rollbackWork_bind fun d₃ h₃ hr₃ => ⟨(h₃.rollback t).logic, fun d₄ h₄ hr₄ => ?_⟩
        have hun₃ := hun₂.rely hr₃
        have hun₄ : Unwritten t (Database.rollback t d₃) :=
          ⟨⟨Table.unheld_rollback _ t, Table.unheld_rollback _ t⟩, hun₃.history, hun₃.unlinked⟩
        exact ⟨(hun₄.rely hr₄).toStateUnheld, (hun₄.rely hr₄).unlinked, (hun₄.rely hr₄).history⟩
    | true =>
        rw [if_pos rfl]
        refine wp_ofExcept_bind fun row hrow => ?_
        have hrow := orRaise_eq_ok hrow
        refine wp_exec_bind fun d₃ h₃ hr₃ created d₄ hinsert _ => ?_
        obtain ⟨⟨created', states⟩, hins, he⟩ := Option.map_eq_some_iff.mp hinsert
        obtain ⟨rfl, rfl⟩ := Prod.mk.inj he
        have hun₃ := hun₂.rely hr₃
        rcases LockedTable.insert_cases hins with ⟨rfl, rfl, -⟩ | ⟨rfl, rfl, hin, hc⟩
        · refine ⟨⟨h₃, fun u _ => .refl u _⟩, ?_⟩
          refine wp_mono (fun answer d₄ h₄ hpost => ?_) (wp_rejectWrite .alreadyExists hun₃)
          obtain ⟨hun₄, current, rfl⟩ := hpost
          exact ⟨hun₄.toStateUnheld, hun₄.unlinked, hun₄.history⟩
        · rcases (hadmitted rfl).rely hr₃ with hsome | ⟨hlock, hcount⟩
          · rw [hc] at hsome
            contradiction
          · have hkeeps := h₃.write row (free_iff.mpr (by simp [hin])) fun _ => hlock
            have hversion : row.version = 1 := by
              unfold WriteState.row at hrow
              obtain ⟨stateValue, -, hrow⟩ := Option.bind_eq_some_iff.mp hrow
              obtain ⟨updatedBy, -, hrow⟩ := Option.bind_eq_some_iff.mp hrow
              cases hrow
              rfl
            have hreplaces : Replaces hashtext cap t (request.tenantId, stateKey) ⟨none, row⟩ d₃ :=
              .inl ⟨rfl, hc, hversion, hlock, hcount⟩
            refine ⟨hkeeps.logic, ?_⟩
            refine wp_mono (fun answer d₄ h₄ hpost => ?_) (wp_concludeWrite (hun₃.writing hreplaces))
            obtain ⟨hun₄, hunlinked, rfl, hmem⟩ := hpost
            exact ⟨hun₄, hunlinked, stateKey, _, hkey, hmem, hexpected.symm, rfl, rfl⟩
  · rw [stateVersion, Option.isSome_map, hun₁.states.visible] at hsome
    exact hsome

/-- The next version of a key, or a conflict. -/
theorem wp_updateState (hkey : textColumn 256 request.stateKey = some stateKey)
    (hexpected : request.expectedVersion = some expected) (hun : Unwritten t d) :
    (stateLogic hashtext cap).wp t (StatePost t request)
      (updateState sha256 request (request.tenantId, stateKey) expected) d := by
  unfold updateState
  split
  · trivial
  · refine wp_ofExcept_bind fun row hrow => ?_
    refine wp_exec_bind fun d₁ h₁ hr₁ updated d₂ hupdate _ => ?_
    obtain ⟨⟨updated', table⟩, hupd, he⟩ := Option.map_eq_some_iff.mp hupdate
    obtain ⟨rfl, rfl⟩ := Prod.mk.inj he
    have hun₁ := hun.rely hr₁
    rcases updateWhere_cases hupd with ⟨rfl, rfl, -⟩ | ⟨state, hvisible, hversion, hfree, rfl, rfl⟩
    · refine ⟨⟨h₁, fun u _ => .refl u _⟩, ?_⟩
      refine wp_mono (fun answer d₃ h₃ hpost => ?_) (wp_rejectWrite .versionConflict hun₁)
      obtain ⟨hun₃, current, rfl⟩ := hpost
      exact ⟨hun₃.toStateUnheld, hun₃.unlinked, hun₃.history⟩
    · rw [hun₁.states.visible] at hvisible
      have hversion : state.version = expected := of_decide_eq_true hversion
      have hkeeps := h₁.write { row with version := state.version + 1 } hfree fun hnone =>
        absurd (hvisible.symm.trans hnone) (Option.some_ne_none state)
      refine ⟨hkeeps.logic, ?_⟩
      have hreplaces : Replaces hashtext cap t (request.tenantId, stateKey)
          ⟨some expected, { row with version := state.version + 1 }⟩ d₁ :=
        .inr ⟨state, hvisible, congrArg some hversion.symm, rfl⟩
      show (stateLogic hashtext cap).wp t (StatePost t request) (if expected < bigintMax then _ else _) _
      split
      · refine wp_mono (fun answer d₃ h₃ hpost => ?_) (wp_concludeWrite (hun₁.writing hreplaces))
        obtain ⟨hun₃, hunlinked, rfl, hmem⟩ := hpost
        exact ⟨hun₃, hunlinked, stateKey, _, hkey, hmem, hexpected.symm, rfl, rfl⟩
      · trivial

theorem stateLogic_sound : (stateLogic hashtext cap).Sound (writeState (F := F) sha256 hashtext cap) where
  refl := StateRely.refl
  trans := StateRely.trans
  fresh_rely _ hr h := h.rely hr
  ensures_rely _ hr h := ⟨hr.unlinked.trans h.1, h.2.rely hr⟩
  undone_rely _ _ _ := trivial
  body {t request d} _ _ h := by
    refine wp_ofExcept_bind fun stateKey hkey => ?_
    have hkey := orRaise_eq_ok hkey
    split
    · next hexpected => exact wp_createState hkey hexpected h
    · next expected hexpected => exact wp_updateState hkey hexpected h
  commit {t request answer d} hd h := by
    have htrail := hd.trail.commit fun n row _ hin => absurd hin (h.1.chain n row)
    have hkeeps := hd.commit h.1.states (fun u _ => rfl) htrail
    exact ⟨hkeeps.logic, h.2.1, h.2.2⟩
  rollback hd := ⟨(hd.rollback _).logic, trivial⟩

/-! ## calls that raise nothing -/

/-- A call whose values the columns take: no NUL, no unpaired surrogate and no number that JSON
does not have, and a version that the BIGINT column can count on from. -/
structure WriteState.Storable (request : WriteState F) : Prop where
  stateKey : (textColumn 256 request.stateKey).isSome = true
  row : (request.row 1).isSome = true
  version : ∀ n, request.expectedVersion = some n → n < bigintMax

theorem WriteState.row_eq_some {row : AgentState F} (h : request.row 1 = some row) (version : Int) :
    request.row version = some { row with version := version } := by
  unfold WriteState.row at h ⊢
  obtain ⟨stateValue, hvalue, h⟩ := Option.bind_eq_some_iff.mp h
  obtain ⟨updatedBy, hupdatedBy, h⟩ := Option.bind_eq_some_iff.mp h
  cases h
  rw [hvalue, hupdatedBy]
  rfl

omit [FloatFormat F] in
theorem noRaise_concludeWrite (write : StateWrite F) (disposition : StateDisposition) :
    (concludeWrite sha256 key write disposition).NoRaise := by
  refine (Prog.NoRaise.exec _).bind fun _ => .bind ?_ fun _ => (Prog.NoRaise.exec _).bind fun _ => .pure _
  exact (Prog.NoRaise.exec _).bind fun _ => (Prog.NoRaise.query _).bind fun _ => .exec _

omit [FloatFormat F] in
theorem noRaise_rejectWrite (answer : Option Int → StateAnswer) :
    (rejectWrite key answer : Prog (StateDb F) IngestError StateAnswer).NoRaise :=
  Prog.NoRaise.rollbackWork.bind fun _ => (Prog.NoRaise.query _).bind fun _ =>
    Prog.NoRaise.rollbackWork.bind fun _ => .pure _

theorem noRaise_writeState (h : request.Storable) : (writeState sha256 hashtext cap request).NoRaise := by
  obtain ⟨stateKey, hkey⟩ := Option.isSome_iff_exists.mp h.stateKey
  obtain ⟨row, hrow⟩ := Option.isSome_iff_exists.mp h.row
  have hraise : ∀ version, orRaise IngestError.data (request.row version) = .ok { row with version := version } := by
    intro version
    rw [WriteState.row_eq_some hrow version]
    rfl
  refine .bind (.ofExcept (b := stateKey) (by rw [hkey]; rfl)) fun stateKey => ?_
  split
  · refine (Prog.NoRaise.query _).bind fun existing => .bind ?_ fun admitted => ?_
    · cases existing with
      | some version => exact .pure true
      | none => exact (Prog.NoRaise.exec _).bind fun _ => (Prog.NoRaise.query _).bind fun _ => .pure _
    · cases admitted with
      | false => exact Prog.NoRaise.rollbackWork.bind fun _ => .pure _
      | true =>
          refine .bind (.ofExcept (hraise 1)) fun row => (Prog.NoRaise.exec _).bind fun created => ?_
          cases created with
          | false => exact noRaise_rejectWrite _
          | true => exact noRaise_concludeWrite _ _
  · next expected hexpected =>
      have hlt : expected < bigintMax := h.version expected hexpected
      unfold updateState
      rw [if_neg (not_lt.mpr hlt.le)]
      refine .bind (.ofExcept (hraise expected)) fun row => (Prog.NoRaise.exec _).bind fun updated => ?_
      cases updated with
      | none => exact noRaise_rejectWrite _
      | some row =>
          show Prog.NoRaise (if expected < bigintMax then _ else _)
          rw [if_pos hlt]
          exact noRaise_concludeWrite _ _

/-! ## runs -/

omit [FloatFormat F] in
theorem stateLogic_start : (stateLogic hashtext cap).Ok
    (Sys.start StateDb.empty : Sys (StateDb F) IngestError (WriteState F) StateAnswer) where
  inv := {
    created := fun key t row hin => by cases hin
    current := fun key => rfl
    numbered := fun key i p hp => by cases hp
    once := fun key key' i i' p p' hp => by cases hp
    capped := fun tenantId => Nat.zero_le cap
    trail := .of_quiet (fun n => rfl) List.Pairwise.nil (fun n hn => by cases hn) (fun n n' row row' x hrow => by cases hrow)
      (fun x ⟨n, row, hrow, _⟩ => by cases hrow) (fun x ⟨p, hp, _⟩ => by cases hp) fun t => rfl }
  procs t := {
    states := fun key row hin => by cases hin
    chain := fun n row hin => by cases hin
    history := fun key write hw => by cases hw
    unlinked := rfl }

variable {s : Sys (StateDb F) IngestError (WriteState F) StateAnswer}

omit [FloatFormat F] in
theorem unlinked_of_quiescent (h : (stateLogic hashtext cap).Ok s) (hquiet : s.quiescent)
    (halive : ∀ t, s.procs t ≠ .aborted) (t : Txn) : s.db.unlinked t = none := by
  have hproc := h.procs t
  cases hcase : s.procs t with
  | idle =>
      rw [hcase] at hproc
      exact hproc.unlinked
  | running request p => exact absurd hcase (hquiet t request p)
  | committed request answer =>
      rw [hcase] at hproc
      exact hproc.1
  | aborted => exact absurd hcase (halive t)

omit [FloatFormat F] in
theorem StateInv.mem_committedVersions (h : StateInv hashtext cap d) {version : Int} :
    (key, version) ∈ committedVersions d ↔ 1 ≤ version ∧ version ≤ (d.history key).length := by
  constructor
  · rintro ⟨p, hp, hversion⟩
    obtain ⟨i, hi, hget⟩ : ∃ i, ∃ hi : i < (d.history key).length, (d.history key)[i] = p := List.getElem_of_mem hp
    obtain ⟨hnumber, -⟩ := h.numbered key i p (by rw [List.getElem?_eq_getElem hi, hget])
    have hversion : p.2.row.version = version := hversion
    omega
  · rintro ⟨hfirst, hlast⟩
    have hi : version.toNat - 1 < (d.history key).length := by omega
    obtain ⟨hnumber, -⟩ := h.numbered key _ _ (List.getElem?_eq_getElem hi)
    refine ⟨_, List.getElem_mem hi, ?_⟩
    show (d.history key)[version.toNat - 1].2.row.version = version
    omega

omit [FloatFormat F] in
theorem StateInv.links (h : StateInv hashtext cap d) (howed : ∀ t, d.unlinked t = none) (version : Int) :
    (linksOf namesVersion d.chain (key, version)).length =
      if 1 ≤ version ∧ version ≤ (d.history key).length then 1 else 0 := by
  obtain ⟨hone, hnone⟩ := h.trail.links (key, version)
  have hlinked : Linked namesVersion d.chain (key, version) ↔ 1 ≤ version ∧ version ≤ (d.history key).length := by
    rw [← h.mem_committedVersions]
    refine ⟨h.trail.fact _, fun hfact => ?_⟩
    obtain hgap | hlink | ⟨t, ht⟩ := h.trail.complete _ hfact
    · exact absurd hgap (Set.notMem_empty _)
    · exact hlink
    · exact absurd ((howed t).symm.trans ht).symm (Option.some_ne_none _)
  rw [hlinked] at hnone
  split <;> omega

/-- **Compare and set**: the versions of a key count from one, each written by one call that
named the one before; a call writes once or not at all, and says so; the keys of a tenant
stay within the cap; and when nobody is cut off, every version has one link.  A call is
answered, if the columns take its values. -/
theorem shared_state (sha256 : ByteArray → String) (hashtext : String → Int) (cap : Nat)
    (schedule : List (Action (WriteState F))) (s : Sys (StateDb F) IngestError (WriteState F) StateAnswer)
    (hrun : run (writeState sha256 hashtext cap) (Sys.start StateDb.empty) schedule = some s) :
    (∀ key, s.db.states.table.committed key = (s.db.history key).getLast?.map fun p => p.2.row) ∧
    (∀ key (i : Nat) p, (s.db.history key)[i]? = some p →
      p.2.row.version = i + 1 ∧ p.2.expected = if i = 0 then none else some (i : Int)) ∧
    (∀ key key' (i i' : Nat) p p', (s.db.history key)[i]? = some p → (s.db.history key')[i']? = some p' →
      p.1 = p'.1 → key = key' ∧ i = i') ∧
    (∀ t request answer, s.procs t = .committed request answer → StateAnswered t request answer s.db) ∧
    (∀ tenantId, stateKeyCount tenantId s.db ≤ cap) ∧
    ((∀ t, .abort t ∉ schedule) → s.quiescent → ∀ key version, (linksOf namesVersion s.db.chain (key, version)).length =
      if 1 ≤ version ∧ version ≤ (s.db.history key).length then 1 else 0) ∧
    ((∀ t request, .begin t request ∈ schedule → request.Storable) →
      ∀ t request e, s.procs t ≠ .running request (.raise e)) ∧
    ∀ schedule' s', run (writeState sha256 hashtext cap) s schedule' = some s' →
      ∀ key, s.db.history key <+: s'.db.history key := by
  have hsound : (stateLogic hashtext cap).Sound (writeState (F := F) sha256 hashtext cap) := stateLogic_sound
  have hpermits : ∀ s schedule, EveryStep (writeState (F := F) sha256 hashtext cap)
      (stateLogic hashtext cap).Permits s schedule :=
    fun s schedule => everyStep_permits (fun _ => trivial) (fun _ _ _ => trivial) schedule
  have hok := hsound.run stateLogic_start (hpermits _ _) hrun
  refine ⟨hok.inv.current, hok.inv.numbered, hok.inv.once, fun t request answer ht => ?_, hok.inv.capped,
    fun halive hquiet key version => ?_, fun hstorable t request e ht => ?_, fun schedule' s' hrun' key => ?_⟩
  · have hproc := hok.procs t
    rw [ht] at hproc
    exact hproc.2
  · have hnobody := not_aborted_of_run hrun halive fun t h => by cases h
    exact hok.inv.links (unlinked_of_quiescent hok hquiet hnobody) version
  · exact noRaise_of_run hrun (fun t request hbegin => noRaise_writeState (hstorable t request hbegin))
      (fun t request p h => by cases h) t request _ ht
  · obtain ⟨u, hu⟩ := exists_bystander schedule'
    have hrely : StateRely hashtext u s.db s'.db := hsound.run_rely hok (hpermits _ _) hu hrun'
    exact hrely.history key

/-! ## versions that no column has -/

theorem writeState_raises (hkey : textColumn 256 request.stateKey = some stateKey)
    (hversion : request.expectedVersion = some n) (hn : bigintMax < n) :
    writeState sha256 hashtext cap request = .raise .data := by
  unfold writeState
  rw [hkey, hversion]
  show updateState sha256 request (request.tenantId, stateKey) n = _
  unfold updateState
  rw [if_pos hn]

end Programs

section Sample

theorem sampleStateKey_length : (PyStr.ofString "plan").length ≤ 256 := by decide

/-- A write of the key `plan`. -/
def sampleWrite (expectedVersion : Option Int) (positive : ∀ n, expectedVersion = some n → 1 ≤ n) (progress : Int) :
    WriteState Empty :=
  ⟨"11111111-1111-4111-8111-111111111111", PyStr.ofString "plan", expectedVersion,
    [(PyStr.ofString "progress", .int progress)], none, .ofFields 2026 7 8 12 0 0 0 (Eq.refl true),
    sampleStateKey_length, positive⟩

theorem positive_of_eq (h : 1 ≤ m) : ∀ n, some m = some n → 1 ≤ n := by
  rintro n ⟨⟩
  exact h

def sampleCreate : WriteState Empty := sampleWrite none (fun n h => absurd h.symm (Option.some_ne_none n)) 0

def sampleUpdate : WriteState Empty := sampleWrite (some 1) (positive_of_eq (le_refl 1)) 50

theorem sampleOutOfRange_positive : (1 : Int) ≤ 9223372036854775808 := by decide

def sampleOutOfRange : WriteState Empty :=
  sampleWrite (some 9223372036854775808) (positive_of_eq sampleOutOfRange_positive) 50

abbrev SampleStateSys := Sys (StateDb Empty) IngestError (WriteState Empty) StateAnswer

def sampleStateStart : SampleStateSys := Sys.start StateDb.empty

abbrev sampleWriteState : WriteState Empty → Prog (StateDb Empty) IngestError StateAnswer :=
  writeState (fun _ => "digest") (fun _ => 0) 1

/-- **No conflict**: a call that names a version beyond every BIGINT is answered never. -/
theorem out_of_range_not_answered : ∃ s : SampleStateSys,
    run sampleWriteState sampleStateStart [.begin 1 sampleOutOfRange] = some s ∧
    ∀ schedule s', run sampleWriteState s schedule = some s' → (s'.procs 1).result = none := by
  have hkey : textColumn 256 sampleOutOfRange.stateKey = some "plan" := by decide +kernel
  have hbeyond : bigintMax < 9223372036854775808 := by decide
  have hraise : sampleWriteState sampleOutOfRange = .raise .data := writeState_raises hkey rfl hbeyond
  have hstands : update sampleStateStart.procs 1 (.running sampleOutOfRange (sampleWriteState sampleOutOfRange))
      1 = .running sampleOutOfRange (.raise .data) := by
    rw [update_self, hraise]
  exact ⟨_, rfl, fun schedule s' hrun => result_none_of_raise hrun hstands⟩

def sampleStateSchedule : List (Action (WriteState Empty)) :=
  [.begin 1 sampleCreate, .begin 2 sampleUpdate, .begin 3 sampleUpdate, .exec 1, .exec 1, .exec 1, .exec 1, .exec 1,
    .exec 2, .exec 1, .exec 1, .exec 1, .exec 1, .commit 1, .exec 2, .exec 3, .exec 2, .exec 2, .exec 2, .exec 2,
    .commit 2, .exec 3, .exec 3, .exec 3, .commit 3]

/-- What was answered, the versions, and the links of the second one. -/
theorem shared_state_sample : ∃ s : SampleStateSys,
    run sampleWriteState sampleStateStart sampleStateSchedule = some s ∧
    (s.procs 3).result = some (.versionConflict (some 2)) ∧
    (s.db.history (sampleCreate.tenantId, "plan")).length = 2 ∧
    (linksOf namesVersion s.db.chain ((sampleCreate.tenantId, "plan"), 2)).length = 1 := by
  have hreport : (run sampleWriteState sampleStateStart sampleStateSchedule).map (fun s =>
      (sampleStateSchedule.all fun a => !(s.procs a.txn).isRunning, (s.procs 3).result,
        (s.db.history (sampleCreate.tenantId, "plan")).length)) = some (true, some (.versionConflict (some 2)), 2) := by
    decide +kernel
  obtain ⟨s, hrun, h⟩ := Option.map_eq_some_iff.mp hreport
  obtain ⟨hdone, h⟩ := Prod.mk.inj h
  obtain ⟨hanswer, hlength⟩ := Prod.mk.inj h
  have hquiet : s.quiescent := quiescent_of_run hrun fun a ha =>
    (Bool.not_eq_true' _).mp (List.all_eq_true.mp hdone a ha)
  obtain ⟨-, -, -, -, -, hlinks, -⟩ := shared_state (fun _ => "digest") (fun _ => 0) 1 sampleStateSchedule s hrun
  refine ⟨s, hrun, hanswer, hlength, ?_⟩
  rw [hlinks (fun t => by simp [sampleStateSchedule]) hquiet, hlength, if_pos (by decide)]

end Sample

end Anoryx.Orchestrator
