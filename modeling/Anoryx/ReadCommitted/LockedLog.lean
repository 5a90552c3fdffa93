import Anoryx.HashChain
import Anoryx.ReadCommitted.RelyGuarantee

/-!
# Anoryx.ReadCommitted.LockedLog

A table that is only inserted into, under keys from a sequence, and whose rows are
chained: a row carries the hash of the one before it in its group.  A group's rows are
appended under the group's advisory lock, which a transaction keeps to its end.

Under READ COMMITTED this is enough.  What a session sees of a group is a valid chain,
and it stays as it is for the session that has the lock (`Sound`, `Relies`); so a row
that is inserted under the tip that was read before is inserted under the tip.
-/

namespace ReadCommitted

open Table

/-- The rows, the sequence of their keys, and the advisory locks with their holders. -/
structure LockedLog (R K : Type) where
  table : Table Nat R
  nextSequence : Nat
  locks : K → Option Txn

variable {u : Txn}

namespace LockedLog

variable {R K : Type}

def empty : LockedLog R K := ⟨Table.empty, 1, fun _ => none⟩

/-- The locks when a transaction has ended. -/
def release (t : Txn) (d : LockedLog R K) : K → Option Txn :=
  fun key => if d.locks key = some t then none else d.locks key

instance : Database (LockedLog R K) where
  commit t d := { d with table := d.table.commit t, locks := release t d }
  rollback t d := { d with table := d.table.rollback t, locks := release t d }

/-- The rows of a group that a reader finds, ordered by their keys. -/
def rowsOf (d : LockedLog R K) (read : Nat → Option R) (select : R → Bool) : List (Nat × R) :=
  ((d.table.list read).filter fun p => select p.2).insertionSort fun p q => p.1 ≤ q.1

/-- Takes a lock, if nobody else has it. -/
def advisoryXactLock [DecidableEq K] (key : K) (t : Txn) (d : LockedLog R K) : Option (Unit × LockedLog R K) :=
  if d.locks key = none ∨ d.locks key = some t then
    some ((), { d with locks := Function.update d.locks key (some t) })
  else none

/-- The log with one more row in flight. -/
def insert (d : LockedLog R K) (t : Txn) (row : R) : LockedLog R K :=
  { d with
    table := d.table.write t d.nextSequence row
    nextSequence := d.nextSequence + 1 }

/-! ## the invariant -/

section Invariant

variable {G H : Type} (C : HashChain (Nat × R) H) (select : G → R → Bool) (key : G → K)

/-- The keys of the table are handed out in order, and what is in flight is under the lock
of its group. -/
structure Ordered (d : LockedLog R K) : Prop where
  ordered : d.table.keys.Pairwise (· < ·)
  bounded : ∀ k ∈ d.table.keys, k < d.nextSequence
  insertOnly : d.table.InsertOnly
  locked : ∀ k t row g, d.table.inflight k = some (t, row) → select g row = true →
    d.locks (key g) = some t

/-- … and every reader sees a valid chain of every group. -/
structure Sound (d : LockedLog R K) : Prop extends Ordered select key d where
  committed : ∀ g, C.Valid (d.rowsOf d.table.committed (select g))
  visible : ∀ t g, C.Valid (d.rowsOf (d.table.visible t) (select g))

/-- What a transaction may rely on: it keeps its locks, and the rows of a group whose lock
it has stay as they are. -/
structure Relies (u : Txn) (d d' : LockedLog R K) : Prop where
  locks : ∀ k, d.locks k = some u → d'.locks k = some u
  rows : ∀ g, d.locks (key g) = some u →
    d'.rowsOf (d'.table.visible u) (select g) = d.rowsOf (d.table.visible u) (select g)

end Invariant

variable {d' d₁ d₂ d₃ : LockedLog R K} {read read' : Nat → Option R} {row : R} {k : K}

section Rows

variable {G : Type} {select : G → R → Bool} {key : G → K} {d : LockedLog R K} {t : Txn}

theorem Ordered.rowsOf_eq (h : d.Ordered select key) (read : Nat → Option R) (sel : R → Bool) :
    d.rowsOf read sel = (d.table.list read).filter fun p => sel p.2 := by
  have hlist : (d.table.list read).Pairwise fun p q => p.1 ≤ q.1 := by
    refine List.pairwise_filterMap.mpr (h.ordered.imp fun {a b} hab p hp q hq => ?_)
    obtain ⟨_, -, rfl⟩ := Option.map_eq_some_iff.mp hp
    obtain ⟨_, -, rfl⟩ := Option.map_eq_some_iff.mp hq
    exact hab.le
  exact (hlist.filter _).insertionSort_eq

theorem rowsOf_congr (hkeys : d'.table.keys = d.table.keys) {sel : R → Bool}
    (h : ∀ k row, sel row = true → (read k = some row ↔ read' k = some row)) :
    d.rowsOf read sel = d'.rowsOf read' sel := by
  unfold rowsOf
  congr 1
  rw [list_filter_congr h]
  simp only [list, hkeys]

theorem Ordered.rowsOf_visible (h : d.Ordered select key) {g : G} (hlock : d.locks (key g) ≠ some u) :
    d.rowsOf (d.table.visible u) (select g) = d.rowsOf d.table.committed (select g) := by
  refine rowsOf_congr rfl fun k row hrow => ?_
  rcases visible_cases d.table u k with ⟨v, hv, hvisible⟩ | ⟨-, hvisible⟩
  · rw [hvisible, h.insertOnly k u v hv]
    refine ⟨fun he => absurd (h.locked k u v g hv ?_) hlock, nofun⟩
    rwa [Option.some.inj he]
  · rw [hvisible]

theorem Ordered.not_mem (h : d.Ordered select key) : d.nextSequence ∉ d.table.keys :=
  fun hmem => absurd (h.bounded _ hmem) (Nat.lt_irrefl _)

theorem Ordered.keys_insert (h : d.Ordered select key) (row : R) :
    (d.insert t row).table.keys = d.table.keys ++ [d.nextSequence] := if_neg h.not_mem

/-- The holder of the lock may append a row. -/
theorem Ordered.insert (h : d.Ordered select key) (hlock : ∀ g, select g row = true → d.locks (key g) = some t) :
    (d.insert t row).Ordered select key where
  ordered := by
    rw [h.keys_insert, List.pairwise_append]
    refine ⟨h.ordered, List.pairwise_singleton _ _, fun a ha b hb => ?_⟩
    rw [List.mem_singleton.mp hb]
    exact h.bounded a ha
  bounded k hk := by
    rw [h.keys_insert, List.mem_append, List.mem_singleton] at hk
    show k < d.nextSequence + 1
    rcases hk with hk | rfl
    · exact Nat.lt_succ_of_lt (h.bounded k hk)
    · exact Nat.lt_succ_self _
  insertOnly k u row' hin := by
    rcases inflight_write_cases hin with ⟨rfl, -⟩ | ⟨-, hin⟩
    · exact (d.table.complete _ h.not_mem).1
    · exact h.insertOnly k u row' hin
  locked k u row' g hin hsel := by
    rcases inflight_write_cases hin with ⟨-, rfl, rfl⟩ | ⟨-, hin⟩
    · exact hlock g hsel
    · exact h.locked k u row' g hin hsel

theorem Ordered.rowsOf_insert (h : d.Ordered select key) (hlock : ∀ g, select g row = true → d.locks (key g) = some t)
    (hread : read d.nextSequence = none) (sel : R → Bool) : (d.insert t row).rowsOf read sel = d.rowsOf read sel := by
  rw [(h.insert hlock).rowsOf_eq, h.rowsOf_eq]
  exact congrArg (List.filter _) (list_write hread)

theorem Ordered.visible_insert (h : d.Ordered select key) (row : R) (hu : u ≠ t) :
    (d.insert t row).table.visible u = d.table.visible u := by
  funext k
  by_cases hk : k = d.nextSequence
  · subst hk
    have hin : (d.insert t row).table.inflight d.nextSequence = some (t, row) :=
      inflight_write_self d.table t d.nextSequence row
    rw [visible_of_inflight_ne hin (Ne.symm hu), visible_of_not_mem h.not_mem]
    exact (d.table.complete _ h.not_mem).1
  · exact visible_write_of_ne hk

/-- The holder sees its row at the end. -/
theorem Ordered.rowsOf_insert_self (h : d.Ordered select key)
    (hlock : ∀ g, select g row = true → d.locks (key g) = some t) (sel : R → Bool) :
    (d.insert t row).rowsOf ((d.insert t row).table.visible t) sel =
      d.rowsOf (d.table.visible t) sel ++ if sel row = true then [(d.nextSequence, row)] else [] := by
  have hold : d.table.keys.filterMap (fun k => ((d.insert t row).table.visible t k).map (k, ·)) =
      d.table.list (d.table.visible t) := by
    refine List.filterMap_congr fun k hk => ?_
    rw [show (d.insert t row).table.visible t k = d.table.visible t k from
      visible_write_of_ne fun he => h.not_mem (he ▸ hk)]
  have hnew : (d.insert t row).table.visible t d.nextSequence = some row :=
    visible_write_self d.table t d.nextSequence row
  rw [(h.insert hlock).rowsOf_eq, h.rowsOf_eq, list, h.keys_insert, List.filterMap_append, hold,
    List.filter_append]
  congr 1
  by_cases hrow : sel row = true <;> simp [hnew, hrow]

theorem rowsOf_commit_insert (hquiet : d.table.Quiet) (t u : Txn) (row : R) (sel : R → Bool) :
    (Database.commit t (d.insert t row)).rowsOf ((Database.commit t (d.insert t row)).table.visible u) sel =
      (d.insert t row).rowsOf ((d.insert t row).table.visible t) sel := by
  refine rowsOf_congr rfl fun k row' _ => ?_
  have hvisible : (Database.commit t (d.insert t row)).table.visible u k =
      (Database.commit t (d.insert t row)).table.committed k :=
    visible_of_inflight_none ((hquiet.commit_write t d.nextSequence row).1 k)
  rw [hvisible]
  exact Iff.of_eq (congrArg (· = some row') (committed_commit _ t k))

end Rows

/-! ## what the statements keep -/

section Keeps

variable {G H : Type} {C : HashChain (Nat × R) H} {select : G → R → Bool} {key : G → K}
  {d : LockedLog R K} {t : Txn}

theorem Relies.refl (u : Txn) (d : LockedLog R K) : Relies select key u d d := ⟨fun _ h => h, fun _ _ => rfl⟩

theorem Relies.trans (h : Relies select key u d₁ d₂) (h' : Relies select key u d₂ d₃) : Relies select key u d₁ d₃ :=
  ⟨fun k hk => h'.locks k (h.locks k hk),
    fun g hg => (h'.rows g (h.locks _ hg)).trans (h.rows g hg)⟩

theorem advisoryXactLock_cases [DecidableEq K] (h : advisoryXactLock k t d = some ((), d')) :
    d' = { d with locks := Function.update d.locks k (some t) } ∧
      ∀ k' u, d.locks k' = some u → d'.locks k' = some u := by
  unfold LockedLog.advisoryXactLock at h
  split at h
  case isFalse => contradiction
  case isTrue hfree =>
    obtain ⟨-, rfl⟩ := Prod.mk.inj (Option.some.inj h)
    refine ⟨rfl, fun k' u hu => ?_⟩
    show Function.update d.locks k (some t) k' = some u
    by_cases hk : k' = k
    · subst hk
      rcases hfree with hnone | hsome
      · simp [hnone] at hu
      · rw [Function.update_self, ← hsome, hu]
    · rwa [Function.update_of_ne hk]

theorem Ordered.advisoryXactLock [DecidableEq K] (h : d.Ordered select key)
    (hlock : advisoryXactLock k t d = some ((), d')) : d'.Ordered select key := by
  obtain ⟨rfl, hkeep⟩ := advisoryXactLock_cases hlock
  exact ⟨h.ordered, h.bounded, h.insertOnly, fun k' u row g hin hsel => hkeep _ u (h.locked k' u row g hin hsel)⟩

/-- Taking a lock changes no row. -/
theorem Sound.advisoryXactLock [DecidableEq K] (h : d.Sound C select key)
    (hlock : advisoryXactLock k t d = some ((), d')) :
    (d'.Sound C select key ∧ ∀ u, u ≠ t → Relies select key u d d') ∧ d'.locks k = some t := by
  have hordered := h.toOrdered.advisoryXactLock hlock
  obtain ⟨rfl, hkeep⟩ := advisoryXactLock_cases hlock
  exact ⟨⟨⟨hordered, h.committed, h.visible⟩, fun u _ => ⟨fun k' hu => hkeep k' u hu, fun _ _ => rfl⟩⟩,
    Function.update_self ..⟩

/-- A row that links to the tip, under its lock, keeps every chain. -/
theorem Sound.insert (h : d.Sound C select key) (row : R)
    (hlock : ∀ g, select g row = true → d.locks (key g) = some t)
    (hprev : ∀ g, select g row = true →
      C.prev (d.nextSequence, row) = C.tip (d.rowsOf (d.table.visible t) (select g)))
    (hhash : C.hash (d.nextSequence, row) = C.digest (d.nextSequence, row)) :
    (d.insert t row).Sound C select key ∧ ∀ u, u ≠ t → Relies select key u d (d.insert t row) := by
  have hnone : ∀ u, d.table.visible u d.nextSequence = none :=
    fun u => visible_of_not_mem h.not_mem
  refine ⟨⟨h.toOrdered.insert hlock, fun g => ?_, fun u g => ?_⟩, fun u hu =>
    ⟨fun _ hk => hk, fun g _ => ?_⟩⟩
  · rw [h.rowsOf_insert hlock]
    · exact h.committed g
    · exact (d.table.complete _ h.not_mem).1
  · by_cases hu : u = t
    · subst hu
      rw [h.rowsOf_insert_self hlock]
      split
      · next hsel => exact HashChain.valid_concat.mpr ⟨h.visible u g, hprev g hsel, hhash⟩
      · rw [List.append_nil]
        exact h.visible u g
    · rw [h.visible_insert row hu, h.rowsOf_insert hlock (hnone u)]
      exact h.visible u g
  · rw [h.visible_insert row hu, h.rowsOf_insert hlock (hnone u)]

theorem release_eq_some : d.release t k = some u ↔ d.locks k = some u ∧ u ≠ t := by
  unfold release
  split
  · next he =>
      exact iff_of_false (Option.some_ne_none u).symm fun h => h.2 (Option.some.inj (h.1.symm.trans he))
  · next hne => exact ⟨fun h => ⟨h, fun he => hne (he ▸ h)⟩, And.left⟩

theorem release_of_ne (hu : u ≠ t) (hk : d.locks k = some u) : d.release t k = some u :=
  release_eq_some.mpr ⟨hk, hu⟩

/-- The log when a transaction has ended. -/
def ended (d : LockedLog R K) (t : Txn) (table : Table Nat R) : LockedLog R K :=
  { d with table, locks := d.release t }

theorem Ordered.ends (h : d.Ordered select key) {table : Table Nat R} (hkeys : table.keys = d.table.keys)
    (hin : table.inflight = d.table.othersInflight t) (hinsert : table.InsertOnly) :
    (d.ended t table).Ordered select key where
  ordered := by
    show table.keys.Pairwise _
    rw [hkeys]
    exact h.ordered
  bounded k hk := h.bounded k (hkeys ▸ hk)
  insertOnly := hinsert
  locked k u row g hrow hsel := by
    obtain ⟨hold, hu⟩ := othersInflight_eq_some.mp ((congrFun hin k).symm.trans hrow)
    exact release_of_ne hu (h.locked k u row g hold hsel)

theorem Ordered.commit (h : d.Ordered select key) (t : Txn) : Ordered select key (Database.commit t d) :=
  h.ends rfl rfl (h.insertOnly.commit t)

theorem Ordered.rollback (h : d.Ordered select key) (t : Txn) : Ordered select key (Database.rollback t d) :=
  h.ends rfl rfl (h.insertOnly.rollback t)

theorem Sound.ends (h : d.Sound C select key) (table : Table Nat R)
    (hkeys : table.keys = d.table.keys) (hin : table.inflight = d.table.othersInflight t)
    (hinsert : table.InsertOnly)
    (hcommitted : ∀ g, C.Valid ((d.ended t table).rowsOf table.committed (select g)))
    (hrows : ∀ u, u ≠ t → ∀ g, d.locks (key g) = some u →
      (d.ended t table).rowsOf (table.visible u) (select g) =
        d.rowsOf (d.table.visible u) (select g)) :
    (d.ended t table).Sound C select key ∧
      ∀ u, u ≠ t → Relies select key u d (d.ended t table) := by
  have hordered : (d.ended t table).Ordered select key := h.toOrdered.ends hkeys hin hinsert
  refine ⟨⟨hordered, hcommitted, fun u g => ?_⟩, fun u hu =>
    ⟨fun _ hk => release_of_ne hu hk, hrows u hu⟩⟩
  by_cases hlock : d.release t (key g) = some u
  · have hold : d.locks (key g) = some u ∧ u ≠ t := release_eq_some.mp hlock
    rw [show (d.ended t table).table.visible u = table.visible u from rfl, hrows u hold.2 g hold.1]
    exact h.visible u g
  · rw [hordered.rowsOf_visible hlock]
    exact hcommitted g

theorem Sound.commit (h : d.Sound C select key) (t : Txn) :
    Sound C select key (Database.commit t d) ∧
      ∀ u, u ≠ t → Relies select key u d (Database.commit t d) := by
  refine h.ends (d.table.commit t) rfl rfl (h.insertOnly.commit t) (fun g => ?_)
    fun u hu g hlock => ?_
  · exact h.visible t g
  · refine (rowsOf_congr rfl fun k row hsel => ?_).symm
    rcases visible_cases d.table u k with ⟨v, hv, hvisible⟩ | ⟨hno, hvisible⟩
    · rw [hvisible, visible_commit_of_inflight hu hv]
    · rw [hvisible, visible_of_no_inflight fun v hv =>
        hno v (inflight_commit_eq_some.mp hv).1, committed_commit]
      rcases visible_cases d.table t k with ⟨v, hv, hvis⟩ | ⟨-, hvis⟩
      · -- what `t` has in flight is of another group
        rw [hvis, h.insertOnly k t v hv]
        refine ⟨nofun, fun he => absurd (h.locked k t v g hv ?_) ?_⟩
        · rwa [Option.some.inj he]
        · rw [hlock]
          exact fun he => hu (Option.some.inj he)
      · rw [hvis]

theorem Sound.rollback (h : d.Sound C select key) (t : Txn) :
    Sound C select key (Database.rollback t d) ∧
      ∀ u, u ≠ t → Relies select key u d (Database.rollback t d) := by
  refine h.ends (d.table.rollback t) rfl rfl (h.insertOnly.rollback t) (fun g => h.committed g)
    fun u hu g _ => ?_
  rw [funext (visible_rollback_of_ne hu)]
  rfl

end Keeps

/-! ## every schedule -/

section Schedule

variable {G H E A B : Type} (C : HashChain (Nat × R) H) (select : G → R → Bool) (key : G → K)

/-- Transactions that append, and what they see. -/
def logic (admits : A → Prop) : Logic (LockedLog R K) A B where
  inv := Sound C select key
  rely := Relies select key
  fresh _ _ := True
  post _ _ _ _ := True
  ensures _ _ _ _ := True
  undone _ _ := True
  admits := admits

variable {C select key} {admits : A → Prop} {body : A → Prog (LockedLog R K) E B}

/-- The chains are an invariant of every transaction whose body keeps them. -/
theorem logic_sound
    (hbody : ∀ a t d, admits a → d.Sound C select key →
      (logic (B := B) C select key admits).wp t (fun _ _ => True) (body a) d) :
    (logic C select key admits).Sound body where
  refl := Relies.refl
  trans := Relies.trans
  fresh_rely _ _ _ := trivial
  ensures_rely _ _ _ := trivial
  undone_rely _ _ _ := trivial
  body ha h _ := hbody _ _ _ ha h
  commit h _ := ⟨⟨(Sound.commit h _).1, (Sound.commit h _).2⟩, trivial⟩
  rollback h := ⟨⟨(Sound.rollback h _).1, (Sound.rollback h _).2⟩, trivial⟩

variable {d : LockedLog R K}

theorem sound_of_quiet (hquiet : d.table.Quiet) (hordered : d.table.keys.Pairwise (· < ·))
    (hbounded : ∀ k ∈ d.table.keys, k < d.nextSequence)
    (hvalid : ∀ t g, C.Valid (d.rowsOf (d.table.visible t) (select g))) : d.Sound C select key where
  ordered := hordered
  bounded := hbounded
  insertOnly k t row hin := by
    rw [hquiet k] at hin
    contradiction
  locked k t row g hin := by
    rw [hquiet k] at hin
    contradiction
  committed g := by
    have hvisible : d.table.visible 0 = d.table.committed :=
      funext fun k => visible_of_inflight_none (hquiet k)
    rw [← hvisible]
    exact hvalid 0 g
  visible := hvalid

/-- **Every session sees valid chains**, in every state that a schedule reaches. -/
theorem valid_of_run (hsound : (logic C select key admits).Sound body) (hd : d.Sound C select key)
    {schedule : List (Action A)} {s : Sys (LockedLog R K) E A B} (hadmits : ∀ t a, .begin t a ∈ schedule → admits a)
    (hrun : run body (Sys.start d) schedule = some s) (t : Txn) (g : G) :
    C.Valid (s.db.rowsOf (s.db.table.visible t) (select g)) := by
  have hstart : (logic (B := B) C select key admits).Ok (Sys.start d : Sys (LockedLog R K) E A B) :=
    ⟨hd, fun _ => trivial⟩
  exact (hsound.run hstart (Logic.everyStep_of_admits hadmits fun _ _ _ => trivial) hrun).inv.visible t g

end Schedule

end LockedLog

end ReadCommitted
