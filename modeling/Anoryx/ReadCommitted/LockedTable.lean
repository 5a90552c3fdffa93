import Anoryx.ReadCommitted.RelyGuarantee

/-!
# Anoryx.ReadCommitted.LockedTable

A table that is only inserted into, where the rows of a group are inserted under the
group's advisory lock, which a transaction keeps to its end.

What is checked of a group before an INSERT then still holds at the INSERT: `Guarded P`
says that every reader finds rows with `P` in every group, `Relies` that the rows of a
group stay as they are for the session that has its lock.
-/

namespace ReadCommitted

open Table

/-! ## the table and its locks -/

/-- The rows, and the advisory locks with their holders. -/
structure LockedTable (K V L : Type) where
  table : Table K V
  locks : L → Option Txn

namespace LockedTable

variable {K V L : Type}

def empty : LockedTable K V L := ⟨Table.empty, fun _ => none⟩

/-- The locks when a transaction has ended. -/
def release (t : Txn) (d : LockedTable K V L) : L → Option Txn :=
  fun key => if d.locks key = some t then none else d.locks key

instance : Database (LockedTable K V L) where
  commit t d := ⟨d.table.commit t, release t d⟩
  rollback t d := ⟨d.table.rollback t, release t d⟩

/-- `SELECT pg_advisory_xact_lock(…)`: waits until nobody else has the lock. -/
def advisoryXactLock [DecidableEq L] (key : L) (t : Txn) (d : LockedTable K V L) :
    Option (Unit × LockedTable K V L) :=
  if d.locks key = none ∨ d.locks key = some t then
    some ((), { d with locks := Function.update d.locks key (some t) })
  else none

/-- An INSERT; `false` when there is a row under the key. -/
def insert [DecidableEq K] (k : K) (row : V) (t : Txn) (d : LockedTable K V L) :
    Option (Bool × LockedTable K V L) :=
  (d.table.insertOrIgnore t k row).map fun p => (p.1, { d with table := p.2 })

/-! ## the invariant -/

section Invariant

variable {G : Type} (P : G → Multiset (K × V) → Prop) (select : G → V → Bool) (key : G → L)

/-- What is in flight is under the lock of its group, and every reader finds rows with `P`. -/
structure Guarded (d : LockedTable K V L) : Prop where
  insertOnly : d.table.InsertOnly
  locked : ∀ k t row g, d.table.inflight k = some (t, row) → select g row = true →
    d.locks (key g) = some t
  committed : ∀ g, P g (d.table.rowsOf d.table.committed (select g))
  visible : ∀ t g, P g (d.table.rowsOf (d.table.visible t) (select g))

/-- What a transaction may rely on: it keeps its locks, and finds the rows of a group whose
lock it has as they were. -/
structure Relies (u : Txn) (d d' : LockedTable K V L) : Prop where
  locks : ∀ k, d.locks k = some u → d'.locks k = some u
  rows : ∀ g, d.locks (key g) = some u → ∀ k row, select g row = true →
    (d.table.visible u k = some row ↔ d'.table.visible u k = some row)

end Invariant

variable {G : Type} {P : G → Multiset (K × V) → Prop} {select : G → V → Bool} {key : G → L}
  {d d' : LockedTable K V L} {t u : Txn}

theorem Relies.refl (u : Txn) (d : LockedTable K V L) : Relies select key u d d :=
  ⟨fun _ h => h, fun _ _ _ _ _ => Iff.rfl⟩

theorem Relies.trans {d₁ d₂ d₃ : LockedTable K V L} (h : Relies select key u d₁ d₂)
    (h' : Relies select key u d₂ d₃) : Relies select key u d₁ d₃ :=
  ⟨fun k hk => h'.locks k (h.locks k hk),
    fun g hg k row hrow => (h.rows g hg k row hrow).trans (h'.rows g (h.locks _ hg) k row hrow)⟩

/-- The holder of a lock keeps the rows of its group. -/
theorem Relies.rowsOf_perm (h : Relies select key u d d') {g : G} (hlock : d.locks (key g) = some u) :
    (d.table.rowsOf (d.table.visible u) (select g)).Perm (d'.table.rowsOf (d'.table.visible u) (select g)) :=
  Table.rowsOf_perm (d.table.reads_visible u) (d'.table.reads_visible u) (h.rows g hlock)

variable {row : V} {k : L}

theorem Guarded.visible_iff (h : d.Guarded P select key) {g : G} (hlock : d.locks (key g) ≠ some u) {k : K}
    (hrow : select g row = true) : d.table.visible u k = some row ↔ d.table.committed k = some row := by
  rcases visible_cases d.table u k with ⟨v, hv, hvisible⟩ | ⟨-, hvisible⟩
  · rw [hvisible, h.insertOnly k u v hv]
    refine ⟨fun he => absurd (h.locked k u v g hv ?_) hlock,
      fun he => absurd he.symm (Option.some_ne_none row)⟩
    rwa [Option.some.inj he]
  · rw [hvisible]

theorem advisoryXactLock_cases [DecidableEq L] (h : advisoryXactLock k t d = some ((), d')) :
    d' = { d with locks := Function.update d.locks k (some t) } ∧
      ∀ k' u, d.locks k' = some u → d'.locks k' = some u := by
  unfold LockedTable.advisoryXactLock at h
  split at h
  case isFalse => contradiction
  case isTrue hfree =>
    obtain ⟨-, rfl⟩ := Prod.mk.inj (Option.some.inj h)
    refine ⟨rfl, fun k' u hu => ?_⟩
    show Function.update d.locks k (some t) k' = some u
    by_cases hk : k' = k
    · subst hk
      grind
    · rwa [Function.update_of_ne hk]

theorem Guarded.advisoryXactLock [DecidableEq L] (h : d.Guarded P select key)
    (hlock : advisoryXactLock k t d = some ((), d')) :
    d'.Guarded P select key ∧ (∀ u, Relies select key u d d') ∧ d'.table = d.table ∧
      d'.locks k = some t := by
  obtain ⟨rfl, hkeep⟩ := advisoryXactLock_cases hlock
  exact ⟨⟨h.insertOnly, fun k' u row g hin hsel => hkeep _ u (h.locked k' u row g hin hsel), h.committed,
      h.visible⟩, fun u => ⟨fun k' hu => hkeep k' u hu, fun _ _ _ _ _ => Iff.rfl⟩, rfl,
    Function.update_self ..⟩

theorem insert_cases [DecidableEq K] {k : K} {b : Bool} (h : insert k row t d = some (b, d')) :
    (b = false ∧ d' = d ∧ ∃ row', d.table.visible t k = some row') ∨
      (b = true ∧ d' = { d with table := d.table.write t k row } ∧ d.table.inflight k = none ∧
        d.table.committed k = none) := by
  unfold insert at h
  obtain ⟨⟨b', tbl⟩, hins, he⟩ := Option.map_eq_some_iff.mp h
  obtain ⟨rfl, rfl⟩ := Prod.mk.inj he
  rcases insertOrIgnore_cases hins with ⟨rfl, rfl, hrow⟩ | ⟨rfl, rfl, hin, hc⟩
  · exact .inl ⟨rfl, rfl, hrow⟩
  · exact .inr ⟨rfl, rfl, hin, hc⟩

/-- **The INSERT** of a row that goes with the rows which its transaction sees. -/
theorem Guarded.write [DecidableEq K] (h : d.Guarded P select key) {k : K} (hin : d.table.inflight k = none)
    (hc : d.table.committed k = none) (hlock : ∀ g, select g row = true → d.locks (key g) = some t)
    (hrow : ∀ g, select g row = true →
      P g ((k, row) ::ₘ (d.table.rowsOf (d.table.visible t) (select g) : Multiset (K × V)))) :
    Guarded P select key { d with table := d.table.write t k row } ∧
      ∀ u, u ≠ t → Relies select key u d { d with table := d.table.write t k row } := by
  have hnone : d.table.visible t k = none := (visible_of_inflight_none hin).trans hc
  have hother : ∀ u, u ≠ t → (d.table.write t k row).visible u = d.table.visible u :=
    fun u hu => visible_write_of_txn_ne hu hin
  refine ⟨⟨fun k' u v hin' => ?_, fun k' u v g hin' hsel => ?_, fun g => ?_, fun u g => ?_⟩, fun u hu =>
    ⟨fun _ hk => hk, fun g _ k' w _ => by rw [hother u hu]⟩⟩
  · rcases inflight_write_cases hin' with ⟨rfl, -⟩ | ⟨-, hin'⟩
    · exact hc
    · exact h.insertOnly k' u v hin'
  · rcases inflight_write_cases hin' with ⟨-, rfl, rfl⟩ | ⟨-, hin'⟩
    · exact hlock g hsel
    · exact h.locked k' u v g hin' hsel
  · have hperm := rowsOf_perm (p := select g) d.table.reads_committed
      (d.table.write t k row).reads_committed fun k' w _ => by rw [committed_write]
    exact Multiset.coe_eq_coe.mpr hperm ▸ h.committed g
  · by_cases hu : u = t
    · subst hu
      by_cases hsel : select g row = true
      · have hperm := rowsOf_visible_write hnone hsel
        exact (Multiset.coe_eq_coe.mpr hperm).symm ▸ hrow g hsel
      · have hperm := rowsOf_perm (d.table.reads_visible u) ((d.table.write u k row).reads_visible u)
          (p := select g) fun k' w hw => by
            by_cases hk : k' = k
            · subst hk
              rw [visible_write_self, hnone]
              grind
            · rw [visible_write_of_ne hk]
        exact Multiset.coe_eq_coe.mpr hperm ▸ h.visible u g
    · have hperm := rowsOf_perm (d.table.reads_visible u) ((d.table.write t k row).reads_visible u)
          (p := select g) fun k' w _ => by rw [hother u hu]
      exact Multiset.coe_eq_coe.mpr hperm ▸ h.visible u g

/-! ## the end of a transaction -/

theorem release_eq_some : d.release t k = some u ↔ d.locks k = some u ∧ u ≠ t := by
  unfold release
  split
  · next he =>
      exact iff_of_false (Option.some_ne_none u).symm fun h => h.2 (Option.some.inj (h.1.symm.trans he))
  · next hne => exact ⟨fun h => ⟨h, fun he => hne (he ▸ h)⟩, And.left⟩

theorem release_of_ne (hu : u ≠ t) (hk : d.locks k = some u) : d.release t k = some u :=
  release_eq_some.mpr ⟨hk, hu⟩

theorem Guarded.ends (h : d.Guarded P select key) (table : Table K V)
    (hin : table.inflight = d.table.othersInflight t) (hinsert : table.InsertOnly)
    (hcommitted : ∀ g, P g (table.rowsOf table.committed (select g)))
    (hrows : ∀ u, u ≠ t → ∀ g, d.locks (key g) = some u → ∀ k row, select g row = true →
      (d.table.visible u k = some row ↔ table.visible u k = some row)) :
    Guarded P select key ⟨table, d.release t⟩ ∧
      ∀ u, u ≠ t → Relies select key u d ⟨table, d.release t⟩ := by
  have hlocked : ∀ k u row g, table.inflight k = some (u, row) → select g row = true →
      d.release t (key g) = some u := by
    intro k u row g hrow hsel
    obtain ⟨hold, hu⟩ := othersInflight_eq_some.mp ((congrFun hin k).symm.trans hrow)
    exact release_of_ne hu (h.locked k u row g hold hsel)
  refine ⟨⟨hinsert, hlocked, hcommitted, fun u g => ?_⟩, fun u hu =>
    ⟨fun _ hk => release_of_ne hu hk, hrows u hu⟩⟩
  by_cases hlock : d.release t (key g) = some u
  · have hold : d.locks (key g) = some u ∧ u ≠ t := release_eq_some.mp hlock
    have hperm := rowsOf_perm (d.table.reads_visible u) (table.reads_visible u) (hrows u hold.2 g hold.1)
    exact Multiset.coe_eq_coe.mpr hperm ▸ h.visible u g
  · have hperm := rowsOf_perm (p := select g) table.reads_committed (table.reads_visible u)
      fun k row hsel => by
        rcases visible_cases table u k with ⟨v, hv, hvisible⟩ | ⟨-, hvisible⟩
        · rw [hvisible, hinsert k u v hv]
          refine ⟨fun he => absurd he.symm (Option.some_ne_none row),
            fun he => absurd (hlocked k u v g hv ?_) hlock⟩
          rwa [Option.some.inj he]
        · rw [hvisible]
    exact Multiset.coe_eq_coe.mpr hperm ▸ hcommitted g

/-- A commit keeps what is guarded, and the others may rely on theirs. -/
theorem Guarded.commit (h : d.Guarded P select key) (t : Txn) :
    Guarded P select key (Database.commit t d) ∧
      ∀ u, u ≠ t → Relies select key u d (Database.commit t d) := by
  refine h.ends (d.table.commit t) rfl (h.insertOnly.commit t) (fun g => h.visible t g)
    fun u hu g hlock k row hsel => ?_
  rcases visible_cases d.table u k with ⟨v, hv, hvisible⟩ | ⟨hno, hvisible⟩
  · rw [hvisible, visible_commit_of_inflight hu hv]
  · rw [hvisible, visible_of_no_inflight fun v hv =>
      hno v (inflight_commit_eq_some.mp hv).1, committed_commit]
    -- what `t` has in flight is of another group
    refine (h.visible_iff ?_ hsel).symm
    rw [hlock]
    exact fun he => hu (Option.some.inj he)

theorem Guarded.rollback (h : d.Guarded P select key) (t : Txn) :
    Guarded P select key (Database.rollback t d) ∧
      ∀ u, u ≠ t → Relies select key u d (Database.rollback t d) := by
  refine h.ends (d.table.rollback t) rfl (h.insertOnly.rollback t) (fun g => h.committed g)
    fun u hu g _ k row _ => ?_
  rw [visible_rollback_of_ne hu]

theorem guarded_of_quiet (hquiet : d.table.Quiet)
    (hcommitted : ∀ g, P g (d.table.rowsOf d.table.committed (select g))) : d.Guarded P select key where
  insertOnly k t row hin := by
    rw [hquiet k] at hin
    contradiction
  locked k t row g hin := by
    rw [hquiet k] at hin
    contradiction
  committed := hcommitted
  visible t g := by
    rw [show d.table.visible t = d.table.committed from
      funext fun k => visible_of_inflight_none (hquiet k)]
    exact hcommitted g

/-! ## every schedule -/

section Schedule

variable {E A B : Type} (P select key)

/-- Transactions on such a table, and what they see. -/
def logic (admits : A → Prop) : Logic (LockedTable K V L) A B where
  inv := Guarded P select key
  rely := Relies select key
  fresh _ _ := True
  post _ _ _ _ := True
  ensures _ _ _ _ := True
  undone _ _ := True
  admits := admits

variable {P select key} {admits : A → Prop} {body : A → Prog (LockedTable K V L) E B}

/-- What is guarded is an invariant of every transaction whose body keeps it. -/
theorem logic_sound
    (hbody : ∀ a t d, admits a → d.Guarded P select key →
      (logic (B := B) P select key admits).wp t (fun _ _ => True) (body a) d) :
    (logic P select key admits).Sound body where
  refl := Relies.refl
  trans := Relies.trans
  fresh_rely _ _ _ := trivial
  ensures_rely _ _ _ := trivial
  undone_rely _ _ _ := trivial
  body ha h _ := hbody _ _ _ ha h
  commit h _ := ⟨⟨(Guarded.commit h _).1, (Guarded.commit h _).2⟩, trivial⟩
  rollback h := ⟨⟨(Guarded.rollback h _).1, (Guarded.rollback h _).2⟩, trivial⟩

/-- **Every session finds rows with `P`**, in every state that a schedule reaches. -/
theorem guarded_of_run (hsound : (logic P select key admits).Sound body) {d : LockedTable K V L}
    (hd : d.Guarded P select key) {schedule : List (Action A)} {s : Sys (LockedTable K V L) E A B}
    (hadmits : ∀ t a, .begin t a ∈ schedule → admits a)
    (hrun : run body (Sys.start d) schedule = some s) : s.db.Guarded P select key := by
  have hstart : (logic (B := B) P select key admits).Ok (Sys.start d : Sys (LockedTable K V L) E A B) :=
    ⟨hd, fun _ => trivial⟩
  exact (hsound.run hstart (Logic.everyStep_of_admits hadmits fun _ _ _ => trivial) hrun).inv

end Schedule

end LockedTable

end ReadCommitted
