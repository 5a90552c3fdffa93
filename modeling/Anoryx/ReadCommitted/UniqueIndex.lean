import Anoryx.ReadCommitted.LockedLog
import Anoryx.ReadCommitted.Session

/-!
# Anoryx.ReadCommitted.UniqueIndex

A table under keys from a sequence that has a unique index besides: an INSERT finds a row
with the same value in the index, waits for one that is in flight elsewhere, or goes in.

No two rows that are there, committed or in flight, have the same value (`OneEach`), so that
no order of commits can put two of them there.
-/

namespace ReadCommitted.LockedLog

variable {R K X : Type} [DecidableEq X] (index : R → X)

/-- An INSERT: the number of the row, or nothing when its value is taken; the sequence moves in
any case. -/
def insertUnique (row : R) (t : Txn) (d : LockedLog R K) : Option (Option Nat × LockedLog R K) :=
  if d.table.keys.any (fun n => !d.table.free t n && (d.table.newest n).any fun other => index other = index row) then
    none
  else if (d.table.scan t).any (fun other => index other.2 = index row) then
    some (none, { d with nextSequence := d.nextSequence + 1 })
  else some (some d.nextSequence, d.insert t row)

/-- The row is there, committed or in flight. -/
def Holds (d : LockedLog R K) (n : Nat) (row : R) : Prop :=
  d.table.committed n = some row ∨ ∃ t, d.table.inflight n = some (t, row)

/-- Each value is there once. -/
structure OneEach (d : LockedLog R K) : Prop where
  bounded : ∀ k ∈ d.table.keys, k < d.nextSequence
  insertOnly : d.table.InsertOnly
  once : ∀ n m row row', d.Holds n row → d.Holds m row' → index row = index row' → n = m

variable {index} {d d' : LockedLog R K} {t : Txn} {row : R} {n m : Nat}

omit [DecidableEq X] in
theorem OneEach.not_mem (h : d.OneEach index) : d.nextSequence ∉ d.table.keys :=
  fun hmem => absurd (h.bounded _ hmem) (Nat.lt_irrefl _)

omit [DecidableEq X] in
theorem OneEach.committed (h : d.OneEach index) {row row' : R} (hn : d.table.committed n = some row)
    (hm : d.table.committed m = some row') (hsame : index row = index row') : n = m :=
  h.once n m row row' (.inl hn) (.inl hm) hsame

omit [DecidableEq X] in
theorem oneEach_empty : (LockedLog.empty : LockedLog R K).OneEach index where
  bounded k hk := by cases hk
  insertOnly k t row hin := by cases hin
  once n m row row' hn := by
    rcases hn with hn | ⟨t, hn⟩
    · contradiction
    · contradiction

/-- A unique insert finds the value taken, or appends the row. -/
theorem insertUnique_cases {r : Option Nat} (hinsert : d.insertUnique index row t = some (r, d')) :
    (r = none ∧ d' = { d with nextSequence := d.nextSequence + 1 }) ∨
      (r = some d.nextSequence ∧ d' = d.insert t row ∧
        (∀ n u other, d.table.inflight n = some (u, other) → u ≠ t → index other ≠ index row) ∧
        ∀ n other, d.table.visible t n = some other → index other ≠ index row) := by
  unfold insertUnique at hinsert
  split at hinsert
  case isTrue => contradiction
  case isFalse hwaits =>
    split at hinsert
    case isTrue =>
      cases hinsert
      exact .inl ⟨rfl, rfl⟩
    case isFalse hnone =>
      cases hinsert
      refine .inr ⟨rfl, rfl, fun n u other hin hu hsame => hwaits ?_, fun n other hvisible hsame => hnone ?_⟩
      · have hmem : n ∈ d.table.keys := by
          by_contra hmem
          rw [(d.table.complete n hmem).2] at hin
          contradiction
        refine List.any_eq_true.mpr ⟨n, hmem, ?_⟩
        simp [Table.free, Table.newest, hin, hu, hsame]
      · exact List.any_eq_true.mpr ⟨(n, other), Table.mem_scan.mpr hvisible, decide_eq_true hsame⟩

omit [DecidableEq X] in
theorem OneEach.of_holds (h : d.OneEach index) (hbounded : ∀ k ∈ d'.table.keys, k < d'.nextSequence)
    (hinsertOnly : d'.table.InsertOnly) (hholds : ∀ n row, d'.Holds n row → d.Holds n row) : d'.OneEach index :=
  ⟨hbounded, hinsertOnly, fun n m row row' hn hm => h.once n m row row' (hholds n row hn) (hholds m row' hm)⟩

/-- A unique insert keeps the values apart. -/
theorem OneEach.insertUnique {r : Option Nat} (h : d.OneEach index)
    (hinsert : d.insertUnique index row t = some (r, d')) : d'.OneEach index := by
  rcases insertUnique_cases hinsert with ⟨-, rfl⟩ | ⟨-, rfl, hothers, hmine⟩
  · exact ⟨fun k hk => Nat.lt_succ_of_lt (h.bounded k hk), h.insertOnly, h.once⟩
  -- the new row has a value of its own
  have hnew : ∀ n other, d.Holds n other → index other ≠ index row := by
    rintro n other (hcommitted | ⟨u, hin⟩)
    · rcases Table.visible_cases d.table t n with ⟨v, hin, -⟩ | ⟨-, hvisible⟩
      · rw [h.insertOnly n t v hin] at hcommitted
        contradiction
      · exact hmine n other (hvisible.trans hcommitted)
    · by_cases hu : u = t
      · subst hu
        exact hmine n other (Table.visible_of_inflight hin)
      · exact hothers n u other hin hu
  have hholds : ∀ n other, (d.insert t row).Holds n other →
      (n = d.nextSequence ∧ other = row) ∨ d.Holds n other :=
    fun _ _ hold => (Table.HasVersion.of_write hold).symm
  refine ⟨fun k hk => ?_, fun k u other hin => ?_, fun n m r r' hn hm hsame => ?_⟩
  · have hkeys : (d.insert t row).table.keys = d.table.keys ++ [d.nextSequence] := if_neg h.not_mem
    rw [hkeys, List.mem_append, List.mem_singleton] at hk
    show k < d.nextSequence + 1
    rcases hk with hk | rfl
    · exact Nat.lt_succ_of_lt (h.bounded k hk)
    · exact Nat.lt_succ_self _
  · rcases Table.inflight_write_cases hin with ⟨rfl, -⟩ | ⟨-, hin⟩
    · exact (d.table.complete _ h.not_mem).1
    · exact h.insertOnly k u other hin
  · rcases hholds n r hn with ⟨hn, hr⟩ | hold
    · rcases hholds m r' hm with ⟨hm, -⟩ | hold'
      · exact hn.trans hm.symm
      · exact absurd (hr ▸ hsame.symm) (hnew m r' hold')
    · rcases hholds m r' hm with ⟨-, hr'⟩ | hold'
      · exact absurd (hr' ▸ hsame) (hnew n r hold)
      · exact h.once n m r r' hold hold' hsame

omit [DecidableEq X] in
theorem holds_of_commit (h : (Database.commit t d : LockedLog R K).Holds n row) : d.Holds n row :=
  Table.HasVersion.of_commit h

omit [DecidableEq X] in
theorem holds_of_rollback (h : (Database.rollback t d : LockedLog R K).Holds n row) : d.Holds n row :=
  Table.HasVersion.of_rollback h

omit [DecidableEq X] in
theorem OneEach.commit (h : d.OneEach index) (t : Txn) : (Database.commit t d : LockedLog R K).OneEach index :=
  h.of_holds h.bounded (h.insertOnly.commit t) fun _ _ => holds_of_commit

omit [DecidableEq X] in
theorem OneEach.rollback (h : d.OneEach index) (t : Txn) : (Database.rollback t d : LockedLog R K).OneEach index :=
  h.of_holds h.bounded (h.insertOnly.rollback t) fun _ _ => holds_of_rollback

end ReadCommitted.LockedLog
