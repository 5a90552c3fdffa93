import Mathlib

/-!
# Anoryx.ReadCommitted.Table

Tables under READ COMMITTED isolation.  A table keeps, for every primary (or
unique) key, the committed row and at most one *in-flight* version: the row
as an open transaction has written it, together with that transaction.  The
in-flight version *is* the row lock, so two open transactions never hold
versions of one row — the representation has no room for it.

Statements follow the database's rules:

* a read sees the committed row, or the reader's own in-flight version
  (`visible`);
* `INSERT … ON CONFLICT DO NOTHING` waits for another transaction's in-flight
  row under the same key, and does nothing once a row is there
  (`insertOrIgnore`);
* `UPDATE … WHERE` matches the row its snapshot sees, waits for the row lock,
  and re-checks the predicate on the version it finds then (`updateWhere`).

A statement that has to wait is simply not enabled: it returns `none`.
Commit makes a transaction's view the committed table, rollback forgets its
in-flight versions.
-/

namespace ReadCommitted

/-- Transaction ids; an id is never used again after its transaction ends. -/
abbrev Txn := Nat

/-- A table: committed rows, in-flight versions (with the transaction that
holds them), and the keys a row was ever written under, for scans. -/
@[ext]
structure Table (K V : Type) where
  committed : K → Option V
  inflight : K → Option (Txn × V)
  keys : List K
  nodup : keys.Nodup
  complete : ∀ k, k ∉ keys → committed k = none ∧ inflight k = none

variable {t t' u : Txn} {b : Bool}

namespace Table

variable {K V : Type}

/-- The table without rows. -/
def empty : Table K V where
  committed _ := none
  inflight _ := none
  keys := []
  nodup := List.nodup_nil
  complete _ _ := ⟨rfl, rfl⟩

/-! ## reads -/

/-- The row a statement of `t` sees under `k`: its own in-flight version, else
the committed one. -/
def visible (tbl : Table K V) (t : Txn) (k : K) : Option V :=
  match tbl.inflight k with
  | some (t', v) => if t' = t then some v else tbl.committed k
  | none => tbl.committed k

/-- The newest version of the row under `k`, committed or not. -/
def newest (tbl : Table K V) (k : K) : Option V :=
  match tbl.inflight k with
  | some (_, v) => some v
  | none => tbl.committed k

/-- No other transaction holds the row lock of `k`. -/
def free (tbl : Table K V) (t : Txn) (k : K) : Bool :=
  match tbl.inflight k with
  | some (t', _) => t' == t
  | none => true

/-- The version of the row under `k` that `t` has written and not committed. -/
def version (tbl : Table K V) (t : Txn) (k : K) : Option V :=
  match tbl.inflight k with
  | some (t', v) => if t' = t then some v else none
  | none => none

/-- The rows a reader finds, key by key. -/
def list (tbl : Table K V) (read : K → Option V) : List (K × V) :=
  tbl.keys.filterMap fun k => (read k).map (k, ·)

/-- Full table scan as `t` sees it. -/
def scan (tbl : Table K V) (t : Txn) : List (K × V) := tbl.list (tbl.visible t)

def rows (tbl : Table K V) : List (K × V) := tbl.list tbl.committed

/-- The rows `t` has written and not committed. -/
def held (tbl : Table K V) (t : Txn) : List (K × V) := tbl.list (tbl.version t)

variable {k : K} {v : V}

variable {tbl tbl' : Table K V} {read read' : K → Option V} {p : V → Bool} {f : V → V}
  {r : Option V}

theorem visible_of_inflight (h : tbl.inflight k = some (t, v)) : tbl.visible t k = some v := by
  simp [visible, h]

theorem visible_of_inflight_ne (h : tbl.inflight k = some (t', v)) (hne : t' ≠ t) :
    tbl.visible t k = tbl.committed k := by
  simp [visible, h, hne]

theorem visible_of_inflight_none (h : tbl.inflight k = none) :
    tbl.visible t k = tbl.committed k := by
  simp [visible, h]

/-- A transaction sees its own version of a key, or else the committed one. -/
theorem visible_cases (tbl : Table K V) (t : Txn) (k : K) :
    (∃ v, tbl.inflight k = some (t, v) ∧ tbl.visible t k = some v) ∨
      ((∀ v, tbl.inflight k ≠ some (t, v)) ∧ tbl.visible t k = tbl.committed k) := by
  cases h : tbl.inflight k with
  | none => exact .inr ⟨by simp, visible_of_inflight_none h⟩
  | some p =>
      obtain ⟨t', v⟩ := p
      by_cases ht : t' = t
      · subst ht
        exact .inl ⟨v, rfl, visible_of_inflight h⟩
      · refine .inr ⟨?_, visible_of_inflight_ne h ht⟩
        intro w hw
        exact ht (congrArg Prod.fst (Option.some.inj hw))

theorem visible_of_no_inflight (h : ∀ v, tbl.inflight k ≠ some (t, v)) :
    tbl.visible t k = tbl.committed k := by
  rcases visible_cases tbl t k with ⟨v, hv, _⟩ | ⟨_, hc⟩
  · exact absurd hv (h v)
  · exact hc

/-- A key is free for a transaction when nobody else holds a version of it. -/
theorem free_iff : tbl.free t k = true ↔ ∀ t' v, tbl.inflight k = some (t', v) → t' = t := by
  unfold free
  cases h : tbl.inflight k with
  | none => simp
  | some p =>
      obtain ⟨t', v⟩ := p
      constructor
      · intro he t₁ v₁ h₁
        have ht : t' = t := by simpa using he
        rw [Option.some.injEq, Prod.mk.injEq] at h₁
        exact h₁.1 ▸ ht
      · intro hall
        simpa using hall t' v rfl

theorem newest_eq_visible (h : tbl.free t k = true) : tbl.newest k = tbl.visible t k := by
  cases hi : tbl.inflight k with
  | none => simp [newest, visible, hi]
  | some p =>
      obtain ⟨t', v⟩ := p
      have ht : t' = t := free_iff.mp h t' v hi
      simp [newest, visible, hi, ht]

theorem version_eq_some : tbl.version t k = some v ↔ tbl.inflight k = some (t, v) := by
  unfold version
  cases h : tbl.inflight k with
  | none => simp
  | some p =>
      obtain ⟨t', w⟩ := p
      by_cases ht : t' = t <;> simp [ht]

theorem mem_list (hcomplete : ∀ k, k ∉ tbl.keys → read k = none) :
    (k, v) ∈ tbl.list read ↔ read k = some v := by
  simp only [list, List.mem_filterMap, Option.map_eq_some_iff, Prod.mk.injEq]
  constructor
  · rintro ⟨k', _, v', hv, rfl, rfl⟩
    exact hv
  · intro h
    refine ⟨k, ?_, v, h, rfl, rfl⟩
    by_contra hk
    rw [hcomplete k hk] at h
    contradiction

theorem nodup_list (tbl : Table K V) (read : K → Option V) :
    ((tbl.list read).map Prod.fst).Nodup := by
  have hkeys : (tbl.list read).map Prod.fst = tbl.keys.filter fun k => (read k).isSome := by
    rw [list, List.map_filterMap, ← List.filterMap_eq_filter]
    refine List.filterMap_congr fun k _ => ?_
    cases h : read k <;> simp [Option.guard, h]
  rw [hkeys]
  exact tbl.nodup.filter _

theorem visible_of_not_mem (h : k ∉ tbl.keys) : tbl.visible t k = none := by
  obtain ⟨hc, hi⟩ := tbl.complete k h
  rw [visible_of_inflight_none hi, hc]

theorem version_of_not_mem (h : k ∉ tbl.keys) : tbl.version t k = none := by
  simp [version, (tbl.complete k h).2]

theorem mem_scan : (k, v) ∈ tbl.scan t ↔ tbl.visible t k = some v :=
  mem_list fun _ => visible_of_not_mem

theorem mem_rows : (k, v) ∈ tbl.rows ↔ tbl.committed k = some v :=
  mem_list fun k h => (tbl.complete k h).1

theorem mem_held : (k, v) ∈ tbl.held t ↔ tbl.inflight k = some (t, v) := by
  rw [← version_eq_some]
  exact mem_list fun _ => version_of_not_mem

/-- Readers that agree on what passes a filter list the same. -/
theorem list_filter_congr {p : K × V → Bool}
    (h : ∀ k v, p (k, v) = true → (read k = some v ↔ read' k = some v)) :
    (tbl.list read).filter p = (tbl.list read').filter p := by
  simp only [list, List.filter_filterMap]
  refine List.filterMap_congr fun k _ => ?_
  refine Option.ext fun q => ?_
  simp only [Option.filter_eq_some_iff, Option.map_eq_some_iff]
  constructor
  · rintro ⟨⟨v, hv, rfl⟩, hp⟩
    exact ⟨⟨v, (h k v hp).mp hv, rfl⟩, hp⟩
  · rintro ⟨⟨v, hv, rfl⟩, hp⟩
    exact ⟨⟨v, (h k v hp).mpr hv, rfl⟩, hp⟩

/-! ## writes -/

section Write

variable [DecidableEq K]

/-- Transaction `t` writes the version `v` of the row under `k`. -/
def write (tbl : Table K V) (t : Txn) (k : K) (v : V) : Table K V where
  committed := tbl.committed
  inflight := Function.update tbl.inflight k (some (t, v))
  keys := if k ∈ tbl.keys then tbl.keys else tbl.keys ++ [k]
  nodup := by
    split
    · exact tbl.nodup
    · next hk =>
        exact List.nodup_append.mpr ⟨tbl.nodup, List.nodup_singleton k, by
          intro a ha b hb he
          rw [List.mem_singleton] at hb
          exact hk (hb ▸ he ▸ ha)⟩
  complete k' hk' := by
    have hne : k' ≠ k := by
      rintro rfl
      split at hk' <;> simp_all
    have hold : k' ∉ tbl.keys := by
      intro hmem
      split at hk' <;> simp_all
    rw [Function.update_of_ne hne]
    exact tbl.complete k' hold

@[simp] theorem committed_write (tbl : Table K V) (t : Txn) (k : K) (v : V) :
    (tbl.write t k v).committed = tbl.committed := rfl

@[simp] theorem inflight_write_self (tbl : Table K V) (t : Txn) (k : K) (v : V) :
    (tbl.write t k v).inflight k = some (t, v) := by
  simp [write]

theorem inflight_write_of_ne {k k' : K} {v : V} (h : k' ≠ k) :
    (tbl.write t k v).inflight k' = tbl.inflight k' := by
  simp [write, h]

/-- In flight are then the row that was written and, under other keys, what was before. -/
theorem inflight_write_cases {k k' : K} {v w : V} (h : (tbl.write t k v).inflight k' = some (u, w)) :
    (k' = k ∧ u = t ∧ w = v) ∨ (k' ≠ k ∧ tbl.inflight k' = some (u, w)) := by
  by_cases hk : k' = k
  · subst hk
    rw [inflight_write_self, Option.some.injEq, Prod.mk.injEq] at h
    exact .inl ⟨rfl, h.1.symm, h.2.symm⟩
  · rw [inflight_write_of_ne hk] at h
    exact .inr ⟨hk, h⟩

@[simp] theorem visible_write_self (tbl : Table K V) (t : Txn) (k : K) (v : V) :
    (tbl.write t k v).visible t k = some v :=
  visible_of_inflight (inflight_write_self tbl t k v)

theorem visible_write_of_ne {k k' : K} {v : V} (h : k' ≠ k) :
    (tbl.write t k v).visible t' k' = tbl.visible t' k' := by
  simp [visible, inflight_write_of_ne h]

theorem write_write (tbl : Table K V) (t : Txn) (k : K) (v w : V) :
    (tbl.write t k v).write t k w = tbl.write t k w := by
  have hkeys : k ∈ (tbl.write t k v).keys := by
    simp only [write]
    split <;> simp_all
  ext1
  · rfl
  · exact Function.update_idem _ _ _
  · exact if_pos hkeys

theorem newest_write_self (tbl : Table K V) (t : Txn) (k : K) (v : V) :
    (tbl.write t k v).newest k = some v := by
  simp [newest]

theorem newest_write_of_ne {k k' : K} {v : V} (h : k' ≠ k) :
    (tbl.write t k v).newest k' = tbl.newest k' := by
  simp [newest, inflight_write_of_ne h]

/-- `INSERT … ON CONFLICT DO NOTHING`: `true` when the row went in, `none`
while another transaction's row under the key is in flight. -/
def insertOrIgnore (tbl : Table K V) (t : Txn) (k : K) (v : V) : Option (Bool × Table K V) :=
  if tbl.free t k then
    match tbl.visible t k with
    | some _ => some (false, tbl)
    | none => some (true, tbl.write t k v)
  else none

/-- `UPDATE … SET … WHERE key = k AND p` with `RETURNING`: the new version, or
nothing when no row matches; `none` while the row lock is held elsewhere. -/
def updateWhere (tbl : Table K V) (t : Txn) (k : K) (p : V → Bool) (f : V → V) :
    Option (Option V × Table K V) :=
  match tbl.visible t k with
  | none => some (none, tbl)
  | some v =>
      if p v then
        if tbl.free t k then some (some (f v), tbl.write t k (f v)) else none
      else some (none, tbl)

/-- An insert meets a visible row and does nothing, or writes where there is none. -/
theorem insertOrIgnore_cases {k : K} {v : V} (h : tbl.insertOrIgnore t k v = some (b, tbl')) :
    (b = false ∧ tbl' = tbl ∧ ∃ w, tbl.visible t k = some w) ∨
      (b = true ∧ tbl' = tbl.write t k v ∧ tbl.inflight k = none ∧ tbl.committed k = none) := by
  unfold insertOrIgnore at h
  split at h
  · next hfree =>
      cases hv : tbl.visible t k with
      | some w =>
          simp only [hv, Option.some.injEq, Prod.mk.injEq] at h
          exact .inl ⟨h.1.symm, h.2.symm, w, rfl⟩
      | none =>
          simp only [hv, Option.some.injEq, Prod.mk.injEq] at h
          refine .inr ⟨h.1.symm, h.2.symm, ?_⟩
          cases hi : tbl.inflight k with
          | none => exact ⟨rfl, by rw [← hv, visible_of_inflight_none hi]⟩
          | some p =>
              obtain ⟨t', w⟩ := p
              have ht : t' = t := free_iff.mp hfree t' w hi
              subst ht
              rw [visible_of_inflight hi] at hv
              contradiction
  · contradiction

/-- An update matches no row, or rewrites the visible one. -/
theorem updateWhere_cases {k : K} (h : tbl.updateWhere t k p f = some (r, tbl')) :
    (r = none ∧ tbl' = tbl ∧ ∀ v, tbl.visible t k = some v → p v = false) ∨
      (∃ v, tbl.visible t k = some v ∧ p v = true ∧ tbl.free t k = true ∧
        r = some (f v) ∧ tbl' = tbl.write t k (f v)) := by
  unfold updateWhere at h
  cases hv : tbl.visible t k with
  | none =>
      simp only [hv, Option.some.injEq, Prod.mk.injEq] at h
      exact .inl ⟨h.1.symm, h.2.symm, by simp⟩
  | some v =>
      simp only [hv] at h
      split at h
      · next hp =>
          split at h
          · next hfree =>
              rw [Option.some.injEq, Prod.mk.injEq] at h
              exact .inr ⟨v, rfl, hp, hfree, h.1.symm, h.2.symm⟩
          · contradiction
      · next hp =>
          rw [Option.some.injEq, Prod.mk.injEq] at h
          refine .inl ⟨h.1.symm, h.2.symm, ?_⟩
          intro w hw
          rw [← Option.some.inj hw]
          simpa using hp

end Write

/-! ## the end of a transaction -/

/-- The in-flight versions that are not `t`'s. -/
def othersInflight (tbl : Table K V) (t : Txn) (k : K) : Option (Txn × V) :=
  match tbl.inflight k with
  | some (t', v) => if t' = t then none else some (t', v)
  | none => none

theorem othersInflight_eq_some :
    tbl.othersInflight t k = some (t', v) ↔ tbl.inflight k = some (t', v) ∧ t' ≠ t := by
  unfold othersInflight
  cases h : tbl.inflight k with
  | none => simp
  | some p =>
      obtain ⟨t₁, v₁⟩ := p
      by_cases ht : t₁ = t
      · simp only [ht, if_true, reduceCtorEq, Option.some.injEq, Prod.mk.injEq, false_iff]
        rintro ⟨⟨rfl, _⟩, hne⟩
        exact hne rfl
      · simp only [ht, if_false, Option.some.injEq, Prod.mk.injEq]
        constructor
        · rintro ⟨rfl, rfl⟩
          exact ⟨⟨rfl, rfl⟩, ht⟩
        · exact And.left

/-- COMMIT: the view of `t` becomes the committed table. -/
def commit (tbl : Table K V) (t : Txn) : Table K V where
  committed := tbl.visible t
  inflight := tbl.othersInflight t
  keys := tbl.keys
  nodup := tbl.nodup
  complete k hk := by
    obtain ⟨hc, hi⟩ := tbl.complete k hk
    exact ⟨by rw [visible_of_inflight_none hi, hc], by simp [othersInflight, hi]⟩

/-- ROLLBACK: the in-flight versions of `t` are forgotten. -/
def rollback (tbl : Table K V) (t : Txn) : Table K V where
  committed := tbl.committed
  inflight := tbl.othersInflight t
  keys := tbl.keys
  nodup := tbl.nodup
  complete k hk := by
    obtain ⟨hc, hi⟩ := tbl.complete k hk
    exact ⟨hc, by simp [othersInflight, hi]⟩

@[simp] theorem committed_commit (tbl : Table K V) (t : Txn) (k : K) :
    (tbl.commit t).committed k = tbl.visible t k := rfl

@[simp] theorem committed_rollback (tbl : Table K V) (t : Txn) (k : K) :
    (tbl.rollback t).committed k = tbl.committed k := rfl

@[simp] theorem inflight_commit_eq_some :
    (tbl.commit t).inflight k = some (t', v) ↔ tbl.inflight k = some (t', v) ∧ t' ≠ t :=
  othersInflight_eq_some

@[simp] theorem inflight_rollback_eq_some :
    (tbl.rollback t).inflight k = some (t', v) ↔ tbl.inflight k = some (t', v) ∧ t' ≠ t :=
  othersInflight_eq_some

theorem visible_rollback_of_ne (hne : t' ≠ t) (k : K) :
    (tbl.rollback t).visible t' k = tbl.visible t' k := by
  rcases visible_cases tbl t' k with ⟨v, hv, hvis⟩ | ⟨hno, hvis⟩
  · rw [hvis, visible_of_inflight (inflight_rollback_eq_some.mpr ⟨hv, hne⟩)]
  · rw [hvis, visible_of_no_inflight]
    · rfl
    · intro v hv
      exact hno v (inflight_rollback_eq_some.mp hv).1

theorem visible_commit_of_inflight (hne : t' ≠ t) (h : tbl.inflight k = some (t', v)) :
    (tbl.commit t).visible t' k = some v :=
  visible_of_inflight (inflight_commit_eq_some.mpr ⟨h, hne⟩)

theorem committed_commit_of_no_inflight (h : ∀ v, tbl.inflight k ≠ some (t, v)) :
    (tbl.commit t).committed k = tbl.committed k :=
  visible_of_no_inflight h

theorem othersInflight_of_no_inflight (h : ∀ k v, tbl.inflight k ≠ some (t, v)) :
    tbl.othersInflight t = tbl.inflight := by
  funext k
  refine Option.ext fun p => ?_
  obtain ⟨t', v⟩ := p
  rw [othersInflight_eq_some]
  exact ⟨And.left, fun hin => ⟨hin, fun ht => h k v (ht ▸ hin)⟩⟩

theorem commit_eq_self (h : ∀ k v, tbl.inflight k ≠ some (t, v)) : tbl.commit t = tbl :=
  Table.ext (funext fun k => visible_of_no_inflight (h k)) (othersInflight_of_no_inflight h) rfl

/-- The transactions from `t` on hold no row. -/
def UnheldFrom (t : Txn) (tbl : Table K V) : Prop :=
  ∀ t', t ≤ t' → ∀ k v, tbl.inflight k ≠ some (t', v)

theorem UnheldFrom.mono (h : tbl.UnheldFrom t) (hle : t ≤ t') : tbl.UnheldFrom t' :=
  fun u hu => h u (Nat.le_trans hle hu)

theorem UnheldFrom.commit (h : tbl.UnheldFrom (t + 1)) : (tbl.commit t).UnheldFrom t := by
  intro t' hle k v hv
  obtain ⟨hin, hne⟩ := inflight_commit_eq_some.mp hv
  exact h t' (Nat.lt_of_le_of_ne hle hne.symm) k v hin

theorem UnheldFrom.rollback (h : tbl.UnheldFrom (t + 1)) : (tbl.rollback t).UnheldFrom t := by
  intro t' hle k v hv
  obtain ⟨hin, hne⟩ := inflight_rollback_eq_some.mp hv
  exact h t' (Nat.lt_of_le_of_ne hle hne.symm) k v hin

/-! ## versions -/

section Version

/-- `v` is the committed version of the row under `k`, or one in flight. -/
def HasVersion (tbl : Table K V) (k : K) (v : V) : Prop :=
  tbl.committed k = some v ∨ ∃ t, tbl.inflight k = some (t, v)

theorem HasVersion.of_visible {k : K} {v : V} (h : tbl.visible t k = some v) :
    tbl.HasVersion k v := by
  rcases visible_cases tbl t k with ⟨w, hw, hvis⟩ | ⟨_, hvis⟩
  · rw [hvis, Option.some.injEq] at h
    exact .inr ⟨t, h ▸ hw⟩
  · exact .inl (hvis.symm.trans h)

theorem HasVersion.of_commit {k : K} {v : V} (h : (tbl.commit t).HasVersion k v) :
    tbl.HasVersion k v := by
  rcases h with h | ⟨t', h⟩
  · exact .of_visible h
  · exact .inr ⟨t', (inflight_commit_eq_some.mp h).1⟩

theorem HasVersion.of_rollback {k : K} {v : V} (h : (tbl.rollback t).HasVersion k v) :
    tbl.HasVersion k v := by
  rcases h with h | ⟨t', h⟩
  · exact .inl h
  · exact .inr ⟨t', (inflight_rollback_eq_some.mp h).1⟩

theorem HasVersion.of_write [DecidableEq K] {k k' : K} {v w : V}
    (h : (tbl.write t k v).HasVersion k' w) : tbl.HasVersion k' w ∨ (k' = k ∧ w = v) := by
  rcases h with h | ⟨t', h⟩
  · exact .inl (.inl h)
  · rcases inflight_write_cases h with ⟨rfl, -, rfl⟩ | ⟨-, h⟩
    · exact .inr ⟨rfl, rfl⟩
    · exact .inl (.inr ⟨t', h⟩)

end Version

/-! ## what others leave alone -/

section Frame

/-- Seen from `u`, the table moves only by the writes, commits and rollbacks of
others: the row versions `u` holds stay, and nothing joins them. -/
structure Frame (u : Txn) (tbl tbl' : Table K V) : Prop where
  inflight : ∀ k v, tbl.inflight k = some (u, v) ↔ tbl'.inflight k = some (u, v)
  held : tbl'.held u = tbl.held u

theorem Frame.refl (u : Txn) (tbl : Table K V) : Frame u tbl tbl := ⟨fun _ _ => Iff.rfl, rfl⟩

theorem Frame.trans {a b c : Table K V} (h₁ : Frame u a b) (h₂ : Frame u b c) : Frame u a c :=
  ⟨fun k v => (h₁.inflight k v).trans (h₂.inflight k v), h₂.held.trans h₁.held⟩

theorem Frame.version (h : Frame u tbl tbl') (k : K) : tbl'.version u k = tbl.version u k := by
  refine Option.ext fun v => ?_
  rw [version_eq_some, version_eq_some, h.inflight]

theorem Frame.visible_eq {k : K} (h : Frame u tbl tbl') (hc : tbl'.committed k = tbl.committed k) :
    tbl'.visible u k = tbl.visible u k := by
  rcases visible_cases tbl u k with ⟨v, hv, hvis⟩ | ⟨hno, hvis⟩
  · rw [hvis, visible_of_inflight ((h.inflight k v).mp hv)]
  · rw [hvis, visible_of_no_inflight fun v hv => hno v ((h.inflight k v).mpr hv), hc]

/-- The end of another transaction takes away its own versions only. -/
theorem frame_end (tbl : Table K V) (hne : u ≠ t) (tbl' : Table K V) (hkeys : tbl'.keys = tbl.keys)
    (hin : tbl'.inflight = tbl.othersInflight t) : Frame u tbl tbl' := by
  have hiff : ∀ k v, tbl.inflight k = some (u, v) ↔ tbl'.inflight k = some (u, v) := by
    intro k v
    rw [hin, othersInflight_eq_some]
    exact ⟨fun h => ⟨h, hne⟩, And.left⟩
  refine ⟨hiff, ?_⟩
  have hread : tbl'.version u = tbl.version u := by
    funext k
    refine Option.ext fun v => ?_
    rw [version_eq_some, version_eq_some, hiff]
  simp only [Table.held, list, hkeys, hread]

theorem frame_commit (tbl : Table K V) (hne : u ≠ t) : Frame u tbl (tbl.commit t) :=
  frame_end tbl hne _ rfl rfl

theorem frame_rollback (tbl : Table K V) (hne : u ≠ t) : Frame u tbl (tbl.rollback t) :=
  frame_end tbl hne _ rfl rfl

variable [DecidableEq K]

theorem list_write {k : K} {v : V} (h : read k = none) :
    (tbl.write t k v).list read = tbl.list read := by
  simp only [list, write]
  split
  · rfl
  · simp [h]

theorem frame_write {k : K} {v : V} (hne : u ≠ t) (hfree : tbl.free t k = true) :
    Frame u tbl (tbl.write t k v) := by
  have hold : ∀ w, tbl.inflight k ≠ some (u, w) := fun w hw => hne (free_iff.mp hfree u w hw)
  have hiff : ∀ k' w, tbl.inflight k' = some (u, w) ↔
      (tbl.write t k v).inflight k' = some (u, w) := by
    intro k' w
    by_cases hk : k' = k
    · subst hk
      simp only [inflight_write_self, Option.some.injEq, Prod.mk.injEq]
      exact ⟨fun h => absurd h (hold w), fun h => absurd h.1.symm hne⟩
    · rw [inflight_write_of_ne hk]
  have hread : (tbl.write t k v).version u = tbl.version u := by
    funext k'
    refine Option.ext fun w => ?_
    rw [version_eq_some, version_eq_some, hiff]
  refine ⟨hiff, ?_⟩
  have hnone : tbl.version u k = none := by
    rw [Option.eq_none_iff_forall_ne_some]
    intro w hw
    exact hold w (version_eq_some.mp hw)
  rw [Table.held, hread, list_write hnone]
  rfl

/-- An insert of one transaction is in the frame of the others. -/
theorem frame_insertOrIgnore {k : K} {v : V} (h : tbl.insertOrIgnore t k v = some (b, tbl'))
    (hne : u ≠ t) : Frame u tbl tbl' := by
  rcases insertOrIgnore_cases h with ⟨_, rfl, _⟩ | ⟨_, rfl, hi, _⟩
  · exact Frame.refl u tbl'
  · exact frame_write hne (free_iff.mpr (by simp [hi]))

theorem frame_updateWhere {k : K} (h : tbl.updateWhere t k p f = some (r, tbl')) (hne : u ≠ t) :
    Frame u tbl tbl' := by
  rcases updateWhere_cases h with ⟨_, rfl, _⟩ | ⟨v, _, _, hfree, _, rfl⟩
  · exact Frame.refl u tbl'
  · exact frame_write hne hfree

end Frame

/-! ## running alone -/

section Alone

/-- No transaction but `t` holds a row. -/
def HeldBy (t : Txn) (tbl : Table K V) : Prop := ∀ k, tbl.free t k = true

/-- No transaction holds a row. -/
def Quiet (tbl : Table K V) : Prop := ∀ k, tbl.inflight k = none

variable [DecidableEq K]

theorem UnheldFrom.write {k : K} {v : V} (h : tbl.UnheldFrom u) (hlt : t < u) :
    (tbl.write t k v).UnheldFrom u := by
  intro t' hle k' v' hv
  rcases inflight_write_cases hv with ⟨-, rfl, -⟩ | ⟨-, hv⟩
  · exact Nat.lt_irrefl _ (Nat.lt_of_lt_of_le hlt hle)
  · exact h t' hle k' v' hv

theorem HeldBy.write {k : K} {v : V} (h : tbl.HeldBy t) : (tbl.write t k v).HeldBy t := by
  intro k'
  rw [free_iff]
  intro t' v' hv
  rcases inflight_write_cases hv with ⟨-, rfl, -⟩ | ⟨-, hv⟩
  · rfl
  · exact free_iff.mp (h k') t' v' hv

theorem HeldBy.insertOrIgnore (h : tbl.HeldBy t) (k : K) (v : V) :
    ∃ b tbl', tbl.insertOrIgnore t k v = some (b, tbl') ∧ tbl'.HeldBy t := by
  cases hv : tbl.visible t k with
  | some w => exact ⟨false, tbl, by simp [Table.insertOrIgnore, h k, hv], h⟩
  | none => exact ⟨true, tbl.write t k v, by simp [Table.insertOrIgnore, h k, hv], h.write⟩

theorem HeldBy.updateWhere (h : tbl.HeldBy t) (k : K) (p : V → Bool) (f : V → V) :
    ∃ r tbl', tbl.updateWhere t k p f = some (r, tbl') ∧ tbl'.HeldBy t := by
  cases hv : tbl.visible t k with
  | none => exact ⟨none, tbl, by simp [Table.updateWhere, hv], h⟩
  | some w =>
      cases hp : p w with
      | false => exact ⟨none, tbl, by simp [Table.updateWhere, hv, hp], h⟩
      | true =>
          exact ⟨some (f w), tbl.write t k (f w), by simp [Table.updateWhere, hv, hp, h k], h.write⟩

omit [DecidableEq K] in
theorem HeldBy.othersInflight (h : tbl.HeldBy t) (k : K) : tbl.othersInflight t k = none := by
  rw [Option.eq_none_iff_forall_ne_some]
  rintro ⟨t', v⟩ hv
  obtain ⟨hin, hne⟩ := othersInflight_eq_some.mp hv
  exact hne (free_iff.mp (h k) t' v hin)

omit [DecidableEq K] in
theorem Quiet.heldBy (h : tbl.Quiet) (t : Txn) : tbl.HeldBy t :=
  fun k => free_iff.mpr fun t' v hv => by
    rw [h k] at hv
    contradiction

omit [DecidableEq K] in
theorem Quiet.commit_eq_self (h : tbl.Quiet) (t : Txn) : tbl.commit t = tbl :=
  Table.commit_eq_self fun k v hv => by
    rw [h k] at hv
    contradiction

/-- One row written and committed in a quiet table. -/
theorem Quiet.commit_write (h : tbl.Quiet) (t : Txn) (k : K) (v : V) :
    ((tbl.write t k v).commit t).Quiet ∧
      ∀ k', ((tbl.write t k v).commit t).committed k' = if k' = k then some v else tbl.committed k' := by
  constructor
  · exact (h.heldBy t).write.othersInflight
  · intro k'
    rw [committed_commit]
    split
    · next hk => rw [hk, visible_write_self]
    · next hk => rw [visible_write_of_ne hk, visible_of_inflight_none (h k')]

/-- A filter that takes neither the old row nor the new one does not see the write. -/
theorem Quiet.filter_rows_commit_write {k : K} {v : V} {p : K × V → Bool} (h : tbl.Quiet) (t : Txn)
    (hold : ∀ w ∈ tbl.committed k, p (k, w) = false) (hnew : p (k, v) = false) :
    ((tbl.write t k v).commit t).rows.filter p = tbl.rows.filter p := by
  have hrow : ∀ k', ((((tbl.write t k v).commit t).committed k').map (k', ·)).filter p =
      ((tbl.committed k').map (k', ·)).filter p := by
    intro k'
    rw [(h.commit_write t k v).2 k']
    split
    · next hk =>
        subst hk
        cases hcommitted : tbl.committed k' with
        | none => simp [Option.filter, hnew]
        | some w => simp [Option.filter, hnew, hold w hcommitted]
    · rfl
  have hkeys : ∀ keys : List K,
      (keys.filterMap fun k' => (((tbl.write t k v).commit t).committed k').map (k', ·)).filter p =
        (keys.filterMap fun k' => (tbl.committed k').map (k', ·)).filter p := by
    intro keys
    rw [List.filter_filterMap, List.filter_filterMap]
    exact List.filterMap_congr fun k' _ => hrow k'
  rw [rows, list, hkeys, rows, list]
  show List.filter p (List.filterMap _ (if k ∈ tbl.keys then tbl.keys else tbl.keys ++ [k])) = _
  split
  · rfl
  · next hk => simp [(tbl.complete k hk).1]

end Alone

/-! ## what a transaction adds, alone -/

section Adds

/-- What `t` sees is what it saw and the new rows, under keys that were free. -/
structure Adds (t : Txn) (tbl tbl' : Table K V) (new : List (K × V)) : Prop where
  free : ∀ p ∈ new, tbl.visible t p.1 = none
  distinct : (new.map Prod.fst).Nodup
  visible : ∀ k v, tbl'.visible t k = some v ↔ tbl.visible t k = some v ∨ (k, v) ∈ new
  heldBy : tbl.HeldBy t → tbl'.HeldBy t

variable {t : Txn} {tbl tbl' tbl'' : Table K V} {new new' : List (K × V)}

theorem Adds.refl (t : Txn) (tbl : Table K V) : Adds t tbl tbl [] where
  free _ hp := absurd hp List.not_mem_nil
  distinct := List.nodup_nil
  visible k v := by simp
  heldBy h := h

theorem Adds.trans (h : Adds t tbl tbl' new) (h' : Adds t tbl' tbl'' new') : Adds t tbl tbl'' (new ++ new') := by
  have hold : ∀ k v, tbl.visible t k = some v → tbl'.visible t k = some v :=
    fun k v hv => (h.visible k v).mpr (.inl hv)
  refine ⟨fun p hp => ?_, ?_, fun k v => ?_, fun hheld => h'.heldBy (h.heldBy hheld)⟩
  · rcases List.mem_append.mp hp with hp | hp
    · exact h.free p hp
    · refine Option.eq_none_iff_forall_ne_some.mpr fun v hv => ?_
      exact Option.some_ne_none _ ((hold p.1 v hv).symm.trans (h'.free p hp))
  · rw [List.map_append, List.nodup_append]
    refine ⟨h.distinct, h'.distinct, ?_⟩
    rintro k hk k' hk' rfl
    obtain ⟨p, hp, rfl⟩ := List.mem_map.mp hk
    obtain ⟨p', hp', he⟩ := List.mem_map.mp hk'
    have hseen : tbl'.visible t p.1 = some p.2 := (h.visible p.1 p.2).mpr (.inr hp)
    rw [← he, h'.free p' hp'] at hseen
    contradiction
  · rw [h'.visible, h.visible, List.mem_append, or_assoc]

theorem Adds.insert [DecidableEq K] {k : K} {v : V} (h : tbl.insertOrIgnore t k v = some (true, tbl')) :
    Adds t tbl tbl' [(k, v)] := by
  rcases insertOrIgnore_cases h with ⟨hb, -⟩ | ⟨-, rfl, hin, hc⟩
  · contradiction
  have hnone : tbl.visible t k = none := (visible_of_inflight_none hin).trans hc
  refine ⟨fun p hp => ?_, List.nodup_singleton k, fun k' v' => ?_, HeldBy.write⟩
  · rw [List.mem_singleton.mp hp]
    exact hnone
  · rw [List.mem_singleton, Prod.mk.injEq]
    by_cases hk : k' = k
    · subst hk
      rw [visible_write_self, hnone, Option.some.injEq]
      grind
    · rw [visible_write_of_ne hk]
      grind

theorem Adds.commit (h : Adds t tbl tbl' new) (hquiet : tbl.Quiet) : (tbl'.commit t).Quiet ∧
    (∀ p ∈ new, tbl.committed p.1 = none) ∧
      ∀ k v, (tbl'.commit t).committed k = some v ↔ tbl.committed k = some v ∨ (k, v) ∈ new := by
  have hvisible : tbl.visible t = tbl.committed := funext fun k => visible_of_inflight_none (hquiet k)
  refine ⟨(h.heldBy (hquiet.heldBy t)).othersInflight, fun p hp => hvisible ▸ h.free p hp, fun k v => ?_⟩
  rw [committed_commit, h.visible, hvisible]

end Adds

/-! ## append-only tables -/

section AppendOnly

/-- Rows are only ever inserted: a version in flight has no committed row yet. -/
def InsertOnly (tbl : Table K V) : Prop :=
  ∀ k t v, tbl.inflight k = some (t, v) → tbl.committed k = none

/-- Committed rows stay as they are. -/
def Grows (tbl tbl' : Table K V) : Prop :=
  ∀ k v, tbl.committed k = some v → tbl'.committed k = some v

theorem Grows.refl (tbl : Table K V) : Grows tbl tbl := fun _ _ h => h

theorem Grows.trans {a b c : Table K V} (h₁ : Grows a b) (h₂ : Grows b c) : Grows a c :=
  fun k v h => h₂ k v (h₁ k v h)

theorem insertOnly_empty : (empty : Table K V).InsertOnly := by
  intro k t v h
  rfl

theorem InsertOnly.commit (h : tbl.InsertOnly) (t : Txn) : (tbl.commit t).InsertOnly := by
  intro k t' v hin
  obtain ⟨hin, hne⟩ := inflight_commit_eq_some.mp hin
  rw [committed_commit, visible_of_inflight_ne hin hne]
  exact h k t' v hin

theorem InsertOnly.rollback (h : tbl.InsertOnly) (t : Txn) : (tbl.rollback t).InsertOnly := by
  intro k t' v hin
  exact h k t' v (inflight_rollback_eq_some.mp hin).1

/-- Where rows are only inserted, a commit loses none. -/
theorem InsertOnly.grows_commit (h : tbl.InsertOnly) (t : Txn) : Grows tbl (tbl.commit t) := by
  intro k v hc
  rw [committed_commit, visible_of_no_inflight, hc]
  intro w hw
  rw [h k t w hw] at hc
  contradiction

/-- In a table of inserts a row once seen is seen for good. -/
theorem Frame.visible_of_grows {k : K} {v : V} (hf : Frame u tbl tbl') (hg : Grows tbl tbl')
    (hins : tbl'.InsertOnly) (h : tbl.visible u k = some v) : tbl'.visible u k = some v := by
  rcases visible_cases tbl u k with ⟨w, hw, hvis⟩ | ⟨hno, hvis⟩
  · rw [visible_of_inflight ((hf.inflight k w).mp hw), ← hvis, h]
  · have hc : tbl'.committed k = some v := hg k v (hvis ▸ h)
    rw [visible_of_no_inflight, hc]
    intro w hw
    rw [hins k u w hw] at hc
    contradiction

variable [DecidableEq K]

theorem InsertOnly.insertOrIgnore {k : K} {v : V} (hins : tbl.InsertOnly)
    (h : tbl.insertOrIgnore t k v = some (b, tbl')) : tbl'.InsertOnly := by
  rcases insertOrIgnore_cases h with ⟨_, rfl, _⟩ | ⟨_, rfl, hi, hc⟩
  · exact hins
  · intro k' t' v' hin
    by_cases hk : k' = k
    · subst hk
      exact hc
    · rw [inflight_write_of_ne hk] at hin
      exact hins k' t' v' hin

theorem committed_insertOrIgnore {k : K} {v : V} (h : tbl.insertOrIgnore t k v = some (b, tbl')) :
    tbl'.committed = tbl.committed := by
  rcases insertOrIgnore_cases h with ⟨_, rfl, _⟩ | ⟨_, rfl, _⟩ <;> rfl

theorem committed_updateWhere {k : K} (h : tbl.updateWhere t k p f = some (r, tbl')) :
    tbl'.committed = tbl.committed := by
  rcases updateWhere_cases h with ⟨_, rfl, _⟩ | ⟨v, _, _, _, _, rfl⟩ <;> rfl

theorem visible_insertOrIgnore {k : K} {v : V} (h : tbl.insertOrIgnore t k v = some (b, tbl')) :
    ∃ w, tbl'.visible t k = some w := by
  rcases insertOrIgnore_cases h with ⟨_, rfl, hw⟩ | ⟨_, rfl, _⟩
  · exact hw
  · exact ⟨v, visible_write_self tbl t k v⟩

theorem InsertOnly.insertOrIgnore_of_committed {k : K} {v w : V} (hins : tbl.InsertOnly)
    (hc : tbl.committed k = some w) : tbl.insertOrIgnore t k v = some (false, tbl) := by
  have hin : tbl.inflight k = none := by
    cases hi : tbl.inflight k with
    | none => rfl
    | some p =>
        obtain ⟨t', v'⟩ := p
        rw [hins k t' v' hi] at hc
        contradiction
  have hfree : tbl.free t k = true := free_iff.mpr (by simp [hin])
  simp [Table.insertOrIgnore, hfree, visible_of_inflight_none hin, hc]

theorem visible_insertOrIgnore_of_some {k k' : K} {v w : V}
    (h : tbl.insertOrIgnore t k v = some (b, tbl')) (hw : tbl.visible t k' = some w) :
    tbl'.visible t k' = some w := by
  rcases insertOrIgnore_cases h with ⟨_, rfl, _⟩ | ⟨_, rfl, hi, hc⟩
  · exact hw
  · have hk : k' ≠ k := by
      rintro rfl
      rw [visible_of_inflight_none hi, hc] at hw
      contradiction
    rw [visible_write_of_ne hk, hw]

end AppendOnly

/-! ## the rows of a group -/

section Group

/-- The rows of a group that a reader finds. -/
def rowsOf (tbl : Table K V) (read : K → Option V) (p : V → Bool) : List (K × V) :=
  (tbl.list read).filter fun q => p q.2

/-- A reader that finds nothing where no row was ever written. -/
def Reads (tbl : Table K V) (read : K → Option V) : Prop := ∀ k, k ∉ tbl.keys → read k = none

theorem reads_committed (tbl : Table K V) : tbl.Reads tbl.committed := fun k hk => (tbl.complete k hk).1

theorem reads_visible (tbl : Table K V) (t : Txn) : tbl.Reads (tbl.visible t) :=
  fun _ hk => visible_of_not_mem hk

variable {tbl tbl' : Table K V} {read read' : K → Option V} {p : V → Bool}

theorem mem_rowsOf (h : tbl.Reads read) {k : K} {v : V} :
    (k, v) ∈ tbl.rowsOf read p ↔ read k = some v ∧ p v = true := by
  rw [rowsOf, List.mem_filter, mem_list h]

theorem nodup_rowsOf (tbl : Table K V) (read : K → Option V) (p : V → Bool) :
    (tbl.rowsOf read p).Nodup :=
  (List.Nodup.of_map _ (tbl.nodup_list read)).filter _

/-- Readers that agree on the selected rows have the same rows. -/
theorem rowsOf_perm (h : tbl.Reads read) (h' : tbl'.Reads read')
    (hagree : ∀ k v, p v = true → (read k = some v ↔ read' k = some v)) :
    (tbl.rowsOf read p).Perm (tbl'.rowsOf read' p) := by
  rw [List.perm_ext_iff_of_nodup (nodup_rowsOf ..) (nodup_rowsOf ..)]
  rintro ⟨k, v⟩
  rw [mem_rowsOf h, mem_rowsOf h']
  grind

/-- One more selected row. -/
theorem rowsOf_perm_cons (h : tbl.Reads read) (h' : tbl'.Reads read') {k : K} {v : V}
    (hnone : read k = none) (hsel : p v = true)
    (hagree : ∀ k' w, p w = true → (read' k' = some w ↔ (k' = k ∧ w = v) ∨ read k' = some w)) :
    (tbl'.rowsOf read' p).Perm ((k, v) :: tbl.rowsOf read p) := by
  have hnew : (k, v) ∉ tbl.rowsOf read p := by
    rw [mem_rowsOf h, hnone]
    exact fun hmem => absurd hmem.1.symm (Option.some_ne_none v)
  rw [List.perm_ext_iff_of_nodup (nodup_rowsOf ..) (List.nodup_cons.mpr ⟨hnew, nodup_rowsOf ..⟩)]
  rintro ⟨k', w⟩
  rw [mem_rowsOf h', List.mem_cons, mem_rowsOf h, Prod.mk.injEq]
  grind

theorem rowsOf_visible_write [DecidableEq K] {k : K} {v : V} (hnone : tbl.visible t k = none)
    (hsel : p v = true) : ((tbl.write t k v).rowsOf ((tbl.write t k v).visible t) p).Perm
      ((k, v) :: tbl.rowsOf (tbl.visible t) p) := by
  refine rowsOf_perm_cons (tbl.reads_visible t) ((tbl.write t k v).reads_visible t) hnone hsel fun k' w _ => ?_
  by_cases hk : k' = k
  · subst hk
    rw [visible_write_self, hnone, Option.some.injEq]
    grind
  · rw [visible_write_of_ne hk]
    grind

theorem insertOrIgnore_true [DecidableEq K] {k : K} {v : V}
    (h : tbl.insertOrIgnore t k v = some (true, tbl')) :
    tbl' = tbl.write t k v ∧ tbl.inflight k = none ∧ tbl.committed k = none := by
  rcases insertOrIgnore_cases h with ⟨hb, -⟩ | ⟨-, rfl, hin, hc⟩
  · contradiction
  · exact ⟨rfl, hin, hc⟩

theorem visible_write_of_txn_ne [DecidableEq K] {k : K} {v : V} (hu : u ≠ t)
    (hin : tbl.inflight k = none) : (tbl.write t k v).visible u = tbl.visible u := by
  funext k'
  by_cases hk : k' = k
  · subst hk
    rw [visible_of_inflight_ne (inflight_write_self tbl t k' v) (Ne.symm hu),
      visible_of_inflight_none hin, committed_write]
  · exact visible_write_of_ne hk

end Group

end Table

/-! ## append-only logs -/

/-- A table that is only ever appended to: the committed rows in commit order,
and the rows open transactions have appended. -/
structure Log (V : Type) where
  committed : List V
  inflight : List (Txn × V)

namespace Log

variable {V : Type}

/-- The log without rows. -/
def empty : Log V := ⟨[], []⟩

/-- The rows `t` has appended and not yet committed. -/
def own (log : Log V) (t : Txn) : List V :=
  (log.inflight.filter fun p => p.1 = t).map Prod.snd

/-- Append under an advisory lock held to the end of the transaction: `none`
while another transaction has appended and not ended. -/
def append (log : Log V) (t : Txn) (v : V) : Option (Unit × Log V) :=
  if log.inflight.all fun p => p.1 = t then
    some ((), { log with inflight := log.inflight ++ [(t, v)] })
  else none

/-- COMMIT of `t`. -/
def commit (log : Log V) (t : Txn) : Log V where
  committed := log.committed ++ log.own t
  inflight := log.inflight.filter fun p => p.1 ≠ t

/-- ROLLBACK of `t`. -/
def rollback (log : Log V) (t : Txn) : Log V where
  committed := log.committed
  inflight := log.inflight.filter fun p => p.1 ≠ t

/-- The transactions from `t` on have appended nothing. -/
def UnheldFrom (t : Txn) (log : Log V) : Prop := ∀ t', t ≤ t' → ∀ v, (t', v) ∉ log.inflight

variable {log : Log V}

theorem UnheldFrom.mono (h : log.UnheldFrom t) (hle : t ≤ t') : log.UnheldFrom t' :=
  fun u hu => h u (Nat.le_trans hle hu)

theorem UnheldFrom.commit (h : log.UnheldFrom (t + 1)) : (log.commit t).UnheldFrom t := by
  intro t' hle v hv
  obtain ⟨hin, hne⟩ := List.mem_filter.mp hv
  exact h t' (Nat.lt_of_le_of_ne hle (Ne.symm (by simpa using hne))) v hin

theorem UnheldFrom.rollback (h : log.UnheldFrom (t + 1)) : (log.rollback t).UnheldFrom t :=
  UnheldFrom.commit h

variable {v : V}

theorem append_cases {log log' : Log V} {u : Unit} (h : log.append t v = some (u, log')) :
    log'.committed = log.committed ∧ log'.inflight = log.inflight ++ [(t, v)] := by
  unfold append at h
  split at h
  · rw [Option.some.injEq, Prod.mk.injEq] at h
    rw [← h.2]
    exact ⟨rfl, rfl⟩
  · contradiction

theorem UnheldFrom.append {log log' : Log V} {x : Unit} (h : log.UnheldFrom u)
    (ha : log.append t v = some (x, log')) (hlt : t < u) : log'.UnheldFrom u := by
  intro t' hle v' hv
  rw [(append_cases ha).2, List.mem_append, List.mem_singleton, Prod.mk.injEq] at hv
  rcases hv with hv | ⟨rfl, _⟩
  · exact h t' hle v' hv
  · exact Nat.lt_irrefl t' (Nat.lt_of_lt_of_le hlt hle)

/-- No transaction but `t` has appended anything. -/
def HeldBy (t : Txn) (log : Log V) : Prop := ∀ p ∈ log.inflight, p.1 = t

theorem HeldBy.append (h : log.HeldBy t) (v : V) :
    ∃ log', log.append t v = some ((), log') ∧ log'.HeldBy t := by
  have hall : (log.inflight.all fun p => p.1 = t) = true := by
    rw [List.all_eq_true]
    intro p hp
    exact decide_eq_true (h p hp)
  refine ⟨{ log with inflight := log.inflight ++ [(t, v)] }, by simp only [Log.append, hall, if_true], ?_⟩
  intro p hp
  rw [List.mem_append, List.mem_singleton] at hp
  rcases hp with hp | rfl
  · exact h p hp
  · rfl

theorem own_append_self {log log' : Log V} {u : Unit} (h : log.append t v = some (u, log')) :
    log'.own t = log.own t ++ [v] := by
  simp [own, (append_cases h).2, List.filter_append]

theorem own_append_of_ne {log log' : Log V} {u : Unit} (h : log.append t v = some (u, log'))
    (hne : t' ≠ t) : log'.own t' = log.own t' := by
  have hne' : t ≠ t' := fun he => hne he.symm
  simp [own, (append_cases h).2, List.filter_append, hne']

theorem own_commit_of_ne (hne : t' ≠ t) : (log.commit t).own t' = log.own t' := by
  simp only [own, commit, List.filter_filter]
  congr 1
  apply List.filter_congr
  intro p _
  by_cases hp : p.1 = t' <;> simp [hp, hne]

theorem own_rollback_of_ne (hne : t' ≠ t) : (log.rollback t).own t' = log.own t' :=
  own_commit_of_ne hne

end Log

end ReadCommitted
