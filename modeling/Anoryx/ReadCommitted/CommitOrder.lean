import Anoryx.ReadCommitted.LockedLog
import Anoryx.ReadCommitted.Session

/-!
# Anoryx.ReadCommitted.CommitOrder

The order of a sequence and the order of commits.

A number that is drawn first may be committed last, and a reader who remembers the highest
number that it has seen misses the row.  Where the rows of a group are inserted under the
group's lock, which is kept to the commit, the two orders are one (`Sequenced`): a commit
puts its rows at the end of the group (`Sequenced.committedOf_commit`).
-/

namespace ReadCommitted

open Table

theorem filterMap_or_of_before {β : Type} {f g : Nat → Option β} {l : List Nat} (hl : l.Pairwise (· < ·))
    (hbefore : ∀ a b, (f a).isSome = true → (g b).isSome = true → a < b) :
    l.filterMap (fun a => (f a).or (g a)) = l.filterMap f ++ l.filterMap g := by
  induction l with
  | nil => rfl
  | cons a l ih =>
      obtain ⟨ha, hl⟩ := List.pairwise_cons.mp hl
      have ih := ih hl
      cases hf : f a with
      | some x =>
          have hg : g a = none := by
            by_contra hsome
            exact Nat.lt_irrefl a (hbefore a a (by simp [hf]) (Option.isSome_iff_ne_none.mpr hsome))
          simp [hf, hg, ih]
      | none =>
          cases hg : g a with
          | none => simp [hf, hg, ih]
          | some y =>
              -- the rest has none of the first kind
              have hrest : l.filterMap f = [] := by
                refine List.filterMap_eq_nil_iff.mpr fun b hb => ?_
                by_contra hsome
                have hlt := hbefore b a (Option.isSome_iff_ne_none.mpr hsome) (by simp [hg])
                exact Nat.lt_asymm hlt (ha b hb)
              simp [hf, hg, ih, hrest]

namespace LockedLog

variable {R K G : Type} (select : G → R → Bool) (key : G → K)

/-- The committed rows of a group, in the order of their numbers. -/
def committedOf (d : LockedLog R K) (g : G) : List (Nat × R) := d.rowsOf d.table.committed (select g)

/-- What is in flight of a group comes after all that is committed of it. -/
structure Sequenced (d : LockedLog R K) : Prop extends Ordered select key d where
  after : ∀ g n t row m row', d.table.inflight n = some (t, row) → d.table.committed m = some row' →
    select g row = true → select g row' = true → m < n

/-- What a transaction may rely on while others insert: the rows of a group stay where they
are, and there are no others while it has the lock. -/
structure Follows (u : Txn) (d d' : LockedLog R K) : Prop where
  frame : Frame u d.table d'.table
  locks : ∀ k, d.locks k = some u → d'.locks k = some u
  held : ∀ g, d.locks (key g) = some u → d'.committedOf select g = d.committedOf select g
  grows : ∀ g, d.committedOf select g <+: d'.committedOf select g

variable {select key} {d d' : LockedLog R K} {t u : Txn} {n : Nat} {row : R}

theorem Follows.refl (u : Txn) (d : LockedLog R K) : Follows select key u d d :=
  ⟨.refl u _, fun _ h => h, fun _ _ => rfl, fun _ => List.prefix_refl _⟩

theorem Follows.trans {d₁ d₂ d₃ : LockedLog R K} (h : Follows select key u d₁ d₂)
    (h' : Follows select key u d₂ d₃) : Follows select key u d₁ d₃ where
  frame := h.frame.trans h'.frame
  locks k hk := h'.locks k (h.locks k hk)
  held g hg := (h'.held g (h.locks _ hg)).trans (h.held g hg)
  grows g := (h.grows g).trans (h'.grows g)

theorem Follows.of_committedOf (hframe : Frame u d.table d'.table)
    (hlocks : ∀ k, d.locks k = some u → d'.locks k = some u)
    (hsame : ∀ g, d'.committedOf select g = d.committedOf select g) : Follows select key u d d' :=
  ⟨hframe, hlocks, fun g _ => hsame g, fun g => by rw [hsame g]⟩

theorem Ordered.mem_committedOf (h : d.Ordered select key) {g : G} :
    (n, row) ∈ d.committedOf select g ↔ d.table.committed n = some row ∧ select g row = true := by
  rw [committedOf, h.rowsOf_eq, List.mem_filter]
  exact and_congr_left' mem_rows

theorem Ordered.pairwise_committedOf (h : d.Ordered select key) (g : G) :
    (d.committedOf select g).Pairwise fun p q => p.1 < q.1 := by
  rw [committedOf, h.rowsOf_eq]
  refine List.Pairwise.filter _ (List.pairwise_filterMap.mpr (h.ordered.imp fun {a b} hab p hp q hq => ?_))
  obtain ⟨_, -, rfl⟩ := Option.map_eq_some_iff.mp hp
  obtain ⟨_, -, rfl⟩ := Option.map_eq_some_iff.mp hq
  exact hab

/-! ## what the statements keep -/

theorem Sequenced.advisoryXactLock [DecidableEq K] (h : d.Sequenced select key) {k : K}
    (hlock : LockedLog.advisoryXactLock k t d = some ((), d')) :
    d'.Sequenced select key ∧ (∀ u, Follows select key u d d') ∧ d'.locks k = some t := by
  have hordered := h.toOrdered.advisoryXactLock hlock
  obtain ⟨rfl, hkeep⟩ := advisoryXactLock_cases hlock
  refine ⟨⟨hordered, h.after⟩, fun u => ?_, Function.update_self k (some t) d.locks⟩
  exact .of_committedOf (.refl u _) (fun k' hk => hkeep k' u hk) fun _ => rfl

theorem Sequenced.insert (h : d.Sequenced select key) (row : R)
    (hlock : ∀ g, select g row = true → d.locks (key g) = some t) :
    (d.insert t row).Sequenced select key ∧ ∀ u, u ≠ t → Follows select key u d (d.insert t row) := by
  have hin : d.table.inflight d.nextSequence = none := (d.table.complete _ h.not_mem).2
  refine ⟨⟨h.toOrdered.insert hlock, fun g n u row' m row'' hrow hc hsel hsel' => ?_⟩, fun u hu => ?_⟩
  · by_cases hn : n = d.nextSequence
    · subst hn
      refine h.bounded m ?_
      by_contra hmem
      have hnone : (d.insert t row).table.committed m = none := (d.table.complete m hmem).1
      rw [hnone] at hc
      contradiction
    · exact h.after g n u row' m row'' ((inflight_write_of_ne hn).symm.trans hrow) hc hsel hsel'
  · refine .of_committedOf (frame_write hu (free_iff.mpr (by simp [hin]))) (fun _ hk => hk) fun g => ?_
    exact h.rowsOf_insert hlock (d.table.complete _ h.not_mem).1 (select g)

theorem Sequenced.skip (h : d.Sequenced select key) : Sequenced select key { d with nextSequence := d.nextSequence + 1 } ∧
    ∀ u, Follows select key u d { d with nextSequence := d.nextSequence + 1 } :=
  ⟨⟨⟨h.ordered, fun k hk => Nat.lt_succ_of_lt (h.bounded k hk), h.insertOnly, h.locked⟩, h.after⟩,
    fun u => .of_committedOf (.refl u _) (fun _ hk => hk) fun _ => rfl⟩

theorem Sequenced.rollback (h : d.Sequenced select key) (t : Txn) :
    (Database.rollback t d).Sequenced select key ∧ ∀ u, u ≠ t → Follows select key u d (Database.rollback t d) := by
  refine ⟨⟨h.toOrdered.rollback t, fun g n u row m row' hrow hc => ?_⟩, fun u hu => ?_⟩
  · exact h.after g n u row m row' (inflight_rollback_eq_some.mp hrow).1 hc
  · exact .of_committedOf (frame_rollback _ hu) (fun _ hk => release_of_ne hu hk) fun _ => rfl

/-- **A commit puts its rows at the end of the group.** -/
theorem Sequenced.committedOf_commit (h : d.Sequenced select key) (t : Txn) (g : G) :
    (Database.commit t d).committedOf select g =
      d.committedOf select g ++ d.rowsOf (d.table.version t) (select g) := by
  let old : Nat → Option (Nat × R) := fun k => ((d.table.committed k).filter (select g)).map (k, ·)
  let new : Nat → Option (Nat × R) := fun k => ((d.table.version t k).filter (select g)).map (k, ·)
  have hlist : ∀ read : Nat → Option R, ((d.table.list read).filter fun p => select g p.2) =
      d.table.keys.filterMap fun k => ((read k).filter (select g)).map (k, ·) := by
    intro read
    rw [list, List.filter_filterMap]
    congr 1
    funext k
    cases read k with
    | none => rfl
    | some row => by_cases hsel : select g row = true <;> simp [Option.filter, hsel]
  have hboth : ∀ k, ((((d.table.commit t).committed k).filter (select g)).map (k, ·)) = (old k).or (new k) := by
    intro k
    rw [committed_commit]
    rcases visible_cases d.table t k with ⟨row, hin, hvisible⟩ | ⟨hno, hvisible⟩
    · have hversion : d.table.version t k = some row := version_eq_some.mpr hin
      simp only [old, new, hvisible, hversion, h.insertOnly k t row hin]
      rfl
    · have hversion : d.table.version t k = none := by
        by_contra hsome
        obtain ⟨row, hrow⟩ := Option.ne_none_iff_exists'.mp hsome
        exact hno row (version_eq_some.mp hrow)
      simp [old, new, hvisible, hversion]
  have hbefore : ∀ a b, (old a).isSome = true → (new b).isSome = true → a < b := by
    intro a b ha hb
    obtain ⟨row, hrow, hsel⟩ : ∃ row, d.table.committed a = some row ∧ select g row = true := by
      cases hc : d.table.committed a with
      | none => simp [old, hc] at ha
      | some row =>
          refine ⟨row, rfl, ?_⟩
          by_contra hno
          simp [old, hc, Option.filter, hno] at ha
    obtain ⟨row', hrow', hsel'⟩ : ∃ row, d.table.version t b = some row ∧ select g row = true := by
      cases hv : d.table.version t b with
      | none => simp [new, hv] at hb
      | some row =>
          refine ⟨row, rfl, ?_⟩
          by_contra hno
          simp [new, hv, Option.filter, hno] at hb
    exact h.after g b t row' a row (version_eq_some.mp hrow') hrow hsel' hsel
  have hkeys : (Database.commit t d).table.keys = d.table.keys := rfl
  rw [committedOf, committedOf, (h.toOrdered.commit t).rowsOf_eq, h.rowsOf_eq, h.rowsOf_eq, hlist, hlist]
  show ((d.table.list (d.table.commit t).committed).filter fun p => select g p.2) = _
  rw [hlist, funext hboth]
  exact filterMap_or_of_before h.ordered hbefore

theorem Sequenced.rowsOf_version (h : d.Sequenced select key) {g : G} (hlock : d.locks (key g) ≠ some t) :
    d.rowsOf (d.table.version t) (select g) = [] := by
  rw [h.rowsOf_eq, List.filter_eq_nil_iff]
  rintro ⟨n, row⟩ hmem hsel
  exact hlock (h.locked n t row g (mem_held.mp hmem) hsel)

/-- Under the lock the rows become visible in the order of their numbers. -/
theorem Sequenced.commit (h : d.Sequenced select key) (t : Txn) :
    (Database.commit t d).Sequenced select key ∧ ∀ u, u ≠ t → Follows select key u d (Database.commit t d) := by
  refine ⟨⟨h.toOrdered.commit t, fun g n u row m row' hrow hc hsel hsel' => ?_⟩, fun u hu => ?_⟩
  · obtain ⟨hrow, hu⟩ := inflight_commit_eq_some.mp hrow
    have hc : d.table.visible t m = some row' := hc
    rcases visible_cases d.table t m with ⟨row₀, hin, hvisible⟩ | ⟨-, hvisible⟩
    · -- a row of `t` and a row of `u` are of two groups
      rw [hvisible] at hc
      obtain rfl := Option.some.inj hc
      have hmine := h.locked m t row₀ g hin hsel'
      have hother := h.locked n u row g hrow hsel
      exact absurd (Option.some.inj (hother.symm.trans hmine)) hu
    · exact h.after g n u row m row' hrow (hvisible ▸ hc) hsel hsel'
  · refine ⟨frame_commit _ hu, fun _ hk => release_of_ne hu hk, fun g hg => ?_, fun g => ?_⟩
    · have hlock : d.locks (key g) ≠ some t := by
        rw [hg]
        exact fun he => hu (Option.some.inj he)
      rw [h.committedOf_commit, h.rowsOf_version hlock, List.append_nil]
    · rw [h.committedOf_commit]
      exact List.prefix_append _ _

/-- A commit appends its row to the committed ones. -/
theorem Sequenced.committedOf_commit_row (h : d.Sequenced select key) (hrow : d.table.HoldsOnly t n row) (g : G) :
    (Database.commit t d).committedOf select g =
      d.committedOf select g ++ if select g row = true then [(n, row)] else [] := by
  rw [h.committedOf_commit]
  congr 1
  have hlist : d.table.held t = [(n, row)] := by
    refine List.perm_singleton.mp ((List.perm_ext_iff_of_nodup ((d.table.nodup_list _).of_map Prod.fst)
      (List.nodup_singleton _)).mpr ?_)
    rintro ⟨n', row'⟩
    refine mem_held.trans ?_
    rw [List.mem_singleton, Prod.mk.injEq]
    constructor
    · exact hrow.unique
    · rintro ⟨rfl, rfl⟩
      exact hrow.holds
  rw [h.rowsOf_eq, show d.table.list (d.table.version t) = [(n, row)] from hlist]
  by_cases hsel : select g row = true <;> simp [hsel]

theorem Sequenced.committedOf_commit_unheld (h : d.Sequenced select key) (hunheld : d.table.Unheld t) (g : G) :
    (Database.commit t d).committedOf select g = d.committedOf select g := by
  have hnone : d.table.list (d.table.version t) = [] :=
    List.eq_nil_iff_forall_not_mem.mpr fun p hp => hunheld p.1 p.2 (mem_held.mp hp)
  rw [h.committedOf_commit, h.rowsOf_eq, hnone]
  exact List.append_nil _

theorem sequenced_empty : (LockedLog.empty : LockedLog R K).Sequenced select key where
  ordered := List.Pairwise.nil
  bounded k hk := by cases hk
  insertOnly k t row hin := by cases hin
  locked k t row g hin := by cases hin
  after g n t row m row' hin := by cases hin

end LockedLog

end ReadCommitted
