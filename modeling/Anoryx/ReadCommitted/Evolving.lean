import Anoryx.ReadCommitted.Session

/-!
# Anoryx.ReadCommitted.Evolving

Tables whose rows are rewritten in place, each version a `step` from the one before, and
none is deleted.

A version in flight is a step from the committed row under its key (`Evolves`), because its
lock keeps everybody else from that row.  Then whatever is committed, and in whatever
order, a committed row stays and moves by steps only (`Moves`): what a step keeps, no run
can undo.
-/

namespace ReadCommitted.Table

open Function

variable {K V : Type} {step : V → V → Prop} {tbl tbl' tbl'' : Table K V} {t u : Txn} {k : K} {v w : V}

/-- What is in flight is a step from what is committed. -/
def Evolves (step : V → V → Prop) (tbl : Table K V) : Prop :=
  ∀ k t v w, tbl.inflight k = some (t, v) → tbl.committed k = some w → step w v

/-- Committed rows stay, and move by steps. -/
def Moves (step : V → V → Prop) (tbl tbl' : Table K V) : Prop :=
  ∀ k w, tbl.committed k = some w → ∃ v, tbl'.committed k = some v ∧ step w v

/-- What `u` may rely on: nobody touches what it holds, and the rest moves by steps. -/
structure Follows (step : V → V → Prop) (u : Txn) (tbl tbl' : Table K V) : Prop where
  frame : Frame u tbl tbl'
  held : ∀ k v, tbl.inflight k = some (u, v) → tbl'.committed k = tbl.committed k
  moves : Moves step tbl tbl'

section Order

variable [Std.Refl step] [IsTrans V step]

omit [IsTrans V step] in
theorem Moves.refl (tbl : Table K V) : Moves step tbl tbl := fun _ w h => ⟨w, h, Std.Refl.refl w⟩

omit [Std.Refl step] in
theorem Moves.trans (h : Moves step tbl tbl') (h' : Moves step tbl' tbl'') : Moves step tbl tbl'' := by
  intro k w hw
  obtain ⟨v, hv, hstep⟩ := h k w hw
  obtain ⟨v', hv', hstep'⟩ := h' k v hv
  exact ⟨v', hv', IsTrans.trans w v v' hstep hstep'⟩

omit [IsTrans V step] in
theorem Follows.refl (u : Txn) (tbl : Table K V) : Follows step u tbl tbl :=
  ⟨Frame.refl u tbl, fun _ _ _ => rfl, Moves.refl tbl⟩

omit [Std.Refl step] in
theorem Follows.trans (h : Follows step u tbl tbl') (h' : Follows step u tbl' tbl'') : Follows step u tbl tbl'' where
  frame := h.frame.trans h'.frame
  held k v hin := (h'.held k v ((h.frame.inflight k v).mp hin)).trans (h.held k v hin)
  moves := h.moves.trans h'.moves

end Order

theorem evolves_empty : (empty : Table K V).Evolves step := by
  intro k t v w h
  contradiction

/-! ## the end of a transaction -/

variable [Std.Refl step]

theorem Evolves.moves_commit (h : tbl.Evolves step) (t : Txn) : Moves step tbl (tbl.commit t) := by
  intro k w hw
  rw [committed_commit]
  rcases visible_cases tbl t k with ⟨v, hin, hvisible⟩ | ⟨-, hvisible⟩
  · exact ⟨v, hvisible, h k t v w hin hw⟩
  · exact ⟨w, hvisible.trans hw, Std.Refl.refl w⟩

omit [Std.Refl step] in
theorem committed_commit_of_held (hu : u ≠ t) (hin : tbl.inflight k = some (u, v)) :
    (tbl.commit t).committed k = tbl.committed k := by
  refine committed_commit_of_no_inflight fun w hw => hu ?_
  exact (Prod.mk.inj (Option.some.inj (hin.symm.trans hw))).1

/-- A commit moves each row by a step, and no row that another holds. -/
theorem Evolves.commit (h : tbl.Evolves step) (t : Txn) :
    (tbl.commit t).Evolves step ∧ ∀ u, u ≠ t → Follows step u tbl (tbl.commit t) := by
  refine ⟨fun k u v w hin hw => ?_, fun u hu => ⟨frame_commit tbl hu, ?_, h.moves_commit t⟩⟩
  · obtain ⟨hin, hu⟩ := inflight_commit_eq_some.mp hin
    rw [committed_commit_of_held hu hin] at hw
    exact h k u v w hin hw
  · exact fun k v hin => committed_commit_of_held hu hin

theorem Evolves.rollback (h : tbl.Evolves step) (t : Txn) :
    (tbl.rollback t).Evolves step ∧ ∀ u, u ≠ t → Follows step u tbl (tbl.rollback t) := by
  refine ⟨fun k u v w hin hw => ?_, fun u hu => ⟨frame_rollback tbl hu, fun _ _ _ => rfl, Moves.refl tbl⟩⟩
  obtain ⟨hin, -⟩ := inflight_rollback_eq_some.mp hin
  exact h k u v w hin hw

/-! ## the statements -/

variable [DecidableEq K]

/-- A free row may be written a step on. -/
theorem Evolves.write (h : tbl.Evolves step) (hfree : tbl.free t k = true)
    (hstep : ∀ w, tbl.committed k = some w → step w v) :
    (tbl.write t k v).Evolves step ∧ ∀ u, u ≠ t → Follows step u tbl (tbl.write t k v) := by
  refine ⟨fun k' t' v' w hin hw => ?_, fun u hu => ⟨frame_write hu hfree, fun _ _ _ => rfl, Moves.refl tbl⟩⟩
  rcases inflight_write_cases hin with ⟨rfl, -, rfl⟩ | ⟨-, hin⟩
  · exact hstep w hw
  · exact h k' t' v' w hin hw

theorem Evolves.insertOrIgnore {b : Bool} (h : tbl.Evolves step) (hins : tbl.insertOrIgnore t k v = some (b, tbl')) :
    tbl'.Evolves step ∧ ∀ u, u ≠ t → Follows step u tbl tbl' := by
  rcases insertOrIgnore_cases hins with ⟨-, rfl, -⟩ | ⟨-, rfl, hin, hnone⟩
  · exact ⟨h, fun u _ => Follows.refl u _⟩
  · refine h.write (free_iff.mpr fun t' w hw => ?_) fun w hw => ?_
    · exact absurd (hin.symm.trans hw) (Option.some_ne_none _).symm
    · exact absurd (hnone.symm.trans hw) (Option.some_ne_none _).symm

/-- An update by a step. -/
theorem Evolves.updateWhere [IsTrans V step] {p : V → Bool} {f : V → V} {r : Option V} (h : tbl.Evolves step)
    (hf : ∀ v, p v = true → step v (f v)) (hupdate : tbl.updateWhere t k p f = some (r, tbl')) :
    tbl'.Evolves step ∧ ∀ u, u ≠ t → Follows step u tbl tbl' := by
  rcases updateWhere_cases hupdate with ⟨-, rfl, -⟩ | ⟨v, hvisible, hp, hfree, -, rfl⟩
  · exact ⟨h, fun u _ => Follows.refl u _⟩
  · refine h.write hfree fun w hw => ?_
    rcases visible_cases tbl t k with ⟨v', hin, hvisible'⟩ | ⟨-, hvisible'⟩
    · have hv : v' = v := Option.some.inj (hvisible'.symm.trans hvisible)
      exact IsTrans.trans w v (f v) (hv ▸ h k t v' w hin hw) (hf v hp)
    · have hv : w = v := Option.some.inj (hw.symm.trans (hvisible'.symm.trans hvisible))
      exact hv ▸ hf v hp

/-! ## what a transaction has written -/

omit [Std.Refl step] [DecidableEq K] in
theorem unheld_of_version (h : tbl.version t = fun _ => none) : tbl.Unheld t := fun k v hin =>
  absurd ((congrFun h k).symm.trans (version_eq_some.mpr hin)) (Option.some_ne_none v).symm

omit [Std.Refl step] in
theorem committed_commit_one (h : tbl.version t = update (fun _ => none) k (some v)) :
    (tbl.commit t).committed = update tbl.committed k (some v) := by
  funext k'
  rw [committed_commit_eq, h]
  by_cases hk : k' = k
  · rw [hk, update_self, update_self]
    rfl
  · rw [update_of_ne hk, update_of_ne hk]
    rfl

omit [Std.Refl step] in
theorem committed_commit_two {k₁ : K} {v₁ : V}
    (h : tbl.version t = update (update (fun _ => none) k (some v)) k₁ (some v₁)) :
    (tbl.commit t).committed = update (update tbl.committed k (some v)) k₁ (some v₁) := by
  funext k'
  rw [committed_commit_eq, h]
  by_cases hk₁ : k' = k₁
  · rw [hk₁, update_self, update_self]
    rfl
  · rw [update_of_ne hk₁, update_of_ne hk₁]
    by_cases hk : k' = k
    · rw [hk, update_self, update_self]
      rfl
    · rw [update_of_ne hk, update_of_ne hk]
      rfl

end ReadCommitted.Table
