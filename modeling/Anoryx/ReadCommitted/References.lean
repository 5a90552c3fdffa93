import Anoryx.ReadCommitted.Table

/-!
# Anoryx.ReadCommitted.References

Two insert-only tables, where a row of the first may refer to a row of the second that
the same transaction has inserted.

`References` is what holds between any two statements: a row that is referred to is there
— committed under a committed row, in flight under one in flight of the same transaction —
it fits the row that refers to it, and no two rows refer to one.
-/

namespace ReadCommitted

namespace Table

variable {K V X W : Type}

/-- Rows of `a` refer to rows of `b`. -/
structure References (ref : V → Option X) (fits : V → W → Prop) (a : Table K V) (b : Table X W) : Prop where
  insertOnly : b.InsertOnly
  committed : ∀ k v x, a.committed k = some v → ref v = some x → ∃ w, b.committed x = some w ∧ fits v w
  inflight : ∀ k t v x, a.inflight k = some (t, v) → ref v = some x →
    ∃ w, b.inflight x = some (t, w) ∧ fits v w
  injective : ∀ k k' v v' x, a.HasVersion k v → a.HasVersion k' v' → ref v = some x → ref v' = some x → k = k'

variable {ref : V → Option X} {fits : V → W → Prop} {a : Table K V} {b : Table X W}

theorem references_of_quiet (ha : a.Quiet) (hb : b.Quiet)
    (hcommitted : ∀ k v x, a.committed k = some v → ref v = some x → ∃ w, b.committed x = some w ∧ fits v w)
    (hinjective : ∀ k k' v v' x, a.committed k = some v → a.committed k' = some v' → ref v = some x →
      ref v' = some x → k = k') : References ref fits a b where
  insertOnly k t v hin := by
    rw [hb k] at hin
    contradiction
  committed := hcommitted
  inflight k t v x hin := by
    rw [ha k] at hin
    contradiction
  injective k k' v v' x hv hv' := by
    have hold : ∀ k v, a.HasVersion k v → a.committed k = some v := by
      rintro k v (h | ⟨t, hin⟩)
      · exact h
      · rw [ha k] at hin
        contradiction
    exact hinjective k k' v v' x (hold k v hv) (hold k' v' hv')

/-- References are committed with what they refer to. -/
theorem References.commit (h : References ref fits a b) (t : Txn) :
    References ref fits (a.commit t) (b.commit t) where
  insertOnly := h.insertOnly.commit t
  committed k v x hv hx := by
    rcases visible_cases a t k with ⟨w, hin, hvisible⟩ | ⟨-, hvisible⟩
    · obtain rfl : w = v := Option.some.inj (hvisible.symm.trans hv)
      obtain ⟨y, hy, hfits⟩ := h.inflight k t w x hin hx
      exact ⟨y, visible_of_inflight hy, hfits⟩
    · obtain ⟨y, hy, hfits⟩ := h.committed k v x (hvisible.symm.trans hv) hx
      exact ⟨y, h.insertOnly.grows_commit t x y hy, hfits⟩
  inflight k u v x hin hx := by
    obtain ⟨hin, hu⟩ := inflight_commit_eq_some.mp hin
    obtain ⟨y, hy, hfits⟩ := h.inflight k u v x hin hx
    exact ⟨y, inflight_commit_eq_some.mpr ⟨hy, hu⟩, hfits⟩
  injective k k' v v' x hv hv' := h.injective k k' v v' x hv.of_commit hv'.of_commit

theorem References.rollback (h : References ref fits a b) (t : Txn) :
    References ref fits (a.rollback t) (b.rollback t) where
  insertOnly := h.insertOnly.rollback t
  committed := h.committed
  inflight k u v x hin hx := by
    obtain ⟨hin, hu⟩ := inflight_rollback_eq_some.mp hin
    obtain ⟨y, hy, hfits⟩ := h.inflight k u v x hin hx
    exact ⟨y, inflight_rollback_eq_some.mpr ⟨hy, hu⟩, hfits⟩
  injective k k' v v' x hv hv' := h.injective k k' v v' x hv.of_rollback hv'.of_rollback

theorem References.unreferred (h : References ref fits a b) {t : Txn} {x : X} {w : W}
    (hx : b.inflight x = some (t, w)) (hown : ∀ k v, a.inflight k = some (t, v) → ref v ≠ some x) :
    ∀ k v, a.HasVersion k v → ref v ≠ some x := by
  rintro k v (hv | ⟨u, hin⟩) href
  · obtain ⟨y, hy, -⟩ := h.committed k v x hv href
    rw [h.insertOnly x t w hx] at hy
    contradiction
  · obtain ⟨y, hy, -⟩ := h.inflight k u v x hin href
    obtain rfl : t = u := congrArg Prod.fst (Option.some.inj (hx.symm.trans hy))
    exact hown k v hin href

variable [DecidableEq K] [DecidableEq X]

omit [DecidableEq K] in
theorem References.write_right (h : References ref fits a b) {t : Txn} {x : X} {w : W}
    (hin : b.inflight x = none) (hc : b.committed x = none) : References ref fits a (b.write t x w) where
  insertOnly x' u w' hin' := by
    rcases inflight_write_cases hin' with ⟨rfl, -⟩ | ⟨-, hin'⟩
    · exact hc
    · exact h.insertOnly x' u w' hin'
  committed k v x' hv hx' := h.committed k v x' hv hx'
  inflight k u v x' hin' hx' := by
    obtain ⟨y, hy, hfits⟩ := h.inflight k u v x' hin' hx'
    have hne : x' ≠ x := by
      rintro rfl
      rw [hin] at hy
      contradiction
    exact ⟨y, (inflight_write_of_ne hne).trans hy, hfits⟩
  injective := h.injective

omit [DecidableEq X] in
/-- A row may refer to a target of the same transaction. -/
theorem References.write_left (h : References ref fits a b) {t : Txn} {k : K} {v : V}
    (hx : ∀ x, ref v = some x → (∃ w, b.inflight x = some (t, w) ∧ fits v w) ∧
      ∀ k' v', a.inflight k' = some (t, v') → ref v' ≠ some x) :
    References ref fits (a.write t k v) b where
  insertOnly := h.insertOnly
  committed k' v' x hv' hx' := h.committed k' v' x hv' hx'
  inflight k' u v' x hin hx' := by
    rcases inflight_write_cases hin with ⟨-, rfl, rfl⟩ | ⟨-, hin⟩
    · exact (hx x hx').1
    · exact h.inflight k' u v' x hin hx'
  injective k₁ k₂ v₁ v₂ x h₁ h₂ hx₁ hx₂ := by
    have hfresh : ∀ k' v', ref v = some x → a.HasVersion k' v' → ref v' ≠ some x := by
      intro k' v' href hv'
      obtain ⟨⟨w, hw, -⟩, hown⟩ := hx x href
      exact h.unreferred hw hown k' v' hv'
    rcases h₁.of_write with h₁ | ⟨hk₁, hv₁⟩
    · rcases h₂.of_write with h₂ | ⟨-, hv₂⟩
      · exact h.injective k₁ k₂ v₁ v₂ x h₁ h₂ hx₁ hx₂
      · exact absurd hx₁ (hfresh k₁ v₁ (hv₂ ▸ hx₂) h₁)
    · rcases h₂.of_write with h₂ | ⟨hk₂, -⟩
      · exact absurd hx₂ (hfresh k₂ v₂ (hv₁ ▸ hx₁) h₂)
      · exact hk₁.trans hk₂.symm

end Table

end ReadCommitted
