import Mathlib

/-!
# Anoryx.Truncation

Truncating the elements of a linear order to the starts of windows.

A `Truncation` never goes up, keeps the order, and leaves a start where it is.  The window of
an element ends at the next start (`IsNext`); it has exactly the elements that are truncated
to the same start (`IsNext.start_eq_iff`), so the windows tile the order.
-/

variable {α : Type} [LinearOrder α]

/-- An element is taken to the start of its window. -/
structure Truncation (start : α → α) : Prop where
  le : ∀ a, start a ≤ a
  mono : Monotone start
  idem : ∀ a, start (start a) = start a

namespace Truncation

/-- The start that follows the window of `a`. -/
structure IsNext (start : α → α) (a stop : α) : Prop where
  isStart : start stop = stop
  lt : a < stop
  below : ∀ b, b < stop → start b ≤ start a

variable {start : α → α} {a b stop : α}

theorem start_le_start_iff (h : Truncation start) : start a ≤ start b ↔ start a ≤ b := by
  constructor
  · intro hle
    exact hle.trans (h.le b)
  · intro hle
    have hmono := h.mono hle
    rwa [h.idem] at hmono

theorem IsNext.le_start (h : Truncation start) (hnext : IsNext start a stop) (hb : stop ≤ b) : stop ≤ start b := by
  have hmono := h.mono hb
  rwa [hnext.isStart] at hmono

theorem IsNext.le_of_start_lt (h : Truncation start) (hnext : IsNext start a stop) (hb : start a < start b) :
    stop ≤ start b := by
  refine hnext.le_start h (not_lt.mp fun hlt => ?_)
  exact absurd (hnext.below b hlt) (not_le.mpr hb)

/-- **The window of an element** has what is truncated to the same start. -/
theorem IsNext.start_eq_iff (h : Truncation start) (hnext : IsNext start a stop) :
    start b = start a ↔ start a ≤ b ∧ b < stop := by
  constructor
  · intro heq
    refine ⟨heq ▸ h.le b, not_le.mp fun hstop => ?_⟩
    have hlt : start b < stop := heq ▸ (h.le a).trans_lt hnext.lt
    exact absurd (hnext.le_start h hstop) (not_le.mpr hlt)
  · rintro ⟨hle, hlt⟩
    exact le_antisymm (hnext.below b hlt) ((h.start_le_start_iff).mpr hle)

end Truncation
