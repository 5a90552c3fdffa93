import Mathlib

/-!
# Anoryx.Alternation

A two-state switch with a numbered log of its flips.

The switch starts off at version `base`.  Each flip takes the next version and
leaves one entry in the log under it, so the entries above `base` are without
gap and alternate on, off, on, …  `InStep` says that a switch at version `ver`
and its log agree; `InStep.start` and `InStep.flip` are the only ways to get
there, and `InStep.last` reads the state of the switch off its last entry.
-/

namespace Alternation

variable {α : Type}

/-- The switch stands at version `ver`, is on iff `state`, and `log` holds its
flips since `base`; `on` is the direction an entry records. -/
structure InStep (on : α → Bool) (base ver : Nat) (state : Bool) (log : Nat → Option α) :
    Prop where
  le : base ≤ ver
  entry : ∀ v, base < v → v ≤ ver → ∃ a, log v = some a ∧ on a = decide ((v - base) % 2 = 1)
  beyond : ∀ v, ver < v → log v = none
  parity : state = decide ((ver - base) % 2 = 1)

namespace InStep

variable {on : α → Bool} {base ver : Nat} {state : Bool} {log log' : Nat → Option α}

theorem start (h : ∀ v, base < v → log v = none) : InStep on base base false log where
  le := Nat.le_refl _
  entry v hv hle := absurd hv (Nat.not_lt.mpr hle)
  beyond := h
  parity := by simp

/-- The next version flips the state. -/
theorem flip {a : α} (h : InStep on base ver state log) (hon : on a = !state)
    (hself : log' (ver + 1) = some a) (hother : ∀ v, v ≠ ver + 1 → log' v = log v) :
    InStep on base (ver + 1) (!state) log' := by
  have hle := h.le
  have hflip : (!state) = decide ((ver + 1 - base) % 2 = 1) := by
    rw [h.parity, ← decide_not, decide_eq_decide]
    omega
  refine ⟨Nat.le_succ_of_le hle, ?_, ?_, hflip⟩
  · intro v hv hv'
    by_cases he : v = ver + 1
    · subst he
      exact ⟨a, hself, hon.trans hflip⟩
    · rw [hother v he]
      exact h.entry v hv (by omega)
  · intro v hv
    rw [hother v (by omega)]
    exact h.beyond v (by omega)

theorem congr (h : InStep on base ver state log) (hlog : ∀ v, base < v → log' v = log v) :
    InStep on base ver state log' where
  le := h.le
  entry v hv hle := by
    rw [hlog v hv]
    exact h.entry v hv hle
  beyond v hv := by
    rw [hlog v (Nat.lt_of_le_of_lt h.le hv)]
    exact h.beyond v hv
  parity := h.parity

theorem last (h : InStep on base ver state log) (hver : base < ver) :
    ∃ a, log ver = some a ∧ on a = state := by
  obtain ⟨a, ha, hon⟩ := h.entry ver hver (Nat.le_refl _)
  exact ⟨a, ha, hon.trans h.parity.symm⟩

theorem eq_base (h : InStep on base ver state log) (hlog : ∀ v, base < v → log v = none) :
    ver = base := by
  by_contra hne
  have hlt : base < ver := Nat.lt_of_le_of_ne h.le (Ne.symm hne)
  obtain ⟨a, ha, _⟩ := h.last hlt
  rw [hlog ver hlt] at ha
  contradiction

end InStep

end Alternation
