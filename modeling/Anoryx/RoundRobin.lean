import Mathlib

/-!
# Anoryx.RoundRobin

Lists that take turns: in round `r`, each of them that is long enough gives its `r`-th element.

* `turns_perm` — every element has its turn, once;
* `filter_turns` — the elements of one list keep their order;
* `outcome_foldlM_push` — a loop that appends and then returns, once there are enough.
-/

namespace RoundRobin

variable {α β ρ : Type}

/-! ## turns -/

def longest (queues : List (List α)) : Nat := (queues.map List.length).foldr max 0

def round (queues : List (List α)) (r : Nat) : List α := queues.filterMap (·[r]?)

/-- All rounds, one after the other -/
def turns (queues : List (List α)) : List α := (List.range (longest queues)).flatMap (round queues)

variable {queues before after : List (List α)} {queue : List α}

theorem length_le_longest (h : queue ∈ queues) : queue.length ≤ longest queues := by
  induction queues with
  | nil => simp at h
  | cons first rest ih =>
      rcases List.mem_cons.mp h with rfl | h
      · exact Nat.le_max_left _ _
      · exact (ih h).trans (Nat.le_max_right _ _)

theorem flatMap_getElem?_range {n : Nat} (h : queue.length ≤ n) :
    (List.range n).flatMap (fun r => queue[r]?.toList) = queue := by
  induction queue generalizing n with
  | nil => simp
  | cons first rest ih =>
      obtain ⟨n, rfl⟩ : ∃ m, n = m + 1 := ⟨n - 1, by simp at h; omega⟩
      simp only [List.length_cons, Nat.add_le_add_iff_right] at h
      rw [List.range_succ_eq_map, List.flatMap_cons, List.flatMap_map]
      simp [ih h]

theorem round_eq_flatMap (queues : List (List α)) (r : Nat) :
    round queues r = queues.flatMap fun queue => queue[r]?.toList := by
  induction queues with
  | nil => rfl
  | cons first rest ih =>
      rw [List.flatMap_cons, ← ih]
      cases h : first[r]? <;> simp [round, h]

/-- The turns take everything, once. -/
theorem turns_perm (queues : List (List α)) : (turns queues).Perm queues.flatten := by
  have hqueues : queues.flatMap (fun queue => (List.range (longest queues)).flatMap fun r => queue[r]?.toList) =
      queues.flatten := by
    rw [← List.flatMap_id]
    exact List.flatMap_congr fun queue h => flatMap_getElem?_range (length_le_longest h)
  have hswap := Multiset.bind_bind (List.range (longest queues) : Multiset Nat) (queues : Multiset (List α))
    (f := fun r queue => (queue[r]?.toList : Multiset α))
  simp only [Multiset.coe_bind, Multiset.coe_eq_coe, hqueues] at hswap
  rw [turns, funext (round_eq_flatMap queues)]
  exact hswap

theorem length_turns (queues : List (List α)) : (turns queues).length = (queues.map List.length).sum := by
  rw [(turns_perm queues).length_eq, List.length_flatten]

/-- A queue is taken in its own order. -/
theorem filter_turns {p : α → Bool} (hqueue : ∀ x ∈ queue, p x = true) (hbefore : ∀ q ∈ before, ∀ x ∈ q, p x = false)
    (hafter : ∀ q ∈ after, ∀ x ∈ q, p x = false) : (turns (before ++ queue :: after)).filter p = queue := by
  have hother {queues : List (List α)} (h : ∀ q ∈ queues, ∀ x ∈ q, p x = false) (r : Nat) :
      (round queues r).filter p = [] := by
    rw [List.filter_eq_nil_iff]
    intro x hx
    obtain ⟨q, hq, hget⟩ := List.mem_filterMap.mp hx
    simp [h q hq x (List.mem_of_getElem? hget)]
  have hround (r : Nat) : (round (before ++ queue :: after) r).filter p = queue[r]?.toList := by
    have hsplit : round (before ++ queue :: after) r = round before r ++ (queue[r]?.toList ++ round after r) := by
      rw [round_eq_flatMap, round_eq_flatMap, round_eq_flatMap, List.flatMap_append, List.flatMap_cons]
    rw [hsplit, List.filter_append, List.filter_append, hother hbefore, hother hafter]
    cases hget : queue[r]? with
    | none => rfl
    | some x => simp [hqueue x (List.mem_of_getElem? hget)]
  rw [turns, List.filter_flatMap, funext hround]
  exact flatMap_getElem?_range (length_le_longest (by simp))

/-! ## a loop that returns early -/

/-- Append an element; with `bound` elements the loop returns. -/
def push (bound : Nat) (taken : List α) (x : α) : Except (List α) (List α) :=
  if bound ≤ (taken ++ [x]).length then .error (taken ++ [x]) else .ok (taken ++ [x])

/-- What the function returns, in the loop or after it. -/
def outcome : Except ρ ρ → ρ
  | .error r => r
  | .ok r => r

theorem outcome_foldlM_push (bound : Nat) (taken xs : List α) :
    outcome (xs.foldlM (push bound) taken) = taken ++ xs.take (max 1 (bound - taken.length)) := by
  induction xs generalizing taken with
  | nil => simp [outcome, pure, Except.pure]
  | cons x xs ih =>
      rw [List.foldlM_cons]
      by_cases h : bound ≤ (taken ++ [x]).length
      · have hone : max 1 (bound - taken.length) = 1 := by simp at h; omega
        rw [push, if_pos h, hone]
        simp [outcome, bind, Except.bind]
      · have hnext : max 1 (bound - taken.length) = max 1 (bound - (taken ++ [x]).length) + 1 := by
          simp at h ⊢; omega
        rw [push, if_neg h, hnext, List.take_succ_cons]
        exact (ih (taken ++ [x])).trans (by simp)

theorem foldlM_foldlM {m : Type → Type} [Monad m] [LawfulMonad m] (f : ρ → β → m ρ) (g : α → List β) (xs : List α)
    (taken : ρ) : xs.foldlM (fun taken x => (g x).foldlM f taken) taken = (xs.flatMap g).foldlM f taken := by
  induction xs generalizing taken with
  | nil => rfl
  | cons x xs ih => simp [List.foldlM_append, ih]

end RoundRobin
