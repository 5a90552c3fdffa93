import Mathlib

/-!
# Anoryx.StableSort

Stable sorting, on lists: insertion by a total preorder.

* `filter_insertionSort` — what is filtered is sorted as before;
* `insertionSort_append_append` — a block of firsts stays one, at the front;
* `exists_of_insertionSort_eq_cons` — where the first of a sorted list was.
-/

namespace StableSort

variable {α : Type} {r : α → α → Prop} [DecidableRel r]

variable {a : α} {xs before after block rest : List α}

theorem filter_orderedInsert [IsTrans α r] {p : α → Bool} (h : xs.Pairwise r) :
    (xs.orderedInsert r a).filter p = if p a then (xs.filter p).orderedInsert r a else xs.filter p := by
  induction xs with
  | nil => cases hp : p a <;> simp [hp]
  | cons x xs ih =>
      rw [List.pairwise_cons] at h
      by_cases hax : r a x
      · rw [List.orderedInsert_cons_of_le r _ hax]
        cases hp : p a with
        | false => simp [hp]
        | true =>
            rw [List.filter_cons_of_pos hp, if_pos rfl]
            -- All that is left comes after `a`, as `x` does.
            rcases hxs : (x :: xs).filter p with _ | ⟨y, ys⟩
            · rfl
            · have hy : y ∈ x :: xs := (List.mem_filter.mp (hxs ▸ List.mem_cons_self)).1
              have hay : r a y := by
                rcases List.mem_cons.mp hy with rfl | hy
                · exact hax
                · exact trans_of r hax (h.1 y hy)
              rw [List.orderedInsert_cons_of_le r _ hay]
      · rw [List.orderedInsert_of_not_le r _ hax, List.filter_cons, ih h.2]
        cases hpa : p a <;> cases hpx : p x <;> simp [hpx, hax]

/-- Sorting commutes with a filter. -/
theorem filter_insertionSort [IsTrans α r] [Std.Total r] (p : α → Bool) (xs : List α) :
    (xs.insertionSort r).filter p = (xs.filter p).insertionSort r := by
  induction xs with
  | nil => rfl
  | cons x xs ih =>
      rw [List.insertionSort_cons, filter_orderedInsert (List.pairwise_insertionSort r xs), ih]
      cases hp : p x <;> simp [hp]

theorem insertionSort_append_cons (hbefore : ∀ x ∈ before, ¬ r x a) (hafter : ∀ x ∈ after, r a x) :
    (before ++ a :: after).insertionSort r = a :: (before ++ after).insertionSort r := by
  induction before with
  | nil => exact List.insertionSort_cons_of_forall_rel r hafter
  | cons x before ih =>
      rw [List.forall_mem_cons] at hbefore
      rw [List.cons_append, List.insertionSort_cons, ih hbefore.2, List.orderedInsert_of_not_le r _ hbefore.1]
      rfl

theorem insertionSort_append_append (hbefore : ∀ x ∈ before, ∀ b ∈ block, ¬ r x b) (hblock : block.Pairwise r)
    (hafter : ∀ b ∈ block, ∀ x ∈ after, r b x) :
    (before ++ (block ++ after)).insertionSort r = block ++ (before ++ after).insertionSort r := by
  induction block with
  | nil => rfl
  | cons b block ih =>
      rw [List.pairwise_cons] at hblock
      rw [List.forall_mem_cons] at hafter
      rw [List.cons_append, insertionSort_append_cons (fun x hx => hbefore x hx b (by simp)), List.cons_append,
        ih (fun x hx c hc => hbefore x hx c (by simp [hc])) hblock.2 hafter.2]
      intro x hx
      rcases List.mem_append.mp hx with hx | hx
      · exact hblock.1 x hx
      · exact hafter.1 x hx

theorem exists_of_insertionSort_eq_cons [IsTrans α r] [Std.Total r] (h : xs.insertionSort r = a :: rest) :
    ∃ before after, xs = before ++ a :: after ∧ (∀ x ∈ before, ¬ r x a) ∧ ∀ x ∈ after, r a x := by
  induction xs generalizing a rest with
  | nil => simp at h
  | cons x xs ih =>
      rw [List.insertionSort_cons] at h
      have hsorted := List.pairwise_insertionSort r xs
      rcases hxs : xs.insertionSort r with _ | ⟨y, ys⟩
      · have hnil : xs = [] := by rw [← List.length_eq_zero_iff, ← List.length_insertionSort r, hxs]; rfl
        rw [hxs] at h
        obtain ⟨rfl, -⟩ := List.cons.inj h
        exact ⟨[], xs, rfl, by simp, by simp [hnil]⟩
      · rw [hxs] at h hsorted
        by_cases hxy : r x y
        · rw [List.orderedInsert_cons_of_le r _ hxy] at h
          obtain ⟨rfl, -⟩ := List.cons.inj h
          refine ⟨[], xs, rfl, by simp, fun z hz => ?_⟩
          have hz : z ∈ y :: ys := by rw [← hxs, List.mem_insertionSort]; exact hz
          rcases List.mem_cons.mp hz with rfl | hz
          · exact hxy
          · exact trans_of r hxy ((List.pairwise_cons.mp hsorted).1 z hz)
        · rw [List.orderedInsert_of_not_le r _ hxy] at h
          obtain ⟨rfl, -⟩ := List.cons.inj h
          obtain ⟨before, after, rfl, hbefore, hafter⟩ := ih hxs
          exact ⟨x :: before, after, rfl, List.forall_mem_cons.mpr ⟨hxy, hbefore⟩, hafter⟩

/-! ## neighbours -/

/-- Between two keys with nothing between them there are two neighbours. -/
theorem exists_neighbours {κ : Type} [LinearOrder κ] {key : α → κ} {k m : κ}
    (h : xs.Pairwise fun x y => key x ≤ key y) (hk : ∃ x ∈ xs, key x = k) (hm : ∃ x ∈ xs, key x = m) (hlt : k < m)
    (hbetween : ∀ x ∈ xs, ¬ (k < key x ∧ key x < m)) :
    ∃ before x y after, xs = before ++ x :: y :: after ∧ key x = k ∧ key y = m := by
  induction xs with
  | nil => simp at hk
  | cons x xs ih =>
      rw [List.pairwise_cons] at h
      rw [List.forall_mem_cons] at hbetween
      -- Nothing before the last of `k` matters, and what follows it is `m`.
      by_cases hmore : ∃ x ∈ xs, key x = k
      · obtain ⟨b, hb, rfl⟩ := hm
        have hb : b ∈ xs := by
          rcases List.mem_cons.mp hb with rfl | hb
          · obtain ⟨a, ha, rfl⟩ := hmore
            exact absurd hlt (not_lt.mpr (h.1 a ha))
          · exact hb
        obtain ⟨before, y, z, after, rfl, hy, hz⟩ := ih h.2 hmore ⟨b, hb, rfl⟩ hbetween.2
        exact ⟨x :: before, y, z, after, rfl, hy, hz⟩
      · obtain ⟨a, ha, rfl⟩ := hk
        obtain rfl : a = x := by
          rcases List.mem_cons.mp ha with rfl | ha
          · rfl
          · exact absurd ⟨a, ha, rfl⟩ hmore
        obtain ⟨b, hb, rfl⟩ := hm
        have hb : b ∈ xs := by
          rcases List.mem_cons.mp hb with rfl | hb
          · exact absurd hlt (lt_irrefl _)
          · exact hb
        obtain ⟨y, ys, rfl⟩ := List.exists_cons_of_ne_nil (List.ne_nil_of_mem hb)
        have hy : key a < key y :=
          lt_of_le_of_ne (h.1 y (by simp)) fun heq => hmore ⟨y, by simp, heq.symm⟩
        have hyb : key y ≤ key b := by
          rcases List.mem_cons.mp hb with rfl | hb
          · exact le_rfl
          · exact (List.pairwise_cons.mp h.2).1 b hb
        refine ⟨[], a, y, ys, rfl, rfl, ?_⟩
        by_contra hne
        exact hbetween.2 y (by simp) ⟨hy, lt_of_le_of_ne hyb hne⟩

end StableSort
