import Mathlib

/-!
# Anoryx.DenseWindow

Windows of a width that hold many of some points.

`scan` goes through the points in their order with two pointers; `scan_eq_true_iff` says
that it finds a dense window when there is one.
-/

namespace DenseWindow

variable {α : Type} [AddCommGroup α] [LinearOrder α] [IsOrderedAddMonoid α] {width : α} {least : Nat}
  {window points points' : List α}

/-- An interval of this width holds so many of the points, each counted as often as it occurs. -/
def Dense (width : α) (least : Nat) (points : List α) : Prop :=
  ∃ start, least ≤ points.countP fun p => start ≤ p ∧ p ≤ start + width

/-- The point is too far behind. -/
def far (width p q : α) : Bool := width < p - q

/-- The scan with two pointers, and what is between them: the left one moves up while its point is too
far behind that of the right one. -/
def scan (width : α) (least : Nat) : List α → List α → Bool
  | _, [] => false
  | window, p :: points =>
      let window := (window ++ [p]).dropWhile (far width p)
      if least ≤ window.length then true else scan width least window points

omit [LinearOrder α] [IsOrderedAddMonoid α] [AddCommGroup α] in
theorem dropWhile_append_of_imp {P Q : α → Bool} {xs : List α} (h : ∀ x ∈ xs, Q x = true → P x = true) (ys : List α) :
    (xs.dropWhile Q ++ ys).dropWhile P = (xs ++ ys).dropWhile P := by
  induction xs with
  | nil => rfl
  | cons x xs ih =>
      rw [List.forall_mem_cons] at h
      cases hx : Q x with
      | true => rw [List.dropWhile_cons_of_pos hx, ih h.2, List.cons_append, List.dropWhile_cons_of_pos (h.1 hx)]
      | false => rw [List.dropWhile_cons_of_neg (by simp [hx])]

omit [LinearOrder α] [IsOrderedAddMonoid α] [AddCommGroup α] in
theorem exists_last {P : α → Prop} {xs : List α} (h : ∃ x ∈ xs, P x) :
    ∃ before x after, xs = before ++ x :: after ∧ P x ∧ ∀ y ∈ after, ¬ P y := by
  induction xs with
  | nil => simp at h
  | cons x xs ih =>
      by_cases hxs : ∃ y ∈ xs, P y
      · obtain ⟨before, y, after, rfl, hy, hafter⟩ := ih hxs
        exact ⟨x :: before, y, after, rfl, hy, hafter⟩
      · push Not at hxs
        obtain ⟨y, hmem, hy⟩ := h
        rcases List.mem_cons.mp hmem with rfl | hmem
        · exact ⟨[], y, xs, rfl, hy, hxs⟩
        · exact absurd hy (hxs y hmem)

/-- The scan says yes just when some window holds enough points. -/
theorem scan_eq_true (hsorted : (window ++ points).Pairwise (· ≤ ·)) : scan width least window points = true ↔
    ∃ before p after, points = before ++ p :: after ∧
      least ≤ ((window ++ before ++ [p]).dropWhile (far width p)).length := by
  induction points generalizing window with
  | nil => simp [scan]
  | cons p points ih =>
      rw [List.append_cons] at hsorted
      have hfar : ∀ p' ∈ points, ∀ q ∈ window ++ [p], far width p q = true → far width p' q = true := by
        intro p' hp' q _ h
        have hle : p ≤ p' := (List.pairwise_append.mp hsorted).2.2 p (by simp) p' hp'
        simp only [far, decide_eq_true_iff] at h ⊢
        exact h.trans_le (sub_le_sub_right hle q)
      rw [scan]
      split
      · next hlong => exact iff_of_true rfl ⟨[], p, points, rfl, by simpa using hlong⟩
      · next hshort =>
          rw [ih (hsorted.sublist ((List.dropWhile_sublist _).append_right _))]
          constructor
          · rintro ⟨before, p', after, rfl, hlong⟩
            refine ⟨p :: before, p', after, rfl, ?_⟩
            rwa [List.append_assoc, dropWhile_append_of_imp (hfar p' (by simp)), ← List.append_assoc,
              ← List.append_cons] at hlong
          · rintro ⟨before, p', after, heq, hlong⟩
            rcases before with _ | ⟨q, before⟩
            · obtain ⟨rfl, rfl⟩ := List.cons.inj heq
              exact absurd (by simpa using hlong) hshort
            · obtain ⟨rfl, rfl⟩ := List.cons.inj heq
              refine ⟨before, p', after, rfl, ?_⟩
              rwa [List.append_assoc, dropWhile_append_of_imp (hfar p' (by simp)), ← List.append_assoc,
                ← List.append_cons]

theorem length_dropWhile_far {p : α} (hsorted : points.Pairwise (· ≤ ·)) :
    (points.dropWhile (far width p)).length = points.countP fun q => p - q ≤ width := by
  induction points with
  | nil => rfl
  | cons q points ih =>
      rw [List.pairwise_cons] at hsorted
      by_cases hq : p - q ≤ width
      · have hall : (q :: points).countP (fun q => p - q ≤ width) = (q :: points).length := by
          refine List.countP_eq_length.mpr fun r hr => decide_eq_true ?_
          rcases List.mem_cons.mp hr with rfl | hr
          · exact hq
          · exact (sub_le_sub_left (hsorted.1 r hr) p).trans hq
        rw [List.dropWhile_cons_of_neg (by simpa [far] using hq), hall]
      · rw [List.dropWhile_cons_of_pos (p := far width p) (decide_eq_true (lt_of_not_ge hq)), ih hsorted.2,
          List.countP_cons_of_neg (by simpa using hq)]

/-- **The scan** finds a dense window when there is one. -/
theorem scan_eq_true_iff (hleast : 0 < least) (hsorted : points.Pairwise (· ≤ ·)) :
    scan width least [] points = true ↔ Dense width least points := by
  rw [scan_eq_true (by simpa using hsorted)]
  constructor
  · rintro ⟨before, p, after, rfl, hlong⟩
    rw [List.append_cons] at hsorted ⊢
    have hsorted := (List.pairwise_append.mp hsorted).1
    rw [List.nil_append, length_dropWhile_far hsorted] at hlong
    refine ⟨p - width, hlong.trans (.trans ?_ (List.sublist_append_left (before ++ [p]) after).countP_le)⟩
    refine List.countP_mono_left fun q hq h => ?_
    have hle : q ≤ p := by
      rcases List.mem_append.mp hq with hq | hq
      · exact (List.pairwise_append.mp hsorted).2.2 q hq p (List.mem_singleton_self p)
      · exact (List.mem_singleton.mp hq).le
    rw [decide_eq_true_iff] at h ⊢
    exact ⟨sub_le_comm.mp h, by rwa [sub_add_cancel]⟩
  · rintro ⟨start, hcount⟩
    have hsome : ∃ p ∈ points, start ≤ p ∧ p ≤ start + width := by
      obtain ⟨p, hp, h⟩ := List.countP_pos_iff.mp (hleast.trans_le hcount)
      exact ⟨p, hp, of_decide_eq_true h⟩
    obtain ⟨before, p, after, rfl, hp, hafter⟩ := exists_last hsome
    rw [List.append_cons] at hsorted hcount
    refine ⟨before, p, after, rfl, ?_⟩
    rw [List.nil_append, length_dropWhile_far (List.pairwise_append.mp hsorted).1]
    have hnone : after.countP (fun q => start ≤ q ∧ q ≤ start + width) = 0 :=
      List.countP_eq_zero.mpr fun q hq => by simpa using hafter q hq
    rw [List.countP_append, hnone, Nat.add_zero] at hcount
    refine hcount.trans (List.countP_mono_left fun q _ h => ?_)
    rw [decide_eq_true_iff] at h ⊢
    exact (sub_le_sub hp.2 h.1).trans_eq (add_sub_cancel_left start width)

omit [IsOrderedAddMonoid α] in
theorem Dense.subperm (h : Dense width least points) (hsub : points.Subperm points') : Dense width least points' := by
  obtain ⟨start, hcount⟩ := h
  exact ⟨start, hcount.trans (hsub.countP_le _)⟩

omit [IsOrderedAddMonoid α] in
theorem Dense.le_length (h : Dense width least points) : least ≤ points.length := by
  obtain ⟨start, hcount⟩ := h
  exact hcount.trans List.countP_le_length

end DenseWindow
