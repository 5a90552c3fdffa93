import Anoryx.Splice.Words

/-!
# Anoryx.Splice.Joined

What can be found in texts joined with a separator.

A part that does not have the separator lies in one of the texts (`infix_joined_iff`), and so do
the matches of an expression that does not take the separator up (`found_joined_iff`).
When the separator is not of a class, the words of the join are the words of the texts
(`wordOf_joined_iff`).
-/

namespace Splice

open Regex

variable {α : Type} {sep : α} {texts : List (List α)}

/-- Some part of the text is in the language. -/
def Found (r : Regex α) (text : List α) : Prop := ∃ w, w <:+: text ∧ r.Matches w

/-- `w` is one of the words of the text. -/
def WordOf (p : α → Bool) (w text : List α) : Prop := ∃ x y, text = x ++ w ++ y ∧ IsWord p x w y

theorem joined_cons_cons (text text' : List α) (texts : List (List α)) :
    [sep].intercalate (text :: text' :: texts) = text ++ sep :: [sep].intercalate (text' :: texts) := by
  rw [List.intercalate_cons_cons, List.append_assoc, List.singleton_append]

theorem map_joined {β : Type} (f : α → β) :
    ([sep].intercalate texts).map f = [f sep].intercalate (texts.map (List.map f)) := by
  induction texts with
  | nil => rfl
  | cons text texts ih =>
      cases texts with
      | nil => simp
      | cons text' texts => simp only [List.map_cons, joined_cons_cons, List.map_append, ih]

/-! ## two texts -/

variable {a b w : List α} {p : α → Bool}

theorem infix_append_cons_iff (hsep : sep ∉ w) : w <:+: a ++ sep :: b ↔ w <:+: a ∨ w <:+: b := by
  constructor
  · rintro ⟨x, y, h⟩
    rcases split_of_not_mem hsep h.symm with ⟨y', ha, -⟩ | ⟨x', -, hb⟩
    · exact Or.inl ⟨x, y', ha.symm⟩
    · exact Or.inr ⟨x', y, hb.symm⟩
  · rintro (h | h)
    · exact h.trans (List.prefix_append ..).isInfix
    · exact h.trans ((List.suffix_cons ..).trans (List.suffix_append ..)).isInfix

theorem wordOf_append_cons_iff (hsep : p sep = false) : WordOf p w (a ++ sep :: b) ↔ WordOf p w a ∨ WordOf p w b := by
  constructor
  · rintro ⟨x, y, h, hword⟩
    have hnot : sep ∉ w := fun hmem => by simp [hword.all _ hmem] at hsep
    rcases split_of_not_mem hnot h with ⟨y', ha, rfl⟩ | ⟨x', rfl, hb⟩
    · refine Or.inl ⟨x, y', ha, { hword with right := ?_ }⟩
      intro c hc
      exact hword.right c (by rw [List.head?_append, hc]; rfl)
    · refine Or.inr ⟨x', y, hb, { hword with left := ?_ }⟩
      intro c hc
      apply hword.left c
      rw [List.getLast?_append, List.getLast?_cons, hc]
      rfl
  · rintro (⟨x, y, rfl, hword⟩ | ⟨x, y, rfl, hword⟩)
    · refine ⟨x, y ++ sep :: b, by simp, { hword with right := ?_ }⟩
      cases y with
      | nil => simpa using hsep
      | cons c y => exact fun d hd => hword.right d hd
    · refine ⟨a ++ sep :: x, y, by simp, { hword with left := ?_ }⟩
      rcases List.eq_nil_or_concat x with rfl | ⟨x, c, rfl⟩
      · simpa using hsep
      · intro d hd
        apply hword.left d
        rw [List.concat_eq_append, List.append_cons, ← List.append_assoc, List.getLast?_concat] at hd
        rwa [List.concat_eq_append, List.getLast?_concat]

/-! ## all of them -/

theorem infix_joined_iff (hne : w ≠ []) (hsep : sep ∉ w) :
    w <:+: [sep].intercalate texts ↔ ∃ text ∈ texts, w <:+: text := by
  induction texts with
  | nil => simp [hne]
  | cons text texts ih =>
      cases texts with
      | nil => simp
      | cons text' texts =>
          rw [joined_cons_cons, infix_append_cons_iff hsep, ih]
          simp only [List.exists_mem_cons_iff]

theorem wordOf_joined_iff (hsep : p sep = false) :
    WordOf p w ([sep].intercalate texts) ↔ ∃ text ∈ texts, WordOf p w text := by
  induction texts with
  | nil =>
      simp only [List.intercalate_nil, List.not_mem_nil, false_and, exists_false, iff_false]
      rintro ⟨x, y, h, hword⟩
      simp [hword.ne_nil] at h
  | cons text texts ih =>
      cases texts with
      | nil => simp
      | cons text' texts =>
          rw [joined_cons_cons, wordOf_append_cons_iff hsep, ih]
          simp only [List.exists_mem_cons_iff]

/-- A pattern without the separator is found in a joined text just when it is in a part. -/
theorem found_joined_iff {r : Regex α} (hr : 0 < r.minWidth) (hsep : r.chars sep = false) :
    Found r ([sep].intercalate texts) ↔ ∃ text ∈ texts, Found r text := by
  have hpart : ∀ w, r.Matches w → (w <:+: [sep].intercalate texts ↔ ∃ text ∈ texts, w <:+: text) := by
    intro w hmatch
    apply infix_joined_iff
    · rintro rfl
      exact Nat.not_lt_zero _ (Nat.lt_of_lt_of_le hr hmatch.minWidth_le)
    · exact fun hmem => by simp [hmatch.chars _ hmem] at hsep
  constructor
  · rintro ⟨w, hw, hmatch⟩
    obtain ⟨text, htext, hw⟩ := (hpart w hmatch).mp hw
    exact ⟨text, htext, w, hw, hmatch⟩
  · rintro ⟨text, htext, w, hw, hmatch⟩
    exact ⟨w, (hpart w hmatch).mpr ⟨text, htext, hw⟩, hmatch⟩

end Splice
