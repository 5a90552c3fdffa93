import Anoryx.Regex
import Anoryx.Splice

/-!
# Anoryx.Splice.Words

The words of an edited list, and where a part of it comes from.

Each edit is taken as one symbol (`symbols`); of edits apart, the edited list is what the symbols
stand for (`run_eq_flatMap`), and its words are those of the symbols.  A word without an edit is a
word of the original list, away from every edit (`exists_clear_word`); so is a part that does not
have the ends of the marks, unless it lies in a mark (`infix_text_or_clear`).
-/

namespace Splice

open Regex

variable {α : Type}

/-! ## edits as symbols -/

def Edit.symbol (e : Edit α) : Edit (α ⊕ List α) := ⟨e.start, e.stop, e.le, [Sum.inr e.text]⟩

def symbols (edits : List (Edit α)) (chars : List α) : List (α ⊕ List α) :=
  run (edits.map Edit.symbol) (chars.map Sum.inl)

/-- What a symbol stands for. -/
def expand : α ⊕ List α → List α := Sum.elim (fun c => [c]) id

/-- A symbol of a class of characters; an edit is of the class. -/
def ofClass (p : α → Bool) : α ⊕ List α → Bool := Sum.elim p fun _ => true

@[simp] theorem flatMap_expand_inl (cs : List α) : (cs.map Sum.inl).flatMap expand = cs := by
  simp [expand, List.flatMap_map]

def Within (edits : List (Edit α)) (chars : List α) : Prop := ∀ e ∈ edits, e.stop ≤ chars.length

variable {edits : List (Edit α)} {chars : List α}

variable {e : Edit α} {X Y : List (α ⊕ List α)}

theorem Apart.within_take (h : Apart (e :: edits)) (hwithin : Within (e :: edits) chars) :
    Within edits (chars.take e.start) := by
  intro e' he'
  have hle := e.le
  have hstop := hwithin e List.mem_cons_self
  rw [List.length_take, Nat.min_eq_left (by omega)]
  exact (List.pairwise_cons.mp h).1 e' he'

theorem Apart.symbols_cons (h : Apart (e :: edits)) (hwithin : Within (e :: edits) chars) :
    symbols (e :: edits) chars =
      symbols edits (chars.take e.start) ++ Sum.inr e.text :: (chars.drop e.stop).map Sum.inl := by
  have happart : Apart (e.symbol :: edits.map Edit.symbol) := by
    rw [Apart, ← List.map_cons, List.pairwise_map]
    exact h
  have hstop : e.symbol.stop ≤ (chars.map (Sum.inl (β := List α))).length := by
    rw [List.length_map]
    exact hwithin e List.mem_cons_self
  rw [symbols, List.map_cons, happart.run_cons hstop, symbols, List.map_take, List.map_drop]
  simp [Edit.symbol]

theorem run_eq_flatMap (h : Apart edits) (hwithin : Within edits chars) :
    run edits chars = (symbols edits chars).flatMap expand := by
  induction edits generalizing chars with
  | nil => simp [symbols]
  | cons e edits ih =>
      have htail := (List.pairwise_cons.mp h).2
      rw [h.run_cons (hwithin e List.mem_cons_self), h.symbols_cons hwithin, List.flatMap_append, List.flatMap_cons,
        ← ih htail (h.within_take hwithin), flatMap_expand_inl, List.append_assoc]
      rfl

/-- The marks are of the class, and none is empty. -/
def Marks (p : α → Bool) (edits : List (Edit α)) : Prop := ∀ e ∈ edits, e.text ≠ [] ∧ ∀ c ∈ e.text, p c = true

variable {p : α → Bool}

theorem expand_of_mem_symbols (h : Apart edits)
    (hwithin : Within edits chars) (hmarks : Marks p edits) :
    ∀ s ∈ symbols edits chars, expand s ≠ [] ∧ ∀ c ∈ expand s, p c = ofClass p s := by
  have hinl : ∀ cs : List α, ∀ s ∈ cs.map (Sum.inl (β := List α)), expand s ≠ [] ∧ ∀ c ∈ expand s, p c = ofClass p s := by
    simp [expand, ofClass]
  induction edits generalizing chars with
  | nil => exact hinl chars
  | cons e edits ih =>
      obtain ⟨⟨hne, hall⟩, hothers⟩ := List.forall_mem_cons.mp hmarks
      rw [h.symbols_cons hwithin, List.forall_mem_append, List.forall_mem_cons]
      exact ⟨ih (List.pairwise_cons.mp h).2 (h.within_take hwithin) hothers, ⟨hne, hall⟩, hinl _⟩

/-! ## parts -/

theorem split_of_not_mem {A B X Y w : List α} {c : α} (hc : c ∉ w) (h : A ++ c :: B = X ++ w ++ Y) :
    (∃ Y', A = X ++ w ++ Y' ∧ Y = Y' ++ c :: B) ∨ ∃ X', X = A ++ c :: X' ∧ B = X' ++ w ++ Y := by
  rw [List.append_assoc] at h
  rcases List.append_eq_append_iff.mp h with ⟨X', rfl, hrest⟩ | ⟨rest, rfl, hrest⟩
  · cases X' with
    | nil =>
        cases w with
        | nil => exact Or.inl ⟨[], by simp, by simpa using hrest.symm⟩
        | cons d w =>
            obtain ⟨rfl, -⟩ := List.cons.inj hrest
            simp at hc
    | cons d X' =>
        obtain ⟨rfl, rfl⟩ := List.cons.inj hrest
        exact Or.inr ⟨X', rfl, by simp⟩
  · rcases List.append_eq_append_iff.mp hrest with ⟨Y', rfl, rfl⟩ | ⟨w', rfl, hw'⟩
    · exact Or.inl ⟨Y', by simp, rfl⟩
    · cases w' with
      | nil => exact Or.inl ⟨[], by simp, by simpa using hw'.symm⟩
      | cons d w' =>
          obtain ⟨rfl, -⟩ := List.cons.inj hw'
          simp at hc

/-- What lies inside an edited text lies in one marker, or in the text beside them. -/
theorem infix_text_or_clear {chars w X Y : List α} (h : Apart edits)
    (hwithin : Within edits chars) (hends : ∀ e ∈ edits, ∃ l mid r, e.text = l :: mid ++ [r] ∧ l ∉ w ∧ r ∉ w)
    (hsplit : run edits chars = X ++ w ++ Y) :
    (∃ e ∈ edits, w <:+: e.text) ∨
      ∃ x y, chars = x ++ w ++ y ∧ ∀ e ∈ edits, x.length + w.length ≤ e.start ∨ e.stop ≤ x.length := by
  induction edits generalizing chars Y with
  | nil => exact Or.inr ⟨X, Y, hsplit, by simp⟩
  | cons e edits ih =>
      have hle := e.le
      have hstop := hwithin e List.mem_cons_self
      have hbefore := (List.pairwise_cons.mp h).1
      obtain ⟨hhead, hothers⟩ := List.forall_mem_cons.mp hends
      obtain ⟨l, mid, r, htext, hl, hr⟩ := hhead
      rw [h.run_cons hstop, htext, List.append_assoc, List.cons_append, List.cons_append] at hsplit
      rcases split_of_not_mem hl hsplit with ⟨Y', htake, -⟩ | ⟨X', -, hafter⟩
      · rcases ih (List.pairwise_cons.mp h).2 (h.within_take hwithin) hothers htake with
          ⟨e', he', hinfix⟩ | ⟨x, y, hchars, hclear⟩
        · exact Or.inl ⟨e', List.mem_cons_of_mem _ he', hinfix⟩
        · refine Or.inr ⟨x, y ++ chars.drop e.start, ?_, ?_⟩
          · rw [← List.append_assoc, ← hchars, List.take_append_drop]
          · rw [List.forall_mem_cons]
            refine ⟨Or.inl ?_, hclear⟩
            have hlength := congrArg List.length hchars
            simp only [List.length_take, List.length_append] at hlength
            omega
      · rw [List.append_assoc, List.singleton_append] at hafter
        rcases split_of_not_mem hr hafter with ⟨Y', hmid, -⟩ | ⟨x, -, hdrop⟩
        · refine Or.inl ⟨e, List.mem_cons_self, l :: X', Y' ++ [r], ?_⟩
          rw [htext, hmid]
          simp
        · refine Or.inr ⟨chars.take e.stop ++ x, Y, ?_, ?_⟩
          · rw [List.append_assoc, List.append_assoc, ← List.append_assoc x, ← hdrop, List.take_append_drop]
          · rw [List.length_append, List.length_take, Nat.min_eq_left hstop, List.forall_mem_cons]
            refine ⟨Or.inr (Nat.le_add_right ..), ?_⟩
            intro e' he'
            have := hbefore e' he'
            omega

/-! ## words -/

theorem isWord_map_inl {x w y : List α}
    (h : IsWord (ofClass p) (x.map Sum.inl) (w.map Sum.inl) (y.map Sum.inl)) : IsWord p x w y := by
  constructor
  case ne_nil => exact fun hnil => h.ne_nil (by rw [hnil, List.map_nil])
  case all => exact fun c hc => h.all (Sum.inl c) (List.mem_map_of_mem hc)
  case left => exact fun c hc => h.left (Sum.inl c) (by rw [List.getLast?_map, hc, Option.map_some])
  case right => exact fun c hc => h.right (Sum.inl c) (by rw [List.head?_map, hc, Option.map_some])

theorem split_map_inl {chars w : List α} (h : chars.map Sum.inl = X ++ w.map Sum.inl ++ Y) :
    ∃ x y, chars = x ++ w ++ y ∧ X = x.map Sum.inl ∧ Y = y.map Sum.inl := by
  obtain ⟨xw, y, rfl, hxw, rfl⟩ := List.map_eq_append_iff.mp h
  obtain ⟨x, w', rfl, rfl, hw⟩ := List.map_eq_append_iff.mp hxw
  obtain rfl := List.map_injective_iff.mpr Sum.inl_injective hw
  exact ⟨x, y, rfl, rfl, rfl⟩

theorem exists_clear_word {chars w : List α} (h : Apart edits) (hwithin : Within edits chars)
    (hsplit : symbols edits chars = X ++ w.map Sum.inl ++ Y) (hword : IsWord (ofClass p) X (w.map Sum.inl) Y) :
    ∃ x y, chars = x ++ w ++ y ∧ IsWord p x w y ∧ (Y ≠ [] → y ≠ []) ∧
      ∀ e ∈ edits, x.length + w.length < e.start ∨ e.stop < x.length := by
  induction edits generalizing chars Y with
  | nil =>
      obtain ⟨x, y, hchars, rfl, rfl⟩ := split_map_inl hsplit
      exact ⟨x, y, hchars, isWord_map_inl hword, by simp, by simp⟩
  | cons e edits ih =>
      have hle := e.le
      have hstop := hwithin e List.mem_cons_self
      have hbefore := (List.pairwise_cons.mp h).1
      rw [h.symbols_cons hwithin] at hsplit
      rcases split_of_not_mem (by simp) hsplit with ⟨Y', htake, rfl⟩ | ⟨X', rfl, hdrop⟩
      · -- next to the edit the word would go on
        have hY' : Y' ≠ [] := by
          rintro rfl
          have hright := hword.right _ rfl
          contradiction
        have hword' : IsWord (ofClass p) X (w.map Sum.inl) Y' :=
          ⟨hword.ne_nil, hword.all, hword.left, fun c hc => hword.right c (by rw [List.head?_append, hc]; rfl)⟩
        obtain ⟨x, y, hchars, hclearWord, hy, hclear⟩ :=
          ih (List.pairwise_cons.mp h).2 (h.within_take hwithin) htake hword'
        have hne := hy hY'
        refine ⟨x, y ++ chars.drop e.start, ?_, ⟨hclearWord.ne_nil, hclearWord.all, hclearWord.left, ?_⟩, by simp [hne], ?_⟩
        · rw [← List.append_assoc, ← hchars, List.take_append_drop]
        · intro c hc
          rw [List.head?_append_of_ne_nil _ hne] at hc
          exact hclearWord.right c hc
        · rw [List.forall_mem_cons]
          refine ⟨Or.inl ?_, hclear⟩
          have hlength := congrArg List.length hchars
          have hpos := List.length_pos_iff.mpr hne
          simp only [List.length_take, List.length_append] at hlength
          omega
      · obtain ⟨x, y, hafter, rfl, rfl⟩ := split_map_inl hdrop
        have hne : x ≠ [] := by
          rintro rfl
          have hleft := hword.left (Sum.inr e.text) (by simp)
          contradiction
        have hword' : IsWord p x w y := by
          refine isWord_map_inl ⟨hword.ne_nil, hword.all, ?_, hword.right⟩
          intro c hc
          apply hword.left c
          rw [List.getLast?_append, List.getLast?_cons, hc]
          rfl
        refine ⟨chars.take e.stop ++ x, y, ?_, ⟨hword'.ne_nil, hword'.all, ?_, hword'.right⟩, by simp, ?_⟩
        · rw [List.append_assoc, List.append_assoc, ← List.append_assoc x, ← hafter, List.take_append_drop]
        · intro c hc
          rw [List.getLast?_append_of_ne_nil _ hne] at hc
          exact hword'.left c hc
        · have hpos := List.length_pos_iff.mpr hne
          rw [List.length_append, List.length_take, Nat.min_eq_left hstop, List.forall_mem_cons]
          refine ⟨Or.inr (by omega), ?_⟩
          intro e' he'
          have := hbefore e' he'
          omega

theorem isWord_run {x w y : List (α ⊕ List α)}
    (h : Apart edits) (hwithin : Within edits chars) (hmarks : Marks p edits) (hsplit : symbols edits chars = x ++ w ++ y)
    (hword : IsWord (ofClass p) x w y) :
    run edits chars = x.flatMap expand ++ w.flatMap expand ++ y.flatMap expand ∧
      IsWord p (x.flatMap expand) (w.flatMap expand) (y.flatMap expand) := by
  constructor
  · rw [run_eq_flatMap h hwithin, hsplit, List.flatMap_append, List.flatMap_append]
  · exact hword.flatMap (hsplit ▸ expand_of_mem_symbols h hwithin hmarks)

/-- A word of an edited text is a word of the text, or takes a whole marker in. -/
theorem word_of_run {chars X W Y : List α} (h : Apart edits)
    (hwithin : Within edits chars) (hmarks : Marks p edits) (hsplit : run edits chars = X ++ W ++ Y)
    (hword : IsWord p X W Y) :
    (∃ x w y, symbols edits chars = x ++ w ++ y ∧ IsWord (ofClass p) x w y ∧ w.flatMap expand = W ∧
      ∃ s ∈ w, s.isRight) ∨
    ∃ x y, chars = x ++ W ++ y ∧ IsWord p x W y ∧ ∀ e ∈ edits, x.length + W.length < e.start ∨ e.stop < x.length := by
  rw [run_eq_flatMap h hwithin] at hsplit
  obtain ⟨x, w, y, hsymbols, hw, hflat, -⟩ :=
    exists_isWord_of_flatMap (expand_of_mem_symbols h hwithin hmarks) hsplit hword
  by_cases hmark : ∃ s ∈ w, s.isRight
  · exact Or.inl ⟨x, w, y, hsymbols, hw, hflat, hmark⟩
  · have hinl : ∃ v : List α, w = v.map Sum.inl := by
      refine ⟨w.filterMap Sum.getLeft?, ?_⟩
      clear hsymbols hw hflat
      induction w with
      | nil => rfl
      | cons s w ih =>
          cases s with
          | inl c => simpa using ih (by simpa using hmark)
          | inr text => simp at hmark
    obtain ⟨v, rfl⟩ := hinl
    obtain rfl : v = W := by rw [← hflat, flatMap_expand_inl]
    obtain ⟨x', y', hchars, hword', -, hclear⟩ := exists_clear_word h hwithin hsymbols hw
    exact Or.inr ⟨x', y', hchars, hword', hclear⟩

end Splice
