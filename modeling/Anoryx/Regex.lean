import Mathlib.Data.List.Basic
import Mathlib.Data.List.Pairwise
import Mathlib.Data.List.TakeWhile

/-!
# Anoryx.Regex

Regular expressions with classes of characters, greedy repetition of a class, sequence and
alternation, as a backtracking engine matches them.

`ends` lists the lengths of the matches at the start of a text in the order in which the engine
tries them; `finditer` takes the first one at each place from left to right and goes on after it.
`mem_ends` says what the lengths are, by the language of the expression (`Matches`); of an
expression that takes up at least a character, every match in a text starts inside a found one
(`exists_mem_finditer`).
-/

inductive Regex (α : Type) where
  | empty
  | one (p : α → Bool)
  | many (p : α → Bool) (least : Nat)
  | seq (r s : Regex α)
  | alt (r s : Regex α)

namespace Regex

variable {α : Type}

/-- A text, character by character. -/
def lit [DecidableEq α] (cs : List α) : Regex α := cs.foldr (fun c r => seq (one fun d => d = c) r) empty

/-- So many characters of a class. -/
def times (n : Nat) (p : α → Bool) : Regex α := (List.replicate n (one p)).foldr seq empty

/-! ## what an expression matches -/

/-- The language of an expression. -/
def Matches : Regex α → List α → Prop
  | empty, w => w = []
  | one p, w => ∃ c, w = [c] ∧ p c = true
  | many p least, w => least ≤ w.length ∧ ∀ c ∈ w, p c = true
  | seq r s, w => ∃ u v, w = u ++ v ∧ r.Matches u ∧ s.Matches v
  | alt r s, w => r.Matches w ∨ s.Matches w

/-- The lengths of the matches at the start of a text, the preferred ones first. -/
def ends : Regex α → List α → List Nat
  | empty, _ => [0]
  | one p, cs => if cs.head?.any p then [1] else []
  | many p least, cs => (List.range' least ((cs.takeWhile p).length + 1 - least)).reverse
  | seq r s, cs => (r.ends cs).flatMap fun i => (s.ends (cs.drop i)).map (i + ·)
  | alt r s, cs => r.ends cs ++ s.ends cs

variable {cs : List α}

variable {p : α → Bool} {k pos skip i : Nat} {w x z X W Y : List α}

theorem le_length_takeWhile_iff : k ≤ (cs.takeWhile p).length ↔ k ≤ cs.length ∧ ∀ c ∈ cs.take k, p c = true := by
  induction cs generalizing k with
  | nil => simp
  | cons c cs ih =>
      cases k with
      | zero => simp
      | succ k =>
          cases hc : p c with
          | true => simp [hc, ih]
          | false => simp [hc]

variable {r : Regex α}

/-- The ends of a match are the prefixes that match. -/
theorem mem_ends : k ∈ r.ends cs ↔ k ≤ cs.length ∧ r.Matches (cs.take k) := by
  induction r generalizing cs k with
  | empty =>
      simp only [ends, Matches, List.mem_singleton]
      constructor
      · rintro rfl
        simp
      · rintro ⟨hle, htake⟩
        simpa [hle] using congrArg List.length htake
  | one p =>
      cases cs with
      | nil => simp [ends, Matches]
      | cons c cs =>
          simp only [ends, Matches, List.head?_cons, Option.any_some]
          rcases k with _ | _ | k
          · by_cases hc : p c = true <;> simp [hc]
          · by_cases hc : p c = true <;> simp [hc]
          · by_cases hc : p c = true <;> cases cs <;> simp [hc]
  | many p least =>
      simp only [ends, Matches, List.mem_reverse, List.mem_range'_1]
      have hle : k ≤ (cs.takeWhile p).length ↔ k ≤ cs.length ∧ ∀ c ∈ cs.take k, p c = true := le_length_takeWhile_iff
      constructor
      · rintro ⟨hlow, hhigh⟩
        obtain ⟨hlength, hall⟩ := hle.mp (by omega)
        exact ⟨hlength, by rw [List.length_take]; omega, hall⟩
      · rintro ⟨hlength, hlow, hall⟩
        have := hle.mpr ⟨hlength, hall⟩
        rw [List.length_take] at hlow
        omega
  | seq r s ihr ihs =>
      simp only [ends, Matches, List.mem_flatMap, List.mem_map, ihr, ihs, List.length_drop]
      constructor
      · rintro ⟨i, ⟨hi, hr⟩, j, ⟨hj, hs⟩, rfl⟩
        exact ⟨by omega, _, _, List.take_add, hr, hs⟩
      · rintro ⟨hk, u, v, hw, hr, hs⟩
        have hlength : u.length + v.length = k := by
          have := congrArg List.length hw
          rw [List.length_take, List.length_append] at this
          omega
        have htake : cs.take u.length ++ (cs.drop u.length).take v.length = u ++ v := by
          rw [← List.take_add, hlength, hw]
        obtain ⟨hu, hv⟩ := List.append_inj htake (by rw [List.length_take]; omega)
        exact ⟨u.length, ⟨by omega, hu.symm ▸ hr⟩, v.length, ⟨by omega, hv.symm ▸ hs⟩, hlength⟩
  | alt r s ihr ihs =>
      simp only [ends, Matches, List.mem_append, ihr, ihs]
      tauto

/-- A word of the language is as long as the shortest. -/
def minWidth : Regex α → Nat
  | empty => 0
  | one _ => 1
  | many _ least => least
  | seq r s => r.minWidth + s.minWidth
  | alt r s => min r.minWidth s.minWidth

theorem Matches.minWidth_le (h : r.Matches w) : r.minWidth ≤ w.length := by
  induction r generalizing w with
  | empty => exact Nat.zero_le _
  | one p =>
      obtain ⟨c, rfl, -⟩ := h
      exact Nat.le_refl _
  | many p least => exact h.1
  | seq r s ihr ihs =>
      obtain ⟨u, v, rfl, hr, hs⟩ := h
      rw [List.length_append]
      exact Nat.add_le_add (ihr hr) (ihs hs)
  | alt r s ihr ihs =>
      rcases h with hr | hs
      · exact Nat.le_trans (Nat.min_le_left ..) (ihr hr)
      · exact Nat.le_trans (Nat.min_le_right ..) (ihs hs)

/-- The characters of the words of the language. -/
def chars : Regex α → α → Bool
  | empty, _ => false
  | one p, c => p c
  | many p _, c => p c
  | seq r s, c => r.chars c || s.chars c
  | alt r s, c => r.chars c || s.chars c

theorem Matches.chars (h : r.Matches w) : ∀ c ∈ w, r.chars c = true := by
  induction r generalizing w with
  | empty =>
      obtain rfl : w = [] := h
      simp
  | one p =>
      obtain ⟨c, rfl, hc⟩ := h
      simpa [Regex.chars] using hc
  | many p least => exact h.2
  | seq r s ihr ihs =>
      obtain ⟨u, v, rfl, hr, hs⟩ := h
      intro c hc
      simp only [Regex.chars, Bool.or_eq_true]
      exact (List.mem_append.mp hc).imp (ihr hr c) (ihs hs c)
  | alt r s ihr ihs =>
      intro c hc
      simp only [Regex.chars, Bool.or_eq_true]
      exact h.imp (fun hr => ihr hr c hc) (fun hs => ihs hs c hc)

/-! ## the matches in a text -/

/-- The start and the end of a match that is not empty. -/
@[ext] structure Span where
  start : Nat
  stop : Nat
  lt : start < stop
  deriving DecidableEq

/-- The matches from left to right: at a place the preferred one, and after it the next `skip`
characters are passed over.  `pos` is the place of the text. -/
def finditerFrom (r : Regex α) (pos skip : Nat) : List α → List (Span)
  | [] => []
  | c :: cs =>
      match skip, (r.ends (c :: cs)).head? with
      | skip + 1, _ => r.finditerFrom (pos + 1) skip cs
      | 0, some (more + 1) => ⟨pos, pos + more + 1, by omega⟩ :: r.finditerFrom (pos + 1) more cs
      | 0, _ => r.finditerFrom (pos + 1) 0 cs

/-- `r.finditer(text)`, of an expression that matches no empty text. -/
def finditer (r : Regex α) (text : List α) : List (Span) := r.finditerFrom 0 0 text

variable {m : Span}

theorem mem_finditerFrom (h : m ∈ r.finditerFrom pos skip cs) :
    ∃ i, m.start = pos + i ∧ skip ≤ i ∧ (r.ends (cs.drop i)).head? = some (m.stop - m.start) := by
  fun_induction finditerFrom r pos skip cs with
  | case1 => contradiction
  | case2 pos c cs skip ih =>
      obtain ⟨i, hstart, hskip, hends⟩ := ih h
      exact ⟨i + 1, by omega, by omega, hends⟩
  | case3 pos c cs more hends ih =>
      rcases List.mem_cons.mp h with rfl | h
      · exact ⟨0, rfl, Nat.le_refl _, hends.trans (congrArg some (by simp only; omega))⟩
      · obtain ⟨i, hstart, hskip, hends'⟩ := ih h
        exact ⟨i + 1, by omega, Nat.zero_le _, hends'⟩
  | case4 pos c cs hends ih =>
      obtain ⟨i, hstart, hskip, hends'⟩ := ih h
      exact ⟨i + 1, by omega, Nat.zero_le _, hends'⟩

variable {text : List α}

theorem mem_finditer (h : m ∈ r.finditer text) :
    (r.ends (text.drop m.start)).head? = some (m.stop - m.start) := by
  obtain ⟨i, hstart, -, hends⟩ := mem_finditerFrom h
  obtain rfl : i = m.start := by omega
  exact hends

theorem pairwise_finditerFrom (r : Regex α) (pos skip : Nat) (cs : List α) :
    (r.finditerFrom pos skip cs).Pairwise fun m m' => m.stop ≤ m'.start := by
  fun_induction finditerFrom r pos skip cs with
  | case1 => exact List.Pairwise.nil
  | case2 pos c cs skip ih => exact ih
  | case3 pos c cs more hends ih =>
      refine List.pairwise_cons.mpr ⟨?_, ih⟩
      intro m hm
      obtain ⟨i, hstart, hskip, -⟩ := mem_finditerFrom hm
      simp only
      omega
  | case4 pos c cs hends ih => exact ih

/-- The matches of a scan do not overlap and come in order. -/
theorem pairwise_finditer (r : Regex α) (text : List α) :
    (r.finditer text).Pairwise fun m m' => m.stop ≤ m'.start := pairwise_finditerFrom r 0 0 text

theorem exists_mem_finditerFrom (hr : 0 < r.minWidth) (hskip : skip ≤ i) (h : k ∈ r.ends (cs.drop i)) :
    ∃ m ∈ r.finditerFrom pos skip cs, m.start ≤ pos + i ∧ pos + i < m.stop := by
  fun_induction finditerFrom r pos skip cs generalizing i with
  | case1 pos skip =>
      have hwidth := (mem_ends.mp h).2.minWidth_le
      simp only [List.drop_nil, List.take_nil, List.length_nil] at hwidth
      omega
  | case2 pos c cs skip ih =>
      obtain ⟨i, rfl⟩ := Nat.exists_eq_add_of_le' (Nat.le_trans (Nat.le_add_left 1 skip) hskip)
      obtain ⟨m, hm, hle, hlt⟩ := ih (Nat.le_of_succ_le_succ hskip) h
      exact ⟨m, hm, by omega, by omega⟩
  | case3 pos c cs more hends ih =>
      by_cases hi : i ≤ more
      · exact ⟨_, List.mem_cons_self, Nat.le_add_right .., by simp only; omega⟩
      · obtain ⟨i, rfl⟩ := Nat.exists_eq_add_of_le' (Nat.lt_of_le_of_lt (Nat.zero_le _) (Nat.lt_of_not_le hi))
        obtain ⟨m, hm, hle, hlt⟩ := ih (by omega) h
        exact ⟨m, List.mem_cons_of_mem _ hm, by omega, by omega⟩
  | case4 pos c cs hends ih =>
      cases i with
      | zero =>
          exfalso
          obtain ⟨j, hj⟩ := Option.isSome_iff_exists.mp (List.isSome_head?.mpr (List.ne_nil_of_mem h))
          have hwidth := (mem_ends.mp (List.mem_of_mem_head? hj)).2.minWidth_le
          rw [List.length_take] at hwidth
          exact hends (j - 1) (hj.trans (by congr 1; omega))
      | succ i =>
          obtain ⟨m, hm, hle, hlt⟩ := ih (Nat.zero_le _) h
          exact ⟨m, hm, by omega, by omega⟩

/-- Where the pattern matches, the scan has a match that covers the place. -/
theorem exists_mem_finditer (hr : 0 < r.minWidth) (h : k ∈ r.ends (text.drop i)) :
    ∃ m ∈ r.finditer text, m.start ≤ i ∧ i < m.stop := by
  have hfound : ∃ m ∈ r.finditerFrom 0 0 text, m.start ≤ 0 + i ∧ 0 + i < m.stop :=
    exists_mem_finditerFrom hr (Nat.zero_le i) h
  rwa [Nat.zero_add] at hfound

theorem stop_le_of_mem_finditer (h : m ∈ r.finditer text) :
    m.stop ≤ text.length := by
  have hlt := m.lt
  have hle := (mem_ends.mp (List.mem_of_mem_head? (mem_finditer h))).1
  rw [List.length_drop] at hle
  omega

/-- A scan finds nothing just when nothing inside the text matches. -/
theorem finditer_eq_nil_iff (hr : 0 < r.minWidth) :
    r.finditer text = [] ↔ ∀ w, w <:+: text → ¬ r.Matches w := by
  constructor
  · rintro hnil w ⟨x, y, rfl⟩ hmatch
    have hends : w.length ∈ r.ends ((x ++ w ++ y).drop x.length) := by
      rw [mem_ends, List.append_assoc, List.drop_left, List.take_left]
      exact ⟨by simp, hmatch⟩
    obtain ⟨m, hm, -⟩ := exists_mem_finditer hr hends
    rw [hnil] at hm
    contradiction
  · intro h
    rw [List.eq_nil_iff_forall_not_mem]
    intro m hm
    have hmatch := (mem_ends.mp (List.mem_of_mem_head? (mem_finditer hm))).2
    exact h _ ((List.take_prefix ..).isInfix.trans (List.drop_suffix ..).isInfix) hmatch

/-! ## words of a class -/

/-- Of `x ++ w ++ y`, `w` is a word: its characters are of the class, and those next to it are not. -/
structure IsWord (p : α → Bool) (x w y : List α) : Prop where
  ne_nil : w ≠ []
  all : ∀ c ∈ w, p c = true
  left : ∀ c, x.getLast? = some c → p c = false
  right : ∀ c, y.head? = some c → p c = false

theorem IsWord.eq_takeWhile {y : List α} (h : IsWord p x w y) :
    (w ++ y).takeWhile p = w ∧ (w ++ y).dropWhile p = y := by
  have hnone : y.takeWhile p = [] ∧ y.dropWhile p = y := by
    cases y with
    | nil => simp
    | cons c y => simp [h.right c rfl]
  rw [List.takeWhile_append_of_pos h.all, List.dropWhile_append_of_pos h.all, hnone.1, hnone.2, List.append_nil]
  exact ⟨rfl, rfl⟩

theorem isWord_takeWhile (hleft : ∀ c, x.getLast? = some c → p c = false) (hne : z.takeWhile p ≠ []) :
    IsWord p x (z.takeWhile p) (z.dropWhile p) := by
  constructor
  case ne_nil => exact hne
  case all => exact fun c hc => List.mem_takeWhile_imp hc
  case left => exact hleft
  case right =>
    intro c hc
    have hnot := List.head?_dropWhile_not p z
    rw [hc] at hnot
    simpa using hnot

theorem length_of_mem_finditer_many (h : m ∈ (many p 1).finditer text) :
    m.stop - m.start = ((text.drop m.start).takeWhile p).length := by
  have hends := mem_finditer h
  simp only [ends, List.head?_reverse, Nat.add_sub_cancel, List.getLast?_range'] at hends
  split at hends
  case isTrue => contradiction
  case isFalse => grind

/-- A match of a run of characters is a longest one. -/
theorem of_mem_finditer_many (h : m ∈ (many p 1).finditer text) :
    (∀ i c, m.start ≤ i → i < m.stop → text[i]? = some c → p c = true) ∧ ∀ c, text[m.stop]? = some c → p c = false := by
  have hlt := m.lt
  have hlength := length_of_mem_finditer_many h
  constructor
  · intro i c hle hi hc
    obtain ⟨-, hall⟩ := le_length_takeWhile_iff.mp (Nat.le_of_eq hlength)
    apply hall c
    apply List.mem_of_getElem? (i := i - m.start)
    rw [List.getElem?_take_of_lt (by omega), List.getElem?_drop, Nat.add_sub_cancel' hle, hc]
  · intro c hc
    have hstop : (text.drop m.start)[((text.drop m.start).takeWhile p).length]? = some c := by
      rw [← hlength, List.getElem?_drop, Nat.add_sub_cancel' (Nat.le_of_lt hlt), hc]
    have hnot := List.head?_dropWhile_not p (text.drop m.start)
    rw [← List.takeWhile_append_dropWhile (p := p) (l := text.drop m.start), List.getElem?_append_right (by simp)] at hstop
    simp only [List.takeWhile_append_dropWhile, Nat.sub_self, ← List.head?_eq_getElem?] at hstop
    rw [hstop] at hnot
    simpa using hnot

theorem disjoint_of_mem_finditer {m m' : Span} (h : m ∈ r.finditer text)
    (h' : m' ∈ r.finditer text) (hne : m ≠ m') : m.stop ≤ m'.start ∨ m'.stop ≤ m.start := by
  have hpairwise : (r.finditer text).Pairwise fun m m' => m.stop ≤ m'.start ∨ m'.stop ≤ m.start :=
    (pairwise_finditer r text).imp Or.inl
  have hsymm : Std.Symm fun m m' : Span => m.stop ≤ m'.start ∨ m'.stop ≤ m.start := ⟨fun _ _ => Or.symm⟩
  exact hpairwise.forall h h' hne

theorem exists_mem_finditer_many {c : α} (hc : text[i]? = some c) (hp : p c = true) :
    ∃ m ∈ (many p 1).finditer text, m.start ≤ i ∧ i < m.stop := by
  have hwidth : 0 < (many p 1).minWidth := Nat.one_pos
  obtain ⟨hlt, rfl⟩ := List.getElem?_eq_some_iff.mp hc
  have hends : 1 ∈ (many p 1).ends (text.drop i) := by
    rw [mem_ends, List.drop_eq_getElem_cons hlt]
    refine ⟨Nat.le_add_left .., ?_⟩
    simpa only [Matches, List.take_succ_cons, List.take_zero, List.length_singleton, List.mem_singleton, forall_eq]
      using ⟨Nat.le_refl 1, hp⟩
  exact exists_mem_finditer hwidth hends

/-- The matches of a run of characters are its words. -/
theorem mem_finditer_many_iff :
    m ∈ (many p 1).finditer text ↔
      ∃ x w y, text = x ++ w ++ y ∧ IsWord p x w y ∧ m.start = x.length ∧ m.stop = x.length + w.length := by
  constructor
  · intro h
    have hlt := m.lt
    have hlength := length_of_mem_finditer_many h
    have hstart : m.start < text.length := by
      by_contra hge
      rw [List.drop_eq_nil_of_le (by omega)] at hlength
      simp only [List.takeWhile_nil, List.length_nil] at hlength
      omega
    have hfirst := (of_mem_finditer_many h).1 m.start _ (Nat.le_refl _) hlt (List.getElem?_eq_getElem hstart)
    refine ⟨text.take m.start, (text.drop m.start).takeWhile p, (text.drop m.start).dropWhile p, ?_, ?_, ?_, ?_⟩
    · rw [List.append_assoc, List.takeWhile_append_dropWhile, List.take_append_drop]
    · apply isWord_takeWhile
      · intro c hc
        by_contra hp
        rw [Bool.not_eq_false] at hp
        rw [List.getLast?_eq_getElem?, List.length_take, Nat.min_eq_left (Nat.le_of_lt hstart)] at hc
        have hpos : 0 < m.start := by
          by_contra hzero
          simp [Nat.eq_zero_of_not_pos hzero] at hc
        rw [List.getElem?_take_of_lt (by omega)] at hc
        -- the match that covers the place before would end here, where the class goes on
        obtain ⟨m', hm', hle, hgt⟩ := exists_mem_finditer_many hc hp
        have hdisjoint := disjoint_of_mem_finditer h hm' (by rintro rfl; omega)
        have hend : m'.stop = m.start := by omega
        have hstop := (of_mem_finditer_many hm').2 _ (by rw [hend, List.getElem?_eq_getElem hstart])
        simp [hfirst] at hstop
      · rw [← List.length_pos_iff, ← hlength]
        omega
    · rw [List.length_take, Nat.min_eq_left (Nat.le_of_lt hstart)]
    · rw [List.length_take, Nat.min_eq_left (Nat.le_of_lt hstart), ← hlength, Nat.add_sub_cancel' (Nat.le_of_lt hlt)]
  · rintro ⟨x, w, y, rfl, hword, hstart, hstop⟩
    have hpos := List.length_pos_iff.mpr hword.ne_nil
    have hhere : (x ++ w ++ y)[x.length]? = some w[0] := by
      rw [List.append_assoc, List.getElem?_append_right (Nat.le_refl _), Nat.sub_self,
        List.getElem?_append_left hpos, List.getElem?_eq_getElem hpos]
    obtain ⟨m', hm, hle, hgt⟩ := exists_mem_finditer_many hhere (hword.all _ (List.getElem_mem hpos))
    have hfirst : m'.start = x.length := by
      by_contra hne
      have hbefore : (x ++ w ++ y)[x.length - 1]? = x.getLast? := by
        rw [List.append_assoc, List.getElem?_append_left (by omega), List.getLast?_eq_getElem?]
      cases hlast : x.getLast? with
      | none =>
          rw [List.getLast?_eq_none_iff.mp hlast] at hle hne
          simp only [List.length_nil] at hle hne
          omega
      | some d =>
          have hd := (of_mem_finditer_many hm).1 (x.length - 1) d (by omega) (by omega) (hbefore.trans hlast)
          simp [hword.left d hlast] at hd
    have hlength := length_of_mem_finditer_many hm
    rw [hfirst, List.append_assoc, List.drop_left, hword.eq_takeWhile.1] at hlength
    have hlt := m'.lt
    obtain rfl : m = m' := Span.ext (by omega) (by omega)
    exact hm

theorem pairwise_finditer_many (p : α → Bool) (text : List α) :
    ((many p 1).finditer text).Pairwise fun m m' => m.stop < m'.start := by
  apply (pairwise_finditer (many p 1) text).imp_of_mem
  intro m m' hm hm' hle
  apply Nat.lt_of_le_of_ne hle
  intro heq
  have hlt : m'.start < text.length := Nat.lt_of_lt_of_le m'.lt (stop_le_of_mem_finditer hm')
  have hfirst := (of_mem_finditer_many hm').1 m'.start _ (Nat.le_refl _) m'.lt (List.getElem?_eq_getElem hlt)
  have hstop := (of_mem_finditer_many hm).2 _ (by rw [heq, List.getElem?_eq_getElem hlt])
  rw [hfirst] at hstop
  contradiction

section FlatMap

variable {β : Type} {p : α → Bool} {q : β → Bool} {f : β → List α}

theorem IsWord.flatMap {x w y : List β} (hf : ∀ b ∈ x ++ w ++ y, f b ≠ [] ∧ ∀ c ∈ f b, p c = q b)
    (h : IsWord q x w y) : IsWord p (x.flatMap f) (w.flatMap f) (y.flatMap f) := by
  constructor
  case ne_nil =>
    obtain ⟨b, hb⟩ := List.exists_mem_of_ne_nil w h.ne_nil
    obtain ⟨c, hc⟩ := List.exists_mem_of_ne_nil _ (hf b (by simp [hb])).1
    exact List.ne_nil_of_mem (List.mem_flatMap.mpr ⟨b, hb, hc⟩)
  case all =>
    intro c hc
    obtain ⟨b, hb, hc⟩ := List.mem_flatMap.mp hc
    rw [(hf b (by simp [hb])).2 c hc, h.all b hb]
  case left =>
    rcases List.eq_nil_or_concat x with rfl | ⟨x, b, rfl⟩
    · simp
    · intro c hc
      obtain ⟨hne, hall⟩ := hf b (by simp)
      rw [List.concat_eq_append, List.flatMap_append, List.flatMap_singleton, List.getLast?_append_of_ne_nil _ hne] at hc
      rw [hall c (List.mem_of_getLast? hc), h.left b (by simp)]
  case right =>
    cases y with
    | nil => simp
    | cons b y =>
        intro c hc
        obtain ⟨hne, hall⟩ := hf b (by simp)
        rw [List.flatMap_cons, List.head?_append_of_ne_nil _ hne] at hc
        rw [hall c (List.mem_of_head? hc), h.right b rfl]

variable {bs : List β}

theorem takeWhile_flatMap (hf : ∀ b ∈ bs, f b ≠ [] ∧ ∀ c ∈ f b, p c = q b) :
    (bs.flatMap f).takeWhile p = (bs.takeWhile q).flatMap f ∧ (bs.flatMap f).dropWhile p = (bs.dropWhile q).flatMap f := by
  induction bs with
  | nil => simp
  | cons b bs ih =>
      obtain ⟨⟨hne, hall⟩, hrest⟩ := List.forall_mem_cons.mp hf
      rw [List.flatMap_cons]
      cases hb : q b with
      | true =>
          have hpos : ∀ c ∈ f b, p c = true := fun c hc => (hall c hc).trans hb
          rw [List.takeWhile_append_of_pos hpos, List.dropWhile_append_of_pos hpos, (ih hrest).1, (ih hrest).2]
          simp [hb]
      | false =>
          obtain ⟨c, cs, hcs⟩ := List.exists_cons_of_ne_nil hne
          have hc : p c = false := (hall c (by rw [hcs]; exact List.mem_cons_self)).trans hb
          simp [hb, hcs, hc]

/-- A word of the images is the image of a word. -/
theorem exists_isWord_of_flatMap (hf : ∀ b ∈ bs, f b ≠ [] ∧ ∀ c ∈ f b, p c = q b)
    (hsplit : bs.flatMap f = X ++ W ++ Y) (h : IsWord p X W Y) :
    ∃ x w y, bs = x ++ w ++ y ∧ IsWord q x w y ∧ w.flatMap f = W ∧ x.flatMap f = X := by
  induction bs generalizing X with
  | nil => simp [h.ne_nil] at hsplit
  | cons b bs ih =>
      obtain ⟨⟨hne, hall⟩, hothers⟩ := List.forall_mem_cons.mp hf
      by_cases hX : X = []
      · subst hX
        rw [List.nil_append] at hsplit
        have hW : ((b :: bs).takeWhile q).flatMap f = W := by
          rw [← (takeWhile_flatMap hf).1, hsplit, h.eq_takeWhile.1]
        refine ⟨[], (b :: bs).takeWhile q, (b :: bs).dropWhile q, ?_, isWord_takeWhile (by simp) ?_, hW, rfl⟩
        · rw [List.nil_append, List.takeWhile_append_dropWhile]
        · intro hnil
          rw [hnil] at hW
          exact h.ne_nil hW.symm
      · obtain ⟨d, hd⟩ : ∃ d, X.getLast? = some d := ⟨_, List.getLast?_eq_some_getLast hX⟩
        have hleft := h.left d hd
        -- the word starts no sooner than the symbol ends: their characters are not all of the class
        have hX' : ∃ X', X = f b ++ X' ∧ bs.flatMap f = X' ++ W ++ Y := by
          rw [List.flatMap_cons, List.append_assoc] at hsplit
          rcases List.append_eq_append_iff.mp hsplit with ⟨X', hX', hrest⟩ | ⟨rest, hb, hrest⟩
          · exact ⟨X', hX', by rw [hrest, List.append_assoc]⟩
          · cases rest with
            | nil => exact ⟨[], by simpa using hb.symm, by simpa using hrest.symm⟩
            | cons c rest =>
                exfalso
                obtain ⟨c', W', hW'⟩ := List.exists_cons_of_ne_nil h.ne_nil
                rw [hW', List.cons_append] at hrest
                obtain ⟨rfl, -⟩ := List.cons.inj hrest
                have hword := h.all c' (by rw [hW']; exact List.mem_cons_self)
                have hsame := hall c' (by rw [hb]; simp)
                have hlast := hall d (by rw [hb]; exact List.mem_append_left _ (List.mem_of_getLast? hd))
                rw [← hsame, hword, hleft] at hlast
                contradiction
        obtain ⟨X', rfl, hrest⟩ := hX'
        have hword : IsWord p X' W Y := by
          refine ⟨h.ne_nil, h.all, ?_, h.right⟩
          intro c hc
          apply h.left c
          rw [List.getLast?_append, hc]
          rfl
        obtain ⟨x, w, y, rfl, hw, hflat, rfl⟩ := ih hothers hrest hword
        refine ⟨b :: x, w, y, rfl, ⟨hw.ne_nil, hw.all, ?_, hw.right⟩, hflat, rfl⟩
        intro b' hb'
        cases hx : x.getLast? with
        | some b'' =>
            rw [List.getLast?_cons, hx] at hb'
            obtain rfl := Option.some.inj hb'
            exact hw.left _ hx
        | none =>
            obtain rfl := List.getLast?_eq_none_iff.mp hx
            obtain rfl : b = b' := Option.some.inj hb'
            rw [List.flatMap_nil, List.append_nil] at hd
            rw [← hall d (List.mem_of_getLast? hd), hleft]

end FlatMap

end Regex
