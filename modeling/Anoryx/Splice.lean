import Mathlib.Data.List.Sort

/-!
# Anoryx.Splice

Replacing parts of a list in place: `chars[start:stop] = text`, one edit after another, each with
the offsets of the original list.

What becomes of an original element is seen by running the edits on the positions themselves
(`traced`): the positions that remain are `kept`.  When the starts descend, an edit finds an
element where the edits before it have moved it to (`drift`), and cuts what then lies between its
ends (`kept_eq`).  When the edits are apart besides, they cut what they cover (`kept_of_apart`).
-/

namespace Splice

variable {α β : Type}

/-- `chars[start:stop] = text` -/
structure Edit (α : Type) where
  start : Nat
  stop : Nat
  le : start ≤ stop
  text : List α

namespace Edit

def covers (e : Edit α) (p : Nat) : Bool := decide (e.start ≤ p) && decide (p < e.stop)

def apply (e : Edit α) (chars : List α) : List α := chars.take e.start ++ e.text ++ chars.drop e.stop

def map (f : α → β) (e : Edit α) : Edit β := ⟨e.start, e.stop, e.le, e.text.map f⟩

/-- By how much the elements after the edit move. -/
def shift (e : Edit α) : Int := e.text.length - (e.stop - e.start)

theorem map_apply (f : α → β) (e : Edit α) (chars : List α) :
    (e.apply chars).map f = (e.map f).apply (chars.map f) := by
  simp [apply, map, List.map_take, List.map_drop]

end Edit

/-- The edits, one after another. -/
def run (edits : List (Edit α)) (chars : List α) : List α := edits.foldl (fun chars e => e.apply chars) chars

@[simp] theorem run_nil (chars : List α) : run [] chars = chars := rfl

@[simp] theorem run_cons (e : Edit α) (edits : List (Edit α)) (chars : List α) :
    run (e :: edits) chars = run edits (e.apply chars) := rfl

theorem map_run (f : α → β) (edits : List (Edit α)) (chars : List α) :
    (run edits chars).map f = run (edits.map (Edit.map f)) (chars.map f) := by
  induction edits generalizing chars with
  | nil => rfl
  | cons e edits ih => rw [run_cons, ih, Edit.map_apply, List.map_cons, run_cons]

/-! ## tracing -/

/-- The edits on a list of `n` elements, each in the place of its element: a position of the
original list, or an element that an edit brought. -/
def traced (edits : List (Edit α)) (n : Nat) : List (Nat ⊕ α) :=
  run (edits.map (Edit.map Sum.inr)) ((List.range n).map Sum.inl)

/-- The element in a place. -/
def element (chars : List α) : Nat ⊕ α → Option α := Sum.elim (fun p => chars[p]?) some

theorem map_element_traced (edits : List (Edit α)) (chars : List α) :
    (traced edits chars.length).map (element chars) = (run edits chars).map some := by
  rw [traced, map_run, map_run, List.map_map, List.map_map]
  congr 1
  · apply List.map_congr_left
    intro e _
    simp [Edit.map, element]
  · apply List.ext_getElem?
    intro i
    by_cases hi : i < chars.length <;> simp [element, hi]

/-- The original elements in a list of places. -/
def positions (places : List (Nat ⊕ α)) : List Nat := places.filterMap Sum.getLeft?

/-- The positions whose elements remain. -/
def kept (edits : List (Edit α)) (n : Nat) : List Nat := positions (traced edits n)

/-- The element of the position `p` is in the place `i`. -/
def Lies (places : List (Nat ⊕ α)) (p i : Nat) : Prop := places[i]? = some (Sum.inl (β := α) p)

variable {places : List (Nat ⊕ α)}

variable {p i n : Nat} {d : Nat → Int} {xs ys chars : List α}

theorem mem_positions : p ∈ positions places ↔ ∃ i, Lies places p i := by
  simp only [Lies, ← List.mem_iff_getElem?, positions, List.mem_filterMap]
  constructor
  · rintro ⟨place, hmem, hplace⟩
    cases place with
    | inl q =>
        obtain rfl : q = p := by simpa using hplace
        exact hmem
    | inr a => contradiction
  · exact fun hmem => ⟨_, hmem, rfl⟩

theorem Lies.of_take (h : Lies (places.take n) p i) : i < n ∧ Lies places p i := by
  simp only [Lies, List.getElem?_take] at *
  grind

theorem Lies.of_drop (h : Lies (places.drop n) p i) : Lies places p (n + i) := by
  simpa only [Lies, List.getElem?_drop] using h

@[simp] theorem positions_append (xs ys : List (Nat ⊕ α)) : positions (xs ++ ys) = positions xs ++ positions ys :=
  List.filterMap_append

@[simp] theorem positions_inr (text : List α) : positions (text.map Sum.inr) = [] := by
  simp [positions]

@[simp] theorem positions_inl (ps : List Nat) : positions (ps.map (Sum.inl (β := α))) = ps := by
  induction ps with
  | nil => rfl
  | cons p ps ih => simpa [positions] using ih

variable {e : Edit α}

/-- An edit takes away just the positions of the places that it covers. -/
theorem positions_apply {cut : Nat → Bool}
    (h : ∀ p i, Lies places p i → (cut p = true ↔ e.start ≤ i ∧ i < e.stop)) :
    positions ((e.map Sum.inr).apply places) = (positions places).filter (!cut ·) := by
  have hle := e.le
  have hsplit : places = places.take e.start ++ (places.drop e.start).take (e.stop - e.start) ++ places.drop e.stop := by
    have hdrop : places.drop e.stop = (places.drop e.start).drop (e.stop - e.start) := by
      rw [List.drop_drop, Nat.add_sub_cancel' hle]
    rw [hdrop, List.append_assoc, List.take_append_drop, List.take_append_drop]
  have hbefore : (positions (places.take e.start)).filter (!cut ·) = positions (places.take e.start) := by
    rw [List.filter_eq_self]
    intro p hp
    obtain ⟨i, hi⟩ := mem_positions.mp hp
    obtain ⟨hlt, hlies⟩ := hi.of_take
    have hcut := h p i hlies
    grind
  have hinside : (positions ((places.drop e.start).take (e.stop - e.start))).filter (!cut ·) = [] := by
    rw [List.filter_eq_nil_iff]
    intro p hp
    obtain ⟨i, hi⟩ := mem_positions.mp hp
    obtain ⟨hlt, hlies⟩ := hi.of_take
    have hcut := h p _ hlies.of_drop
    grind
  have hafter : (positions (places.drop e.stop)).filter (!cut ·) = positions (places.drop e.stop) := by
    rw [List.filter_eq_self]
    intro p hp
    obtain ⟨i, hi⟩ := mem_positions.mp hp
    have hcut := h p _ hi.of_drop
    grind
  calc positions ((e.map Sum.inr).apply places)
      = positions (places.take e.start) ++ positions (places.drop e.stop) := by simp [Edit.apply, Edit.map]
    _ = (positions places).filter (!cut ·) := by
        conv_rhs => rw [hsplit]
        rw [positions_append, positions_append, List.filter_append, List.filter_append, hbefore, hinside, hafter,
          List.append_nil]

theorem Lies.of_apply (h : Lies ((e.map Sum.inr).apply places) p i) :
    (i < e.start ∧ Lies places p i) ∨ ∃ j, e.stop ≤ j ∧ Lies places p j ∧ (i : Int) = j + e.shift := by
  have hle := e.le
  simp only [Lies, Edit.apply, Edit.map, Edit.shift] at *
  rw [List.append_assoc, List.getElem?_append] at h
  split at h
  case isTrue hlt =>
    rw [List.length_take] at hlt
    rw [List.getElem?_take] at h
    left
    grind
  case isFalse hlt =>
    rw [List.getElem?_append] at h
    split at h
    case isTrue => grind
    case isFalse hlt' =>
      rw [List.getElem?_drop, List.length_take, List.length_map] at h
      have hlength := (List.getElem?_eq_some_iff.mp h).1
      rw [List.length_take] at hlt hlt'
      rw [List.length_map] at hlt'
      exact Or.inr ⟨_, Nat.le_add_right .., h, by omega⟩

/-! ## drift -/

def Descending (edits : List (Edit α)) : Prop := edits.Pairwise fun e e' => e'.start ≤ e.start

/-- How far an edit moves the element of a position that it leaves. -/
def Edit.driftAt (e : Edit α) (p : Nat) : Int := if e.start ≤ p then e.shift else 0

/-- Some edit finds the element between its ends: the position is not before its start, and the
edits before have moved the element to where the edit takes out.  `d` is the drift so far. -/
def cutFrom (d : Int) : List (Edit α) → Nat → Bool
  | [], _ => false
  | e :: edits, p => (decide (e.start ≤ p) && decide ((p : Int) + d < e.stop)) || cutFrom (d + e.driftAt p) edits p

/-- The element of the position is cut. -/
def cut (edits : List (Edit α)) (p : Nat) : Bool := cutFrom 0 edits p

/-- The elements are where the drift says; those of the positions from `bound` on have moved, the
others have not. -/
structure Placed (bound : Nat) (d : Nat → Int) (places : List (Nat ⊕ α)) : Prop where
  place : ∀ p i, Lies places p i → (i : Int) = p + d p
  bounded : ∀ p i, Lies places p i → bound ≤ p → bound ≤ i
  still : ∀ p < bound, d p = 0

variable {bound : Nat}

theorem Placed.positions_apply (h : Placed bound d places) (hstart : e.start ≤ bound) :
    positions ((e.map Sum.inr).apply places) =
      (positions places).filter fun p => !(decide (e.start ≤ p) && decide ((p : Int) + d p < e.stop)) := by
  apply Splice.positions_apply
  intro p i hi
  have hplace := h.place p i hi
  have hbounded := h.bounded p i hi
  have hstill := h.still p
  simp only [Bool.and_eq_true, decide_eq_true_eq]
  omega

theorem Placed.apply (h : Placed bound d places) (hstart : e.start ≤ bound) :
    Placed e.start (fun p => d p + e.driftAt p) ((e.map Sum.inr).apply places) := by
  have hle := e.le
  constructor
  case place =>
    intro p i hi
    rcases hi.of_apply with ⟨hlt, hlies⟩ | ⟨j, hge, hlies, hmoved⟩
    · have hplace := h.place p i hlies
      have hbounded := h.bounded p i hlies
      have hstill := h.still p
      grind [Edit.driftAt]
    · have hplace := h.place p j hlies
      have hstill := h.still p
      grind [Edit.driftAt]
  case bounded =>
    intro p i hi hp
    rcases hi.of_apply with ⟨hlt, hlies⟩ | ⟨j, hge, hlies, hmoved⟩
    · have hplace := h.place p i hlies
      have hbounded := h.bounded p i hlies
      have hstill := h.still p
      omega
    · simp only [Edit.shift] at hmoved
      omega
  case still =>
    intro p hp
    have hstill := h.still p (by omega)
    simp only [hstill, Edit.driftAt]
    grind

variable {edits : List (Edit α)}

theorem Placed.positions_run (h : Placed bound d places) (hdesc : Descending edits)
    (hbound : ∀ e ∈ edits, e.start ≤ bound) :
    positions (run (edits.map (Edit.map Sum.inr)) places) =
      (positions places).filter fun p => !cutFrom (d p) edits p := by
  induction edits generalizing bound d places with
  | nil => simp [cutFrom]
  | cons e edits ih =>
      obtain ⟨hhead, htail⟩ := List.pairwise_cons.mp hdesc
      obtain ⟨hstart, -⟩ := List.forall_mem_cons.mp hbound
      rw [List.map_cons, run_cons, ih (h.apply hstart) htail hhead, h.positions_apply hstart, List.filter_filter]
      congr 1
      funext p
      simp only [cutFrom]
      grind

theorem placed_init (n bound : Nat) : Placed bound (fun _ => 0) ((List.range n).map (Sum.inl (β := α))) := by
  have hlies : ∀ p i, Lies ((List.range n).map (Sum.inl (β := α))) p i → i = p := by
    intro p i hi
    simp only [Lies, List.getElem?_map, Option.map_eq_some_iff, Sum.inl.injEq, exists_eq_right] at hi
    obtain ⟨hlt, hget⟩ := List.getElem?_eq_some_iff.mp hi
    simpa using hget
  constructor
  case place =>
    intro p i hi
    simp [hlies p i hi]
  case bounded =>
    intro p i hi hp
    rwa [hlies p i hi]
  case still => simp

theorem kept_eq (hdesc : Descending edits) (n : Nat) :
    kept edits n = (List.range n).filter (!cut edits ·) := by
  rw [kept, traced]
  cases edits with
  | nil => simp [cut, cutFrom]
  | cons e edits =>
      have hbound : ∀ e' ∈ e :: edits, e'.start ≤ e.start := by simpa using (List.pairwise_cons.mp hdesc).1
      rw [(placed_init n e.start).positions_run hdesc hbound, positions_inl]
      rfl

/-! ## edits apart -/

/-- Each edit ends where the one before starts, or before. -/
def Apart (edits : List (Edit α)) : Prop := edits.Pairwise fun e e' => e'.stop ≤ e.start

theorem Apart.descending (h : Apart edits) : Descending edits :=
  h.imp fun {_ e'} hle => Nat.le_trans e'.le hle

/-- Edits of a prefix leave the rest alone. -/
theorem run_append (h : Apart edits) (hstop : ∀ e ∈ edits, e.stop ≤ xs.length) :
    run edits (xs ++ ys) = run edits xs ++ ys := by
  induction edits generalizing xs with
  | nil => rfl
  | cons e edits ih =>
      obtain ⟨hhead, htail⟩ := List.pairwise_cons.mp h
      have hle := e.le
      have hlength := hstop e List.mem_cons_self
      have happly : e.apply (xs ++ ys) = e.apply xs ++ ys := by
        rw [Edit.apply, Edit.apply, List.take_append_of_le_length (by omega), List.drop_append_of_le_length hlength]
        simp only [List.append_assoc]
      rw [run_cons, run_cons, happly]
      apply ih htail
      intro e' he'
      have hbefore := hhead e' he'
      simp only [Edit.apply, List.length_append, List.length_take]
      omega

/-- Of edits that stand apart the first touches nothing before it. -/
theorem Apart.run_cons (h : Apart (e :: edits)) (hstop : e.stop ≤ chars.length) :
    run (e :: edits) chars = run edits (chars.take e.start) ++ e.text ++ chars.drop e.stop := by
  obtain ⟨hhead, htail⟩ := List.pairwise_cons.mp h
  have hle := e.le
  rw [Splice.run_cons, Edit.apply, List.append_assoc, List.append_assoc]
  apply run_append htail
  intro e' he'
  rw [List.length_take, Nat.min_eq_left (by omega)]
  exact hhead e' he'

theorem cutFrom_of_apart (h : Apart edits) {d : Int} (hbound : ∀ e ∈ edits, e.stop ≤ bound)
    (hbelow : p < bound → d = 0) (habove : bound ≤ p → (bound : Int) ≤ p + d) :
    cutFrom d edits p = edits.any (·.covers p) := by
  induction edits generalizing d bound with
  | nil => rfl
  | cons e edits ih =>
      obtain ⟨hhead, htail⟩ := List.pairwise_cons.mp h
      obtain ⟨hstop, hrest⟩ := List.forall_mem_cons.mp hbound
      have hle := e.le
      rw [cutFrom, List.any_cons]
      by_cases hcovers : e.covers p = true
      · have hhere : e.start ≤ p ∧ p < e.stop := by simpa [Edit.covers] using hcovers
        have hcut : (p : Int) + d < e.stop := by rw [hbelow (by omega)]; omega
        simp [hcovers, hhere, hcut]
      · have haway : e.start ≤ p → (e.stop : Int) ≤ p + d := by
          intro hp
          have hge : e.stop ≤ p := by simpa [Edit.covers, hp] using hcovers
          rcases Nat.lt_or_ge p bound with hlt | hge'
          · rw [hbelow hlt]
            omega
          · have hmoved := habove hge'
            omega
        have hnone : (decide (e.start ≤ p) && decide ((p : Int) + d < e.stop)) = false := by
          simpa using haway
        rw [hnone, Bool.eq_false_of_not_eq_true hcovers, Bool.false_or, Bool.false_or]
        apply ih htail hhead
        · intro hlt
          rw [hbelow (by omega), Edit.driftAt, if_neg (by omega), Int.add_zero]
        · intro hge
          have hmoved := haway hge
          rw [Edit.driftAt, if_pos hge, Edit.shift]
          omega

theorem kept_of_apart (h : Apart edits) (n : Nat) :
    kept edits n = (List.range n).filter fun p => !edits.any (·.covers p) := by
  rw [kept_eq h.descending]
  congr 1
  funext p
  cases edits with
  | nil => rfl
  | cons e edits =>
      have hbound : ∀ e' ∈ e :: edits, e'.stop ≤ e.stop := by
        rw [List.forall_mem_cons]
        exact ⟨Nat.le_refl _, fun e' he' => Nat.le_trans ((List.pairwise_cons.mp h).1 e' he') e.le⟩
      rw [cut, cutFrom_of_apart h hbound (fun _ => rfl) (by omega)]

/-- The edits make `out` of `chars`, and the elements that they leave, each in its place and once,
are those of the positions that are not `covered`. -/
structure Redacts (edits : List (Edit α)) (chars out : List α) (covered : Nat → Bool) : Prop where
  origin : (traced edits chars.length).map (element chars) = out.map some
  kept : kept edits chars.length = (List.range chars.length).filter (!covered ·)

theorem redacts_run_iff {covered : Nat → Bool} :
    Redacts edits chars (run edits chars) covered ↔
      Splice.kept edits chars.length = (List.range chars.length).filter (!covered ·) :=
  ⟨fun h => h.kept, fun h => ⟨map_element_traced edits chars, h⟩⟩

/-! ## edits in the order of their starts -/

/-- `sorted(edits, key=start, reverse=True)` -/
def latestFirst (edits : List (Edit α)) : List (Edit α) := edits.insertionSort fun e e' => e'.start ≤ e.start

theorem mem_latestFirst : e ∈ latestFirst edits ↔ e ∈ edits :=
  List.mem_insertionSort _

theorem descending_latestFirst (edits : List (Edit α)) : Descending (latestFirst edits) := by
  have htotal : Std.Total fun e e' : Edit α => e'.start ≤ e.start := ⟨fun e e' => Nat.le_total ..⟩
  have htrans : IsTrans (Edit α) fun e e' => e'.start ≤ e.start := ⟨fun _ _ _ h h' => Nat.le_trans h' h⟩
  exact List.pairwise_insertionSort _ _

/-- The position is in an edit. -/
def covered (edits : List (Edit α)) (p : Nat) : Bool := edits.any (·.covers p)

theorem covered_latestFirst (edits : List (Edit α)) : covered (latestFirst edits) = covered edits := by
  funext p
  rw [Bool.eq_iff_iff]
  simp [covered, mem_latestFirst]

/-- Edits that are apart in whichever order, and of the same start only where the later of the two
is empty. -/
def Disjoint (e e' : Edit α) : Prop := e'.stop ≤ e.start ∨ e.stop ≤ e'.start ∧ e.start < e'.start

theorem apart_orderedInsert (h : Apart edits)
    (hhead : ∀ e' ∈ edits, Disjoint e e') : Apart (edits.orderedInsert (fun e e' => e'.start ≤ e.start) e) := by
  induction edits with
  | nil => exact List.pairwise_singleton ..
  | cons e₁ edits ih =>
      obtain ⟨h₁, hrest⟩ := List.pairwise_cons.mp h
      obtain ⟨hfirst, hothers⟩ := List.forall_mem_cons.mp hhead
      have hle := e.le
      have hle₁ := e₁.le
      rw [List.orderedInsert_cons]
      unfold Disjoint at hfirst
      split
      case isTrue hstart =>
        have hstop : e₁.stop ≤ e.start := by omega
        refine List.pairwise_cons.mpr ⟨?_, h⟩
        rw [List.forall_mem_cons]
        exact ⟨hstop, fun e' he' => Nat.le_trans (h₁ e' he') (Nat.le_trans hle₁ hstop)⟩
      case isFalse hstart =>
        refine List.pairwise_cons.mpr ⟨?_, ih hrest hothers⟩
        intro e' he'
        rcases (List.mem_orderedInsert _).mp he' with rfl | he'
        · omega
        · exact h₁ e' he'

theorem apart_latestFirst (h : edits.Pairwise Disjoint) : Apart (latestFirst edits) := by
  induction edits with
  | nil => exact List.Pairwise.nil
  | cons e edits ih =>
      obtain ⟨hhead, htail⟩ := List.pairwise_cons.mp h
      rw [latestFirst, List.insertionSort_cons, ← latestFirst]
      apply apart_orderedInsert (ih htail)
      exact fun e' he' => hhead e' (mem_latestFirst.mp he')

/-- The edits take out the elements of the positions they cover, and no others. -/
def Exact (edits : List (Edit α)) (n : Nat) : Prop :=
  kept (latestFirst edits) n = (List.range n).filter (!covered edits ·)

theorem exact_iff : Exact edits n ↔ ∀ p < n, cut (latestFirst edits) p = covered edits p := by
  rw [Exact, kept_eq (descending_latestFirst edits)]
  constructor
  · intro h p hp
    have hmem : p ∈ (List.range n).filter (!cut (latestFirst edits) ·) ↔
        p ∈ (List.range n).filter (!covered edits ·) := by rw [h]
    simp only [List.mem_filter, List.mem_range, hp, true_and, Bool.not_eq_true'] at hmem
    grind
  · intro h
    apply List.filter_congr
    intro p hp
    rw [h p (List.mem_range.mp hp)]

theorem exact_of_disjoint (h : edits.Pairwise Disjoint) (n : Nat) : Exact edits n := by
  rw [Exact, kept_of_apart (apart_latestFirst h), ← covered_latestFirst]
  rfl

end Splice
