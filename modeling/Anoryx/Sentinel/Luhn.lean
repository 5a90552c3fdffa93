import Mathlib

/-!
# Anoryx.Sentinel.Luhn

The Luhn digit of a surrogate card number, and its check (`_luhn_check_digit`,
`_generate_card` and `luhn_valid` of `tokenization/formats.py`).

The generator doubles the even places from the right, the check the odd ones of a number
that is one digit longer (`luhnSum_succ`).  Doubling loses nothing of a digit, modulo ten.
-/

namespace Anoryx.Sentinel.Luhn

/-- `str.isdigit` and `int` of a character, which is nothing when it raises; the digits of ASCII are
what they are. -/
structure Digits where
  isDigit : Char → Bool
  int : Char → Option Nat
  isDigit_ascii : ∀ c, c.isDigit = true → isDigit c = true
  int_ascii : ∀ c, c.isDigit = true → int c = some (c.toNat - '0'.toNat)

/-- A digit that is doubled, and reduced. -/
def double (d : Nat) : Nat :=
  let d := d * 2
  if d > 9 then d - 9 else d

/-- The loop over the digits from the right, of which the places of one parity are doubled. -/
def luhnSum (parity : Nat) : Nat → List Nat → Nat
  | _, [] => 0
  | i, d :: ds => (if i % 2 = parity then double d else d) + luhnSum parity (i + 1) ds

variable (D : Digits)

def luhnCheckDigit (digitsWithoutCheck : List Char) : Option (List Char) :=
  (digitsWithoutCheck.reverse.mapM D.int).map fun ds => Nat.toDigits 10 ((10 - luhnSum 0 0 ds % 10) % 10)

/-- `_generate_card`, of the random digits. -/
def generateCard (body : List Char) : Option (List Char) := (luhnCheckDigit D body).map (body ++ ·)

def luhnValid (number : List Char) : Option Bool :=
  ((number.filter D.isDigit).mapM D.int).map fun digits => luhnSum 1 0 digits.reverse % 10 = 0

/-! ## the sums -/

theorem luhnSum_succ (i : Nat) (ds : List Nat) : luhnSum 1 (i + 1) ds = luhnSum 0 i ds := by
  induction ds generalizing i with
  | nil => rfl
  | cons d ds ih =>
      have hparity : (i + 1) % 2 = 1 ↔ i % 2 = 0 := by omega
      simp only [luhnSum, hparity, ih]

theorem luhnSum_append (parity i : Nat) (ds es : List Nat) :
    luhnSum parity i (ds ++ es) = luhnSum parity i ds + luhnSum parity (i + ds.length) es := by
  induction ds generalizing i with
  | nil => simp [luhnSum]
  | cons d ds ih =>
      rw [List.cons_append, luhnSum, luhnSum, ih, List.length_cons, Nat.add_assoc, Nat.add_assoc, Nat.add_comm 1]

theorem double_inj : ∀ d < 10, ∀ e < 10, double d % 10 = double e % 10 → d = e := by decide

theorem luhnSum_inj (parity i : Nat) (ds es : List Nat) {d e : Nat} (hd : d < 10) (he : e < 10)
    (h : luhnSum parity i (ds ++ d :: es) % 10 = luhnSum parity i (ds ++ e :: es) % 10) : d = e := by
  rw [luhnSum_append, luhnSum_append, luhnSum, luhnSum] at h
  by_cases hplace : (i + ds.length) % 2 = parity
  · rw [if_pos hplace, if_pos hplace] at h
    exact double_inj d hd e he (by omega)
  · rw [if_neg hplace, if_neg hplace] at h
    omega

/-! ## numbers of ASCII -/

def value (c : Char) : Nat := c.toNat - '0'.toNat

/-- All characters are digits of ASCII. -/
def IsNumber (s : List Char) : Prop := ∀ c ∈ s, c.isDigit = true

variable {D} {s a b : List Char} {c c' : Char}

theorem isNumber_append_singleton (hs : IsNumber s) (hc : c.isDigit = true) : IsNumber (s ++ [c]) := by
  intro c' hmem
  rcases List.mem_append.mp hmem with hmem | hmem
  · exact hs c' hmem
  · rwa [List.mem_singleton.mp hmem]

theorem value_lt (h : c.isDigit = true) : value c < 10 := by
  simp only [Char.isDigit, Bool.and_eq_true, decide_eq_true_eq] at h
  have hle : c.toNat ≤ '9'.toNat := h.2
  rw [value]
  have : '9'.toNat = 57 := rfl
  have : '0'.toNat = 48 := rfl
  omega

theorem value_digitChar : ∀ n < 10, value (Nat.digitChar n) = n := by decide

theorem isDigit_digitChar : ∀ n < 10, (Nat.digitChar n).isDigit = true := by decide

theorem value_inj (h : c.isDigit = true) (h' : c'.isDigit = true) (heq : value c = value c') : c = c' := by
  simp only [Char.isDigit, Bool.and_eq_true, decide_eq_true_eq] at h h'
  have hle : '0'.toNat ≤ c.toNat := h.1
  have hle' : '0'.toNat ≤ c'.toNat := h'.1
  rw [value, value] at heq
  exact Char.toNat_inj.mp (by omega)

theorem mapM_int (h : IsNumber s) : s.mapM D.int = some (s.map value) := by
  induction s with
  | nil => rfl
  | cons c s ih =>
      rw [IsNumber, List.forall_mem_cons] at h
      rw [List.mapM_cons, D.int_ascii c h.1, ih h.2]
      rfl

theorem luhnValid_eq (h : IsNumber s) : luhnValid D s = some (decide (luhnSum 1 0 (s.map value).reverse % 10 = 0)) := by
  have hfilter : s.filter D.isDigit = s := List.filter_eq_self.mpr fun c hc => D.isDigit_ascii c (h c hc)
  rw [luhnValid, hfilter, mapM_int h, Option.map_some]

theorem luhnCheckDigit_eq (h : IsNumber s) :
    luhnCheckDigit D s = some [Nat.digitChar ((10 - luhnSum 0 0 (s.map value).reverse % 10) % 10)] := by
  have hreverse : IsNumber s.reverse := fun c hc => h c (List.mem_reverse.mp hc)
  rw [luhnCheckDigit, mapM_int hreverse, Option.map_some, List.map_reverse,
    Nat.toDigits_of_lt_base (Nat.mod_lt _ (by decide))]

theorem luhnValid_append_singleton (hs : IsNumber s) (hc : c.isDigit = true) :
    luhnValid D (s ++ [c]) = some true ↔ (value c + luhnSum 0 0 (s.map value).reverse) % 10 = 0 := by
  rw [luhnValid_eq (isNumber_append_singleton hs hc), List.map_append, List.reverse_append]
  show some (decide (luhnSum 1 0 (value c :: (s.map value).reverse) % 10 = 0)) = some true ↔ _
  rw [luhnSum, luhnSum_succ, if_neg (by decide), Option.some.injEq, decide_eq_true_iff]

/-- **Generator and check agree**: the check digit makes a number valid, no other digit does, and a
valid number is not valid with another digit anywhere. -/
theorem luhn_agrees (D : Digits) :
    (∀ s, IsNumber s → ∃ c, luhnCheckDigit D s = some [c] ∧ generateCard D s = some (s ++ [c]) ∧ c.isDigit = true ∧
      luhnValid D (s ++ [c]) = some true ∧
      ∀ c', c'.isDigit = true → luhnValid D (s ++ [c']) = some true → c' = c) ∧
    ∀ a b c c', IsNumber (a ++ c :: b) → c'.isDigit = true → c' ≠ c → luhnValid D (a ++ c :: b) = some true →
      luhnValid D (a ++ c' :: b) = some false := by
  constructor
  · intro s hs
    have hlt : (10 - luhnSum 0 0 (s.map value).reverse % 10) % 10 < 10 := Nat.mod_lt _ (by decide)
    have hdigit := isDigit_digitChar _ hlt
    refine ⟨_, luhnCheckDigit_eq hs, by rw [generateCard, luhnCheckDigit_eq hs, Option.map_some], hdigit, ?_, ?_⟩
    · rw [luhnValid_append_singleton hs hdigit, value_digitChar _ hlt]
      omega
    · intro c' hc' hvalid
      rw [luhnValid_append_singleton hs hc'] at hvalid
      refine value_inj hc' hdigit ?_
      rw [value_digitChar _ hlt]
      have := value_lt hc'
      omega
  · intro a b c c' hnumber hc' hne hvalid
    have hc : c.isDigit = true := hnumber c (by simp)
    have hother : IsNumber (a ++ c' :: b) := by
      intro x hx
      rcases List.mem_append.mp hx with hx | hx
      · exact hnumber x (List.mem_append_left _ hx)
      · rcases List.mem_cons.mp hx with rfl | hx
        · exact hc'
        · exact hnumber x (List.mem_append_right _ (List.mem_cons_of_mem _ hx))
    rw [luhnValid_eq hnumber, Option.some.injEq, decide_eq_true_iff] at hvalid
    rw [luhnValid_eq hother, Option.some.injEq, decide_eq_false_iff_not]
    intro hsame
    refine hne (value_inj hc' hc ?_)
    refine luhnSum_inj 1 0 (b.map value).reverse (a.map value).reverse (value_lt hc') (value_lt hc) ?_
    simpa using hsame.trans hvalid.symm

end Anoryx.Sentinel.Luhn
