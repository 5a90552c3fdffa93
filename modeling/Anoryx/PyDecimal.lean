import Mathlib

/-!
# Anoryx.PyDecimal

The decimal numbers of Python's `decimal` module: what `Decimal(text)` reads, and how
`quantize(Decimal("1"), rounding=ROUND_HALF_EVEN)` rounds.

`halfEven` is a nearest integer (`abs_halfEven_sub_le`), and it is monotone
(`halfEven_mono`).  It is below zero only below minus one half (`halfEven_neg_iff`): that
is where the sign of a number and the sign of what it is rounded to part.
-/

namespace PyDecimal

/-! ## rounding -/

/-- The nearest integer, and of two the even one. -/
def halfEven (q : ℚ) : ℤ :=
  if q - ⌊q⌋ < 1 / 2 ∨ q - ⌊q⌋ = 1 / 2 ∧ ⌊q⌋ % 2 = 0 then ⌊q⌋ else ⌊q⌋ + 1

theorem halfEven_eq_or (q : ℚ) :
    halfEven q = ⌊q⌋ ∧ q - ⌊q⌋ ≤ 1 / 2 ∨ halfEven q = ⌊q⌋ + 1 ∧ 1 / 2 ≤ q - ⌊q⌋ := by
  unfold halfEven
  grind

/-- Rounding is off by a half at most. -/
theorem abs_halfEven_sub_le (q : ℚ) : |(halfEven q : ℚ) - q| ≤ 1 / 2 := by
  have hlow := Int.floor_le q
  have hhigh := Int.lt_floor_add_one q
  rcases halfEven_eq_or q with ⟨h, hle⟩ | ⟨h, hle⟩
  · rw [h, abs_le]
    constructor <;> linarith
  · rw [h, abs_le]
    push_cast
    constructor <;> linarith

@[simp] theorem halfEven_intCast (n : ℤ) : halfEven n = n := by
  simp [halfEven]

theorem halfEven_mono {p q : ℚ} (h : p ≤ q) : halfEven p ≤ halfEven q := by
  have hfloor : ⌊p⌋ ≤ ⌊q⌋ := Int.floor_le_floor h
  rcases eq_or_lt_of_le hfloor with heq | hlt
  · -- in one unit: past the half, or at a half that is rounded up, `q` is there as well
    unfold halfEven
    rw [heq]
    grind
  · have hp := halfEven_eq_or p
    have hq := halfEven_eq_or q
    omega

theorem halfEven_nonneg {q : ℚ} (h : 0 ≤ q) : 0 ≤ halfEven q := by
  have hmono := halfEven_mono h
  rwa [← Int.cast_zero, halfEven_intCast] at hmono

theorem halfEven_neg_iff {q : ℚ} : halfEven q < 0 ↔ q < -(1 / 2) := by
  constructor
  · intro h
    by_contra hge
    have hhalf : halfEven (-(1 / 2)) = 0 := by
      have hfloor : ⌊(-(1 / 2) : ℚ)⌋ = -1 := by norm_num [Int.floor_eq_iff]
      unfold halfEven
      rw [hfloor]
      norm_num
    have hmono := halfEven_mono (not_lt.mp hge)
    omega
  · intro h
    have hnear := (abs_le.mp (abs_halfEven_sub_le q)).2
    have hneg : (halfEven q : ℚ) < 0 := by linarith
    exact_mod_cast hneg

/-! ## decimals -/

/-- What `Decimal` holds. -/
inductive Decimal
  | finite (negative : Bool) (coefficient : Nat) (exponent : Int)
  | infinity (negative : Bool)
  | nan
deriving DecidableEq

/-- The number; a zero has no sign. -/
def value (negative : Bool) (coefficient : Nat) (exponent : Int) : ℚ :=
  (if negative then -1 else 1) * coefficient * (10 : ℚ) ^ exponent

/-- `int(d.quantize(Decimal("1"), rounding=ROUND_HALF_EVEN))` in the default context, of 28
digits; `none` is `InvalidOperation`. -/
def quantizeUnit (negative : Bool) (coefficient : Nat) (exponent : Int) : Option ℤ :=
  let rounded := halfEven (value negative coefficient exponent)
  if |rounded| < 10 ^ 28 then some rounded else none

/-! ## reading a text -/

/-- The zeros of the scripts of Unicode that have digits; nine follow each. -/
def zeros : List Nat :=
  [0x30, 0x660, 0x6f0, 0x7c0, 0x966, 0x9e6, 0xa66, 0xae6, 0xb66, 0xbe6, 0xc66, 0xce6, 0xd66, 0xde6, 0xe50,
    0xed0, 0xf20, 0x1040, 0x1090, 0x17e0, 0x1810, 0x1946, 0x19d0, 0x1a80, 0x1a90, 0x1b50, 0x1bb0, 0x1c40,
    0x1c50, 0xa620, 0xa8d0, 0xa900, 0xa9d0, 0xa9f0, 0xaa50, 0xabf0, 0xff10, 0x104a0, 0x10d30, 0x11066,
    0x110f0, 0x11136, 0x111d0, 0x112f0, 0x11450, 0x114d0, 0x11650, 0x116c0, 0x11730, 0x118e0, 0x11950,
    0x11c50, 0x11d50, 0x11da0, 0x11f50, 0x16a60, 0x16ac0, 0x16b50, 0x1d7ce, 0x1d7d8, 0x1d7e2, 0x1d7ec,
    0x1d7f6, 0x1e140, 0x1e2f0, 0x1e4f0, 0x1e950, 0x1fbf0]

/-- The value of a decimal digit. -/
def digitValue (c : Char) : Option Nat :=
  (zeros.find? fun first => first ≤ c.toNat ∧ c.toNat < first + 10).map fun first => c.toNat - first

def isDigit (c : Char) : Bool := (digitValue c).isSome

/-- `str.isspace` -/
def isSpace (c : Char) : Bool :=
  (0x09 ≤ c.toNat ∧ c.toNat ≤ 0x0d) ∨ (0x1c ≤ c.toNat ∧ c.toNat ≤ 0x20) ∨
    (0x2000 ≤ c.toNat ∧ c.toNat ≤ 0x200a) ∨
    c.toNat ∈ [0x85, 0xa0, 0x1680, 0x2028, 0x2029, 0x202f, 0x205f, 0x3000]

/-- The number that digits write. -/
def natOf (ds : List Char) : Nat := ds.foldl (fun n c => 10 * n + (digitValue c).getD 0) 0

/-- `[eE][-+]?\d+`, or nothing. -/
def exponentOf : List Char → Option Int
  | [] => some 0
  | e :: cs =>
      if e ≠ 'e' ∧ e ≠ 'E' then none
      else
        let digits := if cs.head? = some '-' ∨ cs.head? = some '+' then cs.tail else cs
        if digits = [] ∨ !digits.all isDigit then none
        else some (if cs.head? = some '-' then -(natOf digits : Int) else natOf digits)

/-- The exponents that `Decimal` holds: a number that goes beyond them is refused. -/
def inRange (coefficient : Nat) (exponent : Int) : Bool :=
  -1999999999999999997 ≤ exponent ∧ exponent + (Nat.log 10 coefficient : Int) ≤ 999999999999999999

/-- Digits with a point or without, and an exponent. -/
def numberOf (negative : Bool) (cs : List Char) : Option Decimal :=
  let whole := cs.takeWhile isDigit
  let rest := cs.dropWhile isDigit
  let fraction := if rest.head? = some '.' then rest.tail.takeWhile isDigit else []
  let tail := if rest.head? = some '.' then rest.tail.dropWhile isDigit else rest
  if whole = [] ∧ fraction = [] then none
  else
    (exponentOf tail).bind fun exponent =>
      if inRange (natOf (whole ++ fraction)) (exponent - fraction.length) then
        some (.finite negative (natOf (whole ++ fraction)) (exponent - fraction.length))
      else none

/-- What follows the sign, a word or a number. -/
def unsigned (negative : Bool) (cs : List Char) : Option Decimal :=
  let word := cs.map Char.toLower
  if word = ['i', 'n', 'f'] ∨ word = ['i', 'n', 'f', 'i', 'n', 'i', 't', 'y'] then some (.infinity negative)
  else if (word.take 3 = ['n', 'a', 'n'] ∧ (word.drop 3).all isDigit) ∨
      (word.take 4 = ['s', 'n', 'a', 'n'] ∧ (word.drop 4).all isDigit) then some .nan
  else numberOf negative cs

/-- `Decimal(text)`; `none` is `InvalidOperation`. -/
def ofText (text : List Char) : Option Decimal :=
  let stripped := ((text.dropWhile isSpace).reverse.dropWhile isSpace).reverse
  match stripped.filter (· ≠ '_') with
  | '-' :: cs => unsigned true cs
  | '+' :: cs => unsigned false cs
  | cs => unsigned false cs

example : ofText ['-', '1', '2', '.', '5', 'e', '-', '3'] = some (.finite true 125 (-4)) := by decide

end PyDecimal
