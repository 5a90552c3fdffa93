import Anoryx.PyJson.Unpaired

/-!
# Anoryx.PyInt

Integers and their texts: `int(text)` and `str(n)`.

`int` is lenient.  It takes white space on both sides, a sign, underscores between the digits
and the decimal digits of every script of Unicode 15, so an integer has many texts; `str` writes
one of them (`parse_intText`).  It refuses a text of more than 4300 digits.
-/

namespace PyInt

open PyJson (CodePoint PyStr intText)

/-! ## reading -/

/-- The white space that `int()` strips. -/
def isSpace (p : Nat) : Bool :=
  (0x09 ≤ p && p ≤ 0x0d) || p = 0x20 || p = 0x85 || p = 0xa0 || p = 0x1680 || (0x2000 ≤ p && p ≤ 0x200a) ||
    p = 0x2028 || p = 0x2029 || p = 0x202f || p = 0x205f || p = 0x3000

/-- The zeros of the scripts; the other nine digits follow each. -/
def zeros : List Nat :=
  [0x30, 0x660, 0x6f0, 0x7c0, 0x966, 0x9e6, 0xa66, 0xae6, 0xb66, 0xbe6, 0xc66, 0xce6, 0xd66, 0xde6, 0xe50, 0xed0,
    0xf20, 0x1040, 0x1090, 0x17e0, 0x1810, 0x1946, 0x19d0, 0x1a80, 0x1a90, 0x1b50, 0x1bb0, 0x1c40, 0x1c50, 0xa620,
    0xa8d0, 0xa900, 0xa9d0, 0xa9f0, 0xaa50, 0xabf0, 0xff10, 0x104a0, 0x10d30, 0x11066, 0x110f0, 0x11136, 0x111d0,
    0x112f0, 0x11450, 0x114d0, 0x11650, 0x116c0, 0x11730, 0x118e0, 0x11950, 0x11c50, 0x11d50, 0x11da0, 0x11f50,
    0x16a60, 0x16ac0, 0x16b50, 0x1d7ce, 0x1d7d8, 0x1d7e2, 0x1d7ec, 0x1d7f6, 0x1e140, 0x1e2f0, 0x1e4f0, 0x1e950,
    0x1fbf0]

/-- `unicodedata.decimal` -/
def digitValue (p : Nat) : Option Nat := (zeros.find? fun z => z ≤ p && p < z + 10).map (p - ·)

/-- Digits, an underscore between any two of them or not. -/
def readDigits : List Nat → Option (List Nat)
  | [] => none
  | [p] => (digitValue p).map fun d => [d]
  | p :: q :: ps =>
      (digitValue p).bind fun d =>
        (if q = '_'.toNat then readDigits ps else readDigits (q :: ps)).map fun ds => d :: ds

/-- `sys.get_int_max_str_digits()` -/
def maxStrDigits : Nat := 4300

/-- How many digits an integer is written with. -/
def digits (n : Int) : Nat := (Nat.toDigits 10 n.natAbs).length

/-- An integer with more digits is neither read nor written. -/
def Readable (n : Int) : Prop := digits n ≤ maxStrDigits

instance (n : Int) : Decidable (Readable n) := inferInstanceAs (Decidable (_ ≤ _))

def magnitude (ps : List Nat) : Option Nat := do
  let ds ← readDigits ps
  if ds.length ≤ maxStrDigits then some (ds.foldl (fun n d => 10 * n + d) 0) else none

def strip (ps : List Nat) : List Nat := ((ps.dropWhile isSpace).reverse.dropWhile isSpace).reverse

def parsePoints (ps : List Nat) : Option Int :=
  match strip ps with
  | [] => none
  | p :: ps =>
      if p = '-'.toNat then (magnitude ps).map fun n => -(n : Int)
      else if p = '+'.toNat then (magnitude ps).map Int.ofNat
      else (magnitude (p :: ps)).map Int.ofNat

/-- `int(text)`; `none` is the `ValueError`. -/
def parse (text : PyStr) : Option Int := parsePoints (text.points.map Fin.val)

/-! ## writing -/

/-- `str(n)` -/
def str (n : Int) : PyStr := .ofString (String.ofList (intText n))

theorem str_points (n : Int) : (str n).points.map Fin.val = (intText n).map Char.toNat := by
  rw [str, PyStr.points_ofString, String.toList_ofList]

/-! ## digits -/

variable {c sep : Char} {cs ds : List Char} {ps : List Nat}

theorem toNat_of_isDigit (h : c.isDigit = true) : 0x30 ≤ c.toNat ∧ c.toNat < 0x3a := by
  simp only [Char.isDigit, Bool.and_eq_true, decide_eq_true_eq] at h
  obtain ⟨hlow, hhigh⟩ := h
  rw [ge_iff_le, UInt32.le_iff_toNat_le] at hlow
  rw [UInt32.le_iff_toNat_le] at hhigh
  simp at hlow hhigh
  constructor <;> omega

theorem digitValue_digit (h : c.isDigit = true) : digitValue c.toNat = some (c.toNat - '0'.toNat) := by
  obtain ⟨hlow, hhigh⟩ := toNat_of_isDigit h
  rw [digitValue, zeros, List.find?_cons_of_pos (by simp; omega)]
  rfl

theorem isSpace_digit (h : c.isDigit = true) : isSpace c.toNat = false := by
  obtain ⟨hlow, hhigh⟩ := toNat_of_isDigit h
  simp [isSpace]
  omega

theorem readDigits_digits (hne : cs ≠ []) (h : ∀ c ∈ cs, c.isDigit = true) :
    readDigits (cs.map Char.toNat) = some (cs.map fun c => c.toNat - '0'.toNat) := by
  induction cs with
  | nil => contradiction
  | cons c cs ih =>
      have hc := digitValue_digit (h c List.mem_cons_self)
      cases cs with
      | nil => simp [readDigits, hc]
      | cons d ds =>
          have hd := toNat_of_isDigit (h d (by simp))
          have hrest := ih (List.cons_ne_nil d ds) fun e he => h e (List.mem_cons_of_mem c he)
          have hunder : d.toNat ≠ '_'.toNat := by
            have : '_'.toNat = 0x5f := rfl
            omega
          rw [List.map_cons, List.map_cons, readDigits, hc, if_neg hunder, ← List.map_cons, hrest]
          rfl

theorem magnitude_digits (hne : cs ≠ []) (h : ∀ c ∈ cs, c.isDigit = true) (hlength : cs.length ≤ maxStrDigits) :
    magnitude (cs.map Char.toNat) = some (Nat.ofDigitChars 10 cs 0) := by
  rw [magnitude, readDigits_digits hne h]
  simp [hlength, Nat.ofDigitChars_eq_foldl, List.foldl_map]

theorem strip_of_forall (h : ∀ p ∈ ps, isSpace p = false) : strip ps = ps := by
  have hdrop : ∀ qs : List Nat, (∀ q ∈ qs, isSpace q = false) → qs.dropWhile isSpace = qs := by
    intro qs hqs
    cases qs with
    | nil => rfl
    | cons q qs => rw [List.dropWhile_cons_of_neg (by simp [hqs q])]
  rw [strip, hdrop ps h, hdrop ps.reverse (by simpa using h), List.reverse_reverse]

theorem isDigit_toDigits (n : Nat) : ∀ c ∈ Nat.toDigits 10 n, c.isDigit = true := fun _ hc =>
  Nat.isDigit_of_mem_toDigits (by decide) (by decide) hc

theorem toDigits_ne_nil (n : Nat) : Nat.toDigits 10 n ≠ [] :=
  List.ne_nil_of_length_pos Nat.length_toDigits_pos

theorem magnitude_toDigits {n : Nat} (h : n < 10 ^ maxStrDigits) :
    magnitude ((Nat.toDigits 10 n).map Char.toNat) = some n := by
  rw [magnitude_digits (toDigits_ne_nil n) (isDigit_toDigits n)
    ((Nat.length_toDigits_le_iff (by decide) (by decide)).mpr h), Nat.ofDigitChars_ten_toDigits]

/-! ## reading back -/

/-- An integer comes back from its text, up to the limit of digits. -/
theorem parse_str {n : Int} (h : n.natAbs < 10 ^ maxStrDigits) : parse (str n) = some n := by
  rw [parse, str_points]
  cases n with
  | ofNat n =>
      have hstrip : strip ((intText (.ofNat n)).map Char.toNat) = (Nat.toDigits 10 n).map Char.toNat :=
        strip_of_forall (by simpa [intText] using fun c hc => isSpace_digit (isDigit_toDigits n c hc))
      obtain ⟨c, cs, hcs⟩ := List.exists_cons_of_ne_nil (toDigits_ne_nil n)
      have hc := toNat_of_isDigit (isDigit_toDigits n c (by simp [hcs]))
      have hminus : c.toNat ≠ '-'.toNat := by
        have : '-'.toNat = 0x2d := rfl
        omega
      have hplus : c.toNat ≠ '+'.toNat := by
        have : '+'.toNat = 0x2b := rfl
        omega
      have hmagnitude := magnitude_toDigits (n := n) h
      rw [hcs, List.map_cons] at hmagnitude
      rw [parsePoints, hstrip, hcs, List.map_cons]
      simp only [if_neg hminus, if_neg hplus, hmagnitude, Option.map_some]
  | negSucc n =>
      have hstrip : strip ((intText (.negSucc n)).map Char.toNat) =
          '-'.toNat :: (Nat.toDigits 10 (n + 1)).map Char.toNat := by
        refine strip_of_forall fun p hp => ?_
        rw [intText, List.map_cons, List.mem_cons] at hp
        rcases hp with rfl | hp
        · rfl
        · obtain ⟨c, hc, rfl⟩ := List.mem_map.mp hp
          exact isSpace_digit (isDigit_toDigits (n + 1) c hc)
      rw [parsePoints, hstrip]
      simp only [if_true, magnitude_toDigits (n := n + 1) h, Option.map_some]
      rfl

/-! ## a text before a separator -/

/-- A separator that is in neither part splits in one way. -/
theorem append_cons_inj {α : Type} {sep : α} {xs ys cs ds : List α} (hx : sep ∉ xs) (hy : sep ∉ ys)
    (h : xs ++ sep :: cs = ys ++ sep :: ds) : xs = ys ∧ cs = ds := by
  induction xs generalizing ys with
  | nil =>
      cases ys with
      | nil => exact ⟨rfl, (List.cons.inj h).2⟩
      | cons y ys => exact absurd (List.mem_cons.mpr (.inl (List.cons.inj h).1)) hy
  | cons x xs ih =>
      rw [List.mem_cons, not_or] at hx
      cases ys with
      | nil => exact absurd (List.cons.inj h).1.symm hx.1
      | cons y ys =>
          rw [List.mem_cons, not_or] at hy
          obtain ⟨rfl, hrest⟩ := List.cons.inj h
          obtain ⟨rfl, rfl⟩ := ih hx.2 hy.2 hrest
          exact ⟨rfl, rfl⟩

theorem toDigits_append_inj {m n : Nat} (hsep : sep.isDigit = false)
    (h : Nat.toDigits 10 m ++ sep :: cs = Nat.toDigits 10 n ++ sep :: ds) : m = n ∧ cs = ds := by
  have hnot : ∀ k : Nat, sep ∉ Nat.toDigits 10 k := fun k hk =>
    absurd (isDigit_toDigits k sep hk) (by simp [hsep])
  obtain ⟨hdigits, hrest⟩ := append_cons_inj (hnot m) (hnot n) h
  have hvalue := congrArg (fun l => Nat.ofDigitChars 10 l 0) hdigits
  simp only [Nat.ofDigitChars_ten_toDigits] at hvalue
  exact ⟨hvalue, hrest⟩

/-! ## base 16 -/

/-- `_PyUnicode_TransformDecimalAndSpaceToASCII`: white space and the digits of all scripts become
ASCII, what else is beyond becomes `?`. -/
def asciiPoint (p : Nat) : Nat :=
  if p < 0x7f then p
  else if isSpace p then ' '.toNat
  else ((digitValue p).map ('0'.toNat + ·)).getD '?'.toNat

def hexValue (p : Nat) : Option Nat :=
  if '0'.toNat ≤ p ∧ p ≤ '9'.toNat then some (p - '0'.toNat)
  else if 'a'.toNat ≤ p ∧ p ≤ 'f'.toNat then some (p - 'a'.toNat + 10)
  else if 'A'.toNat ≤ p ∧ p ≤ 'F'.toNat then some (p - 'A'.toNat + 10)
  else none

/-- Digits, an underscore between any two of them or not. -/
def readHexDigits : List Nat → Option (List Nat)
  | [] => none
  | [p] => (hexValue p).map fun d => [d]
  | p :: q :: ps =>
      (hexValue p).bind fun d =>
        (if q = '_'.toNat then readHexDigits ps else readHexDigits (q :: ps)).map fun ds => d :: ds

/-- `0x` and one underscore behind it, if they are there. -/
def dropHexMark : List Nat → List Nat
  | 0x30 :: 0x78 :: 0x5f :: ps => ps
  | 0x30 :: 0x58 :: 0x5f :: ps => ps
  | 0x30 :: 0x78 :: ps => ps
  | 0x30 :: 0x58 :: ps => ps
  | ps => ps

def hexMagnitude (ps : List Nat) : Option Nat :=
  (readHexDigits (dropHexMark ps)).map fun ds => ds.foldl (fun n d => 16 * n + d) 0

/-- `int(text, 16)`; no bound on the digits. -/
def parseHex (text : PyStr) : Option Int :=
  match strip ((text.points.map Fin.val).map asciiPoint) with
  | [] => none
  | p :: ps =>
      if p = '-'.toNat then (hexMagnitude ps).map fun n => -(n : Int)
      else if p = '+'.toNat then (hexMagnitude ps).map Int.ofNat
      else (hexMagnitude (p :: ps)).map Int.ofNat

theorem isSome_readHexDigits (hne : ps ≠ []) (h : ∀ p ∈ ps, (hexValue p).isSome) : (readHexDigits ps).isSome := by
  induction ps with
  | nil => contradiction
  | cons p ps ih =>
      rw [List.forall_mem_cons] at h
      obtain ⟨d, hd⟩ := Option.isSome_iff_exists.mp h.1
      cases ps with
      | nil => simp [readHexDigits, hd]
      | cons q ps =>
          have hunder : q ≠ '_'.toNat := by
            rintro rfl
            exact absurd (h.2 _ List.mem_cons_self) (by decide)
          rw [readHexDigits, hd, if_neg hunder]
          simpa using ih (List.cons_ne_nil q ps) h.2

theorem isSome_parseHex {text : PyStr} (hne : text.points ≠ [])
    (h : ∀ p ∈ text.points, (hexValue p.val).isSome) : (parseHex text).isSome := by
  have hhex (p : Nat) (hp : (hexValue p).isSome) :
      asciiPoint p = p ∧ isSpace p = false ∧ p ≠ '-'.toNat ∧ p ≠ '+'.toNat ∧ p ≠ 0x78 ∧ p ≠ 0x58 := by
    have hrange : ('0'.toNat ≤ p ∧ p ≤ '9'.toNat) ∨ ('a'.toNat ≤ p ∧ p ≤ 'f'.toNat) ∨ ('A'.toNat ≤ p ∧ p ≤ 'F'.toNat) := by
      unfold hexValue at hp
      grind
    have hconst : '0'.toNat = 0x30 ∧ '9'.toNat = 0x39 ∧ 'a'.toNat = 0x61 ∧ 'f'.toNat = 0x66 ∧ 'A'.toNat = 0x41 ∧
        'F'.toNat = 0x46 ∧ '-'.toNat = 0x2d ∧ '+'.toNat = 0x2b := by decide
    refine ⟨?_, ?_, by omega, by omega, by omega, by omega⟩
    · rw [asciiPoint, if_pos (by omega)]
    · simp [isSpace]
      omega
  have hpoints : ∀ p ∈ text.points.map Fin.val, (hexValue p).isSome := by simpa using h
  have hascii : (text.points.map Fin.val).map asciiPoint = text.points.map Fin.val := by
    conv_rhs => rw [← List.map_id (text.points.map Fin.val)]
    exact List.map_congr_left fun p hp => (hhex p (hpoints p hp)).1
  have hmark : dropHexMark (text.points.map Fin.val) = text.points.map Fin.val := by
    unfold dropHexMark
    split
    · next heq => exact absurd rfl (hhex _ (hpoints 0x78 (by simp [heq]))).2.2.2.2.1
    · next heq => exact absurd rfl (hhex _ (hpoints 0x58 (by simp [heq]))).2.2.2.2.2
    · next heq => exact absurd rfl (hhex _ (hpoints 0x78 (by simp [heq]))).2.2.2.2.1
    · next heq => exact absurd rfl (hhex _ (hpoints 0x58 (by simp [heq]))).2.2.2.2.2
    · rfl
  rw [parseHex, hascii, strip_of_forall fun p hp => (hhex p (hpoints p hp)).2.1]
  have hread := isSome_readHexDigits (by simpa using hne) hpoints
  rcases hps : text.points.map Fin.val with _ | ⟨p, ps⟩
  · simp [hps] at hread
    simp [readHexDigits] at hread
  · have hp := hhex p (hpoints p (by simp [hps]))
    simp only [if_neg hp.2.2.1, if_neg hp.2.2.2.1, hexMagnitude, ← hps, hmark, Option.isSome_map]
    exact hread

end PyInt
