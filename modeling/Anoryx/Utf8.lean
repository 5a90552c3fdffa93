import Anoryx.PyJson.Unpaired

/-!
# Anoryx.Utf8

`str.encode` and `bytes.decode` in UTF-8 with `errors="replace"`.

The encoder writes a question mark for a surrogate.  The decoder reads octet by octet: what it has
of a character stands in a `Pending`, and an octet that cannot go on with it, or the end, makes one
replacement character of it.

Octets cut off after `n` of them decode to the characters that are whole, and a replacement
character if one is not (`decode_take_encode`).  The replacement character takes three octets, so
the text that is read back may encode to more than `n` (`length_encode_decode_take`).
-/

namespace Utf8

open PyJson

/-! ## encoding -/

/-- A surrogate has no encoding. -/
def IsSurrogate (p : CodePoint) : Prop := 0xd800 ≤ p.val ∧ p.val ≤ 0xdfff

instance (p : CodePoint) : Decidable (IsSurrogate p) := inferInstanceAs (Decidable (_ ∧ _))

/-- The octets of a number -/
def encodePoint (n : Nat) : List Nat :=
  if n ≤ 0x7f then [n]
  else if n ≤ 0x7ff then [0xc0 + n / 64, 0x80 + n % 64]
  else if n ≤ 0xffff then [0xe0 + n / 4096, 0x80 + n / 64 % 64, 0x80 + n % 64]
  else [0xf0 + n / 262144, 0x80 + n / 4096 % 64, 0x80 + n / 64 % 64, 0x80 + n % 64]

/-- What stands for a code point -/
def written (p : CodePoint) : CodePoint := if IsSurrogate p then 0x3f else p

/-- `s.encode("utf-8", errors="replace")` -/
def encode (s : List CodePoint) : List Nat := s.flatMap fun p => encodePoint (written p).val

theorem length_encodePoint (n : Nat) : (encodePoint n).length =
    if n ≤ 0x7f then 1 else if n ≤ 0x7ff then 2 else if n ≤ 0xffff then 3 else 4 := by
  unfold encodePoint
  grind

theorem not_surrogate_written (p : CodePoint) : ¬ IsSurrogate (written p) := by
  unfold written
  split
  case isTrue => decide
  case isFalse h => exact h

@[simp] theorem encode_nil : encode [] = [] := rfl

@[simp] theorem encode_cons (p : CodePoint) (s : List CodePoint) :
    encode (p :: s) = encodePoint (written p).val ++ encode s := rfl

@[simp] theorem encode_append (s t : List CodePoint) : encode (s ++ t) = encode s ++ encode t := List.flatMap_append

/-! ## decoding -/

/-- `�` -/
def replacement : CodePoint := 0xfffd

/-- A character of which some octets are read: their value, how many are to come after the next
one, and what the next one can be. -/
structure Pending where
  value : Nat
  more : Nat
  least : Nat
  most : Nat

/-- The first octet of a character of more than one -/
def leading (b : Nat) : Option Pending :=
  if 0xc2 ≤ b ∧ b ≤ 0xdf then some ⟨b - 0xc0, 0, 0x80, 0xbf⟩
  else if b = 0xe0 then some ⟨0, 1, 0xa0, 0xbf⟩
  else if b = 0xed then some ⟨0xd, 1, 0x80, 0x9f⟩
  else if 0xe1 ≤ b ∧ b ≤ 0xef then some ⟨b - 0xe0, 1, 0x80, 0xbf⟩
  else if b = 0xf0 then some ⟨0, 2, 0x90, 0xbf⟩
  else if 0xf1 ≤ b ∧ b ≤ 0xf3 then some ⟨b - 0xf0, 2, 0x80, 0xbf⟩
  else if b = 0xf4 then some ⟨4, 2, 0x80, 0x8f⟩
  else none

/-- An octet between characters -/
def start (b : Nat) : List CodePoint × Option Pending :=
  if b ≤ 0x7f then ([Fin.ofNat _ b], none)
  else match leading b with
    | some pending => ([], some pending)
    | none => ([replacement], none)

/-- An octet that goes on with a character -/
def Pending.next (pending : Pending) (b : Nat) : List CodePoint × Option Pending :=
  match pending.more with
  | 0 => ([Fin.ofNat _ (64 * pending.value + (b - 0x80))], none)
  | more + 1 => ([], some ⟨64 * pending.value + (b - 0x80), more, 0x80, 0xbf⟩)

/-- One octet: the characters that it completes, and what is pending after it. -/
def step : Option Pending → Nat → List CodePoint × Option Pending
  | none, b => start b
  | some pending, b =>
      if pending.least ≤ b ∧ b ≤ pending.most then pending.next b else (replacement :: (start b).1, (start b).2)

def decodeFrom : Option Pending → List Nat → List CodePoint
  | none, [] => []
  | some _, [] => [replacement]
  | pending, b :: bs => (step pending b).1 ++ decodeFrom (step pending b).2 bs

/-- `b.decode("utf-8", errors="replace")` -/
def decode (bs : List Nat) : List CodePoint := decodeFrom none bs

theorem decodeFrom_cons (pending : Option Pending) (b : Nat) (bs : List Nat) :
    decodeFrom pending (b :: bs) = (step pending b).1 ++ decodeFrom (step pending b).2 bs := by
  cases pending <;> rfl

/-! ## what was encoded -/

variable {n b value least most k : Nat} {p : CodePoint} {s : List CodePoint}

theorem leading_two (hlow : 0x7f < n) (hhigh : n ≤ 0x7ff) :
    leading (0xc0 + n / 64) = some ⟨n / 64, 0, 0x80, 0xbf⟩ := by
  rw [leading, if_pos (by omega), Nat.add_sub_cancel_left]

theorem leading_three (hlow : 0x7ff < n) (hhigh : n ≤ 0xffff) (hsurrogate : ¬ (0xd800 ≤ n ∧ n ≤ 0xdfff)) :
    ∃ least most, leading (0xe0 + n / 4096) = some ⟨n / 4096, 1, least, most⟩ ∧
      least ≤ 0x80 + n / 64 % 64 ∧ 0x80 + n / 64 % 64 ≤ most := by
  rw [leading, if_neg (by omega)]
  split
  case isTrue => exact ⟨_, _, by rw [show n / 4096 = 0 by omega], by omega, by omega⟩
  case isFalse =>
    split
    case isTrue => exact ⟨_, _, by rw [show n / 4096 = 0xd by omega], by omega, by omega⟩
    case isFalse =>
      rw [if_pos (by omega), Nat.add_sub_cancel_left]
      exact ⟨_, _, rfl, by omega, by omega⟩

theorem leading_four (hlow : 0xffff < n) (hhigh : n < 0x110000) :
    ∃ least most, leading (0xf0 + n / 262144) = some ⟨n / 262144, 2, least, most⟩ ∧
      least ≤ 0x80 + n / 4096 % 64 ∧ 0x80 + n / 4096 % 64 ≤ most := by
  rw [leading, if_neg (by omega), if_neg (by omega), if_neg (by omega), if_neg (by omega)]
  split
  case isTrue => exact ⟨_, _, by rw [show n / 262144 = 0 by omega], by omega, by omega⟩
  case isFalse =>
    split
    case isTrue =>
      rw [Nat.add_sub_cancel_left]
      exact ⟨_, _, rfl, by omega, by omega⟩
    case isFalse =>
      rw [if_pos (by omega)]
      exact ⟨_, _, by rw [show n / 262144 = 4 by omega], by omega, by omega⟩

theorem step_leading {pending : Pending} (hb : 0x7f < b) (h : leading b = some pending) :
    step none b = ([], some pending) := by
  rw [step, start, if_neg (by omega), h]

theorem step_more {more : Nat} (hleast : least ≤ b) (hmost : b ≤ most) :
    step (some ⟨value, more + 1, least, most⟩) b = ([], some ⟨64 * value + (b - 0x80), more, 0x80, 0xbf⟩) := by
  rw [step, if_pos ⟨hleast, hmost⟩]
  rfl

theorem step_last (hleast : least ≤ b) (hmost : b ≤ most) :
    step (some ⟨value, 0, least, most⟩) b = ([Fin.ofNat _ (64 * value + (b - 0x80))], none) := by
  rw [step, if_pos ⟨hleast, hmost⟩]
  rfl

/-- A code point is read back from its bytes. -/
theorem decodeFrom_encodePoint_append (hp : ¬ IsSurrogate p) (bs : List Nat) :
    decodeFrom none (encodePoint p.val ++ bs) = p :: decodeFrom none bs := by
  have hlt := p.isLt
  have hback {n : Nat} (h : n = p.val) : Fin.ofNat 0x110000 n = p := by
    rw [h]
    exact Fin.ofNat_val_eq_self p
  unfold IsSurrogate at hp
  unfold encodePoint
  split
  case isTrue hone =>
    rw [List.cons_append, decodeFrom_cons, step, start, if_pos hone, hback rfl]
    rfl
  case isFalse hone =>
    split
    case isTrue htwo =>
      simp only [List.cons_append, List.nil_append, decodeFrom_cons, step_leading (by omega) (leading_two (by omega) htwo)]
      rw [step_last (by omega) (by omega), hback (by omega)]
      rfl
    case isFalse htwo =>
      split
      case isTrue hthree =>
        obtain ⟨least, most, hleading, hleast, hmost⟩ := leading_three (by omega) hthree hp
        simp only [List.cons_append, List.nil_append, decodeFrom_cons, step_leading (by omega) hleading]
        rw [step_more hleast hmost, step_last (by omega) (by omega), hback (by omega)]
        rfl
      case isFalse hthree =>
        obtain ⟨least, most, hleading, hleast, hmost⟩ := leading_four (by omega) hlt
        simp only [List.cons_append, List.nil_append, decodeFrom_cons, step_leading (by omega) hleading]
        rw [step_more hleast hmost, step_more (by omega) (by omega), step_last (by omega) (by omega), hback (by omega)]
        rfl

/-- A code point that is cut off is read as one replacement. -/
theorem decodeFrom_take_encodePoint (hp : ¬ IsSurrogate p) (hpos : 0 < k) (hk : k < (encodePoint p.val).length) :
    decodeFrom none ((encodePoint p.val).take k) = [replacement] := by
  have hlt := p.isLt
  unfold IsSurrogate at hp
  unfold encodePoint at hk ⊢
  obtain ⟨k, rfl⟩ := Nat.exists_eq_add_of_le' hpos
  split at hk
  case isTrue => simp at hk
  case isFalse hone =>
    rw [if_neg hone]
    split at hk
    case isTrue htwo =>
      obtain rfl : k = 0 := by simpa using hk
      rw [if_pos htwo, List.take_succ_cons, List.take_zero, decodeFrom_cons,
        step_leading (by omega) (leading_two (by omega) htwo)]
      rfl
    case isFalse htwo =>
      rw [if_neg htwo]
      split at hk
      case isTrue hthree =>
        obtain ⟨least, most, hleading, hleast, hmost⟩ := leading_three (by omega) hthree hp
        rw [if_pos hthree, List.take_succ_cons, decodeFrom_cons, step_leading (by omega) hleading]
        simp only [List.length_cons, List.length_nil] at hk
        rcases k with _ | _ | k
        · rfl
        · rw [List.take_succ_cons, List.take_zero, decodeFrom_cons, step_more hleast hmost]
          rfl
        · omega
      case isFalse hthree =>
        obtain ⟨least, most, hleading, hleast, hmost⟩ := leading_four (by omega) hlt
        rw [if_neg hthree, List.take_succ_cons, decodeFrom_cons, step_leading (by omega) hleading]
        simp only [List.length_cons, List.length_nil] at hk
        rcases k with _ | _ | _ | k
        · rfl
        · rw [List.take_succ_cons, List.take_zero, decodeFrom_cons, step_more hleast hmost]
          rfl
        · rw [List.take_succ_cons, List.take_succ_cons, List.take_zero, decodeFrom_cons, step_more hleast hmost,
            decodeFrom_cons, step_more (by omega) (by omega)]
          rfl
        · omega

/-! ## octets cut off -/

/-- The characters that are whole in the first `n` octets -/
def whole : Nat → List CodePoint → List CodePoint
  | _, [] => []
  | n, p :: s =>
      if (encodePoint (written p).val).length ≤ n then
        written p :: whole (n - (encodePoint (written p).val).length) s
      else []

/-- How many octets of the character that is cut are among the first `n` -/
def cutOffset : Nat → List CodePoint → Nat
  | _, [] => 0
  | n, p :: s =>
      if (encodePoint (written p).val).length ≤ n then cutOffset (n - (encodePoint (written p).val).length) s else n

@[simp] theorem written_written (p : CodePoint) : written (written p) = written p := if_neg (not_surrogate_written p)

/-- A text cut at a byte: the whole code points before it, and a replacement for one cut in two. -/
theorem decode_take_encode (n : Nat) (s : List CodePoint) :
    decode ((encode s).take n) = whole n s ++ if cutOffset n s = 0 then [] else [replacement] := by
  induction s generalizing n with
  | nil => simp [decode, decodeFrom, whole, cutOffset]
  | cons p s ih =>
      rw [encode_cons, List.take_append, whole, cutOffset]
      by_cases hle : (encodePoint (written p).val).length ≤ n
      · rw [if_pos hle, if_pos hle, List.take_of_length_le hle, decode, decodeFrom_encodePoint_append (not_surrogate_written p),
          List.cons_append, ← ih, decode]
      · rw [if_neg hle, if_neg hle, Nat.sub_eq_zero_of_le (by omega), List.take_zero, List.append_nil, List.nil_append]
        cases n with
        | zero => rfl
        | succ n =>
            rw [if_neg (Nat.succ_ne_zero n)]
            exact decodeFrom_take_encodePoint (not_surrogate_written p) (Nat.succ_pos n) (by omega)

theorem length_encode_whole (n : Nat) (s : List CodePoint) :
    (encode (whole n s)).length + cutOffset n s = min n (encode s).length := by
  induction s generalizing n with
  | nil => simp [whole, cutOffset]
  | cons p s ih =>
      rw [encode_cons, List.length_append, whole, cutOffset]
      split
      case isTrue hle =>
        rw [encode_cons, written_written, List.length_append, Nat.add_assoc, ih]
        omega
      case isFalse hle =>
        rw [encode_nil, List.length_nil]
        omega

theorem length_encode_replacement : (encode [replacement]).length = 3 := by decide

theorem length_encode_decode_take (h : n ≤ (encode s).length) :
    (encode (decode ((encode s).take n))).length + cutOffset n s = n + if cutOffset n s = 0 then 0 else 3 := by
  have hwhole := length_encode_whole n s
  rw [Nat.min_eq_left h] at hwhole
  rw [decode_take_encode, encode_append, List.length_append]
  split
  · rw [encode_nil, List.length_nil]
    omega
  · rw [length_encode_replacement]
    omega

theorem cutOffset_append (h : (encode s).length ≤ n) (t : List CodePoint) :
    cutOffset n (s ++ t) = cutOffset (n - (encode s).length) t := by
  induction s generalizing n with
  | nil => rfl
  | cons p s ih =>
      rw [encode_cons, List.length_append] at h ⊢
      rw [List.cons_append, cutOffset, if_pos (by omega), ih (by omega), Nat.sub_sub]

theorem cutOffset_le_three (n : Nat) (s : List CodePoint) : cutOffset n s ≤ 3 := by
  induction s generalizing n with
  | nil => exact Nat.zero_le _
  | cons p s ih =>
      rw [cutOffset]
      split
      case isTrue => exact ih _
      case isFalse hlt =>
        rw [length_encodePoint] at hlt
        grind

end Utf8
