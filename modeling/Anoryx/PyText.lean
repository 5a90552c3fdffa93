import Anoryx.PyDecimal
import Anoryx.PyJson.Surrogates

/-!
# Anoryx.PyText

Texts and their octets: `encode` and `decode`, in UTF-8 and in ASCII; and the white space around a
text.
-/

namespace PyText

open PyJson

variable {s s' : String} {points : List CodePoint}

/-! ## white space -/

def isSpace (p : CodePoint) : Bool := (scalar p).any PyDecimal.isSpace

/-- `s.strip()` -/
def strip (s : List CodePoint) : List CodePoint := ((s.dropWhile isSpace).reverse.dropWhile isSpace).reverse

/-! ## UTF-8 -/

/-- `encode("utf-8")` -/
def utf8 (s : String) : List UInt8 := s.toUTF8.data.toList

theorem fromUTF8?_utf8 (s : String) : String.fromUTF8? ⟨(utf8 s).toArray⟩ = some s := by
  have hbytes : (⟨(utf8 s).toArray⟩ : ByteArray) = s.toByteArray := by
    rw [utf8, Array.toArray_toList]
    rfl
  rw [hbytes, String.fromUTF8?, dif_pos s.isValidUTF8]
  rfl

theorem utf8_inj : utf8 s = utf8 s' ↔ s = s' := by
  constructor
  · intro h
    have hread := fromUTF8?_utf8 s
    rw [h, fromUTF8?_utf8] at hread
    exact (Option.some.inj hread).symm
  · rintro rfl
    rfl

theorem utf8_append (s s' : String) : utf8 (s ++ s') = utf8 s ++ utf8 s' := by
  simp [utf8]

theorem utf8_ne_nil (h : s ≠ "") : utf8 s ≠ [] := by
  intro hnil
  apply h
  exact utf8_inj.mp (hnil.trans (by rfl))

/-! ## ASCII -/

/-- `encode("ascii")` -/
def asciiEncode (s : List CodePoint) : Option (List UInt8) :=
  s.mapM fun p => if p.val < 0x80 then some (UInt8.ofNat p.val) else none

/-- `decode("ascii")` -/
def asciiDecode (bs : List UInt8) : List CodePoint := bs.map fun b => Fin.ofNat _ b.toNat

def IsAscii (s : List CodePoint) : Prop := ∀ p ∈ s, p.val < 0x80

instance (s : List CodePoint) : Decidable (IsAscii s) := inferInstanceAs (Decidable (∀ _ ∈ _, _))

variable {bs : List UInt8}

theorem asciiEncode_asciiDecode (h : ∀ b ∈ bs, b < 0x80) : asciiEncode (asciiDecode bs) = some bs := by
  induction bs with
  | nil => rfl
  | cons b bs ih =>
      rw [List.forall_mem_cons] at h
      have hb : b.toNat < 0x80 := UInt8.lt_iff_toNat_lt.mp h.1
      have hval : (Fin.ofNat 0x110000 b.toNat).val = b.toNat := Nat.mod_eq_of_lt (by omega)
      have hrest : (List.map (fun b : UInt8 => Fin.ofNat 0x110000 b.toNat) bs).mapM
          (fun p => if p.val < 0x80 then some (UInt8.ofNat p.val) else none) = some bs := ih h.2
      rw [asciiDecode, asciiEncode, List.map_cons, List.mapM_cons, hval, if_pos hb, hrest, UInt8.ofNat_toNat]
      rfl

/-- A text is encoded as ASCII just when it is ASCII. -/
theorem asciiEncode_isSome (s : List CodePoint) : (asciiEncode s).isSome ↔ IsAscii s := by
  induction s with
  | nil => simp [asciiEncode, IsAscii]
  | cons p s ih =>
      have hcons : asciiEncode (p :: s) =
          (if p.val < 0x80 then some (UInt8.ofNat p.val) else none).bind fun b => (asciiEncode s).bind fun bs => some (b :: bs) :=
        List.mapM_cons
      rw [hcons, IsAscii, List.forall_mem_cons, ← IsAscii, ← ih]
      by_cases hp : p.val < 0x80
      · cases asciiEncode s <;> simp [hp]
      · simp [hp]

theorem asciiEncode_eq_none (h : ¬ IsAscii points) : asciiEncode points = none := by
  rwa [← asciiEncode_isSome, Option.not_isSome_iff_eq_none] at h

theorem isAscii_asciiDecode (h : ∀ b ∈ bs, b < 0x80) : IsAscii (asciiDecode bs) := by
  rw [← asciiEncode_isSome, asciiEncode_asciiDecode h]
  rfl

/-- ASCII encoding is injective. -/
theorem asciiEncode_injective {s s' : List CodePoint} (h : asciiEncode s = some bs) (h' : asciiEncode s' = some bs) :
    s = s' := by
  have hback : ∀ {s : List CodePoint} {bs : List UInt8}, asciiEncode s = some bs → s = asciiDecode bs := by
    intro s
    induction s with
    | nil =>
        intro bs h
        cases h
        rfl
    | cons p s ih =>
        intro bs h
        rw [asciiEncode, List.mapM_cons] at h
        obtain ⟨b, hb, h⟩ := Option.bind_eq_some_iff.mp h
        obtain ⟨bs', hbs, h⟩ := Option.bind_eq_some_iff.mp h
        obtain rfl := Option.some.inj h
        split at hb
        · next hp =>
            obtain rfl := Option.some.inj hb
            rw [asciiDecode, List.map_cons, ← asciiDecode, ← ih hbs, UInt8.toNat_ofNat', Nat.mod_eq_of_lt (by omega)]
            congr 1
            exact (Fin.ofNat_val_eq_self p).symm
        · contradiction
  rw [hback h, hback h']

end PyText
