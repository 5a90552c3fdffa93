import Anoryx.PyJson.Value

/-!
# Anoryx.PgColumn

What the columns of a PostgreSQL table make of the Python values that are bound to them:
what is refused, what is stored, and what is read back.

A driver asks little of a value.  A NUMERIC column takes whatever `Decimal()` takes, a
BIGINT column whatever `int()` takes, a boolean or a float included; and a text may lose
spaces at its end.  `ColumnType.Keeps` says which values come back as they were
(`load_store`).
-/

namespace PgColumn

open PyJson

/-- `Decimal`; a zero has no sign. -/
inductive Decimal
  | nan
  | infinity (negative : Bool)
  | finite (q : ℚ)
deriving DecidableEq

/-- The numbers of Python: `Decimal(x)` is exact, `float(d)` rounds. -/
class Numerals (F : Type) extends FloatFormat F where
  toDecimal : F → Decimal
  ofDecimal : Decimal → F
  /-- `Decimal(text)` -/
  parseDecimal : String → Option Decimal

inductive ColumnType
  | string (length : Nat)
  | integer (bits : Nat)
  | numeric (precision scale : Nat)

/-- What is stored in a column. -/
inductive Cell
  | null
  | text (s : String)
  | integer (n : Int)
  | number (d : Decimal)
deriving DecidableEq

/-! ## storing -/

/-- `VARCHAR(length)`: a text that is too long is refused, unless only spaces go beyond,
which are cut off. -/
def varchar (length : Nat) (s : String) : Option String :=
  if s.length ≤ length then some s
  else if (s.toList.drop length).all (· = ' ') then some (String.ofList (s.toList.take length))
  else none

variable {length bits : Nat} {s t : String}

theorem varchar_of_le (h : s.length ≤ length) : varchar length s = some s :=
  if_pos h

/-- Halves are rounded away from zero. -/
def roundHalfAway (q : ℚ) : ℚ := if q < 0 then -(⌊-q + 1 / 2⌋ : ℚ) else ⌊q + 1 / 2⌋

/-- The decimal with `scale` digits after the point. -/
def Decimal.rescale (scale : Nat) : Decimal → Decimal
  | .finite q => .finite (roundHalfAway (q * 10 ^ scale) / 10 ^ scale)
  | d => d

/-- `NUMERIC(precision, scale)` -/
def fixedPoint (precision scale : Nat) (d : Decimal) : Option Decimal :=
  match d.rescale scale with
  | .nan => some .nan
  | .infinity _ => none
  | .finite q => if |q| < 10 ^ (precision - scale) then some (.finite q) else none

/-- `int(x)`, towards zero. -/
def Decimal.truncate : Decimal → Option Int
  | .finite q => some (q.num.tdiv q.den)
  | _ => none

/-- A signed integer of some bits. -/
def signed (bits : Nat) (n : Int) : Option Int :=
  if -2 ^ (bits - 1) ≤ n ∧ n < 2 ^ (bits - 1) then some n else none

section Store

variable {F : Type} [Numerals F]

/-- `int(value)` of what has it. -/
def intValue : Value F → Option Int
  | .int n => some n
  | .bool b => some b.toInt
  | .float x => (Numerals.toDecimal x).truncate
  | _ => none

/-- `Decimal(value)` -/
def decimalValue : Value F → Option Decimal
  | .int n => some (.finite n)
  | .bool b => some (.finite b.toInt)
  | .float x => some (Numerals.toDecimal x)
  | .str s => Numerals.parseDecimal F s
  | _ => none

/-- What a column stores of a value that is bound to it. -/
def ColumnType.store : ColumnType → Value F → Option Cell
  | _, .null => some .null
  | .string length, .str s =>
      if '\x00' ∈ s.toList then none else (varchar length s).map .text
  | .string _, _ => none
  | .integer bits, v => ((intValue v).bind (signed bits)).map .integer
  | .numeric precision scale, v => ((decimalValue v).bind (fixedPoint precision scale)).map .number

/-- What is read back, a NUMERIC through `float()`. -/
def Cell.load : Cell → Value F
  | .null => .null
  | .text s => .str s
  | .integer n => .int n
  | .number d => .float (Numerals.ofDecimal d)

/-! ## what comes back as it was -/

/-- The values that are read back as they were: texts without spaces beyond the length,
integers that are no booleans and no floats, and floats that are decimals of the scale. -/
def ColumnType.Keeps : ColumnType → Value F → Prop
  | .string length, .str s => s.length ≤ length ∨ ∃ c ∈ s.toList.drop length, c ≠ ' '
  | .integer _, .bool _ | .integer _, .float _ => False
  | .numeric _ scale, .float x => Numerals.ofDecimal ((Numerals.toDecimal x).rescale scale) = x
  | .numeric _ _, .bool _ | .numeric _ _, .int _ | .numeric _ _, .str _ => False
  | _, _ => True

instance [DecidableEq F] : (type : ColumnType) → (v : Value F) → Decidable (type.Keeps v)
  | .string _, .str _ => inferInstanceAs (Decidable (_ ∨ _))
  | .string _, .null | .string _, .bool _ | .string _, .int _ | .string _, .float _
  | .string _, .arr _ | .string _, .obj _ => isTrue trivial
  | .integer _, .bool _ | .integer _, .float _ => isFalse id
  | .integer _, .null | .integer _, .int _ | .integer _, .str _ | .integer _, .arr _
  | .integer _, .obj _ => isTrue trivial
  | .numeric _ _, .float x => inferInstanceAs (Decidable (_ = x))
  | .numeric _ _, .bool _ | .numeric _ _, .int _ | .numeric _ _, .str _ => isFalse id
  | .numeric _ _, .null | .numeric _ _, .arr _ | .numeric _ _, .obj _ => isTrue trivial

theorem varchar_eq_self (h : varchar length s = some t) :
    t = s ↔ s.length ≤ length ∨ ∃ c ∈ s.toList.drop length, c ≠ ' ' := by
  unfold varchar at h
  split at h
  · next hle => simpa [hle] using h.symm
  · next hlt =>
      split at h
      · next hspaces =>
          have hne : t ≠ s := by
            rintro rfl
            have := congrArg String.length (Option.some.inj h)
            simp at this
            omega
          simpa [hne, Nat.lt_of_not_le hlt] using hspaces
      · contradiction

theorem fixedPoint_eq_some {precision scale : Nat} {d d' : Decimal}
    (h : fixedPoint precision scale d = some d') : d' = d.rescale scale := by
  unfold fixedPoint at h
  cases hd : d.rescale scale <;> grind

variable {v : Value F}

theorem load_signed {c : Cell} (h : ((intValue v).bind (signed bits)).map Cell.integer = some c) :
    c.load = v ↔ ∃ n, v = .int n := by
  simp only [Option.map_eq_some_iff, Option.bind_eq_some_iff, signed, Option.ite_none_right_eq_some,
    Option.some.injEq] at h
  obtain ⟨_, ⟨n, hn, -, rfl⟩, rfl⟩ := h
  cases v <;> grind [Cell.load, intValue]

/-- **What a column keeps**, of the values it takes. -/
theorem ColumnType.load_store {type : ColumnType} {c : Cell} (h : type.store v = some c) :
    c.load = v ↔ type.Keeps v := by
  by_cases hnull : v = .null
  · subst hnull
    cases type <;> grind [ColumnType.store, Cell.load, ColumnType.Keeps]
  cases type with
  | string length =>
      cases v with
      | str s =>
          simp only [ColumnType.store, Option.ite_none_left_eq_some, Option.map_eq_some_iff] at h
          obtain ⟨-, t, ht, rfl⟩ := h
          simpa [Cell.load, ColumnType.Keeps] using varchar_eq_self ht
      | _ => simp_all [ColumnType.store]
  | integer bits =>
      have hint : ((intValue v).bind (signed bits)).map Cell.integer = some c := by
        cases v <;> first | exact absurd rfl hnull | exact h
      rw [load_signed hint]
      cases v <;> simp_all [ColumnType.Keeps, intValue]
  | numeric precision scale =>
      have hnumber : ((decimalValue v).bind (fixedPoint precision scale)).map Cell.number = some c := by
        cases v <;> first | exact absurd rfl hnull | exact h
      simp only [Option.map_eq_some_iff, Option.bind_eq_some_iff] at hnumber
      obtain ⟨_, ⟨d, hd, hfixed⟩, rfl⟩ := hnumber
      rw [Cell.load, fixedPoint_eq_some hfixed]
      cases v <;> simp_all [ColumnType.Keeps, decimalValue]

end Store

end PgColumn
