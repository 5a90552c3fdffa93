import Mathlib

/-!
# Anoryx.PyJson.Value

JSON values as Python's `json` module writes them: `json.dumps` with its options
`sort_keys`, `separators` and `ensure_ascii`.

A value is first taken apart into tokens, and the text is the texts of the tokens one
after the other.  Texts are Unicode: a surrogate without its partner is not a character.
Floats stay abstract; `FloatFormat` says what is used of them.
-/

namespace PyJson

/-! ## numbers -/

/-- `0|[1-9]\d*` -/
def isNatText : List Char → Bool
  | [] => false
  | ['0'] => true
  | c :: cs => c ≠ '0' && (c :: cs).all Char.isDigit

/-- `-?(0|[1-9]\d*)` -/
def isIntText : List Char → Bool
  | '-' :: cs => isNatText cs
  | cs => isNatText cs

/-- `[eE][-+]?\d+` -/
def isExponentText : List Char → Bool
  | 'e' :: sign :: cs | 'E' :: sign :: cs =>
      (if sign = '-' ∨ sign = '+' then cs ≠ [] else sign.isDigit) && cs.all Char.isDigit
  | _ => false

/-- `\.\d+` with an exponent or without -/
def isFractionText : List Char → Bool
  | '.' :: cs => cs.takeWhile Char.isDigit ≠ [] &&
      (cs.dropWhile Char.isDigit = [] || isExponentText (cs.dropWhile Char.isDigit))
  | cs => isExponentText cs

/-- The characters of an integer. -/
def isIntChar (c : Char) : Bool := c.isDigit || c = '-'

/-- A number with a fraction or an exponent, or one of the three words. -/
def isFloatText (cs : List Char) : Bool :=
  isIntText (cs.takeWhile isIntChar) && isFractionText (cs.dropWhile isIntChar) ||
    cs = ['N', 'a', 'N'] || cs = ['I', 'n', 'f', 'i', 'n', 'i', 't', 'y'] || cs = ['-', 'I', 'n', 'f', 'i', 'n', 'i', 't', 'y']

/-- The floats of a language: `repr` writes one, `float()` reads it back. -/
class FloatFormat (F : Type) where
  repr : F → List Char
  ofText : List Char → Option F
  isFloatText_repr : ∀ x, isFloatText (repr x) = true
  ofText_repr : ∀ x, ofText (repr x) = some x

/-- No floats at all. -/
instance : FloatFormat Empty where
  repr x := x.elim
  ofText _ := none
  isFloatText_repr x := x.elim
  ofText_repr x := x.elim

def intText : Int → List Char
  | .ofNat n => Nat.toDigits 10 n
  | .negSucc n => '-' :: Nat.toDigits 10 (n + 1)

/-! ## strings -/

def hexDigit (n : Nat) : Char := (n % 16).digitChar

/-- `\uXXXX` -/
def unicodeEscape (n : Nat) : List Char :=
  ['\\', 'u', hexDigit (n / 4096), hexDigit (n / 256), hexDigit (n / 16), hexDigit n]

/-- A character with its escape, under `ensure_ascii` or not. -/
def escapeChar (ensureAscii : Bool) (c : Char) : List Char :=
  if c = '"' then ['\\', '"']
  else if c = '\\' then ['\\', '\\']
  else if c = '\n' then ['\\', 'n']
  else if c = '\r' then ['\\', 'r']
  else if c = '\t' then ['\\', 't']
  else if c = '\x0c' then ['\\', 'f']
  else if c = '\x08' then ['\\', 'b']
  else if c.toNat < 0x20 then unicodeEscape c.toNat
  else if c.toNat < 0x7f ∨ !ensureAscii then [c]
  else if c.toNat < 0x10000 then unicodeEscape c.toNat
  else
    unicodeEscape (0xd800 + (c.toNat - 0x10000) / 0x400) ++
      unicodeEscape (0xdc00 + (c.toNat - 0x10000) % 0x400)

/-! ## values -/

inductive Value (F : Type)
  | null
  | bool (b : Bool)
  | int (n : Int)
  | float (x : F)
  | str (s : String)
  | arr (items : List (Value F))
  | obj (members : List (String × Value F))

inductive Token (F : Type)
  | lbrace
  | rbrace
  | lbracket
  | rbracket
  | comma
  | colon
  | null
  | bool (b : Bool)
  | int (n : Int)
  | float (x : F)
  | str (s : String)

section Dumps

variable {F : Type}

mutual

/-- The tokens of a value, in order. -/
def Value.tokens : Value F → List (Token F)
  | .null => [.null]
  | .bool b => [.bool b]
  | .int n => [.int n]
  | .float x => [.float x]
  | .str s => [.str s]
  | .arr items => .lbracket :: itemTokens items
  | .obj members => .lbrace :: memberTokens members

/-- What follows `[`. -/
def itemTokens : List (Value F) → List (Token F)
  | [] => [.rbracket]
  | v :: vs => v.tokens ++ moreItemTokens vs

/-- What follows an item. -/
def moreItemTokens : List (Value F) → List (Token F)
  | [] => [.rbracket]
  | v :: vs => .comma :: v.tokens ++ moreItemTokens vs

/-- What follows `{`. -/
def memberTokens : List (String × Value F) → List (Token F)
  | [] => [.rbrace]
  | (k, v) :: ms => .str k :: .colon :: v.tokens ++ moreMemberTokens ms

/-- What follows a member. -/
def moreMemberTokens : List (String × Value F) → List (Token F)
  | [] => [.rbrace]
  | (k, v) :: ms => .comma :: .str k :: .colon :: v.tokens ++ moreMemberTokens ms

end

/-- `ensure_ascii`, and whether a space follows each separator. -/
structure Style where
  ensureAscii : Bool
  spaced : Bool

variable [FloatFormat F]

def Token.text (style : Style) : Token F → List Char
  | .lbrace => ['{']
  | .rbrace => ['}']
  | .lbracket => ['[']
  | .rbracket => [']']
  | .comma => if style.spaced then [',', ' '] else [',']
  | .colon => if style.spaced then [':', ' '] else [':']
  | .null => ['n', 'u', 'l', 'l']
  | .bool true => ['t', 'r', 'u', 'e']
  | .bool false => ['f', 'a', 'l', 's', 'e']
  | .int n => intText n
  | .float x => FloatFormat.repr x
  | .str s => '"' :: s.toList.flatMap (escapeChar style.ensureAscii) ++ ['"']

/-- `json.dumps` -/
def dumps (style : Style) (v : Value F) : String :=
  String.ofList (v.tokens.flatMap (Token.text style))

end Dumps

end PyJson
