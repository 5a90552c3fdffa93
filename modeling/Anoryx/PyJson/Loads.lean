import Anoryx.PyJson.Value

/-!
# Anoryx.PyJson.Loads

JSON as Python's `json.loads` reads it, and that it reads back what `json.dumps` writes
(`loads_dumps`), in every style.

The reader is a scanner over the characters and a stack machine over the tokens.  A
repeated key keeps its place and takes the later value.  Nesting is not limited.
-/

namespace PyJson

variable {F : Type}

/-! ## the scanner -/

def isSpace (c : Char) : Bool := c = ' ' || c = '\t' || c = '\n' || c = '\r'

/-- The token that a single character is. -/
def punctuation : Char → Option (Token F)
  | '{' => some .lbrace
  | '}' => some .rbrace
  | '[' => some .lbracket
  | ']' => some .rbracket
  | ',' => some .comma
  | ':' => some .colon
  | _ => none

/-- What ends a number or a literal. -/
def isDelimiter (c : Char) : Bool := isSpace c || c ∈ ['{', '}', '[', ']', ',', ':', '"']

/-- `int(text)` -/
def intOfText : List Char → Int
  | '-' :: cs => -(Nat.ofDigitChars 10 cs 0)
  | cs => Nat.ofDigitChars 10 cs 0

def wordToken [FloatFormat F] (cs : List Char) : Option (Token F) :=
  if isIntText cs then some (.int (intOfText cs))
  else if isFloatText cs then (FloatFormat.ofText cs).map .float
  else if cs = ['n', 'u', 'l', 'l'] then some .null
  else if cs = ['t', 'r', 'u', 'e'] then some (.bool true)
  else if cs = ['f', 'a', 'l', 's', 'e'] then some (.bool false)
  else none

/-- Where the scanner stands; what it has of a text is reversed. -/
inductive Mode
  | between
  | word (read : List Char)
  | str (read : List Char)
  /-- after a backslash -/
  | escape (read : List Char)
  /-- in the digits of `\uXXXX`, after a high surrogate or not -/
  | hex (read : List Char) (high : Option Nat) (count value : Nat)
  /-- after a high surrogate -/
  | pair (read : List Char) (high : Nat)
  | pairEscape (read : List Char) (high : Nat)

def hexValue (c : Char) : Option Nat :=
  if c.isDigit then some (c.toNat - '0'.toNat)
  else if 'a' ≤ c ∧ c ≤ 'f' then some (c.toNat - 'a'.toNat + 10)
  else if 'A' ≤ c ∧ c ≤ 'F' then some (c.toNat - 'A'.toNat + 10)
  else none

/-- The code unit of a `\uXXXX` is complete. -/
def codeUnit (read : List Char) : Option Nat → Nat → Option Mode
  | none, n =>
      if 0xd800 ≤ n ∧ n < 0xdc00 then some (.pair read n)
      else if 0xdc00 ≤ n ∧ n < 0xe000 then none
      else some (.str (Char.ofNat n :: read))
  | some high, n =>
      if 0xdc00 ≤ n ∧ n < 0xe000 then
        some (.str (Char.ofNat (0x10000 + (high - 0xd800) * 0x400 + (n - 0xdc00)) :: read))
      else none

/-- The character after a backslash. -/
def unescape : Char → Option Char
  | '"' => some '"'
  | '\\' => some '\\'
  | '/' => some '/'
  | 'n' => some '\n'
  | 'r' => some '\r'
  | 't' => some '\t'
  | 'f' => some '\x0c'
  | 'b' => some '\x08'
  | _ => none

def scanBetween (c : Char) : List (Token F) × Mode :=
  if isSpace c then ([], .between)
  else
    match punctuation c with
    | some t => ([t], .between)
    | none => if c = '"' then ([], .str []) else ([], .word [c])

/-- One character: the tokens that it completes, and the next mode. -/
def scanChar [FloatFormat F] : Mode → Char → Option (List (Token F) × Mode)
  | .between, c => some (scanBetween c)
  | .word read, c =>
      if isDelimiter c then do
        let t ← wordToken read.reverse
        let (ts, mode) := scanBetween c
        pure (t :: ts, mode)
      else some ([], .word (c :: read))
  | .str read, c =>
      if c = '"' then some ([.str (String.ofList read.reverse)], .between)
      else if c = '\\' then some ([], .escape read)
      else if c.toNat < 0x20 then none
      else some ([], .str (c :: read))
  | .escape read, c =>
      if c = 'u' then some ([], .hex read none 0 0)
      else (unescape c).map fun c => ([], .str (c :: read))
  | .hex read high count value, c => do
      let n ← hexValue c
      if count = 3 then
        let mode ← codeUnit read high (value * 16 + n)
        pure ([], mode)
      else pure ([], .hex read high (count + 1) (value * 16 + n))
  | .pair read high, c => if c = '\\' then some ([], .pairEscape read high) else none
  | .pairEscape read high, c => if c = 'u' then some ([], .hex read (some high) 0 0) else none

/-- The tokens of a text. -/
def scan [FloatFormat F] : Mode → List Char → Option (List (Token F))
  | .between, [] => some []
  | .word read, [] => (wordToken read.reverse).map fun t => [t]
  | _, [] => none
  | mode, c :: cs => do
      let (ts, mode) ← scanChar mode c
      let rest ← scan mode cs
      pure (ts ++ rest)

/-! ## the stack machine -/

/-- A container whose next value is due; what it has is reversed. -/
inductive Frame (F : Type)
  | arr (items : List (Value F))
  | obj (members : List (String × Value F)) (key : String)

inductive State (F : Type)
  /-- a value is due -/
  | value (stack : List (Frame F))
  /-- after `[` -/
  | firstItem (stack : List (Frame F))
  /-- after an item -/
  | afterItem (items : List (Value F)) (stack : List (Frame F))
  /-- after `{` -/
  | firstKey (stack : List (Frame F))
  /-- a key is due -/
  | key (members : List (String × Value F)) (stack : List (Frame F))
  /-- after a key -/
  | colon (members : List (String × Value F)) (key : String) (stack : List (Frame F))
  /-- after a member -/
  | afterMember (members : List (String × Value F)) (stack : List (Frame F))
  | done (v : Value F)

/-- `d[k] = v` -/
def setItem (k : String) (v : Value F) : List (String × Value F) → List (String × Value F)
  | [] => [(k, v)]
  | (k', v') :: ms => if k' = k then (k, v) :: ms else (k', v') :: setItem k v ms

/-- `dict(pairs)` -/
def dictOf (pairs : List (String × Value F)) : List (String × Value F) :=
  pairs.foldl (fun d p => setItem p.1 p.2 d) []

/-- A value is complete. -/
def deliver (v : Value F) : List (Frame F) → State F
  | [] => .done v
  | .arr items :: stack => .afterItem (v :: items) stack
  | .obj members key :: stack => .afterMember ((key, v) :: members) stack

/-- The first token of a value. -/
def beginValue (stack : List (Frame F)) : Token F → Option (State F)
  | .null => some (deliver .null stack)
  | .bool b => some (deliver (.bool b) stack)
  | .int n => some (deliver (.int n) stack)
  | .float x => some (deliver (.float x) stack)
  | .str s => some (deliver (.str s) stack)
  | .lbracket => some (.firstItem stack)
  | .lbrace => some (.firstKey stack)
  | _ => none

def State.step : State F → Token F → Option (State F)
  | .value stack, t => beginValue stack t
  | .firstItem stack, .rbracket => some (deliver (.arr []) stack)
  | .firstItem stack, t => beginValue (.arr [] :: stack) t
  | .afterItem items stack, .comma => some (.value (.arr items :: stack))
  | .afterItem items stack, .rbracket => some (deliver (.arr items.reverse) stack)
  | .firstKey stack, .rbrace => some (deliver (.obj []) stack)
  | .firstKey stack, .str k => some (.colon [] k stack)
  | .key members stack, .str k => some (.colon members k stack)
  | .colon members k stack, .colon => some (.value (.obj members k :: stack))
  | .afterMember members stack, .comma => some (.key members stack)
  | .afterMember members stack, .rbrace => some (deliver (.obj (dictOf members.reverse)) stack)
  | _, _ => none

def State.run : State F → List (Token F) → Option (Value F)
  | .done v, [] => some v
  | _, [] => none
  | s, t :: ts => do
      let s ← s.step t
      s.run ts

/-- `json.loads` -/
def loads [FloatFormat F] (text : String) : Option (Value F) := do
  let tokens ← scan .between text.toList
  State.run (.value []) tokens

/-! ## reading back a string -/

variable {c : Char} {count n high : Nat} {ms ns : List (String × Value F)} {v w : Value F}

section Strings

variable [FloatFormat F] {read rest : List Char}

theorem scan_cons (mode : Mode) (c : Char) (cs : List Char) :
    (scan mode (c :: cs) : Option (List (Token F))) =
      (scanChar mode c).bind fun p => (scan p.2 cs).map (p.1 ++ ·) := by
  rw [scan]
  simp only [Option.bind_eq_bind, Option.pure_def, Option.map_eq_bind]
  rfl

theorem scan_silent {mode : Mode} (mode' : Mode)
    (h : (scanChar mode c : Option (List (Token F) × Mode)) = some ([], mode')) (cs : List Char) :
    (scan mode (c :: cs) : Option (List (Token F))) = scan mode' cs := by
  rw [scan_cons, h]
  exact congrFun Option.map_id (scan mode' cs)

theorem hexValue_hexDigit (n : Nat) : hexValue (hexDigit n) = some (n % 16) := by
  have hall : ∀ m < 16, hexValue m.digitChar = some m := by decide
  exact hall _ (Nat.mod_lt _ (by decide))

theorem scan_hexDigit (high : Option Nat) (h : count ≠ 3) (value n : Nat) (cs : List Char) :
    (scan (.hex read high count value) (hexDigit n :: cs) : Option (List (Token F))) =
      scan (.hex read high (count + 1) (value * 16 + n % 16)) cs :=
  scan_silent _ (by simp [scanChar, hexValue_hexDigit, h]) cs

theorem scan_hex (high : Option Nat) (h : n < 0x10000) :
    (scan (.hex read high 0 0)
      (hexDigit (n / 4096) :: hexDigit (n / 256) :: hexDigit (n / 16) :: hexDigit n :: rest) :
        Option (List (Token F))) =
      (codeUnit read high n).bind fun mode => scan mode rest := by
  have hn : (((0 * 16 + n / 4096 % 16) * 16 + n / 256 % 16) * 16 + n / 16 % 16) * 16 + n % 16 = n := by
    omega
  rw [scan_hexDigit high (by decide), scan_hexDigit high (by decide), scan_hexDigit high (by decide),
    scan_cons]
  simp only [scanChar, hexValue_hexDigit, hn, Option.bind_eq_bind, Option.bind_some, if_true,
    Option.pure_def]
  cases codeUnit read high n with
  | none => rfl
  | some mode => exact congrFun Option.map_id (scan mode rest)

theorem scan_unicodeEscape (h : n < 0x10000) :
    (scan (.str read) (unicodeEscape n ++ rest) : Option (List (Token F))) =
      (codeUnit read none n).bind fun mode => scan mode rest := by
  rw [← scan_hex none h]
  show scan (.str read) ('\\' :: 'u' :: _) = _
  rw [scan_silent (.escape read) rfl, scan_silent (.hex read none 0 0) rfl]
  rfl

theorem scan_pair (h : n < 0x10000) :
    (scan (.pair read high) (unicodeEscape n ++ rest) : Option (List (Token F))) =
      (codeUnit read (some high) n).bind fun mode => scan mode rest := by
  rw [← scan_hex (some high) h]
  show scan (.pair read high) ('\\' :: 'u' :: _) = _
  rw [scan_silent (.pairEscape read high) rfl, scan_silent (.hex read (some high) 0 0) rfl]
  rfl

theorem scan_escape {c d : Char} (h : unescape d = some c) (hd : d ≠ 'u') :
    (scan (.str read) ('\\' :: d :: rest) : Option (List (Token F))) = scan (.str (c :: read)) rest := by
  rw [scan_silent (.escape read) rfl, scan_silent (.str (c :: read))]
  simp [scanChar, hd, h]

theorem not_surrogate (c : Char) : c.toNat < 0xd800 ∨ 0xe000 ≤ c.toNat := by
  have h := c.valid
  unfold UInt32.isValidChar Nat.isValidChar at h
  have : c.val.toNat = c.toNat := rfl
  omega

theorem toNat_lt (c : Char) : c.toNat < 0x110000 := by
  have h := c.valid
  unfold UInt32.isValidChar Nat.isValidChar at h
  have : c.val.toNat = c.toNat := rfl
  omega

theorem scan_escaped_unit (h : c.toNat < 0x10000) :
    (scan (.str read) (unicodeEscape c.toNat ++ rest) : Option (List (Token F))) =
      scan (.str (c :: read)) rest := by
  have hc := not_surrogate c
  rw [scan_unicodeEscape h, codeUnit, if_neg (by omega), if_neg (by omega), Char.ofNat_toNat]
  rfl

theorem scan_escaped_pair (h : 0x10000 ≤ c.toNat) :
    (scan (.str read) (unicodeEscape (0xd800 + (c.toNat - 0x10000) / 0x400) ++
      (unicodeEscape (0xdc00 + (c.toNat - 0x10000) % 0x400) ++ rest)) : Option (List (Token F))) =
      scan (.str (c :: read)) rest := by
  have hc := toNat_lt c
  have hjoin : 0x10000 + (0xd800 + (c.toNat - 0x10000) / 0x400 - 0xd800) * 0x400 +
      (0xdc00 + (c.toNat - 0x10000) % 0x400 - 0xdc00) = c.toNat := by omega
  rw [scan_unicodeEscape (by omega), codeUnit, if_pos (by omega), Option.bind_some,
    scan_pair (by omega), codeUnit, if_pos (by omega), hjoin, Char.ofNat_toNat]
  rfl

/-- An escaped character is read back. -/
theorem scan_escapeChar (ensureAscii : Bool) (c : Char) :
    (scan (.str read) (escapeChar ensureAscii c ++ rest) : Option (List (Token F))) =
      scan (.str (c :: read)) rest := by
  unfold escapeChar
  split_ifs with h₁ h₂ h₃ h₄ h₅ h₆ h₇ h₈ h₉ h₁₀
  · rw [h₁]
    exact scan_escape rfl (by decide)
  · rw [h₂]
    exact scan_escape rfl (by decide)
  · rw [h₃]
    exact scan_escape rfl (by decide)
  · rw [h₄]
    exact scan_escape rfl (by decide)
  · rw [h₅]
    exact scan_escape rfl (by decide)
  · rw [h₆]
    exact scan_escape rfl (by decide)
  · rw [h₇]
    exact scan_escape rfl (by decide)
  · exact scan_escaped_unit (by omega)
  · exact scan_silent _ (by simp [scanChar, h₁, h₂, h₈]) rest
  · exact scan_escaped_unit h₁₀
  · rw [List.append_assoc]
    exact scan_escaped_pair (by omega)

theorem scan_escaped (ensureAscii : Bool) (cs : List Char) :
    (scan (.str read) (cs.flatMap (escapeChar ensureAscii) ++ rest) : Option (List (Token F))) =
      scan (.str (cs.reverse ++ read)) rest := by
  induction cs generalizing read with
  | nil => rfl
  | cons c cs ih =>
      rw [List.flatMap_cons, List.append_assoc, scan_escapeChar, ih]
      simp

end Strings

/-! ## reading back a number or a literal -/

section Words

theorem isNatText_toDigits (n : Nat) : isNatText (Nat.toDigits 10 n) = true := by
  have hhead : ∀ n, 0 < n → ∃ c cs, Nat.toDigits 10 n = c :: cs ∧ c ≠ '0' := by
    intro n
    induction n using Nat.strong_induction_on with
    | _ n ih =>
        intro hn
        rw [Nat.toDigits_eq_if (by decide)]
        split
        · next hlt =>
            have hall : ∀ m < 10, 0 < m → m.digitChar ≠ '0' := by decide
            exact ⟨_, _, rfl, hall n hlt hn⟩
        · next hge =>
            obtain ⟨c, cs, hc, hne⟩ := ih (n / 10) (by omega) (by omega)
            exact ⟨c, cs ++ [(n % 10).digitChar], by rw [hc]; rfl, hne⟩
  rcases Nat.eq_zero_or_pos n with rfl | hn
  · rfl
  · obtain ⟨c, cs, hc, hne⟩ := hhead n hn
    have hdigits : ∀ d ∈ c :: cs, d.isDigit = true := fun d hd =>
      Nat.isDigit_of_mem_toDigits (by decide) (by decide) (hc ▸ hd)
    rw [hc]
    unfold isNatText
    split <;> simp_all

theorem not_minus_toDigits (n : Nat) (cs : List Char) : Nat.toDigits 10 n ≠ '-' :: cs := by
  intro h
  have : '-'.isDigit = true :=
    Nat.isDigit_of_mem_toDigits (b := 10) (n := n) (by decide) (by decide) (by simp [h])
  contradiction

theorem isIntText_intText (n : Int) : isIntText (intText n) = true := by
  cases n with
  | ofNat n =>
      have h := isNatText_toDigits n
      unfold isIntText
      split
      · next cs hcs => exact absurd hcs (not_minus_toDigits n cs)
      · exact h
  | negSucc n => exact isNatText_toDigits (n + 1)

theorem intOfText_intText (n : Int) : intOfText (intText n) = n := by
  cases n with
  | ofNat n =>
      unfold intOfText
      split
      · next cs hcs => exact absurd hcs (not_minus_toDigits n cs)
      · exact congrArg Int.ofNat Nat.ofDigitChars_ten_toDigits
  | negSucc n =>
      show -((Nat.ofDigitChars 10 (Nat.toDigits 10 (n + 1)) 0 : Nat) : Int) = _
      rw [Nat.ofDigitChars_ten_toDigits]
      rfl

variable {cs : List Char}

theorem isIntChar_of_isNatText (h : isNatText cs = true) :
    ∀ c ∈ cs, isIntChar c = true := by
  unfold isNatText at h
  split at h
  · contradiction
  · exact List.all_eq_true.mp rfl
  · simp only [Bool.and_eq_true, List.all_eq_true] at h
    intro c hc
    simp [isIntChar, h.2 c hc]

theorem isIntChar_of_isIntText (h : isIntText cs = true) :
    ∀ c ∈ cs, isIntChar c = true := by
  unfold isIntText at h
  split at h
  · intro c hc
    rcases List.mem_cons.mp hc with rfl | hc
    · decide
    · exact isIntChar_of_isNatText h c hc
  · exact isIntChar_of_isNatText h

/-- The characters of a number or a literal. -/
def isWordChar (c : Char) : Bool := c.isAlpha || isIntChar c || c = '+' || c = '.'

theorem not_delimiter (h : isWordChar c = true) : isDelimiter c = false := by
  by_contra hd
  simp only [Bool.not_eq_false, isDelimiter, isSpace, Bool.or_eq_true, decide_eq_true_eq,
    List.mem_cons, List.not_mem_nil, or_false] at hd
  rcases hd with (((rfl | rfl) | rfl) | rfl) | rfl | rfl | rfl | rfl | rfl | rfl | rfl
  all_goals revert h; decide

theorem isWordChar_of_isIntChar (h : isIntChar c = true) : isWordChar c = true := by
  simp [isWordChar, h]

theorem isWordChar_of_isDigit (h : c.isDigit = true) : isWordChar c = true :=
  isWordChar_of_isIntChar (by simp [isIntChar, h])

theorem isWordChar_of_isExponentText (h : isExponentText cs = true) :
    ∀ c ∈ cs, isWordChar c = true := by
  have hrest : ∀ (sign : Char) (cs : List Char),
      ((if sign = '-' ∨ sign = '+' then decide (cs ≠ []) else sign.isDigit) &&
        cs.all Char.isDigit) = true → ∀ c ∈ sign :: cs, isWordChar c = true := by
    intro sign cs h c hc
    simp only [Bool.and_eq_true, List.all_eq_true] at h
    rcases List.mem_cons.mp hc with rfl | hc
    · by_cases hsign : c = '-' ∨ c = '+'
      · rcases hsign with rfl | rfl <;> decide
      · rw [if_neg hsign] at h
        exact isWordChar_of_isDigit h.1
    · exact isWordChar_of_isDigit (h.2 c hc)
  unfold isExponentText at h
  split at h
  · next sign cs =>
      intro c hc
      rcases List.mem_cons.mp hc with rfl | hc
      · decide
      · exact hrest sign cs h c hc
  · next sign cs =>
      intro c hc
      rcases List.mem_cons.mp hc with rfl | hc
      · decide
      · exact hrest sign cs h c hc
  · contradiction

theorem isWordChar_of_isFractionText (h : isFractionText cs = true) :
    ∀ c ∈ cs, isWordChar c = true := by
  unfold isFractionText at h
  split at h
  · next cs =>
      simp only [Bool.and_eq_true, Bool.or_eq_true, decide_eq_true_eq] at h
      intro c hc
      rcases List.mem_cons.mp hc with rfl | hc
      · decide
      · rw [← List.takeWhile_append_dropWhile (p := Char.isDigit) (l := cs), List.mem_append] at hc
        rcases hc with hc | hc
        · exact isWordChar_of_isDigit (List.mem_takeWhile_imp hc)
        · rcases h.2 with hnil | hexp
          · simp [hnil] at hc
          · exact isWordChar_of_isExponentText hexp c hc
  · exact isWordChar_of_isExponentText h

theorem isWordChar_of_isFloatText (h : isFloatText cs = true) :
    ∀ c ∈ cs, isWordChar c = true := by
  simp only [isFloatText, Bool.or_eq_true, Bool.and_eq_true, decide_eq_true_eq] at h
  rcases h with ((⟨-, h⟩ | rfl) | rfl) | rfl
  · intro c hc
    rw [← List.takeWhile_append_dropWhile (p := isIntChar) (l := cs), List.mem_append] at hc
    rcases hc with hc | hc
    · exact isWordChar_of_isIntChar (List.mem_takeWhile_imp hc)
    · exact isWordChar_of_isFractionText h c hc
  all_goals exact List.all_eq_true.mp rfl

theorem isIntText_of_isFloatText (h : isFloatText cs = true) :
    isIntText cs = false := by
  by_contra hint
  have hchars := isIntChar_of_isIntText (Bool.not_eq_false _ ▸ hint : isIntText cs = true)
  simp only [isFloatText, Bool.or_eq_true, Bool.and_eq_true, decide_eq_true_eq] at h
  rcases h with ((⟨-, h⟩ | rfl) | rfl) | rfl
  · rw [List.dropWhile_eq_nil_iff.mpr hchars] at h
    contradiction
  all_goals exact hint rfl

variable [FloatFormat F] {rest : List Char}

omit [FloatFormat F] in
theorem scanBetween_word (h : isDelimiter c = false) :
    (scanBetween c : List (Token F) × Mode) = ([], .word [c]) := by
  have hpunct : (punctuation c : Option (Token F)) = none := by
    unfold punctuation
    split
    all_goals first | rfl | contradiction
  have hspace : isSpace c = false := by
    simp only [isDelimiter, Bool.or_eq_false_iff] at h
    exact h.1
  have hquote : c ≠ '"' := by
    rintro rfl
    contradiction
  simp only [scanBetween, hspace, hpunct, hquote, if_false, Bool.false_eq_true]

theorem scan_word_chars (h : ∀ c ∈ cs, isDelimiter c = false) (read : List Char) :
    (scan (.word read) (cs ++ rest) : Option (List (Token F))) =
      scan (.word (cs.reverse ++ read)) rest := by
  induction cs generalizing read with
  | nil => rfl
  | cons c cs ih =>
      have hc : isDelimiter c = false := h c (by simp)
      rw [List.cons_append, scan_silent (.word (c :: read)) (by simp [scanChar, hc]),
        ih fun d hd => h d (List.mem_cons_of_mem c hd)]
      simp

/-- What may follow a number or a literal. -/
def Ends (rest : List Char) : Prop := ∀ c ∈ rest.head?, isDelimiter c = true

theorem scan_word_end {t : Token F} {read : List Char} (hrest : Ends rest)
    (ht : wordToken read.reverse = some t) :
    (scan (.word read) rest : Option (List (Token F))) = (scan .between rest).map (t :: ·) := by
  cases rest with
  | nil => simp [scan, ht]
  | cons c rest =>
      rw [scan_cons, scan_cons]
      simp only [scanChar, hrest c rfl, if_true, ht, Option.bind_eq_bind, Option.bind_some,
        Option.pure_def, Option.map_map]
      rfl

theorem scan_word {t : Token F} (hne : cs ≠ [])
    (hcs : ∀ c ∈ cs, isDelimiter c = false) (ht : wordToken cs = some t) (hrest : Ends rest) :
    (scan .between (cs ++ rest) : Option (List (Token F))) = (scan .between rest).map (t :: ·) := by
  cases cs with
  | nil => contradiction
  | cons c cs =>
      have hc : isDelimiter c = false := hcs c (by simp)
      rw [List.cons_append, scan_silent (.word [c]) (by rw [scanChar, scanBetween_word hc]),
        scan_word_chars fun d hd => hcs d (List.mem_cons_of_mem c hd)]
      exact scan_word_end hrest (by simpa using ht)

end Words

/-! ## reading back the tokens -/

section Tokens

def Token.isWord : Token F → Bool
  | .null | .bool _ | .int _ | .float _ => true
  | _ => false

/-- A token whose text starts with a delimiter. -/
def Token.isMark : Token F → Bool
  | .rbrace | .rbracket | .comma | .colon => true
  | _ => false

/-- Numbers and literals end where something else starts. -/
def Spaced (ts : List (Token F)) : Prop := ts.IsChain fun t u => t.isWord → u.isMark

/-- … also if they come before it. -/
structure Follows (ts : List (Token F)) : Prop where
  spaced : Spaced ts
  mark : ∀ t ∈ ts.head?, t.isMark = true

variable {ts : List (Token F)}

theorem Follows.word (h : Follows ts) (t : Token F) : Spaced (t :: ts) :=
  List.isChain_cons.mpr ⟨fun u hu _ => h.mark u hu, h.spaced⟩

variable {t : Token F}

theorem Spaced.cons (h : Spaced ts) (ht : t.isWord = false) : Spaced (t :: ts) :=
  List.isChain_cons.mpr ⟨fun u _ hword => by simp [ht] at hword, h⟩

theorem Spaced.mark (h : Spaced ts) (hmark : t.isMark = true) (ht : t.isWord = false) :
    Follows (t :: ts) :=
  ⟨h.cons ht, fun _ hu => (Option.some.inj hu) ▸ hmark⟩

mutual

theorem Follows.tokens {rest : List (Token F)} (h : Follows rest) : (v : Value F) →
    Spaced (v.tokens ++ rest)
  | .null | .bool _ | .int _ | .float _ => h.word _
  | .str _ => h.spaced.cons rfl
  | .arr items => (h.spaced.itemTokens items).cons rfl
  | .obj members => (h.spaced.memberTokens members).cons rfl

theorem Spaced.itemTokens {rest : List (Token F)} (h : Spaced rest) : (vs : List (Value F)) →
    Spaced (itemTokens vs ++ rest)
  | [] => h.cons rfl
  | v :: vs => by
      rw [PyJson.itemTokens, List.append_assoc]
      exact (h.moreItemTokens vs).tokens v

theorem Spaced.moreItemTokens {rest : List (Token F)} (h : Spaced rest) : (vs : List (Value F)) →
    Follows (moreItemTokens vs ++ rest)
  | [] => h.mark rfl rfl
  | v :: vs => by
      rw [PyJson.moreItemTokens, List.cons_append, List.cons_append, List.append_assoc]
      exact ((h.moreItemTokens vs).tokens v).mark rfl rfl

theorem Spaced.memberTokens {rest : List (Token F)} (h : Spaced rest) :
    (ms : List (String × Value F)) → Spaced (memberTokens ms ++ rest)
  | [] => h.cons rfl
  | (k, v) :: ms => by
      simp only [PyJson.memberTokens, List.cons_append, List.append_assoc]
      exact (((h.moreMemberTokens ms).tokens v).cons rfl).cons rfl

theorem Spaced.moreMemberTokens {rest : List (Token F)} (h : Spaced rest) :
    (ms : List (String × Value F)) → Follows (moreMemberTokens ms ++ rest)
  | [] => h.mark rfl rfl
  | (k, v) :: ms => by
      simp only [PyJson.moreMemberTokens, List.cons_append, List.append_assoc]
      exact ((((h.moreMemberTokens ms).tokens v).cons rfl).cons rfl).mark rfl rfl

end

variable [FloatFormat F] (style : Style) {rest : List Char}

theorem scan_str (s : String) :
    (scan .between ((Token.str s : Token F).text style ++ rest) : Option (List (Token F))) =
      (scan .between rest).map (.str s :: ·) := by
  rw [Token.text, List.append_assoc, List.cons_append, scan_silent (.str []) rfl, scan_escaped,
    List.singleton_append, scan_cons]
  simp [scanChar]

theorem scan_int (n : Int) (hrest : Ends rest) :
    (scan .between (intText n ++ rest) : Option (List (Token F))) =
      (scan .between rest).map (.int n :: ·) := by
  have hword := isIntText_intText n
  refine scan_word ?_ (fun c hc => not_delimiter (isWordChar_of_isIntChar
    (isIntChar_of_isIntText hword c hc))) ?_ hrest
  · intro hnil
    rw [hnil] at hword
    contradiction
  · rw [wordToken, if_pos hword, intOfText_intText]

theorem scan_float (x : F) (hrest : Ends rest) :
    (scan .between (FloatFormat.repr x ++ rest) : Option (List (Token F))) =
      (scan .between rest).map (.float x :: ·) := by
  have hfloat := FloatFormat.isFloatText_repr x
  refine scan_word ?_ (fun c hc => not_delimiter (isWordChar_of_isFloatText hfloat c hc)) ?_ hrest
  · intro hnil
    rw [hnil] at hfloat
    contradiction
  · rw [wordToken, isIntText_of_isFloatText hfloat, if_neg Bool.false_ne_true, if_pos hfloat,
      FloatFormat.ofText_repr]
    rfl

theorem scan_text (t : Token F) (hrest : t.isWord = true → Ends rest) :
    (scan .between (t.text style ++ rest) : Option (List (Token F))) =
      (scan .between rest).map (t :: ·) := by
  have hmark : ∀ (c : Char) (t : Token F), scanBetween c = ([t], .between) →
      (scan .between (c :: rest) : Option (List (Token F))) = (scan .between rest).map (t :: ·) := by
    intro c t h
    rw [scan_cons, scanChar, h]
    rfl
  have hspace : (scan .between (' ' :: rest) : Option (List (Token F))) = scan .between rest :=
    scan_silent .between rfl rest
  have hseparator : ∀ (c : Char) (t : Token F), scanBetween c = ([t], .between) →
      (scan .between ((if style.spaced then [c, ' '] else [c]) ++ rest) : Option (List (Token F))) =
        (scan .between rest).map (t :: ·) := by
    intro c t h
    split
    · show scan .between (c :: ' ' :: rest) = _
      rw [scan_cons, scanChar, h, Option.bind_some, hspace]
      rfl
    · exact hmark c t h
  have hliteral : ∀ {c : Char} {cs : List Char} {t : Token F}, (c :: cs).all isWordChar = true →
      wordToken (c :: cs) = some t → Ends rest →
      (scan .between (c :: cs ++ rest) : Option (List (Token F))) = (scan .between rest).map (t :: ·) :=
    fun hchars => scan_word (List.cons_ne_nil _ _)
      fun d hd => not_delimiter (List.all_eq_true.mp hchars d hd)
  cases t with
  | lbrace => exact hmark '{' _ rfl
  | rbrace => exact hmark '}' _ rfl
  | lbracket => exact hmark '[' _ rfl
  | rbracket => exact hmark ']' _ rfl
  | comma => exact hseparator ',' _ rfl
  | colon => exact hseparator ':' _ rfl
  | null => exact hliteral rfl rfl (hrest rfl)
  | bool b =>
      cases b with
      | false => exact hliteral rfl rfl (hrest rfl)
      | true => exact hliteral rfl rfl (hrest rfl)
  | int n => exact scan_int n (hrest rfl)
  | float x => exact scan_float x (hrest rfl)
  | str s => exact scan_str style s

/-- Tokens written with a delimiter after every word are read back. -/
theorem scan_texts (h : Spaced ts) :
    scan .between (ts.flatMap (Token.text style)) = some ts := by
  induction ts with
  | nil => rfl
  | cons t ts ih =>
      obtain ⟨hhead, hspaced⟩ := List.isChain_cons.mp h
      rw [List.flatMap_cons, scan_text, ih hspaced]
      · rfl
      · intro hword
        cases ts with
        | nil => exact fun c hc => by simp at hc
        | cons u us =>
            have hmark := hhead u rfl hword
            intro c hc
            cases u with
            | rbrace | rbracket =>
                obtain rfl := Option.some.inj hc
                rfl
            | comma | colon =>
                simp only [List.flatMap_cons, Token.text] at hc
                split at hc
                all_goals
                  obtain rfl := Option.some.inj hc
                  rfl
            | _ => simp [Token.isMark] at hmark

end Tokens

/-! ## reading back a value -/

section Values

mutual

/-- No key is repeated. -/
def Value.Distinct : Value F → Prop
  | .arr items => DistinctItems items
  | .obj members => (members.map Prod.fst).Nodup ∧ DistinctMembers members
  | _ => True

def DistinctItems : List (Value F) → Prop
  | [] => True
  | v :: vs => v.Distinct ∧ DistinctItems vs

def DistinctMembers : List (String × Value F) → Prop
  | [] => True
  | (_, v) :: ms => v.Distinct ∧ DistinctMembers ms

end

theorem setItem_new (k : String) (v : Value F) (h : k ∉ ms.map Prod.fst) :
    setItem k v ms = ms ++ [(k, v)] := by
  induction ms with
  | nil => rfl
  | cons m ms ih =>
      simp only [List.map_cons, List.mem_cons, not_or] at h
      rw [setItem, if_neg (Ne.symm h.1), ih h.2]
      rfl

theorem foldl_setItem (h : ((ms ++ ns).map Prod.fst).Nodup) :
    ns.foldl (fun d p => setItem p.1 p.2 d) ms = ms ++ ns := by
  induction ns generalizing ms with
  | nil => simp
  | cons n ns ih =>
      have hnew : n.1 ∉ ms.map Prod.fst := by
        rw [List.map_append, List.nodup_append] at h
        exact fun hmem => h.2.2 _ hmem _ (by simp) rfl
      rw [List.foldl_cons, setItem_new _ _ hnew, ih]
      · simp
      · simpa using h

theorem dictOf_eq_self (h : (ms.map Prod.fst).Nodup) : dictOf ms = ms := by
  have h' : (([] ++ ms).map Prod.fst).Nodup := by simpa using h
  simpa [dictOf] using foldl_setItem h'

theorem State.run_cons (s : State F) (t : Token F) (ts : List (Token F)) :
    s.run (t :: ts) = (s.step t).bind fun s => s.run ts := by
  cases s <;> rfl

theorem run_firstItem (v : Value F) (stack : List (Frame F)) (ts : List (Token F)) :
    State.run (.firstItem stack) (v.tokens ++ ts) =
      State.run (.value (.arr [] :: stack)) (v.tokens ++ ts) := by
  cases v <;> simp [Value.tokens, State.run_cons, State.step]

mutual

/-- The tokens of a value build the value, whatever is on the stack. -/
theorem run_tokens (stack : List (Frame F)) (rest : List (Token F)) : (v : Value F) → v.Distinct →
    State.run (.value stack) (v.tokens ++ rest) = (deliver v stack).run rest
  | .null, _ | .bool _, _ | .int _, _ | .float _, _ | .str _, _ => State.run_cons _ _ _
  | .arr [], _ => by
      simp [Value.tokens, itemTokens, State.run_cons, State.step, beginValue]
  | .arr (v :: vs), h => by
      rw [Value.tokens, itemTokens, List.cons_append, List.append_assoc, State.run_cons]
      show State.run (.firstItem stack) _ = _
      rw [run_firstItem, run_tokens _ _ v h.1]
      exact run_moreItemTokens [v] stack rest vs h.2
  | .obj [], _ => by
      simp [Value.tokens, memberTokens, State.run_cons, State.step, beginValue]
  | .obj ((k, v) :: ms), h => by
      simp only [Value.tokens, memberTokens, List.cons_append, List.append_assoc, State.run_cons]
      show State.run (.value (.obj [] k :: stack)) _ = _
      rw [run_tokens _ _ v h.2.1]
      exact run_moreMemberTokens [(k, v)] stack rest ms h.1 h.2.2

theorem run_moreItemTokens (items : List (Value F)) (stack : List (Frame F)) (rest : List (Token F)) :
    (vs : List (Value F)) → DistinctItems vs →
    State.run (.afterItem items stack) (moreItemTokens vs ++ rest) =
      (deliver (.arr (items.reverse ++ vs)) stack).run rest
  | [], _ => by
      simp [moreItemTokens, State.run_cons, State.step]
  | v :: vs, h => by
      simp only [moreItemTokens, List.cons_append, List.append_assoc, State.run_cons]
      show State.run (.value (.arr items :: stack)) _ = _
      rw [run_tokens _ _ v h.1]
      show State.run (.afterItem (v :: items) stack) _ = _
      rw [run_moreItemTokens (v :: items) stack rest vs h.2, List.reverse_cons, List.append_assoc]
      rfl

theorem run_moreMemberTokens (members : List (String × Value F)) (stack : List (Frame F))
    (rest : List (Token F)) : (ms : List (String × Value F)) →
    ((members.reverse ++ ms).map Prod.fst).Nodup → DistinctMembers ms →
    State.run (.afterMember members stack) (moreMemberTokens ms ++ rest) =
      (deliver (.obj (members.reverse ++ ms)) stack).run rest
  | [], hkeys, _ => by
      rw [List.append_nil] at hkeys ⊢
      rw [moreMemberTokens, List.singleton_append, State.run_cons]
      show State.run (deliver (.obj (dictOf members.reverse)) stack) rest = _
      rw [dictOf_eq_self hkeys]
  | (k, v) :: ms, hkeys, h => by
      simp only [moreMemberTokens, List.cons_append, List.append_assoc, State.run_cons]
      show State.run (.value (.obj members k :: stack)) _ = _
      rw [run_tokens _ _ v h.1]
      show State.run (.afterMember ((k, v) :: members) stack) _ = _
      rw [run_moreMemberTokens ((k, v) :: members) stack rest ms (by simpa using hkeys) h.2,
        List.reverse_cons, List.append_assoc]
      rfl

end

variable [FloatFormat F]

/-- **Round trip**: what is written, in any style, is read back. -/
theorem loads_dumps (style : Style) (h : v.Distinct) : loads (dumps style v) = some v := by
  have hspaced : Spaced v.tokens := by
    simpa using (Follows.mk List.isChain_nil (by simp) : Follows ([] : List (Token F))).tokens v
  have hrun := run_tokens [] [] v h
  rw [List.append_nil] at hrun
  simp only [loads, dumps, String.toList_ofList, scan_texts style hspaced, Option.bind_eq_bind,
    Option.bind_some, hrun]
  rfl

theorem dumps_injective {style style' : Style} (hv : v.Distinct) (hw : w.Distinct)
    (h : dumps style v = dumps style' w) : v = w := by
  have hload := congrArg (loads (F := F)) h
  rwa [loads_dumps style hv, loads_dumps style' hw, Option.some.injEq] at hload

end Values

end PyJson
