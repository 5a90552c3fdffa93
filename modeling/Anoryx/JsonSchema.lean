import Anoryx.PyJson.Unpaired

/-!
# Anoryx.JsonSchema

JSON Schema (Draft 2020-12), with the keywords of closed and bounded objects.  A schema is
a list of keywords, or one of them; `format` says nothing.

A pattern here is between `^` and `$`.  Where `$` holds differs: at the end of the text for
a schema (`Pattern.test`), before a newline at the end as well for Python's `re`
(`Pattern.pyMatch`).

The variants of a catalog are told apart by a constant (`Variant`), so `oneOf` is a choice
by it (`valid_oneOf`).
-/

namespace JsonSchema

open PyJson

/-! ## patterns -/

/-- A character class, and how often it stands. -/
structure Piece where
  ranges : List (Char × Char)
  least : Nat
  most : Nat

def Piece.holds (piece : Piece) (p : CodePoint) : Bool :=
  piece.ranges.any fun r => r.1.toNat ≤ p.val ∧ p.val ≤ r.2.toNat

/-- The pieces between `^` and `$`. -/
abbrev Pattern := List Piece

/-- The text is the pieces, one after the other. -/
def Pattern.run : Pattern → List CodePoint → Bool
  | [], ps => ps.isEmpty
  | piece :: pieces, ps => (List.range' piece.least (piece.most + 1 - piece.least)).any fun n =>
      n ≤ ps.length && (ps.take n).all piece.holds && Pattern.run pieces (ps.drop n)

def Pattern.test (pattern : Pattern) (s : PyStr) : Bool := pattern.run s.points

def newline : CodePoint := 0x0a

/-- `re.match` -/
def Pattern.pyMatch (pattern : Pattern) (s : PyStr) : Bool :=
  pattern.run s.points || (s.points.getLast? = some newline && pattern.run s.points.dropLast)

section Patterns

variable {pattern : Pattern} {ps : List CodePoint}

theorem run_cons {piece : Piece} {pieces : Pattern} (h : Pattern.run (piece :: pieces) ps = true) :
    ∃ n ≤ piece.most, (∀ p ∈ ps.take n, piece.holds p = true) ∧ Pattern.run pieces (ps.drop n) = true := by
  rw [Pattern.run, List.any_eq_true] at h
  obtain ⟨n, hn, h⟩ := h
  rw [Bool.and_eq_true, Bool.and_eq_true, List.all_eq_true] at h
  rw [List.mem_range'_1] at hn
  exact ⟨n, by omega, h.1.2, h.2⟩

/-- A pattern bounds the length of what it matches. -/
theorem length_le_of_run (h : pattern.run ps = true) : ps.length ≤ (pattern.map Piece.most).sum := by
  induction pattern generalizing ps with
  | nil =>
      rw [Pattern.run, List.isEmpty_iff] at h
      rw [h]
      exact Nat.zero_le _
  | cons piece pieces ih =>
      obtain ⟨n, hn, -, hrest⟩ := run_cons h
      have hlength := ih hrest
      rw [List.length_drop] at hlength
      rw [List.map_cons, List.sum_cons]
      omega

theorem holds_of_run (h : pattern.run ps = true) : ∀ p ∈ ps, ∃ piece ∈ pattern, piece.holds p = true := by
  induction pattern generalizing ps with
  | nil =>
      rw [Pattern.run, List.isEmpty_iff] at h
      simp [h]
  | cons piece pieces ih =>
      obtain ⟨n, -, hholds, hrest⟩ := run_cons h
      intro p hp
      rw [← List.take_append_drop n ps, List.mem_append] at hp
      rcases hp with hp | hp
      · exact ⟨piece, List.mem_cons_self, hholds p hp⟩
      · obtain ⟨piece', hmem, hp⟩ := ih hrest p hp
        exact ⟨piece', List.mem_cons_of_mem _ hmem, hp⟩

/-- The classes are within ASCII. -/
def Pattern.isAscii (pattern : Pattern) : Bool := pattern.all fun piece => piece.ranges.all fun r => r.2.toNat < 0x80

theorem scalar_of_lt {p : CodePoint} (h : p.val < 0x80) : (scalar p).isSome = true := by
  have hvalid : p.val.isValidChar := .inl (by omega)
  rw [scalar, if_pos hvalid]
  rfl

theorem isSome_mapM_scalar (h : ∀ p ∈ ps, (scalar p).isSome = true) : (ps.mapM scalar).isSome = true := by
  induction ps with
  | nil => rfl
  | cons p ps ih =>
      obtain ⟨c, hc⟩ := Option.isSome_iff_exists.mp (h p List.mem_cons_self)
      obtain ⟨cs, hcs⟩ := Option.isSome_iff_exists.mp (ih fun q hq => h q (List.mem_cons_of_mem _ hq))
      rw [List.mapM_cons, hc, hcs]
      rfl

theorem encodes_of_test {s : PyStr} (hascii : pattern.isAscii = true) (h : pattern.test s = true) :
    s.encode.isSome = true := by
  rw [PyStr.encode, Option.isSome_map]
  refine isSome_mapM_scalar fun p hp => scalar_of_lt ?_
  obtain ⟨piece, hpiece, hholds⟩ := holds_of_run h p hp
  obtain ⟨r, hr, hle⟩ := List.any_eq_true.mp hholds
  have hrange := List.all_eq_true.mp (List.all_eq_true.mp hascii piece hpiece) r hr
  have hupper := (of_decide_eq_true hle).2
  have hsmall := of_decide_eq_true hrange
  omega

theorem pyMatch_eq_test {s : PyStr} (h : s.points.getLast? ≠ some newline ∨ pattern.run s.points.dropLast = false) :
    pattern.pyMatch s = pattern.test s := by
  rw [Pattern.pyMatch, Pattern.test]
  rcases h with h | h <;> simp [h]

end Patterns

/-! ## schemas -/

inductive Kind
  | null
  | boolean
  | integer
  | string
  | array
  | object

/-- What is used of the numbers that are not written as integers. -/
class Numbers (F : Type) where
  /-- the integer that a number is -/
  toInt : F → Option Int
  atLeast : Int → F → Bool
  atMost : Int → F → Bool
  atLeast_of_toInt : ∀ {x k}, toInt x = some k → ∀ n, atLeast n x = decide (n ≤ k)
  atMost_of_toInt : ∀ {x k}, toInt x = some k → ∀ n, atMost n x = decide (k ≤ n)

section Kinds

variable {F : Type} [Numbers F]

def Kind.is : Kind → PyValue F → Bool
  | .null, .null => true
  | .boolean, .bool _ => true
  | .integer, .int _ => true
  | .integer, .float x => (Numbers.toInt x).isSome
  | .string, .str _ => true
  | .array, .arr _ => true
  | .object, .obj _ => true
  | _, _ => false

end Kinds

inductive Schema
  | type (kinds : List Kind)
  | enum (texts : List String)
  | pattern (p : Pattern)
  | maxLength (n : Nat)
  | minimum (n : Int)
  | maximum (n : Int)
  | minItems (n : Nat)
  | maxItems (n : Nat)
  | items (schema : Schema)
  | required (names : List String)
  | properties (schemas : List (String × Schema))
  /-- `additionalProperties: false`, beside the properties of these names -/
  | closed (names : List String)
  | allOf (schemas : List Schema)
  | oneOf (schemas : List Schema)
  | not (schema : Schema)
  | ifThen (condition consequence : Schema)

def Schema.const (text : String) : Schema := .enum [text]

section Validity

variable {F : Type} [Numbers F]

/-- `d.get(name)` -/
def item (name : String) (members : List (PyStr × PyValue F)) : Option (PyValue F) := pyItem (PyStr.ofString name) members

omit [Numbers F] in
@[simp] theorem item_nil (name : String) : item name ([] : List (PyStr × PyValue F)) = none := rfl

omit [Numbers F] in
@[simp] theorem item_cons (name key : String) (v : PyValue F) (members : List (PyStr × PyValue F)) :
    item name ((PyStr.ofString key, v) :: members) = if key = name then some v else item name members := by
  by_cases h : key = name <;> simp [item, pyItem, h]

mutual

def Schema.valid : Schema → PyValue F → Bool
  | .type kinds, v => kinds.any fun kind => kind.is v
  | .enum texts, v => match v with
      | .str s => texts.any fun text => s = PyStr.ofString text
      | _ => false
  | .pattern p, v => match v with
      | .str s => p.test s
      | _ => true
  | .maxLength n, v => match v with
      | .str s => s.length ≤ n
      | _ => true
  | .minimum n, v => match v with
      | .int k => n ≤ k
      | .float x => Numbers.atLeast n x
      | _ => true
  | .maximum n, v => match v with
      | .int k => k ≤ n
      | .float x => Numbers.atMost n x
      | _ => true
  | .minItems n, v => match v with
      | .arr vs => n ≤ vs.length
      | _ => true
  | .maxItems n, v => match v with
      | .arr vs => vs.length ≤ n
      | _ => true
  | .items schema, v => match v with
      | .arr vs => vs.all fun v => schema.valid v
      | _ => true
  | .required names, v => match v with
      | .obj members => names.all fun name => (item name members).isSome
      | _ => true
  | .properties schemas, v => match v with
      | .obj members => propertiesValid schemas members
      | _ => true
  | .closed names, v => match v with
      | .obj members => members.all fun m => names.any fun name => m.1 = PyStr.ofString name
      | _ => true
  | .allOf schemas, v => allValid schemas v
  | .oneOf schemas, v => countValid schemas v = 1
  | .not schema, v => !schema.valid v
  | .ifThen condition consequence, v => !condition.valid v || consequence.valid v

def allValid : List Schema → PyValue F → Bool
  | [], _ => true
  | schema :: schemas, v => schema.valid v && allValid schemas v

def countValid : List Schema → PyValue F → Nat
  | [], _ => 0
  | schema :: schemas, v => (if schema.valid v then 1 else 0) + countValid schemas v

def propertiesValid : List (String × Schema) → List (PyStr × PyValue F) → Bool
  | [], _ => true
  | (name, schema) :: schemas, members =>
      ((item name members).all fun v => schema.valid v) && propertiesValid schemas members

end

end Validity

/-! ## variants -/

/-- A closed object with a member that says which one it is, beside further keywords. -/
structure Variant where
  value : String
  required : List String
  properties : List (String × Schema)
  more : List Schema

/-- `type: object` and `additionalProperties: false`, with its members -/
def closedObject (required : List String) (properties : List (String × Schema)) (more : List Schema) : Schema :=
  .allOf (.type [.object] :: .required required :: .properties properties :: .closed (properties.map Prod.fst) :: more)

def Variant.schema (tag : String) (variant : Variant) : Schema :=
  closedObject (tag :: variant.required) ((tag, .const variant.value) :: variant.properties) variant.more

/-- A schema for each variant, of which just one is to hold. -/
def oneOfVariants (tag : String) (variants : List Variant) : Schema := .oneOf (variants.map (Variant.schema tag))

section Variants

variable {F : Type} [Numbers F] {tag : String} {variants : List Variant} {variant : Variant} {v : PyValue F}

theorem valid_const {text : String} : (Schema.const text).valid v = true ↔ v = .str (PyStr.ofString text) := by
  cases v <;> simp [Schema.const, Schema.valid]

theorem valid_closedObject {required : List String} {properties : List (String × Schema)} {more : List Schema} :
    (closedObject required properties more).valid v = true ↔ ∃ members, v = .obj members ∧
      (required.all fun name => (item name members).isSome) = true ∧ propertiesValid properties members = true ∧
      (members.all fun m => properties.any fun p => m.1 = PyStr.ofString p.1) = true ∧ allValid more v = true := by
  rw [closedObject, Schema.valid]
  cases v <;> simp [allValid, Schema.valid, Kind.is, Function.comp_def]

theorem Variant.value_of_valid (h : (variant.schema tag).valid v = true) :
    ∃ members, v = .obj members ∧ item tag members = some (.str (PyStr.ofString variant.value)) := by
  obtain ⟨members, rfl, hrequired, hproperties, -⟩ := valid_closedObject.mp h
  rw [List.all_cons, Bool.and_eq_true] at hrequired
  obtain ⟨w, hw⟩ := Option.isSome_iff_exists.mp hrequired.1
  rw [propertiesValid, Bool.and_eq_true, hw] at hproperties
  rw [valid_const.mp hproperties.1] at hw
  exact ⟨members, rfl, hw⟩

theorem Variant.unique {variant' : Variant} (h : (variant.schema tag).valid v = true)
    (h' : (variant'.schema tag).valid v = true) : variant.value = variant'.value := by
  obtain ⟨members, rfl, hvalue⟩ := Variant.value_of_valid h
  obtain ⟨members', hv, hvalue'⟩ := Variant.value_of_valid h'
  cases hv
  rw [hvalue] at hvalue'
  simpa using hvalue'

theorem countValid_eq_zero (h : ∀ variant ∈ variants, (variant.schema tag).valid v = false) :
    countValid (variants.map (Variant.schema tag)) v = 0 := by
  induction variants with
  | nil => rfl
  | cons variant variants ih =>
      rw [List.map_cons, countValid, h variant List.mem_cons_self, ih fun w hw => h w (List.mem_cons_of_mem _ hw)]
      rfl

/-- With distinct tags a value is valid just when some variant is. -/
theorem valid_oneOf (hnodup : (variants.map Variant.value).Nodup) :
    (oneOfVariants tag variants).valid v = true ↔ ∃ variant ∈ variants, (variant.schema tag).valid v = true := by
  rw [oneOfVariants, Schema.valid, decide_eq_true_iff]
  induction variants with
  | nil => simp [countValid]
  | cons variant variants ih =>
      rw [List.map_cons, List.nodup_cons] at hnodup
      rw [List.map_cons, countValid]
      cases hvalid : (variant.schema tag).valid v with
      | true =>
          have hothers : countValid (variants.map (Variant.schema tag)) v = 0 := by
            refine countValid_eq_zero fun other hother => ?_
            rw [Bool.eq_false_iff]
            intro hsame
            exact hnodup.1 (Variant.unique hvalid hsame ▸ List.mem_map_of_mem hother)
          simp [hothers, hvalid]
      | false =>
          simp [hvalid, ih hnodup.2]

theorem exists_valid_iff (variant : Variant) {members : List (PyStr × PyValue F)} (hnodup : (variants.map Variant.value).Nodup)
    (hmem : variant ∈ variants) (hvalue : item tag members = some (.str (PyStr.ofString variant.value))) :
    (∃ w ∈ variants, (w.schema tag).valid (.obj members) = true) ↔ (variant.schema tag).valid (.obj members) = true := by
  constructor
  · rintro ⟨w, hw, hvalid⟩
    obtain ⟨members', hv, hvalue'⟩ := Variant.value_of_valid hvalid
    cases hv
    rw [hvalue] at hvalue'
    have hsame : variant.value = w.value := by simpa using hvalue'
    rwa [List.inj_on_of_nodup_map hnodup hmem hw hsame]
  · exact fun hvalid => ⟨variant, hmem, hvalid⟩

theorem not_exists_valid
    (h : ∀ variant ∈ variants, ∀ members, v = .obj members → item tag members ≠ some (.str (PyStr.ofString variant.value))) :
    ¬∃ w ∈ variants, (w.schema tag).valid v = true := by
  rintro ⟨w, hw, hvalid⟩
  obtain ⟨members, hv, hvalue⟩ := Variant.value_of_valid hvalid
  exact h w hw members hv hvalue

end Variants

end JsonSchema
