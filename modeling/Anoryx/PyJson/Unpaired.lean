import Anoryx.PyJson.SortKeys

/-!
# Anoryx.PyJson.Unpaired

The values that Python's `json.loads` really returns.  A `str` is a sequence of code
points, and a surrogate may stand in it without its partner: `"\ud800"` is JSON.

`encode` is `str.encode("utf-8")`, on every text of a value.  It refuses such a text, and
it takes no two texts for one (`PyStr.encode_injective`), so a dictionary stays one
(`PyValue.Distinct.encode`).
-/

namespace PyJson

/-! ## texts -/

abbrev CodePoint := Fin 0x110000

instance neZero_codePoints : NeZero 0x110000 := ⟨Nat.succ_ne_zero _⟩

/-- A `str`: its code points. -/
structure PyStr where
  points : List CodePoint
deriving DecidableEq

/-- The character that a code point is, if it is no surrogate. -/
def scalar (p : CodePoint) : Option Char :=
  if p.val.isValidChar then some (Char.ofNat p.val) else none

namespace PyStr

/-- `encode("utf-8")` -/
def encode (s : PyStr) : Option String := (s.points.mapM scalar).map String.ofList

def ofString (s : String) : PyStr := ⟨s.toList.map fun c => Fin.ofNat _ c.toNat⟩

/-- `len` -/
def length (s : PyStr) : Nat := s.points.length

end PyStr

variable {p : CodePoint} {ps qs : List CodePoint} {cs : List Char} {s s' k : PyStr} {text text' : String}

theorem scalar_eq_some {c : Char} (h : scalar p = some c) : p.val = c.toNat := by
  unfold scalar at h
  split at h
  · next hvalid =>
      have hc : Char.ofNat p.val = c := Option.some.inj h
      rw [← hc, Char.toNat_ofNat, if_pos hvalid]
  · contradiction

theorem scalar_toNat (c : Char) : scalar (Fin.ofNat _ c.toNat) = some c := by
  have hvalid : c.toNat.isValidChar := c.valid
  have hlt : c.toNat < 0x110000 := by grind
  have hval : (Fin.ofNat 0x110000 c.toNat).val = c.toNat := Nat.mod_eq_of_lt hlt
  rw [scalar, hval, if_pos hvalid, Char.ofNat_toNat]

theorem mapM_scalar_toNat (cs : List Char) : (cs.map fun c => Fin.ofNat _ c.toNat).mapM scalar = some cs := by
  induction cs with
  | nil => rfl
  | cons c cs ih => rw [List.map_cons, List.mapM_cons, scalar_toNat, ih]; rfl

theorem mapM_scalar_cons (h : (p :: ps).mapM scalar = some cs) :
    ∃ c cs', scalar p = some c ∧ ps.mapM scalar = some cs' ∧ cs = c :: cs' := by
  rw [List.mapM_cons] at h
  obtain ⟨c, hc, h⟩ := Option.bind_eq_some_iff.mp h
  obtain ⟨cs', hcs, h⟩ := Option.bind_eq_some_iff.mp h
  exact ⟨c, cs', hc, hcs, (Option.some.inj h).symm⟩

theorem mapM_scalar_injective (h : ps.mapM scalar = some cs) (h' : qs.mapM scalar = some cs) : ps = qs := by
  induction ps generalizing qs cs with
  | nil =>
      cases h
      cases qs with
      | nil => rfl
      | cons q qs =>
          obtain ⟨c, cs', -, -, he⟩ := mapM_scalar_cons h'
          cases he
  | cons p ps ih =>
      obtain ⟨c, cs', hc, hcs, rfl⟩ := mapM_scalar_cons h
      cases qs with
      | nil => cases h'
      | cons q qs =>
          obtain ⟨c', cs'', hc', hcs', he⟩ := mapM_scalar_cons h'
          obtain ⟨rfl, rfl⟩ := List.cons.inj he
          have hpq : p = q := Fin.ext (by rw [scalar_eq_some hc, scalar_eq_some hc'])
          rw [hpq, ih hcs hcs']

namespace PyStr

@[simp] theorem encode_ofString (s : String) : (ofString s).encode = some s := by
  rw [encode, ofString, mapM_scalar_toNat]
  simp

theorem encode_injective (h : s.encode = some text) (h' : s'.encode = some text) : s = s' := by
  obtain ⟨cs, hcs, he⟩ := Option.map_eq_some_iff.mp h
  obtain ⟨cs', hcs', he'⟩ := Option.map_eq_some_iff.mp h'
  have hchars : cs = cs' := String.ofList_injective (he.trans he'.symm)
  have hpoints : s.points = s'.points := mapM_scalar_injective hcs (hchars ▸ hcs')
  cases s
  exact congrArg PyStr.mk hpoints

theorem points_ofString (text : String) : (ofString text).points.map Fin.val = text.toList.map Char.toNat := by
  simp only [ofString, List.map_map]
  refine List.map_congr_left fun c _ => ?_
  have hvalid : c.toNat.isValidChar := c.valid
  have hlt : c.toNat < 0x110000 := by grind
  exact Nat.mod_eq_of_lt hlt

/-- Just the texts of Lean strings can be encoded. -/
theorem encode_eq_some : s.encode = some text ↔ s = ofString text := by
  constructor
  · intro h
    exact encode_injective h (encode_ofString text)
  · rintro rfl
    exact encode_ofString text

@[simp] theorem ofString_inj : ofString text = ofString text' ↔ text = text' := by
  constructor
  · intro h
    have hencode := encode_ofString text
    rw [h, encode_ofString] at hencode
    exact (Option.some.inj hencode).symm
  · rintro rfl
    rfl

@[simp] theorem length_ofString (text : String) : (ofString text).length = text.length := by
  rw [length, ofString, List.length_map, String.length_toList]

end PyStr

/-! ## values -/

inductive PyValue (F : Type)
  | null
  | bool (b : Bool)
  | int (n : Int)
  | float (x : F)
  | str (s : PyStr)
  | arr (items : List (PyValue F))
  | obj (members : List (PyStr × PyValue F))

section Values

variable {F : Type}

mutual

/-- The value, if all its texts can be encoded. -/
def PyValue.encode : PyValue F → Option (Value F)
  | .null => some .null
  | .bool b => some (.bool b)
  | .int n => some (.int n)
  | .float x => some (.float x)
  | .str s => s.encode.map .str
  | .arr items => (encodeItems items).map .arr
  | .obj members => (encodeMembers members).map .obj

def encodeItems : List (PyValue F) → Option (List (Value F))
  | [] => some []
  | v :: vs => do
      let v ← v.encode
      let vs ← encodeItems vs
      some (v :: vs)

def encodeMembers : List (PyStr × PyValue F) → Option (List (String × Value F))
  | [] => some []
  | (k, v) :: ms => do
      let k ← k.encode
      let v ← v.encode
      let ms ← encodeMembers ms
      some ((k, v) :: ms)

end

mutual

/-- No key is repeated. -/
def PyValue.Distinct : PyValue F → Prop
  | .arr items => DistinctPyItems items
  | .obj members => (members.map Prod.fst).Nodup ∧ DistinctPyMembers members
  | _ => True

def DistinctPyItems : List (PyValue F) → Prop
  | [] => True
  | v :: vs => v.Distinct ∧ DistinctPyItems vs

def DistinctPyMembers : List (PyStr × PyValue F) → Prop
  | [] => True
  | (_, v) :: ms => v.Distinct ∧ DistinctPyMembers ms

end

variable {ms : List (PyStr × PyValue F)}

theorem DistinctPyMembers.of_mem (h : DistinctPyMembers ms) {p : PyStr × PyValue F}
    (hp : p ∈ ms) : p.2.Distinct := by
  induction ms with
  | nil => cases hp
  | cons m ms ih =>
      rcases List.mem_cons.mp hp with rfl | hp
      · exact h.1
      · exact ih h.2 hp

variable {ns : List (String × Value F)}

theorem encodeMembers_cons {v : PyValue F} (h : encodeMembers ((k, v) :: ms) = some ns) :
    ∃ k' v' ns', k.encode = some k' ∧ v.encode = some v' ∧ encodeMembers ms = some ns' ∧ ns = (k', v') :: ns' := by
  rw [encodeMembers] at h
  obtain ⟨k', hk, h⟩ := Option.bind_eq_some_iff.mp h
  obtain ⟨v', hv, h⟩ := Option.bind_eq_some_iff.mp h
  obtain ⟨ns', hns, h⟩ := Option.bind_eq_some_iff.mp h
  exact ⟨k', v', ns', hk, hv, hns, (Option.some.inj h).symm⟩

theorem mem_keys_encodeMembers (h : encodeMembers ms = some ns) (hmem : text ∈ ns.map Prod.fst) :
    PyStr.ofString text ∈ ms.map Prod.fst := by
  induction ms generalizing ns with
  | nil =>
      cases h
      cases hmem
  | cons m ms ih =>
      obtain ⟨k, v, ns', hk, -, hns, rfl⟩ := encodeMembers_cons h
      rw [List.map_cons, List.mem_cons] at hmem ⊢
      rcases hmem with rfl | hmem
      · exact .inl (PyStr.encode_eq_some.mp hk).symm
      · exact .inr (ih hns hmem)

theorem nodup_encodeMembers
    (h : encodeMembers ms = some ns) (hnodup : (ms.map Prod.fst).Nodup) : (ns.map Prod.fst).Nodup := by
  induction ms generalizing ns with
  | nil =>
      cases h
      exact List.nodup_nil
  | cons m ms ih =>
      obtain ⟨k, v, ns', hk, -, hns, rfl⟩ := encodeMembers_cons h
      rw [List.map_cons, List.nodup_cons] at hnodup ⊢
      refine ⟨fun hmem => hnodup.1 ?_, ih hns hnodup.2⟩
      have hkey : m.1 = PyStr.ofString k := PyStr.encode_eq_some.mp hk
      rw [hkey]
      exact mem_keys_encodeMembers hns hmem

mutual

theorem PyValue.Distinct.encode : (v : PyValue F) → v.Distinct → ∀ w, v.encode = some w → w.Distinct
  | .null, _, _, h | .bool _, _, _, h | .int _, _, _, h | .float _, _, _, h => by
      cases h
      trivial
  | .str s, _, w, h => by
      obtain ⟨text, -, rfl⟩ := Option.map_eq_some_iff.mp h
      trivial
  | .arr items, hd, w, h => by
      obtain ⟨vs, hvs, rfl⟩ := Option.map_eq_some_iff.mp h
      exact DistinctPyItems.encode items hd vs hvs
  | .obj members, hd, w, h => by
      obtain ⟨ms, hms, rfl⟩ := Option.map_eq_some_iff.mp h
      exact ⟨nodup_encodeMembers hms hd.1, DistinctPyMembers.encode members hd.2 ms hms⟩

theorem DistinctPyItems.encode : (vs : List (PyValue F)) → DistinctPyItems vs →
    ∀ ws, encodeItems vs = some ws → DistinctItems ws
  | [], _, ws, h => by
      cases h
      trivial
  | v :: vs, hd, ws, h => by
      rw [encodeItems] at h
      obtain ⟨v', hv, h⟩ := Option.bind_eq_some_iff.mp h
      obtain ⟨vs', hvs, h⟩ := Option.bind_eq_some_iff.mp h
      cases h
      exact ⟨PyValue.Distinct.encode v hd.1 v' hv, DistinctPyItems.encode vs hd.2 vs' hvs⟩

theorem DistinctPyMembers.encode : (ms : List (PyStr × PyValue F)) → DistinctPyMembers ms →
    ∀ ns, encodeMembers ms = some ns → DistinctMembers ns
  | [], _, ns, h => by
      cases h
      trivial
  | (k, v) :: ms, hd, ns, h => by
      obtain ⟨k', v', ns', -, hv, hns, rfl⟩ := encodeMembers_cons h
      exact ⟨PyValue.Distinct.encode v hd.1 v' hv, DistinctPyMembers.encode ms hd.2 ns' hns⟩

end

/-- `d.get(k)` -/
def pyItem (k : PyStr) (ms : List (PyStr × PyValue F)) : Option (PyValue F) :=
  (ms.find? fun p => p.1 = k).map Prod.snd

end Values

end PyJson
