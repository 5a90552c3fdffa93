import Anoryx.PyJson.Unpaired

/-!
# Anoryx.PyJson.Surrogates

Surrogates between `json.dumps` and a reader of its text.

`json.dumps` writes a surrogate as the escape of its own.  Whoever reads the text takes the
escapes of a high surrogate and of the low one behind it for one character (`joined`), and has
no character for a surrogate that stands alone: the joined text can be encoded exactly where
there is none (`isSome_encode_joined`).
-/

namespace PyJson

/-! ## pairs -/

def isHighSurrogate (p : CodePoint) : Bool := 0xd800 ≤ p.val && p.val < 0xdc00

def isLowSurrogate (p : CodePoint) : Bool := 0xdc00 ≤ p.val && p.val < 0xe000

/-- The character that a pair stands for. -/
def joinSurrogates (p q : CodePoint) : CodePoint :=
  Fin.ofNat _ (0x10000 + (p.val - 0xd800) * 0x400 + (q.val - 0xdc00))

def joinPoints : List CodePoint → List CodePoint
  | [] => []
  | [p] => [p]
  | p :: q :: ps =>
      if isHighSurrogate p && isLowSurrogate q then joinSurrogates p q :: joinPoints ps
      else p :: joinPoints (q :: ps)

/-- No surrogate stands alone. -/
def pairedPoints : List CodePoint → Bool
  | [] => true
  | [p] => !isHighSurrogate p && !isLowSurrogate p
  | p :: q :: ps =>
      if isHighSurrogate p then isLowSurrogate q && pairedPoints ps
      else !isLowSurrogate p && pairedPoints (q :: ps)

/-- The text as its escapes are read. -/
def PyStr.joined (s : PyStr) : PyStr := ⟨joinPoints s.points⟩

section Points

variable {p q : CodePoint} {ps : List CodePoint}

theorem scalar_isSome (p : CodePoint) : (scalar p).isSome = (!isHighSurrogate p && !isLowSurrogate p) := by
  have hlt := p.isLt
  unfold scalar
  split
  · next hvalid =>
      rw [Nat.isValidChar] at hvalid
      simp [isHighSurrogate, isLowSurrogate]
      omega
  · next hvalid =>
      rw [Nat.isValidChar] at hvalid
      simp [isHighSurrogate, isLowSurrogate]
      omega

theorem val_joinSurrogates (hp : isHighSurrogate p = true) (hq : isLowSurrogate q = true) :
    0x10000 ≤ (joinSurrogates p q).val := by
  simp [isHighSurrogate, isLowSurrogate] at hp hq
  have hlt : 0x10000 + (p.val - 0xd800) * 0x400 + (q.val - 0xdc00) < 0x110000 := by omega
  rw [joinSurrogates, Fin.val_ofNat, Nat.mod_eq_of_lt hlt]
  omega

theorem mapM_scalar_isSome (ps : List CodePoint) :
    (ps.mapM scalar).isSome = ps.all fun p => (scalar p).isSome := by
  induction ps with
  | nil => rfl
  | cons p ps ih =>
      rw [List.mapM_cons, List.all_cons, ← ih]
      cases scalar p <;> cases ps.mapM scalar <;> rfl

/-- Joining leaves no surrogate just where all stand in pairs. -/
theorem all_joinPoints (ps : List CodePoint) :
    (joinPoints ps).all (fun p => (scalar p).isSome) = pairedPoints ps := by
  fun_induction joinPoints ps with
  | case1 => rfl
  | case2 p => simp [pairedPoints, scalar_isSome]
  | case3 p q ps hpair ih =>
      obtain ⟨hp, hq⟩ := Bool.and_eq_true_iff.mp hpair
      have hjoined := val_joinSurrogates hp hq
      have hscalar : (scalar (joinSurrogates p q)).isSome = true := by
        rw [scalar_isSome]
        simp [isHighSurrogate, isLowSurrogate]
        omega
      rw [List.all_cons, hscalar, ih, pairedPoints, if_pos hp, hq]
  | case4 p q ps hpair ih =>
      rw [List.all_cons, scalar_isSome, ih, pairedPoints]
      by_cases hp : isHighSurrogate p = true
      · simp_all
      · simp_all

theorem joinPoints_eq_self {ps : List CodePoint} (h : ∀ p ∈ ps, (scalar p).isSome = true) : joinPoints ps = ps := by
  fun_induction joinPoints ps with
  | case1 => rfl
  | case2 p => rfl
  | case3 p q ps hpair ih =>
      have hp := h p List.mem_cons_self
      rw [scalar_isSome, (Bool.and_eq_true_iff.mp hpair).1] at hp
      contradiction
  | case4 p q ps hpair ih => rw [ih fun x hx => h x (List.mem_cons_of_mem p hx)]

theorem zero_mem_joinPoints (ps : List CodePoint) : 0 ∈ joinPoints ps ↔ 0 ∈ ps := by
  fun_induction joinPoints ps with
  | case1 => rfl
  | case2 p => rfl
  | case3 p q ps hpair ih =>
      obtain ⟨hp, hq⟩ := Bool.and_eq_true_iff.mp hpair
      have hjoined : 0 ≠ joinSurrogates p q := by
        intro h
        have hle := val_joinSurrogates hp hq
        rw [← h] at hle
        exact absurd hle (by decide)
      have hp0 : 0 ≠ p := by
        rintro rfl
        exact absurd hp (by decide)
      have hq0 : 0 ≠ q := by
        rintro rfl
        exact absurd hq (by decide)
      simp [hjoined, hp0, hq0, ih]
  | case4 p q ps hpair ih => rw [List.mem_cons, List.mem_cons, ih]

end Points

namespace PyStr

theorem isSome_encode (s : PyStr) : s.encode.isSome = s.points.all fun p => (scalar p).isSome := by
  rw [encode, Option.isSome_map, mapM_scalar_isSome]

theorem isSome_encode_joined (s : PyStr) : s.joined.encode.isSome = pairedPoints s.points := by
  rw [isSome_encode, joined, all_joinPoints]

theorem joined_eq_self {s : PyStr} {text : String} (h : s.encode = some text) : s.joined = s := by
  have hall : s.encode.isSome = true := by rw [h]; rfl
  rw [isSome_encode, List.all_eq_true] at hall
  cases s
  exact congrArg mk (joinPoints_eq_self hall)

end PyStr

theorem nul_mem_iff {s : PyStr} {text : String} (h : s.encode = some text) : '\x00' ∈ text.toList ↔ 0 ∈ s.points := by
  have hvals : 0 ∈ s.points ↔ 0 ∈ s.points.map Fin.val := by
    constructor
    · intro hmem
      exact List.mem_map_of_mem hmem
    · intro hmem
      obtain ⟨p, hp, hzero⟩ := List.mem_map.mp hmem
      have hp0 : p = 0 := Fin.ext hzero
      exact hp0 ▸ hp
  rw [hvals, PyStr.encode_eq_some.mp h, PyStr.points_ofString, List.mem_map]
  constructor
  · intro hmem
    exact ⟨'\x00', hmem, rfl⟩
  · rintro ⟨c, hc, hzero⟩
    have hnul : c = '\x00' := Char.toNat_inj.mp hzero
    exact hnul ▸ hc

/-! ## values -/

section Values

variable {F : Type}

mutual

/-- The value as its text is read. -/
def PyValue.joined : PyValue F → PyValue F
  | .null => .null
  | .bool b => .bool b
  | .int n => .int n
  | .float x => .float x
  | .str s => .str s.joined
  | .arr items => .arr (joinItems items)
  | .obj members => .obj (joinMembers members)

def joinItems : List (PyValue F) → List (PyValue F)
  | [] => []
  | v :: vs => v.joined :: joinItems vs

def joinMembers : List (PyStr × PyValue F) → List (PyStr × PyValue F)
  | [] => []
  | (k, v) :: ms => (k.joined, v.joined) :: joinMembers ms

end

mutual

theorem PyValue.joined_eq_self : (v : PyValue F) → ∀ w, v.encode = some w → v.joined = v
  | .null, _, _ | .bool _, _, _ | .int _, _, _ | .float _, _, _ => rfl
  | .str s, w, h => by
      obtain ⟨text, hs, -⟩ := Option.map_eq_some_iff.mp h
      rw [PyValue.joined, PyStr.joined_eq_self hs]
  | .arr items, w, h => by
      obtain ⟨vs, hvs, -⟩ := Option.map_eq_some_iff.mp h
      rw [PyValue.joined, joinItems_eq_self items vs hvs]
  | .obj members, w, h => by
      obtain ⟨ms, hms, -⟩ := Option.map_eq_some_iff.mp h
      rw [PyValue.joined, joinMembers_eq_self members ms hms]

theorem joinItems_eq_self : (vs : List (PyValue F)) → ∀ ws, encodeItems vs = some ws → joinItems vs = vs
  | [], _, _ => rfl
  | v :: vs, ws, h => by
      rw [encodeItems] at h
      obtain ⟨v', hv, h⟩ := Option.bind_eq_some_iff.mp h
      obtain ⟨vs', hvs, -⟩ := Option.bind_eq_some_iff.mp h
      rw [joinItems, PyValue.joined_eq_self v v' hv, joinItems_eq_self vs vs' hvs]

theorem joinMembers_eq_self : (ms : List (PyStr × PyValue F)) → ∀ ns, encodeMembers ms = some ns → joinMembers ms = ms
  | [], _, _ => rfl
  | (k, v) :: ms, ns, h => by
      obtain ⟨k', v', ns', hk, hv, hns, -⟩ := encodeMembers_cons h
      rw [joinMembers, PyStr.joined_eq_self hk, PyValue.joined_eq_self v v' hv, joinMembers_eq_self ms ns' hns]

end

end Values

end PyJson
