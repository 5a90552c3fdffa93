import Anoryx.PyJson.Loads

/-!
# Anoryx.PyJson.SortKeys

`sort_keys=True`: what is written then is the same for two values exactly when they are
the same up to the order of their members (`dumps_sortKeys_iff`).
-/

namespace PyJson

variable {F : Type}

/-! ## sorting the members -/

/-- The order in which members are written. -/
def sortByKey (ms : List (String × Value F)) : List (String × Value F) :=
  ms.insertionSort fun p q => p.1 ≤ q.1

mutual

/-- The value with the members of every object sorted. -/
def Value.sortKeys : Value F → Value F
  | .arr items => .arr (sortItems items)
  | .obj members => .obj (sortByKey (sortMembers members))
  | .null => .null
  | .bool b => .bool b
  | .int n => .int n
  | .float x => .float x
  | .str s => .str s

def sortItems : List (Value F) → List (Value F)
  | [] => []
  | v :: vs => v.sortKeys :: sortItems vs

def sortMembers : List (String × Value F) → List (String × Value F)
  | [] => []
  | (k, v) :: ms => (k, v.sortKeys) :: sortMembers ms

end

theorem sortMembers_eq_map (ms : List (String × Value F)) :
    sortMembers ms = ms.map (Prod.map id Value.sortKeys) := by
  induction ms with
  | nil => rfl
  | cons m ms ih => rw [List.map_cons, ← ih, sortMembers]; rfl

theorem keys_sortMembers (ms : List (String × Value F)) :
    (sortMembers ms).map Prod.fst = ms.map Prod.fst := by
  simp [sortMembers_eq_map]

theorem sortByKey_perm (ms : List (String × Value F)) : (sortByKey ms).Perm ms :=
  List.perm_insertionSort _ ms

theorem sortByKey_pairwise (ms : List (String × Value F)) :
    (sortByKey ms).Pairwise fun p q => p.1 ≤ q.1 := by
  have : Std.Total fun p q : String × Value F => p.1 ≤ q.1 := ⟨fun p q => le_total p.1 q.1⟩
  have : IsTrans (String × Value F) fun p q => p.1 ≤ q.1 := ⟨fun _ _ _ => le_trans⟩
  exact List.pairwise_insertionSort _ ms

theorem nodup_sortByKey {ms : List (String × Value F)} :
    ((sortByKey ms).map Prod.fst).Nodup ↔ (ms.map Prod.fst).Nodup :=
  ((sortByKey_perm ms).map Prod.fst).nodup_iff

variable {ms ns : List (String × Value F)}

theorem sortByKey_congr (hkeys : (ms.map Prod.fst).Nodup)
    (h : ms.Perm ns) : sortByKey ms = sortByKey ns := by
  have hperm := (sortByKey_perm ms).trans (h.trans (sortByKey_perm ns).symm)
  refine hperm.eq_of_pairwise (fun p q hp hq hpq hqp => ?_) (sortByKey_pairwise ms)
    (sortByKey_pairwise ns)
  exact List.inj_on_of_nodup_map hkeys ((sortByKey_perm ms).mem_iff.mp hp)
    (h.mem_iff.mpr ((sortByKey_perm ns).mem_iff.mp hq)) (le_antisymm hpq hqp)

theorem sortByKey_sortByKey (ms : List (String × Value F)) :
    sortByKey (sortByKey ms) = sortByKey ms :=
  (sortByKey_pairwise ms).insertionSort_eq

theorem sortMembers_sortByKey (ms : List (String × Value F)) :
    sortMembers (sortByKey ms) = sortByKey (sortMembers ms) := by
  rw [sortMembers_eq_map, sortMembers_eq_map]
  exact List.map_insertionSort _ _ _ _ fun _ _ _ _ => Iff.rfl

/-! ## distinct keys -/

theorem distinctMembers_iff {ms : List (String × Value F)} :
    DistinctMembers ms ↔ ∀ p ∈ ms, p.2.Distinct := by
  induction ms with
  | nil => simp [DistinctMembers]
  | cons m ms ih => simp [DistinctMembers, ih]

mutual

theorem Value.Distinct.sortKeys : (v : Value F) → v.Distinct → v.sortKeys.Distinct
  | .null, _ | .bool _, _ | .int _, _ | .float _, _ | .str _, _ => trivial
  | .arr items, h => DistinctItems.sortItems items h
  | .obj members, h => by
      refine ⟨nodup_sortByKey.mpr (by rw [keys_sortMembers]; exact h.1), ?_⟩
      have hmembers := DistinctMembers.sortMembers members h.2
      exact distinctMembers_iff.mpr fun p hp =>
        distinctMembers_iff.mp hmembers p ((sortByKey_perm _).mem_iff.mp hp)

theorem DistinctItems.sortItems : (vs : List (Value F)) → DistinctItems vs →
    DistinctItems (sortItems vs)
  | [], _ => trivial
  | v :: vs, h => ⟨Value.Distinct.sortKeys v h.1, DistinctItems.sortItems vs h.2⟩

theorem DistinctMembers.sortMembers : (ms : List (String × Value F)) → DistinctMembers ms →
    DistinctMembers (sortMembers ms)
  | [], _ => trivial
  | (_, v) :: ms, h => ⟨Value.Distinct.sortKeys v h.1, DistinctMembers.sortMembers ms h.2⟩

end

/-! ## the same value -/

mutual

theorem sortKeys_sortKeys : (v : Value F) → v.sortKeys.sortKeys = v.sortKeys
  | .null | .bool _ | .int _ | .float _ | .str _ => rfl
  | .arr items => congrArg Value.arr (sortItems_sortItems items)
  | .obj members => by
      rw [Value.sortKeys, Value.sortKeys, sortMembers_sortByKey, sortMembers_sortMembers members,
        sortByKey_sortByKey]

theorem sortItems_sortItems : (vs : List (Value F)) → sortItems (sortItems vs) = sortItems vs
  | [] => rfl
  | v :: vs => congrArg₂ List.cons (sortKeys_sortKeys v) (sortItems_sortItems vs)

theorem sortMembers_sortMembers : (ms : List (String × Value F)) →
    sortMembers (sortMembers ms) = sortMembers ms
  | [] => rfl
  | (k, v) :: ms =>
      congrArg₂ List.cons (congrArg (Prod.mk k) (sortKeys_sortKeys v)) (sortMembers_sortMembers ms)

end

/-- The same value, up to the order of members. -/
def Same (v w : Value F) : Prop := v.sortKeys = w.sortKeys

theorem Same.symm {v w : Value F} (h : Same v w) : Same w v := Eq.symm h

/-- Sorted texts agree just on values that are equal as Python sees them. -/
theorem dumps_sortKeys_iff [FloatFormat F] (style : Style) {v w : Value F} (hv : v.Distinct)
    (hw : w.Distinct) : dumps style v.sortKeys = dumps style w.sortKeys ↔ Same v w :=
  ⟨dumps_injective (Value.Distinct.sortKeys v hv) (Value.Distinct.sortKeys w hw),
    fun h => congrArg (dumps style) h⟩

/-! ## members -/

/-- `d.get(k)` -/
def getItem (k : String) (ms : List (String × Value F)) : Option (Value F) :=
  (ms.find? fun p => p.1 = k).map Prod.snd

variable {v : Value F}

variable {k s : String}

theorem getItem_eq_some {ms : List (String × Value F)} (hkeys : (ms.map Prod.fst).Nodup) :
    getItem k ms = some v ↔ (k, v) ∈ ms := by
  simp only [getItem, Option.map_eq_some_iff]
  constructor
  · rintro ⟨⟨k', v'⟩, hfind, rfl⟩
    obtain rfl : k' = k := by simpa using List.find?_some hfind
    exact List.mem_of_find?_eq_some hfind
  · intro hmem
    cases hfind : ms.find? fun p => p.1 = k with
    | none => exact absurd (List.find?_eq_none.mp hfind (k, v) hmem) (by simp)
    | some p =>
        have hp : p.1 = k := by simpa using List.find?_some hfind
        exact ⟨p, rfl, congrArg Prod.snd
          (List.inj_on_of_nodup_map hkeys (List.mem_of_find?_eq_some hfind) hmem hp)⟩

@[simp] theorem getItem_cons (k k' : String) (v : Value F) (ms : List (String × Value F)) :
    getItem k ((k', v) :: ms) = if k' = k then some v else getItem k ms := by
  by_cases h : k' = k <;> simp [getItem, h]

/-- A dictionary after an assignment. -/
theorem getItem_setItem (k k' : String) (v : Value F) (ms : List (String × Value F)) :
    getItem k' (setItem k v ms) = if k = k' then some v else getItem k' ms := by
  induction ms with
  | nil => simp [setItem, getItem]
  | cons m ms ih =>
      rw [setItem]
      split <;> grind [getItem_cons]

theorem getItem_tabulate {ks : List String} (hk : k ∈ ks) (f : String → Value F)
    (ms : List (String × Value F)) : getItem k (ks.map (fun k => (k, f k)) ++ ms) = some (f k) := by
  induction ks with
  | nil => simp at hk
  | cons k' ks ih => grind [getItem_cons]

theorem same_obj_iff (hkeys : (ms.map Prod.fst).Nodup) :
    Same (.obj ms) (.obj ns) ↔ (sortMembers ms).Perm (sortMembers ns) := by
  rw [Same, Value.sortKeys, Value.sortKeys, Value.obj.injEq]
  constructor
  · intro h
    exact (sortByKey_perm _).symm.trans (h ▸ sortByKey_perm _)
  · exact sortByKey_congr (by rwa [keys_sortMembers])

theorem Same.keys (h : Same (.obj ms) (.obj ns)) :
    (ms.map Prod.fst).Perm (ns.map Prod.fst) := by
  rw [Same, Value.sortKeys, Value.sortKeys, Value.obj.injEq] at h
  have hms := (sortByKey_perm (sortMembers ms)).map Prod.fst
  have hns := (sortByKey_perm (sortMembers ns)).map Prod.fst
  rw [keys_sortMembers] at hms hns
  exact hms.symm.trans (h ▸ hns)

theorem Same.getItem (hkeys : (ms.map Prod.fst).Nodup) (h : Same (.obj ms) (.obj ns))
    (hv : getItem k ms = some v) : ∃ w, PyJson.getItem k ns = some w ∧ Same v w := by
  have hmem : (k, v.sortKeys) ∈ sortMembers ns := by
    rw [← ((same_obj_iff hkeys).mp h).mem_iff, sortMembers_eq_map]
    exact List.mem_map_of_mem (f := Prod.map id Value.sortKeys) ((getItem_eq_some hkeys).mp hv)
  rw [sortMembers_eq_map, List.mem_map] at hmem
  obtain ⟨⟨k', w⟩, hw, he⟩ := hmem
  obtain ⟨rfl, hsame⟩ := Prod.mk.injEq .. ▸ he
  exact ⟨w, (getItem_eq_some ((h.keys.nodup_iff).mp hkeys)).mpr hw, hsame.symm⟩

/-- Neither a list nor a dictionary. -/
def Value.IsScalar : Value F → Prop
  | .arr _ | .obj _ => False
  | _ => True

theorem Value.IsScalar.distinct (h : v.IsScalar) : v.Distinct := by
  cases v <;> simp_all [Value.IsScalar, Value.Distinct]

theorem Same.eq_of_isScalar {v w : Value F} (h : Same v w) (hv : v.IsScalar) : w = v := by
  cases v <;> cases w <;> simp_all [Same, Value.sortKeys, Value.IsScalar]

theorem Same.getItem_scalar (hkeys : (ms.map Prod.fst).Nodup) (h : Same (.obj ms) (.obj ns))
    (hv : v.IsScalar) (hget : PyJson.getItem k ms = some v) : PyJson.getItem k ns = some v := by
  obtain ⟨w, hw, hsame⟩ := h.getItem hkeys hget
  rw [hw, hsame.eq_of_isScalar hv]

theorem Same.getItem_str (hkeys : (ms.map Prod.fst).Nodup) (h : Same (.obj ms) (.obj ns))
    (hs : PyJson.getItem k ms = some (.str s)) : PyJson.getItem k ns = some (.str s) :=
  h.getItem_scalar hkeys trivial hs

end PyJson
