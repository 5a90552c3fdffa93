import Mathlib

/-!
# Anoryx.Delta.WeightSplit

The split of an amount over the target weights of its classes (`_split_by_weights` of
`investments/service.py`).

Each class gets its share rounded down; what is left goes, a unit each, to the classes that
lost most.  The weights are exact here.
-/

namespace Anoryx.Delta.Investments

variable {K : Type}

/-- `int(v)`, towards zero. -/
def truncate (v : ℚ) : Int := v.num.tdiv v.den

/-- What `int(v)` takes from `v`. -/
def lost (v : ℚ) : ℚ := v - truncate v

/-- `xs[:n]` -/
def sliceTo {α : Type} (n : Int) (xs : List α) : List α :=
  if 0 ≤ n then xs.take n.toNat else xs.take (xs.length - n.natAbs)

/-- `raw` -/
def shares (total : Int) (weights : List (K × ℚ)) : List (K × ℚ) := weights.map fun p => (p.1, total * p.2)

def floors (total : Int) (weights : List (K × ℚ)) : List (K × Int) :=
  (shares total weights).map fun p => (p.1, truncate p.2)

def remainder (total : Int) (weights : List (K × ℚ)) : Int :=
  total - ((floors total weights).map Prod.snd).sum

/-- `ranked`: those that lost most are the first, and of equal ones the first. -/
def ranked (total : Int) (weights : List (K × ℚ)) : List (K × ℚ) :=
  (shares total weights).insertionSort fun p q => lost q.2 ≤ lost p.2

/-- `result[k] += 1` -/
def increment [DecidableEq K] (k : K) (result : List (K × Int)) : List (K × Int) :=
  result.map fun p => if p.1 = k then (p.1, p.2 + 1) else p

def splitByWeights [DecidableEq K] (total : Int) (weights : List (K × ℚ)) : List (K × Int) :=
  (sliceTo (remainder total weights) (ranked total weights)).foldl (fun result p => increment p.1 result)
    (floors total weights)

/-- How often a class is among those that get a unit. -/
def units [DecidableEq K] (bumped : List (K × ℚ)) (k : K) : Int := (bumped.map Prod.fst).count k

/-- A weight for each class, and one in all. -/
structure Allocation (K : Type) where
  weights : List (K × ℚ)
  nodup : (weights.map Prod.fst).Nodup
  nonneg : ∀ p ∈ weights, 0 ≤ p.2
  sum_eq_one : (weights.map Prod.snd).sum = 1

/-! ## rounding -/

variable {v f : ℚ} {fs : List ℚ}

theorem truncate_eq_floor (h : 0 ≤ v) : truncate v = ⌊v⌋ := by
  rw [truncate, Rat.floor_def', Int.tdiv_eq_ediv_of_nonneg (Rat.num_nonneg.mpr h)]

theorem lost_nonneg (h : 0 ≤ v) : 0 ≤ lost v := by
  rw [lost, truncate_eq_floor h, sub_nonneg]
  exact Int.floor_le v

theorem lost_lt_one (h : 0 ≤ v) : lost v < 1 := by
  rw [lost, truncate_eq_floor h, sub_lt_iff_lt_add']
  exact Int.lt_floor_add_one v

theorem ceil_of_lost_pos (h : 0 ≤ v) (hlost : 0 < lost v) : truncate v + 1 = ⌈v⌉ := by
  rw [lost, truncate_eq_floor h, sub_pos] at hlost
  rw [truncate_eq_floor h, eq_comm, Int.ceil_eq_iff]
  push_cast
  exact ⟨by linarith, (Int.lt_floor_add_one v).le⟩

/-! ## the largest remainders -/

theorem pos_of_mem_take {n : Nat} (hsorted : fs.Pairwise fun a b => b ≤ a) (hlt : ∀ f ∈ fs, f < 1)
    (hnonneg : ∀ f ∈ fs, 0 ≤ f) (hsum : fs.sum = n) (hle : n ≤ fs.length) (hf : f ∈ fs.take n) : 0 < f := by
  refine lt_of_le_of_ne (hnonneg f (List.mem_of_mem_take hf)) fun hzero => ?_
  -- whatever comes after `f` is nothing, and what comes before is too little
  have hrest : (fs.drop n).sum = 0 := by
    refine List.sum_eq_zero fun g hg => le_antisymm ?_ (hnonneg g (List.mem_of_mem_drop hg))
    rw [← List.take_append_drop n fs, List.pairwise_append] at hsorted
    exact hzero ▸ hsorted.2.2 f hf g hg
  have hfirst : (fs.take n).sum < n := by
    have hone : ∀ g ∈ fs.take n, g < 1 := fun g hg => hlt g (List.mem_of_mem_take hg)
    have hsmall : ((fs.take n).map id).sum < ((fs.take n).map fun _ => (1 : ℚ)).sum :=
      List.sum_lt_sum _ _ (fun g hg => (hone g hg).le) ⟨f, hf, hone f hf⟩
    simpa [List.length_take, Nat.min_eq_left hle] using hsmall
  have hall : fs.sum = (fs.take n).sum + (fs.drop n).sum := by rw [← List.sum_append, List.take_append_drop]
  linarith

theorem le_length_of_sum {n : Nat} (hlt : ∀ f ∈ fs, f < 1) (hsum : fs.sum = n) : n ≤ fs.length := by
  have h : fs.sum ≤ fs.length • (1 : ℚ) := List.sum_le_card_nsmul fs 1 fun f hf => (hlt f hf).le
  rw [hsum, nsmul_one] at h
  exact_mod_cast h

/-! ## the increments -/

section Units

variable [DecidableEq K]

theorem foldl_increment (bumped : List (K × ℚ)) (result : List (K × Int)) :
    bumped.foldl (fun result p => increment p.1 result) result = result.map fun p => (p.1, p.2 + units bumped p.1) := by
  induction bumped generalizing result with
  | nil => simp [units]
  | cons b bumped ih =>
      rw [List.foldl_cons, ih, increment, List.map_map]
      refine List.map_congr_left fun p _ => ?_
      show ((if p.1 = b.1 then (p.1, p.2 + 1) else p : K × Int).1, _) = _
      rw [units, units, List.map_cons, List.count_cons]
      by_cases hp : p.1 = b.1
      · simp only [hp, if_true, beq_self_eq_true, Prod.mk.injEq, true_and]
        push_cast
        omega
      · simp [hp, Ne.symm hp]

theorem sum_indicator (k : K) (keys : List K) : (keys.map fun k' => if k = k' then 1 else 0).sum = keys.count k := by
  induction keys with
  | nil => rfl
  | cons k' keys ih =>
      rw [List.map_cons, List.sum_cons, ih, List.count_cons, Nat.add_comm]
      by_cases hk : k = k'
      · simp [hk]
      · simp [hk, Ne.symm hk]

theorem sum_count {keys ks : List K} (hnodup : keys.Nodup) (h : ∀ k ∈ ks, k ∈ keys) :
    (keys.map fun k => ks.count k).sum = ks.length := by
  induction ks with
  | nil => simp
  | cons k ks ih =>
      rw [List.forall_mem_cons] at h
      simp only [List.count_cons, List.sum_map_add, ih h.2, List.length_cons, beq_iff_eq]
      rw [sum_indicator, List.count_eq_one_of_mem hnodup h.1]

end Units

/-! ## the split -/

section Split

variable (a : Allocation K) (total : Nat)

theorem nonneg_of_mem_shares {p : K × ℚ} (h : p ∈ shares total a.weights) : 0 ≤ p.2 := by
  obtain ⟨q, hq, rfl⟩ := List.mem_map.mp h
  exact mul_nonneg (Nat.cast_nonneg total) (a.nonneg q hq)

theorem map_fst_shares (n : Int) (weights : List (K × ℚ)) : (shares n weights).map Prod.fst = weights.map Prod.fst := by
  rw [shares, List.map_map]
  rfl

theorem sum_shares : ((shares total a.weights).map Prod.snd).sum = total := by
  rw [shares, List.map_map]
  show (a.weights.map fun p => ((total : Int) : ℚ) * p.2).sum = total
  rw [List.sum_map_mul_left, a.sum_eq_one, mul_one, Int.cast_natCast]

theorem sum_lost : ((shares total a.weights).map fun p => lost p.2).sum = remainder total a.weights := by
  have h : ((shares total a.weights).map fun p => lost p.2).sum =
      ((shares total a.weights).map Prod.snd).sum - ((floors total a.weights).map Prod.snd).sum := by
    rw [floors, List.map_map]
    generalize shares total a.weights = xs
    induction xs with
    | nil => simp
    | cons x xs ih =>
        rw [List.map_cons, List.sum_cons, ih, List.map_cons, List.sum_cons, List.map_cons, List.sum_cons, Int.cast_add, lost]
        show x.2 - truncate x.2 + _ = x.2 + _ - (truncate x.2 + _)
        ring
  rw [h, sum_shares, remainder]
  push_cast
  ring

theorem perm_ranked : (ranked total a.weights).Perm (shares total a.weights) := List.perm_insertionSort _ _

/-- What the rounding left over is a number of units, no more than the classes, and those that come first
have all lost something. -/
theorem exists_remainder : ∃ n : Nat, remainder total a.weights = n ∧ n ≤ (ranked total a.weights).length ∧
    ∀ p ∈ (ranked total a.weights).take n, 0 < lost p.2 := by
  have hmem : ∀ p ∈ ranked total a.weights, 0 ≤ p.2 := fun p hp =>
    nonneg_of_mem_shares a total ((perm_ranked a total).mem_iff.mp hp)
  have hsum : ((ranked total a.weights).map fun p => lost p.2).sum = remainder total a.weights := by
    rw [← sum_lost]
    exact ((perm_ranked a total).map _).sum_eq
  have hnonneg : ∀ f ∈ (ranked total a.weights).map fun p => lost p.2, 0 ≤ f := by
    rw [List.forall_mem_map]
    exact fun p hp => lost_nonneg (hmem p hp)
  have hlt : ∀ f ∈ (ranked total a.weights).map fun p => lost p.2, f < 1 := by
    rw [List.forall_mem_map]
    exact fun p hp => lost_lt_one (hmem p hp)
  have hsorted : ((ranked total a.weights).map fun p => lost p.2).Pairwise fun x y => y ≤ x := by
    rw [List.pairwise_map]
    exact List.pairwise_insertionSort (fun p q : K × ℚ => lost q.2 ≤ lost p.2) _
  have hleft : 0 ≤ remainder total a.weights := by
    have h := List.sum_nonneg hnonneg
    rw [hsum] at h
    exact_mod_cast h
  obtain ⟨n, hn⟩ := Int.eq_ofNat_of_zero_le hleft
  rw [hn, Int.cast_natCast] at hsum
  have hle := le_length_of_sum hlt hsum
  refine ⟨n, hn, by rwa [List.length_map] at hle, fun p hp => ?_⟩
  refine pos_of_mem_take hsorted hlt hnonneg hsum hle ?_
  rw [← List.map_take]
  exact List.mem_map_of_mem hp

/-- **The split.**  The parts are of the classes that have a weight, and are the total in all; each is
its share rounded down or up, and nothing where the weight is nothing. -/
theorem split_by_weights [DecidableEq K] :
    (splitByWeights total a.weights).map Prod.fst = a.weights.map Prod.fst ∧
    ((splitByWeights total a.weights).map Prod.snd).sum = total ∧
    ∀ k w, (k, w) ∈ a.weights → ∃ part, (k, part) ∈ splitByWeights total a.weights ∧
      (part = ⌊total * w⌋ ∨ part = ⌈total * w⌉) ∧ (w = 0 → part = 0) := by
  obtain ⟨n, hn, hle, hpos⟩ := exists_remainder a total
  have hnodup : ((ranked total a.weights).map Prod.fst).Nodup := by
    rw [((perm_ranked a total).map _).nodup_iff, map_fst_shares]
    exact a.nodup
  have hsplit : splitByWeights total a.weights = (floors total a.weights).map fun p =>
      (p.1, p.2 + units ((ranked total a.weights).take n) p.1) := by
    rw [splitByWeights, foldl_increment, sliceTo, hn, if_pos (Int.natCast_nonneg n), Int.toNat_natCast]
  have hkeys : (floors total a.weights).map Prod.fst = a.weights.map Prod.fst := by
    rw [← map_fst_shares total, floors, List.map_map]
    rfl
  refine ⟨?_, ?_, ?_⟩
  · rw [hsplit, List.map_map, ← hkeys]
    rfl
  · have hfirst : ((floors total a.weights).map Prod.fst).Nodup := hkeys ▸ a.nodup
    have htaken : ((ranked total a.weights).take n).map Prod.fst ⊆ (floors total a.weights).map Prod.fst := by
      intro k hk
      rw [hkeys, ← map_fst_shares total, ← ((perm_ranked a total).map Prod.fst).mem_iff]
      exact List.map_subset _ (List.take_subset n _) hk
    have hcount := sum_count hfirst htaken
    rw [List.map_map, List.length_map, List.length_take, Nat.min_eq_left hle] at hcount
    have hunits : ((floors total a.weights).map fun p => units ((ranked total a.weights).take n) p.1).sum = n := by
      have h := congrArg (Nat.cast : Nat → Int) hcount
      rw [Nat.cast_list_sum, List.map_map] at h
      exact h
    rw [hsplit, List.map_map]
    show ((floors total a.weights).map fun p => p.2 + units ((ranked total a.weights).take n) p.1).sum = total
    rw [List.sum_map_add, hunits, ← hn, remainder]
    ring
  · intro k w hmem
    have hshare : (k, (total : ℚ) * w) ∈ shares total a.weights := by
      rw [shares, Int.cast_natCast]
      exact List.mem_map.mpr ⟨_, hmem, rfl⟩
    have hv := nonneg_of_mem_shares a total hshare
    refine ⟨truncate (total * w) + units ((ranked total a.weights).take n) k, ?_, ?_⟩
    · rw [hsplit, floors, List.map_map]
      exact List.mem_map.mpr ⟨_, hshare, rfl⟩
    · by_cases hk : k ∈ ((ranked total a.weights).take n).map Prod.fst
      · -- the share that was rounded up is the one of this class
        obtain ⟨⟨k', v⟩, hp, rfl⟩ := List.mem_map.mp hk
        have hsame : v = total * w := by
          have h := List.inj_on_of_nodup_map hnodup (List.mem_of_mem_take hp)
            ((perm_ranked a total).mem_iff.mpr hshare) rfl
          exact (Prod.mk.inj h).2
        have hlost := hpos _ hp
        have hone := List.count_eq_one_of_mem (hnodup.sublist ((List.take_sublist n _).map _)) hk
        rw [hsame] at hlost
        rw [units, hone, Nat.cast_one, ceil_of_lost_pos hv hlost]
        refine ⟨.inr rfl, ?_⟩
        rintro rfl
        simp
      · rw [units, List.count_eq_zero_of_not_mem hk, Nat.cast_zero, add_zero, truncate_eq_floor hv]
        refine ⟨.inl rfl, ?_⟩
        rintro rfl
        simp

end Split

/-! ## a profile -/

/-- `_TARGET_ALLOCATIONS["moderate"]` -/
def moderateWeights : List (String × ℚ) :=
  [("stocks", 45 / 100), ("bonds", 35 / 100), ("real_estate", 10 / 100), ("cash_equivalents", 8 / 100),
    ("crypto", 2 / 100), ("other", 0)]

theorem nodup_moderateWeights : (moderateWeights.map Prod.fst).Nodup := by decide

theorem moderateWeights_nonneg : ∀ p ∈ moderateWeights, 0 ≤ p.2 := by decide +kernel

theorem sum_moderateWeights : (moderateWeights.map Prod.snd).sum = 1 := by decide +kernel

def moderate : Allocation String :=
  ⟨moderateWeights, nodup_moderateWeights, moderateWeights_nonneg, sum_moderateWeights⟩

/-- 10.17 for a moderate profile: three units are left, and go to bonds, real estate and stocks. -/
theorem split_by_weights_sample :
    splitByWeights 1017 moderate.weights = [("stocks", 458), ("bonds", 356), ("real_estate", 102),
      ("cash_equivalents", 81), ("crypto", 20), ("other", 0)] ∧
    ((splitByWeights 1017 moderate.weights).map Prod.snd).sum = 1017 ∧
    (∃ part, ("bonds", part) ∈ splitByWeights 1017 moderate.weights ∧
      (part = ⌊((1017 : Nat) : ℚ) * (35 / 100)⌋ ∨ part = ⌈((1017 : Nat) : ℚ) * (35 / 100)⌉)) ∧
    ∃ part, ("other", part) ∈ splitByWeights 1017 moderate.weights ∧ part = 0 := by
  obtain ⟨-, hsum, hparts⟩ := split_by_weights moderate 1017
  obtain ⟨bonds, hbonds, heither, -⟩ := hparts "bonds" (35 / 100) (by decide +kernel)
  obtain ⟨other, hother, -, hzero⟩ := hparts "other" 0 (by decide +kernel)
  exact ⟨by decide +kernel, hsum, ⟨bonds, hbonds, heither⟩, other, hother, hzero rfl⟩

end Anoryx.Delta.Investments
