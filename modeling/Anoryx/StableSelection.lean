import Anoryx.StableSort

/-!
# Anoryx.StableSelection

The first of a stable sort by a key, brought into another order.

`select` takes them and `listed` tells their names in the other order.  Both are blind to the
order of the list just when no two that could be taken tie, but for the last place
(`settled_iff`).
-/

namespace StableSelection

variable {α κ σ ι : Type} [LinearOrder κ] [LinearOrder σ] (key : α → κ) (rank : α → σ) (name : α → ι) (k : Nat)

def sorted (xs : List α) : List α := xs.insertionSort fun x y => key x ≤ key y

def select (xs : List α) : List α := (sorted key xs).take k

/-- The names of those that are taken, in the order of their ranks. -/
def listed (xs : List α) : List ι := ((select key k xs).insertionSort fun x y => rank x ≤ rank y).map name

/-- How many come before `x` in any case. -/
def ahead (xs : List α) (x : α) : Nat := xs.countP fun y => key y < key x

/-- Two that could both be taken have different keys and names, or are one and tie for the last place. -/
def Apart (xs : List α) (x y : α) : Prop :=
  ahead key xs x < k → ahead key xs y < k →
    if key x = key y then name x = name y ∧ ahead key xs x + 1 = k else name x ≠ name y

def Settled (xs : List α) : Prop := xs.Pairwise (Apart key name k xs)

variable {key rank name k} {xs ys rest : List α} {x y : α}

/-! ## sorting by a key -/

theorem pairwise_sorted (xs : List α) : (sorted key xs).Pairwise fun x y => key x ≤ key y :=
  have : Std.Total fun x y : α => key x ≤ key y := ⟨fun x y => le_total (key x) (key y)⟩
  have : IsTrans α fun x y => key x ≤ key y := ⟨fun _ _ _ => le_trans⟩
  List.pairwise_insertionSort _ xs

theorem perm_sorted (xs : List α) : (sorted key xs).Perm xs := List.perm_insertionSort _ xs

theorem sorted_cons (x : α) (xs : List α) : sorted key (x :: xs) =
    ((sorted key xs).filter fun y => key y < key x) ++ x :: (sorted key xs).filter fun y => key x ≤ key y := by
  have h : (sorted key xs).Pairwise fun x y => key x ≤ key y := pairwise_sorted xs
  show (sorted key xs).orderedInsert _ x = _
  generalize sorted key xs = ys at h
  induction ys with
  | nil => rfl
  | cons y ys ih =>
      rw [List.pairwise_cons] at h
      by_cases hxy : key x ≤ key y
      · have hall : ∀ z ∈ y :: ys, key x ≤ key z := List.forall_mem_cons.mpr ⟨hxy, fun z hz => hxy.trans (h.1 z hz)⟩
        rw [List.orderedInsert_cons_of_le (fun x y => key x ≤ key y) _ hxy,
          List.filter_eq_nil_iff.mpr fun z hz => by simpa using hall z hz,
          List.filter_eq_self.mpr fun z hz => decide_eq_true (hall z hz), List.nil_append]
      · rw [List.orderedInsert_of_not_le (fun x y => key x ≤ key y) _ hxy, ih h.2,
          List.filter_cons_of_pos (by simpa using hxy), List.filter_cons_of_neg (by simpa using hxy), List.cons_append]

theorem ahead_of_perm (h : xs.Perm ys) (x : α) : ahead key xs x = ahead key ys x := h.countP_eq _

theorem ahead_getElem_le {i : Nat} (hi : i < (sorted key xs).length) : ahead key xs (sorted key xs)[i] ≤ i := by
  have h : (sorted key xs).Pairwise fun x y => key x ≤ key y := pairwise_sorted xs
  have heq : ahead key (sorted key xs) (sorted key xs)[i] = ahead key xs (sorted key xs)[i] :=
    ahead_of_perm (perm_sorted xs) _
  rw [← heq]
  generalize sorted key xs = ys at h hi
  have hnone : (ys.drop i).countP (fun y => key y < key ys[i]) = 0 := by
    refine List.countP_eq_zero.mpr fun y hy => ?_
    rw [List.drop_eq_getElem_cons hi] at hy
    have hrest := h.sublist (List.drop_sublist i ys)
    rw [List.drop_eq_getElem_cons hi, List.pairwise_cons] at hrest
    rcases List.mem_cons.mp hy with rfl | hy
    · simp
    · simpa using hrest.1 y hy
  calc ahead key ys ys[i] = (ys.take i ++ ys.drop i).countP fun y => key y < key ys[i] := by
        rw [List.take_append_drop]
        rfl
    _ ≤ (ys.take i).length := by
        rw [List.countP_append, hnone]
        exact List.countP_le_length
    _ ≤ i := List.length_take_le i ys

theorem insertionSort_of_const {r : α → α → Prop} [DecidableRel r] (h : ∀ x ∈ xs, ∀ y ∈ xs, r x y) :
    xs.insertionSort r = xs :=
  List.Pairwise.insertionSort_eq (List.pairwise_of_forall_mem_list h)

/-- The first of its key is selected if fewer than `k` are ahead. -/
theorem mem_select (hfirst : (xs.filter fun y => key y = key x).head? = some x) (hahead : ahead key xs x < k) :
    x ∈ select key k xs := by
  have : Std.Total fun x y : α => key x ≤ key y := ⟨fun x y => le_total (key x) (key y)⟩
  have : IsTrans α fun x y => key x ≤ key y := ⟨fun _ _ _ => le_trans⟩
  obtain ⟨rest, hfirst⟩ := List.head?_eq_some_iff.mp hfirst
  have hfilter : ((sorted key xs).filter fun y => key y = key x) = x :: rest := by
    rw [sorted, StableSort.filter_insertionSort, ← hfirst]
    refine insertionSort_of_const fun y hy z hz => ?_
    rw [of_decide_eq_true (List.mem_filter.mp hy).2, of_decide_eq_true (List.mem_filter.mp hz).2]
  obtain ⟨before, after, heq, hbefore, -, -⟩ := List.filter_eq_cons_iff.mp hfilter
  have hpair : (sorted key xs).Pairwise fun x y => key x ≤ key y := pairwise_sorted xs
  have hle : before.length ≤ ahead key xs x := by
    have hahead : ahead key (sorted key xs) x = ahead key xs x := ahead_of_perm (perm_sorted xs) x
    rw [← hahead, ahead, heq, List.countP_append]
    have hall : before.countP (fun y => key y < key x) = before.length := by
      refine List.countP_eq_length.mpr fun y hy => decide_eq_true (lt_of_le_of_ne ?_ (by simpa using hbefore y hy))
      rw [heq, List.pairwise_append] at hpair
      exact hpair.2.2 y hy x List.mem_cons_self
    rw [hall]
    exact Nat.le_add_right _ _
  rw [select, heq, List.mem_take_iff_getElem]
  exact ⟨before.length, by simp; omega, by simp⟩

/-! ## the selection -/

theorem apart_symm (h : Apart key name k xs x y) : Apart key name k xs y x := by
  intro hy hx
  have h := h hx hy
  by_cases hkey : key x = key y
  · rw [if_pos hkey] at h
    rw [if_pos hkey.symm]
    exact ⟨h.1.symm, by rw [ahead, ← hkey]; exact h.2⟩
  · rw [if_neg hkey] at h
    rw [if_neg (Ne.symm hkey)]
    exact h.symm

/-- A settled selection does not depend on the order. -/
theorem Settled.select_eq (h : Settled key name k xs) (hinj : ∀ x y, key x = key y → name x = name y → x = y)
    (hperm : ys.Perm xs) : select key k ys = select key k xs := by
  have hkeys : (sorted key ys).map key = (sorted key xs).map key := by
    have hsorted : (sorted key ys).Perm (sorted key xs) :=
      (perm_sorted ys).trans (hperm.trans (perm_sorted xs).symm)
    refine List.Perm.eq_of_pairwise' (r := fun a b : κ => a ≤ b) ?_ ?_ (hsorted.map key)
    · exact List.pairwise_map.mpr (pairwise_sorted ys)
    · exact List.pairwise_map.mpr (pairwise_sorted xs)
  have hlength : (sorted key ys).length = (sorted key xs).length := by simpa using congrArg List.length hkeys
  refine List.ext_getElem (by rw [select, select, List.length_take, List.length_take, hlength]) fun i hi hi' => ?_
  rw [select, List.length_take, Nat.lt_min] at hi hi'
  simp only [select, List.getElem_take]
  have hkey : key (sorted key ys)[i] = key (sorted key xs)[i] := by
    have heq := List.getElem_of_eq hkeys (i := i) (by simpa using hi.2)
    simpa using heq
  by_contra hne
  have hmem : (sorted key ys)[i] ∈ xs := hperm.mem_iff.mp ((perm_sorted ys).mem_iff.mp (List.getElem_mem hi.2))
  have : Std.Symm (Apart key name k xs) := ⟨fun _ _ => apart_symm⟩
  have hapart := List.Pairwise.forall h hmem ((perm_sorted xs).mem_iff.mp (List.getElem_mem hi'.2)) hne
  have hahead : ahead key xs (sorted key xs)[i] < k := (ahead_getElem_le hi'.2).trans_lt hi.1
  have hsame := hapart (by rw [ahead, hkey]; exact hahead) hahead
  rw [if_pos hkey] at hsame
  exact hne (hinj _ _ hkey hsame.1)

theorem Settled.nodup (h : Settled key name k xs) : ((select key k xs).map name).Nodup := by
  have hall : (sorted key xs).Pairwise (Apart key name k xs) :=
    ((perm_sorted xs).pairwise_iff apart_symm).mpr h
  refine List.pairwise_map.mpr (List.pairwise_iff_getElem.mpr fun i j hi hj hij => ?_)
  rw [select, List.length_take, Nat.lt_min] at hi hj
  simp only [select, List.getElem_take]
  have hahead : ahead key xs (sorted key xs)[i] ≤ i := ahead_getElem_le hi.2
  have hapart := List.pairwise_iff_getElem.mp hall i j hi.2 hj.2 hij (hahead.trans_lt hi.1)
    ((ahead_getElem_le hj.2).trans_lt hj.1)
  split at hapart
  · omega
  · exact hapart

theorem perm_listed (xs : List α) : (listed key rank name k xs).Perm ((select key k xs).map name) :=
  (List.perm_insertionSort _ _).map name

theorem eq_of_map_eq {zs : List α} (hnodup : (zs.map name).Nodup) (hx : xs ⊆ zs) (hy : ys ⊆ zs)
    (h : xs.map name = ys.map name) : xs = ys := by
  induction xs generalizing ys with
  | nil => exact (List.map_eq_nil_iff.mp h.symm).symm
  | cons x xs ih =>
      rcases ys with _ | ⟨y, ys⟩
      · cases h
      · obtain ⟨hhead, htail⟩ := List.cons.inj h
        rw [List.cons_subset] at hx hy
        rw [List.inj_on_of_nodup_map hnodup hx.1 hy.1 hhead, ih hx.2 hy.2 htail]

theorem filter_ranked (hrank : ∀ x y, key x = key y → rank x = rank y) (x : α) (zs : List α) :
    ((zs.insertionSort fun x y => rank x ≤ rank y).filter fun y => key y = key x) =
      zs.filter fun y => key y = key x := by
  have : Std.Total fun x y : α => rank x ≤ rank y := ⟨fun x y => le_total (rank x) (rank y)⟩
  have : IsTrans α fun x y => rank x ≤ rank y := ⟨fun _ _ _ => le_trans⟩
  rw [StableSort.filter_insertionSort]
  refine insertionSort_of_const fun y hy z hz => le_of_eq (hrank y z ?_)
  rw [of_decide_eq_true (List.mem_filter.mp hy).2, of_decide_eq_true (List.mem_filter.mp hz).2]

/-- A tie that does not show is of one name, and over the last place. -/
theorem apart_of_tie (hrank : ∀ x y, key x = key y → rank x = rank y) (hkey : key x = key y)
    (hahead : ahead key (x :: y :: rest) x < k)
    (hsame : listed key rank name k (x :: y :: rest) = listed key rank name k (y :: x :: rest))
    (hnodup : ((select key k (x :: y :: rest)).map name).Nodup) :
    name x = name y ∧ ahead key (x :: y :: rest) x + 1 = k := by
  have hsorted (x y : α) (hkey : key x = key y) : sorted key (x :: y :: rest) =
      ((sorted key rest).filter fun z => key z < key y) ++
        x :: y :: (sorted key rest).filter fun z => key y ≤ key z := by
    rw [sorted_cons, sorted_cons y]
    simp [List.filter_append, List.filter_filter, hkey, ← not_le]
  have hlength : ahead key (x :: y :: rest) x = ((sorted key rest).filter fun z => key z < key y).length := by
    rw [ahead, ← List.countP_eq_length_filter, (perm_sorted rest).countP_eq]
    simp [hkey]
  have hfirst := hsorted x y hkey
  have hsecond := hsorted y x hkey.symm
  simp only [hkey] at hsecond
  generalize ((sorted key rest).filter fun z => key z < key y) = before at hfirst hsecond hlength
  generalize ((sorted key rest).filter fun z => key y ≤ key z) = after at hfirst hsecond
  obtain ⟨n, rfl⟩ : ∃ n, k = before.length + (n + 1) := ⟨k - before.length - 1, by omega⟩
  have hperm := (perm_listed (x :: y :: rest)).symm.trans ((List.Perm.of_eq hsame).trans (perm_listed (y :: x :: rest)))
  rw [select, hfirst, List.take_length_add_append] at hnodup
  rw [select, select, hfirst, hsecond, List.take_length_add_append, List.take_length_add_append] at hperm
  rcases n with _ | n
  · simp only [List.map_append, List.perm_append_left_iff] at hperm
    refine ⟨?_, by omega⟩
    simpa using hperm
  · exfalso
    rw [listed, listed, select, select, hfirst, hsecond, List.take_length_add_append,
      List.take_length_add_append] at hsame
    simp only [List.take_succ_cons] at hsame hnodup
    have heq := eq_of_map_eq hnodup (List.perm_insertionSort _ _).subset
      ((List.perm_insertionSort _ _).trans (List.Perm.append_left before (List.Perm.swap x y _))).subset hsame
    have hfilter := congrArg (List.filter fun z => key z = key x) heq
    rw [filter_ranked hrank, filter_ranked hrank] at hfilter
    simp only [List.filter_append, List.append_cancel_left_eq] at hfilter
    have hxy : x = y := by simp [hkey] at hfilter; exact hfilter.1
    rw [hxy] at hnodup
    simp [List.nodup_append] at hnodup

/-- **What is listed** depends on no order and has no name twice just when it is settled. -/
theorem settled_iff (hinj : ∀ x y, key x = key y → name x = name y → x = y)
    (hrank : ∀ x y, key x = key y → rank x = rank y) :
    Settled key name k xs ↔ (∀ ys, ys.Perm xs → listed key rank name k ys = listed key rank name k xs) ∧
      (listed key rank name k xs).Nodup := by
  constructor
  · intro h
    refine ⟨fun ys hperm => by rw [listed, listed, h.select_eq hinj hperm], ?_⟩
    exact (perm_listed xs).nodup_iff.mpr h.nodup
  · rintro ⟨hsame, hnodup⟩
    refine List.pairwise_iff_forall_sublist.mpr fun {x y} hsub => ?_
    obtain ⟨rest, hperm⟩ := hsub.exists_perm_append
    have hperm : (x :: y :: rest).Perm xs := hperm.symm
    have hselect : ((select key k (x :: y :: rest)).map name).Nodup := by
      have heq : (listed key rank name k (x :: y :: rest)).Nodup := by rwa [hsame _ hperm]
      exact (perm_listed _).nodup_iff.mp heq
    intro hx hy
    rw [← ahead_of_perm hperm] at hx hy ⊢
    split
    · next hkey =>
        refine apart_of_tie hrank hkey hx ?_ hselect
        rw [hsame _ hperm, hsame _ ((List.Perm.swap x y rest).trans hperm)]
    · next hkey =>
        intro hname
        have hmemx : x ∈ select key k (x :: y :: rest) :=
          mem_select (by simp) hx
        have hmemy : y ∈ select key k (x :: y :: rest) :=
          mem_select (by simp [hkey]) hy
        exact hkey (congrArg key (List.inj_on_of_nodup_map hselect hmemx hmemy hname))

/-! ## what is taken -/

theorem sorted_map {β : Type} (f : β → α) (zs : List β) :
    sorted key (zs.map f) = (sorted (fun z => key (f z)) zs).map f :=
  (List.map_insertionSort _ _ f zs fun _ _ _ _ => Iff.rfl).symm

theorem listed_map {β : Type} (f : β → α) (zs : List β) : listed key rank name k (zs.map f) =
    listed (fun z => key (f z)) (fun z => rank (f z)) (fun z => name (f z)) k zs := by
  rw [listed, select, sorted_map, ← List.map_take]
  exact (congrArg (List.map name) (sorted_map f _)).trans List.map_map

theorem listed_eq_map (key : α → κ) (rank : α → σ) (name : α → ι) (k : Nat) (xs : List α) :
    ∃ taken rest : List α, (taken ++ rest).Perm xs ∧ taken.length = min k xs.length ∧
    listed key rank name k xs = taken.map name ∧ (taken.Pairwise fun x y => rank x ≤ rank y) ∧
    ∀ x ∈ taken, ∀ y ∈ rest, key x ≤ key y := by
  have hperm : ((select key k xs).insertionSort fun x y => rank x ≤ rank y).Perm (select key k xs) :=
    List.perm_insertionSort _ _
  refine ⟨_, (sorted key xs).drop k, ?_, ?_, rfl, pairwise_sorted (select key k xs), fun x hx y hy => ?_⟩
  · exact (hperm.append_right _).trans ((List.Perm.of_eq (List.take_append_drop k _)).trans (perm_sorted xs))
  · rw [hperm.length_eq, select, List.length_take, (perm_sorted xs).length_eq]
  · have hpair : (sorted key xs).Pairwise fun x y => key x ≤ key y := pairwise_sorted xs
    rw [← List.take_append_drop k (sorted key xs), List.pairwise_append] at hpair
    exact hpair.2.2 x (hperm.subset hx) y hy

theorem mem_take_iff {zs : List κ} {z : κ} (h : zs.Pairwise (· < ·)) (hz : z ∈ zs) :
    z ∈ zs.take k ↔ zs.countP (· < z) < k := by
  induction zs generalizing k with
  | nil => cases hz
  | cons a zs ih =>
      rw [List.pairwise_cons] at h
      cases k with
      | zero => simp
      | succ k =>
          rcases List.mem_cons.mp hz with rfl | hz
          · have hnone : zs.countP (· < z) = 0 :=
              List.countP_eq_zero.mpr fun y hy => by simpa using (h.1 y hy).le
            simp [hnone]
          · have haz := h.1 z hz
            simp [ih h.2 hz, haz, haz.ne']

end StableSelection
