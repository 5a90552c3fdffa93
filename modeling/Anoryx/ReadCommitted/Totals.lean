import Anoryx.ReadCommitted.Table

/-!
# Anoryx.ReadCommitted.Totals

What the rows that a reader finds add up to.

`total_eq_sum` turns the SUM of a scan into a sum over keys, which makes it monotone in what
is found under each key (`total_le`) and says what one row that changes does to it
(`total_change`).
-/

namespace ReadCommitted

namespace Table

variable {K V : Type}

/-- `SELECT SUM(f) …`, over the rows that a reader finds. -/
def total (tbl : Table K V) (read : K → Option V) (f : V → Nat) : Nat :=
  ((tbl.list read).map fun p => f p.2).sum

/-- What is found under one key adds to a total. -/
def share (f : V → Nat) (row : Option V) : Nat := row.elim 0 f

@[simp] theorem share_none (f : V → Nat) : share f none = 0 := rfl

@[simp] theorem share_some (f : V → Nat) (v : V) : share f (some v) = f v := rfl

variable {tbl tbl' : Table K V} {read read' : K → Option V} {f : V → Nat}

theorem total_eq_sum_keys : tbl.total read f = (tbl.keys.map fun k => share f (read k)).sum := by
  unfold total list
  induction tbl.keys with
  | nil => rfl
  | cons k keys ih =>
      cases hk : read k with
      | none => simpa [List.filterMap_cons, hk] using ih
      | some v => simpa [List.filterMap_cons, hk] using ih

variable [DecidableEq K]

theorem total_eq_sum (h : tbl.Reads read) {keys : Finset K} (hkeys : tbl.keys.toFinset ⊆ keys) :
    tbl.total read f = ∑ k ∈ keys, share f (read k) := by
  rw [total_eq_sum_keys, ← List.sum_toFinset _ tbl.nodup]
  refine Finset.sum_subset hkeys fun k _ hk => ?_
  rw [h k fun hmem => hk (List.mem_toFinset.mpr hmem), share_none]

/-- A total grows with the shares. -/
theorem total_le (h : tbl.Reads read) (h' : tbl'.Reads read') (hle : ∀ k, share f (read k) ≤ share f (read' k)) :
    tbl.total read f ≤ tbl'.total read' f := by
  have hsub : tbl.keys.toFinset ⊆ tbl.keys.toFinset ∪ tbl'.keys.toFinset := Finset.subset_union_left
  have hsub' : tbl'.keys.toFinset ⊆ tbl.keys.toFinset ∪ tbl'.keys.toFinset := Finset.subset_union_right
  rw [total_eq_sum h hsub, total_eq_sum h' hsub']
  exact Finset.sum_le_sum fun k _ => hle k

variable {k : K} {p : K → Bool}

theorem total_change (h : tbl.Reads read) (h' : tbl'.Reads read') (hother : ∀ k', k' ≠ k → read' k' = read k') :
    tbl'.total read' f + share f (read k) = tbl.total read f + share f (read' k) := by
  have hsub : tbl.keys.toFinset ⊆ insert k (tbl.keys.toFinset ∪ tbl'.keys.toFinset) :=
    fun x hx => Finset.mem_insert_of_mem (Finset.mem_union_left _ hx)
  have hsub' : tbl'.keys.toFinset ⊆ insert k (tbl.keys.toFinset ∪ tbl'.keys.toFinset) :=
    fun x hx => Finset.mem_insert_of_mem (Finset.mem_union_right _ hx)
  have hmem : k ∈ insert k (tbl.keys.toFinset ∪ tbl'.keys.toFinset) := Finset.mem_insert_self _ _
  rw [total_eq_sum h hsub, total_eq_sum h' hsub', ← Finset.sum_erase_add _ _ hmem, ← Finset.sum_erase_add _ _ hmem]
  have hrest : ∑ k' ∈ (insert k (tbl.keys.toFinset ∪ tbl'.keys.toFinset)).erase k, share f (read' k') =
      ∑ k' ∈ (insert k (tbl.keys.toFinset ∪ tbl'.keys.toFinset)).erase k, share f (read k') :=
    Finset.sum_congr rfl fun k' hk' => by rw [hother k' (Finset.ne_of_mem_erase hk')]
  omega

omit [DecidableEq K] in
theorem total_ite (tbl : Table K V) (read : K → Option V) (p : V → Bool) (f : V → Nat) :
    tbl.total read (fun v => if p v then f v else 0) = ((tbl.rowsOf read p).map fun q => f q.2).sum := by
  unfold total rowsOf
  induction tbl.list read with
  | nil => rfl
  | cons q rows ih =>
      cases hp : p q.2 <;> simp_all

/-! ## counting rows by their keys -/

/-- `SELECT count(*) …`, over the rows that a reader finds under some of the keys. -/
def countKeys (tbl : Table K V) (read : K → Option V) (p : K → Bool) : Nat :=
  ((tbl.list read).filter fun row => p row.1).length

omit [DecidableEq K] in
theorem countKeys_eq_length (tbl : Table K V) (read : K → Option V) (p : K → Bool) :
    tbl.countKeys read p = (((tbl.list read).map Prod.fst).filter p).length := by
  rw [countKeys, List.filter_map, List.length_map]
  rfl

omit [DecidableEq K] in
theorem mem_listed (h : tbl.Reads read) :
    k ∈ ((tbl.list read).map Prod.fst).filter p ↔ (read k).isSome = true ∧ p k = true := by
  rw [List.mem_filter, List.mem_map, Option.isSome_iff_exists]
  constructor
  · rintro ⟨⟨⟨k', v⟩, hmem, rfl⟩, hp⟩
    exact ⟨⟨v, (mem_list h).mp hmem⟩, hp⟩
  · rintro ⟨⟨v, hv⟩, hp⟩
    exact ⟨⟨(k, v), (mem_list h).mpr hv, rfl⟩, hp⟩

omit [DecidableEq K] in
theorem countKeys_congr (h : tbl.Reads read) (h' : tbl'.Reads read')
    (hsame : ∀ k, p k = true → (read k).isSome = (read' k).isSome) :
    tbl.countKeys read p = tbl'.countKeys read' p := by
  rw [countKeys_eq_length, countKeys_eq_length]
  refine List.Perm.length_eq ((List.perm_ext_iff_of_nodup ((nodup_list tbl read).filter _)
    ((nodup_list tbl' read').filter _)).mpr fun k => ?_)
  rw [mem_listed h, mem_listed h']
  constructor
  · rintro ⟨hk, hp⟩
    exact ⟨hsame k hp ▸ hk, hp⟩
  · rintro ⟨hk, hp⟩
    exact ⟨(hsame k hp).symm ▸ hk, hp⟩

omit [DecidableEq K] in
theorem countKeys_succ (h : tbl.Reads read) (h' : tbl'.Reads read') (hp : p k = true) (hnone : read k = none)
    (hsome : (read' k).isSome = true) (hother : ∀ k', k' ≠ k → p k' = true → (read k').isSome = (read' k').isSome) :
    tbl'.countKeys read' p = tbl.countKeys read p + 1 := by
  rw [countKeys_eq_length, countKeys_eq_length, ← List.length_cons (a := k)]
  have hnew : k ∉ ((tbl.list read).map Prod.fst).filter p := by
    rw [mem_listed h, hnone]
    simp
  refine List.Perm.length_eq ((List.perm_ext_iff_of_nodup ((nodup_list tbl' read').filter _)
    (List.nodup_cons.mpr ⟨hnew, (nodup_list tbl read).filter _⟩)).mpr fun k' => ?_)
  rw [List.mem_cons, mem_listed h, mem_listed h']
  by_cases hk : k' = k
  · subst hk
    simp [hp, hsome]
  · have := hother k' hk
    grind

end Table

/-! ## totals of groups -/

/-- A sum is bounded by the bounds of its groups. -/
theorem sum_le_sum_of_groups {A G : Type} [DecidableEq G] (group : A → G) (f : A → Nat) (bound : G → Nat) {groups : List G}
    {rows : List A} (hgroup : ∀ a ∈ rows, group a ∈ groups)
    (hbound : ∀ g ∈ groups, ((rows.filter fun a => group a = g).map f).sum ≤ bound g) :
    (rows.map f).sum ≤ (groups.map bound).sum := by
  induction groups generalizing rows with
  | nil =>
      have hempty : rows = [] := List.eq_nil_iff_forall_not_mem.mpr fun a ha => List.not_mem_nil (hgroup a ha)
      simp [hempty]
  | cons g groups ih =>
      have hsplit : ((rows.filter fun a => group a = g).map f).sum + ((rows.filter fun a => group a ≠ g).map f).sum =
          (rows.map f).sum := by
        clear hgroup hbound ih
        induction rows with
        | nil => rfl
        | cons a rows ih =>
            by_cases ha : group a = g <;> simp_all <;> omega
      have hrest : ((rows.filter fun a => group a ≠ g).map f).sum ≤ (groups.map bound).sum := by
        refine ih (fun a ha => ?_) fun g' hg' => ?_
        · obtain ⟨hrow, hne⟩ := List.mem_filter.mp ha
          rcases List.mem_cons.mp (hgroup a hrow) with he | hmem
          · exact absurd he (of_decide_eq_true hne)
          · exact hmem
        · refine Nat.le_trans (List.Sublist.sum_le_sum ?_ fun _ _ => Nat.zero_le _) (hbound g' (List.mem_cons_of_mem g hg'))
          exact (List.Sublist.filter _ List.filter_sublist).map f
      have hfirst := hbound g List.mem_cons_self
      rw [List.map_cons, List.sum_cons]
      omega

end ReadCommitted
