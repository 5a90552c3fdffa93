import Anoryx.StableSelection

/-!
# Anoryx.Keyset

Reading a table page by page, each page from the key of the last row of the one before.

The query asks for one row more than a page has, to see whether there is another page.  The
table may grow between the pages, anywhere; `follow_spec` tells what is read.
-/

namespace Keyset

open StableSelection (sorted pairwise_sorted perm_sorted)

variable {R K B C L : Type} [LinearOrder K] (key : R → K) (holds : R → Bool)

/-- The row comes after the position, the start if there is none. -/
def After (position : Option R) (row : R) : Prop := ∀ last ∈ position, key last < key row

instance (position : Option R) : DecidablePred (After key position) := fun row =>
  match position with
  | none => .isTrue nofun
  | some last => decidable_of_iff (key last < key row) (by simp [After])

/-- A page of the rows that are selected, and its last row if there is another page. -/
def page (select : R → Bool) (limit : Nat) (rows : List R) : List R × Option R :=
  let found := (sorted key (rows.filter select)).take (limit + 1)
  if limit < found.length then (found.take limit, found[limit - 1]?) else (found, none)

/-- The requests that follow one another, each with its limit and the rows that it sees: what the pages
hold, and whether the last one has come. -/
def follow (answer : Option C → L → List R → Option (List B × Option C)) (cursor : Option C) :
    List (L × List R) → Option (List B × Bool)
  | [] => some ([], false)
  | request :: requests => do
      let (data, next) ← answer cursor request.1 request.2
      if next.isNone then return (data, true)
      let (more, ended) ← follow answer next requests
      return (data ++ more, ended)

/-- The table grows from request to request, and no two rows of it have one key. -/
structure Growing (requests : List (L × List R)) : Prop where
  chain : requests.IsChain fun q q' => q.2 ⊆ q'.2
  nodup : ∀ q ∈ requests, (q.2.map key).Nodup

variable {key holds} {select : R → Bool} {limit : Nat} {rows found : List R} {next position : Option R}

theorem pairwise_lt_sorted (h : (rows.map key).Nodup) : (sorted key rows).Pairwise fun r r' => key r < key r' := by
  have hne : (sorted key rows).Pairwise fun r r' => key r ≠ key r' :=
    List.pairwise_map.mp (((perm_sorted rows).map key).nodup_iff.mpr h)
  exact (pairwise_sorted rows).imp₂ (fun _ _ hle hne => lt_of_le_of_ne hle hne) hne

/-- A page is a beginning of what is selected, up to the row that it names. -/
structure IsPage (key : R → K) (select : R → Bool) (rows found : List R) (next : Option R) : Prop where
  ascending : found.Pairwise fun r r' => key r < key r'
  sound : ∀ r ∈ found, r ∈ rows ∧ select r = true
  before : ∀ last ∈ next, last ∈ found ∧ ∀ r ∈ found, key r ≤ key last
  complete : ∀ r ∈ rows, select r = true → r ∈ found ∨ ∃ last ∈ next, key last < key r

/-- A page is what comes next in order. -/
theorem page_spec (hlimit : 1 ≤ limit) (hrows : (rows.map key).Nodup) (h : page key select limit rows = (found, next)) :
    IsPage key select rows found next := by
  have hasc : (sorted key (rows.filter select)).Pairwise fun r r' => key r < key r' :=
    pairwise_lt_sorted (hrows.sublist (List.filter_sublist.map key))
  have hmem (r : R) : r ∈ sorted key (rows.filter select) ↔ r ∈ rows ∧ select r = true :=
    (perm_sorted _).mem_iff.trans List.mem_filter
  simp only [page, List.length_take, List.take_take] at h
  generalize sorted key (rows.filter select) = all at h hasc hmem
  split at h
  · next hmore =>
      obtain ⟨n, rfl⟩ := Nat.exists_eq_add_of_le' hlimit
      have hn : n < all.length := by omega
      obtain ⟨before, last, after, rfl, rfl⟩ : ∃ before last after, all = before ++ last :: after ∧ before.length = n :=
        ⟨all.take n, all[n], all.drop (n + 1), by simp, by simp; omega⟩
      have htake (k : Nat) :
          (before ++ last :: after).take (before.length + (1 + k)) = before ++ last :: after.take k := by
        rw [List.take_length_add_append, Nat.add_comm 1, List.take_succ_cons]
      rw [Nat.min_eq_left (Nat.le_succ _), htake 0, Nat.add_assoc, htake 1] at h
      obtain ⟨rfl, rfl⟩ : before ++ [last] = found ∧ some last = next := by simpa using h
      obtain ⟨hbefore, hafter, hrest⟩ := List.pairwise_append.mp hasc
      have hsub : (before ++ [last]).Sublist (before ++ last :: after) := by simp
      refine ⟨hasc.sublist hsub, fun r hr => (hmem r).mp (hsub.subset hr), ?_, fun r hr hselect => ?_⟩
      · rintro last ⟨rfl⟩
        refine ⟨by simp, fun r hr => ?_⟩
        rcases List.mem_append.mp hr with hr | hr
        · exact (hrest r hr last List.mem_cons_self).le
        · rw [List.mem_singleton.mp hr]
      · rcases List.mem_append.mp ((hmem r).mpr ⟨hr, hselect⟩) with hr | hr
        · exact .inl (List.mem_append_left _ hr)
        · rcases List.mem_cons.mp hr with rfl | hr
          · exact .inl (List.mem_append_right _ (List.mem_singleton_self r))
          · exact .inr ⟨last, rfl, (List.pairwise_cons.mp hafter).1 r hr⟩
  · next hmore =>
      obtain ⟨rfl, rfl⟩ := Prod.mk.inj h
      rw [List.take_of_length_le (by omega)]
      exact ⟨hasc, fun r => (hmem r).mp, nofun, fun r hr hselect => .inl ((hmem r).mpr ⟨hr, hselect⟩)⟩

/-! ## page by page -/

/-- The endpoint answers the start and every cursor of its own with a page, as wide as the limit asks. -/
def Serves (key : R → K) (holds : R → Bool) (body : R → B) (encode : R → C) (width : L → Nat)
    (answer : Option C → L → List R → Option (List B × Option C)) : Prop :=
  ∀ position limit rows, answer (position.map encode) limit rows =
    let (found, next) := page key (fun row => After key position row && holds row) (width limit) rows
    some (found.map body, next.map encode)

variable {body : R → B} {encode : R → C} {width : L → Nat} {answer : Option C → L → List R → Option (List B × Option C)}
  {requests : List (L × List R)}

/-- **Page by page**: what is read is in ascending order, it was in the table, and once the last page has
come it is all that was there at the start. -/
theorem follow_spec (h : Serves key holds body encode width answer) (hwidth : ∀ limit, 1 ≤ width limit)
    (hgrowing : Growing key requests) (position : Option R) :
    ∃ (seen : List R) (ended : Bool), follow answer (position.map encode) requests = some (seen.map body, ended) ∧
      (seen.Pairwise fun r r' => key r < key r') ∧
      (∀ r ∈ seen, After key position r ∧ holds r = true ∧ ∃ q ∈ requests, r ∈ q.2) ∧
      (ended = true → ∀ q ∈ requests.head?, ∀ r ∈ q.2, After key position r → holds r = true → r ∈ seen) := by
  induction requests generalizing position with
  | nil => exact ⟨[], false, rfl, .nil, nofun, nofun⟩
  | cons request requests ih =>
      obtain ⟨hchain, hnodup⟩ := hgrowing
      rw [List.forall_mem_cons] at hnodup
      have ih := ih ⟨hchain.tail, hnodup.2⟩
      rcases hpage : page key (fun row => After key position row && holds row) (width request.1) request.2
        with ⟨found, next⟩
      obtain ⟨hasc, hsound, hbefore, hcomplete⟩ := page_spec (hwidth request.1) hnodup.1 hpage
      simp only [Bool.and_eq_true, decide_eq_true_iff] at hsound hcomplete
      rw [follow, h position request.1 request.2, hpage]
      cases next with
      | none =>
          refine ⟨found, true, rfl, hasc, fun r hr => ?_, ?_⟩
          · exact ⟨(hsound r hr).2.1, (hsound r hr).2.2, request, List.mem_cons_self, (hsound r hr).1⟩
          · rintro - q ⟨rfl⟩ r hr hafter hholds
            exact (hcomplete r hr ⟨hafter, hholds⟩).resolve_right nofun
      | some last =>
          obtain ⟨seen, ended, hfollow, hseen, hmem, hall⟩ := ih (some last)
          have hlast := hbefore last rfl
          refine ⟨found ++ seen, ended, ?_, ?_, ?_, ?_⟩
          · rw [Option.map_some] at hfollow
            simp [hfollow]
          · refine List.pairwise_append.mpr ⟨hasc, hseen, fun r hr r' hr' => ?_⟩
            exact (hlast.2 r hr).trans_lt ((hmem r' hr').1 last rfl)
          · intro r hr
            rcases List.mem_append.mp hr with hr | hr
            · exact ⟨(hsound r hr).2.1, (hsound r hr).2.2, request, List.mem_cons_self, (hsound r hr).1⟩
            · obtain ⟨hafter, hholds, q, hq, hrq⟩ := hmem r hr
              refine ⟨fun p hp => ?_, hholds, q, List.mem_cons_of_mem _ hq, hrq⟩
              exact ((hsound last hlast.1).2.1 p hp).trans (hafter last rfl)
          · rintro hended q ⟨rfl⟩ r hr hafter hholds
            rcases hcomplete r hr ⟨hafter, hholds⟩ with hfound | ⟨_, ⟨rfl⟩, hlt⟩
            · exact List.mem_append_left _ hfound
            · cases requests with
              | nil =>
                  obtain ⟨-, rfl⟩ := Prod.mk.inj (Option.some.inj hfollow)
                  cases hended
              | cons q requests =>
                  have hmore : r ∈ q.2 := (List.isChain_cons_cons.mp hchain).1 hr
                  refine List.mem_append_right _ (hall hended q rfl r hmore ?_ hholds)
                  rintro p ⟨rfl⟩
                  exact hlt

/-- What `follow_spec` says from the start on, of every sequence of requests. -/
def ReadsAll (key : R → K) (holds : R → Bool) (body : R → B)
    (answer : Option C → L → List R → Option (List B × Option C)) : Prop :=
  ∀ requests : List (L × List R), Growing key requests →
    ∃ (seen : List R) (ended : Bool), follow answer none requests = some (seen.map body, ended) ∧
      (seen.Pairwise fun r r' => key r < key r') ∧ (∀ r ∈ seen, holds r = true ∧ ∃ q ∈ requests, r ∈ q.2) ∧
      (ended = true → ∀ q ∈ requests.head?, ∀ r ∈ q.2, holds r = true → r ∈ seen)

/-- Who serves pages by their keys lets everything be read. -/
theorem Serves.readsAll (h : Serves key holds body encode width answer) (hwidth : ∀ limit, 1 ≤ width limit) :
    ReadsAll key holds body answer := by
  intro requests hgrowing
  obtain ⟨seen, ended, hfollow, hasc, hsound, hall⟩ := follow_spec h hwidth hgrowing none
  exact ⟨seen, ended, hfollow, hasc, fun r hr => (hsound r hr).2, fun hended q hq r hr => hall hended q hq r hr nofun⟩

end Keyset
