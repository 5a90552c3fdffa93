import Mathlib

/-!
# Anoryx.Paging

Reading a growing list page by page.

The rows are in the order of their positions, and a reader asks for some rows after the
last position that it has seen.  What it has read is a beginning of the list; it stays one
while rows are added at the end, and a page takes it on (`append_page`).
-/

namespace Paging

variable {R : Type}

/-- The first rows after a position. -/
def page (cursor : Option Nat) (limit : Nat) (rows : List (Nat × R)) : List (Nat × R) :=
  (rows.filter fun row => cursor.all (· < row.1)).take limit

/-- The last position of what was read. -/
def lastPosition (seen : List (Nat × R)) : Option Nat := seen.getLast?.map Prod.fst

variable {seen rest rows : List (Nat × R)}

theorem take_page {cursor : Option Nat} {limit limit' : Nat} (h : limit ≤ limit') :
    (page cursor limit' rows).take limit = page cursor limit rows := by
  rw [page, page, List.take_take, Nat.min_eq_left h]

theorem filter_after_lastPosition (hsorted : (seen ++ rest).Pairwise fun p q => p.1 < q.1) :
    ((seen ++ rest).filter fun row => (lastPosition seen).all (· < row.1)) = rest := by
  obtain ⟨hseen, -, hbefore⟩ := List.pairwise_append.mp hsorted
  rcases List.eq_nil_or_concat' seen with rfl | ⟨seen', last, rfl⟩
  · simp [lastPosition]
  · have hlast : lastPosition (seen' ++ [last]) = some last.1 := by simp [lastPosition]
    obtain ⟨-, -, hfirst⟩ := List.pairwise_append.mp hseen
    have hold : (seen' ++ [last]).filter (fun row => (some last.1).all (· < row.1)) = [] := by
      refine List.filter_eq_nil_iff.mpr fun row hrow => ?_
      have hle : row.1 ≤ last.1 := by
        rcases List.mem_append.mp hrow with hmem | hmem
        · exact (hfirst row hmem last (List.mem_singleton_self last)).le
        · rw [List.mem_singleton.mp hmem]
      simpa using hle
    have hnew : rest.filter (fun row => (some last.1).all (· < row.1)) = rest := by
      refine List.filter_eq_self.mpr fun row hrow => ?_
      simpa using hbefore last (List.mem_append_right _ (List.mem_singleton_self last)) row hrow
    rw [hlast, List.filter_append, hold, hnew, List.nil_append]

/-- **The next page**: nothing twice and nothing left out, and less than was asked for only
where the list ends. -/
theorem append_page (h : seen <+: rows) (hsorted : rows.Pairwise fun p q => p.1 < q.1) (limit : Nat) :
    seen ++ page (lastPosition seen) limit rows <+: rows ∧
      ((page (lastPosition seen) limit rows).length = limit ∨ seen ++ page (lastPosition seen) limit rows = rows) := by
  obtain ⟨rest, rfl⟩ := h
  have hpage : page (lastPosition seen) limit (seen ++ rest) = rest.take limit := by
    rw [page, filter_after_lastPosition hsorted]
  rw [hpage, List.length_take]
  refine ⟨(List.prefix_append_right_inj seen).mpr (List.take_prefix limit rest), ?_⟩
  by_cases hlimit : limit ≤ rest.length
  · exact .inl (Nat.min_eq_left hlimit)
  · rw [List.take_of_length_le (Nat.le_of_not_le hlimit)]
    exact .inr rfl

end Paging
