import Anoryx.ReadCommitted.Table

/-!
# Anoryx.ReadCommitted.Family

A table of rows that belong to the rows of another one, and are written by whoever has the
row lock of the row they belong to.

`Guards` is what holds between any two statements; a row and its children are then a
`Family` that nobody but the holder of the row moves: `Guards.visible` says that the others
find it as it is committed, and `Keeps` that the holder may rely on that.
-/

namespace ReadCommitted

namespace Table

variable {K V X W : Type}

section Family

variable (parent : W → K)

/-- A row of `b` is written under the row lock of its parent in `a`, and keeps its parent. -/
structure Guards (a : Table K V) (b : Table X W) : Prop where
  held : ∀ x t w, b.inflight x = some (t, w) → ∃ v, a.inflight (parent w) = some (t, v)
  fixed : ∀ x t w w', b.inflight x = some (t, w) → b.committed x = some w' → parent w' = parent w

/-- Two readers find the same row under `k`, with the same children. -/
structure Family (k : K) (read : K → Option V) (readChildren : X → Option W) (read' : K → Option V)
    (readChildren' : X → Option W) : Prop where
  row : read k = read' k
  children : ∀ x w, parent w = k → (readChildren x = some w ↔ readChildren' x = some w)

/-- What a transaction `u` may rely on: its own rows, and the families of the rows it holds. -/
structure Keeps (u : Txn) (a : Table K V) (b : Table X W) (a' : Table K V) (b' : Table X W) : Prop where
  own : Frame u a a'
  ownChildren : Frame u b b'
  family : ∀ k v, a.inflight k = some (u, v) → Family parent k a.committed b.committed a'.committed b'.committed

/-- The children of a row that a reader finds. -/
def children [DecidableEq K] (b : Table X W) (read : X → Option W) (k : K) : Multiset (X × W) :=
  b.rowsOf read fun w => parent w = k

end Family

variable {parent : W → K} {a a' a'' : Table K V} {b b' b'' : Table X W} {t u : Txn} {k : K}

theorem Family.refl (k : K) (read : K → Option V) (readChildren : X → Option W) :
    Family parent k read readChildren read readChildren := ⟨rfl, fun _ _ _ => Iff.rfl⟩

variable {read read' read'' : K → Option V} {children children' children'' : X → Option W}

theorem Family.symm (h : Family parent k read children read' children') :
    Family parent k read' children' read children :=
  ⟨h.row.symm, fun x w hw => (h.children x w hw).symm⟩

theorem Family.trans (h : Family parent k read children read' children')
    (h' : Family parent k read' children' read'' children'') : Family parent k read children read'' children'' :=
  ⟨h.row.trans h'.row, fun x w hw => (h.children x w hw).trans (h'.children x w hw)⟩

theorem mem_children [DecidableEq K] {read : X → Option W} (h : b.Reads read) {p : X × W} :
    p ∈ b.children parent read k ↔ read p.1 = some p.2 ∧ parent p.2 = k := by
  rw [children, Multiset.mem_coe, mem_rowsOf h, decide_eq_true_iff]

/-- Families that read alike list the same children. -/
theorem Family.children_eq [DecidableEq K] (h : Family parent k read children read' children') (hb : b.Reads children)
    (hb' : b'.Reads children') : b.children parent children k = b'.children parent children' k :=
  Multiset.coe_eq_coe.mpr (rowsOf_perm hb hb' fun x w hw => h.children x w (of_decide_eq_true hw))

theorem children_committed_write [DecidableEq K] [DecidableEq X] (b : Table X W) (t : Txn) (x : X) (w : W) :
    (b.write t x w).children parent (b.write t x w).committed k = b.children parent b.committed k :=
  Multiset.coe_eq_coe.mpr (rowsOf_perm (b.write t x w).reads_committed b.reads_committed fun _ _ _ => Iff.rfl)

theorem Keeps.refl (u : Txn) (a : Table K V) (b : Table X W) : Keeps parent u a b a b :=
  ⟨Frame.refl u a, Frame.refl u b, fun k _ _ => Family.refl k _ _⟩

theorem Keeps.trans (h : Keeps parent u a b a' b') (h' : Keeps parent u a' b' a'' b'') :
    Keeps parent u a b a'' b'' :=
  ⟨h.own.trans h'.own, h.ownChildren.trans h'.ownChildren,
    fun k v hv => (h.family k v hv).trans (h'.family k v ((h.own.inflight k v).mp hv))⟩

/-- A held parent keeps its family from the others. -/
theorem Keeps.visible (h : Keeps parent u a b a' b') {v : V}
    (hk : a.inflight k = some (u, v)) : Family parent k (a.visible u) (b.visible u) (a'.visible u) (b'.visible u) := by
  refine ⟨?_, fun x w hw => ?_⟩
  · rw [visible_of_inflight hk, visible_of_inflight ((h.own.inflight k v).mp hk)]
  rcases visible_cases b u x with ⟨w', hin, hvisible⟩ | ⟨hno, hvisible⟩
  · rw [hvisible, visible_of_inflight ((h.ownChildren.inflight x w').mp hin)]
  · rw [hvisible, visible_of_no_inflight fun w' hin => hno w' ((h.ownChildren.inflight x w').mpr hin)]
    exact (h.family k v hk).children x w hw

/-- **Who does not hold a row finds its family as it is committed.** -/
theorem Guards.visible (h : Guards parent a b) (hk : ∀ v, a.inflight k ≠ some (t, v)) :
    Family parent k (a.visible t) (b.visible t) a.committed b.committed := by
  refine ⟨visible_of_no_inflight hk, fun x w hw => ?_⟩
  rcases visible_cases b t x with ⟨w', hin, hvisible⟩ | ⟨-, hvisible⟩
  · obtain ⟨v, hv⟩ := h.held x t w' hin
    have hother : parent w' ≠ k := fun he => hk v (he ▸ hv)
    constructor
    · intro hrow
      obtain rfl : w' = w := Option.some.inj (hvisible.symm.trans hrow)
      exact absurd hw hother
    · intro hrow
      exact absurd ((h.fixed x t w' w hin hrow).symm.trans hw) hother
  · rw [hvisible]

/-! ## the end of a transaction -/

theorem Guards.commit (h : Guards parent a b) (t : Txn) : Guards parent (a.commit t) (b.commit t) where
  held x u w hin := by
    obtain ⟨hin, hu⟩ := inflight_commit_eq_some.mp hin
    obtain ⟨v, hv⟩ := h.held x u w hin
    exact ⟨v, inflight_commit_eq_some.mpr ⟨hv, hu⟩⟩
  fixed x u w w' hin hc := by
    obtain ⟨hin, hu⟩ := inflight_commit_eq_some.mp hin
    rw [committed_commit, visible_of_inflight_ne hin hu] at hc
    exact h.fixed x u w w' hin hc

theorem Guards.rollback (h : Guards parent a b) (t : Txn) : Guards parent (a.rollback t) (b.rollback t) where
  held x u w hin := by
    obtain ⟨hin, hu⟩ := inflight_rollback_eq_some.mp hin
    obtain ⟨v, hv⟩ := h.held x u w hin
    exact ⟨v, inflight_rollback_eq_some.mpr ⟨hv, hu⟩⟩
  fixed x u w w' hin hc := h.fixed x u w w' (inflight_rollback_eq_some.mp hin).1 hc

theorem Guards.keeps_commit (h : Guards parent a b) (hu : u ≠ t) :
    Keeps parent u a b (a.commit t) (b.commit t) := by
  refine ⟨frame_commit a hu, frame_commit b hu, fun k v hv => (h.visible fun v' hv' => hu ?_).symm⟩
  exact congrArg Prod.fst (Option.some.inj (hv.symm.trans hv'))

theorem keeps_rollback (a : Table K V) (b : Table X W) (hu : u ≠ t) :
    Keeps parent u a b (a.rollback t) (b.rollback t) :=
  ⟨frame_rollback a hu, frame_rollback b hu, fun k _ _ => Family.refl k _ _⟩

/-! ## the writes -/

theorem Guards.write_parent [DecidableEq K] (h : Guards parent a b) (hfree : a.free t k = true) (v : V) :
    Guards parent (a.write t k v) b ∧ ∀ u, u ≠ t → Keeps parent u a b (a.write t k v) b := by
  refine ⟨⟨fun x u w hin => ?_, h.fixed⟩, fun u hu => ⟨frame_write hu hfree, Frame.refl u b, fun k _ _ => Family.refl k _ _⟩⟩
  obtain ⟨v', hv'⟩ := h.held x u w hin
  by_cases hk : parent w = k
  · obtain rfl : u = t := free_iff.mp hfree u v' (hk ▸ hv')
    exact ⟨v, hk ▸ inflight_write_self a u (parent w) v⟩
  · exact ⟨v', (inflight_write_of_ne hk).trans hv'⟩

/-- A child is written under its held parent. -/
theorem Guards.write_child [DecidableEq X] (h : Guards parent a b) {x : X} {w : W} {v : V}
    (hfree : b.free t x = true) (hheld : a.inflight (parent w) = some (t, v))
    (hfixed : ∀ w', b.committed x = some w' → parent w' = parent w) :
    Guards parent a (b.write t x w) ∧ ∀ u, u ≠ t → Keeps parent u a b a (b.write t x w) := by
  have hversion : ∀ x' u w', (b.write t x w).inflight x' = some (u, w') →
      (x' = x ∧ u = t ∧ w' = w) ∨ b.inflight x' = some (u, w') := by
    intro x' u w' hin
    exact (inflight_write_cases hin).imp_right And.right
  refine ⟨⟨fun x' u w' hin => ?_, fun x' u w' w'' hin hc => ?_⟩,
    fun u hu => ⟨Frame.refl u a, frame_write hu hfree, fun k _ _ => Family.refl k _ _⟩⟩
  · rcases hversion x' u w' hin with ⟨-, rfl, rfl⟩ | hin
    · exact ⟨v, hheld⟩
    · exact h.held x' u w' hin
  · rcases hversion x' u w' hin with ⟨rfl, -, rfl⟩ | hin
    · exact hfixed w'' hc
    · exact h.fixed x' u w' w'' hin hc

theorem rowsOf_visible_rewrite [DecidableEq X] {p : W → Bool} {x : X} {w w' : W} {rest : List (X × W)}
    (hrest : (b.rowsOf (b.visible t) p).Perm ((x, w) :: rest)) (hsel : p w' = true) :
    ((b.write t x w').rowsOf ((b.write t x w').visible t) p).Perm ((x, w') :: rest) := by
  have hnodup : ((x, w) :: rest).Nodup := hrest.nodup_iff.mp (nodup_rowsOf ..)
  have hmem : ∀ q, q ∈ (x, w) :: rest ↔ b.visible t q.1 = some q.2 ∧ p q.2 = true := by
    rintro ⟨y, v⟩
    rw [← hrest.mem_iff, mem_rowsOf (b.reads_visible t)]
  have hw : b.visible t x = some w := ((hmem (x, w)).mp List.mem_cons_self).1
  have hother : ∀ v, (x, v) ∉ rest := by
    intro v hv
    obtain rfl : w = v := Option.some.inj (hw.symm.trans ((hmem (x, v)).mp (List.mem_cons_of_mem _ hv)).1)
    exact (List.nodup_cons.mp hnodup).1 hv
  rw [List.perm_ext_iff_of_nodup (nodup_rowsOf ..)
    (List.nodup_cons.mpr ⟨hother w', (List.nodup_cons.mp hnodup).2⟩)]
  rintro ⟨y, v⟩
  rw [mem_rowsOf ((b.write t x w').reads_visible t), List.mem_cons]
  by_cases hy : y = x
  · subst hy
    rw [visible_write_self]
    grind
  · rw [visible_write_of_ne hy]
    have := hmem (y, v)
    grind

end Table

end ReadCommitted
