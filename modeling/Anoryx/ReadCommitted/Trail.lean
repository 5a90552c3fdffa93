import Anoryx.ReadCommitted.LockedLog
import Anoryx.ReadCommitted.Session

/-!
# Anoryx.ReadCommitted.Trail

An audit trail: a fact is committed first, and the row that records it is committed in a
transaction of its own, under the trail's lock.

`owes t` is the fact that `t` has committed and not yet recorded.  `Trail` says that a fact
has one row, or none while somebody owes it (or it is one of the `gaps` that were there
before); who stops in between leaves a fact without a row.
-/

namespace ReadCommitted

open Function

variable {R K X : Type} (names : X → R → Bool) (lockKey : K)

/-- The trail has a row for this fact. -/
def Linked (chain : LockedLog R K) (x : X) : Prop :=
  ∃ n row, chain.table.committed n = some row ∧ names x row = true

/-- The rows of the trail, and the facts that have none. -/
structure Trail (gaps facts : Set X) (chain : LockedLog R K) (owes : Txn → Option X) : Prop where
  ordered : chain.Ordered (fun (_ : Unit) _ => true) fun _ => lockKey
  linkedOnce : ∀ n n' row row' x, chain.table.committed n = some row → chain.table.committed n' = some row' →
    names x row = true → names x row' = true → n = n'
  fact : ∀ x, Linked names chain x → x ∈ facts
  complete : ∀ x, x ∈ facts → x ∈ gaps ∨ Linked names chain x ∨ ∃ t, owes t = some x
  owed : ∀ t x, owes t = some x → x ∈ facts ∧ ¬Linked names chain x
  owedOnce : ∀ t t' x, owes t = some x → owes t' = some x → t = t'
  pending : ∀ n t row x, chain.table.inflight n = some (t, row) → names x row = true → owes t = some x

/-- The rows that record a fact. -/
def linksOf (chain : LockedLog R K) (x : X) : List (Nat × R) := chain.table.rows.filter fun p => names x p.2

/-- A list without repetition whose members are all equal has at most one. -/
theorem length_of_subsingleton {α : Type} {l : List α} (hnodup : l.Nodup) (hone : ∀ x ∈ l, ∀ y ∈ l, x = y) :
    l.length ≤ 1 ∧ (l.length = 0 ↔ ∀ x, x ∉ l) := by
  refine ⟨?_, by rw [List.length_eq_zero_iff, List.eq_nil_iff_forall_not_mem]⟩
  cases l with
  | nil => exact Nat.zero_le 1
  | cons x l =>
      have hsame : x :: l = List.replicate (l.length + 1) x :=
        List.eq_replicate_iff.mpr ⟨rfl, fun y hy => hone y hy x List.mem_cons_self⟩
      rw [hsame, List.nodup_replicate] at hnodup
      exact hnodup

namespace Trail

variable {names lockKey} {gaps facts : Set X} {chain chain' : LockedLog R K} {owes : Txn → Option X} {t : Txn} {x : X}

/-- A fact has at most one row, and none just when it is not linked. -/
theorem links (h : Trail names lockKey gaps facts chain owes) (x : X) : (linksOf names chain x).length ≤ 1 ∧
    ((linksOf names chain x).length = 0 ↔ ¬Linked names chain x) := by
  have hmem : ∀ p, p ∈ linksOf names chain x ↔ chain.table.committed p.1 = some p.2 ∧ names x p.2 = true := by
    intro p
    rw [linksOf, List.mem_filter, Table.mem_rows]
  have hlinks : (linksOf names chain x).length ≤ 1 ∧
      ((linksOf names chain x).length = 0 ↔ ∀ p, p ∉ linksOf names chain x) := by
    refine length_of_subsingleton (((chain.table.nodup_list _).of_map Prod.fst).filter _) fun p hp q hq => ?_
    obtain ⟨hp, hpx⟩ := (hmem p).mp hp
    obtain ⟨hq, hqx⟩ := (hmem q).mp hq
    have hn : p.1 = q.1 := h.linkedOnce p.1 q.1 p.2 q.2 x hp hq hpx hqx
    rw [hn, hq] at hp
    exact Prod.ext hn (Option.some.inj hp).symm
  refine ⟨hlinks.1, hlinks.2.trans ⟨fun hnone => ?_, fun hnone p hp => ?_⟩⟩
  · rintro ⟨n, row, hrow, hacc⟩
    exact hnone (n, row) ((hmem _).mpr ⟨hrow, hacc⟩)
  · obtain ⟨hrow, hacc⟩ := (hmem p).mp hp
    exact hnone ⟨p.1, p.2, hrow, hacc⟩

/-- The trail survives whatever changes no row of a fact. -/
theorem ends (h : Trail names lockKey gaps facts chain owes)
    (hordered : chain'.Ordered (fun (_ : Unit) _ => true) fun _ => lockKey)
    (hcommitted : ∀ n row x, names x row = true →
      (chain'.table.committed n = some row ↔ chain.table.committed n = some row))
    (hin : ∀ n u row, chain'.table.inflight n = some (u, row) → chain.table.inflight n = some (u, row)) :
    Trail names lockKey gaps facts chain' owes := by
  have hlinked : ∀ x, Linked names chain' x ↔ Linked names chain x := by
    intro x
    constructor
    · rintro ⟨n, row, hrow, hacc⟩
      exact ⟨n, row, (hcommitted n row x hacc).mp hrow, hacc⟩
    · rintro ⟨n, row, hrow, hacc⟩
      exact ⟨n, row, (hcommitted n row x hacc).mpr hrow, hacc⟩
  refine ⟨hordered, fun n n' row row' x hrow hrow' hacc hacc' => ?_, fun x hx => ?_, fun x hx => ?_,
    fun u x hu => ?_, h.owedOnce, fun n u row x hrow hacc => h.pending n u row x (hin n u row hrow) hacc⟩
  · exact h.linkedOnce n n' row row' x ((hcommitted n row x hacc).mp hrow) ((hcommitted n' row' x hacc').mp hrow')
      hacc hacc'
  · exact h.fact x ((hlinked x).mp hx)
  · rw [hlinked]
    exact h.complete x hx
  · rw [hlinked]
    exact h.owed u x hu

/-- The row of an owed fact may be inserted under the lock. -/
theorem insertRow (h : Trail names lockKey gaps facts chain owes) {row : R} (hlock : chain.locks lockKey = some t)
    (howed : ∀ x, names x row = true → owes t = some x) :
    Trail names lockKey gaps facts (chain.insert t row) owes := by
  refine ⟨h.ordered.insert fun _ _ => hlock, h.linkedOnce, h.fact, h.complete, h.owed, h.owedOnce,
    fun n u row' x hin hacc => ?_⟩
  rcases Table.inflight_write_cases hin with ⟨-, rfl, rfl⟩ | ⟨-, hin⟩
  · exact howed x hacc
  · exact h.pending n u row' x hin hacc

/-- A fact that is committed is owed by its transaction. -/
theorem accept (h : Trail names lockKey gaps facts chain owes) (hx : x ∉ facts) (ht : owes t = none) :
    Trail names lockKey gaps (insert x facts) chain (update owes t (some x)) where
  ordered := h.ordered
  linkedOnce := h.linkedOnce
  fact x' hlinked := Set.mem_insert_of_mem x (h.fact x' hlinked)
  complete x' hmem := by
    rcases Set.mem_insert_iff.mp hmem with rfl | hold
    · exact .inr (.inr ⟨t, update_self ..⟩)
    · rcases h.complete x' hold with hgap | hlinked | ⟨u, hu⟩
      · exact .inl hgap
      · exact .inr (.inl hlinked)
      · have hne : u ≠ t := by
          rintro rfl
          rw [ht] at hu
          contradiction
        exact .inr (.inr ⟨u, by rwa [update_of_ne hne]⟩)
  owed u x' hu := by
    by_cases hut : u = t
    · subst hut
      rw [update_self] at hu
      obtain rfl := Option.some.inj hu
      exact ⟨Set.mem_insert x facts, fun hlinked => hx (h.fact x hlinked)⟩
    · rw [update_of_ne hut] at hu
      exact ⟨Set.mem_insert_of_mem x (h.owed u x' hu).1, (h.owed u x' hu).2⟩
  owedOnce u u' x' hu hu' := by
    have hnew : ∀ v, owes v ≠ some x := fun v hv => hx (h.owed v x hv).1
    have hone := h.owedOnce u u' x'
    by_cases hut : u = t <;> by_cases hut' : u' = t <;> grind
  pending n u row x' hin hacc := by
    have hu := h.pending n u row x' hin hacc
    have hne : u ≠ t := by
      rintro rfl
      rw [ht] at hu
      contradiction
    rwa [update_of_ne hne]

/-- Once the row of a fact is committed, the fact is owed no more. -/
theorem link (hinj : ∀ {x x' : X} {row : R}, names x row = true → names x' row = true → x = x') {n : Nat} {row : R}
    (h : Trail names lockKey gaps facts chain owes) (hacc : names x row = true) (ht : owes t = some x)
    (hordered : chain'.Ordered (fun (_ : Unit) _ => true) fun _ => lockKey)
    (hcommitted : ∀ n' row', chain'.table.committed n' = some row' ↔
      (n' = n ∧ row' = row) ∨ chain.table.committed n' = some row')
    (hin : ∀ n' u row', chain'.table.inflight n' = some (u, row') →
      chain.table.inflight n' = some (u, row') ∧ u ≠ t) :
    Trail names lockKey gaps facts chain' (update owes t none) := by
  have hunlinked : ¬Linked names chain x := (h.owed t x ht).2
  have hlinked : ∀ x', Linked names chain' x' ↔ x' = x ∨ Linked names chain x' := by
    intro x'
    constructor
    · rintro ⟨n', row', hrow', hacc'⟩
      rcases (hcommitted n' row').mp hrow' with ⟨-, rfl⟩ | hold
      · exact .inl (hinj hacc' hacc)
      · exact .inr ⟨n', row', hold, hacc'⟩
    · rintro (rfl | ⟨n', row', hold, hacc'⟩)
      · exact ⟨n, row, (hcommitted n row).mpr (.inl ⟨rfl, rfl⟩), hacc⟩
      · exact ⟨n', row', (hcommitted n' row').mpr (.inr hold), hacc'⟩
  have hother : ∀ u x', update owes t none u = some x' → u ≠ t ∧ owes u = some x' := by
    intro u x' hu
    by_cases hut : u = t
    · subst hut
      rw [update_self] at hu
      contradiction
    · rw [update_of_ne hut] at hu
      exact ⟨hut, hu⟩
  refine ⟨hordered, fun m m' r r' x' hm hm' hr hr' => ?_, fun x' hx' => ?_, fun x' hx' => ?_,
    fun u x' hu => ?_, fun u u' x' hu hu' => ?_, fun m u r x' hm hr => ?_⟩
  · -- a row that was there before is of another fact
    have hold : ∀ {m r}, chain.table.committed m = some r → names x' r = true → x' ≠ x := by
      rintro m r hmr hr rfl
      exact hunlinked ⟨m, r, hmr, hr⟩
    rcases (hcommitted m r).mp hm with ⟨rfl, rfl⟩ | hm <;> rcases (hcommitted m' r').mp hm' with ⟨rfl, rfl⟩ | hm'
    · rfl
    · exact absurd (hinj hr hacc) (hold hm' hr')
    · exact absurd (hinj hr' hacc) (hold hm hr)
    · exact h.linkedOnce m m' r r' x' hm hm' hr hr'
  · rcases (hlinked x').mp hx' with rfl | hold
    · exact (h.owed t x' ht).1
    · exact h.fact x' hold
  · rcases h.complete x' hx' with hgap | hold | ⟨u, hu⟩
    · exact .inl hgap
    · exact .inr (.inl ((hlinked x').mpr (.inr hold)))
    · by_cases hut : u = t
      · subst hut
        have he : x' = x := Option.some.inj (hu.symm.trans ht)
        exact .inr (.inl ((hlinked x').mpr (.inl he)))
      · exact .inr (.inr ⟨u, by rwa [update_of_ne hut]⟩)
  · obtain ⟨hut, hu⟩ := hother u x' hu
    refine ⟨(h.owed u x' hu).1, fun hx' => ?_⟩
    rcases (hlinked x').mp hx' with rfl | hold
    · exact hut (h.owedOnce u t x' hu ht)
    · exact (h.owed u x' hu).2 hold
  · exact h.owedOnce u u' x' (hother u x' hu).2 (hother u' x' hu').2
  · obtain ⟨hold, hut⟩ := hin m u r hm
    rw [update_of_ne hut]
    exact h.pending m u r x' hold hr

/-- A rollback loses no row of the trail. -/
theorem rollback (h : Trail names lockKey gaps facts chain owes) (t : Txn) :
    Trail names lockKey gaps facts (Database.rollback t chain) owes :=
  h.ends (h.ordered.rollback t) (fun _ _ _ _ => Iff.rfl) fun _ _ _ hin => (Table.inflight_rollback_eq_some.mp hin).1

/-- A commit that writes no row of a fact. -/
theorem commit (h : Trail names lockKey gaps facts chain owes)
    (hrows : ∀ n row x, chain.table.inflight n = some (t, row) → names x row = false) :
    Trail names lockKey gaps facts (Database.commit t chain) owes := by
  refine h.ends (h.ordered.commit t) (fun n row x hacc => ?_) fun n u row hin =>
    (Table.inflight_commit_eq_some.mp hin).1
  show (chain.table.commit t).committed n = some row ↔ _
  rw [Table.committed_commit]
  rcases Table.visible_cases chain.table t n with ⟨v, hv, hvisible⟩ | ⟨-, hvisible⟩
  · rw [hvisible, h.ordered.insertOnly n t v hv]
    have hno := hrows n v x hv
    grind
  · rw [hvisible]

/-- The commit of a transaction that holds the row of the fact it owes. -/
theorem commitLink (hinj : ∀ {x x' : X} {row : R}, names x row = true → names x' row = true → x = x') {n : Nat} {row : R}
    (h : Trail names lockKey gaps facts chain owes) (hrow : chain.table.HoldsOnly t n row)
    (hacc : names x row = true) (ht : owes t = some x) :
    Trail names lockKey gaps facts (Database.commit t chain) (update owes t none) := by
  have hfree : chain.table.committed n = none := h.ordered.insertOnly n t row hrow.holds
  refine h.link hinj (n := n) hacc ht (h.ordered.commit t) (fun n' row' => ?_) fun n' u row' hin =>
    Table.inflight_commit_eq_some.mp hin
  show (chain.table.commit t).committed n' = some row' ↔ _
  rw [hrow.committed_commit]
  grind

/-- Where nothing is open, the trail is what the committed rows say. -/
theorem of_quiet (hquiet : chain.table.Quiet) (hordered : chain.table.keys.Pairwise (· < ·))
    (hbounded : ∀ n ∈ chain.table.keys, n < chain.nextSequence)
    (hlinkedOnce : ∀ n n' row row' x, chain.table.committed n = some row → chain.table.committed n' = some row' →
      names x row = true → names x row' = true → n = n')
    (hfact : ∀ x, Linked names chain x → x ∈ facts) (hcomplete : ∀ x, x ∈ facts → x ∈ gaps ∨ Linked names chain x)
    (howes : ∀ t, owes t = none) : Trail names lockKey gaps facts chain owes where
  ordered := ⟨hordered, hbounded, fun k u v hin => by rw [hquiet k] at hin; contradiction,
    fun k u row g hin _ => by rw [hquiet k] at hin; contradiction⟩
  linkedOnce := hlinkedOnce
  fact := hfact
  complete x hx := (hcomplete x hx).imp_right .inl
  owed u x hu := by rw [howes u] at hu; contradiction
  owedOnce u u' x hu := by rw [howes u] at hu; contradiction
  pending n u row x hin := by rw [hquiet n] at hin; contradiction

end Trail

end ReadCommitted
