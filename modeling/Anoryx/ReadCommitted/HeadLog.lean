import Anoryx.HashChain
import Anoryx.ReadCommitted.Session

/-!
# Anoryx.ReadCommitted.HeadLog

Logs whose entries are numbered by a counter in another table.  The head of a log has the
next number and the hash of the last entry.  Who appends locks the head's row, writes the
entry under its number and moves the head on, all in one transaction.

* `Sound` — the committed entries of every log are those its committed head counts, chained
  from the genesis hash, and who has an entry in flight holds the head of its log;
* `Settled` — so it will be when `t` commits;
* `Sound.commit` — and then so it is.
-/

namespace ReadCommitted

open Table

/-- How entries are filed, numbered and chained. -/
structure HeadLog (K H R X : Type) where
  /-- the key of the entry's head -/
  scope : R → K
  seq : R → Nat
  /-- the number of the next entry -/
  next : H → Nat
  /-- the hash of the last entry, if there is one -/
  tip : H → Option X
  chain : HashChain R X

namespace HeadLog

variable {K H R X E : Type} (L : HeadLog K H R X)

/-- The entries of a log that a reader finds. -/
def Lists (read : E → Option R) (k : K) (log : List (E × R)) : Prop :=
  ∀ e r, (e, r) ∈ log ↔ read e = some r ∧ L.scope r = k

/-- The entries are those that the head counts; a log without a head is empty. -/
structure Tallies (head : Option H) (rows : List R) : Prop where
  numbers : rows.map L.seq = List.range (head.elim 0 L.next)
  valid : L.chain.Valid rows
  tip : L.chain.tip rows = (head.bind L.tip).getD L.chain.genesis

/-- The entries that a reader finds are those that the head counts. -/
def Numbered (head : Option H) (read : E → Option R) (k : K) : Prop :=
  ∃ log, L.Lists read k log ∧ L.Tallies head (log.map Prod.snd)

structure Sound (heads : Table K H) (entries : Table E R) : Prop where
  numbered : ∀ k, L.Numbered (heads.committed k) entries.committed k
  owned : ∀ e t r, entries.inflight e = some (t, r) → ∃ h, heads.inflight (L.scope r) = some (t, h)
  insertOnly : entries.InsertOnly

/-- What `u` may rely on: nobody touches what it holds, and the logs whose heads it holds stay. -/
structure Follows (u : Txn) (heads heads' : Table K H) (entries entries' : Table E R) : Prop where
  headFrame : Frame u heads heads'
  entryFrame : Frame u entries entries'
  head : ∀ k h, heads.inflight k = some (u, h) → heads'.committed k = heads.committed k
  scope : ∀ k h, heads.inflight k = some (u, h) → ∀ e r, L.scope r = k →
    (entries'.committed e = some r ↔ entries.committed e = some r)
  grows : entries.Grows entries'

/-- What `t` sees of the logs whose heads it holds is in order. -/
def Settled (t : Txn) (heads : Table K H) (entries : Table E R) : Prop :=
  ∀ k h, heads.inflight k = some (t, h) → L.Numbered (some h) (entries.visible t) k

variable {L} {heads heads' heads'' : Table K H} {entries entries' entries'' : Table E R} {t u : Txn} {k : K} {h h' : H}
  {e : E} {r : R} {read read' : E → Option R} {top : Option H}

/-! ## one log -/

theorem Numbered.congr (hnum : L.Numbered top read k) (hread : ∀ e r, L.scope r = k → (read' e = some r ↔ read e = some r)) :
    L.Numbered top read' k := by
  obtain ⟨log, hlists, htallies⟩ := hnum
  refine ⟨log, fun e r => ?_, htallies⟩
  rw [hlists e r]
  constructor
  · rintro ⟨hr, hscope⟩
    exact ⟨(hread e r hscope).mpr hr, hscope⟩
  · rintro ⟨hr, hscope⟩
    exact ⟨(hread e r hscope).mp hr, hscope⟩

theorem Numbered.head (hnum : L.Numbered (some h) read k) (hnext : L.next h' = L.next h) (htip : L.tip h' = L.tip h) :
    L.Numbered (some h') read k := by
  obtain ⟨log, hlists, htallies⟩ := hnum
  refine ⟨log, hlists, ?_, htallies.valid, ?_⟩
  · rw [htallies.numbers, Option.elim_some, Option.elim_some, hnext]
  · rw [htallies.tip, Option.bind_some, Option.bind_some, htip]

theorem Numbered.create (hnum : L.Numbered none read k) (hnext : L.next h = 0) (htip : L.tip h = none) :
    L.Numbered (some h) read k := by
  obtain ⟨log, hlists, htallies⟩ := hnum
  refine ⟨log, hlists, ?_, htallies.valid, ?_⟩
  · rw [htallies.numbers, Option.elim_some, hnext]
    rfl
  · rw [htallies.tip, Option.bind_some, htip]
    rfl

/-- An entry with the next number and the tip's hash goes to the end. -/
theorem Numbered.append [DecidableEq E] (hnum : L.Numbered (some h) read k) (hfresh : read e = none) (hscope : L.scope r = k)
    (hseq : L.seq r = L.next h) (hprev : L.chain.prev r = (L.tip h).getD L.chain.genesis)
    (hhash : L.chain.hash r = L.chain.digest r) (hnext : L.next h' = L.next h + 1) (htip : L.tip h' = some (L.chain.hash r)) :
    L.Numbered (some h') (Function.update read e (some r)) k := by
  obtain ⟨log, hlists, htallies⟩ := hnum
  refine ⟨log ++ [(e, r)], fun e' r' => ?_, ?_, ?_, ?_⟩
  · rw [List.mem_append, List.mem_singleton, hlists e' r']
    by_cases he : e' = e
    · subst he
      rw [hfresh, Function.update_self]
      constructor
      · rintro (⟨hc, -⟩ | hpair)
        · contradiction
        · cases hpair
          exact ⟨rfl, hscope⟩
      · rintro ⟨hr, -⟩
        exact .inr (by rw [Option.some.inj hr])
    · rw [Function.update_of_ne he]
      refine ⟨fun hmem => ?_, .inl⟩
      rcases hmem with hmem | hpair
      · exact hmem
      · exact absurd (congrArg Prod.fst hpair) he
  · rw [List.map_append, List.map_append, htallies.numbers, Option.elim_some, Option.elim_some, hnext, List.range_succ]
    exact congrArg (List.range (L.next h) ++ [·]) hseq
  · rw [List.map_append]
    exact HashChain.valid_concat.mpr ⟨htallies.valid, hprev.trans htallies.tip.symm, hhash⟩
  · rw [List.map_append, Option.bind_some, htip]
    exact HashChain.tip_concat ..

/-! ## what others leave alone -/

theorem Follows.refl (u : Txn) : L.Follows u heads heads entries entries :=
  ⟨Frame.refl u heads, Frame.refl u entries, fun _ _ _ => rfl, fun _ _ _ _ _ _ => Iff.rfl, Grows.refl entries⟩

theorem Follows.trans (hf : L.Follows u heads heads' entries entries') (hf' : L.Follows u heads' heads'' entries' entries'') :
    L.Follows u heads heads'' entries entries'' where
  headFrame := hf.headFrame.trans hf'.headFrame
  entryFrame := hf.entryFrame.trans hf'.entryFrame
  head k h hin := (hf'.head k h ((hf.headFrame.inflight k h).mp hin)).trans (hf.head k h hin)
  scope k h hin e r hscope := (hf'.scope k h ((hf.headFrame.inflight k h).mp hin) e r hscope).trans (hf.scope k h hin e r hscope)
  grows := hf.grows.trans hf'.grows

theorem Follows.visible_iff (hf : L.Follows u heads heads' entries entries') (hin : heads.inflight k = some (u, h))
    (hscope : L.scope r = k) : entries'.visible u e = some r ↔ entries.visible u e = some r := by
  rcases visible_cases entries u e with ⟨v, hv, hvisible⟩ | ⟨hno, hvisible⟩
  · rw [hvisible, visible_of_inflight ((hf.entryFrame.inflight e v).mp hv)]
  · rw [hvisible, visible_of_no_inflight fun v hv => hno v ((hf.entryFrame.inflight e v).mpr hv)]
    exact hf.scope k h hin e r hscope

theorem Numbered.follows (hnum : L.Numbered top (entries.visible u) k) (hin : heads.inflight k = some (u, h))
    (hf : L.Follows u heads heads' entries entries') : L.Numbered top (entries'.visible u) k :=
  hnum.congr fun _ _ hscope => hf.visible_iff hin hscope

theorem Settled.follows (hs : L.Settled u heads entries) (hf : L.Follows u heads heads' entries entries') :
    L.Settled u heads' entries' := fun k h hin =>
  (hs k h ((hf.headFrame.inflight k h).mpr hin)).follows ((hf.headFrame.inflight k h).mpr hin) hf

theorem settled_of_unheld (hheads : heads.Unheld t) : L.Settled t heads entries := fun k h hin => absurd hin (hheads k h)

/-! ## statements -/

theorem Sound.unheld_of_heads (hs : L.Sound heads entries) (hheads : heads.Unheld t) : entries.Unheld t := by
  intro e r hin
  obtain ⟨h, hhead⟩ := hs.owned e t r hin
  exact hheads _ h hhead

variable [DecidableEq K]

theorem Sound.writeHead (hs : L.Sound heads entries) (hfree : heads.free t k = true) :
    L.Sound (heads.write t k h) entries ∧ ∀ u, u ≠ t → L.Follows u heads (heads.write t k h) entries entries := by
  refine ⟨⟨hs.numbered, fun e u r hin => ?_, hs.insertOnly⟩, fun u hu => ⟨frame_write hu hfree, Frame.refl u entries,
    fun _ _ _ => rfl, fun _ _ _ _ _ _ => Iff.rfl, Grows.refl entries⟩⟩
  obtain ⟨h₀, hhead⟩ := hs.owned e u r hin
  by_cases hk : L.scope r = k
  · obtain rfl : u = t := free_iff.mp hfree u h₀ (hk ▸ hhead)
    exact ⟨h, hk ▸ inflight_write_self ..⟩
  · exact ⟨h₀, (inflight_write_of_ne hk).trans hhead⟩

omit [DecidableEq K] in
theorem Sound.numbered_of_unheld (hs : L.Sound heads entries) (hheads : heads.Unheld t) (k : K) :
    L.Numbered (heads.visible t k) (entries.visible t) k := by
  have hread : entries.visible t = entries.committed := funext fun e => (hs.unheld_of_heads hheads).visible e
  rw [hheads.visible, hread]
  exact hs.numbered k

variable [DecidableEq E]

omit [DecidableEq K] in
theorem Sound.insertEntry {b : Bool} (hs : L.Sound heads entries) (hhead : heads.inflight (L.scope r) = some (t, h))
    (hins : entries.insertOrIgnore t e r = some (b, entries')) :
    L.Sound heads entries' ∧ ∀ u, u ≠ t → L.Follows u heads heads entries entries' := by
  have hcommitted := committed_insertOrIgnore hins
  refine ⟨⟨fun k => ?_, fun e' u r' hin => ?_, hs.insertOnly.insertOrIgnore hins⟩, fun u hu => ⟨Frame.refl u heads,
    frame_insertOrIgnore hins hu, fun _ _ _ => rfl, fun _ _ _ _ _ _ => ?_, fun _ _ h => ?_⟩⟩
  · rw [hcommitted]
    exact hs.numbered k
  · rcases insertOrIgnore_cases hins with ⟨-, rfl, -⟩ | ⟨-, rfl, -, -⟩
    · exact hs.owned e' u r' hin
    · rcases inflight_write_cases hin with ⟨-, rfl, rfl⟩ | ⟨-, hin⟩
      · exact ⟨h, hhead⟩
      · exact hs.owned e' u r' hin
  · rw [hcommitted]
  · rw [hcommitted]
    exact h

omit [DecidableEq K] [DecidableEq E] in
/-- A settled head is committed with its entries. -/
theorem Sound.commit (hs : L.Sound heads entries) (hsettled : L.Settled t heads entries) :
    L.Sound (heads.commit t) (entries.commit t) ∧
      ∀ u, u ≠ t → L.Follows u heads (heads.commit t) entries (entries.commit t) := by
  -- a log whose head `t` does not hold stays as it is
  have hstays : ∀ k, (∀ h, heads.inflight k ≠ some (t, h)) → ∀ e r, L.scope r = k →
      ((entries.commit t).committed e = some r ↔ entries.committed e = some r) := by
    intro k hno e r hscope
    rw [committed_commit]
    rcases visible_cases entries t e with ⟨v, hin, hvisible⟩ | ⟨-, hvisible⟩
    · rw [hvisible, hs.insertOnly e t v hin]
      obtain ⟨h, hhead⟩ := hs.owned e t v hin
      refine ⟨fun hv => ?_, fun hc => by contradiction⟩
      rw [Option.some.inj hv, hscope] at hhead
      exact absurd hhead (hno h)
    · rw [hvisible]
  have hother : ∀ {u k h}, u ≠ t → heads.inflight k = some (u, h) → ∀ h', heads.inflight k ≠ some (t, h') := fun hu hin h' hin' =>
    hu (Prod.mk.inj (Option.some.inj (hin.symm.trans hin'))).1
  refine ⟨⟨fun k => ?_, fun e u r hin => ?_, hs.insertOnly.commit t⟩, fun u hu => ⟨frame_commit heads hu,
    frame_commit entries hu, fun k h hin => committed_commit_of_no_inflight (hother hu hin),
    fun k h hin => hstays k (hother hu hin), hs.insertOnly.grows_commit t⟩⟩
  · rcases visible_cases heads t k with ⟨h, hin, hvisible⟩ | ⟨hno, hvisible⟩
    · rw [committed_commit, hvisible]
      exact (hsettled k h hin).congr fun e r _ => by rw [committed_commit]
    · rw [committed_commit, hvisible]
      exact (hs.numbered k).congr (hstays k hno)
  · obtain ⟨hin, hu⟩ := inflight_commit_eq_some.mp hin
    obtain ⟨h, hhead⟩ := hs.owned e u r hin
    exact ⟨h, inflight_commit_eq_some.mpr ⟨hhead, hu⟩⟩

omit [DecidableEq K] [DecidableEq E] in
theorem Sound.rollback (hs : L.Sound heads entries) (t : Txn) :
    L.Sound (heads.rollback t) (entries.rollback t) ∧
      ∀ u, u ≠ t → L.Follows u heads (heads.rollback t) entries (entries.rollback t) := by
  refine ⟨⟨hs.numbered, fun e u r hin => ?_, hs.insertOnly.rollback t⟩, fun u hu => ⟨frame_rollback heads hu,
    frame_rollback entries hu, fun _ _ _ => rfl, fun _ _ _ _ _ _ => Iff.rfl, Grows.refl entries⟩⟩
  obtain ⟨hin, hu⟩ := inflight_rollback_eq_some.mp hin
  obtain ⟨h, hhead⟩ := hs.owned e u r hin
  exact ⟨h, inflight_rollback_eq_some.mpr ⟨hhead, hu⟩⟩

/-! ## the log, in order -/

omit [DecidableEq K] [DecidableEq E] in
theorem sound_empty : L.Sound (empty : Table K H) (empty : Table E R) where
  numbered k := by
    refine ⟨[], fun e r => ?_, rfl, trivial, rfl⟩
    simp [empty]
  owned e t r hin := absurd hin.symm (Option.some_ne_none _)
  insertOnly := insertOnly_empty

/-- The committed entries of a log, by their numbers -/
def rows (L : HeadLog K H R X) (entries : Table E R) (k : K) : List R :=
  ((entries.rows.map Prod.snd).filter fun r => L.scope r = k).mergeSort fun r r' => L.seq r ≤ L.seq r'

omit [DecidableEq E] in
/-- **The log is what its head counts**: numbered without gap or repetition, and chained. -/
theorem Sound.tallies (hs : L.Sound heads entries) (k : K) : L.Tallies (heads.committed k) (L.rows entries k) := by
  obtain ⟨log, hlists, htallies⟩ := hs.numbered k
  have hsorted : (log.map Prod.snd).Pairwise fun r r' => L.seq r < L.seq r' := by
    have hrange : ((log.map Prod.snd).map L.seq).Pairwise (· < ·) := htallies.numbers ▸ List.pairwise_lt_range
    exact List.pairwise_map.mp hrange
  have hnodup : (log.map Prod.snd).Nodup := hsorted.imp fun hlt => fun he => absurd hlt (he ▸ lt_irrefl _)
  have hperm : (entries.rows.filter fun p => L.scope p.2 = k).Perm log := by
    have hrows : entries.rows.Nodup := (nodup_list entries entries.committed).of_map
    refine (List.perm_ext_iff_of_nodup (hrows.filter _) (hnodup.of_map Prod.snd)).mpr fun p => ?_
    obtain ⟨e, r⟩ := p
    rw [List.mem_filter, hlists e r, mem_rows, decide_eq_true_iff]
  have hrows : (L.rows entries k).Perm (log.map Prod.snd) := by
    refine (List.mergeSort_perm ..).trans ?_
    rw [List.filter_map]
    exact hperm.map Prod.snd
  have heq : L.rows entries k = log.map Prod.snd := by
    refine hrows.eq_of_pairwise ?_ ?_ (hsorted.imp le_of_lt)
    · intro r r' hr hr' hle hge
      have hnodup : ((log.map Prod.snd).map L.seq).Nodup := htallies.numbers ▸ List.nodup_range
      exact List.inj_on_of_nodup_map hnodup (hrows.mem_iff.mp hr) hr' (le_antisymm hle hge)
    · exact (List.pairwise_mergeSort (fun r r' r'' h h' => by simp only [decide_eq_true_eq] at *; omega) (fun r r' => by simp only [Bool.or_eq_true, decide_eq_true_eq]; omega) _).imp fun h => of_decide_eq_true h
  rw [heq]
  exact htallies

end HeadLog

end ReadCommitted
