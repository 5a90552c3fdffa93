import Anoryx.ReadCommitted.LockedTable
import Anoryx.ReadCommitted.References

/-!
# Anoryx.ReadCommitted.ReferringTable

A locked table, and a second table of what its rows refer to: a transaction inserts first
what is referred to (`insertTarget`), then the row that refers to it (`insert`).

`Consistent` joins the invariants of `LockedTable` and `References`, and says that what has to
be referred to is: nobody commits before he `Owes` nothing.  What a transaction has once seen
to be there stays there, so the results of the committed ones stay true (`facts_of_run`).
-/

namespace ReadCommitted

open Table

/-- The rows with their locks, and what they refer to. -/
structure ReferringTable (K V L X W : Type) where
  rows : LockedTable K V L
  targets : Table X W

variable {b : Bool}

namespace ReferringTable

variable {K V L X W : Type}

def empty : ReferringTable K V L X W := ⟨LockedTable.empty, Table.empty⟩

instance : Database (ReferringTable K V L X W) where
  commit t d := ⟨Database.commit t d.rows, d.targets.commit t⟩
  rollback t d := ⟨Database.rollback t d.rows, d.targets.rollback t⟩

/-- `SELECT pg_advisory_xact_lock(…)` -/
def advisoryXactLock [DecidableEq L] (key : L) (t : Txn) (d : ReferringTable K V L X W) :
    Option (Unit × ReferringTable K V L X W) :=
  (LockedTable.advisoryXactLock key t d.rows).map fun p => (p.1, { d with rows := p.2 })

/-- The INSERT of a row; `false` when there is one under the key. -/
def insert [DecidableEq K] (k : K) (row : V) (t : Txn) (d : ReferringTable K V L X W) :
    Option (Bool × ReferringTable K V L X W) :=
  (LockedTable.insert k row t d.rows).map fun p => (p.1, { d with rows := p.2 })

/-- The INSERT of what a row is going to refer to. -/
def insertTarget [DecidableEq X] (x : X) (target : W) (t : Txn) (d : ReferringTable K V L X W) :
    Option (Bool × ReferringTable K V L X W) :=
  (d.targets.insertOrIgnore t x target).map fun p => (p.1, { d with targets := p.2 })

/-! ## the invariant -/

section Invariant

variable {G : Type} (P : G → Multiset (K × V) → Prop) (select : G → V → Bool) (key : G → L)
  (ref : V → Option X) (fits : V → W → Prop) (mustRefer : W → Prop)

structure Consistent (d : ReferringTable K V L X W) : Prop where
  guarded : d.rows.Guarded P select key
  references : References ref fits d.rows.table d.targets
  referred : ∀ x target, d.targets.committed x = some target → mustRefer target →
    ∃ k row, d.rows.table.committed k = some row ∧ ref row = some x

/-- What a transaction may rely on. -/
structure Relies (u : Txn) (d d' : ReferringTable K V L X W) : Prop where
  rows : LockedTable.Relies select key u d.rows d'.rows
  own : Frame u d.rows.table d'.rows.table
  ownTargets : Frame u d.targets d'.targets
  grows : Grows d.rows.table d'.rows.table

/-- What a statement of `t` leaves: to the others their rely, to `t` its locks and what it saw. -/
structure Moves (t : Txn) (d d' : ReferringTable K V L X W) : Prop where
  relies : ∀ u, u ≠ t → Relies select key u d d'
  locks : ∀ k, d.rows.locks k = some t → d'.rows.locks k = some t
  visible : ∀ k row, d.rows.table.visible t k = some row → d'.rows.table.visible t k = some row

/-- What `t` has inserted and none of its rows refers to yet; everything else that it has
inserted is referred to. -/
structure Owes (t : Txn) (owed : List (X × W)) (d : ReferringTable K V L X W) : Prop where
  inflight : ∀ p ∈ owed, d.targets.inflight p.1 = some (t, p.2)
  unreferred : ∀ p ∈ owed, ∀ k row, d.rows.table.inflight k = some (t, row) → ref row ≠ some p.1
  distinct : (owed.map Prod.fst).Nodup
  settled : ∀ x target, d.targets.inflight x = some (t, target) → x ∈ owed.map Prod.fst ∨
    ∃ k row, d.rows.table.inflight k = some (t, row) ∧ ref row = some x

def Settles (row : V) (owed left : List (X × W)) : Prop :=
  (ref row = none ∧ owed = left) ∨
    ∃ x target, ref row = some x ∧ fits row target ∧ owed = (x, target) :: left

end Invariant

variable {G : Type} {P : G → Multiset (K × V) → Prop} {select : G → V → Bool} {key : G → L}
  {ref : V → Option X} {fits : V → W → Prop} {mustRefer : W → Prop} {d d' : ReferringTable K V L X W}
  {t u : Txn}

theorem Relies.refl (u : Txn) (d : ReferringTable K V L X W) : Relies select key u d d :=
  ⟨LockedTable.Relies.refl u d.rows, Frame.refl u _, Frame.refl u _, Grows.refl _⟩

theorem Relies.trans {d₁ d₂ d₃ : ReferringTable K V L X W} (h : Relies select key u d₁ d₂)
    (h' : Relies select key u d₂ d₃) : Relies select key u d₁ d₃ :=
  ⟨h.rows.trans h'.rows, h.own.trans h'.own, h.ownTargets.trans h'.ownTargets, h.grows.trans h'.grows⟩

variable {k : K} {row : V} {owed left : List (X × W)} {target : W}

theorem Relies.visible (h : Relies select key u d d') (hd : d'.rows.table.InsertOnly)
    (hrow : d.rows.table.visible u k = some row) : d'.rows.table.visible u k = some row :=
  h.own.visible_of_grows h.grows hd hrow

theorem Moves.refl (t : Txn) (d : ReferringTable K V L X W) : Moves select key t d d :=
  ⟨fun u _ => Relies.refl u d, fun _ h => h, fun _ _ h => h⟩

theorem Owes.rely (h : Owes ref t owed d) (hr : Relies select key t d d') : Owes ref t owed d' where
  inflight p hp := (hr.ownTargets.inflight p.1 p.2).mp (h.inflight p hp)
  unreferred p hp k row hin := h.unreferred p hp k row ((hr.own.inflight k row).mpr hin)
  distinct := h.distinct
  settled x target hin := by
    rcases h.settled x target ((hr.ownTargets.inflight x target).mpr hin) with hx | ⟨k, row, hrow, hx⟩
    · exact .inl hx
    · exact .inr ⟨k, row, (hr.own.inflight k row).mp hrow, hx⟩

/-- A reader that finds whatever another one finds. -/
def Finds (read read' : K → Option V) : Prop := ∀ k row, read k = some row → read' k = some row

theorem Consistent.finds_committed (h : d.Consistent P select key ref fits mustRefer) (t : Txn) :
    Finds d.rows.table.committed (d.rows.table.visible t) := by
  intro k row hrow
  rw [visible_of_no_inflight fun v hv => ?_, hrow]
  rw [h.guarded.insertOnly k t v hv] at hrow
  contradiction

theorem owes_nil (h : ∀ x target, d.targets.inflight x ≠ some (t, target)) : Owes ref t [] d where
  inflight _ hp := absurd hp List.not_mem_nil
  unreferred _ hp := absurd hp List.not_mem_nil
  distinct := List.nodup_nil
  settled x target hin := absurd hin (h x target)

/-! ## the statements -/

theorem Consistent.advisoryXactLock [DecidableEq L] (h : d.Consistent P select key ref fits mustRefer) {k : L}
    (hlock : advisoryXactLock k t d = some ((), d')) :
    d'.Consistent P select key ref fits mustRefer ∧ (∀ u, Relies select key u d d') ∧ d'.rows.locks k = some t := by
  obtain ⟨⟨_, rows⟩, hlocked, he⟩ := Option.map_eq_some_iff.mp hlock
  obtain ⟨-, rfl⟩ := Prod.mk.inj he
  obtain ⟨hguarded, hrelies, htable, hheld⟩ := LockedTable.Guarded.advisoryXactLock h.guarded hlocked
  have htable : rows.table = d.rows.table := htable
  have hframe : ∀ u, Frame u d.rows.table rows.table := fun u => htable ▸ Frame.refl u _
  have hgrows : Grows d.rows.table rows.table := htable ▸ Grows.refl _
  have href : References ref fits rows.table d.targets := htable ▸ h.references
  have hreferred : ∀ x target, d.targets.committed x = some target → mustRefer target →
      ∃ k row, rows.table.committed k = some row ∧ ref row = some x := htable ▸ h.referred
  exact ⟨⟨hguarded, href, hreferred⟩, fun u => ⟨hrelies u, hframe u, Frame.refl u _, hgrows⟩, hheld⟩

theorem tables_advisoryXactLock [DecidableEq L] {k : L} {x : Unit} (h : advisoryXactLock k t d = some (x, d')) :
    d'.rows.table = d.rows.table ∧ d'.targets = d.targets := by
  obtain ⟨⟨_, rows⟩, hlock, he⟩ := Option.map_eq_some_iff.mp h
  obtain ⟨-, rfl⟩ := Prod.mk.inj he
  unfold LockedTable.advisoryXactLock at hlock
  split at hlock
  · obtain ⟨-, rfl⟩ := Prod.mk.inj (Option.some.inj hlock)
    exact ⟨rfl, rfl⟩
  · contradiction

theorem insertTarget_cases [DecidableEq X] {x : X} (h : insertTarget x target t d = some (b, d')) :
    (b = false ∧ d' = d) ∨
      (b = true ∧ d' = { d with targets := d.targets.write t x target } ∧ d.targets.inflight x = none ∧
        d.targets.committed x = none) := by
  obtain ⟨⟨b', targets⟩, hins, he⟩ := Option.map_eq_some_iff.mp h
  obtain ⟨rfl, rfl⟩ := Prod.mk.inj he
  rcases insertOrIgnore_cases hins with ⟨rfl, rfl, -⟩ | ⟨rfl, rfl, hin, hc⟩
  · exact .inl ⟨rfl, rfl⟩
  · exact .inr ⟨rfl, rfl, hin, hc⟩

/-- **The INSERT of a target**, which its transaction owes a row from then on. -/
theorem Consistent.insertTarget [DecidableEq X] (h : d.Consistent P select key ref fits mustRefer) {x : X}
    (hins : insertTarget x target t d = some (b, d')) :
    d'.Consistent P select key ref fits mustRefer ∧ Moves select key t d d' ∧ d'.rows = d.rows ∧
      (b = true → ∀ owed, Owes ref t owed d → Owes ref t (owed ++ [(x, target)]) d') := by
  rcases insertTarget_cases hins with ⟨rfl, rfl⟩ | ⟨rfl, rfl, hin, hc⟩
  · exact ⟨h, Moves.refl t _, rfl, fun hb => absurd hb Bool.false_ne_true⟩
  have hfree : d.targets.free t x = true := free_iff.mpr fun t' v hv => by
    rw [hin] at hv
    contradiction
  refine ⟨⟨h.guarded, h.references.write_right hin hc, h.referred⟩, ⟨fun u hu => ⟨LockedTable.Relies.refl u _,
    Frame.refl u _, frame_write hu hfree, Grows.refl _⟩, fun _ hk => hk, fun _ _ hrow => hrow⟩,
    rfl, fun _ owed howes => ?_⟩
  have hnew : ∀ p ∈ owed, p.1 ≠ x := by
    rintro p hp rfl
    rw [howes.inflight p hp] at hin
    contradiction
  constructor
  case inflight =>
    intro p hp
    rcases List.mem_append.mp hp with hp | hp
    · exact (inflight_write_of_ne (hnew p hp)).trans (howes.inflight p hp)
    · obtain rfl := List.mem_singleton.mp hp
      exact inflight_write_self ..
  case unreferred =>
    intro p hp k row hrow href
    rcases List.mem_append.mp hp with hp | hp
    · exact howes.unreferred p hp k row hrow href
    · obtain rfl := List.mem_singleton.mp hp
      -- a row that refers to it would have found it there
      obtain ⟨w, hw, -⟩ := h.references.inflight k t row x hrow href
      rw [hin] at hw
      contradiction
  case distinct =>
    rw [List.map_append, List.map_singleton, ← List.concat_eq_append]
    refine List.Nodup.concat (fun hmem => ?_) howes.distinct
    obtain ⟨p, hp, hx⟩ := List.mem_map.mp hmem
    exact hnew p hp hx
  case settled =>
    intro x' target' hin'
    by_cases hx : x' = x
    · exact .inl (by simp [hx])
    · rcases howes.settled x' target' ((inflight_write_of_ne hx).symm.trans hin') with hmem | hrow
      · exact .inl (by simp [hmem])
      · exact .inr hrow

theorem insert_cases [DecidableEq K] (h : insert k row t d = some (b, d')) :
    (b = false ∧ d' = d) ∨
      (b = true ∧ d' = { d with rows := { d.rows with table := d.rows.table.write t k row } } ∧
        d.rows.table.inflight k = none ∧ d.rows.table.committed k = none) := by
  obtain ⟨⟨b', rows⟩, hins, he⟩ := Option.map_eq_some_iff.mp h
  obtain ⟨rfl, rfl⟩ := Prod.mk.inj he
  rcases LockedTable.insert_cases hins with ⟨rfl, rfl, -⟩ | ⟨rfl, rfl, hin, hc⟩
  · exact .inl ⟨rfl, rfl⟩
  · exact .inr ⟨rfl, rfl, hin, hc⟩

/-- **The INSERT of a row** that goes with the rows which its transaction sees, and refers to
what is owed first. -/
theorem Consistent.insert [DecidableEq K] (h : d.Consistent P select key ref fits mustRefer)
    (hins : insert k row t d = some (b, d')) (hlock : ∀ g, select g row = true → d.rows.locks (key g) = some t)
    (hrow : ∀ g, select g row = true →
      P g ((k, row) ::ₘ (d.rows.table.rowsOf (d.rows.table.visible t) (select g) : Multiset (K × V))))
    (howes : Owes ref t owed d) (hsettles : Settles ref fits row owed left) :
    d'.Consistent P select key ref fits mustRefer ∧ Moves select key t d d' ∧ d'.targets = d.targets ∧
      (b = true → Owes ref t left d' ∧ d'.rows.table.visible t k = some row ∧ ∀ g, select g row = true →
        (d'.rows.table.rowsOf (d'.rows.table.visible t) (select g)).Perm
          ((k, row) :: d.rows.table.rowsOf (d.rows.table.visible t) (select g))) := by
  rcases insert_cases hins with ⟨rfl, rfl⟩ | ⟨rfl, rfl, hin, hc⟩
  · exact ⟨h, Moves.refl t _, rfl, fun hb => absurd hb Bool.false_ne_true⟩
  have hfree : d.rows.table.free t k = true := free_iff.mpr fun t' v hv => by
    rw [hin] at hv
    contradiction
  have hnone : d.rows.table.visible t k = none := (visible_of_inflight_none hin).trans hc
  obtain ⟨hguarded, hrelies⟩ := h.guarded.write hin hc hlock hrow
  have hrefers : ∀ x, ref row = some x → (∃ w, d.targets.inflight x = some (t, w) ∧ fits row w) ∧
      ∀ k' row', d.rows.table.inflight k' = some (t, row') → ref row' ≠ some x := by
    intro x hx
    rcases hsettles with ⟨hno, -⟩ | ⟨x', target, hx', hfits, rfl⟩
    · rw [hno] at hx
      contradiction
    · obtain rfl : x' = x := Option.some.inj (hx'.symm.trans hx)
      exact ⟨⟨target, howes.inflight _ List.mem_cons_self, hfits⟩, howes.unreferred _ List.mem_cons_self⟩
  refine ⟨⟨hguarded, h.references.write_left hrefers, h.referred⟩, ⟨fun u hu => ⟨hrelies u hu,
    frame_write hu hfree, Frame.refl u _, fun _ _ hold => hold⟩, fun _ hk => hk, fun k' row' hrow' => ?_⟩,
    rfl, fun _ => ⟨?_, visible_write_self .., fun g hsel => rowsOf_visible_write hnone hsel⟩⟩
  · have hk : k' ≠ k := by
      rintro rfl
      rw [hnone] at hrow'
      contradiction
    exact (visible_write_of_ne hk).trans hrow'
  · have hkeep : ∀ k' row', d.rows.table.inflight k' = some (t, row') →
        (d.rows.table.write t k row).inflight k' = some (t, row') := by
      intro k' row' hrow'
      have hk : k' ≠ k := by
        rintro rfl
        rw [hin] at hrow'
        contradiction
      exact (inflight_write_of_ne hk).trans hrow'
    have hold : ∀ k' row', (d.rows.table.write t k row).inflight k' = some (t, row') →
        row' = row ∨ d.rows.table.inflight k' = some (t, row') := by
      intro k' row' hrow'
      exact (inflight_write_cases hrow').imp (fun hnew => hnew.2.2) And.right
    have hleft : ∀ p ∈ left, p ∈ owed ∧ ref row ≠ some p.1 := by
      intro p hp
      rcases hsettles with ⟨hno, rfl⟩ | ⟨x, target, hx, -, rfl⟩
      · exact ⟨hp, fun he => absurd (hno.symm.trans he).symm (Option.some_ne_none _)⟩
      · refine ⟨List.mem_cons_of_mem _ hp, fun he => ?_⟩
        obtain rfl : x = p.1 := Option.some.inj (hx.symm.trans he)
        exact (List.nodup_cons.mp howes.distinct).1 (List.mem_map.mpr ⟨p, hp, rfl⟩)
    constructor
    case inflight => exact fun p hp => howes.inflight p (hleft p hp).1
    case unreferred =>
      intro p hp k' row' hrow'
      rcases hold k' row' hrow' with rfl | hrow'
      · exact (hleft p hp).2
      · exact howes.unreferred p (hleft p hp).1 k' row' hrow'
    case distinct =>
      rcases hsettles with ⟨-, rfl⟩ | ⟨x, target, -, -, rfl⟩
      · exact howes.distinct
      · exact (List.nodup_cons.mp howes.distinct).2
    case settled =>
      intro x target hx
      rcases howes.settled x target hx with hmem | ⟨k', row', hrow', href'⟩
      · rcases hsettles with ⟨-, rfl⟩ | ⟨x', target', href, -, rfl⟩
        · exact .inl hmem
        · rcases List.mem_cons.mp hmem with rfl | hmem
          · exact .inr ⟨k, row, inflight_write_self .., href⟩
          · exact .inl hmem
      · exact .inr ⟨k', row', hkeep k' row' hrow', href'⟩

/-! ## the end of a transaction -/

theorem Consistent.commit (h : d.Consistent P select key ref fits mustRefer) (howes : Owes ref t [] d) :
    Consistent P select key ref fits mustRefer (Database.commit t d) ∧
      ∀ u, u ≠ t → Relies select key u d (Database.commit t d) := by
  refine ⟨⟨(h.guarded.commit t).1, h.references.commit t, fun x target hx hmust => ?_⟩,
    fun u hu => ⟨(h.guarded.commit t).2 u hu, frame_commit _ hu, frame_commit _ hu,
      h.guarded.insertOnly.grows_commit t⟩⟩
  rcases visible_cases d.targets t x with ⟨w, hin, -⟩ | ⟨-, hvisible⟩
  · rcases howes.settled x w hin with hmem | ⟨k, row, hrow, href⟩
    · exact absurd hmem List.not_mem_nil
    · exact ⟨k, row, visible_of_inflight hrow, href⟩
  · obtain ⟨k, row, hrow, href⟩ := h.referred x target (hvisible.symm.trans hx) hmust
    exact ⟨k, row, h.guarded.insertOnly.grows_commit t k row hrow, href⟩

theorem Consistent.rollback (h : d.Consistent P select key ref fits mustRefer) (t : Txn) :
    Consistent P select key ref fits mustRefer (Database.rollback t d) ∧
      ∀ u, u ≠ t → Relies select key u d (Database.rollback t d) :=
  ⟨⟨(h.guarded.rollback t).1, h.references.rollback t, h.referred⟩, fun u hu => ⟨(h.guarded.rollback t).2 u hu,
    frame_rollback _ hu, frame_rollback _ hu, fun _ _ hold => hold⟩⟩

theorem consistent_of_quiet (hrows : d.rows.table.Quiet) (htargets : d.targets.Quiet)
    (hcommitted : ∀ g, P g (d.rows.table.rowsOf d.rows.table.committed (select g)))
    (hrefers : ∀ k row x, d.rows.table.committed k = some row → ref row = some x →
      ∃ target, d.targets.committed x = some target ∧ fits row target)
    (hinjective : ∀ k k' row row' x, d.rows.table.committed k = some row →
      d.rows.table.committed k' = some row' → ref row = some x → ref row' = some x → k = k')
    (hreferred : ∀ x target, d.targets.committed x = some target → mustRefer target →
      ∃ k row, d.rows.table.committed k = some row ∧ ref row = some x) :
    Consistent P select key ref fits mustRefer d :=
  ⟨LockedTable.guarded_of_quiet hrows hcommitted,
    references_of_quiet hrows htargets hrefers hinjective, hreferred⟩

/-! ## every schedule -/

section Schedule

variable {E A B : Type} (P select key ref fits mustRefer)

/-- Transactions on such tables: a result comes with what `fact` says of the rows. -/
def logic (fact : Txn → A → B → (K → Option V) → Prop) : Logic (ReferringTable K V L X W) A B where
  inv := Consistent P select key ref fits mustRefer
  rely := Relies select key
  fresh t d := ∀ x target, d.targets.inflight x ≠ some (t, target)
  post t a b d := Owes ref t [] d ∧ fact t a b (d.rows.table.visible t)
  ensures t a b d := fact t a b d.rows.table.committed
  undone _ _ := True

variable {P select key ref fits mustRefer} {fact : Txn → A → B → (K → Option V) → Prop}
  {body : A → Prog (ReferringTable K V L X W) E B}

/-- Consistency is an invariant of every transaction whose body keeps it. -/
theorem logic_sound
    (hfact : ∀ t a b read read', Finds read read' → fact t a b read → fact t a b read')
    (hbody : ∀ t a d, d.Consistent P select key ref fits mustRefer →
      (∀ x target, d.targets.inflight x ≠ some (t, target)) →
      (logic P select key ref fits mustRefer fact).wp t
        (fun b d => Owes ref t [] d ∧ fact t a b (d.rows.table.visible t)) (body a) d) :
    (logic P select key ref fits mustRefer fact).Sound body where
  refl := Relies.refl
  trans := Relies.trans
  fresh_rely _ hr h x target hin := h x target ((hr.ownTargets.inflight x target).mpr hin)
  ensures_rely _ hr h := hfact _ _ _ _ _ hr.grows h
  undone_rely _ _ _ := trivial
  body _ h hfresh := hbody _ _ _ h hfresh
  commit h hpost := ⟨⟨(Consistent.commit h hpost.1).1, (Consistent.commit h hpost.1).2⟩, hpost.2⟩
  rollback h := ⟨⟨(Consistent.rollback h _).1, (Consistent.rollback h _).2⟩, trivial⟩

theorem ok_start (hd : d.Consistent P select key ref fits mustRefer) (hquiet : d.targets.Quiet) :
    (logic P select key ref fits mustRefer fact).Ok (Sys.start d : Sys (ReferringTable K V L X W) E A B) :=
  ⟨hd, fun _ x _ hin => absurd ((hquiet x).symm.trans hin).symm (Option.some_ne_none _)⟩

end Schedule

end ReferringTable

end ReadCommitted
