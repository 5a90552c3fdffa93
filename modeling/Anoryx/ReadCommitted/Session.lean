import Anoryx.ReadCommitted.RelyGuarantee

/-!
# Anoryx.ReadCommitted.Session

A process that runs one transaction after another: COMMIT and ROLLBACK as statements of
its program.  What it has committed stays when it is aborted later; only the transaction
that is open then is undone.

Between two transactions a process holds no row (`Table.Unheld`), and what it has inserted
since is easily told (`Table.HoldsOnly`).
-/

namespace ReadCommitted

open Function

variable {D ε Req β : Type}

namespace Prog

variable [Database D]

def commitWork : Prog D ε Unit := exec fun t d => some ((), Database.commit t d)

/-- ROLLBACK, and the end of a session that was not committed. -/
def rollbackWork : Prog D ε Unit := exec fun t d => some ((), Database.rollback t d)

end Prog

namespace Logic

variable [Database D] {L : Logic D Req β} {γ : Type} {t : Txn} {Q : γ → D → Prop} {d : D}

variable {k : Unit → Prog D ε γ}

theorem wp_commitWork_bind (h : ∀ d', L.inv d' → L.rely t d d' →
      L.Keeps t d' (Database.commit t d') ∧ L.wp t Q (k ()) (Database.commit t d')) :
    L.wp t Q (Prog.commitWork >>= k) d := by
  refine wp_exec_bind fun d' hi hr x d'' hexec _ => ?_
  cases hexec
  exact h d' hi hr

theorem wp_rollbackWork_bind (h : ∀ d', L.inv d' → L.rely t d d' →
      L.Keeps t d' (Database.rollback t d') ∧ L.wp t Q (k ()) (Database.rollback t d')) :
    L.wp t Q (Prog.rollbackWork >>= k) d := by
  refine wp_exec_bind fun d' hi hr x d'' hexec _ => ?_
  cases hexec
  exact h d' hi hr

end Logic

/-! ## when all is quiet -/

/-- Whether a process is in the middle of its program. -/
def Proc.isRunning : Proc D ε Req β → Bool
  | .running _ _ => true
  | _ => false

variable {prog : Req → Prog D ε β} {s s' : Sys D ε Req β}

variable {t : Txn} {req : Req}

theorem step_procs [Database D] {a : Action Req} (h : step prog s a = some s') (ht : t ≠ a.txn) :
    s'.procs t = s.procs t := by
  obtain ⟨u, req, rfl, -, rfl⟩ | ⟨u, req, γ, f, k, x, d, rfl, -, -, rfl⟩ | ⟨u, req, b, rfl, -, rfl⟩ |
    ⟨u, req, p, rfl, -, rfl⟩ := step_cases h
  all_goals exact update_of_ne ht _ _

theorem db_of_commit [Database D] (h : step prog s (.commit t) = some s') : s'.db = Database.commit t s.db := by
  obtain ⟨u, req, ha, -, -⟩ | ⟨u, req, γ, f, k, x, d, ha, -, -, -⟩ | ⟨u, req, b, ha, -, rfl⟩ | ⟨u, req, p, ha, -, -⟩ :=
    step_cases h
  all_goals cases ha
  rfl

variable {as : List (Action Req)}

theorem run_committed [Database D] {b : β} (h : run prog s as = some s') (hs : s.procs t = .committed req b) :
    s'.procs t = .committed req b := by
  induction as generalizing s with
  | nil =>
      cases h
      exact hs
  | cons a as ih =>
      obtain ⟨s₁, hstep, hrest⟩ := run_cons h
      refine ih hrest ?_
      by_cases ha : t = a.txn
      · obtain ⟨u, req, rfl, hu, rfl⟩ | ⟨u, req, γ, f, k, x, d, rfl, hu, -, rfl⟩ | ⟨u, req, b, rfl, hu, rfl⟩ |
          ⟨u, req, p, rfl, hu, rfl⟩ := step_cases hstep
        all_goals
          have ha : t = u := ha
          subst ha
          rw [hs] at hu
          contradiction
      · rw [step_procs hstep ha, hs]

/-- A transaction that is committed in the end has been committed by a step of the run. -/
theorem exists_commit [Database D] {b : β} (h : run prog s as = some s') (hs : ∀ req b, s.procs t ≠ .committed req b)
    (ht : s'.procs t = .committed req b) : ∃ as₁ as₂ s₁ s₂, as = as₁ ++ .commit t :: as₂ ∧ run prog s as₁ = some s₁ ∧
      s₁.procs t = .running req (.pure b) ∧ s₂.db = Database.commit t s₁.db ∧ step prog s₁ (.commit t) = some s₂ ∧
      run prog s₂ as₂ = some s' := by
  induction as generalizing s with
  | nil =>
      cases h
      exact absurd ht (hs req b)
  | cons a as ih =>
      obtain ⟨s₁, hstep, hrest⟩ := run_cons h
      by_cases hcommitted : ∃ req b, s₁.procs t = .committed req b
      · -- it stays committed, so this is the step
        obtain ⟨req', b', hnow⟩ := hcommitted
        have hlast := (run_committed hrest hnow).symm.trans ht
        cases hlast
        have ha : t = a.txn := by
          by_contra ha
          exact hs req b ((step_procs hstep ha).symm.trans hnow)
        obtain ⟨u, req', rfl, -, rfl⟩ | ⟨u, req', γ, f, k, x, d, rfl, -, -, rfl⟩ | ⟨u, req', b', rfl, hu, rfl⟩ |
          ⟨u, req', p, rfl, -, rfl⟩ := step_cases hstep
        all_goals
          have ha : t = u := ha
          subst ha
          have hself := (update_self ..).symm.trans hnow
        case inr.inr.inl =>
          cases hself
          exact ⟨[], as, s, _, rfl, rfl, hu, rfl, hstep, hrest⟩
        all_goals cases hself
      · obtain ⟨as₁, as₂, s₂, s₃, rfl, hrun, hrest⟩ := ih hrest fun req b hc => hcommitted ⟨req, b, hc⟩
        refine ⟨a :: as₁, as₂, s₂, s₃, rfl, ?_, hrest⟩
        rw [run, hstep]
        exact hrun

theorem run_procs [Database D] (h : run prog s as = some s') (ht : ∀ a ∈ as, t ≠ a.txn) : s'.procs t = s.procs t := by
  induction as generalizing s with
  | nil =>
      cases h
      rfl
  | cons a as ih =>
      obtain ⟨s₁, hstep, hrest⟩ := run_cons h
      rw [ih hrest fun b hb => ht b (List.mem_cons_of_mem a hb), step_procs hstep (ht a List.mem_cons_self)]

theorem quiescent_of_run [Database D] {d : D} {s : Sys D ε Req β}
    (h : run prog (Sys.start d) as = some s) (hdone : ∀ a ∈ as, (s.procs a.txn).isRunning = false) : s.quiescent := by
  intro t req p hrunning
  by_cases ht : ∀ a ∈ as, t ≠ a.txn
  · rw [run_procs h ht] at hrunning
    contradiction
  · simp only [not_forall, not_not] at ht
    obtain ⟨a, ha, rfl⟩ := ht
    have hended := hdone a ha
    rw [hrunning] at hended
    contradiction

/-- Without an abort nobody is aborted. -/
theorem not_aborted_of_run [Database D]
    (h : run prog s as = some s') (has : ∀ t, Action.abort t ∉ as) (hs : ∀ t, s.procs t ≠ .aborted) :
    ∀ t, s'.procs t ≠ .aborted := by
  induction as generalizing s with
  | nil =>
      cases h
      exact hs
  | cons a as ih =>
      obtain ⟨s₁, hstep, hrest⟩ := run_cons h
      refine ih hrest (fun t hmem => has t (List.mem_cons_of_mem a hmem)) fun t ht => ?_
      have hupdate : ∀ u c, c ≠ Proc.aborted → update s.procs u c t = .aborted → False := by
        intro u c hc hu
        by_cases hut : t = u
        · subst hut
          exact hc ((update_self t c s.procs).symm.trans hu)
        · exact hs t ((update_of_ne hut c s.procs).symm.trans hu)
      obtain ⟨u, req, rfl, -, rfl⟩ | ⟨u, req, γ, f, k, x, d, rfl, -, -, rfl⟩ | ⟨u, req, b, rfl, -, rfl⟩ |
        ⟨u, req, p, rfl, -, rfl⟩ := step_cases hstep
      · exact hupdate u _ (by simp) ht
      · exact hupdate u _ (by simp) ht
      · exact hupdate u _ (by simp) ht
      · exact has u List.mem_cons_self

/-! ## programs that do not raise -/

namespace Prog

/-- Whatever the database answers, the program raises nothing. -/
def NoRaise : Prog D ε β → Prop
  | .pure _ => True
  | .raise _ => False
  | .stmt _ k => ∀ x, NoRaise (k x)

variable {γ : Type}

theorem NoRaise.bind {p : Prog D ε β} {k : β → Prog D ε γ} (hp : p.NoRaise) (hk : ∀ b, (k b).NoRaise) :
    (p >>= k).NoRaise := by
  induction p with
  | pure b => exact hk b
  | raise e => exact hp.elim
  | stmt f k' ih => exact fun x => ih x (hp x)

theorem NoRaise.exec (f : Txn → D → Option (γ × D)) : NoRaise (exec f : Prog D ε γ) := fun _ => trivial

theorem NoRaise.query (f : Txn → D → γ) : NoRaise (query f : Prog D ε γ) := fun _ => trivial

theorem NoRaise.pure (b : γ) : NoRaise (Pure.pure b : Prog D ε γ) := trivial

theorem NoRaise.ofExcept {x : Except ε γ} {b : γ} (h : x = .ok b) : NoRaise (ofExcept x : Prog D ε γ) := by
  rw [h]
  trivial

theorem NoRaise.rollbackWork [Database D] : NoRaise (rollbackWork : Prog D ε Unit) := .exec _

end Prog

/-- Programs that never raise have raised nothing in any state of a run. -/
theorem noRaise_of_run [Database D]
    (h : run prog s as = some s') (hreq : ∀ t req, Action.begin t req ∈ as → (prog req).NoRaise)
    (hs : ∀ t req p, s.procs t = .running req p → p.NoRaise) :
    ∀ t req p, s'.procs t = .running req p → p.NoRaise := by
  induction as generalizing s with
  | nil =>
      cases h
      exact hs
  | cons a as ih =>
      obtain ⟨s₁, hstep, hrest⟩ := run_cons h
      refine ih hrest (fun t req hmem => hreq t req (List.mem_cons_of_mem a hmem)) ?_
      have hupdate : ∀ u c, (∀ req p, c = Proc.running req p → p.NoRaise) →
          ∀ t req p, update s.procs u c t = .running req p → p.NoRaise := by
        intro u c hc t req p ht
        by_cases hut : t = u
        · subst hut
          exact hc req p ((update_self t c s.procs).symm.trans ht)
        · exact hs t req p ((update_of_ne hut c s.procs).symm.trans ht)
      obtain ⟨u, req, rfl, -, rfl⟩ | ⟨u, req, γ, f, k, x, d, rfl, hproc, -, rfl⟩ | ⟨u, req, b, rfl, -, rfl⟩ |
        ⟨u, req, p, rfl, -, rfl⟩ := step_cases hstep
      · refine hupdate u _ fun req' p hp => ?_
        cases hp
        exact hreq u req List.mem_cons_self
      · have hrest : ∀ x, (k x).NoRaise := hs u req _ hproc
        refine hupdate u _ fun req' p hp => ?_
        cases hp
        exact hrest x
      · exact hupdate u _ fun req' p hp => by cases hp
      · exact hupdate u _ fun req' p hp => by cases hp

theorem result_none_of_raise [Database D] {e : ε} (h : run prog s as = some s')
    (hs : s.procs t = .running req (.raise e)) : (s'.procs t).result = none := by
  suffices hstays : s'.procs t = .running req (.raise e) ∨ s'.procs t = .aborted by
    rcases hstays with hstays | hstays
    all_goals
      rw [hstays]
      rfl
  replace hs : s.procs t = .running req (.raise e) ∨ s.procs t = .aborted := .inl hs
  induction as generalizing s with
  | nil =>
      cases h
      exact hs
  | cons a as ih =>
      obtain ⟨s₁, hstep, hrest⟩ := run_cons h
      refine ih hrest ?_
      by_cases ha : t = a.txn
      · obtain ⟨u, req', rfl, hproc, rfl⟩ | ⟨u, req', γ, f, k, x, d, rfl, hproc, -, rfl⟩ |
          ⟨u, req', b, rfl, hproc, rfl⟩ | ⟨u, req', p, rfl, hproc, rfl⟩ := step_cases hstep
        all_goals
          have ha : t = u := ha
          subst ha
          rw [hproc] at hs
        case inr.inr.inr => exact .inr (update_self ..)
        all_goals rcases hs with hs | hs <;> cases hs
      · rw [step_procs hstep ha]
        exact hs

namespace Table

variable {K V : Type} {tbl tbl' : Table K V} {t u : Txn} {k k' : K} {v v' : V}

/-! ## between two transactions -/

/-- `t` has no row in flight. -/
def Unheld (t : Txn) (tbl : Table K V) : Prop := ∀ k v, tbl.inflight k ≠ some (t, v)

theorem unheld_commit (tbl : Table K V) (t : Txn) : (tbl.commit t).Unheld t := by
  intro k v h
  exact (inflight_commit_eq_some.mp h).2 rfl

theorem unheld_rollback (tbl : Table K V) (t : Txn) : (tbl.rollback t).Unheld t := by
  intro k v h
  exact (inflight_rollback_eq_some.mp h).2 rfl

theorem Unheld.frame (h : tbl.Unheld t) (hf : Frame t tbl tbl') : tbl'.Unheld t :=
  fun k v hin => h k v ((hf.inflight k v).mpr hin)

theorem Unheld.visible (h : tbl.Unheld t) (k : K) : tbl.visible t k = tbl.committed k :=
  visible_of_no_inflight fun v => h k v

theorem Unheld.committed_commit (h : tbl.Unheld t) (k : K) : (tbl.commit t).committed k = tbl.committed k :=
  h.visible k

/-! ## what was written since -/

theorem Frame.version_eq (h : Frame t tbl tbl') : tbl'.version t = tbl.version t := funext h.version

theorem Unheld.version_eq (h : tbl.Unheld t) : tbl.version t = fun _ => none := by
  funext k
  rw [Option.eq_none_iff_forall_ne_some]
  exact fun v hv => h k v (version_eq_some.mp hv)

theorem version_write [DecidableEq K] (tbl : Table K V) (t : Txn) (k : K) (v : V) :
    (tbl.write t k v).version t = update (tbl.version t) k (some v) := by
  funext k'
  refine Option.ext fun w => ?_
  rw [version_eq_some]
  by_cases hk : k' = k
  · subst hk
    rw [inflight_write_self, update_self]
    simp
  · rw [inflight_write_of_ne hk, update_of_ne hk, version_eq_some]

theorem committed_commit_eq (tbl : Table K V) (t : Txn) (k : K) :
    (tbl.commit t).committed k = (tbl.version t k).or (tbl.committed k) := by
  rw [committed_commit]
  rcases visible_cases tbl t k with ⟨v, hin, hvisible⟩ | ⟨hno, hvisible⟩
  · rw [hvisible, version_eq_some.mpr hin]
    rfl
  · have hversion : tbl.version t k = none := by
      rw [Option.eq_none_iff_forall_ne_some]
      exact fun v hv => hno v (version_eq_some.mp hv)
    rw [hvisible, hversion]
    rfl

/-! ## one row since -/

/-- One row is all that `t` has in flight. -/
structure HoldsOnly (t : Txn) (k : K) (v : V) (tbl : Table K V) : Prop where
  holds : tbl.inflight k = some (t, v)
  only : ∀ k' v', tbl.inflight k' = some (t, v') → k' = k

theorem HoldsOnly.frame (h : tbl.HoldsOnly t k v) (hf : Frame t tbl tbl') : tbl'.HoldsOnly t k v :=
  ⟨(hf.inflight k v).mp h.holds, fun k' v' hin => h.only k' v' ((hf.inflight k' v').mpr hin)⟩

/-- The one version that is held. -/
theorem HoldsOnly.unique (h : tbl.HoldsOnly t k v) (hin : tbl.inflight k' = some (t, v')) : k' = k ∧ v' = v := by
  have hk : k' = k := h.only k' v' hin
  subst hk
  have hv : some (t, v') = some (t, v) := hin.symm.trans h.holds
  exact ⟨rfl, (Prod.mk.inj (Option.some.inj hv)).2⟩

/-- Its commit changes one key. -/
theorem HoldsOnly.committed_commit [DecidableEq K] (h : tbl.HoldsOnly t k v) (k' : K) :
    (tbl.commit t).committed k' = if k' = k then some v else tbl.committed k' := by
  rw [Table.committed_commit]
  split
  · next hk => rw [hk, visible_of_inflight h.holds]
  · next hk => exact visible_of_no_inflight fun v' hin => hk (h.only k' v' hin)

theorem Unheld.write [DecidableEq K] (h : tbl.Unheld t) (k : K) (v : V) : (tbl.write t k v).HoldsOnly t k v := by
  refine ⟨inflight_write_self tbl t k v, fun k' v' hin => ?_⟩
  by_contra hk
  rw [inflight_write_of_ne hk] at hin
  exact h k' v' hin

theorem HoldsOnly.write [DecidableEq K] (h : tbl.HoldsOnly t k v) (w : V) : (tbl.write t k w).HoldsOnly t k w := by
  refine ⟨inflight_write_self tbl t k w, fun k' v' hin => ?_⟩
  by_contra hk
  rw [inflight_write_of_ne hk] at hin
  exact hk (h.only k' v' hin)

theorem visible_write [DecidableEq K] (tbl : Table K V) (t : Txn) (k : K) (v : V) :
    (tbl.write t k v).visible t = update (tbl.visible t) k (some v) := by
  funext k'
  by_cases hk : k' = k
  · subst hk
    rw [visible_write_self, update_self]
  · rw [visible_write_of_ne hk, update_of_ne hk]

end Table

end ReadCommitted
