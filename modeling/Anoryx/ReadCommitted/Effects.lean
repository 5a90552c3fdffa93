import Anoryx.ReadCommitted.Exclusive

/-!
# Anoryx.ReadCommitted.Effects

What a process does outside the database: it is done when its statement is executed, and no
rollback takes it back.  The database carries a list of what was done, which no statement
reads.

`Prog.Does` says of a program what it may do, whatever the database answers; what was done in
a schedule was then done by somebody who has begun (`done_of_run`), and each of its requests
may do it.

`Prog.Silent` says that a program does nothing on its way to certain answers; whoever has such
an answer has then done nothing (`silent_of_run`).
-/

namespace ReadCommitted

open Function

variable {D ε Req β E : Type}

namespace Prog

variable {γ : Type}

/-- Whatever the database answers, what `t` does is something with `P`. -/
def Does (done : D → List E) (P : E → Prop) (t : Txn) : Prog D ε β → Prop
  | .pure _ => True
  | .raise _ => True
  | .stmt f k => (∀ d x d', f t d = some (x, d') → ∀ e ∈ done d', e ∈ done d ∨ P e) ∧ ∀ x, Does done P t (k x)

variable {done : D → List E} {P : E → Prop} {t : Txn}

theorem Does.pure (b : β) : Does done P t (Pure.pure b : Prog D ε β) := trivial

theorem Does.raise (e : ε) : Does done P t (raise e : Prog D ε β) := trivial

variable {p : Prog D ε β} {k : β → Prog D ε γ}

/-- What a program does is what its parts do. -/
theorem Does.bind (hp : p.Does done P t) (hk : ∀ b, (k b).Does done P t) :
    (p >>= k).Does done P t := by
  induction p with
  | pure b => exact hk b
  | raise e => trivial
  | stmt f k' ih => exact ⟨hp.1, fun x => ih x (hp.2 x)⟩

variable {f : Txn → D → Option (γ × D)}

theorem Does.exec (h : ∀ d x d', f t d = some (x, d') → ∀ e ∈ done d', e ∈ done d ∨ P e) :
    Does done P t (Prog.exec f : Prog D ε γ) := ⟨h, fun _ => trivial⟩

theorem Does.exec_same (h : ∀ d x d', f t d = some (x, d') → done d' = done d) :
    Does done P t (Prog.exec f : Prog D ε γ) :=
  .exec fun d x d' hf _ he => .inl (h d x d' hf ▸ he)

theorem Does.query (f : Txn → D → γ) : Does done P t (Prog.query f : Prog D ε γ) := by
  refine .exec_same fun d x d' h => ?_
  cases h
  rfl

theorem Does.inserting {f : Txn → D → Option (Bool × D)} {x : ε}
    (h : ∀ d b d', f t d = some (b, d') → ∀ e ∈ done d', e ∈ done d ∨ P e) : Does done P t (Prog.inserting x f) := by
  refine Does.bind (.exec h) fun inserted => ?_
  cases inserted <;> trivial

theorem Does.commitWork [Database D] (h : ∀ d, done (Database.commit t d) = done d) :
    Does done P t (Prog.commitWork : Prog D ε Unit) := by
  refine .exec_same fun d x d' hf => ?_
  cases hf
  exact h d

theorem Does.rollbackWork [Database D] (h : ∀ d, done (Database.rollback t d) = done d) :
    Does done P t (Prog.rollbackWork : Prog D ε Unit) := by
  refine .exec_same fun d x d' hf => ?_
  cases hf
  exact h d

theorem Does.mono {P' : E → Prop} (hP : ∀ e, P e → P' e) (h : p.Does done P t) : p.Does done P' t := by
  induction p with
  | pure b => trivial
  | raise e => trivial
  | stmt f k ih => exact ⟨fun d x d' hf e he => (h.1 d x d' hf e he).imp_right (hP e), fun x => ih x (h.2 x)⟩

theorem Does.of_stepsOf {R : D → D → Prop} (hR : ∀ d d', R d d' → done d' = done d)
    (h : Exclusive.StepsOf t R p) : p.Does done P t := by
  induction p with
  | pure b => trivial
  | raise e => trivial
  | stmt f k ih => exact ⟨fun d x d' hf e he => .inl (hR d d' (h.1 d x d' hf) ▸ he), fun x => ih x (h.2 x)⟩

/-- The program does not end in an answer with `B`. -/
def Avoids (B : β → Prop) : Prog D ε β → Prop
  | .pure b => ¬B b
  | .raise _ => True
  | .stmt _ k => ∀ x, Avoids B (k x)

/-- On its way to an answer with `B`, `t` does nothing. -/
def Silent (done : D → List E) (B : β → Prop) (t : Txn) : Prog D ε β → Prop
  | .pure _ => True
  | .raise _ => True
  | .stmt f k => ∀ x, ((∀ d d', f t d = some (x, d') → ∀ e ∈ done d', e ∈ done d) ∧ Silent done B t (k x)) ∨ Avoids B (k x)

variable {B : γ → Prop}

theorem Avoids.bind (hk : ∀ b, (k b).Avoids B) (p : Prog D ε β) : (p >>= k).Avoids B := by
  induction p with
  | pure b => exact hk b
  | raise e => trivial
  | stmt f k' ih => exact ih

theorem Avoids.silent {p : Prog D ε γ} (h : p.Avoids B) : p.Silent done B t := by
  cases p with
  | pure b => trivial
  | raise e => trivial
  | stmt f k => exact fun x => .inr (h x)

theorem Does.silent {p : Prog D ε γ} (h : p.Does done (fun _ => False) t) : p.Silent done B t := by
  induction p with
  | pure b => trivial
  | raise e => trivial
  | stmt f k ih =>
      exact fun x => .inl ⟨fun d d' hf e he => (h.1 d x d' hf e he).resolve_right id, ih x (h.2 x)⟩

theorem Silent.bind (hp : p.Does done (fun _ => False) t)
    (hk : ∀ b, (k b).Silent done B t) : (p >>= k).Silent done B t := by
  induction p with
  | pure b => exact hk b
  | raise e => trivial
  | stmt f k' ih =>
      exact fun x => .inl ⟨fun d d' hf e he => (hp.1 d x d' hf e he).resolve_right id, ih x (hp.2 x)⟩

end Prog

variable {d d' : D} {t : Txn}

section Run

variable [Database D] {prog : Req → Prog D ε β} {done : D → List E} {P : Txn → Req → E → Prop}

/-- Who is running has begun, and what he may still do is what his request may. -/
def Begun (done : D → List E) (P : Txn → Req → E → Prop) (as : List (Action Req)) (s : Sys D ε Req β) : Prop :=
  (∀ t req p, s.procs t = .running req p → .begin t req ∈ as ∧ p.Does done (P t req) t) ∧
    ∀ e ∈ done s.db, ∃ t req, .begin t req ∈ as ∧ P t req e

variable {as : List (Action Req)} {s : Sys D ε Req β}

/-- **Whatever was done was done by somebody who has begun.** -/
theorem done_of_run (hprog : ∀ t req, (prog req).Does done (P t req) t)
    (hcommit : ∀ t d, done (Database.commit t d) = done d) (hrollback : ∀ t d, done (Database.rollback t d) = done d)
    (hstart : done d = []) (hrun : run prog (Sys.start d) as = some s) :
    ∀ e ∈ done s.db, ∃ t req, .begin t req ∈ as ∧ P t req e := by
  suffices hall : ∀ (past : List (Action Req)) (as : List (Action Req)) (s₀ s : Sys D ε Req β),
      Begun done P past s₀ → run prog s₀ as = some s → Begun done P (past ++ as) s by
    have hbegun : Begun done P [] (Sys.start d : Sys D ε Req β) := by
      refine ⟨fun t req p h => by contradiction, fun e he => ?_⟩
      have he : e ∈ done d := he
      rw [hstart] at he
      exact absurd he List.not_mem_nil
    exact (hall [] as _ s hbegun hrun).2
  intro past as
  induction as generalizing past with
  | nil =>
      intro s₀ s hbegun h
      cases h
      rw [List.append_nil]
      exact hbegun
  | cons a as ih =>
      intro s₀ s hbegun h
      obtain ⟨s₁, hstep, hrest⟩ := run_cons h
      rw [List.append_cons]
      refine ih (past ++ [a]) s₁ s ?_ hrest
      have hkeep : ∀ {b : Action Req}, b ∈ past → b ∈ past ++ [a] := fun hb => List.mem_append_left _ hb
      have hupdate : ∀ t c d, (∀ req p, c = Proc.running req p → .begin t req ∈ past ++ [a] ∧ p.Does done (P t req) t) →
          (∀ e ∈ done d, ∃ t req, .begin t req ∈ past ++ [a] ∧ P t req e) →
          Begun done P (past ++ [a]) ⟨d, update s₀.procs t c⟩ := by
        refine fun t c d hc hd => ⟨fun u req p hu => ?_, hd⟩
        by_cases hut : u = t
        · subst hut
          exact hc req p ((update_self u c s₀.procs).symm.trans hu)
        · obtain ⟨hmem, hdoes⟩ := hbegun.1 u req p ((update_of_ne hut c s₀.procs).symm.trans hu)
          exact ⟨hkeep hmem, hdoes⟩
      have hold : ∀ e ∈ done s₀.db, ∃ t req, .begin t req ∈ past ++ [a] ∧ P t req e := by
        intro e he
        obtain ⟨t, req, hmem, hP⟩ := hbegun.2 e he
        exact ⟨t, req, hkeep hmem, hP⟩
      obtain ⟨t, req, rfl, -, rfl⟩ | ⟨t, req, γ, f, k, x, d', rfl, hproc, hf, rfl⟩ | ⟨t, req, b, rfl, -, rfl⟩ |
        ⟨t, req, p, rfl, -, rfl⟩ := step_cases hstep
      · refine hupdate t _ _ (fun req' p hp => ?_) hold
        cases hp
        exact ⟨List.mem_append_right _ List.mem_cons_self, hprog t req⟩
      · obtain ⟨hmem, hstmt, hrest⟩ : _ ∧ (∀ d x d', f t d = some (x, d') → ∀ e ∈ done d', e ∈ done d ∨ P t req e) ∧
          ∀ x, (k x).Does done (P t req) t := hbegun.1 t req _ hproc
        refine hupdate t _ _ (fun req' p hp => ?_) fun e he => ?_
        · cases hp
          exact ⟨hkeep hmem, hrest x⟩
        · rcases hstmt s₀.db x d' hf e he with he | hP
          · exact hold e he
          · exact ⟨t, req, hkeep hmem, hP⟩
      · refine hupdate t _ _ (fun req' p hp => by contradiction) fun e he => hold e ?_
        exact hcommit t s₀.db ▸ he
      · refine hupdate t _ _ (fun req' p hp => by contradiction) fun e he => hold e ?_
        exact hrollback t s₀.db ▸ he

/-- A transaction of a run has one request. -/
theorem begin_unique (hrun : run prog (Sys.start d) as = some s) {req req' : Req} (h : .begin t req ∈ as)
    (h' : .begin t req' ∈ as) : req = req' := by
  suffices hall : ∀ (as : List (Action Req)) (s₀ s : Sys D ε Req β), run prog s₀ as = some s →
      (s₀.procs t ≠ .idle → ∀ req, .begin t req ∉ as) ∧
        ∀ req req', .begin t req ∈ as → .begin t req' ∈ as → req = req' by
    exact (hall as _ s hrun).2 req req' h h'
  clear h h' hrun
  intro as
  induction as with
  | nil => exact fun _ _ _ => ⟨fun _ _ => List.not_mem_nil, fun _ _ h => absurd h List.not_mem_nil⟩
  | cons a as ih =>
      intro s₀ s hrun
      obtain ⟨s₁, hstep, hrest⟩ := run_cons hrun
      obtain ⟨hnever, hone⟩ := ih s₁ s hrest
      -- who begins is idle, and nobody gets idle again
      have hbegin : ∀ req, a = .begin t req → s₀.procs t = .idle ∧ s₁.procs t ≠ .idle := by
        rintro req rfl
        obtain ⟨u, req', he, hidle, rfl⟩ | ⟨u, req', γ, f, k, x, d', he, -⟩ | ⟨u, req', b, he, -⟩ |
          ⟨u, req', p, he, -⟩ := step_cases hstep
        · cases he
          refine ⟨hidle, fun h => ?_⟩
          have h : update s₀.procs t (.running req (prog req)) t = .idle := h
          rw [update_self] at h
          contradiction
        all_goals contradiction
      have hstay : s₀.procs t ≠ .idle → s₁.procs t ≠ .idle := by
        intro hbusy
        by_cases ht : t = a.txn
        · obtain ⟨u, req', rfl, hidle, rfl⟩ | ⟨u, req', γ, f, k, x, d', rfl, -, -, rfl⟩ | ⟨u, req', b, rfl, -, rfl⟩ |
            ⟨u, req', p, rfl, -, rfl⟩ := step_cases hstep
          all_goals
            have ht : t = u := ht
            subst ht
          · exact absurd hidle hbusy
          all_goals
            show update s₀.procs t _ t ≠ _
            rw [update_self]
            exact fun h => by contradiction
        · rw [step_procs hstep ht]
          exact hbusy
      refine ⟨fun hbusy req hmem => ?_, fun req req' hmem hmem' => ?_⟩
      · rcases List.mem_cons.mp hmem with he | hmem
        · exact hbusy (hbegin req he.symm).1
        · exact hnever (hstay hbusy) req hmem
      · rcases List.mem_cons.mp hmem with he | hmem
        · rcases List.mem_cons.mp hmem' with he' | hmem'
          · exact (Action.begin.inj (he.trans he'.symm)).2
          · exact absurd hmem' (hnever (hbegin req he.symm).2 req')
        · rcases List.mem_cons.mp hmem' with he' | hmem'
          · exact absurd hmem (hnever (hbegin req' he'.symm).2 req)
          · exact hone req req' hmem hmem'

/-! ## answers without effects -/

/-- Nothing was done by `t`. -/
def NoneBy (done : D → List E) (author : E → Txn) (t : Txn) (d : D) : Prop := ∀ e ∈ done d, author e ≠ t

/-- Who has an answer with `B`, or is silent on the way to one, has done nothing. -/
def SilentProc (done : D → List E) (author : E → Txn) (B : Req → β → Prop) (t : Txn) : Proc D ε Req β → D → Prop
  | .idle, d => NoneBy done author t d
  | .running req p, d => p.Does done (fun e => author e = t) t ∧
      ((NoneBy done author t d ∧ p.Silent done (B req) t) ∨ p.Avoids (B req))
  | .committed req b, d => B req b → NoneBy done author t d
  | .aborted, _ => True

variable {author : E → Txn} {B : Req → β → Prop}

omit [Database D] in
theorem SilentProc.mono {c : Proc D ε Req β} (hd : ∀ e ∈ done d', e ∈ done d ∨ author e ≠ t)
    (h : SilentProc done author B t c d) : SilentProc done author B t c d' := by
  have hnone : NoneBy done author t d → NoneBy done author t d' := fun h e he => (hd e he).elim (h e) id
  cases c with
  | idle => exact hnone h
  | running req p => exact ⟨h.1, h.2.imp_left fun h => ⟨hnone h.1, h.2⟩⟩
  | committed req b => exact fun hb => hnone (h hb)
  | aborted => trivial

/-- A step of anybody leaves a silent process without effect. -/
theorem silentProc_step {s s' : Sys D ε Req β} {a : Action Req} (hprog : ∀ t req, (prog req).Silent done (B req) t)
    (hauthor : ∀ t req, (prog req).Does done (fun e => author e = t) t)
    (hcommit : ∀ t d, done (Database.commit t d) = done d) (hrollback : ∀ t d, done (Database.rollback t d) = done d)
    (hstep : step prog s a = some s') (h : ∀ t, SilentProc done author B t (s.procs t) s.db) :
    ∀ t, SilentProc done author B t (s'.procs t) s'.db := by
  -- one process has moved, and it did what was done
  have hmove : ∀ {t c d}, (∀ e ∈ done d, e ∈ done s.db ∨ author e = t) → SilentProc done author B t c d →
      ∀ u, SilentProc done author B u (update s.procs t c u) d := by
    intro t c d hd hself u
    by_cases hu : u = t
    · subst hu
      rw [update_self]
      exact hself
    · rw [update_of_ne hu]
      exact (h u).mono fun e he => (hd e he).imp_right fun ht hu' => hu (hu'.symm.trans ht)
  obtain ⟨t, req, rfl, hproc, rfl⟩ | ⟨t, req, γ, f, k, x, d, rfl, hproc, hf, rfl⟩ | ⟨t, req, b, rfl, hproc, rfl⟩ |
    ⟨t, req, p, rfl, hproc, rfl⟩ := step_cases hstep
  all_goals
    have hself := h t
    rw [hproc] at hself
  · exact hmove (fun _ he => .inl he) ⟨hauthor t req, .inl ⟨hself, hprog t req⟩⟩
  · obtain ⟨hdoes, hways⟩ := hself
    refine hmove (hdoes.1 s.db x d hf) ⟨hdoes.2 x, ?_⟩
    rcases hways with ⟨hnone, hsilent⟩ | havoids
    · rcases hsilent x with ⟨hsame, hrest⟩ | havoids
      · exact .inl ⟨fun e he => hnone e (hsame s.db d hf e he), hrest⟩
      · exact .inr havoids
    · exact .inr (havoids x)
  · refine hmove (fun e he => .inl (hcommit t s.db ▸ he)) fun hb e he => ?_
    exact (hself.2.resolve_right fun hno => hno hb).1 e (hcommit t s.db ▸ he)
  · exact hmove (fun e he => .inl (hrollback t s.db ▸ he)) trivial

/-- **Who has such an answer has done nothing.** -/
theorem silent_of_run (hprog : ∀ t req, (prog req).Silent done (B req) t)
    (hauthor : ∀ t req, (prog req).Does done (fun e => author e = t) t)
    (hcommit : ∀ t d, done (Database.commit t d) = done d) (hrollback : ∀ t d, done (Database.rollback t d) = done d)
    (hstart : done d = []) (hrun : run prog (Sys.start d) as = some s) {req : Req} {b : β} (hb : B req b)
    (hanswered : s.procs t = .running req (.pure b) ∨ s.procs t = .committed req b) : NoneBy done author t s.db := by
  suffices hall : ∀ (as : List (Action Req)) (s₀ : Sys D ε Req β), (∀ t, SilentProc done author B t (s₀.procs t) s₀.db) →
      run prog s₀ as = some s → ∀ t, SilentProc done author B t (s.procs t) s.db by
    have hidle : ∀ t, SilentProc done author B t ((Sys.start d : Sys D ε Req β).procs t) d := by
      intro t e he
      rw [hstart] at he
      exact absurd he List.not_mem_nil
    have hself := hall as _ hidle hrun t
    rcases hanswered with hproc | hproc
    · rw [hproc] at hself
      exact (hself.2.resolve_right fun hno => hno hb).1
    · rw [hproc] at hself
      exact hself hb
  intro as
  induction as with
  | nil =>
      intro s₀ h hrun
      cases hrun
      exact h
  | cons a as ih =>
      intro s₀ h hrun
      obtain ⟨s₁, hstep, hrest⟩ := run_cons hrun
      exact ih s₁ (silentProc_step hprog hauthor hcommit hrollback hstep h) hrest

end Run

end ReadCommitted
