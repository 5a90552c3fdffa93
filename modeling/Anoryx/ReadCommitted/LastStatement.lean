import Anoryx.ReadCommitted.Session

/-!
# Anoryx.ReadCommitted.LastStatement

What the last statement of a program does.

A process that is about to answer has just executed its last statement, or it has none; so a
program that can only end by a statement with `R` (`Prog.EndsBy`) has moved the database along
`R` in the step that led there (`endsBy_step`).
-/

namespace ReadCommitted

variable {D ε Req β : Type}

namespace Prog

variable {γ : Type}

/-- Whatever statement leads the program of `t` to its result moves the database along `R`. -/
def EndsBy (R : D → D → Prop) (t : Txn) : Prog D ε β → Prop
  | .pure _ => True
  | .raise _ => True
  | .stmt f k => ∀ x, (∀ b, k x = .pure b → ∀ d d', f t d = some (x, d') → R d d') ∧ EndsBy R t (k x)

/-- There is a statement before the result. -/
def IsBusy : Prog D ε β → Prop
  | .pure _ => False
  | _ => True

variable {R : D → D → Prop} {t : Txn}

theorem IsBusy.ne_pure {p : Prog D ε β} (h : p.IsBusy) (b : β) : p ≠ .pure b := by
  rintro rfl
  exact h

variable {k : β → Prog D ε γ}

theorem IsBusy.bind (hk : ∀ b, (k b).IsBusy) (p : Prog D ε β) : (p >>= k).IsBusy := by
  cases p with
  | pure b => exact hk b
  | raise e => trivial
  | stmt f k' => trivial

theorem isBusy_exec (f : Txn → D → Option (γ × D)) (k : γ → Prog D ε β) : (exec f >>= k).IsBusy := trivial

theorem EndsBy.bind (hbusy : ∀ b, (k b).IsBusy) (hk : ∀ b, (k b).EndsBy R t) (p : Prog D ε β) :
    (p >>= k).EndsBy R t := by
  induction p with
  | pure b => exact hk b
  | raise e => trivial
  | stmt f k' ih => exact fun x => ⟨fun b hb => absurd hb ((IsBusy.bind hbusy (k' x)).ne_pure b), ih x⟩

theorem EndsBy.of_forall (h : ∀ d d', R d d') (p : Prog D ε β) : p.EndsBy R t := by
  induction p with
  | pure b => trivial
  | raise e => trivial
  | stmt f k ih => exact fun x => ⟨fun _ _ d d' _ => h d d', ih x⟩

end Prog

variable [Database D] {prog : Req → Prog D ε β} {R : Req → D → D → Prop}

variable {s s' s₀ : Sys D ε Req β} {as : List (Action Req)}

theorem endsBy_of_run (hprog : ∀ t req, (prog req).EndsBy (R req) t) (hrun : run prog s as = some s')
    (hs : ∀ t req p, s.procs t = .running req p → p.EndsBy (R req) t) :
    ∀ t req p, s'.procs t = .running req p → p.EndsBy (R req) t := by
  induction as generalizing s with
  | nil =>
      cases hrun
      exact hs
  | cons a as ih =>
      obtain ⟨s₁, hstep, hrest⟩ := run_cons hrun
      refine ih hrest fun u req p hu => ?_
      by_cases ha : u = a.txn
      · obtain ⟨t, req', rfl, -, rfl⟩ | ⟨t, req', γ, f, k, x, d, rfl, hproc, -, rfl⟩ | ⟨t, req', b, rfl, -, rfl⟩ |
          ⟨t, req', p', rfl, -, rfl⟩ := step_cases hstep
        all_goals
          have ha : u = t := ha
          subst ha
          have hself := (Function.update_self ..).symm.trans hu
          cases hself
        · exact hprog u req
        · exact (hs u req _ hproc x).2
      · exact hs u req p ((step_procs hstep ha).symm.trans hu)

/-- **The step that ends a program** does what the program ends by. -/
theorem endsBy_step {t : Txn} {req : Req} {b : β} (hprog : ∀ t req, (prog req).EndsBy (R req) t)
    (hidle : ∀ t req p, s₀.procs t ≠ .running req p) (hrun : run prog s₀ as = some s)
    (hstep : step prog s (.exec t) = some s') (ht : s'.procs t = .running req (.pure b)) : R req s.db s'.db := by
  obtain ⟨u, req', ha, -, -⟩ | ⟨u, req', γ, f, k, x, d, ha, hproc, hf, rfl⟩ | ⟨u, req', b', ha, -, -⟩ |
    ⟨u, req', p, ha, -, -⟩ := step_cases hstep
  all_goals cases ha
  have hends := endsBy_of_run hprog hrun (fun t req p hp => absurd hp (hidle t req p)) t req' _ hproc
  have hself : Function.update s.procs t (.running req' (k x)) t = .running req (.pure b) := ht
  rw [Function.update_self] at hself
  obtain ⟨rfl, hk⟩ := Proc.running.inj hself
  exact (hends x).1 b hk s.db d hf

end ReadCommitted
