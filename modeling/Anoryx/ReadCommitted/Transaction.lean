import Anoryx.ReadCommitted.Table

/-!
# Anoryx.ReadCommitted.Transaction

Transaction programs and the runs of a database that serves them.

A transaction is a `Prog`: a tree of statements, each of them one atomic
access to the database that may have to wait (`none`).  Between two
statements of one transaction any other transaction may move; that is all
READ COMMITTED promises, so a statement sees whatever was committed before it
started.  `Prog D ε` is a monad and the programs of a development are written
in `do` notation.

`step` runs a system of transactions one action at a time: a transaction
begins, executes its next statement, commits its result or is aborted (by an
exception, a deadlock or a lost connection, at any point).  `run` takes a list
of actions, so a schedule is a value that can be evaluated.
-/

namespace ReadCommitted

open Function

/-- A transaction over the database `D` that raises errors of `ε` and returns
a `β`. -/
inductive Prog (D ε β : Type) : Type 1
  | pure (b : β)
  | raise (e : ε)
  | stmt {γ : Type} (f : Txn → D → Option (γ × D)) (k : γ → Prog D ε β)

variable {t : Txn}

namespace Prog

variable {D ε β γ : Type}

/-- Sequential composition. -/
def bind : Prog D ε β → (β → Prog D ε γ) → Prog D ε γ
  | pure b, k => k b
  | raise e, _ => raise e
  | stmt f k', k => stmt f fun x => bind (k' x) k

instance : Monad (Prog D ε) where
  pure := pure
  bind := bind

theorem stmt_bind {δ : Type} (f : Txn → D → Option (δ × D)) (k' : δ → Prog D ε β)
    (k : β → Prog D ε γ) : (stmt f k' >>= k) = stmt f fun x => k' x >>= k := rfl

/-- A statement that may write, and may have to wait. -/
def exec (f : Txn → D → Option (γ × D)) : Prog D ε γ := stmt f pure

/-- A SELECT: it never waits and changes nothing. -/
def query (f : Txn → D → γ) : Prog D ε γ := exec fun t d => some (f t d, d)

/-- A statement that the database may refuse with an error. -/
def checked (f : Txn → D → Option (Except ε γ × D)) : Prog D ε γ := do
  match ← exec f with
  | .ok x => Pure.pure x
  | .error e => raise e

/-- An INSERT that has to go in: `e` when there is a row under its key. -/
def inserting (e : ε) (f : Txn → D → Option (Bool × D)) : Prog D ε Unit := do
  let inserted ← exec f
  if inserted then Pure.pure () else raise e

/-- A computation without the database, that may raise. -/
def ofExcept : Except ε β → Prog D ε β
  | .ok b => pure b
  | .error e => raise e

/-- Run a program alone: the outcome and the database it leaves behind, `none`
when a statement has to wait for another transaction. -/
def eval (t : Txn) : Prog D ε β → D → Option (Except ε β × D)
  | pure b, d => some (.ok b, d)
  | raise e, d => some (.error e, d)
  | stmt f k, d =>
      match f t d with
      | none => none
      | some (x, d') => eval t (k x) d'

@[simp] theorem eval_pure (t : Txn) (b : β) (d : D) :
    (Pure.pure b : Prog D ε β).eval t d = some (.ok b, d) := rfl

@[simp] theorem eval_raise (t : Txn) (e : ε) (d : D) :
    (raise e : Prog D ε β).eval t d = some (.error e, d) := rfl

@[simp] theorem eval_query (t : Txn) (f : Txn → D → γ) (d : D) :
    (query f : Prog D ε γ).eval t d = some (.ok (f t d), d) := rfl

theorem eval_exec (t : Txn) (f : Txn → D → Option (γ × D)) (d : D) :
    (exec f : Prog D ε γ).eval t d = (f t d).map fun p => (.ok p.1, p.2) := by
  unfold exec
  simp only [eval]
  cases f t d <;> rfl

/-- A program that waits or raises ends there. -/
theorem eval_bind (t : Txn) (p : Prog D ε β) (k : β → Prog D ε γ) (d : D) :
    (p >>= k).eval t d =
      match p.eval t d with
      | none => none
      | some (.error e, d') => some (.error e, d')
      | some (.ok b, d') => (k b).eval t d' := by
  induction p generalizing d with
  | pure b => rfl
  | raise e => rfl
  | stmt f k' ih =>
      rw [stmt_bind]
      simp only [eval]
      cases h : f t d with
      | none => rfl
      | some q => exact ih q.1 q.2

@[simp] theorem eval_ofExcept (t : Txn) (x : Except ε β) (d : D) :
    (ofExcept x : Prog D ε β).eval t d = some (x, d) := by
  cases x <;> rfl

theorem eval_query_bind (t : Txn) (f : Txn → D → β) (k : β → Prog D ε γ) (d : D) :
    (query f >>= k).eval t d = (k (f t d)).eval t d := rfl

variable {k : β → Prog D ε γ} {d d' : D} {f : Txn → D → Option (Bool × D)} {c : γ}

theorem eval_exec_bind {f : Txn → D → Option (β × D)} {x : β} (h : f t d = some (x, d')) :
    (exec f >>= k).eval t d = (k x).eval t d' := by
  rw [eval_bind, eval_exec, h]
  rfl

theorem eval_inserting_bind {e : ε} {k : Unit → Prog D ε γ} (h : f t d = some (true, d')) :
    (inserting e f >>= k).eval t d = (k ()).eval t d' := by
  rw [eval_bind, inserting, eval_exec_bind h]
  rfl

theorem eval_ofExcept_bind {x : Except ε β} {b : β} (h : x = .ok b) :
    (ofExcept x >>= k).eval t d = (k b).eval t d := by
  rw [h]
  rfl

/-- A successful evaluation has a state between its two parts. -/
theorem eval_bind_eq_ok {p : Prog D ε β} :
    (p >>= k).eval t d = some (.ok c, d') ↔
      ∃ b d₁, p.eval t d = some (.ok b, d₁) ∧ (k b).eval t d₁ = some (.ok c, d') := by
  rw [eval_bind]
  split <;> grind

theorem eval_inserting_bind_eq_ok {e : ε} {k : Unit → Prog D ε γ}
    (h : (inserting e f >>= k).eval t d = some (.ok c, d')) :
    ∃ d₁, f t d = some (true, d₁) ∧ (k ()).eval t d₁ = some (.ok c, d') := by
  obtain ⟨_, d₁, hins, hrest⟩ := eval_bind_eq_ok.mp h
  obtain ⟨b, d₂, hexec, hb⟩ := eval_bind_eq_ok.mp hins
  rw [eval_exec] at hexec
  obtain ⟨⟨b', d₃⟩, hf, he⟩ := Option.map_eq_some_iff.mp hexec
  obtain ⟨hok, rfl⟩ := Prod.mk.inj he
  obtain rfl := Except.ok.inj hok
  cases b' with
  | false => exact absurd hb (by simp)
  | true =>
      cases hb
      exact ⟨d₃, hf, hrest⟩

theorem eval_checked_eq_ok {f : Txn → D → Option (Except ε γ × D)} :
    (checked f : Prog D ε γ).eval t d = some (.ok c, d') ↔ f t d = some (.ok c, d') := by
  rw [checked, eval_bind_eq_ok]
  constructor
  · rintro ⟨r, d₁, hexec, hrest⟩
    rw [eval_exec] at hexec
    obtain ⟨⟨r', d₂⟩, hf, he⟩ := Option.map_eq_some_iff.mp hexec
    obtain ⟨hr, rfl⟩ := Prod.mk.inj he
    obtain rfl := Except.ok.inj hr
    cases r' with
    | error e => simp at hrest
    | ok x => simp_all
  · intro hf
    exact ⟨.ok c, d', by rw [eval_exec, hf]; rfl, rfl⟩

end Prog

/-- How a transaction ends. -/
class Database (D : Type) where
  commit : Txn → D → D
  rollback : Txn → D → D

/-- Run a program alone and end its transaction: a raised error rolls back. -/
def atomically {D ε β : Type} [Database D] (t : Txn) (p : Prog D ε β) (d : D) :
    Option (Except ε β × D) :=
  match p.eval t d with
  | none => none
  | some (.ok b, d') => some (.ok b, Database.commit t d')
  | some (.error e, d') => some (.error e, Database.rollback t d')

theorem atomically_of_ok {D ε β : Type} [Database D] {p : Prog D ε β} {d d' : D} {b : β}
    (h : p.eval t d = some (.ok b, d')) :
    atomically t p d = some (.ok b, Database.commit t d') := by
  rw [atomically, h]

theorem atomically_of_error {D ε β : Type} [Database D] {p : Prog D ε β} {d d' : D} {e : ε}
    (h : p.eval t d = some (.error e, d')) :
    atomically t p d = some (.error e, Database.rollback t d') := by
  rw [atomically, h]

theorem atomically_eq_ok {D ε β : Type} [Database D] {p : Prog D ε β} {d d' : D} {b : β}
    (h : atomically t p d = some (.ok b, d')) :
    ∃ d₁, p.eval t d = some (.ok b, d₁) ∧ d' = Database.commit t d₁ := by
  unfold atomically at h
  split at h <;> grind

/-! ## programs that run alone -/

namespace Prog

variable {D ε β γ : Type}

/-- Running alone, `p` moves the database along `R`. -/
def Moves (t : Txn) (R : D → D → Prop) (p : Prog D ε β) : Prop :=
  ∀ d r d', p.eval t d = some (r, d') → R d d'

/-- From a database with `I`, `p` runs alone to its end and leaves one with `I`:
no statement of it has to wait. -/
def Completes (t : Txn) (I : D → Prop) (p : Prog D ε β) : Prop :=
  ∀ d, I d → ∃ r d', p.eval t d = some (r, d') ∧ I d'

variable {f : Txn → D → Option (γ × D)} {p : Prog D ε β} {k : β → Prog D ε γ}

section Moves

variable {t : Txn} {R : D → D → Prop}

theorem Moves.pure (hrefl : ∀ d, R d d) (b : β) : Moves t R (Pure.pure b : Prog D ε β) := by
  intro d r d' h
  cases h
  exact hrefl d

theorem Moves.raise (hrefl : ∀ d, R d d) (e : ε) : Moves t R (raise e : Prog D ε β) := by
  intro d r d' h
  cases h
  exact hrefl d

theorem Moves.query (hrefl : ∀ d, R d d) (f : Txn → D → γ) :
    Moves t R (query f : Prog D ε γ) := by
  intro d r d' h
  cases h
  exact hrefl d

theorem Moves.exec (h : ∀ d x d', f t d = some (x, d') → R d d') :
    Moves t R (exec f : Prog D ε γ) := by
  intro d r d' hd
  rw [eval_exec] at hd
  obtain ⟨⟨x, d₁⟩, hf, he⟩ := Option.map_eq_some_iff.mp hd
  cases he
  exact h d x d₁ hf

/-- The moves of a program are those of its statements, one after the other. -/
theorem Moves.bind (htrans : ∀ {a b c}, R a b → R b c → R a c) (hp : Moves t R p)
    (hk : ∀ b, Moves t R (k b)) : Moves t R (p >>= k) := by
  intro d r d' h
  rw [eval_bind] at h
  cases he : p.eval t d with
  | none => simp [he] at h
  | some q =>
      obtain ⟨x, d₁⟩ := q
      have h₁ : R d d₁ := hp d x d₁ he
      cases x with
      | error e =>
          simp only [he, Option.some.injEq, Prod.mk.injEq] at h
          exact h.2 ▸ h₁
      | ok b =>
          simp only [he] at h
          exact htrans h₁ (hk b d₁ r d' h)

end Moves

section Completes

variable {t : Txn} {I : D → Prop}

theorem Completes.pure (b : β) : Completes t I (Pure.pure b : Prog D ε β) :=
  fun d hd => ⟨.ok b, d, rfl, hd⟩

theorem Completes.raise (e : ε) : Completes t I (raise e : Prog D ε β) :=
  fun d hd => ⟨.error e, d, rfl, hd⟩

theorem Completes.query (f : Txn → D → γ) : Completes t I (query f : Prog D ε γ) :=
  fun d hd => ⟨.ok (f t d), d, rfl, hd⟩

theorem Completes.exec (h : ∀ d, I d → ∃ x d', f t d = some (x, d') ∧ I d') :
    Completes t I (exec f : Prog D ε γ) := by
  intro d hd
  obtain ⟨x, d', hf, hI⟩ := h d hd
  exact ⟨.ok x, d', by rw [eval_exec, hf]; rfl, hI⟩

theorem Completes.bind (hp : Completes t I p) (hk : ∀ b, Completes t I (k b)) :
    Completes t I (p >>= k) := by
  intro d hd
  obtain ⟨x, d₁, he, h₁⟩ := hp d hd
  rw [eval_bind, he]
  cases x with
  | error e => exact ⟨.error e, d₁, rfl, h₁⟩
  | ok b => exact hk b d₁ h₁

end Completes

end Prog

/-! ## what a program returns -/

namespace Prog

variable {D ε β γ : Type}

/-- Whatever the database answers, the program raises or returns something with `P`. -/
def Returns (P : β → Prop) : Prog D ε β → Prop
  | .pure b => P b
  | .raise _ => True
  | .stmt _ k => ∀ x, Returns P (k x)

variable {P P' : β → Prop} {p : Prog D ε β}

theorem Returns.pure {b : β} (h : P b) : Returns P (Pure.pure b : Prog D ε β) := h

theorem Returns.mono (hP : ∀ b, P b → P' b) (h : p.Returns P) : p.Returns P' := by
  induction p with
  | pure b => exact hP b h
  | raise e => trivial
  | stmt f k ih => exact fun x => ih x (h x)

theorem Returns.bind {P : γ → Prop} {k : β → Prog D ε γ} (h : p.Returns fun b => (k b).Returns P) :
    (p >>= k).Returns P := by
  induction p with
  | pure b => exact h
  | raise e => trivial
  | stmt f k' ih => exact fun x => ih x (h x)

theorem Returns.inserting_bind {P : γ → Prop} {e : ε} {f : Txn → D → Option (Bool × D)}
    {k : Unit → Prog D ε γ} (h : (k ()).Returns P) : (inserting e f >>= k).Returns P := by
  intro b
  cases b with
  | false => trivial
  | true => exact h

theorem Returns.eval (h : p.Returns P) {d d' : D} {b : β} (he : p.eval t d = some (.ok b, d')) :
    P b := by
  induction p generalizing d with
  | pure b' =>
      cases he
      exact h
  | raise e => cases he
  | stmt f k ih =>
      unfold Prog.eval at he
      split at he
      · contradiction
      · exact ih _ (h _) he

end Prog

/-! ## what the statements of a program do -/

namespace Prog

variable {D ε β γ : Type}

/-- Whatever the database answers, every statement of the program moves it along `R`. -/
def Each (R : D → D → Prop) : Prog D ε β → Prop
  | .pure _ => True
  | .raise _ => True
  | .stmt f k => (∀ t d x d', f t d = some (x, d') → R d d') ∧ ∀ x, Each R (k x)

variable {R : D → D → Prop}

theorem Each.pure (b : β) : Each R (Pure.pure b : Prog D ε β) := trivial

theorem Each.raise (e : ε) : Each R (raise e : Prog D ε β) := trivial

theorem Each.bind {p : Prog D ε β} {k : β → Prog D ε γ} (hp : p.Each R) (hk : ∀ b, (k b).Each R) :
    (p >>= k).Each R := by
  induction p with
  | pure b => exact hk b
  | raise e => trivial
  | stmt f k' ih => exact ⟨hp.1, fun x => ih x (hp.2 x)⟩

theorem Each.exec {f : Txn → D → Option (γ × D)} (h : ∀ t d x d', f t d = some (x, d') → R d d') :
    Each R (exec f : Prog D ε γ) := ⟨h, fun _ => trivial⟩

theorem Each.query (hrefl : ∀ d, R d d) (f : Txn → D → γ) : Each R (query f : Prog D ε γ) := by
  refine .exec fun t d x d' h => ?_
  cases h
  exact hrefl d

theorem Each.inserting {f : Txn → D → Option (Bool × D)} (e : ε)
    (h : ∀ t d b d', f t d = some (b, d') → R d d') : Each R (inserting e f : Prog D ε Unit) := by
  refine (Each.exec h).bind fun inserted => ?_
  cases inserted <;> trivial

theorem Each.ofExcept (x : Except ε β) : Each R (ofExcept x : Prog D ε β) := by
  cases x <;> trivial

end Prog

/-! ## systems of transactions -/

/-- Where a transaction stands. -/
inductive Proc (D ε Req β : Type) : Type 1
  | idle
  | running (req : Req) (p : Prog D ε β)
  | committed (req : Req) (b : β)
  | aborted

/-- The result of a transaction that has committed. -/
def Proc.result {D ε Req β : Type} : Proc D ε Req β → Option β
  | committed _ b => some b
  | _ => none

theorem Proc.result_eq_some {D ε Req β : Type} {c : Proc D ε Req β} {b : β}
    (h : c.result = some b) : ∃ req, c = .committed req b := by
  cases c with
  | committed req b' =>
      cases h
      exact ⟨req, rfl⟩
  | idle => contradiction
  | running req p => contradiction
  | aborted => contradiction

/-- The database and every transaction on it. -/
structure Sys (D ε Req β : Type) where
  db : D
  procs : Txn → Proc D ε Req β

/-- What can happen next. -/
inductive Action (Req : Type)
  | begin (t : Txn) (req : Req)
  | exec (t : Txn)
  | commit (t : Txn)
  | abort (t : Txn)

/-- The transaction an action belongs to. -/
def Action.txn {Req : Type} : Action Req → Txn
  | begin t _ => t
  | exec t => t
  | commit t => t
  | abort t => t

section System

variable {D ε Req β : Type} [Database D]

/-- The system with nothing started. -/
def Sys.start (d : D) : Sys D ε Req β := ⟨d, fun _ => .idle⟩

/-- No transaction is open. -/
def Sys.quiescent (s : Sys D ε Req β) : Prop := ∀ t req p, s.procs t ≠ .running req p

variable (prog : Req → Prog D ε β)

/-- One action; `none` when it is not enabled. -/
def step (s : Sys D ε Req β) : Action Req → Option (Sys D ε Req β)
  | .begin t req =>
      match s.procs t with
      | .idle => some ⟨s.db, update s.procs t (.running req (prog req))⟩
      | _ => none
  | .exec t =>
      match s.procs t with
      | .running req (.stmt f k) =>
          match f t s.db with
          | some (x, d) => some ⟨d, update s.procs t (.running req (k x))⟩
          | none => none
      | _ => none
  | .commit t =>
      match s.procs t with
      | .running req (.pure b) =>
          some ⟨Database.commit t s.db, update s.procs t (.committed req b)⟩
      | _ => none
  | .abort t =>
      match s.procs t with
      | .running _ _ => some ⟨Database.rollback t s.db, update s.procs t .aborted⟩
      | _ => none

/-- A schedule: one action after the other. -/
def run (s : Sys D ε Req β) : List (Action Req) → Option (Sys D ε Req β)
  | [] => some s
  | a :: as =>
      match step prog s a with
      | some s' => run s' as
      | none => none

variable {prog}

variable {s s' s₀ s₁ : Sys D ε Req β} {a : Action Req} {as as₀ : List (Action Req)}

theorem step_cases (h : step prog s a = some s') :
    (∃ t req, a = .begin t req ∧ s.procs t = .idle ∧
        s' = ⟨s.db, update s.procs t (.running req (prog req))⟩) ∨
      (∃ (t : Txn) (req : Req) (γ : Type) (f : Txn → D → Option (γ × D))
          (k : γ → Prog D ε β) (x : γ) (d : D),
        a = .exec t ∧ s.procs t = .running req (.stmt f k) ∧ f t s.db = some (x, d) ∧
          s' = ⟨d, update s.procs t (.running req (k x))⟩) ∨
      (∃ t req b, a = .commit t ∧ s.procs t = .running req (.pure b) ∧
        s' = ⟨Database.commit t s.db, update s.procs t (.committed req b)⟩) ∨
      (∃ t req p, a = .abort t ∧ s.procs t = .running req p ∧
        s' = ⟨Database.rollback t s.db, update s.procs t .aborted⟩) := by
  cases a with
  | begin t req =>
      cases hp : s.procs t with
      | idle =>
          simp only [step, hp, Option.some.injEq] at h
          exact .inl ⟨t, req, rfl, hp, h.symm⟩
      | running _ _ => simp [step, hp] at h
      | committed _ _ => simp [step, hp] at h
      | aborted => simp [step, hp] at h
  | exec t =>
      cases hp : s.procs t with
      | running req p =>
          cases p with
          | stmt f k =>
              simp only [step, hp] at h
              cases hf : f t s.db with
              | none => simp [hf] at h
              | some q =>
                  obtain ⟨x, d⟩ := q
                  simp only [hf, Option.some.injEq] at h
                  exact .inr (.inl ⟨t, req, _, f, k, x, d, rfl, hp, hf, h.symm⟩)
          | pure b => simp [step, hp] at h
          | raise e => simp [step, hp] at h
      | idle => simp [step, hp] at h
      | committed _ _ => simp [step, hp] at h
      | aborted => simp [step, hp] at h
  | commit t =>
      cases hp : s.procs t with
      | running req p =>
          cases p with
          | pure b =>
              simp only [step, hp, Option.some.injEq] at h
              exact .inr (.inr (.inl ⟨t, req, b, rfl, hp, h.symm⟩))
          | stmt f k => simp [step, hp] at h
          | raise e => simp [step, hp] at h
      | idle => simp [step, hp] at h
      | committed _ _ => simp [step, hp] at h
      | aborted => simp [step, hp] at h
  | abort t =>
      cases hp : s.procs t with
      | running req p =>
          simp only [step, hp, Option.some.injEq] at h
          exact .inr (.inr (.inr ⟨t, req, p, rfl, hp, h.symm⟩))
      | idle => simp [step, hp] at h
      | committed _ _ => simp [step, hp] at h
      | aborted => simp [step, hp] at h

theorem run_cons (h : run prog s (a :: as) = some s') :
    ∃ s₁, step prog s a = some s₁ ∧ run prog s₁ as = some s' := by
  unfold run at h
  cases hs : step prog s a with
  | none => simp [hs] at h
  | some s₁ => exact ⟨s₁, rfl, by simpa [hs] using h⟩

theorem run_append (h₀ : run prog s as₀ = some s₀) (h : run prog s₀ as = some s₁) :
    run prog s (as₀ ++ as) = some s₁ := by
  induction as₀ generalizing s with
  | nil =>
      cases h₀
      exact h
  | cons a as₀ ih =>
      obtain ⟨s', hstep, hrest⟩ := run_cons h₀
      rw [List.cons_append, run, hstep]
      exact ih hrest

end System

end ReadCommitted
