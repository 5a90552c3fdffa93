import Mathlib

/-!
# Anoryx.Raising

Programs over a state that may raise.  What a program has done to the state before it
raises stays done, and `except` goes on from there.

`Keeps f p` says that `p` leaves what `f` reads of the state alone, however it ends.
-/

namespace Raising

theorem ok_bind {E α β : Type} (a : α) (g : α → Except E β) : ((.ok a : Except E α) >>= g) = g a := rfl

theorem error_bind {E α β : Type} (e : E) (g : α → Except E β) : ((.error e : Except E α) >>= g) = .error e := rfl

/-- Both computations have succeeded. -/
theorem bind_eq_ok {E α β : Type} {x : Except E α} {g : α → Except E β} {b : β} :
    (x >>= g) = .ok b ↔ ∃ a, x = .ok a ∧ g a = .ok b := by
  cases x with
  | error e => simp [bind, Except.bind]
  | ok a => simp [bind, Except.bind]

/-- The first error is the error of the whole. -/
theorem bind_eq_error {E α β : Type} {x : Except E α} {g : α → Except E β} {e : E} :
    (x >>= g) = .error e ↔ x = .error e ∨ ∃ a, x = .ok a ∧ g a = .error e := by
  cases x with
  | error e => simp [bind, Except.bind]
  | ok a => simp [bind, Except.bind]

/-- `if c: raise e` -/
def raiseIf {E : Type} (c : Prop) [Decidable c] (e : E) : Except E Unit := if c then .error e else .ok ()

/-- A guard passes just when its condition does not hold. -/
theorem raiseIf_eq_ok {E : Type} {c : Prop} [Decidable c] {e : E} : raiseIf c e = .ok () ↔ ¬ c := by
  unfold raiseIf
  split <;> simp [*]

/-- A guard raises its own error and no other. -/
theorem raiseIf_eq_error {E : Type} {c : Prop} [Decidable c] {e e' : E} : raiseIf c e = .error e' ↔ c ∧ e = e' := by
  unfold raiseIf
  split <;> simp [*]

/-- What follows a check runs only if the check passes. -/
theorem check_bind_eq_ok {E β : Type} {check : Except E Unit} {g : Unit → Except E β} {b : β} :
    (check >>= g) = .ok b ↔ check = .ok () ∧ g () = .ok b := by
  rw [bind_eq_ok]
  exact ⟨fun ⟨_, h⟩ => h, fun h => ⟨(), h⟩⟩

/-- A check of every element passes just when each of them does. -/
theorem forM_eq_ok {E α : Type} {check : α → Except E Unit} {xs : List α} :
    xs.forM check = .ok () ↔ ∀ x ∈ xs, check x = .ok () := by
  induction xs with
  | nil => simp [pure, Except.pure]
  | cons x xs ih =>
      rw [List.forall_mem_cons, ← ih]
      exact check_bind_eq_ok

/-- A program with states `S` that raises `E`. -/
abbrev Prog (E S α : Type) := ExceptT E (StateM S) α

variable {E S α β γ : Type} {p : Prog E S α} {f : α → Prog E S β} {view : S → γ}

namespace Prog

/-- How a program ends, and the state that it leaves. -/
def exec (p : Prog E S α) (s : S) : Except E α × S := Id.run (StateT.run (ExceptT.run p) s)

/-- A value, or what is raised in its place -/
def ofExcept : Except E α → Prog E S α
  | .ok a => pure a
  | .error e => throw e

/-- `try: p; except: handler` -/
def catching (p : Prog E S α) (handler : E → Prog E S α) : Prog E S α := tryCatch p handler

@[simp] theorem exec_pure (a : α) (s : S) : (pure a : Prog E S α).exec s = (.ok a, s) := rfl

@[simp] theorem exec_throw (e : E) (s : S) : (throw e : Prog E S α).exec s = (.error e, s) := rfl

@[simp] theorem exec_modify (g : S → S) (s : S) : (modify g : Prog E S Unit).exec s = (.ok (), g s) := rfl

@[simp] theorem exec_get (s : S) : (get : Prog E S S).exec s = (.ok s, s) := rfl

@[simp] theorem exec_ofExcept (x : Except E α) (s : S) : (ofExcept x).exec s = (x, s) := by
  cases x <;> rfl

/-- An error keeps the state in which it was raised. -/
theorem exec_bind (p : Prog E S α) (f : α → Prog E S β) (s : S) : (p >>= f).exec s =
    match p.exec s with
    | (.ok a, s') => (f a).exec s'
    | (.error e, s') => (.error e, s') := by
  show Id.run (StateT.run (ExceptT.run p) s >>= fun r => StateT.run (ExceptT.bindCont f r.1) r.2) = _
  unfold exec
  rcases h : Id.run (StateT.run (ExceptT.run p) s) with ⟨r, s'⟩
  have h : StateT.run (ExceptT.run p) s = (r, s') := h
  rw [h]
  cases r <;> rfl

/-- A successful run has a state between its two parts. -/
theorem exec_bind_eq_ok {b : β} {s s'' : S} : (p >>= f).exec s = (.ok b, s'') ↔
    ∃ a s', p.exec s = (.ok a, s') ∧ (f a).exec s' = (.ok b, s'') := by
  rw [exec_bind]
  constructor
  · intro h
    split at h
    · next a s' hp => exact ⟨a, s', hp, h⟩
    · simp at h
  · rintro ⟨a, s', hp, h⟩
    rw [hp]
    exact h

theorem exec_bind_of_ok {a : α} {s s' : S} (h : p.exec s = (.ok a, s')) : (p >>= f).exec s = (f a).exec s' := by
  rw [exec_bind, h]

theorem exec_bind_of_error {e : E} {s s' : S} (h : p.exec s = (.error e, s')) :
    (p >>= f).exec s = (.error e, s') := by
  rw [exec_bind, h]

@[simp] theorem exec_map (g : α → β) (p : Prog E S α) (s : S) :
    (g <$> p).exec s = ((p.exec s).1.map g, (p.exec s).2) := by
  rw [← bind_pure_comp, exec_bind]
  rcases p.exec s with ⟨r, s'⟩
  cases r <;> rfl

@[simp] theorem exec_ofExcept_bind (x : Except E α) (f : α → Prog E S β) (s : S) : (ofExcept x >>= f).exec s =
    match x with
    | .ok a => (f a).exec s
    | .error e => (.error e, s) := by
  cases x <;> rfl

@[simp] theorem exec_modify_bind (g : S → S) (f : Unit → Prog E S β) (s : S) :
    ((modify g : Prog E S Unit) >>= f).exec s = (f ()).exec (g s) := rfl

@[simp] theorem exec_get_bind (f : S → Prog E S β) (s : S) :
    ((get : Prog E S S) >>= f).exec s = (f s).exec s := rfl

/-- A handler starts in the state that the error has left. -/
theorem exec_catching (p : Prog E S α) (handler : E → Prog E S α) (s : S) : (p.catching handler).exec s =
    match p.exec s with
    | (.ok a, s') => (.ok a, s')
    | (.error e, s') => (handler e).exec s' := by
  unfold exec
  rcases h : Id.run (StateT.run (ExceptT.run p) s) with ⟨r, s'⟩
  have h : StateT.run (ExceptT.run p) s = (r, s') := h
  show Id.run (StateT.run (ExceptT.run p) s >>= fun r => StateT.run (match r.1 with
    | .ok a => (pure a : Prog E S α)
    | .error e => handler e) r.2) = _
  rw [h]
  cases r <;> rfl

/-! ## what a program leaves alone -/

/-- The program leaves what `view` reads of the state alone. -/
def Keeps (view : S → γ) (p : Prog E S α) : Prop := ∀ s, view (p.exec s).2 = view s

/-- A computation keeps a view of the state if its parts do. -/
theorem Keeps.pure (a : α) : Keeps view (pure a : Prog E S α) := fun _ => rfl

theorem Keeps.throw (e : E) : Keeps view (throw e : Prog E S α) := fun _ => rfl

theorem Keeps.ofExcept (x : Except E α) : Keeps view (ofExcept x : Prog E S α) := fun s => by
  rw [exec_ofExcept]

theorem Keeps.modify {g : S → S} (h : ∀ s, view (g s) = view s) : Keeps view (modify g : Prog E S Unit) := h

theorem Keeps.get : Keeps view (get : Prog E S S) := fun _ => rfl

/-- Two programs that keep a view keep it one after the other. -/
theorem Keeps.bind (hp : Keeps view p) (hf : ∀ a, Keeps view (f a)) : Keeps view (p >>= f) := fun s => by
  have hp := hp s
  rw [exec_bind]
  rcases h : p.exec s with ⟨r, s'⟩
  rw [h] at hp
  cases r with
  | error e => exact hp
  | ok a => exact (hf a s').trans hp

/-- A caught program keeps what it and its handler keep. -/
theorem Keeps.catching {handler : E → Prog E S α} (hp : Keeps view p) (hhandler : ∀ e, Keeps view (handler e)) :
    Keeps view (p.catching handler) := fun s => by
  have hp := hp s
  rw [exec_catching]
  rcases h : p.exec s with ⟨r, s'⟩
  rw [h] at hp
  cases r with
  | ok a => exact hp
  | error e => exact (hhandler e s').trans hp

/-! ## postconditions -/

/-- From the state, the program ends in a way and a state that satisfy the condition. -/
def Post (p : Prog E S α) (s : S) (Q : Except E α → S → Prop) : Prop := Q (p.exec s).1 (p.exec s).2

variable {Q : Except E β → S → Prop} {s : S}

/-- The rule of sequence: what holds in between, on success and on error. -/
theorem Post.bind {P : Except E α → S → Prop} (hp : Post p s P)
    (hok : ∀ a s', P (.ok a) s' → Post (f a) s' Q) (herror : ∀ e s', P (.error e) s' → Q (.error e) s') :
    Post (p >>= f) s Q := by
  unfold Post at hp ⊢
  rw [exec_bind]
  rcases hrun : p.exec s with ⟨r, s'⟩
  rw [hrun] at hp
  cases r with
  | ok a => exact hok a s' hp
  | error e => exact herror e s' hp

/-- The rule of a handler: it answers for the errors only. -/
theorem Post.catching {p : Prog E S β} {handler : E → Prog E S β} {P : Except E β → S → Prop} (hp : Post p s P)
    (hok : ∀ b s', P (.ok b) s' → Q (.ok b) s') (herror : ∀ e s', P (.error e) s' → Post (handler e) s' Q) :
    Post (p.catching handler) s Q := by
  unfold Post at hp ⊢
  rw [exec_catching]
  rcases hrun : p.exec s with ⟨r, s'⟩
  rw [hrun] at hp
  cases r with
  | ok b => exact hok b s' hp
  | error e => exact herror e s' hp

/-- What a program keeps is a postcondition of it. -/
theorem Keeps.post (hp : Keeps view p) (s : S) : Post p s fun _ s' => view s' = view s := hp s

end Prog

end Raising
