import Anoryx.ReadCommitted.Transaction

/-!
# Anoryx.ReadCommitted.RelyGuarantee

A rely–guarantee logic for transaction programs.

A `Logic` fixes a global invariant of the database, what every transaction may
rely on while the others move, and what holds before, after and at the commit
of a transaction.  `wp` is the weakest precondition of a program under that
interference: before every statement the database may have moved along the
rely.  `Sound` collects the obligations — one `wp` per request, one lemma for
commit, one for rollback — and `Sound.run` turns them into a fact about every
schedule:

* `ok_step` — one action keeps `Ok`, and gives every other transaction its rely;
* `Sound.run` — so does a whole schedule whose steps the logic permits;
* `Sound.run_rely` — a transaction that takes no part in a schedule sees it as
  its rely, which is how facts about *two* states of a run are read off.
-/

namespace ReadCommitted

open Function

variable {D ε Req β : Type}

/-- A rely–guarantee specification. -/
structure Logic (D Req β : Type) where
  /-- the invariant of the database, between any two statements -/
  inv : D → Prop
  /-- what the statements of others may do while `t` is between statements -/
  rely : Txn → D → D → Prop
  /-- `t` has not begun -/
  fresh : Txn → D → Prop
  /-- `t` has finished its program with a result and not yet committed -/
  post : Txn → Req → β → D → Prop
  /-- `t` has committed its result -/
  ensures : Txn → Req → β → D → Prop
  /-- `t` has been rolled back -/
  undone : Txn → D → Prop
  /-- the requests a schedule may begin -/
  admits : Req → Prop := fun _ => True
  /-- the statements a schedule may execute, by their effect -/
  allowed : Txn → D → D → Prop := fun _ _ _ => True

variable {d' d : D} {t u : Txn} {c : Proc D ε Req β} {a : Action Req} {sched as : List (Action Req)}
  {prog : Req → Prog D ε β} {P Q : Sys D ε Req β → Action Req → Sys D ε Req β → Prop}
  {s : Sys D ε Req β}

namespace Logic

/-! ## weakest preconditions -/

section Wp

variable (L : Logic D Req β) {γ δ : Type}

/-- A statement of `t` that keeps the invariant and the rely of the others. -/
structure Keeps (t : Txn) (d d' : D) : Prop where
  inv : L.inv d'
  rely : ∀ u, u ≠ t → L.rely u d d'

/-- `t` may run the program from `d`, with the others moving in between, and
ends in `Q`. -/
def wp (t : Txn) (Q : γ → D → Prop) : Prog D ε γ → D → Prop
  | .pure b, d => ∀ d', L.inv d' → L.rely t d d' → Q b d'
  | .raise _, _ => True
  | .stmt f k, d => ∀ d', L.inv d' → L.rely t d d' → ∀ x d'', f t d' = some (x, d'') →
      L.allowed t d' d'' → L.Keeps t d' d'' ∧ wp t Q (k x) d''

variable {L} {t : Txn} {Q Q' : γ → D → Prop} {d : D}

@[simp] theorem wp_raise (e : ε) : L.wp t Q (.raise e : Prog D ε γ) d := trivial

variable {k : δ → Prog D ε γ}

theorem wp_ofExcept_bind {x : Except ε δ}
    (h : ∀ b, x = .ok b → L.wp t Q (k b) d) : L.wp t Q (Prog.ofExcept x >>= k) d := by
  cases x with
  | error e => trivial
  | ok b => exact h b rfl

/-- The rule of a statement: others may move first, and what it does must be kept. -/
theorem wp_exec_bind {f : Txn → D → Option (δ × D)}
    (h : ∀ d', L.inv d' → L.rely t d d' → ∀ x d'', f t d' = some (x, d'') →
      L.allowed t d' d'' → L.Keeps t d' d'' ∧ L.wp t Q (k x) d'') :
    L.wp t Q (Prog.exec f >>= k) d := h

theorem wp_checked_bind {f : Txn → D → Option (Except ε δ × D)}
    (h : ∀ d', L.inv d' → L.rely t d d' → ∀ r d'', f t d' = some (r, d'') →
      L.allowed t d' d'' → L.Keeps t d' d'' ∧ ∀ x, r = .ok x → L.wp t Q (k x) d'') :
    L.wp t Q (Prog.checked f >>= k) d := by
  intro d' hi hr r d'' hf ha
  obtain ⟨hk, hrest⟩ := h d' hi hr r d'' hf ha
  refine ⟨hk, ?_⟩
  cases r with
  | error e => trivial
  | ok x => exact hrest x rfl

theorem wp_checked {f : Txn → D → Option (Except ε γ × D)}
    (h : ∀ d', L.inv d' → L.rely t d d' → ∀ r d'', f t d' = some (r, d'') →
      L.allowed t d' d'' → L.Keeps t d' d'' ∧
        ∀ x, r = .ok x → ∀ e, L.inv e → L.rely t d'' e → Q x e) :
    L.wp t Q (Prog.checked f) d := by
  intro d' hi hr r d'' hf ha
  obtain ⟨hk, hrest⟩ := h d' hi hr r d'' hf ha
  refine ⟨hk, ?_⟩
  cases r with
  | error e => trivial
  | ok x => exact hrest x rfl

/-- The rule of an insert that raises on a conflict. -/
theorem wp_inserting_bind {f : Txn → D → Option (Bool × D)} {e : ε} {k : Unit → Prog D ε γ}
    (h : ∀ d', L.inv d' → L.rely t d d' → ∀ b d'', f t d' = some (b, d'') →
      L.allowed t d' d'' → L.Keeps t d' d'' ∧ (b = true → L.wp t Q (k ()) d'')) :
    L.wp t Q (Prog.inserting e f >>= k) d := by
  intro d' hi hr b d'' hf ha
  obtain ⟨hk, hrest⟩ := h d' hi hr b d'' hf ha
  refine ⟨hk, ?_⟩
  cases b with
  | false => trivial
  | true => exact hrest rfl

/-- The rule of a read, which moves nothing. -/
theorem wp_query_bind {f : Txn → D → δ} (refl : ∀ u d, L.rely u d d)
    (h : ∀ d', L.inv d' → L.rely t d d' → L.wp t Q (k (f t d')) d') :
    L.wp t Q (Prog.query f >>= k) d := by
  intro d' hi hr x d'' hf _
  cases hf
  exact ⟨⟨hi, fun u _ => refl u d'⟩, h d' hi hr⟩

variable {p : Prog D ε γ}

/-- A weaker postcondition. -/
theorem wp_mono (hQ : ∀ b d', L.inv d' → Q b d' → Q' b d')
    (h : L.wp t Q p d) : L.wp t Q' p d := by
  induction p generalizing d with
  | pure b =>
      intro d' hi hr
      exact hQ b d' hi (h d' hi hr)
  | raise e => trivial
  | stmt f k ih =>
      intro d' hi hr x d'' hf ha
      obtain ⟨hk, hw⟩ := h d' hi hr x d'' hf ha
      exact ⟨hk, ih x hw⟩

/-- The rule of sequence. -/
theorem wp_bind {p : Prog D ε δ}
    (refl : ∀ d, L.rely t d d) (hi : L.inv d)
    (h : L.wp t (fun x d' => L.wp t Q (k x) d') p d) : L.wp t Q (p >>= k) d := by
  induction p generalizing d with
  | pure b => exact h d hi (refl d)
  | raise e => trivial
  | stmt f k' ih =>
      intro d' hi' hr x d'' hf ha
      obtain ⟨hk, hw⟩ := h d' hi' hr x d'' hf ha
      exact ⟨hk, ih x hk.inv hw⟩

theorem wp_stable (trans : ∀ {d₁ d₂ d₃}, L.rely t d₁ d₂ → L.rely t d₂ d₃ → L.rely t d₁ d₃)
    (hr : L.rely t d d') (h : L.wp t Q p d) : L.wp t Q p d' := by
  cases p with
  | pure b => exact fun d₁ hi₁ hr₁ => h d₁ hi₁ (trans hr hr₁)
  | raise e => trivial
  | stmt f k => exact fun d₁ hi₁ hr₁ => h d₁ hi₁ (trans hr hr₁)

theorem wp_and_stable {J : D → Prop}
    (hJ : ∀ u d d', L.inv d' → L.rely u d d' → J d → J d') (hd : J d) (h : L.wp t Q p d) :
    L.wp t (fun b d => Q b d ∧ J d) p d := by
  induction p generalizing d with
  | pure b => exact fun d' hi hr => ⟨h d' hi hr, hJ t d d' hi hr hd⟩
  | raise e => trivial
  | stmt f k ih =>
      intro d' hi hr x d'' hf ha
      obtain ⟨hk, hw⟩ := h d' hi hr x d'' hf ha
      have hother : L.rely (t + 1) d' d'' := hk.rely (t + 1) (Nat.succ_ne_self t)
      exact ⟨hk, ih x (hJ _ d' d'' hk.inv hother (hJ t d d' hi hr hd)) hw⟩

theorem wp_and_returns {P : γ → Prop} (hP : p.Returns P) (h : L.wp t Q p d) :
    L.wp t (fun b d => Q b d ∧ P b) p d := by
  induction p generalizing d with
  | pure b => exact fun d' hi hr => ⟨h d' hi hr, hP⟩
  | raise e => trivial
  | stmt f k ih =>
      intro d' hi hr x d'' hf ha
      obtain ⟨hk, hw⟩ := h d' hi hr x d'' hf ha
      exact ⟨hk, ih x (hP x) hw⟩

theorem wp_of_specialize {L' : Logic D Req β} (hinv : L'.inv = L.inv)
    (hrely : L'.rely = L.rely) (hallowed : L'.allowed = L.allowed) (h : L.wp t Q p d) : L'.wp t Q p d := by
  induction p generalizing d with
  | pure b =>
      intro d' hi hr
      exact h d' (hinv ▸ hi) (hrely ▸ hr)
  | raise e => trivial
  | stmt f k ih =>
      intro d' hi hr x d'' hf ha
      obtain ⟨hk, hw⟩ := h d' (hinv ▸ hi) (hrely ▸ hr) x d'' hf (hallowed ▸ ha)
      exact ⟨⟨hinv ▸ hk.inv, fun u hu => hrely ▸ hk.rely u hu⟩, ih x hw⟩

end Wp

/-! ## soundness -/

variable [Database D] (L : Logic D Req β)

/-- The obligations of a specification. -/
structure Sound (prog : Req → Prog D ε β) : Prop where
  refl : ∀ t d, L.rely t d d
  trans : ∀ {t d₁ d₂ d₃}, L.rely t d₁ d₂ → L.rely t d₂ d₃ → L.rely t d₁ d₃
  fresh_rely : ∀ {t d d'}, L.inv d' → L.rely t d d' → L.fresh t d → L.fresh t d'
  ensures_rely : ∀ {t req b d d'}, L.inv d' → L.rely t d d' →
    L.ensures t req b d → L.ensures t req b d'
  undone_rely : ∀ {t d d'}, L.inv d' → L.rely t d d' → L.undone t d → L.undone t d'
  body : ∀ {t req d}, L.admits req → L.inv d → L.fresh t d → L.wp t (L.post t req) (prog req) d
  commit : ∀ {t req b d}, L.inv d → L.post t req b d →
    L.Keeps t d (Database.commit t d) ∧ L.ensures t req b (Database.commit t d)
  rollback : ∀ {t d}, L.inv d →
    L.Keeps t d (Database.rollback t d) ∧ L.undone t (Database.rollback t d)

/-- What the specification says of a transaction, by where it stands. -/
def ProcOk (t : Txn) : Proc D ε Req β → D → Prop
  | .idle, d => L.fresh t d
  | .running req p, d => L.wp t (L.post t req) p d
  | .committed req b, d => L.ensures t req b d
  | .aborted, d => L.undone t d

/-- The specification holds of a system. -/
structure Ok (s : Sys D ε Req β) : Prop where
  inv : L.inv s.db
  procs : ∀ t, L.ProcOk t (s.procs t) s.db

/-- The steps a schedule may take. -/
def Permits (s : Sys D ε Req β) (a : Action Req) (s' : Sys D ε Req β) : Prop :=
  match a with
  | .begin _ req => L.admits req
  | .exec t => L.allowed t s.db s'.db
  | .commit _ => True
  | .abort _ => True

variable {L} {prog : Req → Prog D ε β} {s s' : Sys D ε Req β}

theorem ProcOk.rely (hs : L.Sound prog) (hi : L.inv d') (hr : L.rely t d d') (h : L.ProcOk t c d) :
    L.ProcOk t c d' := by
  cases c with
  | idle => exact hs.fresh_rely hi hr h
  | running req p => exact wp_stable hs.trans hr h
  | committed req b => exact hs.ensures_rely hi hr h
  | aborted => exact hs.undone_rely hi hr h

theorem Ok.move (hs : L.Sound prog) (h : L.Ok s) (hk : L.Keeps t s.db d) (hc : L.ProcOk t c d) :
    L.Ok ⟨d, update s.procs t c⟩ := by
  refine ⟨hk.inv, fun u => ?_⟩
  by_cases hu : u = t
  · subst hu
    simpa using hc
  · simp only [update_of_ne hu]
    exact (h.procs u).rely hs hk.inv (hk.rely u hu)

/-- One step of any transaction keeps the system in order, and the others may rely on it. -/
theorem ok_step (hs : L.Sound prog) (h : L.Ok s) (hstep : step prog s a = some s')
    (hp : L.Permits s a s') : L.Ok s' ∧ ∀ u, u ≠ a.txn → L.rely u s.db s'.db := by
  obtain ⟨t, req, rfl, hproc, rfl⟩ | ⟨t, req, γ, f, k, x, d, rfl, hproc, hf, rfl⟩ |
    ⟨t, req, b, rfl, hproc, rfl⟩ | ⟨t, req, p, rfl, hproc, rfl⟩ := step_cases hstep
  · have hfresh : L.fresh t s.db := by simpa [ProcOk, hproc] using h.procs t
    have hk : L.Keeps t s.db s.db := ⟨h.inv, fun u _ => hs.refl u s.db⟩
    exact ⟨h.move hs hk (hs.body hp h.inv hfresh), hk.rely⟩
  · have hw : L.wp t (L.post t req) (.stmt f k) s.db := by simpa [ProcOk, hproc] using h.procs t
    obtain ⟨hk, hw'⟩ := hw s.db h.inv (hs.refl t s.db) x d hf hp
    exact ⟨h.move hs hk hw', hk.rely⟩
  · have hw : L.wp t (L.post t req) (.pure b : Prog D ε β) s.db := by
      simpa [ProcOk, hproc] using h.procs t
    obtain ⟨hk, he⟩ := hs.commit h.inv (hw s.db h.inv (hs.refl t s.db))
    exact ⟨h.move hs hk he, hk.rely⟩
  · obtain ⟨hk, hundone⟩ := hs.rollback (t := t) h.inv
    exact ⟨h.move hs hk hundone, hk.rely⟩

end Logic

/-- Every step of a schedule has the property `P`. -/
def EveryStep [Database D] (prog : Req → Prog D ε β)
    (P : Sys D ε Req β → Action Req → Sys D ε Req β → Prop) (s : Sys D ε Req β) :
    List (Action Req) → Prop
  | [] => True
  | a :: as => ∀ s', step prog s a = some s' → P s a s' ∧ EveryStep prog P s' as

/-! ## relations that every statement keeps -/

section Each

variable [Database D] {prog : Req → Prog D ε β} {R : D → D → Prop} {s s' : Sys D ε Req β}

theorem step_of_each (hrefl : ∀ d, R d d) (hrollback : ∀ t d, R d (Database.rollback t d))
    (heach : ∀ req, (prog req).Each R) (hs : ∀ t req p, s.procs t = .running req p → p.Each R)
    (hstep : step prog s a = some s') :
    (∀ t req p, s'.procs t = .running req p → p.Each R) ∧
      (R s.db s'.db ∨ ∃ t, a = .commit t ∧ s'.db = Database.commit t s.db) := by
  have hupdate : ∀ t c d, (∀ req p, c = .running req p → p.Each R) → s' = ⟨d, update s.procs t c⟩ →
      ∀ u req p, s'.procs u = .running req p → p.Each R := by
    rintro t c d hc rfl u req p hu
    by_cases ht : u = t
    · exact hc req p ((update_self t c s.procs).symm.trans (ht ▸ hu))
    · exact hs u req p ((update_of_ne ht c s.procs).symm.trans hu)
  obtain ⟨t, req, rfl, hproc, he⟩ | ⟨t, req, γ, f, k, x, d, rfl, hproc, hf, he⟩ |
    ⟨t, req, b, rfl, hproc, he⟩ | ⟨t, req, p, rfl, hproc, he⟩ := step_cases hstep
  · refine ⟨hupdate t _ _ (fun req' p hp => ?_) he, .inl (he ▸ hrefl s.db)⟩
    cases hp
    exact heach req
  · obtain ⟨hstmt, hrest⟩ : (∀ t d x d', f t d = some (x, d') → R d d') ∧ ∀ x, (k x).Each R := hs t req _ hproc
    refine ⟨hupdate t _ _ (fun req' p hp => ?_) he, .inl (he ▸ hstmt t s.db x d hf)⟩
    cases hp
    exact hrest x
  · refine ⟨hupdate t _ _ (fun req' p hp => ?_) he, .inr ⟨t, rfl, he ▸ rfl⟩⟩
    contradiction
  · refine ⟨hupdate t _ _ (fun req' p hp => ?_) he, .inl (he ▸ hrollback t s.db)⟩
    contradiction

theorem everyStep_of_each (hrefl : ∀ d, R d d) (hrollback : ∀ t d, R d (Database.rollback t d))
    (heach : ∀ req, (prog req).Each R) (hs : ∀ t req p, s.procs t = .running req p → p.Each R)
    (as : List (Action Req)) :
    EveryStep prog (fun s a s' => (∀ t, a ≠ .commit t) → R s.db s'.db) s as := by
  induction as generalizing s with
  | nil => trivial
  | cons a as ih =>
      intro s' hstep
      obtain ⟨hprocs, hmoved⟩ := step_of_each hrefl hrollback heach hs hstep
      refine ⟨fun hno => hmoved.resolve_right ?_, ih hprocs⟩
      rintro ⟨t, rfl, -⟩
      exact hno t rfl

theorem run_of_each (hrefl : ∀ d, R d d) (htrans : ∀ d d' d'', R d d' → R d' d'' → R d d'')
    (hcommit : ∀ t d, R d (Database.commit t d)) (hrollback : ∀ t d, R d (Database.rollback t d))
    (heach : ∀ req, (prog req).Each R) (hs : ∀ t req p, s.procs t = .running req p → p.Each R)
    (hrun : run prog s sched = some s') :
    R s.db s'.db ∧ ∀ t req p, s'.procs t = .running req p → p.Each R := by
  induction sched generalizing s with
  | nil =>
      cases hrun
      exact ⟨hrefl s'.db, hs⟩
  | cons a sched ih =>
      obtain ⟨s₁, hstep, hrest⟩ := run_cons hrun
      obtain ⟨hprocs, hmoved⟩ := step_of_each hrefl hrollback heach hs hstep
      have hfirst : R s.db s₁.db := by
        obtain hmoved | ⟨t, -, hdb⟩ := hmoved
        · exact hmoved
        · exact hdb ▸ hcommit t s.db
      obtain ⟨hlast, hend⟩ := ih hprocs hrest
      exact ⟨htrans s.db s₁.db s'.db hfirst hlast, hend⟩

end Each

/-- `EveryStep` of a decidable property, evaluated along the schedule. -/
def everyStep [Database D] (prog : Req → Prog D ε β)
    (p : Sys D ε Req β → Action Req → Sys D ε Req β → Bool) (s : Sys D ε Req β) :
    List (Action Req) → Bool
  | [] => true
  | a :: as =>
      match step prog s a with
      | some s' => p s a s' && everyStep prog p s' as
      | none => true

theorem EveryStep.of_eval [Database D] {p : Sys D ε Req β → Action Req → Sys D ε Req β → Bool}
    (hp : ∀ s a s', p s a s' = true → P s a s') (h : everyStep prog p s as = true) :
    EveryStep prog P s as := by
  induction as generalizing s with
  | nil => trivial
  | cons a as ih =>
      intro s' hstep
      simp only [everyStep, hstep, Bool.and_eq_true] at h
      exact ⟨hp s a s' h.1, ih h.2⟩

theorem EveryStep.mono [Database D] (hPQ : ∀ s a s', P s a s' → Q s a s')
    (h : EveryStep prog P s as) : EveryStep prog Q s as := by
  induction as generalizing s with
  | nil => trivial
  | cons a as ih => exact fun s' hstep => ⟨hPQ s a s' (h s' hstep).1, ih (h s' hstep).2⟩

namespace Logic

variable [Database D] {L : Logic D Req β} {prog : Req → Prog D ε β} {s s' : Sys D ε Req β}

variable {as : List (Action Req)}

/-- **Soundness**: a permitted schedule keeps the specification. -/
theorem Sound.run (hs : L.Sound prog) (h : L.Ok s)
    (hp : EveryStep prog L.Permits s as) (hrun : run prog s as = some s') : L.Ok s' := by
  induction as generalizing s with
  | nil =>
      cases hrun
      exact h
  | cons a as ih =>
      obtain ⟨s₁, hstep, hrest⟩ := run_cons hrun
      obtain ⟨hperm, htail⟩ := hp s₁ hstep
      exact ih (ok_step hs h hstep hperm).1 htail hrest

/-- A bystander sees over a whole run what it may rely on. -/
theorem Sound.run_rely (hs : L.Sound prog) (h : L.Ok s) (hp : EveryStep prog L.Permits s as)
    (hu : ∀ a ∈ as, u ≠ a.txn) (hrun : ReadCommitted.run prog s as = some s') :
    L.rely u s.db s'.db := by
  induction as generalizing s with
  | nil =>
      cases hrun
      exact hs.refl u _
  | cons a as ih =>
      obtain ⟨s₁, hstep, hrest⟩ := run_cons hrun
      obtain ⟨hperm, htail⟩ := hp s₁ hstep
      obtain ⟨hok, hrely⟩ := ok_step hs h hstep hperm
      exact hs.trans (hrely u (hu a (by simp)))
        (ih hok htail (fun b hb => hu b (by simp [hb])) hrest)

/-- **Exclusion**: where a result that is committed rules another one out, one transaction at
most commits such a result. -/
theorem Sound.exclusive (hs : L.Sound prog) {excludes : Req → Req → Prop}
    (hsymm : ∀ {req req'}, excludes req req' → excludes req' req)
    (hout : ∀ {t t' req req' b b' d}, L.inv d → excludes req req' → L.ensures t req b d → ¬L.post t' req' b' d)
    (h : L.Ok s) (hp : EveryStep prog L.Permits s as)
    (hone : ∀ t t' req req' b b', s.procs t = .committed req b → s.procs t' = .committed req' b' →
      excludes req req' → t = t') (hrun : ReadCommitted.run prog s as = some s') :
    ∀ t t' req req' b b', s'.procs t = .committed req b → s'.procs t' = .committed req' b' →
      excludes req req' → t = t' := by
  induction as generalizing s with
  | nil =>
      cases hrun
      exact hone
  | cons a as ih =>
      obtain ⟨s₁, hstep, hrest⟩ := run_cons hrun
      obtain ⟨hperm, htail⟩ := hp s₁ hstep
      refine ih (ok_step hs h hstep hperm).1 htail ?_ hrest
      -- who was committed before, or commits now
      have hold : ∀ t req b, s₁.procs t = .committed req b → s.procs t = .committed req b ∨
          (a = .commit t ∧ s.procs t = .running req (.pure b)) := by
        intro t req b ht
        have hupdate : ∀ u c d, s₁ = ⟨d, update s.procs u c⟩ →
            s.procs t = .committed req b ∨ (t = u ∧ c = .committed req b) := by
          rintro u c d rfl
          by_cases hu : t = u
          · exact .inr ⟨hu, (update_self u c s.procs).symm.trans (hu ▸ ht)⟩
          · exact .inl ((update_of_ne hu c s.procs).symm.trans ht)
        obtain ⟨u, req', rfl, hproc, he⟩ | ⟨u, req', γ, f, k, x, d, rfl, hproc, hf, he⟩ |
          ⟨u, req', b', rfl, hproc, he⟩ | ⟨u, req', p, rfl, hproc, he⟩ := step_cases hstep
        all_goals rcases hupdate _ _ _ he with hsame | ⟨htu, hc⟩
        case inr.inr.inl.inr =>
          cases hc
          exact .inr ⟨htu ▸ rfl, htu ▸ hproc⟩
        all_goals first | exact .inl hsame | contradiction
      have hcommitted : ∀ {t t' req req' b b'}, s.procs t = .committed req b →
          s.procs t' = .running req' (.pure b') → ¬excludes req req' := by
        intro t t' req req' b b' ht ht' hexcludes
        have hensures : L.ensures t req b s.db := by simpa [ProcOk, ht] using h.procs t
        have hw : L.wp t' (L.post t' req') (.pure b' : Prog D ε β) s.db := by simpa [ProcOk, ht'] using h.procs t'
        exact hout h.inv hexcludes hensures (hw s.db h.inv (hs.refl t' s.db))
      intro t t' req req' b b' ht ht' hexcludes
      rcases hold t req b ht with ht | ⟨hcommit, ht⟩
      · rcases hold t' req' b' ht' with ht' | ⟨-, ht'⟩
        · exact hone t t' req req' b b' ht ht' hexcludes
        · exact absurd hexcludes (hcommitted ht ht')
      · rcases hold t' req' b' ht' with ht' | ⟨hcommit', -⟩
        · exact absurd (hsymm hexcludes) (hcommitted ht' ht)
        · exact Action.commit.inj (hcommit.symm.trans hcommit')

theorem exists_bystander (as : List (Action Req)) : ∃ u : Txn, ∀ a ∈ as, u ≠ a.txn := by
  suffices hbound : ∃ n, ∀ a ∈ as, a.txn < n by
    obtain ⟨n, hn⟩ := hbound
    exact ⟨n, fun a ha he => Nat.lt_irrefl _ (he ▸ hn a ha)⟩
  induction as with
  | nil => exact ⟨0, by simp⟩
  | cons a as ih =>
      obtain ⟨n, hn⟩ := ih
      refine ⟨max n (a.txn + 1), fun b hb => ?_⟩
      rcases List.mem_cons.mp hb with rfl | hb
      · exact Nat.lt_of_lt_of_le (Nat.lt_succ_self _) (Nat.le_max_right _ _)
      · exact Nat.lt_of_lt_of_le (hn b hb) (Nat.le_max_left _ _)

theorem everyStep_of_admits (hreq : ∀ t req, .begin t req ∈ as → L.admits req)
    (hall : ∀ t d d', L.allowed t d d') : EveryStep prog L.Permits s as := by
  induction as generalizing s with
  | nil => trivial
  | cons a as ih =>
      refine fun s₁ _ => ⟨?_, ih fun t req hmem => hreq t req (List.mem_cons_of_mem a hmem)⟩
      cases a with
      | begin t req => exact hreq t req List.mem_cons_self
      | exec t => exact hall _ _ _
      | commit t => trivial
      | abort t => trivial

theorem everyStep_permits (hreq : ∀ req, L.admits req) (hall : ∀ t d d', L.allowed t d d')
    (as : List (Action Req)) : EveryStep prog L.Permits s as :=
  everyStep_of_admits (fun _ req _ => hreq req) hall

/-! ## what stays true, and what one transaction finds -/

section Given

/-- A fact that stays true whatever anybody does. -/
def Stable (L : Logic D Req β) (J : D → Prop) : Prop :=
  ∀ u d d', L.inv d' → L.rely u d d' → J d → J d'

/-- The specification, given such a fact. -/
def given (L : Logic D Req β) (J : D → Prop) : Logic D Req β :=
  { L with inv := fun d => L.inv d ∧ J d }

/-- The specification, and what `who` returns besides. -/
def also (L : Logic D Req β) (who : Txn) (R : Req → β → Prop) : Logic D Req β :=
  { L with
    post := fun t req b d => L.post t req b d ∧ (t = who → R req b)
    ensures := fun t req b d => L.ensures t req b d ∧ (t = who → R req b) }

/-- The specification, and what holds besides from where `who` returns. -/
def alsoFrom (L : Logic D Req β) (who : Txn) (R : Req → β → D → Prop) : Logic D Req β :=
  { L with
    post := fun t req b d => L.post t req b d ∧ (t = who → R req b d)
    ensures := fun t req b d => L.ensures t req b d ∧ (t = who → R req b d) }

variable {J : D → Prop} {who : Txn} {R : Req → β → Prop} {γ : Type} {t : Txn} {Q Q' : γ → D → Prop} {d : D}

omit [Database D] in
theorem Keeps.given (hJ : L.Stable J) (hd : J d) (h : L.Keeps t d d') : (L.given J).Keeps t d d' :=
  ⟨⟨h.inv, hJ _ _ _ h.inv (h.rely (t + 1) (Nat.succ_ne_self t)) hd⟩, h.rely⟩

omit [Database D] in
theorem wp_given {p : Prog D ε γ} (hJ : L.Stable J) (hd : J d) (h : L.wp t Q p d) : (L.given J).wp t Q p d := by
  induction p generalizing d with
  | pure b => exact fun d' hi hr => h d' hi.1 hr
  | raise e => trivial
  | stmt f k ih =>
      intro d' hi hr x d'' hf ha
      obtain ⟨hk, hw⟩ := h d' hi.1 hr x d'' hf ha
      have hk' : (L.given J).Keeps t d' d'' := hk.given hJ hi.2
      exact ⟨hk', ih x hk'.inv.2 hw⟩

omit [Database D] in
theorem wp_and {p : Prog D ε γ} (h : L.wp t Q p d) (h' : L.wp t Q' p d) :
    L.wp t (fun b d => Q b d ∧ Q' b d) p d := by
  induction p generalizing d with
  | pure b => exact fun d' hi hr => ⟨h d' hi hr, h' d' hi hr⟩
  | raise e => trivial
  | stmt f k ih =>
      intro d' hi hr x d'' hf ha
      obtain ⟨hk, hw⟩ := h d' hi hr x d'' hf ha
      exact ⟨hk, ih x hw (h' d' hi hr x d'' hf ha).2⟩

theorem Sound.given (hs : L.Sound prog) (hJ : L.Stable J) : (L.given J).Sound prog where
  refl := hs.refl
  trans := hs.trans
  fresh_rely hi := hs.fresh_rely hi.1
  ensures_rely hi := hs.ensures_rely hi.1
  undone_rely hi := hs.undone_rely hi.1
  body ha hi hf := wp_given hJ hi.2 (hs.body ha hi.1 hf)
  commit hi hp := ⟨(hs.commit hi.1 hp).1.given hJ hi.2, (hs.commit hi.1 hp).2⟩
  rollback hi := ⟨(hs.rollback hi.1).1.given hJ hi.2, (hs.rollback hi.1).2⟩

theorem Sound.alsoFrom {R : Req → β → D → Prop} (hs : L.Sound prog) (hstable : ∀ req b, L.Stable (R req b))
    (hR : ∀ req d, L.inv d → L.fresh who d → L.wp who (R req) (prog req) d) : (L.alsoFrom who R).Sound prog where
  refl := hs.refl
  trans := hs.trans
  fresh_rely := hs.fresh_rely
  ensures_rely hi hr h := ⟨hs.ensures_rely hi hr h.1, fun ht => hstable _ _ _ _ _ hi hr (h.2 ht)⟩
  undone_rely := hs.undone_rely
  body {t req d} ha hi hf := by
    refine wp_of_specialize (L := L) rfl rfl rfl ?_
    by_cases ht : t = who
    · subst ht
      exact wp_mono (fun b d' _ h => ⟨h.1, fun _ => h.2⟩) (wp_and (hs.body ha hi hf) (hR req d hi hf))
    · exact wp_mono (fun b d' _ h => ⟨h, fun he => absurd he ht⟩) (hs.body ha hi hf)
  commit {t req b d} hi hp := by
    obtain ⟨hkeeps, hensures⟩ := hs.commit hi hp.1
    refine ⟨⟨hkeeps.inv, hkeeps.rely⟩, hensures, fun ht => ?_⟩
    exact hstable req b (t + 1) d _ hkeeps.inv (hkeeps.rely (t + 1) (Nat.succ_ne_self t)) (hp.2 ht)
  rollback hi := ⟨⟨(hs.rollback hi).1.inv, (hs.rollback hi).1.rely⟩, (hs.rollback hi).2⟩

theorem Sound.also (hs : L.Sound prog)
    (hR : ∀ req d, L.inv d → L.fresh who d → L.wp who (fun b _ => R req b) (prog req) d) :
    (L.also who R).Sound prog :=
  hs.alsoFrom (fun _ _ _ _ _ _ _ h => h) hR

omit [Database D] in
theorem Ok.given (h : L.Ok s) (hJ : L.Stable J) (hd : J s.db) : (L.given J).Ok s where
  inv := ⟨h.inv, hd⟩
  procs t := by
    have hproc := h.procs t
    unfold ProcOk at hproc ⊢
    split at hproc
    · exact hproc
    · exact wp_given hJ hd hproc
    · exact hproc
    · exact hproc

omit [Database D] in
theorem Ok.alsoFrom {R : Req → β → D → Prop} (h : L.Ok s) (hidle : s.procs who = .idle) :
    (L.alsoFrom who R).Ok s where
  inv := h.inv
  procs t := by
    have hproc := h.procs t
    by_cases ht : t = who
    · subst ht
      rw [hidle] at hproc ⊢
      exact hproc
    · unfold ProcOk at hproc ⊢
      split at hproc
      · exact hproc
      · exact wp_of_specialize (L := L) rfl rfl rfl
          (wp_mono (fun b d' _ hpost => ⟨hpost, fun he => absurd he ht⟩) hproc)
      · exact ⟨hproc, fun he => absurd he ht⟩
      · exact hproc

omit [Database D] in
theorem Ok.also (h : L.Ok s) (hidle : s.procs who = .idle) : (L.also who R).Ok s := h.alsoFrom hidle

end Given

end Logic

end ReadCommitted
