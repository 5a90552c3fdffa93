import Anoryx.ReadCommitted.Session

/-!
# Anoryx.ReadCommitted.Exclusive

A rely–guarantee logic for requests that work on something each, where no two work on the
same thing at a time.

A request may have a key.  A schedule that begins no request while another one with its key
is running (`Permits`) leaves what belongs to a key to nobody (`rests`) or to the one who
works on it, and he may rely on more than the others: they only move what is not his.  Who
finds nothing to do (`skips`) may begin at any time, and stands aside.  A schedule may also be
asked to begin, to cut off and to commit requests in certain states only (`opens`, `breaks`,
`closes`), and to go through states of which something is known already (`assumes`).
-/

namespace ReadCommitted

open Function

variable {D ε Req β K : Type}

/-- A specification of requests, some of which have a key. -/
structure Exclusive (D Req β K : Type) where
  key : Req → Option K
  /-- the invariant of the database, between any two statements -/
  inv : D → Prop
  /-- what `t`, who works on a key or on none, may rely on -/
  rely : Txn → Option K → D → D → Prop
  /-- nobody works on the key -/
  rests : K → D → Prop
  /-- `t` has not begun -/
  fresh : Txn → D → Prop
  /-- as long as `t` is running -/
  works : Txn → Req → D → Prop
  /-- `t` has finished its program with a result and not yet committed -/
  post : Txn → Req → β → D → Prop
  /-- `t` is not running any more -/
  ended : Txn → D → Prop
  /-- what every step does -/
  moves : D → D → Prop
  /-- where a schedule may begin a request -/
  opens : Req → D → Prop := fun _ _ => True
  /-- where a request has nothing to do, from then on -/
  skips : Req → D → Prop := fun _ _ => False
  /-- where a schedule may cut a request off, and where its program may raise -/
  breaks : Txn → Req → D → Prop := fun _ _ _ => True
  /-- where a schedule may commit a request -/
  closes : Req → D → Prop := fun _ _ => True
  /-- what is known of every state that is reached -/
  assumes : D → Prop := fun _ => True

variable {e : ε} {f : Txn → D → Option (Bool × D)} {d' d : D} {t u : Txn}

namespace Exclusive

/-! ## weakest preconditions -/

section Wp

variable (X : Exclusive D Req β K) {γ δ : Type}

/-- A statement of `t`, who works on `k`, that keeps the invariant and what is not his. -/
structure Keeps (t : Txn) (k : Option K) (d d' : D) : Prop where
  inv : X.inv d'
  rely : ∀ u k', u ≠ t → (∀ j, k = some j → k' ≠ some j) → X.rely u k' d d'
  rests : ∀ j, k ≠ some j → X.rests j d → X.rests j d'
  moves : X.moves d d'

/-- `t` may run the program from `d`, with the others moving in between, and ends in `Q`. -/
def wp (t : Txn) (req : Req) (Q : γ → D → Prop) : Prog D ε γ → D → Prop
  | .pure b, d => ∀ d', X.inv d' → X.rely t (X.key req) d d' → X.works t req d' → Q b d'
  | .raise _, d => ∀ d', X.inv d' → X.rely t (X.key req) d d' → X.works t req d' → X.breaks t req d'
  | .stmt f k, d => ∀ d', X.inv d' → X.rely t (X.key req) d d' → X.works t req d' →
      ∀ x d'', f t d' = some (x, d'') → X.assumes d'' →
        X.Keeps t (X.key req) d' d'' ∧ X.works t req d'' ∧ wp t req Q (k x) d''

variable {X} {t : Txn} {req : Req} {Q Q' : γ → D → Prop} {d : D}

theorem wp_raise (h : ∀ d', X.inv d' → X.rely t (X.key req) d d' → X.works t req d' → X.breaks t req d') :
    X.wp t req Q (.raise e : Prog D ε γ) d := h

theorem Keeps.trans {k : Option K} {d₁ d₂ d₃ : D}
    (htrans : ∀ {u k' d₁ d₂ d₃}, X.rely u k' d₁ d₂ → X.rely u k' d₂ d₃ → X.rely u k' d₁ d₃)
    (hmoves : ∀ {d₁ d₂ d₃}, X.moves d₁ d₂ → X.moves d₂ d₃ → X.moves d₁ d₃)
    (h : X.Keeps t k d₁ d₂) (h' : X.Keeps t k d₂ d₃) : X.Keeps t k d₁ d₃ where
  inv := h'.inv
  rely u k' hu hk := htrans (h.rely u k' hu hk) (h'.rely u k' hu hk)
  rests j hj hr := h'.rests j hj (h.rests j hj hr)
  moves := hmoves h.moves h'.moves

variable {k : δ → Prog D ε γ}

/-- The rule of a statement under an assumption on the state that it leaves. -/
theorem wp_assuming_bind {f : Txn → D → Option (δ × D)}
    (h : ∀ d', X.inv d' → X.rely t (X.key req) d d' → X.works t req d' → ∀ x d'', f t d' = some (x, d'') → X.assumes d'' →
      X.Keeps t (X.key req) d' d'' ∧ X.works t req d'' ∧ X.wp t req Q (k x) d'') :
    X.wp t req Q (Prog.exec f >>= k) d := h

/-- The rule of a statement: it keeps the promises and the worker's own state. -/
theorem wp_exec_bind {f : Txn → D → Option (δ × D)}
    (h : ∀ d', X.inv d' → X.rely t (X.key req) d d' → X.works t req d' → ∀ x d'', f t d' = some (x, d'') →
      X.Keeps t (X.key req) d' d'' ∧ X.works t req d'' ∧ X.wp t req Q (k x) d'') :
    X.wp t req Q (Prog.exec f >>= k) d :=
  wp_assuming_bind fun d' hi hr hw x d'' hf _ => h d' hi hr hw x d'' hf

theorem wp_inserting_bind {k : Unit → Prog D ε γ}
    (h : ∀ d', X.inv d' → X.rely t (X.key req) d d' → X.works t req d' → ∀ b d'', f t d' = some (b, d'') →
      X.Keeps t (X.key req) d' d'' ∧ X.works t req d'' ∧
        if b then X.wp t req Q (k ()) d'' else X.wp t req Q (Prog.raise e : Prog D ε γ) d'') :
    X.wp t req Q (Prog.inserting e f >>= k) d := by
  intro d' hi hr hw b d'' hf _
  obtain ⟨hkeeps, hw', hrest⟩ := h d' hi hr hw b d'' hf
  refine ⟨hkeeps, hw', ?_⟩
  cases b with
  | false => exact hrest
  | true => exact hrest

theorem wp_query_bind {f : Txn → D → δ} (hrefl : ∀ u k d, X.rely u k d d)
    (hmoves : ∀ d, X.moves d d)
    (h : ∀ d', X.inv d' → X.rely t (X.key req) d d' → X.works t req d' → X.wp t req Q (k (f t d')) d') :
    X.wp t req Q (Prog.query f >>= k) d := by
  intro d' hi hr hw x d'' hf _
  cases hf
  exact ⟨⟨hi, fun u k' _ _ => hrefl u k' d', fun _ _ hj => hj, hmoves d'⟩, hw, h d' hi hr hw⟩

variable {p : Prog D ε γ}

theorem wp_mono (hQ : ∀ b d', X.inv d' → X.works t req d' → Q b d' → Q' b d')
    (h : X.wp t req Q p d) : X.wp t req Q' p d := by
  induction p generalizing d with
  | pure b => exact fun d' hi hr hw => hQ b d' hi hw (h d' hi hr hw)
  | raise e => exact h
  | stmt f k ih =>
      intro d' hi hr hw x d'' hf ha
      obtain ⟨hk, hw', hrest⟩ := h d' hi hr hw x d'' hf ha
      exact ⟨hk, hw', ih x hrest⟩

/-- The rule of sequence. -/
theorem wp_bind {p : Prog D ε δ} (hrefl : ∀ d, X.rely t (X.key req) d d) (hi : X.inv d)
    (hw : X.works t req d) (h : X.wp t req (fun x d' => X.wp t req Q (k x) d') p d) :
    X.wp t req Q (p >>= k) d := by
  induction p generalizing d with
  | pure b => exact h d hi (hrefl d) hw
  | raise e => exact h
  | stmt f k' ih =>
      intro d' hi' hr hw' x d'' hf ha
      obtain ⟨hk, hw'', hrest⟩ := h d' hi' hr hw' x d'' hf ha
      exact ⟨hk, hw'', ih x hk.inv hw'' hrest⟩

theorem wp_stable
    (htrans : ∀ {d₁ d₂ d₃}, X.rely t (X.key req) d₁ d₂ → X.rely t (X.key req) d₂ d₃ → X.rely t (X.key req) d₁ d₃)
    (hr : X.rely t (X.key req) d d') (h : X.wp t req Q p d) : X.wp t req Q p d' := by
  cases p with
  | pure b => exact fun d₁ hi₁ hr₁ => h d₁ hi₁ (htrans hr hr₁)
  | raise e => exact fun d₁ hi₁ hr₁ => h d₁ hi₁ (htrans hr hr₁)
  | stmt f k => exact fun d₁ hi₁ hr₁ => h d₁ hi₁ (htrans hr hr₁)

/-- Every statement of `t` in the program, wherever it gets, moves the database along `R`. -/
def StepsOf (t : Txn) (R : D → D → Prop) : Prog D ε γ → Prop
  | .pure _ => True
  | .raise _ => True
  | .stmt f k => (∀ d x d', f t d = some (x, d') → R d d') ∧ ∀ x, StepsOf t R (k x)

theorem StepsOf.mono {R R' : D → D → Prop} (hR : ∀ d d', R d d' → R' d d') (h : StepsOf t R p) :
    StepsOf t R' p := by
  induction p with
  | pure b => trivial
  | raise e => trivial
  | stmt f k ih => exact ⟨fun d x d' hf => hR d d' (h.1 d x d' hf), fun x => ih x (h.2 x)⟩

variable {R : D → D → Prop}

theorem StepsOf.bind {p : Prog D ε δ} (hp : StepsOf t R p)
    (hk : ∀ b, StepsOf t R (k b)) : StepsOf t R (p >>= k) := by
  induction p with
  | pure b => exact hk b
  | raise e => trivial
  | stmt f k' ih => exact ⟨hp.1, fun x => ih x (hp.2 x)⟩

theorem StepsOf.exec {f : Txn → D → Option (γ × D)} (h : ∀ d x d', f t d = some (x, d') → R d d') :
    StepsOf t R (Prog.exec f : Prog D ε γ) := ⟨h, fun _ => trivial⟩

theorem StepsOf.query {f : Txn → D → γ} (hrefl : ∀ d, R d d) :
    StepsOf t R (Prog.query f : Prog D ε γ) := by
  refine ⟨fun d x d' hf => ?_, fun _ => trivial⟩
  cases hf
  exact hrefl d

theorem StepsOf.inserting (h : ∀ d b d', f t d = some (b, d') → R d d') : StepsOf t R (Prog.inserting e f) := by
  refine (StepsOf.exec h).bind fun inserted => ?_
  cases inserted <;> trivial

/-- A fact that every step keeps holds in the end as well. -/
theorem wp_knowing {A : D → Prop} (hp : StepsOf t R p)
    (hrely : ∀ d d', X.inv d' → X.rely t (X.key req) d d' → A d → A d')
    (hstep : ∀ d d', X.inv d → X.works t req d → A d → R d d' → X.assumes d' →
      X.Keeps t (X.key req) d d' ∧ X.works t req d' ∧ A d')
    (hbreaks : ∀ d, X.inv d → X.works t req d → X.breaks t req d) (h : A d) :
    X.wp t req (fun _ d' => A d') p d := by
  induction p generalizing d with
  | pure b => exact fun d' hi hr _ => hrely d d' hi hr h
  | raise e => exact fun d' hi _ hw => hbreaks d' hi hw
  | stmt f k ih =>
      intro d' hi hr hw x d'' hf ha
      obtain ⟨hkeeps, hw', hA⟩ := hstep d' d'' hi hw (hrely d d' hi hr h) (hp.1 d' x d'' hf) ha
      exact ⟨hkeeps, hw', ih x (hp.2 x) hA⟩

theorem wp_of_stepsOf (hp : StepsOf t R p)
    (hstep : ∀ d d', X.inv d → X.works t req d → R d d' → X.assumes d' → X.Keeps t (X.key req) d d' ∧ X.works t req d')
    (hbreaks : ∀ d, X.inv d → X.works t req d → X.breaks t req d) :
    X.wp t req (fun _ d' => X.works t req d') p d := by
  refine wp_mono (fun _ _ _ hw _ => hw) (wp_knowing (A := fun _ => True) hp (fun _ _ _ _ h => h) (fun d d' hi hw _ hR ha => ?_) hbreaks trivial)
  obtain ⟨hkeeps, hw'⟩ := hstep d d' hi hw hR ha
  exact ⟨hkeeps, hw', trivial⟩

section Session

variable [Database D]

/-- The rule of a COMMIT in the middle of a program. -/
theorem wp_commitWork_bind {k : Unit → Prog D ε γ}
    (h : ∀ d', X.inv d' → X.rely t (X.key req) d d' → X.works t req d' →
      X.Keeps t (X.key req) d' (Database.commit t d') ∧ X.works t req (Database.commit t d') ∧
        X.wp t req Q (k ()) (Database.commit t d')) :
    X.wp t req Q (Prog.commitWork >>= k) d := by
  refine wp_exec_bind fun d' hi hr hw x d'' hexec => ?_
  cases hexec
  exact h d' hi hr hw

theorem wp_rollbackWork_bind {k : Unit → Prog D ε γ}
    (h : ∀ d', X.inv d' → X.rely t (X.key req) d d' → X.works t req d' →
      X.Keeps t (X.key req) d' (Database.rollback t d') ∧ X.works t req (Database.rollback t d') ∧
        X.wp t req Q (k ()) (Database.rollback t d')) :
    X.wp t req Q (Prog.rollbackWork >>= k) d := by
  refine wp_exec_bind fun d' hi hr hw x d'' hexec => ?_
  cases hexec
  exact h d' hi hr hw

end Session

end Wp

/-! ## soundness -/

variable (X : Exclusive D Req β K)

/-- The specification of those who stand aside. -/
def aside : Exclusive D Req β K where
  key _ := none
  inv := X.inv
  rely := X.rely
  rests := X.rests
  fresh := X.fresh
  works t req d := X.skips req d ∧ X.fresh t d
  post t _ _ d := X.fresh t d
  ended := X.ended
  moves := X.moves
  assumes := X.assumes

variable [Database D]

/-- The obligations of a specification. -/
structure Sound (prog : Req → Prog D ε β) : Prop where
  refl : ∀ t k d, X.rely t k d d
  trans : ∀ {t k d₁ d₂ d₃}, X.rely t k d₁ d₂ → X.rely t k d₂ d₃ → X.rely t k d₁ d₃
  moves_refl : ∀ d, X.moves d d
  moves_trans : ∀ {d₁ d₂ d₃}, X.moves d₁ d₂ → X.moves d₂ d₃ → X.moves d₁ d₃
  fresh_rely : ∀ {t d d'}, X.inv d' → X.rely t none d d' → X.fresh t d → X.fresh t d'
  ended_rely : ∀ {t d d'}, X.inv d' → X.rely t none d d' → X.ended t d → X.ended t d'
  works_rely : ∀ {t req d d'}, X.inv d' → X.rely t (X.key req) d d' → X.works t req d → X.works t req d'
  body : ∀ {t req d}, X.inv d → X.opens req d → X.fresh t d → (∀ k, X.key req = some k → X.rests k d) →
    X.works t req d ∧ X.wp t req (X.post t req) (prog req) d
  commit : ∀ {t req b d}, X.inv d → X.works t req d → X.post t req b d → X.closes req d → X.assumes (Database.commit t d) →
    X.Keeps t (X.key req) d (Database.commit t d) ∧ (∀ k, X.key req = some k → X.rests k (Database.commit t d)) ∧
      X.ended t (Database.commit t d)
  rollback : ∀ {t req d}, X.inv d → X.works t req d → X.breaks t req d → X.assumes (Database.rollback t d) →
    X.Keeps t (X.key req) d (Database.rollback t d) ∧ (∀ k, X.key req = some k → X.rests k (Database.rollback t d)) ∧
      X.ended t (Database.rollback t d)
  skips_rely : ∀ {t req d d'}, X.inv d' → X.rely t none d d' → X.skips req d → X.skips req d'
  aside : ∀ {t req d}, X.inv d → X.skips req d → X.fresh t d → X.aside.wp t req (fun _ d' => X.fresh t d') (prog req) d
  leave : ∀ {t req d}, X.inv d → X.skips req d → X.fresh t d →
    (X.assumes (Database.commit t d) → X.Keeps t none d (Database.commit t d) ∧ X.ended t (Database.commit t d)) ∧
      (X.assumes (Database.rollback t d) → X.Keeps t none d (Database.rollback t d) ∧ X.ended t (Database.rollback t d))

/-- What the specification says of a transaction, by where it stands and what it is at. -/
def ProcOk (t : Txn) (k : Option K) : Proc D ε Req β → D → Prop
  | .idle, d => k = none ∧ X.fresh t d
  | .running req p, d => (k = X.key req ∧ X.works t req d ∧ X.wp t req (X.post t req) p d) ∨
      (k = none ∧ X.aside.works t req d ∧ X.aside.wp t req (X.aside.post t req) p d)
  | .committed _ _, d => k = none ∧ X.ended t d
  | .aborted, d => k = none ∧ X.ended t d

/-- The key of a transaction's request. -/
def keyOf : Proc D ε Req β → Option K
  | .running req _ => X.key req
  | _ => none

/-- The specification holds of a system, where everybody is at a key or at none. -/
structure OkAt (at' : Txn → Option K) (s : Sys D ε Req β) : Prop where
  inv : X.inv s.db
  procs : ∀ t, X.ProcOk t (at' t) (s.procs t) s.db
  alone : ∀ t u k, at' t = some k → at' u = some k → t = u
  rests : ∀ k, (∀ t, at' t ≠ some k) → X.rests k s.db

/-- The specification holds of a system. -/
def Ok (s : Sys D ε Req β) : Prop := ∃ at', X.OkAt at' s

/-- The steps a schedule may take. -/
def Permits (s : Sys D ε Req β) (a : Action Req) (s' : Sys D ε Req β) : Prop :=
  match a with
  | .begin _ req => ((∀ u k, X.keyOf (s.procs u) = some k → X.key req ≠ some k) ∧ X.opens req s.db) ∨ X.skips req s.db
  | .exec _ => X.assumes s'.db
  | .commit t => (∀ req b, s.procs t = .running req (.pure b) → X.closes req s.db) ∧ X.assumes s'.db
  | .abort t => (∀ req p, s.procs t = .running req p → (∃ e, p = .raise e) ∨ X.breaks t req s.db) ∧ X.assumes s'.db

variable {X} {prog : Req → Prog D ε β} {s s' : Sys D ε Req β}

variable {c : Proc D ε Req β}

theorem ProcOk.rely {k : Option K} (hs : X.Sound prog) (hi : X.inv d') (hr : X.rely t k d d') (h : X.ProcOk t k c d) :
    X.ProcOk t k c d' := by
  cases c with
  | idle =>
      obtain ⟨rfl, hfresh⟩ := h
      exact ⟨rfl, hs.fresh_rely hi hr hfresh⟩
  | running req p =>
      rcases h with ⟨rfl, hworks, hw⟩ | ⟨rfl, ⟨hskips, hfresh⟩, hw⟩
      · exact .inl ⟨rfl, hs.works_rely hi hr hworks, wp_stable hs.trans hr hw⟩
      · exact .inr ⟨rfl, ⟨hs.skips_rely hi hr hskips, hs.fresh_rely hi hr hfresh⟩, wp_stable (X := X.aside) hs.trans hr hw⟩
  | committed req b =>
      obtain ⟨rfl, hended⟩ := h
      exact ⟨rfl, hs.ended_rely hi hr hended⟩
  | aborted =>
      obtain ⟨rfl, hended⟩ := h
      exact ⟨rfl, hs.ended_rely hi hr hended⟩

omit [Database D] in
theorem ProcOk.keyOf {k : K} (h : X.ProcOk t (some k) c d) : X.keyOf c = some k := by
  cases c with
  | idle => exact absurd h.1 (Option.some_ne_none k)
  | running req p =>
      rcases h with ⟨hk, -, -⟩ | ⟨hk, -, -⟩
      · exact hk.symm
      · exact absurd hk (Option.some_ne_none k)
  | committed req b => exact absurd h.1 (Option.some_ne_none k)
  | aborted => exact absurd h.1 (Option.some_ne_none k)

/-- A worker moves on: the keys of the others stay theirs. -/
theorem OkAt.move {at' : Txn → Option K} (hs : X.Sound prog) (h : X.OkAt at' s) (k k' : Option K)
    (hkey : ∀ u j, u ≠ t → at' u = some j → k ≠ some j) (hold : ∀ j, at' t = some j → k = some j)
    (hk : X.Keeps t k s.db d) (hc : X.ProcOk t k' c d) (hnew : ∀ j, k' = some j → k = some j)
    (hrests : ∀ j, k = some j → k' ≠ some j → X.rests j d) :
    X.OkAt (update at' t k') ⟨d, update s.procs t c⟩ := by
  have hother : ∀ u, u ≠ t → update at' t k' u = at' u := fun u hu => update_of_ne hu k' at'
  have hself : update at' t k' t = k' := update_self t k' at'
  refine ⟨hk.inv, fun u => ?_, fun u v j hu hv => ?_, fun j hj => ?_⟩
  · by_cases hu : u = t
    · subst hu
      show X.ProcOk u _ (update s.procs u c u) d
      rw [hself, update_self]
      exact hc
    · show X.ProcOk u _ (update s.procs t c u) d
      rw [hother u hu, update_of_ne hu]
      exact (h.procs u).rely hs hk.inv (hk.rely u _ hu fun j hkj huj => hkey u j hu huj hkj)
  · by_cases hut : u = t
    · by_cases hvt : v = t
      · exact hut.trans hvt.symm
      · subst hut
        rw [hself] at hu
        rw [hother v hvt] at hv
        exact absurd (hnew j hu) (hkey v j hvt hv)
    · rw [hother u hut] at hu
      by_cases hvt : v = t
      · rw [hvt, hself] at hv
        exact absurd (hnew j hv) (hkey u j hut hu)
      · rw [hother v hvt] at hv
        exact h.alone u v j hu hv
  · have hcj : k' ≠ some j := by
      have hj := hj t
      rwa [hself] at hj
    by_cases hkj : k = some j
    · exact hrests j hkj hcj
    · refine hk.rests j hkj (h.rests j fun u => ?_)
      by_cases hu : u = t
      · subst hu
        exact fun huj => hkj (hold j huj)
      · have hj := hj u
        rwa [hother u hu] at hj

variable {a : Action Req}

/-- One permitted step keeps the system in order. -/
theorem ok_step (hs : X.Sound prog) (h : X.Ok s) (hstep : step prog s a = some s') (hp : X.Permits s a s') :
    X.Ok s' ∧ X.moves s.db s'.db := by
  obtain ⟨at', h⟩ := h
  have hrefl : ∀ (t : Txn) (k : Option K), X.Keeps t k s.db s.db := fun t k =>
    ⟨h.inv, fun u k' _ _ => hs.refl u k' s.db, fun _ _ hj => hj, hs.moves_refl s.db⟩
  have halone : ∀ t u j, u ≠ t → at' u = some j → at' t ≠ some j := fun t u j hu huj htj => hu (h.alone u t j huj htj)
  have hnone : ∀ j : K, (none : Option K) ≠ some j := fun j hj => absurd hj.symm (Option.some_ne_none j)
  obtain ⟨t, req, rfl, hproc, rfl⟩ | ⟨t, req, γ, f, k, x, d, rfl, hproc, hf, rfl⟩ |
    ⟨t, req, b, rfl, hproc, rfl⟩ | ⟨t, req, p, rfl, hproc, rfl⟩ := step_cases hstep
  · obtain ⟨hat, hfresh⟩ : at' t = none ∧ X.fresh t s.db := by
      have hok := h.procs t
      rwa [hproc] at hok
    have hold : ∀ (k : Option K) j, at' t = some j → k = some j := fun k j hj => absurd (hat.symm.trans hj) (hnone j)
    rcases hp with ⟨hfree, hopens⟩ | hskips
    · have hfree : ∀ u j, at' u = some j → X.key req ≠ some j := fun u j huj => by
        have hok := h.procs u
        rw [huj] at hok
        exact hfree u j hok.keyOf
      obtain ⟨hworks, hw⟩ := hs.body (t := t) h.inv hopens hfresh fun k hk => h.rests k fun u hu => hfree u k hu hk
      exact ⟨⟨_, h.move hs (X.key req) (X.key req) (fun u j _ huj => hfree u j huj) (hold _) (hrefl t _)
        (.inl ⟨rfl, hworks, hw⟩) (fun j hj => hj) fun j hj hno => absurd hj hno⟩, hs.moves_refl s.db⟩
    · exact ⟨⟨_, h.move hs none none (fun _ j _ _ => hnone j) (hold _) (hrefl t _)
        (.inr ⟨rfl, ⟨hskips, hfresh⟩, hs.aside h.inv hskips hfresh⟩) (fun j hj => hj) fun j hj hno => absurd hj hno⟩,
        hs.moves_refl s.db⟩
  · have hok := h.procs t
    rw [hproc] at hok
    rcases hok with ⟨hat, hworks, hw⟩ | ⟨hat, hworks, hw⟩
    · obtain ⟨hk, hworks', hw'⟩ := hw s.db h.inv (hs.refl t _ s.db) hworks x d hf hp
      exact ⟨⟨_, h.move hs (X.key req) (X.key req) (fun u j hu huj => hat ▸ halone t u j hu huj) (fun j hj => hat ▸ hj)
        hk (.inl ⟨rfl, hworks', hw'⟩) (fun j hj => hj) fun j hj hno => absurd hj hno⟩, hk.moves⟩
    · obtain ⟨hk, hworks', hw'⟩ := hw s.db h.inv (hs.refl t _ s.db) hworks x d hf hp
      have hk : X.Keeps t none s.db d := ⟨hk.1, hk.2, hk.3, hk.4⟩
      exact ⟨⟨_, h.move hs none none (fun _ j _ _ => hnone j) (fun j hj => hat ▸ hj) hk
        (.inr ⟨rfl, hworks', hw'⟩) (fun j hj => hj) fun j hj hno => absurd hj hno⟩, hk.moves⟩
  · have hok := h.procs t
    rw [hproc] at hok
    rcases hok with ⟨hat, hworks, hw⟩ | ⟨hat, hworks, hw⟩
    · obtain ⟨hk, hrests, hended⟩ := hs.commit h.inv hworks (hw s.db h.inv (hs.refl t _ s.db) hworks) (hp.1 req b hproc) hp.2
      exact ⟨⟨_, h.move hs (X.key req) none (fun u j hu huj => hat ▸ halone t u j hu huj) (fun j hj => hat ▸ hj)
        hk ⟨rfl, hended⟩ (fun j hj => absurd hj (hnone j)) fun j hj _ => hrests j hj⟩, hk.moves⟩
    · obtain ⟨hk, hended⟩ := (hs.leave h.inv hworks.1 (hw s.db h.inv (hs.refl t _ s.db) hworks)).1 hp.2
      exact ⟨⟨_, h.move hs none none (fun _ j _ _ => hnone j) (fun j hj => hat ▸ hj) hk ⟨rfl, hended⟩
        (fun j hj => hj) fun j hj hno => absurd hj hno⟩, hk.moves⟩
  · have hok := h.procs t
    rw [hproc] at hok
    rcases hok with ⟨hat, hworks, hw⟩ | ⟨hat, hworks, -⟩
    · have hbreaks : X.breaks t req s.db := by
        rcases hp.1 req p hproc with ⟨e, rfl⟩ | hbreaks
        · exact hw s.db h.inv (hs.refl t _ s.db) hworks
        · exact hbreaks
      obtain ⟨hk, hrests, hended⟩ := hs.rollback h.inv hworks hbreaks hp.2
      exact ⟨⟨_, h.move hs (X.key req) none (fun u j hu huj => hat ▸ halone t u j hu huj) (fun j hj => hat ▸ hj)
        hk ⟨rfl, hended⟩ (fun j hj => absurd hj (hnone j)) fun j hj _ => hrests j hj⟩, hk.moves⟩
    · obtain ⟨hk, hended⟩ := (hs.leave h.inv hworks.1 hworks.2).2 hp.2
      exact ⟨⟨_, h.move hs none none (fun _ j _ _ => hnone j) (fun j hj => hat ▸ hj) hk ⟨rfl, hended⟩
        (fun j hj => hj) fun j hj hno => absurd hj hno⟩, hk.moves⟩

omit [Database D] in
theorem ok_start (hinv : X.inv d) (hfresh : ∀ t, X.fresh t d) (hrests : ∀ k, X.rests k d) :
    X.Ok (Sys.start d : Sys D ε Req β) :=
  ⟨fun _ => none, hinv, fun t => ⟨rfl, hfresh t⟩, fun _ _ k h => absurd h.symm (Option.some_ne_none k), fun k _ => hrests k⟩

variable {as : List (Action Req)}

/-- **Soundness**: a permitted schedule keeps the specification, and moves the database along `moves`. -/
theorem Sound.run (hs : X.Sound prog) (h : X.Ok s) (hp : EveryStep prog X.Permits s as)
    (hrun : run prog s as = some s') : X.Ok s' ∧ X.moves s.db s'.db := by
  induction as generalizing s with
  | nil =>
      cases hrun
      exact ⟨h, hs.moves_refl _⟩
  | cons a as ih =>
      obtain ⟨s₁, hstep, hrest⟩ := run_cons hrun
      obtain ⟨hperm, htail⟩ := hp s₁ hstep
      obtain ⟨hok, hmoves⟩ := ok_step hs h hstep hperm
      obtain ⟨hok', hmoves'⟩ := ih hok htail hrest
      exact ⟨hok', hs.moves_trans hmoves hmoves'⟩

variable {P : Sys D ε Req β → Action Req → Sys D ε Req β → Prop}

theorem everyStep_append {as bs : List (Action Req)}
    (h : EveryStep prog P s (as ++ bs)) (hrun : run prog s as = some s') :
    EveryStep prog P s as ∧ EveryStep prog P s' bs := by
  induction as generalizing s with
  | nil =>
      cases hrun
      exact ⟨trivial, h⟩
  | cons a as ih =>
      obtain ⟨s₁, hstep, hrest⟩ := run_cons hrun
      obtain ⟨hp, htail⟩ := h s₁ hstep
      obtain ⟨has, hbs⟩ := ih htail hrest
      refine ⟨fun s₂ hstep₂ => ?_, hbs⟩
      rw [hstep] at hstep₂
      cases hstep₂
      exact ⟨hp, has⟩

theorem everyStep_of_append {as bs : List (Action Req)}
    (h : EveryStep prog P s as) (hbs : ∀ s', run prog s as = some s' → EveryStep prog P s' bs) :
    EveryStep prog P s (as ++ bs) := by
  induction as generalizing s with
  | nil => exact hbs s rfl
  | cons a as ih =>
      intro s₁ hstep
      obtain ⟨hp, htail⟩ := h s₁ hstep
      refine ⟨hp, ih htail fun s' hrest => hbs s' ?_⟩
      rw [run, hstep]
      exact hrest

theorem everyStep_cons (hstep : step prog s a = some s') (hp : P s a s') (h : EveryStep prog P s' as) :
    EveryStep prog P s (a :: as) := by
  intro s₁ hstep₁
  rw [hstep] at hstep₁
  cases hstep₁
  exact ⟨hp, h⟩

theorem everyStep_and {P Q : Sys D ε Req β → Action Req → Sys D ε Req β → Prop}
    (h : EveryStep prog P s as) (h' : EveryStep prog Q s as) : EveryStep prog (fun s a s' => P s a s' ∧ Q s a s') s as := by
  induction as generalizing s with
  | nil => trivial
  | cons a as ih =>
      intro s₁ hstep
      obtain ⟨hp, htail⟩ := h s₁ hstep
      obtain ⟨hq, htail'⟩ := h' s₁ hstep
      exact ⟨⟨hp, hq⟩, ih htail htail'⟩

theorem procs_of_run (hrun : run prog s as = some s') (hu : ∀ a ∈ as, a.txn ≠ u) : s'.procs u = s.procs u := by
  induction as generalizing s with
  | nil =>
      cases hrun
      rfl
  | cons a as ih =>
      obtain ⟨s₁, hstep, hrest⟩ := run_cons hrun
      have hone : s₁.procs u = s.procs u := by
        have ha := hu a List.mem_cons_self
        obtain ⟨t, req, rfl, -, rfl⟩ | ⟨t, req, γ, f, k, x, d, rfl, -, -, rfl⟩ |
          ⟨t, req, b, rfl, -, rfl⟩ | ⟨t, req, p, rfl, -, rfl⟩ := step_cases hstep
        all_goals exact update_of_ne ha.symm _ s.procs
      exact (ih hrest fun b hb => hu b (List.mem_cons_of_mem a hb)).trans hone

theorem everyStep_mono {P Q : Sys D ε Req β → Action Req → Sys D ε Req β → Prop}
    (hPQ : ∀ s a s', step prog s a = some s' → P s a s' → Q s a s') (h : EveryStep prog P s as) :
    EveryStep prog Q s as := by
  induction as generalizing s with
  | nil => trivial
  | cons a as ih => exact fun s' hstep => ⟨hPQ s a s' hstep (h s' hstep).1, ih (h s' hstep).2⟩

theorem everyStep_of_mem
    (h : ∀ a ∈ as, ∀ s s', P s a s') : EveryStep prog P s as := by
  induction as generalizing s with
  | nil => trivial
  | cons a as ih => exact fun s₁ _ => ⟨h a List.mem_cons_self s s₁, ih fun b hb => h b (List.mem_cons_of_mem a hb)⟩

theorem permits_of_going (hall : ∀ d, X.assumes d) (hcloses : ∀ req d, X.closes req d)
    (h : ∀ a ∈ as, ∃ t, a = .exec t ∨ a = .commit t) :
    EveryStep prog X.Permits s as := by
  refine everyStep_of_mem fun a ha s s₁ => ?_
  obtain ⟨t, rfl | rfl⟩ := h a ha
  · exact hall s₁.db
  · exact ⟨fun req _ _ => hcloses req s.db, hall s₁.db⟩

theorem Sound.everyStep (hs : X.Sound prog) (h : X.Ok s) (hp : EveryStep prog X.Permits s as) :
    EveryStep prog (fun s a s' => X.Permits s a s' ∧ X.Ok s ∧ X.Ok s') s as := by
  induction as generalizing s with
  | nil => trivial
  | cons a as ih =>
      intro s₁ hstep
      obtain ⟨hperm, htail⟩ := hp s₁ hstep
      have hok := (ok_step hs h hstep hperm).1
      exact ⟨⟨hperm, h, hok⟩, ih hok htail⟩

theorem Sound.everyStep_moves (hs : X.Sound prog) (h : X.Ok s) (hd : X.moves d s.db)
    (hp : EveryStep prog X.Permits s as) :
    EveryStep prog (fun s a s' => X.Permits s a s' ∧ X.Ok s ∧ X.moves d s.db) s as := by
  induction as generalizing s with
  | nil => trivial
  | cons a as ih =>
      intro s₁ hstep
      obtain ⟨hperm, htail⟩ := hp s₁ hstep
      obtain ⟨hok, hmoves⟩ := ok_step hs h hstep hperm
      exact ⟨⟨hperm, h, hd⟩, ih hok (hs.moves_trans hd hmoves) htail⟩

theorem Sound.run_split (hs : X.Sound prog) {as bs : List (Action Req)} {s₀ : Sys D ε Req β} (h : X.Ok s₀)
    (hp : EveryStep prog X.Permits s₀ (as ++ bs)) (hrun : ReadCommitted.run prog s₀ as = some s)
    (hrun' : ReadCommitted.run prog s bs = some s') : X.Ok s ∧ X.Ok s' ∧ X.moves s.db s'.db := by
  obtain ⟨has, hbs⟩ := everyStep_append hp hrun
  have hok := (hs.run h has hrun).1
  exact ⟨hok, hs.run hok hbs hrun'⟩

omit [Database D] in
theorem Ok.inv (h : X.Ok s) : X.inv s.db := h.choose_spec.inv

theorem Ok.post (h : X.Ok s) (hs : X.Sound prog) {req : Req} {b : β} (hproc : s.procs t = .running req (.pure b))
    (hno : ¬X.skips req s.db) : X.works t req s.db ∧ X.post t req b s.db := by
  obtain ⟨at', h⟩ := h
  have hok := h.procs t
  rw [hproc] at hok
  rcases hok with ⟨-, hworks, hw⟩ | ⟨-, ⟨hskips, -⟩, -⟩
  · exact ⟨hworks, hw s.db h.inv (hs.refl t _ s.db) hworks⟩
  · exact absurd hskips hno

omit [Database D] in
theorem Ok.rests (h : X.Ok s) {k : K} (hk : ∀ t, X.keyOf (s.procs t) ≠ some k) : X.rests k s.db := by
  obtain ⟨at', h⟩ := h
  refine h.rests k fun t ht => hk t ?_
  have hok := h.procs t
  rw [ht] at hok
  exact hok.keyOf

end Exclusive

end ReadCommitted
