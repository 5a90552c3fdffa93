import Anoryx.Delta.KillSwitchInvariant

/-!
# Anoryx.Delta.KillSwitchMachine

The calls of the kill switch against `KillInv`, and the state machine that
follows for every schedule.

`publishKillDecision` closes the gap a flip opens between a row and its
decisions; `clearScopes` does so once per listed scope, by induction on the
list.
-/

namespace Anoryx.Delta

open ReadCommitted Alternation Table Logic

/-! ## the specification -/

/-- The policy id an evaluation has read for its scope. -/
def KillOutcome.policyId : KillOutcome → Option String
  | notClear policyId => some policyId
  | lost policyId => some policyId
  | killed policyId _ => some policyId
  | _ => none

/-- An evaluation that came as far as a row has read that row's policy. -/
def Told (call : KillCall) (o : KillOutcome) (rows : KillScope → Option KillRow) : Prop :=
  ∀ record ceiling now policyId, call = .evaluate record ceiling now →
    o.policyId = some policyId →
    ∃ row, rows record.killScope = some row ∧ row.policyId = policyId

/-- Under `guard`, schedules spare listed scopes. -/
def killLogic (uuid4 : Txn → Nat → String) (guard : Prop) : Logic KillDb KillCall KillOutcome where
  inv d := KillInv d ∧ (guard → Authority d)
  rely := KillRely uuid4
  fresh := KillFresh uuid4
  post t call o d := Sees t d ∧ Told call o (d.states.visible t)
  ensures t call o d := KillSettled t d ∧ Told call o d.states.committed
  undone := KillSettled
  allowed t d d' := guard → SparesListed t d d'

variable {v : Nat} {policyId note killId : String} {o : KillDecisionRow} {row row' : KillRow}
  {r ceiling : Option Nat} {d : KillDb} {k : KillScope}

section Program

variable {uuid4 : Txn → Nat → String} {guard : Prop} {t : Txn} {d : KillDb}

variable {d' : KillDb}

theorem kill_keeps_same (hi : (killLogic uuid4 guard).inv d) (h : SameStores d d')
    (hlisted : d'.listed = d.listed) (hreleased : d'.released = d.released) :
    (killLogic uuid4 guard).Keeps t d d' where
  inv := by
    refine ⟨hi.1.same h, fun hg => (hi.2 hg).of_versions ?_ ?_ hreleased⟩
    · rw [hlisted]
      exact fun _ hp => hp
    · rw [h.states]
      exact fun _ _ hver _ _ => .inl hver
  rely u _ := .same h fun k hk => hlisted ▸ hk

/-! ## publishing -/

/-- What a call still needs to know while it publishes. -/
structure Carried (uuid4 : Txn → Nat → String) (t : Txn) (R : KillDb → Prop) : Prop where
  rely : ∀ {d d'}, KillRely uuid4 t d d' → R d → R d'
  same : ∀ {d d'}, d'.states = d.states → d'.listed = d.listed → R d → R d'

variable {k : KillScope} {tr : KillTransition}

theorem kill_enqueue {x : Bool} {outbox : Table DecisionKey KillDecisionRow} (hi : KillInv d)
    (h : KillFlipped t k tr v policyId d) (htr : o.transition = tr)
    (hins : d.outbox.insertOrIgnore t (killKey k policyId v) o = some (x, outbox)) :
    Sees t { d with outbox } := by
  obtain ⟨row, hin, hver, hstate, rfl⟩ := h.row
  obtain ⟨w, rfl, hstep⟩ := h.behind
  rcases insertOrIgnore_cases hins with ⟨_, _, o', ho'⟩ | ⟨_, rfl, _, _⟩
  · rw [hstep.beyond (w + 1) (Nat.lt_succ_self w)] at ho'
    contradiction
  intro k' row' hvis
  by_cases hk : k' = k
  · subst hk
    rw [visible_of_inflight hin, Option.some.injEq] at hvis
    subst hvis
    have hon : o.isKill = !!decide (tr = .kill) := by
      rw [Bool.not_not, KillDecisionRow.isKill, htr]
    have hstate' : row.isKilled = !!decide (tr = .kill) := by
      rw [Bool.not_not, hstate]
    rw [RowInStep, hver, hstate']
    refine hstep.flip hon (visible_write_self _ _ _ _) fun v hv => ?_
    exact visible_write_of_ne fun he => hv (killKey_inj he).2
  · have hlog : ∀ v, (d.outbox.write t (killKey k row.policyId (w + 1)) o).visible t
        (killKey k' row'.policyId v) = d.outbox.visible t (killKey k' row'.policyId v) := by
      intro v
      refine visible_write_of_ne fun he => hk ?_
      exact hi.distinct k' k row' row (.of_visible hvis) (.inr ⟨t, hin⟩) (killKey_inj he).1
    exact (h.others k' hk row' hvis).congr fun v _ => hlog v

variable {now : DateTime} {state : KillRow} {R : KillDb → Prop}

/-- A flip is published in its own transaction. -/
theorem wp_publishKillDecision (hR : Carried uuid4 t R) (h : KillFlipped t k tr v state.policyId d)
    (hr : R d) :
    (killLogic uuid4 guard).wp t (fun _ d => Sees t d ∧ R d)
      (publishKillDecision k state v tr note now) d := by
  unfold publishKillDecision
  split
  · exact wp_raise _
  · refine wp_exec_bind fun d₁ hi₁ hr₁ x d₂ hins _ => ?_
    obtain ⟨⟨x', outbox⟩, hrow, heq⟩ := Option.map_eq_some_iff.mp hins
    rw [Prod.mk.injEq] at heq
    rw [← heq.2]
    have h₁ := h.rely hi₁.1 hr₁
    obtain ⟨row, hin, _, _, hp⟩ := h₁.row
    have hrow' : d₁.outbox.insertOrIgnore t (killKey k row.policyId v) _ = some (x', outbox) :=
      hp ▸ hrow
    have hkeeps : (killLogic uuid4 guard).Keeps t d₁ { d₁ with outbox } :=
      ⟨⟨hi₁.1.enqueue hin h₁.version_pos hrow', fun hg => (hi₁.2 hg).of_versions (fun _ hp => hp)
        (fun _ _ hver _ _ => .inl hver) rfl⟩, fun u hne => .enqueue hin hrow' hne⟩
    have hsees := kill_enqueue hi₁.1 h₁ rfl hrow
    have hrest₁ : R d₁ := hR.rely hr₁ hr
    have hrest₂ : R { d₁ with outbox } := hR.same (d := d₁) rfl rfl hrest₁
    refine ⟨hkeeps, ?_⟩
    intro d₃ hi₃ hr₃ y d₄ happ _
    obtain ⟨⟨y', history⟩, _, heq'⟩ := Option.map_eq_some_iff.mp happ
    rw [Prod.mk.injEq] at heq'
    rw [← heq'.2]
    have hrest₃ : R d₃ := hR.rely hr₃ hrest₂
    refine ⟨kill_keeps_same hi₃ ⟨rfl, rfl⟩ rfl rfl, fun d₅ hi₅ hr₅ => ⟨?_, ?_⟩⟩
    · exact Sees.rely hi₅.1 hr₅ fun k' => (hsees.rely hi₃.1 hr₃) k'
    · exact hR.rely hr₅ (hR.same (d := d₃) rfl rfl hrest₃)

/-! ## flips -/

theorem kill_flipped {r : KillRow} (h : Sees t d) (hvis : d.states.visible t k = some row)
    (hstates : d'.states = d.states.write t k r) (houtbox : d'.outbox = d.outbox)
    (hfrom : row.isKilled = !decide (tr = .kill)) (hto : r.isKilled = decide (tr = .kill))
    (hver : r.lastPublishedVersion = row.lastPublishedVersion + 1) (hp : r.policyId = row.policyId) :
    KillFlipped t k tr (row.lastPublishedVersion + 1) row.policyId d' where
  others k' hk w hw := by
    rw [hstates, visible_write_of_ne hk] at hw
    rw [houtbox]
    exact h k' w hw
  row := ⟨r, by rw [hstates, inflight_write_self], hver, hto, hp⟩
  behind := by
    refine ⟨row.lastPublishedVersion, rfl, ?_⟩
    have hstep := h k row hvis
    rw [RowInStep, hfrom] at hstep
    rw [houtbox]
    exact hstep

/-- A flip succeeds with a row to publish, or finds nothing to do. -/
def FlipPost (t : Txn) (k : KillScope) (tr : KillTransition) (policyId : String)
    (R : KillDb → Prop) (r : Option Nat) (d : KillDb) : Prop :=
  R d ∧ match r with
    | none => Sees t d
    | some v => KillFlipped t k tr v policyId d

theorem FlipPost.rely (hR : Carried uuid4 t R) (hi : KillInv d') (hr : KillRely uuid4 t d d')
    (h : FlipPost t k tr policyId R r d) : FlipPost t k tr policyId R r d' := by
  refine ⟨hR.rely hr h.1, ?_⟩
  cases r with
  | none => exact Sees.rely hi hr h.2
  | some v => exact KillFlipped.rely hi hr h.2

/-! ## clearing -/

/-- A step of `t` that leaves every scope but `k` alone. -/
structure Elsewhere (t : Txn) (k : KillScope) (d d' : KillDb) : Prop where
  committed : ∀ k', k' ≠ k → d'.states.committed k' = d.states.committed k'
  inflight : ∀ k', k' ≠ k → d'.states.inflight k' = d.states.inflight k'
  listed : ∀ p ∈ d.listed, p ≠ (t, k) → p ∈ d'.listed

variable {caller : Caller}

theorem clear_cases {reason : Option KillReason}
    (h : ((d.states.updateWhere t k (KillRow.inState killId .killed)
      fun row => row.transition .clear reason now).map fun p =>
        (p.1.map KillRow.lastPublishedVersion,
          { d with
            states := p.2
            listed := d.listed.filter fun q => q ≠ (t, k)
            released := if p.1.isSome then
                d.released ++ [⟨caller, k, (d.states.visible t k).bind KillRow.reason⟩]
              else d.released })) = some (r, d')) :
    (r = none ∧ d' = d.unlist t k) ∨
      ∃ row, d.states.visible t k = some row ∧ row.state = .killed ∧ d.states.free t k = true ∧
        r = some (row.lastPublishedVersion + 1) ∧
        d' = d.release t k caller row (row.transition .clear reason now) := by
  obtain ⟨⟨r', states⟩, hrow, heq⟩ := Option.map_eq_some_iff.mp h
  rw [Prod.mk.injEq] at heq
  obtain ⟨rfl, rfl⟩ := heq
  rcases updateWhere_cases hrow with ⟨rfl, rfl, _⟩ | ⟨row, hvis, hwhere, hfree, rfl, rfl⟩
  · exact .inl ⟨rfl, rfl⟩
  · simp only [KillRow.inState, decide_eq_true_eq] at hwhere
    refine .inr ⟨row, hvis, hwhere.2, hfree, rfl, ?_⟩
    simp [KillDb.release, KillDb.unlist, KillDb.putState, hvis]

theorem kill_keeps_unlist (hi : (killLogic uuid4 guard).inv d) :
    (killLogic uuid4 guard).Keeps t d (d.unlist t k) where
  inv := ⟨hi.1.same ⟨rfl, rfl⟩, fun hg => (hi.2 hg).of_versions
    (fun _ hp => (List.mem_filter.mp hp).1) (fun _ _ hver _ _ => .inl hver) rfl⟩
  rely _ hne := .same ⟨rfl, rfl⟩ fun _ hk => mem_unlist hk fun he => hne (congrArg Prod.fst he)

theorem kill_keeps_release (hi : (killLogic uuid4 guard).inv d)
    (hvis : d.states.visible t k = some row) (hkilled : row.state = .killed)
    (hfree : d.states.free t k = true)
    (hready : ∀ r, d.states.inflight k = some (t, r) → d.states.committed k = none)
    (hp : row'.policyId = row.policyId) (hclear : row'.state = .clear)
    (hcaller : caller = .authorizeAgent → (t, k) ∈ d.listed) :
    (killLogic uuid4 guard).Keeps t d (d.release t k caller row row') where
  inv := by
    refine ⟨(hi.1.putState hvis hfree hready hp ?_).same ⟨rfl, rfl⟩,
      fun hg => (hi.2 hg).release hvis hkilled hclear hcaller⟩
    rw [hclear, hkilled]
    decide
  rely _ hne :=
    (KillRely.putState hvis hfree hp hne).trans
      (.same ⟨rfl, rfl⟩ fun _ hk => mem_unlist hk fun he => hne (congrArg Prod.fst he))

/-- A release clears a killed row, or finds it gone. -/
theorem wp_tryTransitionToClear
    (hR : Carried uuid4 t R)
    (helse : ∀ {d d'}, Elsewhere t k d d' → R d → R d') (hsees : Sees t d)
    (hknows : Knows t [(k, state)] d) (hready : Ready t [(k, state)] d)
    (hcaller : caller = .authorizeAgent → (t, k) ∈ d.listed) (hr : R d) :
    (killLogic uuid4 guard).wp t (FlipPost t k .clear state.policyId R)
      (tryTransitionToClear caller k state.killId now) d := by
  refine wp_query_bind (KillRely.refl uuid4) fun d₁ hi₁ hr₁ => ?_
  intro d₂ hi₂ hr₂ r d₃ hupd _
  have hr₀ := hr₁.trans hr₂
  have hsees₂ := hsees.rely hi₂.1 hr₀
  have hrest₂ : R d₂ := hR.rely hr₀ hr
  rcases clear_cases hupd with ⟨rfl, rfl⟩ | ⟨row, hvis, hkilled, hfree, rfl, rfl⟩
  · refine ⟨kill_keeps_unlist hi₂, fun d₄ hi₄ hr₄ => FlipPost.rely hR hi₄.1 hr₄ ⟨?_, hsees₂⟩⟩
    exact helse (d := d₂) ⟨fun _ _ => rfl, fun _ _ => rfl, fun _ => mem_unlist⟩ hrest₂
  · obtain ⟨row₂, hvis₂, hp⟩ := hknows.rely hr₀ (k, state) (by simp)
    have heq : row = row₂ := Option.some.inj (hvis.symm.trans hvis₂)
    subst heq
    have hready₂ := (hready.rely hr₀) (k, state) (by simp)
    refine ⟨kill_keeps_release hi₂ hvis hkilled hfree hready₂ rfl rfl
      fun hc => hr₀.listed k (hcaller hc), fun d₄ hi₄ hr₄ => FlipPost.rely hR hi₄.1 hr₄ ⟨?_, ?_⟩⟩
    · exact helse (d := d₂)
        ⟨fun _ _ => rfl, fun k' hk' => inflight_write_of_ne hk', fun _ => mem_unlist⟩ hrest₂
    · rw [← hp]
      have hfrom : row.isKilled = !decide (KillTransition.clear = .kill) := by
        rw [KillRow.isKilled, hkilled]
        rfl
      exact kill_flipped (r := row.transition .clear _ now) hsees₂ hvis rfl rfl hfrom rfl rfl rfl

theorem wp_clearScope
    (hR : Carried uuid4 t R)
    (helse : ∀ {d d'}, Elsewhere t k d d' → R d → R d') (hi : (killLogic uuid4 guard).inv d)
    (hsees : Sees t d) (hknows : Knows t [(k, state)] d) (hready : Ready t [(k, state)] d)
    (hcaller : caller = .authorizeAgent → (t, k) ∈ d.listed) (hr : R d) :
    (killLogic uuid4 guard).wp t (fun _ d => Sees t d ∧ R d) (clearScope caller k state now) d := by
  refine wp_bind (KillRely.refl uuid4 t) hi
    (wp_mono ?_ (wp_tryTransitionToClear hR helse hsees hknows hready hcaller hr))
  intro r d₁ hi₁ h₁
  cases r with
  | none => exact fun d₂ hi₂ hr₂ => ⟨Sees.rely hi₂.1 hr₂ h₁.2, hR.rely hr₂ h₁.1⟩
  | some v =>
      refine wp_bind (KillRely.refl uuid4 t) hi₁
        (wp_mono ?_ (wp_publishKillDecision hR h₁.2 h₁.1))
      exact fun _ d₂ _ h₂ d₃ hi₃ hr₃ => ⟨h₂.1.rely hi₃.1 hr₃, hR.rely hr₃ h₂.2⟩

/-- The scopes `authorize_agent` has still to take up. -/
structure Pending (t : Txn) (l : List (KillScope × KillRow)) (d : KillDb) : Prop where
  knows : Knows t l d
  ready : Ready t l d
  listed : ∀ p ∈ l, (t, p.1) ∈ d.listed

theorem carried_pending (l : List (KillScope × KillRow)) : Carried uuid4 t (Pending t l) where
  rely hr h := ⟨h.knows.rely hr, h.ready.rely hr, fun p hp => hr.listed p.1 (h.listed p hp)⟩
  same hs hl h := by
    refine ⟨?_, ?_, ?_⟩
    · simpa only [Knows, hs] using h.knows
    · simpa only [Ready, hs] using h.ready
    · simpa only [hl] using h.listed

variable {l : List (KillScope × KillRow)}

theorem Pending.elsewhere
    (hk : k ∉ l.map Prod.fst) (he : Elsewhere t k d d') (h : Pending t l d) : Pending t l d' := by
  have hne : ∀ p ∈ l, p.1 ≠ k := fun p hp he => hk (List.mem_map.mpr ⟨p, hp, he⟩)
  refine ⟨fun p hp => ?_, fun p hp row hin => ?_, fun p hp => ?_⟩
  · have hvis : d'.states.visible t p.1 = d.states.visible t p.1 := by
      simp only [visible, he.committed p.1 (hne p hp), he.inflight p.1 (hne p hp)]
    rw [hvis]
    exact h.knows p hp
  · rw [he.committed p.1 (hne p hp)]
    rw [he.inflight p.1 (hne p hp)] at hin
    exact h.ready p hp row hin
  · exact he.listed _ (h.listed p hp) fun he' => hne p hp (congrArg Prod.snd he')

theorem wp_clearScopes {cleared : List String}
    (hi : (killLogic uuid4 guard).inv d) (hsees : Sees t d) (hnodup : (l.map Prod.fst).Nodup)
    (h : Pending t l d) :
    (killLogic uuid4 guard).wp t (fun _ d => Sees t d) (clearScopes now l cleared) d := by
  induction l generalizing d cleared with
  | nil => exact fun d₁ hi₁ hr₁ => hsees.rely hi₁.1 hr₁
  | cons p rest ih =>
      obtain ⟨k, state⟩ := p
      rw [List.map_cons, List.nodup_cons] at hnodup
      obtain ⟨hk, hrest⟩ := hnodup
      have hhead : ∀ {P : KillScope × KillRow → Prop}, (∀ p ∈ (k, state) :: rest, P p) →
          ∀ p ∈ [(k, state)], P p := fun hall p hp => hall p (by simp_all)
      have htail : Pending t rest d :=
        ⟨fun p hp => h.knows p (by simp [hp]), fun p hp => h.ready p (by simp [hp]),
          fun p hp => h.listed p (by simp [hp])⟩
      refine wp_bind (KillRely.refl uuid4 t) hi (wp_mono ?_
        (wp_clearScope (carried_pending rest) (Pending.elsewhere hk) hi hsees (hhead h.knows)
          (hhead h.ready) (fun _ => h.listed (k, state) (by simp)) htail))
      rintro (_ | _) d₁ hi₁ ⟨hsees₁, h₁⟩
      · exact ih hi₁ hsees₁ hrest h₁
      · exact ih hi₁ hsees₁ hrest h₁

/-! ## killing -/

theorem carried_knows (l : List (KillScope × KillRow)) : Carried uuid4 t (Knows t l) where
  rely hr h := h.rely hr
  same hs _ h := by simpa only [Knows, hs] using h

/-- What an evaluation knows of the row it works on. -/
structure Working (t : Txn) (k : KillScope) (state : KillRow) (d : KillDb) : Prop where
  sees : Sees t d
  knows : Knows t [(k, state)] d
  ready : Ready t [(k, state)] d

theorem Working.rely (hi : KillInv d')
    (hr : KillRely uuid4 t d d') (h : Working t k state d) : Working t k state d' :=
  ⟨h.sees.rely hi hr, h.knows.rely hr, h.ready.rely hr⟩

theorem kill_insert {x : Bool} {states : Table KillScope KillRow} (hi : KillInv d)
    (hfresh : KillFresh uuid4 t d) (hp : row.policyId = uuid4 t 1) (hclear : row.state = .clear)
    (hver : row.lastPublishedVersion = 0)
    (hins : d.states.insertOrIgnore t k row = some (x, states)) :
    Sees t { d with states } ∧
      ∀ r, states.inflight k = some (t, r) → states.committed k = none := by
  rcases insertOrIgnore_cases hins with ⟨_, rfl, _⟩ | ⟨_, rfl, _, hnone⟩
  · exact ⟨hi.sees hfresh.toKillSettled, fun r hr => absurd hr (hfresh.states k r)⟩
  · refine ⟨fun k' r hr => ?_, fun _ _ => hnone⟩
    by_cases hk : k' = k
    · subst hk
      simp only [visible_write_self, Option.some.injEq] at hr
      subst hr
      rw [RowInStep, hver, KillRow.isKilled, hclear]
      refine InStep.start fun v _ => ?_
      rw [Option.eq_none_iff_forall_ne_some]
      intro o ho
      exact hfresh.unminted.outbox _ o (.of_visible ho) hp
    · simp only [visible_write_of_ne hk] at hr
      exact hi.sees hfresh.toKillSettled k' r hr

theorem wp_getOrCreateKillState (huuid : Function.Injective2 uuid4)
    (hfresh : KillFresh uuid4 t d) :
    (killLogic uuid4 guard).wp t (fun state d => Working t k state d)
      (getOrCreateKillState uuid4 k now) d := by
  refine wp_exec_bind fun d₁ hi₁ hr₁ x d₂ hins _ => ?_
  have hfresh₁ := hfresh.rely hr₁
  obtain ⟨⟨x', states⟩, hrow, heq⟩ := Option.map_eq_some_iff.mp hins
  rw [Prod.mk.injEq] at heq
  rw [← heq.2]
  obtain ⟨hsees, hready⟩ := kill_insert hi₁.1 hfresh₁ rfl rfl rfl hrow
  refine ⟨⟨⟨hi₁.1.insertState hfresh₁.unminted rfl hrow, fun hg =>
    (hi₁.2 hg).insertState rfl hrow⟩, fun u hne => .insertState huuid rfl hrow hne⟩, ?_⟩
  refine wp_query_bind (KillRely.refl uuid4) fun d₃ hi₃ hr₃ => ?_
  have hready₂ : ∀ state, Ready t [(k, state)] { d₁ with states } := by
    intro state p hp r hr
    rw [List.mem_singleton] at hp
    subst hp
    exact hready r hr
  split
  · next row hvis =>
      have hwork : Working t k row d₃ := by
        refine ⟨hsees.rely hi₃.1 hr₃, fun p hp => ?_, (hready₂ row).rely hr₃⟩
        rw [List.mem_singleton] at hp
        subst hp
        exact ⟨row, hvis, rfl⟩
      exact fun d₄ hi₄ hr₄ => hwork.rely hi₄.1 hr₄
  · exact wp_raise _

/-- The policy an evaluation reports is the one of its scope. -/
def Reports (t : Txn) (k : KillScope) (o : KillOutcome) (d : KillDb) : Prop :=
  ∀ policyId, o.policyId = some policyId →
    ∃ row, d.states.visible t k = some row ∧ row.policyId = policyId

theorem Knows.reports {o : KillOutcome}
    (ho : o.policyId = some state.policyId) (h : Knows t [(k, state)] d) : Reports t k o d := by
  intro policyId hp
  rw [ho, Option.some.injEq] at hp
  rw [← hp]
  exact h (k, state) (by simp)

variable {reason : KillReason}

theorem wp_tryTransitionToKilled
    (h : Working t k state d) :
    (killLogic uuid4 guard).wp t (FlipPost t k .kill state.policyId (Knows t [(k, state)]))
      (tryTransitionToKilled k state.killId reason now) d := by
  intro d₁ hi₁ hr₁ r d₂ hupd hallowed
  have h₁ := h.rely hi₁.1 hr₁
  have hready₁ := h₁.ready (k, state) (by simp)
  obtain ⟨⟨r', states⟩, hrow, heq⟩ := Option.map_eq_some_iff.mp hupd
  rw [Prod.mk.injEq] at heq
  obtain ⟨rfl, rfl⟩ := heq
  rcases updateWhere_cases hrow with ⟨rfl, rfl, _⟩ | ⟨row, hvis, hwhere, hfree, rfl, rfl⟩
  · exact ⟨kill_keeps_same hi₁ ⟨rfl, rfl⟩ rfl rfl, fun d₃ hi₃ hr₃ =>
      FlipPost.rely (carried_knows _) hi₃.1 hr₃ ⟨h₁.knows, h₁.sees⟩⟩
  · simp only [KillRow.inState, decide_eq_true_eq] at hwhere
    obtain ⟨row₁, hvis₁, hp⟩ := h₁.knows (k, state) (by simp)
    have heq : row = row₁ := Option.some.inj (hvis.symm.trans hvis₁)
    subst heq
    have hstate : (row.transition .killed (some reason) now).state ≠ row.state := by
      rw [hwhere.2]
      exact KillState.noConfusion
    have hspares : guard → (row.transition .killed (some reason) now).reason =
        some .anomalousSingleTx → ∀ u, (u, k) ∉ d₁.listed := by
      intro hg hreason
      refine hallowed hg k _ (inflight_write_self _ _ _ _) rfl hreason fun hin => hstate ?_
      exact congrArg KillRow.state (Option.some.inj ((visible_of_inflight hin).symm.trans hvis))
    refine ⟨⟨⟨hi₁.1.putState hvis hfree hready₁ rfl hstate, fun hg =>
      (hi₁.2 hg).kill (hspares hg)⟩, fun u hne => .putState hvis hfree rfl hne⟩, ?_⟩
    refine fun d₃ hi₃ hr₃ => FlipPost.rely (carried_knows _) hi₃.1 hr₃ ⟨fun p hmem => ?_, ?_⟩
    · rw [List.mem_singleton] at hmem
      subst hmem
      exact ⟨_, visible_write_self _ _ _ _, hp⟩
    · have hfrom : row.isKilled = !decide (KillTransition.kill = .kill) := by
        rw [KillRow.isKilled, hwhere.2]
        rfl
      rw [← hp]
      exact kill_flipped (r := row.transition .killed (some reason) now) h₁.sees hvis rfl rfl hfrom
        rfl rfl rfl

theorem wp_kill
    (huuid : Function.Injective2 uuid4) (hi : (killLogic uuid4 guard).inv d)
    (hfresh : KillFresh uuid4 t d) :
    (killLogic uuid4 guard).wp t (fun o d => Sees t d ∧ Reports t k o d)
      (kill uuid4 k reason now) d := by
  refine wp_bind (KillRely.refl uuid4 t) hi
    (wp_mono ?_ (wp_getOrCreateKillState huuid hfresh))
  intro state d₁ hi₁ h₁
  split
  · exact fun d₂ hi₂ hr₂ => ⟨h₁.sees.rely hi₂.1 hr₂, (h₁.knows.rely hr₂).reports rfl⟩
  · refine wp_bind (KillRely.refl uuid4 t) hi₁
      (wp_mono ?_ (wp_tryTransitionToKilled h₁))
    intro r d₂ hi₂ h₂
    cases r with
    | none => exact fun d₃ hi₃ hr₃ => ⟨Sees.rely hi₃.1 hr₃ h₂.2, (h₂.1.rely hr₃).reports rfl⟩
    | some v =>
        refine wp_bind (KillRely.refl uuid4 t) hi₂
          (wp_mono ?_ (wp_publishKillDecision (carried_knows _) h₂.2 h₂.1))
        exact fun _ d₃ _ h₃ d₄ hi₄ hr₄ => ⟨h₃.1.rely hi₄.1 hr₄, (h₃.2.rely hr₄).reports rfl⟩

/-! ## the calls -/

theorem told_of_not_evaluate {call : KillCall} {o : KillOutcome} {rows : KillScope → Option KillRow}
    (h : ∀ record ceiling now, call ≠ .evaluate record ceiling now) : Told call o rows :=
  fun record ceiling now _ hcall => absurd hcall (h record ceiling now)

/-- An evaluation kills with a new version, or leaves all as it is. -/
theorem wp_evaluateKill {record : UsageRecord} (huuid : Function.Injective2 uuid4)
    (hfresh : KillFresh uuid4 t d) :
    (killLogic uuid4 guard).wp t
      ((killLogic uuid4 guard).post t (.evaluate record ceiling now))
      (evaluateKill uuid4 record ceiling now) d := by
  refine wp_query_bind (KillRely.refl uuid4) fun d₁ hi₁ hr₁ => ?_
  have hfresh₁ := hfresh.rely hr₁
  -- whatever the allow-list says, the rest starts from a transaction that has written nothing
  have hpass : ∀ d₂, KillFresh uuid4 t d₂ → (killLogic uuid4 guard).wp t
      ((killLogic uuid4 guard).post t (.evaluate record ceiling now))
      (pure .passed : Prog KillDb KillError KillOutcome) d₂ := by
    intro d₂ hfresh₂ d₃ hi₃ hr₃
    refine ⟨hi₃.1.sees (hfresh₂.rely hr₃).toKillSettled, ?_⟩
    intro _ _ _ policyId _ hp
    cases hp
  have hkill : ∀ reason d₂, (killLogic uuid4 guard).inv d₂ → KillFresh uuid4 t d₂ →
      (killLogic uuid4 guard).wp t ((killLogic uuid4 guard).post t (.evaluate record ceiling now))
        (kill uuid4 record.killScope reason now) d₂ := by
    intro reason d₂ hi₂ hfresh₂
    refine wp_mono ?_ (wp_kill huuid hi₂ hfresh₂)
    intro o d₃ _ h₃
    refine ⟨h₃.1, fun record' ceiling' now' policyId hcall hp => ?_⟩
    cases hcall
    exact h₃.2 policyId hp
  dsimp only
  split
  · refine wp_query_bind (KillRely.refl uuid4) fun d₂ hi₂ hr₂ => ?_
    split
    · exact hpass d₂ (hfresh₁.rely hr₂)
    · exact hkill _ d₂ hi₂ (hfresh₁.rely hr₂)
  · dsimp only [bind, pure, Prog.bind]
    split
    · exact hpass d₁ hfresh₁
    · exact hkill _ d₁ hi₁ hfresh₁

variable {tenantId agentId : String}

theorem insertAuthorization_keeps {x : Unit}
    (hi : (killLogic uuid4 guard).inv d)
    (h : (insertAuthorization d.authorizations t (tenantId, agentId) now).map
      (fun p => ((), { d with authorizations := p.2 })) = some (x, d')) :
    (killLogic uuid4 guard).Keeps t d d' ∧ (KillSettled t d → KillSettled t d') := by
  obtain ⟨p, _, heq⟩ := Option.map_eq_some_iff.mp h
  rw [Prod.mk.injEq] at heq
  rw [← heq.2]
  exact ⟨kill_keeps_same hi ⟨rfl, rfl⟩ rfl rfl, fun hset => ⟨hset.states, hset.outbox⟩⟩

theorem killedScopes_nodup :
    ((killedScopesForAgent tenantId agentId reason t d).map Prod.fst).Nodup :=
  (nodup_list d.states _).sublist (List.filter_sublist.map Prod.fst)

theorem mem_killedScopes
    {p : KillScope × KillRow} (hset : KillSettled t d)
    (hp : p ∈ killedScopesForAgent tenantId agentId reason t d) :
    d.states.visible t p.1 = some p.2 ∧ d.states.committed p.1 = some p.2 ∧
      p.2.state = .killed ∧ p.2.reason = some reason := by
  obtain ⟨hscan, hwhere⟩ := List.mem_filter.mp hp
  rw [decide_eq_true_eq] at hwhere
  have hvis := mem_scan.mp hscan
  exact ⟨hvis, (visible_of_no_inflight (hset.states p.1)).symm.trans hvis, hwhere.2.2⟩

theorem kill_list (hi : (killLogic uuid4 guard).inv d)
    (hset : KillSettled t d)
    (hl : ∀ p ∈ l, d.states.visible t p.1 = some p.2 ∧ d.states.committed p.1 = some p.2 ∧
      p.2.state = .killed ∧ p.2.reason = some .unauthorizedAgent) :
    (killLogic uuid4 guard).Keeps t d { d with listed := d.listed ++ l.map fun p => (t, p.1) } ∧
      Pending t l { d with listed := d.listed ++ l.map fun p => (t, p.1) } := by
  refine ⟨⟨⟨hi.1.same ⟨rfl, rfl⟩, fun hg => (hi.2 hg).list hi.1 fun p hp => (hl p hp).2⟩,
    fun u _ => .same ⟨rfl, rfl⟩ fun k hk => List.mem_append_left _ hk⟩, ?_⟩
  refine ⟨fun p hp => ⟨p.2, (hl p hp).1, rfl⟩, fun p _ row hin => ?_, fun p hp => ?_⟩
  · exact absurd hin (hset.states p.1 row)
  · exact List.mem_append_right _ (List.mem_map.mpr ⟨p, hp, rfl⟩)

theorem wp_authorizeAgent
    (hfresh : KillFresh uuid4 t d) :
    (killLogic uuid4 guard).wp t ((killLogic uuid4 guard).post t (.authorize tenantId agentId now))
      (authorizeAgent tenantId agentId now) d := by
  refine wp_exec_bind fun d₁ hi₁ hr₁ x d₂ hins _ => ?_
  obtain ⟨hk, hset⟩ := insertAuthorization_keeps hi₁ hins
  have hset₂ := hset (hfresh.toKillSettled.rely hr₁)
  refine ⟨hk, wp_exec_bind fun d₃ hi₃ hr₃ states d₄ hlist _ => ?_⟩
  have hset₃ := hset₂.rely hr₃
  simp only [Option.some.injEq, Prod.mk.injEq] at hlist
  obtain ⟨rfl, rfl⟩ := hlist
  obtain ⟨hk₄, hpending⟩ := kill_list hi₃ hset₃ fun p hp => mem_killedScopes hset₃ hp
  refine ⟨hk₄, wp_bind (KillRely.refl uuid4 t) hk₄.inv (wp_mono ?_
    (wp_clearScopes hk₄.inv (hi₃.1.sees hset₃) killedScopes_nodup hpending))⟩
  intro cleared d₅ _ hsees d₆ hi₆ hr₆
  exact ⟨hsees.rely hi₆.1 hr₆, told_of_not_evaluate (by simp)⟩

theorem wp_revokeAgent (hfresh : KillFresh uuid4 t d) :
    (killLogic uuid4 guard).wp t ((killLogic uuid4 guard).post t (.revoke tenantId agentId))
      (revokeAgent tenantId agentId) d := by
  refine wp_exec_bind fun d₁ hi₁ hr₁ x d₂ hdel _ => ?_
  obtain ⟨p, _, heq⟩ := Option.map_eq_some_iff.mp hdel
  rw [Prod.mk.injEq] at heq
  rw [← heq.2]
  have hset₁ := hfresh.toKillSettled.rely hr₁
  refine ⟨kill_keeps_same hi₁ ⟨rfl, rfl⟩ rfl rfl, fun d₃ hi₃ hr₃ => ⟨?_, ?_⟩⟩
  · exact hi₃.1.sees (KillSettled.rely hr₃ ⟨hset₁.states, hset₁.outbox⟩)
  · exact told_of_not_evaluate (by simp)

theorem wp_clearKillSwitch (hfresh : KillFresh uuid4 t d) :
    (killLogic uuid4 guard).wp t ((killLogic uuid4 guard).post t (.clear k now))
      (clearKillSwitch k now) d := by
  refine wp_query_bind (KillRely.refl uuid4) fun d₁ hi₁ hr₁ => ?_
  have hset₁ := hfresh.toKillSettled.rely hr₁
  have hdone : ∀ performed d₂, (killLogic uuid4 guard).inv d₂ → Sees t d₂ →
      (killLogic uuid4 guard).post t (.clear k now) (.cleared performed) d₂ :=
    fun performed d₂ _ hsees => ⟨hsees, told_of_not_evaluate (by simp)⟩
  split
  · exact fun d₂ hi₂ hr₂ => hdone false d₂ hi₂ (hi₂.1.sees (hset₁.rely hr₂))
  · next state hvis =>
      split
      · exact fun d₂ hi₂ hr₂ => hdone false d₂ hi₂ (hi₂.1.sees (hset₁.rely hr₂))
      · have hknows : Knows t [(k, state)] d₁ := by
          intro p hp
          rw [List.mem_singleton] at hp
          subst hp
          exact ⟨state, hvis, rfl⟩
        refine wp_bind (KillRely.refl uuid4 t) hi₁ (wp_mono ?_
          (wp_clearScope (R := fun _ => True) ⟨fun _ _ => trivial, fun _ _ _ => trivial⟩
            (fun _ _ => trivial) hi₁ (hi₁.1.sees hset₁) hknows hset₁.ready
            (fun hc => nomatch hc) trivial))
        exact fun performed d₂ _ h₂ d₃ hi₃ hr₃ => hdone performed d₃ hi₃ (h₂.1.rely hi₃.1 hr₃)

theorem kill_sound (huuid : Function.Injective2 uuid4) :
    (killLogic uuid4 guard).Sound (killProg uuid4) where
  refl := KillRely.refl uuid4
  trans := KillRely.trans
  fresh_rely _ hr h := h.rely hr
  ensures_rely _ hr h := by
    refine ⟨h.1.rely hr, fun record ceiling now policyId hcall hp => ?_⟩
    obtain ⟨row, hrow, hrow'⟩ := h.2 record ceiling now policyId hcall hp
    obtain ⟨row', hc, hp'⟩ := hr.persists _ row hrow
    exact ⟨row', hc, hp'.trans hrow'⟩
  undone_rely _ hr h := h.rely hr
  body := by
    intro t call d _ hi hfresh
    cases call with
    | evaluate record ceiling now => exact wp_evaluateKill huuid hfresh
    | authorize tenantId agentId now => exact wp_authorizeAgent hfresh
    | revoke tenantId agentId => exact wp_revokeAgent hfresh
    | clear scope now => exact wp_clearKillSwitch hfresh
  commit hi h :=
    ⟨⟨⟨hi.1.commit h.1, fun hg => (hi.2 hg).commit⟩, fun _ hne => .commit hi.1 hne⟩,
      KillSettled.commit _ _, h.2⟩
  rollback hi :=
    ⟨⟨⟨hi.1.rollback, fun hg => (hi.2 hg).rollback⟩, fun _ hne => .rollback hne⟩,
      KillSettled.rollback _ _⟩

end Program

theorem killInv_empty : KillInv KillDb.empty where
  outbox := insertOnly_empty
  inStep := by intro k row h; contradiction
  flipped := by intro k t row row' h; contradiction
  distinct := by
    rintro k k' row row' (h | ⟨t, h⟩)
    · contradiction
    · contradiction
  owner_committed := by intro key o h; contradiction
  owner_inflight := by intro key t o h; contradiction

theorem kill_ok_init (uuid4 : Txn → Nat → String) (guard : Prop) :
    (killLogic uuid4 guard).Ok KillSys.init where
  inv := ⟨killInv_empty, fun _ => ⟨by intro t k row h; contradiction, by intro r h; contradiction⟩⟩
  procs t := by
    refine ⟨⟨by intro k row h; contradiction, by intro key o h; contradiction⟩, ?_, ?_⟩
    · rintro k row (h | ⟨t', h⟩)
      · contradiction
      · contradiction
    · rintro key o (h | ⟨t', h⟩)
      · contradiction
      · contradiction

/-! ## the state machine -/

/-- The kill switch as its committed tables show it. -/
structure KillMachine (s : KillSys) : Prop where
  /-- whoever touched a scope read the policy of its one row -/
  touched : ∀ t record ceiling now o policyId,
    s.procs t = .committed (.evaluate record ceiling now) o → o.policyId = some policyId →
    ∃ row, s.db.states.committed record.killScope = some row ∧ row.policyId = policyId
  /-- no two scopes share a policy -/
  distinct : ∀ k k' row row', s.db.states.committed k = some row →
    s.db.states.committed k' = some row' → row.policyId = row'.policyId → k = k'
  /-- under a row's policy the outbox holds the versions 1 to n, each once -/
  versions : ∀ k row, s.db.states.committed k = some row → ∀ tenantId v,
    (∃ o, s.db.outbox.committed (tenantId, row.policyId, v) = some o) ↔
      tenantId = k.tenantId ∧ 1 ≤ v ∧ v ≤ row.lastPublishedVersion
  /-- which are kill, clear, kill, … -/
  alternates : ∀ k row, s.db.states.committed k = some row → ∀ v o,
    s.db.outbox.committed (killKey k row.policyId v) = some o →
    o.transition = if v % 2 = 1 then .kill else .clear
  /-- and the row is killed iff the last of them is a kill -/
  killed : ∀ k row, s.db.states.committed k = some row →
    (row.state = .killed ↔ ∃ o, s.db.outbox.committed
      (killKey k row.policyId row.lastPublishedVersion) = some o ∧ o.transition = .kill)

theorem KillDecisionRow.transition_of_parity (h : o.isKill = decide (v % 2 = 1)) :
    o.transition = if v % 2 = 1 then .kill else .clear := by
  by_cases hv : v % 2 = 1
  · rw [if_pos hv]
    rw [decide_eq_true hv] at h
    exact of_decide_eq_true h
  · rw [if_neg hv]
    rw [decide_eq_false hv] at h
    have hne := of_decide_eq_false h
    cases htr : o.transition with
    | kill => exact absurd htr hne
    | clear => rfl

theorem KillInv.versions (hi : KillInv d) (hrow : d.states.committed k = some row)
    (tenantId : String) (v : Nat) :
    (∃ o, d.outbox.committed (tenantId, row.policyId, v) = some o) ↔
      tenantId = k.tenantId ∧ 1 ≤ v ∧ v ≤ row.lastPublishedVersion := by
  have hstep := hi.inStep k row hrow
  constructor
  · rintro ⟨o, ho⟩
    obtain ⟨k', row', v', hrow', hkey, hpos⟩ := hi.owner_committed _ o ho
    simp only [killKey, Prod.mk.injEq] at hkey
    obtain ⟨rfl, hp, rfl⟩ := hkey
    have hk : k = k' := hi.distinct k k' row row' (.inl hrow) (.inl hrow') hp
    subst hk
    refine ⟨rfl, hpos, ?_⟩
    by_contra hlt
    have hnone : d.outbox.committed (k.tenantId, row.policyId, v) = none :=
      hstep.beyond v (Nat.not_le.mp hlt)
    rw [hnone] at ho
    contradiction
  · rintro ⟨rfl, hpos, hle⟩
    obtain ⟨o, ho, _⟩ := hstep.entry v hpos hle
    exact ⟨o, ho⟩

theorem KillInv.alternates (hi : KillInv d) (hrow : d.states.committed k = some row)
    (ho : d.outbox.committed (killKey k row.policyId v) = some o) :
    o.transition = if v % 2 = 1 then .kill else .clear := by
  obtain ⟨_, hpos, hle⟩ := (hi.versions hrow k.tenantId v).mp ⟨o, ho⟩
  obtain ⟨o', ho', hon⟩ := (hi.inStep k row hrow).entry v hpos hle
  have heq : o' = o := Option.some.inj (ho'.symm.trans ho)
  rw [heq, Nat.sub_zero] at hon
  exact KillDecisionRow.transition_of_parity hon

theorem KillInv.killed_iff (hi : KillInv d) (hrow : d.states.committed k = some row) :
    row.state = .killed ↔ ∃ o, d.outbox.committed
      (killKey k row.policyId row.lastPublishedVersion) = some o ∧ o.transition = .kill := by
  have hstep := hi.inStep k row hrow
  have hstate : row.state = .killed ↔ row.isKilled = true := decide_eq_true_iff.symm
  by_cases hpos : 0 < row.lastPublishedVersion
  · obtain ⟨o, ho, hon⟩ := hstep.last hpos
    rw [hstate, ← hon, KillDecisionRow.isKill, decide_eq_true_eq]
    constructor
    · exact fun htr => ⟨o, ho, htr⟩
    · rintro ⟨o', ho', htr⟩
      have heq : o = o' := Option.some.inj (ho.symm.trans ho')
      rw [heq, htr]
  · -- version 0 is never queued, and the row is still clear
    have hzero : row.lastPublishedVersion = 0 := Nat.eq_zero_of_not_pos hpos
    have hclear : row.isKilled = false := by
      rw [hstep.parity, hzero]
      rfl
    rw [hstate, hclear]
    constructor
    · intro h
      contradiction
    · rintro ⟨o, ho, _⟩
      have hversion := (hi.versions hrow k.tenantId _).mp ⟨o, ho⟩
      exact absurd hversion.2.1 (by omega)

/-- **The kill-switch state machine**: in every reachable state a touched scope has
one row and one policy, and the row and the decisions of its policy are in step. -/
theorem kill_machine (uuid4 : Txn → Nat → String) (huuid : Function.Injective2 uuid4)
    (as : List (Action KillCall)) (s : KillSys)
    (hrun : run (killProg uuid4) KillSys.init as = some s) : KillMachine s := by
  have hok : (killLogic uuid4 False).Ok s := (kill_sound huuid).run (kill_ok_init uuid4 False)
    (everyStep_permits (fun _ => trivial) (fun _ _ _ hg => hg.elim) as) hrun
  have hi := hok.inv.1
  refine
    { touched := fun t record ceiling now o policyId ht hp => ?_
      distinct := fun k k' row row' h h' => hi.distinct k k' row row' (.inl h) (.inl h')
      versions := fun k row hrow => hi.versions hrow
      alternates := fun k row hrow v o ho => hi.alternates hrow ho
      killed := fun k row hrow => hi.killed_iff hrow }
  have hproc := hok.procs t
  rw [ht] at hproc
  exact hproc.2 record ceiling now policyId rfl hp

section Sample

def sampleUuid4 (t : Txn) (n : Nat) : String :=
  "00000000-0000-4000-8000-" ++
    String.ofList ((Nat.digits 10 (100000000000 + Nat.pair t n)).map Nat.digitChar)

theorem map_digitChar_toNat (n : Nat) :
    ((Nat.digits 10 n).map Nat.digitChar).map (fun c => c.toNat - 48) = Nat.digits 10 n := by
  have hdigit : ∀ d < 10, (Nat.digitChar d).toNat - 48 = d := by decide
  rw [List.map_map]
  calc (Nat.digits 10 n).map ((fun c => c.toNat - 48) ∘ Nat.digitChar)
      = (Nat.digits 10 n).map id := by
        refine List.map_congr_left fun d hd => ?_
        exact hdigit d (Nat.digits_lt_base (by decide) hd)
    _ = Nat.digits 10 n := List.map_id _

theorem sampleUuid4_injective : Function.Injective2 sampleUuid4 := by
  intro t t' n n' h
  have hdigits := congrArg (List.map fun c => c.toNat - 48)
    (String.ofList_injective ((String.append_right_inj _).mp h))
  rw [map_digitChar_toNat, map_digitChar_toNat, Nat.digits_inj_iff] at hdigits
  exact Nat.pair_eq_pair.mp (Nat.add_left_cancel hdigits)

def sampleScope : KillScope := sampleUsage.killScope

/-- The tenant opts in to the allow-list without the agent; two events of the agent
race on its first kill; the operator clears the scope; the next event kills it again. -/
def killSchedule : List (Action KillCall) :=
  [.begin 0 (.authorize sampleTenant "other-agent" sampleTime), .exec 0, .exec 0, .commit 0,
    .begin 1 (.evaluate sampleUsage none sampleTime), .exec 1, .exec 1,
    .begin 2 (.evaluate sampleUsage none sampleTime), .exec 2, .exec 2,
    .exec 1, .exec 1, .exec 1, .exec 1, .exec 1, .commit 1, .exec 2, .exec 2, .commit 2,
    .begin 3 (.clear sampleScope sampleTime), .exec 3, .exec 3, .exec 3, .exec 3, .exec 3, .commit 3,
    .begin 4 (.evaluate sampleUsage none sampleTime), .exec 4, .exec 4, .exec 4, .exec 4, .exec 4,
    .exec 4, .exec 4, .commit 4]

/-- The outcomes, and the decisions of versions 1 to 4. -/
def killReport (s : KillSys) : List (Option KillOutcome) × List (Option KillTransition) :=
  ([1, 2, 3, 4].map fun t => (s.procs t).result,
    [1, 2, 3, 4].map fun v =>
      (s.db.outbox.committed (killKey sampleScope (sampleUuid4 1 1) v)).map
        KillDecisionRow.transition)

theorem kill_machine_sample : ∃ s,
    run (killProg sampleUuid4) KillSys.init killSchedule = some s ∧
      killReport s =
        ([some (.killed (sampleUuid4 1 1) 1), some (.notClear (sampleUuid4 1 1)),
            some (.cleared true), some (.killed (sampleUuid4 1 1) 3)],
          [some .kill, some .clear, some .kill, none]) ∧
      KillMachine s := by
  have hrun : (run (killProg sampleUuid4) KillSys.init killSchedule).map killReport =
      some ([some (.killed (sampleUuid4 1 1) 1), some (.notClear (sampleUuid4 1 1)),
            some (.cleared true), some (.killed (sampleUuid4 1 1) 3)],
          [some .kill, some .clear, some .kill, none]) := by
    decide +kernel
  obtain ⟨s, hs, hreport⟩ := Option.map_eq_some_iff.mp hrun
  exact ⟨s, hs, hreport, kill_machine sampleUuid4 sampleUuid4_injective killSchedule s hs⟩

end Sample

end Anoryx.Delta
