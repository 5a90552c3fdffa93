import Anoryx.Delta.KillSwitchMachine

/-!
# Anoryx.Delta.KillSwitchAuthority

Who may release a kill.  `authorize_agent` is meant to clear
`unauthorized_agent` kills only; an `anomalous_single_tx` kill is the operator's.

`authorize_agent` reads the killed scopes with their reasons and clears each by
a later UPDATE that asks for `state = 'killed'` and not for the reason.  Between
the two an operator may clear the scope and an evaluator kill it again for an
anomaly, and the UPDATE then releases that kill (`authorize_releases_anomaly`).
-/

namespace Anoryx.Delta

open ReadCommitted

/-- Every anomalous kill that was released was released by `clear_kill_switch`. -/
def OperatorReleases (s : KillSys) : Prop :=
  ∀ r ∈ s.db.released, r.reason = some .anomalousSingleTx → r.caller = .clearKillSwitch

/-- The step applies no anomalous kill to a scope that an open `authorize_agent`
call has found killed and not yet taken up. -/
def StepSparesListed (s : KillSys) (a : Action KillCall) (s' : KillSys) : Prop :=
  ∀ t, a = .exec t → SparesListed t s.db s'.db

/-- **Release authority**: along every schedule that spares listed scopes, only the
operator has released an anomalous kill. -/
theorem operator_releases (uuid4 : Txn → Nat → String) (huuid : Function.Injective2 uuid4)
    (as : List (Action KillCall)) (s : KillSys)
    (hrun : run (killProg uuid4) KillSys.init as = some s)
    (hspares : EveryStep (killProg uuid4) StepSparesListed KillSys.init as) :
    OperatorReleases s := by
  have hpermits : EveryStep (killProg uuid4) (killLogic uuid4 True).Permits KillSys.init as := by
    refine hspares.mono fun s₁ a s₂ h => ?_
    cases a with
    | begin t call => trivial
    | exec t => exact fun _ => h t rfl
    | commit t => trivial
    | abort t => trivial
  have hok := (kill_sound huuid).run (kill_ok_init uuid4 True) hpermits hrun
  exact (hok.inv.2 trivial).released

section Sample

/-- The calls of the sample: the event costs 700 cents and the ceiling is 500. -/
def evaluateSample : KillCall := .evaluate sampleUsage (some 500) sampleTime

def authorizeSample : KillCall := .authorize sampleTenant sampleUsage.agentId sampleTime

/-- The tenant opts in to the allow-list. -/
def gateSteps : List (Action KillCall) :=
  [.begin 0 (.authorize sampleTenant "other-agent" sampleTime), .exec 0, .exec 0, .commit 0]

/-- An evaluation that has read the allow-list before the agent joined it kills the
scope afterwards; a second `authorize_agent` call lists the scope, the operator
clears it, and a costly event of the agent kills it again. -/
def releaseSchedule : List (Action KillCall) :=
  gateSteps ++
    [.begin 1 evaluateSample, .exec 1, .exec 1,
      .begin 2 authorizeSample, .exec 2, .exec 2, .commit 2,
      .exec 1, .exec 1, .exec 1, .exec 1, .exec 1, .commit 1,
      .begin 3 authorizeSample, .exec 3, .exec 3,
      .begin 4 (.clear sampleScope sampleTime), .exec 4, .exec 4, .exec 4, .exec 4, .exec 4, .commit 4,
      .begin 5 evaluateSample, .exec 5, .exec 5, .exec 5, .exec 5, .exec 5, .exec 5, .exec 5, .commit 5,
      .exec 3, .exec 3, .exec 3, .exec 3, .commit 3]

theorem authorize_releases_anomaly : ∃ s,
    run (killProg sampleUuid4) KillSys.init releaseSchedule = some s ∧
      s.db.released = [⟨.clearKillSwitch, sampleScope, some .unauthorizedAgent⟩,
        ⟨.authorizeAgent, sampleScope, some .anomalousSingleTx⟩] ∧
      ¬ OperatorReleases s := by
  have hrun : (run (killProg sampleUuid4) KillSys.init releaseSchedule).map (fun s => s.db.released) =
      some [⟨.clearKillSwitch, sampleScope, some .unauthorizedAgent⟩,
        ⟨.authorizeAgent, sampleScope, some .anomalousSingleTx⟩] := by
    decide +kernel
  obtain ⟨s, hs, hreleased⟩ := Option.map_eq_some_iff.mp hrun
  refine ⟨s, hs, hreleased, fun hop => ?_⟩
  have hcaller := hop ⟨.authorizeAgent, sampleScope, some .anomalousSingleTx⟩
    (by rw [hreleased]; simp) rfl
  contradiction

/-- `SparesListed`, evaluated over the keys of the table. -/
def sparesListed (t : Txn) (d d' : KillDb) : Bool :=
  d'.states.keys.all fun k =>
    match d'.states.version t k with
    | some row =>
        !(row.state = .killed && row.reason = some .anomalousSingleTx &&
          d.states.version t k ≠ some row) || d.listed.all fun p => p.2 ≠ k
    | none => true

theorem SparesListed.of_eval {t : Txn} {d d' : KillDb} (h : sparesListed t d d' = true) :
    SparesListed t d d' := by
  intro k row hin hkilled hreason hne u hmem
  have hk : k ∈ d'.states.keys := by
    by_contra hk
    rw [(d'.states.complete k hk).2] at hin
    contradiction
  have hrow := List.all_eq_true.mp h k hk
  have hold : d.states.version t k ≠ some row := fun he => hne (Table.version_eq_some.mp he)
  rw [Table.version_eq_some.mpr hin] at hrow
  simp only [hkilled, hreason, hold, decide_true, ne_eq, not_false_eq_true, Bool.and_self,
    Bool.not_true, Bool.false_or] at hrow
  have := List.all_eq_true.mp hrow (u, k) hmem
  simp at this

/-- The agent is killed as unauthorized and released by joining the allow-list; then
it is killed for an anomaly and released by the operator. -/
def authoritySchedule : List (Action KillCall) :=
  gateSteps ++
    [.begin 1 evaluateSample, .exec 1, .exec 1, .exec 1, .exec 1, .exec 1, .exec 1, .exec 1, .commit 1,
      .begin 2 authorizeSample, .exec 2, .exec 2, .exec 2, .exec 2, .exec 2, .exec 2, .commit 2,
      .begin 3 evaluateSample, .exec 3, .exec 3, .exec 3, .exec 3, .exec 3, .exec 3, .exec 3, .commit 3,
      .begin 4 (.clear sampleScope sampleTime), .exec 4, .exec 4, .exec 4, .exec 4, .exec 4, .commit 4]

theorem operator_releases_sample : ∃ s,
    run (killProg sampleUuid4) KillSys.init authoritySchedule = some s ∧
      s.db.released = [⟨.authorizeAgent, sampleScope, some .unauthorizedAgent⟩,
        ⟨.clearKillSwitch, sampleScope, some .anomalousSingleTx⟩] ∧
      OperatorReleases s := by
  have hrun : (run (killProg sampleUuid4) KillSys.init authoritySchedule).map
      (fun s => s.db.released) =
      some [⟨.authorizeAgent, sampleScope, some .unauthorizedAgent⟩,
        ⟨.clearKillSwitch, sampleScope, some .anomalousSingleTx⟩] := by
    decide +kernel
  obtain ⟨s, hs, hreleased⟩ := Option.map_eq_some_iff.mp hrun
  refine ⟨s, hs, hreleased, operator_releases sampleUuid4 sampleUuid4_injective authoritySchedule s hs
    (EveryStep.of_eval (p := fun s₁ a s₂ => sparesListed a.txn s₁.db s₂.db) ?_ (by decide +kernel))⟩
  rintro s₁ a s₂ h t rfl
  exact SparesListed.of_eval h

end Sample

end Anoryx.Delta
