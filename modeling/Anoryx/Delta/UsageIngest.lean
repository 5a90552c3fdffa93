import Anoryx.Delta.KillSwitchDrainer
import Anoryx.Delta.KillSwitchMachine

/-!
# Anoryx.Delta.UsageIngest

The usage endpoint (`ingest/router.py`) from a validated record on: post the
event, then let the kill switch evaluate and drain, whatever the posting
reported.  The budget engine's hook between the two writes tables of its own
and is left out here; so is the dead-letter queue a refused event goes to.

A delivery runs its transactions one after the other: `t` posts, `t + 1`
evaluates, the drainer takes the ids after them.

An event that is already posted is a replay for the ledger, and for the ledger
alone: the kill switch sees it as it sees any event.
-/

namespace Anoryx.Delta

open ReadCommitted Table

/-! ## the endpoint -/

/-- The tables a delivery touches. -/
structure IngestDb where
  ledger : LedgerDb
  kill : KillDb

/-- `evaluate_kill_switch`: an error rolls the evaluation back, is logged, and
nothing is drained. -/
def evaluateKillSwitch (uuid4 : Txn → Nat → String) (seam : Seam) (settings : KillSwitchSettings)
    (t : Txn) (record : UsageRecord) (now : DateTime) (d : KillDb) : Option KillDb :=
  if settings.enabled then
    match atomically t (evaluateKill uuid4 record settings.maxSingleTxCostCents now) d with
    | none => none
    | some (.error _, d') => some d'
    | some (.ok _, d') => drainTenant seam settings record.tenantId now (t + 1) d'
  else some d

/-- The body of the 200 response, or the error that refused the posting. -/
inductive IngestResponse
  | accepted (applied idempotentReplay : Bool) (txnId : String)
  | refused (e : LedgerError)
deriving DecidableEq

def ingestUsage (uuid5 : String → String → String) (uuid4 : Txn → Nat → String) (seam : Seam)
    (settings : KillSwitchSettings) (t : Txn) (record : UsageRecord) (now : DateTime) (d : IngestDb) :
    Option (IngestResponse × IngestDb) :=
  match atomically t (postUsage uuid5 record) d.ledger with
  | none => none
  | some (.error e, ledger) => some (.refused e, { d with ledger })
  | some (.ok r, ledger) =>
      match evaluateKillSwitch uuid4 seam settings (t + 1) record now d.kill with
      | none => none
      | some kill => some (.accepted r.applied r.idempotentReplay r.txnId, ⟨ledger, kill⟩)

/-! ## the posting of a replay -/

section Posting

variable {uuid5 : String → String → String} {t : Txn} {d : LedgerDb} {r : UsageRecord}

theorem LedgerFresh.commit_eq_self (h : LedgerFresh t d) : Database.commit t d = d := by
  obtain ⟨accounts, transactions, idempotency, entries⟩ := d
  show LedgerDb.mk _ _ _ _ = _
  rw [commit_eq_self h.accounts, commit_eq_self h.transactions,
    commit_eq_self h.idempotency, commit_eq_self h.entries]

theorem eval_postUsage_replay (hi : LedgerInv d)
    (h : UsagePosted uuid5 r d.idempotency.committed d.accounts.committed) :
    ∃ txnId, (postUsage uuid5 r).eval t d = some (.ok ⟨txnId, false, true, 0⟩, d) := by
  obtain ⟨id, hkey⟩ := h.key
  obtain ⟨a, ha⟩ := h.expense
  obtain ⟨b, hb⟩ := h.contra
  refine ⟨(buildTransaction uuid5 r (resolveAccountIds uuid5 r.tenantId r.currency)).txnId, ?_⟩
  have hten : (buildTransaction uuid5 r
      (resolveAccountIds uuid5 r.tenantId r.currency)).tenantId = r.tenantId := rfl
  simp only [postUsage, ensureAccounts, ensureAccount, appendTransaction, Prog.checked,
    Prog.eval_bind, Prog.eval_exec, hi.accounts.insertOrIgnore_of_committed ha,
    hi.accounts.insertOrIgnore_of_committed hb, Option.map_some, Prog.eval_pure]
  simp [insertTransaction, hten, hi.idempotency.insertOrIgnore_of_committed hkey]

theorem atomically_postUsage_replay (hi : LedgerInv d) (hfresh : LedgerFresh t d)
    (h : UsagePosted uuid5 r d.idempotency.committed d.accounts.committed) :
    ∃ txnId, atomically t (postUsage uuid5 r) d = some (.ok ⟨txnId, false, true, 0⟩, d) := by
  obtain ⟨txnId, he⟩ := eval_postUsage_replay (t := t) hi h
  refine ⟨txnId, ?_⟩
  rw [atomically, he]
  show some (Except.ok _, Database.commit t d) = _
  rw [hfresh.commit_eq_self]

end Posting

/-! ## the evaluation of a replay -/

/-- The reason an evaluation at `t` finds. -/
def detectedReason (settings : KillSwitchSettings) (record : UsageRecord) (t : Txn) (d : KillDb) :
    Option KillReason :=
  detectReason (isTenantGated record.tenantId t d)
    (isTenantGated record.tenantId t d && isAuthorized record.tenantId record.agentId t d)
    record.costEstimateCents settings.maxSingleTxCostCents

/-- The switch is on, the event has a reason, and its scope is not killed. -/
def Offends (settings : KillSwitchSettings) (record : UsageRecord) (t : Txn) (d : KillDb) : Prop :=
  settings.enabled = true ∧ detectedReason settings record t d ≠ none ∧
    ∀ row, d.states.committed record.killScope = some row → row.state = .clear

/-- An evaluation in progress at `t`: of what was there before, only the state row
of its scope has a new version. -/
structure Evaluated (scope : KillScope) (t : Txn) (d d' : KillDb) : Prop where
  authorizations : d'.authorizations = d.authorizations
  states_committed : d'.states.committed = d.states.committed
  states : ∀ k, k ≠ scope → d'.states.inflight k = d.states.inflight k
  outbox_committed : d'.outbox.committed = d.outbox.committed
  outbox : ∀ key row, d.outbox.committed key = some row →
    d'.outbox.inflight key = d.outbox.inflight key
  later : d.UnheldFrom (t + 1) → d'.UnheldFrom (t + 1)

variable {d d' : KillDb} {key : DecisionKey} {now : DateTime} {r : Except KillError KillOutcome}
  {settings : KillSwitchSettings} {record : UsageRecord}

section Evaluation

variable {scope : KillScope} {t : Txn}

theorem Evaluated.refl (d : KillDb) : Evaluated scope t d d :=
  ⟨rfl, rfl, fun _ _ => rfl, rfl, fun _ _ _ => rfl, id⟩

theorem Evaluated.trans {a b c : KillDb} (h₁ : Evaluated scope t a b) (h₂ : Evaluated scope t b c) :
    Evaluated scope t a c where
  authorizations := h₂.authorizations.trans h₁.authorizations
  states_committed := h₂.states_committed.trans h₁.states_committed
  states k hk := (h₂.states k hk).trans (h₁.states k hk)
  outbox_committed := h₂.outbox_committed.trans h₁.outbox_committed
  outbox key row hrow :=
    (h₂.outbox key row (h₁.outbox_committed ▸ hrow)).trans (h₁.outbox key row hrow)
  later h := h₂.later (h₁.later h)

theorem Evaluated.writeState (d : KillDb) (row : KillRow) :
    Evaluated scope t d { d with states := d.states.write t scope row } where
  authorizations := rfl
  states_committed := rfl
  states _ hk := inflight_write_of_ne hk
  outbox_committed := rfl
  outbox _ _ _ := rfl
  later h := ⟨h.authorizations, h.states.write (Nat.lt_succ_self t), h.outbox, h.history⟩

theorem Evaluated.writeOutbox {row : KillDecisionRow} (hnew : d.outbox.committed key = none) :
    Evaluated scope t d { d with outbox := d.outbox.write t key row } where
  authorizations := rfl
  states_committed := rfl
  states _ _ := rfl
  outbox_committed := rfl
  outbox key' row' hrow := inflight_write_of_ne fun he => by
    rw [he, hnew] at hrow
    contradiction
  later h := ⟨h.authorizations, h.states, h.outbox.write (Nat.lt_succ_self t), h.history⟩

theorem moves_getOrCreateKillState (uuid4 : Txn → Nat → String) (now : DateTime) :
    (getOrCreateKillState uuid4 scope now).Moves t (Evaluated scope t) := by
  unfold getOrCreateKillState
  refine .bind .trans (.exec ?_) fun _ => .bind .trans (.query .refl _) fun o => ?_
  · intro d x d' h
    obtain ⟨⟨b, states⟩, hins, he⟩ := Option.map_eq_some_iff.mp h
    cases he
    rcases insertOrIgnore_cases hins with ⟨_, rfl, _⟩ | ⟨_, rfl, _⟩
    · exact .refl d
    · exact .writeState d _
  · cases o with
    | some row => exact .pure .refl row
    | none => exact .raise .refl _

theorem moves_tryTransitionToKilled (killId : String) (reason : KillReason) (now : DateTime) :
    (tryTransitionToKilled scope killId reason now).Moves t (Evaluated scope t) := by
  refine .exec fun d x d' h => ?_
  obtain ⟨⟨r, states⟩, hupd, he⟩ := Option.map_eq_some_iff.mp h
  cases he
  rcases updateWhere_cases hupd with ⟨_, rfl, _⟩ | ⟨_, _, _, _, _, rfl⟩
  · exact .refl d
  · exact .writeState d _

theorem moves_publishKillDecision (state : KillRow) (version : Nat) (transition : KillTransition)
    (note : String) (now : DateTime) :
    (publishKillDecision scope state version transition note now).Moves t (Evaluated scope t) := by
  unfold publishKillDecision
  split
  · exact .raise .refl _
  · refine .bind .trans (.exec ?_) fun _ => .exec ?_
    · intro d x d' h
      obtain ⟨⟨b, outbox⟩, hins, he⟩ := Option.map_eq_some_iff.mp h
      cases he
      rcases insertOrIgnore_cases hins with ⟨_, rfl, _⟩ | ⟨_, rfl, _, hnew⟩
      · exact .refl d
      · exact .writeOutbox hnew
    · intro d x d' h
      obtain ⟨⟨u, log⟩, happ, he⟩ := Option.map_eq_some_iff.mp h
      cases he
      refine ⟨rfl, rfl, fun _ _ => rfl, rfl, fun _ _ _ => rfl, fun hun => ?_⟩
      refine ⟨hun.authorizations, hun.states, hun.outbox, fun tenantId => ?_⟩
      by_cases ht : tenantId = scope.tenantId
      · subst ht
        simpa using (hun.history _).append happ (Nat.lt_succ_self t)
      · simpa [ht] using hun.history tenantId

theorem moves_kill (uuid4 : Txn → Nat → String) (reason : KillReason) (now : DateTime) :
    (kill uuid4 scope reason now).Moves t (Evaluated scope t) := by
  unfold kill
  refine .bind .trans (moves_getOrCreateKillState uuid4 now) fun state => ?_
  split
  · exact .pure .refl _
  · refine .bind .trans (moves_tryTransitionToKilled _ _ _) fun o => ?_
    cases o with
    | none => exact .pure .refl _
    | some version =>
        exact .bind .trans (moves_publishKillDecision _ _ _ _ _) fun _ => .pure .refl _

/-- An evaluation passes the record, or kills the scope. -/
theorem eval_evaluateKill (uuid4 : Txn → Nat → String) (settings : KillSwitchSettings)
    (record : UsageRecord) (now : DateTime) (d : KillDb) :
    (evaluateKill uuid4 record settings.maxSingleTxCostCents now).eval t d =
      match detectedReason settings record t d with
      | none => some (.ok .passed, d)
      | some reason => (kill uuid4 record.killScope reason now).eval t d := by
  unfold evaluateKill detectedReason
  rw [Prog.eval_bind, Prog.eval_query]
  cases isTenantGated record.tenantId t d with
  | false =>
      simp only [Prog.eval_bind, Bool.false_eq_true, if_false, Prog.eval_pure, Bool.false_and]
      cases detectReason false false record.costEstimateCents settings.maxSingleTxCostCents <;> rfl
  | true =>
      simp only [Prog.eval_bind, if_true, Prog.eval_query, Bool.true_and]
      cases detectReason true (isAuthorized record.tenantId record.agentId t d)
        record.costEstimateCents settings.maxSingleTxCostCents <;> rfl

theorem moves_evaluateKill (uuid4 : Txn → Nat → String) (settings : KillSwitchSettings)
    (record : UsageRecord) (now : DateTime) :
    (evaluateKill uuid4 record settings.maxSingleTxCostCents now).Moves t
      (Evaluated record.killScope t) := by
  intro d r d' h
  rw [eval_evaluateKill] at h
  cases hr : detectedReason settings record t d with
  | none =>
      rw [hr] at h
      cases h
      exact .refl d
  | some reason =>
      rw [hr] at h
      exact moves_kill uuid4 reason now d r d' h

theorem eval_kill_of_killed (uuid4 : Txn → Nat → String) {row : KillRow} {reason : KillReason}
    (hvis : d.states.visible t scope = some row) (hrow : row.state ≠ .clear)
    (h : (kill uuid4 scope reason now).eval t d = some (r, d')) : d' = d := by
  unfold kill getOrCreateKillState at h
  simp only [Prog.eval_bind, Prog.eval_exec] at h
  cases hins : d.states.insertOrIgnore t scope
      { killId := uuid4 t 0, policyId := uuid4 t 1, state := .clear, reason := none,
        lastPublishedVersion := 0, updatedAt := now } with
  | none => simp [hins] at h
  | some q =>
      obtain ⟨b, states⟩ := q
      have hsame : states = d.states := by
        rcases insertOrIgnore_cases hins with ⟨_, hs, _⟩ | ⟨_, _, hi, hc⟩
        · exact hs
        · rw [visible_of_inflight_none hi, hc] at hvis
          contradiction
      subst hsame
      simp only [hins, Option.map_some, Prog.eval_query, hvis, Prog.eval_pure, hrow, ne_eq,
        not_false_eq_true, if_true, Option.some.injEq, Prod.mk.injEq] at h
      exact h.2.symm

theorem eval_evaluateKill_of_not_offends (uuid4 : Txn → Nat → String)
    (hon : settings.enabled = true) (hno : ¬ Offends settings record t d) (hun : d.UnheldFrom t)
    (h : (evaluateKill uuid4 record settings.maxSingleTxCostCents now).eval t d = some (r, d')) :
    d' = d := by
  rw [eval_evaluateKill] at h
  cases hr : detectedReason settings record t d with
  | none =>
      rw [hr] at h
      cases h
      rfl
  | some reason =>
      rw [hr] at h
      have hkilled : ∃ row, d.states.committed record.killScope = some row ∧ row.state ≠ .clear := by
        by_contra hclear
        refine hno ⟨hon, by simp [hr], fun row hrow => ?_⟩
        by_contra hstate
        exact hclear ⟨row, hrow, hstate⟩
      obtain ⟨row, hrow, hstate⟩ := hkilled
      rw [← visible_of_no_inflight (hun.states t (Nat.le_refl t) _)] at hrow
      exact eval_kill_of_killed uuid4 hrow hstate h

/-! ## no waiting -/

/-- No transaction but `t` has anything in flight that a kill has to wait for. -/
structure KillDb.HeldBy (t : Txn) (d : KillDb) : Prop where
  states : d.states.HeldBy t
  outbox : d.outbox.HeldBy t
  history : ∀ tenantId, (d.history tenantId).HeldBy t

theorem completes_publishKillDecision (state : KillRow) (version : Nat)
    (transition : KillTransition) (note : String) (now : DateTime) :
    (publishKillDecision scope state version transition note now).Completes t
      (KillDb.HeldBy t) := by
  unfold publishKillDecision
  split
  · exact .raise _
  · refine .bind (.exec fun d hd => ?_) fun _ => .exec fun d hd => ?_
    · obtain ⟨b, outbox, he, hh⟩ := hd.outbox.insertOrIgnore _ _
      exact ⟨(), { d with outbox := outbox }, by rw [he]; rfl, hd.states, hh, hd.history⟩
    · obtain ⟨log, he, hh⟩ := (hd.history scope.tenantId).append _
      refine ⟨(), { d with history := Function.update d.history scope.tenantId log },
        by rw [he]; rfl, hd.states, hd.outbox, fun tenantId => ?_⟩
      by_cases ht : tenantId = scope.tenantId
      · subst ht
        simpa using hh
      · simpa [ht] using hd.history tenantId

theorem completes_kill (uuid4 : Txn → Nat → String) (reason : KillReason) (now : DateTime) :
    (kill uuid4 scope reason now).Completes t (KillDb.HeldBy t) := by
  unfold kill getOrCreateKillState tryTransitionToKilled
  refine .bind (.bind (.exec fun d hd => ?_) fun _ => .bind (.query _) fun o => ?_) fun state => ?_
  · obtain ⟨b, states, he, hh⟩ := hd.states.insertOrIgnore _ _
    exact ⟨(), { d with states := states }, by rw [he]; rfl, hh, hd.outbox, hd.history⟩
  · cases o with
    | some row => exact .pure row
    | none => exact .raise _
  · split
    · exact .pure _
    · refine .bind (.exec fun d hd => ?_) fun o => ?_
      · obtain ⟨r, states, he, hh⟩ := hd.states.updateWhere _ _ _
        exact ⟨_, { d with states := states }, by rw [he]; rfl, hh, hd.outbox, hd.history⟩
      · cases o with
        | none => exact .pure _
        | some version => exact .bind (completes_publishKillDecision _ _ _ _ _) fun _ => .pure _

/-! ## the committed evaluation -/

/-- An evaluation that has ended changed no state row but its scope's, and no
queued decision; without an offence it changed nothing. -/
structure Settles (settings : KillSwitchSettings) (record : UsageRecord) (t : Txn)
    (d d' : KillDb) : Prop where
  unheld : d'.UnheldFrom t
  states : ∀ scope, scope ≠ record.killScope →
    d'.states.committed scope = d.states.committed scope
  outbox : ∀ key row, d.outbox.committed key = some row → d'.outbox.committed key = some row
  unless_offends : ¬ Offends settings record t d →
    d'.states.committed = d.states.committed ∧ d'.outbox.committed = d.outbox.committed

theorem atomically_evaluateKill (uuid4 : Txn → Nat → String) (hon : settings.enabled = true)
    (hun : d.UnheldFrom t)
    (h : atomically t (evaluateKill uuid4 record settings.maxSingleTxCostCents now) d =
      some (r, d')) : Settles settings record t d d' := by
  cases he : (evaluateKill uuid4 record settings.maxSingleTxCostCents now).eval t d with
  | none => simp [atomically, he] at h
  | some q =>
      obtain ⟨x, d₁⟩ := q
      have hmoved := moves_evaluateKill uuid4 settings record now d x d₁ he
      have hno := fun hno => eval_evaluateKill_of_not_offends uuid4 hon hno hun he
      have hlater : d₁.UnheldFrom (t + 1) := hmoved.later (hun.mono (Nat.le_succ t))
      cases x with
      | error e =>
          simp only [atomically, he, Option.some.injEq, Prod.mk.injEq] at h
          rw [← h.2]
          refine ⟨hlater.rollback, fun k _ => congrFun hmoved.states_committed k, ?_, ?_⟩
          · intro key row hrow
            rw [← hmoved.outbox_committed] at hrow
            exact hrow
          · exact fun _ => ⟨hmoved.states_committed, hmoved.outbox_committed⟩
      | ok o =>
          simp only [atomically, he, Option.some.injEq, Prod.mk.injEq] at h
          rw [← h.2]
          refine ⟨hlater.commit, ?_, ?_, ?_⟩
          · intro k hk
            show d₁.states.visible t k = _
            rw [visible_of_no_inflight, hmoved.states_committed]
            exact fun v hv => hun.states t (Nat.le_refl t) k v (hmoved.states k hk ▸ hv)
          · intro key row hrow
            show d₁.outbox.visible t key = _
            rw [visible_of_no_inflight, hmoved.outbox_committed, hrow]
            exact fun v hv => hun.outbox t (Nat.le_refl t) key v (hmoved.outbox key row hrow ▸ hv)
          · intro hnot
            cases hno hnot
            exact ⟨congrArg committed (commit_eq_self (hun.states t (Nat.le_refl t))),
              congrArg committed (commit_eq_self (hun.outbox t (Nat.le_refl t)))⟩

end Evaluation

/-! ## deliveries -/

/-- What a delivery leaves of the kill switch: the other scopes' state rows as they
were, the queued decisions as they were but for the delivery of due ones; and
without an offence no state row changes and no decision joins the queue. -/
structure KillNeutral (settings : KillSwitchSettings) (record : UsageRecord) (now : DateTime)
    (t : Txn) (d d' : KillDb) : Prop where
  other_scopes : ∀ scope, scope ≠ record.killScope →
    d'.states.committed scope = d.states.committed scope
  queued : ∀ key row, d.outbox.committed key = some row →
    RowRedelivered record.tenantId now key (some row) (d'.outbox.committed key)
  unless_offends : ¬ Offends settings record t d →
    d'.states.committed = d.states.committed ∧
      ∀ key, d.outbox.committed key = none → d'.outbox.committed key = none

section Delivery

variable {uuid4 : Txn → Nat → String} {seam : Seam} {settings : KillSwitchSettings}
  {record : UsageRecord} {now : DateTime} {t : Txn}

theorem RowRedelivered.eq_none {tenantId : String} {o : Option KillDecisionRow}
    (h : RowRedelivered tenantId now key none o) : o = none := by
  rcases h with rfl | ⟨_, _, hrow, _⟩
  · rfl
  · contradiction

theorem Settles.redelivered {d₁ : KillDb} (h : Settles settings record t d d₁)
    (hred : Redelivered record.tenantId now d₁ d') : KillNeutral settings record now t d d' where
  other_scopes scope hne := by rw [hred.states, h.states scope hne]
  queued key row hrow := h.outbox key row hrow ▸ hred.outbox key
  unless_offends hno := by
    obtain ⟨hstates, houtbox⟩ := h.unless_offends hno
    refine ⟨hred.states.trans hstates, fun key hnone => ?_⟩
    have hkey := hred.outbox key
    rw [houtbox, hnone] at hkey
    exact hkey.eq_none

theorem evaluateKillSwitch_neutral (hun : d.UnheldFrom t)
    (h : evaluateKillSwitch uuid4 seam settings t record now d = some d') :
    KillNeutral settings record now t d d' := by
  unfold evaluateKillSwitch at h
  split at h
  · next hon =>
      cases ha : atomically t (evaluateKill uuid4 record settings.maxSingleTxCostCents now) d with
      | none => simp [ha] at h
      | some q =>
          obtain ⟨r, d₁⟩ := q
          have hsettles := atomically_evaluateKill uuid4 hon hun ha
          cases r with
          | error e =>
              simp only [ha, Option.some.injEq] at h
              exact h ▸ hsettles.redelivered (.refl _ _ _)
          | ok o =>
              simp only [ha] at h
              obtain ⟨d₂, hd₂, hred⟩ := drainTenant_redelivered seam settings record.tenantId now
                (hsettles.unheld.mono (Nat.le_succ t))
              rw [hd₂, Option.some.injEq] at h
              exact h ▸ hsettles.redelivered hred
  · cases h
    exact ⟨fun _ _ => rfl, fun key row hrow => .inl hrow, fun _ => ⟨rfl, fun _ => id⟩⟩

theorem evaluateKillSwitch_completes (uuid4 : Txn → Nat → String) (seam : Seam)
    (settings : KillSwitchSettings) (record : UsageRecord) (now : DateTime) (hun : d.UnheldFrom t)
    (hheld : d.HeldBy t) :
    ∃ d', evaluateKillSwitch uuid4 seam settings t record now d = some d' := by
  unfold evaluateKillSwitch
  split
  · next hon =>
      have heval : ∃ r d₁, (evaluateKill uuid4 record settings.maxSingleTxCostCents now).eval t d =
          some (r, d₁) := by
        rw [eval_evaluateKill]
        cases detectedReason settings record t d with
        | none => exact ⟨_, _, rfl⟩
        | some reason =>
            obtain ⟨r, d₁, he, _⟩ := completes_kill uuid4 reason now d hheld
            exact ⟨r, d₁, he⟩
      obtain ⟨r, d₁, he⟩ := heval
      cases r with
      | error e => exact ⟨_, by rw [atomically, he]⟩
      | ok o =>
          have ha : atomically t (evaluateKill uuid4 record settings.maxSingleTxCostCents now) d =
              some (.ok o, Database.commit t d₁) := by rw [atomically, he]
          obtain ⟨d₂, hd₂, _⟩ := drainTenant_redelivered seam settings record.tenantId now
            ((atomically_evaluateKill uuid4 hon hun ha).unheld.mono (Nat.le_succ t))
          exact ⟨d₂, by rw [ha]; exact hd₂⟩
  · exact ⟨d, rfl⟩

end Delivery

/-- What the redelivery of a posted event does. -/
structure ReplayNeutral (settings : KillSwitchSettings) (record : UsageRecord) (now : DateTime)
    (t : Txn) (d : IngestDb) (response : IngestResponse) (d' : IngestDb) : Prop where
  replayed : ∃ txnId, response = .accepted false true txnId
  ledger : d'.ledger = d.ledger
  kill : KillNeutral settings record now (t + 1) d.kill d'.kill

/-- **Replays**: in every reachable ledger, whatever the kill switch's tables hold
and whatever else is open, delivering a posted event again is a replay that leaves
the ledger as it was; and it runs to its end unless another transaction holds what
a kill has to wait for. -/
theorem replay_neutral (uuid5 : String → String → String) (uuid4 : Txn → Nat → String)
    (seam : Seam) (settings : KillSwitchSettings) (now : DateTime) (as : List (Action LedgerCall))
    (s : LedgerSys) (hrun : run (ledgerProg uuid5) LedgerSys.init as = some s)
    (record : UsageRecord) (t₀ : Txn) (result : AppendResult)
    (hposted : s.procs t₀ = .committed (.postUsage record) result)
    (kill : KillDb) (t : Txn) (hidle : s.procs t = .idle) (hun : kill.UnheldFrom (t + 1)) :
    (kill.HeldBy (t + 1) → ∃ response d',
        ingestUsage uuid5 uuid4 seam settings t record now ⟨s.db, kill⟩ = some (response, d')) ∧
      ∀ response d',
        ingestUsage uuid5 uuid4 seam settings t record now ⟨s.db, kill⟩ = some (response, d') →
          ReplayNeutral settings record now t ⟨s.db, kill⟩ response d' := by
  have hok := ledger_ok uuid5 hrun
  have hi : LedgerInv s.db := hok.inv
  have hfresh : LedgerFresh t s.db := by
    have := hok.procs t
    rw [hidle] at this
    exact this
  have hkeyed : UsagePosted uuid5 record s.db.idempotency.committed s.db.accounts.committed := by
    have := hok.procs t₀
    rw [hposted] at this
    exact this.2 record rfl
  obtain ⟨txnId, hpost⟩ := atomically_postUsage_replay hi hfresh hkeyed
  constructor
  · intro hheld
    obtain ⟨kill', hk⟩ := evaluateKillSwitch_completes uuid4 seam settings record now hun hheld
    exact ⟨.accepted false true txnId, ⟨s.db, kill'⟩, by simp [ingestUsage, hpost, hk]⟩
  · intro response d' h
    simp only [ingestUsage, hpost] at h
    cases hk : evaluateKillSwitch uuid4 seam settings (t + 1) record now kill with
    | none => simp [hk] at h
    | some kill' =>
        simp only [hk, Option.some.injEq, Prod.mk.injEq] at h
        obtain ⟨rfl, rfl⟩ := h
        exact ⟨⟨txnId, rfl⟩, rfl, evaluateKillSwitch_neutral hun hk⟩

section Sample

def sampleSettings : KillSwitchSettings where
  enabled := true
  maxSingleTxCostCents := some 500

def sampleSeam : Seam where
  signingKey := true
  attempt _ := .distributed "dist-1"

/-- The event is posted by transaction 1. -/
def postSchedule : List (Action LedgerCall) :=
  [.begin 1 (.postUsage sampleUsage), .exec 1, .exec 1, .exec 1, .exec 1, .exec 1, .exec 1,
    .commit 1]

/-- Transaction 2 kills the scope for the event; 3 is the operator's clear. -/
def clearedSchedule : List (Action KillCall) :=
  [.begin 2 (.evaluate sampleUsage (some 500) sampleTime), .exec 2, .exec 2, .exec 2, .exec 2,
    .exec 2, .exec 2, .commit 2,
    .begin 3 (.clear sampleScope sampleTime), .exec 3, .exec 3, .exec 3, .exec 3, .exec 3, .commit 3]

/-- The state row of the sample scope, and the delivery of its versions 1 to 3. -/
structure ScopeReport where
  row : Option (KillState × Nat)
  delivery : List (Option Delivery)
deriving DecidableEq

def scopeReport (d : KillDb) : ScopeReport where
  row := (d.states.committed sampleScope).map fun row => (row.state, row.lastPublishedVersion)
  delivery := [1, 2, 3].map fun v =>
    (d.outbox.committed (killKey sampleScope (sampleUuid4 2 1) v)).map KillDecisionRow.state

/-- The event is posted and kills its scope, the operator clears it; the same event
delivered once more is a replay for the ledger and kills the scope again. -/
theorem replay_kills_again : ∃ s k response d',
    run (ledgerProg sampleUuid5) LedgerSys.init postSchedule = some s ∧
      run (killProg sampleUuid4) KillSys.init clearedSchedule = some k ∧
      ingestUsage sampleUuid5 sampleUuid4 sampleSeam sampleSettings 4 sampleUsage sampleTime
        ⟨s.db, k.db⟩ = some (response, d') ∧
      (s.procs 1).result.map AppendResult.applied = some true ∧
      response = .accepted false true "af9b4062-6cd8-5a68-97cf-008c5f33faef" ∧
      scopeReport k.db = ⟨some (.clear, 2), [some .pending, some .pending, none]⟩ ∧
      scopeReport d'.kill =
        ⟨some (.killed, 3), [some .distributed, some .distributed, some .distributed]⟩ := by
  have hrun : ((run (ledgerProg sampleUuid5) LedgerSys.init postSchedule).bind fun s =>
      (run (killProg sampleUuid4) KillSys.init clearedSchedule).bind fun k =>
        (ingestUsage sampleUuid5 sampleUuid4 sampleSeam sampleSettings 4 sampleUsage sampleTime
          ⟨s.db, k.db⟩).map fun q =>
            ((s.procs 1).result.map AppendResult.applied, q.1, scopeReport k.db,
              scopeReport q.2.kill)) =
      some (some true, .accepted false true "af9b4062-6cd8-5a68-97cf-008c5f33faef",
        ⟨some (.clear, 2), [some .pending, some .pending, none]⟩,
        ⟨some (.killed, 3), [some .distributed, some .distributed, some .distributed]⟩) := by
    decide +kernel
  obtain ⟨s, hs, hrest⟩ := Option.bind_eq_some_iff.mp hrun
  obtain ⟨k, hk, hrest⟩ := Option.bind_eq_some_iff.mp hrest
  obtain ⟨⟨response, d'⟩, hd, he⟩ := Option.map_eq_some_iff.mp hrest
  simp only [Prod.mk.injEq] at he
  exact ⟨s, k, response, d', hs, hk, hd, he⟩

theorem KillDb.unheldFrom_empty (t : Txn) : KillDb.empty.UnheldFrom t :=
  ⟨fun _ _ _ _ h => by contradiction, fun _ _ _ _ h => by contradiction,
    fun _ _ _ _ h => by contradiction, fun _ _ _ _ h => by contradiction⟩

/-- The transaction id has not been used. -/
def isIdle : Proc LedgerDb LedgerError LedgerCall AppendResult → Bool
  | .idle => true
  | _ => false

/-- The transaction has committed the posting of `record`. -/
def postedBy (record : UsageRecord) : Proc LedgerDb LedgerError LedgerCall AppendResult → Bool
  | .committed (.postUsage r) _ => r = record
  | _ => false

theorem postedBy_eq_true {c : Proc LedgerDb LedgerError LedgerCall AppendResult}
    (h : postedBy record c = true) : ∃ result, c = .committed (.postUsage record) result := by
  unfold postedBy at h
  split at h
  · next r result =>
      rw [of_decide_eq_true h]
      exact ⟨result, rfl⟩
  · contradiction

/-- The same without the operator's clear: the scope stays killed at version 1 and
its decision is delivered. -/
theorem replay_neutral_sample : ∃ s kill response d' outcome,
    run (ledgerProg sampleUuid5) LedgerSys.init postSchedule = some s ∧
      atomically 2 (evaluateKill sampleUuid4 sampleUsage (some 500) sampleTime) KillDb.empty =
        some (outcome, kill) ∧
      ingestUsage sampleUuid5 sampleUuid4 sampleSeam sampleSettings 3 sampleUsage sampleTime
        ⟨s.db, kill⟩ = some (response, d') ∧
      scopeReport kill = ⟨some (.killed, 1), [some .pending, none, none]⟩ ∧
      scopeReport d'.kill = ⟨some (.killed, 1), [some .distributed, none, none]⟩ ∧
      ReplayNeutral sampleSettings sampleUsage sampleTime 3 ⟨s.db, kill⟩ response d' := by
  have hrun : ((run (ledgerProg sampleUuid5) LedgerSys.init postSchedule).bind fun s =>
      (atomically 2 (evaluateKill sampleUuid4 sampleUsage (some 500) sampleTime) KillDb.empty).bind
        fun q => (ingestUsage sampleUuid5 sampleUuid4 sampleSeam sampleSettings 3 sampleUsage
          sampleTime ⟨s.db, q.2⟩).map fun q' => (scopeReport q.2, scopeReport q'.2.kill)) =
      some (⟨some (.killed, 1), [some .pending, none, none]⟩,
        ⟨some (.killed, 1), [some .distributed, none, none]⟩) := by
    decide +kernel
  obtain ⟨s, hs, hrest⟩ := Option.bind_eq_some_iff.mp hrun
  obtain ⟨⟨outcome, kill⟩, hk, hrest⟩ := Option.bind_eq_some_iff.mp hrest
  obtain ⟨⟨response, d'⟩, hd, he⟩ := Option.map_eq_some_iff.mp hrest
  rw [Prod.mk.injEq] at he
  have hprocs : (run (ledgerProg sampleUuid5) LedgerSys.init postSchedule).map
      (fun s => (postedBy sampleUsage (s.procs 1), isIdle (s.procs 3))) = some (true, true) := by
    decide +kernel
  rw [hs, Option.map_some, Option.some.injEq, Prod.mk.injEq] at hprocs
  obtain ⟨result, hposted⟩ := postedBy_eq_true hprocs.1
  have hidle : s.procs 3 = .idle := by
    have hidle := hprocs.2
    unfold isIdle at hidle
    split at hidle
    · assumption
    · contradiction
  have hun : kill.UnheldFrom 4 :=
    (atomically_evaluateKill sampleUuid4 (rfl : sampleSettings.enabled = true)
      (KillDb.unheldFrom_empty 2) hk).unheld.mono (by decide)
  exact ⟨s, kill, response, d', outcome, hs, hk, hd, he.1, he.2,
    (replay_neutral sampleUuid5 sampleUuid4 sampleSeam sampleSettings sampleTime postSchedule s hs
      sampleUsage 1 result hposted kill 3 hidle hun).2 response d' hd⟩

end Sample

end Anoryx.Delta
