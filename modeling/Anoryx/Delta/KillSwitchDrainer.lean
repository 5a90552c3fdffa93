import Anoryx.Delta.KillSwitch

/-!
# Anoryx.Delta.KillSwitchDrainer

The drainer of the kill-switch outbox (`kill_switch/drainer.py`, the delivery
half of `kill_switch/outbox.py`).  It reads the tenant's due rows once, then
claims, signs and publishes them one by one, each row in a transaction of its
own; the outcome of a row's delivery goes into its delivery columns.

Signing and the POST to the distribution seam are outside: `Attempt` is how
they can end, and which end a row meets is a parameter.
-/

namespace Anoryx.Delta

open ReadCommitted Table

/-! ## settings and outcomes -/

/-- The settings the kill switch computes with; `load_settings` sets the first two. -/
structure KillSwitchSettings where
  enabled : Bool
  maxSingleTxCostCents : Option Nat
  maxPublishAttempts : Nat := 8
  backoffBaseSeconds : Nat := 2
  backoffCapSeconds : Nat := 300

/-- How signing and publishing one row ends. -/
inductive Attempt
  | signFailed (error : String)
  | transient (error : String)
  | rejected (error : String)
  | distributed (distributionId : String)

/-- What rolls back a row's transaction. -/
inductive DrainError
  | dateOverflow
deriving DecidableEq

/-- What the drainer finds outside the database. -/
structure Seam where
  /-- `load_signing_key` succeeds -/
  signingKey : Bool
  /-- the end of the delivery of a row -/
  attempt : DecisionKey → Attempt

/-! ## statements -/

/-- Pending, and not before its next attempt. -/
def KillDecisionRow.due (now : DateTime) (row : KillDecisionRow) : Bool :=
  row.state = .pending ∧ row.nextAttemptAt ≤ now

/-- `due_outbox_ids`, in a session of the tenant: oldest first, at most 64. -/
def dueOutboxIds (tenantId : String) (now : DateTime) (t : Txn) (d : KillDb) : List DecisionKey :=
  ((((d.outbox.scan t).filter fun p => p.1.1 = tenantId ∧ p.2.due now).insertionSort
    fun p q => p.2.createdAt ≤ q.2.createdAt).take 64).map Prod.fst

/-- `claim_one`: lock the row if it is still due, skip it if another drainer has it. -/
def claimOne (tenantId : String) (key : DecisionKey) (now : DateTime) :
    Prog KillDb DrainError (Option KillDecisionRow) :=
  .exec fun t d =>
    match d.outbox.visible t key with
    | none => some (none, d)
    | some row =>
        if key.1 = tenantId ∧ row.due now ∧ d.outbox.free t key then
          some (some row, { d with outbox := d.outbox.write t key row })
        else some (none, d)

/-- `UPDATE kill_switch_outbox SET … WHERE outbox_id = …` -/
def markRow (key : DecisionKey) (f : KillDecisionRow → KillDecisionRow) :
    Prog KillDb DrainError Unit :=
  .exec fun t d => (d.outbox.updateWhere t key (fun _ => true) f).map
    fun p => ((), { d with outbox := p.2 })

/-- `error[:512]` -/
def errorText (error : String) : String := String.ofList (error.toList.take 512)

def markDistributed (key : DecisionKey) (distributionId : String) : Prog KillDb DrainError Unit :=
  markRow key fun row =>
    { row with
      state := .distributed
      distributionId := some distributionId
      attempts := row.attempts + 1
      lastError := none }

def markRetry (key : DecisionKey) (error : String) (nextAttemptAt : DateTime) :
    Prog KillDb DrainError Unit :=
  markRow key fun row =>
    { row with
      attempts := row.attempts + 1
      nextAttemptAt := nextAttemptAt
      lastError := some (errorText error) }

def markFailed (key : DecisionKey) (error : String) : Prog KillDb DrainError Unit :=
  markRow key fun row =>
    { row with
      state := .failed
      attempts := row.attempts + 1
      lastError := some (errorText error) }

/-! ## the drain -/

/-- `_backoff_at`; `none` past the last date. -/
def backoffAt (attempts : Nat) (settings : KillSwitchSettings) (now : DateTime) :
    Option DateTime :=
  now.addSeconds
    (min (settings.backoffBaseSeconds * 2 ^ (attempts - 1)) settings.backoffCapSeconds)

def deliverOne (seam : Seam) (settings : KillSwitchSettings) (now : DateTime) (key : DecisionKey)
    (row : KillDecisionRow) : Prog KillDb DrainError Unit :=
  match seam.attempt key with
  | .signFailed error => markFailed key ("sign failed: " ++ error)
  | .transient error =>
      let attempts := row.attempts + 1
      if settings.maxPublishAttempts ≤ attempts then
        markFailed key ("retries exhausted: " ++ error)
      else
        match backoffAt attempts settings now with
        | some nextAttemptAt => markRetry key error nextAttemptAt
        | none => .raise .dateOverflow
  | .rejected error => markFailed key error
  | .distributed distributionId => markDistributed key distributionId

/-- One pass of the drain loop's body. -/
def drainOne (seam : Seam) (settings : KillSwitchSettings) (tenantId : String) (now : DateTime)
    (key : DecisionKey) : Prog KillDb DrainError Unit := do
  match ← claimOne tenantId key now with
  | none => pure ()
  | some row => deliverOne seam settings now key row

/-- The drain loop: a transaction for each row, an exception ends only its own. -/
def drainRows (seam : Seam) (settings : KillSwitchSettings) (tenantId : String) (now : DateTime) :
    Txn → List DecisionKey → KillDb → Option KillDb
  | _, [], d => some d
  | t, key :: keys, d =>
      match atomically t (drainOne seam settings tenantId now key) d with
      | none => none
      | some (_, d') => drainRows seam settings tenantId now (t + 1) keys d'

/-- `drain_tenant`; `t` is the session of the first read. -/
def drainTenant (seam : Seam) (settings : KillSwitchSettings) (tenantId : String) (now : DateTime)
    (t : Txn) (d : KillDb) : Option KillDb :=
  if seam.signingKey then
    drainRows seam settings tenantId now (t + 1) (dueOutboxIds tenantId now t d) d
  else some d

/-! ## what a drain changes -/

/-- The columns of a queued decision that delivery leaves alone. -/
def KillDecisionRow.decision (row : KillDecisionRow) :
    String × KillTransition × BudgetLimitPolicy × DateTime :=
  (row.killId, row.transition, row.policyPayload, row.createdAt)

/-- From `o` to `o'` a row under `key` was not touched, or was due in the tenant's
queue and kept its decision. -/
def RowRedelivered (tenantId : String) (now : DateTime) (key : DecisionKey)
    (o o' : Option KillDecisionRow) : Prop :=
  o' = o ∨ ∃ row row', o = some row ∧ o' = some row' ∧ key.1 = tenantId ∧
    row.due now = true ∧ row'.decision = row.decision

/-- Nothing changed but delivery columns of due rows of the tenant. -/
structure Redelivered (tenantId : String) (now : DateTime) (d d' : KillDb) : Prop where
  authorizations : d'.authorizations.committed = d.authorizations.committed
  states : d'.states.committed = d.states.committed
  outbox : ∀ key, RowRedelivered tenantId now key (d.outbox.committed key) (d'.outbox.committed key)

/-- The transactions from `t` on have written nothing. -/
structure KillDb.UnheldFrom (t : Txn) (d : KillDb) : Prop where
  authorizations : d.authorizations.UnheldFrom t
  states : d.states.UnheldFrom t
  outbox : d.outbox.UnheldFrom t
  history : ∀ tenantId, (d.history tenantId).UnheldFrom t

section Redelivered

variable {tenantId : String} {now : DateTime}

theorem RowRedelivered.trans {key : DecisionKey} {o₁ o₂ o₃ : Option KillDecisionRow}
    (h₁ : RowRedelivered tenantId now key o₁ o₂) (h₂ : RowRedelivered tenantId now key o₂ o₃) :
    RowRedelivered tenantId now key o₁ o₃ := by
  rcases h₂ with rfl | ⟨row₂, row₃, e₂, e₃, ht, hdue, hdec⟩
  · exact h₁
  · rcases h₁ with rfl | ⟨row₁, row₂', e₁, e₂', ht', hdue', hdec'⟩
    · exact .inr ⟨row₂, row₃, e₂, e₃, ht, hdue, hdec⟩
    · rw [e₂', Option.some.injEq] at e₂
      exact .inr ⟨row₁, row₃, e₁, e₃, ht', hdue', by rw [hdec, ← e₂, hdec']⟩

theorem Redelivered.refl (tenantId : String) (now : DateTime) (d : KillDb) :
    Redelivered tenantId now d d :=
  ⟨rfl, rfl, fun _ => .inl rfl⟩

theorem Redelivered.trans {d₁ d₂ d₃ : KillDb} (h₁ : Redelivered tenantId now d₁ d₂)
    (h₂ : Redelivered tenantId now d₂ d₃) : Redelivered tenantId now d₁ d₃ where
  authorizations := h₂.authorizations.trans h₁.authorizations
  states := h₂.states.trans h₁.states
  outbox key := (h₁.outbox key).trans (h₂.outbox key)

/-- `t` has taken the due row under `key` and written its next version, with the
same decision; nothing else moved. -/
structure Claimed (tenantId : String) (now : DateTime) (t : Txn) (key : DecisionKey)
    (d d' : KillDb) : Prop where
  authorizations : d'.authorizations = d.authorizations
  states : d'.states = d.states
  history : d'.history = d.history
  committed : d'.outbox.committed = d.outbox.committed
  elsewhere : ∀ k, k ≠ key → d'.outbox.inflight k = d.outbox.inflight k
  tenant : key.1 = tenantId
  row : ∃ row row', d.outbox.visible t key = some row ∧ row.due now = true ∧
    d'.outbox.inflight key = some (t, row') ∧ row'.decision = row.decision

variable {t : Txn} {d d' : KillDb} {key : DecisionKey}

theorem eval_markRow {f : KillDecisionRow → KillDecisionRow}
    (hf : ∀ row, (f row).decision = row.decision) (hc : Claimed tenantId now t key d d') :
    ∃ r d'', (markRow key f).eval t d' = some (r, d'') ∧ Claimed tenantId now t key d d'' := by
  obtain ⟨row, row', hvis, hdue, hin, hdec⟩ := hc.row
  have hvis' : d'.outbox.visible t key = some row' := visible_of_inflight hin
  have hfree : d'.outbox.free t key = true := free_iff.mpr fun t' v hv => by
    rw [hin, Option.some.injEq, Prod.mk.injEq] at hv
    exact hv.1.symm
  refine ⟨.ok (), { d' with outbox := d'.outbox.write t key (f row') }, ?_, ?_⟩
  · rw [markRow, Prog.eval_exec]
    simp [updateWhere, hvis', hfree]
  · exact
      { authorizations := hc.authorizations
        states := hc.states
        history := hc.history
        committed := hc.committed
        elsewhere := fun k hk => (inflight_write_of_ne hk).trans (hc.elsewhere k hk)
        tenant := hc.tenant
        row := ⟨row, f row', hvis, hdue, inflight_write_self _ _ _ _,
          (hf row').trans hdec⟩ }

theorem eval_deliverOne (seam : Seam) (settings : KillSwitchSettings) (row : KillDecisionRow)
    (hc : Claimed tenantId now t key d d') :
    ∃ r d'', (deliverOne seam settings now key row).eval t d' = some (r, d'') ∧
      Claimed tenantId now t key d d'' := by
  unfold deliverOne
  split
  · exact eval_markRow (fun _ => rfl) hc
  · dsimp only
    split
    · exact eval_markRow (fun _ => rfl) hc
    · split
      · exact eval_markRow (fun _ => rfl) hc
      · exact ⟨.error .dateOverflow, d', rfl, hc⟩
  · exact eval_markRow (fun _ => rfl) hc
  · exact eval_markRow (fun _ => rfl) hc

/-- One key is left alone, or claimed and marked. -/
theorem eval_drainOne (seam : Seam) (settings : KillSwitchSettings) (tenantId : String)
    (now : DateTime) (t : Txn) (key : DecisionKey) (d : KillDb) :
    ∃ r d', (drainOne seam settings tenantId now key).eval t d = some (r, d') ∧
      (d' = d ∨ Claimed tenantId now t key d d') := by
  unfold drainOne claimOne
  rw [Prog.eval_bind, Prog.eval_exec]
  cases hvis : d.outbox.visible t key with
  | none => exact ⟨.ok (), d, rfl, .inl rfl⟩
  | some row =>
      dsimp only
      by_cases hc : key.1 = tenantId ∧ row.due now = true ∧ d.outbox.free t key = true
      · rw [if_pos hc]
        have hclaimed : Claimed tenantId now t key d
            { d with outbox := d.outbox.write t key row } :=
          { authorizations := rfl
            states := rfl
            history := rfl
            committed := rfl
            elsewhere := fun k hk => inflight_write_of_ne hk
            tenant := hc.1
            row := ⟨row, row, hvis, hc.2.1, inflight_write_self _ _ _ _, rfl⟩ }
        obtain ⟨r, d'', he, hc'⟩ := eval_deliverOne seam settings row hclaimed
        exact ⟨r, d'', he, .inr hc'⟩
      · rw [if_neg hc]
        exact ⟨.ok (), d, rfl, .inl rfl⟩

/-! ## the end of a row's transaction -/

theorem KillDb.UnheldFrom.mono {t t' : Txn} (h : d.UnheldFrom t) (hle : t ≤ t') :
    d.UnheldFrom t' :=
  ⟨h.authorizations.mono hle, h.states.mono hle, h.outbox.mono hle,
    fun tenantId => (h.history tenantId).mono hle⟩

theorem KillDb.UnheldFrom.commit (h : d.UnheldFrom (t + 1)) :
    (Database.commit t d).UnheldFrom t :=
  ⟨h.authorizations.commit, h.states.commit, h.outbox.commit,
    fun tenantId => (h.history tenantId).commit⟩

theorem KillDb.UnheldFrom.rollback (h : d.UnheldFrom (t + 1)) :
    (Database.rollback t d).UnheldFrom t :=
  ⟨h.authorizations.rollback, h.states.rollback, h.outbox.rollback,
    fun tenantId => (h.history tenantId).rollback⟩

theorem Claimed.unheldFrom (hc : Claimed tenantId now t key d d') (h : d.UnheldFrom t) :
    d'.UnheldFrom (t + 1) := by
  have h' : d.UnheldFrom (t + 1) := h.mono (Nat.le_succ t)
  refine ⟨hc.authorizations ▸ h'.authorizations, hc.states ▸ h'.states, ?_, hc.history ▸ h'.history⟩
  intro t' hle k v hv
  by_cases hk : k = key
  · subst hk
    obtain ⟨_, row', _, _, hin, _⟩ := hc.row
    rw [hin, Option.some.injEq, Prod.mk.injEq] at hv
    exact Nat.not_succ_le_self t (hv.1 ▸ hle)
  · rw [hc.elsewhere k hk] at hv
    exact h'.outbox t' hle k v hv

theorem Claimed.commit (hc : Claimed tenantId now t key d d') (h : d.UnheldFrom t) :
    Redelivered tenantId now d (Database.commit t d') where
  authorizations := by
    show (d'.authorizations.commit t).committed = _
    rw [hc.authorizations, commit_eq_self (h.authorizations t (Nat.le_refl t))]
  states := by
    show (d'.states.commit t).committed = _
    rw [hc.states, commit_eq_self (h.states t (Nat.le_refl t))]
  outbox k := by
    show RowRedelivered tenantId now k _ (d'.outbox.visible t k)
    have hold : ∀ k v, d.outbox.inflight k ≠ some (t, v) := h.outbox t (Nat.le_refl t)
    by_cases hk : k = key
    · subst hk
      obtain ⟨row, row', hvis, hdue, hin, hdec⟩ := hc.row
      rw [visible_of_no_inflight (hold k)] at hvis
      exact .inr ⟨row, row', hvis, visible_of_inflight hin, hc.tenant, hdue, hdec⟩
    · refine .inl ?_
      rw [visible_of_no_inflight fun v hv => hold k v (hc.elsewhere k hk ▸ hv), hc.committed]

theorem Claimed.rollback (hc : Claimed tenantId now t key d d') :
    Redelivered tenantId now d (Database.rollback t d') where
  authorizations := by
    show d'.authorizations.committed = _
    rw [hc.authorizations]
  states := by
    show d'.states.committed = _
    rw [hc.states]
  outbox k := .inl (congrFun hc.committed k)

theorem KillDb.commit_unheld (h : d.UnheldFrom t) : Redelivered tenantId now d (Database.commit t d) where
  authorizations := congrArg committed (commit_eq_self (h.authorizations t (Nat.le_refl t)))
  states := congrArg committed (commit_eq_self (h.states t (Nat.le_refl t)))
  outbox k := .inl (congrArg (committed · k) (commit_eq_self (h.outbox t (Nat.le_refl t))))

theorem atomically_drainOne (seam : Seam) (settings : KillSwitchSettings) (tenantId : String)
    (now : DateTime) (key : DecisionKey) (h : d.UnheldFrom t) :
    ∃ r d', atomically t (drainOne seam settings tenantId now key) d = some (r, d') ∧
      d'.UnheldFrom t ∧ Redelivered tenantId now d d' := by
  obtain ⟨r, d₁, he, hcase⟩ := eval_drainOne seam settings tenantId now t key d
  have hun : d₁.UnheldFrom (t + 1) := by
    rcases hcase with rfl | hc
    · exact h.mono (Nat.le_succ t)
    · exact hc.unheldFrom h
  cases r with
  | ok x =>
      refine ⟨.ok x, Database.commit t d₁, by simp [atomically, he], hun.commit, ?_⟩
      rcases hcase with rfl | hc
      · exact KillDb.commit_unheld h
      · exact hc.commit h
  | error e =>
      refine ⟨.error e, Database.rollback t d₁, by simp [atomically, he], hun.rollback, ?_⟩
      rcases hcase with rfl | hc
      · exact ⟨rfl, rfl, fun _ => .inl rfl⟩
      · exact hc.rollback

theorem drainRows_redelivered (seam : Seam) (settings : KillSwitchSettings) (tenantId : String)
    (now : DateTime) (keys : List DecisionKey) (h : d.UnheldFrom t) :
    ∃ d', drainRows seam settings tenantId now t keys d = some d' ∧
      Redelivered tenantId now d d' := by
  induction keys generalizing t d with
  | nil => exact ⟨d, rfl, .refl tenantId now d⟩
  | cons key keys ih =>
      obtain ⟨r, d₁, he, hun, hred⟩ := atomically_drainOne seam settings tenantId now key h
      obtain ⟨d', hd', hred'⟩ := ih (hun.mono (Nat.le_succ t))
      refine ⟨d', ?_, hred.trans hred'⟩
      rw [drainRows, he]
      exact hd'

theorem drainTenant_redelivered (seam : Seam) (settings : KillSwitchSettings) (tenantId : String)
    (now : DateTime) (h : d.UnheldFrom t) :
    ∃ d', drainTenant seam settings tenantId now t d = some d' ∧ Redelivered tenantId now d d' := by
  unfold drainTenant
  split
  · exact drainRows_redelivered seam settings tenantId now _ (h.mono (Nat.le_succ t))
  · exact ⟨d, rfl, .refl tenantId now d⟩

end Redelivered

end Anoryx.Delta
