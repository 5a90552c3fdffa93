import Anoryx.Delta.KillSwitchDrainer

/-!
# Anoryx.Delta.BudgetDrainer

The drainer of the budget outbox (`budget_engine/drainer.py`, the delivery half of
`budget_engine/outbox.py`).  It works as the kill switch's does: the due rows of the
tenant are read once, then each is claimed, signed and published in a transaction of
its own.

A row's transaction may also fail after the record has gone out; the row is then as it
was, and will be published again.  So the seam says for every row how its delivery ends
and whether its transaction commits.
-/

namespace Anoryx.Delta.BudgetDrainer

open ReadCommitted

/-! ## settings and outcomes -/

/-- The settings of the engine that the drainer computes with; `load_settings` leaves
them at their defaults. -/
structure EngineSettings where
  maxPublishAttempts : Nat := 8
  backoffBaseSeconds : Nat := 2
  backoffCapSeconds : Nat := 300

/-- What rolls back a row's transaction. -/
inductive RollbackError
  | dateOverflow
  | databaseUnavailable
deriving DecidableEq

/-- What a drain finds outside its tables. -/
structure Seam where
  /-- `load_signing_key` succeeds -/
  signingKey : Bool
  /-- the end of the delivery of a row -/
  attempt : DecisionKey → Attempt
  /-- the row's transaction commits -/
  commits : DecisionKey → Bool

/-! ## statements -/

/-- Pending, and not before its next attempt. -/
def due (now : DateTime) (row : DecisionRow) : Bool :=
  row.state = .pending ∧ row.nextAttemptAt ≤ now

/-- `due_outbox_ids`, in a session of the tenant: oldest first, at most 64. -/
def dueOutboxIds (tenantId : String) (now : DateTime) (t : Txn) (d : BudgetDb) : List DecisionKey :=
  ((((d.outbox.scan t).filter fun p => p.1.1 = tenantId ∧ due now p.2).insertionSort
    fun p q => p.2.createdAt ≤ q.2.createdAt).take 64).map Prod.fst

def claimOne (tenantId : String) (key : DecisionKey) (now : DateTime) :
    Prog BudgetDb RollbackError (Option DecisionRow) :=
  .exec fun t d =>
    match d.outbox.visible t key with
    | none => some (none, d)
    | some row =>
        if key.1 = tenantId ∧ due now row ∧ d.outbox.free t key then
          some (some row, { d with outbox := d.outbox.write t key row })
        else some (none, d)

/-- `UPDATE budget_publish_outbox SET … WHERE outbox_id = …` -/
def markRow (key : DecisionKey) (f : DecisionRow → DecisionRow) : Prog BudgetDb RollbackError Unit :=
  .exec fun t d => (d.outbox.updateWhere t key (fun _ => true) f).map
    fun p => ((), { d with outbox := p.2 })

/-- What `mark_distributed` sets. -/
def setDistributed (distributionId : String) (row : DecisionRow) : DecisionRow :=
  { row with
    state := .distributed
    distributionId := some distributionId
    attempts := row.attempts + 1
    lastError := none }

/-- What `mark_retry` sets. -/
def setRetry (error : String) (nextAttemptAt : DateTime) (row : DecisionRow) : DecisionRow :=
  { row with
    attempts := row.attempts + 1
    nextAttemptAt := nextAttemptAt
    lastError := some (errorText error) }

/-- What `mark_failed` sets. -/
def setFailed (error : String) (row : DecisionRow) : DecisionRow :=
  { row with
    state := .failed
    attempts := row.attempts + 1
    lastError := some (errorText error) }

/-! ## the drain -/

/-- `_backoff_at`; `none` past the last date. -/
def backoffAt (attempts : Nat) (settings : EngineSettings) (now : DateTime) : Option DateTime :=
  now.addSeconds
    (min (settings.backoffBaseSeconds * 2 ^ (attempts - 1)) settings.backoffCapSeconds)

def deliverOne (seam : Seam) (settings : EngineSettings) (now : DateTime) (key : DecisionKey)
    (row : DecisionRow) : Prog BudgetDb RollbackError Unit :=
  match seam.attempt key with
  | .signFailed error => markRow key (setFailed ("sign failed: " ++ error))
  | .transient error =>
      let attempts := row.attempts + 1
      if settings.maxPublishAttempts ≤ attempts then
        markRow key (setFailed ("retries exhausted: " ++ error))
      else
        match backoffAt attempts settings now with
        | some nextAttemptAt => markRow key (setRetry error nextAttemptAt)
        | none => .raise .dateOverflow
  | .rejected error => markRow key (setFailed error)
  | .distributed distributionId => markRow key (setDistributed distributionId)

/-- One pass of the drain loop's body. -/
def drainOne (seam : Seam) (settings : EngineSettings) (tenantId : String) (now : DateTime)
    (key : DecisionKey) : Prog BudgetDb RollbackError Unit := do
  match ← claimOne tenantId key now with
  | none => pure ()
  | some row => do
      deliverOne seam settings now key row
      if seam.commits key then pure () else .raise .databaseUnavailable

/-- The drain loop: a transaction for each row, an exception ends only its own. -/
def drainRows (seam : Seam) (settings : EngineSettings) (tenantId : String) (now : DateTime) :
    Txn → List DecisionKey → BudgetDb → Option BudgetDb
  | _, [], d => some d
  | t, key :: keys, d =>
      match atomically t (drainOne seam settings tenantId now key) d with
      | none => none
      | some (_, d') => drainRows seam settings tenantId now (t + 1) keys d'

/-- `drain_tenant`; `t` is the session of the first read. -/
def drainTenant (seam : Seam) (settings : EngineSettings) (tenantId : String) (now : DateTime)
    (t : Txn) (d : BudgetDb) : Option BudgetDb :=
  if seam.signingKey then
    drainRows seam settings tenantId now (t + 1) (dueOutboxIds tenantId now t d) d
  else some d

/-- What happens to the outbox: an evaluation queues a decision, or a tenant is drained. -/
inductive OutboxEvent
  | enqueue (tenantId budgetId policyId : String) (policyVersion : Nat) (transition : Transition)
      (policyPayload : BudgetLimitPolicy) (now : DateTime)
  | drain (seam : Seam) (tenantId : String) (now : DateTime)

def OutboxEvent.run (settings : EngineSettings) (t : Txn) (d : BudgetDb) : OutboxEvent → Option BudgetDb
  | enqueue tenantId budgetId policyId policyVersion transition policyPayload now =>
      (atomically t
        (enqueueDecision tenantId budgetId policyId policyVersion transition policyPayload now) d).map
          Prod.snd
  | drain seam tenantId now => drainTenant seam settings tenantId now t d

/-- The columns of a queued decision that delivery leaves alone. -/
def decision (row : DecisionRow) : String × Transition × BudgetLimitPolicy × DateTime × Txn :=
  (row.budgetId, row.transition, row.policyPayload, row.createdAt, row.insertedBy)

/-- The attempts are within the limit, and a pending row has one left. -/
structure Within (limit : Nat) (row : DecisionRow) : Prop where
  attempts : row.attempts ≤ limit
  pending : row.state = .pending → row.attempts < limit

/-- What may become of the row under a key. -/
structure Evolves (limit : Nat) (o o' : Option DecisionRow) : Prop where
  kept : ∀ row, o = some row → ∃ row', o' = some row' ∧ decision row' = decision row ∧
    (row.state ≠ .pending → row' = row)
  within : (∀ row, o = some row → Within limit row) → ∀ row', o' = some row' → Within limit row'

theorem Evolves.refl (limit : Nat) (o : Option DecisionRow) : Evolves limit o o :=
  ⟨fun row h => ⟨row, h, rfl, fun _ => rfl⟩, fun h => h⟩

theorem Evolves.trans {limit : Nat} {o₁ o₂ o₃ : Option DecisionRow} (h₁ : Evolves limit o₁ o₂)
    (h₂ : Evolves limit o₂ o₃) : Evolves limit o₁ o₃ where
  kept row h := by
    obtain ⟨row₂, e₂, hdec₂, hterm₂⟩ := h₁.kept row h
    obtain ⟨row₃, e₃, hdec₃, hterm₃⟩ := h₂.kept row₂ e₂
    refine ⟨row₃, e₃, hdec₃.trans hdec₂, fun hne => ?_⟩
    have he := hterm₂ hne
    rw [← he] at hne
    rw [hterm₃ hne, he]
  within h := h₂.within (h₁.within h)

theorem Evolves.attempt {limit : Nat} {row row' : DecisionRow} (hpending : row.state = .pending)
    (hdec : decision row' = decision row) (hattempts : row'.attempts = row.attempts + 1)
    (hleft : row'.state = .pending → row'.attempts < limit) : Evolves limit (some row) (some row') where
  kept _ h := by
    obtain rfl := Option.some.inj h
    exact ⟨row', rfl, hdec, fun hne => absurd hpending hne⟩
  within h _ h' := by
    obtain rfl := Option.some.inj h'
    have := (h row rfl).pending hpending
    exact ⟨by omega, hleft⟩

/-! ## one row's transaction -/

section Row

variable (seam : Seam) (settings : EngineSettings) (tenantId : String) (now : DateTime) (t : Txn)
  (key : DecisionKey) {d d' : BudgetDb} {row : DecisionRow}

theorem eval_markRow (f : DecisionRow → DecisionRow) (hq : d.outbox.Quiet)
    (hd' : d'.outbox = d.outbox.write t key row) :
    (markRow key f).eval t d' = some (.ok (), { d' with outbox := d.outbox.write t key (f row) }) := by
  have hfree : (d.outbox.write t key row).free t key = true := (hq.heldBy t).write key
  rw [markRow, Prog.eval_exec]
  simp [Table.updateWhere, hfree, hd', Table.write_write]

theorem eval_deliverOne (hq : d.outbox.Quiet) (hpending : row.state = .pending)
    (hd' : d'.outbox = d.outbox.write t key row) :
    ∃ r row' d'', (deliverOne seam settings now key row).eval t d' = some (r, d'') ∧
      d''.outbox = d.outbox.write t key row' ∧
      Evolves settings.maxPublishAttempts (some row) (some row') := by
  unfold deliverOne
  split
  · exact ⟨_, _, _, eval_markRow t key _ hq hd', rfl,
      .attempt hpending rfl rfl fun h => by simp [setFailed] at h⟩
  · dsimp only
    split
    · exact ⟨_, _, _, eval_markRow t key _ hq hd', rfl,
        .attempt hpending rfl rfl fun h => by simp [setFailed] at h⟩
    · next hleft =>
        split
        · exact ⟨_, _, _, eval_markRow t key _ hq hd', rfl,
            .attempt hpending rfl rfl fun _ => Nat.lt_of_not_le hleft⟩
        · exact ⟨_, row, d', rfl, hd', .refl _ _⟩
  · exact ⟨_, _, _, eval_markRow t key _ hq hd', rfl,
      .attempt hpending rfl rfl fun h => by simp [setFailed] at h⟩
  · exact ⟨_, _, _, eval_markRow t key _ hq hd', rfl,
      .attempt hpending rfl rfl fun h => by simp [setDistributed] at h⟩

/-- One key of the outbox is drained, or left as it was. -/
theorem eval_drainOne (hq : d.outbox.Quiet) :
    ∃ r d', (drainOne seam settings tenantId now key).eval t d = some (r, d') ∧
      (d'.outbox = d.outbox ∨ ∃ row row', d.outbox.committed key = some row ∧
        d'.outbox = d.outbox.write t key row' ∧
        Evolves settings.maxPublishAttempts (some row) (some row')) := by
  unfold drainOne claimOne
  rw [Prog.eval_bind, Prog.eval_exec, Table.visible_of_inflight_none (hq key)]
  cases hrow : d.outbox.committed key with
  | none => exact ⟨.ok (), d, rfl, .inl rfl⟩
  | some row =>
      dsimp only
      by_cases hc : key.1 = tenantId ∧ due now row = true ∧ d.outbox.free t key = true
      · have hpending : row.state = .pending := by
          have hdue := hc.2.1
          simp only [due, decide_eq_true_eq] at hdue
          exact hdue.1
        have hclaimed : ({ d with outbox := d.outbox.write t key row } : BudgetDb).outbox =
          d.outbox.write t key row := rfl
        obtain ⟨r, row', d₁, heval, hout, hev⟩ :=
          eval_deliverOne seam settings now t key hq hpending hclaimed
        rw [if_pos hc]
        dsimp only [Option.map_some]
        rw [Prog.eval_bind, heval]
        cases r with
        | error e => exact ⟨_, d₁, rfl, .inr ⟨row, row', rfl, hout, hev⟩⟩
        | ok x =>
            dsimp only
            split
            · exact ⟨_, d₁, rfl, .inr ⟨row, row', rfl, hout, hev⟩⟩
            · exact ⟨_, d₁, rfl, .inr ⟨row, row', rfl, hout, hev⟩⟩
      · rw [if_neg hc]
        exact ⟨.ok (), d, rfl, .inl rfl⟩

end Row

/-- From one outbox to another, with no transaction open before and after. -/
structure Drained (limit : Nat) (d d' : BudgetDb) : Prop where
  quiet : d'.outbox.Quiet
  rows : ∀ key, Evolves limit (d.outbox.committed key) (d'.outbox.committed key)

theorem Drained.trans {limit : Nat} {d₁ d₂ d₃ : BudgetDb} (h₁ : Drained limit d₁ d₂)
    (h₂ : Drained limit d₂ d₃) : Drained limit d₁ d₃ :=
  ⟨h₂.quiet, fun key => (h₁.rows key).trans (h₂.rows key)⟩

section Run

variable {settings : EngineSettings} {d : BudgetDb}

theorem atomically_drainOne (seam : Seam) (settings : EngineSettings) (tenantId : String)
    (now : DateTime) (t : Txn) (key : DecisionKey) (hq : d.outbox.Quiet) :
    ∃ r d', atomically t (drainOne seam settings tenantId now key) d = some (r, d') ∧
      Drained settings.maxPublishAttempts d d' := by
  obtain ⟨r, d₁, heval, hout⟩ := eval_drainOne seam settings tenantId now t key hq
  cases r with
  | ok x =>
      refine ⟨.ok x, Database.commit t d₁, by simp [atomically, heval], ?_⟩
      have hcommit : (Database.commit t d₁).outbox = d₁.outbox.commit t := rfl
      rcases hout with hout | ⟨row, row', hrow, hout, hev⟩
      · rw [hout, hq.commit_eq_self] at hcommit
        exact ⟨hcommit ▸ hq, fun key => hcommit ▸ .refl _ _⟩
      · rw [hout] at hcommit
        obtain ⟨hq', hcommitted⟩ := hq.commit_write t key row'
        refine ⟨hcommit ▸ hq', fun key' => ?_⟩
        rw [hcommit, hcommitted]
        split
        · next hk => rwa [hk, hrow]
        · exact .refl _ _
  | error e =>
      refine ⟨.error e, Database.rollback t d₁, by simp [atomically, heval], ?_, ?_⟩
      · rcases hout with hout | ⟨row, row', -, hout, -⟩
        · exact (show d₁.outbox.HeldBy t from hout ▸ hq.heldBy t).othersInflight
        · exact (show d₁.outbox.HeldBy t from hout ▸ (hq.heldBy t).write).othersInflight
      · intro key'
        have hcommitted : (Database.rollback t d₁).outbox.committed key' = d.outbox.committed key' := by
          show d₁.outbox.committed key' = _
          rcases hout with hout | ⟨row, row', -, hout, -⟩
          · rw [hout]
          · rw [hout, Table.committed_write]
        rw [hcommitted]
        exact .refl _ _

end Run

/-- The outbox in one state of a run and in a later one. -/
structure Lifecycle (limit : Nat) (d d' : BudgetDb) : Prop where
  /-- a row is never deleted, and its decision never changes -/
  kept : ∀ key row, d.outbox.committed key = some row →
    ∃ row', d'.outbox.committed key = some row' ∧ decision row' = decision row
  /-- the one move of a row is out of `pending` -/
  moves : ∀ key row row', d.outbox.committed key = some row → d'.outbox.committed key = some row' →
    row'.state ≠ row.state → row.state = .pending ∧ (row'.state = .distributed ∨ row'.state = .failed)
  /-- a row that is distributed or has failed stays as it is -/
  terminal : ∀ key row, d.outbox.committed key = some row → row.state ≠ .pending →
    d'.outbox.committed key = some row
  /-- no row is tried more often than the limit says -/
  attempts : ∀ key row, d'.outbox.committed key = some row → row.attempts ≤ limit

end Anoryx.Delta.BudgetDrainer
