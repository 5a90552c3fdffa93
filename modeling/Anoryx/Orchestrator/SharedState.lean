import Anoryx.Calendar
import Anoryx.Orchestrator.IngestPipeline
import Anoryx.ReadCommitted.LockedTable
import Anoryx.ReadCommitted.Totals

/-!
# Anoryx.Orchestrator.SharedState

The shared key-value state of a tenant's agents (`write_state` of `messaging/router.py`,
`agent_state` and its audit log in `persistence/repositories.py`).

A write names the version that it replaces, or none to create the key.  A creation counts
the tenant's keys first, under the tenant's advisory lock; an update is one conditional
UPDATE.  The audit link is committed in a transaction of its own.

A call here is one whose body has passed `_validate_state_body`.  The row's `updated_at` is
drawn with the call.
-/

namespace Anoryx.Orchestrator

open ReadCommitted PyJson PgColumn

variable {F : Type}

/-! ## the tables -/

/-- A row of `agent_state`, under its tenant and its key. -/
structure AgentState (F : Type) where
  stateValue : Value F
  version : Int
  updatedAt : DateTime
  updatedByAgentId : Option String

inductive StateDisposition
  | created
  | updated
deriving DecidableEq

def StateDisposition.text : StateDisposition → String
  | created => "created"
  | updated => "updated"

/-- A row of `agent_state_audit_log`. -/
structure StateAuditLog where
  tenantId : String
  stateKey : String
  version : Int
  updatedByAgentId : Option String
  disposition : StateDisposition
  prevHash : String
  rowHash : String

/-- A write that is committed: the version that the call supplied, and the row. -/
structure StateWrite (F : Type) where
  expected : Option Int
  row : AgentState F

/-- The database. -/
structure StateDb (F : Type) where
  /-- `agent_state`, by `tenant_id` and `state_key`, and the locks of the tenants -/
  states : LockedTable (String × String) (AgentState F) Int
  chain : LockedLog StateAuditLog Int
  /-- The writes that were committed of a key, in order, with their calls.  No statement reads it. -/
  history : String × String → List (Txn × StateWrite F)
  /-- The version that a call has committed and not yet linked.  No statement reads it. -/
  unlinked : Txn → Option ((String × String) × Int)

def StateDb.empty : StateDb F := ⟨LockedTable.empty, LockedLog.empty, fun _ => [], fun _ => none⟩

instance : Database (StateDb F) where
  commit t d := { d with states := Database.commit t d.states, chain := Database.commit t d.chain }
  rollback t d := { d with states := Database.rollback t d.states, chain := Database.rollback t d.chain }

/-! ## calls -/

/-- A call whose body is valid. -/
structure WriteState (F : Type) where
  tenantId : String
  stateKey : PyStr
  expectedVersion : Option Int
  value : List (PyStr × PyValue F)
  updatedByAgentId : Option PyStr
  now : DateTime
  keyLength : stateKey.length ≤ 256
  positive : ∀ n, expectedVersion = some n → 1 ≤ n

/-- What `write_state` answers. -/
inductive StateAnswer
  /-- 200 -/
  | written (version : Int) (updatedAt : DateTime)
  /-- 409 `already_exists` -/
  | alreadyExists (currentVersion : Option Int)
  /-- 409 `version_conflict` -/
  | versionConflict (currentVersion : Option Int)
  /-- 422 `state_key_limit_exceeded` -/
  | keyLimitExceeded (limit : Nat)
deriving DecidableEq

/-- The largest BIGINT. -/
def bigintMax : Int := 9223372036854775807

/-! ## statements -/

/-- `get_agent_state`, its version -/
def stateVersion (key : String × String) (t : Txn) (d : StateDb F) : Option Int :=
  (d.states.table.visible t key).map AgentState.version

/-- `lock_messaging_state_key_cap`, under a hash of the tenant -/
def lockStateKeyCap (hashtext : String → Int) (tenantId : String) (t : Txn) (d : StateDb F) :
    Option (Unit × StateDb F) :=
  (LockedTable.advisoryXactLock (hashtext tenantId) t d.states).map fun p => ((), { d with states := p.2 })

/-- `count_agent_state_keys`: the tenant sees its own rows. -/
def countAgentStateKeys (tenantId : String) (t : Txn) (d : StateDb F) : Nat :=
  d.states.table.countKeys (d.states.table.visible t) fun key => key.1 = tenantId

def createAgentStateIfAbsent (key : String × String) (row : AgentState F) (t : Txn) (d : StateDb F) :
    Option (Bool × StateDb F) :=
  (LockedTable.insert key row t d.states).map fun p => (p.1, { d with states := p.2 })

def updateAgentStateCas (key : String × String) (expected : Int) (row : AgentState F) (t : Txn) (d : StateDb F) :
    Option (Option (AgentState F) × StateDb F) :=
  (d.states.table.updateWhere t key (fun state => state.version = expected) fun state =>
    { row with version := state.version + 1 }).map fun p =>
      (p.1, { d with states := { d.states with table := p.2 } })

/-- The commit of a write: its link is still to come. -/
def commitState (key : String × String) (write : StateWrite F) (t : Txn) (d : StateDb F) :
    Option (Unit × StateDb F) :=
  some ((), { Database.commit t d with
    history := Function.update d.history key (d.history key ++ [(t, write)])
    unlinked := Function.update d.unlinked t (some (key, write.row.version)) })

def commitStateLink (t : Txn) (d : StateDb F) : Option (Unit × StateDb F) :=
  some ((), { Database.commit t d with unlinked := Function.update d.unlinked t none })

/-! ## the audit chain -/

section Chain

variable (sha256 : ByteArray → String)

def stateGenesisHash : String := sha256 "anoryx-orchestrator:state-audit:genesis:v1".toUTF8

/-- `STATE_CANONICAL_FIELDS`, and `updated_by_agent_id` when it is set. -/
def stateCanonicalFields (row : StateAuditLog) : List (String × Value Empty) :=
  [("tenant_id", .str row.tenantId), ("state_key", .str row.stateKey), ("version", .int row.version),
    ("disposition", .str row.disposition.text), ("prev_hash", .str row.prevHash)] ++
  (row.updatedByAgentId.map fun agentId => ("updated_by_agent_id", .str agentId)).toList

def computeStateRowHash (row : StateAuditLog) : String :=
  sha256 (dumps ⟨false, false⟩ (Value.obj (stateCanonicalFields row)).sortKeys).toUTF8

/-- `_STATE_CHAIN_LOCK_KEY`, the first eight bytes of a digest -/
def stateChainLockKey : Int := -5680173759449983891

def stateChainLock (t : Txn) (d : StateDb F) : Option (Unit × StateDb F) :=
  (LockedLog.advisoryXactLock stateChainLockKey t d.chain).map fun p => ((), { d with chain := p.2 })

def stateChainTipHash (t : Txn) (d : StateDb F) : String :=
  match (d.chain.rowsOf (d.chain.table.visible t) fun _ => true).getLast? with
  | none => stateGenesisHash sha256
  | some row => row.2.rowHash

def stateLinkRow (key : String × String) (row : AgentState F) (disposition : StateDisposition) (prevHash : String) :
    StateAuditLog :=
  ⟨key.1, key.2, row.version, row.updatedByAgentId, disposition, prevHash,
    computeStateRowHash sha256 ⟨key.1, key.2, row.version, row.updatedByAgentId, disposition, prevHash, ""⟩⟩

def insertStateLink (row : StateAuditLog) (t : Txn) (d : StateDb F) : Option (Unit × StateDb F) :=
  some ((), { d with chain := d.chain.insert t row })

def appendStateAuditLink (key : String × String) (row : AgentState F) (disposition : StateDisposition) :
    Prog (StateDb F) IngestError Unit := do
  Prog.exec stateChainLock
  let prevHash ← Prog.query (stateChainTipHash sha256)
  Prog.exec (insertStateLink (stateLinkRow sha256 key row disposition prevHash))

end Chain

/-! ## the endpoint -/

section Endpoint

variable [FloatFormat F] (sha256 : ByteArray → String) (hashtext : String → Int) (maxStateKeysPerTenant : Nat)

/-- The row that a call writes, under this version. -/
def WriteState.row (request : WriteState F) (version : Int) : Option (AgentState F) := do
  let stateValue ← jsonbColumn (.obj request.value)
  let updatedByAgentId ← nullableColumn 64 request.updatedByAgentId
  some ⟨stateValue, version, request.now, updatedByAgentId⟩

/-- The commit of a write, its link, and the answer. -/
def concludeWrite (key : String × String) (write : StateWrite F) (disposition : StateDisposition) :
    Prog (StateDb F) IngestError StateAnswer := do
  Prog.exec (commitState key write)
  appendStateAuditLink sha256 key write.row disposition
  Prog.exec commitStateLink
  pure (.written write.row.version write.row.updatedAt)

/-- The end of a call that wrote nothing, and what it reads then. -/
def rejectWrite (key : String × String) (answer : Option Int → StateAnswer) :
    Prog (StateDb F) IngestError StateAnswer := do
  Prog.rollbackWork
  let current ← Prog.query (stateVersion key)
  Prog.rollbackWork
  pure (answer current)

/-- Whether one more key may be created: of a key that is there nothing is counted. -/
def admitsStateKey (tenantId : String) : Option Int → Prog (StateDb F) IngestError Bool
  | some _ => pure true
  | none => do
      Prog.exec (lockStateKeyCap hashtext tenantId)
      let count ← Prog.query (countAgentStateKeys tenantId)
      pure (decide (count < maxStateKeysPerTenant))

def createState (request : WriteState F) (key : String × String) : Prog (StateDb F) IngestError StateAnswer := do
  let existing ← Prog.query (stateVersion key)
  let admitted ← admitsStateKey hashtext maxStateKeysPerTenant request.tenantId existing
  if admitted then do
    let row ← Prog.ofExcept (orRaise .data (request.row 1))
    let created ← Prog.exec (createAgentStateIfAbsent key row)
    if created then concludeWrite sha256 key ⟨none, row⟩ .created
    else rejectWrite key .alreadyExists
  else do
    Prog.rollbackWork
    pure (.keyLimitExceeded maxStateKeysPerTenant)

/-- A write that replaces a version. -/
def updateState (request : WriteState F) (key : String × String) (expected : Int) :
    Prog (StateDb F) IngestError StateAnswer :=
  if bigintMax < expected then Prog.raise .data
  else do
    let row ← Prog.ofExcept (orRaise .data (request.row expected))
    let updated ← Prog.exec (updateAgentStateCas key expected row)
    match updated with
    | some row =>
        -- `version + 1` is a BIGINT as well
        if expected < bigintMax then concludeWrite sha256 key ⟨some expected, row⟩ .updated
        else Prog.raise .data
    | none => rejectWrite key .versionConflict

def writeState (request : WriteState F) : Prog (StateDb F) IngestError StateAnswer := do
  let stateKey ← Prog.ofExcept (orRaise .data (textColumn 256 request.stateKey))
  match request.expectedVersion with
  | none => createState sha256 hashtext maxStateKeysPerTenant request (request.tenantId, stateKey)
  | some expected => updateState sha256 request (request.tenantId, stateKey) expected

end Endpoint

end Anoryx.Orchestrator
