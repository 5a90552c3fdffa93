import Anoryx.Calendar
import Anoryx.PgColumn
import Anoryx.PyJson.SortKeys
import Anoryx.ReadCommitted.LockedLog

/-!
# Anoryx.Delta.AuditLog

Delta's hash-chained audit log (`persistence/audit_log.py`): the canonical form of a
row and its hash, `append_history` as a transaction under the tenant's advisory lock, and
the walk of `verify_chain`.

`sha256` is the hexadecimal digest and `hashtext` the function of PostgreSQL.  The unique
indexes are left out: an INSERT that they refuse is an abort, and that may come at any
time.
-/

namespace Anoryx.Delta.AuditLog

open ReadCommitted PyJson PgColumn

/-! ## the hash of a row -/

/-- A moment, and the offset it is written with. -/
structure AwareDateTime where
  utc : DateTime
  utcoffset : Int

/-- `astimezone(timezone.utc)` -/
def AwareDateTime.astimezoneUtc (d : AwareDateTime) : AwareDateTime := { d with utcoffset := 0 }

/-- The dictionary of `_row_hash_data`. -/
@[ext]
structure RowHashData where
  tenantId : String
  entityType : String
  entityId : String
  action : String
  actor : String
  note : Option String
  createdAt : String
  prevHash : String

def rowHashData (tenantId entityType entityId action actor : String) (note : Option String)
    (createdAt : AwareDateTime) (prevHash : String) : RowHashData where
  tenantId := tenantId
  entityType := entityType
  entityId := entityId
  action := action
  actor := actor
  note := note
  createdAt := createdAt.astimezoneUtc.utc.isoformat
  prevHash := prevHash

/-- The members that are hashed; the note only if there is one. -/
def RowHashData.filtered (data : RowHashData) : List (String × Value Empty) :=
  [("tenant_id", .str data.tenantId), ("entity_type", .str data.entityType),
    ("entity_id", .str data.entityId), ("action", .str data.action), ("actor", .str data.actor),
    ("created_at", .str data.createdAt), ("prev_hash", .str data.prevHash)] ++
  data.note.toList.map fun note => ("note", .str note)

def canonicalJson (data : RowHashData) : ByteArray :=
  (dumps ⟨false, false⟩ (Value.obj data.filtered).sortKeys).toUTF8

section Hash

variable (sha256 : ByteArray → String)

def genesisHash : String := sha256 "anoryx-delta:financial-audit:genesis:v1".toUTF8

def computeRowHash (data : RowHashData) : String := sha256 (canonicalJson data)

end Hash

/-! ## the table -/

/-- A row of `change_history`, under its `sequence_number`. -/
structure HistoryRow where
  historyId : String
  tenantId : String
  entityType : String
  entityId : String
  action : String
  actor : String
  note : Option String
  createdAt : DateTime
  prevHash : String
  rowHash : String
deriving DecidableEq

/-- The row as its columns store it. -/
def HistoryRow.store (row : HistoryRow) : Option HistoryRow := do
  let historyId ← varchar 64 row.historyId
  let tenantId ← varchar 64 row.tenantId
  let entityType ← varchar 32 row.entityType
  let entityId ← varchar 64 row.entityId
  let action ← varchar 32 row.action
  let actor ← varchar 128 row.actor
  let note ← row.note.elim (some none) fun note => (varchar 1024 note).map some
  pure { row with historyId, tenantId, entityType, entityId, action, actor, note }

/-- The hash of a stored row; its moment is read back in UTC. -/
def HistoryRow.recompute (sha256 : ByteArray → String) (row : HistoryRow) : String :=
  computeRowHash sha256 (rowHashData row.tenantId row.entityType row.entityId row.action row.actor
    row.note ⟨row.createdAt, 0⟩ row.prevHash)

/-- The table, the sequence of its key, and the advisory locks. -/
abbrev AuditDb := LockedLog HistoryRow Int

/-- `WHERE tenant_id = …` -/
def ofTenant (tenantId : String) (row : HistoryRow) : Bool := row.tenantId = tenantId

/-! ## appending -/

/-- The arguments of `append_history`; the id is the caller's or a new one. -/
structure HistoryRequest where
  tenantId : String
  entityType : String
  entityId : String
  action : String
  actor : String
  now : AwareDateTime
  note : Option String
  historyId : String

inductive AuditError
  | stringDataRightTruncation

section Append

variable (sha256 : ByteArray → String) (hashtext : String → Int)

def tipHash (tenantId : String) (t : Txn) (d : AuditDb) : String :=
  match (d.rowsOf (d.table.visible t) (ofTenant tenantId)).getLast? with
  | none => genesisHash sha256
  | some row => row.2.rowHash

/-- The INSERT, `RETURNING sequence_number`. -/
def insertHistory (row : HistoryRow) (t : Txn) (d : AuditDb) :
    Option (Except AuditError Nat × AuditDb) :=
  match row.store with
  | none => some (.error .stringDataRightTruncation, d)
  | some row => some (.ok d.nextSequence, d.insert t row)

/-- The row that is inserted under a tip. -/
def HistoryRequest.row (req : HistoryRequest) (prevHash : String) : HistoryRow where
  historyId := req.historyId
  tenantId := req.tenantId
  entityType := req.entityType
  entityId := req.entityId
  action := req.action
  actor := req.actor
  note := req.note
  createdAt := req.now.utc
  prevHash := prevHash
  rowHash := computeRowHash sha256 (rowHashData req.tenantId req.entityType req.entityId req.action
    req.actor req.note req.now prevHash)

def appendHistory (req : HistoryRequest) : Prog AuditDb AuditError (Nat × HistoryRow) := do
  Prog.exec (LockedLog.advisoryXactLock (hashtext req.tenantId))
  let prevHash ← Prog.query (tipHash sha256 req.tenantId)
  let sequenceNumber ← Prog.checked (insertHistory (req.row sha256 prevHash))
  pure (sequenceNumber, req.row sha256 prevHash)

/-- A transaction that appends one row after the other. -/
def appendAll : List HistoryRequest → Prog AuditDb AuditError (List (Nat × HistoryRow))
  | [] => pure []
  | req :: reqs => do
      let record ← appendHistory sha256 hashtext req
      let records ← appendAll reqs
      pure (record :: records)

end Append

/-! ## verifying -/

structure ChainValidationResult where
  isValid : Bool
  rowsChecked : Nat
  firstMismatchSequence : Option Nat
  errorDetail : Option String
deriving DecidableEq

section Verify

variable (sha256 : ByteArray → String)

/-- The loop of `verify_chain`. -/
def verifyRows (expectedPrev : String) (checked : Nat) : List (Nat × HistoryRow) → ChainValidationResult
  | [] => ⟨true, checked, none, none⟩
  | (sequenceNumber, row) :: rows =>
      let recomputed := row.recompute sha256
      if row.prevHash ≠ expectedPrev then
        ⟨false, checked + 1, some sequenceNumber,
          some s!"prev_hash mismatch at sequence_number={sequenceNumber}: expected {expectedPrev}, stored {row.prevHash}"⟩
      else if recomputed ≠ row.rowHash then
        ⟨false, checked + 1, some sequenceNumber,
          some s!"row_hash mismatch at sequence_number={sequenceNumber}: expected {recomputed}, stored {row.rowHash}"⟩
      else verifyRows row.rowHash (checked + 1) rows

/-- The verification of rows that have been read. -/
def verify (rows : List (Nat × HistoryRow)) : ChainValidationResult :=
  verifyRows sha256 (genesisHash sha256) 0 rows

def verifyChain (tenantId : String) (t : Txn) (d : AuditDb) : ChainValidationResult :=
  verify sha256 (d.rowsOf (d.table.visible t) (ofTenant tenantId))

end Verify

end Anoryx.Delta.AuditLog
