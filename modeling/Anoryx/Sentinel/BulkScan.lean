import Anoryx.ReadCommitted.Session
import Anoryx.Sentinel.BudgetCheck

/-!
# Anoryx.Sentinel.BulkScan

The bulk pipeline: a batch of files is submitted (`bulk/api/routes.py`, `submit_batch`), and
workers process a file for every job that they are delivered (`bulk/worker.py`), over the
tables of `bulk/repositories/batch_repository.py`, the Redis counters of `bulk/limits.py`
and the stream of `bulk/queue.py`.

Counters and streams are not part of a transaction.  How the calls outside the database go
comes with a request, and so do the ids that are drawn for it, which are not in use then, and
what a scan makes of a file.  A counter's key would run out a day after its last change; here
none does.  The columns that nothing here reads are left out.

`released`, `checked`, `slots` and `owed` tell what was done; no statement reads them.
-/

namespace Anoryx.Sentinel

open ReadCommitted

/-! ## rows -/

/-- `FILE_STATUSES` -/
inductive FileStatus
  | queued
  | running
  | done
  | blocked
  | deadLettered
deriving DecidableEq

def FileStatus.all : List FileStatus := [queued, running, done, blocked, deadLettered]

/-- `FILE_TERMINAL_STATUSES` -/
def FileStatus.terminal : FileStatus → Bool
  | done | blocked | deadLettered => true
  | queued | running => false

/-- `BATCH_STATUSES` -/
inductive BatchStatus
  | queued
  | running
  | completed
deriving DecidableEq

/-- A row of `batches`, under its `batch_id`. -/
structure BatchRow where
  tenantId : String
  teamId : String
  projectId : String
  agentId : String
  idempotencyKey : String
  model : Option String
  status : BatchStatus
  totalFiles : Nat
deriving DecidableEq

/-- A row of `batch_files`, under its `file_id`. -/
structure BatchFileRow where
  batchId : String
  tenantId : String
  objectKey : String
  status : FileStatus
  outcome : Option String
  attemptCount : Nat
  failureClass : Option String
deriving DecidableEq

structure JobMessage where
  batchId : String
  fileId : String
  tenantId : String
  teamId : String
  projectId : String
  agentId : String
  objectKey : String
  idempotencyKey : String
  model : String
deriving DecidableEq

/-- An event of `emit_batch_event`. -/
structure BatchEvent where
  eventType : String
  tenantId : String
  teamId : String
  projectId : String
  requestId : String
deriving DecidableEq

/-! ## the database, Redis and what was done -/

/-- Whose a reserved file slot is. -/
inductive SlotOwner
  | attempt (t : Txn)
  | file (fileId : String)
deriving DecidableEq

structure BulkDb where
  batches : Table String BatchRow
  files : Table String BatchFileRow
  /-- `sentinel:bulk:limits:batches:…` -/
  batchesCounter : String → Int
  /-- `sentinel:bulk:limits:files:…` -/
  filesCounter : String → Int
  stream : List JobMessage
  dlq : List (JobMessage × String)
  events : List BatchEvent
  /-- The files whose slot was released, with the tenant. -/
  released : List (String × String)
  /-- The files after which it was checked whether their batch is done, and whether it was. -/
  checked : List (String × Bool)
  /-- The reserved slots, with the tenant. -/
  slots : List (SlotOwner × String)
  /-- The files that an attempt has to enqueue. -/
  owed : List (Txn × String)

namespace BulkDb

def empty : BulkDb := ⟨.empty, .empty, fun _ => 0, fun _ => 0, [], [], [], [], [], [], []⟩

instance : Database BulkDb where
  commit t d := { d with batches := d.batches.commit t, files := d.files.commit t }
  rollback t d := { d with batches := d.batches.rollback t, files := d.files.rollback t }

end BulkDb

/-- `BulkSettings`, as far as they are read here. -/
structure BulkSettings where
  maxFilesPerBatch : Nat
  retryMax : Nat
  maxConcurrentBatches : Nat
  maxInflightFiles : Nat
  retryMax_pos : 0 < retryMax

/-! ## calls outside the database -/

/-- An error of Redis: one of its connection or its time limit, or another one. -/
inductive CallError
  | connection
  | other
deriving DecidableEq

/-- How a call to Redis ends. -/
inductive CallFate
  | answers
  /-- with an error, done or not -/
  | breaks (e : CallError) (applied : Bool)

/-- A call to Redis, which is no statement of the database. -/
def redisCall {ε γ : Type} (f : Txn → BulkDb → γ × BulkDb) :
    CallFate → Prog BulkDb ε (Except CallError γ)
  | .answers => Prog.exec fun t d => some (.ok (f t d).1, (f t d).2)
  | .breaks e true => Prog.exec fun t d => some (.error e, (f t d).2)
  | .breaks e false => pure (.error e)

/-! ## object keys (`bulk/storage/keys.py`) -/

def isLowerHex (c : Char) : Bool := ('0' ≤ c && c ≤ '9') || ('a' ≤ c && c ≤ 'f')

/-- What follows `n` hexadecimal digits. -/
def afterHex : Nat → List Char → Option (List Char)
  | 0, cs => some cs
  | n + 1, c :: cs => if isLowerHex c then afterHex n cs else none
  | _ + 1, [] => none

/-- What follows a character. -/
def afterChar (c : Char) : List Char → Option (List Char)
  | c' :: cs => if c' = c then some cs else none
  | [] => none

/-- What follows a UUID. -/
def afterUuid (cs : List Char) : Option (List Char) := do
  let cs ← afterHex 8 cs
  let cs ← afterChar '-' cs
  let cs ← afterHex 4 cs
  let cs ← afterChar '-' cs
  let cs ← afterHex 4 cs
  let cs ← afterChar '-' cs
  let cs ← afterHex 4 cs
  let cs ← afterChar '-' cs
  afterHex 12 cs

/-- What follows an object key. -/
def afterObjectKey (cs : List Char) : Option (List Char) := do
  let cs ← afterUuid cs
  let cs ← afterChar '/' cs
  let cs ← afterUuid cs
  let cs ← afterChar '/' cs
  afterHex 32 cs

/-- `validate_object_key`; the pattern's `$` lets one line feed pass at the end. -/
def validObjectKey (key : String) : Bool :=
  afterObjectKey key.toList = some [] || afterObjectKey key.toList = some ['\n']

/-- `str.strip` -/
def strip (s : String) : String :=
  String.ofList ((s.toList.dropWhile isSpace).reverse.dropWhile isSpace).reverse

def keyBelongsToTenant (key tenantId : String) : Bool :=
  validObjectKey key && String.ofList (key.toList.takeWhile (· ≠ '/')) = lower (strip tenantId)

/-! ## statements of the repository -/

def getFile (tenantId fileId : String) (t : Txn) (d : BulkDb) : Option BatchFileRow :=
  (d.files.visible t fileId).filter fun row => row.tenantId = tenantId

def getByIdempotencyKey (tenantId idempotencyKey : String) (t : Txn) (d : BulkDb) : Option (String × BatchRow) :=
  (d.batches.scan t).find? fun p => p.2.tenantId = tenantId && p.2.idempotencyKey = idempotencyKey

def countFilesByStatus (tenantId batchId : String) (t : Txn) (d : BulkDb) : List (FileStatus × Nat) :=
  (FileStatus.all.map fun status => (status, (d.files.scan t).countP fun p =>
    p.2.tenantId = tenantId && p.2.batchId = batchId && p.2.status = status)).filter fun p => 0 < p.2

/-- The columns of a file that `set_file_status` has assigned: a column is set when its new value
differs from the loaded one. -/
def BatchFileRow.flush (loaded new row : BatchFileRow) : BatchFileRow :=
  { row with
    status := flushed loaded.status new.status row.status
    outcome := flushed loaded.outcome new.outcome row.outcome
    attemptCount := flushed loaded.attemptCount new.attemptCount row.attemptCount
    failureClass := flushed loaded.failureClass new.failureClass row.failureClass }

/-- `UPDATE batch_files SET … WHERE file_id = …`, for the row that was loaded. -/
def updateFile (tenantId fileId : String) (loaded new : BatchFileRow) (t : Txn) (d : BulkDb) :
    Option (Option BatchFileRow × BulkDb) :=
  (d.files.updateWhere t fileId (fun row => row.tenantId = tenantId) (loaded.flush new)).map fun p =>
    (p.1, { d with files := p.2 })

/-- `NOT EXISTS (SELECT 1 FROM batch_files WHERE … status NOT IN …)` -/
def noneUnfinished (tenantId batchId : String) (t : Txn) (d : BulkDb) : Bool :=
  (d.files.scan t).all fun p => !(p.2.tenantId = tenantId && p.2.batchId = batchId) || p.2.status.terminal

def tryCompleteBatch (job : JobMessage) (t : Txn) (d : BulkDb) : Option (Bool × BulkDb) :=
  (d.batches.updateWhere t job.batchId
      (fun row => row.tenantId = job.tenantId && row.status ≠ .completed && noneUnfinished job.tenantId job.batchId t d)
      fun row => { row with status := .completed }).map fun p =>
    (p.1.isSome, { d with batches := p.2, checked := d.checked ++ [(job.fileId, p.1.isSome)] })

/-- The unique index of `batches`. -/
def BatchRow.sameSubmission (row other : BatchRow) : Bool :=
  other.tenantId = row.tenantId && other.idempotencyKey = row.idempotencyKey

/-- `INSERT INTO batches`, under an id that is not in use: `false` when there is such a batch. -/
def insertBatch (batchId : String) (row : BatchRow) (t : Txn) (d : BulkDb) : Option (Bool × BulkDb) :=
  if d.batches.keys.any fun k => !d.batches.free t k && (d.batches.newest k).any row.sameSubmission then none
  else if (d.batches.scan t).any fun p => row.sameSubmission p.2 then some (false, d)
  else (d.batches.insertOrIgnore t batchId row).bind fun p =>
    if p.1 then some (true, { d with batches := p.2 }) else none

/-- `INSERT INTO batch_files`, under an id that is not in use. -/
def insertFile (fileId : String) (row : BatchFileRow) (t : Txn) (d : BulkDb) : Option (Unit × BulkDb) :=
  (d.files.insertOrIgnore t fileId row).bind fun p => if p.1 then some ((), { d with files := p.2 }) else none

/-- `XADD` of a job -/
def xadd (job : JobMessage) (t : Txn) (d : BulkDb) : Unit × BulkDb :=
  ((), { d with stream := d.stream ++ [job], owed := d.owed.filter (· ≠ (t, job.fileId)) })

/-- `_emit`: an error is logged, and that is all. -/
def emit {ε : Type} (succeeds : Bool) (event : BatchEvent) : Prog BulkDb ε Unit :=
  if succeeds then Prog.exec fun _ d => some ((), { d with events := d.events ++ [event] })
  else pure ()

/-! ## the counters (`bulk/limits.py`) -/

def incrBy (counter : String → Int) (tenantId : String) (amount : Int) : String → Int :=
  Function.update counter tenantId (counter tenantId + amount)

def decrFloor (counter : String → Int) (tenantId : String) (amount : Nat) : String → Int :=
  Function.update counter tenantId (max (counter tenantId - amount) 0)

/-- `INCR` of the batches. -/
def incrBatches (tenantId : String) (_ : Txn) (d : BulkDb) : Int × BulkDb :=
  (d.batchesCounter tenantId + 1, { d with batchesCounter := incrBy d.batchesCounter tenantId 1 })

/-- `DECR` of the batches. -/
def decrBatches (tenantId : String) (_ : Txn) (d : BulkDb) : Unit × BulkDb :=
  ((), { d with batchesCounter := incrBy d.batchesCounter tenantId (-1) })

def releaseBatchSlot (tenantId : String) (_ : Txn) (d : BulkDb) : Unit × BulkDb :=
  ((), { d with batchesCounter := decrFloor d.batchesCounter tenantId 1 })

/-- `INCRBY` of the files. -/
def incrFiles (tenantId : String) (n : Nat) (t : Txn) (d : BulkDb) : Int × BulkDb :=
  (d.filesCounter tenantId + n,
    { d with
      filesCounter := incrBy d.filesCounter tenantId n
      slots := d.slots ++ List.replicate n (.attempt t, tenantId) })

/-- `DECRBY` of the files, for the slots that the attempt has reserved. -/
def decrFiles (tenantId : String) (n : Nat) (t : Txn) (d : BulkDb) : Unit × BulkDb :=
  ((), { d with
    filesCounter := incrBy d.filesCounter tenantId (-n)
    slots := d.slots.filter (· ≠ (.attempt t, tenantId)) })

/-- `_decr_floor` of the files, for the slots that the attempt has reserved. -/
def giveBackFiles (tenantId : String) (n : Nat) (t : Txn) (d : BulkDb) : Unit × BulkDb :=
  ((), { d with
    filesCounter := decrFloor d.filesCounter tenantId n
    slots := d.slots.filter (· ≠ (.attempt t, tenantId)) })

def releaseFile (job : JobMessage) (_ : Txn) (d : BulkDb) : Unit × BulkDb :=
  ((), { d with
    filesCounter := decrFloor d.filesCounter job.tenantId 1
    released := d.released ++ [(job.fileId, job.tenantId)]
    slots := d.slots.erase (.file job.fileId, job.tenantId) })

/-- `EXPIRE` puts off the end of a counter's key, which is not in the model. -/
def expire (_ : Txn) (d : BulkDb) : Unit × BulkDb := ((), d)

/-- How the calls of `reserve_batch` end. -/
structure ReserveFate where
  incr : CallFate
  expireBatches : CallFate
  decr : CallFate
  incrby : CallFate
  expireFiles : CallFate
  decrby : CallFate
  decrAfter : CallFate

/-- How `reserve_batch` ends. -/
inductive Reservation
  | reserved
  | limitExceeded
  | broke (e : CallError)
deriving DecidableEq

def reserveBatch {ε : Type} (settings : BulkSettings) (tenantId : String) (fileCount : Nat) (fate : ReserveFate) :
    Prog BulkDb ε Reservation := do
  match ← redisCall (incrBatches tenantId) fate.incr with
  | .error e => pure (.broke e)
  | .ok newBatches =>
  match ← redisCall expire fate.expireBatches with
  | .error e => pure (.broke e)
  | .ok _ =>
  if settings.maxConcurrentBatches < newBatches then do
    match ← redisCall (decrBatches tenantId) fate.decr with
    | .error e => pure (.broke e)
    | .ok _ => pure .limitExceeded
  else do
  match ← redisCall (incrFiles tenantId fileCount) fate.incrby with
  | .error e => pure (.broke e)
  | .ok newFiles =>
  match ← redisCall expire fate.expireFiles with
  | .error e => pure (.broke e)
  | .ok _ =>
  if settings.maxInflightFiles < newFiles then do
    match ← redisCall (decrFiles tenantId fileCount) fate.decrby with
    | .error e => pure (.broke e)
    | .ok _ =>
    match ← redisCall (decrBatches tenantId) fate.decrAfter with
    | .error e => pure (.broke e)
    | .ok _ => pure .limitExceeded
  else pure .reserved

/-- `release_reservation`, and its caller's `except`. -/
def releaseReservation {ε : Type} (tenantId : String) (fileCount : Nat) (files batches : CallFate) :
    Prog BulkDb ε Unit := do
  match ← redisCall (giveBackFiles tenantId fileCount) files with
  | .error _ => pure ()
  | .ok _ => do
      let _ ← redisCall (releaseBatchSlot tenantId) batches
      pure ()

/-! ## submission -/

/-- How a COMMIT ends. -/
inductive CommitFate
  | completes
  /-- with an error, done or not -/
  | breaks (committed : Bool)

/-- How the session of `_create_or_get` ends. -/
inductive CreateFate
  | breaks
  | commits (fate : CommitFate)

/-- A `POST /v1/batches`, with the ids that are drawn for it. -/
structure SubmitCall where
  tenantId : String
  teamId : String
  projectId : String
  agentId : String
  objectKeys : List String
  idempotencyKey : String
  model : Option String
  batchId : String
  fileId : String → String
  requestId : String
  reserve : ReserveFate
  create : CreateFate
  release : CallFate
  releaseBatch : CallFate
  enqueue : String → CallFate
  emits : Bool

/-- What a request raises. -/
inductive BulkError
  | invalidRequest
  | rateLimitExceeded
  | internalError
  /-- the row that was loaded is gone -/
  | staleData
  | redis (e : CallError)
deriving DecidableEq

/-- A response with a 2xx status. -/
structure SubmitAnswer where
  statusCode : Nat
  batchId : String
  status : BatchStatus
  totalFiles : Nat
  counts : List (FileStatus × Nat)
deriving DecidableEq

namespace SubmitCall

variable (call : SubmitCall)

/-- `list(dict.fromkeys(body.object_keys))` -/
def keys : List String := call.objectKeys.eraseDups

def batchRow : BatchRow :=
  ⟨call.tenantId, call.teamId, call.projectId, call.agentId, call.idempotencyKey, call.model, .queued, call.keys.length⟩

def fileRow (objectKey : String) : BatchFileRow :=
  ⟨call.batchId, call.tenantId, objectKey, .queued, none, 0, none⟩

def job (objectKey : String) : JobMessage :=
  ⟨call.batchId, call.fileId objectKey, call.tenantId, call.teamId, call.projectId, call.agentId, objectKey,
    call.idempotencyKey, call.model.getD ""⟩

def submitted : BatchEvent := ⟨"batch_submitted", call.tenantId, call.teamId, call.projectId, call.requestId⟩

def answerFor (batchId : String) (batch : BatchRow) (counts : List (FileStatus × Nat)) : SubmitAnswer :=
  ⟨200, batchId, batch.status, (counts.map Prod.snd).sum, counts⟩

/-- `_fetch_existing_optional` -/
def fetchExisting : Prog BulkDb BulkError (Option SubmitAnswer) := do
  let existing ← Prog.query (getByIdempotencyKey call.tenantId call.idempotencyKey)
  match existing with
  | none => pure none
  | some (batchId, batch) => do
      let counts ← Prog.query (countFilesByStatus call.tenantId batchId)
      pure (some (answerFor batchId batch counts))

end SubmitCall

/-- How `_create_or_get` ends. -/
inductive Creation
  | found (answer : SubmitAnswer)
  | created
  | integrityError
  | failed

section Submit

variable (call : SubmitCall)

def insertFiles : List String → Prog BulkDb BulkError Unit
  | [] => pure ()
  | key :: keys => do
      Prog.exec (insertFile (call.fileId key) (call.fileRow key))
      insertFiles keys

/-- The COMMIT of a batch: the slots of the attempt are its files' from now on, which are to be
enqueued. -/
def commitBatch (reserved : Bool) (t : Txn) (d : BulkDb) : Option (Unit × BulkDb) :=
  some ((), { Database.commit t d with
    slots := if reserved then d.slots.filter (· ≠ (.attempt t, call.tenantId)) ++
      call.keys.map fun key => (.file (call.fileId key), call.tenantId) else d.slots
    owed := d.owed ++ call.keys.map fun key => (t, call.fileId key) })

/-- The end of a session whose rows are in. -/
def endCreation (reserved : Bool) : CommitFate → Prog BulkDb BulkError Creation
  | .completes => do
      Prog.exec (commitBatch call reserved)
      pure .created
  | .breaks true => do
      Prog.exec (commitBatch call reserved)
      pure .failed
  | .breaks false => do
      Prog.rollbackWork
      pure .failed

/-- `create_batch`, in the session of `_create_or_get` -/
def createBatch (reserved : Bool) (fate : CommitFate) : Prog BulkDb BulkError Creation := do
  let inserted ← Prog.exec (insertBatch call.batchId call.batchRow)
  if inserted then do
    insertFiles call call.keys
    endCreation call reserved fate
  else do
    Prog.rollbackWork
    pure .integrityError

def createOrGet (reserved : Bool) : Prog BulkDb BulkError Creation :=
  match call.create with
  | .breaks => pure .failed
  | .commits fate => do
      let existing ← call.fetchExisting
      match existing with
      | some answer => pure (.found answer)
      | none => createBatch call reserved fate

/-- `enqueue_files`, for the jobs of a new batch -/
def enqueueFiles : List String → Prog BulkDb BulkError Unit
  | [] => pure ()
  | key :: keys => do
      match ← redisCall (xadd (call.job key)) (call.enqueue key) with
      | .error _ => Prog.raise .internalError
      | .ok _ => enqueueFiles keys

def giveBack (reserved : Bool) : Prog BulkDb BulkError Unit :=
  if reserved then releaseReservation call.tenantId call.keys.length call.release call.releaseBatch else pure ()

/-- What follows the reservation. -/
def createAndEnqueue (reserved : Bool) : Prog BulkDb BulkError SubmitAnswer := do
  let creation ← createOrGet call reserved
  match creation with
  | .created => do
      enqueueFiles call call.keys
      emit call.emits call.submitted
      pure ⟨202, call.batchId, .queued, call.keys.length, [(.queued, call.keys.length)]⟩
  | .found answer => do
      giveBack call reserved
      pure answer
  | .integrityError => do
      let existing ← call.fetchExisting
      match existing with
      | none => Prog.raise .internalError
      | some answer => do
          giveBack call reserved
          pure answer
  | .failed => do
      giveBack call reserved
      Prog.raise .internalError

def submitBatch (settings : BulkSettings) : Prog BulkDb BulkError SubmitAnswer :=
  if 1 ≤ call.keys.length && call.keys.length ≤ settings.maxFilesPerBatch &&
      call.keys.all fun key => keyBelongsToTenant key call.tenantId then do
    let existing ← call.fetchExisting
    match existing with
    | some answer => pure answer
    | none => do
        let reservation ← reserveBatch settings call.tenantId call.keys.length call.reserve
        match reservation with
        | .limitExceeded => Prog.raise .rateLimitExceeded
        | .broke .other => Prog.raise .internalError
        | .broke .connection => createAndEnqueue call false
        | .reserved => createAndEnqueue call true
  else Prog.raise .invalidRequest

end Submit

end Anoryx.Sentinel
