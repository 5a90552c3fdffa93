import Anoryx.Sentinel.BulkScan

/-!
# Anoryx.Sentinel.BulkWorker

The workers of the bulk pipeline (`bulk/worker.py`): a job is a file to process, and its
delivery is at least once, so that a worker may be at a file that another one has processed
or is still processing.

The bulk system serves submissions and jobs, any number of them at a time.
-/

namespace Anoryx.Sentinel

open ReadCommitted

/-- What `process_file` makes of a file. -/
inductive FileOutcome
  | allowed
  | redacted
  | blocked
deriving DecidableEq

def FileOutcome.status : FileOutcome → FileStatus
  | allowed | redacted => .done
  | blocked => .blocked

def FileOutcome.outcome : FileOutcome → String
  | allowed => "allowed"
  | redacted => "redacted"
  | blocked => "blocked"

/-- How the processing of a job goes. -/
structure JobFate where
  /-- the fetch and the inspection, or the class of what went wrong there -/
  inspection : Except String FileOutcome
  requeue : CallFate
  deadLetter : CallFate
  /-- the event of the file is emitted -/
  emitsFile : Bool
  /-- `batch_completed` is emitted -/
  emitsCompleted : Bool
  releaseFile : CallFate
  releaseBatch : CallFate

/-- What `process_job` returns. -/
inductive JobResult
  | finished (status : FileStatus)
  | retry
  | skipped
deriving DecidableEq

namespace JobMessage

variable (job : JobMessage)

/-- An event of `_emit`. -/
def event (eventType : String) : BatchEvent := ⟨eventType, job.tenantId, job.teamId, job.projectId, job.fileId⟩

/-- `batch_completed` -/
def completed : BatchEvent := job.event "batch_completed"

end JobMessage

section Worker

variable (job : JobMessage) (fate : JobFate)

/-- `XADD` to the DLQ -/
def deadLetterJob (failureClass : String) (_ : Txn) (d : BulkDb) : Unit × BulkDb :=
  ((), { d with dlq := d.dlq ++ [(job, failureClass)] })

/-- A call to Redis that has to succeed. -/
def redisOrRaise {γ : Type} (f : Txn → BulkDb → γ × BulkDb) (fate : CallFate) : Prog BulkDb BulkError Unit := do
  match ← redisCall f fate with
  | .error e => Prog.raise (.redis e)
  | .ok _ => pure ()

/-- The UPDATE of the loaded row, if a column of it changes. -/
def flushFile (loaded new : BatchFileRow) : Prog BulkDb BulkError Unit :=
  if new = loaded then pure ()
  else do
    let updated ← Prog.exec (updateFile job.tenantId job.fileId loaded new)
    match updated with
    | none => Prog.raise .staleData
    | some _ => pure ()

/-- `set_file_status`, in a session of its own; a file that is not there stays away. -/
def setFileStatus (new : BatchFileRow → BatchFileRow) : Prog BulkDb BulkError Unit := do
  let loaded ← Prog.query (getFile job.tenantId job.fileId)
  match loaded with
  | none => Prog.commitWork
  | some row => do
      flushFile job row (new row)
      Prog.commitWork

def completeIfDone : Prog BulkDb BulkError Bool := do
  let won ← Prog.exec (tryCompleteBatch job)
  Prog.commitWork
  pure won

def releaseSlots (batchComplete : Bool) : Prog BulkDb BulkError Unit := do
  match ← redisCall (releaseFile job) fate.releaseFile with
  | .error _ => pure ()
  | .ok _ =>
  if batchComplete then do
    let _ ← redisCall (releaseBatchSlot job.tenantId) fate.releaseBatch
    pure ()
  else pure ()

/-- What follows the terminal status of a file. -/
def closeFile (eventType : String) : Prog BulkDb BulkError Unit := do
  let won ← completeIfDone job
  emit fate.emitsFile (job.event eventType)
  if won then do
    emit fate.emitsCompleted job.completed
    releaseSlots job fate true
  else releaseSlots job fate false

def finalize (outcome : FileOutcome) : Prog BulkDb BulkError Unit := do
  setFileStatus job fun row => { row with status := outcome.status, outcome := some outcome.outcome }
  closeFile job fate (if outcome = .blocked then "batch_file_blocked" else "batch_file_processed")

def handleFailure (settings : BulkSettings) (attempt : Nat) (failureClass : String) :
    Prog BulkDb BulkError JobResult :=
  if attempt < settings.retryMax then do
    setFileStatus job fun row => { row with status := .queued }
    redisOrRaise (xadd job) fate.requeue
    pure .retry
  else do
    setFileStatus job fun row => { row with status := .deadLettered, failureClass := some failureClass }
    redisOrRaise (deadLetterJob job failureClass) fate.deadLetter
    closeFile job fate "batch_file_dead_lettered"
    pure (.finished .deadLettered)

/-- What is done with a file that is claimed. -/
def inspectFile (settings : BulkSettings) (claimed : BatchFileRow) : Prog BulkDb BulkError JobResult :=
  if job.objectKey ≠ claimed.objectKey || !keyBelongsToTenant claimed.objectKey job.tenantId then
    handleFailure job fate settings settings.retryMax "key_tenant_mismatch"
  else
    match fate.inspection with
    | .error failureClass => handleFailure job fate settings claimed.attemptCount failureClass
    | .ok outcome => do
        finalize job fate outcome
        pure (.finished outcome.status)

def processJob (settings : BulkSettings) : Prog BulkDb BulkError JobResult := do
  let found ← Prog.query (getFile job.tenantId job.fileId)
  match found with
  | none => pure .skipped
  | some file =>
  if file.status.terminal then pure .skipped
  else do
    flushFile job file { file with status := .running, attemptCount := file.attemptCount + 1 }
    Prog.commitWork
    inspectFile job fate settings { file with status := .running, attemptCount := file.attemptCount + 1 }

end Worker

/-! ## the system -/

inductive BulkRequest
  | submit (call : SubmitCall)
  | process (job : JobMessage) (fate : JobFate)

inductive BulkAnswer
  | submitted (answer : SubmitAnswer)
  | processed (result : JobResult)

def serveBulk (settings : BulkSettings) : BulkRequest → Prog BulkDb BulkError BulkAnswer
  | .submit call => do
      let answer ← submitBatch call settings
      pure (.submitted answer)
  | .process job fate => do
      let result ← processJob job fate settings
      pure (.processed result)

abbrev BulkSys := Sys BulkDb BulkError BulkRequest BulkAnswer

end Anoryx.Sentinel
