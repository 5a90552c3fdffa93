import Anoryx.Calendar
import Anoryx.PyJson.SortKeys
import Anoryx.ReadCommitted.Session
import Anoryx.Rendly.Registry

/-!
# Anoryx.Rendly.Huddles

The huddles of a tenant: the manager that holds the live ones (`realtime/huddle.py`), the
handlers that start, signal in and leave them (`realtime/pipeline.py`, `realtime/ws.py`), and
the record of one that has ended (`persistence/huddle_repo.py`).

What a handler does between two awaits is one statement, so a huddle that it has found may have
changed when it goes on.  The manager is memory, and no rollback takes back what was done to
it; the archive is a transaction of its own, which may fail at any of its statements.  A set of
users is a list without repetition.  The frames that are sent are left out.
-/

namespace Anoryx.Rendly

open ReadCommitted PyJson Function

/-! ## the manager -/

inductive HuddleState
  | ringing
  | accepted
  | active
  | declined
  | ended
  | busy
deriving DecidableEq

def terminalStates : List HuddleState := [.declined, .ended]

/-- A tenant and a huddle's id -/
abbrev HuddleKey := String × String

/-- A huddle, under its tenant and its id -/
structure Huddle where
  callerId : String
  liveIds : List String
  roster : List String
  state : HuddleState
  createdAt : DateTime
deriving DecidableEq

def Huddle.calleeId (huddle : Huddle) : Option String :=
  if huddle.liveIds.length = 2 ∧ huddle.callerId ∈ huddle.liveIds then
    (huddle.liveIds.filter fun user => user ≠ huddle.callerId).head?
  else none

def Huddle.peerOf (huddle : Huddle) (userId : String) : Option String :=
  if huddle.liveIds.length ≠ 2 ∨ userId ∉ huddle.liveIds then none
  else (huddle.liveIds.filter fun user => user ≠ userId).head?

/-- The manager.  A huddle stays an object when it is released. -/
structure HuddleManager where
  objects : HuddleKey → Option Huddle
  registered : HuddleKey → Bool
  byUser : String × String → Option String

namespace HuddleManager

variable (manager : HuddleManager)

def empty : HuddleManager where
  objects _ := none
  registered _ := false
  byUser _ := none

def activeHuddleId (tenantId userId : String) : Option String := manager.byUser (tenantId, userId)

def get (key : HuddleKey) : Option Huddle := if manager.registered key then manager.objects key else none

/-- `get_active`, with the huddle's id -/
def getActive (tenantId userId : String) : Option (String × Huddle) :=
  (manager.byUser (tenantId, userId)).bind fun huddleId => (manager.get (tenantId, huddleId)).map fun huddle => (huddleId, huddle)

def start (key : HuddleKey) (callerId : String) (participantIds : List String) (now : DateTime) : HuddleManager where
  objects := update manager.objects key
    (some ⟨callerId, (callerId :: participantIds).dedup, (callerId :: participantIds).dedup, .ringing, now⟩)
  registered := update manager.registered key true
  byUser user := if user.1 = key.1 ∧ user.2 ∈ callerId :: participantIds then some key.2 else manager.byUser user

/-- The users that are mapped to the huddle are mapped to nothing. -/
def unmap (key : HuddleKey) (userIds : List String) (user : String × String) : Option String :=
  if user.1 = key.1 ∧ user.2 ∈ userIds ∧ manager.byUser user = some key.2 then none else manager.byUser user

/-- `transition`, with `_release` -/
def transition (key : HuddleKey) (huddle : Huddle) (state : HuddleState) : HuddleManager where
  objects := update manager.objects key (some { huddle with state := state })
  registered := if state ∈ terminalStates then update manager.registered key false else manager.registered
  byUser := if state ∈ terminalStates then manager.unmap key huddle.liveIds else manager.byUser

def removeParticipant (key : HuddleKey) (huddle : Huddle) (userId : String) : HuddleManager where
  objects := update manager.objects key
    (some { huddle with liveIds := huddle.liveIds.filter fun user => user ≠ userId })
  registered := manager.registered
  byUser := manager.unmap key [userId]

end HuddleManager

/-! ## the database -/

/-- A row of `huddle_chain_state`, under its tenant -/
structure HuddleChainRow where
  nextSeq : Nat
  lastRowHash : Option String
deriving DecidableEq

/-- A row of `huddles`, under its tenant and its id, with its rows of `huddle_participants`; its `state` is `ended`. -/
structure HuddleRow where
  tenantId : String
  huddleId : String
  callerId : String
  calleeId : Option String
  participantIds : List String
  seq : Nat
  createdAt : DateTime
  endedAt : DateTime
  prevRecordHash : String
  contentHash : String
deriving DecidableEq

structure HuddleDb where
  registry : ConnectionRegistry
  manager : HuddleManager
  chainState : Table String HuddleChainRow
  huddles : Table HuddleKey HuddleRow
  /-- The huddle that a handler has left to end it.  No statement reads it. -/
  ending : Txn → Option HuddleKey
  /-- How often a huddle was archived.  No statement reads it. -/
  archivals : HuddleKey → Nat

def HuddleDb.empty : HuddleDb where
  registry := ConnectionRegistry.empty
  manager := HuddleManager.empty
  chainState := Table.empty
  huddles := Table.empty
  ending _ := none
  archivals _ := 0

instance : Database HuddleDb where
  commit t d :=
    { d with
      chainState := d.chainState.commit t
      huddles := d.huddles.commit t
      archivals := fun key => if (d.huddles.version t key).isSome then d.archivals key + 1 else d.archivals key }
  rollback t d := { d with chainState := d.chainState.rollback t, huddles := d.huddles.rollback t }

inductive HuddleError
deriving DecidableEq

abbrev HuddleProg := Prog HuddleDb HuddleError

/-! ## calls -/

/-- A connection that is registered -/
structure OpenSocket where
  conn : Connection

structure HuddleInviteFrame where
  peerUserId : String
  participantIds : Option (List String)

/-- A `huddle.invite` frame on a connection; `none` is a frame that is not well formed. -/
structure HuddleInvite where
  tenantId : String
  userId : String
  scopes : List String
  frame : Option HuddleInviteFrame
  huddleId : String
  now : DateTime

/-- `SignalSendFrame`, without its signal -/
structure SignalSendFrame where
  huddleId : String
  toUserId : Option String

/-- A `signal.send` frame on a connection -/
structure SignalSend where
  tenantId : String
  userId : String
  frame : Option SignalSendFrame

/-- Where the archive fails, if it does -/
inductive ArchiveFate
  | noSession
  | failsSeeding
  | failsLocking
  | failsInserting
  | failsCommitting
  /-- the record is committed, and the answer is lost -/
  | unanswered
  | archives
deriving DecidableEq

/-- A `huddle.hangup` frame on a connection -/
structure HuddleHangup where
  tenantId : String
  userId : String
  frame : Option String
  endedAt : DateTime
  fate : ArchiveFate

/-- The end of a connection -/
structure CloseSocket where
  id : ConnId
  tenantId : String
  userId : String
  endedAt : DateTime
  fate : ArchiveFate

inductive HuddleRequest
  | openSocket (call : OpenSocket)
  | invite (call : HuddleInvite)
  | signal (call : SignalSend)
  | hangup (call : HuddleHangup)
  | closeSocket (call : CloseSocket)

structure HuddleArchive where
  huddleId : String
  createdAt : DateTime
  seq : Nat
  prevRecordHash : String
  contentHash : String
deriving DecidableEq

inductive HuddleAnswer
  | registered
  | closed
  /-- an `error` frame, with its `error_code` -/
  | error (errorCode : String)
  /-- a `huddle.update` to the caller alone: who is busy -/
  | busy (participantId : String)
  /-- a `huddle.update` of a huddle -/
  | update (huddleId : String) (state : HuddleState) (archive : Option HuddleArchive)
  | relayed (target : String)
deriving DecidableEq

/-! ## invitations -/

def HuddleInviteFrame.inviteeOrder (frame : HuddleInviteFrame) : List String :=
  frame.peerUserId :: frame.participantIds.getD []

/-- Why an invitation is turned down, if it is -/
def HuddleInvite.refusal (call : HuddleInvite) (frame : HuddleInviteFrame) (d : HuddleDb) : Option HuddleAnswer :=
  if call.userId ∈ frame.inviteeOrder ∨ ¬frame.inviteeOrder.Nodup then some (.error "invalid_message")
  else if frame.inviteeOrder.any fun invitee => (d.registry.userConnections call.tenantId invitee).isEmpty then
    some (.error "huddle_unavailable")
  else if (d.manager.activeHuddleId call.tenantId call.userId).isSome then some (.busy frame.peerUserId)
  else (frame.inviteeOrder.find? fun invitee => (d.manager.activeHuddleId call.tenantId invitee).isSome).map .busy

/-- What `handle_huddle_invite` does before it sends anything; the id is new. -/
def placeHuddle (call : HuddleInvite) (frame : HuddleInviteFrame) (_ : Txn) (d : HuddleDb) : Option (HuddleAnswer × HuddleDb) :=
  match call.refusal frame d with
  | some answer => some (answer, d)
  | none =>
      if d.manager.objects (call.tenantId, call.huddleId) = none then
        some (.update call.huddleId .ringing none,
          { d with manager := d.manager.start (call.tenantId, call.huddleId) call.userId frame.inviteeOrder call.now })
      else none

def handleHuddleInvite (call : HuddleInvite) : HuddleProg HuddleAnswer :=
  match call.frame with
  | none => pure (.error "invalid_message")
  | some frame =>
      if "huddle:initiate" ∉ call.scopes then pure (.error "unauthorized") else Prog.exec (placeHuddle call frame)

/-! ## signals -/

def getParticipantHuddle (tenantId huddleId userId : String) (d : HuddleDb) : Option Huddle :=
  (d.manager.get (tenantId, huddleId)).filter fun huddle => userId ∈ huddle.liveIds

/-- To whom a signal goes -/
def signalTarget (call : SignalSend) (frame : SignalSendFrame) (_ : Txn) (d : HuddleDb) : Except HuddleAnswer String :=
  match getParticipantHuddle call.tenantId frame.huddleId call.userId d with
  | none => .error (.error "huddle_unavailable")
  | some huddle =>
      match frame.toUserId with
      | none =>
          match huddle.peerOf call.userId with
          | none => .error (.error "invalid_message")
          | some target => .ok target
      | some target =>
          if target = call.userId ∨ target ∉ huddle.liveIds then .error (.error "huddle_unavailable") else .ok target

/-- The state that a signal leads to, if it leads to another -/
def signalledState (huddle : Huddle) (userId : String) : Option HuddleState :=
  if huddle.liveIds.length = 2 then
    if huddle.state = .ringing ∧ some userId = huddle.calleeId then some .accepted
    else if huddle.state = .accepted ∧ userId = huddle.callerId then some .active
    else none
  else if huddle.state = .ringing then some .active
  else none

/-- What `handle_signal_send` does when the signal is relayed -/
def inferState (key : HuddleKey) (userId : String) (_ : Txn) (d : HuddleDb) : Option (Option HuddleState × HuddleDb) :=
  match d.manager.objects key with
  | none => some (none, d)
  | some huddle =>
      match signalledState huddle userId with
      | none => some (none, d)
      | some state => some (some state, { d with manager := d.manager.transition key huddle state })

def handleSignalSend (call : SignalSend) : HuddleProg HuddleAnswer :=
  match call.frame with
  | none => pure (.error "invalid_message")
  | some frame => do
      let target ← Prog.query (signalTarget call frame)
      match target with
      | .error answer => pure answer
      | .ok target => do
          let state ← Prog.exec (inferState (call.tenantId, frame.huddleId) call.userId)
          match state with
          | none => pure (.relayed target)
          | some state => pure (.update frame.huddleId state none)

/-! ## the archive -/

section Archive

variable (sha256 : ByteArray → String)

def huddleGenesisHash : String := sha256 "rendly:huddles:genesis:v1".toUTF8

/-- `HUDDLE_CANONICAL_FIELDS`, of a row -/
def huddleCanonicalFields (row : HuddleRow) : List (String × Value Empty) :=
  [("tenant_id", .str row.tenantId), ("huddle_id", .str row.huddleId), ("participant_ids", .arr (row.participantIds.map .str)),
    ("state", .str "ended"), ("seq", .int row.seq), ("created_at", .str row.createdAt.isoformat),
    ("ended_at", .str row.endedAt.isoformat), ("prev_record_hash", .str row.prevRecordHash)]

/-- `compute_row_hash` -/
def huddleHash (row : HuddleRow) : String :=
  sha256 (dumps ⟨false, false⟩ (Value.obj (huddleCanonicalFields row)).sortKeys).toUTF8

/-- The link to the tip of the tenant's chain -/
def huddleLink (chain : HuddleChainRow) : String :=
  match chain.lastRowHash with
  | none => huddleGenesisHash sha256
  | some hash => if hash = "" then huddleGenesisHash sha256 else hash

def calleeOf (callerId : String) (participantIds : List String) : Option String :=
  if participantIds.length = 2 then
    match participantIds.filter fun user => user ≠ callerId with
    | [other] => some other
    | _ => none
  else none

/-- The record of a huddle, without its hash -/
def unhashedHuddleRow (key : HuddleKey) (huddle : Huddle) (endedAt : DateTime) (chain : HuddleChainRow) : HuddleRow :=
  ⟨key.1, key.2, huddle.callerId, calleeOf huddle.callerId (huddle.roster.insertionSort (· ≤ ·)),
    huddle.roster.insertionSort (· ≤ ·), chain.nextSeq, huddle.createdAt, endedAt, huddleLink sha256 chain, ""⟩

/-- The record of a huddle, under the next number of its tenant -/
def huddleRow (key : HuddleKey) (huddle : Huddle) (endedAt : DateTime) (chain : HuddleChainRow) : HuddleRow :=
  { unhashedHuddleRow sha256 key huddle endedAt chain with
    contentHash := huddleHash sha256 (unhashedHuddleRow sha256 key huddle endedAt chain) }

/-- `INSERT INTO huddle_chain_state … ON CONFLICT DO NOTHING` -/
def seedChainState (tenantId : String) (t : Txn) (d : HuddleDb) : Option (Bool × HuddleDb) :=
  (d.chainState.insertOrIgnore t tenantId ⟨0, none⟩).map fun p => (p.1, { d with chainState := p.2 })

/-- `SELECT … FOR UPDATE` of the chain's tip -/
def lockChainState (tenantId : String) (t : Txn) (d : HuddleDb) : Option (Option HuddleChainRow × HuddleDb) :=
  (d.chainState.updateWhere t tenantId (fun _ => true) id).map fun p => (p.1, { d with chainState := p.2 })

/-- The INSERT into `huddles` and into `huddle_participants` -/
def insertHuddleRow (row : HuddleRow) (t : Txn) (d : HuddleDb) : Option (Bool × HuddleDb) :=
  (d.huddles.insertOrIgnore t (row.tenantId, row.huddleId) row).map fun p => (p.1, { d with huddles := p.2 })

/-- The UPDATE of the chain's tip -/
def advanceChainState (row : HuddleRow) (t : Txn) (d : HuddleDb) : Option (Option HuddleChainRow × HuddleDb) :=
  (d.chainState.updateWhere t row.tenantId (fun _ => true) fun _ => ⟨row.seq + 1, some row.contentHash⟩).map fun p =>
    (p.1, { d with chainState := p.2 })

/-- An exception ends the session, and is not passed on. -/
def giveUp : HuddleProg (Option HuddleArchive) := do
  Prog.rollbackWork
  pure none

def HuddleRow.archive (row : HuddleRow) : HuddleArchive :=
  ⟨row.huddleId, row.createdAt, row.seq, row.prevRecordHash, row.contentHash⟩

/-- The commit of a record that is written -/
def commitArchive (row : HuddleRow) (fate : ArchiveFate) : HuddleProg (Option HuddleArchive) :=
  match fate with
  | .failsCommitting => giveUp
  | .unanswered => do
      Prog.commitWork
      pure none
  | _ => do
      Prog.commitWork
      pure (some row.archive)

/-- `archive_ended_huddle`, from where the tip is locked -/
def writeHuddleRow (row : HuddleRow) (fate : ArchiveFate) : HuddleProg (Option HuddleArchive) :=
  -- `compute_row_hash` raises without a link
  if row.prevRecordHash = "" ∨ fate = .failsInserting then giveUp
  else do
    let inserted ← Prog.exec (insertHuddleRow row)
    if inserted then do
      let _ ← Prog.exec (advanceChainState row)
      commitArchive row fate
    else giveUp

def archiveEndedHuddleBestEffort (key : HuddleKey) (huddle : Huddle) (endedAt : DateTime) (fate : ArchiveFate) :
    HuddleProg (Option HuddleArchive) :=
  if fate = .noSession then pure none
  else if fate = .failsSeeding then giveUp
  else do
    let _ ← Prog.exec (seedChainState key.1)
    if fate = .failsLocking then giveUp
    else do
      let tip ← Prog.exec (lockChainState key.1)
      match tip with
      | none => giveUp
      | some chain => writeHuddleRow (huddleRow sha256 key huddle endedAt chain) fate

end Archive

/-! ## leaving -/

/-- What is left to do when somebody has left -/
inductive Leaving
  | unavailable
  /-- two or more remain, or the huddle was declined -/
  | done (huddleId : String) (state : HuddleState)
  /-- the huddle is to be archived and ended -/
  | ends (huddleId : String) (huddle : Huddle)

/-- `leave_huddle`, up to the archive -/
def leaveHuddle (key : HuddleKey) (huddle : Huddle) (leaverId : String) (decline : Bool) (t : Txn) (d : HuddleDb) :
    Leaving × HuddleDb :=
  if 1 < (huddle.liveIds.filter fun user => user ≠ leaverId).length then
    (.done key.2 huddle.state, { d with manager := d.manager.removeParticipant key huddle leaverId })
  else if decline then
    (.done key.2 .declined,
      { d with
        manager := (d.manager.removeParticipant key huddle leaverId).transition key
          { huddle with liveIds := huddle.liveIds.filter fun user => user ≠ leaverId } .declined })
  else
    (.ends key.2 huddle,
      { d with
        manager := d.manager.removeParticipant key huddle leaverId
        ending := update d.ending t (some key) })

/-- What `handle_huddle_hangup` does before it awaits anything -/
def hangUp (call : HuddleHangup) (huddleId : String) (t : Txn) (d : HuddleDb) : Option (Leaving × HuddleDb) :=
  match getParticipantHuddle call.tenantId huddleId call.userId d with
  | none => some (.unavailable, d)
  | some huddle =>
      some (leaveHuddle (call.tenantId, huddleId) huddle call.userId
        (huddle.state = .ringing ∧ some call.userId = huddle.calleeId) t d)

/-- What a connection's end does when its peers are told: a user without connections leaves. -/
def leaveIfGone (call : CloseSocket) (t : Txn) (d : HuddleDb) : Option (Leaving × HuddleDb) :=
  if d.registry.userConnections call.tenantId call.userId ≠ [] then some (.unavailable, d)
  else
    match d.manager.getActive call.tenantId call.userId with
    | none => some (.unavailable, d)
    | some (huddleId, huddle) => some (leaveHuddle (call.tenantId, huddleId) huddle call.userId false t d)

/-- The end of a huddle, archived or not -/
def endHuddle (key : HuddleKey) (t : Txn) (d : HuddleDb) : Option (Unit × HuddleDb) :=
  match d.manager.objects key with
  | none => some ((), { d with ending := update d.ending t none })
  | some huddle => some ((), { d with
      manager := d.manager.transition key huddle .ended
      ending := update d.ending t none })

/-! ## the handlers -/

section Handlers

variable (sha256 : ByteArray → String)

/-- The rest of `leave_huddle` -/
def finishLeaving (tenantId : String) (endedAt : DateTime) (fate : ArchiveFate) : Leaving → HuddleProg HuddleAnswer
  | .unavailable => pure (.error "huddle_unavailable")
  | .done huddleId state => pure (.update huddleId state none)
  | .ends huddleId huddle => do
      let archive ← archiveEndedHuddleBestEffort sha256 (tenantId, huddleId) huddle endedAt fate
      Prog.exec (endHuddle (tenantId, huddleId))
      pure (.update huddleId .ended archive)

def handleHuddleHangup (call : HuddleHangup) : HuddleProg HuddleAnswer :=
  match call.frame with
  | none => pure (.error "invalid_message")
  | some huddleId => do
      let leaving ← Prog.exec (hangUp call huddleId)
      finishLeaving sha256 call.tenantId call.endedAt call.fate leaving

/-- `registry.add` -/
def openConnection (call : OpenSocket) (t : Txn) (d : HuddleDb) : Option (Unit × HuddleDb) :=
  if hid : d.registry.connections t = none then some ((), { d with registry := d.registry.add t call.conn hid }) else none

/-- `registry.discard` -/
def closeConnection (call : CloseSocket) (_ : Txn) (d : HuddleDb) : Option (Unit × HuddleDb) :=
  match hid : d.registry.connections call.id with
  | none => some ((), d)
  | some conn => some ((), { d with registry := d.registry.discard call.id conn hid })

/-- The end of `realtime_endpoint` -/
def closeSocket (call : CloseSocket) : HuddleProg HuddleAnswer := do
  Prog.exec (closeConnection call)
  let leaving ← Prog.exec (leaveIfGone call)
  let _ ← finishLeaving sha256 call.tenantId call.endedAt call.fate leaving
  pure .closed

def serveHuddles : HuddleRequest → HuddleProg HuddleAnswer
  | .openSocket call => do
      Prog.exec (openConnection call)
      pure .registered
  | .invite call => handleHuddleInvite call
  | .signal call => handleSignalSend call
  | .hangup call => handleHuddleHangup sha256 call
  | .closeSocket call => closeSocket sha256 call

end Handlers

abbrev HuddleSys := Sys HuddleDb HuddleError HuddleRequest HuddleAnswer

end Anoryx.Rendly
