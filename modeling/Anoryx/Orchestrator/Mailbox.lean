import Anoryx.Calendar
import Anoryx.Orchestrator.IngestPipeline
import Anoryx.Paging
import Anoryx.ReadCommitted.CommitOrder

/-!
# Anoryx.Orchestrator.Mailbox

The mailboxes of a tenant's agents (`send_message` and `get_inbox` of
`messaging/router.py`, `agent_messages` and its audit log in
`persistence/repositories.py`).

A send looks for its idempotency key first; what is not there yet is counted and inserted
under the tenant's advisory lock, and linked in a transaction of its own.  An inbox is read
page by page, after a sequence number.

A send here is one whose body has passed `_validate_send_body`.  The row's `created_at` is
drawn with the call.
-/

namespace Anoryx.Orchestrator

open ReadCommitted PyJson PgColumn

variable {F : Type}

/-! ## the tables -/

/-- The stable ids of an agent. -/
structure AgentId (α : Type) where
  teamId : α
  projectId : α
  agentId : α
deriving DecidableEq

def AgentId.mapM {α β : Type} (f : α → Option β) (id : AgentId α) : Option (AgentId β) := do
  let teamId ← f id.teamId
  let projectId ← f id.projectId
  let agentId ← f id.agentId
  some ⟨teamId, projectId, agentId⟩

/-- A row of `agent_messages`, under its `sequence_number`. -/
structure AgentMessage (F : Type) where
  tenantId : String
  sender : AgentId String
  recipient : AgentId String
  messageType : String
  body : Value F
  idempotencyKey : String
  createdAt : DateTime

inductive SendDisposition
  | sent
  | deduped
deriving DecidableEq

def SendDisposition.text : SendDisposition → String
  | sent => "sent"
  | deduped => "deduped"

/-- A row of `agent_messaging_audit_log`. -/
structure MessagingAuditLog where
  tenantId : String
  senderAgentId : String
  recipientAgentId : String
  messageType : String
  idempotencyKey : String
  disposition : SendDisposition
  prevHash : String
  rowHash : String

/-- The database. -/
structure MailboxDb (F : Type) where
  /-- `agent_messages`, and the locks of the tenants -/
  messages : LockedLog (AgentMessage F) Int
  chain : LockedLog MessagingAuditLog Int

def MailboxDb.empty : MailboxDb F := ⟨LockedLog.empty, LockedLog.empty⟩

instance : Database (MailboxDb F) where
  commit t d := ⟨Database.commit t d.messages, Database.commit t d.chain⟩
  rollback t d := ⟨Database.rollback t d.messages, Database.rollback t d.chain⟩

/-! ## statements -/

/-- The largest BIGINT. -/
def maxBigint : Nat := 9223372036854775807

/-- The columns of `uq_am_tenant_idempotency`. -/
def AgentMessage.key (message : AgentMessage F) : String × String := (message.tenantId, message.idempotencyKey)

def AgentMessage.hasKey (key : String × String) (message : AgentMessage F) : Bool := message.key = key

def getAgentMessageByIdempotencyKey (key : String × String) (t : Txn) (d : MailboxDb F) :
    Option (Nat × AgentMessage F) :=
  (d.messages.table.scan t).find? fun row => row.2.hasKey key

/-- `lock_messaging_message_cap`, under a hash of the tenant -/
def lockMessageCap (hashtext : String → Int) (tenantId : String) (t : Txn) (d : MailboxDb F) :
    Option (Unit × MailboxDb F) :=
  (LockedLog.advisoryXactLock (hashtext tenantId) t d.messages).map fun p => ((), { d with messages := p.2 })

/-- `count_agent_messages`: the tenant sees its own rows. -/
def countAgentMessages (tenantId : String) (t : Txn) (d : MailboxDb F) : Nat :=
  (d.messages.rowsOf (d.messages.table.visible t) fun message => message.tenantId = tenantId).length

/-- `insert_agent_message`: the sequence is used up first, then the unique index is asked,
which waits for another transaction's row. -/
def insertAgentMessage (row : AgentMessage F) (t : Txn) (d : MailboxDb F) :
    Option (Except IngestError Nat × MailboxDb F) :=
  if maxBigint < d.messages.nextSequence then some (.error .data, d)
  else if d.messages.table.keys.any (fun n => !d.messages.table.free t n &&
      (d.messages.table.newest n).any (AgentMessage.hasKey row.key)) then none
  else if (d.messages.table.scan t).any (fun other => other.2.hasKey row.key) then
    some (.error .integrity, { d with messages := { d.messages with nextSequence := d.messages.nextSequence + 1 } })
  else some (.ok d.messages.nextSequence, { d with messages := d.messages.insert t row })

/-! ## the audit chain -/

section Chain

variable (sha256 : ByteArray → String)

def messagingGenesisHash : String := sha256 "anoryx-orchestrator:messaging-audit:genesis:v1".toUTF8

def messagingCanonicalFields (row : MessagingAuditLog) : List (String × Value Empty) :=
  [("tenant_id", .str row.tenantId), ("sender_agent_id", .str row.senderAgentId),
    ("recipient_agent_id", .str row.recipientAgentId), ("message_type", .str row.messageType),
    ("idempotency_key", .str row.idempotencyKey), ("disposition", .str row.disposition.text),
    ("prev_hash", .str row.prevHash)]

def computeMessagingRowHash (row : MessagingAuditLog) : String :=
  sha256 (dumps ⟨false, false⟩ (Value.obj (messagingCanonicalFields row)).sortKeys).toUTF8

/-- `_MESSAGING_CHAIN_LOCK_KEY`, the first eight bytes of a digest -/
def messagingChainLockKey : Int := 753435675354903839

def messagingChainLock (t : Txn) (d : MailboxDb F) : Option (Unit × MailboxDb F) :=
  (LockedLog.advisoryXactLock messagingChainLockKey t d.chain).map fun p => ((), { d with chain := p.2 })

def messagingChainTipHash (t : Txn) (d : MailboxDb F) : String :=
  match (d.chain.rowsOf (d.chain.table.visible t) fun _ => true).getLast? with
  | none => messagingGenesisHash sha256
  | some row => row.2.rowHash

def insertMessagingLink (row : MessagingAuditLog) (t : Txn) (d : MailboxDb F) : Option (Unit × MailboxDb F) :=
  some ((), { d with chain := d.chain.insert t row })

/-- `append_messaging_audit_link`; `link` has neither hash. -/
def appendMessagingAuditLink (link : MessagingAuditLog) : Prog (MailboxDb F) IngestError Unit := do
  Prog.exec messagingChainLock
  let prevHash ← Prog.query (messagingChainTipHash sha256)
  let row := { link with prevHash := prevHash }
  Prog.exec (insertMessagingLink { row with rowHash := computeMessagingRowHash sha256 row })

end Chain

/-! ## sending -/

/-- A call whose body is valid. -/
structure SendMessage (F : Type) where
  tenantId : String
  sender : AgentId PyStr
  recipient : AgentId PyStr
  messageType : PyStr
  body : List (PyStr × PyValue F)
  idempotencyKey : PyStr
  now : DateTime

/-- What `send_message` answers. -/
inductive SendAnswer
  /-- 202 -/
  | taken (sequenceNumber : Nat) (createdAt : DateTime) (disposition : SendDisposition)
  /-- 422 `message_limit_exceeded` -/
  | limitExceeded (limit : Nat)
deriving DecidableEq

/-- What the endpoints are configured with; every bound is at least one. -/
structure MessagingSettings where
  maxInboxPageSize : Nat
  maxMessagesPerTenant : Nat
  pageSize_pos : 1 ≤ maxInboxPageSize

section Send

variable [FloatFormat F] (sha256 : ByteArray → String) (hashtext : String → Int) (settings : MessagingSettings)

/-- The row of a call. -/
def SendMessage.row (request : SendMessage F) (idempotencyKey : String) : Option (AgentMessage F) := do
  let sender ← request.sender.mapM (textColumn 64)
  let recipient ← request.recipient.mapM (textColumn 64)
  let messageType ← textColumn 64 request.messageType
  let body ← jsonbColumn (.obj request.body)
  some ⟨request.tenantId, sender, recipient, messageType, body, idempotencyKey, request.now⟩

/-- The link of a call, without its hashes. -/
def SendMessage.link (request : SendMessage F) (idempotencyKey : String) (disposition : SendDisposition) :
    Option MessagingAuditLog := do
  let senderAgentId ← textColumn 64 request.sender.agentId
  let recipientAgentId ← textColumn 64 request.recipient.agentId
  let messageType ← textColumn 64 request.messageType
  some ⟨request.tenantId, senderAgentId, recipientAgentId, messageType, idempotencyKey, disposition, "", ""⟩

/-- The link of a call, and the answer. -/
def concludeSend (request : SendMessage F) (idempotencyKey : String) (disposition : SendDisposition)
    (message : Nat × AgentMessage F) : Prog (MailboxDb F) IngestError SendAnswer := do
  let link ← Prog.ofExcept (orRaise .data (request.link idempotencyKey disposition))
  appendMessagingAuditLink sha256 link
  Prog.commitWork
  pure (.taken message.1 message.2.createdAt disposition)

/-- A call whose key was not there when it looked. -/
def sendNew (request : SendMessage F) (idempotencyKey : String) : Prog (MailboxDb F) IngestError SendAnswer := do
  Prog.exec (lockMessageCap hashtext request.tenantId)
  let existingCount ← Prog.query (countAgentMessages request.tenantId)
  if existingCount < settings.maxMessagesPerTenant then do
    let row ← Prog.ofExcept (orRaise .data (request.row idempotencyKey))
    let inserted ← Prog.exec (insertAgentMessage row)
    match inserted with
    | .ok sequenceNumber => do
        Prog.commitWork
        concludeSend sha256 request idempotencyKey .sent (sequenceNumber, row)
    | .error .integrity => do
        Prog.rollbackWork
        let existing ← Prog.query (getAgentMessageByIdempotencyKey (request.tenantId, idempotencyKey))
        Prog.rollbackWork
        match existing with
        | some message => concludeSend sha256 request idempotencyKey .deduped message
        | none => Prog.raise .keyError
    | .error e => Prog.raise e
  else do
    Prog.rollbackWork
    pure (.limitExceeded settings.maxMessagesPerTenant)

def sendMessage (request : SendMessage F) : Prog (MailboxDb F) IngestError SendAnswer := do
  let idempotencyKey ← Prog.ofExcept (orRaise .data (textColumn 128 request.idempotencyKey))
  let existing ← Prog.query (getAgentMessageByIdempotencyKey (request.tenantId, idempotencyKey))
  match existing with
  | some message => do
      Prog.rollbackWork
      concludeSend sha256 request idempotencyKey .deduped message
  | none => sendNew sha256 hashtext settings request idempotencyKey

end Send

/-! ## polling -/

def AgentMessage.isTo (tenantId : String) (recipient : AgentId String) (message : AgentMessage F) : Bool :=
  message.tenantId = tenantId && message.recipient = recipient

/-- `list_inbox_messages`: one row more than the limit tells whether there are more. -/
def listInboxMessages (tenantId : String) (recipient : AgentId String) (sinceSequence : Option Nat) (limit : Nat)
    (t : Txn) (d : MailboxDb F) : List (Nat × AgentMessage F) × Option Nat :=
  let rows := Paging.page sinceSequence (limit + 1)
    (d.messages.rowsOf (d.messages.table.visible t) (AgentMessage.isTo tenantId recipient))
  if limit < rows.length then (rows.take limit, rows[limit - 1]?.map Prod.fst) else (rows, none)

/-- The limit of a page. -/
def MessagingSettings.inboxLimit (settings : MessagingSettings) : Option Int → Nat
  | none => min 50 settings.maxInboxPageSize
  | some limit =>
      if limit < 1 then 1
      else if (settings.maxInboxPageSize : Int) < limit then settings.maxInboxPageSize
      else limit.toNat

/-- What `get_inbox` answers. -/
inductive InboxAnswer (F : Type)
  /-- 200 -/
  | page (messages : List (Nat × AgentMessage F)) (nextSinceSequence : Option Nat)
  /-- 422 -/
  | outOfRange

/-- `get_inbox`; `since_sequence` is not negative. -/
def getInbox (settings : MessagingSettings) (tenantId : String) (recipient : AgentId String)
    (sinceSequence : Option Int) (limit : Option Int) : Prog (MailboxDb F) IngestError (InboxAnswer F) :=
  if sinceSequence.any (fun n => n < 0 ∨ (maxBigint : Int) < n) then pure .outOfRange
  else do
    let page ← Prog.query (listInboxMessages tenantId recipient (sinceSequence.map Int.toNat)
      (settings.inboxLimit limit))
    Prog.rollbackWork
    pure (.page page.1 page.2)

namespace InboxAnswer

def messages : InboxAnswer F → List (Nat × AgentMessage F)
  | page messages _ => messages
  | outOfRange => []

/-- The answer says that there are no more. -/
def isLast : InboxAnswer F → Bool
  | page _ nextSinceSequence => nextSinceSequence.isNone
  | outOfRange => false

end InboxAnswer

/-- A recipient that polls, each time with the highest sequence number that it has seen. -/
structure Follower where
  tenantId : String
  recipient : AgentId String
  limits : List (Option Int)
deriving DecidableEq

/-- The polls of a recipient that has seen these messages. -/
def followInbox (settings : MessagingSettings) (tenantId : String) (recipient : AgentId String) :
    List (Nat × AgentMessage F) → List (Option Int) → Prog (MailboxDb F) IngestError (List (InboxAnswer F))
  | _, [] => pure []
  | seen, limit :: limits => do
      let answer ← getInbox settings tenantId recipient ((Paging.lastPosition seen).map Int.ofNat) limit
      let answers ← followInbox settings tenantId recipient (seen ++ answer.messages) limits
      pure (answer :: answers)

/-! ## the system -/

/-- Who uses the mailboxes. -/
inductive MailboxRequest (F : Type)
  | send (request : SendMessage F)
  | follow (follower : Follower)

inductive MailboxAnswer (F : Type)
  | sent (answer : SendAnswer)
  | followed (answers : List (InboxAnswer F))

def mailbox [FloatFormat F] (sha256 : ByteArray → String) (hashtext : String → Int) (settings : MessagingSettings) :
    MailboxRequest F → Prog (MailboxDb F) IngestError (MailboxAnswer F)
  | .send request => do
      let answer ← sendMessage sha256 hashtext settings request
      pure (.sent answer)
  | .follow follower => do
      let answers ← followInbox settings follower.tenantId follower.recipient [] follower.limits
      pure (.followed answers)

end Anoryx.Orchestrator
