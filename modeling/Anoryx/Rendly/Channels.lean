import Anoryx.Calendar
import Anoryx.Orchestrator.Envelope
import Anoryx.ReadCommitted.HeadLog
import Anoryx.Rendly.Registry

/-!
# Anoryx.Rendly.Channels

The channels of a tenant, their members and their messages (`persistence/chat_repo.py`,
`persistence/hash_chain.py`), and who may do what in a channel (`realtime/authz.py`,
`realtime/resolver.py`).

A membership is never updated: a role is changed by deleting the row and inserting another
under the same key, so a row says which transaction inserted it.  A DELETE that waits for a
row which is replaced meanwhile deletes nothing.

The resolver is the manual one; it may raise, which is given.  Users are fixed.
-/

namespace Anoryx.Rendly

open ReadCommitted PyJson

/-! ## rows -/

inductive ChannelType
  | public_
  | private_
  | dm
deriving DecidableEq

inductive ChannelSource
  | manual
  | deltaTeam
deriving DecidableEq

inductive ChannelRole
  | owner
  | admin
  | member
  | guest
deriving DecidableEq

/-- A row of `channels`, under its tenant and its id. -/
structure ChannelRow where
  tenantId : String
  channelId : String
  name : String
  type : ChannelType
  source : ChannelSource
  externalRef : Option String
  createdBy : String
  createdAt : DateTime
  archived : Bool
  nextSeq : Nat
  lastRowHash : Option String
deriving DecidableEq

/-- A row of `memberships`, under its tenant, channel and user. -/
structure MembershipRow where
  role : ChannelRole
  addedAt : DateTime
  insertedBy : Txn
deriving DecidableEq

structure DetectorFinding where
  category : String
  outcome : String
deriving DecidableEq

inductive InspectionStatus
  | pass
  | blocked
  | seamUnavailable
deriving DecidableEq

structure InspectionOutcome where
  status : InspectionStatus
  evaluatedAt : DateTime
  detectors : List DetectorFinding
deriving DecidableEq

/-- A row of `messages`, under its tenant and its id; `inspection_status` is always `pass`. -/
structure MessageRow where
  tenantId : String
  messageId : String
  channelId : String
  senderUserId : String
  content : String
  contentType : String
  seq : Nat
  createdAt : DateTime
  prevRecordHash : String
  contentHash : String
  inspectionEvaluatedAt : DateTime
  detectors : List DetectorFinding
deriving DecidableEq

/-- The verified identity that a decision is made for. -/
structure AuthzPrincipal where
  tenantId : String
  userId : String
  scopes : List String
deriving DecidableEq

/-- A role that was found, and whose, and where -/
structure Resolution where
  tenantId : String
  channelId : String
  userId : String
  role : ChannelRole
deriving DecidableEq

/-- An INSERT of a message, and what its sender's role was found to be in its transaction. -/
structure MessageInsert where
  txn : Txn
  row : MessageRow
  resolution : Option Resolution

/-- A frame that was sent: by whose broadcast, of which channel, to whom. -/
structure Delivery where
  txn : Txn
  channel : String × String
  conn : ConnId
  messageId : String
deriving DecidableEq

structure RealtimeDb where
  channels : Table (String × String) ChannelRow
  /-- `none` is a row that is deleted. -/
  memberships : Table (String × String × String) (Option MembershipRow)
  messages : Table (String × String) MessageRow
  registry : ConnectionRegistry
  deliveries : List Delivery
  /-- The role that a transaction has found last.  No statement reads it. -/
  resolved : Txn → Option Resolution
  /-- The inserts of messages, also of those that were rolled back.  No statement reads it. -/
  inserts : List MessageInsert
  /-- A connection that has read its channels and is not registered.  No statement reads it. -/
  connecting : Txn → Option Connection
  /-- The channel and the recipients of a broadcast.  No statement reads it. -/
  audience : Txn → Option ((String × String) × List ConnId)
  /-- How often a member was added.  No statement reads it. -/
  additions : String × String × String → Nat

def RealtimeDb.empty : RealtimeDb where
  channels := Table.empty
  memberships := Table.empty
  messages := Table.empty
  registry := ConnectionRegistry.empty
  deliveries := []
  resolved _ := none
  inserts := []
  connecting _ := none
  audience _ := none
  additions _ := 0

/-- Whether a transaction adds the member. -/
def RealtimeDb.adds (d : RealtimeDb) (t : Txn) (key : String × String × String) : Bool :=
  ((d.memberships.version t key).bind id).isSome

instance : Database RealtimeDb where
  commit t d :=
    { d with
      channels := d.channels.commit t
      memberships := d.memberships.commit t
      messages := d.messages.commit t
      resolved := Function.update d.resolved t none
      additions := fun key => if d.adds t key then d.additions key + 1 else d.additions key }
  rollback t d :=
    { d with
      channels := d.channels.rollback t
      memberships := d.memberships.rollback t
      messages := d.messages.rollback t
      resolved := Function.update d.resolved t none
      connecting := Function.update d.connecting t none }

inductive RealtimeError
  /-- `LookupError` of `insert_message` -/
  | lookup
  /-- `UnicodeEncodeError` -/
  | unicodeEncode
  /-- a value that its column refuses -/
  | data
  /-- `IntegrityError` -/
  | integrity
  /-- `compute_row_hash`, without a link -/
  | valueError
  | notFound
  | insufficientScope
  | invalidToken
deriving DecidableEq

abbrev RealtimeProg := Prog RealtimeDb RealtimeError

/-! ## channels and members -/

def loadChannel (tenantId channelId : String) (t : Txn) (d : RealtimeDb) : Option ChannelRow :=
  d.channels.visible t (tenantId, channelId)

def insertChannel (row : ChannelRow) (t : Txn) (d : RealtimeDb) : Option (Bool × RealtimeDb) :=
  (d.channels.insertOrIgnore t (row.tenantId, row.channelId) row).map fun p => (p.1, { d with channels := p.2 })

def mapChannelToTeam (tenantId channelId externalRef : String) (t : Txn) (d : RealtimeDb) :
    Option (Option ChannelRow × RealtimeDb) :=
  (d.channels.updateWhere t (tenantId, channelId) (fun _ => true) fun row =>
    { row with source := .deltaTeam, externalRef := some externalRef }).map fun p => (p.1, { d with channels := p.2 })

/-- The membership that a transaction sees. -/
def visibleMembership (key : String × String × String) (t : Txn) (d : RealtimeDb) : Option MembershipRow :=
  (d.memberships.visible t key).bind id

/-- `insert_membership`: `false` when there is such a row. -/
def insertMembership (key : String × String × String) (role : ChannelRole) (addedAt : DateTime) (t : Txn) (d : RealtimeDb) :
    Option (Bool × RealtimeDb) :=
  if d.memberships.free t key = false then none
  else if (visibleMembership key t d).isSome then some (false, d)
  else some (true, { d with memberships := d.memberships.write t key (some ⟨role, addedAt, t⟩) })

/-- `DELETE FROM memberships WHERE …`, for the row that it found when it started -/
def deleteFound (key : String × String × String) (found : MembershipRow) (t : Txn) (d : RealtimeDb) :
    Option (Bool × RealtimeDb) :=
  if d.memberships.free t key = false then none
  else if visibleMembership key t d = some found then some (true, { d with memberships := d.memberships.write t key none })
  else some (false, d)

def deleteMembership (key : String × String × String) : RealtimeProg Bool := do
  let found ← Prog.query (visibleMembership key)
  match found with
  | none => pure false
  | some row => Prog.exec (deleteFound key row)

def channelIdsForUser (tenantId userId : String) (t : Txn) (d : RealtimeDb) : List String :=
  ((d.memberships.scan t).filter fun p => p.1.1 = tenantId && p.1.2.2 = userId && p.2.isSome).map fun p => p.1.2.1

/-- `channel_ids_for_user`, of a connection that is to be registered -/
def selectChannels (tenantId userId : String) (t : Txn) (d : RealtimeDb) : Option (List String × RealtimeDb) :=
  some (channelIdsForUser tenantId userId t d,
    { d with connecting := Function.update d.connecting t (some ⟨tenantId, userId, channelIdsForUser tenantId userId t d⟩) })

def memberRole (tenantId channelId userId : String) (t : Txn) (d : RealtimeDb) : Option (Option ChannelRole × RealtimeDb) :=
  some ((visibleMembership (tenantId, channelId, userId) t d).map MembershipRow.role,
    { d with resolved := Function.update d.resolved t ((visibleMembership (tenantId, channelId, userId) t d).map fun row =>
        ⟨tenantId, channelId, userId, row.role⟩) })

/-! ## authorization -/

inductive ChannelAction
  | read
  | post
  | manageMembers
  | mapToTeam
deriving DecidableEq

def requiredScope : ChannelAction → String
  | .read => "chat:read"
  | .post => "chat:write"
  | .manageMembers => "channels:admin"
  | .mapToTeam => "channels:admin"

def readRoles : List ChannelRole := [.owner, .admin, .member, .guest]

def postRoles : List ChannelRole := [.owner, .admin, .member]

def managerRoles : List ChannelRole := [.owner, .admin]

def evaluate (type : ChannelType) (callerRole : Option ChannelRole) (action : ChannelAction) : Bool :=
  match callerRole with
  | none => false
  | some role =>
      match action with
      | .read => role ∈ readRoles
      | .post => role ∈ postRoles
      | .manageMembers => if type = .dm then false else role ∈ managerRoles
      | .mapToTeam => if type = .dm then false else role ∈ managerRoles

inductive Decision
  | allow
  | deny (reason : String)
deriving DecidableEq

def Decision.allowed : Decision → Bool
  | .allow => true
  | .deny _ => false

def authorize (principal : AuthzPrincipal) (channel : ChannelRow) (action : ChannelAction) (resolverRaises : Bool) :
    RealtimeProg Decision :=
  if requiredScope action ∉ principal.scopes then pure (.deny "scope")
  else if channel.tenantId ≠ principal.tenantId then pure (.deny "tenant")
  else if resolverRaises then pure (.deny "resolver_error")
  else do
    let role ← Prog.exec (memberRole principal.tenantId channel.channelId principal.userId)
    if evaluate channel.type role action then pure .allow else pure (.deny "role")

/-! ## messages -/

section Messages

variable (sha256 : ByteArray → String)

def messageGenesisHash : String := sha256 "rendly:messages:genesis:v1".toUTF8

def detectorsToJson (detectors : List DetectorFinding) : Value Empty :=
  .arr (detectors.map fun finding => .obj [("category", .str finding.category), ("outcome", .str finding.outcome)])

/-- `MESSAGE_CANONICAL_FIELDS`, of a row -/
def messageCanonicalFields (row : MessageRow) : List (String × Value Empty) :=
  [("tenant_id", .str row.tenantId), ("channel_id", .str row.channelId), ("message_id", .str row.messageId),
    ("sender_user_id", .str row.senderUserId), ("content", .str row.content), ("content_type", .str row.contentType),
    ("seq", .int row.seq), ("created_at", .str row.createdAt.isoformat), ("inspection_status", .str "pass"),
    ("detectors", detectorsToJson row.detectors), ("prev_record_hash", .str row.prevRecordHash)]

/-- `compute_row_hash` -/
def messageHash (row : MessageRow) : String :=
  sha256 (dumps ⟨false, false⟩ (Value.obj (messageCanonicalFields row)).sortKeys).toUTF8

/-- `SELECT … FOR UPDATE` of the channel -/
def lockChannel (tenantId channelId : String) (t : Txn) (d : RealtimeDb) : Option (Option ChannelRow × RealtimeDb) :=
  (d.channels.updateWhere t (tenantId, channelId) (fun _ => true) id).map fun p => (p.1, { d with channels := p.2 })

def insertMessageRow (row : MessageRow) (t : Txn) (d : RealtimeDb) : Option (Bool × RealtimeDb) :=
  (d.messages.insertOrIgnore t (row.tenantId, row.messageId) row).map fun p =>
    (p.1, { d with messages := p.2, inserts := d.inserts ++ [⟨t, row, d.resolved t⟩] })

/-- `UPDATE channels SET next_seq = …, last_row_hash = …` -/
def advanceChannel (row : MessageRow) (t : Txn) (d : RealtimeDb) : Option (Option ChannelRow × RealtimeDb) :=
  (d.channels.updateWhere t (row.tenantId, row.channelId) (fun _ => true) fun channel =>
    { channel with nextSeq := row.seq + 1, lastRowHash := some row.contentHash }).map fun p => (p.1, { d with channels := p.2 })

/-- What a send is about to write. -/
structure MessageDraft where
  messageId : String
  tenantId : String
  channelId : String
  senderUserId : String
  content : String
  contentType : String
  createdAt : DateTime
  inspectionEvaluatedAt : DateTime
  detectors : List DetectorFinding

/-- The link to the tip of the channel's chain -/
def linkOf (channel : ChannelRow) : String :=
  match channel.lastRowHash with
  | none => messageGenesisHash sha256
  | some hash => if hash = "" then messageGenesisHash sha256 else hash

/-- The row of a message, under the next number of its channel and without its hash -/
def MessageDraft.unhashed (draft : MessageDraft) (channel : ChannelRow) : MessageRow :=
  ⟨draft.tenantId, draft.messageId, draft.channelId, draft.senderUserId, draft.content, draft.contentType, channel.nextSeq,
    draft.createdAt, linkOf sha256 channel, "", draft.inspectionEvaluatedAt, draft.detectors⟩

def MessageDraft.row (draft : MessageDraft) (channel : ChannelRow) : MessageRow :=
  { draft.unhashed sha256 channel with contentHash := messageHash sha256 (draft.unhashed sha256 channel) }

/-- The largest BIGINT -/
def bigintMax : Nat := 9223372036854775807

/-- The flush of a message and of its channel -/
def flushMessage (row : MessageRow) : RealtimeProg MessageRow :=
  if row.prevRecordHash = "" then Prog.raise .valueError
  else if '\x00' ∈ row.content.toList ∨ bigintMax ≤ row.seq then Prog.raise .data
  else do
    Prog.inserting .integrity (insertMessageRow row)
    let _ ← Prog.exec (advanceChannel row)
    pure row

def insertMessage (draft : MessageDraft) : RealtimeProg MessageRow := do
  let found ← Prog.exec (lockChannel draft.tenantId draft.channelId)
  match found with
  | none => Prog.raise .lookup
  | some channel => flushMessage (draft.row sha256 channel)

end Messages

end Anoryx.Rendly
