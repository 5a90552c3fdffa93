import Anoryx.Rendly.Channels

/-!
# Anoryx.Rendly.Realtime

The handlers of the chat: a socket is opened and closed (`realtime/ws.py`), a message is
sent (`handle_chat_send` of `realtime/pipeline.py`), and channels and their members are
managed (`realtime/rest.py`).

A handler may be interrupted wherever it awaits.  What it does between two awaits is one
statement, whether to the database or to the registry; its sessions are transactions, one
after another.  What the inspector answers comes with the call, as do the ids and moments that
are drawn, and whether the resolver raises.  The answers that are sent to the caller alone,
presence and typing, the audit rows of what was blocked and the oversight events are left out.
-/

namespace Anoryx.Rendly

open ReadCommitted PyJson
open Orchestrator (anchored isUpper isLower isDigit)

variable {F : Type}

/-! ## frames -/

/-- `[0-9a-fA-F]` -/
def isHexDigit (c : CodePoint) : Bool := isDigit c || (0x61 ≤ c && c ≤ 0x66) || (0x41 ≤ c && c ≤ 0x46)

/-- `[0-9a-fA-F]{8}-[0-9a-fA-F]{4}-[0-9a-fA-F]{4}-[0-9a-fA-F]{4}-[0-9a-fA-F]{12}` -/
def isUuid (cs : List CodePoint) : Bool :=
  ((cs.splitOnP (· = 0x2d)).map List.length = [8, 4, 4, 4, 12]) && cs.all fun c => isHexDigit c || c = 0x2d

/-- `[A-Za-z0-9._-]{1,64}` -/
def isClientMsgId (cs : List CodePoint) : Bool :=
  cs ≠ [] && cs.length ≤ 64 && cs.all fun c => isUpper c || isLower c || isDigit c || c = 0x2e || c = 0x5f || c = 0x2d

/-- The text of a value that matches a pattern -/
def matching (p : List CodePoint → Bool) : Option (PyValue F) → Option String
  | some (.str s) => if anchored p s then s.encode else none
  | _ => none

def maxContentLen : Nat := 16384

def chatSendKeys : List String := ["msg_type", "client_msg_id", "channel_id", "content", "content_type"]

/-- `valid_content_type`, and the content type -/
def contentTypeOf : Option (PyValue F) → Option String
  | none => some "text"
  | some .null => some "text"
  | some (.str s) => if s = PyStr.ofString "text" then some "text" else if s = PyStr.ofString "markdown" then some "markdown" else none
  | some _ => none

/-- A frame that is well formed -/
structure ChatFrame where
  clientMsgId : String
  channelId : String
  content : PyStr
  contentType : String

/-! ## calls -/

/-- `realtime_endpoint`, up to the registration -/
structure Connect where
  principal : AuthzPrincipal

/-- A `chat.send` frame on a connection -/
structure ChatSend (F : Type) where
  principal : AuthzPrincipal
  data : List (PyStr × PyValue F)
  /-- whether the resolver raises, the first time and the second -/
  resolverRaises : Bool
  resolverRaisesAgain : Bool
  /-- what the inspector answers, unless it raises -/
  inspection : Option InspectionOutcome
  messageId : String
  createdAt : DateTime

/-- `POST /channels` -/
structure CreateChannel where
  principal : AuthzPrincipal
  name : String
  type : ChannelType
  channelId : String
  now : DateTime

/-- `PUT` or `DELETE /channels/{channel_id}/members/{user_id}` -/
structure MemberCall where
  principal : AuthzPrincipal
  channelId : String
  userId : String
  role : ChannelRole
  now : DateTime
  resolverRaises : Bool

/-- The membership that the call is about -/
def MemberCall.key (call : MemberCall) : String × String × String := (call.principal.tenantId, call.channelId, call.userId)

/-- `PUT /channels/{channel_id}/team` -/
structure MapChannelTeam where
  principal : AuthzPrincipal
  channelId : String
  externalRef : String
  resolverRaises : Bool

inductive RealtimeRequest (F : Type)
  | connect (call : Connect)
  | disconnect (conn : ConnId)
  | chatSend (call : ChatSend F)
  | createChannel (call : CreateChannel)
  | upsertMember (call : MemberCall)
  | removeMember (call : MemberCall)
  | mapChannelTeam (call : MapChannelTeam)

inductive RealtimeAnswer
  | policyViolation
  | welcome
  | closed
  /-- an `error` frame, with its `error_code` -/
  | error (errorCode : String)
  /-- a `chat.ack` of a send that was not accepted -/
  | ackBlocked (errorCode : String)
  | ackAccepted (messageId : String)
  | created (channelId : String)
  | membership (role : ChannelRole)
  | noContent
  | mapped (externalRef : String)
deriving DecidableEq

/-- The checks of a `chat.send` frame -/
def chatFrame (data : List (PyStr × PyValue F)) : Except RealtimeAnswer ChatFrame :=
  match matching isClientMsgId (pyItem (PyStr.ofString "client_msg_id") data),
      matching isUuid (pyItem (PyStr.ofString "channel_id") data) with
  | some clientMsgId, some channelId =>
      if data.any fun p => p.1 ∉ chatSendKeys.map PyStr.ofString then .error (.ackBlocked "invalid_message")
      else
        match pyItem (PyStr.ofString "content") data, contentTypeOf (pyItem (PyStr.ofString "content_type") data) with
        | some (.str content), some contentType =>
            if maxContentLen < content.length then .error (.ackBlocked "message_too_large")
            else .ok ⟨clientMsgId, channelId, content, contentType⟩
        | _, _ => .error (.ackBlocked "invalid_message")
  | _, _ => .error (.error "invalid_message")

/-! ## statements of the registry -/

/-- `registry.add`; the connection is new. -/
def register (conn : Connection) (t : Txn) (d : RealtimeDb) : Option (Unit × RealtimeDb) :=
  if hid : d.registry.connections t = none then
    some ((), { d with
      registry := d.registry.add t conn hid
      connecting := Function.update d.connecting t none })
  else none

/-- The end of the session that the channels were read in -/
def closeSession (t : Txn) (d : RealtimeDb) : Option (Unit × RealtimeDb) :=
  some ((), { Database.rollback t d with connecting := d.connecting })

/-- `registry.discard`, of a connection that is registered -/
def discardConnection (id : ConnId) (_ : Txn) (d : RealtimeDb) : Option (Unit × RealtimeDb) :=
  match hid : d.registry.connections id with
  | none => some ((), d)
  | some conn => some ((), { d with registry := d.registry.discard id conn hid })

/-- `registry.remove_user_from_channel` -/
def evictMember (key : String × String × String) (_ : Txn) (d : RealtimeDb) : Option (Unit × RealtimeDb) :=
  some ((), { d with registry := d.registry.removeUserFromChannel key.1 key.2.1 key.2.2 })

/-- The snapshot that a broadcast begins with -/
def snapshotChannel (channel : String × String) (t : Txn) (d : RealtimeDb) : Option (List ConnId × RealtimeDb) :=
  some (d.registry.channelConnections channel.1 channel.2,
    { d with audience := Function.update d.audience t (some (channel, d.registry.channelConnections channel.1 channel.2)) })

/-- `conn.send` -/
def sendFrame (channel : String × String) (messageId : String) (conn : ConnId) (t : Txn) (d : RealtimeDb) :
    Option (Unit × RealtimeDb) :=
  some ((), { d with deliveries := d.deliveries ++ [⟨t, channel, conn, messageId⟩] })

/-! ## the handlers -/

section Handlers

variable (sha256 : ByteArray → String) (users : String → String → Bool)

/-- The sends of a broadcast -/
def sendFrames (channel : String × String) (messageId : String) : List ConnId → RealtimeProg Unit
  | [] => pure ()
  | conn :: conns => do
      let _ ← Prog.exec (sendFrame channel messageId conn)
      sendFrames channel messageId conns

def broadcastChannel (channel : String × String) (messageId : String) : RealtimeProg Unit := do
  let conns ← Prog.exec (snapshotChannel channel)
  sendFrames channel messageId conns

/-- `load_channel` and `authorize`; a channel that is not there allows nothing. -/
def allowedIn (principal : AuthzPrincipal) (channelId : String) (action : ChannelAction) (resolverRaises : Bool) :
    RealtimeProg Bool := do
  let channel ← Prog.query (loadChannel principal.tenantId channelId)
  match channel with
  | none => pure false
  | some channel => do
      let decision ← authorize principal channel action resolverRaises
      pure decision.allowed

/-- The message of a frame that has passed -/
def ChatSend.draft (call : ChatSend F) (frame : ChatFrame) (outcome : InspectionOutcome) (content : String) : MessageDraft :=
  ⟨call.messageId, call.principal.tenantId, frame.channelId, call.principal.userId, content, frame.contentType, call.createdAt,
    outcome.evaluatedAt, outcome.detectors⟩

/-- The transaction that persists a message -/
def persistMessage (call : ChatSend F) (frame : ChatFrame) (outcome : InspectionOutcome) : RealtimeProg MessageRow :=
  match frame.content.encode with
  | none => Prog.raise .unicodeEncode
  | some content => insertMessage sha256 (call.draft frame outcome content)

/-- The end of a send whose content has passed -/
def sendPassed (call : ChatSend F) (frame : ChatFrame) (outcome : InspectionOutcome) : RealtimeProg RealtimeAnswer := do
  let allowed ← allowedIn call.principal frame.channelId .post call.resolverRaisesAgain
  if allowed then do
    let message ← persistMessage sha256 call frame outcome
    Prog.commitWork
    broadcastChannel (call.principal.tenantId, frame.channelId) message.messageId
    pure (.ackAccepted message.messageId)
  else pure (.error "unauthorized")

/-- What follows the inspection -/
def sendInspected (call : ChatSend F) (frame : ChatFrame) : RealtimeProg RealtimeAnswer :=
  match call.inspection with
  | none => pure (.ackBlocked "inspection_unavailable")
  | some outcome =>
      match outcome.status with
      | .blocked => pure (.ackBlocked "message_blocked")
      | .seamUnavailable => pure (.ackBlocked "inspection_unavailable")
      | .pass => sendPassed sha256 call frame outcome

def handleChatSend (call : ChatSend F) : RealtimeProg RealtimeAnswer :=
  match chatFrame call.data with
  | .error answer => pure answer
  | .ok frame => do
      let allowed ← allowedIn call.principal frame.channelId .post call.resolverRaises
      Prog.rollbackWork
      if allowed then sendInspected sha256 call frame else pure (.error "unauthorized")

/-- `realtime_endpoint` -/
def connect (call : Connect) : RealtimeProg RealtimeAnswer :=
  if "chat:read" ∉ call.principal.scopes then pure .policyViolation
  else do
    let channelIds ← Prog.exec (selectChannels call.principal.tenantId call.principal.userId)
    Prog.exec closeSession
    Prog.exec (register ⟨call.principal.tenantId, call.principal.userId, channelIds⟩)
    pure .welcome

/-- The end of `realtime_endpoint` -/
def disconnect (conn : ConnId) : RealtimeProg RealtimeAnswer := do
  Prog.exec (discardConnection conn)
  pure .closed

def requireScope (scope : String) (principal : AuthzPrincipal) : RealtimeProg Unit :=
  if scope ∈ principal.scopes then pure () else Prog.raise .insufficientScope

def CreateChannel.row (call : CreateChannel) : ChannelRow :=
  ⟨call.principal.tenantId, call.channelId, call.name, call.type, .manual, none, call.principal.userId, call.now, false, 0, none⟩

def createChannel (call : CreateChannel) : RealtimeProg RealtimeAnswer := do
  requireScope "channels:write" call.principal
  Prog.inserting .integrity (insertChannel call.row)
  if users call.principal.tenantId call.principal.userId then do
    Prog.inserting .integrity
      (insertMembership (call.principal.tenantId, call.channelId, call.principal.userId) .owner call.now)
    pure (.created call.channelId)
  else Prog.raise .invalidToken

/-- A channel that is not there, or where the caller may not do this, is not found. -/
def requireAllowed (principal : AuthzPrincipal) (channelId : String) (action : ChannelAction) (resolverRaises : Bool) :
    RealtimeProg Unit := do
  let allowed ← allowedIn principal channelId action resolverRaises
  if allowed then pure () else Prog.raise .notFound

def upsertMember (call : MemberCall) : RealtimeProg RealtimeAnswer := do
  requireScope "channels:admin" call.principal
  requireAllowed call.principal call.channelId .manageMembers call.resolverRaises
  if users call.principal.tenantId call.userId then do
    let _ ← deleteMembership call.key
    Prog.inserting .integrity (insertMembership call.key call.role call.now)
    pure (.membership call.role)
  else Prog.raise .notFound

def removeMember (call : MemberCall) : RealtimeProg RealtimeAnswer := do
  requireScope "channels:admin" call.principal
  requireAllowed call.principal call.channelId .manageMembers call.resolverRaises
  let _ ← deleteMembership call.key
  Prog.commitWork
  Prog.exec (evictMember call.key)
  pure .noContent

def mapChannelTeam (call : MapChannelTeam) : RealtimeProg RealtimeAnswer := do
  requireScope "channels:admin" call.principal
  requireAllowed call.principal call.channelId .mapToTeam call.resolverRaises
  let updated ← Prog.exec (mapChannelToTeam call.principal.tenantId call.channelId call.externalRef)
  match updated with
  | none => Prog.raise .notFound
  | some _ => pure (.mapped call.externalRef)

def serveRealtime : RealtimeRequest F → RealtimeProg RealtimeAnswer
  | .connect call => connect call
  | .disconnect conn => disconnect conn
  | .chatSend call => handleChatSend sha256 call
  | .createChannel call => createChannel users call
  | .upsertMember call => upsertMember users call
  | .removeMember call => removeMember call
  | .mapChannelTeam call => mapChannelTeam call

end Handlers

abbrev RealtimeSys (F : Type) := Sys RealtimeDb RealtimeError (RealtimeRequest F) RealtimeAnswer

end Anoryx.Rendly
