import Anoryx.Calendar
import Anoryx.Rendly.MessageCatalog

/-!
# Anoryx.Rendly.Frames

The frames on the wire (`realtime/frames.py`) and their dispatch (`realtime/pipeline.py`):
what is taken from a client, and what is sent.

A text frame is given by its length and by what `json.loads` makes of it.  `route` goes up
to the effects of a handler: it refuses a frame, raises, or hands on the frame that the
handler goes on with.  Ids that have been validated are `Uuid`s.
-/

namespace Anoryx.Rendly.Frames

open PyJson JsonSchema
open MessageCatalog (uuidPattern correlationPattern sha256Pattern)

/-! ## texts -/

/-- An id that has been validated against the pattern. -/
abbrev Uuid := {s : PyStr // uuidPattern.test s = true}

/-- A text with `max_length` -/
abbrev BoundedStr (maxLength : Nat) := {s : PyStr // s.length ≤ maxLength}

/-- An integer with `ge` and `le` -/
abbrev IntBetween (ge le : Int) := {n : Int // ge ≤ n ∧ n ≤ le}

abbrev Sha256 := {s : PyStr // sha256Pattern.test s = true}

/-- `new_request_id` -/
abbrev RequestId := {s : PyStr // correlationPattern.test s = true}

inductive ErrorCode
  | unauthorized
  | invalidMessage
  | messageTooLarge
  | rateLimitExceeded
  | messageBlocked
  | inspectionUnavailable
  | huddleUnavailable
  | internalError
deriving DecidableEq

def ErrorCode.text : ErrorCode → String
  | .unauthorized => "unauthorized"
  | .invalidMessage => "invalid_message"
  | .messageTooLarge => "message_too_large"
  | .rateLimitExceeded => "rate_limit_exceeded"
  | .messageBlocked => "message_blocked"
  | .inspectionUnavailable => "inspection_unavailable"
  | .huddleUnavailable => "huddle_unavailable"
  | .internalError => "internal_error"

/-- `ERROR_MESSAGES` -/
def ErrorCode.message : ErrorCode → String
  | .unauthorized => "The connection is not authenticated or the token has expired."
  | .invalidMessage => "The real-time frame is invalid or violates a field constraint."
  | .messageTooLarge => "The message exceeds the maximum allowed size."
  | .rateLimitExceeded => "Rate limit exceeded. Slow down and retry."
  | .messageBlocked => "Content was blocked by the safety inspection seam."
  | .inspectionUnavailable => "The safety inspection seam is unavailable; the send was blocked."
  | .huddleUnavailable => "The requested huddle is unavailable."
  | .internalError => "An internal error occurred. The frame was not processed."

inductive AckErrorCode
  | messageBlocked
  | messageTooLarge
  | inspectionUnavailable
  | invalidMessage
deriving DecidableEq

def AckErrorCode.text : AckErrorCode → String
  | .messageBlocked => "message_blocked"
  | .messageTooLarge => "message_too_large"
  | .inspectionUnavailable => "inspection_unavailable"
  | .invalidMessage => "invalid_message"

inductive ContentType
  | text
  | markdown
deriving DecidableEq

def ContentType.name : ContentType → String
  | .text => "text"
  | .markdown => "markdown"

inductive TypingState
  | start
  | stop
deriving DecidableEq

def TypingState.name : TypingState → String
  | .start => "start"
  | .stop => "stop"

inductive PresenceStatus
  | online
  | away
  | busy
  | offline
deriving DecidableEq

def PresenceStatus.name : PresenceStatus → String
  | .online => "online"
  | .away => "away"
  | .busy => "busy"
  | .offline => "offline"

inductive HuddleState
  | ringing
  | accepted
  | active
  | declined
  | ended
  | busy
deriving DecidableEq

def HuddleState.value : HuddleState → String
  | .ringing => "ringing"
  | .accepted => "accepted"
  | .active => "active"
  | .declined => "declined"
  | .ended => "ended"
  | .busy => "busy"

/-! ## inbound frames -/

/-- The numbers of JSON, with the integers that a text spells. -/
class LaxNumbers (F : Type) extends Numbers F where
  intOfStr : PyStr → Option Int

def maxContentLen : Nat := 16384

/-- The frame that `handle_chat_send` goes on with. -/
structure ChatSend where
  clientMsgId : PyStr
  channelId : PyStr
  content : BoundedStr maxContentLen
  contentType : ContentType

structure ChatReadFrame where
  channelId : Uuid
  upToMessageId : Uuid

structure TypingSetFrame where
  channelId : Uuid
  state : TypingState

structure PresenceSetFrame where
  status : PresenceStatus

abbrev ParticipantIds := {ids : List Uuid // 1 ≤ ids.length ∧ ids.length ≤ 6}

structure HuddleInviteFrame where
  peerUserId : Uuid
  channelId : Option Uuid
  participantIds : Option ParticipantIds

structure HuddleHangupFrame where
  huddleId : Uuid

def maxSdpLen : Nat := 65536

def maxCandidateLen : Nat := 1024

inductive SignalPayload
  | offer (sdp : BoundedStr maxSdpLen)
  | answer (sdp : BoundedStr maxSdpLen)
  | iceCandidate (candidate : BoundedStr maxCandidateLen) (sdpMid : Option (BoundedStr 64))
      (sdpMlineIndex : Option (IntBetween 0 1024))

structure SignalSendFrame where
  huddleId : Uuid
  toUserId : Option Uuid
  signal : SignalPayload

inductive Accepted
  | chatSend (frame : ChatSend)
  | chatRead (frame : ChatReadFrame)
  | typingSet (frame : TypingSetFrame)
  | presenceSet (frame : PresenceSetFrame)
  | huddleInvite (frame : HuddleInviteFrame)
  | huddleHangup (frame : HuddleHangupFrame)
  | signalSend (frame : SignalSendFrame)

/-- A refusal: an `error` frame, or a `chat.ack` with this correlation. -/
inductive Refusal
  | error (code : ErrorCode)
  | blocked (clientMsgId channelId : PyStr) (code : AckErrorCode)
deriving DecidableEq

section Fields

variable {F α : Type} [LaxNumbers F]

/-- `Literal`, of the names of these values -/
def literal (values : List α) (name : α → String) : PyValue F → Option α
  | .str s => values.find? fun a => s = PyStr.ofString (name a)
  | _ => none

/-- `str` with `max_length`; a text that cannot be encoded is none. -/
def boundedStr (maxLength : Nat) : PyValue F → Option (BoundedStr maxLength)
  | .str s => if h : s.encode.isSome = true ∧ s.length ≤ maxLength then some ⟨s, h.2⟩ else none
  | _ => none

/-- `_Uuid` -/
def uuidField (v : PyValue F) : Option Uuid := do
  let s ← boundedStr 64 v
  if h : uuidPattern.test s.val = true then some ⟨s.val, h⟩ else none

/-- `int`, in lax mode -/
def laxInt : PyValue F → Option Int
  | .int n => some n
  | .bool b => some (if b then 1 else 0)
  | .float x => Numbers.toInt x
  | .str s => LaxNumbers.intOfStr F s
  | _ => none

def intField (ge le : Int) (v : PyValue F) : Option (IntBetween ge le) := do
  let n ← laxInt v
  if h : ge ≤ n ∧ n ≤ le then some ⟨n, h⟩ else none

def participantIdsField : PyValue F → Option ParticipantIds
  | .arr vs => do
      let ids ← vs.mapM uuidField
      if h : 1 ≤ ids.length ∧ ids.length ≤ 6 then some ⟨ids, h⟩ else none
  | _ => none

/-- A field that may be `None`, and is by default -/
def optional (field : PyValue F → Option α) : Option (PyValue F) → Option (Option α)
  | none | some .null => some none
  | some v => (field v).map some

/-- `extra="forbid"` -/
def forbidExtra (names : List String) (members : List (PyStr × PyValue F)) : Bool :=
  members.all fun m => names.any fun name => m.1 = PyStr.ofString name

def isMsgType (name : String) (members : List (PyStr × PyValue F)) : Bool :=
  (item "msg_type" members).any fun v => (literal [()] (fun _ => name) v).isSome

def ChatReadFrame.validate (members : List (PyStr × PyValue F)) : Option ChatReadFrame := do
  guard (forbidExtra ["msg_type", "channel_id", "up_to_message_id"] members)
  guard (isMsgType "chat.read" members)
  let channelId ← (item "channel_id" members).bind uuidField
  let upToMessageId ← (item "up_to_message_id" members).bind uuidField
  some { channelId, upToMessageId }

def TypingSetFrame.validate (members : List (PyStr × PyValue F)) : Option TypingSetFrame := do
  guard (forbidExtra ["msg_type", "channel_id", "state"] members)
  guard (isMsgType "typing.set" members)
  let channelId ← (item "channel_id" members).bind uuidField
  let state ← (item "state" members).bind (literal [.start, .stop] TypingState.name)
  some { channelId, state }

def PresenceSetFrame.validate (members : List (PyStr × PyValue F)) : Option PresenceSetFrame := do
  guard (forbidExtra ["msg_type", "status"] members)
  guard (isMsgType "presence.set" members)
  let status ← (item "status" members).bind (literal [.online, .away, .busy, .offline] PresenceStatus.name)
  some { status }

def HuddleInviteFrame.validate (members : List (PyStr × PyValue F)) : Option HuddleInviteFrame := do
  guard (forbidExtra ["msg_type", "peer_user_id", "channel_id", "participant_ids"] members)
  guard (isMsgType "huddle.invite" members)
  let peerUserId ← (item "peer_user_id" members).bind uuidField
  let channelId ← optional uuidField (item "channel_id" members)
  let participantIds ← optional participantIdsField (item "participant_ids" members)
  some { peerUserId, channelId, participantIds }

def HuddleHangupFrame.validate (members : List (PyStr × PyValue F)) : Option HuddleHangupFrame := do
  guard (forbidExtra ["msg_type", "huddle_id"] members)
  guard (isMsgType "huddle.hangup" members)
  let huddleId ← (item "huddle_id" members).bind uuidField
  some { huddleId }

/-- `SignalOffer` and `SignalAnswer`, by what they build -/
def sdpPayload (build : BoundedStr maxSdpLen → SignalPayload) (members : List (PyStr × PyValue F)) : Option SignalPayload := do
  guard (forbidExtra ["kind", "sdp"] members)
  let sdp ← (item "sdp" members).bind (boundedStr maxSdpLen)
  some (build sdp)

/-- `SignalIceCandidate` -/
def iceCandidatePayload (members : List (PyStr × PyValue F)) : Option SignalPayload := do
  guard (forbidExtra ["kind", "candidate", "sdp_mid", "sdp_mline_index"] members)
  let candidate ← (item "candidate" members).bind (boundedStr maxCandidateLen)
  let sdpMid ← optional (boundedStr 64) (item "sdp_mid" members)
  let sdpMlineIndex ← optional (intField 0 1024) (item "sdp_mline_index" members)
  some (.iceCandidate candidate sdpMid sdpMlineIndex)

/-- The union, by `kind` -/
def SignalPayload.validate : PyValue F → Option SignalPayload
  | .obj members => match item "kind" members with
      | some (.str kind) =>
          if kind = PyStr.ofString "offer" then sdpPayload .offer members
          else if kind = PyStr.ofString "answer" then sdpPayload .answer members
          else if kind = PyStr.ofString "ice-candidate" then iceCandidatePayload members
          else none
      | _ => none
  | _ => none

def SignalSendFrame.validate (members : List (PyStr × PyValue F)) : Option SignalSendFrame := do
  guard (forbidExtra ["msg_type", "huddle_id", "to_user_id", "signal"] members)
  guard (isMsgType "signal.send" members)
  let huddleId ← (item "huddle_id" members).bind uuidField
  let toUserId ← optional uuidField (item "to_user_id" members)
  let signal ← (item "signal" members).bind SignalPayload.validate
  some { huddleId, toUserId, signal }

/-! ## the checks of `handle_chat_send` -/

/-- `valid_content_type`, with the type that is gone on with -/
def contentTypeOf : Option (PyValue F) → Option ContentType
  | none | some .null => some .text
  | some v => literal [.text, .markdown] ContentType.name v

/-- `valid_uuid` and `valid_client_msg_id`, by their pattern -/
def matchedStr (pattern : Pattern) : Option (PyValue F) → Option PyStr
  | some (.str s) => if pattern.pyMatch s then some s else none
  | _ => none

def checkContent (clientMsgId channelId : PyStr) (members : List (PyStr × PyValue F)) : Except Refusal ChatSend :=
  if forbidExtra ["msg_type", "client_msg_id", "channel_id", "content", "content_type"] members = false then
    .error (.blocked clientMsgId channelId .invalidMessage)
  else
    match item "content" members, contentTypeOf (item "content_type" members) with
    | some (.str content), some contentType =>
        if h : maxContentLen < content.length then .error (.blocked clientMsgId channelId .messageTooLarge)
        else .ok { clientMsgId, channelId, content := ⟨content, not_lt.mp h⟩, contentType }
    | _, _ => .error (.blocked clientMsgId channelId .invalidMessage)

def checkChatSend (members : List (PyStr × PyValue F)) : Except Refusal ChatSend :=
  match matchedStr correlationPattern (item "client_msg_id" members), matchedStr uuidPattern (item "channel_id" members) with
  | some clientMsgId, some channelId => checkContent clientMsgId channelId members
  | _, _ => .error (.error .invalidMessage)

end Fields

/-! ## dispatch -/

/-- What `json.loads` makes of a text. -/
inductive Loaded (F : Type)
  | value (v : PyValue F)
  /-- `ValueError`: it is not JSON, or an integer of it has too many digits -/
  | valueError
  /-- `RecursionError`: it nests too deeply -/
  | recursionError

structure RawFrame (F : Type) where
  length : Nat
  loaded : Loaded F

inductive Routed
  | refused (refusal : Refusal)
  | handed (frame : Accepted)
  | raised

def maxFrameBytes : Nat := 65536

section Dispatch

variable {F α : Type} [LaxNumbers F]

/-- A handler that answers a `ValidationError` with an error. -/
def validated (build : α → Accepted) (frame : Option α) : Routed :=
  match frame with
  | some frame => .handed (build frame)
  | none => .refused (.error .invalidMessage)

/-- `handle_chat_send`, up to the authorization -/
def handleChatSend (members : List (PyStr × PyValue F)) : Routed :=
  match checkChatSend members with
  | .ok frame => .handed (.chatSend frame)
  | .error refusal => .refused refusal

/-- `CHAT_HANDLERS`, each up to its effects -/
def handlers (members : List (PyStr × PyValue F)) : List (String × Routed) :=
  [("chat.send", handleChatSend members),
    ("chat.read", validated .chatRead (ChatReadFrame.validate members)),
    ("typing.set", validated .typingSet (TypingSetFrame.validate members)),
    ("presence.set", validated .presenceSet (PresenceSetFrame.validate members)),
    ("huddle.invite", validated .huddleInvite (HuddleInviteFrame.validate members)),
    ("huddle.hangup", validated .huddleHangup (HuddleHangupFrame.validate members)),
    ("signal.send", validated .signalSend (SignalSendFrame.validate members))]

/-- `CHAT_HANDLERS.get(msg_type)` and the call; a list or a dictionary has no hash. -/
def dispatch (members : List (PyStr × PyValue F)) : Routed :=
  match item "msg_type" members with
  | some (.arr _) | some (.obj _) => .raised
  | some (.str s) =>
      match (handlers members).find? fun handler => s = PyStr.ofString handler.1 with
      | some handler => handler.2
      | none => .refused (.error .invalidMessage)
  | _ => .refused (.error .invalidMessage)

/-- `dispatch_frame`, up to the effects of a handler -/
def route (raw : RawFrame F) : Routed :=
  if maxFrameBytes < raw.length then .refused (.error .messageTooLarge)
  else
    match raw.loaded with
    | .valueError => .refused (.error .invalidMessage)
    | .recursionError => .raised
    | .value (.obj members) => dispatch members
    | .value _ => .refused (.error .invalidMessage)

end Dispatch

/-! ## what is sent -/

/-- The ids of a verified token. -/
structure Identity where
  tenantId : Uuid
  userId : Uuid

inductive DetectorCategory
  | pii
  | injection
  | secret
deriving DecidableEq

def DetectorCategory.name : DetectorCategory → String
  | .pii => "pii"
  | .injection => "injection"
  | .secret => "secret"

inductive DetectorOutcome
  | pass
  | block

def DetectorOutcome.name : DetectorOutcome → String
  | .pass => "pass"
  | .block => "block"

/-- The findings of an inspection: up to one for a category. -/
structure Findings where
  detectors : List (DetectorCategory × DetectorOutcome)
  nodup : (detectors.map Prod.fst).Nodup

inductive InspectionStatus
  | pass
  | blocked
  | seamUnavailable

def InspectionStatus.name : InspectionStatus → String
  | .pass => "pass"
  | .blocked => "blocked"
  | .seamUnavailable => "seam_unavailable"

structure InspectionOutcome where
  status : InspectionStatus
  evaluatedAt : DateTime
  findings : Findings

/-- What `ArchivalMeta` is built from. -/
structure Archive where
  recordId : Uuid
  createdAt : DateTime
  seq : Nat
  prevRecordHash : Option Sha256
  contentHash : Option Sha256

structure Message where
  tenantId : Uuid
  channelId : Uuid
  senderUserId : Uuid
  content : BoundedStr maxContentLen
  contentType : ContentType
  archive : Archive
  inspectionEvaluatedAt : DateTime
  findings : Findings

/-- `_iso`: the offset is written `Z`. -/
def iso (d : DateTime) : String := String.ofList (d.isoformat.toList.take (d.isoformat.length - 6) ++ ['Z'])

section Builders

variable {F : Type}

def string (s : String) : PyValue F := .str (PyStr.ofString s)

def dict (members : List (String × PyValue F)) : PyValue F := .obj (members.map fun m => (PyStr.ofString m.1, m.2))

def orNull {p : PyStr → Prop} (s : Option {s // p s}) : PyValue F := (s.map fun s => PyValue.str s.val).getD .null

def intOrNull {p : Int → Prop} (n : Option {n // p n}) : PyValue F := (n.map fun n => PyValue.int n.val).getD .null

def idArray (ids : List Uuid) : PyValue F := .arr (ids.map fun id => PyValue.str id.val)

def buildError (code : ErrorCode) (requestId : RequestId) : PyValue F := dict [
  ("msg_type", string "error"), ("error_code", string code.text), ("message", string code.message),
  ("request_id", .str requestId)]

/-- `_archival_meta` and `_huddle_archival_meta` -/
def archivalMeta (archive : Archive) : PyValue F := dict [
  ("schema_version", string "1"), ("record_id", .str archive.recordId), ("created_at", string (iso archive.createdAt)),
  ("seq", .int archive.seq), ("prev_record_hash", orNull archive.prevRecordHash), ("content_hash", orNull archive.contentHash)]

def detectorDict (finding : DetectorCategory × DetectorOutcome) : PyValue F :=
  dict [("category", string finding.1.name), ("outcome", string finding.2.name)]

def inspectionObj (status : InspectionStatus) (evaluatedAt : DateTime) (findings : Findings) : PyValue F :=
  dict ([("status", string status.name), ("evaluated_at", string (iso evaluatedAt))] ++
    if findings.detectors = [] then [] else [("detectors", .arr (findings.detectors.map detectorDict))])

def buildChatMessage (msg : Message) : PyValue F := dict [
  ("msg_type", string "chat.message"), ("message_id", .str msg.archive.recordId), ("tenant_id", .str msg.tenantId),
  ("channel_id", .str msg.channelId), ("sender_user_id", .str msg.senderUserId), ("content", .str msg.content),
  ("content_type", string msg.contentType.name), ("archival", archivalMeta msg.archive),
  ("inspection", inspectionObj .pass msg.inspectionEvaluatedAt msg.findings)]

def buildChatAckAccepted (tenantId : Uuid) (clientMsgId channelId : PyStr) (messageId : Uuid) : PyValue F := dict [
  ("msg_type", string "chat.ack"), ("tenant_id", .str tenantId), ("client_msg_id", .str clientMsgId),
  ("channel_id", .str channelId), ("status", string "accepted"), ("message_id", .str messageId)]

def buildChatAckBlocked (tenantId : Uuid) (clientMsgId channelId : PyStr) (code : AckErrorCode)
    (inspection : Option InspectionOutcome) : PyValue F := dict ([
  ("msg_type", string "chat.ack"), ("tenant_id", .str tenantId), ("client_msg_id", .str clientMsgId),
  ("channel_id", .str channelId), ("status", string "blocked"), ("error_code", string code.text)] ++
    (inspection.map fun outcome =>
      ("inspection", inspectionObj outcome.status outcome.evaluatedAt outcome.findings)).toList)

def buildTypingUpdate (tenantId channelId userId : Uuid) (state : TypingState) : PyValue F := dict [
  ("msg_type", string "typing.update"), ("tenant_id", .str tenantId), ("channel_id", .str channelId),
  ("user_id", .str userId), ("state", string state.name)]

def buildPresenceUpdate (tenantId userId : Uuid) (status : PresenceStatus) : PyValue F := dict [
  ("msg_type", string "presence.update"), ("tenant_id", .str tenantId), ("user_id", .str userId),
  ("status", string status.name)]

def buildHuddleUpdate (huddleId tenantId : Uuid) (peerId : Uuid) (otherIds : List Uuid) (state : HuddleState)
    (archive : Option Archive) : PyValue F := dict ([
  ("msg_type", string "huddle.update"), ("huddle_id", .str huddleId), ("tenant_id", .str tenantId),
  ("peer_user_id", .str peerId), ("participant_ids", idArray (peerId :: otherIds)),
  ("state", string state.value)] ++ (archive.map fun archive => ("archival", archivalMeta archive)).toList)

/-- `signal.model_dump(mode="json")` -/
def SignalPayload.dump : SignalPayload → PyValue F
  | .offer sdp => dict [("kind", string "offer"), ("sdp", .str sdp)]
  | .answer sdp => dict [("kind", string "answer"), ("sdp", .str sdp)]
  | .iceCandidate candidate sdpMid sdpMlineIndex => dict [
      ("kind", string "ice-candidate"), ("candidate", .str candidate), ("sdp_mid", orNull sdpMid),
      ("sdp_mline_index", intOrNull sdpMlineIndex)]

def buildSignalRelay (tenantId huddleId fromUserId : Uuid) (signal : SignalPayload) : PyValue F := dict [
  ("msg_type", string "signal.relay"), ("tenant_id", .str tenantId), ("huddle_id", .str huddleId),
  ("from_user_id", .str fromUserId), ("signal", signal.dump)]

def Refusal.frame (conn : Identity) (requestId : RequestId) : Refusal → PyValue F
  | .error code => buildError code requestId
  | .blocked clientMsgId channelId code => buildChatAckBlocked conn.tenantId clientMsgId channelId code none

end Builders

/-! ## the effects -/

def HuddleInviteFrame.inviteeOrder (frame : HuddleInviteFrame) : List Uuid :=
  frame.peerUserId :: (frame.participantIds.map Subtype.val).getD []

def maxSeq : Nat := 9007199254740991

/-- A frame that the server builds from an accepted one, for its sender or for others.  Of
an invitation these are the updates of its huddle, to the last. -/
inductive Built {F : Type} (conn : Identity) : Accepted → PyValue F → Prop
  | error (frame : Accepted) (code : ErrorCode) (requestId : RequestId) : Built conn frame (buildError code requestId)
  | ackAccepted (chat : ChatSend) (messageId : Uuid) :
      Built conn (.chatSend chat) (buildChatAckAccepted conn.tenantId chat.clientMsgId chat.channelId messageId)
  | ackBlocked (chat : ChatSend) (code : AckErrorCode) (outcome : InspectionOutcome) :
      Built conn (.chatSend chat)
        (buildChatAckBlocked conn.tenantId chat.clientMsgId chat.channelId code (some outcome))
  | message (chat : ChatSend) (msg : Message) (content : msg.content = chat.content)
      (channelId : msg.channelId.val = chat.channelId) (contentType : msg.contentType = chat.contentType)
      (seq : msg.archive.seq ≤ maxSeq) : Built conn (.chatSend chat) (buildChatMessage msg)
  | typing (frame : TypingSetFrame) :
      Built conn (.typingSet frame) (buildTypingUpdate conn.tenantId frame.channelId conn.userId frame.state)
  | presence (frame : PresenceSetFrame) :
      Built conn (.presenceSet frame) (buildPresenceUpdate conn.tenantId conn.userId frame.status)
  | busy (frame : HuddleInviteFrame) (huddleId invitee : Uuid) (invited : invitee ∈ frame.inviteeOrder) :
      Built conn (.huddleInvite frame) (buildHuddleUpdate huddleId conn.tenantId invitee [] .busy none)
  | update (frame : HuddleInviteFrame) (huddleId recipient peerId : Uuid) (otherIds : List Uuid) (state : HuddleState)
      (archive : Option Archive) (live : recipient ∈ conn.userId :: frame.inviteeOrder)
      (others : ∀ id ∈ peerId :: otherIds, id ∈ conn.userId :: frame.inviteeOrder ∧ id ≠ recipient)
      (nodup : (peerId :: otherIds).Nodup) (seq : ∀ a ∈ archive, a.seq ≤ maxSeq) :
      Built conn (.huddleInvite frame) (buildHuddleUpdate huddleId conn.tenantId peerId otherIds state archive)
  | relay (frame : SignalSendFrame) :
      Built conn (.signalSend frame) (buildSignalRelay conn.tenantId frame.huddleId conn.userId frame.signal)

/-- `dispatch_frame`, with what the handlers do to the state and send once they have a frame -/
def dispatchFrame {F σ : Type} [LaxNumbers F] (effects : Accepted → σ → σ × List (PyValue F)) (conn : Identity)
    (requestId : RequestId) (raw : RawFrame F) (s : σ) : Option (σ × List (PyValue F)) :=
  match route raw with
  | .refused refusal => some (s, [refusal.frame conn requestId])
  | .handed frame => some (effects frame s)
  | .raised => none

end Anoryx.Rendly.Frames
