import Anoryx.JsonSchema

/-!
# Anoryx.Rendly.MessageCatalog

The catalog of the real-time frames (`contracts/messages.schema.json`), one variant for
each `msg_type`.  A `type` beside a constant is left out, as it says nothing more.

A frame is told by its `msg_type`, so it is valid for the catalog just when it is for one
of the variants (`valid_catalog`).
-/

namespace Anoryx.Rendly.MessageCatalog

open JsonSchema

/-! ## the definitions -/

def hexClass : List (Char × Char) := [('0', '9'), ('a', 'f'), ('A', 'F')]

def dash : Piece := ⟨[('-', '-')], 1, 1⟩

/-- `^[0-9a-fA-F]{8}-[0-9a-fA-F]{4}-[0-9a-fA-F]{4}-[0-9a-fA-F]{4}-[0-9a-fA-F]{12}$` -/
def uuidPattern : Pattern :=
  [⟨hexClass, 8, 8⟩, dash, ⟨hexClass, 4, 4⟩, dash, ⟨hexClass, 4, 4⟩, dash, ⟨hexClass, 4, 4⟩, dash, ⟨hexClass, 12, 12⟩]

/-- `^[A-Za-z0-9._-]{1,64}$` -/
def correlationPattern : Pattern := [⟨[('A', 'Z'), ('a', 'z'), ('0', '9'), ('.', '.'), ('_', '_'), ('-', '-')], 1, 64⟩]

/-- `^[0-9a-f]{64}$` -/
def sha256Pattern : Pattern := [⟨[('0', '9'), ('a', 'f')], 64, 64⟩]

def uuid : Schema := .allOf [.type [.string], .pattern uuidPattern, .maxLength 64]

def tenantId : Schema := uuid

def userId : Schema := uuid

def channelId : Schema := uuid

def messageId : Schema := uuid

def huddleId : Schema := uuid

def clientMsgId : Schema := .allOf [.type [.string], .pattern correlationPattern, .maxLength 64]

def requestId : Schema := .allOf [.type [.string], .pattern correlationPattern, .maxLength 64]

def isoDatetime : Schema := .allOf [.type [.string], .maxLength 64]

def textContent : Schema := .allOf [.type [.string], .maxLength 16384]

def contentType : Schema := .enum ["text", "markdown"]

def presenceStatus : Schema := .enum ["online", "away", "busy", "offline"]

def typingState : Schema := .enum ["start", "stop"]

def sha256Hex : Schema := .allOf [.type [.string, .null], .pattern sha256Pattern, .maxLength 64]

def archivalMeta : Schema :=
  closedObject ["schema_version", "record_id", "created_at", "seq", "prev_record_hash", "content_hash"]
    [("schema_version", .const "1"), ("record_id", uuid), ("created_at", isoDatetime),
      ("seq", .allOf [.type [.integer], .minimum 0, .maximum 9007199254740991]), ("prev_record_hash", sha256Hex),
      ("content_hash", sha256Hex)] []

def finding : Schema :=
  closedObject ["category", "outcome"]
    [("category", .enum ["pii", "injection", "secret"]), ("outcome", .enum ["pass", "block"])] []

def detectors : Schema := .allOf [.type [.array], .maxItems 16, .items finding]

def inspectionStatus : Schema := .enum ["pass", "blocked", "seam_unavailable"]

def inspectionResult : Schema :=
  closedObject ["status"]
    [("status", inspectionStatus), ("evaluated_at", isoDatetime), ("detectors", detectors)] []

def sdpVariant (kind : String) : Variant := ⟨kind, ["sdp"], [("sdp", .allOf [.type [.string], .maxLength 65536])], []⟩

def offer : Variant := sdpVariant "offer"

def answer : Variant := sdpVariant "answer"

def iceCandidate : Variant :=
  ⟨"ice-candidate", ["candidate"],
    [("candidate", .allOf [.type [.string], .maxLength 1024]), ("sdp_mid", .allOf [.type [.string, .null], .maxLength 64]),
      ("sdp_mline_index", .allOf [.type [.integer, .null], .minimum 0, .maximum 1024])], []⟩

def signalVariants : List Variant := [offer, answer, iceCandidate]

def signal : Schema := oneOfVariants "kind" signalVariants

/-! ## the frames -/

def sessionWelcome : Variant :=
  ⟨"session.welcome", ["tenant_id", "user_id", "server_time", "protocol_version"],
    [("tenant_id", tenantId), ("user_id", userId), ("server_time", isoDatetime), ("protocol_version", .const "1")], []⟩

def chatSend : Variant :=
  ⟨"chat.send", ["client_msg_id", "channel_id", "content"],
    [("client_msg_id", clientMsgId), ("channel_id", channelId), ("content", textContent),
      ("content_type", contentType)], []⟩

def chatMessage : Variant :=
  ⟨"chat.message", ["message_id", "tenant_id", "channel_id", "sender_user_id", "content", "content_type", "archival",
      "inspection"],
    [("message_id", messageId), ("tenant_id", tenantId), ("channel_id", channelId), ("sender_user_id", userId),
      ("content", textContent), ("content_type", contentType), ("archival", archivalMeta),
      ("inspection", .allOf [inspectionResult, .properties [("status", .const "pass")]])], []⟩

/-- `if` the status is this one, `then` this member is there and that one is not. -/
def statusRule (status present absent : String) : Schema :=
  .ifThen (.allOf [.required ["status"], .properties [("status", .const status)]])
    (.allOf [.required [present], .not (.required [absent])])

def chatAck : Variant :=
  ⟨"chat.ack", ["tenant_id", "client_msg_id", "channel_id", "status"],
    [("tenant_id", tenantId), ("client_msg_id", clientMsgId), ("channel_id", channelId),
      ("status", .enum ["accepted", "blocked"]), ("message_id", messageId),
      ("error_code", .enum ["message_blocked", "message_too_large", "inspection_unavailable", "invalid_message"]),
      ("inspection", inspectionResult)],
    [.allOf [statusRule "accepted" "message_id" "error_code", statusRule "blocked" "error_code" "message_id"]]⟩

def chatRead : Variant :=
  ⟨"chat.read", ["channel_id", "up_to_message_id"], [("channel_id", channelId), ("up_to_message_id", messageId)], []⟩

def typingSet : Variant := ⟨"typing.set", ["channel_id", "state"], [("channel_id", channelId), ("state", typingState)], []⟩

def typingUpdate : Variant :=
  ⟨"typing.update", ["tenant_id", "channel_id", "user_id", "state"],
    [("tenant_id", tenantId), ("channel_id", channelId), ("user_id", userId), ("state", typingState)], []⟩

def presenceSet : Variant := ⟨"presence.set", ["status"], [("status", presenceStatus)], []⟩

def presenceUpdate : Variant :=
  ⟨"presence.update", ["tenant_id", "user_id", "status"],
    [("tenant_id", tenantId), ("user_id", userId), ("status", presenceStatus)], []⟩

def huddleInvite : Variant :=
  ⟨"huddle.invite", ["peer_user_id"],
    [("peer_user_id", userId), ("channel_id", channelId),
      ("participant_ids", .allOf [.type [.array], .minItems 1, .maxItems 6, .items userId])], []⟩

def huddleUpdate : Variant :=
  ⟨"huddle.update", ["huddle_id", "tenant_id", "peer_user_id", "participant_ids", "state"],
    [("huddle_id", huddleId), ("tenant_id", tenantId), ("peer_user_id", userId),
      ("participant_ids", .allOf [.type [.array], .minItems 1, .maxItems 7, .items userId]),
      ("state", .enum ["ringing", "accepted", "active", "declined", "ended", "busy"]), ("archival", archivalMeta)], []⟩

def huddleHangup : Variant := ⟨"huddle.hangup", ["huddle_id"], [("huddle_id", huddleId)], []⟩

def signalSend : Variant :=
  ⟨"signal.send", ["huddle_id", "signal"], [("huddle_id", huddleId), ("to_user_id", userId), ("signal", signal)], []⟩

def signalRelay : Variant :=
  ⟨"signal.relay", ["tenant_id", "huddle_id", "from_user_id", "signal"],
    [("tenant_id", tenantId), ("huddle_id", huddleId), ("from_user_id", userId), ("signal", signal)], []⟩

def errorCode : Schema :=
  .enum ["unauthorized", "invalid_message", "message_too_large", "rate_limit_exceeded", "message_blocked",
    "inspection_unavailable", "huddle_unavailable", "internal_error"]

def errorMessages : List String :=
  ["The connection is not authenticated or the token has expired.",
    "The real-time frame is invalid or violates a field constraint.",
    "The message exceeds the maximum allowed size.",
    "Rate limit exceeded. Slow down and retry.",
    "Content was blocked by the safety inspection seam.",
    "The safety inspection seam is unavailable; the send was blocked.",
    "The requested huddle is unavailable.",
    "An internal error occurred. The frame was not processed."]

def errorFrame : Variant :=
  ⟨"error", ["error_code", "message", "request_id"],
    [("error_code", errorCode), ("message", .allOf [.type [.string], .maxLength 200, .enum errorMessages]),
      ("request_id", requestId)], []⟩

def variants : List Variant :=
  [sessionWelcome, chatSend, chatMessage, chatAck, chatRead, typingSet, typingUpdate, presenceSet, presenceUpdate,
    huddleInvite, huddleUpdate, huddleHangup, signalSend, signalRelay, errorFrame]

def catalog : Schema := oneOfVariants "msg_type" variants

/-- Client to server. -/
def clientVariants : List Variant :=
  [chatSend, chatRead, typingSet, presenceSet, huddleInvite, huddleHangup, signalSend]

variable {F : Type} [Numbers F] {v : PyJson.PyValue F}

theorem valid_catalog : catalog.valid v = true ↔ ∃ variant ∈ variants, (variant.schema "msg_type").valid v = true :=
  valid_oneOf (by decide)

theorem valid_signal : signal.valid v = true ↔ ∃ variant ∈ signalVariants, (variant.schema "kind").valid v = true :=
  valid_oneOf (by decide)

end Anoryx.Rendly.MessageCatalog
