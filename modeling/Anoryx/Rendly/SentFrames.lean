import Anoryx.Rendly.Frames

/-!
# Anoryx.Rendly.SentFrames

The frames that are sent are in the catalog: each builder makes a frame of its variant.
The ids and the times are as the types have them; what a `chat.ack` echoes is not yet
(`Echoes`), as `handle_chat_send` keeps the client's texts.
-/

namespace Anoryx.Rendly.Frames

open PyJson JsonSchema Schema

/-! ## members -/

variable {s clientMsgId channelId : PyStr} {otherIds : List Uuid}

section Built

variable {F : Type} [Numbers F]

theorem length_le_of_test (h : MessageCatalog.uuidPattern.test s = true) : s.length ≤ 64 := by
  have hlength := length_le_of_run h
  have hsum : (MessageCatalog.uuidPattern.map Piece.most).sum = 36 := rfl
  rw [hsum] at hlength
  exact le_trans hlength (by decide)

@[simp] theorem valid_uuid (id : Uuid) : MessageCatalog.uuid.valid (.str id : PyValue F) = true := by
  simp [MessageCatalog.uuid, valid, allValid, Kind.is, id.property, length_le_of_test id.property]

theorem valid_matched {pattern : Pattern} (h : pattern.test s = true) (hbound : (pattern.map Piece.most).sum ≤ 64)
    (kinds : List Kind) :
    (allOf [.type (.string :: kinds), .pattern pattern, .maxLength 64]).valid (.str s : PyValue F) = true := by
  have hlength : s.length ≤ 64 := le_trans (length_le_of_run h) hbound
  simp [valid, allValid, Kind.is, h, hlength]

@[simp] theorem valid_sha256 (hash : Option Sha256) : MessageCatalog.sha256Hex.valid (orNull hash : PyValue F) = true := by
  cases hash with
  | none => rfl
  | some hash => exact valid_matched hash.property (by decide) [.null]

theorem length_isoformat_le (d : DateTime) : d.isoformat.length ≤ 32 := by
  have htail : (DateTime.isoTail d.microsecond).length ≤ 13 := by
    rw [DateTime.isoTail]
    split <;> simp [DateTime.length_padded]
  rw [DateTime.isoformat, String.length_ofList]
  simp only [List.length_append, List.length_cons, DateTime.length_padded]
  omega

@[simp] theorem valid_iso (d : DateTime) : MessageCatalog.isoDatetime.valid (string (iso d) : PyValue F) = true := by
  have hlength : (iso d).length ≤ 64 := by
    have h := length_isoformat_le d
    rw [iso, String.length_ofList, List.length_append, List.length_take, String.length_toList]
    simp only [List.length_cons, List.length_nil]
    omega
  simp [MessageCatalog.isoDatetime, valid, allValid, Kind.is, string, hlength]

@[simp] theorem valid_string_const (text : String) : (const text).valid (string text : PyValue F) = true :=
  valid_const.mpr rfl

def isThere (members : List (PyStr × PyValue F)) (name : String) : Bool := (item name members).isSome

omit [Numbers F] in
@[simp] theorem isThere_eq (members : List (PyStr × PyValue F)) (name : String) :
    isThere members name = (item name members).isSome := rfl

theorem valid_dict (required : List String) (properties : List (String × Schema)) (more : List Schema)
    (members : List (String × PyValue F)) :
    (closedObject required properties more).valid (dict members) =
      (required.all (isThere (members.map fun m => (PyStr.ofString m.1, m.2))) &&
        propertiesValid properties (members.map fun m => (PyStr.ofString m.1, m.2)) &&
        (members.all fun m => properties.any fun p => m.1 = p.1) && allValid more (dict members)) := by
  have hthere : isThere (members.map fun m => (PyStr.ofString m.1, m.2)) =
      fun name => (item name (members.map fun m => (PyStr.ofString m.1, m.2))).isSome := rfl
  simp [closedObject, dict, valid, allValid, Kind.is, Function.comp_def, Bool.and_assoc, hthere]

theorem valid_error (code : ErrorCode) (requestId : RequestId) :
    (MessageCatalog.errorFrame.schema "msg_type").valid (buildError code requestId : PyValue F) = true := by
  have hid : MessageCatalog.requestId.valid (.str requestId : PyValue F) = true :=
    valid_matched requestId.property (by decide) []
  have hcode : MessageCatalog.errorCode.valid (string code.text : PyValue F) = true := by
    cases code <;> simp [MessageCatalog.errorCode, valid, string, ErrorCode.text]
  have hmessage : (allOf [.type [.string], .maxLength 200, .enum MessageCatalog.errorMessages]).valid
      (string code.message : PyValue F) = true := by
    have hmem : code.message ∈ MessageCatalog.errorMessages := by
      cases code <;> simp [ErrorCode.message, MessageCatalog.errorMessages]
    have hlength : ∀ text ∈ MessageCatalog.errorMessages, text.length ≤ 200 := by decide
    have hlength' := hlength code.message hmem
    simp [string, valid, allValid, Kind.is, hlength', hmem]
  simp [buildError, Variant.schema, valid_dict, MessageCatalog.errorFrame, allValid, propertiesValid, hcode, hmessage, hid]

theorem valid_typingUpdate (tenantId channelId userId : Uuid) (state : TypingState) :
    (MessageCatalog.typingUpdate.schema "msg_type").valid (buildTypingUpdate tenantId channelId userId state : PyValue F) =
      true := by
  have hstate : MessageCatalog.typingState.valid (string state.name : PyValue F) = true := by cases state <;> rfl
  simp [buildTypingUpdate, Variant.schema, valid_dict, MessageCatalog.typingUpdate, MessageCatalog.tenantId,
    MessageCatalog.channelId, MessageCatalog.userId, allValid, propertiesValid, hstate]

theorem valid_presenceUpdate (tenantId userId : Uuid) (status : PresenceStatus) :
    (MessageCatalog.presenceUpdate.schema "msg_type").valid (buildPresenceUpdate tenantId userId status : PyValue F) =
      true := by
  have hstatus : MessageCatalog.presenceStatus.valid (string status.name : PyValue F) = true := by cases status <;> rfl
  simp [buildPresenceUpdate, Variant.schema, valid_dict, MessageCatalog.presenceUpdate, MessageCatalog.tenantId,
    MessageCatalog.userId, allValid, propertiesValid, hstatus]

theorem valid_archivalMeta {archive : Archive} (h : archive.seq ≤ maxSeq) :
    MessageCatalog.archivalMeta.valid (archivalMeta archive : PyValue F) = true := by
  have hseq : (archive.seq : Int) ≤ 9007199254740991 := by exact_mod_cast h
  simp [archivalMeta, MessageCatalog.archivalMeta, valid_dict, allValid, propertiesValid, valid, Kind.is, hseq]

theorem Findings.length_le (findings : Findings) : findings.detectors.length ≤ 3 := by
  have hsubset : findings.detectors.map Prod.fst ⊆ [.pii, .injection, .secret] := by
    intro category _
    cases category <;> simp
  have hlength := (findings.nodup.subperm hsubset).length_le
  rwa [List.length_map] at hlength

theorem valid_finding (finding : DetectorCategory × DetectorOutcome) :
    MessageCatalog.finding.valid (detectorDict finding : PyValue F) = true := by
  obtain ⟨category, outcome⟩ := finding
  cases category <;> cases outcome <;>
    simp [MessageCatalog.finding, detectorDict, valid_dict, allValid, propertiesValid, valid, string,
      DetectorCategory.name, DetectorOutcome.name]

theorem valid_inspectionObj (status : InspectionStatus) (evaluatedAt : DateTime) (findings : Findings) :
    MessageCatalog.inspectionResult.valid (inspectionObj status evaluatedAt findings : PyValue F) = true := by
  have hlength : findings.detectors.length ≤ 16 := le_trans findings.length_le (by decide)
  have hdetectors : MessageCatalog.detectors.valid (.arr (findings.detectors.map detectorDict) : PyValue F) = true := by
    simp [MessageCatalog.detectors, valid, allValid, Kind.is, hlength, valid_finding]
  have hstatus : MessageCatalog.inspectionStatus.valid (string status.name : PyValue F) = true := by
    cases status <;> rfl
  rw [inspectionObj]
  split <;>
    simp [MessageCatalog.inspectionResult, valid_dict, allValid, propertiesValid, hstatus, hdetectors]

/-- A message that is sent has the catalog's form, while its number is in range. -/
theorem valid_chatMessage {msg : Message} (h : msg.archive.seq ≤ maxSeq) :
    (MessageCatalog.chatMessage.schema "msg_type").valid (buildChatMessage msg : PyValue F) = true := by
  have hcontent : MessageCatalog.textContent.valid (.str msg.content : PyValue F) = true := by
    have hlength : msg.content.val.length ≤ 16384 := msg.content.property
    simp [MessageCatalog.textContent, valid, allValid, Kind.is, hlength]
  have htype : MessageCatalog.contentType.valid (string msg.contentType.name : PyValue F) = true := by
    cases msg.contentType <;> rfl
  have hpass : (properties [("status", .const "pass")]).valid
      (inspectionObj .pass msg.inspectionEvaluatedAt msg.findings : PyValue F) = true := by
    simp [inspectionObj, dict, valid, propertiesValid, InspectionStatus.name]
  have hinspection : (allOf [MessageCatalog.inspectionResult, .properties [("status", .const "pass")]]).valid
      (inspectionObj .pass msg.inspectionEvaluatedAt msg.findings : PyValue F) = true := by
    rw [valid, allValid, allValid, allValid, valid_inspectionObj, hpass]
    rfl
  simp [buildChatMessage, Variant.schema, valid_dict, MessageCatalog.chatMessage, MessageCatalog.messageId,
    MessageCatalog.tenantId, MessageCatalog.channelId, MessageCatalog.userId, allValid, propertiesValid, hcontent, htype,
    valid_archivalMeta h, hinspection]

/-- The texts that a `chat.ack` echoes are as the catalog has them. -/
structure Echoes (clientMsgId channelId : PyStr) : Prop where
  clientMsgId : MessageCatalog.correlationPattern.test clientMsgId = true
  channelId : MessageCatalog.uuidPattern.test channelId = true

theorem Echoes.valid (h : Echoes clientMsgId channelId) :
    MessageCatalog.clientMsgId.valid (.str clientMsgId : PyValue F) = true ∧
      MessageCatalog.uuid.valid (.str channelId : PyValue F) = true :=
  ⟨valid_matched h.clientMsgId (by decide) [], valid_uuid ⟨channelId, h.channelId⟩⟩

theorem valid_chatAckAccepted (tenantId messageId : Uuid) (h : Echoes clientMsgId channelId) :
    (MessageCatalog.chatAck.schema "msg_type").valid
    (buildChatAckAccepted tenantId clientMsgId channelId messageId : PyValue F) = true := by
  have hstatus : (enum ["accepted", "blocked"]).valid (string "accepted" : PyValue F) = true := rfl
  have hother : (const "blocked").valid (string "accepted" : PyValue F) = false := rfl
  have hmore : allValid MessageCatalog.chatAck.more
      (buildChatAckAccepted tenantId clientMsgId channelId messageId : PyValue F) = true := by
    simp [MessageCatalog.chatAck, MessageCatalog.statusRule, buildChatAckAccepted, dict, allValid, valid,
      propertiesValid, hother]
  rw [buildChatAckAccepted] at hmore ⊢
  rw [Variant.schema, valid_dict, hmore]
  simp [MessageCatalog.chatAck, MessageCatalog.messageId, MessageCatalog.tenantId, MessageCatalog.channelId,
    propertiesValid, h.valid, hstatus]

theorem valid_chatAckBlocked (tenantId : Uuid) (h : Echoes clientMsgId channelId) (code : AckErrorCode)
    (outcome : Option InspectionOutcome) : (MessageCatalog.chatAck.schema "msg_type").valid
    (buildChatAckBlocked tenantId clientMsgId channelId code outcome : PyValue F) = true := by
  have hstatus : (enum ["accepted", "blocked"]).valid (string "blocked" : PyValue F) = true := rfl
  have hother : (const "accepted").valid (string "blocked" : PyValue F) = false := rfl
  have hcode : (enum ["message_blocked", "message_too_large", "inspection_unavailable", "invalid_message"]).valid
      (string code.text : PyValue F) = true := by cases code <;> rfl
  have hmore : allValid MessageCatalog.chatAck.more
      (buildChatAckBlocked tenantId clientMsgId channelId code outcome : PyValue F) = true := by
    cases outcome <;>
      simp [MessageCatalog.chatAck, MessageCatalog.statusRule, buildChatAckBlocked, dict, allValid, valid,
        propertiesValid, hother]
  rw [buildChatAckBlocked] at hmore ⊢
  rw [Variant.schema, valid_dict, hmore]
  cases outcome <;>
    simp [MessageCatalog.chatAck, MessageCatalog.messageId, MessageCatalog.tenantId, MessageCatalog.channelId,
      propertiesValid, h.valid, hstatus, hcode, valid_inspectionObj]

/-- An update of a huddle of eight at most. -/
theorem valid_huddleUpdate (huddleId tenantId peerId : Uuid) (state : HuddleState) {archive : Option Archive}
    (hothers : otherIds.length ≤ 6) (hseq : ∀ a ∈ archive, a.seq ≤ maxSeq) :
    (MessageCatalog.huddleUpdate.schema "msg_type").valid
      (buildHuddleUpdate huddleId tenantId peerId otherIds state archive : PyValue F) = true := by
  have hstate : (enum ["ringing", "accepted", "active", "declined", "ended", "busy"]).valid
      (string state.value : PyValue F) = true := by cases state <;> rfl
  have hids : (allOf [.type [.array], .minItems 1, .maxItems 7, .items MessageCatalog.uuid]).valid
      (idArray (peerId :: otherIds) : PyValue F) = true := by
    have hlength : otherIds.length + 1 ≤ 7 := by omega
    simp only [idArray, valid, allValid, Kind.is, List.length_map, List.length_cons, hlength, List.all_map,
      valid_uuid, Function.comp_def]
    simp
  cases archive with
  | none =>
      simp [buildHuddleUpdate, Variant.schema, valid_dict, MessageCatalog.huddleUpdate, MessageCatalog.huddleId,
        MessageCatalog.tenantId, MessageCatalog.userId, allValid, propertiesValid, hstate, hids]
  | some archive =>
      have harchive := valid_archivalMeta (F := F) (hseq archive rfl)
      simp [buildHuddleUpdate, Variant.schema, valid_dict, MessageCatalog.huddleUpdate, MessageCatalog.huddleId,
        MessageCatalog.tenantId, MessageCatalog.userId, allValid, propertiesValid, hstate, hids, harchive]

theorem valid_sdp (kind : String) (sdp : BoundedStr maxSdpLen) :
    ((MessageCatalog.sdpVariant kind).schema "kind").valid
      (dict [("kind", string kind), ("sdp", .str sdp)] : PyValue F) = true := by
  have hsdp : (allOf [.type [.string], .maxLength 65536]).valid (.str sdp : PyValue F) = true := by
    have hlength : sdp.val.length ≤ 65536 := sdp.property
    simp [valid, allValid, Kind.is, hlength]
  simp [MessageCatalog.sdpVariant, Variant.schema, valid_dict, allValid, propertiesValid, hsdp]

theorem valid_iceCandidate (candidate : BoundedStr maxCandidateLen) (sdpMid : Option (BoundedStr 64))
    (sdpMlineIndex : Option (IntBetween 0 1024)) : (MessageCatalog.iceCandidate.schema "kind").valid
    ((SignalPayload.iceCandidate candidate sdpMid sdpMlineIndex).dump : PyValue F) = true := by
  have hcandidate : (allOf [.type [.string], .maxLength 1024]).valid (.str candidate : PyValue F) = true := by
    have hlength : candidate.val.length ≤ 1024 := candidate.property
    simp [valid, allValid, Kind.is, hlength]
  have hmid : (allOf [.type [.string, .null], .maxLength 64]).valid (orNull sdpMid : PyValue F) = true := by
    cases sdpMid with
    | none => rfl
    | some mid =>
        have hlength := mid.property
        simp [orNull, valid, allValid, Kind.is, hlength]
  have hindex : (allOf [.type [.integer, .null], .minimum 0, .maximum 1024]).valid
      (intOrNull sdpMlineIndex : PyValue F) = true := by
    cases sdpMlineIndex with
    | none => rfl
    | some n =>
        obtain ⟨n, hge, hle⟩ := n
        simp [intOrNull, valid, allValid, Kind.is, hge, hle]
  rw [SignalPayload.dump]
  simp [MessageCatalog.iceCandidate, Variant.schema, valid_dict, allValid, propertiesValid,
    hcandidate, hmid, hindex]

theorem valid_dump (signal : SignalPayload) : MessageCatalog.signal.valid (signal.dump : PyValue F) = true := by
  rw [MessageCatalog.valid_signal]
  cases signal with
  | offer sdp => exact ⟨_, .head _, valid_sdp "offer" sdp⟩
  | answer sdp => exact ⟨_, .tail _ (.head _), valid_sdp "answer" sdp⟩
  | iceCandidate candidate sdpMid sdpMlineIndex =>
      exact ⟨_, .tail _ (.tail _ (.head _)), valid_iceCandidate candidate sdpMid sdpMlineIndex⟩

theorem valid_signalRelay (tenantId huddleId fromUserId : Uuid) (signal : SignalPayload) :
    (MessageCatalog.signalRelay.schema "msg_type").valid
      (buildSignalRelay tenantId huddleId fromUserId signal : PyValue F) = true := by
  simp [buildSignalRelay, Variant.schema, valid_dict, MessageCatalog.signalRelay, MessageCatalog.huddleId,
    MessageCatalog.tenantId, MessageCatalog.userId, allValid, propertiesValid, valid_dump]

end Built

/-! ## the frames of an accepted one -/

section Echoed

variable {F : Type} [Numbers F] {conn : Identity} {accepted : Accepted} {frame : PyValue F}

theorem valid_catalog_of {variant : Variant} (hmem : variant ∈ MessageCatalog.variants)
    (h : (variant.schema "msg_type").valid frame = true) : MessageCatalog.catalog.valid frame = true :=
  MessageCatalog.valid_catalog.mpr ⟨variant, hmem, h⟩

theorem length_others_le {invite : HuddleInviteFrame} {recipient peerId : Uuid}
    (hlive : recipient ∈ conn.userId :: invite.inviteeOrder)
    (hothers : ∀ id ∈ peerId :: otherIds, id ∈ conn.userId :: invite.inviteeOrder ∧ id ≠ recipient)
    (hnodup : (peerId :: otherIds).Nodup) : otherIds.length ≤ 6 := by
  have hparticipants : (conn.userId :: invite.inviteeOrder).length ≤ 8 := by
    rw [HuddleInviteFrame.inviteeOrder]
    cases hids : invite.participantIds with
    | none => simp
    | some ids =>
        have hmost := ids.property.2
        simp only [Option.map_some, Option.getD_some, List.length_cons]
        omega
  have hsubset : peerId :: otherIds ⊆ (conn.userId :: invite.inviteeOrder).erase recipient := by
    intro id hid
    obtain ⟨hmem, hne⟩ := hothers id hid
    exact (List.mem_erase_of_ne hne).mpr hmem
  have hlength := (hnodup.subperm hsubset).length_le
  rw [List.length_erase_of_mem hlive, List.length_cons] at hlength
  omega

/-- Every frame that is built is valid against the catalog. -/
theorem valid_built (hechoes : ∀ chat, accepted = .chatSend chat → Echoes chat.clientMsgId chat.channelId)
    (h : Built conn accepted frame) : MessageCatalog.catalog.valid frame = true := by
  cases h with
  | error _ code requestId => exact valid_catalog_of (by simp [MessageCatalog.variants]) (valid_error code requestId)
  | ackAccepted chat messageId =>
      exact valid_catalog_of (by simp [MessageCatalog.variants])
        (valid_chatAckAccepted conn.tenantId messageId (hechoes chat rfl))
  | ackBlocked chat code outcome =>
      exact valid_catalog_of (by simp [MessageCatalog.variants])
        (valid_chatAckBlocked conn.tenantId (hechoes chat rfl) code (some outcome))
  | message chat msg _ _ _ hseq =>
      exact valid_catalog_of (by simp [MessageCatalog.variants]) (valid_chatMessage hseq)
  | typing typing =>
      exact valid_catalog_of (by simp [MessageCatalog.variants])
        (valid_typingUpdate conn.tenantId typing.channelId conn.userId typing.state)
  | presence presence =>
      exact valid_catalog_of (by simp [MessageCatalog.variants])
        (valid_presenceUpdate conn.tenantId conn.userId presence.status)
  | busy invite huddleId invitee _ =>
      exact valid_catalog_of (by simp [MessageCatalog.variants])
        (valid_huddleUpdate huddleId conn.tenantId invitee .busy (Nat.zero_le _) fun a ha => by contradiction)
  | update invite huddleId recipient peerId otherIds state archive hlive hothers hnodup hseq =>
      exact valid_catalog_of (by simp [MessageCatalog.variants])
        (valid_huddleUpdate huddleId conn.tenantId peerId state (length_others_le hlive hothers hnodup) hseq)
  | relay signal =>
      exact valid_catalog_of (by simp [MessageCatalog.variants])
        (valid_signalRelay conn.tenantId signal.huddleId conn.userId signal.signal)

end Echoed

end Anoryx.Rendly.Frames
