import Anoryx.Rendly.SentFrames

/-!
# Anoryx.Rendly.FrameCatalog

The frames against their catalog: a client's frame is handed to its handler's effects just
when it is valid for the catalog, and so are the frames that are sent.

The checks slip on some frames (`Loaded.Slips`): a pattern of Python's `re` takes a newline
at the end, a field with a default takes `null`, an integer is read out of a text or a
truth value, a `msg_type` without a hash and a text that nests too deeply raise.
-/

namespace Anoryx.Rendly.Frames

open PyJson JsonSchema MessageCatalog Schema

/-! ## fields -/

variable {name : String} {pattern : Pattern} {refusal : Refusal} {clientMsgId channelId s content : PyStr}

section Fields

variable {F α β : Type} [LaxNumbers F] {v : PyValue F} {members : List (PyStr × PyValue F)}

/-- The text has no surrogate without its partner. -/
def encodes : PyValue F → Bool
  | .str s => s.encode.isSome
  | _ => true

theorem isSome_literal (values : List α) (name : α → String) :
    (literal values name v).isSome = (enum (values.map name)).valid v := by
  cases v <;> simp [literal, valid, List.isSome_find?, Function.comp_def]

theorem isSome_boundedStr (maxLength : Nat) :
    (boundedStr maxLength v).isSome = ((allOf [.type [.string], .maxLength maxLength]).valid v && encodes v) := by
  cases v with
  | str s =>
      cases hencode : s.encode.isSome with
      | true => by_cases hlength : s.length ≤ maxLength <;>
          simp [boundedStr, hencode, hlength, valid, allValid, Kind.is, encodes]
      | false => simp [boundedStr, hencode, encodes]
  | _ => simp [boundedStr, valid, allValid, Kind.is]

theorem isSome_uuidField : (uuidField v).isSome = uuid.valid v := by
  rw [uuidField]
  cases v with
  | str s =>
      cases htest : uuidPattern.test s with
      | true =>
          have hencode := encodes_of_test (rfl : uuidPattern.isAscii = true) htest
          simp [boundedStr, hencode, length_le_of_test htest, htest, uuid, valid, allValid, Kind.is]
      | false =>
          rw [boundedStr]
          split <;> simp [htest, uuid, valid, allValid, Kind.is]
  | _ => simp [boundedStr, uuid, valid, allValid, Kind.is]

variable {o : Option (PyValue F)} {f : β → Option α} {xs : List β}

theorem isSome_optional (field : PyValue F → Option α) (h : o.all fun v => !Kind.null.is v) :
    (optional field o).isSome = o.all fun v => (field v).isSome := by
  cases o with
  | none => rfl
  | some v => cases v <;> simp_all [optional, Kind.is]

theorem isSome_intField (h : !Kind.string.is v && !Kind.boolean.is v) (ge le : Int) :
    (intField ge le v).isSome = (allOf [.type [.integer], .minimum ge, .maximum le]).valid v := by
  rw [intField]
  cases v with
  | int n =>
      by_cases hge : ge ≤ n <;> by_cases hle : n ≤ le <;> simp [laxInt, hge, hle, valid, allValid, Kind.is]
  | float x =>
      cases hx : Numbers.toInt x with
      | none => simp [laxInt, hx, valid, allValid, Kind.is]
      | some n =>
          by_cases hge : ge ≤ n <;> by_cases hle : n ≤ le <;>
            simp [laxInt, hx, hge, hle, valid, allValid, Kind.is, Numbers.atLeast_of_toInt hx, Numbers.atMost_of_toInt hx]
  | _ => simp_all [laxInt, valid, allValid, Kind.is]

theorem isSome_mapM : (xs.mapM f).isSome = xs.all fun x => (f x).isSome := by
  induction xs with
  | nil => rfl
  | cons x xs ih =>
      rw [List.mapM_cons, List.all_cons, ← ih]
      cases f x <;> cases xs.mapM f <;> rfl

theorem length_mapM {ys : List α} (h : xs.mapM f = some ys) : ys.length = xs.length := by
  induction xs generalizing ys with
  | nil =>
      cases h
      rfl
  | cons x xs ih =>
      rw [List.mapM_cons] at h
      obtain ⟨y, -, h⟩ := Option.bind_eq_some_iff.mp h
      obtain ⟨ys', hys, h⟩ := Option.bind_eq_some_iff.mp h
      cases h
      rw [List.length_cons, List.length_cons, ih hys]

theorem isSome_participantIdsField :
    (participantIdsField v).isSome =
      (allOf [.type [.array], .minItems 1, .maxItems 6, .items uuid]).valid v := by
  cases v with
  | arr vs =>
      rw [participantIdsField]
      have hitems : (vs.mapM uuidField).isSome = vs.all fun v => uuid.valid v := by
        rw [isSome_mapM]
        simp only [isSome_uuidField]
      cases hids : vs.mapM uuidField with
      | none =>
          rw [hids] at hitems
          simp [valid, allValid, Kind.is, ← hitems]
      | some ids =>
          rw [hids] at hitems
          have hlength := length_mapM hids
          by_cases hleast : 1 ≤ vs.length <;> by_cases hmost : vs.length ≤ 6 <;>
            simp [valid, allValid, Kind.is, ← hitems, hlength, hleast, hmost]
  | _ => simp [participantIdsField, valid, allValid, Kind.is]

/-! ## frames -/

/-- The member is `null`, which no schema of the catalog's members allows but a signal's. -/
def isNull (name : String) (members : List (PyStr × PyValue F)) : Bool := (item name members).any Kind.null.is

theorem all_not_null (h : isNull name members = false) : (item name members).all fun v => !Kind.null.is v := by
  rw [isNull] at h
  cases hitem : item name members with
  | none => rfl
  | some v =>
      rw [hitem] at h
      simpa using h

theorem isMsgType_eq (name : String) :
    isMsgType name members = (item "msg_type" members).any fun v => (const name).valid v := by
  rw [isMsgType]
  simp only [isSome_literal]
  rfl

theorem valid_variant (tag : String) (variant : Variant) (members : List (PyStr × PyValue F)) :
    (variant.schema tag).valid (.obj members) =
      (forbidExtra (tag :: variant.properties.map Prod.fst) members &&
        ((item tag members).any fun v => (const variant.value).valid v) &&
        (variant.required.all fun name => (item name members).isSome) &&
        propertiesValid variant.properties members && allValid variant.more (.obj members)) := by
  rw [Variant.schema, closedObject]
  simp only [valid, allValid, propertiesValid, List.all_cons, List.map_cons, forbidExtra, Kind.is,
    List.any_cons, List.any_nil, Bool.or_false, Bool.true_and]
  cases item tag members <;> simp [Bool.and_comm, Bool.and_left_comm, Bool.and_assoc]

theorem isSome_guard_bind {b : Bool} {o : Option α} : (guard (b = true) >>= fun _ => o).isSome = (b && o.isSome) := by
  cases b <;> rfl

theorem isSome_and_all {o : Option α} {p : α → Bool} : (o.isSome && o.all p) = o.any p := by
  cases o <;> rfl

theorem any_const {o : Option α} {b : Bool} : (o.any fun _ => b) = (o.isSome && b) := by
  cases o <;> rfl

theorem isSome_chatRead : (ChatReadFrame.validate members).isSome =
    (chatRead.schema "msg_type").valid (.obj members) := by
  rw [valid_variant, ChatReadFrame.validate, isSome_guard_bind, isSome_guard_bind, isMsgType_eq]
  simp only [chatRead, channelId, messageId, ← isSome_uuidField,
    List.map_cons, List.map_nil, propertiesValid, allValid, List.all_cons, List.all_nil]
  cases item "channel_id" members <;> cases item "up_to_message_id" members <;>
    simp [Bool.and_assoc, Option.isSome_bind, any_const]

theorem isSome_typingSet : (TypingSetFrame.validate members).isSome =
    (typingSet.schema "msg_type").valid (.obj members) := by
  have hstate (v : PyValue F) : (literal [.start, .stop] TypingState.name v).isSome = typingState.valid v :=
    isSome_literal _ _
  rw [valid_variant, TypingSetFrame.validate, isSome_guard_bind, isSome_guard_bind, isMsgType_eq]
  simp only [typingSet, channelId, ← isSome_uuidField, ← hstate, List.map_cons,
    List.map_nil, propertiesValid, allValid, List.all_cons, List.all_nil]
  cases item "channel_id" members <;> cases item "state" members <;>
    simp [Bool.and_assoc, Option.isSome_bind, any_const]

theorem isSome_presenceSet : (PresenceSetFrame.validate members).isSome =
    (presenceSet.schema "msg_type").valid (.obj members) := by
  have hstatus (v : PyValue F) : (literal [.online, .away, .busy, .offline] PresenceStatus.name v).isSome =
      presenceStatus.valid v := isSome_literal _ _
  rw [valid_variant, PresenceSetFrame.validate, isSome_guard_bind, isSome_guard_bind, isMsgType_eq]
  simp only [presenceSet, ← hstatus, List.map_cons, List.map_nil, propertiesValid, allValid,
    List.all_cons, List.all_nil]
  cases item "status" members <;> simp [Bool.and_assoc, Option.isSome_bind]

theorem isSome_huddleHangup : (HuddleHangupFrame.validate members).isSome =
    (huddleHangup.schema "msg_type").valid (.obj members) := by
  rw [valid_variant, HuddleHangupFrame.validate, isSome_guard_bind, isSome_guard_bind, isMsgType_eq]
  simp only [huddleHangup, huddleId, ← isSome_uuidField, List.map_cons, List.map_nil,
    propertiesValid, allValid, List.all_cons, List.all_nil]
  cases item "huddle_id" members <;> simp [Bool.and_assoc, Option.isSome_bind]

theorem isSome_huddleInvite (hchannel : isNull "channel_id" members = false)
    (hparticipants : isNull "participant_ids" members = false) : (HuddleInviteFrame.validate members).isSome =
    (huddleInvite.schema "msg_type").valid (.obj members) := by
  have hchannel' := isSome_optional uuidField (all_not_null hchannel)
  have hparticipants' := isSome_optional participantIdsField (all_not_null hparticipants)
  rw [valid_variant, HuddleInviteFrame.validate, isSome_guard_bind, isSome_guard_bind, isMsgType_eq]
  simp only [huddleInvite, userId, channelId, ← isSome_uuidField,
    ← isSome_participantIdsField, List.map_cons, List.map_nil, propertiesValid, allValid, List.all_cons, List.all_nil]
  rw [← hchannel', ← hparticipants']
  cases item "peer_user_id" members <;> simp [Bool.and_assoc, Option.isSome_bind, any_const]

/-! ## signals -/

/-- The texts of a signal can be encoded. -/
def signalEncodes (signal : List (PyStr × PyValue F)) : Bool :=
  ["sdp", "candidate", "sdp_mid"].all fun name => (item name signal).all encodes

/-- The index is a text or a truth value. -/
def isCoerced (name : String) (members : List (PyStr × PyValue F)) : Bool :=
  (item name members).any fun v => Kind.string.is v || Kind.boolean.is v

theorem isSome_boundedStr_of_encodes (maxLength : Nat) (h : encodes v = true) :
    (boundedStr maxLength v).isSome = (allOf [.type [.string], .maxLength maxLength]).valid v := by
  rw [isSome_boundedStr, h, Bool.and_true]

theorem isSome_optional_boundedStr (maxLength : Nat) (h : o.all encodes = true) :
    (optional (boundedStr maxLength) o).isSome =
      o.all fun v => (allOf [.type [.string, .null], .maxLength maxLength]).valid v := by
  cases o with
  | none => rfl
  | some v =>
      have hv := isSome_boundedStr_of_encodes maxLength (v := v) h
      cases v <;> simp_all [optional, valid, allValid, Kind.is]

theorem isSome_optional_intField (h : (o.any fun v => Kind.string.is v || Kind.boolean.is v) = false) :
    (optional (intField 0 1024) o).isSome =
      o.all fun v => (allOf [.type [.integer, .null], .minimum 0, .maximum 1024]).valid v := by
  cases o with
  | none => rfl
  | some v =>
      have hv := isSome_intField (v := v) (by simpa using h) 0 1024
      cases v <;> simp_all [optional, valid, allValid, Kind.is]

theorem isSome_sdpPayload (build : BoundedStr maxSdpLen → SignalPayload) {kind : String}
    (hkind : item "kind" members = some (.str (PyStr.ofString kind))) (hencodes : signalEncodes members = true) :
    (sdpPayload build members).isSome = ((sdpVariant kind).schema "kind").valid (.obj members) := by
  simp only [signalEncodes, List.all_cons, Bool.and_eq_true] at hencodes
  rw [valid_variant, sdpPayload, isSome_guard_bind, hkind, sdpVariant, Option.any_some,
    valid_const.mpr rfl]
  cases hsdp : item "sdp" members with
  | none => simp [hsdp]
  | some v =>
      rw [hsdp] at hencodes
      have hv : (boundedStr 65536 v).isSome = _ := isSome_boundedStr_of_encodes 65536 hencodes.1
      simp [hsdp, propertiesValid, allValid, Option.isSome_bind, maxSdpLen, hv]

theorem isSome_iceCandidatePayload (hkind : item "kind" members = some (.str (PyStr.ofString "ice-candidate")))
    (hencodes : signalEncodes members = true) (hcoerced : isCoerced "sdp_mline_index" members = false) :
    (iceCandidatePayload members).isSome = (iceCandidate.schema "kind").valid (.obj members) := by
  simp only [signalEncodes, List.all_cons, Bool.and_eq_true] at hencodes
  have hmid := isSome_optional_boundedStr 64 hencodes.2.2.1
  have hindex := isSome_optional_intField hcoerced
  rw [valid_variant, iceCandidatePayload, isSome_guard_bind, hkind, iceCandidate, Option.any_some,
    valid_const.mpr rfl]
  simp only [List.map_cons, List.map_nil, propertiesValid, allValid, List.all_cons, List.all_nil, ← hmid, ← hindex]
  cases hcandidate : item "candidate" members with
  | none => simp
  | some v =>
      rw [hcandidate] at hencodes
      have hv : (boundedStr 1024 v).isSome = _ := isSome_boundedStr_of_encodes 1024 hencodes.2.1
      simp [Option.isSome_bind, any_const, maxCandidateLen, hv]

/-- `signalEncodes`, of a value -/
def encodesSignal : PyValue F → Bool
  | .obj signal => signalEncodes signal
  | _ => true

def coercesIndex : PyValue F → Bool
  | .obj signal => isCoerced "sdp_mline_index" signal
  | _ => false

/-- A payload is accepted just when the schema takes it. -/
theorem isSome_signalPayload (hencodes : encodesSignal v = true) (hcoerces : coercesIndex v = false) :
    (SignalPayload.validate v).isSome = true ↔ signal.valid v = true := by
  rw [valid_signal]
  have hnodup : (signalVariants.map Variant.value).Nodup := by decide
  cases v with
  | obj members =>
      have hother (h : ∀ variant ∈ signalVariants,
          item "kind" members ≠ some (.str (PyStr.ofString variant.value))) :
          ¬∃ variant ∈ signalVariants, (variant.schema "kind").valid (.obj members) = true := by
        refine not_exists_valid fun variant hvariant members' hv => ?_
        cases hv
        exact h variant hvariant
      cases hkind : item "kind" members with
      | none =>
          exact iff_of_false (by simp [SignalPayload.validate, hkind]) (hother fun variant _ => by simp [hkind])
      | some kind =>
          cases kind with
          | str kind =>
              simp only [SignalPayload.validate, hkind]
              split
              · next heq =>
                  rw [heq] at hkind
                  rw [isSome_sdpPayload .offer hkind hencodes]
                  exact (exists_valid_iff _ hnodup (.head _) hkind).symm
              · split
                · next heq =>
                    rw [heq] at hkind
                    rw [isSome_sdpPayload .answer hkind hencodes]
                    exact (exists_valid_iff _ hnodup (.tail _ (.head _)) hkind).symm
                · split
                  · next heq =>
                      rw [heq] at hkind
                      rw [isSome_iceCandidatePayload hkind hencodes hcoerces]
                      exact (exists_valid_iff _ hnodup (.tail _ (.tail _ (.head _))) hkind).symm
                  · next hoffer hanswer hice =>
                      refine iff_of_false (by simp) (hother fun variant hvariant => ?_)
                      rw [hkind]
                      simp only [signalVariants, List.mem_cons, List.not_mem_nil, or_false] at hvariant
                      rcases hvariant with rfl | rfl | rfl
                      · simpa [offer, sdpVariant] using hoffer
                      · simpa [answer, sdpVariant] using hanswer
                      · simpa [iceCandidate] using hice
          | _ => exact iff_of_false (by simp [SignalPayload.validate, hkind]) (hother fun variant _ => by simp [hkind])
  | _ =>
      refine iff_of_false (by simp [SignalPayload.validate]) (not_exists_valid fun _ _ members hv => ?_)
      contradiction

omit [LaxNumbers F] in
theorem item_eq_none {names : List String} (h : forbidExtra names members = true) (hname : name ∉ names) :
    item name members = none := by
  rw [item, pyItem, Option.map_eq_none_iff, List.find?_eq_none]
  intro m hm
  obtain ⟨name', hmem, heq⟩ := List.any_eq_true.mp (List.all_eq_true.mp h m hm)
  rw [of_decide_eq_true heq, decide_eq_true_iff, PyStr.ofString_inj]
  rintro rfl
  exact hname hmem

theorem encodes_of_boundedStr (maxLength : Nat) (h : (boundedStr maxLength v).isSome = true) : encodes v = true := by
  rw [isSome_boundedStr, Bool.and_eq_true] at h
  exact h.2

theorem encodes_of_optional {maxLength : Nat} (h : (optional (boundedStr maxLength) o).isSome = true) :
    o.all encodes = true := by
  cases o with
  | none => rfl
  | some v =>
      cases v with
      | null => rfl
      | _ => exact encodes_of_boundedStr maxLength (by simpa [optional] using h)

theorem encodes_of_sdpPayload {build : BoundedStr maxSdpLen → SignalPayload}
    (h : (sdpPayload build members).isSome = true) : signalEncodes members = true := by
  rw [sdpPayload, isSome_guard_bind, Bool.and_eq_true] at h
  cases hsdp : item "sdp" members with
  | none => simp [hsdp] at h
  | some v =>
      have hv : (boundedStr maxSdpLen v).isSome = true := by simpa [hsdp, Option.isSome_bind] using h.2
      simp [signalEncodes, hsdp, encodes_of_boundedStr maxSdpLen hv, item_eq_none h.1]

theorem encodes_of_iceCandidatePayload (h : (iceCandidatePayload members).isSome = true) :
    signalEncodes members = true := by
  rw [iceCandidatePayload, isSome_guard_bind, Bool.and_eq_true] at h
  cases hcandidate : item "candidate" members with
  | none => simp [hcandidate] at h
  | some v =>
      have hfields : (boundedStr maxCandidateLen v).isSome = true ∧
          (optional (boundedStr 64) (item "sdp_mid" members)).isSome = true := by
        have hbuilt := h.2
        simp only [hcandidate, Option.bind_eq_bind, Option.bind_some, Option.isSome_bind, Option.isSome_some, any_const,
          Bool.and_true, Bool.and_eq_true] at hbuilt
        exact ⟨hbuilt.1, hbuilt.2.1⟩
      simp [signalEncodes, hcandidate, encodes_of_boundedStr maxCandidateLen hfields.1, encodes_of_optional hfields.2, item_eq_none h.1]

theorem encodes_of_signalPayload (h : (SignalPayload.validate v).isSome = true) : encodesSignal v = true := by
  cases v with
  | obj members =>
      rw [SignalPayload.validate] at h
      split at h
      · split_ifs at h
        · exact encodes_of_sdpPayload h
        · exact encodes_of_sdpPayload h
        · exact encodes_of_iceCandidatePayload h
        · contradiction
      · contradiction
  | _ => rfl

theorem isSome_signalPayload_iff (hcoerces : coercesIndex v = false) :
    (SignalPayload.validate v).isSome = (signal.valid v && encodesSignal v) := by
  rw [Bool.eq_iff_iff, Bool.and_eq_true]
  constructor
  · intro h
    have hencodes := encodes_of_signalPayload h
    exact ⟨(isSome_signalPayload hencodes hcoerces).mp h, hencodes⟩
  · rintro ⟨hvalid, hencodes⟩
    exact (isSome_signalPayload hencodes hcoerces).mpr hvalid

theorem isSome_signalSend (hto : isNull "to_user_id" members = false)
    (hcoerces : (item "signal" members).any coercesIndex = false) : (SignalSendFrame.validate members).isSome =
    ((signalSend.schema "msg_type").valid (.obj members) && (item "signal" members).all encodesSignal) := by
  have hto' := isSome_optional uuidField (all_not_null hto)
  rw [valid_variant, SignalSendFrame.validate, isSome_guard_bind, isSome_guard_bind, isMsgType_eq]
  simp only [signalSend, userId, huddleId, ← isSome_uuidField,
    List.map_cons, List.map_nil, propertiesValid, allValid, List.all_cons, List.all_nil]
  rw [← hto']
  cases hsignal : item "signal" members with
  | none => cases item "huddle_id" members <;> simp
  | some v =>
      rw [hsignal] at hcoerces
      have hv := isSome_signalPayload_iff (v := v) hcoerces
      cases item "huddle_id" members <;> simp [Bool.and_assoc, Option.isSome_bind, any_const, hv]

/-! ## `chat.send` -/

/-- The member has a newline after what the pattern asks for. -/
def endsInNewline (pattern : Pattern) (name : String) (members : List (PyStr × PyValue F)) : Bool :=
  (item name members).any fun v => match v with
    | .str s => s.points.getLast? = some newline && pattern.run s.points.dropLast
    | _ => false

theorem isSome_matchedStr (schema : Schema)
    (hschema : schema = .allOf [.type [.string], .pattern pattern, .maxLength 64])
    (hbound : (pattern.map Piece.most).sum ≤ 64) (h : endsInNewline pattern name members = false) :
    (matchedStr pattern (item name members)).isSome = (item name members).any fun v => schema.valid v := by
  subst hschema
  rw [endsInNewline] at h
  cases hitem : item name members with
  | none => rfl
  | some v =>
      rw [hitem] at h
      cases v with
      | str s =>
          have hagree : pattern.pyMatch s = pattern.test s := by
            refine pyMatch_eq_test ?_
            simp only [Option.any_some, Bool.and_eq_false_iff, decide_eq_false_iff_not] at h
            exact h
          rw [matchedStr, hagree]
          cases htest : pattern.test s with
          | true =>
              have hlength : s.length ≤ 64 := le_trans (length_le_of_run htest) hbound
              simp [valid, allValid, Kind.is, htest, hlength]
          | false => simp [valid, allValid, Kind.is, htest]
      | _ => simp [matchedStr, valid, allValid, Kind.is]

theorem isSome_contentTypeOf (h : isNull "content_type" members = false) :
    (contentTypeOf (item "content_type" members)).isSome =
      (item "content_type" members).all fun v => contentType.valid v := by
  have hnull := all_not_null h
  cases hitem : item "content_type" members with
  | none => rfl
  | some v =>
      rw [hitem] at hnull
      have hliteral : (literal [.text, .markdown] ContentType.name v).isSome = contentType.valid v :=
        isSome_literal _ _
      cases v <;> simp_all [contentTypeOf, Kind.is]

theorem checkContent_ok_iff (clientMsgId channelId : PyStr) (h : isNull "content_type" members = false) :
    (∃ frame, checkContent clientMsgId channelId members = .ok frame) ↔
      forbidExtra ["msg_type", "client_msg_id", "channel_id", "content", "content_type"] members = true ∧
      ((item "content" members).any fun v => textContent.valid v) = true ∧
      ((item "content_type" members).all fun v => contentType.valid v) = true := by
  rw [checkContent, ← isSome_contentTypeOf h]
  split
  · next hextra => simp [hextra]
  · next hextra =>
      rw [Bool.not_eq_false] at hextra
      split
      · next content contentType hcontent htype =>
          have hlength : textContent.valid (.str content : PyValue F) = true ↔ ¬maxContentLen < content.length := by
            simp [textContent, valid, allValid, Kind.is, maxContentLen]
          rw [hcontent, htype, Option.any_some, hlength]
          split
          · next hlong => exact iff_of_false (by simp) fun h => h.2.1 hlong
          · next hshort => simp [hextra, hshort]
      · next hnone =>
          refine iff_of_false (by simp) ?_
          rintro ⟨-, hcontent, htype⟩
          obtain ⟨contentType, htype⟩ := Option.isSome_iff_exists.mp htype
          cases hitem : item "content" members with
          | none => simp [hitem] at hcontent
          | some v =>
              cases v with
              | str content => exact hnone content contentType hitem htype
              | _ => simp [hitem, textContent, valid, allValid, Kind.is] at hcontent

/-- A message is accepted just when the schema takes it and it is not too long. -/
theorem checkChatSend_ok_iff (hmsg : isMsgType "chat.send" members = true)
    (hclient : endsInNewline correlationPattern "client_msg_id" members = false)
    (hchannel : endsInNewline uuidPattern "channel_id" members = false)
    (htype : isNull "content_type" members = false) :
    (∃ frame, checkChatSend members = .ok frame) ↔
      (chatSend.schema "msg_type").valid (.obj members) = true := by
  have hclient' := isSome_matchedStr clientMsgId rfl (by decide) hclient
  have hchannel' := isSome_matchedStr channelId rfl (by decide) hchannel
  have hvalid : (chatSend.schema "msg_type").valid (.obj members) = true ↔
      forbidExtra ["msg_type", "client_msg_id", "channel_id", "content", "content_type"] members = true ∧
      (matchedStr correlationPattern (item "client_msg_id" members)).isSome = true ∧
      (matchedStr uuidPattern (item "channel_id" members)).isSome = true ∧
      ((item "content" members).any fun v => textContent.valid v) = true ∧
      ((item "content_type" members).all fun v => contentType.valid v) = true := by
    rw [hclient', hchannel', valid_variant, ← isMsgType_eq]
    simp only [chatSend, hmsg, List.map_cons, List.map_nil, propertiesValid, allValid, List.all_cons,
      List.all_nil, ← isSome_and_all, Bool.and_true, Bool.and_eq_true]
    tauto
  rw [hvalid, checkChatSend]
  split
  · next clientMsgId channelId hsome hsome' =>
      rw [checkContent_ok_iff clientMsgId channelId htype, hsome, hsome']
      simp
  · next hnone =>
      refine iff_of_false (by simp) ?_
      rintro ⟨-, hsome, hsome', -⟩
      obtain ⟨clientMsgId, hsome⟩ := Option.isSome_iff_exists.mp hsome
      obtain ⟨channelId, hsome'⟩ := Option.isSome_iff_exists.mp hsome'
      exact hnone clientMsgId channelId hsome hsome'

/-- A `chat.send` is refused as invalid, or for its length. -/
def Refusal.Invalid : Refusal → Prop
  | .error code => code = .invalidMessage
  | .blocked _ _ code => code = .invalidMessage

/-- The content is too long for a message. -/
def TooLong (members : List (PyStr × PyValue F)) : Prop :=
  ∃ content, item "content" members = some (.str content) ∧ maxContentLen < content.length

omit [LaxNumbers F] in
theorem checkChatSend_error (h : checkChatSend members = .error refusal) :
    refusal.Invalid ∨ TooLong members ∧ ∃ clientMsgId channelId,
      refusal = .blocked clientMsgId channelId .messageTooLarge := by
  rw [checkChatSend] at h
  split at h
  · rw [checkContent] at h
    split at h
    · cases h
      exact .inl rfl
    · split at h
      · next content _ hcontent _ =>
          split at h
          · next hlong =>
              cases h
              exact .inr ⟨⟨content, hcontent, hlong⟩, _, _, rfl⟩
          · contradiction
      · cases h
        exact .inl rfl
  · cases h
    exact .inl rfl

/-- The correlation that a `chat.ack` for the frame echoes, or its refusal -/
def Routed.echoed : Routed → Option (PyStr × PyStr)
  | .handed (.chatSend chat) => some (chat.clientMsgId, chat.channelId)
  | .refused (.blocked clientMsgId channelId _) => some (clientMsgId, channelId)
  | _ => none

omit [LaxNumbers F] in
theorem checkContent_cases (members : List (PyStr × PyValue F)) (clientMsgId channelId : PyStr) :
    (∃ frame, checkContent clientMsgId channelId members = .ok frame ∧ frame.clientMsgId = clientMsgId ∧
      frame.channelId = channelId) ∨
    ∃ code, checkContent clientMsgId channelId members = .error (.blocked clientMsgId channelId code) := by
  rw [checkContent]
  split
  · exact .inr ⟨_, rfl⟩
  · split
    · split
      · exact .inr ⟨_, rfl⟩
      · exact .inl ⟨_, rfl, rfl, rfl⟩
    · exact .inr ⟨_, rfl⟩

omit [LaxNumbers F] in
theorem matched_of_echoed (h : (handleChatSend members).echoed = some (clientMsgId, channelId)) :
    matchedStr correlationPattern (item "client_msg_id" members) = some clientMsgId ∧
      matchedStr uuidPattern (item "channel_id" members) = some channelId := by
  rw [handleChatSend, checkChatSend] at h
  cases hclient : matchedStr correlationPattern (item "client_msg_id" members) with
  | none => simp [hclient, Routed.echoed] at h
  | some clientMsgId' =>
      cases hchannel : matchedStr uuidPattern (item "channel_id" members) with
      | none => simp [hclient, hchannel, Routed.echoed] at h
      | some channelId' =>
          rcases checkContent_cases members clientMsgId' channelId' with
            ⟨frame, hok, rfl, rfl⟩ | ⟨code, herror⟩
          · simpa [hclient, hchannel, hok, Routed.echoed] using h
          · simpa [hclient, hchannel, herror, Routed.echoed] using h

end Fields

/-! ## acceptance -/

section Acceptance

variable {F : Type} [LaxNumbers F] {members : List (PyStr × PyValue F)}

def isUnhashable : PyValue F → Bool
  | .arr _ | .obj _ => true
  | _ => false

/-- A frame with a field on which the checks slip. -/
def SlipsOn (members : List (PyStr × PyValue F)) : Prop :=
  (item "msg_type" members).any isUnhashable = true ∨
    isMsgType "chat.send" members = true ∧
      (endsInNewline correlationPattern "client_msg_id" members = true ∨
        endsInNewline uuidPattern "channel_id" members = true ∨ isNull "content_type" members = true) ∨
    isMsgType "huddle.invite" members = true ∧
      (isNull "channel_id" members = true ∨ isNull "participant_ids" members = true) ∨
    isMsgType "signal.send" members = true ∧
      (isNull "to_user_id" members = true ∨ (item "signal" members).any coercesIndex = true)

def Loaded.Slips : Loaded F → Prop
  | .value (.obj members) => SlipsOn members
  | .recursionError => True
  | _ => False

/-- The JSON is valid for the variant of a client's frame, and a signal's texts can be encoded. -/
def Acceptable (v : PyValue F) : Prop :=
  (∃ variant ∈ clientVariants, (variant.schema "msg_type").valid v = true) ∧
    ∀ members, v = .obj members → (item "signal" members).all encodesSignal = true

def Loaded.Acceptable (loaded : Loaded F) : Prop := ∃ v, loaded = .value v ∧ Frames.Acceptable v

def Loaded.TooLong (loaded : Loaded F) : Prop := ∃ members, loaded = .value (.obj members) ∧ Frames.TooLong members

/-- What a frame is answered with that is not acceptable. -/
def Refusal.Fits (tooLong : Prop) (refusal : Refusal) : Prop :=
  refusal.Invalid ∨ tooLong ∧ ∃ clientMsgId channelId, refusal = .blocked clientMsgId channelId .messageTooLarge

/-- A frame is routed as it should be. -/
def Routed.Follows (acceptable tooLong : Prop) : Routed → Prop
  | .handed _ => acceptable
  | .refused refusal => ¬acceptable ∧ refusal.Fits tooLong
  | .raised => False

theorem follows_validated {α : Type} {build : α → Accepted} {frame : Option α} {acceptable tooLong : Prop}
    (h : frame.isSome = true ↔ acceptable) : (validated build frame).Follows acceptable tooLong := by
  cases frame with
  | none => exact ⟨fun hacceptable => by simpa using h.mpr hacceptable, .inl rfl⟩
  | some frame => exact h.mp rfl

theorem nodup_clientVariants : (clientVariants.map Variant.value).Nodup := by decide

theorem acceptable_iff (variant : Variant) (hmem : variant ∈ clientVariants)
    (hmsg : item "msg_type" members = some (.str (PyStr.ofString variant.value)))
    (hsignal : "signal" ∉ "msg_type" :: variant.properties.map Prod.fst) :
    Acceptable (.obj members) ↔ (variant.schema "msg_type").valid (.obj members) = true := by
  rw [Acceptable, exists_valid_iff variant nodup_clientVariants hmem hmsg, and_iff_left_iff_imp]
  intro hvalid members' hv
  cases hv
  rw [valid_variant] at hvalid
  simp only [Bool.and_eq_true] at hvalid
  rw [item_eq_none hvalid.1.1.1.1 hsignal]
  rfl

theorem acceptable_signal (hmsg : item "msg_type" members = some (.str (PyStr.ofString "signal.send"))) :
    Acceptable (.obj members) ↔ ((signalSend.schema "msg_type").valid (.obj members) &&
      (item "signal" members).all encodesSignal) = true := by
  rw [Acceptable, exists_valid_iff signalSend nodup_clientVariants
    (by simp [clientVariants]) hmsg, Bool.and_eq_true]
  refine and_congr_right fun _ => ⟨fun h => h members rfl, ?_⟩
  intro h members' hv
  cases hv
  exact h

theorem not_acceptable {v : PyValue F} (h : ∀ variant ∈ clientVariants, ∀ members, v = .obj members →
    item "msg_type" members ≠ some (.str (PyStr.ofString variant.value))) : ¬Acceptable v :=
  fun hacceptable => not_exists_valid h hacceptable.1

omit [LaxNumbers F] in
theorem isMsgType_of_item {name : String} (h : item "msg_type" members = some (.str (PyStr.ofString name))) :
    isMsgType name members = true := by
  simp [isMsgType, h, literal]

theorem follows_chatSend (hmsg : item "msg_type" members = some (.str (PyStr.ofString "chat.send")))
    (hslips : ¬SlipsOn members) :
    (handleChatSend members).Follows (Acceptable (.obj members)) (TooLong members) := by
  have hname := isMsgType_of_item hmsg
  simp only [SlipsOn, hname, true_and, not_or, Bool.not_eq_true] at hslips
  obtain ⟨-, ⟨hclient, hchannel, htype⟩, -⟩ := hslips
  rw [acceptable_iff chatSend (by simp [clientVariants]) hmsg
    (by simp [chatSend]), ← checkChatSend_ok_iff hname hclient hchannel htype, handleChatSend]
  cases hcheck : checkChatSend members with
  | ok frame => exact ⟨frame, rfl⟩
  | error refusal => exact ⟨by simp, checkChatSend_error hcheck⟩

/-- Every handler follows the catalog outside the slips. -/
theorem follows_handler {handler : String × Routed} (hmem : handler ∈ handlers members)
    (hmsg : item "msg_type" members = some (.str (PyStr.ofString handler.1))) (hslips : ¬SlipsOn members) :
    handler.2.Follows (Acceptable (.obj members)) (TooLong members) := by
  have hname := isMsgType_of_item hmsg
  simp only [handlers, List.mem_cons, List.not_mem_nil, or_false] at hmem
  rcases hmem with rfl | rfl | rfl | rfl | rfl | rfl | rfl
  · exact follows_chatSend hmsg hslips
  · refine follows_validated ?_
    rw [isSome_chatRead]
    exact (acceptable_iff chatRead (by simp [clientVariants]) hmsg
      (by simp [chatRead])).symm
  · refine follows_validated ?_
    rw [isSome_typingSet]
    exact (acceptable_iff typingSet (by simp [clientVariants]) hmsg
      (by simp [typingSet])).symm
  · refine follows_validated ?_
    rw [isSome_presenceSet]
    exact (acceptable_iff presenceSet (by simp [clientVariants]) hmsg
      (by simp [presenceSet])).symm
  · simp only [SlipsOn, hname, true_and, not_or, Bool.not_eq_true] at hslips
    obtain ⟨-, -, ⟨hchannel, hparticipants⟩, -⟩ := hslips
    refine follows_validated ?_
    rw [isSome_huddleInvite hchannel hparticipants]
    exact (acceptable_iff huddleInvite (by simp [clientVariants]) hmsg
      (by simp [huddleInvite])).symm
  · refine follows_validated ?_
    rw [isSome_huddleHangup]
    exact (acceptable_iff huddleHangup (by simp [clientVariants]) hmsg
      (by simp [huddleHangup])).symm
  · simp only [SlipsOn, hname, true_and, not_or, Bool.not_eq_true] at hslips
    obtain ⟨-, -, -, hto, hcoerces⟩ := hslips
    refine follows_validated ?_
    rw [isSome_signalSend hto hcoerces]
    exact (acceptable_signal hmsg).symm

theorem exists_handler (members : List (PyStr × PyValue F)) {variant : Variant}
    (h : variant ∈ clientVariants) :
    ∃ r, (variant.value, r) ∈ handlers members := by
  simp only [clientVariants, List.mem_cons, List.not_mem_nil, or_false] at h
  rcases h with rfl | rfl | rfl | rfl | rfl | rfl | rfl <;> simp [handlers, chatSend,
    chatRead, typingSet, presenceSet, huddleInvite,
    huddleHangup, signalSend]

theorem follows_dispatch (hslips : ¬SlipsOn members) :
    (dispatch members).Follows (Acceptable (.obj members)) (TooLong members) := by
  have hrefused (h : ∀ variant ∈ clientVariants,
      item "msg_type" members ≠ some (.str (PyStr.ofString variant.value))) :
      (Routed.refused (.error .invalidMessage)).Follows (Acceptable (.obj members)) (TooLong members) := by
    refine ⟨not_acceptable fun variant hvariant members' hv => ?_, .inl rfl⟩
    cases hv
    exact h variant hvariant
  rw [dispatch]
  cases hmsg : item "msg_type" members with
  | none => exact hrefused fun variant _ => by simp [hmsg]
  | some v =>
      cases v with
      | arr items => exact hslips (.inl (by simp [hmsg, isUnhashable]))
      | obj nested => exact hslips (.inl (by simp [hmsg, isUnhashable]))
      | str s =>
          simp only
          cases hfind : (handlers members).find? fun handler => s = PyStr.ofString handler.1 with
          | none =>
              refine hrefused fun variant hvariant heq => ?_
              rw [hmsg] at heq
              obtain ⟨r, hr⟩ := exists_handler members hvariant
              have hname := List.find?_eq_none.mp hfind _ hr
              simp_all
          | some handler =>
              have hs : s = PyStr.ofString handler.1 := by simpa using List.find?_some hfind
              rw [hs] at hmsg
              exact follows_handler (List.mem_of_find?_eq_some hfind) hmsg hslips
      | _ => exact hrefused fun variant _ => by simp [hmsg]

variable {raw : RawFrame F}

theorem follows_route (hsize : raw.length ≤ maxFrameBytes) (hslips : ¬raw.loaded.Slips) :
    (route raw).Follows raw.loaded.Acceptable raw.loaded.TooLong := by
  rw [route, if_neg (not_lt.mpr hsize)]
  cases hloaded : raw.loaded with
  | valueError => exact ⟨fun ⟨v, hv, _⟩ => by contradiction, .inl rfl⟩
  | recursionError =>
      rw [hloaded] at hslips
      exact hslips trivial
  | value v =>
      rw [hloaded] at hslips
      have hacceptable : (Loaded.value v).Acceptable ↔ Acceptable v :=
        ⟨fun ⟨w, hw, h⟩ => by cases hw; exact h, fun h => ⟨v, rfl, h⟩⟩
      cases v with
      | obj members =>
          have hlong : (Loaded.value (.obj members)).TooLong ↔ TooLong members :=
            ⟨fun ⟨w, hw, h⟩ => by cases hw; exact h, fun h => ⟨members, rfl, h⟩⟩
          rw [hacceptable, hlong]
          exact follows_dispatch hslips
      | _ =>
          rw [hacceptable]
          exact ⟨not_acceptable fun variant _ members hv => by contradiction, .inl rfl⟩

omit [LaxNumbers F] in
theorem test_of_matchedStr (hmatched : matchedStr pattern (item name members) = some s)
    (h : endsInNewline pattern name members = false) : pattern.test s = true := by
  cases hitem : item name members with
  | none => simp [hitem, matchedStr] at hmatched
  | some v =>
      cases v with
      | str s' =>
          simp only [hitem, matchedStr, Option.ite_none_right_eq_some, Option.some.injEq] at hmatched
          obtain ⟨hpy, rfl⟩ := hmatched
          simp only [endsInNewline, hitem, Option.any_some, Bool.and_eq_false_iff, decide_eq_false_iff_not] at h
          rwa [pyMatch_eq_test h] at hpy
      | _ => simp [hitem, matchedStr] at hmatched

theorem echoed_handler {handler : String × Routed} (hmem : handler ∈ handlers members) {ids : PyStr × PyStr}
    (h : handler.2.echoed = some ids) : handler = ("chat.send", handleChatSend members) := by
  have hvalidated {α : Type} {build : α → Accepted} {frame : Option α} (hbuild : ∀ f chat, build f ≠ .chatSend chat) :
      (validated build frame).echoed = none := by
    cases frame with
    | none => rfl
    | some f =>
        rw [validated]
        cases hf : build f with
        | chatSend chat => exact absurd hf (hbuild f chat)
        | _ => rfl
  simp only [handlers, List.mem_cons, List.not_mem_nil, or_false] at hmem
  rcases hmem with rfl | rfl | rfl | rfl | rfl | rfl | rfl
  · rfl
  all_goals
    rw [hvalidated (by simp)] at h
    contradiction

/-- What is echoed was in the frame. -/
theorem echoes_of_echoed (hslips : ¬raw.loaded.Slips) (h : (route raw).echoed = some (clientMsgId, channelId)) :
    Echoes clientMsgId channelId := by
  rw [route] at h
  split at h
  · contradiction
  · cases hloaded : raw.loaded with
    | value v =>
        rw [hloaded] at h hslips
        cases v with
        | obj members =>
            simp only [dispatch] at h
            cases hmsg : item "msg_type" members with
            | none => simp [hmsg, Routed.echoed] at h
            | some v =>
                rw [hmsg] at h
                cases v with
                | str s =>
                    simp only at h
                    cases hfind : (handlers members).find? fun handler => s = PyStr.ofString handler.1 with
                    | none => simp [hfind, Routed.echoed] at h
                    | some handler =>
                        rw [hfind] at h
                        have hs : s = PyStr.ofString handler.1 := by simpa using List.find?_some hfind
                        have hhandler := echoed_handler (List.mem_of_find?_eq_some hfind) h
                        rw [hhandler] at h hs
                        have hname := isMsgType_of_item (hs ▸ hmsg)
                        have hchecks : ¬SlipsOn members := hslips
                        simp only [SlipsOn, hname, true_and, not_or, Bool.not_eq_true] at hchecks
                        obtain ⟨-, ⟨hclient, hchannel, -⟩, -⟩ := hchecks
                        obtain ⟨hmatched, hmatched'⟩ := matched_of_echoed h
                        exact ⟨test_of_matchedStr hmatched hclient, test_of_matchedStr hmatched' hchannel⟩
                | _ => simp [Routed.echoed] at h
        | _ => simp [Routed.echoed] at h
    | _ => simp [hloaded, Routed.echoed] at h

theorem valid_refusal (conn : Identity) (requestId : RequestId) (hslips : ¬raw.loaded.Slips)
    (h : route raw = .refused refusal) :
    catalog.valid (refusal.frame conn requestId : PyValue F) = true := by
  cases refusal with
  | error code => exact valid_catalog_of (by simp [variants]) (valid_error code requestId)
  | blocked clientMsgId channelId code =>
      have hechoes : Echoes clientMsgId channelId := echoes_of_echoed hslips (by rw [h]; rfl)
      exact valid_catalog_of (by simp [variants])
        (valid_chatAckBlocked conn.tenantId hechoes code none)

/-- A frame on which the checks do not slip is handed to the effects of its handler just when
it is valid for the catalog, every other is answered with one frame and has no other effect,
and what is sent is in the catalog. -/
theorem inbound_frames {σ : Type} (effects : Accepted → σ → σ × List (PyValue F)) (conn : Identity)
    (requestId : RequestId) (raw : RawFrame F) (hsize : raw.length ≤ maxFrameBytes) (hslips : ¬raw.loaded.Slips) :
    ((∃ accepted, route raw = .handed accepted) ↔ raw.loaded.Acceptable) ∧
    (¬raw.loaded.Acceptable → ∃ refusal : Refusal, refusal.Fits raw.loaded.TooLong ∧
      catalog.valid (refusal.frame conn requestId : PyValue F) = true ∧
      ∀ s, dispatchFrame effects conn requestId raw s = some (s, [refusal.frame conn requestId])) ∧
    ∀ accepted, route raw = .handed accepted →
      (∀ s, dispatchFrame effects conn requestId raw s = some (effects accepted s)) ∧
      ∀ frame : PyValue F, Built conn accepted frame → catalog.valid frame = true := by
  have hfollows := follows_route hsize hslips
  refine ⟨?_, fun hnot => ?_, fun accepted haccepted => ?_⟩
  · cases hroute : route raw with
    | handed accepted =>
        rw [hroute] at hfollows
        exact iff_of_true ⟨accepted, rfl⟩ hfollows
    | refused refusal =>
        rw [hroute] at hfollows
        exact iff_of_false (by simp) hfollows.1
    | raised =>
        rw [hroute] at hfollows
        exact hfollows.elim
  · cases hroute : route raw with
    | handed accepted =>
        rw [hroute] at hfollows
        exact absurd hfollows hnot
    | refused refusal =>
        have hvalid := valid_refusal conn requestId hslips hroute
        rw [hroute] at hfollows
        exact ⟨refusal, hfollows.2, hvalid, fun s => by rw [dispatchFrame, hroute]⟩
    | raised =>
        rw [hroute] at hfollows
        exact hfollows.elim
  · refine ⟨fun s => by rw [dispatchFrame, haccepted], fun frame hbuilt => valid_built (fun chat hchat => ?_) hbuilt⟩
    subst hchat
    exact echoes_of_echoed hslips (by rw [haccepted]; rfl)

end Acceptance

/-! ## a presence, a message, and a content that is too long -/

section Sample

/-- JSON without numbers but integers. -/
instance : LaxNumbers Empty where
  toInt x := x.elim
  atLeast _ x := x.elim
  atMost _ x := x.elim
  atLeast_of_toInt {x} := x.elim
  atMost_of_toInt {x} := x.elim
  intOfStr _ := none

def sampleUuid : Uuid := ⟨PyStr.ofString "2a4f8c1e-0012-4b3d-9abc-d1e2f3a4b5c6", Eq.refl true⟩

def sampleIdentity : Identity := ⟨sampleUuid, sampleUuid⟩

def sampleRequestId : RequestId := ⟨PyStr.ofString "req_1", Eq.refl true⟩

def presenceFrame : RawFrame Empty :=
  ⟨46, .value (dict [("msg_type", string "presence.set"), ("status", string "away")])⟩

/-- A message with this content -/
def contentFrame (content : PyStr) : RawFrame Empty :=
  ⟨17000, .value (dict [("msg_type", string "chat.send"), ("client_msg_id", string "c-1"),
    ("channel_id", .str sampleUuid), ("content", .str content)])⟩

theorem route_contentFrame (h : maxContentLen < content.length) :
    route (contentFrame content) = .refused (.blocked (PyStr.ofString "c-1") sampleUuid .messageTooLarge) := by
  have hclient : correlationPattern.pyMatch (PyStr.ofString "c-1") = true := rfl
  have hchannel : uuidPattern.pyMatch sampleUuid = true := rfl
  simp [route, contentFrame, maxFrameBytes, dict, dispatch, string, handlers, handleChatSend, checkChatSend, matchedStr,
    hclient, hchannel, checkContent, forbidExtra, contentTypeOf, h]

theorem not_slips_contentFrame (content : PyStr) : ¬(contentFrame content).loaded.Slips := by
  have hclient : (PyStr.ofString "c-1").points.getLast? ≠ some newline := by decide
  have hchannel : sampleUuid.val.points.getLast? ≠ some newline := by decide
  simp [Loaded.Slips, SlipsOn, contentFrame, dict, string, isUnhashable, isMsgType, literal, endsInNewline, hclient,
    hchannel, isNull]

theorem nodup_sampleDetectors : ([(.secret, .block), (.pii, .pass)].map
    (Prod.fst : DetectorCategory × DetectorOutcome → DetectorCategory)).Nodup := by decide

theorem valid_sampleTime : DateTime.valid 2026 7 8 12 0 0 0 = true := by decide

def sampleOutcome : InspectionOutcome :=
  ⟨.blocked, .ofFields 2026 7 8 12 0 0 0 valid_sampleTime, ⟨_, nodup_sampleDetectors⟩⟩

/-- A presence and its update; a message, and that it was blocked for one of two findings. -/
theorem inbound_frames_sample :
    route presenceFrame = .handed (.presenceSet ⟨.away⟩) ∧ presenceFrame.loaded.Acceptable ∧
    catalog.valid (buildPresenceUpdate sampleUuid sampleUuid .away : PyValue Empty) = true ∧
    (contentFrame (PyStr.ofString "hi")).loaded.Acceptable ∧
    catalog.valid (buildChatAckBlocked sampleUuid (PyStr.ofString "c-1") sampleUuid .messageBlocked
      (some sampleOutcome) : PyValue Empty) = true := by
  have hroute : route presenceFrame = .handed (.presenceSet ⟨.away⟩) := rfl
  have hslips : ¬presenceFrame.loaded.Slips := by
    simp [Loaded.Slips, SlipsOn, presenceFrame, dict, string, isUnhashable, isMsgType, literal]
  have hchat : route (contentFrame (PyStr.ofString "hi")) =
      .handed (.chatSend ⟨PyStr.ofString "c-1", sampleUuid, ⟨PyStr.ofString "hi", by decide⟩, .text⟩) := rfl
  obtain ⟨hiff, -, hsent⟩ := inbound_frames (fun _ (s : Unit) => (s, [])) sampleIdentity sampleRequestId
    presenceFrame (by decide) hslips
  obtain ⟨hmessage, -, hanswer⟩ := inbound_frames (fun _ (s : Unit) => (s, [])) sampleIdentity sampleRequestId
    (contentFrame (PyStr.ofString "hi")) (by decide) (not_slips_contentFrame _)
  exact ⟨hroute, hiff.mp ⟨_, hroute⟩, (hsent _ hroute).2 _ (.presence ⟨.away⟩), hmessage.mp ⟨_, hchat⟩,
    (hanswer _ hchat).2 _ (.ackBlocked _ .messageBlocked sampleOutcome)⟩

/-- A content that is too long is acknowledged as such, and not as invalid. -/
theorem too_long_acknowledged : ∃ raw : RawFrame Empty, raw.length ≤ maxFrameBytes ∧ ¬raw.loaded.Acceptable ∧
    route raw = .refused (.blocked (PyStr.ofString "c-1") sampleUuid .messageTooLarge) := by
  obtain ⟨content, hlong⟩ : ∃ content : PyStr, maxContentLen < content.length :=
    ⟨⟨List.replicate 16385 0x61⟩, by rw [PyStr.length, List.length_replicate]; decide⟩
  have hsize : 17000 ≤ maxFrameBytes := by decide
  have hroute := route_contentFrame hlong
  have hfollows := follows_route hsize (not_slips_contentFrame content)
  rw [hroute] at hfollows
  exact ⟨_, hsize, hfollows.1, hroute⟩

end Sample

end Anoryx.Rendly.Frames
