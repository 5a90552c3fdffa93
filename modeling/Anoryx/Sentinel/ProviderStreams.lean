import Anoryx.Sentinel.ProviderTranslation

/-!
# Anoryx.Sentinel.ProviderStreams

The streams of the Anthropic and the Bedrock adapter (`gateway/router/providers/`), each beside the
`complete` of the same adapter, from a response with status 200 on.

Both tell on every text delta up to the end, and the role before it.  They end with a finish chunk and
`[DONE]` whenever nothing is raised, whether the stop event came or not, and a refusal that `complete`
raises is a finish reason like any other here (`providerStreams_iff`).

What `json.loads` makes of a line is a parameter.
-/

namespace Anoryx.Sentinel.Providers

open PyJson hiding isSpace
open PyText EventRelay Router

variable {F : Type}

/-! ## Anthropic -/

variable {piece stopReason : PyStr} {finishReason : FinishReason}

namespace Anthropic

/-- What `json.loads` raises: a `JSONDecodeError`, or something else -/
inductive LoadsError
  | decode
  | other

abbrev Line := List CodePoint

abbrev Loads (F : Type) := List CodePoint → Except LoadsError (PyValue F)

variable (floats : Floats F) (loads : Loads F)

/-- What comes of `data:` and JSON behind it; `none` is a line that is passed over. -/
def readLine (rawLine : Line) : Option (Except LoadsError (PyValue F)) :=
  let line := PyText.strip rawLine
  if (PyStr.ofString "data:").points.isPrefixOf line then
    let dataStr := PyText.strip (line.drop 5)
    if dataStr = [] then none else some (loads dataStr)
  else none

/-- What a stop reason means: `"stop"` stays where there is none. -/
def reasonSignal : Option (PyValue F) → Event F
  | none => .fault .transient
  | some sr =>
      if truthy floats sr then
        match mapFinishReason floats sr with
        | some finishReason => .reason finishReason
        | none => .fault .transient
      else .skip

/-- The branches on `etype` -/
def eventSignal (event : PyValue F) : Event F :=
  match get "type" event with
  | none => .fault .transient
  | some etype =>
      if isText "message_start" etype then .start
      else if isText "content_block_delta" etype then deltaSignal floats event
      else if isText "message_delta" etype then
        reasonSignal floats ((get "delta" event).bind fun delta => get "stop_reason" (orElse floats delta (.obj [])))
      else if isText "message_stop" etype then .halt
      else .skip

def readSignal : Except LoadsError (PyValue F) → Event F
  | .ok event => eventSignal floats event
  | .error .decode => .skip
  | .error .other => .fault .transient

/-- What the body of the loop does with a line -/
def lineSignal (rawLine : Line) : Event F := (readLine loads rawLine).elim .skip (readSignal floats)

/-- The lines, and whether reading them raises in the end -/
def signals (lines : List Line) (raises : Bool) : List (Event F) :=
  lines.map (lineSignal floats loads) ++ if raises then [.fault .transient] else []

/-- `AnthropicAdapter.stream` -/
def stream (lines : List Line) (raises : Bool) : Streamed F := generate (signals floats loads lines raises)

/-- The text of a block of type `"text"` -/
def blockText : PyValue F → Option (PyValue F)
  | .obj b =>
      if (pyItem (.ofString "type") b).any (isText "text") then
        some ((pyItem (.ofString "text") b).getD (.str (.ofString "")))
      else none
  | _ => none

/-- `AnthropicAdapter.complete`, with a body that is an object -/
def complete (data : List (PyStr × PyValue F)) : Except ProviderErrorKind Completion :=
  let stopReason := (pyItem (.ofString "stop_reason") data).getD .null
  if isText "refusal" stopReason ∨ isText "safety" stopReason then .error .contentPolicy
  else
    let content := orElse floats ((pyItem (.ofString "content") data).getD .null) (.arr [])
    let usage := (pyItem (.ofString "usage") data).getD .null
    translateResponse floats ((iterate content).map (List.filterMap blockText)) stopReason usage "input_tokens" "output_tokens"

def IsType (etype : String) (event : PyValue F) : Prop :=
  ∃ members, event = .obj members ∧ pyItem (.ofString "type") members = some (.str (.ofString etype))

def textDelta (event : PyValue F) : Option (PyValue F) :=
  if (get "type" event).any (isText "content_block_delta") then deltaText event else none

def eventsOf (lines : List Line) : List (PyValue F) :=
  (lines.filterMap (readLine loads)).filterMap Except.toOption

/-- The text deltas that the upstream sent -/
def deltas (lines : List Line) : List (PyValue F) := (eventsOf loads lines).filterMap textDelta

/-- The upstream sent its stop event. -/
def Stopped (lines : List Line) : Prop := ∃ event ∈ eventsOf loads lines, IsType "message_stop" event

/-- An event in the middle of a message, and its piece of the text -/
inductive IsMid : PyValue F → PyStr → Prop
  | text {event : PyValue F} {s : PyStr} (htype : IsType "content_block_delta" event)
      (htext : deltaText event = some (.str s)) : IsMid event s
  /-- a delta without a text, of a tool or of the thinking -/
  | other {members delta : List (PyStr × PyValue F)} (htype : IsType "content_block_delta" (.obj members))
      (hdelta : pyItem (.ofString "delta") members = some (.obj delta))
      (hnone : pyItem (.ofString "text") delta = none) : IsMid (.obj members) ⟨[]⟩
  | mark {event : PyValue F} {etype : String} (h : etype ∈ ["content_block_start", "content_block_stop", "ping"])
      (htype : IsType etype event) : IsMid event ⟨[]⟩

/-- An event behind the contents, and the stop reason that it tells, if it is a delta of the message that has one -/
inductive IsClosing : PyValue F → Option PyStr → Prop
  | ping {event : PyValue F} (htype : IsType "ping" event) : IsClosing event none
  | delta {event : PyValue F} {members : List (PyStr × PyValue F)} {reason : Option PyStr}
      (htype : IsType "message_delta" event) (hdelta : get "delta" event = some (.obj members))
      (hreason : get "stop_reason" (.obj members) = some (reason.elim .null .str)) : IsClosing event reason

/-- The lines are those of one complete message. -/
def Streams (lines : List Line) (message : Message) : Prop :=
  ∃ start mids pieces closing stop,
    lines.filterMap (readLine loads) = (start :: (mids ++ (closing ++ [stop]))).map .ok ∧
    IsType "message_start" start ∧ List.Forall₂ IsMid mids pieces ∧ concat pieces = message.text ∧
    (∀ event ∈ closing, IsClosing event none ∨ IsClosing event (some message.stopReason)) ∧
    (∃ event ∈ closing, IsClosing event (some message.stopReason)) ∧ IsType "message_stop" stop

/-- The body is the response with this message. -/
def Represents (data : List (PyStr × PyValue F)) (message : Message) : Prop :=
  ∃ blocks texts usage, pyItem (.ofString "content") data = some (.arr blocks) ∧ List.Forall₂ (IsBlock blockText) blocks texts ∧
    concat texts = message.text ∧ pyItem (.ofString "stop_reason") data = some (.str message.stopReason) ∧
    pyItem (.ofString "usage") data = some usage ∧ IsUsage "input_tokens" "output_tokens" usage

/-- A message that `complete` refuses -/
def Refused (message : Message) : Prop :=
  message.stopReason = .ofString "refusal" ∨ message.stopReason = .ofString "safety"

instance (message : Message) : Decidable (Refused message) := inferInstanceAs (Decidable (_ ∨ _))

variable {floats loads} {lines : List Line} {raises : Bool} {event : PyValue F} {message : Message}
  {data : List (PyStr × PyValue F)}

/-! ### the signals of the lines -/

theorem get_of_isType {etype : String} (h : IsType etype event) :
    get "type" event = some (.str (.ofString etype)) := by
  obtain ⟨members, rfl, htype⟩ := h
  exact get_of_pyItem htype

theorem eventSignal_delta (h : IsType "content_block_delta" event) :
    eventSignal floats event = deltaSignal floats event := by
  simp [eventSignal, get_of_isType h, isText]

theorem eventSignal_stop (h : IsType "message_stop" event) : eventSignal floats event = .halt := by
  simp [eventSignal, get_of_isType h, isText]

theorem eventSignal_start (h : IsType "message_start" event) : eventSignal floats event = .start := by
  simp [eventSignal, get_of_isType h, isText]

theorem content?_reasonSignal (sr : Option (PyValue F)) : (reasonSignal floats sr).content? = none := by
  unfold reasonSignal
  split
  · rfl
  · split
    · split <;> rfl
    · rfl

theorem content?_eventSignal (event : PyValue F) :
    (eventSignal floats event).content? = (textDelta event).filter (truthy floats) := by
  unfold eventSignal textDelta
  cases get "type" event with
  | none => rfl
  | some etype =>
      by_cases hdelta : isText "content_block_delta" etype = true
      · obtain rfl := eq_of_isText hdelta
        simp [isText, content?_deltaSignal]
      · simp only [Option.any_some, hdelta, Bool.false_eq_true, if_false, Option.filter_none]
        split
        · rfl
        · split
          · exact content?_reasonSignal _
          · split <;> rfl

theorem content?_lineSignal (line : Line) : (lineSignal floats loads line).content? =
    (((readLine loads line).bind Except.toOption).bind textDelta).filter (truthy floats) := by
  unfold lineSignal
  cases readLine loads line with
  | none => rfl
  | some read =>
      cases read with
      | ok event => exact content?_eventSignal event
      | error e => cases e <;> rfl

theorem contentsOf_signals : contentsOf (signals floats loads lines raises) =
    (deltas loads lines).filter (truthy floats) := by
  have htail : contentsOf (if raises then [(.fault .transient : Event F)] else []) = [] := by
    cases raises <;> rfl
  rw [signals, contentsOf_append, htail, List.append_nil, contentsOf_map content?_lineSignal, deltas, eventsOf,
    List.filterMap_filterMap, List.filterMap_filterMap]
  simp only [Option.bind_assoc]

theorem streamLaw_stream_iff : StreamLaw floats (stream floats loads lines raises) (deltas loads lines) (Stopped loads lines) ↔
    contentsOf (undelivered (signals floats loads lines raises)) = [] ∧
      (Stopped loads lines ↔ ¬ Faulty (signals floats loads lines raises)) :=
  streamLaw_iff contentsOf_signals

/-! ### one complete message -/

theorem isPiece_of_isMid (h : IsMid event piece) : IsPiece (eventSignal floats event) piece := by
  cases h with
  | text htype htext =>
      rw [eventSignal_delta htype]
      exact isPiece_of_deltaText htext
  | other htype hdelta hnone =>
      rw [eventSignal_delta htype, deltaSignal_obj hdelta, hnone]
      exact isPiece_skip
  | mark hmem htype =>
      have hskip : eventSignal floats event = .skip := by
        simp only [List.mem_cons, List.not_mem_nil, or_false] at hmem
        rcases hmem with rfl | rfl | rfl <;> simp [eventSignal, get_of_isType htype, isText]
      rw [hskip]
      exact isPiece_skip

theorem eventSignal_of_isClosing {reason : Option PyStr} (h : IsClosing event reason) : eventSignal floats event =
    reason.elim .skip fun stopReason => reasonSignal floats (some (.str stopReason)) := by
  cases h with
  | ping htype => simp [eventSignal, get_of_isType htype, isText]
  | delta htype hdelta hreason =>
      cases reason <;> simp [eventSignal, get_of_isType htype, isText, hdelta, orElse_obj, hreason, reasonSignal, truthy]

/-- A stop reason that is told becomes the finish reason; `""`, that is passed over, means `"stop"`. -/
theorem reasonSignal_str (h : mapFinishReason floats (.str stopReason) = some finishReason) :
    reasonSignal floats (some (.str stopReason)) = .reason finishReason ∨
      reasonSignal floats (some (.str stopReason)) = .skip ∧ .stop = finishReason := by
  by_cases htruthy : truthy floats (.str stopReason) = true
  · rw [reasonSignal, if_pos htruthy, h]
    exact .inl rfl
  · rw [mapFinishReason_of_not_truthy (by simpa using htruthy)] at h
    rw [reasonSignal, if_neg htruthy]
    exact .inr ⟨rfl, Option.some.inj h⟩

/-- The closing events end the stream with the reason that they tell. -/
theorem ends_closing {closing : List (PyValue F)}
    (hclosing : ∀ event ∈ closing, IsClosing event none ∨ IsClosing event (some stopReason))
    (htold : ∃ event ∈ closing, IsClosing event (some stopReason)) (rest : List (Event F))
    (h : mapFinishReason floats (.str stopReason) = some finishReason) :
    let ends := closing.map (eventSignal floats) ++ .halt :: rest
    failure ends = none ∧ contentsOf (delivered ends) = [] ∧ lastReason .stop (delivered ends) = finishReason := by
  have hsignals : ∀ sig ∈ closing.map (eventSignal floats), sig = .skip ∨ sig = .reason finishReason := by
    rw [List.forall_mem_map]
    intro event hevent
    rcases hclosing event hevent with hnone | htells
    · exact .inl (eventSignal_of_isClosing hnone)
    · rw [eventSignal_of_isClosing htells]
      exact (reasonSignal_str h).symm.imp_left And.left
  have hgoesOn : ∀ sig ∈ closing.map (eventSignal floats), sig.goesOn = true := by
    intro sig hsig
    rcases hsignals sig hsig with rfl | rfl <;> rfl
  have hdelivered : delivered (closing.map (eventSignal floats) ++ .halt :: rest) = closing.map (eventSignal floats) := by
    rw [delivered_append hgoesOn]
    exact List.append_nil _
  refine ⟨failure_append hgoesOn, ?_, ?_⟩
  · rw [hdelivered, contentsOf, List.filterMap_eq_nil_iff]
    intro sig hsig
    rcases hsignals sig hsig with rfl | rfl <;> rfl
  · rw [hdelivered]
    refine lastReason_eq (fun sig hsig r hr => ?_) ?_
    · rcases hsignals sig hsig with rfl | rfl
      · contradiction
      · exact (Option.some.inj hr).symm
    · obtain ⟨event, hevent, htells⟩ := htold
      rcases reasonSignal_str h with hreason | ⟨-, hstop⟩
      · refine .inr ⟨_, List.mem_map_of_mem hevent, ?_⟩
        rw [eventSignal_of_isClosing htells, Option.elim_some, hreason]
        rfl
      · exact .inl hstop

theorem answer_stream (h : Streams loads lines message)
    (hreason : mapFinishReason floats (.str message.stopReason) = some finishReason) :
    (answer (stream floats loads lines raises)).map (fun a => (textOf a.1, a.2)) =
      .ok (message.text, some finishReason) := by
  obtain ⟨start, mids, pieces, closing, stop, hlines, hstart, hmids, htext, hclosing, htold, hstop⟩ := h
  have hpieces : List.Forall₂ IsPiece (mids.map (eventSignal floats)) pieces :=
    List.forall₂_map_left_iff.mpr (hmids.imp fun _ _ => isPiece_of_isMid)
  have hrun : stream floats loads lines raises = generate (.start :: (mids.map (eventSignal floats) ++
      (closing.map (eventSignal floats) ++ .halt :: if raises then [.fault .transient] else []))) := by
    have hread : (lines.filterMap (readLine loads)).map (readSignal floats) =
        (start :: (mids ++ (closing ++ [stop]))).map (eventSignal floats) := by
      rw [hlines, List.map_map]
      rfl
    rw [stream, signals, generate]
    unfold lineSignal
    rw [relay_filterMap, hread]
    simp [eventSignal_start hstart, eventSignal_stop hstop, generate]
  obtain ⟨hfailure, hnone, hlast⟩ := ends_closing hclosing htold (if raises then [.fault .transient] else []) hreason
  rw [hrun, answer_message hpieces hfailure hnone, hlast, htext]

theorem complete_of_represents (h : Represents data message)
    (hreason : mapFinishReason floats (.str message.stopReason) = some finishReason) :
    (complete floats data).map (fun c => (c.content, some c.finishReason)) =
      if Refused message then .error .contentPolicy
      else if Fits message.text then .ok (message.text, some finishReason)
      else .error .parse := by
  obtain ⟨blocks, texts, usage, hcontent, hblocks, htext, hstop, husage, hcounts⟩ := h
  have hjoin : join (blocks.filterMap blockText) = some message.text := by rw [join_filterMap hblocks, htext]
  simp only [complete, hstop, hcontent, husage, Option.getD_some, isText, decide_eq_true_eq, orElse_arr, iterate,
    Option.map_some]
  split
  · next hrefused =>
      rw [if_pos (show Refused message from hrefused)]
      rfl
  · next hrefused =>
      rw [if_neg (show ¬ Refused message from hrefused)]
      exact translateResponse_of_message hjoin hreason hcounts

theorem agrees_iff (hlines : Streams loads lines message) (hdata : Represents data message) :
    Agrees (stream floats loads lines raises) (complete floats data) ↔ ¬ Refused message ∧ Fits message.text := by
  obtain ⟨finishReason, hreason⟩ := mapFinishReason_str floats message.stopReason
  exact agrees_iff_of_message (answer_stream hlines hreason) (complete_of_represents hdata hreason)

end Anthropic

/-! ## Bedrock -/

namespace Bedrock

/-- An event of a ConverseStream: one member of the union -/
structure ConverseEvent (F : Type) where
  name : PyStr
  body : PyValue F

/-- What reading the events raises -/
inductive StreamError
  | timeout
  /-- with a `response`, that has a status and a code -/
  | client (status : Option Nat) (code : String)
  | other

def classifyBotocoreError (status : Option Nat) (code : String) : ProviderErrorKind :=
  if status = some 429 ∨ code = "ThrottlingException" ∨ code = "TooManyRequestsException" then .rateLimited
  else if status = some 401 ∨ status = some 403 ∨ code = "AccessDeniedException" ∨
      code = "UnrecognizedClientException" ∨ code = "ExpiredTokenException" then .auth
  else if code = "ValidationException" then .badRequest
  else .transient

/-- The handlers of `stream` -/
def StreamError.kind : StreamError → ProviderErrorKind
  | .timeout | .other => .transient
  | .client status code => classifyBotocoreError status code

variable (floats : Floats F)

/-- The branches on the event -/
def eventSignal (event : ConverseEvent F) : Event F :=
  if event.name = .ofString "messageStart" then .start
  else if event.name = .ofString "contentBlockDelta" then deltaSignal floats event.body
  else if event.name = .ofString "messageStop" then
    match (get "stopReason" event.body).bind (mapFinishReason floats) with
    | some finishReason => .reason finishReason
    | none => .fault .transient
  else .skip

/-- The events, and what reading them raises in the end -/
def signals (events : List (ConverseEvent F)) (raised : Option StreamError) : List (Event F) :=
  events.map (eventSignal floats) ++ raised.toList.map fun e => .fault e.kind

/-- `BedrockAdapter.stream` -/
def stream (events : List (ConverseEvent F)) (raised : Option StreamError) : Streamed F :=
  generate (signals floats events raised)

def blockText : PyValue F → Option (PyValue F)
  | .obj b => pyItem (.ofString "text") b
  | _ => none

/-- `BedrockAdapter.complete`, with the response -/
def complete (resp : List (PyStr × PyValue F)) : Except ProviderErrorKind Completion :=
  let stopReason := (pyItem (.ofString "stopReason") resp).getD .null
  if isText "content_filtered" stopReason ∨ isText "guardrail_intervened" stopReason then .error .contentPolicy
  else
    let output := orElse floats ((pyItem (.ofString "output") resp).getD .null) (.obj [])
    let blocks := (get "message" output).bind fun message =>
      (get "content" (orElse floats message (.obj []))).bind fun content => iterate (orElse floats content (.arr []))
    let usage := (pyItem (.ofString "usage") resp).getD .null
    translateResponse floats (blocks.map (List.filterMap blockText)) stopReason usage "inputTokens" "outputTokens"

def textDelta (event : ConverseEvent F) : Option (PyValue F) :=
  if event.name = .ofString "contentBlockDelta" then deltaText event.body else none

/-- The text deltas that the upstream sent -/
def deltas (events : List (ConverseEvent F)) : List (PyValue F) := events.filterMap textDelta

/-- The upstream sent its stop event. -/
def Stopped (events : List (ConverseEvent F)) : Prop := ∃ event ∈ events, event.name = .ofString "messageStop"

/-- An event in the middle of a message, and its piece of the text -/
inductive IsMid : ConverseEvent F → PyStr → Prop
  | text {event : ConverseEvent F} {s : PyStr} (hname : event.name = .ofString "contentBlockDelta")
      (htext : deltaText event.body = some (.str s)) : IsMid event s
  /-- a delta without a text, of a tool or of the reasoning -/
  | other {event : ConverseEvent F} {members delta : List (PyStr × PyValue F)}
      (hname : event.name = .ofString "contentBlockDelta") (hbody : event.body = .obj members)
      (hdelta : pyItem (.ofString "delta") members = some (.obj delta))
      (hnone : pyItem (.ofString "text") delta = none) : IsMid event ⟨[]⟩
  | mark {event : ConverseEvent F} {name : String} (h : name ∈ ["contentBlockStart", "contentBlockStop"])
      (hname : event.name = .ofString name) : IsMid event ⟨[]⟩

/-- The events are those of one complete message, with the metadata behind it. -/
def Streams (events : List (ConverseEvent F)) (raised : Option StreamError) (message : Message) : Prop :=
  ∃ start mids pieces stop rest, events = start :: (mids ++ stop :: rest) ∧ raised = none ∧
    start.name = .ofString "messageStart" ∧ List.Forall₂ IsMid mids pieces ∧ concat pieces = message.text ∧
    stop.name = .ofString "messageStop" ∧ get "stopReason" stop.body = some (.str message.stopReason) ∧
    ∀ event ∈ rest, event.name = .ofString "metadata"

def Represents (resp : List (PyStr × PyValue F)) (message : Message) : Prop :=
  ∃ output content blocks texts usage, pyItem (.ofString "output") resp = some (.obj output) ∧
    pyItem (.ofString "message") output = some (.obj content) ∧
    pyItem (.ofString "content") content = some (.arr blocks) ∧ List.Forall₂ (IsBlock blockText) blocks texts ∧
    concat texts = message.text ∧ pyItem (.ofString "stopReason") resp = some (.str message.stopReason) ∧
    pyItem (.ofString "usage") resp = some usage ∧ IsUsage "inputTokens" "outputTokens" usage

/-- A message that `complete` refuses -/
def Refused (message : Message) : Prop :=
  message.stopReason = .ofString "content_filtered" ∨ message.stopReason = .ofString "guardrail_intervened"

instance (message : Message) : Decidable (Refused message) := inferInstanceAs (Decidable (_ ∨ _))

variable {floats} {events : List (ConverseEvent F)} {raised : Option StreamError} {event : ConverseEvent F}
  {message : Message} {resp : List (PyStr × PyValue F)}

/-! ### the signals of the events -/

theorem eventSignal_delta (h : event.name = .ofString "contentBlockDelta") :
    eventSignal floats event = deltaSignal floats event.body := by
  simp [eventSignal, h]

theorem content?_eventSignal (event : ConverseEvent F) :
    (eventSignal floats event).content? = (textDelta event).filter (truthy floats) := by
  by_cases hdelta : event.name = .ofString "contentBlockDelta"
  · rw [eventSignal_delta hdelta, textDelta, if_pos hdelta, content?_deltaSignal]
  · rw [textDelta, if_neg hdelta, Option.filter_none, eventSignal, if_neg hdelta]
    split
    · rfl
    · split
      · split <;> rfl
      · rfl

theorem contentsOf_signals :
    contentsOf (signals floats events raised) = (deltas events).filter (truthy floats) := by
  have htail : contentsOf (raised.toList.map fun e => (.fault e.kind : Event F)) = [] := by
    cases raised <;> rfl
  rw [signals, contentsOf_append, htail, List.append_nil, contentsOf_map content?_eventSignal, deltas]

theorem streamLaw_stream_iff : StreamLaw floats (stream floats events raised) (deltas events) (Stopped events) ↔
    contentsOf (undelivered (signals floats events raised)) = [] ∧
      (Stopped events ↔ ¬ Faulty (signals floats events raised)) :=
  streamLaw_iff contentsOf_signals

/-! ### one complete message -/

theorem isPiece_of_isMid (h : IsMid event piece) : IsPiece (eventSignal floats event) piece := by
  cases h with
  | text hname htext =>
      rw [eventSignal_delta hname]
      exact isPiece_of_deltaText htext
  | other hname hbody hdelta hnone =>
      rw [eventSignal_delta hname, hbody, deltaSignal_obj hdelta, hnone]
      exact isPiece_skip
  | mark hmem hname =>
      have hskip : eventSignal floats event = .skip := by
        simp only [List.mem_cons, List.not_mem_nil, or_false] at hmem
        rcases hmem with rfl | rfl <;> simp [eventSignal, hname]
      rw [hskip]
      exact isPiece_skip

theorem answer_stream (h : Streams events raised message)
    (hreason : mapFinishReason floats (.str message.stopReason) = some finishReason) :
    (answer (stream floats events raised)).map (fun a => (textOf a.1, a.2)) = .ok (message.text, some finishReason) := by
  obtain ⟨start, mids, pieces, stop, rest, rfl, rfl, hstart, hmids, htext, hstop, hget, hrest⟩ := h
  have hpieces : List.Forall₂ IsPiece (mids.map (eventSignal floats)) pieces :=
    List.forall₂_map_left_iff.mpr (hmids.imp fun _ _ => isPiece_of_isMid)
  have hskips : ∀ sig ∈ rest.map (eventSignal floats), sig = .skip := by
    rw [List.forall_mem_map]
    intro event hevent
    simp [eventSignal, hrest event hevent]
  have hrun : stream floats (start :: (mids ++ stop :: rest)) none =
      generate (.start :: (mids.map (eventSignal floats) ++ [.reason finishReason])) := by
    have hsignals : signals floats (start :: (mids ++ stop :: rest)) none =
        (.start :: (mids.map (eventSignal floats) ++ [.reason finishReason])) ++ rest.map (eventSignal floats) := by
      have hstopSignal : eventSignal floats stop = .reason finishReason := by
        simp [eventSignal, hstop, hget, hreason]
      have hstartSignal : eventSignal floats start = .start := by
        simp [eventSignal, hstart]
      simp [signals, hstopSignal, hstartSignal]
    rw [stream, generate, hsignals, relay_append_skips hskips, generate]
  rw [hrun, answer_message hpieces rfl rfl, htext]
  rfl

theorem complete_of_represents (h : Represents resp message)
    (hreason : mapFinishReason floats (.str message.stopReason) = some finishReason) :
    (complete floats resp).map (fun c => (c.content, some c.finishReason)) =
      if Refused message then .error .contentPolicy
      else if Fits message.text then .ok (message.text, some finishReason)
      else .error .parse := by
  obtain ⟨output, content, blocks, texts, usage, houtput, hmessage, hcontent, hblocks, htext, hstop, husage, hcounts⟩ := h
  have hjoin : join (blocks.filterMap blockText) = some message.text := by rw [join_filterMap hblocks, htext]
  simp only [complete, hstop, houtput, husage, Option.getD_some, isText, decide_eq_true_eq, orElse_obj,
    get_of_pyItem hmessage, get_of_pyItem hcontent, orElse_arr, iterate, Option.bind_some, Option.map_some]
  split
  · next hrefused =>
      rw [if_pos (show Refused message from hrefused)]
      rfl
  · next hrefused =>
      rw [if_neg (show ¬ Refused message from hrefused)]
      exact translateResponse_of_message hjoin hreason hcounts

theorem agrees_iff (hevents : Streams events raised message) (hresp : Represents resp message) :
    Agrees (stream floats events raised) (complete floats resp) ↔ ¬ Refused message ∧ Fits message.text := by
  obtain ⟨finishReason, hreason⟩ := mapFinishReason_str floats message.stopReason
  exact agrees_iff_of_message (answer_stream hevents hreason) (complete_of_represents hresp hreason)

end Bedrock

/-! ## both -/

variable (floats : Floats F) (loads : Anthropic.Loads F) (lines : List Anthropic.Line) (raises : Bool)
  (data : List (PyStr × PyValue F)) (events : List (Bedrock.ConverseEvent F)) (raised : Option Bedrock.StreamError)
  (resp : List (PyStr × PyValue F))

/-- What is asked of the two adapters: of every stream, and of the stream and the response of one message -/
structure ProviderStreams : Prop where
  anthropic : StreamLaw floats (Anthropic.stream floats loads lines raises) (Anthropic.deltas loads lines)
    (Anthropic.Stopped loads lines)
  anthropicMessage : ∀ message, Anthropic.Streams loads lines message → Anthropic.Represents data message →
    Agrees (Anthropic.stream floats loads lines raises) (Anthropic.complete floats data)
  bedrock : StreamLaw floats (Bedrock.stream floats events raised) (Bedrock.deltas events) (Bedrock.Stopped events)
  bedrockMessage : ∀ message, Bedrock.Streams events raised message → Bedrock.Represents resp message →
    Agrees (Bedrock.stream floats events raised) (Bedrock.complete floats resp)

/-- The lines for which the law holds of the Anthropic adapter -/
structure Anthropic.Kept : Prop where
  silent : contentsOf (undelivered (Anthropic.signals floats loads lines raises)) = []
  stopped : Anthropic.Stopped loads lines ↔ ¬ Faulty (Anthropic.signals floats loads lines raises)
  message : ∀ message, Anthropic.Streams loads lines message → Anthropic.Represents data message →
    ¬ Anthropic.Refused message ∧ Fits message.text

/-- The events for which the law holds of the Bedrock adapter -/
structure Bedrock.Kept : Prop where
  silent : contentsOf (undelivered (Bedrock.signals floats events raised)) = []
  stopped : Bedrock.Stopped events ↔ ¬ Faulty (Bedrock.signals floats events raised)
  message : ∀ message, Bedrock.Streams events raised message → Bedrock.Represents resp message →
    ¬ Bedrock.Refused message ∧ Fits message.text

/-- The law holds exactly where a stop event comes unless something is raised before it, no text delta comes behind the
end, and the message is neither refused nor too long. -/
theorem providerStreams_iff : ProviderStreams floats loads lines raises data events raised resp ↔
    Anthropic.Kept floats loads lines raises data ∧ Bedrock.Kept floats events raised resp := by
  constructor
  · rintro ⟨hanthropic, hmessage, hbedrock, hmessage'⟩
    obtain ⟨hsilent, hstopped⟩ := Anthropic.streamLaw_stream_iff.mp hanthropic
    obtain ⟨hsilent', hstopped'⟩ := Bedrock.streamLaw_stream_iff.mp hbedrock
    refine ⟨⟨hsilent, hstopped, ?_⟩, ⟨hsilent', hstopped', ?_⟩⟩
    · intro message hlines hdata
      exact (Anthropic.agrees_iff hlines hdata).mp (hmessage message hlines hdata)
    · intro message hevents hresp
      exact (Bedrock.agrees_iff hevents hresp).mp (hmessage' message hevents hresp)
  · rintro ⟨hanthropic, hbedrock⟩
    refine ⟨Anthropic.streamLaw_stream_iff.mpr ⟨hanthropic.silent, hanthropic.stopped⟩, ?_,
      Bedrock.streamLaw_stream_iff.mpr ⟨hbedrock.silent, hbedrock.stopped⟩, ?_⟩
    · intro message hlines hdata
      exact (Anthropic.agrees_iff hlines hdata).mpr (hanthropic.message message hlines hdata)
    · intro message hevents hresp
      exact (Bedrock.agrees_iff hevents hresp).mpr (hbedrock.message message hevents hresp)

/-! ## a stream that is cut off -/

/-- A start and the text `Hel`, and then nothing -/
def cutOff : List (Bedrock.ConverseEvent Empty) :=
  [⟨.ofString "messageStart", .obj []⟩,
    ⟨.ofString "contentBlockDelta", .obj [(.ofString "delta", .obj [(.ofString "text", .str (.ofString "Hel"))])]⟩]

theorem cutOff_completes : ¬ ∀ (floats : Floats Empty) loads lines raises data events raised resp,
    ProviderStreams floats loads lines raises data events raised resp := by
  intro h
  have hlaw := (h ⟨Empty.elim, Empty.elim⟩ (fun _ => .error .decode) [] false [] cutOff none []).bedrock
  have hcompleted : Completed (Bedrock.stream ⟨Empty.elim, Empty.elim⟩ cutOff none).1 := by
    have hpiece : IsPiece (deltaSignal ⟨Empty.elim, Empty.elim⟩
        (.obj [(.ofString "delta", .obj [(.ofString "text", .str (.ofString "Hel"))])])) (.ofString "Hel") :=
      isPiece_of_deltaText (by simp [deltaText, pyItem])
    apply (completed_relay_iff _ _).mpr
    simp only [Bedrock.signals, cutOff, List.map_cons, List.map_nil, Option.toList_none, List.append_nil,
      Bedrock.eventSignal, PyStr.ofString_inj, if_true]
    rw [failure_cons rfl, if_neg (by decide), failure_cons hpiece.goesOn]
    rfl
  obtain ⟨event, hevent, hstop⟩ := hlaw.completed.mp hcompleted
  simp only [cutOff, List.mem_cons, List.not_mem_nil, or_false] at hevent
  rcases hevent with rfl | rfl <;> simp at hstop

end Anoryx.Sentinel.Providers
