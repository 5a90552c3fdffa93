import Anoryx.EventRelay
import Anoryx.PyInt
import Anoryx.PyText
import Anoryx.Raising
import Anoryx.Sentinel.RouterFallback

/-!
# Anoryx.Sentinel.ProviderTranslation

What the provider adapters of the gateway share (`gateway/router/providers/_translate.py`): the finish
reasons, the response of a whole message, the chunks of a stream; and the law of a stream
(`streamLaw_iff`).

A chunk is what `chunk_line` writes besides the id, the time and the model.  The floats of a value
are a parameter, by what `bool` and `int` make of them.
-/

namespace Anoryx.Sentinel.Providers

open PyJson hiding isSpace
open PyText EventRelay Router

variable {F : Type}

/-! ## values -/

/-- `bool(x)` and `int(x)` of floats -/
structure Floats (F : Type) where
  truthy : F → Bool
  toInt : F → Option Int

variable (floats : Floats F)

/-- `bool(v)` -/
def truthy : PyValue F → Bool
  | .null => false
  | .bool b => b
  | .int n => n ≠ 0
  | .float x => floats.truthy x
  | .str s => s.points ≠ []
  | .arr items => items.length ≠ 0
  | .obj members => members.length ≠ 0

/-- `v or default` -/
def orElse (v default : PyValue F) : PyValue F := if truthy floats v then v else default

/-- `v.get(name)`; `none` is the `AttributeError` of what is no dictionary. -/
def get (name : String) : PyValue F → Option (PyValue F)
  | .obj members => some ((pyItem (.ofString name) members).getD .null)
  | _ => none

/-- `v == text` -/
def isText (text : String) : PyValue F → Bool
  | .str s => s = .ofString text
  | _ => false

/-- `int(v)` -/
def pyInt : PyValue F → Option Int
  | .int n => some n
  | .bool b => some (if b then 1 else 0)
  | .float x => floats.toInt x
  | .str s => PyInt.parse s
  | .null | .arr _ | .obj _ => none

/-- What a `for` loop goes over, as far as it is dictionaries: the characters of a text and the keys of a dictionary
are none. -/
def iterate : PyValue F → Option (List (PyValue F))
  | .arr items => some items
  | .str _ | .obj _ => some []
  | .null | .bool _ | .int _ | .float _ => none

def concat (texts : List PyStr) : PyStr := ⟨texts.flatMap PyStr.points⟩

/-- `"".join(vs)` -/
def join : List (PyValue F) → Option PyStr
  | [] => some (concat [])
  | .str s :: vs => (join vs).map fun t => concat [s, t]
  | _ :: _ => none

theorem concat_cons (s : PyStr) (texts : List PyStr) : concat (s :: texts) = concat [s, concat texts] := by
  simp [concat]

theorem concat_nil_cons (texts : List PyStr) : concat (⟨[]⟩ :: texts) = concat texts := by
  simp [concat]

/-! ## finish reasons -/

inductive FinishReason
  | stop
  | length
  | contentFilter
  | toolCalls
deriving DecidableEq

def stopReasonMap : List (String × FinishReason) :=
  [("end_turn", .stop), ("max_tokens", .length), ("stop_sequence", .stop), ("tool_use", .toolCalls),
    ("refusal", .contentFilter), ("safety", .contentFilter), ("max_tokens ", .length),
    ("content_filtered", .contentFilter), ("guardrail_intervened", .contentFilter)]

/-- `map_finish_reason`; `none` is the `AttributeError` of what has no `strip`. -/
def mapFinishReason (upstreamReason : PyValue F) : Option FinishReason :=
  if truthy floats upstreamReason then
    match upstreamReason with
    | .str s =>
        some (((stopReasonMap.find? fun e => PyStr.ofString e.1 = ⟨PyText.strip s.points⟩).map Prod.snd).getD .stop)
    | _ => none
  else some .stop

/-! ## the response of a message -/

/-- `ChatCompletionResponse`, with `tokens_in` and `tokens_out` -/
structure Completion where
  content : PyStr
  finishReason : FinishReason
  promptTokens : Int
  completionTokens : Int
  tokensIn : Int
  tokensOut : Int

/-- `max_length` of a content -/
def maxContentLength : Nat := 131072

/-- A text that `ChatMessage` takes as its content -/
def Fits (content : PyStr) : Prop := content.encode.isSome ∧ content.length ≤ maxContentLength

instance (content : PyStr) : Decidable (Fits content) := inferInstanceAs (Decidable (_ ∧ _))

/-- `build_response`; `none` is the `ValidationError`. -/
def buildResponse (content : PyStr) (finishReason : FinishReason) (tokensIn tokensOut : Int) : Option Completion :=
  if Fits content then some ⟨content, finishReason, max 0 tokensIn, max 0 tokensOut, tokensIn, tokensOut⟩ else none

/-- `int(usage.get(name, 0) or 0)` -/
def tokenCount (name : String) (usage : PyValue F) : Option Int :=
  (get name usage).bind fun v => pyInt floats (orElse floats v (.int 0))

/-- The body of `_translate_response`: the texts of the blocks, the stop reason, the usage and the names of its
counts.  What it raises becomes a parse error. -/
def translateResponse (texts : Option (List (PyValue F))) (stopReason : PyValue F) (usage : PyValue F)
    (inputName outputName : String) : Except ProviderErrorKind Completion :=
  let response : Option Completion := do
    let content ← join (← texts)
    let finishReason ← mapFinishReason floats stopReason
    let tokensIn ← tokenCount floats inputName (orElse floats usage (.obj []))
    let tokensOut ← tokenCount floats outputName (orElse floats usage (.obj []))
    buildResponse content finishReason tokensIn tokensOut
  match response with
  | some completion => .ok completion
  | none => .error .parse

/-! ## streams -/

abbrev Event (F : Type) := Signal (PyValue F) FinishReason ProviderErrorKind

abbrev Streamed (F : Type) := List (Chunk (PyValue F) FinishReason) × Option ProviderErrorKind

/-- What a delta means: its text is told on unless it is empty. -/
def textSignal : Option (PyValue F) → Event F
  | none => .fault .transient
  | some text => if truthy floats text then .content text else .skip

/-- `(v.get("delta", {}) or {}).get("text")`, and what it means -/
def deltaSignal (v : PyValue F) : Event F :=
  textSignal floats ((get "delta" v).bind fun delta => get "text" (orElse floats delta (.obj [])))

def deltaText : PyValue F → Option (PyValue F)
  | .obj members =>
      match pyItem (.ofString "delta") members with
      | some (.obj delta) => pyItem (.ofString "text") delta
      | _ => none
  | _ => none

/-- The generator of a `stream` method: no role yet, and `"stop"` until there is another reason -/
def generate (events : List (Event F)) : Streamed F := relay ⟨false, .stop⟩ events

/-- What is asked of a stream, with the text deltas that the upstream sent and whether it sent its stop event -/
structure StreamLaw (out : Streamed F) (deltas : List (PyValue F)) (stopped : Prop) : Prop where
  roleFirst : RoleFirst out.1
  contents : contents out.1 = deltas.filter (truthy floats)
  completed : Completed out.1 ↔ stopped

def textOf (deltas : List (PyValue F)) : PyStr :=
  concat (deltas.map fun delta => match delta with
    | .str s => s
    | _ => ⟨[]⟩)

/-- The stream says what the whole response says: the same text and finish reason, or the same kind of failure. -/
def Agrees (out : Streamed F) (whole : Except ProviderErrorKind Completion) : Prop :=
  (answer out).map (fun a => (textOf a.1, a.2)) = whole.map fun c => (c.content, some c.finishReason)

variable {floats} {events : List (Event F)} {deltas : List (PyValue F)} {stopped : Prop}

/-! ## the law of a stream -/

variable {xs ys zs blocks texts : List (PyValue F)} {text name inputName outputName : String} {v usage : PyValue F}
  {pieces : List PyStr} {members : List (PyStr × PyValue F)} {message : Message} {finishReason : FinishReason}

theorem eq_append_iff (h : xs ++ ys = zs) : xs = zs ↔ ys = [] := by
  rw [← h]
  exact List.self_eq_append_right

/-- The stream keeps the law just when nothing is left undelivered and a fault stops it. -/
theorem streamLaw_iff (h : contentsOf events = deltas.filter (truthy floats)) :
    StreamLaw floats (generate events) deltas stopped ↔
      contentsOf (undelivered events) = [] ∧ (stopped ↔ ¬ Faulty events) := by
  have hcontents : contents (generate events).1 = contentsOf (delivered events) := contents_relay _ _
  have hcompleted : Completed (generate events).1 ↔ ¬ Faulty events :=
    (completed_relay_iff _ _).trans failure_eq_none_iff
  have hparts : contentsOf (delivered events) ++ contentsOf (undelivered events) = deltas.filter (truthy floats) := by
    rw [← contentsOf_eq_append, h]
  rw [← eq_append_iff hparts, ← hcontents, ← hcompleted]
  exact ⟨fun hlaw => ⟨hlaw.contents, hlaw.completed.symm⟩, fun hlaw => ⟨roleFirst_relay _ _, hlaw.1, hlaw.2.symm⟩⟩

theorem eq_of_isText (h : isText text v = true) : v = .str (.ofString text) := by
  cases v with
  | str s => rw [of_decide_eq_true h]
  | _ => contradiction

theorem content?_textSignal (text : PyValue F) :
    (textSignal floats (some text)).content? = (some text).filter (truthy floats) := by
  rw [textSignal, Option.filter_some]
  split <;> rfl

theorem orElse_obj (members : List (PyStr × PyValue F)) : orElse floats (.obj members) (.obj []) = .obj members := by
  cases members <;> rfl

theorem orElse_arr (items : List (PyValue F)) : orElse floats (.arr items) (.arr []) = .arr items := by
  cases items <;> rfl

theorem deltaSignal_obj {members delta : List (PyStr × PyValue F)}
    (h : pyItem (.ofString "delta") members = some (.obj delta)) : deltaSignal floats (.obj members) =
      textSignal floats (some ((pyItem (.ofString "text") delta).getD .null)) := by
  rw [deltaSignal, get, h, Option.bind_some, Option.getD_some, orElse_obj, get]

variable (floats) in
theorem get_orElse (h : ∀ members, v ≠ .obj members) (name : String) :
    get name (orElse floats v (.obj [])) = none ∨ get name (orElse floats v (.obj [])) = some .null := by
  unfold orElse
  split
  · cases v with
    | obj members => exact absurd rfl (h members)
    | _ => exact Or.inl rfl
  · exact Or.inr rfl

theorem content?_deltaSignal (v : PyValue F) : (deltaSignal floats v).content? = (deltaText v).filter (truthy floats) := by
  unfold deltaText
  split
  · next members =>
      split
      · next delta hdelta =>
          rw [deltaSignal_obj hdelta, content?_textSignal]
          cases pyItem (.ofString "text") delta <;> rfl
      · next hdelta =>
          have hobj : ∀ delta, (pyItem (.ofString "delta") members).getD .null ≠ .obj delta := by
            intro delta heq
            cases hitem : pyItem (.ofString "delta") members <;> simp_all
          rw [deltaSignal, get, Option.bind_some]
          rcases get_orElse floats hobj "text" with hget | hget <;> rw [hget] <;> rfl
  · next hobj =>
      have hget : get "delta" v = none := by
        cases v with
        | obj members => exact absurd rfl (hobj members)
        | _ => rfl
      rw [deltaSignal, hget]
      rfl

/-! ## the pieces of a message -/

/-- A signal in the middle of a message, and its piece of the text -/
structure IsPiece (event : Event F) (piece : PyStr) : Prop where
  goesOn : event.goesOn = true
  noReason : event.reason? = none
  text : textOf event.content?.toList = piece

theorem isPiece_skip : IsPiece (.skip : Event F) ⟨[]⟩ := ⟨rfl, rfl, rfl⟩

theorem textOf_singleton (s : PyStr) : textOf [(.str s : PyValue F)] = s := by
  simp [textOf, concat]

theorem isPiece_textSignal (s : PyStr) : IsPiece (textSignal floats (some (.str s))) s := by
  rw [textSignal]
  split
  · exact ⟨rfl, rfl, textOf_singleton s⟩
  · next hempty =>
      have hnil : s = ⟨[]⟩ := by
        cases s
        simpa [truthy] using hempty
      rw [hnil]
      exact isPiece_skip

theorem isPiece_of_deltaText {s : PyStr} (h : deltaText v = some (.str s)) : IsPiece (deltaSignal floats v) s := by
  unfold deltaText at h
  split at h
  · next members =>
      split at h
      · next delta hdelta =>
          rw [deltaSignal_obj hdelta, h, Option.getD_some]
          exact isPiece_textSignal s
      · contradiction
  · contradiction

theorem textOf_append (xs ys : List (PyValue F)) : textOf (xs ++ ys) = concat [textOf xs, textOf ys] := by
  simp [textOf, concat]

theorem contentsOf_cons (event : Event F) (events : List (Event F)) :
    contentsOf (event :: events) = event.content?.toList ++ contentsOf events := by
  cases event <;> rfl

theorem textOf_pieces (h : List.Forall₂ IsPiece events pieces) : textOf (contentsOf events) = concat pieces := by
  induction h with
  | nil => rfl
  | cons hpiece _ ih =>
      rw [contentsOf_cons, textOf_append, hpiece.text, ih, ← concat_cons]

theorem IsPiece.of_mem (h : List.Forall₂ IsPiece events pieces) {event : Event F} (hevent : event ∈ events) :
    event.goesOn = true ∧ event.reason? = none := by
  induction h with
  | nil => simp at hevent
  | cons hpiece _ ih =>
      rcases List.mem_cons.mp hevent with rfl | hrest
      · exact ⟨hpiece.goesOn, hpiece.noReason⟩
      · exact ih hrest

/-- Pieces are put together to the text. -/
theorem answer_message {ends : List (Event F)} (h : List.Forall₂ IsPiece events pieces) (hends : failure ends = none)
    (hnone : contentsOf (delivered ends) = []) :
    (answer (generate (.start :: (events ++ ends)))).map (fun a => (textOf a.1, a.2)) =
      .ok (concat pieces, some (lastReason .stop (delivered ends))) := by
  have hgoesOn : ∀ event ∈ .start :: events, event.goesOn = true := by
    rw [List.forall_mem_cons]
    exact ⟨rfl, fun event hevent => (IsPiece.of_mem h hevent).1⟩
  have hreason : lastReason FinishReason.stop (.start :: events) = .stop := by
    apply lastReason_of_none
    rw [List.forall_mem_cons]
    exact ⟨rfl, fun event hevent => (IsPiece.of_mem h hevent).2⟩
  rw [generate, ← List.cons_append, answer_relay_append hgoesOn hends, hreason, hnone, List.append_nil,
    contentsOf_start, ← textOf_pieces h]
  rfl

/-! ## a whole message -/

/-- The text of a message, and why it stopped -/
structure Message where
  text : PyStr
  stopReason : PyStr

/-- A block, and its text: that of the member that the adapter reads, or none -/
def IsBlock (blockText : PyValue F → Option (PyValue F)) (block : PyValue F) (text : PyStr) : Prop :=
  blockText block = some (.str text) ∨ blockText block = none ∧ text = ⟨[]⟩

theorem join_filterMap {blockText : PyValue F → Option (PyValue F)} {texts : List PyStr}
    (h : List.Forall₂ (IsBlock blockText) blocks texts) :
    join (blocks.filterMap blockText) = some (concat texts) := by
  induction h with
  | nil => rfl
  | cons hblock _ ih =>
      rcases hblock with htext | ⟨hnone, rfl⟩
      · rw [List.filterMap_cons_some htext, join, ih, Option.map_some, ← concat_cons]
      · rw [List.filterMap_cons_none hnone, ih, concat_nil_cons]

/-- The counts of tokens that a response has -/
def IsUsage (inputName outputName : String) (usage : PyValue F) : Prop :=
  ∃ members, ∃ tokensIn tokensOut : Nat, usage = .obj members ∧
    pyItem (.ofString inputName) members = some (.int tokensIn) ∧
    pyItem (.ofString outputName) members = some (.int tokensOut)

theorem get_of_pyItem (h : pyItem (.ofString name) members = some v) : get name (.obj members) = some v := by
  rw [get, h, Option.getD_some]

theorem tokenCount_of_pyItem {n : Nat} (h : pyItem (.ofString name) members = some (.int n)) :
    tokenCount floats name (.obj members) = some n := by
  rw [tokenCount, get_of_pyItem h, Option.bind_some, orElse]
  by_cases hn : n = 0 <;> simp [truthy, pyInt, hn]

variable (floats) in
theorem mapFinishReason_str (s : PyStr) : ∃ finishReason, mapFinishReason floats (.str s) = some finishReason := by
  unfold mapFinishReason
  split
  · exact ⟨_, rfl⟩
  · exact ⟨_, rfl⟩

theorem mapFinishReason_of_not_truthy (h : truthy floats v = false) : mapFinishReason floats v = some .stop := by
  simp [mapFinishReason, h]

theorem translateResponse_of_message (htext : join texts = some message.text)
    (hreason : mapFinishReason floats (.str message.stopReason) = some finishReason)
    (husage : IsUsage inputName outputName usage) :
    (translateResponse floats (some texts) (.str message.stopReason) usage inputName outputName).map
        (fun c => (c.content, some c.finishReason)) =
      if Fits message.text then .ok (message.text, some finishReason) else .error .parse := by
  obtain ⟨members, tokensIn, tokensOut, rfl, hin, hout⟩ := husage
  simp only [translateResponse, htext, hreason, orElse_obj, tokenCount_of_pyItem hin, tokenCount_of_pyItem hout,
    Option.bind_eq_bind, Option.bind_some, Option.pure_def, buildResponse]
  by_cases hfits : Fits message.text
  · simp only [if_pos hfits]
    rfl
  · simp only [if_neg hfits]
    rfl

theorem agrees_iff_of_message {out : Streamed F} {whole : Except ProviderErrorKind Completion} {refused : Prop}
    [Decidable refused] (hout : (answer out).map (fun a => (textOf a.1, a.2)) = .ok (message.text, some finishReason))
    (hwhole : whole.map (fun c => (c.content, some c.finishReason)) =
      if refused then .error .contentPolicy
      else if Fits message.text then .ok (message.text, some finishReason)
      else .error .parse) : Agrees out whole ↔ ¬ refused ∧ Fits message.text := by
  rw [Agrees, hout, hwhole]
  split
  · simp [*]
  · split <;> simp [*]

end Anoryx.Sentinel.Providers
