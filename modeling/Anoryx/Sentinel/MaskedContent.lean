import Anoryx.Sentinel.ChatCompletion

/-!
# Anoryx.Sentinel.MaskedContent

What becomes of masked content (`_apply_masked_user_content`): the first message of the user's
gets all of it, as far as a message goes, and the others are blanked.

The messages of a request may hold more together than one message may.  The forwarded request
keeps the bounds of the request model, and it holds the masked content whole unless what is cut
off is more than the newlines that the blanked messages are joined by (`forwardedWhole_iff`).
-/

namespace Anoryx.Sentinel.Gateway

open PyJson Raising

variable {F : Type} [LaxNumbers F]

/-! ## the bounds of a request -/

/-- `max_length` of the content of a message -/
def contentLimit : Nat := 131072

/-- The bounds of `ChatMessage` -/
structure ChatMessage.InBounds (m : ChatMessage) : Prop where
  content : m.content.length ≤ contentLimit
  name : ∀ name ∈ m.name, name.length ≤ 256

/-- The bounds of `stop` -/
def Stop.InBounds : Stop → Prop
  | .text s => s.length ≤ 256
  | .texts ss => ss.length ≤ 4 ∧ ∀ s ∈ ss, s.length ≤ 256

/-- The bounds of `CreateChatCompletionRequest` -/
structure CreateChatCompletionRequest.InBounds (body : CreateChatCompletionRequest F) : Prop where
  model : body.model.length ≤ 256
  some : 1 ≤ body.messages.length
  few : body.messages.length ≤ 256
  messages : ∀ m ∈ body.messages, m.InBounds
  temperature : ∀ x ∈ body.temperature, LaxNumbers.within 2 x = true
  topP : ∀ x ∈ body.topP, LaxNumbers.within 1 x = true
  n : 1 ≤ body.n ∧ body.n ≤ 8
  maxTokens : ∀ k ∈ body.maxTokens, 1 ≤ k ∧ k ≤ 131072
  stop : ∀ s ∈ body.stop, s.InBounds
  user : ∀ s ∈ body.user, s.length ≤ 256

omit [LaxNumbers F] in
theorem length_of_strField {maxLength : Nat} {v : PyValue F} {s : PyStr} (h : strField maxLength v = some s) :
    s.length ≤ maxLength := by
  unfold strField at h
  split at h
  · split at h
    · next hs => exact Option.some.inj h ▸ hs.2
    · contradiction
  · contradiction

theorem bounds_of_intField {ge le n : Int} {v : PyValue F} (h : intField ge le v = some n) : ge ≤ n ∧ n ≤ le := by
  obtain ⟨-, hn⟩ := Option.filter_eq_some_iff.mp h
  simpa using hn

theorem within_of_floatField {le : Nat} {v : PyValue F} {x : F} (h : floatField le v = some x) :
    LaxNumbers.within le x = true :=
  (Option.filter_eq_some_iff.mp h).2

omit [LaxNumbers F] in
theorem of_optional {α : Type} {field : PyValue F → Option α} {v : Option (PyValue F)} {x : Option α} {a : α}
    (h : optional field v = some x) (ha : a ∈ x) : ∃ v, field v = some a := by
  cases v with
  | none => simp_all [optional]
  | some v =>
      cases v <;> simp only [optional, Option.map_eq_some_iff, Option.some.injEq] at h <;> grind

theorem forall₂_of_mapM {α β : Type} {f : α → Option β} {xs : List α} {ys : List β} (h : xs.mapM f = some ys) :
    List.Forall₂ (fun x y => f x = some y) xs ys := by
  induction xs generalizing ys with
  | nil =>
      cases h
      exact .nil
  | cons x xs ih =>
      rw [List.mapM_cons] at h
      obtain ⟨y, hy, h⟩ := Option.bind_eq_some_iff.mp h
      obtain ⟨ys', hys, h⟩ := Option.bind_eq_some_iff.mp h
      cases h
      exact .cons hy (ih hys)

theorem exists_of_mem_mapM {α β : Type} {f : α → Option β} {xs : List α} {ys : List β} (h : xs.mapM f = some ys)
    {y : β} (hy : y ∈ ys) : ∃ x, f x = some y := by
  obtain ⟨i, hi, rfl⟩ := List.getElem_of_mem hy
  have hforall := List.forall₂_iff_get.mp (forall₂_of_mapM h)
  exact ⟨_, hforall.2 i (hforall.1 ▸ hi) hi⟩

omit [LaxNumbers F] in
theorem inBounds_of_stopField {v : PyValue F} {s : Stop} (h : stopField v = some s) : s.InBounds := by
  unfold stopField at h
  split at h
  · split at h
    · next items hlength =>
        obtain ⟨ss, hss, rfl⟩ := Option.map_eq_some_iff.mp h
        refine ⟨by rwa [← (forall₂_of_mapM hss).length_eq], fun s hs => ?_⟩
        obtain ⟨v, hv⟩ := exists_of_mem_mapM hss hs
        exact length_of_strField hv
    · contradiction
  · obtain ⟨s, hs, rfl⟩ := Option.map_eq_some_iff.mp h
    exact length_of_strField hs

omit [LaxNumbers F] in
theorem ChatMessage.inBounds_of_validate {v : PyValue F} {m : ChatMessage} (h : ChatMessage.validate v = some m) :
    m.InBounds := by
  cases v with
  | obj members =>
      simp only [ChatMessage.validate, Option.bind_eq_bind, Option.bind_eq_some_iff] at h
      obtain ⟨_, -, role, -, content, ⟨v, -, hcontent⟩, name, hname, hm⟩ := h
      obtain rfl := Option.some.inj hm
      refine ⟨length_of_strField hcontent, fun name' hname' => ?_⟩
      obtain ⟨v, hv⟩ := of_optional hname hname'
      exact length_of_strField hv
  | _ => simp [ChatMessage.validate] at h

omit [LaxNumbers F] in
theorem inBounds_of_messagesField {v : PyValue F} {messages : List ChatMessage} (h : messagesField v = some messages) :
    1 ≤ messages.length ∧ messages.length ≤ 256 ∧ ∀ m ∈ messages, m.InBounds := by
  unfold messagesField at h
  split at h
  · split at h
    · next hlength =>
        rw [(forall₂_of_mapM h).length_eq] at hlength
        refine ⟨hlength.1, hlength.2, fun m hm => ?_⟩
        obtain ⟨v, hv⟩ := exists_of_mem_mapM h hm
        exact ChatMessage.inBounds_of_validate hv
    · contradiction
  · contradiction

theorem CreateChatCompletionRequest.inBounds_of_validate {v : PyValue F} {body : CreateChatCompletionRequest F}
    (h : CreateChatCompletionRequest.validate v = some body) : body.InBounds := by
  cases v with
  | obj members =>
      simp only [CreateChatCompletionRequest.validate, Option.bind_eq_bind, Option.bind_eq_some_iff] at h
      obtain ⟨_, -, model, ⟨_, -, hmodel⟩, messages, ⟨_, -, hmessages⟩, stream, -, temperature, htemperature, topP, htopP,
        n, hn, maxTokens, hmaxTokens, stop, hstop, user, huser, hbody⟩ := h
      obtain rfl := Option.some.inj hbody
      obtain ⟨hsome, hfew, hinBounds⟩ := inBounds_of_messagesField hmessages
      refine ⟨length_of_strField hmodel, hsome, hfew, hinBounds, ?_, ?_, ?_, ?_, ?_, ?_⟩
      · intro x hx
        obtain ⟨v, hv⟩ := of_optional htemperature hx
        exact within_of_floatField hv
      · intro x hx
        obtain ⟨v, hv⟩ := of_optional htopP hx
        exact within_of_floatField hv
      · cases hitem : item "n" members with
        | none =>
            rw [hitem] at hn
            obtain rfl := Option.some.inj hn
            exact ⟨le_rfl, by norm_num⟩
        | some v =>
            rw [hitem] at hn
            exact bounds_of_intField hn
      · intro k hk
        obtain ⟨v, hv⟩ := of_optional hmaxTokens hk
        exact bounds_of_intField hv
      · intro s hs
        obtain ⟨v, hv⟩ := of_optional hstop hs
        exact inBounds_of_stopField hv
      · intro s hs
        obtain ⟨v, hv⟩ := of_optional huser hs
        exact length_of_strField hv
  | _ => simp [CreateChatCompletionRequest.validate] at h

/-! ## what is forwarded -/

variable {messages : List ChatMessage} {masked : PyStr}

/-- A message beside the one forwarded for it -/
def KeepsOthers (m m' : ChatMessage) : Prop := m'.role = m.role ∧ m'.name = m.name ∧ (m.role ≠ .user → m' = m)

theorem maskMessages_keeps (masked : PyStr) (messages : List ChatMessage) :
    List.Forall₂ KeepsOthers messages (maskMessages masked messages) := by
  have hblank (messages : List ChatMessage) : List.Forall₂ KeepsOthers messages
      (messages.map fun m => if m.role = .user then { m with content := ⟨[]⟩ } else m) := by
    induction messages with
    | nil => exact .nil
    | cons m messages ih =>
        refine .cons ?_ ih
        dsimp only
        split
        · next h => exact ⟨rfl, rfl, fun hne => absurd h hne⟩
        · exact ⟨rfl, rfl, fun _ => rfl⟩
  induction messages with
  | nil => exact .nil
  | cons m messages ih =>
      unfold maskMessages
      split
      · next h => exact .cons ⟨rfl, rfl, fun hne => absurd h hne⟩ (hblank messages)
      · exact .cons ⟨rfl, rfl, fun _ => rfl⟩ ih

theorem maskMessages_inBounds (h : ∀ m ∈ messages, m.InBounds) : ∀ m ∈ maskMessages masked messages, m.InBounds := by
  induction messages with
  | nil => simp [maskMessages]
  | cons m messages ih =>
      rw [List.forall_mem_cons] at h
      unfold maskMessages
      split
      · rw [List.forall_mem_cons]
        refine ⟨⟨by simp [PyStr.length, contentLimit], h.1.name⟩, ?_⟩
        simp only [List.forall_mem_map]
        intro m' hm'
        split
        · exact ⟨by simp [PyStr.length], (h.2 m' hm').name⟩
        · exact h.2 m' hm'
      · exact List.forall_mem_cons.mpr ⟨h.1, ih h.2⟩

def userMessages (messages : List ChatMessage) : List ChatMessage := messages.filter (·.role = .user)

theorem intercalate_cons_replicate_nil {α : Type} (a : α) (x : List α) (k : Nat) :
    [a].intercalate (x :: List.replicate k []) = x ++ List.replicate k a := by
  induction k generalizing x with
  | zero => simp [List.intercalate]
  | succ k ih =>
      rw [List.replicate_succ, List.intercalate_cons_cons, ih, List.append_assoc]
      rfl

/-- The content of a masked body: what fits of the masked text, and line feeds. -/
theorem originalUserContent_maskMessages (h : userMessages messages ≠ []) :
    (originalUserContent (maskMessages masked messages)).points =
      masked.points.take contentLimit ++ List.replicate ((userMessages messages).length - 1) 0x0a := by
  have hblank (messages : List ChatMessage) :
      ((messages.map fun m => if m.role = .user then { m with content := ⟨[]⟩ } else m).filter (·.role = .user)).map
        (·.content.points) = List.replicate (userMessages messages).length [] := by
    induction messages with
    | nil => rfl
    | cons m messages ih => by_cases hm : m.role = .user <;> simp [hm, userMessages, List.replicate_succ] at ih ⊢ <;> exact ih
  induction messages with
  | nil => simp [userMessages] at h
  | cons m messages ih =>
      by_cases hm : m.role = .user
      · have hlength : (userMessages (m :: messages)).length - 1 = (userMessages messages).length := by
          simp [userMessages, hm]
        rw [originalUserContent, maskMessages, if_pos hm, List.filter_cons_of_pos (by simp [hm]), List.map_cons, hblank,
          hlength]
        exact intercalate_cons_replicate_nil _ _ _
      · have huser : userMessages (m :: messages) = userMessages messages := by simp [userMessages, hm]
        rw [huser] at h ⊢
        rw [← ih h, originalUserContent, maskMessages, if_neg hm, List.filter_cons_of_neg (by simp [hm])]
        rfl

theorem infix_take_append_replicate {α : Type} {a : α} {xs : List α} {n k : Nat} :
    xs <:+: xs.take n ++ List.replicate k a ↔ xs.length ≤ n ∨ ∃ j ≤ k, xs.drop n = List.replicate j a := by
  constructor
  · rintro ⟨before, after, h⟩
    by_cases hn : xs.length ≤ n
    · exact Or.inl hn
    · rw [not_le] at hn
      have hlength := congrArg List.length h
      simp only [List.length_append, List.length_take, List.length_replicate] at hlength
      refine Or.inr ⟨xs.length - n, by omega, List.eq_replicate_iff.mpr ⟨by simp, fun b hb => ?_⟩⟩
      -- An element behind the first `n` stands, in the longer list, among the copies.
      obtain ⟨i, hi, rfl⟩ := List.getElem_of_mem hb
      rw [List.length_drop] at hi
      have hget : (before ++ xs ++ after)[before.length + (n + i)]? = xs[n + i]? := by
        rw [List.append_assoc, List.getElem?_append_right (by omega), List.getElem?_append_left (by omega)]
        congr 1
        omega
      have hlt : before.length + (n + i) - (xs.take n).length < k := by
        rw [List.length_take]
        omega
      rw [h, List.getElem?_append_right (by simp; omega), List.getElem?_replicate, if_pos hlt] at hget
      rw [List.getElem_drop]
      obtain ⟨_, hget⟩ := List.getElem?_eq_some_iff.mp hget.symm
      exact hget
  · rintro (hn | ⟨j, hj, hdrop⟩)
    · rw [List.take_of_length_le hn]
      exact (List.prefix_append _ _).isInfix
    · conv_lhs => rw [← List.take_append_drop n xs, hdrop]
      refine ⟨[], List.replicate (k - j) a, ?_⟩
      rw [List.nil_append, List.append_assoc, ← List.replicate_add, Nat.add_sub_cancel' hj]

/-! ## the law -/

/-- What the forwarded request should be -/
structure ForwardedWhole (body forwarded : CreateChatCompletionRequest F) (masked : PyStr) : Prop where
  whole : masked.points <:+: (originalUserContent forwarded.messages).points
  others : List.Forall₂ KeepsOthers body.messages forwarded.messages
  bounds : forwarded.InBounds

theorem originalUserContent_maskMessages_of_nil (h : userMessages messages = []) :
    (originalUserContent (maskMessages masked messages)).points = [] ∧ (originalUserContent messages).points = [] := by
  have hrole : ∀ m ∈ messages, m.role ≠ .user := fun m hm => by simpa using List.filter_eq_nil_iff.mp h m hm
  have hsame : maskMessages masked messages = messages := by
    clear h
    induction messages with
    | nil => rfl
    | cons m messages ih =>
        rw [List.forall_mem_cons] at hrole
        rw [maskMessages, if_neg hrole.1, ih hrole.2]
  have hjoined : (originalUserContent messages).points = [] := by
    rw [originalUserContent, show messages.filter (·.role = .user) = [] from h]
    rfl
  rw [hsame]
  exact ⟨hjoined, hjoined⟩

variable {call : ChatCall F} {v : PyValue F} {body : CreateChatCompletionRequest F} {state : RequestState}

omit [LaxNumbers F] in
theorem exec_runPreRequest (hchain : call.preRequest (originalUserContent body.messages) = .ok masked)
    (hne : masked ≠ originalUserContent body.messages) : (runPreRequest call true body).exec state =
      (.ok { body with messages := maskMessages masked body.messages }, state) := by
  unfold runPreRequest guarded
  simp only [if_true, Prog.exec_ofExcept_bind, hchain, Except.mapError, if_neg hne, Prog.exec_pure]

theorem inBounds_masked (h : body.InBounds) :
    ({ body with messages := maskMessages masked body.messages } : CreateChatCompletionRequest F).InBounds := by
  have hlength := (maskMessages_keeps masked body.messages).length_eq
  exact { h with some := hlength ▸ h.some, few := hlength ▸ h.few, messages := maskMessages_inBounds h.messages }

/-- The masked content is forwarded whole exactly if there is a message to put it into and it fits, or
what is cut off are newlines as the blanked messages leave. -/
theorem forwardedWhole_iff (hbody : CreateChatCompletionRequest.validate v = some body)
    (hchain : call.preRequest (originalUserContent body.messages) = .ok masked)
    (hne : masked ≠ originalUserContent body.messages) :
    (∃ forwarded, (runPreRequest call true body).exec state = (.ok forwarded, state) ∧
        ForwardedWhole body forwarded masked) ↔
      userMessages body.messages ≠ [] ∧ (masked.length ≤ contentLimit ∨
        ∃ k ≤ (userMessages body.messages).length - 1, masked.points.drop contentLimit = List.replicate k 0x0a) := by
  have hwhole : (∃ forwarded, (runPreRequest call true body).exec state = (.ok forwarded, state) ∧
      ForwardedWhole body forwarded masked) ↔
        masked.points <:+: (originalUserContent (maskMessages masked body.messages)).points := by
    rw [exec_runPreRequest hchain hne]
    constructor
    · rintro ⟨forwarded, hforwarded, h⟩
      obtain rfl := Except.ok.inj (Prod.mk.inj hforwarded).1
      exact h.whole
    · intro h
      exact ⟨_, rfl, h, maskMessages_keeps masked body.messages,
        inBounds_masked (CreateChatCompletionRequest.inBounds_of_validate hbody)⟩
  rw [hwhole]
  by_cases huser : userMessages body.messages = []
  · obtain ⟨hnil, horiginal⟩ := originalUserContent_maskMessages_of_nil huser
    rw [hnil, List.infix_nil]
    have hmasked : masked.points ≠ [] := fun h => hne (by cases masked; simp_all [originalUserContent])
    simp [huser, hmasked]
  · rw [originalUserContent_maskMessages huser, infix_take_append_replicate]
    simp [huser, PyStr.length]

/-- The hooks give back `masked`. -/
def sampleMasking (masked : PyStr) : ChatCall Nat := { sampleCall (sampleBody (.bool false)) with preRequest := fun _ => .ok masked }

def sampleMessages (texts : List PyStr) : PyValue Nat :=
  .obj [(PyStr.ofString "model", sampleText "gpt-4o-mini"),
    (PyStr.ofString "messages", .arr (texts.map fun text =>
      .obj [(PyStr.ofString "role", sampleText "user"), (PyStr.ofString "content", .str text)]))]

def sampleRequest (texts : List PyStr) : CreateChatCompletionRequest Nat where
  model := PyStr.ofString "gpt-4o-mini"
  messages := texts.map fun text => ⟨.user, text, none⟩
  stream := false
  temperature := none
  topP := none
  n := 1
  maxTokens := none
  stop := none
  user := none

theorem validate_sampleMessages {texts : List PyStr} (hsome : 1 ≤ texts.length) (hfew : texts.length ≤ 256)
    (htexts : ∀ text ∈ texts, text.encode.isSome ∧ text.length ≤ 131072) :
    CreateChatCompletionRequest.validate (sampleMessages texts) = some (sampleRequest texts) := by
  have hmessage (text : PyStr) (htext : text ∈ texts) : ChatMessage.validate
      (.obj [(PyStr.ofString "role", sampleText "user"), (PyStr.ofString "content", .str text)]) =
        some ⟨.user, text, none⟩ := by
    have hfield : strField 131072 (.str text : PyValue Nat) = some text := if_pos (htexts text htext)
    show (strField 131072 (.str text : PyValue Nat)).bind (fun content => some (⟨.user, content, none⟩ : ChatMessage)) = _
    rw [hfield]
    rfl
  have hmessages : messagesField (.arr (texts.map fun text =>
      .obj [(PyStr.ofString "role", sampleText "user"), (PyStr.ofString "content", .str text)])) =
        some (texts.map fun text => (⟨.user, text, none⟩ : ChatMessage)) := by
    rw [messagesField, if_pos (by simp [hsome, hfew]), List.mapM_map]
    clear hsome hfew htexts
    induction texts with
    | nil => rfl
    | cons text texts ih =>
        rw [List.mapM_cons, Function.comp_apply, hmessage text List.mem_cons_self, ih fun text h => hmessage text (List.mem_cons_of_mem _ h)]
        rfl
  show (messagesField (.arr (texts.map fun text =>
    .obj [(PyStr.ofString "role", sampleText "user"), (PyStr.ofString "content", .str text)]))).bind
      (fun messages => some { sampleRequest texts with messages := messages }) = _
  rw [hmessages]
  rfl

/-- What two messages hold. -/
def sampleTexts : List PyStr := [PyStr.ofString "I am Ann", PyStr.ofString "from Rome"]

theorem sampleTexts_bounded (text : PyStr) (h : text ∈ sampleTexts) : text.encode.isSome ∧ text.length ≤ 131072 := by
  simp only [sampleTexts, List.mem_cons, List.not_mem_nil, or_false] at h
  rcases h with rfl | rfl <;> exact ⟨by simp, by decide⟩

/-- The first of two messages gets all of the masked text. -/
theorem forwardedWhole_iff_sample :
    ∃ forwarded, (runPreRequest (sampleMasking (PyStr.ofString "I am X\nfrom Y")) true (sampleRequest sampleTexts)).exec
      (.start sampleSettings) = (.ok forwarded, .start sampleSettings) ∧
        ForwardedWhole (sampleRequest sampleTexts) forwarded (PyStr.ofString "I am X\nfrom Y") :=
  (forwardedWhole_iff (v := sampleMessages sampleTexts)
    (validate_sampleMessages (by decide) (by decide) sampleTexts_bounded) rfl (by decide)).mpr
    ⟨by decide, .inl (by decide)⟩

/-- A text of `n` characters -/
def letters (n : Nat) : PyStr := PyStr.ofString (String.ofList (List.replicate n 'a'))

theorem length_letters (n : Nat) : (letters n).points.length = n := by
  simp [letters, PyStr.ofString]

/-- Two such texts, and a name in the first is masked. -/
def maskedLetters (n : Nat) : PyStr :=
  ⟨(PyStr.ofString "[REDACTED:PERSON]").points ++
    (originalUserContent (sampleRequest [letters n, letters n]).messages).points.drop 4⟩

theorem length_twoLetters (n : Nat) :
    (originalUserContent (sampleRequest [letters n, letters n]).messages).points.length = 2 * n + 1 := by
  have hpoints : (originalUserContent (sampleRequest [letters n, letters n]).messages).points =
      (letters n).points ++ (0x0a :: (letters n).points) := by
    simp [originalUserContent, sampleRequest, List.intercalate, List.intersperse]
  rw [hpoints, List.length_append, List.length_cons, length_letters]
  omega

theorem length_maskedLetters (n : Nat) : (maskedLetters n).points.length = 17 + (2 * n + 1 - 4) := by
  have hmark : (PyStr.ofString "[REDACTED:PERSON]").points.length = 17 := by decide
  rw [maskedLetters, List.length_append, List.length_drop, hmark, length_twoLetters]

/-- Two messages of 70000 characters do not fit into one. -/
theorem forwardedWhole_fails : ¬ ∀ (call : ChatCall Nat) (v : PyValue Nat) body masked state,
    CreateChatCompletionRequest.validate v = some body →
      call.preRequest (originalUserContent body.messages) = .ok masked →
        masked ≠ originalUserContent body.messages →
          ∃ forwarded, (runPreRequest call true body).exec state = (.ok forwarded, state) ∧
            ForwardedWhole body forwarded masked := by
  intro h
  -- The number is kept a variable, so that no text of that length is written out.
  obtain ⟨n, hn⟩ : ∃ n : Nat, n = 70000 := ⟨_, rfl⟩
  have hvalid : CreateChatCompletionRequest.validate (sampleMessages [letters n, letters n]) =
      some (sampleRequest [letters n, letters n]) := by
    refine validate_sampleMessages (by simp) (by simp) fun text htext => ?_
    obtain rfl : text = letters n := by simpa using htext
    refine ⟨by simp [letters], ?_⟩
    rw [PyStr.length, length_letters]
    omega
  have hne : maskedLetters n ≠ originalUserContent (sampleRequest [letters n, letters n]).messages := fun heq => by
    have hlength := congrArg (fun s : PyStr => s.points.length) heq
    simp only [length_maskedLetters, length_twoLetters] at hlength
    omega
  obtain ⟨forwarded, hforwarded, hwhole⟩ :=
    h (sampleMasking (maskedLetters n)) _ _ (maskedLetters n) (.start sampleSettings) hvalid rfl hne
  rw [exec_runPreRequest rfl hne] at hforwarded
  obtain rfl := Except.ok.inj (Prod.mk.inj hforwarded).1
  have hlength := hwhole.whole.length_le
  rw [originalUserContent_maskMessages (by simp [sampleRequest, userMessages]), List.length_append, List.length_take,
    List.length_replicate, length_maskedLetters] at hlength
  have huser : (userMessages (sampleRequest [letters n, letters n]).messages).length = 2 := by
    simp [sampleRequest, userMessages]
  rw [huser, contentLimit] at hlength
  omega

end Anoryx.Sentinel.Gateway
