import Anoryx.Sentinel.ChatCompletion

/-!
# Anoryx.Sentinel.TerminalAudit

The layers around the handlers that answer for the terminal record of a request:
`TerminalAuditMiddleware` (`gateway/middleware/terminal_audit_wrapper.py`), the guard of
a passive region outside it (`gateway/middleware/region_guard.py`), and the last resort
for an exception, Starlette's own.

The wrapper and the chat handler both append, and share one flag.  An append that raises
may have been committed; `Counted` says how many there were.  The body of a stream, with
the record that it leaves, is no part of this module.
-/

namespace Anoryx.Sentinel.Gateway

open PyJson Raising

/-! ## the layers -/

def auditExemptPaths : List String := ["/health", "/ready", "/livez", "/readyz", "/healthz"]

inductive RegionRole
  | active
  | passive
deriving DecidableEq

/-- The start of a response: its status, and whether it is a stream of events. -/
structure ResponseStart where
  status : Nat
  sse : Bool
deriving DecidableEq

/-- A request that is answered elsewhere, by a middleware or by another endpoint: the
response or what is raised, and whether `audit_emitted` is set on the way. -/
structure OtherCall where
  requestId : String
  marks : Bool
  outcome : Except Raised ResponseStart
  fates : Nat → AppendFate

inductive Inner (F : Type)
  | chat (call : ChatCall F)
  | other (call : OtherCall)

structure HttpRequest (F : Type) where
  path : String
  inner : Inner F

namespace HttpRequest

variable {F : Type} (req : HttpRequest F)

def requestId : String :=
  match req.inner with
  | .chat call => call.requestId
  | .other call => call.requestId

def fates : Nat → AppendFate :=
  match req.inner with
  | .chat call => call.fates
  | .other call => call.fates

/-- The endpoint sets `audit_emitted` itself. -/
def marks : Bool :=
  match req.inner with
  | .chat _ => false
  | .other call => call.marks

end HttpRequest

section Layers

variable {F : Type} [LaxNumbers F] (settings : GatewaySettings) (req : HttpRequest F)

/-- The application below the wrapper -/
def app : Handler ResponseStart :=
  match req.inner with
  | .chat call => do
      let response ← createChatCompletion settings call
      pure ⟨response.status, response.isStream⟩
  | .other call => do
      modify fun s => { s with auditEmitted := s.auditEmitted || call.marks }
      Prog.ofExcept call.outcome

/-- `_emit_audit`: what is raised is logged. -/
def emitAudit (requestId : String) (fates : Nat → AppendFate) : Handler Unit := do
  let s ← get
  if s.auditEmitted then pure () else Prog.catching (emitTerminalRecord requestId fates 0 0) fun _ => pure ()

/-- The app, with the record of an exception that escapes it -/
def audited : Handler ResponseStart :=
  Prog.catching (app settings req) fun e => do
    emitAudit req.requestId req.fates
    throw e

/-- `TerminalAuditMiddleware`: the start of the response is sent before the record. -/
def terminalAudit : Handler ResponseStart := do
  let start ← audited settings req
  if start.sse then pure () else emitAudit req.requestId req.fates
  pure start

/-- An exception that escapes everything is a plain 500. -/
def serverError (r : Except Raised ResponseStart) : ResponseStart :=
  match r with
  | .ok start => start
  | .error _ => ⟨ErrorCode.internalError.status, false⟩

/-- The gateway: `PassiveRegionGuardMiddleware` is outside the wrapper. -/
def gateway (role : RegionRole) : ResponseStart × RequestState :=
  let s := RequestState.start settings
  if req.path ∈ auditExemptPaths then
    let (r, s) := (app settings req).exec s
    (serverError r, s)
  else if role = .passive then (⟨503, false⟩, s)
  else
    let (r, s) := (terminalAudit settings req).exec s
    (serverError r, s)

end Layers

/-! ## records by appends -/

/-- The records that the first appends leave -/
def recorded (fates : Nat → AppendFate) (n : Nat) : Nat := (List.range n).countP fun i => fates i ≠ .failed

theorem recorded_succ (fates : Nat → AppendFate) (n : Nat) :
    recorded fates (n + 1) = recorded fates n + (if fates n = .failed then 0 else 1) := by
  rw [recorded, List.range_succ, List.countP_append]
  by_cases h : fates n = .failed <;> simp [recorded, h]

/-- So many appends have been tried, and their records are there. -/
structure Tally (requestId : String) (fates : Nat → AppendFate) (n : Nat) (s : RequestState) : Prop where
  attempts : s.attempts = n
  length : s.records.length = recorded fates n
  requestId : ∀ event ∈ s.records, event.requestId = requestId

variable {requestId : String} {fates : Nat → AppendFate} {n : Nat} {s : RequestState}

theorem Tally.appended {event : UsageEvent} (h : Tally requestId fates n s) (hevent : event.requestId = requestId) :
    Tally requestId fates (n + 1) (s.appended (fates s.attempts) event) := by
  rw [h.attempts]
  refine ⟨congrArg (· + 1) h.attempts, ?_, fun event' hmem => ?_⟩
  · rw [recorded_succ, ← h.length, RequestState.appended]
    split <;> simp
  · rw [RequestState.appended] at hmem
    split at hmem
    · exact h.requestId event' hmem
    · rcases List.mem_append.mp hmem with hmem | hmem
      · exact h.requestId event' hmem
      · rw [List.mem_singleton.mp hmem, hevent]

theorem post_emitTerminalRecord (tokensIn tokensOut : Int) (h : Tally requestId fates n s) :
    Prog.Post (emitTerminalRecord requestId fates tokensIn tokensOut) s fun r s' =>
      Tally requestId fates (n + 1) s' ∧ s'.auditEmitted = s.auditEmitted ∧
        r = if fates n = .appended then .ok () else .error (gatewayError .internalError) := by
  unfold Prog.Post emitTerminalRecord
  rw [Prog.exec_get_bind, Prog.exec_modify_bind, Prog.exec_ofExcept]
  exact ⟨h.appended rfl, rfl, by rw [h.attempts]⟩

/-- Nothing has been appended yet, and nobody says that it was. -/
def Open (requestId : String) (fates : Nat → AppendFate) (s : RequestState) : Prop :=
  Tally requestId fates 0 s ∧ s.auditEmitted = false

/-- One append, or two of which the first has raised -/
def Counted (requestId : String) (fates : Nat → AppendFate) (s : RequestState) : Prop :=
  Tally requestId fates 1 s ∨ Tally requestId fates 2 s ∧ fates 0 ≠ .appended

/-- The record is appended, at the first try. -/
def Recorded (requestId : String) (fates : Nat → AppendFate) (s : RequestState) : Prop :=
  Tally requestId fates 1 s ∧ fates 0 = .appended

theorem open_start (settings : GatewaySettings) : Open requestId fates (RequestState.start settings) :=
  ⟨⟨rfl, rfl, fun _ h => absurd h List.not_mem_nil⟩, rfl⟩

theorem Counted.length_le (h : Counted requestId fates s) (hfate : fates 0 ≠ .unacknowledged) :
    s.records.length ≤ 1 := by
  rcases h with h | ⟨h, hraised⟩
  · rw [h.length, recorded_succ]
    split <;> simp [recorded]
  · have hfailed : fates 0 = .failed := by
      cases hfate' : fates 0 with
      | appended => exact absurd hfate' hraised
      | failed => rfl
      | unacknowledged => exact absurd hfate' hfate
    rw [h.length, recorded_succ, recorded_succ, if_pos hfailed]
    split <;> simp [recorded]

theorem Recorded.length_eq (h : Recorded requestId fates s) : s.records.length = 1 := by
  rw [h.1.length, recorded_succ, h.2]
  rfl

theorem Counted.length_eq (h : Counted requestId fates s) (hfates : ∀ i < s.attempts, fates i = .appended) :
    s.records.length = 1 := by
  rcases h with h | ⟨h, hraised⟩
  · exact Recorded.length_eq ⟨h, hfates 0 (by rw [h.attempts]; exact Nat.one_pos)⟩
  · exact absurd (hfates 0 (by rw [h.attempts]; exact Nat.two_pos)) hraised

theorem Counted.of_request (h : Counted requestId fates s) : ∀ event ∈ s.records, event.requestId = requestId := by
  rcases h with h | ⟨h, -⟩
  · exact h.requestId
  · exact h.requestId

/-! ## the handler -/

/-- What the record of a request depends on -/
def RequestState.audit (s : RequestState) : Nat × List UsageEvent × Bool := (s.attempts, s.records, s.auditEmitted)

theorem audit_blind : Blind RequestState.audit := ⟨fun _ _ => rfl, fun _ _ => rfl⟩

theorem Open.of_audit {s' : RequestState} (h : Open requestId fates s) (hs' : s'.audit = s.audit) :
    Open requestId fates s' := by
  have hattempts : s'.attempts = s.attempts := congrArg Prod.fst hs'
  have hrest : (s'.records, s'.auditEmitted) = (s.records, s.auditEmitted) := congrArg Prod.snd hs'
  obtain ⟨hrecords, hemitted⟩ := Prod.mk.inj hrest
  exact ⟨⟨hattempts.trans h.1.attempts, by rw [hrecords, h.1.length], by rw [hrecords]; exact h.1.requestId⟩,
    hemitted.trans h.2⟩

/-- The append of the success path has raised. -/
def Tried (requestId : String) (fates : Nat → AppendFate) (s : RequestState) : Prop :=
  Tally requestId fates 1 s ∧ s.auditEmitted = false ∧ fates 0 ≠ .appended

section Chat

variable {F : Type} {settings : GatewaySettings} {call : ChatCall F} {hooks : Bool}
  {body : CreateChatCompletionRequest F}

/-- How the `try` of the handler ends -/
def AttemptEnds (call : ChatCall F) : Except Raised (Response F) → RequestState → Prop
  | .ok (.completion _ _), s => Recorded call.requestId call.fates s ∧ s.auditEmitted = true
  | .ok (.eventStream _ _), s => Open call.requestId call.fates s
  | .ok (.error _ _ _), _ => False
  | .error e, s => Open call.requestId call.fates s ∨
      (e = gatewayError .internalError ∧ Tried call.requestId call.fates s) ∨
      (e = .other ∧ Recorded call.requestId call.fates s ∧ s.auditEmitted = true)

def HandlerEnds (call : ChatCall F) : Except Raised (Response F) → RequestState → Prop
  | .ok (.completion _ _), s => Recorded call.requestId call.fates s ∧ s.auditEmitted = true
  | .ok (.eventStream _ _), s => Open call.requestId call.fates s
  | .ok (.error _ _ _), s => Counted call.requestId call.fates s ∧ s.auditEmitted = true
  | .error _, s => Open call.requestId call.fates s ∨
      (Counted call.requestId call.fates s ∧ s.auditEmitted = true)

/-- What an attempt leaves of the audit. -/
theorem post_answer (h : Open call.requestId call.fates s) :
    Prog.Post (answer call hooks body) s (AttemptEnds call) := by
  refine .bind (keeps_complete.post s) (fun (text, tokensIn, tokensOut) s₁ hs₁ => ?_)
    fun e s₁ hs₁ => .inl (h.of_audit hs₁)
  have h₁ := h.of_audit hs₁
  refine .bind (post_emitTerminalRecord tokensIn tokensOut h₁.1) (fun _ s₂ hs₂ => ?_) fun e s₂ hs₂ => ?_
  · -- the append is done: what raises from here on does not go to the error path
    obtain ⟨htally, -, hfate⟩ := hs₂
    have hfate : call.fates 0 = .appended := by
      by_contra hne
      rw [if_neg hne] at hfate
      contradiction
    have hrecorded : Recorded call.requestId call.fates { s₂ with auditEmitted := true } :=
      ⟨⟨htally.attempts, htally.length, htally.requestId⟩, hfate⟩
    unfold Prog.Post
    rw [markEmitted, Prog.exec_modify_bind, recordMetrics, Prog.exec_ofExcept_bind]
    split
    · exact ⟨hrecorded, rfl⟩
    · next e he =>
        have he : Raised.other = e := by
          split at he
          · contradiction
          · exact Except.error.inj he
        exact .inr (.inr ⟨he.symm, hrecorded, rfl⟩)
  · obtain ⟨htally, hemitted, hfate⟩ := hs₂
    have hne : call.fates 0 ≠ .appended := by
      intro heq
      rw [if_pos heq] at hfate
      contradiction
    rw [if_neg hne] at hfate
    exact .inr (.inl ⟨Except.error.inj hfate, htally, hemitted.trans h₁.2, hne⟩)

theorem post_rejected (errorCode : ErrorCode) (retryAfter : Option Nat)
    (h : Open call.requestId call.fates s ∨ Tried call.requestId call.fates s) :
    Prog.Post (rejected call errorCode retryAfter) s (HandlerEnds call) := by
  obtain ⟨n, htally, hcounted⟩ : ∃ n, Tally call.requestId call.fates n s ∧
      ∀ s', Tally call.requestId call.fates (n + 1) s' → Counted call.requestId call.fates s' := by
    rcases h with h | h
    · exact ⟨0, h.1, fun s' hs' => .inl hs'⟩
    · exact ⟨1, h.1, fun s' hs' => .inr ⟨hs', h.2.2⟩⟩
  refine .bind (P := fun r s' => r.isOk = true ∧ Tally call.requestId call.fates (n + 1) s') ?_
    (fun (code, after) s₁ hs₁ => ?_) fun e s₁ hs₁ => absurd hs₁.1 Bool.false_ne_true
  · refine .catching (P := fun _ s' => Tally call.requestId call.fates (n + 1) s') ?_
      (fun _ s₁ hs₁ => ⟨rfl, hs₁⟩) fun _ s₁ hs₁ => ⟨rfl, hs₁⟩
    exact .bind (post_emitTerminalRecord 0 0 htally) (fun _ s₁ hs₁ => hs₁.1) fun _ s₁ hs₁ => hs₁.1
  · have hclosed : Counted call.requestId call.fates { s₁ with auditEmitted := true } :=
      hcounted _ ⟨hs₁.2.attempts, hs₁.2.length, hs₁.2.requestId⟩
    unfold Prog.Post
    rw [markEmitted, Prog.exec_modify_bind, recordMetrics, Prog.exec_ofExcept_bind]
    split
    · exact ⟨hclosed, rfl⟩
    · exact .inr ⟨hclosed, rfl⟩

variable [LaxNumbers F]

theorem keeps_wayIn : Prog.Keeps RequestState.audit (wayIn call) :=
  .bind (keeps_enter audit_blind) fun _ =>
    .bind (.bind (.ofExcept _) fun _ => .modify fun _ => rfl) fun _ => .pure _

theorem post_attempt (h : Open call.requestId call.fates s) :
    Prog.Post (attempt settings call) s (AttemptEnds call) := by
  refine .bind (keeps_wayIn.post s) (fun hooks s₁ hs₁ => ?_) fun e s₁ hs₁ => .inl (h.of_audit hs₁)
  have h₁ := h.of_audit hs₁
  refine .bind ((keeps_prepare audit_blind).post s₁) (fun body s₂ hs₂ => ?_) fun e s₂ hs₂ => .inl (h₁.of_audit hs₂)
  have h₂ := h₁.of_audit hs₂
  split
  · exact .bind ((keeps_withHooks _).post s₂) (fun _ s₃ hs₃ => h₂.of_audit hs₃) fun e s₃ hs₃ => .inl (h₂.of_audit hs₃)
  · exact post_answer h₂

theorem post_createChatCompletion (h : Open call.requestId call.fates s) :
    Prog.Post (createChatCompletion settings call) s (HandlerEnds call) := by
  refine .catching (post_attempt h) (fun response s₁ hs₁ => ?_) fun e s₁ hs₁ => ?_
  · cases response with
    | completion text limits => exact hs₁
    | eventStream body limits => exact hs₁
    | error errorCode retryAfter limits => exact hs₁.elim
  · rcases hs₁ with hopen | ⟨rfl, htried⟩ | ⟨rfl, hrecorded, hemitted⟩
    · cases e with
      | gateway errorCode retryAfter => exact post_rejected errorCode retryAfter (.inl hopen)
      | _ => exact .inl hopen
    · exact post_rejected .internalError none (.inr htried)
    · exact .inr ⟨.inl hrecorded.1, hemitted⟩

end Chat

/-! ## the wrapper -/

section Wrapper

variable {F : Type} [LaxNumbers F] {settings : GatewaySettings} {req : HttpRequest F}

/-- A status that says that all went well -/
def ResponseStart.success (start : ResponseStart) : Prop := 200 ≤ start.status ∧ start.status < 300

theorem not_success_error (errorCode : ErrorCode) : ¬ ResponseStart.success ⟨errorCode.status, false⟩ := by
  rintro ⟨-, hlt⟩
  cases errorCode <;> exact absurd hlt (by decide)

def HttpRequest.isChat (req : HttpRequest F) : Bool :=
  match req.inner with
  | .chat _ => true
  | .other _ => false

/-- What the wrapper finds: a stream, or a request nobody has recorded yet, or one that
the chat handler has. -/
def AppEnds (req : HttpRequest F) : Except Raised ResponseStart → RequestState → Prop
  | .ok start, s => start.sse = true ∨ (req.isChat = false ∧ Open req.requestId req.fates s) ∨
      (Counted req.requestId req.fates s ∧ s.auditEmitted = true ∧
        (start.success → Recorded req.requestId req.fates s))
  | .error _, s => Open req.requestId req.fates s ∨ (Counted req.requestId req.fates s ∧ s.auditEmitted = true)

/-- What the wrapper leaves -/
def WrapperEnds (req : HttpRequest F) : Except Raised ResponseStart → RequestState → Prop
  | .ok start, s => start.sse = true ∨ (Counted req.requestId req.fates s ∧
      (req.isChat = true → start.success → Recorded req.requestId req.fates s))
  | .error _, s => Counted req.requestId req.fates s

theorem post_app (hmarks : req.marks = false) (h : Open req.requestId req.fates s) :
    Prog.Post (app settings req) s (AppEnds req) := by
  obtain ⟨path, inner⟩ := req
  cases inner with
  | chat call =>
      refine .bind (post_createChatCompletion h) (fun response s₁ hs₁ => ?_) fun e s₁ hs₁ => hs₁
      cases response with
      | completion text limits => exact .inr (.inr ⟨.inl hs₁.1.1, hs₁.2, fun _ => hs₁.1⟩)
      | eventStream body limits => exact .inl rfl
      | error errorCode retryAfter limits =>
          exact .inr (.inr ⟨hs₁.1, hs₁.2, fun hsuccess => absurd hsuccess (not_success_error errorCode)⟩)
  | other call =>
      have hmarks : call.marks = false := hmarks
      have hopen : Open call.requestId call.fates { s with auditEmitted := s.auditEmitted || call.marks } :=
        h.of_audit (by rw [hmarks, Bool.or_false])
      unfold Prog.Post app
      rw [Prog.exec_modify_bind, Prog.exec_ofExcept]
      cases call.outcome with
      | ok start => exact .inr (.inl ⟨rfl, hopen⟩)
      | error e => exact .inl hopen

theorem exec_emitAudit_of_emitted (h : s.auditEmitted = true) : (emitAudit requestId fates).exec s = (.ok (), s) := by
  rw [emitAudit, Prog.exec_get_bind, if_pos h]
  rfl

theorem post_emitAudit (h : Open requestId fates s) :
    Prog.Post (emitAudit requestId fates) s fun r s' => r.isOk = true ∧ Counted requestId fates s' := by
  have happend : Prog.Post (Prog.catching (emitTerminalRecord requestId fates 0 0) fun _ => pure ()) s
      fun r s' => r.isOk = true ∧ Counted requestId fates s' :=
    .catching (post_emitTerminalRecord 0 0 h.1) (fun _ s₁ hs₁ => ⟨rfl, .inl hs₁.1⟩) fun _ s₁ hs₁ => ⟨rfl, .inl hs₁.1⟩
  unfold Prog.Post emitAudit
  rw [Prog.exec_get_bind, if_neg (by rw [h.2]; exact Bool.false_ne_true)]
  exact happend

theorem post_audited (hmarks : req.marks = false) (h : Open req.requestId req.fates s) :
    Prog.Post (audited settings req) s fun r s' => match r with
      | .ok start => AppEnds req (.ok start) s'
      | .error _ => Counted req.requestId req.fates s' := by
  refine .catching (post_app hmarks h) (fun start s₁ hs₁ => hs₁) fun e s₁ hs₁ => ?_
  rcases hs₁ with hopen | ⟨hcounted, hemitted⟩
  · exact .bind (post_emitAudit hopen) (fun _ s₂ hs₂ => hs₂.2) fun _ s₂ hs₂ => hs₂.2
  · unfold Prog.Post
    rw [Prog.exec_bind_of_ok (exec_emitAudit_of_emitted hemitted)]
    exact hcounted

theorem post_terminalAudit (hmarks : req.marks = false) (h : Open req.requestId req.fates s) :
    Prog.Post (terminalAudit settings req) s (WrapperEnds req) := by
  refine .bind (post_audited hmarks h) (fun start s₁ hs₁ => ?_) fun e s₁ hs₁ => hs₁
  cases hsse : start.sse with
  | true => exact .inl hsse
  | false =>
      rcases hs₁ with hstream | ⟨hother, hopen⟩ | ⟨hcounted, hemitted, hrecorded⟩
      · rw [hsse] at hstream
        contradiction
      · refine .bind (post_emitAudit hopen) (fun _ s₂ hs₂ => .inr ⟨hs₂.2, fun hchat => ?_⟩) fun _ s₂ hs₂ => hs₂.2
        rw [hother] at hchat
        contradiction
      · unfold Prog.Post
        rw [if_neg Bool.false_ne_true, Prog.exec_bind_of_ok (exec_emitAudit_of_emitted hemitted)]
        exact .inr ⟨hcounted, fun _ => hrecorded⟩

/-! ## the gateway -/

/-- A response that is no stream has at most one record, exactly one if no append fails,
and one if it says that all went well. -/
def TerminalRecords (settings : GatewaySettings) (role : RegionRole) (req : HttpRequest F) : Prop :=
  let (start, s) := gateway settings req role
  start.sse = false →
    s.records.length ≤ 1 ∧
    ((∀ i < s.attempts, req.fates i = .appended) → s.records.length = 1) ∧
    (start.success → s.records ≠ [])

/-- **The terminal record** of a request in an active region, on a path that is not
exempt and to an endpoint that does not see to its record itself: if what raises has
appended nothing there is at most one, if nothing raises there is exactly one, and a
chat completion goes out only with its record; and whatever is appended is for the
request. -/
theorem terminal_record_once (settings : GatewaySettings) (req : HttpRequest F) (hpath : req.path ∉ auditExemptPaths)
    (hmarks : req.marks = false) (hsse : (gateway settings req .active).1.sse = false) :
    (req.fates 0 ≠ .unacknowledged → (gateway settings req .active).2.records.length ≤ 1) ∧
    ((∀ i < (gateway settings req .active).2.attempts, req.fates i = .appended) →
      (gateway settings req .active).2.records.length = 1) ∧
    (req.isChat = true → (gateway settings req .active).1.success →
      (gateway settings req .active).2.records.length = 1) ∧
    ∀ event ∈ (gateway settings req .active).2.records, event.requestId = req.requestId := by
  have hpost : Prog.Post (terminalAudit settings req) (RequestState.start settings) (WrapperEnds req) :=
    post_terminalAudit hmarks (open_start settings)
  have hgateway : gateway settings req .active =
      (serverError ((terminalAudit settings req).exec (RequestState.start settings)).1,
        ((terminalAudit settings req).exec (RequestState.start settings)).2) := by
    rw [gateway, if_neg hpath, if_neg (by decide)]
  unfold Prog.Post at hpost
  rw [hgateway] at hsse ⊢
  obtain ⟨hcounted, hrecorded⟩ : Counted req.requestId req.fates ((terminalAudit settings req).exec (RequestState.start settings)).2 ∧
      (req.isChat = true → (serverError ((terminalAudit settings req).exec (RequestState.start settings)).1).success →
        Recorded req.requestId req.fates ((terminalAudit settings req).exec (RequestState.start settings)).2) := by
    cases hr : ((terminalAudit settings req).exec (RequestState.start settings)).1 with
    | ok start =>
        rw [hr] at hpost hsse
        rcases hpost with hstream | hrest
        · exact absurd (hstream.symm.trans hsse) (by decide)
        · exact hrest
    | error e =>
        rw [hr] at hpost
        exact ⟨hpost, fun _ hsuccess => absurd hsuccess (not_success_error .internalError)⟩
  exact ⟨hcounted.length_le, hcounted.length_eq, fun hchat hsuccess => (hrecorded hchat hsuccess).length_eq,
    hcounted.of_request⟩

end Wrapper

section Sample

def samplePath : String := "/v1/chat/completions"

def sampleChat (fates : Nat → AppendFate) : HttpRequest Nat :=
  ⟨samplePath, .chat { sampleCall (sampleBody (.bool false)) with fates }⟩

def sampleOther (path : String) (marks : Bool) (fates : Nat → AppendFate) : HttpRequest Nat :=
  ⟨path, .other ⟨"req-0123456789abcdef0123456789abcdef", marks, .ok ⟨200, false⟩, fates⟩⟩

theorem terminal_record_once_sample :
    (gateway sampleSettings (sampleChat fun _ => .appended) .active).1 = ⟨200, false⟩ ∧
      (gateway sampleSettings (sampleChat fun _ => .appended) .active).2.records.length = 1 :=
  ⟨by decide +kernel, (terminal_record_once sampleSettings (sampleChat fun _ => .appended) (by decide) rfl
    (by decide +kernel)).2.1 fun _ _ => rfl⟩

/-- A passive region answers without a record, and so does an endpoint that says it has
its own; a 200 of another endpoint is out before its record; and an append whose
acknowledgement is lost is made again. -/
theorem records_missing_and_twice :
    ¬ TerminalRecords sampleSettings .passive (sampleChat fun _ => .appended) ∧
    ¬ TerminalRecords sampleSettings .active (sampleOther "/v1/batches/uploads" true fun _ => .appended) ∧
    ¬ TerminalRecords sampleSettings .active (sampleOther "/metrics" false fun _ => .failed) ∧
    ¬ TerminalRecords sampleSettings .active
      (sampleChat fun n => if n = 0 then .unacknowledged else .appended) := by
  refine ⟨fun h => ?_, fun h => ?_, fun h => ?_, fun h => ?_⟩
  · exact absurd ((h rfl).2.1 fun _ _ => rfl) (by decide +kernel)
  · exact absurd ((h rfl).2.1 fun _ _ => rfl) (by decide +kernel)
  · exact absurd rfl ((h rfl).2.2 ⟨by decide, by decide⟩)
  · exact absurd (h (by decide +kernel)).1 (by decide +kernel)

end Sample

end Anoryx.Sentinel.Gateway
