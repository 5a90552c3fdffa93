import Anoryx.Sentinel.ChatCompletion
import Anoryx.Sentinel.StreamSlots

/-!
# Anoryx.Sentinel.ChatSlots

What becomes of the slot that a request for a stream takes: `check_rate_limit` takes it by
a look at the raw body, and only the iteration of the stream's body gives it back.

`Admitted` says that a request gets past the rate limiter, `StreamsThrough` that it gets
from there to the iteration of its stream.  `serve_slots` counts the slots of one request
by these two, and `Gateway` puts requests together with the counters of
`Anoryx.Sentinel.StreamSlots`: a request there finishes only if its handler gives the
slot back.
-/

namespace Anoryx.Sentinel.Gateway

open PyJson Raising

section Request

variable {F : Type} {settings : GatewaySettings} {call : ChatCall F} {hooks : Bool}
  {body : CreateChatCompletionRequest F} {s s' : RequestState}

/-- The slots that a request has taken and given back -/
def RequestState.slots (s : RequestState) : Nat × Nat := (s.taken, s.released)

/-! ## what leaves the slots alone -/

theorem slots_blind : Blind RequestState.slots := ⟨fun _ _ => rfl, fun _ _ => rfl⟩

theorem keeps_emitTerminalRecord (requestId : String) (fates : Nat → AppendFate) (tokensIn tokensOut : Int) :
    Prog.Keeps RequestState.slots (emitTerminalRecord requestId fates tokensIn tokensOut) :=
  .bind .get fun _ => .bind (.modify fun _ => rfl) fun _ => .ofExcept _

theorem keeps_answer : Prog.Keeps RequestState.slots (answer call hooks body) :=
  .bind keeps_complete fun _ => .bind (keeps_emitTerminalRecord _ _ _ _) fun _ => .bind (.modify fun _ => rfl) fun _ =>
    .bind (.ofExcept _) fun _ => .bind .get fun _ => .pure _

theorem keeps_rejected (errorCode : ErrorCode) (retryAfter : Option Nat) :
    Prog.Keeps RequestState.slots (rejected call errorCode retryAfter) :=
  .bind (.catching (.bind (keeps_emitTerminalRecord _ _ _ _) fun _ => .pure _) fun _ => .pure _) fun _ =>
    .bind (.modify fun _ => rfl) fun _ => .bind (.ofExcept _) fun _ => .bind .get fun _ => .pure _

variable [LaxNumbers F]

theorem keeps_admitted : Prog.Keeps RequestState.slots (admitted settings call hooks) :=
  .bind (keeps_prepare slots_blind) fun body => by
    split
    · exact keeps_answerStream
    · exact keeps_answer

/-! ## the way to the stream -/

/-- What the request meets up to the rate limiter lets it pass, with or without hooks. -/
structure Admitted (call : ChatCall F) (hooks : Bool) : Prop where
  registry : call.registry = .ok hooks
  context : ∃ context, call.context = .ok context
  egress : bindEgressContext call = .ok ()
  admission : ∃ limits, call.admission = .ok limits

/-- The body asks for a stream within the cap, and nothing after the admission stops it. -/
structure Streams (settings : GatewaySettings) (call : ChatCall F) (hooks : Bool)
    (body : CreateChatCompletionRequest F) : Prop where
  valid : ∃ v, call.rawBody = .json v ∧ CreateChatCompletionRequest.validate v = some body
  stream : body.stream = true
  cap : withinCap settings body = true
  providers : call.providers = .ok ()
  preRequest : hooks = true → ∃ content, call.preRequest (originalUserContent body.messages) = .ok content
  preflight : hooks = true → call.preflight = .ok ()

theorem validated_eq_ok : validated call = .ok body ↔
    ∃ v, call.rawBody = .json v ∧ CreateChatCompletionRequest.validate v = some body := by
  unfold validated
  cases call.rawBody with
  | json v => cases hv : CreateChatCompletionRequest.validate v <;> simp [hv]
  | _ => simp

omit [LaxNumbers F] in
theorem guarded_eq_ok {α : Type} {x : Except Raised α} {a : α} : (guarded x).exec s = (.ok a, s') ↔ x = .ok a ∧ s' = s := by
  unfold guarded
  rw [Prog.exec_ofExcept]
  cases x <;> simp [Except.mapError, eq_comm]

variable {body' : CreateChatCompletionRequest F}

omit [LaxNumbers F] in
theorem runPreRequest_eq_ok (h : (runPreRequest call hooks body).exec s = (.ok body', s')) :
    body'.stream = body.stream ∧
      (hooks = true → ∃ content, call.preRequest (originalUserContent body.messages) = .ok content) := by
  cases hooks with
  | false =>
      obtain ⟨rfl, -⟩ : body = body' ∧ s = s' := by simpa [runPreRequest] using h
      exact ⟨rfl, by simp⟩
  | true =>
      simp only [runPreRequest, if_true, Prog.exec_bind_eq_ok, guarded_eq_ok] at h
      obtain ⟨content, _, ⟨hcontent, _⟩, h⟩ := h
      have h : (if content = originalUserContent body.messages then body
        else { body with messages := maskMessages content body.messages }) = body' := by simpa using congrArg Prod.fst h
      refine ⟨?_, fun _ => ⟨content, hcontent⟩⟩
      rw [← h]
      split <;> rfl

theorem prepare_eq_ok (h : (prepare settings call hooks).exec s = (.ok body, s')) :
    ∃ body₀, validated call = .ok body₀ ∧ body.stream = body₀.stream ∧ withinCap settings body₀ = true ∧
      call.providers = .ok () ∧
      (hooks = true → ∃ content, call.preRequest (originalUserContent body₀.messages) = .ok content) := by
  simp only [prepare, Prog.exec_bind_eq_ok, Prog.exec_ofExcept, Prod.mk.injEq] at h
  obtain ⟨body₀, _, ⟨hvalid, _⟩, _, _, _, _, _, ⟨hcap, _⟩, _, _, ⟨hproviders, _⟩, h⟩ := h
  obtain ⟨hstream, hcontent⟩ := runPreRequest_eq_ok h
  refine ⟨body₀, hvalid, hstream, ?_, hproviders, hcontent⟩
  by_contra hcap'
  rw [if_neg hcap'] at hcap
  contradiction

omit [LaxNumbers F] in
theorem withHooks_eq_ok {x : Except Raised Unit} :
    (withHooks hooks x).exec s = (.ok (), s') ↔ (hooks = true → x = .ok ()) ∧ s' = s := by
  cases hooks with
  | false => simp [withHooks, eq_comm]
  | true => simp [withHooks, guarded_eq_ok]

variable {limits : RateHeaders}

omit [LaxNumbers F] in
theorem answer_ne_eventStream : (answer call hooks body).exec s ≠ (.ok (.eventStream body' limits), s') := by
  intro h
  simp only [answer, Prog.exec_bind_eq_ok] at h
  obtain ⟨_, _, -, _, _, -, _, _, -, _, _, -, _, _, -, h⟩ := h
  simp at h

/-- A stream is opened just for a call that streams. -/
theorem admitted_eventStream_iff :
    (∃ body' limits s', (admitted settings call hooks).exec s = (.ok (.eventStream body' limits), s')) ↔
      ∃ body, Streams settings call hooks body := by
  constructor
  · rintro ⟨body', limits, s', h⟩
    rw [admitted, Prog.exec_bind_eq_ok] at h
    obtain ⟨body₁, s₁, hprepare, h⟩ := h
    obtain ⟨body, hvalid, hsame, hcap, hproviders, hcontent⟩ := prepare_eq_ok hprepare
    split at h
    · next hstream =>
        rw [answerStream, Prog.exec_bind_eq_ok] at h
        obtain ⟨_, _, hpreflight, -⟩ := h
        exact ⟨body, validated_eq_ok.mp hvalid, hsame ▸ hstream, hcap, hproviders, hcontent,
          (withHooks_eq_ok.mp hpreflight).1⟩
    · exact absurd h answer_ne_eventStream
  · rintro ⟨body, h⟩
    obtain ⟨body₁, hpre, hsame⟩ : ∃ body₁, (∀ s, (runPreRequest call hooks body).exec s = (.ok body₁, s)) ∧
        body₁.stream = body.stream := by
      cases hooks with
      | false => exact ⟨body, fun s => by simp [runPreRequest], rfl⟩
      | true =>
          obtain ⟨content, hcontent⟩ := h.preRequest rfl
          refine ⟨if content = originalUserContent body.messages then body
            else { body with messages := maskMessages content body.messages }, fun s => ?_, by split <;> rfl⟩
          rw [runPreRequest, if_pos rfl, Prog.exec_bind_of_ok (guarded_eq_ok.mpr ⟨hcontent, rfl⟩)]
          rfl
    have hprepare : (prepare settings call hooks).exec s = (.ok body₁, { s with model := body.model }) := by
      simp [prepare, validated_eq_ok.mpr h.valid, h.cap, h.providers, hpre]
    refine ⟨body₁, s.limits, { s with model := body.model }, ?_⟩
    rw [admitted, Prog.exec_bind_of_ok hprepare, hsame, h.stream, if_pos rfl, answerStream,
      Prog.exec_bind_of_ok (withHooks_eq_ok.mpr ⟨h.preflight, rfl⟩)]
    rfl

/-! ## one request -/

omit [LaxNumbers F] in
theorem enter_eq_ok (h : (enter call).exec s = (.ok hooks, s')) :
    call.registry = .ok hooks ∧ (∃ context, call.context = .ok context) ∧ bindEgressContext call = .ok () := by
  simp only [enter, Prog.exec_bind_eq_ok, Prog.exec_ofExcept, Prod.mk.injEq] at h
  obtain ⟨_, _, ⟨hregistry, _⟩, context, _, ⟨hcontext, _⟩, _, _, _, _, _, ⟨hegress, _⟩, h⟩ := h
  obtain rfl := Except.ok.inj (congrArg Prod.fst h)
  refine ⟨?_, ⟨context, hcontext⟩, hegress⟩
  cases hr : call.registry with
  | error e => simp [hr, Except.mapError] at hregistry
  | ok hooks => simpa [hr, Except.mapError] using hregistry

/-- An admitted call has taken a slot if it looked like a stream; any other has raised. -/
theorem exec_wayIn (call : ChatCall F) (s : RequestState) :
    (∃ hooks s', Admitted call hooks ∧ (wayIn call).exec s = (.ok hooks, s') ∧
      s'.slots = (s.taken + (peekStreamFlag call.rawBody).toNat, s.released)) ∨
    (¬ (∃ hooks, Admitted call hooks) ∧ ∃ e s', (wayIn call).exec s = (.error e, s') ∧ s'.slots = s.slots) := by
  have hkeeps : ((enter call).exec s).2.slots = s.slots := keeps_enter slots_blind s
  rcases henter : (enter call).exec s with ⟨r, s₁⟩
  rw [henter] at hkeeps
  cases r with
  | error e =>
      refine .inr ⟨fun ⟨hooks, h⟩ => ?_, e, s₁, Prog.exec_bind_of_error henter, hkeeps⟩
      obtain ⟨context, hcontext⟩ := h.context
      simp [enter, Prog.exec_bind, h.registry, hcontext, h.egress, Except.mapError, Except.map] at henter
  | ok hooks =>
      obtain ⟨hregistry, hcontext, hegress⟩ := enter_eq_ok henter
      cases hadmission : call.admission with
      | error e =>
          refine .inr ⟨fun ⟨hooks, h⟩ => ?_, e, s₁, ?_, hkeeps⟩
          · obtain ⟨limits, hlimits⟩ := h.admission
            rw [hlimits] at hadmission
            contradiction
          · rw [wayIn, Prog.exec_bind_of_ok henter, checkRateLimit, hadmission]
            rfl
      | ok limits =>
          refine .inl ⟨hooks, { s₁ with limits, taken := s₁.taken + (peekStreamFlag call.rawBody).toNat },
            ⟨hregistry, hcontext, hegress, limits, hadmission⟩, ?_, ?_⟩
          · rw [wayIn, Prog.exec_bind_of_ok henter, checkRateLimit, hadmission]
            rfl
          · have htaken : s₁.taken = s.taken := congrArg Prod.fst hkeeps
            have hreleased : s₁.released = s.released := congrArg Prod.snd hkeeps
            rw [RequestState.slots, htaken, hreleased]

omit [LaxNumbers F] in
theorem keeps_onError (e : Raised) : Prog.Keeps RequestState.slots (onError call e) := by
  cases e with
  | gateway errorCode retryAfter => exact keeps_rejected errorCode retryAfter
  | _ => exact .throw _

omit [LaxNumbers F] in
theorem onError_ne_eventStream {e : Raised} :
    (onError call e).exec s ≠ (.ok (.eventStream body limits), s') := by
  intro h
  cases e with
  | gateway errorCode retryAfter =>
      simp only [onError, rejected, Prog.exec_bind_eq_ok] at h
      obtain ⟨_, _, -, _, _, -, _, _, -, _, _, -, h⟩ := h
      simp at h
  | _ => simp [onError] at h

theorem createChatCompletion_eventStream_iff :
    (createChatCompletion settings call).exec s = (.ok (.eventStream body limits), s') ↔
      (attempt settings call).exec s = (.ok (.eventStream body limits), s') := by
  rw [createChatCompletion, Prog.exec_catching]
  rcases (attempt settings call).exec s with ⟨r, s₁⟩
  cases r with
  | ok response => exact Iff.rfl
  | error e => exact iff_of_false onError_ne_eventStream (by simp)

theorem createChatCompletion_slots :
    ((createChatCompletion settings call).exec s).2.slots = ((attempt settings call).exec s).2.slots := by
  rw [createChatCompletion, Prog.exec_catching]
  rcases (attempt settings call).exec s with ⟨r, s₁⟩
  cases r with
  | ok response => rfl
  | error e => exact keeps_onError e s₁

/-- The request gets past the rate limiter, and from there to the iteration of its stream. -/
def StreamsThrough (settings : GatewaySettings) (call : ChatCall F) : Prop :=
  ∃ hooks body, Admitted call hooks ∧ Streams settings call hooks body ∧ call.iteration.isSome = true

theorem attempt_cases (settings : GatewaySettings) (call : ChatCall F) (s : RequestState) :
    (∃ hooks, Admitted call hooks ∧
      ((attempt settings call).exec s).2.slots = (s.taken + (peekStreamFlag call.rawBody).toNat, s.released) ∧
      ((∃ body limits s', (attempt settings call).exec s = (.ok (.eventStream body limits), s')) ↔
        ∃ body, Streams settings call hooks body)) ∨
    (¬ (∃ hooks, Admitted call hooks) ∧ ((attempt settings call).exec s).2.slots = s.slots ∧
      ∃ e s', (attempt settings call).exec s = (.error e, s')) := by
  rcases exec_wayIn call s with ⟨hooks, s₁, hadmitted, hway, hslots⟩ | ⟨hnot, e, s₁, hway, hslots⟩
  · refine .inl ⟨hooks, hadmitted, ?_, ?_⟩
    · rw [attempt, Prog.exec_bind_of_ok hway]
      exact (keeps_admitted s₁).trans hslots
    · rw [attempt, Prog.exec_bind_of_ok hway]
      exact admitted_eventStream_iff
  · have hrun : (attempt settings call).exec s = (.error e, s₁) := Prog.exec_bind_of_error hway
    exact .inr ⟨hnot, by rw [hrun]; exact hslots, e, s₁, hrun⟩

omit [LaxNumbers F] in
theorem exec_generate_slots (iteration : Iteration) :
    ((generate call iteration).exec s).2.slots = (s.taken, s.released + 1) := by
  have hkeeps : Prog.Keeps RequestState.slots
      (Prog.catching (emitTerminalRecord call.requestId call.fates iteration.tokensIn iteration.tokensOut) fun _ => pure ()) :=
    .catching (keeps_emitTerminalRecord _ _ _ _) fun _ => .pure ()
  obtain ⟨s₁, hrun⟩ : ∃ s₁, (Prog.catching (emitTerminalRecord call.requestId call.fates iteration.tokensIn iteration.tokensOut)
      fun _ => pure ()).exec s = (.ok (), s₁) := by
    rw [Prog.exec_catching]
    rcases (emitTerminalRecord call.requestId call.fates iteration.tokensIn iteration.tokensOut).exec s with ⟨r, s₁⟩
    exact ⟨s₁, by cases r <;> rfl⟩
  have hslots := hkeeps s
  rw [hrun] at hslots
  rw [generate, Prog.exec_bind_of_ok hrun, Prog.exec_modify_bind, Prog.exec_ofExcept]
  have htaken : s₁.taken = s.taken := congrArg Prod.fst hslots
  have hreleased : s₁.released = s.released := congrArg Prod.snd hslots
  simp [RequestState.slots, htaken, hreleased]

theorem serve_cases (settings : GatewaySettings) (call : ChatCall F) (s : RequestState) :
    ((∃ body limits s', (createChatCompletion settings call).exec s = (.ok (.eventStream body limits), s')) ∧
      call.iteration.isSome = true ∧
      ((serve settings call).exec s).2.slots = (((createChatCompletion settings call).exec s).2.taken,
        ((createChatCompletion settings call).exec s).2.released + 1)) ∨
    (¬ ((∃ body limits s', (createChatCompletion settings call).exec s = (.ok (.eventStream body limits), s')) ∧
        call.iteration.isSome = true) ∧
      ((serve settings call).exec s).2.slots = ((createChatCompletion settings call).exec s).2.slots) := by
  rw [serve, Prog.exec_bind]
  rcases hrun : (createChatCompletion settings call).exec s with ⟨r, s₁⟩
  cases r with
  | error e => exact .inr ⟨by simp, rfl⟩
  | ok response =>
      cases response with
      | eventStream body limits =>
          cases hiteration : call.iteration with
          | none => exact .inr ⟨by simp, by simp [sendBody, hiteration]⟩
          | some iteration =>
              refine .inl ⟨⟨body, limits, s₁, rfl⟩, rfl, ?_⟩
              simpa [sendBody, hiteration] using exec_generate_slots iteration
      | completion text limits => exact .inr ⟨by simp, rfl⟩
      | error errorCode retryAfter limits => exact .inr ⟨by simp, rfl⟩

omit [LaxNumbers F] in
theorem Admitted.unique {hooks' : Bool} (h : Admitted call hooks) (h' : Admitted call hooks') : hooks' = hooks :=
  Except.ok.inj (h'.registry.symm.trans h.registry)

/-- An admitted call gives a slot back just when it streams through. -/
theorem serve_of_admitted (h : Admitted call hooks) :
    ((serve settings call).exec s).2.taken = s.taken + (peekStreamFlag call.rawBody).toNat ∧
    (StreamsThrough settings call → ((serve settings call).exec s).2.released = s.released + 1) ∧
    (¬ StreamsThrough settings call → ((serve settings call).exec s).2.released = s.released) := by
  rcases attempt_cases settings call s with ⟨hooks', h', hslots, hstream⟩ | ⟨hnot, -⟩
  · obtain rfl := h.unique h'
    simp only [← createChatCompletion_eventStream_iff] at hstream
    have hthrough : StreamsThrough settings call ↔
        (∃ body limits s', (createChatCompletion settings call).exec s = (.ok (.eventStream body limits), s')) ∧
          call.iteration.isSome = true := by
      rw [hstream]
      constructor
      · rintro ⟨hooks', body, hadmitted, hbody, hiterated⟩
        obtain rfl := h.unique hadmitted
        exact ⟨⟨body, hbody⟩, hiterated⟩
      · rintro ⟨⟨body, hbody⟩, hiterated⟩
        exact ⟨_, body, h, hbody, hiterated⟩
    rw [← createChatCompletion_slots] at hslots
    have htaken := congrArg Prod.fst hslots
    have hreleased := congrArg Prod.snd hslots
    rw [hthrough]
    rcases serve_cases settings call s with ⟨hresponse, hiterated, hserve⟩ | ⟨hnot, hserve⟩
    · have hserved := congrArg Prod.snd hserve
      refine ⟨(congrArg Prod.fst hserve).trans htaken, fun _ => hserved.trans ?_, fun hn => absurd ⟨hresponse, hiterated⟩ hn⟩
      exact congrArg (· + 1) hreleased
    · rw [hslots] at hserve
      exact ⟨congrArg Prod.fst hserve, fun hyes => absurd hyes hnot, fun _ => congrArg Prod.snd hserve⟩
  · exact absurd ⟨hooks, h⟩ hnot

theorem StreamsThrough.peeked (h : StreamsThrough settings call) : peekStreamFlag call.rawBody = true := by
  obtain ⟨hooks, body, -, hstreams, -⟩ := h
  obtain ⟨v, hraw, hvalidate⟩ := hstreams.valid
  rw [hraw]
  exact peekStreamFlag_of_validate hvalidate hstreams.stream

/-- A request that is admitted as a stream gives its slot back, once, and one that is not
gives none back. -/
def ReleasesSlot (settings : GatewaySettings) (call : ChatCall F) (s : RequestState) : Prop :=
  (∃ hooks, Admitted call hooks) →
    ((serve settings call).exec s).2.released = s.released + (peekStreamFlag call.rawBody).toNat

/-- What is admitted as a stream gets through to the iteration of one. -/
def Orderly (settings : GatewaySettings) (call : ChatCall F) : Prop :=
  ∀ hooks, Admitted call hooks → peekStreamFlag call.rawBody = true →
    (∃ body, Streams settings call hooks body) ∧ call.iteration.isSome = true

theorem Orderly.streamsThrough (h : Orderly settings call) (hadmitted : Admitted call hooks)
    (hpeek : peekStreamFlag call.rawBody = true) : StreamsThrough settings call := by
  obtain ⟨⟨body, hbody⟩, hiterated⟩ := h hooks hadmitted hpeek
  exact ⟨hooks, body, hadmitted, hbody, hiterated⟩

theorem releasesSlot_iff : ReleasesSlot settings call s ↔ Orderly settings call := by
  constructor
  · intro h hooks hadmitted hpeek
    have hreleased := h ⟨hooks, hadmitted⟩
    rw [hpeek] at hreleased
    have hthrough : StreamsThrough settings call := by
      by_contra hnot
      rw [(serve_of_admitted hadmitted).2.2 hnot] at hreleased
      simp at hreleased
    obtain ⟨hooks', body, hadmitted', hbody, hiterated⟩ := hthrough
    obtain rfl := hadmitted.unique hadmitted'
    exact ⟨⟨body, hbody⟩, hiterated⟩
  · rintro h ⟨hooks, hadmitted⟩
    cases hpeek : peekStreamFlag call.rawBody with
    | true => exact (serve_of_admitted hadmitted).2.1 (h.streamsThrough hadmitted hpeek)
    | false =>
        refine (serve_of_admitted hadmitted).2.2 fun hthrough => ?_
        rw [hthrough.peeked] at hpeek
        contradiction

/-! ## requests together -/

/-- The handler gives a slot back. -/
def givesBack (settings : GatewaySettings) (call : ChatCall F) : Bool :=
  ((serve settings call).exec (RequestState.start settings)).2.released = 1

theorem givesBack_of_streamsThrough (h : StreamsThrough settings call) : givesBack settings call = true := by
  obtain ⟨hooks, body, hadmitted, hrest⟩ := h
  exact decide_eq_true ((serve_of_admitted hadmitted).2.1 ⟨hooks, body, hadmitted, hrest⟩)

end Request

end Anoryx.Sentinel.Gateway

namespace Anoryx.Sentinel.StreamSlots

/-- Only a stream comes to these phases. -/
def Phase.ofStream : Phase → Bool
  | .incr | .undo | .held _ | .decr | .delete | .giveBack => true
  | _ => false

theorem ActiveRequest.step_ofStream {lim : RateLimits} {r r' : ActiveRequest} {w w' : Worker} {redis redis' : Redis}
    {action : Action} (h : r.step lim w redis action = some (r', w', redis'))
    (hstream : r.phase.ofStream = true → r.request.isStream = true) :
    r'.request = r.request ∧ (r'.phase.ofStream = true → r'.request.isStream = true) := by
  obtain ⟨request, worker, phase⟩ := r
  unfold ActiveRequest.step at h
  dsimp only at h hstream
  -- the phase is the one that the action goes with
  cases action <;> cases phase <;> simp only [reduceCtorEq] at h <;> grind [Phase.ofStream]

end Anoryx.Sentinel.StreamSlots

namespace Anoryx.Sentinel.Gateway

open PyJson Raising

section Frontend

variable {F : Type} [LaxNumbers F] {settings : GatewaySettings} {lim : RateLimits}

/-- The counters, and the calls that the requests come from -/
structure Frontend (F : Type) where
  slots : StreamSlots.System
  calls : List (ChatCall F)

inductive GatewayEvent (F : Type)
  /-- the call of a request comes to the rate limiter of a worker -/
  | arrive (worker : Nat) (call : ChatCall F) (context : TenantContext)
  | slots (e : StreamSlots.Event)

/-- What the handler tells the rate limiter -/
def ChatCall.admissionRequest (call : ChatCall F) (context : TenantContext) : AdmissionRequest :=
  ⟨context.virtualKeyId, context.tenantId, some context.teamId, peekStreamFlag call.rawBody⟩

def GatewayEvent.project : GatewayEvent F → StreamSlots.Event
  | .arrive worker call context => .arrive worker (call.admissionRequest context)
  | .slots e => e

/-- The call has come to the rate limiter, in its context. -/
def entered (call : ChatCall F) (context : TenantContext) : Bool :=
  match call.registry, call.context, bindEgressContext call with
  | .ok _, .ok resolved, .ok _ => resolved = context
  | _, _, _ => false

/-- A request comes with its call, and finishes if its handler gives the slot back. -/
def Frontend.permits (settings : GatewaySettings) (g : Frontend F) : GatewayEvent F → Bool
  | .arrive _ call context => entered call context
  | .slots (.arrive _ _) => false
  | .slots (.go i .finish) => (g.calls[i]?).any (givesBack settings)
  | .slots _ => true

def isHeld : StreamSlots.Phase → Bool
  | .held _ => true
  | _ => false

/-- A request holds a slot only if the call goes on as one that is admitted. -/
def coherent (s : StreamSlots.System) (calls : List (ChatCall F)) : Bool :=
  (s.requests.zip calls).all fun p => !isHeld p.1.phase || p.2.admission.isOk

def GatewayEvent.call : GatewayEvent F → Option (ChatCall F)
  | .arrive _ call _ => some call
  | .slots _ => none

def Frontend.step (settings : GatewaySettings) (lim : RateLimits) (g : Frontend F) (e : GatewayEvent F) :
    Option (Frontend F) :=
  if g.permits settings e then do
    let slots ← g.slots.step lim e.project
    if coherent slots (g.calls ++ e.call.toList) then some ⟨slots, g.calls ++ e.call.toList⟩ else none
  else none

def Frontend.run (settings : GatewaySettings) (lim : RateLimits) : Frontend F → List (GatewayEvent F) → Option (Frontend F)
  | g, [] => some g
  | g, e :: events => do
      let g ← g.step settings lim e
      g.run settings lim events

structure Paired (r : StreamSlots.ActiveRequest) (call : ChatCall F) : Prop where
  entered : ∃ context, entered call context = true ∧ r.request = call.admissionRequest context
  stream : r.phase.ofStream = true → r.request.isStream = true
  admitted : isHeld r.phase = true → call.admission.isOk = true

/-- Every request has its call. -/
structure Frontend.Inv (g : Frontend F) : Prop where
  length : g.slots.requests.length = g.calls.length
  paired : ∀ (i : Nat) r call, g.slots.requests[i]? = some r → g.calls[i]? = some call → Paired r call

/-- All requests of the tenant are through: rejected, or left by their handlers. -/
def Frontend.Completed (settings : GatewaySettings) (g : Frontend F) (tenantId : String) : Prop :=
  ∀ p ∈ g.slots.requests.zip g.calls, p.1.request.tenantId = tenantId →
    p.1.phase = .done ∨ (isHeld p.1.phase = true ∧ givesBack settings p.2 = false)

variable {g g' : Frontend F}

variable {e : GatewayEvent F} {call : ChatCall F}

theorem Frontend.step_eq_some (h : g.step settings lim e = some g') :
    g.permits settings e = true ∧ g.slots.step lim e.project = some g'.slots ∧
      coherent g'.slots g'.calls = true ∧ g'.calls = g.calls ++ e.call.toList := by
  unfold Frontend.step at h
  split at h
  · next hpermits =>
      obtain ⟨slots, hstep, h⟩ := Option.bind_eq_some_iff.mp h
      split at h
      · next hcoherent =>
          obtain rfl := Option.some.inj h
          exact ⟨hpermits, hstep, hcoherent, rfl⟩
      · contradiction
  · contradiction

variable {events : List (GatewayEvent F)}

theorem Frontend.run_slots (h : g.run settings lim events = some g') :
    g.slots.run lim (events.map GatewayEvent.project) = some g'.slots := by
  induction events generalizing g with
  | nil =>
      obtain rfl := Option.some.inj h
      rfl
  | cons e events ih =>
      obtain ⟨g₁, hstep, hrun⟩ := Option.bind_eq_some_iff.mp h
      rw [List.map_cons, StreamSlots.System.run, (Frontend.step_eq_some hstep).2.1]
      exact ih hrun

theorem Frontend.run_calls (h : g.run settings lim events = some g') :
    g'.calls = g.calls ++ events.filterMap GatewayEvent.call := by
  induction events generalizing g with
  | nil =>
      obtain rfl := Option.some.inj h
      simp
  | cons e events ih =>
      obtain ⟨g₁, hstep, hrun⟩ := Option.bind_eq_some_iff.mp h
      rw [ih hrun, (Frontend.step_eq_some hstep).2.2.2, List.append_assoc]
      cases e <;> rfl

omit [LaxNumbers F] in
theorem isOk_of_coherent {s : StreamSlots.System} {calls : List (ChatCall F)} (h : coherent s calls = true) {i : Nat}
    {r : StreamSlots.ActiveRequest} (hr : s.requests[i]? = some r) (hcall : calls[i]? = some call)
    (hheld : isHeld r.phase = true) : call.admission.isOk = true := by
  have hmem : (r, call) ∈ s.requests.zip calls :=
    List.mem_of_getElem? (List.getElem?_zip_eq_some.mpr ⟨hr, hcall⟩)
  simpa [hheld] using List.all_eq_true.mp h (r, call) hmem

theorem Frontend.Inv.step (hinv : g.Inv) (h : g.step settings lim e = some g') : g'.Inv := by
  obtain ⟨hpermits, hstep, hcoherent, hcalls⟩ := Frontend.step_eq_some h
  have hadmitted := fun i r call (hr : g'.slots.requests[i]? = some r) (hcall : g'.calls[i]? = some call) =>
    isOk_of_coherent hcoherent hr hcall
  cases e with
  | arrive worker call context =>
      have hslots := Option.some.inj hstep
      have hrequests : g'.slots.requests = g.slots.requests ++ [⟨call.admissionRequest context, worker, .arrived⟩] := by
        rw [← hslots]
      refine ⟨by rw [hrequests, hcalls, GatewayEvent.call, Option.toList_some, List.length_append, List.length_append, hinv.length]; rfl,
        fun i r call' hr hcall => ?_⟩
      have hok := hadmitted i r call' hr hcall
      rw [hrequests, List.getElem?_append] at hr
      rw [hcalls, GatewayEvent.call, Option.toList_some, List.getElem?_append, ← hinv.length] at hcall
      split at hr
      · next hlt =>
          rw [if_pos hlt] at hcall
          exact hinv.paired i r call' hr hcall
      · next hge =>
          rw [if_neg hge] at hcall
          obtain rfl := List.mem_singleton.mp (List.mem_of_getElem? hr)
          obtain rfl := List.mem_singleton.mp (List.mem_of_getElem? hcall)
          exact ⟨⟨context, hpermits, rfl⟩, by simp [StreamSlots.Phase.ofStream], hok⟩
  | slots e =>
      have hsame : g'.calls = g.calls := hcalls.trans (List.append_nil _)
      cases e with
      | arrive worker request => simp [Frontend.permits] at hpermits
      | health worker degraded =>
          have hslots := Option.some.inj hstep
          have hrequests : g'.slots.requests = g.slots.requests := by rw [← hslots]
          exact ⟨by rw [hrequests, hsame, hinv.length], by rw [hrequests, hsame]; exact hinv.paired⟩
      | pool worker pool =>
          have hslots := Option.some.inj hstep
          have hrequests : g'.slots.requests = g.slots.requests := by rw [← hslots]
          exact ⟨by rw [hrequests, hsame, hinv.length], by rw [hrequests, hsame]; exact hinv.paired⟩
      | go i action =>
          simp only [GatewayEvent.project, StreamSlots.System.step, Option.bind_eq_bind, Option.bind_eq_some_iff,
            Option.pure_def, Option.some.injEq] at hstep
          obtain ⟨r, hi, ⟨r', w', redis'⟩, hgo, hslots⟩ := hstep
          have hrequests : g'.slots.requests = g.slots.requests.set i r' := by rw [← hslots]
          refine ⟨by rw [hrequests, hsame, List.length_set, hinv.length], fun j r₁ call hr hcall => ?_⟩
          have hok := hadmitted j r₁ call hr hcall
          rw [hsame] at hcall
          rw [hrequests, List.getElem?_set] at hr
          split at hr
          · next hij =>
              subst hij
              have hpair := hinv.paired i r call hi hcall
              obtain ⟨hrequest, hstream⟩ := StreamSlots.ActiveRequest.step_ofStream hgo hpair.stream
              rw [if_pos (List.getElem?_eq_some_iff.mp hi).1] at hr
              obtain rfl := Option.some.inj hr
              exact ⟨hrequest ▸ hpair.entered, hstream, hok⟩
          · exact hinv.paired j r₁ call hr hcall

theorem Frontend.Inv.run (hinv : g.Inv)
    (h : g.run settings lim events = some g') : g'.Inv := by
  induction events generalizing g with
  | nil =>
      obtain rfl := Option.some.inj h
      exact hinv
  | cons e events ih =>
      obtain ⟨g₁, hstep, hrun⟩ := Option.bind_eq_some_iff.mp h
      exact ih (hinv.step hstep) hrun

/-- No request has come yet. -/
structure Frontend.Initial (g : Frontend F) : Prop where
  slots : g.slots.Initial
  calls : g.calls = []

theorem Frontend.Initial.inv {g : Frontend F} (h : g.Initial) : g.Inv where
  length := by rw [h.slots.requests, h.calls]; rfl
  paired i r call hr _ := by simp [h.slots.requests] at hr

omit [LaxNumbers F] in
theorem admitted_of_entered {context : TenantContext} (h : entered call context = true)
    (hok : call.admission.isOk = true) : call.context = .ok context ∧ ∃ hooks, Admitted call hooks := by
  unfold entered at h
  split at h
  · next hooks resolved u hregistry hcontext hegress =>
      refine ⟨of_decide_eq_true h ▸ hcontext, hooks, hregistry, ⟨resolved, hcontext⟩, hegress, ?_⟩
      cases hadmission : call.admission with
      | ok limits => exact ⟨limits, rfl⟩
      | error e => simp [hadmission, Except.isOk, Except.toBool] at hok
  · contradiction

/-- When all calls of a tenant are done and orderly, its slots are settled. -/
theorem Frontend.Inv.settled {g : Frontend F} {tenantId : String} (hinv : g.Inv) (h : g.Completed settings tenantId)
    (horderly : ∀ call ∈ g.calls, ∀ context, call.context = .ok context → context.tenantId = tenantId →
      Orderly settings call) : g.slots.Settled tenantId := by
  intro r hr htenant
  obtain ⟨i, hi⟩ := List.mem_iff_getElem?.mp hr
  have hlt : i < g.calls.length := hinv.length ▸ (List.getElem?_eq_some_iff.mp hi).1
  have hcall : g.calls[i]? = some g.calls[i] := List.getElem?_eq_getElem hlt
  have hmem : (r, g.calls[i]) ∈ g.slots.requests.zip g.calls :=
    List.mem_of_getElem? (List.getElem?_zip_eq_some.mpr ⟨hi, hcall⟩)
  rcases h _ hmem htenant with hdone | ⟨hheld, hleft⟩
  · have hdone : r.phase = .done := hdone
    rw [hdone]
    exact ⟨rfl, rfl⟩
  · -- a slot that is held is one that the handler gives back
    have hpair := hinv.paired i r _ hi hcall
    obtain ⟨context, hentered, hrequest⟩ := hpair.entered
    obtain ⟨hcontext, hooks, hadmitted⟩ := admitted_of_entered hentered (hpair.admitted hheld)
    have hpeek : peekStreamFlag (g.calls[i]).rawBody = true := by
      have hstream : r.phase.ofStream = true := by
        have hheld : isHeld r.phase = true := hheld
        cases hphase : r.phase with
        | held backend => rfl
        | _ => simp [hphase, isHeld] at hheld
      have hrequested := hpair.stream hstream
      rw [hrequest] at hrequested
      exact hrequested
    have htenant : context.tenantId = tenantId := by rw [← htenant, hrequest]; rfl
    have horderly := horderly _ (List.getElem_mem hlt) context hcontext htenant
    have hthrough := horderly.streamsThrough hadmitted hpeek
    rw [givesBack_of_streamsThrough hthrough] at hleft
    contradiction

/-- **The slot of a stream comes back** exactly if the request that was admitted as a
stream gets through to the iteration of one; in a run whose requests all do, with steps
that keep the counters in order, the counters of a tenant are at zero once its requests
are through. -/
theorem stream_slots_released (settings : GatewaySettings) (lim : RateLimits) :
    (∀ (call : ChatCall F) (s : RequestState), ReleasesSlot settings call s ↔ Orderly settings call) ∧
    ∀ (g g' : Frontend F) (events : List (GatewayEvent F)) (tenantId : String), g.Initial →
      g.slots.CleanRun lim (events.map GatewayEvent.project) → g.run settings lim events = some g' →
      g'.Completed settings tenantId →
      (∀ call ∈ events.filterMap GatewayEvent.call, ∀ context, call.context = .ok context →
        context.tenantId = tenantId → Orderly settings call) →
      g'.slots.redis.counters (streamPrefix ++ tenantId) = 0 ∧
        ∀ worker, (g'.slots.workers worker).limiter.streamCounters tenantId = none := by
  refine ⟨fun call s => releasesSlot_iff, fun g g' events tenantId hinitial hclean hrun hcompleted horderly => ?_⟩
  have hacc := (hinitial.slots.accounted lim).run hclean (Frontend.run_slots hrun)
  have hcalls : g'.calls = events.filterMap GatewayEvent.call := by
    rw [Frontend.run_calls hrun, hinitial.calls, List.nil_append]
  exact hacc.settled ((hinitial.inv.run hrun).settled hcompleted (hcalls ▸ horderly))

end Frontend

section Sample

/-- A stream is admitted by Redis and its body is iterated. -/
def streamedEvents : List (GatewayEvent Nat) :=
  [.arrive 0 (sampleCall (sampleBody (.bool true))) sampleContext, .slots (.go 0 .check),
    .slots (.go 0 (.windows (some true))), .slots (.go 0 (.incr .answered)), .slots (.go 0 .finish),
    .slots (.go 0 (.decr .answered)), .slots (.go 0 (.delete .answered))]

/-- `"stream": "false"` is a true value in Python, and `False` to pydantic. -/
def unstreamedEvents : List (GatewayEvent Nat) :=
  [.arrive 0 (sampleCall (sampleBody (sampleText "false"))) sampleContext, .slots (.go 0 .check),
    .slots (.go 0 (.windows (some true))), .slots (.go 0 (.incr .answered))]

def idleFrontend : Frontend Nat := ⟨StreamSlots.idleSystem, []⟩

instance (g : Frontend Nat) (tenantId : String) : Decidable (g.Completed sampleSettings tenantId) :=
  inferInstanceAs (Decidable (∀ p ∈ g.slots.requests.zip g.calls, p.1.request.tenantId = tenantId → _))

theorem exists_frontend {run : Option (Frontend Nat)} {P : Frontend Nat → Prop} (hsome : run.isSome = true)
    (h : ∀ g ∈ run, P g) : ∃ g, run = some g ∧ P g :=
  ⟨run.get hsome, (Option.some_get hsome).symm, h _ (Option.get_mem hsome)⟩

theorem sampleStream_orderly : Orderly sampleSettings (sampleCall (sampleBody (.bool true))) := by
  intro hooks hadmitted _
  obtain rfl : false = hooks := Except.ok.inj hadmitted.registry
  have hbody : (CreateChatCompletionRequest.validate (sampleBody (.bool true))).any
      (fun body => body.stream && withinCap sampleSettings body) = true := by decide +kernel
  obtain ⟨body, hvalid, hbody⟩ := (Option.any_eq_true _ _).mp hbody
  rw [Bool.and_eq_true] at hbody
  exact ⟨⟨body, ⟨_, rfl, hvalid⟩, hbody.1, hbody.2, rfl, fun h => absurd h Bool.false_ne_true,
    fun h => absurd h Bool.false_ne_true⟩, rfl⟩

theorem idleFrontend_initial : idleFrontend.Initial := ⟨StreamSlots.idleSystem_initial, rfl⟩

theorem stream_slots_released_sample : ∃ g', idleFrontend.run sampleSettings StreamSlots.sampleCap streamedEvents = some g' ∧
    g'.slots.redis.counters (streamPrefix ++ sampleContext.tenantId) = 0 := by
  obtain ⟨g', hrun, hcompleted⟩ := exists_frontend
    (P := fun g' => g'.Completed sampleSettings sampleContext.tenantId)
    (show (idleFrontend.run sampleSettings StreamSlots.sampleCap streamedEvents).isSome = true by decide +kernel)
    (by decide +kernel)
  refine ⟨g', hrun, ((stream_slots_released sampleSettings StreamSlots.sampleCap).2 idleFrontend g' streamedEvents
    sampleContext.tenantId idleFrontend_initial (by decide +kernel) hrun hcompleted fun call hcall _ _ _ => ?_).1⟩
  obtain rfl := List.mem_singleton.mp hcall
  exact sampleStream_orderly

/-- What is no stream to pydantic is one to the rate limiter, and so is a body that
is not valid: the answer is complete, and the slot stays taken. -/
theorem stream_slot_leaks :
    ¬ ReleasesSlot sampleSettings (sampleCall (sampleBody (sampleText "false"))) (RequestState.start sampleSettings) ∧
    ¬ ReleasesSlot sampleSettings (sampleCall (.obj [(PyStr.ofString "stream", .bool true)]))
      (RequestState.start sampleSettings) ∧
    ∃ g', idleFrontend.run sampleSettings StreamSlots.sampleCap unstreamedEvents = some g' ∧
      g'.Completed sampleSettings sampleContext.tenantId ∧
      g'.slots.redis.counters (streamPrefix ++ sampleContext.tenantId) = 1 := by
  refine ⟨fun h => ?_, fun h => ?_, exists_frontend (by decide +kernel) (by decide +kernel)⟩
  · exact absurd (h ⟨false, rfl, ⟨_, rfl⟩, rfl, _, rfl⟩) (by decide +kernel)
  · exact absurd (h ⟨false, rfl, ⟨_, rfl⟩, rfl, _, rfl⟩) (by decide +kernel)

end Sample

end Anoryx.Sentinel.Gateway
