import Anoryx.PyJson.Loads

/-!
# Anoryx.Sentinel.RouterFallback

The fallback loops of the gateway's router (`gateway/router/selection.py`):
`route_non_stream` and `route_stream`, from the resolved routing policy on, with the calls
they make and the routing decisions they emit.

A call of an adapter ends in one of three ways: it succeeds, it raises a `ProviderError`, or
it raises something else.  The last is against the adapters' contract and happens all the
same (`anthropicComplete`); neither loop catches it.

One loop is the other with frames in the place of exceptions (`routeStream_eq`).

The time left and the cost estimates are given, attempt by attempt and provider by provider.
The providers of a chain have adapters, for the registry does not change in between.  The
model policies and budgets before the loop are decided elsewhere.
-/

namespace Anoryx.Sentinel.Router

open PyJson

/-! ## outcomes -/

inductive ProviderErrorKind
  | transient
  | rateLimited
  | auth
  | contentPolicy
  | badRequest
  | parse
deriving DecidableEq

def ProviderErrorKind.isRetryable : ProviderErrorKind → Bool
  | .transient | .rateLimited => true
  | _ => false

/-- How a call of an adapter ends: `adapter.complete()`, or its stream up to the first line.
A stream that ends without a line counts as a success. -/
inductive Outcome
  | succeeded
  | failed (kind : ProviderErrorKind)
  | raised
deriving DecidableEq

/-- A `ProviderError` that permits another call. -/
def Outcome.isRetryable : Outcome → Bool
  | .failed kind => kind.isRetryable
  | _ => false

/-! ## decisions -/

inductive RoutingReason
  | tenantAllowlist
  | costRouting
  | fallbackTransient
  | fallbackRateLimit
  | providerAuth
  | providerContentPolicy
  | providerBadRequest
  | providerParse
deriving DecidableEq

inductive RoutingOutcome
  | selected
  | fallbackAttempted
  | exhausted
  | allowlistDenied
  | costBlocked
deriving DecidableEq

inductive ActionTaken
  | routed
  | failedOver
  | blocked
deriving DecidableEq

/-- `emit_routing_decision`; a decision that cannot be appended is only logged. -/
structure RoutingDecision where
  selectedProvider : String
  routingReason : RoutingReason
  outcome : RoutingOutcome
  actionTaken : ActionTaken
  attemptIndex : Nat
deriving DecidableEq

def reasonForKind : ProviderErrorKind → RoutingReason
  | .transient => .fallbackTransient
  | .rateLimited => .fallbackRateLimit
  | .auth => .providerAuth
  | .contentPolicy => .providerContentPolicy
  | .badRequest => .providerBadRequest
  | .parse => .providerParse

/-! ## a request -/

/-- What a request brings to the loop. -/
structure Request where
  allowedProviders : List String
  fallbackOrder : List String
  isDefault : Bool
  /-- `registry.available_providers()` -/
  available : List String
  routerMaxFallbacks : Nat
  /-- no time is left before an attempt -/
  expired : Nat → Bool
  /-- the estimate for a provider exceeds the tenant's ceiling -/
  overCeiling : String → Bool

/-- `_effective_chain` -/
def Request.chain (q : Request) : List String :=
  (q.fallbackOrder.filter fun p => p ∈ q.allowedProviders ∧ p ∈ q.available).take (1 + q.routerMaxFallbacks)

/-- What a request leads to: the providers called, the decisions, and the answer. -/
structure Routed (A : Type) where
  calls : List String
  decisions : List RoutingDecision
  answer : A

/-- One call, and what comes after it. -/
def Routed.after {A : Type} (provider : String) (decision : RoutingDecision) (rest : Routed A) : Routed A where
  calls := provider :: rest.calls
  decisions := decision :: rest.decisions
  answer := rest.answer

/-- `_check_allowlist_and_cost`: the decision it emits when it raises. -/
def checkAllowlistAndCost (q : Request) (provider : String) (i : Nat) : Option RoutingDecision :=
  if provider ∉ q.allowedProviders then some ⟨provider, .tenantAllowlist, .allowlistDenied, .blocked, i⟩
  else if q.overCeiling provider then some ⟨provider, .costRouting, .costBlocked, .blocked, i⟩
  else none

def selectionReason (q : Request) : RoutingReason := if q.isDefault then .tenantAllowlist else .costRouting

/-- The decision after the loop: no provider has answered. -/
def exhaustedDecision (q : Request) (lastKind : Option ProviderErrorKind) : RoutingDecision where
  selectedProvider := q.chain.getLast?.getD ""
  routingReason := reasonForKind (lastKind.getD .transient)
  outcome := .exhausted
  actionTaken := .blocked
  attemptIndex := q.chain.length - 1

/-- The decision on an empty chain. -/
def noProviderDecision : RoutingDecision := ⟨"openai", .tenantAllowlist, .allowlistDenied, .blocked, 0⟩

/-! ## without a stream -/

/-- The answer of `route_non_stream`. -/
inductive Answer
  | completion
  | policyBlocked
  | internalError
  | raised
deriving DecidableEq

/-- The loop of `route_non_stream`, at attempt `i` of the chain. -/
def nonStreamLoop (q : Request) (outcomes : Nat → Outcome) :
    List String → Nat → Option ProviderErrorKind → Routed Answer
  | [], _, lastKind => ⟨[], [exhaustedDecision q lastKind], .internalError⟩
  | provider :: rest, i, _ =>
      if q.expired i then ⟨[], [exhaustedDecision q (some .transient)], .internalError⟩
      else
        match checkAllowlistAndCost q provider i with
        | some denied => ⟨[], [denied], .policyBlocked⟩
        | none =>
            match outcomes i with
            | .raised => ⟨[provider], [], .raised⟩
            | .succeeded => ⟨[provider], [⟨provider, selectionReason q, .selected, .routed, i⟩], .completion⟩
            | .failed kind =>
                if kind.isRetryable ∧ i + 1 < q.chain.length then
                  (nonStreamLoop q outcomes rest (i + 1) (some kind)).after provider
                    ⟨provider, reasonForKind kind, .fallbackAttempted, .failedOver, i⟩
                else ⟨[provider], [⟨provider, reasonForKind kind, .exhausted, .blocked, i⟩], .internalError⟩

def routeNonStream (q : Request) (outcomes : Nat → Outcome) : Routed Answer :=
  if q.chain = [] then ⟨[], [noProviderDecision], .policyBlocked⟩
  else nonStreamLoop q outcomes q.chain 0 none

/-! ## with a stream -/

/-- What `route_stream` yields: lines, or one error frame. -/
inductive StreamAnswer
  | lines
  | policyBlockedFrame
  | internalErrorFrame
  | raised
deriving DecidableEq

/-- The loop of `route_stream`; after the first line, or the end of the stream, the provider
is committed. -/
def streamLoop (q : Request) (outcomes : Nat → Outcome) :
    List String → Nat → Option ProviderErrorKind → Routed StreamAnswer
  | [], _, lastKind => ⟨[], [exhaustedDecision q lastKind], .internalErrorFrame⟩
  | provider :: rest, i, _ =>
      if q.expired i then ⟨[], [exhaustedDecision q (some .transient)], .internalErrorFrame⟩
      else
        match checkAllowlistAndCost q provider i with
        | some denied => ⟨[], [denied], .policyBlockedFrame⟩
        | none =>
            match outcomes i with
            | .raised => ⟨[provider], [], .raised⟩
            | .failed kind =>
                if kind.isRetryable ∧ i + 1 < q.chain.length then
                  (streamLoop q outcomes rest (i + 1) (some kind)).after provider
                    ⟨provider, reasonForKind kind, .fallbackAttempted, .failedOver, i⟩
                else ⟨[provider], [⟨provider, reasonForKind kind, .exhausted, .blocked, i⟩], .internalErrorFrame⟩
            | .succeeded => ⟨[provider], [⟨provider, selectionReason q, .selected, .routed, i⟩], .lines⟩

def routeStream (q : Request) (outcomes : Nat → Outcome) : Routed StreamAnswer :=
  if q.chain = [] then ⟨[], [noProviderDecision], .policyBlockedFrame⟩
  else streamLoop q outcomes q.chain 0 none

/-! ## an adapter -/

/-- What the Messages API answers: nothing that arrives, or a status with a body. -/
inductive Upstream
  | unreachable
  | response (status : Nat) (body : String)

def classifyStatus (status : Nat) : ProviderErrorKind :=
  if status = 429 then .rateLimited
  else if status = 401 ∨ status = 403 then .auth
  else if 500 ≤ status then .transient
  else .badRequest

/-- `AnthropicAdapter.complete`; `translates` tells whether `_translate_response` builds a
response.  The `stop_reason` is read outside of the handlers: a body that is no object has
no `get`. -/
def anthropicComplete {F : Type} [FloatFormat F] (translates : List (String × Value F) → Bool) (n : Nat) :
    Upstream → Outcome
  | .unreachable => if 1 < n then .failed .badRequest else .failed .transient
  | .response status body =>
      if 1 < n then .failed .badRequest
      else if status ≠ 200 then .failed (classifyStatus status)
      else
        match (loads body : Option (Value F)) with
        | none => .failed .parse
        | some (.obj fields) =>
            match fields.lookup "stop_reason" with
            | some (.str stopReason) =>
                if stopReason = "refusal" ∨ stopReason = "safety" then .failed .contentPolicy
                else if translates fields then .succeeded
                else .failed .parse
            | _ => if translates fields then .succeeded else .failed .parse
        | some _ => .raised

/-! ## the protocol -/

/-- The decision of the fallback from attempt `i`. -/
def IsFallback (chain : List String) (outcomes : Nat → Outcome) (i : Nat) (decision : RoutingDecision) : Prop :=
  ∃ provider kind, chain[i]? = some provider ∧ outcomes i = .failed kind ∧ kind.isRetryable = true ∧
    decision = ⟨provider, reasonForKind kind, .fallbackAttempted, .failedOver, i⟩

/-- One decision of a fallback for each provider that is skipped, from attempt `i` on, and
one that ends the request; `calls` is how many providers are called. -/
inductive Decided (chain : List String) (outcomes : Nat → Outcome) : Nat → Nat → List RoutingDecision → Prop
  | uncalled {i : Nat} {terminal : RoutingDecision} (h : terminal.outcome ≠ .fallbackAttempted) :
      Decided chain outcomes i 0 [terminal]
  | called {i : Nat} {terminal : RoutingDecision} (h : terminal.outcome ≠ .fallbackAttempted) :
      Decided chain outcomes i 1 [terminal]
  | skipped {i calls : Nat} {decision : RoutingDecision} {decisions : List RoutingDecision}
      (h : IsFallback chain outcomes i decision) (rest : Decided chain outcomes (i + 1) calls decisions) :
      Decided chain outcomes i (calls + 1) (decision :: decisions)

/-- What the loops are to keep. -/
structure Protocol {A : Type} (q : Request) (outcomes : Nat → Outcome) (r : Routed A) : Prop where
  ordered : r.calls <+: q.chain
  bounded : r.calls.length ≤ 1 + q.routerMaxFallbacks
  retryable : ∀ i, i + 1 < r.calls.length → (outcomes i).isRetryable = true
  final : ∀ i, i < r.calls.length → (outcomes i).isRetryable = false → i + 1 = r.calls.length
  decided : Decided q.chain outcomes 0 r.calls.length r.decisions

/-- The loop makes the call of attempt `i`, once it gets there: there is time, and the
provider passes the checks. -/
def Calls (q : Request) (i : Nat) : Prop :=
  ∃ provider, q.chain[i]? = some provider ∧ q.expired i = false ∧ checkAllowlistAndCost q provider i = none

/-- From attempt `i` on, the loop comes upon a call that ends with an exception which is no
`ProviderError`: every call before it is made, and fails so that another one is permitted. -/
inductive ComesUponRaise (q : Request) (outcomes : Nat → Outcome) : Nat → Prop
  | here {i : Nat} (h : Calls q i) (hraised : outcomes i = .raised) : ComesUponRaise q outcomes i
  | later {i : Nat} (h : Calls q i) (hretryable : (outcomes i).isRetryable = true)
      (rest : ComesUponRaise q outcomes (i + 1)) : ComesUponRaise q outcomes i

/-! ## the loop -/

variable {calls : Nat} {decision denied : RoutingDecision}

section Loop

variable {q : Request} {outcomes : Nat → Outcome} {provider : String} {rest : List String} {i : Nat}
  {lastKind : Option ProviderErrorKind}

theorem comesUponRaise_iff :
    ComesUponRaise q outcomes i ↔
      Calls q i ∧ (outcomes i = .raised ∨ (outcomes i).isRetryable = true ∧ ComesUponRaise q outcomes (i + 1)) := by
  constructor
  · intro h
    cases h with
    | here h hraised => exact ⟨h, .inl hraised⟩
    | later h hretryable rest => exact ⟨h, .inr ⟨hretryable, rest⟩⟩
  · rintro ⟨h, hraised | ⟨hretryable, rest⟩⟩
    · exact .here h hraised
    · exact .later h hretryable rest

theorem calls_iff (h : q.chain[i]? = some provider) :
    Calls q i ↔ q.expired i = false ∧ checkAllowlistAndCost q provider i = none := by
  simp [Calls, h]

theorem decided_nil : ¬Decided q.chain outcomes i calls [] := by
  intro h
  cases h

theorem decided_cons {decisions : List RoutingDecision} (h : IsFallback q.chain outcomes i decision) :
    Decided q.chain outcomes i (calls + 1) (decision :: decisions) ↔
      Decided q.chain outcomes (i + 1) calls decisions := by
  refine ⟨fun hdecided => ?_, .skipped h⟩
  obtain ⟨p, kind, hp, hkind, hretryable, rfl⟩ := h
  cases hdecided with
  | called hterminal => exact absurd rfl hterminal
  | skipped hfallback rest => exact rest

theorem outcome_checkAllowlistAndCost (h : checkAllowlistAndCost q provider i = some denied) :
    denied.outcome ≠ .fallbackAttempted := by
  rw [checkAllowlistAndCost] at h
  split at h
  · cases h
    simp
  · split at h
    · cases h
      simp
    · contradiction

theorem nonStreamLoop_of_not_calls (hchain : q.chain[i]? = some provider) (h : ¬Calls q i) :
    ∃ terminal answer, nonStreamLoop q outcomes (provider :: rest) i lastKind = ⟨[], [terminal], answer⟩ ∧
      terminal.outcome ≠ .fallbackAttempted := by
  rw [calls_iff hchain] at h
  rw [nonStreamLoop]
  split
  · exact ⟨_, _, rfl, by simp [exhaustedDecision]⟩
  · next hexpired =>
      split
      · next denied hdenied => exact ⟨_, _, rfl, outcome_checkAllowlistAndCost hdenied⟩
      · next hnone => exact absurd ⟨Bool.eq_false_iff.mpr hexpired, hnone⟩ h

theorem nonStreamLoop_of_calls (hchain : q.chain[i]? = some provider) (h : Calls q i) :
    nonStreamLoop q outcomes (provider :: rest) i lastKind =
      match outcomes i with
      | .raised => ⟨[provider], [], .raised⟩
      | .succeeded => ⟨[provider], [⟨provider, selectionReason q, .selected, .routed, i⟩], .completion⟩
      | .failed kind =>
          if kind.isRetryable ∧ i + 1 < q.chain.length then
            (nonStreamLoop q outcomes rest (i + 1) (some kind)).after provider
              ⟨provider, reasonForKind kind, .fallbackAttempted, .failedOver, i⟩
          else ⟨[provider], [⟨provider, reasonForKind kind, .exhausted, .blocked, i⟩], .internalError⟩ := by
  obtain ⟨hexpired, hcheck⟩ := (calls_iff hchain).mp h
  rw [nonStreamLoop, if_neg (Bool.eq_false_iff.mp hexpired), hcheck]

theorem calls_nonStreamLoop (hrest : rest = q.chain.drop i) :
    (nonStreamLoop q outcomes rest i lastKind).calls <+: rest ∧
    ∀ k, k + 1 < (nonStreamLoop q outcomes rest i lastKind).calls.length → (outcomes (i + k)).isRetryable = true := by
  induction rest generalizing i lastKind with
  | nil => simp [nonStreamLoop]
  | cons provider rest ih =>
      have hchain : q.chain[i]? = some provider := by
        rw [← List.head?_drop, ← hrest, List.head?_cons]
      have hnext : rest = q.chain.drop (i + 1) := by
        rw [← List.tail_drop, ← hrest, List.tail_cons]
      by_cases h : Calls q i
      · rw [nonStreamLoop_of_calls hchain h]
        split
        · simp
        · simp
        · next kind hkind =>
            split
            · next hagain =>
                obtain ⟨hordered, hretryable⟩ := @ih (i + 1) (some kind) hnext
                refine ⟨List.cons_prefix_cons.mpr ⟨rfl, hordered⟩, fun k hk => ?_⟩
                cases k with
                | zero => rw [Nat.add_zero, hkind]; exact hagain.1
                | succ k =>
                    have hsucc : i + (k + 1) = i + 1 + k := by omega
                    rw [hsucc]
                    exact hretryable k (Nat.lt_of_succ_lt_succ hk)
            · simp
      · obtain ⟨terminal, answer, heq, -⟩ := nonStreamLoop_of_not_calls hchain h
        rw [heq]
        simp

/-- Every call is decided upon, unless something raises. -/
theorem decided_nonStreamLoop (hrest : rest = q.chain.drop i) :
    Decided q.chain outcomes i (nonStreamLoop q outcomes rest i lastKind).calls.length
      (nonStreamLoop q outcomes rest i lastKind).decisions ↔ ¬ComesUponRaise q outcomes i := by
  induction rest generalizing i lastKind with
  | nil =>
      have hno : ¬Calls q i := by
        rintro ⟨provider, hprovider, -, -⟩
        rw [← List.head?_drop, ← hrest] at hprovider
        contradiction
      rw [comesUponRaise_iff]
      exact iff_of_true (.uncalled (by simp [exhaustedDecision])) fun h => hno h.1
  | cons provider rest ih =>
      have hchain : q.chain[i]? = some provider := by
        rw [← List.head?_drop, ← hrest, List.head?_cons]
      have hnext : rest = q.chain.drop (i + 1) := by
        rw [← List.tail_drop, ← hrest, List.tail_cons]
      rw [comesUponRaise_iff]
      by_cases h : Calls q i
      · rw [nonStreamLoop_of_calls hchain h]
        cases houtcome : outcomes i with
        | raised => exact iff_of_false decided_nil fun hno => hno ⟨h, .inl rfl⟩
        | succeeded => exact iff_of_true (.called (by simp)) (by simp [Outcome.isRetryable])
        | failed kind =>
            dsimp only
            split
            · next hagain =>
                have hfallback : IsFallback q.chain outcomes i
                    ⟨provider, reasonForKind kind, .fallbackAttempted, .failedOver, i⟩ :=
                  ⟨provider, kind, hchain, houtcome, hagain.1, rfl⟩
                rw [Routed.after, List.length_cons, decided_cons hfallback, ih hnext]
                simp [h, Outcome.isRetryable, hagain.1]
            · next hlast =>
                refine iff_of_true (.called (by simp)) ?_
                rintro ⟨-, hraised | ⟨hretryable, hlater⟩⟩
                · contradiction
                · -- the last provider of the chain: there is no attempt after it
                  obtain ⟨⟨p, hp, -, -⟩, -⟩ := comesUponRaise_iff.mp hlater
                  exact hlast ⟨hretryable, (List.getElem?_eq_some_iff.mp hp).1⟩
      · obtain ⟨terminal, answer, heq, hterminal⟩ := nonStreamLoop_of_not_calls hchain h
        rw [heq]
        exact iff_of_true (.uncalled hterminal) fun hraise => h hraise.1

end Loop

/-! ## the stream does as the completion does -/

/-- The frame that a stream ends with where the other route raises. -/
def Answer.frame : Answer → StreamAnswer
  | .completion => .lines
  | .policyBlocked => .policyBlockedFrame
  | .internalError => .internalErrorFrame
  | .raised => .raised

def Routed.map {A B : Type} (f : A → B) (r : Routed A) : Routed B := ⟨r.calls, r.decisions, f r.answer⟩

theorem streamLoop_eq (q : Request) (outcomes : Nat → Outcome) (rest : List String) (i : Nat)
    (lastKind : Option ProviderErrorKind) :
    streamLoop q outcomes rest i lastKind = (nonStreamLoop q outcomes rest i lastKind).map Answer.frame := by
  induction rest generalizing i lastKind with
  | nil => rfl
  | cons provider rest ih =>
      rw [streamLoop, nonStreamLoop]
      split
      · rfl
      · cases checkAllowlistAndCost q provider i with
        | some denied => rfl
        | none =>
            cases outcomes i with
            | raised => rfl
            | succeeded => rfl
            | failed kind =>
                dsimp only
                split
                · rw [ih]
                  rfl
                · rfl

theorem routeStream_eq (q : Request) (outcomes : Nat → Outcome) :
    routeStream q outcomes = (routeNonStream q outcomes).map Answer.frame := by
  rw [routeStream, routeNonStream]
  split
  · rfl
  · exact streamLoop_eq q outcomes q.chain 0 none

/-! ## the protocol, kept -/

theorem length_chain_le (q : Request) : q.chain.length ≤ 1 + q.routerMaxFallbacks := by
  rw [Request.chain, List.length_take]
  exact Nat.min_le_left ..

theorem protocol_routeNonStream (q : Request) (outcomes : Nat → Outcome) :
    Protocol q outcomes (routeNonStream q outcomes) ↔ ¬ComesUponRaise q outcomes 0 := by
  rw [routeNonStream]
  split
  · next hempty =>
      have hno : ¬ComesUponRaise q outcomes 0 := by
        rw [comesUponRaise_iff]
        rintro ⟨⟨provider, hprovider, -, -⟩, -⟩
        rw [hempty] at hprovider
        contradiction
      exact iff_of_true ⟨List.nil_prefix, by simp, by simp, by simp, .uncalled (by simp [noProviderDecision])⟩ hno
  · have hdecided := @decided_nonStreamLoop q outcomes q.chain 0 none rfl
    obtain ⟨hordered, hretryable⟩ := @calls_nonStreamLoop q outcomes q.chain 0 none rfl
    simp only [Nat.zero_add] at hretryable
    refine ⟨fun h => hdecided.mp h.decided, fun h => ?_⟩
    exact {
      ordered := hordered
      bounded := hordered.length_le.trans (length_chain_le q)
      retryable := hretryable
      final := fun k hk hfailed => by
        by_contra hlater
        rw [hretryable k (by omega)] at hfailed
        contradiction
      decided := hdecided.mpr h }

theorem Protocol.map_iff {A B : Type} {q : Request} {outcomes : Nat → Outcome} {r : Routed A} (f : A → B) :
    Protocol q outcomes (r.map f) ↔ Protocol q outcomes r :=
  ⟨fun h => ⟨h.ordered, h.bounded, h.retryable, h.final, h.decided⟩,
    fun h => ⟨h.ordered, h.bounded, h.retryable, h.final, h.decided⟩⟩

/-- The routes keep the protocol unless they come upon an exception that is no
`ProviderError`, and they call and decide alike in any case. -/
theorem fallback_protocol (q : Request) (outcomes : Nat → Outcome) :
    (Protocol q outcomes (routeNonStream q outcomes) ↔ ¬ComesUponRaise q outcomes 0) ∧
    (Protocol q outcomes (routeStream q outcomes) ↔ ¬ComesUponRaise q outcomes 0) ∧
    (routeStream q outcomes).calls = (routeNonStream q outcomes).calls ∧
    (routeStream q outcomes).decisions = (routeNonStream q outcomes).decisions := by
  have hstream := routeStream_eq q outcomes
  refine ⟨protocol_routeNonStream q outcomes, ?_, by rw [hstream]; rfl, by rw [hstream]; rfl⟩
  rw [hstream, Protocol.map_iff]
  exact protocol_routeNonStream q outcomes

/-! ## an exception -/

/-- A tenant with one provider. -/
def anthropicOnly : Request where
  allowedProviders := ["anthropic"]
  fallbackOrder := ["anthropic"]
  isDefault := false
  available := ["openai", "anthropic"]
  routerMaxFallbacks := 2
  expired _ := false
  overCeiling _ := false

/-- The Messages API answers with an empty array. -/
def emptyArray : Nat → Outcome := fun _ => anthropicComplete (F := Empty) (fun _ => true) 1 (.response 200 "[]")

/-- No decision is emitted at all. -/
theorem no_terminal_decision :
    (routeNonStream anthropicOnly emptyArray).decisions = [] ∧
    ¬Protocol anthropicOnly emptyArray (routeNonStream anthropicOnly emptyArray) := by
  have hrun : (routeNonStream anthropicOnly emptyArray).decisions = [] := rfl
  refine ⟨hrun, fun h => ?_⟩
  have hdecided := h.decided
  rw [hrun] at hdecided
  exact decided_nil hdecided

end Anoryx.Sentinel.Router
