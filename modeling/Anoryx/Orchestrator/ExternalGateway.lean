import Mathlib

/-!
# Anoryx.Orchestrator.ExternalGateway

The gateway for third parties (`external_gateway/router.py`, `auth.py`, and its tables in
`persistence/repositories.py`): the queries of events under an API key, and the keys that
operators issue and revoke.

A transaction of one statement is a step, and so is the append of an audit link, which is
under a lock of its own.  The transaction of an issuance takes the tenant's advisory lock,
counts, inserts and commits in steps of their own.

A query is governed, so to speak, once its key has been resolved: it is to be recorded in
the audit log whatever its outcome.  `Accountable` says when it is.

A key's label and times, and the rows that a query returns, are left out.  An issuance here
is one whose body has passed `_validate_issue_body`.  `drawn` is read by no step.
-/

namespace Anoryx.Orchestrator.ExternalGateway

open Function

/-! ## keys -/

/-- A row of `third_party_api_keys`, under its `key_id`. -/
structure ApiKey where
  tenantId : String
  keyHash : String
  scopes : List String
  active : Bool
  rateLimitPerMinute : Nat
deriving DecidableEq

structure Settings where
  enabled : Bool
  defaultRateLimitPerMinute : Nat
  maxKeysPerTenant : Nat

/-- What is used of the libraries. -/
structure Libraries where
  hashtext : String → Int
  /-- `hashlib.sha256`, in hex -/
  sha256 : String → String
  /-- nothing is left by `strip` -/
  isBlank : String → Bool
  /-- the integer that a query parameter is read as -/
  intOfQuery : String → Option Int
  /-- `int(base64.urlsafe_b64decode(cursor.encode("ascii")).decode("utf-8"))`, unless it raises -/
  intOfBase64 : String → Option Int

abbrev Principal := String × ApiKey

/-- `count_third_party_api_keys` -/
def countKeys (keys : List Principal) (tenantId : String) : Nat := keys.countP fun p => p.2.tenantId = tenantId

/-- `revoke_third_party_api_key` -/
def revokeKey (keyId : String) (keys : List Principal) : List Principal :=
  keys.map fun p => if p.1 = keyId then (p.1, { p.2 with active := false }) else p

/-- `get_third_party_api_key_by_hash` -/
def keyByHash (keys : List Principal) (keyHash : String) : Option Principal := keys.find? fun p => p.2.keyHash = keyHash

/-! ## queries -/

/-- `GET /v1/external/events` -/
structure Query where
  apiKeyHeader : Option String
  limit : Option String
  cursor : Option String

inductive Outcome
  | allowed
  | scopeDenied
  | rateLimited
  | revoked
deriving DecidableEq

/-- A row of `external_gateway_audit_log`, with the query that it is about. -/
structure Link where
  queryId : Nat
  tenantId : String
  keyId : String
  route : String
  outcome : Outcome
deriving DecidableEq

inductive Answer
  | unauthorized
  /-- a query parameter does not validate -/
  | unprocessable
  | notFound
  | malformedCursor
  /-- the answer of an outcome that has been recorded -/
  | governed (outcome : Outcome)
deriving DecidableEq

def routeEventsRead : String := "GET /v1/external/events"

/-- `_SCOPE_FOR_ROUTE` -/
def requiredScope : String := "events:read"

def maxCursorLength : Nat := 512

/-- The parameters validate, before the endpoint is called. -/
def Query.validates (libs : Libraries) (q : Query) : Bool :=
  q.limit.all (fun limit => (libs.intOfQuery limit).isSome) && q.cursor.all fun cursor => cursor.length ≤ maxCursorLength

def decodeSeqCursor (libs : Libraries) (cursor : String) : Option Int :=
  (libs.intOfBase64 cursor).filter fun value => -(2 ^ 63 : Int) ≤ value ∧ value ≤ 2 ^ 63 - 1

def Query.decodes (libs : Libraries) (q : Query) : Bool := q.cursor.all fun cursor => (decodeSeqCursor libs cursor).isSome

/-- How far a query is. -/
inductive Phase
  | idle
  | started (q : Query)
  /-- the increment of its counter is next -/
  | counting (q : Query) (p : Principal)
  | auditing (q : Query) (p : Principal) (outcome : Outcome)
  /-- recorded as allowed -/
  | reading (q : Query) (p : Principal)
  | answered (q : Query) (p : Option Principal) (answer : Answer)
  /-- the database has failed, or the process has died -/
  | cutOff

/-- `external_query_events` once the key is resolved, up to its first transaction. -/
def judge (libs : Libraries) (settings : Settings) (q : Query) (p : Principal) : Phase :=
  if q.validates libs = false then .answered q (some p) .unprocessable
  else if settings.enabled = false then .answered q (some p) .notFound
  else if p.2.active = false then .auditing q p .revoked
  else if requiredScope ∉ p.2.scopes then .auditing q p .scopeDenied
  else if q.decodes libs = false then .answered q (some p) .malformedCursor
  else .counting q p

/-- `require_third_party_api_key` -/
def resolve (libs : Libraries) (settings : Settings) (keys : List Principal) (q : Query) : Phase :=
  match q.apiKeyHeader with
  | none => .answered q none .unauthorized
  | some header =>
      if libs.isBlank header then .answered q none .unauthorized
      else
        match keyByHash keys (libs.sha256 header) with
        | none => .answered q none .unauthorized
        | some p => judge libs settings q p

/-! ## issuances -/

/-- A body that has passed its checks, with the id and the secret drawn for it. -/
structure Issuance where
  tenantId : String
  scopes : List String
  rateLimitPerMinute : Option Nat
  keyId : String
  plaintextKey : String

def Issuance.row (libs : Libraries) (settings : Settings) (call : Issuance) : ApiKey where
  tenantId := call.tenantId
  keyHash := libs.sha256 call.plaintextKey
  scopes := call.scopes
  active := true
  rateLimitPerMinute := call.rateLimitPerMinute.getD settings.defaultRateLimitPerMinute

/-- How far an issuance is; what is locked, counted or inserted is so in its transaction. -/
inductive IssuePhase
  | idle
  | started (call : Issuance)
  | locked (call : Issuance)
  | counted (call : Issuance)
  | inserted (call : Issuance)
  | ended

/-! ## the system -/

/-- A query that has drawn its number in the window of a minute. -/
structure Draw where
  queryId : Nat
  keyId : String
  minute : Nat
  number : Nat

structure System where
  keys : List Principal
  /-- rows inserted and not committed, with their issuances -/
  pending : List (Nat × Principal)
  locks : Int → Option Nat
  issuers : Nat → IssuePhase
  counters : String → Nat → Nat
  links : List Link
  phases : Nat → Phase
  drawn : List Draw

inductive Event
  | query (i : Nat) (q : Query)
  | resolve (i : Nat)
  /-- the increment, in the window of a minute -/
  | count (i minute : Nat)
  | audit (i : Nat)
  | read (i : Nat)
  | cut (i : Nat)
  | issue (j : Nat) (call : Issuance)
  | lock (j : Nat)
  | countKeys (j : Nat)
  | insert (j : Nat)
  | commit (j : Nat)
  | cutIssue (j : Nat)
  | revoke (keyId : String)

namespace System

variable (libs : Libraries) (settings : Settings) (s : System)

def setPhase (i : Nat) (phase : Phase) : System := { s with phases := update s.phases i phase }

def setIssuer (j : Nat) (phase : IssuePhase) : System := { s with issuers := update s.issuers j phase }

/-- The end of an issuance's transaction. -/
def release (j : Nat) : System :=
  { s with
    pending := s.pending.filter fun e => e.1 ≠ j
    locks := fun key => (s.locks key).filter fun holder => holder ≠ j
    issuers := update s.issuers j .ended }

/-- `increment_external_gateway_rate_limit`, and the comparison with the key's limit -/
def countStep (i minute : Nat) (q : Query) (p : Principal) : System :=
  let number := s.counters p.1 minute + 1
  { s with
    counters := update s.counters p.1 (update (s.counters p.1) minute number)
    drawn := s.drawn ++ [Draw.mk i p.1 minute number] }.setPhase i
      (.auditing q p (if p.2.rateLimitPerMinute < number then .rateLimited else .allowed))

/-- `append_external_gateway_audit_link` -/
def auditStep (i : Nat) (q : Query) (p : Principal) (outcome : Outcome) : System :=
  { s with links := s.links ++ [Link.mk i p.2.tenantId p.1 routeEventsRead outcome] }.setPhase i
    (if outcome = Outcome.allowed then .reading q p else .answered q (some p) (.governed outcome))

/-- `lock_external_gateway_key_cap` -/
def lockStep (j : Nat) (call : Issuance) : Option System :=
  match s.locks (libs.hashtext call.tenantId) with
  | none => some ({ s with locks := update s.locks (libs.hashtext call.tenantId) (some j) }.setIssuer j
      (.locked call))
  | some _ => none

/-- `insert_third_party_api_key`: an id or a hash that is there makes it fail, one that is
not committed yet makes it wait. -/
def insertStep (j : Nat) (call : Issuance) : Option System :=
  let row := call.row libs settings
  if s.pending.any fun e => e.2.1 = call.keyId ∨ e.2.2.keyHash = row.keyHash then none
  else if s.keys.any fun p => p.1 = call.keyId ∨ p.2.keyHash = row.keyHash then some (s.release j)
  else some ({ s with pending := s.pending ++ [(j, call.keyId, row)] }.setIssuer j (.inserted call))

def step : Event → Option System
  | .query i q =>
      match s.phases i with
      | .idle => some (s.setPhase i (.started q))
      | _ => none
  | .resolve i =>
      match s.phases i with
      | .started q => some (s.setPhase i (ExternalGateway.resolve libs settings s.keys q))
      | _ => none
  | .count i minute =>
      match s.phases i with
      | .counting q p => some (s.countStep i minute q p)
      | _ => none
  | .audit i =>
      match s.phases i with
      | .auditing q p outcome => some (s.auditStep i q p outcome)
      | _ => none
  | .read i =>
      match s.phases i with
      | .reading q p => some (s.setPhase i (.answered q (some p) (.governed .allowed)))
      | _ => none
  | .cut i =>
      match s.phases i with
      | .idle | .answered _ _ _ | .cutOff => none
      | _ => some (s.setPhase i .cutOff)
  | .issue j call =>
      match s.issuers j with
      | .idle => some (s.setIssuer j (.started call))
      | _ => none
  | .lock j =>
      match s.issuers j with
      | .started call => s.lockStep libs j call
      | _ => none
  | .countKeys j =>
      match s.issuers j with
      | .locked call =>
          some (if settings.maxKeysPerTenant ≤ ExternalGateway.countKeys s.keys call.tenantId then s.release j
            else s.setIssuer j (.counted call))
      | _ => none
  | .insert j =>
      match s.issuers j with
      | .counted call => s.insertStep libs settings j call
      | _ => none
  | .commit j =>
      match s.issuers j with
      | .inserted call => some ({ s with keys := s.keys ++ [(call.keyId, call.row libs settings)] }.release j)
      | _ => none
  | .cutIssue j =>
      match s.issuers j with
      | .idle | .ended => none
      | _ => some (s.release j)
  | .revoke keyId => some { s with keys := revokeKey keyId s.keys }

/-- The steps of a run. -/
def run : System → List Event → Option System
  | s, [] => some s
  | s, e :: events => do
      let s ← s.step libs settings e
      s.run events

end System

/-! ## the audit law -/

/-- A query under this key is recorded: its parameters validate, and its cursor decodes
unless the key is refused before. -/
def Accountable (libs : Libraries) (q : Query) (p : Principal) : Prop :=
  q.validates libs = true ∧ (p.2.active = true → requiredScope ∈ p.2.scopes → q.decodes libs = true)

def System.linksOf (s : System) (i : Nat) : List Link := s.links.filter fun link => link.queryId = i

/-- The link of a query with its outcome. -/
def linkOf (i : Nat) (p : Principal) (outcome : Outcome) : Link :=
  ⟨i, p.2.tenantId, p.1, routeEventsRead, outcome⟩

/-- What the log has about a query in a phase. -/
def Phase.Linked (i : Nat) (links : List Link) : Phase → Prop
  | .reading _ p => links = [linkOf i p .allowed]
  | .answered _ (some p) (.governed outcome) => links = [linkOf i p outcome]
  | .cutOff => links.length ≤ 1
  | _ => links = []

/-- A query is in a phase that its parameters and its key lead to. -/
def Phase.Judged (libs : Libraries) : Phase → Prop
  | .counting q p | .auditing q p _ | .reading q p => Accountable libs q p
  | .answered q (some p) (.governed _) => Accountable libs q p
  | .answered q (some p) _ => ¬Accountable libs q p
  | _ => True

/-- The principal of a query that is under way, or has been recorded. -/
def Phase.principal : Phase → Option Principal
  | .counting _ p | .auditing _ p _ | .reading _ p => some p
  | .answered _ p _ => p
  | _ => none

/-- What a query's draw has to do with its phase. -/
def Phase.Drew (d : Draw) : Phase → Prop
  | .idle | .started _ | .counting _ _ => False
  | .auditing _ p .allowed | .reading _ p | .answered _ (some p) (.governed .allowed) =>
      d.keyId = p.1 ∧ d.number ≤ p.2.rateLimitPerMinute
  | _ => True

/-- The key is there with the limit of the principal; nothing changes it. -/
def Known (keys : List Principal) (p : Principal) : Prop :=
  ∃ row, (p.1, row) ∈ keys ∧ row.rateLimitPerMinute = p.2.rateLimitPerMinute

/-- A query in its phase, beside the log, the keys and the draws. -/
structure QueryOk (libs : Libraries) (s : System) (i : Nat) (phase : Phase) : Prop where
  judged : phase.Judged libs
  linked : phase.Linked i (s.linksOf i)
  known : ∀ p ∈ phase.principal, Known s.keys p
  drawn : ∀ d ∈ s.drawn, d.queryId = i → phase.Drew d

/-- The draws in the window of a key. -/
def System.drawsOf (s : System) (keyId : String) (minute : Nat) : List Draw :=
  s.drawn.filter fun d => d.keyId = keyId ∧ d.minute = minute

/-- What holds of the queries. -/
structure QueriesOk (libs : Libraries) (s : System) : Prop where
  queries : ∀ i, QueryOk libs s i (s.phases i)
  numbered : ∀ keyId minute, (s.drawsOf keyId minute).map Draw.number = List.range' 1 (s.counters keyId minute)

variable {links : List Link} {keys : List Principal} {phase : IssuePhase} {events events' : List Event}
  {p : Principal}

section Queries

variable {libs : Libraries} {settings : Settings} {s s' : System} {e : Event} {q : Query} {p : Principal} {i : Nat}
  {phase : Phase}

theorem judged_judge (henabled : settings.enabled = true) : (judge libs settings q p).Judged libs := by
  rw [judge]
  split
  · next h =>
      intro haccountable
      have hvalidates := haccountable.1
      rw [h] at hvalidates
      contradiction
  · next h =>
      rw [if_neg (by simp [henabled])]
      rw [Bool.not_eq_false] at h
      split
      · next hactive => exact ⟨h, fun htrue => by simp [hactive] at htrue⟩
      · split
        · next hscope => exact ⟨h, fun _ hmem => absurd hmem hscope⟩
        · next hactive hscope =>
            rw [Bool.not_eq_false] at hactive
            rw [not_not] at hscope
            split
            · next hdecodes =>
                intro haccountable
                have := haccountable.2 hactive hscope
                rw [hdecodes] at this
                contradiction
            · next hdecodes => exact ⟨h, fun _ _ => Bool.not_eq_false _ ▸ hdecodes⟩

theorem principal_judge : (judge libs settings q p).principal = some p := by
  rw [judge]
  split_ifs <;> rfl

theorem linked_judge : (judge libs settings q p).Linked i links ↔ links = [] := by
  rw [judge]
  split_ifs <;> exact Iff.rfl

theorem QueryOk.resolve (h : QueryOk libs s i (.started q)) (henabled : settings.enabled = true) :
    QueryOk libs s i (resolve libs settings s.keys q) := by
  have hdrawn : ∀ d ∈ s.drawn, d.queryId ≠ i := fun d hd heq => h.drawn d hd heq
  have hunauthorized : QueryOk libs s i (.answered q none .unauthorized) :=
    ⟨trivial, h.linked, fun _ hp => by contradiction, fun d hd heq => absurd heq (hdrawn d hd)⟩
  rw [ExternalGateway.resolve]
  split
  · exact hunauthorized
  · split
    · exact hunauthorized
    · split
      · exact hunauthorized
      · next p hkey =>
          refine ⟨judged_judge henabled, linked_judge.mpr h.linked, fun p' hp' => ?_,
            fun d hd heq => absurd heq (hdrawn d hd)⟩
          rw [principal_judge] at hp'
          cases hp'
          exact ⟨p.2, List.mem_of_find?_eq_some hkey, rfl⟩

theorem QueriesOk.setPhase (h : QueriesOk libs s) (hphase : QueryOk libs s i phase) :
    QueriesOk libs (s.setPhase i phase) where
  queries j := by
    simp only [System.setPhase, update_apply]
    split
    · next heq =>
        subst heq
        exact ⟨hphase.judged, hphase.linked, hphase.known, hphase.drawn⟩
    · exact ⟨(h.queries j).judged, (h.queries j).linked, (h.queries j).known, (h.queries j).drawn⟩
  numbered := h.numbered

theorem QueriesOk.count (h : QueriesOk libs s) (minute : Nat) (hi : s.phases i = .counting q p) :
    QueriesOk libs (s.countStep i minute q p) := by
  have hquery := h.queries i
  rw [hi] at hquery
  constructor
  · intro j
    by_cases heq : j = i
    · subst heq
      have hphase : (s.countStep j minute q p).phases j = .auditing q p
          (if p.2.rateLimitPerMinute < s.counters p.1 minute + 1 then .rateLimited else .allowed) :=
        update_self ..
      have hfresh : ∀ d ∈ s.drawn, d.queryId ≠ j := fun d hd heq => hquery.drawn d hd heq
      rw [hphase]
      split
      · exact ⟨hquery.judged, hquery.linked, hquery.known, fun d _ _ => trivial⟩
      · next hlimit =>
          refine ⟨hquery.judged, hquery.linked, hquery.known, fun d hd heq => ?_⟩
          rcases List.mem_append.mp hd with hd | hd
          · exact absurd heq (hfresh d hd)
          · rw [List.mem_singleton.mp hd]
            exact ⟨rfl, not_lt.mp hlimit⟩
    · have hother := h.queries j
      have hphase : (s.countStep i minute q p).phases j = s.phases j := update_of_ne heq ..
      rw [hphase]
      refine ⟨hother.judged, hother.linked, hother.known, fun d hd hj => ?_⟩
      rcases List.mem_append.mp hd with hd | hd
      · exact hother.drawn d hd hj
      · rw [List.mem_singleton.mp hd] at hj
        exact absurd hj.symm heq
  · intro keyId minute'
    have hnumbered := h.numbered keyId minute'
    simp only [System.drawsOf, System.countStep, System.setPhase, List.filter_append, List.map_append] at hnumbered ⊢
    rw [hnumbered]
    by_cases hkey : keyId = p.1
    · subst hkey
      by_cases hminute : minute' = minute
      · subst hminute
        simp only [update_self, List.range'_1_concat, List.filter_singleton, and_self, decide_true,
          List.map_cons, List.map_nil, cond_true]
        rw [Nat.add_comm 1]
      · simp [hminute, Ne.symm hminute]
    · simp [hkey, Ne.symm hkey]

theorem linksOf_audit (j : Nat) (outcome : Outcome) :
    (s.auditStep i q p outcome).linksOf j = s.linksOf j ++ if i = j then [linkOf i p outcome] else [] := by
  rw [System.linksOf, System.auditStep, System.setPhase, List.filter_append]
  congr 1
  by_cases heq : i = j <;> simp [heq, linkOf]

theorem QueriesOk.audit (h : QueriesOk libs s) {outcome : Outcome} (hi : s.phases i = .auditing q p outcome) :
    QueriesOk libs (s.auditStep i q p outcome) := by
  have hquery := h.queries i
  rw [hi] at hquery
  refine ⟨fun j => ?_, h.numbered⟩
  have hlinks := @linksOf_audit s q p i j outcome
  by_cases heq : j = i
  · subst heq
    rw [if_pos rfl, hquery.linked, List.nil_append] at hlinks
    have hphase : (s.auditStep j q p outcome).phases j =
        if outcome = Outcome.allowed then .reading q p else .answered q (some p) (.governed outcome) :=
      update_self ..
    rw [hphase]
    cases outcome with
    | allowed => exact ⟨hquery.judged, hlinks, hquery.known, hquery.drawn⟩
    | _ => exact ⟨hquery.judged, hlinks, hquery.known, fun d _ _ => trivial⟩
  · have hother := h.queries j
    rw [if_neg (Ne.symm heq), List.append_nil] at hlinks
    have hphase : (s.auditStep i q p outcome).phases j = s.phases j := update_of_ne heq ..
    rw [hphase]
    exact ⟨hother.judged, hlinks ▸ hother.linked, hother.known, hother.drawn⟩

theorem length_of_linked (h : phase.Linked i links) : links.length ≤ 1 := by
  cases phase with
  | reading q p => rw [h, List.length_singleton]
  | cutOff => exact h
  | answered q principal answer =>
      cases principal with
      | none => simp [show links = [] from h]
      | some p =>
          cases answer with
          | governed outcome => rw [h, List.length_singleton]
          | _ => simp [show links = [] from h]
  | _ => simp [show links = [] from h]

theorem QueriesOk.of_known (h : QueriesOk libs s) {pending : List (Nat × Principal)} {locks : Int → Option Nat}
    {issuers : Nat → IssuePhase} (hknown : ∀ p, Known s.keys p → Known keys p) :
    QueriesOk libs { s with keys, pending, locks, issuers } where
  queries j := ⟨(h.queries j).judged, (h.queries j).linked, fun p hp => hknown p ((h.queries j).known p hp),
    (h.queries j).drawn⟩
  numbered := h.numbered

theorem Known.revoke (h : Known keys p) (keyId : String) : Known (revokeKey keyId keys) p := by
  obtain ⟨row, hrow, hlimit⟩ := h
  by_cases heq : p.1 = keyId
  · refine ⟨{ row with active := false }, List.mem_map.mpr ⟨_, hrow, if_pos heq⟩, hlimit⟩
  · exact ⟨row, List.mem_map.mpr ⟨_, hrow, if_neg heq⟩, hlimit⟩

/-- **One step** keeps the queries in order. -/
theorem QueriesOk.step (h : QueriesOk libs s) (henabled : settings.enabled = true)
    (hstep : s.step libs settings e = some s') : QueriesOk libs s' := by
  cases e with
  | query i q =>
      simp only [System.step] at hstep
      split at hstep
      · next hi =>
          cases hstep
          have hquery := h.queries i
          rw [hi] at hquery
          exact h.setPhase ⟨trivial, hquery.linked, fun _ hp => by contradiction, hquery.drawn⟩
      · contradiction
  | resolve i =>
      simp only [System.step] at hstep
      split at hstep
      · next q hi =>
          cases hstep
          have hquery := h.queries i
          rw [hi] at hquery
          exact h.setPhase (hquery.resolve henabled)
      · contradiction
  | count i minute =>
      simp only [System.step] at hstep
      split at hstep
      · next q p hi =>
          cases hstep
          exact h.count minute hi
      · contradiction
  | audit i =>
      simp only [System.step] at hstep
      split at hstep
      · next q p outcome hi =>
          cases hstep
          exact h.audit hi
      · contradiction
  | read i =>
      simp only [System.step] at hstep
      split at hstep
      · next q p hi =>
          cases hstep
          have hquery := h.queries i
          rw [hi] at hquery
          exact h.setPhase ⟨hquery.judged, hquery.linked, hquery.known, hquery.drawn⟩
      · contradiction
  | cut i =>
      simp only [System.step] at hstep
      have hcut : QueriesOk libs (s.setPhase i .cutOff) :=
        h.setPhase ⟨trivial, length_of_linked (h.queries i).linked, fun _ hp => by contradiction, fun d _ _ => trivial⟩
      split at hstep
      all_goals first
        | contradiction
        | (cases hstep
           exact hcut)
  | issue j call =>
      simp only [System.step] at hstep
      split at hstep
      · cases hstep
        exact h.of_known fun _ => id
      · contradiction
  | lock j =>
      simp only [System.step, System.lockStep] at hstep
      split at hstep
      · split at hstep
        · cases hstep
          exact h.of_known fun _ => id
        · contradiction
      · contradiction
  | countKeys j =>
      simp only [System.step] at hstep
      split at hstep
      · cases hstep
        split <;> exact h.of_known fun _ => id
      · contradiction
  | insert j =>
      simp only [System.step, System.insertStep] at hstep
      split at hstep
      · split at hstep
        · contradiction
        · split at hstep <;> cases hstep <;> exact h.of_known fun _ => id
      · contradiction
  | commit j =>
      simp only [System.step] at hstep
      split at hstep
      · cases hstep
        refine h.of_known fun p hp => ?_
        obtain ⟨row, hrow, hlimit⟩ := hp
        exact ⟨row, List.mem_append_left _ hrow, hlimit⟩
      · contradiction
  | cutIssue j =>
      simp only [System.step] at hstep
      have hcut : QueriesOk libs (s.release j) := h.of_known fun _ => id
      split at hstep
      all_goals first
        | contradiction
        | (cases hstep
           exact hcut)
  | revoke keyId =>
      cases hstep
      exact h.of_known fun p hp => hp.revoke keyId

end Queries

/-! ## the keys -/

/-- The issuance whose transaction has the tenant's lock. -/
def IssuePhase.holds : IssuePhase → Option Issuance
  | .locked call | .counted call | .inserted call => some call
  | _ => none

/-- The issuance that has found room. -/
def IssuePhase.hasRoom : IssuePhase → Option Issuance
  | .counted call | .inserted call => some call
  | _ => none

/-- What holds of the keys: every id is there once, the issuances of a tenant take turns, and
the tenant's keys stay within the cap. -/
structure KeysOk (libs : Libraries) (settings : Settings) (s : System) : Prop where
  ids : (s.keys.map Prod.fst).Nodup
  pendingIds : (s.pending.map fun e => e.2.1).Nodup
  apart : ∀ p ∈ s.keys, ∀ e ∈ s.pending, p.1 ≠ e.2.1
  pending : ∀ j call, s.issuers j = .inserted call → (j, call.keyId, call.row libs settings) ∈ s.pending
  locked : ∀ j, ∀ call ∈ (s.issuers j).holds, s.locks (libs.hashtext call.tenantId) = some j
  capped : ∀ tenantId, countKeys s.keys tenantId ≤ settings.maxKeysPerTenant
  room : ∀ j, ∀ call ∈ (s.issuers j).hasRoom, countKeys s.keys call.tenantId < settings.maxKeysPerTenant

section Keys

variable {libs : Libraries} {settings : Settings} {s s' : System} {e : Event} {j : Nat} {call : Issuance}

theorem holds_of_hasRoom (h : call ∈ phase.hasRoom) : call ∈ phase.holds := by
  cases phase with
  | counted _ => exact h
  | inserted _ => exact h
  | _ => contradiction

@[simp] theorem map_fst_revokeKey (keyId : String) (keys : List Principal) :
    (revokeKey keyId keys).map Prod.fst = keys.map Prod.fst := by
  rw [revokeKey, List.map_map]
  refine List.map_congr_left fun p _ => ?_
  simp only [comp_apply]
  split <;> rfl

@[simp] theorem countKeys_revokeKey (keyId : String) (keys : List Principal) (tenantId : String) :
    countKeys (revokeKey keyId keys) tenantId = countKeys keys tenantId := by
  rw [countKeys, revokeKey, List.countP_map]
  refine List.countP_congr fun p _ => ?_
  simp only [comp_apply]
  split <;> rfl

theorem KeysOk.release (h : KeysOk libs settings s) (j : Nat) : KeysOk libs settings (s.release j) where
  ids := h.ids
  pendingIds := h.pendingIds.sublist (List.filter_sublist.map _)
  apart p hp e he := h.apart p hp e (List.mem_of_mem_filter he)
  pending k call hk := by
    simp only [System.release, update_apply] at hk
    split at hk
    · contradiction
    · next hne => exact List.mem_filter.mpr ⟨h.pending k call hk, by simpa using hne⟩
  locked k call hk := by
    simp only [System.release, update_apply] at hk
    split at hk
    · contradiction
    · next hne =>
        simp only [System.release, h.locked k call hk]
        simp [Option.filter_some, hne]
  capped := h.capped
  room k call hk := by
    simp only [System.release, update_apply] at hk
    split at hk
    · contradiction
    · exact h.room k call hk

theorem KeysOk.setIssuer (h : KeysOk libs settings s) (hinserted : ∀ call, phase ≠ .inserted call)
    (hholds : ∀ call ∈ phase.holds, s.locks (libs.hashtext call.tenantId) = some j)
    (hroom : ∀ call ∈ phase.hasRoom, countKeys s.keys call.tenantId < settings.maxKeysPerTenant) :
    KeysOk libs settings (s.setIssuer j phase) where
  ids := h.ids
  pendingIds := h.pendingIds
  apart := h.apart
  pending k call hk := by
    simp only [System.setIssuer, update_apply] at hk
    split at hk
    · exact absurd hk (hinserted call)
    · exact h.pending k call hk
  locked k call hk := by
    simp only [System.setIssuer, update_apply] at hk
    split at hk
    · next heq => rw [heq]; exact hholds call hk
    · exact h.locked k call hk
  capped := h.capped
  room k call hk := by
    simp only [System.setIssuer, update_apply] at hk
    split at hk
    · exact hroom call hk
    · exact h.room k call hk

theorem KeysOk.lock (h : KeysOk libs settings s) (hstep : s.lockStep libs j call = some s') : KeysOk libs settings s' := by
  rw [System.lockStep] at hstep
  split at hstep
  · next hfree =>
      cases hstep
      have hlocks : KeysOk libs settings
          { s with locks := update s.locks (libs.hashtext call.tenantId) (some j) } :=
        { h with
          locked := fun k call' hk => by
            have hheld := h.locked k call' hk
            have hne : libs.hashtext call'.tenantId ≠ libs.hashtext call.tenantId := fun heq => by
              rw [heq, hfree] at hheld
              contradiction
            exact (update_of_ne hne ..).trans hheld }
      refine hlocks.setIssuer (fun _ => by simp) (fun call' hcall' => ?_) fun _ hroom => by contradiction
      cases hcall'
      exact update_self ..
  · contradiction

/-- Under the lock one more key stays within the cap. -/
theorem KeysOk.insert (h : KeysOk libs settings s) (hj : s.issuers j = .counted call)
    (hstep : s.insertStep libs settings j call = some s') : KeysOk libs settings s' := by
  have hlock : s.locks (libs.hashtext call.tenantId) = some j := h.locked j call (by rw [hj]; rfl)
  have hroom : countKeys s.keys call.tenantId < settings.maxKeysPerTenant := h.room j call (by rw [hj]; rfl)
  simp only [System.insertStep] at hstep
  split at hstep
  · contradiction
  · next hpending =>
      split at hstep
      · cases hstep
        exact h.release j
      · next hkeys =>
          cases hstep
          simp only [Bool.not_eq_true, List.any_eq_false, decide_eq_true_eq, not_or] at hpending hkeys
          exact {
            ids := h.ids
            pendingIds := by
              simp only [System.setIssuer, List.map_append, List.map_cons, List.map_nil]
              refine List.nodup_append.mpr ⟨h.pendingIds, List.nodup_singleton _, fun id hid id' hid' heq => ?_⟩
              obtain ⟨e, he, rfl⟩ := List.mem_map.mp hid
              exact (hpending e he).1 (heq.trans (List.mem_singleton.mp hid'))
            apart := fun p hp e he => by
              rcases List.mem_append.mp he with he | he
              · exact h.apart p hp e he
              · rw [List.mem_singleton.mp he]
                exact (hkeys p hp).1
            pending := fun k call' hk => by
              simp only [System.setIssuer, update_apply] at hk ⊢
              split at hk
              · next heq =>
                  cases hk
                  subst heq
                  exact List.mem_append_right _ (List.mem_singleton_self _)
              · exact List.mem_append_left _ (h.pending k call' hk)
            locked := fun k call' hk => by
              simp only [System.setIssuer, update_apply] at hk ⊢
              split at hk
              · next heq =>
                  cases hk
                  rw [heq]
                  exact hlock
              · exact h.locked k call' hk
            capped := h.capped
            room := fun k call' hk => by
              simp only [System.setIssuer, update_apply] at hk
              split at hk
              · cases hk
                exact hroom
              · exact h.room k call' hk }

theorem KeysOk.commit (h : KeysOk libs settings s) (hj : s.issuers j = .inserted call) :
    KeysOk libs settings ({ s with keys := s.keys ++ [(call.keyId, call.row libs settings)] }.release j) := by
  have hpending := h.pending j call hj
  have hlock : s.locks (libs.hashtext call.tenantId) = some j := h.locked j call (by rw [hj]; rfl)
  have hroom : countKeys s.keys call.tenantId < settings.maxKeysPerTenant := h.room j call (by rw [hj]; rfl)
  have hreleased := h.release j
  have hcount (tenantId : String) : countKeys (s.keys ++ [(call.keyId, call.row libs settings)]) tenantId =
      countKeys s.keys tenantId + if call.tenantId = tenantId then 1 else 0 := by
    rw [countKeys, List.countP_append, List.countP_singleton, countKeys]
    by_cases htenant : call.tenantId = tenantId <;> simp [Issuance.row, htenant]
  exact {
    ids := by
      simp only [System.release, List.map_append, List.map_cons, List.map_nil]
      refine List.nodup_append.mpr ⟨h.ids, List.nodup_singleton _, fun id hid id' hid' heq => ?_⟩
      obtain ⟨p, hp, rfl⟩ := List.mem_map.mp hid
      exact h.apart p hp _ hpending (heq.trans (List.mem_singleton.mp hid'))
    pendingIds := hreleased.pendingIds
    apart := fun p hp e he => by
      rcases List.mem_append.mp hp with hp | hp
      · exact hreleased.apart p hp e he
      · rw [List.mem_singleton.mp hp]
        obtain ⟨he, hne⟩ := List.mem_filter.mp he
        intro heq
        have hsame := List.inj_on_of_nodup_map h.pendingIds hpending he heq
        rw [← hsame] at hne
        simp at hne
    pending := hreleased.pending
    locked := hreleased.locked
    capped := fun tenantId => by
      have hcapped := h.capped tenantId
      simp only [System.release, hcount]
      split
      · next heq =>
          rw [heq] at hroom
          omega
      · omega
    room := fun k call' hk => by
      have hroom' := hreleased.room k call' hk
      simp only [System.release, hcount] at hroom' ⊢
      split
      · next heq =>
          -- the lock of the tenant is held by one issuance only
          simp only [System.release, update_apply] at hk
          split at hk
          · contradiction
          · next hne =>
              have hother := h.locked k call' (holds_of_hasRoom hk)
              rw [← heq, hlock] at hother
              exact absurd (Option.some.inj hother).symm hne
      · omega }

/-- **One step** keeps the keys in order. -/
theorem KeysOk.step (h : KeysOk libs settings s) (hstep : s.step libs settings e = some s') :
    KeysOk libs settings s' := by
  have hquery {counters : String → Nat → Nat} {links : List Link} {phases : Nat → Phase} {drawn : List Draw} :
      KeysOk libs settings { s with counters, links, phases, drawn } :=
    ⟨h.ids, h.pendingIds, h.apart, h.pending, h.locked, h.capped, h.room⟩
  cases e with
  | query i q =>
      simp only [System.step] at hstep
      split at hstep
      · cases hstep
        exact hquery
      · contradiction
  | resolve i =>
      simp only [System.step] at hstep
      split at hstep
      · cases hstep
        exact hquery
      · contradiction
  | count i minute =>
      simp only [System.step] at hstep
      split at hstep
      · cases hstep
        exact hquery
      · contradiction
  | audit i =>
      simp only [System.step] at hstep
      split at hstep
      · cases hstep
        exact hquery
      · contradiction
  | read i =>
      simp only [System.step] at hstep
      split at hstep
      · cases hstep
        exact hquery
      · contradiction
  | cut i =>
      simp only [System.step] at hstep
      split at hstep
      all_goals first
        | contradiction
        | (cases hstep
           exact hquery)
  | issue j call =>
      simp only [System.step] at hstep
      split at hstep
      · cases hstep
        exact h.setIssuer (fun _ => by simp) (fun _ hcall => by contradiction) fun _ hcall => by contradiction
      · contradiction
  | lock j =>
      simp only [System.step] at hstep
      split at hstep
      · exact h.lock hstep
      · contradiction
  | countKeys j =>
      simp only [System.step] at hstep
      split at hstep
      · next call hj =>
          cases hstep
          split
          · exact h.release j
          · next hroom =>
              refine h.setIssuer (fun _ => by simp) (fun call' hcall' => ?_) fun call' hcall' => ?_
              · cases hcall'
                exact h.locked j call (by rw [hj]; rfl)
              · cases hcall'
                exact not_le.mp hroom
      · contradiction
  | insert j =>
      simp only [System.step] at hstep
      split at hstep
      · next call hj => exact h.insert hj hstep
      · contradiction
  | commit j =>
      simp only [System.step] at hstep
      split at hstep
      · next call hj =>
          cases hstep
          exact h.commit hj
      · contradiction
  | cutIssue j =>
      simp only [System.step] at hstep
      split at hstep
      all_goals first
        | contradiction
        | (cases hstep
           exact h.release j)
  | revoke keyId =>
      cases hstep
      exact {
        ids := by simpa using h.ids
        pendingIds := h.pendingIds
        apart := fun p hp e he => by
          have hid : p.1 ∈ (revokeKey keyId s.keys).map Prod.fst := List.mem_map_of_mem hp
          rw [map_fst_revokeKey] at hid
          obtain ⟨p', hp', heq⟩ := List.mem_map.mp hid
          rw [← heq]
          exact h.apart p' hp' e he
        pending := h.pending
        locked := h.locked
        capped := fun tenantId => by simpa using h.capped tenantId
        room := fun k call hk => by simpa using h.room k call hk }

end Keys

/-! ## revocation -/

def Revoked (keyId : String) (keys : List Principal) : Prop :=
  keyId ∈ keys.map Prod.fst ∧ ∀ p ∈ keys, p.1 = keyId → p.2.active = false

/-- The query will not be served under this key. -/
def Phase.Refused (keyId : String) : Phase → Prop
  | .counting _ p | .reading _ p | .auditing _ p .allowed | .answered _ (some p) (.governed .allowed) => p.1 ≠ keyId
  | _ => True

section Revocation

variable {libs : Libraries} {settings : Settings} {s s' : System} {e : Event} {keyId : String} {i : Nat}

theorem refused_resolve (h : Revoked keyId keys) (q : Query) : (resolve libs settings keys q).Refused keyId := by
  rw [resolve]
  split
  · trivial
  · split
    · trivial
    · split
      · trivial
      · next p hp =>
          have hmem := List.mem_of_find?_eq_some hp
          rw [judge]
          split_ifs with _ _ hactive
          all_goals first
            | trivial
            | exact fun heq => hactive (h.2 p hmem heq)

theorem revoked_step (h : Revoked keyId s.keys) (hkeys : KeysOk libs settings s)
    (hstep : s.step libs settings e = some s') : Revoked keyId s'.keys := by
  have hids := (hkeys.step hstep).ids
  cases e with
  | commit j =>
      simp only [System.step] at hstep
      split at hstep
      · cases hstep
        refine ⟨by simp [System.release, h.1], fun p hp heq => ?_⟩
        rcases List.mem_append.mp hp with hp | hp
        · exact h.2 p hp heq
        · -- the new key has another id
          obtain ⟨p', hp', hid⟩ := List.mem_map.mp h.1
          have hsame := List.inj_on_of_nodup_map hids (List.mem_append_left _ hp') (List.mem_append_right _ hp)
            (hid.trans heq.symm)
          rw [← hsame]
          exact h.2 p' hp' hid
      · contradiction
  | revoke keyId' =>
      cases hstep
      refine ⟨by simpa using h.1, fun p hp heq => ?_⟩
      obtain ⟨p', hp', rfl⟩ := List.mem_map.mp hp
      by_cases hid : p'.1 = keyId'
      · rw [if_pos hid]
      · rw [if_neg hid] at heq ⊢
        exact h.2 p' hp' heq
  | _ =>
      have hsame : s'.keys = s.keys := by
        simp only [System.step, System.lockStep, System.insertStep] at hstep
        grind [System.setPhase, System.setIssuer, System.release, System.countStep, System.auditStep]
      rw [hsame]
      exact h

/-- Who is refused stays refused. -/
theorem refused_step (h : (s.phases i).Refused keyId) (hrevoked : Revoked keyId s.keys)
    (hstep : s.step libs settings e = some s') : (s'.phases i).Refused keyId := by
  have hset {j : Nat} {phase : Phase} (hphase : j = i → phase.Refused keyId) :
      (update s.phases j phase i).Refused keyId := by
    rw [update_apply]
    split
    · next heq => exact hphase heq.symm
    · exact h
  cases e with
  | query j q =>
      simp only [System.step] at hstep
      split at hstep
      · cases hstep
        exact hset fun _ => trivial
      · contradiction
  | resolve j =>
      simp only [System.step] at hstep
      split at hstep
      · next q _ =>
          cases hstep
          exact hset fun _ => refused_resolve hrevoked q
      · contradiction
  | count j minute =>
      simp only [System.step] at hstep
      split at hstep
      · next q p hj =>
          cases hstep
          refine hset fun heq => ?_
          subst heq
          rw [hj] at h
          split
          · trivial
          · exact h
      · contradiction
  | audit j =>
      simp only [System.step] at hstep
      split at hstep
      · next q p outcome hj =>
          cases hstep
          refine hset fun heq => ?_
          subst heq
          rw [hj] at h
          cases outcome with
          | allowed => exact h
          | _ => trivial
      · contradiction
  | read j =>
      simp only [System.step] at hstep
      split at hstep
      · next q p hj =>
          cases hstep
          refine hset fun heq => ?_
          subst heq
          rw [hj] at h
          exact h
      · contradiction
  | cut j =>
      simp only [System.step] at hstep
      split at hstep
      all_goals first
        | contradiction
        | (cases hstep
           exact hset fun _ => trivial)
  | revoke keyId' =>
      cases hstep
      exact h
  | _ =>
      have hsame : s'.phases = s.phases := by
        simp only [System.step, System.lockStep, System.insertStep] at hstep
        grind [System.setIssuer, System.release]
      rw [hsame]
      exact h

end Revocation

/-! ## every run -/

section Runs

variable {libs : Libraries} {settings : Settings} {s s' : System}

/-- No query and no issuance has begun; the keys are within the cap. -/
structure Initial (settings : Settings) (s : System) : Prop where
  phases : ∀ i, s.phases i = .idle
  issuers : ∀ j, s.issuers j = .idle
  pending : s.pending = []
  links : ∀ i, s.linksOf i = []
  drawn : s.drawn = []
  counters : ∀ keyId minute, s.counters keyId minute = 0
  ids : (s.keys.map Prod.fst).Nodup
  capped : ∀ tenantId, countKeys s.keys tenantId ≤ settings.maxKeysPerTenant

theorem Initial.queriesOk (h : Initial settings s) : QueriesOk libs s where
  queries i := by
    rw [h.phases i]
    exact ⟨trivial, h.links i, fun _ hp => by contradiction, fun d hd => by simp [h.drawn] at hd⟩
  numbered keyId minute := by
    rw [System.drawsOf, h.drawn, h.counters]
    rfl

theorem Initial.keysOk (h : Initial settings s) : KeysOk libs settings s where
  ids := h.ids
  pendingIds := by simp [h.pending]
  apart p _ e he := by simp [h.pending] at he
  pending j call hj := by
    rw [h.issuers] at hj
    contradiction
  locked j call hj := by
    rw [h.issuers] at hj
    contradiction
  capped := h.capped
  room j call hj := by
    rw [h.issuers] at hj
    contradiction

theorem ok_run (hqueries : QueriesOk libs s) (hkeys : KeysOk libs settings s) (henabled : settings.enabled = true)
    (hrun : s.run libs settings events = some s') : QueriesOk libs s' ∧ KeysOk libs settings s' := by
  induction events generalizing s with
  | nil =>
      cases hrun
      exact ⟨hqueries, hkeys⟩
  | cons e events ih =>
      obtain ⟨s₁, hstep, hrest⟩ := Option.bind_eq_some_iff.mp hrun
      exact ih (hqueries.step henabled hstep) (hkeys.step hstep) hrest

theorem refused_run {keyId : String} {i : Nat} (hkeys : KeysOk libs settings s) (hrevoked : Revoked keyId s.keys)
    (hrefused : (s.phases i).Refused keyId) (hrun : s.run libs settings events = some s') :
    (s'.phases i).Refused keyId := by
  induction events generalizing s with
  | nil =>
      cases hrun
      exact hrefused
  | cons e events ih =>
      obtain ⟨s₁, hstep, hrest⟩ := Option.bind_eq_some_iff.mp hrun
      exact ih (hkeys.step hstep) (revoked_step hrevoked hkeys hstep) (refused_step hrefused hrevoked hstep) hrest

theorem run_append :
    s.run libs settings (events ++ events') = (s.run libs settings events).bind fun s' => s'.run libs settings events' := by
  induction events generalizing s with
  | nil => rfl
  | cons e events ih =>
      simp only [List.cons_append, System.run, Option.bind_eq_bind, Option.bind_assoc, ih]

/-- The query was answered 200 under this key. -/
def Phase.servedUnder (keyId : String) : Phase → Bool
  | .answered _ (some p) (.governed .allowed) => p.1 = keyId
  | _ => false

theorem length_le_of_numbers {draws : List Draw} {n limit : Nat} (h : draws.map Draw.number = List.range' 1 n)
    {select : Draw → Bool} (hselect : ∀ d ∈ draws, select d = true → d.number ≤ limit) :
    (draws.filter select).length ≤ limit := by
  have hnodup : ((draws.filter select).map Draw.number).Nodup :=
    (h ▸ List.nodup_range').sublist (List.filter_sublist.map _)
  have hsubset : (draws.filter select).map Draw.number ⊆ List.range' 1 limit := by
    intro number hnumber
    obtain ⟨d, hd, rfl⟩ := List.mem_map.mp hnumber
    obtain ⟨hmem, hsel⟩ := List.mem_filter.mp hd
    have hpos : d.number ∈ List.range' 1 n := h ▸ List.mem_map_of_mem hmem
    have hle := hselect d hmem hsel
    simp only [List.mem_range'_1] at hpos ⊢
    omega
  have hlength := (hnodup.subperm hsubset).length_le
  rwa [List.length_map, List.length_range'] at hlength

theorem rate_limited (hqueries : QueriesOk libs s) (hkeys : KeysOk libs settings s) (hp : p ∈ s.keys) (minute : Nat) :
    ((s.drawsOf p.1 minute).filter fun d => (s.phases d.queryId).servedUnder p.1).length ≤ p.2.rateLimitPerMinute := by
  refine length_le_of_numbers (hqueries.numbered p.1 minute) fun d hd hserved => ?_
  have hquery := hqueries.queries d.queryId
  have hdrew := hquery.drawn d (List.mem_of_mem_filter hd) rfl
  have hknown := hquery.known
  cases hphase : s.phases d.queryId with
  | answered q principal answer =>
      rw [hphase] at hserved hdrew hknown
      match principal, answer, hserved with
      | some p', .governed .allowed, hserved =>
          obtain ⟨row, hrow, hlimit⟩ := hknown p' rfl
          have hid : p'.1 = p.1 := of_decide_eq_true hserved
          have hsame := List.inj_on_of_nodup_map hkeys.ids hrow hp hid
          rw [← hsame, hlimit]
          exact hdrew.2
  | _ =>
      rw [hphase] at hserved
      contradiction

theorem links_iff {i : Nat} {q : Query} {answer : Answer} (h : QueryOk libs s i (.answered q (some p) answer)) :
    (s.linksOf i).length = 1 ↔ Accountable libs q p := by
  have hlinked := h.linked
  cases answer with
  | governed outcome =>
      rw [hlinked]
      exact iff_of_true rfl h.judged
  | _ =>
      have hnone : s.linksOf i = [] := hlinked
      rw [hnone]
      exact iff_of_false (by simp) h.judged

/-- The laws of the gateway: a query whose key resolves has one link just when it is
accountable, the served queries of a window are within the key's limit, none is served that
resolves its key after the revocation, and the keys of a tenant are within the cap. -/
theorem gateway_governance (henabled : settings.enabled = true) (h : Initial settings s) (events : List Event)
    (hrun : s.run libs settings events = some s') :
    (∀ i q p answer, s'.phases i = .answered q (some p) answer →
      ((s'.linksOf i).length = 1 ↔ Accountable libs q p)) ∧
    (∀ p ∈ s'.keys, ∀ minute, ((s'.drawsOf p.1 minute).filter fun d =>
      (s'.phases d.queryId).servedUnder p.1).length ≤ p.2.rateLimitPerMinute) ∧
    (∀ before after s₁ keyId i, events = before ++ after → s.run libs settings before = some s₁ →
      Revoked keyId s₁.keys → (s₁.phases i = .idle ∨ ∃ q, s₁.phases i = .started q) →
      (s'.phases i).servedUnder keyId = false) ∧
    ∀ tenantId, countKeys s'.keys tenantId ≤ settings.maxKeysPerTenant := by
  obtain ⟨hqueries, hkeys⟩ := ok_run h.queriesOk h.keysOk henabled hrun
  refine ⟨fun i q p answer hi => ?_, fun p hp minute => rate_limited hqueries hkeys hp minute, ?_, hkeys.capped⟩
  · have hquery := hqueries.queries i
    rw [hi] at hquery
    exact links_iff hquery
  · rintro before after s₁ keyId i rfl hbefore hrevoked hunresolved
    rw [run_append, hbefore, Option.bind_some] at hrun
    obtain ⟨-, hkeys₁⟩ := ok_run h.queriesOk h.keysOk henabled hbefore
    have hrefused : (s₁.phases i).Refused keyId := by
      rcases hunresolved with hi | ⟨q, hi⟩ <;> rw [hi] <;> trivial
    have hlater := refused_run hkeys₁ hrevoked hrefused hrun
    rw [Phase.servedUnder.eq_def]
    split
    · next p hp =>
        rw [hp] at hlater
        exact decide_eq_false hlater
    · rfl

end Runs

/-! ## a key that is issued, used and revoked, and a cursor that does not decode -/

section Sample

def sampleLibraries : Libraries where
  hashtext text := text.length
  sha256 text :=
    if text = "xk_ticket" then "a8c2f78d76fe5237d2e2b245e55f13fc87a67d20ead2403c06b09a33e2c9a72f" else text
  isBlank text := text.toList.all Char.isWhitespace
  intOfQuery text := if text = "50" then some 50 else none
  intOfBase64 cursor := if cursor = "NDI=" then some 42 else none

def sampleSettings : Settings := ⟨true, 60, 5⟩

def freshGateway : System := ⟨[], [], fun _ => none, fun _ => .idle, fun _ _ => 0, [], fun _ => .idle, []⟩

def sampleIssuance : Issuance := ⟨"tenant-1", [requiredScope], some 1, "xk_1", "xk_ticket"⟩

def sampleQuery (cursor : Option String) : Query := ⟨some "xk_ticket", some "50", cursor⟩

def issued : List Event := [.issue 0 sampleIssuance, .lock 0, .countKeys 0, .insert 0, .commit 0]

/-- The queries of a minute, under a key for one of them. -/
def served : List Event :=
  [.query 0 (sampleQuery none), .resolve 0, .query 1 (sampleQuery (some "NDI=")), .resolve 1, .count 1 0, .count 0 0,
    .audit 0, .audit 1, .read 1]

def refused : List Event := [.revoke "xk_1", .query 2 (sampleQuery none), .resolve 2, .audit 2]

theorem freshGateway_initial : Initial sampleSettings freshGateway where
  phases _ := rfl
  issuers _ := rfl
  pending := rfl
  links _ := rfl
  drawn := rfl
  counters _ _ := rfl
  ids := List.nodup_nil
  capped _ := Nat.zero_le _

theorem gateway_governance_sample : ∃ s', freshGateway.run sampleLibraries sampleSettings (issued ++ served ++ refused) =
      some s' ∧
    s'.links.map (fun link => (link.queryId, link.outcome)) = [(0, .rateLimited), (1, .allowed), (2, .revoked)] ∧
    (s'.phases 2).servedUnder "xk_1" = false ∧
    countKeys s'.keys "tenant-1" ≤ 5 := by
  have hlinks : (freshGateway.run sampleLibraries sampleSettings (issued ++ served ++ refused)).map
      (fun s => s.links.map fun link => (link.queryId, link.outcome)) =
      some [(0, .rateLimited), (1, .allowed), (2, .revoked)] := by decide +kernel
  obtain ⟨s', hrun, houtcomes⟩ := Option.map_eq_some_iff.mp hlinks
  have hrevoked : ∃ s₁, freshGateway.run sampleLibraries sampleSettings (issued ++ served ++ [.revoke "xk_1"]) =
      some s₁ ∧ s₁.phases 2 = .idle ∧ s₁.keys.map (fun p => (p.1, p.2.active)) = [("xk_1", false)] :=
    ⟨_, rfl, rfl, rfl⟩
  obtain ⟨s₁, hbefore, hidle, hkeys⟩ := hrevoked
  obtain ⟨p, hp, hrow⟩ := List.map_eq_singleton_iff.mp hkeys
  obtain ⟨hid, hactive⟩ := Prod.mk.inj hrow
  obtain ⟨-, -, hrevocation, hcap⟩ := gateway_governance (Eq.refl true) freshGateway_initial _ hrun
  have hrefused := hrevocation (issued ++ served ++ [.revoke "xk_1"])
    [.query 2 (sampleQuery none), .resolve 2, .audit 2] s₁ "xk_1" 2 (by simp [refused]) hbefore
    (by simp [Revoked, hp, hid, hactive]) (.inl hidle)
  exact ⟨s', hrun, houtcomes, hrefused, hcap "tenant-1"⟩

/-- A key in order, with a cursor that does not decode or with a limit that is no integer. -/
def probes : List Event :=
  [.query 0 (sampleQuery (some "%%%")), .resolve 0, .query 1 ⟨some "xk_ticket", some "abc", none⟩, .resolve 1]

theorem probes_unrecorded : ∃ s' p, freshGateway.run sampleLibraries sampleSettings (issued ++ probes) = some s' ∧
    p.2.tenantId = "tenant-1" ∧
    s'.phases 0 = .answered (sampleQuery (some "%%%")) (some p) .malformedCursor ∧
    s'.phases 1 = .answered ⟨some "xk_ticket", some "abc", none⟩ (some p) .unprocessable ∧
    (s'.linksOf 0).length = 0 ∧ (s'.linksOf 1).length = 0 :=
  ⟨_, _, rfl, rfl, rfl, rfl, rfl, rfl⟩

end Sample

end Anoryx.Orchestrator.ExternalGateway
