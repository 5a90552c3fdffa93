import Anoryx.PgColumn
import Anoryx.PyJson.SortKeys
import Anoryx.ReadCommitted.LockedLog

/-!
# Anoryx.Sentinel.AuditLog

Sentinel's tamper-evident audit log (`persistence/hash_chain.py`,
`models/events_audit_log.py`, `repositories/audit_log_repository.py`): one chain of all
tenants, appended to under one advisory lock.

A row is hashed twice.  `append` hashes the dictionary it is given; `validate_chain`
hashes what the columns give back.

`sha256` is the hexadecimal digest and `pyRepr` the `repr()` of Python.  The unique
indexes are left out: an INSERT that they refuse is an abort, and that may come at any
time.
-/

namespace Anoryx.Sentinel.AuditLog

open ReadCommitted PyJson PgColumn

/-! ## the hash of a row -/

def canonicalFields : List String :=
  ["event_id", "event_type", "event_timestamp", "request_id", "tenant_id", "team_id", "project_id",
    "agent_id", "model", "tokens_in", "tokens_out", "latency_ms", "cost_estimate_cents",
    "pattern_name", "severity", "action_taken", "classifier_score", "rule_matched", "secret_type",
    "direction", "policy_id", "violation_type", "framework", "control_id", "status",
    "detected_endpoint", "traffic_volume", "first_seen_at", "selected_provider", "routing_reason",
    "outcome", "attempt_index", "requested_model", "judge_score", "judge_confidence", "final_score",
    "judge_model", "judge_preset", "judge_outcome", "audit_mode", "classifier_reason", "prev_hash"]

/-- The fields that are hashed only when they are set. -/
def optInFields : List String :=
  ["actor_id", "confidence_band", "fired_signals", "candidate_key", "webhook_provider",
    "failure_class", "config_action"]

section Hash

variable {F : Type}

/-- `data.get(key)` -/
def get (data : List (String × Value F)) (key : String) : Value F := (getItem key data).getD .null

/-- A member, unless it is `None`. -/
def optIn (data : List (String × Value F)) (key : String) : Option (String × Value F) :=
  match get data key with
  | .null => none
  | v => some (key, v)

/-- The members that are hashed. -/
def filtered (data : List (String × Value F)) : List (String × Value F) :=
  canonicalFields.map (fun key => (key, get data key)) ++ optInFields.filterMap (optIn data)

variable [FloatFormat F]

def canonicalJson (data : List (String × Value F)) : ByteArray :=
  (dumps ⟨false, false⟩ (Value.obj (filtered data)).sortKeys).toUTF8

variable (sha256 : ByteArray → String)

def genesisHash : String := sha256 "anoryx-sentinel:events:genesis:v1".toUTF8

/-- `compute_row_hash`; what it raises is a `ValueError`. -/
def computeRowHash (data : List (String × Value F)) : Except String String :=
  if (getItem "prev_hash" data).isNone then
    .error "row data must include 'prev_hash' to compute row_hash"
  else if (getItem "event_timestamp" data).isNone then
    .error "row data must include 'event_timestamp' to compute row_hash"
  else .ok (sha256 (canonicalJson data))

end Hash

/-! ## the table -/

def validEventTypes : List String :=
  ["usage", "pii_blocked", "injection_detected", "secret_leaked", "policy_violated",
    "compliance_checked", "shadow_ai_detected", "routing_decision", "policy_intake_accepted",
    "policy_intake_rejected_signature", "policy_intake_rejected_scope_mismatch",
    "policy_intake_rejected_replay", "policy_intake_rejected_schema", "policy_decision_allow",
    "policy_decision_deny", "prompt_injection_detected_ml", "classifier_unconfigured",
    "classifier_degraded", "classifier_invocation_failed", "shadow_ai_detected_outbound",
    "recursive_injection_attempt", "judge_billing_event", "rate_limit_degraded",
    "rate_limit_recovered", "rate_limit_redis_error", "compliance_evidence_generated",
    "compliance_pack_exported", "admin_tenant_created", "admin_tenant_deactivated",
    "admin_key_minted", "admin_key_revoked", "admin_config_updated", "admin_audit_accessed",
    "operator_sso_login", "operator_sso_denied", "admin_breakglass_used", "idp_config_changed",
    "batch_submitted", "batch_file_processed", "batch_file_blocked", "batch_file_dead_lettered",
    "batch_completed", "code_scan_passed", "code_scan_warned", "code_scan_blocked",
    "code_scan_error", "field_locked", "field_unlocked", "lock_condition_denied",
    "data_lock_error", "shadow_ai_candidate_detected", "model_approved", "model_denied",
    "model_adopted", "webhook_delivered", "webhook_delivery_failed", "webhook_config_updated",
    "model_retirement_scheduled", "model_retirement_cancelled"]

def actionTakenByEventType : List (String × List String) :=
  [("pii_blocked", ["masked", "tokenized", "blocked"]),
    ("injection_detected", ["blocked", "logged"]),
    ("secret_leaked", ["masked", "tokenized", "blocked"]),
    ("policy_violated", ["blocked", "throttled", "warned"]),
    ("routing_decision", ["routed", "blocked", "failed_over"]),
    ("policy_intake_accepted", ["logged"]), ("policy_intake_rejected_signature", ["blocked"]),
    ("policy_intake_rejected_scope_mismatch", ["blocked"]),
    ("policy_intake_rejected_replay", ["blocked"]), ("policy_intake_rejected_schema", ["blocked"]),
    ("policy_decision_allow", ["logged"]), ("policy_decision_deny", ["blocked"]),
    ("prompt_injection_detected_ml", ["blocked", "logged"]),
    ("classifier_unconfigured", ["logged"]), ("classifier_degraded", ["logged"]),
    ("classifier_invocation_failed", ["logged"]), ("shadow_ai_detected_outbound", ["logged"]),
    ("recursive_injection_attempt", ["blocked", "logged"]), ("judge_billing_event", ["logged"]),
    ("rate_limit_degraded", ["logged"]), ("rate_limit_recovered", ["logged"]),
    ("rate_limit_redis_error", ["logged"]), ("compliance_evidence_generated", ["logged"]),
    ("compliance_pack_exported", ["logged"]), ("admin_tenant_created", ["logged"]),
    ("admin_tenant_deactivated", ["logged"]), ("admin_key_minted", ["logged"]),
    ("admin_key_revoked", ["logged"]), ("admin_config_updated", ["logged"]),
    ("admin_audit_accessed", ["logged"]), ("operator_sso_login", ["logged"]),
    ("operator_sso_denied", ["blocked"]), ("admin_breakglass_used", ["logged"]),
    ("idp_config_changed", ["logged"]), ("batch_submitted", ["logged"]),
    ("batch_file_processed", ["logged"]), ("batch_file_blocked", ["blocked"]),
    ("batch_file_dead_lettered", ["logged"]), ("batch_completed", ["logged"]),
    ("code_scan_passed", ["logged"]), ("code_scan_warned", ["logged"]),
    ("code_scan_blocked", ["blocked"]), ("code_scan_error", ["logged"]),
    ("field_locked", ["blocked"]), ("field_unlocked", ["logged"]),
    ("lock_condition_denied", ["blocked"]), ("data_lock_error", ["blocked"]),
    ("shadow_ai_candidate_detected", ["logged"]), ("model_approved", ["logged"]),
    ("model_denied", ["logged"]), ("model_adopted", ["logged"]),
    ("webhook_delivered", ["delivered"]), ("webhook_delivery_failed", ["failed"]),
    ("webhook_config_updated", ["logged"]), ("model_retirement_scheduled", ["logged"]),
    ("model_retirement_cancelled", ["logged"])]

/-- A column of the table. -/
structure Column where
  name : String
  type : ColumnType
  nullable : Bool

/-- The columns, without the sequence number and the two hashes. -/
def columns : List Column :=
  [⟨"event_id", .string 64, false⟩, ⟨"event_type", .string 64, false⟩,
    ⟨"event_timestamp", .string 64, false⟩, ⟨"request_id", .string 64, false⟩,
    ⟨"tenant_id", .string 64, false⟩, ⟨"team_id", .string 64, false⟩,
    ⟨"project_id", .string 64, false⟩, ⟨"agent_id", .string 64, false⟩,
    ⟨"model", .string 256, true⟩, ⟨"tokens_in", .integer 64, true⟩,
    ⟨"tokens_out", .integer 64, true⟩, ⟨"latency_ms", .integer 64, true⟩,
    ⟨"cost_estimate_cents", .numeric 20 6, true⟩, ⟨"pattern_name", .string 128, true⟩,
    ⟨"severity", .string 32, true⟩, ⟨"action_taken", .string 64, true⟩,
    ⟨"classifier_score", .numeric 5 4, true⟩, ⟨"rule_matched", .string 128, true⟩,
    ⟨"secret_type", .string 64, true⟩, ⟨"direction", .string 16, true⟩,
    ⟨"policy_id", .string 64, true⟩, ⟨"violation_type", .string 128, true⟩,
    ⟨"framework", .string 32, true⟩, ⟨"control_id", .string 64, true⟩, ⟨"status", .string 32, true⟩,
    ⟨"detected_endpoint", .string 256, true⟩, ⟨"traffic_volume", .integer 64, true⟩,
    ⟨"first_seen_at", .string 64, true⟩, ⟨"selected_provider", .string 16, true⟩,
    ⟨"routing_reason", .string 64, true⟩, ⟨"outcome", .string 32, true⟩,
    ⟨"attempt_index", .integer 64, true⟩, ⟨"requested_model", .string 256, true⟩,
    ⟨"judge_score", .numeric 4 3, true⟩, ⟨"judge_confidence", .numeric 4 3, true⟩,
    ⟨"final_score", .numeric 4 3, true⟩, ⟨"judge_model", .string 64, true⟩,
    ⟨"judge_preset", .string 64, true⟩, ⟨"judge_outcome", .string 16, true⟩,
    ⟨"audit_mode", .string 16, true⟩, ⟨"classifier_reason", .string 64, true⟩,
    ⟨"actor_id", .string 64, true⟩, ⟨"confidence_band", .string 16, true⟩,
    ⟨"fired_signals", .string 128, true⟩, ⟨"candidate_key", .string 64, true⟩,
    ⟨"webhook_provider", .string 16, true⟩, ⟨"delivery_attempts", .integer 16, true⟩,
    ⟨"failure_class", .string 32, true⟩, ⟨"config_action", .string 16, true⟩]

/-- What a CHECK constraint asks of a column that is not null. -/
inductive Check
  | oneOf (values : List String)
  | between (low high : Int)

/-- The CHECK constraints, by their columns. -/
def checkConstraints : List (String × Check) :=
  [("event_type", .oneOf validEventTypes), ("tokens_in", .between 0 10000000),
    ("tokens_out", .between 0 10000000), ("latency_ms", .between 0 3600000),
    ("classifier_score", .between 0 1), ("traffic_volume", .between 0 1000000000),
    ("severity", .oneOf ["low", "medium", "high", "critical"]),
    ("secret_type", .oneOf ["api_key", "token", "private_key", "credential"]),
    ("direction", .oneOf ["inbound", "outbound"]),
    ("framework", .oneOf ["SOC2", "GDPR", "HIPAA", "EU_AI_ACT"]),
    ("status", .oneOf ["passed", "failed", "not_applicable"]),
    ("action_taken", .oneOf ["masked", "tokenized", "blocked", "logged", "throttled", "warned",
      "routed", "failed_over", "delivered", "failed"]),
    ("selected_provider", .oneOf ["openai", "anthropic", "bedrock"]),
    ("outcome", .oneOf ["selected", "allowlist_denied", "cost_blocked", "fallback_attempted",
      "exhausted"]),
    ("attempt_index", .between 0 16), ("judge_score", .between 0 1),
    ("judge_confidence", .between 0 1), ("final_score", .between 0 1),
    ("audit_mode", .oneOf ["full", "redacted"]),
    ("judge_outcome", .oneOf ["verdict", "degraded", "failed", "policy_denied"]),
    ("confidence_band", .oneOf ["low", "medium", "high"]),
    ("webhook_provider", .oneOf ["slack", "jira", "splunk"]), ("delivery_attempts", .between 1 100),
    ("failure_class", .oneOf ["url_guard_rejected", "transport_error", "http_error", "dead_lettered"]),
    ("config_action", .oneOf ["created", "updated", "deleted"])]

/-- A NaN is greater than every number. -/
def Check.passes : Check → Cell → Bool
  | _, .null => true
  | .oneOf values, .text s => s ∈ values
  | .between low high, .integer n => low ≤ n && n ≤ high
  | .between low high, .number (.finite q) => low ≤ q && q ≤ high
  | _, _ => false

/-- A row, under its `sequence_number`. -/
structure EventsAuditLog where
  cells : List (String × Cell)
  prevHash : String
  rowHash : String

/-- What a column of the row holds. -/
def EventsAuditLog.cell (row : EventsAuditLog) (name : String) : Cell :=
  (row.cells.lookup name).getD .null

/-- The table with its lock. -/
abbrev AuditDb := LockedLog EventsAuditLog Int

/-- Every row of the table. -/
def allRows (_ : Unit) (_ : EventsAuditLog) : Bool := true

/-- The rows, `ORDER BY sequence_number`. -/
def rows (t : Txn) (d : AuditDb) : List (Nat × EventsAuditLog) :=
  d.rowsOf (d.table.visible t) (allRows ())

/-! ## the session -/

/-- `current_user` and `app.session_kind` -/
structure Session where
  currentUser : Option String
  sessionKind : Option String

inductive AuditError
  | privilegedSessionRequired (message : String)
  | auditLogAppend (message : String)
  | valueError (message : String)
  | typeError
  | refused

def sentinelAppRole : String := "sentinel_app"

section Repository

variable {F : Type} [Numerals F] (sha256 : ByteArray → String) (pyRepr : Value F → String)

/-- `repr()` of a text or of `None` -/
def textRepr (text : Option String) : String := pyRepr (text.elim .null .str)

/-- `repr(sorted(…))` of texts -/
def sortedRepr (texts : List String) : String :=
  pyRepr (.arr ((texts.insertionSort (· ≤ ·)).map .str))

def assertPrivilegedSession (session : Session) : Except AuditError Unit :=
  if session.currentUser = some sentinelAppRole then
    .error (.privilegedSessionRequired s!"Chain operation (append / _get_tip_hash / validate_chain) must run on the privileged session (get_privileged_session()). The current Postgres role is {textRepr pyRepr session.currentUser} (the non-privileged sentinel_app role). Running chain ops on a tenant session would truncate the visible rows to one tenant's subset and fork or corrupt the global hash chain. HINT: the GUC app.current_tenant_id is irrelevant to this check — clearing or unsetting the GUC does NOT grant chain-op access.")
  else if session.sessionKind ≠ some "privileged" then
    .error (.privilegedSessionRequired s!"Chain operation requires a session opened via get_privileged_session(). The app.session_kind marker is not 'privileged' on this connection (got {textRepr pyRepr session.sessionKind}). This is the secondary defense-in-depth check. Ensure AuditLogRepository is constructed with a session from get_privileged_session(), not get_tenant_session().")
  else .ok ()

/-! ## appending -/

def requiredFields : List String :=
  ["event_id", "event_type", "event_timestamp", "request_id", "tenant_id", "team_id", "project_id",
    "agent_id"]

/-- The check of `action_taken`. -/
def validateActionTaken (event : List (String × Value F)) (eventType : String) (allowed : List String) :
    Except AuditError Unit :=
  match get event "action_taken" with
  | .null => .error (.auditLogAppend s!"action_taken is required for event_type={pyRepr (.str eventType)}")
  | .arr _ | .obj _ => .error .typeError
  | actionTaken =>
      if allowed.any fun a => isStr a actionTaken then .ok ()
      else .error (.auditLogAppend s!"Invalid action_taken={pyRepr actionTaken} for event_type={pyRepr (.str eventType)}. Allowed: {sortedRepr pyRepr allowed}")
where
  isStr (a : String) : Value F → Bool
    | .str s => s = a
    | _ => false

/-- `_validate_event_data`; a list or a dictionary cannot be looked up in a set. -/
def validateEventData (event : List (String × Value F)) : Except AuditError Unit :=
  let missing := requiredFields.filter fun key => (getItem key event).isNone
  if missing ≠ [] then
    .error (.auditLogAppend s!"Missing required event fields: {sortedRepr pyRepr missing}")
  else
    match get event "event_type" with
    | .arr _ | .obj _ => .error .typeError
    | .str eventType =>
        if eventType ∈ validEventTypes then
          match actionTakenByEventType.lookup eventType with
          | none => .ok ()
          | some allowed => validateActionTaken pyRepr event eventType allowed
        else unknown (.str eventType)
    | eventType => unknown eventType
where
  unknown (eventType : Value F) : Except AuditError Unit :=
    .error (.auditLogAppend s!"Unknown event_type: {pyRepr eventType}. Valid types: {sortedRepr pyRepr validEventTypes}")

/-- `_get_tip_hash_unchecked` -/
def tipHash (t : Txn) (d : AuditDb) : String :=
  match (rows t d).getLast? with
  | none => genesisHash sha256
  | some row => row.2.rowHash

/-- The columns that `append` sets from the dictionary. -/
def appendedFields : List String :=
  ["event_id", "event_type", "event_timestamp", "request_id", "tenant_id", "team_id",
    "project_id", "agent_id", "model", "tokens_in", "tokens_out", "latency_ms",
    "cost_estimate_cents", "pattern_name", "severity", "action_taken", "classifier_score",
    "rule_matched", "secret_type", "direction", "policy_id", "violation_type", "framework",
    "control_id", "status", "detected_endpoint", "traffic_volume", "first_seen_at",
    "selected_provider", "routing_reason", "outcome", "attempt_index", "requested_model",
    "judge_score", "judge_confidence", "final_score", "judge_model", "judge_preset",
    "judge_outcome", "audit_mode", "classifier_reason", "actor_id", "confidence_band",
    "fired_signals", "candidate_key", "webhook_provider", "delivery_attempts", "failure_class",
    "config_action"]

/-- What the INSERT binds to a column. -/
def bound (rowData : List (String × Value F)) (name : String) : Value F :=
  if name ∈ appendedFields then get rowData name else .null

/-- What a column stores, if NOT NULL and its CHECK let it. -/
def Column.store (rowData : List (String × Value F)) (column : Column) : Option Cell := do
  let cell ← column.type.store (bound rowData column.name)
  if cell = .null ∧ !column.nullable then none
  else if ((checkConstraints.lookup column.name).map fun check => check.passes cell) = some false then none
  else some cell

/-- The row as its columns store it. -/
def storeRow (rowData : List (String × Value F)) (prevHash rowHash : String) : Option EventsAuditLog := do
  let cells ← columns.mapM fun column => (column.store rowData).map fun cell => (column.name, cell)
  some ⟨cells, prevHash, rowHash⟩

/-- The INSERT of `flush`. -/
def insertEvent (rowData : List (String × Value F)) (prevHash rowHash : String) (t : Txn) (d : AuditDb) :
    Option (Except AuditError (Nat × EventsAuditLog) × AuditDb) :=
  match storeRow rowData prevHash rowHash with
  | none => some (.error .refused, d)
  | some row => some (.ok (d.nextSequence, row), d.insert t row)

def chainAdvisoryLockId : Int := 5347209814718263

def append (session : Session) (event : List (String × Value F)) :
    Prog AuditDb AuditError (Nat × EventsAuditLog) := do
  Prog.ofExcept (assertPrivilegedSession pyRepr session)
  Prog.ofExcept (validateEventData pyRepr event)
  Prog.exec (LockedLog.advisoryXactLock chainAdvisoryLockId)
  let prevHash ← Prog.query (tipHash sha256)
  let rowData := setItem "prev_hash" (.str prevHash) event
  let rowHash ← Prog.ofExcept ((computeRowHash sha256 rowData).mapError .valueError)
  Prog.checked (insertEvent rowData prevHash rowHash)

/-- One event after the other. -/
def appendEvents (session : Session) :
    List (List (String × Value F)) → Prog AuditDb AuditError (List (Nat × EventsAuditLog))
  | [] => pure []
  | event :: events => do
      let row ← append sha256 pyRepr session event
      let rows ← appendEvents session events
      pure (row :: rows)

/-- The events that one transaction appends. -/
structure AppendRequest (F : Type) where
  session : Session
  events : List (List (String × Value F))

/-- A transaction that appends events. -/
def appendAll (req : AppendRequest F) : Prog AuditDb AuditError (List (Nat × EventsAuditLog)) :=
  appendEvents sha256 pyRepr req.session req.events

/-! ## validating -/

structure ChainValidationResult where
  isValid : Bool
  rowsChecked : Nat
  firstMismatchSequence : Option Nat
  errorDetail : Option String

/-- The columns that are read back for the hash. -/
def hashDataFields : List String :=
  ["event_id", "event_type", "event_timestamp", "request_id", "tenant_id", "team_id",
    "project_id", "agent_id", "model", "tokens_in", "tokens_out", "latency_ms",
    "cost_estimate_cents", "pattern_name", "severity", "action_taken", "classifier_score",
    "rule_matched", "secret_type", "direction", "policy_id", "violation_type", "framework",
    "control_id", "status", "detected_endpoint", "traffic_volume", "first_seen_at",
    "selected_provider", "routing_reason", "outcome", "attempt_index", "requested_model",
    "judge_score", "judge_confidence", "final_score", "judge_model", "judge_preset",
    "judge_outcome", "audit_mode", "classifier_reason", "actor_id", "confidence_band",
    "fired_signals", "candidate_key", "webhook_provider", "failure_class", "config_action"]

def rowToHashData (row : EventsAuditLog) : List (String × Value F) :=
  hashDataFields.map (fun key => (key, (row.cell key).load)) ++ [("prev_hash", .str row.prevHash)]

/-- The loop of `validate_chain`. -/
def validateRows (expectedPrevHash : String) (checked : Nat) :
    List (Nat × EventsAuditLog) → Except AuditError ChainValidationResult
  | [] => .ok ⟨true, checked, none, none⟩
  | (sequenceNumber, row) :: rows =>
      if row.prevHash ≠ expectedPrevHash then
        .ok ⟨false, checked + 1, some sequenceNumber,
          some s!"prev_hash mismatch at sequence={sequenceNumber}: stored={pyRepr (.str row.prevHash)}, expected={pyRepr (.str expectedPrevHash)}"⟩
      else
        match computeRowHash sha256 (rowToHashData (F := F) row) with
        | .error message => .error (.valueError message)
        | .ok recomputed =>
            if row.rowHash ≠ recomputed then
              .ok ⟨false, checked + 1, some sequenceNumber,
                some s!"row_hash mismatch at sequence={sequenceNumber}: stored={pyRepr (.str row.rowHash)}, recomputed={pyRepr (.str recomputed)}"⟩
            else validateRows row.rowHash (checked + 1) rows

/-- `validate_chain`; an empty chain is reported only after a second look at the role. -/
def validateChain (session : Session) (t : Txn) (d : AuditDb) : Except AuditError ChainValidationResult := do
  assertPrivilegedSession pyRepr session
  let result ← validateRows sha256 pyRepr (genesisHash sha256) 0 (rows t d)
  if result.rowsChecked = 0 ∧ session.currentUser = some sentinelAppRole then
    .error (.privilegedSessionRequired "validate_chain() reached zero-rows result on a non-privileged session. Refusing to report is_valid=True over an RLS-truncated view. Use get_privileged_session() for chain validation.")
  else .ok result

end Repository

end Anoryx.Sentinel.AuditLog
