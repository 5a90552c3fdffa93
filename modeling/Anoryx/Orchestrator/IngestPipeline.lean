import Anoryx.Orchestrator.Envelope
import Anoryx.PyJson.Surrogates
import Anoryx.ReadCommitted.LockedLog
import Anoryx.ReadCommitted.Session

/-!
# Anoryx.Orchestrator.IngestPipeline

The Orchestrator's ingest pipeline (`pipeline/ingest_pipeline.py`,
`persistence/repositories.py`, and the tables of `persistence/models`).

A delivery runs up to three transactions, one after the other: the event with its forward
intent, the look-up that tells a duplicate from a conflict, and the link of the audit
chain, with a dead letter or without.  A crash may fall between them.

A row of `ingest_events` stands under its idempotency key and has no sequence number.
Everything that is raised and not caught is an error of the program; the UUIDs and the
clock that a delivery draws come with it.
-/

namespace Anoryx.Orchestrator

open ReadCommitted PyJson PgColumn

/-! ## reasons -/

inductive DeadLetterReason
  | unknownSchemaVersion
  | payloadSchemaInvalid
  | sourceIdentityMismatch
  | idempotencyConflict
  | maxAttemptsExceeded
deriving DecidableEq

def DeadLetterReason.text : DeadLetterReason → String
  | unknownSchemaVersion => "unknown_schema_version"
  | payloadSchemaInvalid => "payload_schema_invalid"
  | sourceIdentityMismatch => "source_identity_mismatch"
  | idempotencyConflict => "idempotency_conflict"
  | maxAttemptsExceeded => "max_attempts_exceeded"

inductive Disposition
  | accepted
  | deduped
  | deadLettered
deriving DecidableEq

def Disposition.text : Disposition → String
  | accepted => "accepted"
  | deduped => "deduped"
  | deadLettered => "dead_lettered"

/-- What may be raised. -/
inductive IngestError
  /-- a value that its column cannot hold, or that the driver cannot encode -/
  | data
  /-- `IntegrityError` -/
  | integrity
  /-- `new row violates row-level security policy` -/
  | rowLevelSecurity
  | unicodeEncode
  | keyError
  | attributeError
  | tenantContextRequired
deriving DecidableEq

/-- A value that is missing is an error. -/
def orRaise {α : Type} (e : IngestError) : Option α → Except IngestError α
  | none => .error e
  | some x => .ok x

theorem orRaise_eq_ok {α : Type} {e : IngestError} {x : Option α} {a : α} (h : orRaise e x = .ok a) : x = some a := by
  cases x with
  | none => cases h
  | some a' =>
      cases h
      rfl

/-! ## columns -/

/-- What `VARCHAR(length)` stores of a text that is bound to it. -/
def textColumn (length : Nat) (s : PyStr) : Option String := do
  let text ← s.encode
  if '\x00' ∈ text.toList then none else varchar length text

def nullableColumn (length : Nat) : Option PyStr → Option (Option String)
  | none => some none
  | some s => (textColumn length s).map some

section Jsonb

variable {F : Type} [FloatFormat F]

mutual

/-- No NUL, and no number that is none. -/
def storable : Value F → Bool
  | .float x => FloatFormat.repr x ∉ ["NaN".toList, "Infinity".toList, "-Infinity".toList]
  | .str s => '\x00' ∉ s.toList
  | .arr items => storableItems items
  | .obj members => storableMembers members
  | _ => true

def storableItems : List (Value F) → Bool
  | [] => true
  | v :: vs => storable v && storableItems vs

def storableMembers : List (String × Value F) → Bool
  | [] => true
  | (k, v) :: ms => '\x00' ∉ k.toList && storable v && storableMembers ms

end

/-- What `JSONB` stores of a value: what it reads in the text of `json.dumps`.  An integer that
`json.loads` read is never too long. -/
def jsonbColumn (v : PyValue F) : Option (Value F) := do
  let v ← v.joined.encode
  if storable v then some v else none

end Jsonb

/-! ## the fields that an event and its link have in common -/

/-- One thing for each of `_COMMON_FIELDS`. -/
structure CommonFields (α : Type) where
  eventId : α
  eventType : α
  eventTimestamp : α
  requestId : α
  tenantId : α
  teamId : α
  projectId : α
  agentId : α

namespace CommonFields

variable {α β : Type}

def map (f : α → β) (c : CommonFields α) : CommonFields β :=
  ⟨f c.eventId, f c.eventType, f c.eventTimestamp, f c.requestId, f c.tenantId, f c.teamId, f c.projectId,
    f c.agentId⟩

def mapM (f : α → Option β) (c : CommonFields α) : Option (CommonFields β) := do
  let eventId ← f c.eventId
  let eventType ← f c.eventType
  let eventTimestamp ← f c.eventTimestamp
  let requestId ← f c.requestId
  let tenantId ← f c.tenantId
  let teamId ← f c.teamId
  let projectId ← f c.projectId
  let agentId ← f c.agentId
  some ⟨eventId, eventType, eventTimestamp, requestId, tenantId, teamId, projectId, agentId⟩

end CommonFields

def commonFields : CommonFields String :=
  ⟨"event_id", "event_type", "event_timestamp", "request_id", "tenant_id", "team_id", "project_id", "agent_id"⟩

/-! ## the tables -/

variable {F : Type}

/-- A row of `ingest_events`, without its key. -/
structure IngestEvent (F : Type) where
  envelopeId : String
  sourceProduct : String
  sourceSequence : Int
  schemaVersion : Int
  occurredAt : String
  correlationId : String
  causationId : Option String
  common : CommonFields String
  payload : Value F
  contentHash : String

/-- A row of `forward_outbox`; its status is `pending`. -/
structure ForwardOutbox where
  tenantId : String
  eventId : String
  idempotencyKey : String

/-- A row of `dead_letter_queue`. -/
structure DeadLetterEntry (F : Type) where
  originalEnvelope : Value F
  reason : DeadLetterReason
  attemptCount : Int
  firstFailedAt : String
  eventType : String
  sourceProduct : String
  sourceSequence : Int
  tenantId : Option String

/-- The fields of a link that come from the envelope and the payload. -/
structure ChainFields (α : Type) where
  common : CommonFields (Option α)
  envelopeId : α
  idempotencyKey : α
  sourceProduct : α

/-- A row of `ingest_audit_log`; its `event_type` is the one of the envelope. -/
structure IngestAuditLog where
  fields : ChainFields String
  disposition : Disposition
  dlqReason : Option DeadLetterReason
  dlqId : Option String
  prevHash : String
  rowHash : String

/-- The database. -/
structure OrchestratorDb (F : Type) where
  /-- `ingest_events`, by `idempotency_key` -/
  events : Table String (IngestEvent F)
  /-- the unique index on `envelope_id` -/
  envelopeIds : Table String String
  /-- `forward_outbox`, by `id` -/
  outbox : Table String ForwardOutbox
  /-- `dead_letter_queue`, by `dlq_id` -/
  deadLetters : Table String (DeadLetterEntry F)
  chain : LockedLog IngestAuditLog Int
  /-- The event that a delivery has committed and not yet linked.  No statement reads it. -/
  unlinked : Txn → Option String

def OrchestratorDb.empty : OrchestratorDb F :=
  ⟨Table.empty, Table.empty, Table.empty, Table.empty, LockedLog.empty, fun _ => none⟩

instance : Database (OrchestratorDb F) where
  commit t d := ⟨d.events.commit t, d.envelopeIds.commit t, d.outbox.commit t, d.deadLetters.commit t,
    Database.commit t d.chain, d.unlinked⟩
  rollback t d := ⟨d.events.rollback t, d.envelopeIds.rollback t, d.outbox.rollback t, d.deadLetters.rollback t,
    Database.rollback t d.chain, d.unlinked⟩

/-! ## the rows and the tenant -/

/-- `tenant_event_content_hash`: the tenant sees its own rows. -/
def tenantEventContentHash (tenantId idempotencyKey : String) (t : Txn) (d : OrchestratorDb F) : Option String :=
  ((d.events.visible t idempotencyKey).filter fun event => event.common.tenantId = tenantId).map
    IngestEvent.contentHash

def privilegedEventContentHash (idempotencyKey : String) (t : Txn) (d : OrchestratorDb F) : Option String :=
  (d.events.visible t idempotencyKey).map IngestEvent.contentHash

/-- `insert_ingest_event`: `envelope_id` and `idempotency_key` are unique. -/
def insertIngestEvent (idempotencyKey : String) (event : IngestEvent F) (t : Txn) (d : OrchestratorDb F) :
    Option (Bool × OrchestratorDb F) :=
  match d.envelopeIds.insertOrIgnore t event.envelopeId idempotencyKey with
  | none => none
  | some (false, _) => some (false, d)
  | some (true, envelopeIds) =>
      match d.events.insertOrIgnore t idempotencyKey event with
      | none => none
      | some (false, _) => some (false, d)
      | some (true, events) => some (true, { d with events := events, envelopeIds := envelopeIds })

def insertForwardOutbox (id : String) (row : ForwardOutbox) (t : Txn) (d : OrchestratorDb F) :
    Option (Bool × OrchestratorDb F) :=
  (d.outbox.insertOrIgnore t id row).map fun p => (p.1, { d with outbox := p.2 })

def insertDeadLetter (dlqId : String) (row : DeadLetterEntry F) (t : Txn) (d : OrchestratorDb F) :
    Option (Bool × OrchestratorDb F) :=
  (d.deadLetters.insertOrIgnore t dlqId row).map fun p => (p.1, { d with deadLetters := p.2 })

/-- The commit of an event: its link is still to come. -/
def commitEvent (idempotencyKey : String) (t : Txn) (d : OrchestratorDb F) : Option (Unit × OrchestratorDb F) :=
  some ((), { Database.commit t d with unlinked := Function.update d.unlinked t (some idempotencyKey) })

/-- The commit of the link of an accepted event. -/
def commitLink (t : Txn) (d : OrchestratorDb F) : Option (Unit × OrchestratorDb F) :=
  some ((), { Database.commit t d with unlinked := Function.update d.unlinked t none })

/-! ## the audit chain -/

section Chain

variable (sha256 : ByteArray → String)

def genesisHash : String := sha256 "anoryx-orchestrator:ingest-audit:genesis:v1".toUTF8

/-- `None` or a text. -/
def nullableText : Option String → Value Empty
  | none => .null
  | some s => .str s

/-- `CANONICAL_FIELDS`, and `dlq_reason` and `dlq_id` when they are set. -/
def canonicalFields (row : IngestAuditLog) : List (String × Value Empty) :=
  [("event_id", nullableText row.fields.common.eventId), ("event_type", nullableText row.fields.common.eventType),
    ("event_timestamp", nullableText row.fields.common.eventTimestamp),
    ("request_id", nullableText row.fields.common.requestId), ("tenant_id", nullableText row.fields.common.tenantId),
    ("team_id", nullableText row.fields.common.teamId), ("project_id", nullableText row.fields.common.projectId),
    ("agent_id", nullableText row.fields.common.agentId), ("envelope_id", .str row.fields.envelopeId),
    ("idempotency_key", .str row.fields.idempotencyKey), ("source_product", .str row.fields.sourceProduct),
    ("disposition", .str row.disposition.text), ("prev_hash", .str row.prevHash)] ++
  (row.dlqReason.map fun reason => ("dlq_reason", .str reason.text)).toList ++
  (row.dlqId.map fun dlqId => ("dlq_id", .str dlqId)).toList

def computeRowHash (row : IngestAuditLog) : String :=
  sha256 (dumps ⟨false, false⟩ (Value.obj (canonicalFields row)).sortKeys).toUTF8

def chainTipHash (t : Txn) (d : OrchestratorDb F) : String :=
  match (d.chain.rowsOf (d.chain.table.visible t) fun _ => true).getLast? with
  | none => genesisHash sha256
  | some row => row.2.rowHash

namespace ChainFields

/-- A text that is encoded, or `None`. -/
def encodeNullable : Option PyStr → Option (Option String)
  | none => some none
  | some s => s.encode.map some

/-- The fields as they are hashed. -/
def encode (fields : ChainFields PyStr) : Option (ChainFields String) := do
  let common ← fields.common.mapM encodeNullable
  let envelopeId ← fields.envelopeId.encode
  let idempotencyKey ← fields.idempotencyKey.encode
  let sourceProduct ← fields.sourceProduct.encode
  some ⟨common, envelopeId, idempotencyKey, sourceProduct⟩

def store (fields : ChainFields PyStr) : Option (ChainFields String) := do
  let common ← fields.common.mapM (nullableColumn 64)
  let envelopeId ← textColumn 64 fields.envelopeId
  let idempotencyKey ← textColumn 128 fields.idempotencyKey
  let sourceProduct ← textColumn 32 fields.sourceProduct
  some ⟨common, envelopeId, idempotencyKey, sourceProduct⟩

end ChainFields

/-- `ck_ial_accepted_attribution` -/
def attributed (disposition : Disposition) (common : CommonFields (Option String)) : Bool :=
  disposition ≠ .accepted || (common.eventId.isSome && common.eventTimestamp.isSome && common.requestId.isSome &&
    common.tenantId.isSome && common.teamId.isSome && common.projectId.isSome && common.agentId.isSome)

/-- `_CHAIN_LOCK_KEY`, the first eight bytes of a digest -/
def chainLockKey : Int := 8662382778661502445

/-- `pg_advisory_xact_lock` -/
def chainLock (t : Txn) (d : OrchestratorDb F) : Option (Unit × OrchestratorDb F) :=
  (LockedLog.advisoryXactLock chainLockKey t d.chain).map fun p => ((), { d with chain := p.2 })

/-- The INSERT into `ingest_audit_log`. -/
def insertLink (row : IngestAuditLog) (t : Txn) (d : OrchestratorDb F) : Option (Unit × OrchestratorDb F) :=
  some ((), { d with chain := d.chain.insert t row })

/-- The row of a link, or what its hash or its INSERT raises. -/
def linkRow (fields : ChainFields PyStr) (disposition : Disposition) (dlqReason : Option DeadLetterReason)
    (dlqId : Option String) (prevHash : String) : Except IngestError IngestAuditLog := do
  let hashed ← orRaise .unicodeEncode fields.encode
  let rowHash := computeRowHash sha256 ⟨hashed, disposition, dlqReason, dlqId, prevHash, ""⟩
  let stored ← orRaise .data fields.store
  if attributed disposition stored.common then .ok ⟨stored, disposition, dlqReason, dlqId, prevHash, rowHash⟩
  else .error .integrity

def appendAuditLink (fields : ChainFields PyStr) (disposition : Disposition) (dlqReason : Option DeadLetterReason)
    (dlqId : Option String) : Prog (OrchestratorDb F) IngestError Unit := do
  Prog.exec chainLock
  let prevHash ← Prog.query (chainTipHash sha256)
  let row ← Prog.ofExcept (linkRow sha256 fields disposition dlqReason dlqId prevHash)
  Prog.exec (insertLink row)

end Chain

/-! ## the pipeline -/

/-- `ingest_peer_source_product` and `supported_schema_versions` -/
structure IngestSettings where
  ingestPeerSourceProduct : PyStr
  supportedSchemaVersions : List Int

/-- What `process_envelope` answers. -/
structure IngestResult where
  disposition : Disposition
  eventId : PyStr
  dlqReason : Option DeadLetterReason
  dlqId : Option String

/-- The tokens of `_persist_or_dedup`. -/
inductive PersistOutcome
  | accepted
  | deduped
  | idempotencyConflict
deriving DecidableEq

/-- `payload.get(field)` -/
def payloadItem (payload : PyValue F) (field : String) : Option (PyValue F) :=
  match payload with
  | .obj members => pyItem (PyStr.ofString field) members
  | _ => none

def commonFieldMaxlen : Nat := 64

/-- A field of `_extract_common`: a text that its column takes, or `None`. -/
def projected : Option (PyValue F) → Option PyStr
  | some (.str s) => if s.length ≤ commonFieldMaxlen ∧ 0 ∉ s.points then some s else none
  | _ => none

def extractCommon (payload : PyValue F) : CommonFields (Option PyStr) :=
  commonFields.map fun field => projected (payloadItem payload field)

/-- The white space of `str.strip`. -/
def isWhitespace (c : CodePoint) : Bool :=
  (0x09 ≤ c && c ≤ 0x0d) || (0x1c ≤ c && c ≤ 0x20) || c = 0x85 || c = 0xa0 || c = 0x1680 ||
    (0x2000 ≤ c && c ≤ 0x200a) || c = 0x2028 || c = 0x2029 || c = 0x202f || c = 0x205f || c = 0x3000

/-- The tenant of `get_tenant_session`. -/
def tenantContext (tenantId : PyStr) : Except IngestError String :=
  if tenantId.points.all isWhitespace then .error .tenantContextRequired
  else
    match tenantId.encode with
    | none => .error .data
    | some text => if '\x00' ∈ text.toList then .error .data else .ok text

section Pipeline

variable [Numerals F] {validator : Validator F}

def chainFields (envelope : Envelope validator) : ChainFields PyStr where
  common := { extractCommon envelope.payload with eventType := some (envelope.text "event_type") }
  envelopeId := envelope.text "envelope_id"
  idempotencyKey := envelope.text "idempotency_key"
  sourceProduct := envelope.text "source_product"

/-- The columns of an event, before any constraint of the table. -/
def eventColumns (envelope : Envelope validator) (contentHash : String) :
    Option (CommonFields (Option String) × (CommonFields String → IngestEvent F)) := do
  let envelopeId ← textColumn 64 (envelope.text "envelope_id")
  let sourceProduct ← textColumn 32 (envelope.text "source_product")
  let occurredAt ← textColumn 64 (envelope.text "occurred_at")
  let correlationId ← textColumn 128 (envelope.text "correlation_id")
  let causationId ← nullableColumn 128 ((envelope.get "causation_id").map fun _ => envelope.text "causation_id")
  let common ← (extractCommon envelope.payload).mapM (nullableColumn 64)
  let payload ← jsonbColumn envelope.payload
  some (common, fun common => ⟨envelopeId, sourceProduct, envelope.integer "sequence",
    envelope.integer "schema_version", occurredAt, correlationId, causationId, common, payload, contentHash⟩)

/-- The row that is inserted, or what its columns, the policy of the tenant and the
constraints of the table raise, in this order. -/
def ingestEventRow (tenantId : String) (envelope : Envelope validator) (contentHash : String) :
    Except IngestError (IngestEvent F) :=
  match eventColumns envelope contentHash with
  | none => .error .data
  | some (common, row) =>
      if common.tenantId ≠ some tenantId then .error .rowLevelSecurity
      else
        match common.mapM id with
        | none => .error .integrity
        | some common =>
            if 1 ≤ envelope.integer "schema_version" ∧ (row common).sourceProduct ∈ sourceProducts ∧
                0 ≤ envelope.integer "sequence" then .ok (row common)
            else .error .integrity

/-- The row of the forward intent. -/
def forwardOutboxRow (tenantId idempotencyKey : PyStr) : Option ForwardOutbox := do
  let tenantId ← textColumn 64 tenantId
  let eventId ← textColumn 64 idempotencyKey
  let idempotencyKey ← textColumn 128 idempotencyKey
  some ⟨tenantId, eventId, idempotencyKey⟩

def deadLetterRow (envelope : Envelope validator) (reason : DeadLetterReason) (firstFailedAt : String) :
    Option (DeadLetterEntry F) := do
  let originalEnvelope ← jsonbColumn envelope.value
  let eventType ← textColumn 64 (envelope.text "event_type")
  let sourceProduct ← textColumn 32 (envelope.text "source_product")
  let tenantId ← nullableColumn 64 (extractCommon envelope.payload).tenantId
  some ⟨originalEnvelope, reason, 1, firstFailedAt, eventType, sourceProduct, envelope.integer "sequence", tenantId⟩

variable (sha256 : ByteArray → String)

/-- `_content_hash` of a value whose texts can be encoded. -/
def hashOf (payload : Value F) : String := sha256 (dumps ⟨false, false⟩ payload.sortKeys).toUTF8

def contentHash (payload : PyValue F) : Except IngestError String :=
  orRaise .unicodeEncode (payload.encode.map (hashOf sha256))

/-- One call of `process_envelope`, with what it draws. -/
structure Delivery (validator : Validator F) where
  envelope : Envelope validator
  dlqId : String
  outboxId : String
  firstFailedAt : String

def deadLetter (delivery : Delivery validator) (reason : DeadLetterReason) :
    Prog (OrchestratorDb F) IngestError IngestResult := do
  let row ← Prog.ofExcept (orRaise .data (deadLetterRow delivery.envelope reason delivery.firstFailedAt))
  Prog.inserting .integrity (insertDeadLetter delivery.dlqId row)
  appendAuditLink sha256 (chainFields delivery.envelope) .deadLettered (some reason) (some delivery.dlqId)
  Prog.commitWork
  pure ⟨.deadLettered, delivery.envelope.text "idempotency_key", some reason, some delivery.dlqId⟩

/-- The `try` of `_persist_or_dedup` up to the commit: false is an `IntegrityError`. -/
def insertEvent (delivery : Delivery validator) (tenantId : PyStr) (tenant idempotencyKey contentHash : String) :
    Prog (OrchestratorDb F) IngestError Bool :=
  match ingestEventRow tenant delivery.envelope contentHash with
  | .error .integrity => pure false
  | .error e => Prog.raise e
  | .ok event => do
      let inserted ← Prog.exec (insertIngestEvent idempotencyKey event)
      if inserted then
        let row ← Prog.ofExcept (orRaise .data (forwardOutboxRow tenantId (delivery.envelope.text "idempotency_key")))
        Prog.exec (insertForwardOutbox delivery.outboxId row)
      else pure false

def persistOrDedup (delivery : Delivery validator) (tenantId : PyStr) (idempotencyKey contentHash : String) :
    Prog (OrchestratorDb F) IngestError PersistOutcome := do
  let tenant ← Prog.ofExcept (tenantContext tenantId)
  let existing ← Prog.query (tenantEventContentHash tenant idempotencyKey)
  match existing with
  | some existing => do
      Prog.rollbackWork
      pure (if existing = contentHash then .deduped else .idempotencyConflict)
  | none => do
      let inserted ← insertEvent delivery tenantId tenant idempotencyKey contentHash
      if inserted then do
        Prog.exec (commitEvent idempotencyKey)
        pure .accepted
      else do
        Prog.rollbackWork
        let other ← Prog.query (privilegedEventContentHash idempotencyKey)
        Prog.rollbackWork
        pure (if other = some contentHash then .deduped else .idempotencyConflict)

/-- The end of `process_envelope`: the answer to each token. -/
def concludeDelivery (delivery : Delivery validator) : PersistOutcome → Prog (OrchestratorDb F) IngestError IngestResult
  | .deduped => pure ⟨.deduped, delivery.envelope.text "idempotency_key", none, none⟩
  | .idempotencyConflict => deadLetter sha256 delivery .idempotencyConflict
  | .accepted => do
      appendAuditLink sha256 (chainFields delivery.envelope) .accepted none none
      Prog.exec commitLink
      pure ⟨.accepted, delivery.envelope.text "idempotency_key", none, none⟩

/-- The first check that an envelope fails. -/
def obligationFailure (settings : IngestSettings) (envelope : Envelope validator) : Option DeadLetterReason :=
  if envelope.integer "schema_version" ∉ settings.supportedSchemaVersions then some .unknownSchemaVersion
  else if !validator.payloadValid envelope.payload then some .payloadSchemaInvalid
  else if envelope.text "source_product" ≠ settings.ingestPeerSourceProduct then some .sourceIdentityMismatch
  else if !isStr (envelope.text "event_type") (payloadItem envelope.payload "event_type") then
    some .payloadSchemaInvalid
  else if !isStr (envelope.text "idempotency_key") (payloadItem envelope.payload "event_id") then
    some .payloadSchemaInvalid
  else none
where
  /-- The text `s`, and nothing else. -/
  isStr (s : PyStr) : Option (PyValue F) → Bool
    | some (.str s') => s = s'
    | _ => false

/-- `payload["tenant_id"]` -/
def payloadTenant (payload : PyValue F) : Except IngestError PyStr :=
  match payloadItem payload "tenant_id" with
  | none => .error .keyError
  | some (.str s) => .ok s
  | some _ => .error .attributeError

def processEnvelope (settings : IngestSettings) (delivery : Delivery validator) :
    Prog (OrchestratorDb F) IngestError IngestResult :=
  match obligationFailure settings delivery.envelope with
  | some reason => deadLetter sha256 delivery reason
  | none => do
      let tenantId ← Prog.ofExcept (payloadTenant delivery.envelope.payload)
      let contentHash ← Prog.ofExcept (contentHash sha256 delivery.envelope.payload)
      let idempotencyKey ← Prog.ofExcept (orRaise .data (delivery.envelope.text "idempotency_key").encode)
      let outcome ← persistOrDedup delivery tenantId idempotencyKey contentHash
      concludeDelivery sha256 delivery outcome

end Pipeline

end Anoryx.Orchestrator
