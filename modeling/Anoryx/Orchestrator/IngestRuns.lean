import Anoryx.Orchestrator.IngestInvariant

/-!
# Anoryx.Orchestrator.IngestRuns

Runs of deliveries: any number of them at a time, redelivered and cut off at any point.

* `ingest_exactly_once` — what an answer says is durable, and an accepted event is never
  replaced;
* `ingest_audit_links` — which accepted events have their link when all is quiet.
-/

namespace Anoryx.Orchestrator

open ReadCommitted PyJson PgColumn Logic Table

variable {F : Type} [Numerals F] {validator : Validator F}

/-! ## what an answer says -/

/-- The event under the key of the delivery has the hash of its content. -/
def Matched (sha256 : ByteArray → String) (delivery : Delivery validator) (d : OrchestratorDb F) : Prop :=
  ∃ key event payload, (delivery.envelope.text "idempotency_key").encode = some key ∧
    d.events.committed key = some event ∧ delivery.envelope.payload.encode = some payload ∧
    event.contentHash = hashOf sha256 payload

/-- The event under the key of the delivery has its content. -/
def Accepted (delivery : Delivery validator) (d : OrchestratorDb F) : Prop :=
  ∃ key event payload, (delivery.envelope.text "idempotency_key").encode = some key ∧
    d.events.committed key = some event ∧ delivery.envelope.payload.encode = some payload ∧ Same event.payload payload

/-- The dead letter of the delivery has its envelope, and this reason. -/
def DeadLettered (delivery : Delivery validator) (reason : DeadLetterReason) (d : OrchestratorDb F) : Prop :=
  ∃ row, d.deadLetters.committed delivery.dlqId = some row ∧ row.reason = reason ∧
    jsonbColumn delivery.envelope.value = some row.originalEnvelope

/-- The reason of a delivery that is not accepted: the first check that it fails, or a conflict. -/
def rejection (settings : IngestSettings) (delivery : Delivery validator) : DeadLetterReason :=
  (obligationFailure settings delivery.envelope).getD .idempotencyConflict

/-- What is durable once a delivery is answered. -/
structure Answered (sha256 : ByteArray → String) (settings : IngestSettings) (delivery : Delivery validator)
    (result : IngestResult) (d : OrchestratorDb F) : Prop where
  eventId : result.eventId = delivery.envelope.text "idempotency_key"
  matched : result.disposition ≠ .deadLettered → Matched sha256 delivery d
  deadLettered : result.disposition = .deadLettered → result.dlqReason = some (rejection settings delivery) ∧
    result.dlqId = some delivery.dlqId ∧ DeadLettered delivery (rejection settings delivery) d

variable {delivery : Delivery validator} {d d' d₁ d₂ d₃ : OrchestratorDb F} {reason : DeadLetterReason} {t : Txn}
  {fields : ChainFields PyStr} {disposition : Disposition} {dlqReason : Option DeadLetterReason}
  {dlqId key content : Option String} {prevHash firstFailedAt tenantId contentHash : String}

theorem Matched.grows {sha256 : ByteArray → String} (h : Matched sha256 delivery d)
    (hgrow : Grows d.events d'.events) : Matched sha256 delivery d' := by
  obtain ⟨key, event, payload, hkey, hevent, hpayload, hhash⟩ := h
  exact ⟨key, event, payload, hkey, hgrow key event hevent, hpayload, hhash⟩

theorem DeadLettered.grows (h : DeadLettered delivery reason d) (hgrow : Grows d.deadLetters d'.deadLetters) :
    DeadLettered delivery reason d' := by
  obtain ⟨row, hrow, hreason, henvelope⟩ := h
  exact ⟨row, hgrow _ row hrow, hreason, henvelope⟩

theorem Answered.grows {sha256 : ByteArray → String} {settings : IngestSettings} {result : IngestResult}
    (h : Answered sha256 settings delivery result d) (hevents : Grows d.events d'.events)
    (hletters : Grows d.deadLetters d'.deadLetters) : Answered sha256 settings delivery result d' := by
  refine ⟨h.eventId, fun hne => (h.matched hne).grows hevents, fun he => ?_⟩
  obtain ⟨hreason, hid, hdead⟩ := h.deadLettered he
  exact ⟨hreason, hid, hdead.grows hletters⟩

/-! ## the specification -/

variable (sha256 : ByteArray → String) (gaps : Set String) (settings : IngestSettings)

variable (validator) in
/-- The specification of the deliveries. -/
def ingestLogic : Logic (OrchestratorDb F) (Delivery validator) IngestResult where
  inv := Ingested sha256 gaps
  rely := IngestRely
  fresh t d := Unheld t d ∧ d.unlinked t = none
  post t delivery result d := Unheld t d ∧ d.unlinked t = none ∧ Answered sha256 settings delivery result d
  ensures t delivery result d := d.unlinked t = none ∧ Answered sha256 settings delivery result d
  undone _ _ := True

variable {sha256 gaps settings} in
theorem Keeps.logic (h : Keeps sha256 gaps t d d') :
    (ingestLogic validator sha256 gaps settings).Keeps t d d' := ⟨h.1, h.2⟩

/-- Everything but the chain is left alone, as others leave it. -/
structure Elsewhere (t : Txn) (d d' : OrchestratorDb F) : Prop where
  events : Frame t d.events d'.events
  outbox : Frame t d.outbox d'.outbox
  deadLetters : Frame t d.deadLetters d'.deadLetters
  eventsGrow : Grows d.events d'.events
  unlinked : d'.unlinked t = d.unlinked t

omit [Numerals F] in
theorem IngestRely.elsewhere (h : IngestRely t d d') : Elsewhere t d d' :=
  ⟨h.events, h.outbox, h.deadLetters, h.eventsGrow, h.unlinked⟩

omit [Numerals F] in
theorem Elsewhere.trans (h : Elsewhere t d₁ d₂) (h' : Elsewhere t d₂ d₃) : Elsewhere t d₁ d₃ :=
  ⟨h.events.trans h'.events, h.outbox.trans h'.outbox, h.deadLetters.trans h'.deadLetters,
    h.eventsGrow.trans h'.eventsGrow, h'.unlinked.trans h.unlinked⟩

/-! ## the link -/

section Programs

variable {sha256 gaps settings} {t : Txn} {d : OrchestratorDb F}

omit [Numerals F] in
theorem linkRow_eq_ok {row : IngestAuditLog}
    (h : linkRow sha256 fields disposition dlqReason dlqId prevHash = .ok row) :
    fields.store = some row.fields ∧ row.disposition = disposition := by
  unfold linkRow at h
  cases hencode : fields.encode with
  | none =>
      rw [hencode] at h
      contradiction
  | some hashed =>
      cases hstore : fields.store with
      | none =>
          rw [hencode, hstore] at h
          contradiction
      | some stored =>
          rw [hencode, hstore] at h
          simp only [orRaise, bind, Except.bind] at h
          split at h
          · cases h
            exact ⟨rfl, rfl⟩
          · contradiction

theorem wp_appendAuditLink (hheld : d.chain.table.Unheld t)
    (howed : ∀ row key, fields.store = some row.fields → row.disposition = disposition →
      isAccepted key row = true → d.unlinked t = some key) :
    (ingestLogic validator sha256 gaps settings).wp t (fun _ d' => Elsewhere t d d' ∧
      ∃ n row, d'.chain.table.HoldsOnly t n row ∧ fields.store = some row.fields ∧ row.disposition = disposition)
      (appendAuditLink sha256 fields disposition dlqReason dlqId) d := by
  refine wp_exec_bind fun d₁ h₁ hr₁ _ d₂ hlock _ => ?_
  obtain ⟨hkeeps, hmine, htable, hevents, houtbox, hletters, hunlinked⟩ := h₁.chainLock hlock
  have helsewhere₂ : Elsewhere t d d₂ := by
    have h := hr₁.elsewhere
    exact ⟨hevents ▸ h.events, houtbox ▸ h.outbox, hletters ▸ h.deadLetters, hevents ▸ h.eventsGrow, hunlinked ▸ h.unlinked⟩
  refine ⟨hkeeps.logic, wp_query_bind IngestRely.refl fun d₃ h₃ hr₃ => ?_⟩
  refine wp_ofExcept_bind fun row hrow => ?_
  obtain ⟨hstore, hdisposition⟩ := linkRow_eq_ok hrow
  intro d₄ h₄ hr₄ x d₅ hins _
  obtain ⟨-, rfl⟩ := Prod.mk.inj (Option.some.inj hins)
  have helsewhere₄ := (helsewhere₂.trans hr₃.elsewhere).trans hr₄.elsewhere
  have hheld₄ : d₄.chain.table.Unheld t := by
    have hheld₂ : d₂.chain.table.Unheld t := htable ▸ hheld.frame hr₁.chain
    exact (hheld₂.frame hr₃.chain).frame hr₄.chain
  have hlock₄ : d₄.chain.locks chainLockKey = some t := hr₄.locks _ (hr₃.locks _ hmine)
  obtain ⟨hkeeps₅, honly⟩ := h₄.insertLink hlock₄ hheld₄ fun key hacc => by
    rw [helsewhere₄.unlinked]
    exact howed row key hstore hdisposition hacc
  refine ⟨hkeeps₅.logic, fun d₆ h₆ hr₆ => ?_⟩
  exact ⟨⟨(helsewhere₄.events).trans hr₆.events, helsewhere₄.outbox.trans hr₆.outbox,
    helsewhere₄.deadLetters.trans hr₆.deadLetters, helsewhere₄.eventsGrow.trans hr₆.eventsGrow,
    hr₆.unlinked.trans helsewhere₄.unlinked⟩, _, row, honly.frame hr₆.chain, hstore, hdisposition⟩

/-! ## the dead letter -/

variable {envelope : Envelope validator}

theorem deadLetterRow_eq_some {row : DeadLetterEntry F} (h : deadLetterRow envelope reason firstFailedAt = some row) :
    row.reason = reason ∧ jsonbColumn envelope.value = some row.originalEnvelope := by
  unfold deadLetterRow at h
  obtain ⟨originalEnvelope, henvelope, h⟩ := Option.bind_eq_some_iff.mp h
  obtain ⟨eventType, -, h⟩ := Option.bind_eq_some_iff.mp h
  obtain ⟨sourceProduct, -, h⟩ := Option.bind_eq_some_iff.mp h
  obtain ⟨tenantId, -, h⟩ := Option.bind_eq_some_iff.mp h
  cases h
  exact ⟨rfl, henvelope⟩

theorem wp_orRaise_bind {α γ : Type} {L : Logic (OrchestratorDb F) (Delivery validator) IngestResult}
    {Q : γ → OrchestratorDb F → Prop} {e : IngestError} {x : Option α}
    {k : α → Prog (OrchestratorDb F) IngestError γ} (h : ∀ a, x = some a → L.wp t Q (k a) d) :
    L.wp t Q (Prog.ofExcept (orRaise e x) >>= k) d := by
  refine wp_ofExcept_bind fun a ha => ?_
  cases x with
  | none => cases ha
  | some b => exact h a (congrArg some (Except.ok.inj ha))

variable {delivery : Delivery validator}

/-- A rejected delivery leaves a dead letter and no event. -/
theorem wp_deadLetter (hheld : Unheld t d) (hunlinked : d.unlinked t = none)
    (hreason : reason = rejection settings delivery) :
    (ingestLogic validator sha256 gaps settings).wp t (fun result d' => Unheld t d' ∧ d'.unlinked t = none ∧
      Answered sha256 settings delivery result d') (deadLetter sha256 delivery reason) d := by
  refine wp_orRaise_bind fun row hrow => ?_
  obtain ⟨hrowReason, henvelope⟩ := deadLetterRow_eq_some hrow
  refine wp_inserting_bind fun d₁ h₁ hr₁ b d₂ hins _ => ?_
  obtain ⟨hkeeps₂, hinserted⟩ := h₁.insertDeadLetter (hheld.rely hr₁) hins
  refine ⟨hkeeps₂.logic, fun hb => ?_⟩
  obtain ⟨hletter₂, hevents₂, houtbox₂, hchain₂, hunlinked₂⟩ := hinserted hb
  refine wp_bind (IngestRely.refl t) hkeeps₂.1 ?_
  refine wp_mono (fun _ d₃ h₃ hpost => ?_) (wp_appendAuditLink hchain₂ fun row' key _ hdisposition hacc => ?_)
  · obtain ⟨helse₃, n, link, hlink, -, hdisposition⟩ := hpost
    refine wp_commitWork_bind fun d₄ h₄ hr₄ => ?_
    have hletter₄ : d₄.deadLetters.HoldsOnly t delivery.dlqId row :=
      (hletter₂.frame helse₃.deadLetters).frame hr₄.deadLetters
    have hlinks : ∀ n' row' key, d₄.chain.table.inflight n' = some (t, row') → isAccepted key row' = false := by
      intro n' row' key hin
      obtain ⟨-, rfl⟩ := (hlink.frame hr₄.chain).unique hin
      simp [isAccepted, hdisposition]
    have hkeeps₄ := h₄.commit ((hevents₂.frame helse₃.events).frame hr₄.events)
      ((houtbox₂.frame helse₃.outbox).frame hr₄.outbox) hlinks
    refine ⟨hkeeps₄.logic, fun d₅ h₅ hr₅ => ?_⟩
    have hunlinked₅ : d₅.unlinked t = none := by
      rw [hr₅.unlinked]
      show d₄.unlinked t = none
      rw [hr₄.unlinked, helse₃.unlinked, hunlinked₂, hr₁.unlinked, hunlinked]
    have hdead : DeadLettered delivery reason (Database.commit t d₄) :=
      ⟨row, (hletter₄.committed_commit delivery.dlqId).trans (if_pos rfl), hrowReason, henvelope⟩
    refine ⟨(unheld_commit t d₄ d₄.unlinked).rely hr₅, hunlinked₅, rfl, fun hne => absurd rfl hne, fun _ => ?_⟩
    rw [← hreason]
    exact ⟨rfl, rfl, hdead.grows hr₅.deadLettersGrow⟩
  · simp [isAccepted, hdisposition] at hacc

/-! ## the event -/

variable {payload : Value F}

theorem ingestEventRow_eq_ok {event : IngestEvent F} (hpayload : envelope.payload.encode = some payload)
    (h : ingestEventRow tenantId envelope contentHash = .ok event) :
    event.contentHash = contentHash ∧ envelope.payload.encode = some event.payload := by
  have hcolumns : ∀ {common row}, eventColumns envelope contentHash = some (common, row) → ∀ c,
      (row c).contentHash = contentHash ∧ envelope.payload.encode = some (row c).payload := by
    intro common row hrow c
    unfold eventColumns at hrow
    obtain ⟨envelopeId, -, hrow⟩ := Option.bind_eq_some_iff.mp hrow
    obtain ⟨sourceProduct, -, hrow⟩ := Option.bind_eq_some_iff.mp hrow
    obtain ⟨occurredAt, -, hrow⟩ := Option.bind_eq_some_iff.mp hrow
    obtain ⟨correlationId, -, hrow⟩ := Option.bind_eq_some_iff.mp hrow
    obtain ⟨causationId, -, hrow⟩ := Option.bind_eq_some_iff.mp hrow
    obtain ⟨common', -, hrow⟩ := Option.bind_eq_some_iff.mp hrow
    obtain ⟨stored, hstored, hrow⟩ := Option.bind_eq_some_iff.mp hrow
    cases hrow
    unfold jsonbColumn at hstored
    rw [PyValue.joined_eq_self envelope.payload payload hpayload] at hstored
    obtain ⟨payload', hencode, hstored⟩ := Option.bind_eq_some_iff.mp hstored
    refine ⟨rfl, ?_⟩
    rw [hencode]
    split at hstored
    · exact hstored
    · contradiction
  unfold ingestEventRow at h
  split at h
  · contradiction
  · next common row hrow =>
      split at h
      · contradiction
      · split at h
        · contradiction
        · next common' _ =>
            split at h
            · cases h
              exact hcolumns hrow common'
            · contradiction

theorem forwardOutboxRow_eq_some {tenantId idempotencyKey : PyStr} {row : ForwardOutbox}
    (h : forwardOutboxRow tenantId idempotencyKey = some row) (hlength : idempotencyKey.length ≤ 128) :
    idempotencyKey.encode = some row.idempotencyKey := by
  unfold forwardOutboxRow at h
  obtain ⟨tenantId', -, h⟩ := Option.bind_eq_some_iff.mp h
  obtain ⟨eventId, -, h⟩ := Option.bind_eq_some_iff.mp h
  obtain ⟨key, hkey, h⟩ := Option.bind_eq_some_iff.mp h
  cases h
  exact textColumn_eq_some hkey hlength

/-- The event and its intent are in flight, or an index has refused one of them. -/
structure Inserted (sha256 : ByteArray → String) (t : Txn) (delivery : Delivery validator) (key : String) (inserted : Bool) (d : OrchestratorDb F) :
    Prop where
  unlinked : d.unlinked t = none
  rows : inserted = true → d.deadLetters.Unheld t ∧ d.chain.table.Unheld t ∧
    ∃ event id row, d.events.HoldsOnly t key event ∧ d.outbox.HoldsOnly t id row ∧ row.idempotencyKey = key ∧
      delivery.envelope.payload.encode = some event.payload ∧ event.Hashed sha256

variable {key : String}

theorem not_inserted (hunlinked : d.unlinked t = none) :
    Inserted sha256 t delivery key false d :=
  ⟨hunlinked, fun hb => absurd hb Bool.false_ne_true⟩

/-- A new event gets its row, its intent and its link. -/
theorem wp_insertEvent {tenantId : PyStr} {tenant key hash : String}
    (hheld : Unheld t d) (hunlinked : d.unlinked t = none)
    (hkey : (delivery.envelope.text "idempotency_key").encode = some key)
    (hpayload : delivery.envelope.payload.encode = some payload) (hhash : hash = hashOf sha256 payload) :
    (ingestLogic validator sha256 gaps settings).wp t (fun inserted d' => Inserted sha256 t delivery key inserted d')
      (insertEvent delivery tenantId tenant key hash) d := by
  unfold insertEvent
  split
  · intro d₁ h₁ hr₁
    exact not_inserted (hr₁.unlinked.trans hunlinked)
  · trivial
  · next event hevent =>
      obtain ⟨heventHash, hevent⟩ := ingestEventRow_eq_ok hpayload hevent
      rw [hpayload] at hevent
      obtain rfl := Option.some.inj hevent
      have hhashed : event.Hashed sha256 :=
        ⟨delivery.envelope.distinct_payload.encode _ _ hpayload, heventHash.trans hhash⟩
      refine wp_exec_bind fun d₁ h₁ hr₁ inserted d₂ hins _ => ?_
      obtain ⟨hkeeps₂, hrefused, hinserted⟩ := h₁.insertIngestEvent hhashed (hheld.rely hr₁) hins
      refine ⟨hkeeps₂.logic, ?_⟩
      cases inserted with
      | false =>
          obtain rfl := hrefused rfl
          intro d₃ h₃ hr₃
          exact not_inserted (hr₃.unlinked.trans (hr₁.unlinked.trans hunlinked))
      | true =>
          obtain ⟨hevent₂, houtbox₂, hletters₂, hchain₂, hunlinked₂⟩ := hinserted rfl
          rw [if_pos rfl]
          refine wp_orRaise_bind fun row hrow => ?_
          have hrowKey : row.idempotencyKey = key :=
            Option.some.inj ((forwardOutboxRow_eq_some hrow delivery.envelope.length_idempotencyKey).symm.trans hkey)
          intro d₃ h₃ hr₃ inserted d₄ hins₄ _
          obtain ⟨hkeeps₄, hrefused₄, hinserted₄⟩ := h₃.insertForwardOutbox (houtbox₂.frame hr₃.outbox) hins₄
          have hunlinked₃ : d₃.unlinked t = none := by
            rw [hr₃.unlinked, hunlinked₂, hr₁.unlinked, hunlinked]
          refine ⟨hkeeps₄.logic, fun d₅ h₅ hr₅ => ?_⟩
          cases inserted with
          | false =>
              obtain rfl := hrefused₄ rfl
              exact not_inserted (hr₅.unlinked.trans hunlinked₃)
          | true =>
              obtain ⟨hrow₄, hevents₄, hletters₄, hchain₄, hunlinked₄⟩ := hinserted₄ rfl
              have hunlinked₅ : d₅.unlinked t = none := by
                rw [hr₅.unlinked, hunlinked₄, hunlinked₃]
              have hevent₄ : d₄.events.HoldsOnly t key event := by
                rw [hevents₄]
                exact hevent₂.frame hr₃.events
              have hletters₅ : d₅.deadLetters.Unheld t := by
                have h := hletters₂.frame hr₃.deadLetters
                rw [← hletters₄] at h
                exact h.frame hr₅.deadLetters
              have hchain₅ : d₅.chain.table.Unheld t := by
                have h := hchain₂.frame hr₃.chain
                rw [← hchain₄] at h
                exact h.frame hr₅.chain
              exact ⟨hunlinked₅, fun _ => ⟨hletters₅, hchain₅, event, delivery.outboxId, row, hevent₄.frame hr₅.events,
                hrow₄.frame hr₅.outbox, hrowKey, hpayload, hhashed⟩⟩

/-! ## one delivery -/

/-- Where a delivery stands after `_persist_or_dedup`. -/
structure Persisted (sha256 : ByteArray → String) (t : Txn) (delivery : Delivery validator) (key : String) (outcome : PersistOutcome)
    (d : OrchestratorDb F) : Prop where
  unheld : Unheld t d
  owed : outcome = .accepted → d.unlinked t = some key
  unlinked : outcome ≠ .accepted → d.unlinked t = none
  matched : outcome ≠ .idempotencyConflict → Matched sha256 delivery d

theorem Persisted.rely {outcome : PersistOutcome} (h : Persisted sha256 t delivery key outcome d)
    (hr : IngestRely t d d') : Persisted sha256 t delivery key outcome d' :=
  ⟨h.unheld.rely hr, fun ho => hr.unlinked.trans (h.owed ho), fun ho => hr.unlinked.trans (h.unlinked ho),
    fun ho => (h.matched ho).grows hr.eventsGrow⟩

theorem persisted_found {key hash : String}
    (hkey : (delivery.envelope.text "idempotency_key").encode = some key)
    (hpayload : delivery.envelope.payload.encode = some payload) (hhash : hash = hashOf sha256 payload)
    (hunlinked : d.unlinked t = none) {found : Option String}
    (hfound : ∀ hash', found = some hash' → ∃ event, d.events.committed key = some event ∧ event.contentHash = hash') :
    Persisted sha256 t delivery key (if found = some hash then .deduped else .idempotencyConflict)
      (Database.rollback t d) := by
  split
  · next hfoundHash =>
      obtain ⟨event, hevent, heventHash⟩ := hfound hash hfoundHash
      exact ⟨unheld_rollback t d, fun ho => absurd ho PersistOutcome.noConfusion, fun _ => hunlinked,
        fun _ => ⟨key, event, payload, hkey, hevent, hpayload, heventHash.trans hhash⟩⟩
  · exact ⟨unheld_rollback t d, fun ho => absurd ho PersistOutcome.noConfusion, fun _ => hunlinked,
      fun ho => absurd rfl ho⟩

/-- A delivery is new, or a duplicate, or in conflict with the stored one. -/
theorem wp_persistOrDedup {tenantId : PyStr}
    {key hash : String} (hheld : Unheld t d) (hunlinked : d.unlinked t = none)
    (hkey : (delivery.envelope.text "idempotency_key").encode = some key)
    (hpayload : delivery.envelope.payload.encode = some payload) (hhash : hash = hashOf sha256 payload) :
    (ingestLogic validator sha256 gaps settings).wp t (fun outcome d' => Persisted sha256 t delivery key outcome d')
      (persistOrDedup delivery tenantId key hash) d := by
  refine wp_ofExcept_bind fun tenant _ => ?_
  refine wp_query_bind IngestRely.refl fun d₁ h₁ hr₁ => ?_
  have hheld₁ := hheld.rely hr₁
  have hunlinked₁ : d₁.unlinked t = none := hr₁.unlinked.trans hunlinked
  cases hexisting : tenantEventContentHash tenant key t d₁ with
  | some existing =>
      refine wp_rollbackWork_bind fun d₂ h₂ hr₂ => ⟨(h₂.rollback t).logic, fun d₃ h₃ hr₃ => ?_⟩
      have hfound : ∀ hash', some existing = some hash' →
          ∃ event, d₂.events.committed key = some event ∧ event.contentHash = hash' := by
        intro hash' he
        obtain ⟨event, hevent, hcontent⟩ := Option.map_eq_some_iff.mp (hexisting.trans he)
        obtain ⟨hvisible, -⟩ := Option.filter_eq_some_iff.mp hevent
        rw [hheld₁.events.visible] at hvisible
        exact ⟨event, hr₂.eventsGrow key event hvisible, hcontent⟩
      have hpersisted := persisted_found hkey hpayload hhash (hr₂.unlinked.trans hunlinked₁) hfound
      simp only [Option.some.injEq] at hpersisted
      exact hpersisted.rely hr₃
  | none =>
      refine wp_bind (IngestRely.refl t) h₁ ?_
      refine wp_mono (fun inserted d₂ h₂ hinserted => ?_) (wp_insertEvent hheld₁ hunlinked₁ hkey hpayload hhash)
      cases inserted with
      | true =>
          refine wp_exec_bind fun d₃ h₃ hr₃ _ d₄ hcommit _ => ?_
          obtain ⟨-, rfl⟩ := Prod.mk.inj (Option.some.inj hcommit)
          obtain ⟨-, hchain, event, id, row, hevent, hrow, hrowKey, hcontent, hhashed⟩ := hinserted.rows rfl
          have hevent₃ := hevent.frame hr₃.events
          have hkeeps₄ := h₃.commitEvent hevent₃ (hrow.frame hr₃.outbox) hrowKey (hchain.frame hr₃.chain)
            (hr₃.unlinked.trans hinserted.unlinked)
          have hpersisted : Persisted sha256 t delivery key .accepted
              { Database.commit t d₃ with unlinked := Function.update d₃.unlinked t (some key) } := by
            refine ⟨unheld_commit t d₃ _, fun _ => Function.update_self .., fun ho => absurd rfl ho, fun _ => ?_⟩
            exact ⟨key, event, event.payload, hkey, (hevent₃.committed_commit key).trans (if_pos rfl), hcontent,
              hhashed.contentHash⟩
          exact ⟨hkeeps₄.logic, fun d₅ h₅ hr₅ => hpersisted.rely hr₅⟩
      | false =>
          refine wp_rollbackWork_bind fun d₃ h₃ hr₃ => ⟨(h₃.rollback t).logic, ?_⟩
          refine wp_query_bind IngestRely.refl fun d₄ h₄ hr₄ => ?_
          refine wp_rollbackWork_bind fun d₅ h₅ hr₅ => ⟨(h₅.rollback t).logic, fun d₆ h₆ hr₆ => ?_⟩
          have hunlinked₄ : d₄.unlinked t = none := by
            rw [hr₄.unlinked]
            show d₃.unlinked t = none
            rw [hr₃.unlinked, hinserted.unlinked]
          have hfound : ∀ hash', privilegedEventContentHash key t d₄ = some hash' →
              ∃ event, d₅.events.committed key = some event ∧ event.contentHash = hash' := by
            intro hash' he
            obtain ⟨event, hevent, hcontent⟩ := Option.map_eq_some_iff.mp he
            rw [((unheld_rollback t d₃).rely hr₄).events.visible] at hevent
            exact ⟨event, hr₅.eventsGrow key event hevent, hcontent⟩
          exact (persisted_found hkey hpayload hhash (hr₅.unlinked.trans hunlinked₄) hfound).rely hr₆

theorem idempotencyKey_of_store {fields : ChainFields String}
    (hkey : (envelope.text "idempotency_key").encode = some key) (hstore : (chainFields envelope).store = some fields) :
    fields.idempotencyKey = key := by
  unfold ChainFields.store at hstore
  obtain ⟨common, -, hstore⟩ := Option.bind_eq_some_iff.mp hstore
  obtain ⟨envelopeId, -, hstore⟩ := Option.bind_eq_some_iff.mp hstore
  obtain ⟨idempotencyKey, hcolumn, hstore⟩ := Option.bind_eq_some_iff.mp hstore
  obtain ⟨sourceProduct, -, hstore⟩ := Option.bind_eq_some_iff.mp hstore
  cases hstore
  have hencode := textColumn_eq_some hcolumn envelope.length_idempotencyKey
  exact Option.some.inj (hencode.symm.trans hkey)

theorem wp_concludeDelivery {outcome : PersistOutcome}
    (hkey : (delivery.envelope.text "idempotency_key").encode = some key)
    (hobliged : obligationFailure settings delivery.envelope = none) (hd : Ingested sha256 gaps d)
    (h : Persisted sha256 t delivery key outcome d) :
    (ingestLogic validator sha256 gaps settings).wp t (fun result d' => Unheld t d' ∧ d'.unlinked t = none ∧
      Answered sha256 settings delivery result d') (concludeDelivery sha256 delivery outcome) d := by
  cases outcome with
  | deduped =>
      intro d₁ h₁ hr₁
      have h' := h.rely hr₁
      exact ⟨h'.unheld, h'.unlinked PersistOutcome.noConfusion, rfl, fun _ => h'.matched PersistOutcome.noConfusion,
        fun he => Disposition.noConfusion he⟩
  | idempotencyConflict =>
      refine wp_deadLetter h.unheld (h.unlinked PersistOutcome.noConfusion) ?_
      rw [rejection, hobliged]
      rfl
  | accepted =>
      have howed : d.unlinked t = some key := h.owed rfl
      refine wp_bind (IngestRely.refl t) hd ?_
      refine wp_mono (fun _ d₁ h₁ hpost => ?_) (wp_appendAuditLink h.unheld.chain fun row key' hstore _ hacc => ?_)
      · obtain ⟨helse₁, n, row, hrow, hstore, hdisposition⟩ := hpost
        refine wp_exec_bind fun d₂ h₂ hr₂ _ d₃ hcommit _ => ?_
        obtain ⟨-, rfl⟩ := Prod.mk.inj (Option.some.inj hcommit)
        have helse₂ := helse₁.trans hr₂.elsewhere
        have hacc : isAccepted key row = true := by
          simp [isAccepted, hdisposition, idempotencyKey_of_store hkey hstore]
        have hkeeps₃ := h₂.commitLink (h.unheld.events.frame helse₂.events) (h.unheld.outbox.frame helse₂.outbox)
          (hrow.frame hr₂.chain) hacc (helse₂.unlinked.trans howed)
        have hmatched₂ : Matched sha256 delivery d₂ := (h.matched PersistOutcome.noConfusion).grows helse₂.eventsGrow
        refine ⟨hkeeps₃.logic, fun d₄ h₄ hr₄ => ⟨(unheld_commit t d₂ _).rely hr₄, ?_, rfl, fun _ => ?_,
          fun he => Disposition.noConfusion he⟩⟩
        · rw [hr₄.unlinked]
          exact Function.update_self ..
        · have hgrow : Grows d₂.events d₄.events := (h₂.stored.insertOnly.grows_commit t).trans hr₄.eventsGrow
          exact hmatched₂.grows hgrow
      · have hsame : key' = key := by
          simp only [isAccepted, Bool.and_eq_true, decide_eq_true_eq] at hacc
          rw [← hacc.2, idempotencyKey_of_store hkey hstore]
        rw [howed, hsame]

theorem wp_processEnvelope
    (hd : Ingested sha256 gaps d) (hheld : Unheld t d) (hunlinked : d.unlinked t = none) :
    (ingestLogic validator sha256 gaps settings).wp t (fun result d' => Unheld t d' ∧ d'.unlinked t = none ∧
      Answered sha256 settings delivery result d') (processEnvelope sha256 settings delivery) d := by
  unfold processEnvelope
  cases hobliged : obligationFailure settings delivery.envelope with
  | some reason =>
      refine wp_deadLetter hheld hunlinked ?_
      rw [rejection, hobliged]
      rfl
  | none =>
      refine wp_ofExcept_bind fun tenantId _ => ?_
      refine wp_orRaise_bind fun hash hhash => ?_
      refine wp_orRaise_bind fun key hkey => ?_
      obtain ⟨payload, hpayload, rfl⟩ := Option.map_eq_some_iff.mp hhash
      refine wp_bind (IngestRely.refl t) hd ?_
      refine wp_mono (fun outcome d₁ h₁ hpersisted => ?_)
        (wp_persistOrDedup hheld hunlinked hkey hpayload rfl)
      exact wp_concludeDelivery hkey hobliged h₁ hpersisted

theorem ingestLogic_sound :
    (ingestLogic validator sha256 gaps settings).Sound (processEnvelope sha256 settings) where
  refl := IngestRely.refl
  trans := IngestRely.trans
  fresh_rely _ hr h := ⟨h.1.rely hr, hr.unlinked.trans h.2⟩
  ensures_rely _ hr h := ⟨hr.unlinked.trans h.1, h.2.grows hr.eventsGrow hr.deadLettersGrow⟩
  undone_rely _ _ _ := trivial
  body _ hd h := wp_processEnvelope hd h.1 h.2
  commit {t delivery result d} hd h := by
    have hkeeps := hd.commit h.1.events h.1.outbox fun n row key hin => absurd hin (h.1.chain n row)
    exact ⟨hkeeps.logic, h.2.1, h.2.2.grows (hd.stored.insertOnly.grows_commit t) (hd.deadLetters.grows_commit t)⟩
  rollback hd := ⟨(hd.rollback _).logic, trivial⟩

end Programs

/-! ## every schedule -/

/-- The events under a key, and the forward intents of an event. -/
def eventsUnder (key : String) (d : OrchestratorDb F) : List (String × IngestEvent F) :=
  d.events.rows.filter fun p => p.1 = key

def intentsUnder (key : String) (d : OrchestratorDb F) : List (String × ForwardOutbox) :=
  d.outbox.rows.filter fun p => p.2.idempotencyKey = key

/-- The links that say that the event under a key was accepted. -/
def acceptedLinks (key : String) (d : OrchestratorDb F) : List (Nat × IngestAuditLog) := linksOf isAccepted d.chain key

/-- A database between deliveries. -/
structure SettledIngest (sha256 : ByteArray → String) (d : OrchestratorDb F) : Prop where
  events : d.events.Quiet
  outbox : d.outbox.Quiet
  deadLetters : d.deadLetters.Quiet
  chain : d.chain.table.Quiet
  hashed : ∀ key event, d.events.committed key = some event → event.Hashed sha256
  intended : ∀ key, key ∈ acceptedKeys d.events ↔ ∃ id row, d.outbox.committed id = some row ∧ row.idempotencyKey = key
  once : ∀ id id' row row', d.outbox.committed id = some row → d.outbox.committed id' = some row' →
    row.idempotencyKey = row'.idempotencyKey → id = id'
  ordered : d.chain.table.keys.Pairwise (· < ·)
  bounded : ∀ n ∈ d.chain.table.keys, n < d.chain.nextSequence
  linkedOnce : ∀ n n' row row' key, d.chain.table.committed n = some row → d.chain.table.committed n' = some row' →
    isAccepted key row = true → isAccepted key row' = true → n = n'
  linked : ∀ key, Linked isAccepted d.chain key → key ∈ acceptedKeys d.events
  unlinked : ∀ t, d.unlinked t = none

theorem settledIngest_empty : SettledIngest sha256 (OrchestratorDb.empty : OrchestratorDb F) where
  events _ := rfl
  outbox _ := rfl
  deadLetters _ := rfl
  chain _ := rfl
  hashed _ _ h := by cases h
  intended key := by
    constructor
    · intro h
      exact absurd rfl h
    · rintro ⟨id, row, hrow, -⟩
      cases hrow
  once _ _ _ _ h := by cases h
  ordered := List.Pairwise.nil
  bounded _ h := by cases h
  linkedOnce _ _ _ _ _ h := by cases h
  linked _ h := by
    obtain ⟨n, row, hrow, -⟩ := h
    cases hrow
  unlinked _ := rfl

section Runs

variable {sha256 gaps settings} {t : Txn} {d : OrchestratorDb F}

theorem SettledIngest.ingested (h : SettledIngest sha256 d)
    (hgaps : ∀ key, key ∈ acceptedKeys d.events → key ∈ gaps ∨ Linked isAccepted d.chain key) : Ingested sha256 gaps d where
  stored := {
    insertOnly := fun k u v hin => by rw [h.events k] at hin; contradiction
    intentsInsertOnly := fun k u v hin => by rw [h.outbox k] at hin; contradiction
    hashed := fun key event hversion => by
      rcases hversion with hc | ⟨u, hin⟩
      · exact h.hashed key event hc
      · rw [h.events key] at hin
        contradiction
    intended := h.intended
    once := h.once }
  deadLetters k u v hin := by
    rw [h.deadLetters k] at hin
    contradiction
  chained := .of_quiet h.chain h.ordered h.bounded h.linkedOnce h.linked hgaps h.unlinked

theorem ingestLogic_start (h : SettledIngest sha256 d)
    (hgaps : ∀ key, key ∈ acceptedKeys d.events → key ∈ gaps ∨ Linked isAccepted d.chain key) :
    (ingestLogic validator sha256 gaps settings).Ok
      (Sys.start d : Sys (OrchestratorDb F) IngestError (Delivery validator) IngestResult) := by
  refine ⟨h.ingested hgaps, fun t => ⟨⟨fun k v hin => ?_, fun k v hin => ?_, fun k v hin => ?_, fun k v hin => ?_⟩,
    h.unlinked t⟩⟩
  · cases (h.events k).symm.trans hin
  · cases (h.outbox k).symm.trans hin
  · cases (h.deadLetters k).symm.trans hin
  · cases (h.chain k).symm.trans hin

theorem Ingested.counts (h : Ingested sha256 gaps d) (key : String) : (eventsUnder key d).length ≤ 1 ∧
    (intentsUnder key d).length = (eventsUnder key d).length := by
  have hmemEvents : ∀ p, p ∈ eventsUnder key d ↔ d.events.committed p.1 = some p.2 ∧ p.1 = key := by
    intro p
    rw [eventsUnder, List.mem_filter, mem_rows, decide_eq_true_eq]
  have hmemIntents : ∀ p, p ∈ intentsUnder key d ↔ d.outbox.committed p.1 = some p.2 ∧ p.2.idempotencyKey = key := by
    intro p
    rw [intentsUnder, List.mem_filter, mem_rows, decide_eq_true_eq]
  have hevents : (eventsUnder key d).length ≤ 1 ∧ ((eventsUnder key d).length = 0 ↔ ∀ p, p ∉ eventsUnder key d) := by
    refine length_of_subsingleton (((d.events.nodup_list _).of_map Prod.fst).filter _) fun p hp q hq => ?_
    obtain ⟨hp, hpkey⟩ := (hmemEvents p).mp hp
    obtain ⟨hq, hqkey⟩ := (hmemEvents q).mp hq
    have hkeys : p.1 = q.1 := hpkey.trans hqkey.symm
    rw [hkeys, hq] at hp
    exact Prod.ext hkeys (Option.some.inj hp).symm
  have hintents : (intentsUnder key d).length ≤ 1 ∧ ((intentsUnder key d).length = 0 ↔ ∀ p, p ∉ intentsUnder key d) := by
    refine length_of_subsingleton (((d.outbox.nodup_list _).of_map Prod.fst).filter _) fun p hp q hq => ?_
    obtain ⟨hp, hpkey⟩ := (hmemIntents p).mp hp
    obtain ⟨hq, hqkey⟩ := (hmemIntents q).mp hq
    have hids : p.1 = q.1 := h.stored.once p.1 q.1 p.2 q.2 hp hq (hpkey.trans hqkey.symm)
    rw [hids, hq] at hp
    exact Prod.ext hids (Option.some.inj hp).symm
  have hboth : (eventsUnder key d).length = 0 ↔ (intentsUnder key d).length = 0 := by
    rw [hevents.2, hintents.2]
    have hintended := h.stored.intended key
    constructor
    · intro hnone p hp
      obtain ⟨hrow, hkey⟩ := (hmemIntents p).mp hp
      obtain ⟨event, hevent⟩ := Option.ne_none_iff_exists'.mp (hintended.mpr ⟨p.1, p.2, hrow, hkey⟩)
      exact hnone (key, event) ((hmemEvents _).mpr ⟨hevent, rfl⟩)
    · intro hnone p hp
      obtain ⟨hevent, rfl⟩ := (hmemEvents p).mp hp
      have hkey : p.1 ∈ acceptedKeys d.events := by simp [acceptedKeys, hevent]
      obtain ⟨id, row, hrow, hkey⟩ := hintended.mp hkey
      exact hnone (id, row) ((hmemIntents _).mpr ⟨hrow, hkey⟩)
  exact ⟨hevents.1, by omega⟩

theorem Matched.accepted (h : Matched sha256 delivery d) (hsha : Function.Injective sha256)
    (hd : Ingested sha256 gaps d) : Accepted delivery d := by
  obtain ⟨key, event, payload, hkey, hevent, hpayload, hhash⟩ := h
  have hhashed := hd.stored.hashed key event (.inl hevent)
  have hdistinct : payload.Distinct := delivery.envelope.distinct_payload.encode _ _ hpayload
  have hbytes := hsha (hhashed.contentHash.symm.trans hhash)
  have htext := String.toByteArray_inj.mp hbytes
  exact ⟨key, event, payload, hkey, hevent, hpayload, (dumps_sortKeys_iff _ hhashed.distinct hdistinct).mp htext⟩

end Runs

/-- The delivery has another content than the event. -/
def Differs (delivery : Delivery validator) (event : IngestEvent F) : Prop :=
  ∀ payload, delivery.envelope.payload.encode = some payload → ¬Same event.payload payload

/-- **Exactly once**: under a key there is at most one event, and its forward intent with
it; what a caller is answered is durable; and an event stays as it is, while a delivery with
another content ends as a dead letter, for the first check that it fails and as a conflict
if it passes them all. -/
theorem ingest_exactly_once (sha256 : ByteArray → String) (hsha : Function.Injective sha256)
    (settings : IngestSettings) (d : OrchestratorDb F) (hd : SettledIngest sha256 d)
    (schedule : List (Action (Delivery validator))) (s : Sys (OrchestratorDb F) IngestError (Delivery validator) IngestResult)
    (hrun : run (processEnvelope sha256 settings) (Sys.start d) schedule = some s) :
    (∀ key, (eventsUnder key s.db).length ≤ 1 ∧
      (intentsUnder key s.db).length = (eventsUnder key s.db).length) ∧
    (∀ t delivery result, s.procs t = .committed delivery result →
      result.eventId = delivery.envelope.text "idempotency_key" ∧
      (result.disposition ≠ .deadLettered → Accepted delivery s.db) ∧
      (result.disposition = .deadLettered → result.dlqReason = some (rejection settings delivery) ∧
        result.dlqId = some delivery.dlqId ∧ DeadLettered delivery (rejection settings delivery) s.db)) ∧
    ∀ schedule' s', run (processEnvelope sha256 settings) s schedule' = some s' →
      ∀ key event, s.db.events.committed key = some event → s'.db.events.committed key = some event ∧
        ∀ t delivery result, s'.procs t = .committed delivery result →
          (delivery.envelope.text "idempotency_key").encode = some key → Differs delivery event →
          result.disposition = .deadLettered ∧ result.dlqReason = some (rejection settings delivery) ∧
            DeadLettered delivery (rejection settings delivery) s'.db := by
  let gaps : Set String := {key | ¬Linked isAccepted d.chain key}
  have hsound : (ingestLogic validator sha256 gaps settings).Sound (processEnvelope sha256 settings) := ingestLogic_sound
  have hstart : (ingestLogic validator sha256 gaps settings).Ok (Sys.start d) :=
    ingestLogic_start hd fun key _ => (Classical.em (Linked isAccepted d.chain key)).symm
  have hpermits : ∀ s schedule, EveryStep (processEnvelope sha256 settings)
      (ingestLogic validator sha256 gaps settings).Permits s schedule :=
    fun s schedule => everyStep_permits (fun _ => trivial) (fun _ _ _ => trivial) schedule
  have hok := hsound.run hstart (hpermits _ _) hrun
  refine ⟨hok.inv.counts, fun t delivery result ht => ?_, fun schedule' s' hrun' key event hevent => ?_⟩
  · have hproc := hok.procs t
    rw [ht] at hproc
    obtain ⟨-, hanswered⟩ : s.db.unlinked t = none ∧ Answered sha256 settings delivery result s.db := hproc
    exact ⟨hanswered.eventId, fun hne => (hanswered.matched hne).accepted hsha hok.inv, hanswered.deadLettered⟩
  · have hok' := hsound.run hok (hpermits _ _) hrun'
    obtain ⟨u, hu⟩ := exists_bystander schedule'
    have hrely : IngestRely u s.db s'.db := hsound.run_rely hok (hpermits _ _) hu hrun'
    have hevent' := hrely.eventsGrow key event hevent
    refine ⟨hevent', fun t delivery result ht hkey hdiffers => ?_⟩
    have hproc := hok'.procs t
    rw [ht] at hproc
    obtain ⟨-, hanswered⟩ : s'.db.unlinked t = none ∧ Answered sha256 settings delivery result s'.db := hproc
    have hdead : result.disposition = .deadLettered := by
      by_contra hne
      obtain ⟨key', event', payload, hkey', hcommitted, hpayload, hsame⟩ :=
        (hanswered.matched hne).accepted hsha hok'.inv
      obtain rfl : key' = key := Option.some.inj (hkey'.symm.trans hkey)
      obtain rfl : event' = event := Option.some.inj (hcommitted.symm.trans hevent')
      exact hdiffers payload hpayload hsame
    obtain ⟨hreason, -, hletter⟩ := hanswered.deadLettered hdead
    exact ⟨hdead, hreason, hletter⟩

/-- **Every event has its link, but one whose delivery was cut off**: when all is quiet, an
accepted event has at most one link, and it has none exactly when the delivery that accepted
it failed between the commit of the event and the commit of the link. -/
theorem ingest_audit_links (sha256 : ByteArray → String) (settings : IngestSettings) (d : OrchestratorDb F)
    (hd : SettledIngest sha256 d) (hlinked : ∀ key, key ∈ acceptedKeys d.events → Linked isAccepted d.chain key)
    (schedule : List (Action (Delivery validator))) (s : Sys (OrchestratorDb F) IngestError (Delivery validator) IngestResult)
    (hrun : run (processEnvelope sha256 settings) (Sys.start d) schedule = some s) (hquiet : s.quiescent)
    (key : String) (hkey : key ∈ acceptedKeys s.db.events) :
    (acceptedLinks key s.db).length ≤ 1 ∧
    ((acceptedLinks key s.db).length = 0 ↔ ∃ t, s.procs t = .aborted ∧ s.db.unlinked t = some key) := by
  have hsound : (ingestLogic validator sha256 ∅ settings).Sound (processEnvelope sha256 settings) := ingestLogic_sound
  have hstart : (ingestLogic validator sha256 ∅ settings).Ok (Sys.start d) :=
    ingestLogic_start hd fun key hkey => .inr (hlinked key hkey)
  have hok := hsound.run hstart (everyStep_permits (fun _ => trivial) (fun _ _ _ => trivial) schedule) hrun
  obtain ⟨hone, hnone⟩ := hok.inv.chained.links key
  refine ⟨hone, hnone.trans ⟨fun hunlinked => ?_, fun ⟨t, _, ht⟩ => (hok.inv.chained.owed t key ht).2⟩⟩
  obtain hgap | hlink | ⟨t, ht⟩ := hok.inv.chained.complete key hkey
  · exact absurd hgap (Set.notMem_empty key)
  · exact absurd hlink hunlinked
  · refine ⟨t, ?_, ht⟩
    have hproc := hok.procs t
    cases hcase : s.procs t with
    | idle =>
        rw [hcase] at hproc
        exact absurd (ht.symm.trans hproc.2) (Option.some_ne_none key)
    | running delivery p => exact absurd hcase (hquiet t delivery p)
    | committed delivery result =>
        rw [hcase] at hproc
        exact absurd (ht.symm.trans hproc.1) (Option.some_ne_none key)
    | aborted => rfl


/-! ## deliveries to look at -/

section Sample

inductive SampleFloat
  | free
  | half
  | notANumber
deriving DecidableEq

instance : Numerals SampleFloat where
  repr
    | .free => ['0', '.', '0']
    | .half => ['0', '.', '5']
    | .notANumber => ['N', 'a', 'N']
  ofText cs :=
    if cs = ['0', '.', '0'] then some .free
    else if cs = ['0', '.', '5'] then some .half
    else if cs = ['N', 'a', 'N'] then some .notANumber
    else none
  isFloatText_repr x := by cases x <;> rfl
  ofText_repr x := by cases x <;> rfl
  toDecimal
    | .free => .finite 0
    | .half => .finite (1 / 2)
    | .notANumber => .nan
  ofDecimal
    | .nan => .notANumber
    | d => if d = .finite 0 then .free else .half
  parseDecimal _ := none

def sampleObject (members : List (String × PyValue SampleFloat)) : List (PyStr × PyValue SampleFloat) :=
  members.map fun member => (PyStr.ofString member.1, member.2)

def sampleText (s : String) : PyValue SampleFloat := .str (PyStr.ofString s)

def samplePayload (cost : SampleFloat) : List (PyStr × PyValue SampleFloat) := sampleObject
  [("event_type", sampleText "usage"), ("tenant_id", sampleText "11111111-1111-4111-8111-111111111111"),
    ("team_id", sampleText "22222222-2222-4222-8222-222222222222"),
    ("project_id", sampleText "33333333-3333-4333-8333-333333333333"), ("agent_id", sampleText "gateway-core"),
    ("event_id", sampleText "55555555-5555-4555-8555-555555555555"),
    ("event_timestamp", sampleText "2026-07-08T12:00:00Z"), ("request_id", sampleText "r-1"),
    ("model", sampleText "gpt-4o"), ("tokens_in", .int 12), ("tokens_out", .int 3), ("latency_ms", .int 40),
    ("cost_estimate_cents", .float cost)]

def sampleMembers (newer : Bool) (cost : SampleFloat) : List (PyStr × PyValue SampleFloat) := sampleObject
  [("schema_version", .int (if newer then 2 else 1)),
    ("envelope_id", sampleText "66666666-6666-4666-8666-666666666666"), ("event_type", sampleText "usage"),
    ("source_product", sampleText "sentinel"), ("occurred_at", sampleText "2026-07-08T12:00:00Z"),
    ("idempotency_key", sampleText "55555555-5555-4555-8555-555555555555"), ("sequence", .int 1),
    ("correlation_id", sampleText "r-1"), ("payload", .obj (samplePayload cost))]

def sampleValidator : Validator SampleFloat where
  uuid s := s.length = 36
  dateTime s := s.length = 20
  payloadValid payload :=
    ["event_type", "tenant_id", "team_id", "project_id", "agent_id", "event_id", "event_timestamp",
      "request_id"].all fun field =>
        match payloadItem payload field with
        | some (.str s) => 0 < s.length && s.length ≤ 64 && s.points.all fun c => 0x20 < c && c < 0x7f
        | _ => false
  structureRaises _ := false

theorem sampleMembers_valid (newer : Bool) (cost : SampleFloat) :
    envelopeValid sampleValidator (sampleMembers newer cost) = true := by
  cases newer <;> cases cost <;> decide +kernel

theorem sampleMembers_distinct (newer : Bool) (cost : SampleFloat) :
    (PyValue.obj (sampleMembers newer cost)).Distinct := by
  have hkeys : ((sampleMembers newer cost).map Prod.fst).Nodup := by cases newer <;> cases cost <;> decide +kernel
  have hpayloadKeys : ((samplePayload cost).map Prod.fst).Nodup := by cases cost <;> decide +kernel
  refine ⟨hkeys, ?_⟩
  simp only [sampleMembers, sampleObject, sampleText, List.map_cons, List.map_nil, DistinctPyMembers,
    PyValue.Distinct, true_and, and_true]
  refine ⟨hpayloadKeys, ?_⟩
  simp [samplePayload, sampleObject, sampleText, DistinctPyMembers, PyValue.Distinct]

def sampleEnvelope (newer : Bool) (cost : SampleFloat) : Envelope sampleValidator :=
  ⟨sampleMembers newer cost, sampleMembers_valid newer cost, sampleMembers_distinct newer cost⟩

def sampleDelivery (newer : Bool) (cost : SampleFloat) (dlqId : String) : Delivery sampleValidator :=
  ⟨sampleEnvelope newer cost, dlqId, dlqId, "2026-07-08T12:00:05Z"⟩

def sampleSettings : IngestSettings := ⟨PyStr.ofString "sentinel", [1]⟩

/-- What is hashed of a delivery's payload. -/
def sampleContent (cost : SampleFloat) : Option String :=
  ((sampleEnvelope false cost).payload.encode).map fun payload => dumps ⟨false, false⟩ payload.sortKeys

/-- What is hashed of a delivery's link. -/
def sampleLink (delivery : Delivery sampleValidator) (disposition : Disposition) (dlqReason : Option DeadLetterReason)
    (dlqId : Option String) (prevHash : String) : String :=
  ((chainFields delivery.envelope).encode.map fun fields => dumps ⟨false, false⟩
    (Value.obj (canonicalFields ⟨fields, disposition, dlqReason, dlqId, prevHash, ""⟩)).sortKeys).getD ""

/-- SHA-256 of what the runs below hash: the genesis text, two payloads and three links. -/
def sampleSha256 : ByteArray → String := HashChain.knownDigest
  [("anoryx-orchestrator:ingest-audit:genesis:v1", "0fb72b59d33edd30d612669b54bc21a19d348f6d784941b15fbc139ee4028a8d"),
    ((sampleContent .free).getD "", "22d8c2c9cbae41964d7c6a9f932db39b45b18e7b68f051530ecfe59347a35900"),
    ((sampleContent .half).getD "", "665637539e1000a07c27d4e2a03d84ae835a446aacb94964c314834471625715"),
    (sampleLink (sampleDelivery false .free "dlq-1") .accepted none none
        "0fb72b59d33edd30d612669b54bc21a19d348f6d784941b15fbc139ee4028a8d",
      "67b5a41a03c588a04d6b5fbf08fc34156de41d808f5c54e49a650471ca5abeed"),
    (sampleLink (sampleDelivery false .half "dlq-2") .deadLettered (some .idempotencyConflict) (some "dlq-2")
        "67b5a41a03c588a04d6b5fbf08fc34156de41d808f5c54e49a650471ca5abeed",
      "eba46fe083da43961945f2ed3d9b8104cd1c1958c81099450a621c5e46dab1ed"),
    (sampleLink (sampleDelivery true .half "dlq-2") .deadLettered (some .unknownSchemaVersion) (some "dlq-2")
        "67b5a41a03c588a04d6b5fbf08fc34156de41d808f5c54e49a650471ca5abeed",
      "ad052262c2effc12ff7ba5a20edc764ab1900b7552dbe7a21a729fe08a5ef987")]

theorem sampleSha256_injective : Function.Injective sampleSha256 :=
  HashChain.knownDigest_injective (by decide +kernel) (by decide +kernel)

def sampleKey : String := "55555555-5555-4555-8555-555555555555"

/-- An event is accepted. -/
def acceptSchedule : List (Action (Delivery sampleValidator)) :=
  [.begin 1 (sampleDelivery false .free "dlq-1"), .exec 1, .exec 1, .exec 1, .exec 1, .exec 1, .exec 1, .exec 1,
    .exec 1, .commit 1]

/-- Another content comes under its key, in a schema version that is not served. -/
def newerSchedule : List (Action (Delivery sampleValidator)) :=
  [.begin 2 (sampleDelivery true .half "dlq-2"), .exec 2, .exec 2, .exec 2, .exec 2, .exec 2, .commit 2]

/-- Another content comes under its key. -/
def conflictSchedule : List (Action (Delivery sampleValidator)) :=
  [.begin 2 (sampleDelivery false .half "dlq-2"), .exec 2, .exec 2, .exec 2, .exec 2, .exec 2, .exec 2, .exec 2,
    .commit 2]

/-- The connection is lost after the event is committed, and the sender delivers again. -/
def cutOffSchedule : List (Action (Delivery sampleValidator)) :=
  [.begin 1 (sampleDelivery false .free "dlq-1"), .exec 1, .exec 1, .exec 1, .exec 1, .abort 1,
    .begin 2 (sampleDelivery false .free "dlq-2"), .exec 2, .exec 2, .commit 2]

abbrev SampleSys := Sys (OrchestratorDb SampleFloat) IngestError (Delivery sampleValidator) IngestResult

def sampleStart : SampleSys := Sys.start OrchestratorDb.empty

/-- The cost that a payload names, for payloads of other costs differ. -/
def costOf (payload : Value SampleFloat) : Option SampleFloat :=
  match payload.sortKeys with
  | .obj members =>
      match getItem "cost_estimate_cents" members with
      | some (.float cost) => some cost
      | _ => none
  | _ => none

def sampleReport (s : SampleSys) : Option SampleFloat × Option (Disposition × Option DeadLetterReason) :=
  ((s.db.events.committed sampleKey).bind fun event => costOf event.payload,
    (s.procs 2).result.map fun result => (result.disposition, result.dlqReason))

/-- The key, the cost and the answer of a delivery that has been answered. -/
def sampleAnswer : Proc (OrchestratorDb SampleFloat) IngestError (Delivery sampleValidator) IngestResult →
    Option (Option String × Option SampleFloat × Disposition × Option DeadLetterReason)
  | .committed delivery result =>
      some ((delivery.envelope.text "idempotency_key").encode, delivery.envelope.payload.encode.bind costOf,
        result.disposition, result.dlqReason)
  | _ => none

theorem differs_of_cost {delivery : Delivery sampleValidator} {event : IngestEvent SampleFloat}
    (h : delivery.envelope.payload.encode.bind costOf ≠ costOf event.payload) : Differs delivery event := by
  intro payload hpayload hsame
  apply h
  rw [hpayload, Option.bind_some, costOf, costOf, hsame]

theorem sampleAnswer_eq_some
    {proc : Proc (OrchestratorDb SampleFloat) IngestError (Delivery sampleValidator) IngestResult}
    (h : sampleAnswer proc = some (key, cost, disposition, dlqReason)) : ∃ delivery result,
      proc = .committed delivery result ∧ (delivery.envelope.text "idempotency_key").encode = key ∧
      delivery.envelope.payload.encode.bind costOf = cost ∧ result.disposition = disposition ∧ result.dlqReason = dlqReason := by
  cases proc with
  | committed delivery result =>
      simp only [sampleAnswer, Option.some.injEq, Prod.mk.injEq] at h
      exact ⟨delivery, result, rfl, h⟩
  | _ => contradiction

theorem newerSchedule_runs : ∃ s₁ s₂ : SampleSys, ∃ event,
    run (processEnvelope sampleSha256 sampleSettings) sampleStart acceptSchedule = some s₁ ∧
    s₁.db.events.committed sampleKey = some event ∧
    costOf event.payload = some .free ∧
    run (processEnvelope sampleSha256 sampleSettings) s₁ newerSchedule = some s₂ ∧
    (s₂.procs 2).result.map (fun result => (result.disposition, result.dlqReason)) =
      some (.deadLettered, some .unknownSchemaVersion) := by
  have hreport : ((run (processEnvelope sampleSha256 sampleSettings) sampleStart acceptSchedule).bind fun s₁ =>
      (run (processEnvelope sampleSha256 sampleSettings) s₁ newerSchedule).map fun s₂ =>
        ((sampleReport s₁).1, (sampleReport s₂).2)) =
        some (some .free, some (.deadLettered, some .unknownSchemaVersion)) := by
    decide +kernel
  obtain ⟨s₁, hrun₁, h₁⟩ := Option.bind_eq_some_iff.mp hreport
  obtain ⟨s₂, hrun₂, h₂⟩ := Option.map_eq_some_iff.mp h₁
  obtain ⟨hevents, hanswer⟩ := Prod.mk.inj h₂
  obtain ⟨event, hevent, hcost⟩ := Option.bind_eq_some_iff.mp hevents
  exact ⟨s₁, s₂, event, hrun₁, hevent, hcost, hrun₂, hanswer⟩

/-- **Not a conflict**: the event is accepted when another content comes under its key, and
the reason of the dead letter is the schema version, which is checked first. -/
theorem newer_version_not_conflict : ∃ s₁ s₂ : SampleSys, ∃ event,
    run (processEnvelope sampleSha256 sampleSettings) sampleStart acceptSchedule = some s₁ ∧
    s₁.db.events.committed sampleKey = some event ∧
    ((sampleDelivery true .half "dlq-2").envelope.text "idempotency_key").encode = some sampleKey ∧
    Differs (sampleDelivery true .half "dlq-2") event ∧
    run (processEnvelope sampleSha256 sampleSettings) s₁ newerSchedule = some s₂ ∧
    (s₂.procs 2).result.map (fun result => (result.disposition, result.dlqReason)) =
      some (.deadLettered, some .unknownSchemaVersion) := by
  obtain ⟨s₁, s₂, event, hrun₁, hevent, hcost, hrun₂, hanswer⟩ := newerSchedule_runs
  have hother : (sampleDelivery true .half "dlq-2").envelope.payload.encode.bind costOf ≠ some .free := by
    decide +kernel
  exact ⟨s₁, s₂, event, hrun₁, hevent, by decide +kernel, differs_of_cost (hcost ▸ hother), hrun₂, hanswer⟩

/-- The conflict is a dead letter, and the event stays. -/
theorem ingest_exactly_once_sample : ∃ s₁ s₂ : SampleSys, ∃ event, ∃ delivery : Delivery sampleValidator,
    run (processEnvelope sampleSha256 sampleSettings) sampleStart acceptSchedule = some s₁ ∧
    s₁.db.events.committed sampleKey = some event ∧ (eventsUnder sampleKey s₁.db).length ≤ 1 ∧
    run (processEnvelope sampleSha256 sampleSettings) s₁ conflictSchedule = some s₂ ∧
    s₂.db.events.committed sampleKey = some event ∧ Differs delivery event ∧
    DeadLettered delivery .idempotencyConflict s₂.db := by
  have hreport : ((run (processEnvelope sampleSha256 sampleSettings) sampleStart acceptSchedule).bind fun s₁ =>
      (run (processEnvelope sampleSha256 sampleSettings) s₁ conflictSchedule).bind fun s₂ =>
        (sampleAnswer (s₂.procs 2)).map fun answer => ((sampleReport s₁).1, answer)) =
        some (some .free, some sampleKey, some .half, .deadLettered, some .idempotencyConflict) := by
    decide +kernel
  obtain ⟨s₁, hrun₁, h₁⟩ := Option.bind_eq_some_iff.mp hreport
  obtain ⟨s₂, hrun₂, h₂⟩ := Option.bind_eq_some_iff.mp h₁
  obtain ⟨answer, hanswer, hparts⟩ := Option.map_eq_some_iff.mp h₂
  obtain ⟨hevents, rfl⟩ := Prod.mk.inj hparts
  obtain ⟨event, hevent, hcost⟩ := Option.bind_eq_some_iff.mp hevents
  obtain ⟨delivery, result, hproc, hkey, hother, -, hreason⟩ := sampleAnswer_eq_some hanswer
  have hdiffers : Differs delivery event :=
    differs_of_cost (by rw [hother, hcost]; decide)
  obtain ⟨hcounts, -, hlater⟩ := ingest_exactly_once sampleSha256 sampleSha256_injective sampleSettings
    OrchestratorDb.empty (settledIngest_empty sampleSha256) acceptSchedule s₁ hrun₁
  obtain ⟨hstays, hconflict⟩ := hlater conflictSchedule s₂ hrun₂ sampleKey event hevent
  obtain ⟨-, hrejection, hdead⟩ := hconflict 2 delivery result hproc hkey hdiffers
  rw [← Option.some.inj (hreason.symm.trans hrejection)] at hdead
  exact ⟨s₁, s₂, event, delivery, hrun₁, hevent, (hcounts sampleKey).1, hrun₂, hstays, hdiffers, hdead⟩

theorem cutOffSchedule_runs : ∃ s : SampleSys,
    run (processEnvelope sampleSha256 sampleSettings) sampleStart cutOffSchedule = some s ∧ s.quiescent ∧
    (s.procs 2).result.map IngestResult.disposition = some .deduped ∧
    (eventsUnder sampleKey s.db).length = 1 ∧ (acceptedLinks sampleKey s.db).length = 0 := by
  have hreport : (run (processEnvelope sampleSha256 sampleSettings) sampleStart cutOffSchedule).map (fun s =>
      (cutOffSchedule.all fun a => !(s.procs a.txn).isRunning, (s.procs 2).result.map IngestResult.disposition,
        (eventsUnder sampleKey s.db).length, (acceptedLinks sampleKey s.db).length)) =
        some (true, some .deduped, 1, 0) := by
    decide +kernel
  obtain ⟨s, hrun, h⟩ := Option.map_eq_some_iff.mp hreport
  obtain ⟨hdone, h⟩ := Prod.mk.inj h
  obtain ⟨hanswer, h⟩ := Prod.mk.inj h
  obtain ⟨hevents, hlinks⟩ := Prod.mk.inj h
  refine ⟨s, hrun, quiescent_of_run hrun fun a ha => ?_, hanswer, hevents, hlinks⟩
  exact (Bool.not_eq_true' _).mp (List.all_eq_true.mp hdone a ha)

/-- **No link**: the sender is told that its event is a duplicate, nothing is left in flight,
and the chain has no link for the event. -/
theorem cut_off_not_linked : ∃ s : SampleSys,
    run (processEnvelope sampleSha256 sampleSettings) sampleStart cutOffSchedule = some s ∧ s.quiescent ∧
    (s.procs 2).result.map IngestResult.disposition = some .deduped ∧
    (eventsUnder sampleKey s.db).length = 1 ∧ (acceptedLinks sampleKey s.db).length ≠ 1 := by
  obtain ⟨s, hrun, hquiet, hanswer, hevents, hlinks⟩ := cutOffSchedule_runs
  exact ⟨s, hrun, hquiet, hanswer, hevents, by rw [hlinks]; exact Nat.zero_ne_one⟩

/-- The event that was cut off, and who owes its link. -/
theorem ingest_audit_links_sample : ∃ s : SampleSys,
    run (processEnvelope sampleSha256 sampleSettings) sampleStart cutOffSchedule = some s ∧
    (acceptedLinks sampleKey s.db).length ≤ 1 ∧
    ((acceptedLinks sampleKey s.db).length = 0 ↔ ∃ t, s.procs t = .aborted ∧ s.db.unlinked t = some sampleKey) := by
  obtain ⟨s, hrun, hquiet, -, hevents, -⟩ := cutOffSchedule_runs
  have hkey : sampleKey ∈ acceptedKeys s.db.events := by
    obtain ⟨p, hp⟩ := List.length_eq_one_iff.mp hevents
    have hmem : p ∈ eventsUnder sampleKey s.db := hp ▸ List.mem_singleton_self p
    obtain ⟨hrow, hpkey⟩ := List.mem_filter.mp hmem
    rw [← of_decide_eq_true hpkey]
    exact fun hnone => absurd ((mem_rows.mp hrow).symm.trans hnone) (Option.some_ne_none p.2)
  exact ⟨s, hrun, ingest_audit_links sampleSha256 sampleSettings OrchestratorDb.empty (settledIngest_empty sampleSha256)
    (fun key hkey => absurd rfl hkey) cutOffSchedule s hrun hquiet sampleKey hkey⟩

end Sample

end Anoryx.Orchestrator
