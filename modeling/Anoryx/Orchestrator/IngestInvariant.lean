import Anoryx.Orchestrator.IngestPipeline
import Anoryx.ReadCommitted.Trail

/-!
# Anoryx.Orchestrator.IngestInvariant

What holds of the Orchestrator's ingest tables between any two statements, and what each
statement of the pipeline keeps of it.

An event and its forward intent are committed together and never change.  The link of an
accepted event is committed later, and `unlinked` says whose it is until then.
-/

namespace Anoryx.Orchestrator

open ReadCommitted PyJson PgColumn Table

/-! ## texts that are stored as they are -/

variable {length n : Nat} {text key key' id dlqId : String} {row : IngestAuditLog} {u t : Txn} {b : Bool}

theorem textColumn_eq_some {s : PyStr} (h : textColumn length s = some text) (hlength : s.length ≤ length) :
    s.encode = some text := by
  unfold textColumn at h
  obtain ⟨encoded, hencode, h⟩ := Option.bind_eq_some_iff.mp h
  have hs : s = PyStr.ofString encoded := PyStr.encode_eq_some.mp hencode
  rw [hs, PyStr.length_ofString] at hlength
  split at h
  · contradiction
  · rw [varchar_of_le hlength] at h
    rw [hencode, h]

section Envelope

variable {F : Type} [Numerals F] {validator : Validator F} (envelope : Envelope validator)

theorem Envelope.property_valid {v : PyValue F} {property : String × (PyValue F → Bool)}
    (hget : envelope.get key = some v) (hfind : ((envelopeProperties validator).find? fun property =>
      PyStr.ofString property.1 = PyStr.ofString key) = some property) : property.2 v = true := by
  obtain ⟨⟨k, v'⟩, hmember, rfl⟩ := Option.map_eq_some_iff.mp hget
  have hkey : k = PyStr.ofString key := by simpa using List.find?_some hmember
  have hvalid := envelope.valid
  rw [envelopeValid, Bool.and_eq_true, List.all_eq_true] at hvalid
  have hmemberValid := List.all_eq_true.mp hvalid.2 _ (List.mem_of_find?_eq_some hmember)
  rw [memberValid, hkey, hfind] at hmemberValid
  exact hmemberValid

theorem Envelope.length_text {p : PyStr → Bool} (hfind : ((envelopeProperties validator).find? fun property =>
      PyStr.ofString property.1 = PyStr.ofString key) = some (key, isText n p)) : (envelope.text key).length ≤ n := by
  unfold Envelope.text
  split
  · next s hget =>
      have htext : isText n p (PyValue.str s : PyValue F) = true := envelope.property_valid hget hfind
      simp only [isText, Bool.and_eq_true, decide_eq_true_eq] at htext
      exact htext.1
  · exact Nat.zero_le n

theorem Envelope.length_idempotencyKey : (envelope.text "idempotency_key").length ≤ 128 :=
  envelope.length_text (p := anchored isKey) (by simp [envelopeProperties])

theorem Envelope.distinct_payload : envelope.payload.Distinct := by
  unfold Envelope.payload
  cases hget : envelope.get "payload" with
  | none => trivial
  | some v =>
      obtain ⟨⟨k, v'⟩, hmember, rfl⟩ := Option.map_eq_some_iff.mp hget
      exact envelope.distinct.2.of_mem (List.mem_of_find?_eq_some hmember)

end Envelope

/-! ## the invariant -/

/-- A link that says that the event under this key was accepted. -/
def isAccepted (key : String) (row : IngestAuditLog) : Bool :=
  row.disposition = .accepted && row.fields.idempotencyKey = key

theorem isAccepted_inj (h : isAccepted key row = true) (h' : isAccepted key' row = true) : key = key' := by
  simp only [isAccepted, Bool.and_eq_true, decide_eq_true_eq] at h h'
  exact h.2.symm.trans h'.2

section Invariant

variable {F : Type} [Numerals F]

def acceptedKeys (events : Table String (IngestEvent F)) : Set String := {key | events.committed key ≠ none}

/-- The payload of an event is a dictionary, and its hash is the one that is stored. -/
structure IngestEvent.Hashed (sha256 : ByteArray → String) (event : IngestEvent F) : Prop where
  distinct : event.payload.Distinct
  contentHash : event.contentHash = hashOf sha256 event.payload

/-- The events and their forward intents. -/
structure Stored (sha256 : ByteArray → String) (events : Table String (IngestEvent F))
    (outbox : Table String ForwardOutbox) : Prop where
  insertOnly : events.InsertOnly
  intentsInsertOnly : outbox.InsertOnly
  hashed : ∀ key event, events.HasVersion key event → event.Hashed sha256
  intended : ∀ key, key ∈ acceptedKeys events ↔ ∃ id row, outbox.committed id = some row ∧ row.idempotencyKey = key
  once : ∀ id id' row row', outbox.committed id = some row → outbox.committed id' = some row' →
    row.idempotencyKey = row'.idempotencyKey → id = id'

/-- Between any two statements. -/
structure Ingested (sha256 : ByteArray → String) (gaps : Set String) (d : OrchestratorDb F) : Prop where
  stored : Stored sha256 d.events d.outbox
  deadLetters : d.deadLetters.InsertOnly
  chained : Trail isAccepted chainLockKey gaps (acceptedKeys d.events) d.chain d.unlinked

/-- What a delivery may rely on while others move. -/
structure IngestRely (u : Txn) (d d' : OrchestratorDb F) : Prop where
  events : Frame u d.events d'.events
  outbox : Frame u d.outbox d'.outbox
  deadLetters : Frame u d.deadLetters d'.deadLetters
  chain : Frame u d.chain.table d'.chain.table
  locks : ∀ k, d.chain.locks k = some u → d'.chain.locks k = some u
  eventsGrow : Grows d.events d'.events
  deadLettersGrow : Grows d.deadLetters d'.deadLetters
  unlinked : d'.unlinked u = d.unlinked u

omit [Numerals F] in
theorem IngestRely.refl (u : Txn) (d : OrchestratorDb F) : IngestRely u d d :=
  ⟨.refl u _, .refl u _, .refl u _, .refl u _, fun _ h => h, .refl _, .refl _, rfl⟩

variable {d₁ d₂ d₃ d d' : OrchestratorDb F}

omit [Numerals F] in
theorem IngestRely.trans (h : IngestRely u d₁ d₂) (h' : IngestRely u d₂ d₃) : IngestRely u d₁ d₃ :=
  ⟨h.events.trans h'.events, h.outbox.trans h'.outbox, h.deadLetters.trans h'.deadLetters, h.chain.trans h'.chain,
    fun k hk => h'.locks k (h.locks k hk), h.eventsGrow.trans h'.eventsGrow,
    h.deadLettersGrow.trans h'.deadLettersGrow, h'.unlinked.trans h.unlinked⟩

/-- A statement of `t` that keeps the invariant, and what the others rely on. -/
def Keeps (sha256 : ByteArray → String) (gaps : Set String) (t : Txn) (d d' : OrchestratorDb F) : Prop :=
  Ingested sha256 gaps d' ∧ ∀ u, u ≠ t → IngestRely u d d'

/-- A delivery that has nothing in flight. -/
structure Unheld (t : Txn) (d : OrchestratorDb F) : Prop where
  events : d.events.Unheld t
  outbox : d.outbox.Unheld t
  deadLetters : d.deadLetters.Unheld t
  chain : d.chain.table.Unheld t

omit [Numerals F] in
theorem Unheld.rely (h : Unheld t d) (hr : IngestRely t d d') : Unheld t d' :=
  ⟨h.events.frame hr.events, h.outbox.frame hr.outbox, h.deadLetters.frame hr.deadLetters, h.chain.frame hr.chain⟩

omit [Numerals F] in
theorem unheld_commit (t : Txn) (d : OrchestratorDb F) (unlinked : Txn → Option String) :
    Unheld t { Database.commit t d with unlinked := unlinked } :=
  ⟨Table.unheld_commit _ t, Table.unheld_commit _ t, Table.unheld_commit _ t, Table.unheld_commit _ t⟩

omit [Numerals F] in
theorem unheld_rollback (t : Txn) (d : OrchestratorDb F) : Unheld t (Database.rollback t d) :=
  ⟨Table.unheld_rollback _ t, Table.unheld_rollback _ t, Table.unheld_rollback _ t, Table.unheld_rollback _ t⟩

end Invariant

/-! ## what the statements keep -/

section Statements

variable {F : Type} [Numerals F] {sha256 : ByteArray → String} {gaps accepted : Set String}
  {events : Table String (IngestEvent F)} {outbox : Table String ForwardOutbox}
  {chain : LockedLog IngestAuditLog Int} {unlinked : Txn → Option String} {d d' : OrchestratorDb F} {t : Txn}
  {key : String}

variable {event : IngestEvent F}

theorem Stored.write (h : Stored sha256 events outbox) (hevent : event.Hashed sha256)
    (hc : events.committed key = none) : Stored sha256 (events.write t key event) outbox where
  insertOnly := by
    intro key' u event' hin
    by_cases hk : key' = key
    · subst hk
      exact hc
    · rw [inflight_write_of_ne hk] at hin
      exact h.insertOnly key' u event' hin
  intentsInsertOnly := h.intentsInsertOnly
  hashed := by
    intro key' event' hversion
    rcases hversion.of_write with hold | ⟨-, rfl⟩
    · exact h.hashed key' event' hold
    · exact hevent
  intended := h.intended
  once := h.once

/-- An event is inserted, or its key is there already. -/
theorem Ingested.insertIngestEvent (h : Ingested sha256 gaps d) (hevent : event.Hashed sha256) (hheld : Unheld t d)
    (hinsert : insertIngestEvent key event t d = some (b, d')) :
    Keeps sha256 gaps t d d' ∧ (b = false → d' = d) ∧ (b = true → d'.events.HoldsOnly t key event ∧
      d'.outbox.Unheld t ∧ d'.deadLetters.Unheld t ∧ d'.chain.table.Unheld t ∧ d'.unlinked = d.unlinked) := by
  have hrefused : ∀ {b'}, some (false, d) = some (b', d') → Keeps sha256 gaps t d d' ∧ (b' = false → d' = d) ∧
      (b' = true → d'.events.HoldsOnly t key event ∧ d'.outbox.Unheld t ∧ d'.deadLetters.Unheld t ∧
        d'.chain.table.Unheld t ∧ d'.unlinked = d.unlinked) := by
    intro b' he
    obtain ⟨rfl, rfl⟩ := Prod.mk.inj (Option.some.inj he)
    exact ⟨⟨h, fun u _ => .refl u d⟩, fun _ => rfl, fun hb => absurd hb Bool.false_ne_true⟩
  unfold Orchestrator.insertIngestEvent at hinsert
  split at hinsert
  · contradiction
  · exact hrefused hinsert
  · next envelopeIds hids =>
      split at hinsert
      · contradiction
      · exact hrefused hinsert
      · next events hevents =>
          obtain ⟨rfl, rfl⟩ := Prod.mk.inj (Option.some.inj hinsert)
          obtain ⟨rfl, hin, hc⟩ := insertOrIgnore_true hevents
          refine ⟨⟨⟨h.stored.write hevent hc, h.deadLetters, h.chained⟩, fun u hu => ?_⟩,
            fun hb => absurd hb.symm Bool.false_ne_true,
            fun _ => ⟨hheld.events.write key event, hheld.outbox, hheld.deadLetters, hheld.chain, rfl⟩⟩
          exact ⟨frame_insertOrIgnore hevents hu, .refl u _, .refl u _, .refl u _, fun _ hk => hk, .refl _,
            .refl _, rfl⟩

theorem Ingested.insertForwardOutbox (h : Ingested sha256 gaps d) {row : ForwardOutbox} (hheld : d.outbox.Unheld t)
    (hinsert : insertForwardOutbox id row t d = some (b, d')) :
    Keeps sha256 gaps t d d' ∧ (b = false → d' = d) ∧ (b = true → d'.outbox.HoldsOnly t id row ∧
      d'.events = d.events ∧ d'.deadLetters = d.deadLetters ∧ d'.chain = d.chain ∧ d'.unlinked = d.unlinked) := by
  obtain ⟨⟨b', outbox⟩, hins, he⟩ := Option.map_eq_some_iff.mp hinsert
  obtain ⟨rfl, rfl⟩ := Prod.mk.inj he
  have hintents := h.stored.intentsInsertOnly.insertOrIgnore hins
  have hc := committed_insertOrIgnore hins
  refine ⟨⟨⟨⟨h.stored.insertOnly, hintents, h.stored.hashed, ?_, ?_⟩, h.deadLetters, h.chained⟩, fun u hu => ?_⟩, ?_, ?_⟩
  · rw [hc]
    exact h.stored.intended
  · rw [hc]
    exact h.stored.once
  · exact ⟨.refl u _, frame_insertOrIgnore hins hu, .refl u _, .refl u _, fun _ hk => hk, .refl _, .refl _, rfl⟩
  · rintro rfl
    obtain ⟨-, rfl, -⟩ | ⟨hb, -⟩ := insertOrIgnore_cases hins
    · rfl
    · contradiction
  · rintro rfl
    obtain ⟨rfl, -, -⟩ := insertOrIgnore_true hins
    exact ⟨hheld.write id row, rfl, rfl, rfl, rfl⟩

theorem Ingested.insertDeadLetter (h : Ingested sha256 gaps d) {row : DeadLetterEntry F} (hheld : Unheld t d)
    (hinsert : insertDeadLetter dlqId row t d = some (b, d')) :
    Keeps sha256 gaps t d d' ∧ (b = true → d'.deadLetters.HoldsOnly t dlqId row ∧ d'.events.Unheld t ∧
      d'.outbox.Unheld t ∧ d'.chain.table.Unheld t ∧ d'.unlinked = d.unlinked) := by
  obtain ⟨⟨b', deadLetters⟩, hins, he⟩ := Option.map_eq_some_iff.mp hinsert
  obtain ⟨rfl, rfl⟩ := Prod.mk.inj he
  refine ⟨⟨⟨h.stored, h.deadLetters.insertOrIgnore hins, h.chained⟩, fun u hu => ?_⟩, ?_⟩
  · refine ⟨.refl u _, .refl u _, frame_insertOrIgnore hins hu, .refl u _, fun _ hk => hk, .refl _, ?_, rfl⟩
    intro k v hv
    exact (congrFun (committed_insertOrIgnore hins) k).trans hv
  · rintro rfl
    obtain ⟨rfl, -, -⟩ := insertOrIgnore_true hins
    exact ⟨hheld.deadLetters.write dlqId row, hheld.events, hheld.outbox, hheld.chain, rfl⟩

/-! ## the chain -/

theorem Ingested.chainLock (h : Ingested sha256 gaps d) (hlock : chainLock t d = some ((), d')) :
    Keeps sha256 gaps t d d' ∧ d'.chain.locks chainLockKey = some t ∧ d'.chain.table = d.chain.table ∧
      d'.events = d.events ∧ d'.outbox = d.outbox ∧ d'.deadLetters = d.deadLetters ∧ d'.unlinked = d.unlinked := by
  obtain ⟨⟨⟨⟩, chain⟩, hadvisory, he⟩ := Option.map_eq_some_iff.mp hlock
  obtain ⟨-, rfl⟩ := Prod.mk.inj he
  have hordered := h.chained.ordered.advisoryXactLock hadvisory
  obtain ⟨rfl, hkeep⟩ := LockedLog.advisoryXactLock_cases hadvisory
  refine ⟨⟨⟨h.stored, h.deadLetters, h.chained.ends hordered (fun _ _ _ _ => Iff.rfl) fun _ _ _ hin => hin⟩,
    fun u _ => ?_⟩, Function.update_self chainLockKey (some t) d.chain.locks, rfl, rfl, rfl, rfl, rfl⟩
  exact ⟨.refl u _, .refl u _, .refl u _, .refl u _, fun k hk => hkeep k u hk, .refl _, .refl _, rfl⟩

theorem Ingested.insertLink (h : Ingested sha256 gaps d) (hlock : d.chain.locks chainLockKey = some t)
    (hheld : d.chain.table.Unheld t) (howed : ∀ key, isAccepted key row = true → d.unlinked t = some key) :
    Keeps sha256 gaps t d { d with chain := d.chain.insert t row } ∧
      (d.chain.insert t row).table.HoldsOnly t d.chain.nextSequence row := by
  have hfree : d.chain.table.inflight d.chain.nextSequence = none :=
    (d.chain.table.complete _ h.chained.ordered.not_mem).2
  refine ⟨⟨⟨h.stored, h.deadLetters, h.chained.insertRow hlock howed⟩, fun u hu => ?_⟩,
    hheld.write d.chain.nextSequence row⟩
  have hframe : Frame u d.chain.table (d.chain.insert t row).table :=
    frame_write hu (free_iff.mpr (by simp [hfree]))
  exact ⟨.refl u _, .refl u _, .refl u _, hframe, fun _ hk => hk, .refl _, .refl _, rfl⟩

/-! ## the ends of transactions -/

omit [Numerals F] in
theorem rely_commit (t : Txn) (hevents : d.events.InsertOnly) (hletters : d.deadLetters.InsertOnly) (hu : u ≠ t)
    (unlinked : Txn → Option String) (hunlinked : unlinked u = d.unlinked u) :
    IngestRely u d { Database.commit t d with unlinked := unlinked } :=
  ⟨frame_commit _ hu, frame_commit _ hu, frame_commit _ hu, frame_commit _ hu,
    fun _ hk => LockedLog.release_of_ne hu hk, hevents.grows_commit t, hletters.grows_commit t, hunlinked⟩

theorem Ingested.rollback (h : Ingested sha256 gaps d) (t : Txn) : Keeps sha256 gaps t d (Database.rollback t d) := by
  refine ⟨⟨⟨h.stored.insertOnly.rollback t, h.stored.intentsInsertOnly.rollback t,
    fun key event hversion => h.stored.hashed key event hversion.of_rollback, h.stored.intended, h.stored.once⟩,
    h.deadLetters.rollback t, ?_⟩, fun u hu => ?_⟩
  · exact h.chained.rollback t
  · exact ⟨frame_rollback _ hu, frame_rollback _ hu, frame_rollback _ hu, frame_rollback _ hu,
      fun _ hk => LockedLog.release_of_ne hu hk, .refl _, .refl _, rfl⟩

theorem Stored.commit (h : Stored sha256 events outbox) (hevents : events.Unheld t) (houtbox : outbox.Unheld t) :
    Stored sha256 (events.commit t) (outbox.commit t) ∧ acceptedKeys (events.commit t) = acceptedKeys events := by
  have haccepted : (events.commit t).committed = events.committed := funext hevents.committed_commit
  have hintents : (outbox.commit t).committed = outbox.committed := funext houtbox.committed_commit
  refine ⟨⟨h.insertOnly.commit t, h.intentsInsertOnly.commit t,
    fun key event hversion => h.hashed key event hversion.of_commit, ?_, ?_⟩, ?_⟩
  · rw [acceptedKeys, haccepted, hintents]
    exact h.intended
  · rw [hintents]
    exact h.once
  · rw [acceptedKeys, haccepted]
    rfl

/-- An event is committed together with its intent to forward. -/
theorem Stored.commitEvent (h : Stored sha256 events outbox) {row : ForwardOutbox}
    (hevent : events.HoldsOnly t key event) (hrow : outbox.HoldsOnly t id row) (hkey : row.idempotencyKey = key) :
    Stored sha256 (events.commit t) (outbox.commit t) ∧
      acceptedKeys (events.commit t) = insert key (acceptedKeys events) ∧ key ∉ acceptedKeys events := by
  have hnone : events.committed key = none := h.insertOnly key t event hevent.holds
  have hnew : key ∉ acceptedKeys events := fun hmem => hmem hnone
  have hfree : outbox.committed id = none := h.intentsInsertOnly id t row hrow.holds
  have haccepted : acceptedKeys (events.commit t) = insert key (acceptedKeys events) := by
    ext key'
    rw [Set.mem_insert_iff]
    show (events.commit t).committed key' ≠ none ↔ key' = key ∨ events.committed key' ≠ none
    rw [hevent.committed_commit]
    grind
  -- an intent that was there before is of another event
  have hold : ∀ id' row', outbox.committed id' = some row' → row'.idempotencyKey ≠ key := by
    intro id' row' hrow' he
    exact hnew ((h.intended key).mpr ⟨id', row', hrow', he⟩)
  refine ⟨⟨h.insertOnly.commit t, h.intentsInsertOnly.commit t,
    fun key' event' hversion => h.hashed key' event' hversion.of_commit, fun key' => ?_,
    fun id₁ id₂ row₁ row₂ h₁ h₂ hsame => ?_⟩, haccepted, hnew⟩
  · rw [haccepted, Set.mem_insert_iff, h.intended]
    constructor
    · rintro (rfl | ⟨id', row', hrow', hkey'⟩)
      · exact ⟨id, row, by rw [hrow.committed_commit, if_pos rfl], hkey⟩
      · have hid : id' ≠ id := by
          rintro rfl
          rw [hfree] at hrow'
          contradiction
        exact ⟨id', row', by rw [hrow.committed_commit, if_neg hid, hrow'], hkey'⟩
    · rintro ⟨id', row', hrow', hkey'⟩
      rw [hrow.committed_commit] at hrow'
      split at hrow'
      · obtain rfl := Option.some.inj hrow'
        exact .inl (hkey'.symm.trans hkey)
      · exact .inr ⟨id', row', hrow', hkey'⟩
  · rw [hrow.committed_commit] at h₁ h₂
    have hone := h.once id₁ id₂ row₁ row₂
    have hold₁ := hold id₁ row₁
    have hold₂ := hold id₂ row₂
    grind

theorem Ingested.commitEvent (h : Ingested sha256 gaps d) {row : ForwardOutbox}
    (hevent : d.events.HoldsOnly t key event) (hrow : d.outbox.HoldsOnly t id row) (hkey : row.idempotencyKey = key)
    (hchain : d.chain.table.Unheld t) (hunlinked : d.unlinked t = none) :
    Keeps sha256 gaps t d { Database.commit t d with unlinked := Function.update d.unlinked t (some key) } := by
  obtain ⟨hstored, haccepted, hnew⟩ := h.stored.commitEvent hevent hrow hkey
  have hchained : Trail isAccepted chainLockKey gaps (acceptedKeys d.events) (Database.commit t d.chain) d.unlinked :=
    h.chained.commit fun n row _ hin => absurd hin (hchain n row)
  refine ⟨⟨hstored, h.deadLetters.commit t, ?_⟩, fun u hu => rely_commit t h.stored.insertOnly h.deadLetters hu _
    (Function.update_of_ne hu _ _)⟩
  show Trail isAccepted chainLockKey gaps (acceptedKeys (d.events.commit t)) _ _
  rw [haccepted]
  exact hchained.accept hnew hunlinked

theorem Ingested.commit (h : Ingested sha256 gaps d) (hevents : d.events.Unheld t) (houtbox : d.outbox.Unheld t)
    (hlinks : ∀ n row key, d.chain.table.inflight n = some (t, row) → isAccepted key row = false) :
    Keeps sha256 gaps t d (Database.commit t d) := by
  obtain ⟨hstored, haccepted⟩ := h.stored.commit hevents houtbox
  refine ⟨⟨hstored, h.deadLetters.commit t, ?_⟩, fun u hu => rely_commit t h.stored.insertOnly h.deadLetters hu _ rfl⟩
  show Trail isAccepted chainLockKey gaps (acceptedKeys (d.events.commit t)) _ _
  rw [haccepted]
  exact h.chained.commit hlinks

theorem Ingested.commitLink (h : Ingested sha256 gaps d) (hevents : d.events.Unheld t) (houtbox : d.outbox.Unheld t)
    (hrow : d.chain.table.HoldsOnly t n row) (hacc : isAccepted key row = true) (howed : d.unlinked t = some key) :
    Keeps sha256 gaps t d { Database.commit t d with unlinked := Function.update d.unlinked t none } := by
  obtain ⟨hstored, haccepted⟩ := h.stored.commit hevents houtbox
  refine ⟨⟨hstored, h.deadLetters.commit t, ?_⟩, fun u hu => rely_commit t h.stored.insertOnly h.deadLetters hu _
    (Function.update_of_ne hu _ _)⟩
  show Trail isAccepted chainLockKey gaps (acceptedKeys (d.events.commit t)) _ _
  rw [haccepted]
  exact h.chained.commitLink isAccepted_inj hrow hacc howed

end Statements

end Anoryx.Orchestrator
