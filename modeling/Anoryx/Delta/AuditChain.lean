import Anoryx.Delta.AuditLog

/-!
# Anoryx.Delta.AuditChain

What the audit log of `AuditLog` promises: under any interleaving of appends every
tenant's chain verifies, and with a digest free of collisions the last hash of a chain
that verifies determines every hashed field of it (`audit_chain`).

The first is an invariant over the statements of all transactions: what a transaction
sees of a tenant is a valid chain, and it stays as it is while the transaction holds the
tenant's lock.
-/

namespace Anoryx.Delta.AuditLog

open ReadCommitted PyJson PgColumn LockedLog

/-! ## the canonical form -/

theorem RowHashData.nodup_filtered (data : RowHashData) : (data.filtered.map Prod.fst).Nodup := by
  cases hnote : data.note <;> simp [RowHashData.filtered, hnote]

theorem RowHashData.distinct (data : RowHashData) : (Value.obj data.filtered).Distinct := by
  refine ⟨data.nodup_filtered, distinctMembers_iff.mpr ?_⟩
  cases hnote : data.note <;> simp [RowHashData.filtered, hnote, Value.Distinct]

theorem RowHashData.getItem_note (data : RowHashData) :
    getItem "note" data.filtered = data.note.map Value.str := by
  cases hnote : data.note <;> simp [RowHashData.filtered, hnote, getItem]

/-- **The canonical form is injective**, with a note and without. -/
theorem canonicalJson_injective {a b : RowHashData} (h : canonicalJson a = canonicalJson b) : a = b := by
  have hsame : Same (.obj a.filtered) (.obj b.filtered) :=
    (dumps_sortKeys_iff _ a.distinct b.distinct).mp (String.toByteArray_inj.mp h)
  have hget : ∀ k s t, getItem k a.filtered = some (.str s) → getItem k b.filtered = some (.str t) →
      s = t := by
    intro k s t hs ht
    rw [hsame.getItem_str a.nodup_filtered hs] at ht
    simpa using ht
  have hnote : a.note = b.note := by
    refine Option.ext fun note => ?_
    have hstr : ∀ data : RowHashData,
        data.note = some note ↔ getItem "note" data.filtered = some (.str note) := by
      intro data
      simp [data.getItem_note]
    rw [hstr, hstr]
    exact ⟨hsame.getItem_str a.nodup_filtered, hsame.symm.getItem_str b.nodup_filtered⟩
  exact RowHashData.ext (hget "tenant_id" _ _ rfl rfl) (hget "entity_type" _ _ rfl rfl)
    (hget "entity_id" _ _ rfl rfl) (hget "action" _ _ rfl rfl) (hget "actor" _ _ rfl rfl) hnote
    (hget "created_at" _ _ rfl rfl) (hget "prev_hash" _ _ rfl rfl)

theorem canonicalJson_ne_genesis (data : RowHashData) :
    canonicalJson data ≠ "anoryx-delta:financial-audit:genesis:v1".toUTF8 := by
  intro h
  have hlist := congrArg String.toList (String.toByteArray_inj.mp h)
  rw [dumps, String.toList_ofList, Value.sortKeys, Value.tokens, List.flatMap_cons] at hlist
  exact absurd (List.cons.inj hlist).1 (by decide)

/-! ## verified rows -/

variable {rows rows' : List (Nat × HistoryRow)} {r s row : HistoryRow} {sha256 : ByteArray → String}
  {req : HistoryRequest} {d : AuditDb}

section Verify

variable (sha256 : ByteArray → String)

/-- The chain that `verify_chain` walks. -/
def historyChain : HashChain (Nat × HistoryRow) String where
  genesis := genesisHash sha256
  prev p := p.2.prevHash
  hash p := p.2.rowHash
  digest p := p.2.recompute sha256

theorem verifyRows_eq {expectedPrev : String} {checked : Nat} :
    (verifyRows sha256 expectedPrev checked rows).isValid = true ↔
      (historyChain sha256).ValidFrom expectedPrev rows := by
  induction rows generalizing expectedPrev checked with
  | nil => simp [verifyRows, HashChain.ValidFrom]
  | cons p rows ih =>
      obtain ⟨sequenceNumber, row⟩ := p
      rw [verifyRows, HashChain.ValidFrom]
      show _ ↔ row.prevHash = _ ∧ row.rowHash = row.recompute sha256 ∧ _
      by_cases hprev : row.prevHash = expectedPrev
      · by_cases hhash : row.recompute sha256 = row.rowHash
        · simp only [hprev, hhash, ne_eq, not_true_eq_false, if_false, true_and, ih]
          rfl
        · simp [hprev, hhash, Ne.symm hhash]
      · simp [hprev]

theorem isValid_verify_iff : (verify sha256 rows).isValid = true ↔ (historyChain sha256).Valid rows :=
  verifyRows_eq sha256

/-- Two rows with the same hashed fields. -/
structure HistoryRow.Agrees (r s : HistoryRow) : Prop where
  tenantId : r.tenantId = s.tenantId
  entityType : r.entityType = s.entityType
  entityId : r.entityId = s.entityId
  action : r.action = s.action
  actor : r.actor = s.actor
  note : r.note = s.note
  createdAt : r.createdAt = s.createdAt
  prevHash : r.prevHash = s.prevHash

variable {sha256} (hsha : Function.Injective sha256)

include hsha

theorem agrees_of_recompute (h : r.recompute sha256 = s.recompute sha256) : r.Agrees s := by
  have hdata := canonicalJson_injective (hsha h)
  simp only [rowHashData, RowHashData.mk.injEq] at hdata
  obtain ⟨h₁, h₂, h₃, h₄, h₅, h₆, h₇, h₈⟩ := hdata
  exact ⟨h₁, h₂, h₃, h₄, h₅, h₆, DateTime.isoformat_injective h₇, h₈⟩

/-- **The last hash determines the rows.** -/
theorem verified_rows_determined (h : (verify sha256 rows).isValid = true) (h' : (verify sha256 rows').isValid = true)
    (htip : (historyChain sha256).tip rows = (historyChain sha256).tip rows') :
    List.Forall₂ (fun p q => p.2.Agrees q.2) rows rows' := by
  rw [isValid_verify_iff] at h h'
  refine h.determined (fun p q hpq => ?_) (fun p hp => ?_) h' htip
  · have hagrees := agrees_of_recompute hsha hpq
    exact ⟨hagrees, hagrees.prevHash⟩
  · exact canonicalJson_ne_genesis _ (hsha hp)

end Verify

/-! ## the invariant -/

/-- Every text fits its column, as the request models see to. -/
structure HistoryRequest.Fits (req : HistoryRequest) : Prop where
  historyId : req.historyId.length ≤ 64
  tenantId : req.tenantId.length ≤ 64
  entityType : req.entityType.length ≤ 32
  entityId : req.entityId.length ≤ 64
  action : req.action.length ≤ 32
  actor : req.actor.length ≤ 128
  note : ∀ note ∈ req.note, note.length ≤ 1024

theorem HistoryRequest.Fits.store_row (h : req.Fits) (prevHash : String) :
    (req.row sha256 prevHash).store = some (req.row sha256 prevHash) := by
  have hnote : (req.note.elim (some none) fun note => (varchar 1024 note).map some) = some req.note := by
    cases hn : req.note with
    | none => rfl
    | some note => rw [Option.elim_some, varchar_of_le (h.note note hn)]; rfl
  simp only [HistoryRow.store, HistoryRequest.row, varchar_of_le h.historyId, varchar_of_le h.tenantId,
    varchar_of_le h.entityType, varchar_of_le h.entityId, varchar_of_le h.action, varchar_of_le h.actor,
    hnote, Option.bind_eq_bind, Option.bind_some, Option.pure_def]

/-! ## every schedule -/

section Schedule

variable (sha256 : ByteArray → String) (hashtext : String → Int)

/-- The chain of each tenant, under the lock of its hash. -/
abbrev SoundAudit : AuditDb → Prop :=
  LockedLog.Sound (historyChain sha256) ofTenant hashtext

/-- Transactions that append rows which fit. -/
abbrev auditLogic : Logic AuditDb (List HistoryRequest) (List (Nat × HistoryRow)) :=
  logic (historyChain sha256) ofTenant hashtext fun reqs => ∀ req ∈ reqs, req.Fits

variable {sha256 hashtext}

theorem ofTenant_iff {tenantId : String} :
    ofTenant tenantId row = true ↔ row.tenantId = tenantId := decide_eq_true_iff

theorem wp_appendHistory {t : Txn} (hfits : req.Fits) :
    (auditLogic sha256 hashtext).wp t (fun _ _ => True) (appendHistory sha256 hashtext req) d := by
  refine Logic.wp_exec_bind fun d₁ h₁ _ _ d₂ hlock _ => ?_
  obtain ⟨⟨hsound, hrely⟩, hheld⟩ := Sound.advisoryXactLock h₁ hlock
  refine ⟨⟨hsound, hrely⟩, Logic.wp_query_bind Relies.refl fun d₃ h₃ hr₃ => ?_⟩
  refine Logic.wp_checked_bind fun d₄ h₄ hr₄ _ d₅ hinsert _ => ?_
  -- from here on the transaction has the lock, so the tip it has read stays the tip
  have hlock₃ : d₃.locks (hashtext req.tenantId) = some t := hr₃.locks _ hheld
  have hlock₄ : d₄.locks (hashtext req.tenantId) = some t := hr₄.locks _ hlock₃
  have htip : tipHash sha256 req.tenantId t d₃ =
      (historyChain sha256).tip (d₄.rowsOf (d₄.table.visible t) (ofTenant req.tenantId)) := by
    rw [tipHash, hr₄.rows req.tenantId hlock₃, HashChain.tip]
    cases (d₃.rowsOf (d₃.table.visible t) (ofTenant req.tenantId)).getLast? <;> rfl
  rw [insertHistory, hfits.store_row, Option.some.injEq, Prod.mk.injEq] at hinsert
  obtain ⟨-, rfl⟩ := hinsert
  obtain ⟨hsound', hrely'⟩ := Sound.insert h₄ (req.row sha256 (tipHash sha256 req.tenantId t d₃))
    (fun tenantId ht => by rwa [← ofTenant_iff.mp ht]) (fun tenantId ht => by rwa [← ofTenant_iff.mp ht]) rfl
  exact ⟨⟨hsound', hrely'⟩, fun _ _ _ _ _ => trivial⟩

theorem wp_appendAll {t : Txn} {reqs : List HistoryRequest} (hfits : ∀ req ∈ reqs, req.Fits)
    (h : SoundAudit sha256 hashtext d) :
    (auditLogic sha256 hashtext).wp t (fun _ _ => True) (appendAll sha256 hashtext reqs) d := by
  induction reqs generalizing d with
  | nil => exact fun _ _ _ => trivial
  | cons req reqs ih =>
      refine Logic.wp_bind (Relies.refl t) h ?_
      refine Logic.wp_mono (Q := fun _ _ => True) (fun record d' h' _ => ?_)
        (wp_appendHistory (hfits req (by simp)))
      refine Logic.wp_bind (Relies.refl t) h' ?_
      refine Logic.wp_mono (Q := fun _ _ => True) (fun records d'' _ _ => ?_)
        (ih (fun r hr => hfits r (by simp [hr])) h')
      exact fun _ _ _ => trivial

theorem auditLogic_sound : (auditLogic sha256 hashtext).Sound (appendAll sha256 hashtext) :=
  logic_sound fun _ _ _ hfits h => wp_appendAll hfits h

end Schedule

/-- A database between transactions whose chains verify: an empty one, or one that a
migration has filled. -/
structure Settled (sha256 : ByteArray → String) (d : AuditDb) : Prop where
  quiet : d.table.Quiet
  ordered : d.table.keys.Pairwise (· < ·)
  bounded : ∀ k ∈ d.table.keys, k < d.nextSequence
  valid : ∀ t tenantId, (verifyChain sha256 tenantId t d).isValid = true

theorem Settled.sound (h : Settled sha256 d) (hashtext : String → Int) : SoundAudit sha256 hashtext d :=
  sound_of_quiet h.quiet h.ordered h.bounded fun t tenantId =>
    (isValid_verify_iff sha256).mp (h.valid t tenantId)

theorem settled_empty (sha256 : ByteArray → String) : Settled sha256 LockedLog.empty :=
  ⟨fun _ => rfl, .nil, nofun, fun _ _ => rfl⟩

/-- **The audit chain.**  Whatever the order of the appends, every session sees a chain of
every tenant that verifies; and where no two texts have one digest, chains that verify
and end in the same hash agree on every hashed field of every row. -/
theorem audit_chain (sha256 : ByteArray → String) (hashtext : String → Int) (d : AuditDb)
    (hd : Settled sha256 d) :
    (∀ (schedule : List (Action (List HistoryRequest)))
        (s : Sys AuditDb AuditError (List HistoryRequest) (List (Nat × HistoryRow))),
      (∀ t reqs, .begin t reqs ∈ schedule → ∀ req ∈ reqs, req.Fits) →
      run (appendAll sha256 hashtext) (Sys.start d) schedule = some s →
      ∀ t tenantId, (verifyChain sha256 tenantId t s.db).isValid = true) ∧
    (Function.Injective sha256 → ∀ rows rows' : List (Nat × HistoryRow),
      (verify sha256 rows).isValid = true → (verify sha256 rows').isValid = true →
      (historyChain sha256).tip rows = (historyChain sha256).tip rows' →
      List.Forall₂ (fun p q => p.2.Agrees q.2) rows rows') := by
  refine ⟨fun schedule s hfits hrun t tenantId => ?_, fun hsha rows rows' h h' htip =>
    verified_rows_determined hsha h h' htip⟩
  exact (isValid_verify_iff sha256).mpr
    (valid_of_run auditLogic_sound (hd.sound hashtext) hfits hrun t tenantId)

section Sample

def sampleMoment (second microsecond : Nat)
    (h : DateTime.valid 2026 7 8 12 0 second microsecond = true) : AwareDateTime :=
  ⟨.ofFields 2026 7 8 12 0 second microsecond h, 0⟩

def sampleRequests : HistoryRequest × HistoryRequest × HistoryRequest :=
  (⟨"tenant-a", "allocation", "a-1", "requested", "operator-1", sampleMoment 0 0 (Eq.refl true), none, "h-1"⟩,
    ⟨"tenant-b", "invoice", "i-1", "submitted", "operator-2", sampleMoment 1 500000 (Eq.refl true),
      some "first \"draft\"", "h-2"⟩,
    ⟨"tenant-a", "allocation", "a-1", "approved", "operator-3", sampleMoment 2 0 (Eq.refl true),
      some "ok – done", "h-3"⟩)

def sampleSha256 : ByteArray → String := HashChain.knownDigest
  [("anoryx-delta:financial-audit:genesis:v1",
      "031004c45b05a0548f85110753aee06bf2f836b8f5febd1ff7c477914fd1b3c2"),
    ("\x7b\"action\":\"requested\",\"actor\":\"operator-1\",\"created_at\":\"2026-07-08T12:00:00+00:00\",\"entity_id\":\"a-1\",\"entity_type\":\"allocation\",\"prev_hash\":\"031004c45b05a0548f85110753aee06bf2f836b8f5febd1ff7c477914fd1b3c2\",\"tenant_id\":\"tenant-a\"\x7d",
      "307e62a64ef7c8d427fb584367f506f3856576a5f70f7748f922b54581f531b6"),
    ("\x7b\"action\":\"submitted\",\"actor\":\"operator-2\",\"created_at\":\"2026-07-08T12:00:01.500000+00:00\",\"entity_id\":\"i-1\",\"entity_type\":\"invoice\",\"note\":\"first \\\"draft\\\"\",\"prev_hash\":\"031004c45b05a0548f85110753aee06bf2f836b8f5febd1ff7c477914fd1b3c2\",\"tenant_id\":\"tenant-b\"\x7d",
      "9c5ae7ae21e83fff6aafb12756c0016dbc8df557ce758961d971e37cbf115b24"),
    ("\x7b\"action\":\"approved\",\"actor\":\"operator-3\",\"created_at\":\"2026-07-08T12:00:02+00:00\",\"entity_id\":\"a-1\",\"entity_type\":\"allocation\",\"note\":\"ok – done\",\"prev_hash\":\"307e62a64ef7c8d427fb584367f506f3856576a5f70f7748f922b54581f531b6\",\"tenant_id\":\"tenant-a\"\x7d",
      "8a0927cdff6216ee4b1be08f755004f1e2e3d03560c76775bb38e250db3552fb")]

def sampleSchedule : List (Action (List HistoryRequest)) :=
  [.begin 1 [sampleRequests.1], .begin 2 [sampleRequests.2.1], .begin 3 [sampleRequests.2.2],
    .exec 1, .exec 2, .exec 1, .exec 2, .exec 2, .exec 1, .commit 1, .exec 3, .exec 3, .commit 2,
    .exec 3, .commit 3]

def sampleHashtext (tenantId : String) : Int := if tenantId = "tenant-a" then 1 else 2

theorem sampleSha256_injective : Function.Injective sampleSha256 :=
  HashChain.knownDigest_injective (by decide +kernel) (by decide +kernel)

theorem audit_chain_sample : ∃ s, run (appendAll sampleSha256 sampleHashtext) (Sys.start LockedLog.empty)
      sampleSchedule = some s ∧
    (verifyChain sampleSha256 "tenant-a" 4 s.db).isValid = true ∧
    ∀ rows', (verify sampleSha256 rows').isValid = true →
      (historyChain sampleSha256).tip rows' =
        "8a0927cdff6216ee4b1be08f755004f1e2e3d03560c76775bb38e250db3552fb" →
      List.Forall₂ (fun p q => p.2.Agrees q.2)
        (s.db.rowsOf (s.db.table.visible 4) (ofTenant "tenant-a")) rows' := by
  have hlast : ((run (appendAll sampleSha256 sampleHashtext) (Sys.start LockedLog.empty)
      sampleSchedule).map fun s =>
        (historyChain sampleSha256).tip (s.db.rowsOf (s.db.table.visible 4) (ofTenant "tenant-a"))) =
      some "8a0927cdff6216ee4b1be08f755004f1e2e3d03560c76775bb38e250db3552fb" := by
    decide +kernel
  obtain ⟨s, hrun, htip⟩ := Option.map_eq_some_iff.mp hlast
  obtain ⟨hvalid, hdetermined⟩ := audit_chain sampleSha256 sampleHashtext LockedLog.empty
    (settled_empty sampleSha256)
  have hfits : ∀ t reqs, .begin t reqs ∈ sampleSchedule → ∀ req ∈ reqs, req.Fits := by
    intro t reqs hmem req hreq
    have hreqs : reqs = [sampleRequests.1] ∨ reqs = [sampleRequests.2.1] ∨ reqs = [sampleRequests.2.2] := by
      simp only [sampleSchedule, List.mem_cons, List.not_mem_nil, or_false, reduceCtorEq,
        Action.begin.injEq] at hmem
      rcases hmem with ⟨-, h⟩ | ⟨-, h⟩ | ⟨-, h⟩
      · exact .inl h
      · exact .inr (.inl h)
      · exact .inr (.inr h)
    rcases hreqs with rfl | rfl | rfl
    all_goals
      obtain rfl := List.mem_singleton.mp hreq
      exact ⟨by decide +kernel, by decide +kernel, by decide +kernel, by decide +kernel,
        by decide +kernel, by decide +kernel, by decide +kernel⟩
  have hs := hvalid sampleSchedule s hfits hrun 4 "tenant-a"
  exact ⟨s, hrun, hs, fun rows' h' htip' =>
    hdetermined sampleSha256_injective _ rows' hs h' (htip.trans htip'.symm)⟩

end Sample

end Anoryx.Delta.AuditLog
