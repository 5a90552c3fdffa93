import Anoryx.Sentinel.BulkLifecycle

/-!
# Anoryx.Sentinel.BulkRuns

Submissions, and any run of submissions and workers.

* `bulk_file_lifecycle` — a terminal file stays as it is, its slot is released once, and its
  batch is announced as completed once.
-/

namespace Anoryx.Sentinel

open ReadCommitted Exclusive Table

variable {d d' d'' : BulkDb} {t u : Txn} {fileId : String} {row : BatchFileRow}

/-! ## a submission's program -/

variable {objectKey tenantId batchId : String} {fate : CommitFate} {settings : BulkSettings}

section Submit

variable {call : SubmitCall}

/-- With the batch inserted, and some of its files. -/
structure Creating (t : Txn) (call : SubmitCall) (keys : List String) (d : BulkDb) : Prop where
  submitting : Submitting t d
  batch : d.batches.inflight call.batchId = some (t, call.batchRow)
  absent : d.batches.committed call.batchId = none
  only : ∀ batchId batch, d.batches.inflight batchId = some (t, batch) → batchId = call.batchId
  files : ∀ key ∈ keys, d.files.inflight (call.fileId key) = some (t, call.fileRow key)

variable {keys : List String} {key : Option String}

theorem Creating.rely (h : Creating t call keys d) (hr : BulkRely t key d d') :
    Creating t call keys d' where
  submitting := h.submitting.rely hr
  batch := (hr.batches.frame.inflight _ _).mp h.batch
  absent := (hr.batches.held _ _ h.batch).trans h.absent
  only batchId batch hin := h.only batchId batch ((hr.batches.frame.inflight batchId batch).mpr hin)
  files objectKey hmem := (hr.files.frame.inflight _ _).mp (h.files objectKey hmem)

theorem Submitting.keeps_rollback (h : Submitting t d) (hinv : BulkInv d) :
    bulkSpec.Keeps t key d (Database.rollback t d) := by
  refine Sentinel.keeps_rollback hinv (fun fileId row v _ hrow hin => ?_) h.batches
  rw [(h.files fileId v hin).1] at hrow
  contradiction

theorem Submitting.keeps_commit (h : Submitting t d) (hinv : BulkInv d)
    (hbatches : ∀ batchId batch, d.batches.inflight batchId = some (t, batch) → d.batches.committed batchId = none →
      ∃ fileId row, d.files.inflight fileId = some (t, row) ∧ row.batchId = batchId ∧ d.files.committed fileId = none) :
    bulkSpec.Keeps t key d (Database.commit t d) := by
  refine Sentinel.keeps_commit hinv (fun fileId row v _ hrow hin => ?_) (fun fileId row hin _ => (h.files fileId row hin).2) hbatches
  rw [(h.files fileId v hin).1] at hrow
  contradiction

theorem Idle.insertBatch (h : Idle t d) (hinv : BulkInv d) {inserted : Bool}
    (hinsert : Sentinel.insertBatch call.batchId call.batchRow t d = some (inserted, d')) :
    bulkSpec.Keeps t none d d' ∧ Submitting t d' ∧ (inserted = false → d' = d) ∧ (inserted = true → Creating t call [] d') := by
  unfold Sentinel.insertBatch at hinsert
  split at hinsert
  · contradiction
  split at hinsert
  · cases hinsert
    exact ⟨keeps_same hinv ⟨rfl, rfl, rfl, rfl, rfl, rfl⟩, h.submitting, fun _ => rfl, fun hbad => absurd hbad Bool.false_ne_true⟩
  obtain ⟨⟨b, batches⟩, hins, he⟩ := Option.bind_eq_some_iff.mp hinsert
  rcases insertOrIgnore_cases hins with ⟨rfl, -, -⟩ | ⟨rfl, rfl, hin, hnone⟩
  · contradiction
  · cases he
    have hopen : call.batchRow.status ≠ .completed := BatchStatus.noConfusion
    have hfollows := (hinv.batchesEvolve.insertOrIgnore hins).2
    have honly := h.batches.write call.batchId call.batchRow
    have hsubmitting : Submitting t { d with batches := d.batches.write t call.batchId call.batchRow } := by
      refine ⟨h.submitting.files, fun batchId batch hbatch => ?_⟩
      rw [(honly.unique hbatch).2]
      exact hopen
    refine ⟨keeps_of (hinv.insertBatch hin hnone hopen) (fun u _ => Follows.refl u _) hfollows
      (fun fileId _ _ _ => ⟨rfl, rfl, fun _ => Iff.rfl, fun _ => Iff.rfl, rfl⟩)
      (fun _ row' hnone hrow => absurd (hnone.symm.trans hrow) (Option.some_ne_none row').symm), hsubmitting,
      fun hbad => absurd hbad.symm Bool.false_ne_true,
      fun _ => ⟨hsubmitting, honly.holds, hnone, honly.only, fun _ hmem => absurd hmem List.not_mem_nil⟩⟩

theorem Creating.insertFile (h : Creating t call keys d) (hinv : BulkInv d)
    (hinsert : Sentinel.insertFile (call.fileId objectKey) (call.fileRow objectKey) t d = some ((), d')) :
    bulkSpec.Keeps t none d d' ∧ Creating t call (objectKey :: keys) d' := by
  obtain ⟨⟨b, files⟩, hins, he⟩ := Option.bind_eq_some_iff.mp hinsert
  rcases insertOrIgnore_cases hins with ⟨rfl, -, -⟩ | ⟨rfl, rfl, hin, hnone⟩
  · contradiction
  · cases he
    have hfree : d.files.free t (call.fileId objectKey) = true := by
      rw [free, hin]
    have hstep : ∀ old, d.files.committed (call.fileId objectKey) = some old → fileStep old (call.fileRow objectKey) :=
      fun old hold => absurd (hnone.symm.trans hold) (Option.some_ne_none old).symm
    have hsubmitting : Submitting t { d with files := d.files.write t (call.fileId objectKey) (call.fileRow objectKey) } := by
      refine ⟨fun fileId row hheld => ?_, h.submitting.batches⟩
      rcases inflight_write_cases hheld with ⟨rfl, -, rfl⟩ | ⟨-, hheld⟩
      · exact ⟨hnone, rfl⟩
      · exact h.submitting.files fileId row hheld
    refine ⟨keeps_of (hinv.writeFile hfree hstep fun _ => ⟨h.absent, call.batchRow, h.batch, rfl⟩)
      (hinv.filesEvolve.insertOrIgnore hins).2 (fun u _ => Follows.refl u _) (fun fileId row _ hrow => ?_)
      (fun _ row' hnone hrow => absurd (hnone.symm.trans hrow) (Option.some_ne_none row').symm),
      ⟨hsubmitting, h.batch, h.absent, h.only, fun key hmem => ?_⟩⟩
    · have hne : fileId ≠ call.fileId objectKey := by
        rintro rfl
        rw [hnone] at hrow
        contradiction
      exact ⟨rfl, inflight_write_of_ne hne, fun _ => Iff.rfl, fun _ => Iff.rfl, rfl⟩
    · rcases List.mem_cons.mp hmem with rfl | hmem
      · exact inflight_write_self ..
      · have hheld := h.files key hmem
        refine (inflight_write_of_ne fun hsame => ?_).trans hheld
        rw [hsame, hin] at hheld
        contradiction

theorem wp_insertFiles {keys done : List String} (h : Creating t call done d) :
    bulkSpec.wp t (.submit call) (fun _ d' => Creating t call (keys.reverse ++ done) d')
      (insertFiles call keys) d := by
  induction keys generalizing done d with
  | nil => exact fun d' _ hr _ => h.rely hr
  | cons key keys ih =>
      refine wp_exec_bind fun d₁ h₁ hr₁ _ _ d₂ hinsert => ?_
      obtain ⟨hkeeps, hcreating⟩ := (h.rely hr₁).insertFile h₁ hinsert
      rw [List.reverse_cons, List.append_assoc]
      exact ⟨hkeeps, hcreating.submitting, ih hcreating⟩

/-- The batch and its files are there. -/
structure Created (t : Txn) (call : SubmitCall) (d : BulkDb) : Prop where
  idle : Idle t d
  files : ∀ key ∈ call.keys, ∃ row, d.files.committed (call.fileId key) = some row ∧ row.batchId = call.batchId ∧
    row.tenantId = call.tenantId

theorem Created.rely (h : Created t call d) (hr : BulkRely t none d d') : Created t call d' where
  idle := h.idle.rely hr
  files key hmem := by
    obtain ⟨row, hrow, hbatch, htenant⟩ := h.files key hmem
    obtain ⟨row', hrow', hstep⟩ := hr.files.moves (call.fileId key) row hrow
    exact ⟨row', hrow', hstep.1.trans hbatch, hstep.2.1.trans htenant⟩

theorem Created.same (h : Created t call d) (hsame : SameTables d d') : Created t call d' :=
  ⟨h.idle.same hsame, hsame.files ▸ h.files⟩

variable {reserved : Bool}

theorem Creating.commitBatch (h : Creating t call keys d) (hinv : BulkInv d)
    (hkeys : ∀ key ∈ call.keys, key ∈ keys) (hsome : keys ≠ [])
    (hcommit : Sentinel.commitBatch call reserved t d = some ((), d')) :
    bulkSpec.Keeps t none d d' ∧ Created t call d' := by
  obtain ⟨-, rfl⟩ := Prod.mk.inj (Option.some.inj hcommit)
  obtain ⟨key, hkey⟩ := List.exists_mem_of_ne_nil keys hsome
  have hkeeps : bulkSpec.Keeps t none d (Database.commit t d) := by
    refine h.submitting.keeps_commit hinv fun batchId batch hin _ => ⟨call.fileId key, _, h.files key hkey, ?_, ?_⟩
    · exact (h.only batchId batch hin).symm
    · exact (h.submitting.files _ _ (h.files key hkey)).1
  have hcreated : Created t call (Database.commit t d) :=
    ⟨idle_commit t d, fun key hmem => ⟨call.fileRow key, visible_of_inflight (h.files key (hkeys key hmem)), rfl, rfl⟩⟩
  refine ⟨hkeeps.trans BulkRely.trans (fun h h' => ⟨h.1.trans h'.1, h.2.trans h'.2⟩)
    (keeps_same hkeeps.inv ⟨rfl, rfl, rfl, rfl, rfl, rfl⟩), hcreated.same ⟨rfl, rfl, rfl, rfl, rfl, rfl⟩⟩

theorem wp_endCreation (h : Creating t call keys d) (hkeys : ∀ key ∈ call.keys, key ∈ keys) (hsome : keys ≠ []) :
    bulkSpec.wp t (.submit call) (fun creation d' => Idle t d' ∧ (creation = .created → Created t call d'))
      (endCreation call reserved fate) d := by
  have hdone : ∀ creation, bulkSpec.wp t (.submit call)
      (fun creation d' => Idle t d' ∧ (creation = .created → Created t call d'))
      (Prog.exec (commitBatch call reserved) >>= fun _ => pure creation : Prog BulkDb BulkError Creation) d := by
    intro creation
    refine wp_exec_bind fun d₁ h₁ hr₁ _ _ d₂ hcommit => ?_
    obtain ⟨hkeeps, hcreated⟩ := (h.rely hr₁).commitBatch h₁ hkeys hsome hcommit
    exact ⟨hkeeps, hcreated.idle.submitting, fun d₃ _ hr₃ _ => ⟨hcreated.idle.rely hr₃, fun _ => hcreated.rely hr₃⟩⟩
  cases fate with
  | completes => exact hdone .created
  | breaks committed =>
      cases committed with
      | true => exact hdone .failed
      | false =>
          refine wp_rollbackWork_bind fun d₁ h₁ hr₁ _ => ?_
          exact ⟨(h.submitting.rely hr₁).keeps_rollback h₁, (idle_rollback t d₁).submitting,
            fun d₂ _ hr₂ _ => ⟨(idle_rollback t d₁).rely hr₂, fun hbad => Creation.noConfusion hbad⟩⟩

theorem wp_abandon (h : Submitting t d) :
    bulkSpec.wp t (.submit call) (fun creation d' => Idle t d' ∧ (creation = .created → Created t call d'))
      (do
        Prog.rollbackWork
        pure .integrityError : Prog BulkDb BulkError Creation) d := by
  refine wp_rollbackWork_bind fun d₁ h₁ hr₁ _ => ?_
  exact ⟨(h.rely hr₁).keeps_rollback h₁, (idle_rollback t d₁).submitting,
    fun d₂ _ hr₂ _ => ⟨(idle_rollback t d₁).rely hr₂, fun hbad => Creation.noConfusion hbad⟩⟩

theorem wp_createBatch (h : Idle t d) (hsome : call.keys ≠ []) :
    bulkSpec.wp t (.submit call) (fun creation d' => Idle t d' ∧ (creation = .created → Created t call d'))
      (createBatch call reserved fate) d := by
  refine wp_exec_bind fun d₁ h₁ hr₁ _ inserted d₂ hinsert => ?_
  obtain ⟨hkeeps, hsubmitting, -, hcreating⟩ := (h.rely hr₁).insertBatch h₁ hinsert
  refine ⟨hkeeps, hsubmitting, ?_⟩
  cases inserted with
  | false => exact wp_abandon hsubmitting
  | true =>
      refine wp_bind (BulkRely.refl t _) hkeeps.inv hsubmitting
        (wp_mono (fun _ d₃ _ _ hcreating₃ => ?_) (wp_insertFiles (hcreating rfl)))
      exact wp_endCreation hcreating₃ (fun key hmem => List.mem_append_left _ (List.mem_reverse.mpr hmem))
        fun hnil => hsome (List.reverse_eq_nil_iff.mp (List.append_eq_nil_iff.mp hnil).1)

theorem wp_fetchExisting (h : Idle t d) :
    bulkSpec.wp t (.submit call) (fun _ d' => Idle t d') call.fetchExisting d := by
  refine wp_query_bind BulkRely.refl (fun _ => ⟨Moves.refl _, Moves.refl _⟩) fun d₁ _ hr₁ _ => ?_
  have hidle := h.rely hr₁
  split
  · exact fun d₂ _ hr₂ _ => hidle.rely hr₂
  · refine wp_query_bind BulkRely.refl (fun _ => ⟨Moves.refl _, Moves.refl _⟩) fun d₂ _ hr₂ _ => ?_
    exact fun d₃ _ hr₃ _ => (hidle.rely hr₂).rely hr₃

theorem wp_createOrGet (h : Idle t d) (hinv : BulkInv d) (hsome : call.keys ≠ []) :
    bulkSpec.wp t (.submit call) (fun creation d' => Idle t d' ∧ (creation = .created → Created t call d'))
      (createOrGet call reserved) d := by
  unfold createOrGet
  split
  · exact fun d₁ _ hr₁ _ => ⟨h.rely hr₁, fun hbad => Creation.noConfusion hbad⟩
  · refine wp_bind (BulkRely.refl t _) hinv h.submitting (wp_mono (fun existing d₁ _ _ hidle => ?_)
      (wp_fetchExisting h))
    cases existing with
    | none => exact wp_createBatch hidle hsome
    | some answer => exact fun d₂ _ hr₂ _ => ⟨hidle.rely hr₂, fun hbad => Creation.noConfusion hbad⟩

theorem wp_redis_idle {γ δ : Type} {f : Txn → BulkDb → γ × BulkDb} {fate : CallFate}
    {k : Except CallError γ → Prog BulkDb BulkError δ} {Q : δ → BulkDb → Prop} (hsame : ∀ t d, SameTables d (f t d).2)
    (h : Idle t d) (hk : ∀ r d, Idle t d → bulkSpec.wp t (.submit call) Q (k r) d) :
    bulkSpec.wp t (.submit call) Q (redisCall f fate >>= k) d :=
  wp_redisCall_bind (P := Idle t) hsame (fun _ _ hidle hr => hidle.rely hr) (fun _ _ hidle hs => hidle.same hs) h hk

theorem wp_idle {γ : Type} {b : γ} (h : Idle t d) :
    bulkSpec.wp t (.submit call) (fun _ d' => Idle t d') (pure b : Prog BulkDb BulkError γ) d :=
  fun _ _ hr _ => h.rely hr

theorem sameTables_incrBatches (tenantId : String) (t : Txn) (d : BulkDb) : SameTables d (incrBatches tenantId t d).2 :=
  ⟨rfl, rfl, rfl, rfl, rfl, rfl⟩

theorem sameTables_decrBatches (tenantId : String) (t : Txn) (d : BulkDb) : SameTables d (decrBatches tenantId t d).2 :=
  ⟨rfl, rfl, rfl, rfl, rfl, rfl⟩

theorem sameTables_incrFiles (tenantId : String) (n : Nat) (t : Txn) (d : BulkDb) : SameTables d (incrFiles tenantId n t d).2 :=
  ⟨rfl, rfl, rfl, rfl, rfl, rfl⟩

theorem sameTables_decrFiles (tenantId : String) (n : Nat) (t : Txn) (d : BulkDb) : SameTables d (decrFiles tenantId n t d).2 :=
  ⟨rfl, rfl, rfl, rfl, rfl, rfl⟩

theorem sameTables_giveBackFiles (tenantId : String) (n : Nat) (t : Txn) (d : BulkDb) :
    SameTables d (giveBackFiles tenantId n t d).2 := ⟨rfl, rfl, rfl, rfl, rfl, rfl⟩

theorem sameTables_releaseBatchSlot (tenantId : String) (t : Txn) (d : BulkDb) :
    SameTables d (releaseBatchSlot tenantId t d).2 := ⟨rfl, rfl, rfl, rfl, rfl, rfl⟩

theorem sameTables_expire (t : Txn) (d : BulkDb) : SameTables d (expire t d).2 := ⟨rfl, rfl, rfl, rfl, rfl, rfl⟩

theorem wp_reserveBatch {n : Nat} {fate : ReserveFate} (h : Idle t d) :
    bulkSpec.wp t (.submit call) (fun _ d' => Idle t d')
      (reserveBatch settings tenantId n fate : Prog BulkDb BulkError Reservation) d := by
  refine wp_redis_idle (sameTables_incrBatches tenantId) h fun r d h => ?_
  cases r with
  | error e => exact wp_idle h
  | ok newBatches =>
    refine wp_redis_idle sameTables_expire h fun r d h => ?_
    cases r with
    | error e => exact wp_idle h
    | ok _ =>
      show bulkSpec.wp t (.submit call) _ (if _ then _ else _) d
      split
      · refine wp_redis_idle (sameTables_decrBatches tenantId) h fun r d h => ?_
        cases r with
        | error e => exact wp_idle h
        | ok _ => exact wp_idle h
      · refine wp_redis_idle (sameTables_incrFiles tenantId n) h fun r d h => ?_
        cases r with
        | error e => exact wp_idle h
        | ok newFiles =>
          refine wp_redis_idle sameTables_expire h fun r d h => ?_
          cases r with
          | error e => exact wp_idle h
          | ok _ =>
            show bulkSpec.wp t (.submit call) _ (if _ then _ else _) d
            split
            · refine wp_redis_idle (sameTables_decrFiles tenantId n) h fun r d h => ?_
              cases r with
              | error e => exact wp_idle h
              | ok _ =>
                refine wp_redis_idle (sameTables_decrBatches tenantId) h fun r d h => ?_
                cases r with
                | error e => exact wp_idle h
                | ok _ => exact wp_idle h
            · exact wp_idle h

theorem wp_giveBack (h : Idle t d) :
    bulkSpec.wp t (.submit call) (fun _ d' => Idle t d') (giveBack call reserved) d := by
  unfold giveBack
  split
  · refine wp_redis_idle (sameTables_giveBackFiles _ _) h fun r d h => ?_
    cases r with
    | error e => exact wp_idle h
    | ok _ => exact wp_redis_idle (sameTables_releaseBatchSlot _) h fun _ _ h => wp_idle h
  · exact wp_idle h

theorem wp_enqueueFiles (h : Created t call d) (hkeys : ∀ key ∈ keys, key ∈ call.keys) :
    bulkSpec.wp t (.submit call) (fun _ d' => Idle t d') (enqueueFiles call keys) d := by
  induction keys generalizing d with
  | nil => exact wp_idle h.idle
  | cons key keys ih =>
      refine wp_redisCall_step (P := Created t call) (fun d₁ h₁ hr₁ _ => ?_) h fun r d₁ h₁ => ?_
      · have hcreated := h.rely hr₁
        have hcreated₂ : Created t call (xadd (call.job key) t d₁).2 :=
          ⟨⟨hcreated.idle.files, hcreated.idle.batches⟩, hcreated.files⟩
        exact ⟨keeps_xadd h₁ (hcreated.files key (hkeys key List.mem_cons_self)), hcreated₂.idle.submitting, hcreated₂⟩
      · cases r with
        | error e => exact wp_raise fun _ _ _ _ => trivial
        | ok _ => exact ih h₁ fun key' hmem => hkeys key' (List.mem_cons_of_mem key hmem)

/-- A batch is committed with its files before any job is sent. -/
theorem wp_createAndEnqueue (h : Idle t d) (hinv : BulkInv d) (hsome : call.keys ≠ []) :
    bulkSpec.wp t (.submit call) (fun _ d' => Idle t d') (createAndEnqueue call reserved) d := by
  have hgive : ∀ answer d, Idle t d → BulkInv d → bulkSpec.wp t (.submit call) (fun _ d' => Idle t d')
      (giveBack call reserved >>= fun _ => pure answer : Prog BulkDb BulkError SubmitAnswer) d := fun answer d h hinv =>
    wp_bind (BulkRely.refl t _) hinv h.submitting
      (wp_mono (fun _ _ _ _ hidle => wp_idle hidle) (wp_giveBack h))
  refine wp_bind (BulkRely.refl t _) hinv h.submitting (wp_mono (fun creation d₁ h₁ _ hcreation => ?_)
    (wp_createOrGet h hinv hsome))
  obtain ⟨hidle, hcreated⟩ := hcreation
  cases creation with
  | created =>
      refine wp_bind (BulkRely.refl t _) h₁ hidle.submitting (wp_mono (fun _ d₂ h₂ _ hidle => ?_)
        (wp_enqueueFiles (hcreated rfl) fun _ => id))
      exact wp_emitOther_bind (P := Idle t) h₂ (show "batch_submitted" ≠ "batch_completed" by decide) (fun _ _ hidle hr => hidle.rely hr) (fun _ hidle => ⟨hidle.1, hidle.2⟩)
        hidle fun _ _ hidle => wp_idle hidle
  | found answer => exact hgive answer d₁ hidle h₁
  | integrityError =>
      refine wp_bind (BulkRely.refl t _) h₁ hidle.submitting (wp_mono (fun existing d₂ h₂ _ hidle => ?_)
        (wp_fetchExisting hidle))
      cases existing with
      | none => exact wp_raise fun _ _ _ _ => trivial
      | some answer => exact hgive answer d₂ hidle h₂
  | failed =>
      exact wp_bind (BulkRely.refl t _) h₁ hidle.submitting
        (wp_mono (fun _ _ _ _ _ => wp_raise fun _ _ _ _ => trivial) (wp_giveBack hidle))

/-- **A submission** leaves nothing in flight. -/
theorem wp_submitBatch (h : Idle t d) (hinv : BulkInv d) :
    bulkSpec.wp t (.submit call) (fun _ d' => Idle t d') (submitBatch call settings) d := by
  unfold submitBatch
  split
  · next hvalid =>
      have hsome : call.keys ≠ [] := by
        intro hnil
        rw [hnil] at hvalid
        simp at hvalid
      refine wp_bind (BulkRely.refl t _) hinv h.submitting (wp_mono (fun existing d₁ h₁ _ hidle => ?_)
        (wp_fetchExisting h))
      cases existing with
      | some answer => exact wp_idle hidle
      | none =>
          refine wp_bind (BulkRely.refl t _) h₁ hidle.submitting
            (wp_mono (fun reservation d₂ h₂ _ hidle => ?_) (wp_reserveBatch hidle))
          cases reservation with
          | limitExceeded => exact wp_raise fun _ _ _ _ => trivial
          | reserved => exact wp_createAndEnqueue hidle h₂ hsome
          | broke e =>
              cases e with
              | other => exact wp_raise fun _ _ _ _ => trivial
              | connection => exact wp_createAndEnqueue hidle h₂ hsome
  · exact wp_raise fun _ _ _ _ => trivial

end Submit

/-! ## soundness -/

theorem AtFile.rollback {job : JobMessage} (h : AtFile t job d) (hinv : BulkInv d)
    (hsettled : ∀ row, d.files.committed job.fileId = some row → row.status.terminal = true → d.Settled job.fileId) :
    bulkSpec.Keeps t (some job.fileId) d (Database.rollback t d) ∧ FileRests job.fileId (Database.rollback t d) := by
  obtain ⟨row, hrow, -⟩ := h.file
  refine ⟨Sentinel.keeps_rollback hinv (fun fileId _ v hkey _ hin => ?_) (fun batchId batch hin => ?_),
    fun row' hrow' => ⟨(inflight_ended h.alone).2, fun hterminal => ?_⟩⟩
  · exact hkey (congrArg some (h.only fileId v hin).symm)
  · obtain ⟨hterminal, hunreleased⟩ := h.completed batchId batch row hin hrow
    exact absurd (hsettled row hrow hterminal).released hunreleased
  · have hs := hsettled row' hrow' hterminal
    exact ⟨hs.checked, hs.released, hs.announced⟩

theorem Idle.keeps_rollback {key : Option String} (h : Idle t d) (hinv : BulkInv d) :
    bulkSpec.Keeps t key d (Database.rollback t d) :=
  Sentinel.keeps_rollback hinv (fun fileId _ v _ _ => h.files fileId v) fun batchId batch hin => absurd hin (h.batches batchId batch)

theorem wp_skip (settings : BulkSettings) (job : JobMessage) (fate : JobFate) (d : BulkDb) :
    bulkSpec.aside.wp t (.process job fate) (fun _ d' => Idle t d') (serveBulk settings (.process job fate)) d := by
  refine wp_query_bind (X := bulkSpec.aside) BulkRely.refl (fun _ => ⟨Moves.refl _, Moves.refl _⟩)
    fun d₁ _ hr₁ hw₁ => ?_
  obtain ⟨⟨row, hrow, hterminal⟩, hidle₁⟩ := hw₁
  have hskip : bulkSpec.aside.wp t (.process job fate) (fun _ d' => Idle t d')
      (pure (.processed .skipped) : Prog BulkDb BulkError BulkAnswer) d₁ := fun d₂ _ _ hw₂ => hw₂.2
  have hfound : getFile job.tenantId job.fileId t d₁ = some row ∨ getFile job.tenantId job.fileId t d₁ = none := by
    rw [getFile, hidle₁.files.visible, hrow]
    by_cases htenant : row.tenantId = job.tenantId
    · exact .inl (Option.filter_some_pos (decide_eq_true htenant))
    · exact .inr (Option.filter_some_neg (decide_eq_false htenant))
  rcases hfound with hfound | hfound
  · rw [hfound]
    show bulkSpec.aside.wp t _ _ ((if row.status.terminal = true then _ else _) >>= _) d₁
    rw [if_pos hterminal]
    exact hskip
  · rw [hfound]
    exact hskip

/-- Every request keeps the invariant of files and batches. -/
theorem bulkSpec_sound (settings : BulkSettings) : bulkSpec.Sound (serveBulk settings) where
  refl := BulkRely.refl
  trans := BulkRely.trans
  moves_refl _ := ⟨Moves.refl _, Moves.refl _⟩
  moves_trans h h' := ⟨h.1.trans h'.1, h.2.trans h'.2⟩
  fresh_rely _ hr h := Idle.rely h hr
  ended_rely _ _ _ := trivial
  works_rely {t req d d'} _ hr h := by
    cases req with
    | submit call => exact Submitting.rely h hr
    | process job fate => exact AtFile.rely h hr
  body {t req d} hinv hopens hfresh hrests := by
    cases req with
    | submit call =>
        refine ⟨Idle.submitting hfresh, wp_bind (BulkRely.refl t _) hinv (Idle.submitting hfresh)
          (wp_mono (fun _ d₁ _ _ hidle d₂ _ hr₂ _ => ?_) (wp_submitBatch hfresh hinv))⟩
        exact ⟨Idle.rely hidle hr₂, fun _ hnone => absurd hnone.symm (Option.some_ne_none _)⟩
    | process job fate =>
        obtain ⟨⟨enqueued, hmem, hfile, hbatch, htenant⟩, hdeadLetter, hcompleted, hrelease⟩ := hopens
        obtain ⟨row, hrow, hof, hby⟩ := BulkInv.jobs hinv enqueued hmem
        rw [hfile] at hrow
        obtain ⟨hfree, hsettled⟩ := hrests job.fileId rfl row hrow
        have hresting : Resting t job row d := ⟨hfresh, hrow, hfree, hof.trans hbatch, hby.trans htenant⟩
        refine ⟨hresting.atFile, wp_bind (BulkRely.refl t _) hinv hresting.atFile
          (wp_mono (fun _ d₁ h₁ hat₁ hleaves d₂ h₂ hr₂ hat₂ => ?_)
            (wp_processJob hresting hsettled hdeadLetter hcompleted hrelease))⟩
        have hsame := BulkRely.mine_of_atFile hr₂ hat₁
        refine ⟨hleaves.1.rely hr₂, fun fileId hkey => ?_⟩
        cases hkey
        intro row' hrow'
        obtain ⟨hfree', hsettled'⟩ := hleaves.2 row' (hsame.committed.symm.trans hrow')
        exact ⟨hsame.inflight.trans hfree', fun hterminal => hsame.settled (hsettled' hterminal)⟩
  commit {t req b d} hinv _ hpost _ _ := by
    have hkeeps : bulkSpec.Keeps t req.file d (Database.commit t d) := Idle.keeps_commit hpost.1 hinv
    refine ⟨hkeeps, fun fileId hkey => ?_, trivial⟩
    rw [Idle.commit_eq hpost.1]
    exact hpost.2 fileId hkey
  rollback {t req d} hinv hworks hbreaks _ := by
    cases req with
    | submit call =>
        exact ⟨Submitting.keeps_rollback hworks hinv, fun _ hnone => absurd hnone.symm (Option.some_ne_none _), trivial⟩
    | process job fate =>
        obtain ⟨hkeeps, hrests⟩ := AtFile.rollback hworks hinv hbreaks
        refine ⟨hkeeps, fun fileId hkey => ?_, trivial⟩
        cases hkey
        exact hrests
  skips_rely {t req d d'} _ hr h := by
    cases req with
    | submit call => exact h
    | process job fate =>
        obtain ⟨row, hrow, hterminal⟩ := h
        obtain ⟨row', hrow', hstep⟩ := BulkRely.files hr |>.moves job.fileId row hrow
        exact ⟨row', hrow', (hstep.2.2 hterminal).symm ▸ hterminal⟩
  aside {t req d} _ hskips _ := by
    cases req with
    | submit call => exact absurd hskips id
    | process job fate => exact wp_skip settings job fate _
  leave {t req d} hinv _ hfresh :=
    ⟨fun _ => ⟨Idle.keeps_commit hfresh hinv, trivial⟩, fun _ => ⟨Idle.keeps_rollback hfresh hinv, trivial⟩⟩

/-! ## the life of a file -/

/-- The events that the batch is completed. -/
def BulkDb.announcements (d : BulkDb) (batchId : String) : List BatchEvent :=
  d.events.filter fun event => event.eventType = "batch_completed" &&
    (d.files.committed event.requestId).any fun row => row.batchId = batchId

def AtWork (s : BulkSys) (fileId : String) : Prop :=
  ∃ t job fate p, s.procs t = .running (.process job fate) p ∧ job.fileId = fileId

def BulkDb.Terminal (d : BulkDb) (fileId : String) : Prop :=
  ∃ row, d.files.committed fileId = some row ∧ row.status.terminal = true

theorem BulkInv.won_of_event (hinv : BulkInv d) {event : BatchEvent} (hmem : event ∈ d.events)
    (htype : event.eventType = "batch_completed") : (event.requestId, true) ∈ d.checked := by
  have hannounced : event ∈ d.completions event.requestId := by
    unfold BulkDb.completions
    simp [hmem, htype]
  exact (hinv.announcedOnce event.requestId).2 (List.ne_nil_of_mem hannounced)

theorem BulkInv.announcements_eq (hinv : BulkInv d) (hrow : d.files.committed fileId = some row)
    (hwon : (fileId, true) ∈ d.checked) : d.announcements row.batchId = d.completions fileId := by
  refine List.filter_congr fun event hmem => ?_
  by_cases htype : event.eventType = "batch_completed"
  · rw [htype]
    by_cases hfile : event.requestId = fileId
    · simp [hfile, hrow]
    · have hnot : (d.files.committed event.requestId).any (fun other => other.batchId = row.batchId) = false := by
        cases hother : d.files.committed event.requestId with
        | none => rfl
        | some other =>
            refine decide_eq_false fun hsame => hfile ?_
            exact hinv.wonOnce event.requestId fileId other row (hinv.won_of_event hmem htype) hwon hother hrow hsame
      simp [hfile, hnot]
  · simp [htype]

theorem BulkInv.exists_won (hinv : BulkInv d) (h : d.announcements batchId ≠ []) :
    ∃ fileId row, (fileId, true) ∈ d.checked ∧ d.files.committed fileId = some row ∧ row.batchId = batchId := by
  obtain ⟨event, hmem⟩ := List.exists_mem_of_ne_nil _ h
  obtain ⟨hmem, hevent⟩ := List.mem_filter.mp hmem
  rw [Bool.and_eq_true, decide_eq_true_eq, Option.any_eq_true] at hevent
  obtain ⟨htype, row, hrow, hof⟩ := hevent
  exact ⟨event.requestId, row, hinv.won_of_event hmem htype, hrow, of_decide_eq_true hof⟩

theorem BulkInv.announced_le (hinv : BulkInv d) (batchId : String) :
    (d.announcements batchId).length ≤ 1 ∧ (d.announcements batchId ≠ [] → d.BatchDone batchId) := by
  by_cases h : d.announcements batchId = []
  · rw [h]
    exact ⟨Nat.zero_le 1, fun hne => absurd rfl hne⟩
  · obtain ⟨fileId, row, hwon, hrow, rfl⟩ := hinv.exists_won h
    rw [hinv.announcements_eq hrow hwon]
    exact ⟨(hinv.announcedOnce fileId).1, fun _ => (hinv.won fileId row hwon hrow).1⟩

theorem BulkInv.announced_of_done (hinv : BulkInv d) {batch : BatchRow}
    (hbatch : d.batches.committed batchId = some batch) (hdone : d.BatchDone batchId)
    (hrests : ∀ fileId row, d.files.committed fileId = some row → row.batchId = batchId → FileRests fileId d) :
    (d.announcements batchId).length = 1 := by
  have hsettled : ∀ fileId row, d.files.committed fileId = some row → row.batchId = batchId → d.Settled fileId :=
    fun fileId row hrow hof => (hrests fileId row hrow hof row hrow).2 (hdone fileId row hrow hof)
  have hcompleted : d.BatchCompleted batchId := by
    rcases hinv.closing batchId batch hbatch hdone with hcompleted | ⟨fileId, row, hrow, hof, hunchecked⟩
    · exact hcompleted
    · exact absurd (hsettled fileId row hrow hof).checked hunchecked
  obtain ⟨fileId, row, hrow, rfl, hwon⟩ := hinv.completedWon batchId hcompleted
  have hne := (hsettled fileId row hrow rfl).announced hwon
  have hle := (hinv.announcedOnce fileId).1
  rw [hinv.announcements_eq hrow hwon]
  have hpos : 0 < (d.completions fileId).length := List.length_pos_iff.mpr hne
  omega

theorem bulkSpec_start : bulkSpec.Ok (Sys.start BulkDb.empty : BulkSys) :=
  ok_start bulkInv_empty (fun _ => ⟨fun _ _ h => by contradiction, fun _ _ h => by contradiction⟩)
    fun _ _ h => by contradiction

theorem rests_of_not_atWork {s : BulkSys} (h : bulkSpec.Ok s) (hfree : ¬AtWork s fileId) : FileRests fileId s.db := by
  refine h.rests fun t ht => hfree ?_
  cases hproc : s.procs t with
  | running req p =>
      rw [hproc] at ht
      cases req with
      | submit call => contradiction
      | process job fate => exact ⟨t, job, fate, p, hproc, Option.some.inj ht⟩
  | idle =>
      rw [hproc] at ht
      contradiction
  | committed req b =>
      rw [hproc] at ht
      contradiction
  | aborted =>
      rw [hproc] at ht
      contradiction

/-- **The life of a file**, where no two workers are at a file that is not terminal, none of
them stops between a terminal status and the rest, and the batch is announced and the slot
released without an error: a terminal file stays as it is; its slot is released once; its batch
is announced as completed once, when all the files of the batch are terminal. -/
theorem bulk_file_lifecycle {settings : BulkSettings} {as bs : List (Action BulkRequest)} {s s' : BulkSys}
    (hrun : run (serveBulk settings) (Sys.start BulkDb.empty) as = some s) (hrun' : run (serveBulk settings) s bs = some s')
    (hp : EveryStep (serveBulk settings) bulkSpec.Permits (Sys.start BulkDb.empty) (as ++ bs)) :
    (∀ fileId row, s.db.files.committed fileId = some row → row.status.terminal = true →
      s'.db.files.committed fileId = some row) ∧
    (s'.db.released.map Prod.fst).Nodup ∧
    (∀ fileId, s'.db.Released fileId → s'.db.Terminal fileId) ∧
    (∀ fileId, s'.db.Terminal fileId → ¬AtWork s' fileId → s'.db.Released fileId) ∧
    (∀ batchId, (s'.db.announcements batchId).length ≤ 1 ∧
      (s'.db.announcements batchId ≠ [] → s'.db.BatchDone batchId)) ∧
    (∀ event ∈ s'.db.events, event.eventType = "batch_completed" → s'.db.Terminal event.requestId) ∧
    (∀ batchId batch, s'.db.batches.committed batchId = some batch → s'.db.BatchDone batchId →
      (∀ fileId row, s'.db.files.committed fileId = some row → row.batchId = batchId → ¬AtWork s' fileId) →
      (s'.db.announcements batchId).length = 1) := by
  obtain ⟨-, hok, hmoves, -⟩ := (bulkSpec_sound settings).run_split bulkSpec_start hp hrun hrun'
  have hinv : BulkInv s'.db := hok.inv
  refine ⟨fun fileId row hrow hterminal => ?_, hinv.releasedOnce, fun fileId hreleased => ?_,
    fun fileId hterminal hfree => ?_, hinv.announced_le, fun event hmem htype => ?_, fun batchId batch hbatch hdone hfree => ?_⟩
  · obtain ⟨row', hrow', hstep⟩ := hmoves fileId row hrow
    rw [hrow', hstep.2.2 hterminal]
  · exact hinv.checkedTerminal fileId (hinv.releasedChecked fileId hreleased)
  · obtain ⟨row, hrow, hterminal⟩ := hterminal
    exact ((rests_of_not_atWork hok hfree row hrow).2 hterminal).released
  · exact hinv.checkedTerminal event.requestId ⟨true, hinv.won_of_event hmem htype⟩
  · exact hinv.announced_of_done hbatch hdone fun fileId row hrow hof => rests_of_not_atWork hok (hfree fileId row hrow hof)

/-! ## two workers at a file -/

section Sample

def sampleSettings : BulkSettings := ⟨10, 3, 5, 100, Nat.le_of_ble_eq_true rfl⟩

def sampleReserve : ReserveFate := ⟨.answers, .answers, .answers, .answers, .answers, .answers, .answers⟩

def sampleSubmit : SubmitCall where
  tenantId := "11111111-1111-4111-8111-111111111111"
  teamId := "team"
  projectId := "project"
  agentId := "agent"
  objectKeys := ["11111111-1111-4111-8111-111111111111/22222222-2222-4222-8222-222222222222/0123456789abcdef0123456789abcdef"]
  idempotencyKey := "nightly"
  model := none
  batchId := "batch-1"
  fileId _ := "file-1"
  requestId := "request-1"
  reserve := sampleReserve
  create := .commits .completes
  release := .answers
  releaseBatch := .answers
  enqueue _ := .answers
  emits := true

def sampleJob : JobMessage where
  batchId := "batch-1"
  fileId := "file-1"
  tenantId := "11111111-1111-4111-8111-111111111111"
  teamId := "team"
  projectId := "project"
  agentId := "agent"
  objectKey := "11111111-1111-4111-8111-111111111111/22222222-2222-4222-8222-222222222222/0123456789abcdef0123456789abcdef"
  idempotencyKey := "nightly"
  model := ""

def sampleFate (inspection : Except String FileOutcome) : JobFate where
  inspection := inspection
  requeue := .answers
  deadLetter := .answers
  emitsFile := true
  emitsCompleted := true
  releaseFile := .answers
  releaseBatch := .answers

/-- The batch is submitted. -/
def submitSchedule : List (Action BulkRequest) := .begin 1 (.submit sampleSubmit) :: (List.replicate 11 (.exec 1) ++ [.commit 1])

/-- A run of its job: `before` steps, and the rest later. -/
def processSchedule (t : Txn) (inspection : Except String FileOutcome) (steps : Nat) : List (Action BulkRequest) :=
  .begin t (.process sampleJob (sampleFate inspection)) :: List.replicate steps (.exec t)

/-- The job is taken by a second worker, whose scan fails after the first one is through. -/
def reclaimSchedule : List (Action BulkRequest) :=
  processSchedule 3 (.error "timeout") 3 ++ (processSchedule 2 (.ok .allowed) 12 ++ [.commit 2])

/-- It goes on. -/
def restartSchedule : List (Action BulkRequest) :=
  (List.replicate 4 (.exec 3) ++ [.commit 3]) ++ (processSchedule 4 (.ok .blocked) 10 ++ [.commit 4])

/-- **A terminal file is queued once more**, ends otherwise, and its slot is released twice. -/
theorem reclaimed_file_restarts :
    ((run (serveBulk sampleSettings) (Sys.start BulkDb.empty) (submitSchedule ++ reclaimSchedule)).map fun s =>
      ((s.db.files.committed "file-1").map BatchFileRow.status, s.db.released.map Prod.fst)) = some (some .done, ["file-1"]) ∧
    ((run (serveBulk sampleSettings) (Sys.start BulkDb.empty) (submitSchedule ++ reclaimSchedule ++ restartSchedule)).map fun s =>
      ((s.db.files.committed "file-1").map BatchFileRow.status, s.db.released.map Prod.fst)) =
        some (some .blocked, ["file-1", "file-1"]) := by
  decide +kernel

theorem submitSchedule_txn : ∀ a ∈ submitSchedule, a.txn = 1 := by
  intro a hmem
  rcases List.mem_cons.mp hmem with rfl | hmem
  · rfl
  rcases List.mem_append.mp hmem with hmem | hmem
  · rw [List.eq_of_mem_replicate hmem]
    rfl
  · rw [List.mem_singleton.mp hmem]
    rfl

theorem submitSchedule_permits :
    EveryStep (serveBulk sampleSettings) bulkSpec.Permits (Sys.start BulkDb.empty) submitSchedule := by
  refine fun s hstep => ⟨.inl ⟨fun u k hu => ?_, trivial⟩, permits_of_going (fun _ => trivial) (fun _ _ => trivial) fun a hmem => ?_⟩
  · contradiction
  · rcases List.mem_append.mp hmem with hmem | hmem
    · exact ⟨1, .inl (List.eq_of_mem_replicate hmem)⟩
    · exact ⟨1, .inr (List.mem_singleton.mp hmem)⟩

theorem firstWorker_permits :
    EveryStep (serveBulk sampleSettings) bulkSpec.Permits (Sys.start BulkDb.empty)
      (submitSchedule ++ (processSchedule 2 (.ok .allowed) 12 ++ [.commit 2])) := by
  refine everyStep_of_append submitSchedule_permits fun s hrun => ?_
  have hstream : s.db.stream = [sampleJob] := by
    have hall : ((run (serveBulk sampleSettings) (Sys.start BulkDb.empty) submitSchedule).map fun s => s.db.stream) =
        some [sampleJob] := by
      decide +kernel
    rw [hrun] at hall
    exact Option.some.inj hall
  refine fun s' hstep => ⟨.inl ⟨fun u k hu => ?_, ⟨sampleJob, ?_, rfl, rfl, rfl⟩, rfl, rfl, rfl⟩,
    permits_of_going (fun _ => trivial) (fun _ _ => trivial) fun a hmem => ?_⟩
  · -- the submission has no key, and nobody else has begun
    have hidle : bulkSpec.keyOf (s.procs u) = none := by
      by_cases hone : u = 1
      · subst hone
        have hend : ((run (serveBulk sampleSettings) (Sys.start BulkDb.empty) submitSchedule).map fun s =>
            bulkSpec.keyOf (s.procs 1)) = some none := by
          decide +kernel
        rw [hrun] at hend
        exact Option.some.inj hend
      · rw [procs_of_run hrun fun a hmem => ?_]
        · rfl
        · rw [submitSchedule_txn a hmem]
          exact Ne.symm hone
    exact absurd (hidle.symm.trans hu) (Option.some_ne_none k).symm
  · rw [hstream]
    exact List.mem_singleton_self sampleJob
  · rcases List.mem_append.mp hmem with hmem | hmem
    · exact ⟨2, .inl (List.eq_of_mem_replicate hmem)⟩
    · exact ⟨2, .inr (List.mem_singleton.mp hmem)⟩

/-- One worker, after which the file is done, its slot released and its batch announced. -/
theorem bulk_file_lifecycle_sample : ∃ s s' : BulkSys,
    run (serveBulk sampleSettings) (Sys.start BulkDb.empty) submitSchedule = some s ∧
    run (serveBulk sampleSettings) s (processSchedule 2 (.ok .allowed) 12 ++ [.commit 2]) = some s' ∧
    s'.db.released = [("file-1", sampleJob.tenantId)] ∧ (s'.db.announcements "batch-1").length = 1 ∧
    (s'.db.released.map Prod.fst).Nodup := by
  have hsome : (run (serveBulk sampleSettings) (Sys.start BulkDb.empty) submitSchedule).bind (fun s =>
      (run (serveBulk sampleSettings) s (processSchedule 2 (.ok .allowed) 12 ++ [.commit 2])).map fun s' =>
        (s'.db.released, (s'.db.announcements "batch-1").length)) = some ([("file-1", sampleJob.tenantId)], 1) := by
    decide +kernel
  obtain ⟨s, hrun, hrest⟩ := Option.bind_eq_some_iff.mp hsome
  obtain ⟨s', hrun', hdone⟩ := Option.map_eq_some_iff.mp hrest
  obtain ⟨hreleased, hannounced⟩ := Prod.mk.inj hdone
  exact ⟨s, s', hrun, hrun', hreleased, hannounced, (bulk_file_lifecycle hrun hrun' firstWorker_permits).2.1⟩

end Sample

end Anoryx.Sentinel
