import Anoryx.Sentinel.BulkInvariant

/-!
# Anoryx.Sentinel.BulkLifecycle

The life of a file of a batch, in any run of submissions and workers.

A worker looks at a file's status before it begins and writes without looking again, so that
two workers at one file may undo and repeat what the other has done.  Where no two are at a
file at a time, and nobody stops between a terminal status and what is to follow it, a
terminal file stays as it is, its slot is released once, and its batch is announced as
completed once.
-/

namespace Anoryx.Sentinel

open ReadCommitted Exclusive Table

variable {d d' d'' : BulkDb} {t u : Txn} {fileId : String} {row : BatchFileRow}

/-! ## what the others do -/

/-- Nobody has touched the file, and nothing was done for it. -/
structure FileSame (fileId : String) (d d' : BulkDb) : Prop where
  committed : d'.files.committed fileId = d.files.committed fileId
  inflight : d'.files.inflight fileId = d.files.inflight fileId
  checked : ∀ won, (fileId, won) ∈ d'.checked ↔ (fileId, won) ∈ d.checked
  released : ∀ tenantId, (fileId, tenantId) ∈ d'.released ↔ (fileId, tenantId) ∈ d.released
  completions : d'.completions fileId = d.completions fileId

theorem FileSame.refl (fileId : String) (d : BulkDb) : FileSame fileId d d :=
  ⟨rfl, rfl, fun _ => Iff.rfl, fun _ => Iff.rfl, rfl⟩

theorem FileSame.trans (h : FileSame fileId d d') (h' : FileSame fileId d' d'') : FileSame fileId d d'' :=
  ⟨h'.committed.trans h.committed, h'.inflight.trans h.inflight, fun won => (h'.checked won).trans (h.checked won),
    fun tenantId => (h'.released tenantId).trans (h.released tenantId), h'.completions.trans h.completions⟩

theorem FileSame.settled (h : FileSame fileId d d') (hs : d.Settled fileId) : d'.Settled fileId where
  checked := hs.checked.imp fun won => (h.checked won).mpr
  released := hs.released.imp fun tenantId => (h.released tenantId).mpr
  announced hwon := h.completions ▸ hs.announced ((h.checked true).mp hwon)

theorem FileSame.unsettled (h : FileSame fileId d d') (hs : d.Unsettled fileId) : d'.Unsettled fileId where
  unchecked hc := hs.unchecked (hc.imp fun won => (h.checked won).mp)
  unreleased hr := hs.unreleased (hr.imp fun tenantId => (h.released tenantId).mp)
  silent := h.completions.trans hs.silent

/-- What `u`, who is at a file or at none, may rely on. -/
structure BulkRely (u : Txn) (key : Option String) (d d' : BulkDb) : Prop where
  files : d.files.Follows fileStep u d'.files
  batches : d.batches.Follows batchStep u d'.batches
  mine : ∀ fileId row, key = some fileId → d.files.committed fileId = some row → FileSame fileId d d'

theorem BulkRely.refl (u : Txn) (key : Option String) (d : BulkDb) : BulkRely u key d d :=
  ⟨Follows.refl u _, Follows.refl u _, fun fileId _ _ _ => FileSame.refl fileId d⟩

variable {key : Option String}

theorem BulkRely.trans (h : BulkRely u key d d') (h' : BulkRely u key d' d'') :
    BulkRely u key d d'' :=
  ⟨h.files.trans h'.files, h.batches.trans h'.batches, fun fileId row hk hrow =>
    (h.mine fileId row hk hrow).trans (h'.mine fileId row hk ((h.mine fileId row hk hrow).committed.trans hrow))⟩

/-! ## the specification -/

/-- Nobody is at the file. -/
def FileRests (fileId : String) (d : BulkDb) : Prop :=
  ∀ row, d.files.committed fileId = some row →
    d.files.inflight fileId = none ∧ (row.status.terminal = true → d.Settled fileId)

structure AtFile (t : Txn) (job : JobMessage) (d : BulkDb) : Prop where
  file : ∃ row, d.files.committed job.fileId = some row ∧ row.batchId = job.batchId ∧ row.tenantId = job.tenantId
  only : ∀ fileId row, d.files.inflight fileId = some (t, row) → fileId = job.fileId
  alone : ∀ u row, d.files.inflight job.fileId = some (u, row) → u = t
  batches : ∀ batchId batch, d.batches.inflight batchId = some (t, batch) → d.batches.committed batchId ≠ none
  completed : ∀ batchId batch row, d.batches.inflight batchId = some (t, batch) →
    d.files.committed job.fileId = some row → row.status.terminal = true ∧ ¬d.Released job.fileId

/-- Who submits a batch. -/
structure Submitting (t : Txn) (d : BulkDb) : Prop where
  files : ∀ fileId row, d.files.inflight fileId = some (t, row) →
    d.files.committed fileId = none ∧ row.status.terminal = false
  batches : ∀ batchId batch, d.batches.inflight batchId = some (t, batch) → batch.status ≠ .completed

/-- No row in flight. -/
structure Idle (t : Txn) (d : BulkDb) : Prop where
  files : d.files.Unheld t
  batches : d.batches.Unheld t

def BulkRequest.file : BulkRequest → Option String
  | .submit _ => none
  | .process job _ => some job.fileId

/-- What a run of a request keeps in mind. -/
def BulkRequest.Works (t : Txn) : BulkRequest → BulkDb → Prop
  | .submit _, d => Submitting t d
  | .process job _, d => AtFile t job d

/-- A job that was enqueued, but for its object key; it is dead-lettered, its batch announced and its slot released, if it
comes to that. -/
def BulkRequest.Opens : BulkRequest → BulkDb → Prop
  | .submit _, _ => True
  | .process job fate, d =>
      (∃ enqueued ∈ d.stream, enqueued.fileId = job.fileId ∧ enqueued.batchId = job.batchId ∧
        enqueued.tenantId = job.tenantId) ∧ fate.deadLetter = .answers ∧ fate.emitsCompleted = true ∧
        fate.releaseFile = .answers

/-- A job of a terminal file. -/
def BulkRequest.Skips : BulkRequest → BulkDb → Prop
  | .submit _, _ => False
  | .process job _, d => ∃ row, d.files.committed job.fileId = some row ∧ row.status.terminal = true

/-- A worker stops only while its file is not terminal, or when everything is done for it. -/
def BulkRequest.Breaks : BulkRequest → BulkDb → Prop
  | .submit _, _ => True
  | .process job _, d => ∀ row, d.files.committed job.fileId = some row → row.status.terminal = true → d.Settled job.fileId

/-- The specification of submissions and workers. -/
def bulkSpec : Exclusive BulkDb BulkRequest BulkAnswer String where
  key := BulkRequest.file
  inv := BulkInv
  rely := BulkRely
  rests := FileRests
  fresh := Idle
  works t req d := req.Works t d
  post t req _ d := Idle t d ∧ ∀ fileId, req.file = some fileId → FileRests fileId d
  ended _ _ := True
  moves d d' := d.files.Moves fileStep d'.files ∧ d.batches.Moves batchStep d'.batches
  opens := BulkRequest.Opens
  skips := BulkRequest.Skips
  breaks _ := BulkRequest.Breaks

theorem Idle.rely (h : Idle t d) (hr : BulkRely t key d d') : Idle t d' :=
  ⟨h.files.frame hr.files.frame, h.batches.frame hr.batches.frame⟩

theorem Submitting.rely (h : Submitting t d) (hr : BulkRely t key d d') : Submitting t d' where
  files fileId row hin := by
    have hin := (hr.files.frame.inflight fileId row).mpr hin
    obtain ⟨hnone, hopen⟩ := h.files fileId row hin
    exact ⟨(hr.files.held fileId row hin).trans hnone, hopen⟩
  batches batchId batch hin := h.batches batchId batch ((hr.batches.frame.inflight batchId batch).mpr hin)

variable {job : JobMessage} {req : BulkRequest} {fate : CallFate} {P : BulkDb → Prop} {won : Bool}

theorem AtFile.rely (h : AtFile t job d) (hr : BulkRely t (some job.fileId) d d') : AtFile t job d' := by
  obtain ⟨row, hrow, hids⟩ := h.file
  have hsame := hr.mine job.fileId row rfl hrow
  refine ⟨⟨row, hsame.committed.trans hrow, hids⟩, fun fileId row' hin => ?_, fun u row' hin => ?_,
    fun batchId batch hin => ?_, fun batchId batch row' hin hrow' => ?_⟩
  · exact h.only fileId row' ((hr.files.frame.inflight fileId row').mpr hin)
  · exact h.alone u row' (hsame.inflight.symm.trans hin)
  · have hin := (hr.batches.frame.inflight batchId batch).mpr hin
    rw [hr.batches.held batchId batch hin]
    exact h.batches batchId batch hin
  · obtain ⟨hterminal, hunreleased⟩ := h.completed batchId batch row' ((hr.batches.frame.inflight batchId batch).mpr hin)
      (hsame.committed.symm.trans hrow')
    exact ⟨hterminal, fun hreleased => hunreleased (hreleased.imp fun tenantId => (hsame.released tenantId).mp)⟩

theorem Idle.atFile (h : Idle t d) (hfile : ∃ row, d.files.committed job.fileId = some row ∧
    row.batchId = job.batchId ∧ row.tenantId = job.tenantId) (hin : d.files.inflight job.fileId = none) :
    AtFile t job d where
  file := hfile
  only fileId row hheld := absurd hheld (h.files fileId row)
  alone _ _ hheld := absurd (hin.symm.trans hheld) (Option.some_ne_none _).symm
  batches batchId batch hheld := absurd hheld (h.batches batchId batch)
  completed batchId batch _ hheld := absurd hheld (h.batches batchId batch)

theorem Idle.submitting (h : Idle t d) : Submitting t d where
  files fileId row hheld := absurd hheld (h.files fileId row)
  batches batchId batch hheld := absurd hheld (h.batches batchId batch)

/-! ## what a step keeps -/

theorem keeps_of (hinv : BulkInv d') (hfiles : ∀ u, u ≠ t → d.files.Follows fileStep u d'.files)
    (hbatches : ∀ u, u ≠ t → d.batches.Follows batchStep u d'.batches)
    (hsame : ∀ fileId row, key ≠ some fileId → d.files.committed fileId = some row → FileSame fileId d d')
    (hnew : ∀ fileId row, d.files.committed fileId = none → d'.files.committed fileId = some row →
      d'.files.inflight fileId = none ∧ row.status.terminal = false) : bulkSpec.Keeps t key d d' where
  inv := hinv
  rely u key' hu hkey := ⟨hfiles u hu, hbatches u hu, fun fileId row hk hrow =>
    hsame fileId row (fun hkey' => hkey fileId hkey' hk) hrow⟩
  rests fileId hkey hrests := by
    intro row' hrow'
    cases hrow : d.files.committed fileId with
    | none =>
        obtain ⟨hin, hopen⟩ := hnew fileId row' hrow hrow'
        refine ⟨hin, fun hterminal => ?_⟩
        rw [hopen] at hterminal
        contradiction
    | some row =>
        have hs := hsame fileId row hkey hrow
        obtain ⟨hin, hsettled⟩ := hrests row' (hs.committed.symm.trans hrow')
        exact ⟨hs.inflight.trans hin, fun hterminal => hs.settled (hsettled hterminal)⟩
  moves := ⟨(hfiles (t + 1) (Nat.succ_ne_self t)).moves, (hbatches (t + 1) (Nat.succ_ne_self t)).moves⟩

theorem keeps_same (hinv : BulkInv d) (hsame : SameTables d d') : bulkSpec.Keeps t key d d' := by
  have hcompletions : ∀ fileId, d'.completions fileId = d.completions fileId := by
    intro fileId
    unfold BulkDb.completions
    rw [hsame.events]
  refine keeps_of (hinv.same hsame) (fun u _ => ?_) (fun u _ => ?_) (fun fileId row _ _ => ⟨?_, ?_, ?_, ?_, hcompletions fileId⟩)
    fun fileId row hnone hrow => ?_
  · rw [hsame.files]
    exact Follows.refl u _
  · rw [hsame.batches]
    exact Follows.refl u _
  · rw [hsame.files]
  · rw [hsame.files]
  · exact fun won => by rw [hsame.checked]
  · exact fun tenantId => by rw [hsame.released]
  · rw [hsame.files, hnone] at hrow
    contradiction

theorem Idle.same (h : Idle t d) (hsame : SameTables d d') : Idle t d' :=
  ⟨hsame.files ▸ h.files, hsame.batches ▸ h.batches⟩

theorem works_same (h : req.Works t d) (hsame : SameTables d d') : req.Works t d' := by
  cases d
  cases d'
  obtain ⟨rfl, rfl, rfl, rfl, rfl, rfl⟩ := hsame
  cases req with
  | submit call => exact ⟨h.1, h.2⟩
  | process job fate => exact ⟨h.1, h.2, h.3, h.4, h.5⟩

theorem wp_redisCall_step {γ δ : Type} {f : Txn → BulkDb → γ × BulkDb}
    {k : Except CallError γ → Prog BulkDb BulkError δ} {Q : δ → BulkDb → Prop}
    (hstep : ∀ d', BulkInv d' → BulkRely t req.file d d' → req.Works t d' →
      bulkSpec.Keeps t req.file d' (f t d').2 ∧ req.Works t (f t d').2 ∧ P (f t d').2) (hd : P d)
    (hk : ∀ r d, P d → bulkSpec.wp t req Q (k r) d) : bulkSpec.wp t req Q (redisCall f fate >>= k) d := by
  unfold redisCall
  split
  · refine wp_exec_bind fun d₁ h₁ hr₁ hw₁ x d₂ hexec => ?_
    cases hexec
    obtain ⟨hkeeps, hworks, hP⟩ := hstep d₁ h₁ hr₁ hw₁
    exact ⟨hkeeps, hworks, hk _ _ hP⟩
  · refine wp_exec_bind fun d₁ h₁ hr₁ hw₁ x d₂ hexec => ?_
    cases hexec
    obtain ⟨hkeeps, hworks, hP⟩ := hstep d₁ h₁ hr₁ hw₁
    exact ⟨hkeeps, hworks, hk _ _ hP⟩
  · exact hk _ d hd

theorem wp_redisCall_bind {γ δ : Type} {f : Txn → BulkDb → γ × BulkDb}
    {k : Except CallError γ → Prog BulkDb BulkError δ} {Q : δ → BulkDb → Prop} (hsame : ∀ t d, SameTables d (f t d).2)
    (hrely : ∀ d d', P d → BulkRely t req.file d d' → P d') (hP : ∀ d d', P d → SameTables d d' → P d') (hd : P d)
    (hk : ∀ r d, P d → bulkSpec.wp t req Q (k r) d) : bulkSpec.wp t req Q (redisCall f fate >>= k) d :=
  wp_redisCall_step (fun d₁ h₁ hr₁ hw₁ => ⟨keeps_same h₁ (hsame t d₁), works_same hw₁ (hsame t d₁),
    hP _ _ (hrely _ _ hd hr₁) (hsame t d₁)⟩) hd hk

theorem inflight_end {K V : Type} {tbl : Table K V} {t : Txn} {k : K} (h : ∀ v, tbl.inflight k ≠ some (t, v)) :
    (tbl.commit t).inflight k = tbl.inflight k ∧ (tbl.rollback t).inflight k = tbl.inflight k := by
  constructor
  all_goals
    refine Option.ext fun p => ?_
    obtain ⟨u, v⟩ := p
  · rw [inflight_commit_eq_some]
    exact ⟨And.left, fun hin => ⟨hin, fun hu => h v (hu ▸ hin)⟩⟩
  · rw [inflight_rollback_eq_some]
    exact ⟨And.left, fun hin => ⟨hin, fun hu => h v (hu ▸ hin)⟩⟩

theorem inflight_ended {K V : Type} {tbl : Table K V} {t : Txn} {k : K} (h : ∀ u v, tbl.inflight k = some (u, v) → u = t) :
    (tbl.commit t).inflight k = none ∧ (tbl.rollback t).inflight k = none := by
  constructor
  all_goals
    rw [Option.eq_none_iff_forall_ne_some]
    rintro ⟨u, v⟩ hin
  · obtain ⟨hin, hu⟩ := inflight_commit_eq_some.mp hin
    exact hu (h u v hin)
  · obtain ⟨hin, hu⟩ := inflight_rollback_eq_some.mp hin
    exact hu (h u v hin)

/-- What a worker commits of its own file disturbs no other. -/
theorem keeps_commit (hinv : BulkInv d)
    (hothers : ∀ fileId row v, key ≠ some fileId → d.files.committed fileId = some row → d.files.inflight fileId ≠ some (t, v))
    (hnew : ∀ fileId row, d.files.inflight fileId = some (t, row) → d.files.committed fileId = none →
      row.status.terminal = false)
    (hbatches : ∀ batchId batch, d.batches.inflight batchId = some (t, batch) → d.batches.committed batchId = none →
      ∃ fileId row, d.files.inflight fileId = some (t, row) ∧ row.batchId = batchId ∧ d.files.committed fileId = none) :
    bulkSpec.Keeps t key d (Database.commit t d) := by
  refine keeps_of (hinv.commit hbatches) (hinv.filesEvolve.commit t).2 (hinv.batchesEvolve.commit t).2
    (fun fileId row hkey hrow => ?_) fun fileId row hnone hrow => ?_
  · have hfree : ∀ v, d.files.inflight fileId ≠ some (t, v) := fun v => hothers fileId row v hkey hrow
    exact ⟨committed_commit_of_no_inflight hfree, (inflight_end hfree).1, fun _ => Iff.rfl, fun _ => Iff.rfl, rfl⟩
  · rcases hinv.committed_before hrow with ⟨row', hrow', -⟩ | ⟨-, hin⟩
    · rw [hnone] at hrow'
      contradiction
    · refine ⟨(inflight_ended fun u v hin' => ?_).1, hnew fileId row hin hnone⟩
      rw [hin] at hin'
      cases hin'
      rfl

theorem keeps_rollback (hinv : BulkInv d)
    (hothers : ∀ fileId row v, key ≠ some fileId → d.files.committed fileId = some row → d.files.inflight fileId ≠ some (t, v))
    (hbatches : ∀ batchId batch, d.batches.inflight batchId = some (t, batch) → batch.status ≠ .completed) :
    bulkSpec.Keeps t key d (Database.rollback t d) := by
  refine keeps_of (hinv.rollback hbatches) (hinv.filesEvolve.rollback t).2 (hinv.batchesEvolve.rollback t).2
    (fun fileId row hkey hrow => ?_) fun fileId row hnone hrow => ?_
  · have hfree : ∀ v, d.files.inflight fileId ≠ some (t, v) := fun v => hothers fileId row v hkey hrow
    exact ⟨rfl, (inflight_end hfree).2, fun _ => Iff.rfl, fun _ => Iff.rfl, rfl⟩
  · exact absurd (hnone.symm.trans hrow) (Option.some_ne_none row).symm

theorem AtFile.keeps_commit (h : AtFile t job d) (hinv : BulkInv d) :
    bulkSpec.Keeps t (some job.fileId) d (Database.commit t d) := by
  refine Sentinel.keeps_commit hinv (fun fileId row v hkey _ hin => ?_) (fun fileId row hin hnone => ?_)
    fun batchId batch hin hnone => absurd hnone (h.batches batchId batch hin)
  · exact hkey (congrArg some (h.only fileId v hin).symm)
  · obtain ⟨row', hrow', -⟩ := h.file
    rw [h.only fileId row hin, hrow'] at hnone
    contradiction

theorem Idle.keeps_commit (h : Idle t d) (hinv : BulkInv d) :
    bulkSpec.Keeps t key d (Database.commit t d) :=
  Sentinel.keeps_commit hinv (fun fileId _ v _ _ => h.files fileId v) (fun fileId row hin => absurd hin (h.files fileId row))
    fun batchId batch hin => absurd hin (h.batches batchId batch)

theorem idle_commit (t : Txn) (d : BulkDb) : Idle t (Database.commit t d) :=
  ⟨unheld_commit d.files t, unheld_commit d.batches t⟩

theorem idle_rollback (t : Txn) (d : BulkDb) : Idle t (Database.rollback t d) :=
  ⟨unheld_rollback d.files t, unheld_rollback d.batches t⟩

theorem Idle.commit_eq (h : Idle t d) : Database.commit t d = d := by
  cases d
  exact congrArg₂ (fun b f => BulkDb.mk b f _ _ _ _ _ _ _ _ _) (commit_eq_self h.batches) (commit_eq_self h.files)

/-! ## the statements of a worker -/

section Worker

variable {job : JobMessage} {fate : JobFate} {new : BatchFileRow}

/-- Between two sessions. -/
structure Resting (t : Txn) (job : JobMessage) (row : BatchFileRow) (d : BulkDb) : Prop where
  idle : Idle t d
  committed : d.files.committed job.fileId = some row
  free : d.files.inflight job.fileId = none
  batchId : row.batchId = job.batchId
  tenantId : row.tenantId = job.tenantId

/-- With a new version of the file. -/
structure Writing (t : Txn) (job : JobMessage) (new : BatchFileRow) (d : BulkDb) : Prop where
  atFile : AtFile t job d
  held : d.files.inflight job.fileId = some (t, new)
  batches : d.batches.Unheld t
  unsettled : d.Unsettled job.fileId

theorem BulkRely.mine_of_atFile (hr : BulkRely t (some job.fileId) d d') (h : AtFile t job d) : FileSame job.fileId d d' := by
  obtain ⟨row, hrow, -⟩ := h.file
  exact hr.mine job.fileId row rfl hrow

theorem Resting.atFile (h : Resting t job row d) : AtFile t job d :=
  h.idle.atFile ⟨row, h.committed, h.batchId, h.tenantId⟩ h.free

theorem Resting.rely (h : Resting t job row d) (hr : BulkRely t (some job.fileId) d d') : Resting t job row d' := by
  have hsame := hr.mine_of_atFile h.atFile
  exact ⟨h.idle.rely hr, hsame.committed.trans h.committed, hsame.inflight.trans h.free, h.batchId, h.tenantId⟩

theorem Writing.rely (h : Writing t job new d) (hr : BulkRely t (some job.fileId) d d') : Writing t job new d' := by
  have hsame := hr.mine_of_atFile h.atFile
  exact ⟨h.atFile.rely hr, hsame.inflight.trans h.held, h.batches.frame hr.batches.frame, hsame.unsettled h.unsettled⟩

theorem Resting.getFile (h : Resting t job row d) : getFile job.tenantId job.fileId t d = some row := by
  rw [Sentinel.getFile, h.idle.files.visible, h.committed]
  exact Option.filter_some_pos (decide_eq_true h.tenantId)

theorem flush_self (loaded new : BatchFileRow) (hbatch : new.batchId = loaded.batchId) (htenant : new.tenantId = loaded.tenantId)
    (hkey : new.objectKey = loaded.objectKey) : loaded.flush new loaded = new := by
  have hflushed : ∀ {α : Type} [DecidableEq α] (a b : α), flushed a b a = b := by
    intro α _ a b
    unfold flushed
    split
    · next h => exact h.symm
    · rfl
  cases new
  simp only [BatchFileRow.flush, hflushed]
  simp_all

/-- The same file with other values in the columns that `set_file_status` sets. -/
structure Revises (loaded new : BatchFileRow) : Prop where
  batchId : new.batchId = loaded.batchId
  tenantId : new.tenantId = loaded.tenantId
  objectKey : new.objectKey = loaded.objectKey

/-- The worker at a file finds it as it left it. -/
theorem Resting.updateFile (h : Resting t job row d) (hinv : BulkInv d) (hopen : row.status.terminal = false)
    (hrevises : Revises row new) {r : Option BatchFileRow} (hupdate : Sentinel.updateFile job.tenantId job.fileId row new t d = some (r, d')) :
    r = some new ∧ bulkSpec.Keeps t (some job.fileId) d d' ∧ Writing t job new d' := by
  have hvisible : d.files.visible t job.fileId = some row := (h.idle.files.visible _).trans h.committed
  have hflush : row.flush new row = new := flush_self row new hrevises.batchId hrevises.tenantId hrevises.objectKey
  obtain ⟨⟨r', files⟩, hwhere, he⟩ := Option.map_eq_some_iff.mp hupdate
  obtain ⟨rfl, rfl⟩ := Prod.mk.inj he
  rcases updateWhere_cases hwhere with ⟨-, -, hno⟩ | ⟨v, hv, -, hfree, rfl, rfl⟩
  · have hfalse := hno row hvisible
    rw [decide_eq_true h.tenantId] at hfalse
    contradiction
  · obtain rfl : row = v := Option.some.inj (hvisible.symm.trans hv)
    rw [hflush]
    have hstep : ∀ old, d.files.committed job.fileId = some old → fileStep old new := by
      intro old hold
      obtain rfl : row = old := Option.some.inj (h.committed.symm.trans hold)
      refine ⟨hrevises.batchId, hrevises.tenantId, fun hterminal => ?_⟩
      rw [hopen] at hterminal
      contradiction
    have hwritten := hinv.filesEvolve.write hfree hstep
    have hinv' := hinv.writeFile hfree hstep fun hnone => absurd (h.committed.symm.trans hnone) (Option.some_ne_none row)
    refine ⟨rfl, keeps_of hinv' hwritten.2 (fun u _ => Follows.refl u _) (fun fileId row' hkey _ => ?_)
      fun fileId row' hnone hrow => absurd (hnone.symm.trans hrow) (Option.some_ne_none row').symm, ?_⟩
    · have hne : fileId ≠ job.fileId := fun hsame => hkey (congrArg some hsame.symm)
      exact ⟨rfl, inflight_write_of_ne hne, fun _ => Iff.rfl, fun _ => Iff.rfl, rfl⟩
    · have honly := h.idle.files.write job.fileId new
      have hunsettled := hinv.unsettled h.committed hopen
      refine ⟨⟨⟨row, h.committed, h.batchId, h.tenantId⟩, honly.only, fun u row' hin => ?_,
        fun batchId batch hin => absurd hin (h.idle.batches batchId batch),
        fun batchId batch _ hin => absurd hin (h.idle.batches batchId batch)⟩, honly.holds, h.idle.batches,
        ⟨hunsettled.unchecked, hunsettled.unreleased, hunsettled.silent⟩⟩
      have hself : some (u, row') = some (t, new) := hin.symm.trans honly.holds
      cases hself
      rfl

theorem Writing.commit (h : Writing t job new d) (hinv : BulkInv d) (hbatch : new.batchId = job.batchId)
    (htenant : new.tenantId = job.tenantId) :
    bulkSpec.Keeps t (some job.fileId) d (Database.commit t d) ∧ Resting t job new (Database.commit t d) ∧
      (Database.commit t d).Unsettled job.fileId :=
  ⟨h.atFile.keeps_commit hinv, ⟨idle_commit t d, visible_of_inflight h.held, (inflight_ended h.atFile.alone).1,
    hbatch, htenant⟩, ⟨h.unsettled.unchecked, h.unsettled.unreleased, h.unsettled.silent⟩⟩

theorem Resting.commit (h : Resting t job row d) (hinv : BulkInv d) :
    bulkSpec.Keeps t (some job.fileId) d (Database.commit t d) ∧ Resting t job row (Database.commit t d) := by
  have hkeeps : bulkSpec.Keeps t (some job.fileId) d (Database.commit t d) := h.idle.keeps_commit hinv
  rw [h.idle.commit_eq] at hkeeps ⊢
  exact ⟨hkeeps, h⟩

theorem wp_flushFile {γ : Type} (h : Resting t job row d) (hopen : row.status.terminal = false)
    (hrevises : Revises row new) {k : Unit → Prog BulkDb BulkError γ} {Q : γ → BulkDb → Prop}
    (hrest : ∀ d', BulkInv d' → Resting t job new d' → d'.Unsettled job.fileId →
      bulkSpec.wp t (.process job fate) Q (k ()) d') :
    bulkSpec.wp t (.process job fate) Q (do
      flushFile job row new
      Prog.commitWork >>= k) d := by
  by_cases hsame : new = row
  · subst hsame
    rw [flushFile, if_pos rfl]
    refine wp_commitWork_bind fun d₁ h₁ hr₁ _ => ?_
    have hrest₁ := h.rely hr₁
    obtain ⟨hkeeps, hresting⟩ := hrest₁.commit h₁
    exact ⟨hkeeps, hresting.atFile, hrest _ hkeeps.inv hresting (hkeeps.inv.unsettled hresting.committed hopen)⟩
  · rw [flushFile, if_neg hsame]
    refine wp_exec_bind fun d₁ h₁ hr₁ _ r d₂ hupdate => ?_
    obtain ⟨rfl, hkeeps₂, hwriting⟩ := (h.rely hr₁).updateFile h₁ hopen hrevises hupdate
    refine ⟨hkeeps₂, hwriting.atFile, wp_commitWork_bind fun d₃ h₃ hr₃ _ => ?_⟩
    obtain ⟨hkeeps, hresting, hunsettled⟩ := (hwriting.rely hr₃).commit h₃ (hrevises.batchId.trans h.batchId)
      (hrevises.tenantId.trans h.tenantId)
    exact ⟨hkeeps, hresting.atFile, hrest _ hkeeps.inv hresting hunsettled⟩

theorem wp_setFileStatus {change : BatchFileRow → BatchFileRow} (h : Resting t job row d)
    (hopen : row.status.terminal = false) (hrevises : Revises row (change row)) :
    bulkSpec.wp t (.process job fate) (fun _ d' => Resting t job (change row) d' ∧ d'.Unsettled job.fileId)
      (setFileStatus job change) d := by
  refine wp_query_bind BulkRely.refl (fun _ => ⟨Moves.refl _, Moves.refl _⟩) fun d₁ _ hr₁ _ => ?_
  have hresting := h.rely hr₁
  rw [hresting.getFile]
  refine wp_flushFile (k := pure) hresting hopen hrevises fun d₂ _ hresting₂ hunsettled d₃ _ hr₃ _ => ?_
  exact ⟨hresting₂.rely hr₃, (hr₃.mine_of_atFile hresting₂.atFile).unsettled hunsettled⟩

/-! ## after a terminal status -/

/-- The file is terminal, and it was checked whether its batch is done. -/
structure Closing (t : Txn) (job : JobMessage) (won : Bool) (d : BulkDb) : Prop where
  resting : ∃ row, Resting t job row d ∧ row.status.terminal = true
  checked : ∀ won', (job.fileId, won') ∈ d.checked ↔ won' = won
  unreleased : ¬d.Released job.fileId

theorem Closing.atFile (h : Closing t job won d) : AtFile t job d :=
  h.resting.choose_spec.1.atFile

theorem Closing.rely (h : Closing t job won d) (hr : BulkRely t (some job.fileId) d d') : Closing t job won d' := by
  obtain ⟨row, hresting, hterminal⟩ := h.resting
  have hsame := hr.mine_of_atFile h.atFile
  exact ⟨⟨row, hresting.rely hr, hterminal⟩, fun won' => (hsame.checked won').trans (h.checked won'),
    fun hreleased => h.unreleased (hreleased.imp fun tenantId => (hsame.released tenantId).mp)⟩

theorem TriedToComplete.keeps (h : TriedToComplete t job won d d') : bulkSpec.Keeps t (some job.fileId) d d' := by
  refine keeps_of h.inv (fun u _ => ?_) h.batches (fun fileId row hkey _ => ⟨?_, ?_, fun won' => ?_, fun tenantId => ?_, ?_⟩)
    fun fileId row hnone hrow => ?_
  · rw [h.files]
    exact Follows.refl u _
  · rw [h.files]
  · rw [h.files]
  · rw [h.checked, List.mem_append, List.mem_singleton]
    refine ⟨fun hmem => hmem.resolve_right fun hsame => ?_, .inl⟩
    exact hkey (congrArg some (Prod.mk.inj hsame).1.symm)
  · rw [h.released]
  · unfold BulkDb.completions
    rw [h.events]
  · rw [h.files, hnone] at hrow
    contradiction

theorem wp_completeIfDone (h : Resting t job row d) (hterminal : row.status.terminal = true)
    (hunsettled : d.Unsettled job.fileId) :
    bulkSpec.wp t (.process job fate) (fun won d' => Closing t job won d' ∧ d'.completions job.fileId = [])
      (completeIfDone job) d := by
  refine wp_exec_bind fun d₁ h₁ hr₁ _ won d₂ htry => ?_
  have hresting₁ := h.rely hr₁
  have hunsettled₁ := (hr₁.mine_of_atFile h.atFile).unsettled hunsettled
  have htried := h₁.tryCompleteBatch hresting₁.committed hresting₁.batchId hresting₁.tenantId hterminal
    hresting₁.idle.files hresting₁.idle.batches htry
  have hchecked₂ : ∀ won', (job.fileId, won') ∈ d₂.checked ↔ won' = won := by
    intro won'
    rw [htried.checked, List.mem_append, List.mem_singleton]
    refine ⟨fun hmem => ?_, fun hwon => .inr (by rw [hwon])⟩
    rcases hmem with hmem | hmem
    · exact absurd ⟨won', hmem⟩ hunsettled₁.unchecked
    · exact (Prod.mk.inj hmem).2
  have hunreleased₂ : ¬d₂.Released job.fileId := by
    unfold BulkDb.Released
    rw [htried.released]
    exact hunsettled₁.unreleased
  have hsilent₂ : d₂.completions job.fileId = [] := by
    unfold BulkDb.completions
    rw [htried.events]
    exact hunsettled₁.silent
  have hcommitted₂ : d₂.files.committed job.fileId = some row := by
    rw [htried.files]
    exact hresting₁.committed
  have hfree₂ : d₂.files.inflight job.fileId = none := by
    rw [htried.files]
    exact hresting₁.free
  have hfiles₂ : d₂.files.Unheld t := by
    rw [htried.files]
    exact hresting₁.idle.files
  have hat₂ : AtFile t job d₂ := by
    refine ⟨⟨row, hcommitted₂, hresting₁.batchId, hresting₁.tenantId⟩, fun fileId row' hin => absurd hin (hfiles₂ fileId row'),
      fun u row' hin => ?_, htried.held, fun batchId batch row' _ hrow' => ?_⟩
    · rw [hfree₂] at hin
      contradiction
    · rw [hcommitted₂] at hrow'
      cases hrow'
      exact ⟨hterminal, hunreleased₂⟩
  refine ⟨htried.keeps, hat₂, wp_commitWork_bind fun d₃ h₃ hr₃ hat₃ => ?_⟩
  have hsame₃ := hr₃.mine_of_atFile hat₂
  have hkeeps₄ : bulkSpec.Keeps t (some job.fileId) d₃ (Database.commit t d₃) := AtFile.keeps_commit hat₃ h₃
  have hfiles₃ : d₃.files.Unheld t := hfiles₂.frame hr₃.files.frame
  have hclosing : Closing t job won (Database.commit t d₃) := by
    refine ⟨⟨row, ⟨idle_commit t d₃, ?_, ?_, hresting₁.batchId, hresting₁.tenantId⟩, hterminal⟩,
      fun won' => (hsame₃.checked won').trans (hchecked₂ won'),
      fun hreleased => hunreleased₂ (hreleased.imp fun tenantId => (hsame₃.released tenantId).mp)⟩
    · exact (hfiles₃.committed_commit job.fileId).trans (hsame₃.committed.trans hcommitted₂)
    · exact (inflight_end (hfiles₃ job.fileId)).1.trans (hsame₃.inflight.trans hfree₂)
  have hsilent₄ : (Database.commit t d₃ : BulkDb).completions job.fileId = [] := hsame₃.completions.trans hsilent₂
  refine ⟨hkeeps₄, hclosing.atFile, fun d₅ _ hr₅ _ => ⟨hclosing.rely hr₅, ?_⟩⟩
  exact (hr₅.mine_of_atFile hclosing.atFile).completions.trans hsilent₄

theorem keeps_emitOther {key : Option String} {event : BatchEvent} (hinv : BulkInv d)
    (hother : event.eventType ≠ "batch_completed") :
    bulkSpec.Keeps t key d { d with events := d.events ++ [event] } :=
  keeps_of (hinv.emitOther hother) (fun u _ => Follows.refl u _) (fun u _ => Follows.refl u _)
    (fun fileId _ _ _ => ⟨rfl, rfl, fun _ => Iff.rfl, fun _ => Iff.rfl, completions_append_other hother fileId⟩)
    fun _ row hnone hrow => absurd (hnone.symm.trans hrow) (Option.some_ne_none row).symm

theorem wp_emitOther_bind {δ : Type} {req : BulkRequest} {succeeds : Bool} {event : BatchEvent}
    {k : Unit → Prog BulkDb BulkError δ} {Q : δ → BulkDb → Prop} {P : BulkDb → Prop} (hinv : BulkInv d)
    (hother : event.eventType ≠ "batch_completed") (hrely : ∀ d d', P d → BulkRely t req.file d d' → P d')
    (hP : ∀ d, P d → P { d with events := d.events ++ [event] }) (hd : P d)
    (hk : ∀ d, BulkInv d → P d → bulkSpec.wp t req Q (k ()) d) :
    bulkSpec.wp t req Q (emit succeeds event >>= k) d := by
  cases succeeds with
  | false => exact hk d hinv hd
  | true =>
      refine wp_exec_bind fun d₁ h₁ hr₁ hw₁ x d₂ hexec => ?_
      cases hexec
      have hkeeps : bulkSpec.Keeps t req.file d₁ { d₁ with events := d₁.events ++ [event] } := keeps_emitOther h₁ hother
      refine ⟨hkeeps, ?_, hk _ hkeeps.inv (hP d₁ (hrely d d₁ hd hr₁))⟩
      cases req with
      | submit call => exact ⟨hw₁.1, hw₁.2⟩
      | process job fate => exact ⟨hw₁.1, hw₁.2, hw₁.3, hw₁.4, hw₁.5⟩

/-- Everything is done for the file. -/
structure Closed (t : Txn) (job : JobMessage) (d : BulkDb) : Prop where
  resting : ∃ row, Resting t job row d ∧ row.status.terminal = true
  settled : d.Settled job.fileId

theorem Closed.rely (h : Closed t job d) (hr : BulkRely t (some job.fileId) d d') : Closed t job d' := by
  obtain ⟨row, hresting, hterminal⟩ := h.resting
  exact ⟨⟨row, hresting.rely hr, hterminal⟩, (hr.mine_of_atFile hresting.atFile).settled h.settled⟩

theorem Closed.same (h : Closed t job d) (hsame : SameTables d d') : Closed t job d' := by
  cases d
  cases d'
  obtain ⟨rfl, rfl, rfl, rfl, rfl, rfl⟩ := hsame
  obtain ⟨⟨row, hresting, hterminal⟩, hsettled⟩ := h
  exact ⟨⟨row, ⟨⟨hresting.1.1, hresting.1.2⟩, hresting.2, hresting.3, hresting.4, hresting.5⟩, hterminal⟩,
    ⟨hsettled.1, hsettled.2, hsettled.3⟩⟩

theorem Closing.releaseFile (h : Closing t job won d) (hinv : BulkInv d)
    (hannounced : won = true → d.completions job.fileId ≠ []) :
    bulkSpec.Keeps t (some job.fileId) d (Sentinel.releaseFile job t d).2 ∧
      Closed t job (Sentinel.releaseFile job t d).2 := by
  obtain ⟨row, hresting, hterminal⟩ := h.resting
  have hchecked : d.Checked job.fileId := ⟨won, (h.checked won).mpr rfl⟩
  refine ⟨keeps_of (hinv.releaseFile hchecked h.unreleased hresting.committed hresting.tenantId) (fun u _ => Follows.refl u _)
    (fun u _ => Follows.refl u _) (fun fileId row' hkey _ => ⟨rfl, rfl, fun _ => Iff.rfl, fun tenantId => ?_, rfl⟩)
    (fun _ row' hnone hrow => absurd (hnone.symm.trans hrow) (Option.some_ne_none row').symm), ⟨row, ?_, hterminal⟩, ?_⟩
  · show _ ∈ d.released ++ [_] ↔ _
    rw [List.mem_append, List.mem_singleton]
    exact ⟨fun hmem => hmem.resolve_right fun hsame => hkey (congrArg some (Prod.mk.inj hsame).1.symm), .inl⟩
  · exact ⟨⟨hresting.idle.files, hresting.idle.batches⟩, hresting.committed, hresting.free, hresting.batchId, hresting.tenantId⟩
  · exact ⟨hchecked, ⟨job.tenantId, List.mem_append_right _ List.mem_cons_self⟩, fun hwon => hannounced ((h.checked true).mp hwon).symm⟩

theorem wp_releaseSlots {batchComplete : Bool} (h : Closing t job won d)
    (hannounced : won = true → d.completions job.fileId ≠ []) (hfate : fate.releaseFile = .answers) :
    bulkSpec.wp t (.process job fate) (fun _ d' => Closed t job d') (releaseSlots job fate batchComplete) d := by
  unfold releaseSlots
  rw [hfate]
  refine wp_exec_bind fun d₁ h₁ hr₁ _ x d₂ hexec => ?_
  cases hexec
  have hsame := hr₁.mine_of_atFile h.atFile
  obtain ⟨hkeeps, hclosed⟩ := (h.rely hr₁).releaseFile h₁ fun hwon => hsame.completions.symm ▸ hannounced hwon
  refine ⟨hkeeps, hclosed.resting.choose_spec.1.atFile, ?_⟩
  show bulkSpec.wp t (.process job fate) _ (if batchComplete = true then _ else pure ()) _
  split
  · exact wp_redisCall_bind (P := Closed t job) (fun _ _ => ⟨rfl, rfl, rfl, rfl, rfl, rfl⟩) (fun _ _ hc hr => hc.rely hr)
      (fun _ _ hc hs => hc.same hs) hclosed fun _ d₃ hc d₄ _ hr₄ _ => hc.rely hr₄
  · exact fun d₃ _ hr₃ _ => hclosed.rely hr₃

/-- A file that is terminal is audited, released and counted once. -/
theorem wp_closeFile {eventType : String} (h : Resting t job row d) (hinv : BulkInv d) (hterminal : row.status.terminal = true)
    (hunsettled : d.Unsettled job.fileId) (hevent : eventType ≠ "batch_completed") (hcompleted : fate.emitsCompleted = true)
    (hrelease : fate.releaseFile = .answers) :
    bulkSpec.wp t (.process job fate) (fun _ d' => Closed t job d') (closeFile job fate eventType) d := by
  refine wp_bind (BulkRely.refl t _) hinv h.atFile (wp_mono (fun won d₁ h₁ hat₁ hclosing => ?_)
    (wp_completeIfDone h hterminal hunsettled))
  obtain ⟨hclosing, hsilent⟩ := hclosing
  -- the event of the file
  have hrest : ∀ d, BulkInv d → Closing t job won d → d.completions job.fileId = [] →
      bulkSpec.wp t (.process job fate) (fun _ d' => Closed t job d')
        (if won then do
          emit fate.emitsCompleted job.completed
          releaseSlots job fate true
        else releaseSlots job fate false) d := by
    intro d hinv hclosing hsilent
    cases won with
    | false => exact wp_releaseSlots hclosing (fun hwon => absurd hwon Bool.false_ne_true) hrelease
    | true =>
        rw [if_pos rfl, emit, if_pos hcompleted]
        refine wp_exec_bind fun d₂ h₂ hr₂ _ x d₃ hexec => ?_
        cases hexec
        have hsame := hr₂.mine_of_atFile hclosing.atFile
        have hclosing₂ := hclosing.rely hr₂
        have hsilent₂ : d₂.completions job.fileId = [] := hsame.completions.trans hsilent
        have hinv₃ := h₂.emitCompleted ((hclosing₂.checked true).mpr rfl) hsilent₂
        obtain ⟨row₂, hresting₂, hterminal₂⟩ := hclosing₂.resting
        have hclosing₃ : Closing t job true { d₂ with events := d₂.events ++ [job.completed] } :=
          ⟨⟨row₂, ⟨⟨hresting₂.idle.files, hresting₂.idle.batches⟩, hresting₂.committed, hresting₂.free, hresting₂.batchId,
            hresting₂.tenantId⟩, hterminal₂⟩, hclosing₂.checked, hclosing₂.unreleased⟩
        refine ⟨keeps_of hinv₃ (fun u _ => Follows.refl u _) (fun u _ => Follows.refl u _)
          (fun fileId row' hkey _ => ⟨rfl, rfl, fun _ => Iff.rfl, fun _ => Iff.rfl, ?_⟩)
          (fun _ row' hnone hrow => absurd (hnone.symm.trans hrow) (Option.some_ne_none row').symm), hclosing₃.atFile,
          wp_releaseSlots hclosing₃ (fun _ => ?_) hrelease⟩
        · rw [completions_append, if_neg fun hsame => hkey (congrArg some hsame)]
        · rw [completions_append, if_pos rfl]
          exact List.append_ne_nil_of_right_ne_nil _ (List.cons_ne_nil _ _)
  refine wp_emitOther_bind (P := fun d => Closing t job won d ∧ d.completions job.fileId = []) h₁ hevent
    (fun d d' hP hr => ⟨hP.1.rely hr, (hr.mine_of_atFile hP.1.atFile).completions.trans hP.2⟩) (fun d hP => ⟨?_, ?_⟩)
    ⟨hclosing, hsilent⟩ fun d h hP => hrest d h hP.1 hP.2
  · obtain ⟨row₂, hresting₂, hterminal₂⟩ := hP.1.resting
    exact ⟨⟨row₂, ⟨⟨hresting₂.idle.files, hresting₂.idle.batches⟩, hresting₂.committed, hresting₂.free, hresting₂.batchId,
      hresting₂.tenantId⟩, hterminal₂⟩, hP.1.checked, hP.1.unreleased⟩
  · exact (completions_append_other hevent job.fileId).trans hP.2

/-! ## a worker's program -/

theorem wp_redisOrRaise {γ : Type} {f : Txn → BulkDb → γ × BulkDb} (hsame : ∀ t d, SameTables d (f t d).2)
    (hrely : ∀ d d', P d → BulkRely t req.file d d' → P d') (hP : ∀ d d', P d → SameTables d d' → P d') (hd : P d) :
    bulkSpec.wp t req (fun _ d' => P d') (redisOrRaise f .answers) d := by
  refine wp_exec_bind fun d₁ h₁ hr₁ hw₁ x d₂ hexec => ?_
  cases hexec
  have hP₂ := hP _ _ (hrely d d₁ hd hr₁) (hsame t d₁)
  exact ⟨keeps_same h₁ (hsame t d₁), works_same hw₁ (hsame t d₁), fun d₃ _ hr₃ _ => hrely _ d₃ hP₂ hr₃⟩

theorem keeps_xadd {key : Option String} (hinv : BulkInv d) (hrow : ∃ row, d.files.committed job.fileId = some row ∧
    row.batchId = job.batchId ∧ row.tenantId = job.tenantId) : bulkSpec.Keeps t key d (xadd job t d).2 :=
  keeps_of (hinv.xadd hrow) (fun u _ => Follows.refl u _) (fun u _ => Follows.refl u _)
    (fun _ _ _ _ => ⟨rfl, rfl, fun _ => Iff.rfl, fun _ => Iff.rfl, rfl⟩)
    fun _ row' hnone hrow => absurd (hnone.symm.trans hrow) (Option.some_ne_none row').symm

theorem wp_requeue (h : Resting t job row d) (hopen : row.status.terminal = false) :
    bulkSpec.wp t (.process job fate) (fun _ d' => Resting t job row d') (redisOrRaise (xadd job) fate.requeue) d := by
  refine wp_redisCall_step (P := Resting t job row) (fun d₁ h₁ hr₁ _ => ?_) h fun r d₁ h₁ => ?_
  · have hresting := h.rely hr₁
    have hresting₂ : Resting t job row (xadd job t d₁).2 :=
      ⟨⟨hresting.idle.files, hresting.idle.batches⟩, hresting.committed, hresting.free, hresting.batchId, hresting.tenantId⟩
    exact ⟨keeps_xadd h₁ ⟨row, hresting.committed, hresting.batchId, hresting.tenantId⟩, hresting₂.atFile, hresting₂⟩
  · cases r with
    | error e =>
        refine wp_raise fun d₂ _ hr₂ _ row' hrow' hterminal => ?_
        obtain rfl : row = row' := Option.some.inj ((h₁.rely hr₂).committed.symm.trans hrow')
        rw [hopen] at hterminal
        contradiction
    | ok x => exact fun d₂ _ hr₂ _ => h₁.rely hr₂

theorem Resting.same (h : Resting t job row d) (hsame : SameTables d d') : Resting t job row d' :=
  ⟨h.idle.same hsame, hsame.files ▸ h.committed, hsame.files ▸ h.free, h.batchId, h.tenantId⟩

theorem unsettled_same (h : d.Unsettled fileId) (hsame : SameTables d d') : d'.Unsettled fileId := by
  cases d
  cases d'
  obtain ⟨rfl, rfl, rfl, rfl, rfl, rfl⟩ := hsame
  exact ⟨h.1, h.2, h.3⟩

/-- What a worker leaves. -/
def Leaves (t : Txn) (job : JobMessage) (d : BulkDb) : Prop := Idle t d ∧ FileRests job.fileId d

theorem Closed.leaves (h : Closed t job d) : Leaves t job d := by
  obtain ⟨row, hresting, -⟩ := h.resting
  exact ⟨hresting.idle, fun _ _ => ⟨hresting.free, fun _ => h.settled⟩⟩

theorem Resting.leaves (h : Resting t job row d) (hsettled : row.status.terminal = true → d.Settled job.fileId) :
    Leaves t job d := by
  refine ⟨h.idle, fun row' hrow' => ⟨h.free, fun hterminal => hsettled ?_⟩⟩
  obtain rfl : row = row' := Option.some.inj (h.committed.symm.trans hrow')
  exact hterminal

theorem wp_finalize {outcome : FileOutcome} (h : Resting t job row d) (hinv : BulkInv d) (hopen : row.status.terminal = false)
    (hcompleted : fate.emitsCompleted = true) (hrelease : fate.releaseFile = .answers) :
    bulkSpec.wp t (.process job fate) (fun _ d' => Closed t job d') (finalize job fate outcome) d := by
  refine wp_bind (BulkRely.refl t _) hinv h.atFile (wp_mono (fun _ d₁ h₁ _ hset => ?_)
    (wp_setFileStatus h hopen ⟨rfl, rfl, rfl⟩))
  refine wp_closeFile hset.1 h₁ ?_ hset.2 ?_ hcompleted hrelease
  · cases outcome <;> rfl
  · split <;> decide

variable {settings : BulkSettings}

/-- A failure sends the file back, or to the dead letters. -/
theorem wp_handleFailure {attempt : Nat} {failureClass : String} (h : Resting t job row d)
    (hinv : BulkInv d) (hopen : row.status.terminal = false) (hdeadLetter : fate.deadLetter = .answers)
    (hcompleted : fate.emitsCompleted = true) (hrelease : fate.releaseFile = .answers) :
    bulkSpec.wp t (.process job fate) (fun _ d' => Leaves t job d')
      (handleFailure job fate settings attempt failureClass) d := by
  unfold handleFailure
  rw [hdeadLetter]
  split
  · refine wp_bind (BulkRely.refl t _) hinv h.atFile (wp_mono (fun _ d₁ h₁ _ hset => ?_)
      (wp_setFileStatus h hopen ⟨rfl, rfl, rfl⟩))
    refine wp_bind (BulkRely.refl t _) h₁ hset.1.atFile (wp_mono (fun _ d₂ _ _ hresting => ?_)
      (wp_requeue hset.1 rfl))
    exact fun d₃ _ hr₃ _ => (hresting.rely hr₃).leaves fun hterminal => absurd hterminal Bool.false_ne_true
  · refine wp_bind (BulkRely.refl t _) hinv h.atFile (wp_mono (fun _ d₁ h₁ _ hset => ?_)
      (wp_setFileStatus h hopen ⟨rfl, rfl, rfl⟩))
    refine wp_bind (BulkRely.refl t _) h₁ hset.1.atFile (wp_mono (fun _ d₂ h₂ _ hdead => ?_)
      (wp_redisOrRaise (P := fun d => Resting t job _ d ∧ d.Unsettled job.fileId)
        (fun _ _ => ⟨rfl, rfl, rfl, rfl, rfl, rfl⟩)
        (fun _ _ hP hr => ⟨hP.1.rely hr, (hr.mine_of_atFile hP.1.atFile).unsettled hP.2⟩)
        (fun _ _ hP hs => ⟨hP.1.same hs, unsettled_same hP.2 hs⟩) hset))
    refine wp_bind (BulkRely.refl t _) h₂ hdead.1.atFile (wp_mono (fun _ d₃ _ _ hclosed => ?_)
      (wp_closeFile hdead.1 h₂ rfl hdead.2 (by decide) hcompleted hrelease))
    exact fun d₄ _ hr₄ _ => (hclosed.rely hr₄).leaves

theorem wp_inspectFile {claimed : BatchFileRow} (h : Resting t job row d) (hinv : BulkInv d)
    (hopen : row.status.terminal = false) (hdeadLetter : fate.deadLetter = .answers)
    (hcompleted : fate.emitsCompleted = true) (hrelease : fate.releaseFile = .answers) :
    bulkSpec.wp t (.process job fate) (fun _ d' => Leaves t job d') (inspectFile job fate settings claimed) d := by
  unfold inspectFile
  split
  · exact wp_handleFailure h hinv hopen hdeadLetter hcompleted hrelease
  · split
    · exact wp_handleFailure h hinv hopen hdeadLetter hcompleted hrelease
    · refine wp_bind (BulkRely.refl t _) hinv h.atFile (wp_mono (fun _ d₁ _ _ hclosed => ?_)
        (wp_finalize h hinv hopen hcompleted hrelease))
      exact fun d₂ _ hr₂ _ => (hclosed.rely hr₂).leaves

/-- **A job**: its file is left alone if it is terminal, and taken as far as it gets otherwise. -/
theorem wp_processJob (h : Resting t job row d)
    (hsettled : row.status.terminal = true → d.Settled job.fileId) (hdeadLetter : fate.deadLetter = .answers)
    (hcompleted : fate.emitsCompleted = true) (hrelease : fate.releaseFile = .answers) :
    bulkSpec.wp t (.process job fate) (fun _ d' => Leaves t job d') (processJob job fate settings) d := by
  refine wp_query_bind BulkRely.refl (fun _ => ⟨Moves.refl _, Moves.refl _⟩) fun d₁ h₁ hr₁ _ => ?_
  have hresting := h.rely hr₁
  rw [hresting.getFile]
  cases hterminal : row.status.terminal with
  | true =>
      have hskip : bulkSpec.wp t (.process job fate) (fun _ d' => Leaves t job d')
          (pure .skipped : Prog BulkDb BulkError JobResult) d₁ := by
        intro d₂ _ hr₂ _
        refine (hresting.rely hr₂).leaves fun hterminal => ?_
        exact (hr₂.mine_of_atFile hresting.atFile).settled
          ((hr₁.mine_of_atFile h.atFile).settled (hsettled hterminal))
      simpa only [hterminal, if_true] using hskip
  | false =>
      simp only [hterminal, Bool.false_eq_true, if_false]
      have hrevises : Revises row { row with status := .running, attemptCount := row.attemptCount + 1 } := ⟨rfl, rfl, rfl⟩
      refine wp_flushFile hresting hterminal hrevises fun d₂ h₂ hresting₂ _ => ?_
      exact wp_inspectFile hresting₂ h₂ rfl hdeadLetter hcompleted hrelease

end Worker

end Anoryx.Sentinel
