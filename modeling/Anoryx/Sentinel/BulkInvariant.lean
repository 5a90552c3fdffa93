import Anoryx.ReadCommitted.Evolving
import Anoryx.ReadCommitted.Exclusive
import Anoryx.Sentinel.BulkWorker

/-!
# Anoryx.Sentinel.BulkInvariant

What holds of the bulk tables between any two statements, where no two workers are at a file
at a time (`BulkInv`), and that every statement keeps it.

A batch is found done by the worker of one of its files, after that file's terminal status
was committed.  Whoever is the last to look sees all of them: a batch whose files are all
terminal is completed, or one of its files was not checked yet.
-/

namespace Anoryx.Sentinel

open ReadCommitted Table

/-! ## how rows move -/

/-- A file stays in its batch, and a terminal one as it is. -/
def fileStep (row row' : BatchFileRow) : Prop :=
  row'.batchId = row.batchId ∧ row'.tenantId = row.tenantId ∧ (row.status.terminal = true → row' = row)

/-- A batch stays its tenant's, and its submission's, and a completed one completed. -/
def batchStep (row row' : BatchRow) : Prop :=
  (row'.tenantId = row.tenantId ∧ row'.idempotencyKey = row.idempotencyKey) ∧ (row.status = .completed → row'.status = .completed)

instance : Std.Refl fileStep := ⟨fun _ => ⟨rfl, rfl, fun _ => rfl⟩⟩

instance : IsTrans BatchFileRow fileStep where
  trans row row' row'' h h' := by
    refine ⟨h'.1.trans h.1, h'.2.1.trans h.2.1, fun hterminal => ?_⟩
    have hsame : row' = row := h.2.2 hterminal
    exact (h'.2.2 (hsame ▸ hterminal)).trans hsame

instance : Std.Refl batchStep := ⟨fun _ => ⟨⟨rfl, rfl⟩, id⟩⟩

instance : IsTrans BatchRow batchStep where
  trans _ _ _ h h' := ⟨⟨h'.1.1.trans h.1.1, h'.1.2.trans h.1.2⟩, fun hcompleted => h'.2 (h.2 hcompleted)⟩

/-! ## what was done for a file -/

namespace BulkDb

variable (d : BulkDb) (fileId : String)

/-- It was checked whether the file's batch is done. -/
def Checked : Prop := ∃ won, (fileId, won) ∈ d.checked

/-- The file's slot was released. -/
def Released : Prop := ∃ tenantId, (fileId, tenantId) ∈ d.released

/-- The events that tell, after this file, that its batch is completed. -/
def completions : List BatchEvent :=
  d.events.filter fun event => event.eventType = "batch_completed" && event.requestId = fileId

/-- All that has to be done for a file that is terminal. -/
structure Settled : Prop where
  checked : d.Checked fileId
  released : d.Released fileId
  announced : (fileId, true) ∈ d.checked → d.completions fileId ≠ []

/-- Nothing of that was done yet. -/
structure Unsettled : Prop where
  unchecked : ¬d.Checked fileId
  unreleased : ¬d.Released fileId
  silent : d.completions fileId = []

/-- The files of a batch are all terminal. -/
def BatchDone (batchId : String) : Prop :=
  ∀ fileId row, d.files.committed fileId = some row → row.batchId = batchId → row.status.terminal = true

/-- The batch is completed, committed or not. -/
def BatchCompleted (batchId : String) : Prop :=
  ∃ batch, d.batches.newest batchId = some batch ∧ batch.status = .completed

end BulkDb

/-! ## the invariant -/

structure BulkInv (d : BulkDb) : Prop where
  filesEvolve : d.files.Evolves fileStep
  batchesEvolve : d.batches.Evolves batchStep
  /-- a file has its batch -/
  parent : ∀ fileId row, d.files.committed fileId = some row →
    ∃ batch, d.batches.committed row.batchId = some batch ∧ batch.tenantId = row.tenantId
  /-- a new file comes with its batch -/
  coming : ∀ fileId t row, d.files.inflight fileId = some (t, row) → d.files.committed fileId = none →
    d.batches.committed row.batchId = none ∧
      ∃ batch, d.batches.inflight row.batchId = some (t, batch) ∧ batch.tenantId = row.tenantId
  jobs : ∀ job ∈ d.stream, ∃ row, d.files.committed job.fileId = some row ∧ row.batchId = job.batchId ∧
    row.tenantId = job.tenantId
  checkedTerminal : ∀ fileId, d.Checked fileId → ∃ row, d.files.committed fileId = some row ∧ row.status.terminal = true
  releasedChecked : ∀ fileId, d.Released fileId → d.Checked fileId
  releasedOnce : (d.released.map Prod.fst).Nodup
  won : ∀ fileId row, (fileId, true) ∈ d.checked → d.files.committed fileId = some row →
    d.BatchDone row.batchId ∧ d.BatchCompleted row.batchId
  wonOnce : ∀ fileId fileId' row row', (fileId, true) ∈ d.checked → (fileId', true) ∈ d.checked →
    d.files.committed fileId = some row → d.files.committed fileId' = some row' → row.batchId = row'.batchId →
    fileId = fileId'
  completedWon : ∀ batchId, d.BatchCompleted batchId →
    ∃ fileId row, d.files.committed fileId = some row ∧ row.batchId = batchId ∧ (fileId, true) ∈ d.checked
  announcedOnce : ∀ fileId, (d.completions fileId).length ≤ 1 ∧ (d.completions fileId ≠ [] → (fileId, true) ∈ d.checked)
  closing : ∀ batchId batch, d.batches.committed batchId = some batch → d.BatchDone batchId →
    d.BatchCompleted batchId ∨
      ∃ fileId row, d.files.committed fileId = some row ∧ row.batchId = batchId ∧ ¬d.Checked fileId
  releasedOf : ∀ fileId tenantId, (fileId, tenantId) ∈ d.released →
    ∃ row, d.files.committed fileId = some row ∧ row.tenantId = tenantId

variable {d d' : BulkDb} {t u : Txn} {fileId : String} {row row' : BatchFileRow}

theorem BulkInv.unsettled (h : BulkInv d) (hrow : d.files.committed fileId = some row)
    (hopen : row.status.terminal = false) : d.Unsettled fileId := by
  have hunchecked : ¬d.Checked fileId := by
    intro hchecked
    obtain ⟨row', hrow', hterminal⟩ := h.checkedTerminal fileId hchecked
    rw [hrow] at hrow'
    cases hrow'
    rw [hopen] at hterminal
    contradiction
  refine ⟨hunchecked, fun hreleased => hunchecked (h.releasedChecked fileId hreleased), ?_⟩
  by_contra hannounced
  exact hunchecked ⟨true, (h.announcedOnce fileId).2 hannounced⟩

theorem bulkInv_empty : BulkInv BulkDb.empty where
  filesEvolve := evolves_empty
  batchesEvolve := evolves_empty
  parent _ _ h := by contradiction
  coming _ _ _ h := by contradiction
  jobs _ h := absurd h List.not_mem_nil
  checkedTerminal _ h := absurd h.choose_spec List.not_mem_nil
  releasedChecked _ h := absurd h.choose_spec List.not_mem_nil
  releasedOnce := List.nodup_nil
  won _ _ h := absurd h List.not_mem_nil
  wonOnce _ _ _ _ h := absurd h List.not_mem_nil
  completedWon _ h := by
    obtain ⟨batch, hbatch, -⟩ := h
    contradiction
  announcedOnce _ := ⟨Nat.zero_le 1, fun h => absurd rfl h⟩
  closing _ _ h := by contradiction
  releasedOf _ _ h := absurd h List.not_mem_nil

/-! ## the end of a transaction -/

theorem newest_commit {K V : Type} (tbl : Table K V) (t : Txn) (k : K) : (tbl.commit t).newest k = tbl.newest k := by
  cases hin : (tbl.commit t).inflight k with
  | some p =>
      obtain ⟨u, v⟩ := p
      have hold := (inflight_commit_eq_some.mp hin).1
      rw [newest, newest, hin, hold]
  | none =>
      rw [newest, hin]
      show tbl.visible t k = _
      refine (newest_eq_visible (free_iff.mpr fun u v hold => ?_)).symm
      by_contra hu
      rw [inflight_commit_eq_some.mpr ⟨hold, hu⟩] at hin
      contradiction

theorem BulkDb.batchCompleted_commit (batchId : String) :
    (Database.commit t d : BulkDb).BatchCompleted batchId ↔ d.BatchCompleted batchId := by
  show (∃ batch, (d.batches.commit t).newest batchId = some batch ∧ _) ↔ _
  rw [newest_commit]
  rfl

/-- A commit moves a file by a step, or brings a new one. -/
theorem BulkInv.committed_before (h : BulkInv d) (hrow' : (Database.commit t d : BulkDb).files.committed fileId = some row') :
    (∃ row, d.files.committed fileId = some row ∧ fileStep row row') ∨
      (d.files.committed fileId = none ∧ d.files.inflight fileId = some (t, row')) := by
  have hvisible : d.files.visible t fileId = some row' := hrow'
  cases hrow : d.files.committed fileId with
  | some row =>
      obtain ⟨row'', hrow'', hstep⟩ := h.filesEvolve.moves_commit t fileId row hrow
      have hsame : row'' = row' := Option.some.inj (hrow''.symm.trans hrow')
      exact .inl ⟨row, rfl, hsame ▸ hstep⟩
  | none =>
      refine .inr ⟨rfl, ?_⟩
      rcases visible_cases d.files t fileId with ⟨v, hin, hv⟩ | ⟨-, hv⟩
      · rw [hvisible] at hv
        cases hv
        exact hin
      · rw [hrow, hvisible] at hv
        contradiction

/-- **A commit keeps the invariant**, if a new batch comes with a file. -/
theorem BulkInv.commit (h : BulkInv d) (hnew : ∀ batchId batch, d.batches.inflight batchId = some (t, batch) →
      d.batches.committed batchId = none → ∃ fileId row, d.files.inflight fileId = some (t, row) ∧
        row.batchId = batchId ∧ d.files.committed fileId = none) :
    BulkInv (Database.commit t d) := by
  have hfiles : Moves fileStep d.files (d.files.commit t) := h.filesEvolve.moves_commit t
  have hbatches : Moves batchStep d.batches (d.batches.commit t) := h.batchesEvolve.moves_commit t
  have hchecked : ∀ {fileId row'}, d.Checked fileId → (d.files.commit t).committed fileId = some row' →
      d.files.committed fileId = some row' := by
    intro fileId row' hchecked hrow'
    obtain ⟨row, hrow, hterminal⟩ := h.checkedTerminal fileId hchecked
    obtain ⟨row'', hrow'', -, -, hstays⟩ := hfiles fileId row hrow
    have hsame : row' = row'' := Option.some.inj (hrow'.symm.trans hrow'')
    rw [hsame, hstays hterminal]
    exact hrow
  refine ⟨(h.filesEvolve.commit t).1, (h.batchesEvolve.commit t).1, fun fileId row' hrow' => ?_,
    fun fileId u row hin hnone => ?_, fun job hjob => ?_, fun fileId hch => ?_, h.releasedChecked, h.releasedOnce,
    fun fileId row' hwon hrow' => ?_, fun fileId fileId' row row' hwon hwon' hrow hrow' hsame => ?_,
    fun batchId hcompleted => ?_, h.announcedOnce, fun batchId batch' hbatch' hdone => ?_, fun fileId tenantId hreleased => ?_⟩
  · rcases h.committed_before hrow' with ⟨row, hrow, hstep⟩ | ⟨hnone, hin⟩
    · obtain ⟨batch, hbatch, htenant⟩ := h.parent fileId row hrow
      obtain ⟨batch', hbatch', hstep'⟩ := hbatches row.batchId batch hbatch
      exact ⟨batch', hstep.1 ▸ hbatch', by rw [hstep'.1.1, hstep.2.1, htenant]⟩
    · obtain ⟨-, batch, hbatch, htenant⟩ := h.coming fileId t row' hin hnone
      exact ⟨batch, visible_of_inflight hbatch, htenant⟩
  · obtain ⟨hin, hu⟩ := inflight_commit_eq_some.mp hin
    have hnone' : d.files.committed fileId = none :=
      (committed_commit_of_held hu hin).symm.trans hnone
    obtain ⟨hbatch, batch, hbatchIn, htenant⟩ := h.coming fileId u row hin hnone'
    refine ⟨?_, batch, inflight_commit_eq_some.mpr ⟨hbatchIn, hu⟩, htenant⟩
    exact (committed_commit_of_held hu hbatchIn).trans hbatch
  · obtain ⟨row, hrow, hbatch, htenant⟩ := h.jobs job hjob
    obtain ⟨row', hrow', hstep⟩ := hfiles job.fileId row hrow
    exact ⟨row', hrow', hstep.1.trans hbatch, hstep.2.1.trans htenant⟩
  · obtain ⟨row, hrow, hterminal⟩ := h.checkedTerminal fileId hch
    obtain ⟨row', hrow', hstep⟩ := hfiles fileId row hrow
    exact ⟨row', hrow', by rw [hstep.2.2 hterminal]; exact hterminal⟩
  · obtain ⟨hdone, hcompleted⟩ := h.won fileId row' hwon (hchecked ⟨true, hwon⟩ hrow')
    refine ⟨fun other row'' hrow'' hbatch => ?_, (BulkDb.batchCompleted_commit row'.batchId).mpr hcompleted⟩
    rcases h.committed_before hrow'' with ⟨row, hrow, hstep⟩ | ⟨hnone, hin⟩
    · have hterminal : row.status.terminal = true := hdone other row hrow (hstep.1.symm.trans hbatch)
      rw [hstep.2.2 hterminal]
      exact hterminal
    · obtain ⟨hnoBatch, -⟩ := h.coming other t row'' hin hnone
      obtain ⟨batch, hbatch', -⟩ := h.parent fileId row' (hchecked ⟨true, hwon⟩ hrow')
      rw [hbatch, hbatch'] at hnoBatch
      contradiction
  · exact h.wonOnce fileId fileId' row row' hwon hwon' (hchecked ⟨true, hwon⟩ hrow) (hchecked ⟨true, hwon'⟩ hrow') hsame
  · obtain ⟨fileId, row, hrow, hbatch, hwon⟩ := h.completedWon batchId ((BulkDb.batchCompleted_commit batchId).mp hcompleted)
    obtain ⟨row', hrow', hstep⟩ := hfiles fileId row hrow
    exact ⟨fileId, row', hrow', hstep.1.trans hbatch, hwon⟩
  · -- whoever's row makes the batch done has not checked it yet
    cases hbatch : d.batches.committed batchId with
    | none =>
        rcases visible_cases d.batches t batchId with ⟨v, hin, -⟩ | ⟨-, hv⟩
        · obtain ⟨fileId, row, hinFile, hof, hnone⟩ := hnew batchId v hin hbatch
          refine .inr ⟨fileId, row, visible_of_inflight hinFile, hof, fun hch => ?_⟩
          obtain ⟨row', hrow', -⟩ := h.checkedTerminal fileId hch
          rw [hnone] at hrow'
          contradiction
        · rw [hbatch] at hv
          have hv' : d.batches.visible t batchId = some batch' := hbatch'
          rw [hv] at hv'
          contradiction
    | some batch =>
        by_cases hbefore : d.BatchDone batchId
        · rcases h.closing batchId batch hbatch hbefore with hcompleted | ⟨fileId, row, hrow, hof, hunchecked⟩
          · exact .inl ((BulkDb.batchCompleted_commit batchId).mpr hcompleted)
          · obtain ⟨row', hrow', hstep⟩ := hfiles fileId row hrow
            exact .inr ⟨fileId, row', hrow', hstep.1.trans hof, hunchecked⟩
        · unfold BulkDb.BatchDone at hbefore
          push Not at hbefore
          obtain ⟨fileId, row, hrow, hof, hopen⟩ := hbefore
          obtain ⟨row', hrow', hstep⟩ := hfiles fileId row hrow
          exact .inr ⟨fileId, row', hrow', hstep.1.trans hof, (h.unsettled hrow (Bool.eq_false_iff.mpr hopen)).unchecked⟩
  · obtain ⟨row, hrow, htenant⟩ := h.releasedOf fileId tenantId hreleased
    obtain ⟨row', hrow', hstep⟩ := hfiles fileId row hrow
    exact ⟨row', hrow', hstep.2.1.trans htenant⟩

/-- **So does a rollback**, of one who has completed no batch. -/
theorem BulkInv.rollback (h : BulkInv d) (hbatches : ∀ batchId batch, d.batches.inflight batchId = some (t, batch) →
    batch.status ≠ .completed) : BulkInv (Database.rollback t d) := by
  have hcompleted : ∀ batchId, (Database.rollback t d : BulkDb).BatchCompleted batchId ↔ d.BatchCompleted batchId := by
    intro batchId
    unfold BulkDb.BatchCompleted
    show (∃ batch, (d.batches.rollback t).newest batchId = some batch ∧ _) ↔ _
    cases hin : d.batches.inflight batchId with
    | none =>
        have hrolled : (d.batches.rollback t).inflight batchId = none := by
          rw [Option.eq_none_iff_forall_ne_some]
          rintro ⟨u, v⟩ hv
          rw [(inflight_rollback_eq_some.mp hv).1] at hin
          contradiction
        rw [newest, newest, hin, hrolled]
        rfl
    | some p =>
        obtain ⟨u, v⟩ := p
        by_cases hu : u = t
        · subst hu
          have hrolled : (d.batches.rollback u).inflight batchId = none := by
            rw [Option.eq_none_iff_forall_ne_some]
            rintro ⟨u', v'⟩ hv'
            obtain ⟨hold, hne⟩ := inflight_rollback_eq_some.mp hv'
            rw [hin] at hold
            cases hold
            exact hne rfl
          rw [newest, newest, hin, hrolled]
          constructor
          · rintro ⟨batch, hbatch, hdone⟩
            exact ⟨v, rfl, (h.batchesEvolve batchId u v batch hin hbatch).2 hdone⟩
          · rintro ⟨batch, hbatch, hdone⟩
            cases hbatch
            exact absurd hdone (hbatches batchId v hin)
        · have hrolled : (d.batches.rollback t).inflight batchId = some (u, v) :=
            inflight_rollback_eq_some.mpr ⟨hin, hu⟩
          rw [newest, newest, hin, hrolled]
  refine ⟨(h.filesEvolve.rollback t).1, (h.batchesEvolve.rollback t).1, h.parent, fun fileId u row hin hnone => ?_, h.jobs,
    h.checkedTerminal, h.releasedChecked, h.releasedOnce, fun fileId row hwon hrow => ?_, h.wonOnce,
    fun batchId hdone => h.completedWon batchId ((hcompleted batchId).mp hdone), h.announcedOnce,
    fun batchId batch hbatch hdone => ?_, h.releasedOf⟩
  · obtain ⟨hin, hu⟩ := inflight_rollback_eq_some.mp hin
    obtain ⟨hbatch, batch, hbatchIn, htenant⟩ := h.coming fileId u row hin hnone
    exact ⟨hbatch, batch, inflight_rollback_eq_some.mpr ⟨hbatchIn, hu⟩, htenant⟩
  · obtain ⟨hdone, hdone'⟩ := h.won fileId row hwon hrow
    exact ⟨hdone, (hcompleted row.batchId).mpr hdone'⟩
  · exact (h.closing batchId batch hbatch hdone).imp_left (hcompleted batchId).mpr

/-! ## the statements -/

/-- Two databases with the same tables, the same jobs, and the same done for every file. -/
structure SameTables (d d' : BulkDb) : Prop where
  batches : d'.batches = d.batches
  files : d'.files = d.files
  stream : d'.stream = d.stream
  events : d'.events = d.events
  released : d'.released = d.released
  checked : d'.checked = d.checked

theorem BulkInv.same (h : BulkInv d) (hsame : SameTables d d') : BulkInv d' := by
  cases d
  cases d'
  obtain ⟨rfl, rfl, rfl, rfl, rfl, rfl⟩ := hsame
  exact ⟨h.1, h.2, h.3, h.4, h.5, h.6, h.7, h.8, h.9, h.10, h.11, h.12, h.13, h.14⟩

theorem BulkInv.writeFile (h : BulkInv d) (hfree : d.files.free t fileId = true)
    (hstep : ∀ old, d.files.committed fileId = some old → fileStep old row)
    (hcoming : d.files.committed fileId = none → d.batches.committed row.batchId = none ∧
      ∃ batch, d.batches.inflight row.batchId = some (t, batch) ∧ batch.tenantId = row.tenantId) :
    BulkInv { d with files := d.files.write t fileId row } := by
  refine ⟨(h.filesEvolve.write hfree hstep).1, h.batchesEvolve, h.parent, fun other u v hin hnone => ?_, h.jobs,
    h.checkedTerminal, h.releasedChecked, h.releasedOnce, h.won, h.wonOnce, h.completedWon, h.announcedOnce, h.closing,
    h.releasedOf⟩
  rcases inflight_write_cases hin with ⟨rfl, rfl, rfl⟩ | ⟨-, hin⟩
  · exact hcoming hnone
  · exact h.coming other u v hin hnone

variable {batchId : String} {batch : BatchRow} {job : JobMessage}

theorem BulkInv.insertBatch (h : BulkInv d) (hin : d.batches.inflight batchId = none)
    (hnone : d.batches.committed batchId = none) (hopen : batch.status ≠ .completed) :
    BulkInv { d with batches := d.batches.write t batchId batch } := by
  have hfree : d.batches.free t batchId = true := by
    rw [free, hin]
  have hcompleted : ∀ other, ({ d with batches := d.batches.write t batchId batch } : BulkDb).BatchCompleted other ↔
      d.BatchCompleted other := by
    intro other
    unfold BulkDb.BatchCompleted
    show (∃ b, (d.batches.write t batchId batch).newest other = some b ∧ _) ↔ _
    by_cases hother : other = batchId
    · rw [hother, newest_write_self, newest, hin]
      constructor
      · rintro ⟨b, hb, hdone⟩
        cases hb
        exact absurd hdone hopen
      · rintro ⟨b, hb, -⟩
        exact absurd (hnone.symm.trans hb) (Option.some_ne_none b).symm
    · rw [newest_write_of_ne hother]
  have hevolve := (h.batchesEvolve.write (v := batch) hfree fun w hw =>
    absurd (hnone.symm.trans hw) (Option.some_ne_none w).symm).1
  refine ⟨h.filesEvolve, hevolve, h.parent, fun other u v hinOther hnoneOther => ?_, h.jobs, h.checkedTerminal,
    h.releasedChecked, h.releasedOnce, fun f r hwon hr => ?_, h.wonOnce,
    fun other hdone => h.completedWon other ((hcompleted other).mp hdone), h.announcedOnce,
    fun other b hb hdone => (h.closing other b hb hdone).imp_left (hcompleted other).mpr, h.releasedOf⟩
  · obtain ⟨hnoBatch, b, hb, htenant⟩ := h.coming other u v hinOther hnoneOther
    have hne : v.batchId ≠ batchId := by
      intro hsame
      rw [hsame, hin] at hb
      contradiction
    exact ⟨hnoBatch, b, (inflight_write_of_ne hne).trans hb, htenant⟩
  · obtain ⟨hdone, hdone'⟩ := h.won f r hwon hr
    exact ⟨hdone, (hcompleted r.batchId).mpr hdone'⟩

theorem BulkInv.xadd (h : BulkInv d) (hrow : ∃ row, d.files.committed job.fileId = some row ∧
    row.batchId = job.batchId ∧ row.tenantId = job.tenantId) : BulkInv (Sentinel.xadd job t d).2 := by
  refine ⟨h.1, h.2, h.3, h.4, fun other hmem => ?_, h.6, h.7, h.8, h.9, h.10, h.11, h.12, h.13, h.14⟩
  rcases List.mem_append.mp hmem with hmem | hmem
  · exact h.jobs other hmem
  · rw [List.mem_singleton.mp hmem]
    exact hrow

theorem completions_append_other {event : BatchEvent} (hother : event.eventType ≠ "batch_completed") (fileId : String) :
    ({ d with events := d.events ++ [event] } : BulkDb).completions fileId = d.completions fileId := by
  show (d.events ++ [event]).filter _ = d.events.filter _
  rw [List.filter_append, List.filter_cons_of_neg, List.filter_nil, List.append_nil]
  simp [hother]

theorem completions_append (job : JobMessage) (fileId : String) :
    ({ d with events := d.events ++ [job.completed] } : BulkDb).completions fileId =
      if job.fileId = fileId then d.completions fileId ++ [job.completed] else d.completions fileId := by
  show (d.events ++ [job.completed]).filter _ = _
  have htype : job.completed.eventType = "batch_completed" := rfl
  have hrequest : job.completed.requestId = job.fileId := rfl
  rw [List.filter_append, List.filter_cons, List.filter_nil, htype, hrequest]
  by_cases hfile : job.fileId = fileId
  · simp [hfile, BulkDb.completions]
  · simp [hfile, BulkDb.completions]

theorem BulkInv.emitOther (h : BulkInv d) {event : BatchEvent} (hother : event.eventType ≠ "batch_completed") :
    BulkInv { d with events := d.events ++ [event] } := by
  refine ⟨h.1, h.2, h.3, h.4, h.5, h.6, h.7, h.8, h.9, h.10, h.11, fun fileId => ?_, h.13, h.14⟩
  rw [completions_append_other hother]
  exact h.announcedOnce fileId

theorem BulkInv.emitCompleted (h : BulkInv d) (hwon : (job.fileId, true) ∈ d.checked)
    (hsilent : d.completions job.fileId = []) : BulkInv { d with events := d.events ++ [job.completed] } := by
  refine ⟨h.1, h.2, h.3, h.4, h.5, h.6, h.7, h.8, h.9, h.10, h.11, fun fileId => ?_, h.13, h.14⟩
  rw [completions_append]
  split
  · next hfile =>
      subst hfile
      rw [hsilent]
      exact ⟨Nat.le_refl 1, fun _ => hwon⟩
  · exact h.announcedOnce fileId

theorem BulkInv.releaseFile (h : BulkInv d) (hchecked : d.Checked job.fileId) (hunreleased : ¬d.Released job.fileId)
    (hrow : d.files.committed job.fileId = some row) (htenant : row.tenantId = job.tenantId) :
    BulkInv (Sentinel.releaseFile job t d).2 := by
  refine ⟨h.1, h.2, h.3, h.4, h.5, h.6, fun fileId hreleased => ?_, ?_, h.9, h.10, h.11, h.12, h.13,
    fun fileId tenantId hreleased => ?_⟩
  · obtain ⟨tenantId, hmem⟩ := hreleased
    rcases List.mem_append.mp hmem with hmem | hmem
    · exact h.releasedChecked fileId ⟨tenantId, hmem⟩
    · cases List.mem_singleton.mp hmem
      exact hchecked
  · show ((d.released ++ [(job.fileId, job.tenantId)]).map Prod.fst).Nodup
    rw [List.map_append, List.nodup_append]
    refine ⟨h.releasedOnce, List.nodup_singleton _, fun f hf g hg hfg => hunreleased ?_⟩
    obtain ⟨⟨f', tenantId⟩, hmem, rfl⟩ := List.mem_map.mp hf
    have hg : g = job.fileId := List.mem_singleton.mp hg
    have hf' : f' = job.fileId := hfg.trans hg
    exact ⟨tenantId, hf' ▸ hmem⟩
  · rcases List.mem_append.mp hreleased with hmem | hmem
    · exact h.releasedOf fileId tenantId hmem
    · cases List.mem_singleton.mp hmem
      exact ⟨row, hrow, htenant⟩

theorem noneUnfinished_iff (h : BulkInv d) (hfiles : d.files.Unheld t)
    (hbatch : d.batches.committed batchId = some batch) :
    noneUnfinished batch.tenantId batchId t d = true ↔ d.BatchDone batchId := by
  unfold noneUnfinished
  rw [List.all_eq_true]
  constructor
  · intro hall f r hr hof
    have hmem : (f, r) ∈ d.files.scan t := mem_scan.mpr ((hfiles.visible f).trans hr)
    obtain ⟨batch', hbatch', htenant⟩ := h.parent f r hr
    have hsame : batch' = batch := Option.some.inj (hbatch'.symm.trans (hof ▸ hbatch))
    have hterminal := hall (f, r) hmem
    simpa [hof, ← htenant, hsame] using hterminal
  · rintro hdone ⟨f, r⟩ hmem
    have hr : d.files.committed f = some r := (hfiles.visible f).symm.trans (mem_scan.mp hmem)
    by_cases hof : r.batchId = batchId
    · simp [hdone f r hr hof]
    · simp [hof]

/-- What `try_complete_batch` does. -/
structure TriedToComplete (t : Txn) (job : JobMessage) (won : Bool) (d d' : BulkDb) : Prop where
  inv : BulkInv d'
  files : d'.files = d.files
  stream : d'.stream = d.stream
  events : d'.events = d.events
  released : d'.released = d.released
  checked : d'.checked = d.checked ++ [(job.fileId, won)]
  batches : ∀ u, u ≠ t → d.batches.Follows batchStep u d'.batches
  held : ∀ batchId batch, d'.batches.inflight batchId = some (t, batch) → d'.batches.committed batchId ≠ none

theorem BulkInv.tryCompleteBatch (h : BulkInv d) {won : Bool} (hrow : d.files.committed job.fileId = some row)
    (hbatch : row.batchId = job.batchId) (htenant : row.tenantId = job.tenantId)
    (hterminal : row.status.terminal = true) (hfiles : d.files.Unheld t) (hbatches : d.batches.Unheld t)
    (htry : Sentinel.tryCompleteBatch job t d = some (won, d')) : TriedToComplete t job won d d' := by
  obtain ⟨batch, hcommitted, hof⟩ := h.parent job.fileId row hrow
  rw [hbatch] at hcommitted
  have hjobTenant : batch.tenantId = job.tenantId := hof.trans htenant
  have hvisible : d.batches.visible t job.batchId = some batch := (hbatches.visible job.batchId).trans hcommitted
  have hdone : noneUnfinished job.tenantId job.batchId t d = true ↔ d.BatchDone job.batchId :=
    hjobTenant ▸ noneUnfinished_iff h hfiles hcommitted
  obtain ⟨⟨r, batches⟩, hupdate, he⟩ := Option.map_eq_some_iff.mp htry
  obtain ⟨rfl, rfl⟩ := Prod.mk.inj he
  have hstep : ∀ v : BatchRow, batchStep v { v with status := .completed } := fun v => ⟨⟨rfl, rfl⟩, fun _ => rfl⟩
  have hfollows := h.batchesEvolve.updateWhere (fun v _ => hstep v) hupdate
  -- the file is among the checked ones now
  have hin : ∀ f won', (f, won') ∈ d.checked ++ [(job.fileId, r.isSome)] →
      (f, won') ∈ d.checked ∨ (f = job.fileId ∧ won' = r.isSome) := by
    intro f won' hmem
    rcases List.mem_append.mp hmem with hmem | hmem
    · exact .inl hmem
    · obtain ⟨rfl, rfl⟩ := Prod.mk.inj (List.mem_singleton.mp hmem)
      exact .inr ⟨rfl, rfl⟩
  have hchecked : ∀ f, (∃ won', (f, won') ∈ d.checked ++ [(job.fileId, r.isSome)]) →
      ∃ row, d.files.committed f = some row ∧ row.status.terminal = true := by
    rintro f ⟨won', hmem⟩
    rcases hin f won' hmem with hold | ⟨rfl, -⟩
    · exact h.checkedTerminal f ⟨won', hold⟩
    · exact ⟨row, hrow, hterminal⟩
  rcases updateWhere_cases hupdate with ⟨rfl, rfl, hno⟩ | ⟨v, hv, hp, hfree, rfl, rfl⟩
  · have hwon : ∀ f, (f, true) ∈ d.checked ++ [(job.fileId, false)] → (f, true) ∈ d.checked := fun f hmem =>
      (hin f true hmem).resolve_right fun hbad => absurd hbad.2.symm Bool.false_ne_true
    have hnotOpen : d.BatchDone job.batchId → batch.status = .completed := by
      intro hall
      have hfalse := hno batch hvisible
      rw [hjobTenant, hdone.mpr hall] at hfalse
      simpa using hfalse
    refine ⟨⟨h.1, h.2, h.3, h.4, h.5, hchecked, fun f hreleased => ?_, h.8, fun f r' hf => h.9 f r' (hwon f hf),
      fun f f' r' r'' hf hf' => h.10 f f' r' r'' (hwon f hf) (hwon f' hf'), fun b hb => ?_, fun f => ⟨(h.12 f).1, fun hne => ?_⟩,
      fun b batch' hb hall => ?_, h.14⟩, rfl, rfl, rfl, rfl, rfl, hfollows.2, fun b batch' hb => absurd hb (hbatches b batch')⟩
    · exact (h.releasedChecked f hreleased).imp fun _ hmem => List.mem_append_left _ hmem
    · obtain ⟨f, r', hr', hof', hf⟩ := h.completedWon b hb
      exact ⟨f, r', hr', hof', List.mem_append_left _ hf⟩
    · exact List.mem_append_left _ ((h.12 f).2 hne)
    · by_cases hsame : b = job.batchId
      · subst hsame
        have hbatch' : batch' = batch := Option.some.inj (hb.symm.trans hcommitted)
        refine .inl ?_
        have hcompleted := hnotOpen hall
        cases hinflight : d.batches.inflight job.batchId with
        | none => exact ⟨batch, by rw [newest, hinflight]; exact hcommitted, hcompleted⟩
        | some p =>
            obtain ⟨u, v⟩ := p
            exact ⟨v, by rw [newest, hinflight],
              (h.batchesEvolve job.batchId u v batch hinflight hcommitted).2 hcompleted⟩
      · rcases h.closing b batch' hb hall with hcompleted | ⟨f, r', hr', hof', hnot⟩
        · exact .inl hcompleted
        · refine .inr ⟨f, r', hr', hof', fun hch => ?_⟩
          obtain ⟨won', hmem⟩ := hch
          rcases hin f won' hmem with hold | ⟨rfl, -⟩
          · exact hnot ⟨won', hold⟩
          · exact hsame (hof'.symm.trans ((congrArg BatchFileRow.batchId (Option.some.inj (hr'.symm.trans hrow))).trans hbatch))
  · -- the batch was not completed before, and all its files are terminal
    have hvb : v = batch := Option.some.inj (hv.symm.trans hvisible)
    subst hvb
    simp only [hjobTenant, decide_true, Bool.true_and, Bool.and_eq_true, decide_eq_true_eq] at hp
    obtain ⟨hopen, hall⟩ := hp
    have hall := hdone.mp hall
    have hnotBefore : ¬d.BatchCompleted job.batchId := by
      rintro ⟨b, hb, hcompleted⟩
      rw [newest_eq_visible hfree, hvisible] at hb
      cases hb
      exact hopen hcompleted
    have hfirst : ∀ f r', (f, true) ∈ d.checked → d.files.committed f = some r' → r'.batchId ≠ job.batchId := by
      intro f r' hf hr' hsame
      exact hnotBefore (hsame ▸ (h.won f r' hf hr').2)
    have hcompleted : ∀ b, b ≠ job.batchId →
        (({ d with batches := d.batches.write t job.batchId { v with status := .completed } } : BulkDb).BatchCompleted b ↔
          d.BatchCompleted b) := by
      intro b hb
      unfold BulkDb.BatchCompleted
      show (∃ batch, (d.batches.write t job.batchId _).newest b = some batch ∧ _) ↔ _
      rw [newest_write_of_ne hb]
    have hnow : ({ d with
        batches := d.batches.write t job.batchId { v with status := .completed } } : BulkDb).BatchCompleted job.batchId :=
      ⟨{ v with status := .completed }, newest_write_self .., rfl⟩
    refine ⟨⟨h.1, hfollows.1, h.3, fun f u r' hinF hnone => ?_, h.5, hchecked, fun f hreleased => ?_, h.8,
      fun f r' hf hr' => ?_, fun f f' r' r'' hf hf' hr' hr'' hsame => ?_, fun b hb => ?_,
      fun f => ⟨(h.12 f).1, fun hne => ?_⟩, fun b batch' hb hdone' => ?_, h.14⟩, rfl, rfl, rfl, rfl, rfl, hfollows.2, fun b batch' hb => ?_⟩
    · obtain ⟨hnoBatch, b, hb, htenant'⟩ := h.coming f u r' hinF hnone
      have hne : r'.batchId ≠ job.batchId := by
        intro hsame
        rw [hsame, hcommitted] at hnoBatch
        contradiction
      exact ⟨hnoBatch, b, (inflight_write_of_ne hne).trans hb, htenant'⟩
    · exact (h.releasedChecked f hreleased).imp fun _ hmem => List.mem_append_left _ hmem
    · rcases hin f true hf with hold | ⟨rfl, -⟩
      · obtain ⟨hdone', hcompleted'⟩ := h.won f r' hold hr'
        exact ⟨hdone', (hcompleted r'.batchId (hfirst f r' hold hr')).mpr hcompleted'⟩
      · have hbid : r'.batchId = job.batchId :=
          (congrArg BatchFileRow.batchId (Option.some.inj (hr'.symm.trans hrow))).trans hbatch
        rw [hbid]
        exact ⟨hall, hnow⟩
    · have hbid : ∀ r', d.files.committed job.fileId = some r' → r'.batchId = job.batchId := fun r' hr' =>
        (congrArg BatchFileRow.batchId (Option.some.inj (hr'.symm.trans hrow))).trans hbatch
      rcases hin f true hf with hold | ⟨rfl, -⟩
      · rcases hin f' true hf' with hold' | ⟨rfl, -⟩
        · exact h.wonOnce f f' r' r'' hold hold' hr' hr'' hsame
        · exact absurd (hsame.trans (hbid r'' hr'')) (hfirst f r' hold hr')
      · rcases hin f' true hf' with hold' | ⟨rfl, -⟩
        · exact absurd (hsame.symm.trans (hbid r' hr')) (hfirst f' r'' hold' hr'')
        · rfl
    · by_cases hb' : b = job.batchId
      · exact ⟨job.fileId, row, hrow, hbatch.trans hb'.symm, List.mem_append_right _ List.mem_cons_self⟩
      · obtain ⟨f, r', hr', hof', hf⟩ := h.completedWon b ((hcompleted b hb').mp hb)
        exact ⟨f, r', hr', hof', List.mem_append_left _ hf⟩
    · exact List.mem_append_left _ ((h.12 f).2 hne)
    · by_cases hb' : b = job.batchId
      · exact .inl (hb' ▸ hnow)
      · rcases h.closing b batch' hb hdone' with hc | ⟨f, r', hr', hof', hnot⟩
        · exact .inl ((hcompleted b hb').mpr hc)
        · refine .inr ⟨f, r', hr', hof', fun hch => ?_⟩
          obtain ⟨won', hmem⟩ := hch
          rcases hin f won' hmem with hold | ⟨rfl, -⟩
          · exact hnot ⟨won', hold⟩
          · exact hb' (hof'.symm.trans ((congrArg BatchFileRow.batchId (Option.some.inj (hr'.symm.trans hrow))).trans hbatch))
    · by_cases hb' : b = job.batchId
      · rw [hb']
        show d.batches.committed job.batchId ≠ none
        rw [hcommitted]
        exact Option.some_ne_none v
      · exact absurd ((inflight_write_of_ne hb').symm.trans hb) (hbatches b batch')

end Anoryx.Sentinel
