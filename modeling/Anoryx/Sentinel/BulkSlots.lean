import Anoryx.Sentinel.BulkRuns

/-!
# Anoryx.Sentinel.BulkSlots

The slots that submissions reserve for their files, and the jobs that they enqueue.

A reserved slot belongs to an attempt until its batch is committed, and to a file of the
batch from then on, until the file is released (`SlotInv`).  Reservation, COMMIT and XADD are
three systems: an attempt that fails between two of them leaves behind what nobody takes up,
and a retry is answered with the batch that is there.  Where no attempt fails there, nothing
is lost.
-/

namespace Anoryx.Sentinel

open ReadCommitted Exclusive Table

variable {d d' d'' : BulkDb} {t u : Txn} {fileId tenantId : String} {row : BatchFileRow} {call : SubmitCall} {n : Nat}

/-! ## counting -/

section Counting

variable {α : Type} [DecidableEq α]

theorem countP_filter_ne [BEq α] [LawfulBEq α] (p : α → Bool) (x : α) (l : List α) :
    (l.filter (· ≠ x)).countP p + (if p x then l.count x else 0) = l.countP p := by
  induction l with
  | nil => simp
  | cons a l ih =>
      rw [List.filter_cons, List.countP_cons, List.count_cons]
      by_cases ha : a = x
      · subst ha
        cases hp : p a with
        | false => simpa [hp] using ih
        | true =>
            simp only [hp, if_true] at ih ⊢
            simp at ih ⊢
            omega
      · simp only [ha, ne_eq, not_false_eq_true, decide_true, if_true, List.countP_cons, beq_eq_false_iff_ne.mpr ha] at ih ⊢
        simp at ih ⊢
        omega

theorem nodup_eraseDups (l : List α) : l.eraseDups.Nodup := by
  induction hn : l.length using Nat.strong_induction_on generalizing l with
  | _ n ih =>
      cases l with
      | nil => simp
      | cons a l =>
          rw [List.eraseDups_cons, List.nodup_cons]
          refine ⟨fun hmem => ?_, ih _ ?_ _ rfl⟩
          · have hmem := List.mem_eraseDups.mp hmem
            simp at hmem
          · have hle := List.length_filter_le (fun b => !b == a) l
            rw [← hn, List.length_cons]
            omega

end Counting

/-! ## the invariant -/

def BulkDb.slotsOf (d : BulkDb) (tenantId : String) : Nat := d.slots.countP fun slot => slot.2 = tenantId

/-- A file that is there has its slot until it is released, and is enqueued, or will be. -/
structure SlotInv (d : BulkDb) : Prop where
  counter : ∀ tenantId, d.filesCounter tenantId = d.slotsOf tenantId
  files : ∀ fileId tenantId, (SlotOwner.file fileId, tenantId) ∈ d.slots ↔
    (∃ row, d.files.committed fileId = some row ∧ row.tenantId = tenantId) ∧ ¬d.Released fileId
  once : ∀ fileId tenantId, d.slots.count (SlotOwner.file fileId, tenantId) ≤ 1
  enqueued : ∀ fileId row, d.files.committed fileId = some row →
    (∃ job ∈ d.stream, job.fileId = fileId) ∨ ∃ t, (t, fileId) ∈ d.owed

theorem slotInv_empty : SlotInv BulkDb.empty where
  counter _ := rfl
  files _ _ := by
    refine ⟨fun h => absurd h List.not_mem_nil, fun h => ?_⟩
    obtain ⟨⟨row, hrow, -⟩, -⟩ := h
    contradiction
  once _ _ := Nat.zero_le 1
  enqueued _ _ h := by contradiction

/-- The same tables, jobs and slots. -/
structure SameSlots (d d' : BulkDb) : Prop where
  batches : d'.batches = d.batches
  files : d'.files = d.files
  stream : d'.stream = d.stream
  filesCounter : d'.filesCounter = d.filesCounter
  released : d'.released = d.released
  slots : d'.slots = d.slots
  owed : d'.owed = d.owed

theorem SameSlots.refl (d : BulkDb) : SameSlots d d := ⟨rfl, rfl, rfl, rfl, rfl, rfl, rfl⟩

theorem SlotInv.same (h : SlotInv d) (hsame : SameSlots d d') : SlotInv d' := by
  cases d
  cases d'
  obtain ⟨-, rfl, rfl, rfl, rfl, rfl, rfl⟩ := hsame
  exact ⟨h.counter, h.files, h.once, h.enqueued⟩

/-- No file in flight is new. -/
def NoNew (t : Txn) (d : BulkDb) : Prop :=
  ∀ fileId row, d.files.inflight fileId = some (t, row) → d.files.committed fileId ≠ none

theorem noNew_of_unheld (h : d.files.Unheld t) : NoNew t d := fun fileId row hin => absurd hin (h fileId row)

theorem SlotInv.withFiles {files : Table String BatchFileRow} (h : SlotInv d)
    (hcommitted : files.committed = d.files.committed) : SlotInv { d with files := files } := by
  refine ⟨h.counter, fun fileId tenantId => ?_, h.once, fun fileId row hrow => ?_⟩
  · rw [hcommitted]
    exact h.files fileId tenantId
  · exact h.enqueued fileId row (hcommitted ▸ hrow)

theorem SlotInv.commit (h : SlotInv d) (hinv : BulkInv d) (hold : NoNew t d) : SlotInv (Database.commit t d) := by
  refine ⟨h.counter, fun fileId tenantId => ?_, h.once, fun fileId row hrow => ?_⟩
  · refine (h.files fileId tenantId).trans (and_congr_left fun _ => ⟨fun hold => ?_, fun hnew => ?_⟩)
    · obtain ⟨row, hrow, htenant⟩ := hold
      obtain ⟨row', hrow', hstep⟩ := hinv.filesEvolve.moves_commit t fileId row hrow
      exact ⟨row', hrow', hstep.2.1.trans htenant⟩
    · obtain ⟨row', hrow', htenant⟩ := hnew
      rcases hinv.committed_before hrow' with ⟨row, hrow, hstep⟩ | ⟨hnone, hin⟩
      · exact ⟨row, hrow, hstep.2.1.symm.trans htenant⟩
      · exact absurd hnone (hold fileId row' hin)
  · rcases hinv.committed_before hrow with ⟨row', hrow', -⟩ | ⟨hnone, hin⟩
    · exact h.enqueued fileId row' hrow'
    · exact absurd hnone (hold fileId row hin)

/-! ## the counter -/

theorem count_le_slotsOf (owner : SlotOwner) (tenantId : String) (d : BulkDb) :
    d.slots.count (owner, tenantId) ≤ d.slotsOf tenantId := by
  refine List.countP_mono_left fun slot _ heq => ?_
  rw [eq_of_beq heq]
  exact decide_eq_true rfl

theorem SlotInv.decrFloor_eq (h : SlotInv d) (hle : n ≤ d.slotsOf tenantId) :
    decrFloor d.filesCounter tenantId n = incrBy d.filesCounter tenantId (-n) := by
  unfold decrFloor incrBy
  congr 1
  rw [h.counter tenantId]
  omega

theorem incrBy_apply (counter : String → Int) (tenantId other : String) (amount : Int) :
    incrBy counter tenantId amount other = counter other + if tenantId = other then amount else 0 := by
  unfold incrBy
  by_cases hother : tenantId = other
  · subst hother
    rw [Function.update_self, if_pos rfl]
  · rw [Function.update_of_ne (Ne.symm hother), if_neg hother, Int.add_zero]

theorem SlotInv.incrFiles (h : SlotInv d) : SlotInv (Sentinel.incrFiles tenantId n t d).2 := by
  refine ⟨fun other => ?_, fun fileId other => ?_, fun fileId other => ?_, h.enqueued⟩
  · show incrBy d.filesCounter tenantId n other = ((d.slots ++ List.replicate n _).countP _ : Nat)
    rw [incrBy_apply, h.counter other, List.countP_append, List.countP_replicate]
    by_cases hother : tenantId = other
    · simp [hother, BulkDb.slotsOf]
    · simp [hother, BulkDb.slotsOf]
  · show _ ∈ d.slots ++ List.replicate n _ ↔ _
    refine Iff.trans ?_ (h.files fileId other)
    rw [List.mem_append]
    refine ⟨fun hmem => hmem.resolve_right fun hmem => ?_, .inl⟩
    exact SlotOwner.noConfusion (Prod.mk.inj (List.eq_of_mem_replicate hmem)).1
  · show (d.slots ++ List.replicate n _).count _ ≤ 1
    rw [List.count_append, List.count_eq_zero_of_not_mem (l := List.replicate n _) fun hmem => ?_]
    · exact h.once fileId other
    · exact SlotOwner.noConfusion (Prod.mk.inj (List.eq_of_mem_replicate hmem)).1

theorem SlotInv.takeBack (h : SlotInv d) (hcount : d.slots.count (.attempt t, tenantId) = n) :
    SlotInv { d with
      filesCounter := incrBy d.filesCounter tenantId (-n)
      slots := d.slots.filter (· ≠ (.attempt t, tenantId)) } := by
  refine ⟨fun other => ?_, fun fileId other => ?_, fun fileId other => ?_, h.enqueued⟩
  · show incrBy d.filesCounter tenantId (-n) other = ((d.slots.filter (· ≠ (SlotOwner.attempt t, tenantId))).countP _ : Nat)
    have hcountP := countP_filter_ne (fun slot => decide (slot.2 = other)) (SlotOwner.attempt t, tenantId) d.slots
    rw [hcount] at hcountP
    rw [incrBy_apply, h.counter other, BulkDb.slotsOf, ← hcountP]
    by_cases hother : tenantId = other
    · simp [hother]
    · simp [hother]
  · show _ ∈ d.slots.filter _ ↔ _
    refine Iff.trans ?_ (h.files fileId other)
    rw [List.mem_filter]
    simp
  · show (d.slots.filter _).count _ ≤ 1
    rw [List.count_filter (by simp)]
    exact h.once fileId other

variable {job : JobMessage} {counter : String → Int} {callFate : CallFate} {eventType failureClass objectKey : String}
  {settings : BulkSettings} {r : Reservation} {fate : CommitFate} {s s' : BulkSys}

/-- A released file's slot is taken off the counter. -/
theorem SlotInv.releaseFile (h : SlotInv d) (hmem : (SlotOwner.file job.fileId, job.tenantId) ∈ d.slots) :
    SlotInv (Sentinel.releaseFile job t d).2 := by
  have hperm : d.slots.Perm ((SlotOwner.file job.fileId, job.tenantId) :: d.slots.erase (.file job.fileId, job.tenantId)) :=
    List.perm_cons_erase hmem
  have hpos : 1 ≤ d.slotsOf job.tenantId :=
    Nat.le_trans (List.count_pos_iff.mpr hmem) (count_le_slotsOf (.file job.fileId) job.tenantId d)
  have hreleased : ∀ fileId, (Sentinel.releaseFile job t d).2.Released fileId ↔ d.Released fileId ∨ fileId = job.fileId := by
    intro fileId
    show (∃ tenantId, (fileId, tenantId) ∈ d.released ++ [(job.fileId, job.tenantId)]) ↔ _
    constructor
    · rintro ⟨tenantId, hmem⟩
      rcases List.mem_append.mp hmem with hmem | hmem
      · exact .inl ⟨tenantId, hmem⟩
      · exact .inr (Prod.mk.inj (List.mem_singleton.mp hmem)).1
    · rintro (⟨tenantId, hmem⟩ | rfl)
      · exact ⟨tenantId, List.mem_append_left _ hmem⟩
      · exact ⟨job.tenantId, List.mem_append_right _ List.mem_cons_self⟩
  refine ⟨fun other => ?_, fun fileId other => ?_, fun fileId other => ?_, h.enqueued⟩
  · show decrFloor d.filesCounter job.tenantId 1 other = ((d.slots.erase (.file job.fileId, job.tenantId)).countP _ : Nat)
    rw [h.decrFloor_eq hpos, incrBy_apply, h.counter other, BulkDb.slotsOf, hperm.countP_eq, List.countP_cons]
    by_cases hother : job.tenantId = other
    · simp [hother]
    · simp [hother]
  · rw [hreleased fileId]
    show _ ∈ d.slots.erase (.file job.fileId, job.tenantId) ↔ _
    by_cases hfile : fileId = job.fileId
    · subst hfile
      refine ⟨fun hbad => absurd hbad ?_, fun hbad => absurd (.inr rfl) hbad.2⟩
      by_cases hother : other = job.tenantId
      · subst hother
        rw [← List.count_pos_iff, List.count_erase_self]
        have hone := h.once job.fileId job.tenantId
        omega
      · intro hbad
        obtain ⟨⟨row, hrow, htenant⟩, -⟩ := (h.files job.fileId other).mp (List.mem_of_mem_erase hbad)
        obtain ⟨⟨row', hrow', htenant'⟩, -⟩ := (h.files job.fileId job.tenantId).mp hmem
        obtain rfl : row = row' := Option.some.inj (hrow.symm.trans hrow')
        exact hother (htenant.symm.trans htenant')
    · rw [List.mem_erase_of_ne fun heq => hfile (SlotOwner.file.inj (Prod.mk.inj heq).1), h.files fileId other]
      refine and_congr_right fun _ => not_congr ⟨.inl, fun hor => hor.resolve_right hfile⟩
  · exact Nat.le_trans ((List.erase_sublist ..).count_le _) (h.once fileId other)

theorem SlotInv.xadd (h : SlotInv d) : SlotInv (Sentinel.xadd job t d).2 := by
  refine ⟨h.counter, h.files, h.once, fun fileId row hrow => ?_⟩
  show (∃ job' ∈ d.stream ++ [job], job'.fileId = fileId) ∨ ∃ t', (t', fileId) ∈ d.owed.filter (· ≠ (t, job.fileId))
  by_cases hfile : job.fileId = fileId
  · exact .inl ⟨job, List.mem_append_right _ List.mem_cons_self, hfile⟩
  · rcases h.enqueued fileId row hrow with ⟨job', hmem, hof⟩ | ⟨t', hmem⟩
    · exact .inl ⟨job', List.mem_append_left _ hmem, hof⟩
    · refine .inr ⟨t', List.mem_filter.mpr ⟨hmem, decide_eq_true fun heq => hfile ?_⟩⟩
      exact (Prod.mk.inj heq).2.symm

/-! ## what an attempt holds -/

/-- What `u` may rely on. -/
structure SlotRely (u : Txn) (d d' : BulkDb) : Prop where
  batches : d.batches.Follows batchStep u d'.batches
  files : d.files.Follows fileStep u d'.files
  slots : ∀ tenantId, d'.slots.count (SlotOwner.attempt u, tenantId) = d.slots.count (SlotOwner.attempt u, tenantId)
  owed : ∀ fileId, (u, fileId) ∈ d'.owed ↔ (u, fileId) ∈ d.owed

theorem SlotRely.refl (u : Txn) (d : BulkDb) : SlotRely u d d :=
  ⟨Follows.refl u _, Follows.refl u _, fun _ => rfl, fun _ => Iff.rfl⟩

theorem SlotRely.trans (h : SlotRely u d d') (h' : SlotRely u d' d'') : SlotRely u d d'' :=
  ⟨h.batches.trans h'.batches, h.files.trans h'.files, fun tenantId => (h'.slots tenantId).trans (h.slots tenantId),
    fun fileId => (h'.owed fileId).trans (h.owed fileId)⟩

theorem SameSlots.rely (h : SameSlots d d') (u : Txn) : SlotRely u d d' := by
  refine ⟨?_, ?_, fun tenantId => ?_, fun fileId => ?_⟩
  · rw [h.batches]
    exact Follows.refl u _
  · rw [h.files]
    exact Follows.refl u _
  · rw [h.slots]
  · rw [h.owed]

/-- No slot of its own, and nothing to enqueue. -/
structure HoldsNothing (t : Txn) (d : BulkDb) : Prop where
  slots : ∀ tenantId, d.slots.count (SlotOwner.attempt t, tenantId) = 0
  owed : ∀ fileId, (t, fileId) ∉ d.owed

theorem HoldsNothing.rely (h : HoldsNothing t d) (hr : SlotRely t d d') : HoldsNothing t d' :=
  ⟨fun tenantId => (hr.slots tenantId).trans (h.slots tenantId), fun fileId hmem => h.owed fileId ((hr.owed fileId).mp hmem)⟩

/-- `n` slots of its own, and some of `fileIds` to enqueue. -/
structure Attempt (t : Txn) (call : SubmitCall) (n : Nat) (fileIds : List String) (d : BulkDb) : Prop where
  held : ∀ tenantId, d.slots.count (SlotOwner.attempt t, tenantId) = if tenantId = call.tenantId then n else 0
  owes : ∀ fileId, (t, fileId) ∈ d.owed → fileId ∈ fileIds
  mine : ∀ fileId, (t, fileId) ∈ d.owed → ∃ row, d.files.committed fileId = some row ∧ row.tenantId = call.tenantId

variable {fileIds : List String}

theorem Attempt.rely (h : Attempt t call n fileIds d) (hr : SlotRely t d d') : Attempt t call n fileIds d' where
  held tenantId := (hr.slots tenantId).trans (h.held tenantId)
  owes fileId hmem := h.owes fileId ((hr.owed fileId).mp hmem)
  mine fileId hmem := by
    obtain ⟨row, hrow, htenant⟩ := h.mine fileId ((hr.owed fileId).mp hmem)
    obtain ⟨row', hrow', hstep⟩ := hr.files.moves fileId row hrow
    exact ⟨row', hrow', hstep.2.1.trans htenant⟩

theorem Attempt.holdsNothing (h : Attempt t call 0 [] d) : HoldsNothing t d where
  slots tenantId := (h.held tenantId).trans (ite_self 0)
  owed fileId hmem := absurd (h.owes fileId hmem) List.not_mem_nil

theorem HoldsNothing.attempt (h : HoldsNothing t d) (call : SubmitCall) : Attempt t call 0 [] d where
  held tenantId := (h.slots tenantId).trans (ite_self 0).symm
  owes fileId hmem := absurd hmem (h.owed fileId)
  mine fileId hmem := absurd hmem (h.owed fileId)

/-- The attempt is its tenant's. -/
structure Working (t : Txn) (call : SubmitCall) (d : BulkDb) : Prop where
  held : ∀ tenantId, d.slots.count (SlotOwner.attempt t, tenantId) ≠ 0 → tenantId = call.tenantId
  mine : ∀ fileId, (t, fileId) ∈ d.owed → ∃ row, d.files.committed fileId = some row ∧ row.tenantId = call.tenantId

theorem Attempt.working (h : Attempt t call n fileIds d) : Working t call d where
  held tenantId hne := by
    by_contra hother
    rw [h.held tenantId, if_neg hother] at hne
    exact hne rfl
  mine := h.mine

/-- Between two statements, with no row in flight. -/
structure Ready (t : Txn) (call : SubmitCall) (n : Nat) (fileIds : List String) (d : BulkDb) : Prop where
  attempt : Attempt t call n fileIds d
  unheld : d.files.Unheld t
  batches : d.batches.Unheld t

theorem Ready.rely (h : Ready t call n fileIds d) (hr : SlotRely t d d') : Ready t call n fileIds d' :=
  ⟨h.attempt.rely hr, h.unheld.frame hr.files.frame, h.batches.frame hr.batches.frame⟩

theorem Ready.same (h : Ready t call n fileIds d) (hsame : SameSlots d d') : Ready t call n fileIds d' :=
  h.rely (hsame.rely t)

/-- With some of the files inserted. -/
structure Inserting (t : Txn) (call : SubmitCall) (n : Nat) (keys : List String) (d : BulkDb) : Prop where
  attempt : Attempt t call n [] d
  only : ∀ fileId row, d.files.inflight fileId = some (t, row) → ∃ key ∈ keys, fileId = call.fileId key
  files : ∀ key ∈ keys, d.files.inflight (call.fileId key) = some (t, call.fileRow key) ∧
    d.files.committed (call.fileId key) = none

variable {keys : List String}

theorem Inserting.rely (h : Inserting t call n keys d) (hr : SlotRely t d d') : Inserting t call n keys d' where
  attempt := h.attempt.rely hr
  only fileId row hin := h.only fileId row ((hr.files.frame.inflight fileId row).mpr hin)
  files key hmem := by
    obtain ⟨hin, hnone⟩ := h.files key hmem
    exact ⟨(hr.files.frame.inflight _ _).mp hin, (hr.files.held _ _ hin).trans hnone⟩

theorem Inserting.nodup (h : Inserting t call n keys d) (hnodup : keys.Nodup) : (keys.map call.fileId).Nodup := by
  refine List.Nodup.map_on (fun key hkey key' hkey' hsame => ?_) hnodup
  have hin := (h.files key hkey).1
  rw [hsame, (h.files key' hkey').1] at hin
  exact (congrArg BatchFileRow.objectKey (Prod.mk.inj (Option.some.inj hin)).2).symm

/-- **The COMMIT of a batch**: the slots of the attempt are its files' from now on. -/
theorem Inserting.commitBatch (h : Inserting t call call.keys.length keys d) (hinv : BulkInv d) (hslots : SlotInv d)
    (hkeys : keys.Perm call.keys) (hcommit : Sentinel.commitBatch call true t d = some ((), d')) : SlotInv d' := by
  obtain ⟨-, rfl⟩ := Prod.mk.inj (Option.some.inj hcommit)
  have hmem : ∀ key, key ∈ call.keys ↔ key ∈ keys := fun key => hkeys.mem_iff.symm
  have hnew : ∀ {fileId}, fileId ∈ call.keys.map call.fileId → d.files.committed fileId = none ∧
      ∃ row, (d.files.commit t).committed fileId = some row ∧ row.tenantId = call.tenantId := by
    intro fileId hfile
    obtain ⟨key, hkey, rfl⟩ := List.mem_map.mp hfile
    obtain ⟨hin, hnone⟩ := h.files key ((hmem key).mp hkey)
    exact ⟨hnone, call.fileRow key, visible_of_inflight hin, rfl⟩
  have hbefore : ∀ {fileId row}, (d.files.commit t).committed fileId = some row →
      (∃ old, d.files.committed fileId = some old ∧ old.tenantId = row.tenantId) ∨
        (fileId ∈ call.keys.map call.fileId ∧ row.tenantId = call.tenantId) := by
    intro fileId row hrow
    rcases hinv.committed_before hrow with ⟨old, hold, hstep⟩ | ⟨-, hin⟩
    · exact .inl ⟨old, hold, hstep.2.1.symm⟩
    · obtain ⟨key, hkey, rfl⟩ := h.only fileId row hin
      have hsame := (h.files key hkey).1.symm.trans hin
      cases hsame
      exact .inr ⟨List.mem_map_of_mem ((hmem key).mpr hkey), rfl⟩
  have hfresh : ∀ {fileId tenantId}, fileId ∈ call.keys.map call.fileId → (SlotOwner.file fileId, tenantId) ∉ d.slots := by
    intro fileId tenantId hfile hslot
    obtain ⟨⟨row, hrow, -⟩, -⟩ := (hslots.files fileId tenantId).mp hslot
    rw [(hnew hfile).1] at hrow
    contradiction
  have hmap : ∀ fileId tenantId, (SlotOwner.file fileId, tenantId) ∈ call.keys.map (fun key =>
      (SlotOwner.file (call.fileId key), call.tenantId)) ↔ fileId ∈ call.keys.map call.fileId ∧ tenantId = call.tenantId := by
    intro fileId tenantId
    simp only [List.mem_map, Prod.mk.injEq, SlotOwner.file.injEq]
    constructor
    · rintro ⟨key, hkey, hfile, htenant⟩
      exact ⟨⟨key, hkey, hfile⟩, htenant.symm⟩
    · rintro ⟨⟨key, hkey, hfile⟩, htenant⟩
      exact ⟨key, hkey, hfile, htenant.symm⟩
  have hkept : ∀ fileId tenantId, d.slots.count (SlotOwner.file fileId, tenantId) =
      (d.slots.filter (· ≠ (SlotOwner.attempt t, call.tenantId))).count (SlotOwner.file fileId, tenantId) :=
    fun fileId tenantId => (List.count_filter (by simp)).symm
  refine ⟨fun tenantId => ?_, fun fileId tenantId => ?_, fun fileId tenantId => ?_, fun fileId row hrow => ?_⟩
  · show d.filesCounter tenantId = ((d.slots.filter _ ++ call.keys.map _).countP _ : Nat)
    have hcountP := countP_filter_ne (fun slot => decide (slot.2 = tenantId)) (SlotOwner.attempt t, call.tenantId) d.slots
    rw [h.attempt.held call.tenantId, if_pos rfl] at hcountP
    rw [hslots.counter tenantId, BulkDb.slotsOf, ← hcountP, List.countP_append, List.countP_map]
    by_cases htenant : call.tenantId = tenantId
    · simp [htenant, Function.comp_def]
    · simp [htenant, Function.comp_def]
  · show _ ∈ d.slots.filter _ ++ call.keys.map _ ↔ (∃ row, (d.files.commit t).committed fileId = some row ∧ _) ∧ ¬d.Released fileId
    rw [List.mem_append, hmap, ← List.count_pos_iff, ← hkept, List.count_pos_iff, hslots.files]
    constructor
    · rintro (⟨⟨row, hrow, htenant⟩, hunreleased⟩ | ⟨hfile, rfl⟩)
      · obtain ⟨row', hrow', hstep⟩ := hinv.filesEvolve.moves_commit t fileId row hrow
        exact ⟨⟨row', hrow', hstep.2.1.trans htenant⟩, hunreleased⟩
      · obtain ⟨hnone, hrow⟩ := hnew hfile
        refine ⟨hrow, fun hreleased => ?_⟩
        obtain ⟨tenantId, hmem⟩ := hreleased
        obtain ⟨row, hrow, -⟩ := hinv.releasedOf fileId tenantId hmem
        rw [hnone] at hrow
        contradiction
    · rintro ⟨⟨row, hrow, htenant⟩, hunreleased⟩
      rcases hbefore hrow with ⟨old, hold, hsame⟩ | ⟨hfile, hsame⟩
      · exact .inl ⟨⟨old, hold, hsame.trans htenant⟩, hunreleased⟩
      · exact .inr ⟨hfile, htenant.symm.trans hsame⟩
  · show (d.slots.filter _ ++ call.keys.map _).count _ ≤ 1
    rw [List.count_append, ← hkept]
    by_cases hfile : fileId ∈ call.keys.map call.fileId
    · have hnodup : (call.keys.map fun key => (SlotOwner.file (call.fileId key), call.tenantId)).Nodup := by
        have hids := h.nodup (hkeys.nodup_iff.mpr (nodup_eraseDups call.objectKeys))
        have hids : (call.keys.map call.fileId).Nodup := (hkeys.map call.fileId).nodup_iff.mp hids
        have hpairs := hids.map (f := fun fileId => (SlotOwner.file fileId, call.tenantId)) fun _ _ hsame =>
          SlotOwner.file.inj (Prod.mk.inj hsame).1
        rwa [List.map_map] at hpairs
      rw [List.count_eq_zero_of_not_mem (hfresh hfile), Nat.zero_add]
      exact List.nodup_iff_count_le_one.mp hnodup _
    · have hnot : (SlotOwner.file fileId, tenantId) ∉ call.keys.map fun key =>
          (SlotOwner.file (call.fileId key), call.tenantId) := fun hmem => hfile ((hmap fileId tenantId).mp hmem).1
      rw [List.count_eq_zero_of_not_mem hnot]
      exact hslots.once fileId tenantId
  · show (∃ job ∈ d.stream, job.fileId = fileId) ∨ ∃ t', (t', fileId) ∈ d.owed ++ call.keys.map fun key => (t, call.fileId key)
    rcases hbefore hrow with ⟨old, hold, -⟩ | ⟨hfile, -⟩
    · exact (hslots.enqueued fileId old hold).imp_right fun ⟨t', hmem⟩ => ⟨t', List.mem_append_left _ hmem⟩
    · obtain ⟨key, hkey, rfl⟩ := List.mem_map.mp hfile
      exact .inr ⟨t, List.mem_append_right _ (List.mem_map_of_mem hkey)⟩

/-! ## the specification -/

/-- Redis fails with an error of its connection: the submission goes on without a reservation. -/
def CallFate.FailsOpen (fate : CallFate) : Prop := ∃ applied, fate = .breaks .connection applied

/-- Where an attempt that fails leaves nothing behind. -/
structure SubmitCall.Steady (call : SubmitCall) : Prop where
  incr : ¬call.reserve.incr.FailsOpen
  expireBatches : ¬call.reserve.expireBatches.FailsOpen
  decr : ¬call.reserve.decr.FailsOpen
  incrby : ∀ e applied, call.reserve.incrby = .breaks e applied → e = .other ∧ applied = false
  expireFiles : call.reserve.expireFiles = .answers
  decrby : ∀ e applied, call.reserve.decrby = .breaks e applied → e = .other ∧ applied = true
  decrAfter : ¬call.reserve.decrAfter.FailsOpen
  /-- the COMMIT is not reported as failed when it is done -/
  create : call.create ≠ .commits (.breaks true)
  release : ∀ e, call.release ≠ .breaks e false
  enqueue : ∀ key ∈ call.keys, call.enqueue key = .answers

/-- What a run of a request keeps in mind. -/
def BulkRequest.Minds (t : Txn) : BulkRequest → BulkDb → Prop
  | .submit call, d => Working t call d
  | .process _ _, d => HoldsNothing t d ∧ NoNew t d

/-- A submission that leaves nothing behind where it fails. -/
def BulkRequest.Careful : BulkRequest → Prop
  | .submit call => call.Steady
  | .process _ _ => True

/-- A submission is cut off only while it holds nothing. -/
def BulkRequest.Loses (t : Txn) : BulkRequest → BulkDb → Prop
  | .submit _, d => HoldsNothing t d
  | .process _ _, _ => True

def slotSpec : Exclusive BulkDb BulkRequest BulkAnswer Unit where
  key _ := none
  inv d := BulkInv d ∧ SlotInv d
  rely u _ := SlotRely u
  rests _ _ := True
  fresh t d := HoldsNothing t d ∧ d.files.Unheld t ∧ d.batches.Unheld t
  works t req d := req.Minds t d
  post t _ _ d := HoldsNothing t d ∧ NoNew t d
  ended := HoldsNothing
  moves _ _ := True
  opens req _ := req.Careful
  breaks t req := req.Loses t
  assumes := BulkInv

theorem slotKeeps {key : Option Unit} (hinv : BulkInv d') (hslots : SlotInv d') (hrely : ∀ u, u ≠ t → SlotRely u d d') :
    slotSpec.Keeps t key d d' :=
  ⟨⟨hinv, hslots⟩, fun u _ hu _ => hrely u hu, fun _ _ _ => trivial, trivial⟩

theorem NoNew.rely (h : NoNew t d) (hr : SlotRely t d d') : NoNew t d' := by
  intro fileId row hin
  have hin := (hr.files.frame.inflight fileId row).mpr hin
  rw [hr.files.held fileId row hin]
  exact h fileId row hin

theorem Working.rely (h : Working t call d) (hr : SlotRely t d d') : Working t call d' where
  held tenantId hne := h.held tenantId (hr.slots tenantId ▸ hne)
  mine fileId hmem := by
    obtain ⟨row, hrow, htenant⟩ := h.mine fileId ((hr.owed fileId).mp hmem)
    obtain ⟨row', hrow', hstep⟩ := hr.files.moves fileId row hrow
    exact ⟨row', hrow', hstep.2.1.trans htenant⟩

theorem minds_rely {req : BulkRequest} (h : req.Minds t d) (hr : SlotRely t d d') : req.Minds t d' := by
  cases req with
  | submit call => exact Working.rely h hr
  | process job fate => exact ⟨h.1.rely hr, h.2.rely hr⟩

/-! ## what the others see of a step -/

theorem rely_commit (hinv : BulkInv d) (hu : u ≠ t) : SlotRely u d (Database.commit t d) :=
  ⟨(hinv.batchesEvolve.commit t).2 u hu, (hinv.filesEvolve.commit t).2 u hu, fun _ => rfl, fun _ => Iff.rfl⟩

theorem rely_rollback (hinv : BulkInv d) (hu : u ≠ t) : SlotRely u d (Database.rollback t d) :=
  ⟨(hinv.batchesEvolve.rollback t).2 u hu, (hinv.filesEvolve.rollback t).2 u hu, fun _ => rfl, fun _ => Iff.rfl⟩

theorem rely_takeBack (hu : u ≠ t) : SlotRely u d { d with
    filesCounter := counter
    slots := d.slots.filter (· ≠ (.attempt t, tenantId)) } := by
  refine ⟨Follows.refl u _, Follows.refl u _, fun other => ?_, fun _ => Iff.rfl⟩
  exact List.count_filter (decide_eq_true fun heq => hu (SlotOwner.attempt.inj (Prod.mk.inj heq).1))

theorem rely_incrFiles (hu : u ≠ t) : SlotRely u d (incrFiles tenantId n t d).2 := by
  refine ⟨Follows.refl u _, Follows.refl u _, fun other => ?_, fun _ => Iff.rfl⟩
  show (d.slots ++ List.replicate n _).count _ = _
  rw [List.count_append, List.count_eq_zero_of_not_mem (l := List.replicate n _) fun hmem => ?_, Nat.add_zero]
  exact hu (SlotOwner.attempt.inj (Prod.mk.inj (List.eq_of_mem_replicate hmem)).1)

theorem rely_releaseFile : SlotRely u d (releaseFile job t d).2 := by
  refine ⟨Follows.refl u _, Follows.refl u _, fun other => ?_, fun _ => Iff.rfl⟩
  exact List.count_erase_of_ne fun heq => SlotOwner.noConfusion (Prod.mk.inj heq).1

theorem rely_xadd (hu : u ≠ t) : SlotRely u d (xadd job t d).2 := by
  refine ⟨Follows.refl u _, Follows.refl u _, fun other => rfl, fun fileId => ?_⟩
  refine List.mem_filter.trans (and_iff_left (decide_eq_true fun heq => hu (Prod.mk.inj heq).1))

theorem rely_commitBatch (hinv : BulkInv d) (hu : u ≠ t) (hcommit : commitBatch call true t d = some ((), d')) :
    SlotRely u d d' := by
  obtain ⟨-, rfl⟩ := Prod.mk.inj (Option.some.inj hcommit)
  refine ⟨(hinv.batchesEvolve.commit t).2 u hu, (hinv.filesEvolve.commit t).2 u hu, fun tenantId => ?_, fun fileId => ?_⟩
  · show (d.slots.filter (· ≠ (SlotOwner.attempt t, call.tenantId)) ++ call.keys.map fun key =>
      (SlotOwner.file (call.fileId key), call.tenantId)).count _ = _
    rw [List.count_append, List.count_eq_zero_of_not_mem (l := List.map _ _) fun hmem => ?_, Nat.add_zero]
    · exact List.count_filter (decide_eq_true fun heq => hu (SlotOwner.attempt.inj (Prod.mk.inj heq).1))
    · obtain ⟨key, -, heq⟩ := List.mem_map.mp hmem
      exact SlotOwner.noConfusion (Prod.mk.inj heq).1
  · show _ ∈ d.owed ++ call.keys.map (fun key => (t, call.fileId key)) ↔ _
    refine List.mem_append.trans (or_iff_left fun hmem => ?_)
    obtain ⟨key, -, heq⟩ := List.mem_map.mp hmem
    exact hu (Prod.mk.inj heq).1.symm

/-! ## the statements of a worker -/

/-- What a statement of a worker does to files and slots. -/
inductive WorkerStep (t : Txn) (job : JobMessage) (d d' : BulkDb) : Prop
  | same (h : SameSlots d d')
  | update (loaded new : BatchFileRow) (r : Option BatchFileRow)
      (h : updateFile job.tenantId job.fileId loaded new t d = some (r, d'))
  | complete (won : Bool) (h : tryCompleteBatch job t d = some (won, d'))
  | commit (h : d' = Database.commit t d)
  | release (h : d' = (releaseFile job t d).2)
  | enqueue (h : d' = (xadd job t d).2)

section Worker

variable {job : JobMessage} {fate : JobFate}

theorem WorkerStep.refl (d : BulkDb) : WorkerStep t job d d := .same (SameSlots.refl d)

theorem stepsOf_emit {succeeds : Bool} {event : BatchEvent} :
    StepsOf t (WorkerStep t job) (emit succeeds event : Prog BulkDb BulkError Unit) := by
  cases succeeds with
  | false => trivial
  | true =>
      refine StepsOf.exec fun d x d' hexec => ?_
      cases hexec
      exact .same ⟨rfl, rfl, rfl, rfl, rfl, rfl, rfl⟩

theorem stepsOf_redisCall {γ : Type} {f : Txn → BulkDb → γ × BulkDb} (h : ∀ d, WorkerStep t job d (f t d).2) :
    StepsOf t (WorkerStep t job) (redisCall f callFate : Prog BulkDb BulkError (Except CallError γ)) := by
  unfold redisCall
  split
  · refine StepsOf.exec fun d x d' hexec => ?_
    cases hexec
    exact h d
  · refine StepsOf.exec fun d x d' hexec => ?_
    cases hexec
    exact h d
  · trivial

theorem stepsOf_flushFile {loaded new : BatchFileRow} :
    StepsOf t (WorkerStep t job) (flushFile job loaded new) := by
  unfold flushFile
  split
  · trivial
  · refine (StepsOf.exec fun d r d' hupdate => .update loaded new r hupdate).bind fun updated => ?_
    cases updated <;> trivial

theorem stepsOf_commitWork : StepsOf t (WorkerStep t job) (Prog.commitWork : Prog BulkDb BulkError Unit) := by
  refine StepsOf.exec fun d x d' hexec => ?_
  cases hexec
  exact .commit rfl

theorem stepsOf_setFileStatus {new : BatchFileRow → BatchFileRow} :
    StepsOf t (WorkerStep t job) (setFileStatus job new) := by
  refine (StepsOf.query WorkerStep.refl).bind fun loaded => ?_
  cases loaded with
  | none => exact stepsOf_commitWork
  | some row => exact stepsOf_flushFile.bind fun _ => stepsOf_commitWork

theorem stepsOf_redisOrRaise {γ : Type} {f : Txn → BulkDb → γ × BulkDb} (h : ∀ d, WorkerStep t job d (f t d).2) :
    StepsOf t (WorkerStep t job) (redisOrRaise f callFate) := by
  refine (stepsOf_redisCall h).bind fun r => ?_
  cases r <;> trivial

theorem stepsOf_closeFile : StepsOf t (WorkerStep t job) (closeFile job fate eventType) := by
  have hrelease : ∀ batchComplete, StepsOf t (WorkerStep t job) (releaseSlots job fate batchComplete) := by
    intro batchComplete
    refine (stepsOf_redisCall fun d => .release rfl).bind fun r => ?_
    cases r with
    | error e => trivial
    | ok _ =>
        show StepsOf t _ (if _ then _ else _)
        split
        · refine (stepsOf_redisCall fun d => ?_).bind fun _ => trivial
          exact .same ⟨rfl, rfl, rfl, rfl, rfl, rfl, rfl⟩
        · trivial
  have htry : StepsOf t (WorkerStep t job) (completeIfDone job) := by
    exact (StepsOf.exec fun d won d' htry => .complete won htry).bind fun won =>
      stepsOf_commitWork.bind fun _ => trivial
  refine htry.bind fun won => stepsOf_emit.bind fun _ => ?_
  cases won with
  | false => exact hrelease false
  | true => exact stepsOf_emit.bind fun _ => hrelease true

theorem stepsOf_handleFailure {attempt : Nat} :
    StepsOf t (WorkerStep t job) (handleFailure job fate settings attempt failureClass) := by
  unfold handleFailure
  split
  · exact stepsOf_setFileStatus.bind fun _ => (stepsOf_redisOrRaise fun d => .enqueue rfl).bind fun _ => trivial
  · refine stepsOf_setFileStatus.bind fun _ => (stepsOf_redisOrRaise fun d => ?_).bind fun _ =>
      stepsOf_closeFile.bind fun _ => trivial
    exact .same ⟨rfl, rfl, rfl, rfl, rfl, rfl, rfl⟩

theorem stepsOf_processJob : StepsOf t (WorkerStep t job) (processJob job fate settings) := by
  refine (StepsOf.query WorkerStep.refl).bind fun found => ?_
  cases found with
  | none => trivial
  | some file =>
      show StepsOf t _ (if _ then _ else _)
      split
      · trivial
      · refine stepsOf_flushFile.bind fun _ => stepsOf_commitWork.bind fun _ => ?_
        unfold inspectFile
        split
        · exact stepsOf_handleFailure
        · split
          · exact stepsOf_handleFailure
          · refine (stepsOf_setFileStatus.bind fun _ => stepsOf_closeFile).bind fun _ => trivial

/-- **A worker's statement** keeps the slots. -/
theorem WorkerStep.keeps (h : WorkerStep t job d d') (hinv : BulkInv d) (hslots : SlotInv d) (hholds : HoldsNothing t d)
    (hold : NoNew t d) (hinv' : BulkInv d') : slotSpec.Keeps t none d d' ∧ HoldsNothing t d' ∧ NoNew t d' := by
  cases h with
  | same hsame =>
      exact ⟨slotKeeps hinv' (hslots.same hsame) fun u _ => hsame.rely u, hholds.rely (hsame.rely t), hold.rely (hsame.rely t)⟩
  | update loaded new r hupdate =>
      obtain ⟨⟨r', files⟩, hwhere, he⟩ := Option.map_eq_some_iff.mp hupdate
      obtain ⟨-, rfl⟩ := Prod.mk.inj he
      have hcommitted : files.committed = d.files.committed := committed_updateWhere hwhere
      refine ⟨slotKeeps hinv' (hslots.withFiles hcommitted) fun u hu => ⟨Follows.refl u _, ⟨?_, ?_, ?_⟩, fun _ => rfl,
        fun _ => Iff.rfl⟩, ⟨hholds.slots, hholds.owed⟩, fun fileId row hin => ?_⟩
      · exact frame_updateWhere hwhere hu
      · exact fun fileId row _ => congrFun hcommitted fileId
      · exact fun fileId row hrow => ⟨row, (congrFun hcommitted fileId).trans hrow, Std.Refl.refl row⟩
      · show files.committed fileId ≠ none
        rw [hcommitted]
        rcases updateWhere_cases hwhere with ⟨-, rfl, -⟩ | ⟨v, hv, -, -, -, rfl⟩
        · exact hold fileId row hin
        · by_cases hfile : fileId = job.fileId
          · subst hfile
            rcases visible_cases d.files t job.fileId with ⟨v', hin', -⟩ | ⟨-, hvisible⟩
            · exact hold job.fileId v' hin'
            · rw [← hvisible, hv]
              exact Option.some_ne_none v
          · exact hold fileId row ((inflight_write_of_ne hfile).symm.trans hin)
  | complete won htry =>
      obtain ⟨⟨r, batches⟩, hupdate, he⟩ := Option.map_eq_some_iff.mp htry
      obtain ⟨-, rfl⟩ := Prod.mk.inj he
      have hstep : ∀ v : BatchRow, batchStep v { v with status := .completed } := fun v => ⟨⟨rfl, rfl⟩, fun _ => rfl⟩
      refine ⟨slotKeeps hinv' ⟨hslots.counter, hslots.files, hslots.once, hslots.enqueued⟩ fun u hu =>
        ⟨(hinv.batchesEvolve.updateWhere (fun v _ => hstep v) hupdate).2 u hu, Follows.refl u _,
          fun _ => rfl, fun _ => Iff.rfl⟩, ⟨hholds.slots, hholds.owed⟩, hold⟩
  | commit he =>
      subst he
      refine ⟨slotKeeps hinv' (hslots.commit hinv hold) fun u hu => rely_commit hinv hu, ⟨hholds.slots, hholds.owed⟩, ?_⟩
      exact noNew_of_unheld (unheld_commit d.files t)
  | release he =>
      subst he
      have hmem : (SlotOwner.file job.fileId, job.tenantId) ∈ d.slots := by
        have hreleased : (job.fileId, job.tenantId) ∈ (releaseFile job t d).2.released :=
          List.mem_append_right _ List.mem_cons_self
        refine (hslots.files job.fileId job.tenantId).mpr ⟨hinv'.releasedOf _ _ hreleased, fun hbefore => ?_⟩
        obtain ⟨tenantId, hmem⟩ := hbefore
        have honce : ((d.released ++ [(job.fileId, job.tenantId)]).map Prod.fst).Nodup := hinv'.releasedOnce
        rw [List.map_append, List.nodup_append] at honce
        exact honce.2.2 _ (List.mem_map_of_mem hmem) _ List.mem_cons_self rfl
      exact ⟨slotKeeps hinv' (hslots.releaseFile hmem) fun u _ => rely_releaseFile, hholds.rely rely_releaseFile, hold⟩
  | enqueue he =>
      subst he
      refine ⟨slotKeeps hinv' hslots.xadd fun u hu => rely_xadd hu, ⟨hholds.slots, fun fileId hmem => ?_⟩, hold⟩
      exact hholds.owed fileId (List.mem_filter.mp hmem).1

end Worker

/-! ## a submission's program -/

section Submit

variable {P : BulkDb → Prop} {γ δ : Type} {fate : CallFate} {f : Txn → BulkDb → γ × BulkDb}
  {k : Except CallError γ → Prog BulkDb BulkError δ} {Q : δ → BulkDb → Prop}

theorem wp_call
    (hstep : ∀ d', BulkInv d' → SlotInv d' → SlotRely t d d' → BulkInv (f t d').2 →
      slotSpec.Keeps t none d' (f t d').2 ∧ Working t call (f t d').2 ∧ P (f t d').2)
    (hanswers : fate = .answers → ∀ x d', P d' → slotSpec.wp t (.submit call) Q (k (.ok x)) d')
    (hbreaks : ∀ e, fate = .breaks e true → ∀ d', P d' → slotSpec.wp t (.submit call) Q (k (.error e)) d')
    (hlost : ∀ e, fate = .breaks e false → slotSpec.wp t (.submit call) Q (k (.error e)) d) :
    slotSpec.wp t (.submit call) Q (redisCall f fate >>= k) d := by
  have hexec : ∀ r : γ → Except CallError γ, (∀ x d', P d' → slotSpec.wp t (.submit call) Q (k (r x)) d') →
      slotSpec.wp t (.submit call) Q
        ((Prog.exec fun t d => some (r (f t d).1, (f t d).2) : Prog BulkDb BulkError (Except CallError γ)) >>= k) d := by
    intro r hr
    refine wp_assuming_bind fun d₁ h₁ hr₁ _ x d₂ hexec hassumes => ?_
    cases hexec
    obtain ⟨hkeeps, hworking, hP⟩ := hstep d₁ h₁.1 h₁.2 hr₁ hassumes
    exact ⟨hkeeps, hworking, hr _ _ hP⟩
  cases fate with
  | answers => exact hexec .ok (hanswers rfl)
  | breaks e applied =>
      cases applied with
      | true => exact hexec (fun _ => .error e) fun _ => hbreaks e rfl
      | false => exact hlost e rfl

variable {fileIds : List String}

theorem wp_sameCall (hsame : ∀ t d, SameSlots d (f t d).2) (h : Ready t call n fileIds d)
    (hok : ∀ x d', Ready t call n fileIds d' → slotSpec.wp t (.submit call) Q (k (.ok x)) d')
    (herror : ∀ e applied, fate = .breaks e applied → ∀ d', Ready t call n fileIds d' →
      slotSpec.wp t (.submit call) Q (k (.error e)) d') :
    slotSpec.wp t (.submit call) Q (redisCall f fate >>= k) d := by
  refine wp_call (P := Ready t call n fileIds) (fun d₁ _ hs₁ hr₁ hinv => ?_) (fun _ x d' => hok x d')
    (fun e he => herror e true he) fun e he => herror e false he d h
  have hready := (h.rely hr₁).same (hsame t d₁)
  exact ⟨slotKeeps hinv (hs₁.same (hsame t d₁)) fun u _ => (hsame t d₁).rely u, hready.attempt.working, hready⟩

theorem wp_ready {b : δ} (h : Ready t call n fileIds d) :
    slotSpec.wp t (.submit call) (fun _ d' => Ready t call n fileIds d') (pure b : Prog BulkDb BulkError δ) d :=
  fun _ _ hr _ => h.rely hr

theorem wp_raiseFree {e : BulkError} (h : Ready t call 0 [] d) :
    slotSpec.wp t (.submit call) Q (Prog.raise e : Prog BulkDb BulkError δ) d :=
  wp_raise fun _ _ hr _ => (h.rely hr).attempt.holdsNothing

theorem sameSlots_incrBatches (tenantId : String) (t : Txn) (d : BulkDb) : SameSlots d (incrBatches tenantId t d).2 :=
  ⟨rfl, rfl, rfl, rfl, rfl, rfl, rfl⟩

theorem sameSlots_decrBatches (tenantId : String) (t : Txn) (d : BulkDb) : SameSlots d (decrBatches tenantId t d).2 :=
  ⟨rfl, rfl, rfl, rfl, rfl, rfl, rfl⟩

theorem sameSlots_releaseBatchSlot (tenantId : String) (t : Txn) (d : BulkDb) :
    SameSlots d (releaseBatchSlot tenantId t d).2 := ⟨rfl, rfl, rfl, rfl, rfl, rfl, rfl⟩

theorem sameSlots_expire (t : Txn) (d : BulkDb) : SameSlots d (expire t d).2 := SameSlots.refl d

theorem Ready.takeBack (h : Ready t call n [] d) (hs : SlotInv d)
    (hcounter : counter = incrBy d.filesCounter call.tenantId (-n)) (hinv : BulkInv { d with
      filesCounter := counter
      slots := d.slots.filter (· ≠ (.attempt t, call.tenantId)) }) :
    slotSpec.Keeps t none d { d with
      filesCounter := counter
      slots := d.slots.filter (· ≠ (.attempt t, call.tenantId)) } ∧
    Ready t call 0 [] { d with
      filesCounter := counter
      slots := d.slots.filter (· ≠ (.attempt t, call.tenantId)) } := by
  subst hcounter
  have hcount : d.slots.count (SlotOwner.attempt t, call.tenantId) = n := (h.attempt.held call.tenantId).trans (if_pos rfl)
  refine ⟨slotKeeps hinv (hs.takeBack hcount) fun u hu => rely_takeBack hu, ⟨fun tenantId => ?_, h.attempt.owes,
    h.attempt.mine⟩, h.unheld, h.batches⟩
  show (d.slots.filter _).count _ = _
  rw [ite_self]
  by_cases htenant : tenantId = call.tenantId
  · rw [htenant, List.count_eq_zero]
    simp
  · rw [List.count_filter (by simp [htenant]), h.attempt.held tenantId, if_neg htenant]

/-- What is left of a reservation, by how it ends. -/
def Reserved (t : Txn) (call : SubmitCall) : Reservation → BulkDb → Prop
  | .reserved, d => Ready t call call.keys.length [] d
  | .limitExceeded, d => Ready t call 0 [] d
  | .broke .connection, _ => False
  | .broke .other, d => Ready t call 0 [] d

theorem Reserved.rely (h : Reserved t call r d) (hr : SlotRely t d d') : Reserved t call r d' := by
  cases r with
  | reserved => exact Ready.rely h hr
  | limitExceeded => exact Ready.rely h hr
  | broke e =>
      cases e with
      | connection => exact h
      | other => exact Ready.rely h hr

theorem wp_reserved (h : Reserved t call r d) :
    slotSpec.wp t (.submit call) (fun r d' => Reserved t call r d') (pure r : Prog BulkDb BulkError Reservation) d :=
  fun _ _ hr _ => h.rely hr

theorem wp_broke {e : CallError} {applied : Bool} (hfate : ¬fate.FailsOpen) (he : fate = .breaks e applied)
    (h : Ready t call 0 [] d) : slotSpec.wp t (.submit call) (fun r d' => Reserved t call r d')
      (pure (.broke e) : Prog BulkDb BulkError Reservation) d := by
  cases e with
  | connection => exact absurd ⟨applied, he⟩ hfate
  | other => exact wp_reserved h

/-- A steady reservation takes the slots of all files, or none. -/
theorem wp_reserveSlots (hsteady : call.Steady) (h : Ready t call 0 [] d) :
    slotSpec.wp t (.submit call) (fun r d' => Reserved t call r d')
      (reserveBatch settings call.tenantId call.keys.length call.reserve : Prog BulkDb BulkError Reservation) d := by
  refine wp_sameCall (sameSlots_incrBatches call.tenantId) h (fun newBatches d h => ?_)
    fun e applied he d h => wp_broke hsteady.incr he h
  refine wp_sameCall sameSlots_expire h (fun _ d h => ?_) fun e applied he d h => wp_broke hsteady.expireBatches he h
  show slotSpec.wp t (.submit call) _ (if _ then _ else _) d
  split
  · exact wp_sameCall (sameSlots_decrBatches call.tenantId) h (fun _ d h => wp_reserved h)
      fun e applied he d h => wp_broke hsteady.decr he h
  · refine wp_call (P := Ready t call call.keys.length []) (fun d₁ _ hs₁ hr₁ hinv => ?_) (fun _ newFiles d h => ?_)
      (fun e he => ?_) fun e he => ?_
    · have hready := h.rely hr₁
      have hreserved : Ready t call call.keys.length [] (incrFiles call.tenantId call.keys.length t d₁).2 := by
        refine ⟨⟨fun tenantId => ?_, hready.attempt.owes, hready.attempt.mine⟩, hready.unheld, hready.batches⟩
        show (d₁.slots ++ List.replicate _ _).count _ = _
        rw [List.count_append, hready.attempt.held tenantId, ite_self, Nat.zero_add, List.count_replicate]
        by_cases htenant : tenantId = call.tenantId
        · simp [htenant]
        · simp [htenant, Ne.symm htenant]
      exact ⟨slotKeeps hinv hs₁.incrFiles fun u hu => rely_incrFiles hu, hreserved.attempt.working, hreserved⟩
    · rw [hsteady.expireFiles]
      refine wp_sameCall sameSlots_expire h (fun _ d h => ?_) fun e applied he => by contradiction
      show slotSpec.wp t (.submit call) _ (if _ then _ else _) d
      split
      · refine wp_call (P := Ready t call 0 []) (fun d₁ _ hs₁ hr₁ hinv => ?_) (fun _ _ d h => ?_) (fun e he d h => ?_)
          fun e he => ?_
        · obtain ⟨hkeeps, hready⟩ := (h.rely hr₁).takeBack hs₁ rfl hinv
          exact ⟨hkeeps, hready.attempt.working, hready⟩
        · exact wp_sameCall (sameSlots_decrBatches call.tenantId) h (fun _ d h => wp_reserved h)
            fun e applied he d h => wp_broke hsteady.decrAfter he h
        · obtain ⟨rfl, -⟩ := hsteady.decrby e true he
          exact wp_reserved h
        · exact absurd (hsteady.decrby e false he).2 Bool.false_ne_true
      · exact wp_reserved h
    · exact absurd (hsteady.incrby e true he).2.symm Bool.false_ne_true
    · obtain ⟨rfl, -⟩ := hsteady.incrby e false he
      exact wp_reserved h

end Submit

/-! ## the batch of a submission -/

section Create

/-- There is a batch with the idempotency key. -/
def Present (call : SubmitCall) (d : BulkDb) : Prop :=
  ∃ batchId batch, d.batches.committed batchId = some batch ∧ batch.tenantId = call.tenantId ∧
    batch.idempotencyKey = call.idempotencyKey

theorem Present.rely (h : Present call d) (hr : SlotRely t d d') : Present call d' := by
  obtain ⟨batchId, batch, hbatch, htenant, hkey⟩ := h
  obtain ⟨batch', hbatch', hstep⟩ := hr.batches.moves batchId batch hbatch
  exact ⟨batchId, batch', hbatch', hstep.1.1.trans htenant, hstep.1.2.trans hkey⟩

theorem Present.found (h : Present call d) (hunheld : d.batches.Unheld t) :
    getByIdempotencyKey call.tenantId call.idempotencyKey t d ≠ none := by
  obtain ⟨batchId, batch, hbatch, htenant, hkey⟩ := h
  have hmem : (batchId, batch) ∈ d.batches.scan t := mem_scan.mpr ((hunheld.visible batchId).trans hbatch)
  intro hnone
  have hnot := List.find?_eq_none.mp hnone (batchId, batch) hmem
  simp [htenant, hkey] at hnot

theorem wp_fetchReady (h : Ready t call n [] d) :
    slotSpec.wp t (.submit call) (fun existing d' => Ready t call n [] d' ∧ (Present call d → existing ≠ none))
      call.fetchExisting d := by
  refine wp_query_bind (fun u _ => SlotRely.refl u) (fun _ => trivial) fun d₁ _ hr₁ _ => ?_
  have hready := h.rely hr₁
  cases hfound : getByIdempotencyKey call.tenantId call.idempotencyKey t d₁ with
  | none => exact fun d₂ _ hr₂ _ => ⟨hready.rely hr₂, fun hpresent => absurd hfound ((hpresent.rely hr₁).found hready.batches)⟩
  | some found =>
      refine wp_query_bind (fun u _ => SlotRely.refl u) (fun _ => trivial) fun d₂ _ hr₂ _ => ?_
      exact fun d₃ _ hr₃ _ => ⟨(hready.rely hr₂).rely hr₃, fun _ => Option.some_ne_none _⟩

variable {keys : List String}

/-- What is left of a creation, by how it ends. -/
def CreationLeft (t : Txn) (call : SubmitCall) (n : Nat) : Creation → BulkDb → Prop
  | .created, d => Ready t call 0 (call.keys.map call.fileId) d
  | .found _, d => Ready t call n [] d
  | .integrityError, d => Ready t call n [] d ∧ Present call d
  | .failed, d => Ready t call n [] d

theorem wp_rollback {γ : Type} {k : Unit → Prog BulkDb BulkError γ} {Q : γ → BulkDb → Prop} {P : BulkDb → Prop}
    (h : Attempt t call n [] d) (hd : P d) (hrely : ∀ d d', P d → SlotRely t d d' → P d')
    (hP : ∀ d, P d → P (Database.rollback t d))
    (hk : ∀ d', Ready t call n [] d' → P d' → slotSpec.wp t (.submit call) Q (k ()) d') :
    slotSpec.wp t (.submit call) Q (Prog.rollbackWork >>= k) d := by
  refine wp_assuming_bind fun d₁ h₁ hr₁ _ x d₂ hexec hassumes => ?_
  cases hexec
  have hattempt := h.rely hr₁
  have hrolled : Attempt t call n [] (Database.rollback t d₁) := ⟨hattempt.held, hattempt.owes, hattempt.mine⟩
  have hready : Ready t call n [] (Database.rollback t d₁) :=
    ⟨hrolled, unheld_rollback d₁.files t, unheld_rollback d₁.batches t⟩
  exact ⟨slotKeeps hassumes ⟨h₁.2.counter, h₁.2.files, h₁.2.once, h₁.2.enqueued⟩ fun u hu => rely_rollback h₁.1 hu,
    hrolled.working, hk _ hready (hP d₁ (hrely d d₁ hd hr₁))⟩

theorem Inserting.insertFile (h : Inserting t call n keys d) (hinv : BulkInv d) (hs : SlotInv d)
    (hinsert : Sentinel.insertFile (call.fileId objectKey) (call.fileRow objectKey) t d = some ((), d'))
    (hinv' : BulkInv d') : slotSpec.Keeps t none d d' ∧ Inserting t call n (objectKey :: keys) d' := by
  obtain ⟨⟨b, files⟩, hins, he⟩ := Option.bind_eq_some_iff.mp hinsert
  rcases insertOrIgnore_cases hins with ⟨rfl, -, -⟩ | ⟨rfl, rfl, hin, hnone⟩
  · contradiction
  · cases he
    refine ⟨slotKeeps hinv' (hs.withFiles rfl) fun u hu => ⟨Follows.refl u _, (hinv.filesEvolve.insertOrIgnore hins).2 u hu,
      fun _ => rfl, fun _ => Iff.rfl⟩, ⟨h.attempt.held, h.attempt.owes, h.attempt.mine⟩, fun fileId row hheld => ?_,
      fun key hmem => ?_⟩
    · by_cases hfile : fileId = call.fileId objectKey
      · exact ⟨objectKey, List.mem_cons_self, hfile⟩
      · obtain ⟨key, hkey, hof⟩ := h.only fileId row ((inflight_write_of_ne hfile).symm.trans hheld)
        exact ⟨key, List.mem_cons_of_mem _ hkey, hof⟩
    · rcases List.mem_cons.mp hmem with rfl | hmem
      · exact ⟨inflight_write_self .., hnone⟩
      · obtain ⟨hheld, hnone'⟩ := h.files key hmem
        refine ⟨(inflight_write_of_ne fun hsame => ?_).trans hheld, hnone'⟩
        rw [hsame, hin] at hheld
        contradiction

theorem wp_insertSlots {done : List String} (h : Inserting t call n done d) :
    slotSpec.wp t (.submit call) (fun _ d' => Inserting t call n (keys.reverse ++ done) d') (insertFiles call keys) d := by
  induction keys generalizing done d with
  | nil => exact fun d' _ hr _ => h.rely hr
  | cons key keys ih =>
      refine wp_assuming_bind fun d₁ h₁ hr₁ _ _ d₂ hinsert hassumes => ?_
      obtain ⟨hkeeps, hinserting⟩ := (h.rely hr₁).insertFile h₁.1 h₁.2 hinsert hassumes
      rw [List.reverse_cons, List.append_assoc]
      exact ⟨hkeeps, hinserting.attempt.working, ih hinserting⟩

theorem wp_endSlots (hfate : fate ≠ .breaks true) (h : Inserting t call call.keys.length keys d)
    (hkeys : keys.Perm call.keys) :
    slotSpec.wp t (.submit call) (CreationLeft t call call.keys.length) (endCreation call true fate) d := by
  cases fate with
  | completes =>
      refine wp_assuming_bind fun d₁ h₁ hr₁ _ x d₂ hcommit hassumes => ?_
      have hinserting := h.rely hr₁
      have hslots := hinserting.commitBatch h₁.1 h₁.2 hkeys hcommit
      have hothers := fun u (hu : u ≠ t) => rely_commitBatch h₁.1 hu hcommit
      obtain ⟨-, rfl⟩ := Prod.mk.inj (Option.some.inj hcommit)
      have hready : Ready t call 0 (call.keys.map call.fileId) { Database.commit t d₁ with
          slots := if true = true then d₁.slots.filter (· ≠ (.attempt t, call.tenantId)) ++
            call.keys.map fun key => (.file (call.fileId key), call.tenantId) else d₁.slots
          owed := d₁.owed ++ call.keys.map fun key => (t, call.fileId key) } := by
        refine ⟨⟨fun tenantId => ?_, fun fileId hmem => ?_, fun fileId hmem => ?_⟩, unheld_commit d₁.files t,
          unheld_commit d₁.batches t⟩
        · show (d₁.slots.filter (· ≠ (SlotOwner.attempt t, call.tenantId)) ++ call.keys.map fun key =>
            (SlotOwner.file (call.fileId key), call.tenantId)).count _ = _
          rw [ite_self, List.count_eq_zero]
          intro hmem
          rcases List.mem_append.mp hmem with hmem | hmem
          · obtain ⟨hmem, hne⟩ := List.mem_filter.mp hmem
            refine of_decide_eq_true hne (congrArg _ ?_)
            exact hinserting.attempt.working.held tenantId (Nat.ne_of_gt (List.count_pos_iff.mpr hmem))
          · obtain ⟨key, -, heq⟩ := List.mem_map.mp hmem
            exact SlotOwner.noConfusion (Prod.mk.inj heq).1
        · rcases List.mem_append.mp hmem with hmem | hmem
          · exact absurd (hinserting.attempt.owes fileId hmem) List.not_mem_nil
          · obtain ⟨key, hkey, heq⟩ := List.mem_map.mp hmem
            exact (Prod.mk.inj heq).2 ▸ List.mem_map_of_mem hkey
        · rcases List.mem_append.mp hmem with hmem | hmem
          · exact absurd (hinserting.attempt.owes fileId hmem) List.not_mem_nil
          · obtain ⟨key, hkey, heq⟩ := List.mem_map.mp hmem
            obtain rfl := (Prod.mk.inj heq).2
            exact ⟨call.fileRow key, visible_of_inflight (hinserting.files key (hkeys.mem_iff.mpr hkey)).1, rfl⟩
      exact ⟨slotKeeps hassumes hslots hothers, hready.attempt.working, fun d₃ _ hr₃ _ => hready.rely hr₃⟩
  | breaks committed =>
      cases committed with
      | true => exact absurd rfl hfate
      | false =>
          exact wp_rollback (P := fun _ => True) h.attempt trivial (fun _ _ _ _ => trivial) (fun _ _ => trivial)
            fun d' hready _ d₂ _ hr₂ _ => hready.rely hr₂

theorem wp_createSlots (hfate : fate ≠ .breaks true) (h : Ready t call call.keys.length [] d) :
    slotSpec.wp t (.submit call) (CreationLeft t call call.keys.length) (createBatch call true fate) d := by
  refine wp_assuming_bind fun d₁ h₁ hr₁ _ inserted d₂ hinsert hassumes => ?_
  have hready := h.rely hr₁
  unfold insertBatch at hinsert
  split at hinsert
  · contradiction
  split at hinsert
  · next hexists =>
      -- there is such a batch, and it is committed
      cases hinsert
      have hpresent : Present call d₁ := by
        obtain ⟨⟨batchId, batch⟩, hmem, hsame⟩ := List.any_eq_true.mp hexists
        have hbatch : d₁.batches.committed batchId = some batch :=
          (hready.batches.visible batchId).symm.trans (mem_scan.mp hmem)
        rw [BatchRow.sameSubmission, Bool.and_eq_true, decide_eq_true_eq, decide_eq_true_eq] at hsame
        exact ⟨batchId, batch, hbatch, hsame.1, hsame.2⟩
      refine ⟨slotKeeps h₁.1 h₁.2 fun u _ => SlotRely.refl u _, hready.attempt.working, ?_⟩
      exact wp_rollback (P := Present call) hready.attempt hpresent (fun _ _ hp hr => hp.rely hr) (fun _ hp => hp)
        fun d' hready' hp d₃ _ hr₃ _ => ⟨hready'.rely hr₃, hp.rely hr₃⟩
  · obtain ⟨⟨b, batches⟩, hins, he⟩ := Option.bind_eq_some_iff.mp hinsert
    rcases insertOrIgnore_cases hins with ⟨rfl, -, -⟩ | ⟨rfl, rfl, -, -⟩
    · contradiction
    · cases he
      have hinserting : Inserting t call call.keys.length []
          { d₁ with batches := d₁.batches.write t call.batchId call.batchRow } :=
        ⟨⟨hready.attempt.held, hready.attempt.owes, hready.attempt.mine⟩,
          fun fileId row hin => absurd hin (hready.unheld fileId row), fun _ hmem => absurd hmem List.not_mem_nil⟩
      have hkeeps : slotSpec.Keeps t none d₁ { d₁ with batches := d₁.batches.write t call.batchId call.batchRow } :=
        slotKeeps hassumes ⟨h₁.2.counter, h₁.2.files, h₁.2.once, h₁.2.enqueued⟩ fun u hu =>
          ⟨(h₁.1.batchesEvolve.insertOrIgnore hins).2 u hu, Follows.refl u _, fun _ => rfl, fun _ => Iff.rfl⟩
      refine ⟨hkeeps, hinserting.attempt.working, wp_bind (SlotRely.refl t) hkeeps.inv hinserting.attempt.working
        (wp_mono (fun _ d₃ _ _ hall => ?_) (wp_insertSlots hinserting))⟩
      refine wp_endSlots hfate hall ?_
      rw [List.append_nil]
      exact List.reverse_perm call.keys

theorem wp_createOrGetSlots (hsteady : call.Steady) (h : Ready t call call.keys.length [] d)
    (hinv : BulkInv d ∧ SlotInv d) :
    slotSpec.wp t (.submit call) (CreationLeft t call call.keys.length) (createOrGet call true) d := by
  unfold createOrGet
  split
  · exact fun d₁ _ hr₁ _ => h.rely hr₁
  · next fate hcreate =>
      have hfate : fate ≠ .breaks true := fun hbad => hsteady.create (hcreate.trans (congrArg _ hbad))
      refine wp_bind (SlotRely.refl t) hinv h.attempt.working (wp_mono (fun existing d₁ _ _ hfound => ?_)
        (wp_fetchReady h))
      cases existing with
      | none => exact wp_createSlots hfate hfound.1
      | some answer => exact fun d₂ _ hr₂ _ => hfound.1.rely hr₂

theorem wp_enqueueSlots (hsteady : call.Steady) (hkeys : ∀ key ∈ keys, key ∈ call.keys)
    (h : Ready t call 0 (keys.map call.fileId) d) :
    slotSpec.wp t (.submit call) (fun _ d' => Ready t call 0 [] d') (enqueueFiles call keys) d := by
  induction keys generalizing d with
  | nil => exact wp_ready h
  | cons key keys ih =>
      show slotSpec.wp t (.submit call) _ (redisCall (xadd (call.job key)) (call.enqueue key) >>= _) d
      rw [hsteady.enqueue key (hkeys key List.mem_cons_self)]
      refine wp_call (P := Ready t call 0 (keys.map call.fileId)) (fun d₁ _ hs₁ hr₁ hinv => ?_)
        (fun _ _ d h => ih (fun key' hmem => hkeys key' (List.mem_cons_of_mem key hmem)) h) (fun e he => by contradiction)
        fun e he => by contradiction
      have hready := h.rely hr₁
      have hready₂ : Ready t call 0 (keys.map call.fileId) (xadd (call.job key) t d₁).2 := by
        refine ⟨⟨hready.attempt.held, fun fileId hmem => ?_, fun fileId hmem => ?_⟩, hready.unheld, hready.batches⟩
        · obtain ⟨hmem, hne⟩ := List.mem_filter.mp hmem
          refine (List.mem_cons.mp (hready.attempt.owes fileId hmem)).resolve_left fun hsame => ?_
          exact of_decide_eq_true hne (congrArg _ hsame)
        · exact hready.attempt.mine fileId (List.mem_filter.mp hmem).1
      exact ⟨slotKeeps hinv hs₁.xadd fun u hu => rely_xadd hu, hready₂.attempt.working, hready₂⟩

theorem wp_giveBackSlots (hsteady : call.Steady) (h : Ready t call call.keys.length [] d) :
    slotSpec.wp t (.submit call) (fun _ d' => Ready t call 0 [] d') (giveBack call true) d := by
  show slotSpec.wp t (.submit call) _ (releaseReservation call.tenantId call.keys.length call.release call.releaseBatch) d
  refine wp_call (P := Ready t call 0 []) (fun d₁ _ hs₁ hr₁ hinv => ?_) (fun _ _ d h => ?_) (fun e _ d h => wp_ready h)
    fun e he => absurd he (hsteady.release e)
  · have hready := h.rely hr₁
    have hle : call.keys.length ≤ d₁.slotsOf call.tenantId := by
      have hcount := hready.attempt.held call.tenantId
      rw [if_pos rfl] at hcount
      exact hcount ▸ count_le_slotsOf (.attempt t) call.tenantId d₁
    obtain ⟨hkeeps, hready₂⟩ := hready.takeBack hs₁ (hs₁.decrFloor_eq hle) hinv
    exact ⟨hkeeps, hready₂.attempt.working, hready₂⟩
  · exact wp_sameCall (sameSlots_releaseBatchSlot call.tenantId) h (fun _ d h => wp_ready h) fun _ _ _ d h => wp_ready h

/-- The slots go from the attempt to its files, or back. -/
theorem wp_createAndEnqueueSlots (hsteady : call.Steady) (h : Ready t call call.keys.length [] d)
    (hinv : BulkInv d ∧ SlotInv d) :
    slotSpec.wp t (.submit call) (fun _ d' => Ready t call 0 [] d') (createAndEnqueue call true) d := by
  have hgive : ∀ answer d, Ready t call call.keys.length [] d → BulkInv d ∧ SlotInv d →
      slotSpec.wp t (.submit call) (fun _ d' => Ready t call 0 [] d')
        (giveBack call true >>= fun _ => pure answer : Prog BulkDb BulkError SubmitAnswer) d := fun answer d h hinv =>
    wp_bind (SlotRely.refl t) hinv h.attempt.working
      (wp_mono (fun _ _ _ _ hready => wp_ready hready) (wp_giveBackSlots hsteady h))
  refine wp_bind (SlotRely.refl t) hinv h.attempt.working (wp_mono (fun creation d₁ h₁ _ hleft => ?_)
    (wp_createOrGetSlots hsteady h hinv))
  cases creation with
  | created =>
      have hready : Ready t call 0 (call.keys.map call.fileId) d₁ := hleft
      refine wp_bind (SlotRely.refl t) h₁ hready.attempt.working (wp_mono (fun _ d₂ h₂ _ hready => ?_)
        (wp_enqueueSlots hsteady (fun _ => id) hready))
      cases hemits : call.emits with
      | false => exact wp_ready hready
      | true =>
          refine wp_assuming_bind fun d₃ h₃ hr₃ _ x d₄ hexec hassumes => ?_
          cases hexec
          have hsame : SameSlots d₃ { d₃ with events := d₃.events ++ [call.submitted] } := ⟨rfl, rfl, rfl, rfl, rfl, rfl, rfl⟩
          have hready₃ := hready.rely hr₃
          have hready₄ : Ready t call 0 [] { d₃ with events := d₃.events ++ [call.submitted] } :=
            hready₃.rely (hsame.rely t)
          exact ⟨slotKeeps hassumes (h₃.2.same hsame) fun u _ => hsame.rely u, hready₄.attempt.working, wp_ready hready₄⟩
  | found answer => exact hgive answer d₁ hleft h₁
  | integrityError =>
      obtain ⟨hready, hpresent⟩ : Ready t call call.keys.length [] d₁ ∧ Present call d₁ := hleft
      refine wp_bind (SlotRely.refl t) h₁ hready.attempt.working (wp_mono (fun existing d₂ h₂ _ hfound => ?_)
        (wp_fetchReady hready))
      cases existing with
      | none => exact absurd rfl (hfound.2 hpresent)
      | some answer => exact hgive answer d₂ hfound.1 h₂
  | failed =>
      have hready : Ready t call call.keys.length [] d₁ := hleft
      exact wp_bind (SlotRely.refl t) h₁ hready.attempt.working
        (wp_mono (fun _ _ _ _ hready => wp_raiseFree hready) (wp_giveBackSlots hsteady hready))

/-- **A submission** that leaves nothing behind where it fails. -/
theorem wp_submitSlots (hsteady : call.Steady) (h : Ready t call 0 [] d) (hinv : BulkInv d ∧ SlotInv d) :
    slotSpec.wp t (.submit call) (fun _ d' => Ready t call 0 [] d') (submitBatch call settings) d := by
  unfold submitBatch
  split
  · refine wp_bind (SlotRely.refl t) hinv h.attempt.working (wp_mono (fun existing d₁ h₁ _ hfound => ?_)
      (wp_fetchReady h))
    cases existing with
    | some answer => exact wp_ready hfound.1
    | none =>
        refine wp_bind (SlotRely.refl t) h₁ hfound.1.attempt.working
          (wp_mono (fun reservation d₂ h₂ _ hreserved => ?_) (wp_reserveSlots hsteady hfound.1))
        cases reservation with
        | limitExceeded => exact wp_raiseFree hreserved
        | reserved => exact wp_createAndEnqueueSlots hsteady hreserved h₂
        | broke e =>
            cases e with
            | other => exact wp_raiseFree hreserved
            | connection => exact absurd hreserved id
  · exact wp_raiseFree h

end Create

/-! ## soundness -/

theorem slotSpec_sound (settings : BulkSettings) : slotSpec.Sound (serveBulk settings) where
  refl u _ := SlotRely.refl u
  trans := SlotRely.trans
  moves_refl _ := trivial
  moves_trans _ _ := trivial
  fresh_rely _ hr h := ⟨HoldsNothing.rely h.1 hr, h.2.1.frame (SlotRely.files hr).frame, h.2.2.frame (SlotRely.batches hr).frame⟩
  ended_rely _ hr h := HoldsNothing.rely h hr
  works_rely _ hr h := minds_rely h hr
  body {t req d} hinv hopens hfresh _ := by
    obtain ⟨hholds, hfiles, hbatches⟩ := hfresh
    cases req with
    | submit call =>
        have hready : Ready t call 0 [] d := ⟨HoldsNothing.attempt hholds call, hfiles, hbatches⟩
        refine ⟨hready.attempt.working, wp_bind (SlotRely.refl t) hinv hready.attempt.working
          (wp_mono (fun _ d₁ _ _ hready d₂ _ hr₂ _ => ?_) (wp_submitSlots hopens hready hinv))⟩
        have hready₂ := hready.rely hr₂
        exact ⟨hready₂.attempt.holdsNothing, noNew_of_unheld hready₂.unheld⟩
    | process job fate =>
        have hminds : BulkRequest.Minds t (.process job fate) d := ⟨hholds, noNew_of_unheld hfiles⟩
        refine ⟨hminds, wp_mono (fun _ _ _ _ h => h) (wp_of_stepsOf (R := WorkerStep t job)
          (stepsOf_processJob.bind fun _ => trivial) (fun d d' hinv hminds hstep hassumes => ?_) fun _ _ _ => trivial)⟩
        exact hstep.keeps hinv.1 hinv.2 hminds.1 hminds.2 hassumes
  commit {t req b d} hinv _ hpost _ hassumes :=
    ⟨slotKeeps hassumes (SlotInv.commit hinv.2 hinv.1 hpost.2) fun u hu => rely_commit hinv.1 hu, fun _ _ => trivial,
      ⟨hpost.1.slots, hpost.1.owed⟩⟩
  rollback {t req d} hinv hworks hbreaks hassumes := by
    have hholds : HoldsNothing t d := by
      cases req with
      | submit call => exact hbreaks
      | process job fate => exact hworks.1
    exact ⟨slotKeeps hassumes ⟨hinv.2.counter, hinv.2.files, hinv.2.once, hinv.2.enqueued⟩ fun u hu => rely_rollback hinv.1 hu,
      fun _ _ => trivial, ⟨hholds.slots, hholds.owed⟩⟩
  skips_rely _ _ h := h
  aside _ hskips _ := absurd hskips id
  leave _ hskips _ := absurd hskips id

/-! ## runs -/

/-- A submission of the tenant is running. -/
def Submits (s : BulkSys) (t : Txn) (tenantId : String) : Prop :=
  ∃ call p, s.procs t = .running (.submit call) p ∧ call.tenantId = tenantId

/-- A submission that begins does not fail between reservation, COMMIT and XADD, and none is cut off there. -/
def Spares (s : BulkSys) : Action BulkRequest → Prop
  | .begin _ req => req.Careful
  | .abort t => ∀ call p, s.procs t = .running (.submit call) p → (∃ e, p = .raise e) ∨ HoldsNothing t s.db
  | _ => True

/-- A step that leaves nothing behind, where the workers' steps are permitted. -/
def SteadyStep (s : BulkSys) (a : Action BulkRequest) (s' : BulkSys) : Prop :=
  bulkSpec.Permits s a s' ∧ Spares s a

/-- The files of a tenant that are not terminal. -/
def BulkDb.pending (d : BulkDb) (tenantId : String) : List (String × BatchFileRow) :=
  d.files.rows.filter fun p => p.2.tenantId = tenantId && !p.2.status.terminal

theorem slotSpec_start : slotSpec.Ok (Sys.start BulkDb.empty : BulkSys) :=
  ok_start ⟨bulkInv_empty, slotInv_empty⟩
    (fun _ => ⟨⟨fun _ => rfl, fun _ h => absurd h List.not_mem_nil⟩, fun _ _ h => by contradiction, fun _ _ h => by contradiction⟩)
    fun _ => trivial

theorem SteadyStep.permits {a : Action BulkRequest} (h : SteadyStep s a s') (hok : bulkSpec.Ok s') :
    slotSpec.Permits s a s' := by
  cases a with
  | begin t req => exact .inl ⟨fun _ k hk => absurd hk.symm (by cases s.procs _ <;> exact Option.some_ne_none k), h.2⟩
  | exec t => exact hok.inv
  | commit t => exact ⟨fun _ _ _ => trivial, hok.inv⟩
  | abort t =>
      refine ⟨fun req p hproc => ?_, hok.inv⟩
      cases req with
      | submit call => exact h.2 call p hproc
      | process job fate => exact .inr trivial

theorem slotSpec_run {as : List (Action BulkRequest)}
    (hrun : run (serveBulk settings) (Sys.start BulkDb.empty) as = some s)
    (hp : EveryStep (serveBulk settings) SteadyStep (Sys.start BulkDb.empty) as) : bulkSpec.Ok s ∧ slotSpec.Ok s := by
  have hbulk := (bulkSpec_sound settings).everyStep bulkSpec_start (hp.mono fun _ _ _ h => h.1)
  have hboth := everyStep_and hp hbulk
  exact ⟨((bulkSpec_sound settings).run bulkSpec_start (hp.mono fun _ _ _ h => h.1) hrun).1,
    ((slotSpec_sound settings).run slotSpec_start (hboth.mono fun _ _ _ h => h.1.permits h.2.2.2) hrun).1⟩

theorem holds_none_of (h : slotSpec.Ok s) (hnot : ¬Submits s t tenantId) :
    s.db.slots.count (SlotOwner.attempt t, tenantId) = 0 ∧
      ∀ fileId row, s.db.files.committed fileId = some row → row.tenantId = tenantId → (t, fileId) ∉ s.db.owed := by
  obtain ⟨at', h⟩ := h
  have hproc := h.procs t
  have hnone : HoldsNothing t s.db → s.db.slots.count (SlotOwner.attempt t, tenantId) = 0 ∧
      ∀ fileId row, s.db.files.committed fileId = some row → row.tenantId = tenantId → (t, fileId) ∉ s.db.owed :=
    fun hholds => ⟨hholds.slots tenantId, fun fileId _ _ _ => hholds.owed fileId⟩
  cases hc : s.procs t with
  | idle =>
      rw [hc] at hproc
      exact hnone hproc.2.1
  | committed req b =>
      rw [hc] at hproc
      exact hnone hproc.2
  | aborted =>
      rw [hc] at hproc
      exact hnone hproc.2
  | running req p =>
      rw [hc] at hproc
      rcases hproc with ⟨-, hminds, -⟩ | ⟨-, ⟨hskips, -⟩, -⟩
      · cases req with
        | process job fate => exact hnone hminds.1
        | submit call =>
            have hother : call.tenantId ≠ tenantId := fun htenant => hnot ⟨call, p, hc, htenant⟩
            have hworking : Working t call s.db := hminds
            refine ⟨?_, fun fileId row hrow htenant howed => ?_⟩
            · by_contra hne
              exact hother (hworking.held tenantId hne).symm
            · obtain ⟨row', hrow', htenant'⟩ := hworking.mine fileId howed
              rw [hrow] at hrow'
              cases hrow'
              exact hother (htenant'.symm.trans htenant)
      · exact absurd hskips id

/-- At rest the slots are those of the files that are not terminal. -/
theorem SlotInv.slotsOf_eq (h : SlotInv d) (hattempts : ∀ t, d.slots.count (SlotOwner.attempt t, tenantId) = 0)
    (hreleased : ∀ fileId row, d.files.committed fileId = some row → row.tenantId = tenantId →
      (d.Released fileId ↔ row.status.terminal = true)) : d.slotsOf tenantId = (d.pending tenantId).length := by
  have hnodup : (d.slots.filter fun slot => slot.2 = tenantId).Nodup := by
    refine List.nodup_iff_count_le_one.mpr fun slot => ?_
    obtain ⟨owner, other⟩ := slot
    by_cases hother : other = tenantId
    · subst hother
      have hcount : (d.slots.filter fun slot => slot.2 = other).count (owner, other) = d.slots.count (owner, other) :=
        List.count_filter (by simp)
      rw [hcount]
      cases owner with
      | attempt t => exact (hattempts t).le.trans (Nat.zero_le 1)
      | file fileId => exact h.once fileId other
    · have hnot : (owner, other) ∉ d.slots.filter fun slot => slot.2 = tenantId := fun hmem =>
        hother (of_decide_eq_true (List.mem_filter.mp hmem).2)
      rw [List.count_eq_zero_of_not_mem hnot]
      exact Nat.zero_le 1
  have hfiles : ((d.pending tenantId).map fun p => (SlotOwner.file p.1, tenantId)).Nodup := by
    have hkeys : ((d.pending tenantId).map Prod.fst).Nodup := (d.files.nodup_list _).sublist (List.filter_sublist.map Prod.fst)
    have hpairs := hkeys.map (f := fun fileId => (SlotOwner.file fileId, tenantId)) fun _ _ hsame =>
      SlotOwner.file.inj (Prod.mk.inj hsame).1
    rwa [List.map_map] at hpairs
  have hperm : (d.slots.filter fun slot => slot.2 = tenantId).Perm
      ((d.pending tenantId).map fun p => (SlotOwner.file p.1, tenantId)) := by
    refine (List.perm_ext_iff_of_nodup hnodup hfiles).mpr fun slot => ?_
    obtain ⟨owner, other⟩ := slot
    simp only [List.mem_filter, List.mem_map, BulkDb.pending, Prod.mk.injEq, Bool.and_eq_true, decide_eq_true_eq,
      Bool.not_eq_true', Prod.exists, mem_rows]
    cases owner with
    | attempt t =>
        refine ⟨fun hslot => ?_, fun hfile => ?_⟩
        · obtain ⟨hmem, rfl⟩ := hslot
          exact absurd hmem (List.count_eq_zero.mp (hattempts t))
        · obtain ⟨_, _, -, howner, -⟩ := hfile
          exact SlotOwner.noConfusion howner
    | file fileId =>
        refine ⟨fun hslot => ?_, fun hfile => ?_⟩
        · obtain ⟨hmem, rfl⟩ := hslot
          obtain ⟨⟨row, hrow, htenant⟩, hopen⟩ := (h.files fileId other).mp hmem
          refine ⟨fileId, row, ⟨hrow, htenant, ?_⟩, rfl, rfl⟩
          exact Bool.eq_false_iff.mpr fun hterminal => hopen ((hreleased fileId row hrow htenant).mpr hterminal)
        · obtain ⟨fileId', row, ⟨hrow, htenant, hopen⟩, howner, rfl⟩ := hfile
          obtain rfl := SlotOwner.file.inj howner
          refine ⟨(h.files _ _).mpr ⟨⟨row, hrow, htenant⟩, fun hrel => ?_⟩, rfl⟩
          rw [(hreleased _ row hrow htenant).mp hrel] at hopen
          contradiction
  rw [BulkDb.slotsOf, List.countP_eq_length_filter, hperm.length_eq, List.length_map]

/-- **Nothing is lost**, in a run of steady steps: while nobody submits for a tenant and nobody works on its files, every
file of it was enqueued, and its counter of files is the number of those that are not terminal. -/
theorem bulk_submission_loses_nothing {settings : BulkSettings} {as : List (Action BulkRequest)} {s : BulkSys}
    {tenantId : String} (hrun : run (serveBulk settings) (Sys.start BulkDb.empty) as = some s)
    (hp : EveryStep (serveBulk settings) SteadyStep (Sys.start BulkDb.empty) as) (hsubmits : ∀ t, ¬Submits s t tenantId)
    (hworks : ∀ fileId row, s.db.files.committed fileId = some row → row.tenantId = tenantId → ¬AtWork s fileId) :
    (∀ fileId row, s.db.files.committed fileId = some row → row.tenantId = tenantId →
      ∃ job ∈ s.db.stream, job.fileId = fileId) ∧
    s.db.filesCounter tenantId = (s.db.pending tenantId).length := by
  obtain ⟨hbulk, hslots⟩ := slotSpec_run hrun hp
  have hinv : BulkInv s.db ∧ SlotInv s.db := hslots.inv
  refine ⟨fun fileId row hrow htenant => ?_, ?_⟩
  · rcases hinv.2.enqueued fileId row hrow with hjob | ⟨t, howed⟩
    · exact hjob
    · exact absurd howed ((holds_none_of hslots (hsubmits t)).2 fileId row hrow htenant)
  · rw [hinv.2.counter tenantId, hinv.2.slotsOf_eq (fun t => (holds_none_of hslots (hsubmits t)).1) fun fileId row hrow htenant =>
      ⟨fun hreleased => ?_, fun hterminal => ?_⟩]
    · obtain ⟨row', hrow', hterminal⟩ := hinv.1.checkedTerminal fileId (hinv.1.releasedChecked fileId hreleased)
      rw [hrow] at hrow'
      cases hrow'
      exact hterminal
    · exact ((rests_of_not_atWork hbulk (hworks fileId row hrow htenant) row hrow).2 hterminal).released

/-! ## a batch that is never enqueued -/

section Sample

/-- The answer to a submission. -/
def answered (s : BulkSys) (t : Txn) : Option (Nat × String) :=
  match s.procs t with
  | .committed _ (.submitted answer) => some (answer.statusCode, answer.batchId)
  | _ => none

/-- A submission whose XADD fails. -/
def lostSubmit : SubmitCall := { sampleSubmit with enqueue := fun _ => .breaks .connection false }

def retrySubmit : SubmitCall := { sampleSubmit with batchId := "batch-2", fileId := fun _ => "file-2" }

def retrySchedule : List (Action BulkRequest) :=
  .begin 1 (.submit lostSubmit) :: (List.replicate 9 (.exec 1) ++ [.abort 1]) ++
    .begin 2 (.submit retrySubmit) :: (List.replicate 2 (.exec 2) ++ [.commit 2])

/-- **The retry is answered with the batch that is there**, whose file was not enqueued, and whose slot stays reserved. -/
theorem retried_batch_not_enqueued :
    (run (serveBulk sampleSettings) (Sys.start BulkDb.empty) retrySchedule).map (fun s =>
      (answered s 2, (s.db.files.committed "file-1").map BatchFileRow.batchId, s.db.stream,
        s.db.filesCounter sampleSubmit.tenantId)) = some (some (200, "batch-1"), some "batch-1", [], 1) := by
  decide +kernel

theorem sampleSubmit_steady : sampleSubmit.Steady := by
  have hanswers : ¬(CallFate.answers).FailsOpen := by
    rintro ⟨applied, h⟩
    contradiction
  have hcreate : sampleSubmit.create ≠ .commits (.breaks true) := by
    intro h
    obtain h := CreateFate.commits.inj h
    contradiction
  refine ⟨hanswers, hanswers, hanswers, fun e applied h => ?_, rfl, fun e applied h => ?_, hanswers, hcreate,
    fun e h => ?_, fun _ _ => rfl⟩ <;> contradiction

theorem submitSchedule_steady :
    EveryStep (serveBulk sampleSettings) SteadyStep (Sys.start BulkDb.empty) submitSchedule := by
  refine everyStep_and submitSchedule_permits (everyStep_of_mem fun a hmem _ _ => ?_)
  rcases List.mem_cons.mp hmem with rfl | hmem
  · exact sampleSubmit_steady
  rcases List.mem_append.mp hmem with hmem | hmem
  · rw [List.eq_of_mem_replicate hmem]
    trivial
  · rw [List.mem_singleton.mp hmem]
    trivial

/-- The submission of one file, which is enqueued, and has its slot. -/
theorem bulk_submission_loses_nothing_sample : ∃ s : BulkSys,
    run (serveBulk sampleSettings) (Sys.start BulkDb.empty) submitSchedule = some s ∧ answered s 1 = some (202, "batch-1") ∧
    (∃ job ∈ s.db.stream, job.fileId = "file-1") ∧
    s.db.filesCounter sampleSubmit.tenantId = (s.db.pending sampleSubmit.tenantId).length := by
  have hsome : (run (serveBulk sampleSettings) (Sys.start BulkDb.empty) submitSchedule).map (fun s =>
      (answered s 1, s.db.files.committed "file-1")) =
      some (some (202, "batch-1"), some (sampleSubmit.fileRow sampleJob.objectKey)) := by
    decide +kernel
  obtain ⟨s, hrun, hdone⟩ := Option.map_eq_some_iff.mp hsome
  obtain ⟨hanswered, hfile⟩ := Prod.mk.inj hdone
  have hended : ∀ t req p, s.procs t ≠ .running req p := by
    intro t req p hproc
    by_cases hone : t = 1
    · subst hone
      unfold answered at hanswered
      rw [hproc] at hanswered
      exact absurd hanswered.symm (Option.some_ne_none _)
    · have hidle : s.procs t = .idle := procs_of_run hrun fun a hmem => (submitSchedule_txn a hmem).trans_ne (Ne.symm hone)
      rw [hidle] at hproc
      cases hproc
  have hsubmits : ∀ t, ¬Submits s t sampleSubmit.tenantId := by
    intro t h
    obtain ⟨call, p, hproc, -⟩ := h
    exact hended t _ p hproc
  have hworks : ∀ fileId, ¬AtWork s fileId := by
    intro fileId h
    obtain ⟨t, job, fate, p, hproc, -⟩ := h
    exact hended t _ p hproc
  obtain ⟨hjobs, hcounter⟩ := bulk_submission_loses_nothing hrun submitSchedule_steady hsubmits fun fileId _ _ _ => hworks fileId
  exact ⟨s, hrun, hanswered, hjobs "file-1" _ hfile rfl, hcounter⟩

end Sample

end Anoryx.Sentinel
