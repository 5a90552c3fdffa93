import Anoryx.Sentinel.EffectivePolicy

/-!
# Anoryx.Sentinel.PolicyMirror

The head row of a policy keeps the four ids twice: in columns, which the reader
filters by, and in the payload, which the enforcement code matches by.  A first
version fills both from its record; a later version replaces the payload and the
type, and leaves the id columns as they are.

So the head row is the newest accepted record seen through the ids of the oldest
one (`mirrored_intakeAll`), and it mirrors the newest record exactly when the two
name the same ids (`mirrors_iff`).
-/

namespace Anoryx.Sentinel

open ReadCommitted

/-- The records of one policy, oldest first. -/
def ofPolicy (accepted : List PolicyRecord) (id : String) : List PolicyRecord :=
  accepted.filter fun r => r.policyId = id

/-- The head row after the records of one policy. -/
def headRow : List PolicyRecord → Option PolicyRow
  | [] => none
  | r :: rs => some (rs.foldl (fun row record => row.flush record row) r.toRow)

theorem headRow_append (rs : List PolicyRecord) (record : PolicyRecord) :
    headRow (rs ++ [record]) = some (nextHead record (headRow rs)) := by
  cases rs with
  | nil => rfl
  | cons r rs => simp [headRow, nextHead]

variable {d d' : PolicyDb} {record first : PolicyRecord} {accepted before rest : List PolicyRecord}
  {id tenantId : String}

theorem atomically_intakePolicy_head {t : Txn} {result : Except PolicyError IntakeResult} (hq : d.Quiet)
    (h : atomically t (intakePolicy record) d = some (result, d')) (hacc : Accepts result = true) :
    d'.policies.committed record.policyId =
      some (nextHead record (d.policies.committed record.policyId)) := by
  cases hmax : (getMaxVersion record.policyId t d).filter (record.policyVersion ≤ ·) with
  | some currentMax =>
      rw [atomically, eval_intakePolicy_replay hmax, Option.some.injEq, Prod.mk.injEq] at h
      rw [← h.1] at hacc
      contradiction
  | none =>
      rw [atomically, eval_intakePolicy_accept hq hmax, Option.some.injEq, Prod.mk.injEq] at h
      rw [← h.2]
      exact ((hq.policies.commit_write t record.policyId _).2 record.policyId).trans (if_pos rfl)

/-- A store whose head rows are those of the accepted records. -/
def Mirrored (accepted : List PolicyRecord) (d : PolicyDb) : Prop :=
  ∀ id, d.policies.committed id = headRow (ofPolicy accepted id)

theorem Mirrored.accept (h : Mirrored accepted d) (ha : Accepted record d d')
    (hhead : d'.policies.committed record.policyId =
      some (nextHead record (d.policies.committed record.policyId))) : Mirrored (accepted ++ [record]) d' := by
  intro id
  by_cases hid : record.policyId = id
  · have hof : ofPolicy (accepted ++ [record]) id = ofPolicy accepted id ++ [record] := by
      simp [ofPolicy, hid]
    rw [hof, headRow_append, ← hid, hhead, h]
  · have hof : ofPolicy (accepted ++ [record]) id = ofPolicy accepted id := by
      simp [ofPolicy, hid]
    rw [hof, ha.policies id (Ne.symm hid), h]

theorem mirrored_intakeAll (t : Txn) (records : List PolicyRecord) (hq : d.Quiet) (h : Mirrored before d)
    (hrun : intakeAll t records d = some (accepted, d')) : Mirrored (before ++ accepted) d' := by
  induction records generalizing t before accepted d with
  | nil =>
      rw [intakeAll, Option.some.injEq, Prod.mk.injEq] at hrun
      obtain ⟨rfl, rfl⟩ := hrun
      simpa using h
  | cons record records ih =>
      obtain ⟨result, d₁, heval, hq₁, hcase⟩ := atomically_intakePolicy t record hq
      rw [intakeAll, heval] at hrun
      dsimp only at hrun
      split at hrun
      · contradiction
      · next accepted' d'' hrest =>
          rw [Option.some.injEq, Prod.mk.injEq] at hrun
          obtain ⟨rfl, rfl⟩ := hrun
          obtain ⟨hacc, ha⟩ | ⟨hacc, rfl⟩ := hcase
          · have hnext := h.accept ha (atomically_intakePolicy_head hq heval hacc)
            simpa [hacc] using ih (t + 1) hq₁ hnext hrest
          · simpa [hacc] using ih (t + 1) hq h hrest

/-! ## the columns of the head row -/

theorem headRow_cons (r : PolicyRecord) (rs : List PolicyRecord) :
    headRow (r :: rs) = some { (rs.getLastD r).toRow with
      tenantId := r.tenantId
      teamId := r.teamId
      projectId := r.projectId
      agentId := r.agentId } := by
  induction rs using List.reverseRecOn with
  | nil => rfl
  | append_singleton rs last ih =>
      rw [← List.cons_append, headRow_append, ih]
      simp only [nextHead, PolicyRow.flush_self, List.getLastD_concat]
      rfl

/-- Two records name the same four ids. -/
def SameScope (r r' : PolicyRecord) : Prop :=
  r.tenantId = r'.tenantId ∧ r.teamId = r'.teamId ∧ r.projectId = r'.projectId ∧
    r.agentId = r'.agentId

theorem Stored.isLatest_iff (h : Stored accepted d) (hm : Mirrored accepted d)
    (hof : ofPolicy accepted id = first :: rest) (r : PolicyRecord) :
    IsLatest accepted id r ↔ r = rest.getLastD first := by
  have hmem : rest.getLastD first ∈ ofPolicy accepted id := by
    rw [hof]
    exact List.getLastD_mem_cons
  obtain ⟨hacc, hid⟩ := List.mem_filter.mp hmem
  have hid : (rest.getLastD first).policyId = id := by simpa using hid
  obtain ⟨r', hr', hver, -⟩ := h.head id _ ((hm id).trans (by rw [hof, headRow_cons]))
  have hlast : r' = rest.getLastD first :=
    h.distinct r' hr'.1 _ hacc (hr'.2.1.trans hid.symm) hver.symm
  constructor
  · intro hr
    rw [← hlast]
    exact h.distinct r hr.1 r' hr'.1 (hr.2.1.trans hr'.2.1.symm)
      (Nat.le_antisymm (hr'.2.2 r hr.1 hr.2.1) (hr.2.2 r' hr'.1 hr'.2.1))
  · rintro rfl
    rw [← hlast]
    exact hr'

/-- The head row has the ids, the type and the version of the newest accepted record, so
that the reader returns it for exactly the tenant and the type the record names. -/
structure MirrorsRecord (d : PolicyDb) (id : String) (r : PolicyRecord) : Prop where
  columns : ∃ row, d.policies.committed id = some row ∧ row.policyPayload = r ∧
    row.tenantId = r.tenantId ∧ row.teamId = r.teamId ∧ row.projectId = r.projectId ∧
    row.agentId = r.agentId ∧ row.policyType = r.policyType ∧ row.currentVersion = r.policyVersion
  enforced : ∀ tenantId policyType now,
    (∃ row, (id, row) ∈ getActivePoliciesForScope d tenantId policyType now) ↔
      tenantId = r.tenantId ∧ policyType = r.policyType ∧ r.effectiveFrom ≤ now

/-- The head row of a policy mirrors its newest accepted record. -/
def Mirrors (accepted : List PolicyRecord) (d : PolicyDb) (id : String) : Prop :=
  ∀ r, IsLatest accepted id r → MirrorsRecord d id r

theorem mem_getActive {policyType : PolicyType} {now : DateTime} {row : PolicyRow} :
    (id, row) ∈ getActivePoliciesForScope d tenantId policyType now ↔
      d.policies.committed id = some row ∧ row.tenantId = tenantId ∧ row.policyType = policyType ∧
        row.effectiveFrom ≤ now := by
  simp only [getActivePoliciesForScope, List.mem_insertionSort, List.mem_filter, Table.mem_rows,
    decide_eq_true_eq]

/-- **The head row mirrors the newest version** of a policy, after any sequence of
deliveries, exactly when the newest accepted version names the ids of the first. -/
theorem mirrors_iff (t : Txn) (records accepted : List PolicyRecord) (d : PolicyDb)
    (hrun : intakeAll t records PolicyDb.empty = some (accepted, d)) (id : String) :
    Mirrors accepted d id ↔ ∀ first latest, (ofPolicy accepted id).head? = some first →
      IsLatest accepted id latest → SameScope first latest := by
  have hempty : Mirrored [] PolicyDb.empty := fun _ => rfl
  have hm : Mirrored accepted d := mirrored_intakeAll t records stored_empty.quiet hempty hrun
  have hstored : Stored accepted d := by
    obtain ⟨accepted', d', hrun', hstored⟩ := stored_intakeAll t records stored_empty
    rw [hrun, Option.some.injEq, Prod.mk.injEq] at hrun'
    obtain ⟨rfl, rfl⟩ := hrun'
    exact hstored
  cases hof : ofPolicy accepted id with
  | nil =>
      have hno : ∀ r, ¬ IsLatest accepted id r := by
        intro r hr
        have hin : r ∈ ofPolicy accepted id := List.mem_filter.mpr ⟨hr.1, by simpa using hr.2.1⟩
        rw [hof] at hin
        exact absurd hin List.not_mem_nil
      exact ⟨fun _ _ latest _ hr => absurd hr (hno latest), fun _ r hr => absurd hr (hno r)⟩
  | cons first rest =>
      have hrow := (hm id).trans (by rw [hof, headRow_cons])
      simp only [Mirrors, hstored.isLatest_iff hm hof, List.head?_cons, Option.some.injEq, forall_eq]
      constructor
      · rintro h _ _ rfl rfl
        obtain ⟨row, hrow', -, hten, hteam, hproj, hagent, -⟩ := h.columns
        rw [hrow, Option.some.injEq] at hrow'
        subst hrow'
        exact ⟨hten, hteam, hproj, hagent⟩
      · intro h
        obtain ⟨hten, hteam, hproj, hagent⟩ := h first _ rfl rfl
        refine ⟨⟨_, hrow, rfl, hten, hteam, hproj, hagent, rfl, rfl⟩, ?_⟩
        intro tenantId policyType now
        simp only [mem_getActive, hrow, Option.some.injEq, exists_eq_left', hten]
        exact ⟨fun h => ⟨h.1.symm, h.2.1.symm, h.2.2⟩, fun h => ⟨h.1.symm, h.2.1.symm, h.2.2⟩⟩

section Sample

/-- Version 2 moves the policy to another team. -/
def movedPolicy : PolicyRecord :=
  { samplePolicy 1 samplePolicyTime with teamId := "66666666-6666-4666-8666-666666666666" }

/-- The payload names the new team, the head row's column the old one. -/
theorem moved_policy_keeps_team : ∃ d,
    intakeAll 1 [sampleV1, movedPolicy] PolicyDb.empty = some ([sampleV1, movedPolicy], d) ∧
      (d.policies.committed sampleV1.policyId).map
        (fun row => (row.policyPayload, row.teamId)) = some (movedPolicy, sampleV1.teamId) ∧
      ¬ Mirrors [sampleV1, movedPolicy] d sampleV1.policyId := by
  have hrun : (intakeAll 1 [sampleV1, movedPolicy] PolicyDb.empty).map (fun q =>
      (q.1, (q.2.policies.committed sampleV1.policyId).map fun row => (row.policyPayload, row.teamId))) =
      some ([sampleV1, movedPolicy], some (movedPolicy, sampleV1.teamId)) := by
    decide +kernel
  obtain ⟨⟨accepted, d⟩, hd, he⟩ := Option.map_eq_some_iff.mp hrun
  rw [Prod.mk.injEq] at he
  obtain ⟨rfl, hrow⟩ := he
  refine ⟨d, hd, hrow, fun hmirrors => ?_⟩
  have hlatest : IsLatest [sampleV1, movedPolicy] sampleV1.policyId movedPolicy :=
    ⟨by simp, rfl, by decide⟩
  obtain ⟨row, hrow', -, -, hteam, -⟩ := (hmirrors movedPolicy hlatest).columns
  rw [hrow', Option.map_some, Option.some.injEq, Prod.mk.injEq, hteam] at hrow
  exact absurd hrow.2 (by decide)

/-- Version 2 keeps the team of version 1. -/
theorem mirrors_iff_same_team : ∃ d,
    intakeAll 1 [sampleV1, sampleV2] PolicyDb.empty = some ([sampleV1, sampleV2], d) ∧
      Mirrors [sampleV1, sampleV2] d sampleV1.policyId := by
  have hrun : (intakeAll 1 [sampleV1, sampleV2] PolicyDb.empty).map Prod.fst =
      some [sampleV1, sampleV2] := by
    decide +kernel
  obtain ⟨⟨accepted, d⟩, hd, rfl⟩ := Option.map_eq_some_iff.mp hrun
  refine ⟨d, hd, (mirrors_iff 1 _ _ d hd sampleV1.policyId).mpr ?_⟩
  rintro first latest hfirst ⟨hlatest, -⟩
  have hfirst : sampleV1 = first := by simpa [ofPolicy, sampleV1, sampleV2, samplePolicy] using hfirst
  subst hfirst
  rcases List.mem_pair.mp hlatest with rfl | rfl <;> exact ⟨rfl, rfl, rfl, rfl⟩

end Sample

end Anoryx.Sentinel
