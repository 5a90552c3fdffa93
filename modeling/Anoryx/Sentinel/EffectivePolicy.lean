import Anoryx.Sentinel.PolicyMonotone

/-!
# Anoryx.Sentinel.EffectivePolicy

What the enforcement code gets to see of a policy whose versions were accepted one
after the other.

The head row is overwritten when a version is accepted, the reader filters head
rows by `effective_from` when it is called.  `noGap_iff` says what that amounts to:
the reader returns the highest version in effect exactly when the highest accepted
version is in effect itself.  A version accepted for later takes the policy out of
force until then.
-/

namespace Anoryx.Sentinel

open ReadCommitted

/-! ## one intake after the other -/

/-- Whether an intake stored its record. -/
def Accepts : Except PolicyError IntakeResult → Bool
  | .ok (.accepted ..) => true
  | _ => false

/-- Deliveries in order, each a transaction of its own; the records that were accepted,
and the store after them. -/
def intakeAll : Txn → List PolicyRecord → PolicyDb → Option (List PolicyRecord × PolicyDb)
  | _, [], d => some ([], d)
  | t, record :: records, d =>
      match atomically t (intakePolicy record) d with
      | none => none
      | some (result, d') =>
          match intakeAll (t + 1) records d' with
          | none => none
          | some (accepted, d'') =>
              some (if Accepts result then record :: accepted else accepted, d'')

/-- No transaction is open. -/
structure PolicyDb.Quiet (d : PolicyDb) : Prop where
  policies : d.policies.Quiet
  versions : d.versions.Quiet

/-- What an accepted record leaves in a store. -/
structure Accepted (record : PolicyRecord) (d d' : PolicyDb) : Prop where
  newer : ∀ n v, d.versions.committed (record.policyId, n) = some v → n < record.policyVersion
  head : ∃ row, d'.policies.committed record.policyId = some row ∧
    row.currentVersion = record.policyVersion ∧ row.effectiveFrom = record.effectiveFrom
  policies : ∀ id, id ≠ record.policyId → d'.policies.committed id = d.policies.committed id
  version : d'.versions.committed (record.policyId, record.policyVersion) = some record.toVersionRow
  versions : ∀ k, k ≠ (record.policyId, record.policyVersion) →
    d'.versions.committed k = d.versions.committed k

variable {currentMax n : Nat} {accepted before : List PolicyRecord} {record r : PolicyRecord}
  {d d' : PolicyDb} {id : String} {now : DateTime}

section Intake

variable {t : Txn} {d : PolicyDb} {record : PolicyRecord}

theorem PolicyDb.Quiet.visible_policy (h : d.Quiet) (t : Txn) (id : String) :
    d.policies.visible t id = d.policies.committed id :=
  Table.visible_of_inflight_none (h.policies id)

theorem PolicyDb.Quiet.visible_version (h : d.Quiet) (t : Txn) (k : String × Nat) :
    d.versions.visible t k = d.versions.committed k :=
  Table.visible_of_inflight_none (h.versions k)

theorem PolicyRow.flush_self (row : PolicyRow) (record : PolicyRecord) :
    row.flush record row =
      { row with
        currentVersion := record.policyVersion
        policyType := record.policyType
        effectiveFrom := record.effectiveFrom
        signature := record.signature
        policyPayload := record } := by
  have hself : ∀ {α : Type} [DecidableEq α] (new current : α), flushed current new current = new := by
    intro α _ new current
    unfold flushed
    split
    · next he => exact he.symm
    · rfl
  simp only [flush, hself]

/-- The head row a first or later version writes. -/
def nextHead (record : PolicyRecord) : Option PolicyRow → PolicyRow
  | none => record.toRow
  | some row => row.flush record row

/-- The store with the head row of an accepted record written. -/
def PolicyDb.withHead (d : PolicyDb) (t : Txn) (record : PolicyRecord) : PolicyDb :=
  let row := nextHead record (d.policies.committed record.policyId)
  { d with policies := d.policies.write t record.policyId row }

def PolicyDb.withVersion (d : PolicyDb) (t : Txn) (record : PolicyRecord) : PolicyDb :=
  let key := (record.policyId, record.policyVersion)
  { d with versions := d.versions.write t key record.toVersionRow }

theorem eval_flushPolicy (hq : d.Quiet) :
    (flushPolicy record (d.policies.committed record.policyId)).eval t d =
      some (.ok (), d.withHead t record) := by
  have hfree : d.policies.free t record.policyId = true :=
    Table.free_iff.mpr (by simp [hq.policies record.policyId])
  cases hrow : d.policies.committed record.policyId with
  | none =>
      simp [flushPolicy, Prog.checked, Prog.eval_bind, Prog.eval_exec, insertPolicy,
        Table.insertOrIgnore, hfree, hq.visible_policy, hrow, PolicyDb.withHead, nextHead]
  | some row =>
      simp [flushPolicy, Prog.checked, Prog.eval_bind, Prog.eval_exec, updatePolicy,
        Table.updateWhere, hfree, hq.visible_policy, hrow, PolicyDb.withHead, nextHead]

theorem eval_insertPolicyVersion (hq : d.Quiet)
    (hmax : (getMaxVersion record.policyId t d).filter (record.policyVersion ≤ ·) = none) :
    (Prog.checked (insertPolicyVersion record) : Prog PolicyDb PolicyError Unit).eval t
        (d.withHead t record) =
      some (.ok (), (d.withHead t record).withVersion t record) := by
  have hmax' : (getMaxVersion record.policyId t (d.withHead t record)).filter
      (record.policyVersion ≤ ·) = none := hmax
  have hhead : ((d.withHead t record).policies.visible t record.policyId).isSome = true := by
    simp [PolicyDb.withHead]
  have hfree : d.versions.free t (record.policyId, record.policyVersion) = true :=
    Table.free_iff.mpr (by simp [hq.versions _])
  have hnew : d.versions.visible t (record.policyId, record.policyVersion) = none := by
    cases hv : d.versions.visible t (record.policyId, record.policyVersion) with
    | none => rfl
    | some v => exact absurd (lt_of_getMaxVersion hmax hv) (Nat.lt_irrefl _)
  have hins : (d.withHead t record).versions.insertOrIgnore t
      (record.policyId, record.policyVersion) record.toVersionRow =
        some (true, ((d.withHead t record).withVersion t record).versions) := by
    show d.versions.insertOrIgnore _ _ _ = _
    simp [Table.insertOrIgnore, hfree, hnew, PolicyDb.withVersion, PolicyDb.withHead]
  rw [Prog.checked, Prog.eval_bind, Prog.eval_exec]
  simp [insertPolicyVersion, hmax', hins, hhead, PolicyDb.withVersion]

theorem eval_upsertPolicy (hq : d.Quiet)
    (hmax : (getMaxVersion record.policyId t d).filter (record.policyVersion ≤ ·) = none) :
    (upsertPolicy record).eval t d =
      some (.ok (), (d.withHead t record).withVersion t record) := by
  rw [upsertPolicy, Prog.eval_bind, Prog.eval_query]
  simp only [hmax]
  rw [Prog.eval_bind, Prog.eval_query]
  simp only [hq.visible_policy]
  rw [Prog.eval_bind, eval_flushPolicy hq]
  exact eval_insertPolicyVersion hq hmax

theorem eval_intakePolicy_replay
    (hmax : (getMaxVersion record.policyId t d).filter (record.policyVersion ≤ ·) = some currentMax) :
    (intakePolicy record).eval t d =
      some (.ok (.rejectedReplay record.policyId record.policyVersion currentMax), d) := by
  rw [intakePolicy, Prog.eval_bind, Prog.eval_query]
  simp only [hmax, Prog.eval_pure]

theorem eval_intakePolicy_accept (hq : d.Quiet)
    (hmax : (getMaxVersion record.policyId t d).filter (record.policyVersion ≤ ·) = none) :
    (intakePolicy record).eval t d =
      some (.ok (.accepted record.policyId record.policyVersion record.policyType),
        (d.withHead t record).withVersion t record) := by
  rw [intakePolicy, Prog.eval_bind, Prog.eval_query]
  simp only [hmax]
  rw [Prog.eval_bind, eval_upsertPolicy hq hmax]
  rfl

/-- An intake is accepted, or changes nothing. -/
theorem atomically_intakePolicy (t : Txn) (record : PolicyRecord) (hq : d.Quiet) :
    ∃ result d', atomically t (intakePolicy record) d = some (result, d') ∧ d'.Quiet ∧
      ((Accepts result = true ∧ Accepted record d d') ∨ (Accepts result = false ∧ d' = d)) := by
  cases hmax : (getMaxVersion record.policyId t d).filter (record.policyVersion ≤ ·) with
  | some currentMax =>
      refine ⟨.ok (.rejectedReplay record.policyId record.policyVersion currentMax), d, ?_, hq,
        .inr ⟨rfl, rfl⟩⟩
      rw [atomically, eval_intakePolicy_replay hmax]
      show some (Except.ok _, PolicyDb.mk (d.policies.commit t) (d.versions.commit t)) = _
      rw [hq.policies.commit_eq_self, hq.versions.commit_eq_self]
  | none =>
      obtain ⟨hqhead, hhead⟩ := hq.policies.commit_write t record.policyId
        (nextHead record (d.policies.committed record.policyId))
      obtain ⟨hqversion, hversion⟩ := hq.versions.commit_write t
        (record.policyId, record.policyVersion) record.toVersionRow
      refine ⟨.ok (.accepted record.policyId record.policyVersion record.policyType),
        Database.commit t ((d.withHead t record).withVersion t record), by rw [atomically, eval_intakePolicy_accept hq hmax],
        ⟨hqhead, hqversion⟩, .inl ⟨rfl, ?_⟩⟩
      exact
        { newer := fun n v hv => lt_of_getMaxVersion hmax (by rw [hq.visible_version]; exact hv)
          head := by
            refine ⟨_, (hhead record.policyId).trans (if_pos rfl), ?_⟩
            cases d.policies.committed record.policyId with
            | none => exact ⟨rfl, rfl⟩
            | some row =>
                rw [nextHead, PolicyRow.flush_self]
                exact ⟨rfl, rfl⟩
          policies := fun id hid => (hhead id).trans (if_neg hid)
          version := (hversion _).trans (if_pos rfl)
          versions := fun k hk => (hversion k).trans (if_neg hk) }

end Intake

/-! ## the accepted versions -/

/-- `r` is the highest accepted version of the policy. -/
def IsLatest (accepted : List PolicyRecord) (id : String) (r : PolicyRecord) : Prop :=
  r ∈ accepted ∧ r.policyId = id ∧
    ∀ r' ∈ accepted, r'.policyId = id → r'.policyVersion ≤ r.policyVersion

/-- A store after the records it has accepted. -/
structure Stored (accepted : List PolicyRecord) (d : PolicyDb) : Prop where
  quiet : d.Quiet
  head : ∀ id row, d.policies.committed id = some row → ∃ r, IsLatest accepted id r ∧
    row.currentVersion = r.policyVersion ∧ row.effectiveFrom = r.effectiveFrom
  headed : ∀ r ∈ accepted, ∃ row, d.policies.committed r.policyId = some row
  versions : ∀ r ∈ accepted, ∃ v, d.versions.committed (r.policyId, r.policyVersion) = some v
  distinct : ∀ r ∈ accepted, ∀ r' ∈ accepted, r.policyId = r'.policyId →
    r.policyVersion = r'.policyVersion → r = r'

theorem Stored.accept (h : Stored accepted d) (hq : d'.Quiet) (ha : Accepted record d d') :
    Stored (accepted ++ [record]) d' := by
  -- every earlier version of the policy is below the new one
  have hlt : ∀ r ∈ accepted, r.policyId = record.policyId →
      r.policyVersion < record.policyVersion := by
    intro r hr hid
    obtain ⟨v, hv⟩ := h.versions r hr
    exact ha.newer r.policyVersion v (hid ▸ hv)
  refine ⟨hq, ?_, ?_, ?_, ?_⟩
  · intro id row hrow
    by_cases hid : id = record.policyId
    · subst hid
      obtain ⟨row', hrow', hver, heff⟩ := ha.head
      rw [hrow, Option.some.injEq] at hrow'
      subst hrow'
      refine ⟨record, ⟨by simp, rfl, fun r hr hrid => ?_⟩, hver, heff⟩
      rcases List.mem_append.mp hr with hr | hr
      · exact Nat.le_of_lt (hlt r hr hrid)
      · rw [List.mem_singleton.mp hr]
    · rw [ha.policies id hid] at hrow
      obtain ⟨r, ⟨hmem, hrid, hmax⟩, hver, heff⟩ := h.head id row hrow
      refine ⟨r, ⟨by simp [hmem], hrid, fun r' hr' hrid' => ?_⟩, hver, heff⟩
      rcases List.mem_append.mp hr' with hr' | hr'
      · exact hmax r' hr' hrid'
      · exact absurd (List.mem_singleton.mp hr' ▸ hrid').symm hid
  · intro r hr
    by_cases hid : r.policyId = record.policyId
    · obtain ⟨row, hrow, _⟩ := ha.head
      exact ⟨row, hid ▸ hrow⟩
    · rcases List.mem_append.mp hr with hr | hr
      · rw [ha.policies _ hid]
        exact h.headed r hr
      · exact absurd (congrArg PolicyRecord.policyId (List.mem_singleton.mp hr)) hid
  · intro r hr
    by_cases hk : (r.policyId, r.policyVersion) = (record.policyId, record.policyVersion)
    · exact ⟨_, hk ▸ ha.version⟩
    · rcases List.mem_append.mp hr with hr | hr
      · rw [ha.versions _ hk]
        exact h.versions r hr
      · exact absurd (by rw [List.mem_singleton.mp hr]) hk
  · intro r hr r' hr' hid hver
    rcases List.mem_append.mp hr with hr | hr <;> rcases List.mem_append.mp hr' with hr' | hr'
    · exact h.distinct r hr r' hr' hid hver
    · rw [List.mem_singleton.mp hr'] at hid hver
      exact absurd hver (Nat.ne_of_lt (hlt r hr hid))
    · rw [List.mem_singleton.mp hr] at hid hver
      exact absurd hver.symm (Nat.ne_of_lt (hlt r' hr' hid.symm))
    · rw [List.mem_singleton.mp hr, List.mem_singleton.mp hr']

theorem stored_intakeAll (t : Txn) (records : List PolicyRecord) (h : Stored before d) :
    ∃ accepted d', intakeAll t records d = some (accepted, d') ∧ Stored (before ++ accepted) d' := by
  induction records generalizing t before d with
  | nil => exact ⟨[], d, rfl, by simpa using h⟩
  | cons record records ih =>
      obtain ⟨result, d₁, heval, hq, ⟨hacc, ha⟩ | ⟨hacc, rfl⟩⟩ :=
        atomically_intakePolicy t record h.quiet
      · obtain ⟨accepted, d', hrest, hstored⟩ := ih (t + 1) (h.accept hq ha)
        refine ⟨record :: accepted, d', ?_, by simpa using hstored⟩
        simp [intakeAll, heval, hrest, hacc]
      · obtain ⟨accepted, d', hrest, hstored⟩ := ih (t + 1) h
        refine ⟨accepted, d', ?_, hstored⟩
        simp [intakeAll, heval, hrest, hacc]

theorem stored_empty : Stored [] PolicyDb.empty where
  quiet := ⟨fun _ => rfl, fun _ => rfl⟩
  head := by intro id row h; contradiction
  headed := by simp
  versions := by simp
  distinct := by simp

/-! ## enforcement -/

/-- The reader returns the head row of the policy, at this version, to some caller. -/
def Enforced (d : PolicyDb) (id : String) (now : DateTime) (n : Nat) : Prop :=
  ∃ tenantId policyType row, (id, row) ∈ getActivePoliciesForScope d tenantId policyType now ∧
    row.currentVersion = n

/-- The highest accepted version that is in effect. -/
def InForce (accepted : List PolicyRecord) (id : String) (now : DateTime) (n : Nat) : Prop :=
  ∃ r ∈ accepted, r.policyId = id ∧ r.effectiveFrom ≤ now ∧ r.policyVersion = n ∧
    ∀ r' ∈ accepted, r'.policyId = id → r'.effectiveFrom ≤ now → r'.policyVersion ≤ n

/-- What is enforced of the policy is the version in force. -/
def NoGap (accepted : List PolicyRecord) (d : PolicyDb) (id : String) (now : DateTime) : Prop :=
  ∀ n, Enforced d id now n ↔ InForce accepted id now n

theorem enforced_iff :
    Enforced d id now n ↔
      ∃ row, d.policies.committed id = some row ∧ row.effectiveFrom ≤ now ∧ row.currentVersion = n := by
  unfold Enforced getActivePoliciesForScope
  simp only [List.mem_insertionSort, List.mem_filter, Table.mem_rows, decide_eq_true_eq]
  constructor
  · rintro ⟨tenantId, policyType, row, ⟨hrow, _, _, heff⟩, hver⟩
    exact ⟨row, hrow, heff, hver⟩
  · rintro ⟨row, hrow, heff, hver⟩
    exact ⟨row.tenantId, row.policyType, row, ⟨hrow, rfl, rfl, heff⟩, hver⟩

theorem Stored.enforced_iff (h : Stored accepted d) (hr : IsLatest accepted id r) (now : DateTime)
    (n : Nat) : Enforced d id now n ↔ r.effectiveFrom ≤ now ∧ r.policyVersion = n := by
  obtain ⟨row, hrow⟩ := h.headed r hr.1
  rw [hr.2.1] at hrow
  obtain ⟨r', hr', hver, heff⟩ := h.head id row hrow
  have hsame : r' = r := h.distinct r' hr'.1 r hr.1 (hr'.2.1.trans hr.2.1.symm)
    (Nat.le_antisymm (hr.2.2 r' hr'.1 hr'.2.1) (hr'.2.2 r hr.1 hr.2.1))
  subst hsame
  rw [Sentinel.enforced_iff]
  constructor
  · rintro ⟨row', hrow', heff', hver'⟩
    rw [hrow, Option.some.injEq] at hrow'
    subst hrow'
    exact ⟨heff ▸ heff', hver ▸ hver'⟩
  · rintro ⟨heff', hver'⟩
    exact ⟨row, hrow, heff ▸ heff', hver.trans hver'⟩

def versionsInEffect (accepted : List PolicyRecord) (id : String) (now : DateTime) : List Nat :=
  (accepted.filter fun r => r.policyId = id ∧ r.effectiveFrom ≤ now).map PolicyRecord.policyVersion

theorem mem_versionsInEffect :
    n ∈ versionsInEffect accepted id now ↔
      ∃ r ∈ accepted, r.policyId = id ∧ r.effectiveFrom ≤ now ∧ r.policyVersion = n := by
  simp [versionsInEffect, and_assoc]

theorem exists_inForce (h : ∃ r ∈ accepted, r.policyId = id ∧ r.effectiveFrom ≤ now) :
    ∃ n, InForce accepted id now n := by
  cases hmax : (versionsInEffect accepted id now).max? with
  | none =>
      obtain ⟨r, hr, hid, heff⟩ := h
      have hne := mem_versionsInEffect.mpr ⟨r, hr, hid, heff, rfl⟩
      rw [List.max?_eq_none_iff.mp hmax] at hne
      exact absurd hne List.not_mem_nil
  | some n =>
      obtain ⟨hin, hle⟩ := List.max?_eq_some_iff.mp hmax
      obtain ⟨r, hr, hid, heff, hver⟩ := mem_versionsInEffect.mp hin
      refine ⟨n, r, hr, hid, heff, hver, fun r' hr' hid' heff' => ?_⟩
      exact hle r'.policyVersion (mem_versionsInEffect.mpr ⟨r', hr', hid', heff', rfl⟩)

/-- **Scheduled versions**: after any sequence of deliveries, at a time when some accepted
version of a policy is in effect, what is enforced is the version in force exactly when
the highest accepted version is in effect. -/
theorem noGap_iff (t : Txn) (records accepted : List PolicyRecord) (d : PolicyDb)
    (hrun : intakeAll t records PolicyDb.empty = some (accepted, d)) (id : String)
    (now : DateTime) (hsome : ∃ r ∈ accepted, r.policyId = id ∧ r.effectiveFrom ≤ now) :
    NoGap accepted d id now ↔ ∃ r, IsLatest accepted id r ∧ r.effectiveFrom ≤ now := by
  have hstored : Stored accepted d := by
    obtain ⟨accepted', d', hrun', hstored⟩ := stored_intakeAll t records stored_empty
    rw [hrun, Option.some.injEq, Prod.mk.injEq] at hrun'
    obtain ⟨rfl, rfl⟩ := hrun'
    exact hstored
  obtain ⟨r, hr⟩ : ∃ r, IsLatest accepted id r := by
    obtain ⟨r₀, hr₀, rfl, _⟩ := hsome
    obtain ⟨row, hrow⟩ := hstored.headed r₀ hr₀
    exact (hstored.head _ row hrow).imp fun _ h => h.1
  constructor
  · intro hgap
    obtain ⟨n, hn⟩ := exists_inForce hsome
    exact ⟨r, hr, ((hstored.enforced_iff hr now n).mp ((hgap n).mpr hn)).1⟩
  · rintro ⟨r', hr', heff⟩ n
    rw [hstored.enforced_iff hr' now n]
    constructor
    · rintro ⟨_, rfl⟩
      exact ⟨r', hr'.1, hr'.2.1, heff, rfl, fun r'' hr'' hid _ => hr'.2.2 r'' hr'' hid⟩
    · rintro ⟨r'', hr'', hid, _, rfl, hmax⟩
      exact ⟨heff, Nat.le_antisymm (hmax r' hr'.1 hr'.2.1 heff) (hr'.2.2 r'' hr'' hid)⟩

section Sample

def sampleMidMonth : DateTime := .ofFields 2026 7 15 0 0 0 0 (Eq.refl true)

def sampleNextMonth : DateTime := .ofFields 2026 8 1 0 0 0 0 (Eq.refl true)

def sampleV1 : PolicyRecord := samplePolicy 0 samplePolicyTime

def sampleV2 : PolicyRecord := samplePolicy 1 sampleNextMonth

/-- In the middle of the month version 1 is in force, and nothing is enforced. -/
theorem scheduled_version_opens_gap : ∃ d,
    intakeAll 1 [sampleV1, sampleV2] PolicyDb.empty = some ([sampleV1, sampleV2], d) ∧
      getActivePoliciesForScope d sampleV1.tenantId .budgetLimit sampleMidMonth = [] ∧
      InForce [sampleV1, sampleV2] sampleV1.policyId sampleMidMonth 1 ∧
      ¬ NoGap [sampleV1, sampleV2] d sampleV1.policyId sampleMidMonth := by
  have hrun : (intakeAll 1 [sampleV1, sampleV2] PolicyDb.empty).map (fun q =>
      (q.1, getActivePoliciesForScope q.2 sampleV1.tenantId .budgetLimit sampleMidMonth,
        (q.2.policies.committed sampleV1.policyId).map PolicyRow.effectiveFrom)) =
      some ([sampleV1, sampleV2], [], some sampleNextMonth) := by
    decide +kernel
  obtain ⟨⟨accepted, d⟩, hd, he⟩ := Option.map_eq_some_iff.mp hrun
  simp only [Prod.mk.injEq] at he
  obtain ⟨rfl, hactive, hhead⟩ := he
  have hforce : InForce [sampleV1, sampleV2] sampleV1.policyId sampleMidMonth 1 :=
    ⟨sampleV1, by simp, rfl, by decide, rfl, by decide⟩
  refine ⟨d, hd, hactive, hforce, fun hgap => ?_⟩
  obtain ⟨row, hrow, heff, _⟩ := enforced_iff.mp ((hgap 1).mpr hforce)
  rw [hrow, Option.map_some, Option.some.injEq] at hhead
  rw [hhead] at heff
  exact absurd heff (by decide)

/-- When the month is over, the second version is the one enforced. -/
theorem noGap_iff_next_month : ∃ d,
    intakeAll 1 [sampleV1, sampleV2] PolicyDb.empty = some ([sampleV1, sampleV2], d) ∧
      NoGap [sampleV1, sampleV2] d sampleV1.policyId sampleNextMonth := by
  have hrun : (intakeAll 1 [sampleV1, sampleV2] PolicyDb.empty).map Prod.fst =
      some [sampleV1, sampleV2] := by
    decide +kernel
  obtain ⟨⟨accepted, d⟩, hd, rfl⟩ := Option.map_eq_some_iff.mp hrun
  refine ⟨d, hd, (noGap_iff 1 _ _ d hd sampleV1.policyId sampleNextMonth ?_).mpr ?_⟩
  · exact ⟨sampleV1, by simp, rfl, by decide⟩
  · exact ⟨sampleV2, ⟨by simp, rfl, by decide⟩, by decide⟩

end Sample

end Anoryx.Sentinel
