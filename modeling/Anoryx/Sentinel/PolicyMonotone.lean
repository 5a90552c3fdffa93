import Anoryx.Sentinel.PolicyStore

/-!
# Anoryx.Sentinel.PolicyMonotone

The head row of a policy names its highest version, in every state that any
interleaving of intakes reaches, and the version it names never goes back.

The row lock on the head row carries the argument.  A transaction writes the head
row before the version row, so whoever has a version in flight holds the policy's
head row (`held`), and while it does nobody else can add a version: the maximum
the trigger reads is still the maximum at commit.
-/

namespace Anoryx.Sentinel

open ReadCommitted Table Logic

/-! ## the invariant -/

/-- Under one reading of the version table, the head row of `id` carries the payload
of the version it names, and no version is higher. -/
structure Heads (id : String) (row : PolicyRow) (version : String × Nat → Option PolicyVersionRow) :
    Prop where
  named : ∃ v, version (id, row.currentVersion) = some v ∧ v.policyPayload = row.policyPayload
  highest : ∀ n v, version (id, n) = some v → n ≤ row.currentVersion

structure PolicyInv (d : PolicyDb) : Prop where
  versions : d.versions.InsertOnly
  heads : ∀ id row, d.policies.committed id = some row → Heads id row d.versions.committed
  headed : ∀ id n v, d.versions.committed (id, n) = some v → ∃ row, d.policies.committed id = some row
  held : ∀ id n t v, d.versions.inflight (id, n) = some (t, v) →
    ∃ row, d.policies.inflight id = some (t, row)
  stamped : ∀ id n v, d.versions.HasVersion (id, n) v → v.policyPayload.policyVersion = n

/-- What the intake `u` may rely on. -/
structure PolicyRely (u : Txn) (d d' : PolicyDb) : Prop where
  policies : Frame u d.policies d'.policies
  versions : Frame u d.versions d'.versions
  grows : Grows d.versions d'.versions
  locked : ∀ id row n, d.policies.inflight id = some (u, row) →
    d'.versions.committed (id, n) = d.versions.committed (id, n)
  advances : ∀ id row, d.policies.committed id = some row →
    ∃ row', d'.policies.committed id = some row' ∧ row.currentVersion ≤ row'.currentVersion

/-- `t` has nothing in flight. -/
structure PolicyFresh (t : Txn) (d : PolicyDb) : Prop where
  policies : ∀ k v, d.policies.inflight k ≠ some (t, v)
  versions : ∀ k v, d.versions.inflight k ≠ some (t, v)

/-- Every head row that `t` would commit now heads the versions it sees. -/
def Consistent (t : Txn) (d : PolicyDb) : Prop :=
  ∀ id row, d.policies.inflight id = some (t, row) → Heads id row (d.versions.visible t)

def policyLogic : Logic PolicyDb PolicyRecord IntakeResult where
  inv := PolicyInv
  rely := PolicyRely
  fresh := PolicyFresh
  post t _ _ d := Consistent t d
  ensures t _ _ d := PolicyFresh t d
  undone := PolicyFresh

variable {t u : Txn} {d d' : PolicyDb}

/-! ## relies -/

theorem PolicyRely.refl (u : Txn) (d : PolicyDb) : PolicyRely u d d where
  policies := .refl u _
  versions := .refl u _
  grows := .refl _
  locked _ _ _ _ := rfl
  advances _ row h := ⟨row, h, Nat.le_refl _⟩

theorem PolicyRely.trans {d₁ d₂ d₃ : PolicyDb} (h₁ : PolicyRely u d₁ d₂)
    (h₂ : PolicyRely u d₂ d₃) : PolicyRely u d₁ d₃ where
  policies := h₁.policies.trans h₂.policies
  versions := h₁.versions.trans h₂.versions
  grows := h₁.grows.trans h₂.grows
  locked id row n h :=
    (h₂.locked id row n ((h₁.policies.inflight id row).mp h)).trans (h₁.locked id row n h)
  advances id row h := by
    obtain ⟨row₁, hrow₁, hle₁⟩ := h₁.advances id row h
    obtain ⟨row₂, hrow₂, hle₂⟩ := h₂.advances id row₁ hrow₁
    exact ⟨row₂, hrow₂, Nat.le_trans hle₁ hle₂⟩

theorem PolicyFresh.rely (hr : PolicyRely t d d') (h : PolicyFresh t d) : PolicyFresh t d' where
  policies k v hv := h.policies k v ((hr.policies.inflight k v).mpr hv)
  versions k v hv := h.versions k v ((hr.versions.inflight k v).mpr hv)

variable {row : PolicyRow} {id : String}

theorem PolicyRely.visible (hr : PolicyRely t d d')
    (h : d.policies.inflight id = some (t, row)) (n : Nat) :
    d'.versions.visible t (id, n) = d.versions.visible t (id, n) :=
  hr.versions.visible_eq (hr.locked id row n h)

theorem Consistent.rely (hr : PolicyRely t d d') (h : Consistent t d) : Consistent t d' := by
  intro id row hin
  have hold := (hr.policies.inflight id row).mpr hin
  obtain ⟨⟨v, hv, hpayload⟩, hmax⟩ := h id row hold
  refine ⟨⟨v, by rw [hr.visible hold]; exact hv, hpayload⟩, fun n v' hv' => ?_⟩
  rw [hr.visible hold] at hv'
  exact hmax n v' hv'

theorem PolicyFresh.consistent (h : PolicyFresh t d) : Consistent t d :=
  fun id row hin => absurd hin (h.policies id row)

/-! ## the end of a transaction -/

theorem PolicyInv.visible_unheld (hi : PolicyInv d)
    (h : ∀ row, d.policies.inflight id ≠ some (t, row)) (n : Nat) :
    d.versions.visible t (id, n) = d.versions.committed (id, n) := by
  refine visible_of_no_inflight fun v hv => ?_
  obtain ⟨row, hrow⟩ := hi.held id n t v hv
  exact h row hrow

theorem PolicyInv.commit (hi : PolicyInv d) (hc : Consistent t d) :
    PolicyInv (Database.commit t d) where
  versions := hi.versions.commit t
  heads id row hrow := by
    show Heads id row (d.versions.visible t)
    rcases visible_cases d.policies t id with ⟨row', hin, hvis⟩ | ⟨hno, hvis⟩
    · have he : row' = row := Option.some.inj (hvis.symm.trans hrow)
      exact hc id row (he ▸ hin)
    · obtain ⟨⟨v, hv, hpayload⟩, hmax⟩ := hi.heads id row (hvis ▸ hrow)
      refine ⟨⟨v, by rw [hi.visible_unheld hno]; exact hv, hpayload⟩, fun n v' hv' => ?_⟩
      rw [hi.visible_unheld hno] at hv'
      exact hmax n v' hv'
  headed id n v hv := by
    show ∃ row, d.policies.visible t id = some row
    rcases visible_cases d.policies t id with ⟨row, _, hvis⟩ | ⟨hno, hvis⟩
    · exact ⟨row, hvis⟩
    · rw [hvis]
      have hv : d.versions.visible t (id, n) = some v := hv
      rw [hi.visible_unheld hno] at hv
      exact hi.headed id n v hv
  held id n t' v hin := by
    obtain ⟨hin, hne⟩ := inflight_commit_eq_some.mp hin
    obtain ⟨row, hrow⟩ := hi.held id n t' v hin
    exact ⟨row, inflight_commit_eq_some.mpr ⟨hrow, hne⟩⟩
  stamped id n v h := hi.stamped id n v h.of_commit

theorem PolicyInv.rollback (hi : PolicyInv d) : PolicyInv (Database.rollback t d) where
  versions := hi.versions.rollback t
  heads := hi.heads
  headed := hi.headed
  held id n t' v hin := by
    obtain ⟨hin, hne⟩ := inflight_rollback_eq_some.mp hin
    obtain ⟨row, hrow⟩ := hi.held id n t' v hin
    exact ⟨row, inflight_rollback_eq_some.mpr ⟨hrow, hne⟩⟩
  stamped id n v h := hi.stamped id n v h.of_rollback

theorem PolicyRely.commit (hi : PolicyInv d) (hc : Consistent t d) (hne : u ≠ t) :
    PolicyRely u d (Database.commit t d) where
  policies := frame_commit _ hne
  versions := frame_commit _ hne
  grows := hi.versions.grows_commit t
  locked id row n hin := by
    refine hi.visible_unheld (fun row' hin' => ?_) n
    rw [hin, Option.some.injEq, Prod.mk.injEq] at hin'
    exact hne hin'.1
  advances id row hrow := by
    show ∃ row', d.policies.visible t id = some row' ∧ _
    rcases visible_cases d.policies t id with ⟨row', hin, hvis⟩ | ⟨_, hvis⟩
    · refine ⟨row', hvis, ?_⟩
      obtain ⟨⟨v, hv, _⟩, _⟩ := hi.heads id row hrow
      exact (hc id row' hin).highest row.currentVersion v (hi.versions.grows_commit t _ _ hv)
    · exact ⟨row, hvis.trans hrow, Nat.le_refl _⟩

theorem PolicyRely.rollback (hne : u ≠ t) : PolicyRely u d (Database.rollback t d) where
  policies := frame_rollback _ hne
  versions := frame_rollback _ hne
  grows _ _ h := h
  locked _ _ _ _ := rfl
  advances _ row h := ⟨row, h, Nat.le_refl _⟩

theorem PolicyFresh.commit (t : Txn) (d : PolicyDb) : PolicyFresh t (Database.commit t d) where
  policies _ _ h := (inflight_commit_eq_some.mp h).2 rfl
  versions _ _ h := (inflight_commit_eq_some.mp h).2 rfl

theorem PolicyFresh.rollback (t : Txn) (d : PolicyDb) : PolicyFresh t (Database.rollback t d) where
  policies _ _ h := (inflight_rollback_eq_some.mp h).2 rfl
  versions _ _ h := (inflight_rollback_eq_some.mp h).2 rfl

/-! ## statements -/

theorem policy_keeps_head (hi : PolicyInv d)
    (hfree : d.policies.free t id = true) :
    policyLogic.Keeps t d { d with policies := d.policies.write t id row } where
  inv :=
    { versions := hi.versions
      heads := hi.heads
      headed := hi.headed
      held := by
        intro id' n t' v hin
        obtain ⟨row', hrow'⟩ := hi.held id' n t' v hin
        by_cases hid : id' = id
        · subst hid
          have ht : t' = t := free_iff.mp hfree t' row' hrow'
          exact ⟨row, by rw [ht]; exact inflight_write_self _ _ _ _⟩
        · exact ⟨row', by rw [inflight_write_of_ne hid]; exact hrow'⟩
      stamped := hi.stamped }
  rely u hne :=
    { policies := frame_write hne hfree
      versions := .refl u _
      grows := .refl _
      locked := fun _ _ _ _ => rfl
      advances := fun _ row' h => ⟨row', h, Nat.le_refl _⟩ }

variable {record : PolicyRecord}

variable {versions : Table (String × Nat) PolicyVersionRow} {loaded : PolicyRow}

theorem policy_keeps_version {x : Bool} (hi : PolicyInv d)
    (hrow : d.policies.inflight record.policyId = some (t, row))
    (h : d.versions.insertOrIgnore t (record.policyId, record.policyVersion) record.toVersionRow =
      some (x, versions)) : policyLogic.Keeps t d { d with versions := versions } where
  inv :=
    { versions := hi.versions.insertOrIgnore h
      heads := by
        rw [committed_insertOrIgnore h]
        exact hi.heads
      headed := by
        rw [committed_insertOrIgnore h]
        exact hi.headed
      held := by
        intro id n t' v hin
        rcases insertOrIgnore_cases h with ⟨_, rfl, _⟩ | ⟨_, rfl, _⟩
        · exact hi.held id n t' v hin
        · rcases inflight_write_cases hin with ⟨hk, rfl, -⟩ | ⟨-, hin⟩
          · obtain ⟨rfl, -⟩ := Prod.mk.inj hk
            exact ⟨row, hrow⟩
          · exact hi.held id n t' v hin
      stamped := by
        intro id n v hv
        rcases insertOrIgnore_cases h with ⟨_, rfl, _⟩ | ⟨_, rfl, _⟩
        · exact hi.stamped id n v hv
        · rcases hv.of_write with hv | ⟨hk, rfl⟩
          · exact hi.stamped id n v hv
          · rw [Prod.mk.injEq] at hk
            exact hk.2.symm }
  rely u hne :=
    { policies := .refl u _
      versions := frame_insertOrIgnore h hne
      grows := fun k v hv => by rw [committed_insertOrIgnore h]; exact hv
      locked := fun id row n _ => by rw [committed_insertOrIgnore h]
      advances := fun _ row' h => ⟨row', h, Nat.le_refl _⟩ }

/-! ## the version check -/

theorem lt_of_getMaxVersion {n : Nat}
    (h : (getMaxVersion id t d).filter (n ≤ ·) = none) {m : Nat} {v : PolicyVersionRow}
    (hv : d.versions.visible t (id, m) = some v) : m < n := by
  have hmem : m ∈ ((d.versions.scan t).filter fun p => p.1.1 = id).map fun p => p.1.2 :=
    List.mem_map.mpr ⟨((id, m), v), List.mem_filter.mpr ⟨mem_scan.mpr hv, by simp⟩, rfl⟩
  cases hmax : getMaxVersion id t d with
  | none =>
      rw [getMaxVersion, List.max?_eq_none_iff] at hmax
      rw [hmax] at hmem
      contradiction
  | some best =>
      have hle : m ≤ best := (List.max?_eq_some_iff.mp hmax).2 m hmem
      have hlt : ¬ n ≤ best := by
        rw [hmax] at h
        simpa using h
      omega

/-- `t` has written the head row of its record, and nothing else; the UPDATE gave it
the record's version and payload, unless the record's version is there already. -/
structure HeadTaken (t : Txn) (record : PolicyRecord) (d : PolicyDb) : Prop where
  row : ∃ row, d.policies.inflight record.policyId = some (t, row) ∧
    ((row.currentVersion = record.policyVersion ∧ row.policyPayload = record) ∨
      ∃ v, d.versions.committed (record.policyId, record.policyVersion) = some v)
  only : ∀ id row, d.policies.inflight id = some (t, row) → id = record.policyId
  versions : ∀ k v, d.versions.inflight k ≠ some (t, v)

theorem HeadTaken.rely (hr : PolicyRely t d d')
    (h : HeadTaken t record d) : HeadTaken t record d' where
  row := by
    obtain ⟨row, hin, hcase⟩ := h.row
    refine ⟨row, (hr.policies.inflight _ row).mp hin, hcase.imp id ?_⟩
    exact fun ⟨v, hv⟩ => ⟨v, hr.grows _ v hv⟩
  only id row hin := h.only id row ((hr.policies.inflight id row).mpr hin)
  versions k v hv := h.versions k v ((hr.versions.inflight k v).mpr hv)

theorem PolicyFresh.headTaken (record : PolicyRecord) (h : PolicyFresh t d)
    (hcase : (row.currentVersion = record.policyVersion ∧ row.policyPayload = record) ∨
      ∃ v, d.versions.committed (record.policyId, record.policyVersion) = some v) :
    HeadTaken t record { d with policies := d.policies.write t record.policyId row } where
  row := ⟨row, inflight_write_self _ _ _ _, hcase⟩
  only id row' hin := by
    by_contra hid
    rw [inflight_write_of_ne hid] at hin
    exact h.policies id row' hin
  versions := h.versions

theorem PolicyRow.flush_cases (record : PolicyRecord) (row : PolicyRow)
    (h : loaded.policyPayload.policyVersion = loaded.currentVersion) :
    ((loaded.flush record row).currentVersion = record.policyVersion ∧
        (loaded.flush record row).policyPayload = record) ∨
      record.policyVersion = loaded.currentVersion := by
  by_cases hver : record.policyVersion = loaded.currentVersion
  · exact .inr hver
  · have hpayload : record ≠ loaded.policyPayload := by
      rintro rfl
      exact hver h
    exact .inl ⟨by simp [flush, flushed, hver], by simp [flush, flushed, hpayload]⟩

/-! ## programs -/

variable {x : Except PolicyError Unit}

theorem insertPolicy_cases
    (h : insertPolicy record t d = some (x, d')) :
    ((∃ e, x = .error e) ∧ d' = d) ∨
      (x = .ok () ∧ d.policies.free t record.policyId = true ∧
        d' = { d with policies := d.policies.write t record.policyId record.toRow }) := by
  unfold insertPolicy at h
  split at h
  · contradiction
  · cases h
    exact .inl ⟨⟨_, rfl⟩, rfl⟩
  · next policies hins =>
      cases h
      rcases insertOrIgnore_cases hins with ⟨hf, _⟩ | ⟨_, rfl, hin, _⟩
      · contradiction
      · exact .inr ⟨rfl, free_iff.mpr (by simp [hin]), rfl⟩

theorem updatePolicy_cases (h : updatePolicy loaded record t d = some (x, d')) :
    ((∃ e, x = .error e) ∧ d' = d) ∨
      (x = .ok () ∧ d.policies.free t record.policyId = true ∧
        ∃ row, d.policies.visible t record.policyId = some row ∧
          d' = { d with policies := d.policies.write t record.policyId (loaded.flush record row) }) := by
  unfold updatePolicy at h
  split at h
  · contradiction
  · cases h
    exact .inl ⟨⟨_, rfl⟩, rfl⟩
  · next row' policies hupd =>
      cases h
      rcases updateWhere_cases hupd with ⟨hnone, _⟩ | ⟨row, hvis, _, hfree, _, rfl⟩
      · contradiction
      · exact .inr ⟨rfl, hfree, row, hvis, rfl⟩

theorem insertPolicyVersion_cases
    (h : insertPolicyVersion record t d = some (x, d')) :
    ((∃ e, x = .error e) ∧ d' = d) ∨
      (x = .ok () ∧ (getMaxVersion record.policyId t d).filter (record.policyVersion ≤ ·) = none ∧
        ∃ versions, d.versions.insertOrIgnore t (record.policyId, record.policyVersion)
            record.toVersionRow = some (true, versions) ∧ d' = { d with versions := versions }) := by
  unfold insertPolicyVersion at h
  split at h
  · cases h
    exact .inl ⟨⟨_, rfl⟩, rfl⟩
  · next hmax =>
      split at h
      · contradiction
      · cases h
        exact .inl ⟨⟨_, rfl⟩, rfl⟩
      · next versions hins =>
          split at h
          · cases h
            exact .inr ⟨rfl, hmax, versions, hins, rfl⟩
          · cases h
            exact .inl ⟨⟨_, rfl⟩, rfl⟩

theorem policy_keeps_self (hi : PolicyInv d) : policyLogic.Keeps t d d :=
  ⟨hi, fun u _ => PolicyRely.refl u d⟩

/-- A flush takes the head of the version that was loaded. -/
theorem wp_flushPolicy {loaded : Option PolicyRow}
    (hfresh : PolicyFresh t d)
    (hloaded : ∀ row, loaded = some row → row.policyPayload.policyVersion = row.currentVersion ∧
      ∃ v, d.versions.committed (record.policyId, row.currentVersion) = some v) :
    policyLogic.wp t (fun _ => HeadTaken t record) (flushPolicy record loaded) d := by
  cases loaded with
  | none =>
      refine wp_checked fun d₁ hi hr x d₂ hins _ => ?_
      rcases insertPolicy_cases hins with ⟨⟨e, rfl⟩, rfl⟩ | ⟨rfl, hfree, rfl⟩
      · exact ⟨policy_keeps_self hi, by simp⟩
      · refine ⟨policy_keeps_head hi hfree, fun _ _ e _ hr' => ?_⟩
        exact ((hfresh.rely hr).headTaken record (.inl ⟨rfl, rfl⟩)).rely hr'
  | some row =>
      obtain ⟨hpayload, v, hv⟩ := hloaded row rfl
      refine wp_checked fun d₁ hi hr x d₂ hupd _ => ?_
      rcases updatePolicy_cases hupd with ⟨⟨e, rfl⟩, rfl⟩ | ⟨rfl, hfree, current, _, rfl⟩
      · exact ⟨policy_keeps_self hi, by simp⟩
      · refine ⟨policy_keeps_head hi hfree, fun _ _ e _ hr' => ?_⟩
        refine ((hfresh.rely hr).headTaken record ?_).rely hr'
        rcases PolicyRow.flush_cases record current hpayload with hset | hver
        · exact .inl hset
        · exact .inr ⟨v, by rw [hver]; exact hr.grows _ v hv⟩

/-- The version that is inserted is the head's. -/
theorem HeadTaken.consistent (h : HeadTaken t record d)
    (hmax : (getMaxVersion record.policyId t d).filter (record.policyVersion ≤ ·) = none)
    (hins : d.versions.insertOrIgnore t (record.policyId, record.policyVersion)
      record.toVersionRow = some (true, versions)) :
    Consistent t { d with versions := versions } := by
  obtain ⟨row, hrow, hcase⟩ := h.row
  have hset : row.currentVersion = record.policyVersion ∧ row.policyPayload = record := by
    refine hcase.resolve_right fun ⟨v, hv⟩ => ?_
    rw [← visible_of_no_inflight (h.versions _)] at hv
    exact Nat.lt_irrefl _ (lt_of_getMaxVersion hmax hv)
  rcases insertOrIgnore_cases hins with ⟨hf, _⟩ | ⟨_, rfl, _⟩
  · contradiction
  · intro id row' hin
    have hid := h.only id row' hin
    subst hid
    have hsame : row' = row := by
      rw [hrow, Option.some.injEq, Prod.mk.injEq] at hin
      exact hin.2.symm
    subst hsame
    refine ⟨⟨record.toVersionRow, ?_, hset.2.symm⟩, fun n v hv => ?_⟩
    · rw [hset.1]
      exact visible_write_self _ _ _ _
    · by_cases hn : n = record.policyVersion
      · rw [hn, hset.1]
      · rw [visible_write_of_ne (by simpa using hn)] at hv
        have := lt_of_getMaxVersion hmax hv
        omega

theorem wp_insertPolicyVersion (h : HeadTaken t record d) :
    policyLogic.wp t (fun _ => Consistent t) (Prog.checked (insertPolicyVersion record)) d := by
  refine wp_checked fun d₁ hi hr x d₂ hins _ => ?_
  have h₁ := h.rely hr
  rcases insertPolicyVersion_cases hins with ⟨⟨e, rfl⟩, rfl⟩ | ⟨rfl, hmax, versions, hrow, rfl⟩
  · exact ⟨policy_keeps_self hi, by simp⟩
  · obtain ⟨row, hhead, _⟩ := h₁.row
    refine ⟨policy_keeps_version hi hhead hrow, fun _ _ e _ hr' => ?_⟩
    exact (h₁.consistent hmax hrow).rely hr'

theorem wp_upsertPolicy (hfresh : PolicyFresh t d) :
    policyLogic.wp t (fun _ => Consistent t) (upsertPolicy record) d := by
  refine wp_query_bind PolicyRely.refl fun d₁ hi₁ hr₁ => ?_
  have hfresh₁ := hfresh.rely hr₁
  split
  · trivial
  · refine wp_query_bind PolicyRely.refl fun d₂ hi₂ hr₂ => ?_
    have hfresh₂ := hfresh₁.rely hr₂
    refine wp_bind (PolicyRely.refl t) hi₂ (wp_mono ?_ (wp_flushPolicy hfresh₂ ?_))
    · exact fun _ d₃ _ h₃ => wp_insertPolicyVersion h₃
    · intro row hrow
      rw [visible_of_no_inflight (hfresh₂.policies _)] at hrow
      obtain ⟨v, hv, hpayload⟩ := (hi₂.heads _ row hrow).named
      exact ⟨by rw [← hpayload]; exact hi₂.stamped _ _ v (.inl hv), v, hv⟩

theorem wp_intakePolicy (hfresh : PolicyFresh t d) :
    policyLogic.wp t (fun _ => Consistent t) (intakePolicy record) d := by
  refine wp_query_bind PolicyRely.refl fun d₁ hi₁ hr₁ => ?_
  have hfresh₁ := hfresh.rely hr₁
  split
  · exact fun d₂ _ hr₂ => (hfresh₁.rely hr₂).consistent
  · refine wp_bind (PolicyRely.refl t) hi₁ (wp_mono ?_ (wp_upsertPolicy hfresh₁))
    exact fun _ d₂ _ h₂ d₃ _ hr₃ => h₂.rely hr₃

theorem policy_sound : policyLogic.Sound intakePolicy where
  refl := PolicyRely.refl
  trans := PolicyRely.trans
  fresh_rely _ hr h := h.rely hr
  ensures_rely _ hr h := h.rely hr
  undone_rely _ hr h := h.rely hr
  body _ _ h := wp_intakePolicy h
  commit hi hc := ⟨⟨hi.commit hc, fun _ hne => PolicyRely.commit hi hc hne⟩, PolicyFresh.commit _ _⟩
  rollback hi := ⟨⟨hi.rollback, fun _ hne => PolicyRely.rollback hne⟩, PolicyFresh.rollback _ _⟩

theorem policy_ok_init : policyLogic.Ok PolicySys.init where
  inv :=
    { versions := insertOnly_empty
      heads := by intro id row h; contradiction
      headed := by intro id n v h; contradiction
      held := by intro id n t v h; contradiction
      stamped := by
        intro id n v h
        rcases h with h | ⟨t, h⟩ <;> contradiction }
  procs t := ⟨by intro k v h; contradiction, by intro k v h; contradiction⟩

theorem policy_ok {as : List (Action PolicyRecord)} {s : PolicySys}
    (h : run intakePolicy PolicySys.init as = some s) : policyLogic.Ok s :=
  policy_sound.run policy_ok_init
    (everyStep_permits (fun _ => trivial) (fun _ _ _ => trivial) as) h

/-! ## the head row -/

/-- The policy store, in a state and in every state after it. -/
structure Monotone (s : PolicySys) : Prop where
  /-- the head row names the highest stored version and carries its payload -/
  heads : ∀ id row, s.db.policies.committed id = some row → Heads id row s.db.versions.committed
  /-- a stored version has a head row -/
  headed : ∀ id n v, s.db.versions.committed (id, n) = some v →
    ∃ row, s.db.policies.committed id = some row
  /-- whatever runs next, the head row stays and its version does not go back -/
  advances : ∀ as s', run intakePolicy s as = some s' →
    ∀ id row, s.db.policies.committed id = some row →
      ∃ row', s'.db.policies.committed id = some row' ∧ row.currentVersion ≤ row'.currentVersion

/-- **Policy monotonicity**: every interleaving of intakes, with aborts anywhere, keeps
each policy's head row at its highest version. -/
theorem policy_monotone (as : List (Action PolicyRecord)) (s : PolicySys)
    (h : run intakePolicy PolicySys.init as = some s) : Monotone s := by
  have hok := policy_ok h
  have hi : PolicyInv s.db := hok.inv
  refine ⟨hi.heads, hi.headed, fun as' s' hrun => ?_⟩
  obtain ⟨u, hu⟩ := exists_bystander as'
  have hrely : PolicyRely u s.db s'.db := policy_sound.run_rely hok
    (everyStep_permits (fun _ => trivial) (fun _ _ _ => trivial) as') hu hrun
  exact hrely.advances

section Sample

def samplePolicyTime : DateTime := .ofFields 2026 7 1 0 0 0 0 (Eq.refl true)

/-- A daily cost cap for a team: the version after `n`. -/
def samplePolicy (n : Nat) (effectiveFrom : DateTime) : PolicyRecord where
  policyId := "55555555-5555-4555-8555-555555555555"
  policyVersion := n + 1
  tenantId := "11111111-1111-4111-8111-111111111111"
  teamId := "22222222-2222-4222-8222-222222222222"
  projectId := "33333333-3333-4333-8333-333333333333"
  agentId := "billing-agent"
  effectiveFrom := effectiveFrom
  signature := "AAAAAAAAAAAA.BBBBBBBBBBBB.CCCCCCCCCCCC"
  body := .budgetLimit .daily .team none (some (1000 * (n + 1)))
  version_pos := Nat.succ_pos n

/-- Versions 2 and 3 are delivered out of order: the intake of version 2 has passed its
checks when version 3 commits, takes the head row after it, and fails on the trigger. -/
def intakeSchedule : List (Action PolicyRecord) :=
  [.begin 1 (samplePolicy 0 samplePolicyTime), .exec 1, .exec 1, .exec 1, .exec 1,
    .exec 1, .commit 1,
    .begin 2 (samplePolicy 1 samplePolicyTime), .exec 2, .exec 2, .exec 2,
    .begin 3 (samplePolicy 2 samplePolicyTime), .exec 3, .exec 3, .exec 3, .exec 3,
    .exec 3, .commit 3,
    .exec 2, .exec 2, .abort 2]

theorem policy_monotone_sample : ∃ s,
    run intakePolicy PolicySys.init intakeSchedule = some s ∧
      (s.db.policies.committed "55555555-5555-4555-8555-555555555555").map
        PolicyRow.currentVersion = some 3 ∧
      Monotone s := by
  have hrun : (run intakePolicy PolicySys.init intakeSchedule).map
      (fun s => (s.db.policies.committed "55555555-5555-4555-8555-555555555555").map
        PolicyRow.currentVersion) = some (some 3) := by
    decide +kernel
  obtain ⟨s, hs, hversion⟩ := Option.map_eq_some_iff.mp hrun
  exact ⟨s, hs, hversion, policy_monotone intakeSchedule s hs⟩

end Sample

end Anoryx.Sentinel
