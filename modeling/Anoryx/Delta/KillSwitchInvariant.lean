import Anoryx.Alternation
import Anoryx.Delta.KillSwitch

/-!
# Anoryx.Delta.KillSwitchInvariant

What every call on the kill switch does to its stores.

The row of a scope and the decisions queued under its policy id are a switch and
the log of its flips (`Alternation.InStep`, from version 0): a transaction that
holds the row sees them in step, and after its commit so does everyone.  Policy
ids tell scopes apart, since no transaction draws an id twice.

The logic takes a proposition `guard`.  Under it, schedules may not apply an
anomalous kill to a scope that an open `authorize_agent` call has listed, and
`Authority` holds as well: nothing listed is ever killed for an anomaly, and
only `clear_kill_switch` has released such a kill.
-/

namespace Anoryx.Delta

open ReadCommitted Alternation Table

/-! ## a scope and its decisions -/

def KillDecisionRow.isKill (o : KillDecisionRow) : Bool := o.transition = .kill

def KillRow.isKilled (row : KillRow) : Bool := row.state = .killed

/-- The outbox key of a version of a scope's policy. -/
def killKey (scope : KillScope) (policyId : String) (version : Nat) : DecisionKey :=
  (scope.tenantId, policyId, version)

/-- A row and the decisions of its policy are in step. -/
def RowInStep (row : KillRow) (log : Nat → Option KillDecisionRow) : Prop :=
  InStep KillDecisionRow.isKill 0 row.lastPublishedVersion row.isKilled log

/-- The scope `k` is in step as transaction `t` sees it. -/
def SeesAt (t : Txn) (d : KillDb) (k : KillScope) : Prop :=
  ∀ row, d.states.visible t k = some row →
    RowInStep row fun v => d.outbox.visible t (killKey k row.policyId v)

/-- So is every scope. -/
def Sees (t : Txn) (d : KillDb) : Prop := ∀ k, SeesAt t d k

/-- No row and no decision carries the policy id that `t` draws. -/
structure Unminted (uuid4 : Txn → Nat → String) (t : Txn) (d : KillDb) : Prop where
  states : ∀ k row, d.states.HasVersion k row → row.policyId ≠ uuid4 t 1
  outbox : ∀ key o, d.outbox.HasVersion key o → key.2.1 ≠ uuid4 t 1

/-- What holds of the stores between any two statements. -/
structure KillInv (d : KillDb) : Prop where
  outbox : d.outbox.InsertOnly
  inStep : ∀ k row, d.states.committed k = some row →
    RowInStep row fun v => d.outbox.committed (killKey k row.policyId v)
  /-- a new version of a row keeps its policy and flips its state -/
  flipped : ∀ k t row row', d.states.committed k = some row → d.states.inflight k = some (t, row') →
    row'.policyId = row.policyId ∧ row'.state ≠ row.state
  distinct : ∀ k k' row row', d.states.HasVersion k row → d.states.HasVersion k' row' →
    row.policyId = row'.policyId → k = k'
  owner_committed : ∀ key o, d.outbox.committed key = some o →
    ∃ k row v, d.states.committed k = some row ∧ key = killKey k row.policyId v ∧ 0 < v
  owner_inflight : ∀ key t o, d.outbox.inflight key = some (t, o) →
    ∃ k row v, d.states.inflight k = some (t, row) ∧ key = killKey k row.policyId v ∧ 0 < v

/-- Who may release what. -/
structure Authority (d : KillDb) : Prop where
  /-- a listed scope is not killed for an anomaly -/
  listed : ∀ t k row, (t, k) ∈ d.listed → d.states.HasVersion k row → row.state = .killed →
    row.reason ≠ some .anomalousSingleTx
  /-- an anomalous kill was only ever released by the operator -/
  released : ∀ r ∈ d.released, r.reason = some .anomalousSingleTx → r.caller = .clearKillSwitch

/-- What a transaction `u` may rely on. -/
structure KillRely (uuid4 : Txn → Nat → String) (u : Txn) (d d' : KillDb) : Prop where
  states : Frame u d.states d'.states
  outbox : Frame u d.outbox d'.outbox
  /-- a row lock keeps the committed row, and the decisions of its policy -/
  row : ∀ k r, d.states.inflight k = some (u, r) → d'.states.committed k = d.states.committed k
  log : ∀ k r, d.states.inflight k = some (u, r) → ∀ v,
    d'.outbox.committed (killKey k r.policyId v) = d.outbox.committed (killKey k r.policyId v)
  /-- a scope keeps its row and its policy -/
  persists : ∀ k r, d.states.committed k = some r →
    ∃ r', d'.states.committed k = some r' ∧ r'.policyId = r.policyId
  unminted : Unminted uuid4 u d → Unminted uuid4 u d'
  listed : ∀ k, (u, k) ∈ d.listed → (u, k) ∈ d'.listed

/-- `t` has no row in flight. -/
structure KillSettled (t : Txn) (d : KillDb) : Prop where
  states : ∀ k row, d.states.inflight k ≠ some (t, row)
  outbox : ∀ key o, d.outbox.inflight key ≠ some (t, o)

/-- `t` has not begun. -/
structure KillFresh (uuid4 : Txn → Nat → String) (t : Txn) (d : KillDb) : Prop
    extends KillSettled t d where
  unminted : Unminted uuid4 t d

variable {v v' : Nat} {r row' : KillRow} {policyId : String} {tr : KillTransition}
  {outbox : Table DecisionKey KillDecisionRow}

section Rely

variable {uuid4 : Txn → Nat → String} {t u : Txn} {d d' : KillDb}

theorem KillRely.refl (uuid4 : Txn → Nat → String) (u : Txn) (d : KillDb) :
    KillRely uuid4 u d d where
  states := .refl u _
  outbox := .refl u _
  row _ _ _ := rfl
  log _ _ _ _ := rfl
  persists _ r hr := ⟨r, hr, rfl⟩
  unminted := id
  listed _ := id

theorem KillRely.trans {d₁ d₂ d₃ : KillDb} (h₁ : KillRely uuid4 u d₁ d₂)
    (h₂ : KillRely uuid4 u d₂ d₃) : KillRely uuid4 u d₁ d₃ where
  states := h₁.states.trans h₂.states
  outbox := h₁.outbox.trans h₂.outbox
  row k r hr := (h₂.row k r ((h₁.states.inflight k r).mp hr)).trans (h₁.row k r hr)
  log k r hr v := (h₂.log k r ((h₁.states.inflight k r).mp hr) v).trans (h₁.log k r hr v)
  persists k r hr := by
    obtain ⟨r', hr', hp⟩ := h₁.persists k r hr
    obtain ⟨r'', hr'', hp'⟩ := h₂.persists k r' hr'
    exact ⟨r'', hr'', hp'.trans hp⟩
  unminted h := h₂.unminted (h₁.unminted h)
  listed k h := h₂.listed k (h₁.listed k h)

theorem KillSettled.rely (hr : KillRely uuid4 t d d') (h : KillSettled t d) : KillSettled t d' where
  states k row hin := h.states k row ((hr.states.inflight k row).mpr hin)
  outbox key o hin := h.outbox key o ((hr.outbox.inflight key o).mpr hin)

theorem KillFresh.rely (hr : KillRely uuid4 t d d') (h : KillFresh uuid4 t d) :
    KillFresh uuid4 t d' :=
  ⟨h.toKillSettled.rely hr, hr.unminted h.unminted⟩

theorem killKey_inj {k k' : KillScope} {p p' : String} (h : killKey k p v = killKey k' p' v') :
    p = p' ∧ v = v' := by
  simp only [killKey, Prod.mk.injEq] at h
  exact h.2

variable {k : KillScope} {row : KillRow} {o : KillDecisionRow}

theorem KillInv.holds_row (hi : KillInv d) (hrow : d.states.HasVersion k row)
    (ho : d.outbox.inflight (killKey k row.policyId v) = some (t, o)) :
    ∃ row', d.states.inflight k = some (t, row') := by
  obtain ⟨k', row', v', hin, hkey⟩ := hi.owner_inflight _ t o ho
  have hk : k = k' := hi.distinct k k' row row' hrow (.inr ⟨t, hin⟩) (killKey_inj hkey.1).1
  exact ⟨row', hk ▸ hin⟩

theorem KillInv.seesAt (hi : KillInv d)
    (hno : ∀ r, d.states.inflight k ≠ some (t, r)) : SeesAt t d k := by
  intro row hvis
  have hc : d.states.committed k = some row := (visible_of_no_inflight hno).symm.trans hvis
  have hlog : (fun v => d.outbox.visible t (killKey k row.policyId v)) =
      fun v => d.outbox.committed (killKey k row.policyId v) := by
    funext v
    refine visible_of_no_inflight fun o ho => ?_
    obtain ⟨r, hr⟩ := hi.holds_row (.inl hc) ho
    exact hno r hr
  rw [hlog]
  exact hi.inStep k row hc

theorem KillInv.sees (hi : KillInv d) (h : KillSettled t d) : Sees t d :=
  fun k => hi.seesAt (h.states k)

theorem KillRely.visible_log (hr : KillRely uuid4 t d d') (hin : d.states.inflight k = some (t, r))
    (v : Nat) :
    d'.outbox.visible t (killKey k r.policyId v) = d.outbox.visible t (killKey k r.policyId v) :=
  hr.outbox.visible_eq (hr.log k r hin v)

theorem SeesAt.rely (hi : KillInv d') (hr : KillRely uuid4 t d d')
    (h : SeesAt t d k) : SeesAt t d' k := by
  intro row hvis
  rcases visible_cases d'.states t k with ⟨r, hin, hvis'⟩ | ⟨hno, _⟩
  · have heq : r = row := Option.some.inj (hvis'.symm.trans hvis)
    subst heq
    have hold := (hr.states.inflight k r).mpr hin
    have hlog := funext (hr.visible_log hold)
    rw [hlog]
    exact h r (visible_of_inflight hold)
  · exact hi.seesAt hno row hvis

theorem Sees.rely (hi : KillInv d') (hr : KillRely uuid4 t d d') (h : Sees t d) : Sees t d' :=
  fun k => (h k).rely hi hr

/-! ## what a call has read -/

/-- The scopes of `l` have rows, with the policies `l` says. -/
def Knows (t : Txn) (l : List (KillScope × KillRow)) (d : KillDb) : Prop :=
  ∀ p ∈ l, ∃ row, d.states.visible t p.1 = some row ∧ row.policyId = p.2.policyId

/-- A row of `l` that `t` holds is the first of its scope. -/
def Ready (t : Txn) (l : List (KillScope × KillRow)) (d : KillDb) : Prop :=
  ∀ p ∈ l, ∀ row, d.states.inflight p.1 = some (t, row) → d.states.committed p.1 = none

theorem KillRely.policy (hr : KillRely uuid4 t d d')
    (h : ∃ row, d.states.visible t k = some row ∧ row.policyId = policyId) :
    ∃ row, d'.states.visible t k = some row ∧ row.policyId = policyId := by
  obtain ⟨row, hvis, hp⟩ := h
  rcases visible_cases d.states t k with ⟨r, hin, hvis'⟩ | ⟨hno, hvis'⟩
  · have heq : r = row := Option.some.inj (hvis'.symm.trans hvis)
    exact ⟨r, visible_of_inflight ((hr.states.inflight k r).mp hin), heq ▸ hp⟩
  · obtain ⟨row', hc, hp'⟩ := hr.persists k row (hvis'.symm.trans hvis)
    refine ⟨row', ?_, hp'.trans hp⟩
    rw [visible_of_no_inflight fun v hv => hno v ((hr.states.inflight k v).mpr hv), hc]

variable {l : List (KillScope × KillRow)}

theorem Knows.rely (hr : KillRely uuid4 t d d')
    (h : Knows t l d) : Knows t l d' := fun p hp => hr.policy (h p hp)

theorem Ready.rely (hr : KillRely uuid4 t d d')
    (h : Ready t l d) : Ready t l d' := by
  intro p hp row hin
  have hold := (hr.states.inflight p.1 row).mpr hin
  exact (hr.row p.1 row hold).trans (h p hp row hold)

theorem KillSettled.ready (h : KillSettled t d) : Ready t l d :=
  fun p _ row hin => absurd hin (h.states p.1 row)

/-- The row of `k` has been flipped to version `v`, one ahead of its decisions. -/
structure KillFlipped (t : Txn) (k : KillScope) (tr : KillTransition) (v : Nat) (policyId : String)
    (d : KillDb) : Prop where
  others : ∀ k', k' ≠ k → SeesAt t d k'
  row : ∃ row, d.states.inflight k = some (t, row) ∧ row.lastPublishedVersion = v ∧
    row.isKilled = decide (tr = .kill) ∧ row.policyId = policyId
  behind : ∃ w, v = w + 1 ∧ InStep KillDecisionRow.isKill 0 w (!decide (tr = .kill))
    fun v => d.outbox.visible t (killKey k policyId v)

theorem KillFlipped.version_pos (h : KillFlipped t k tr v policyId d) : 0 < v := by
  obtain ⟨w, rfl, _⟩ := h.behind
  exact Nat.succ_pos w

theorem KillFlipped.rely (hi : KillInv d') (hr : KillRely uuid4 t d d')
    (h : KillFlipped t k tr v policyId d) : KillFlipped t k tr v policyId d' := by
  obtain ⟨row, hin, hver, hstate, rfl⟩ := h.row
  refine ⟨fun k' hk => (h.others k' hk).rely hi hr,
    ⟨row, (hr.states.inflight k row).mp hin, hver, hstate, rfl⟩, ?_⟩
  obtain ⟨w, hw, hstep⟩ := h.behind
  exact ⟨w, hw, hstep.congr fun v _ => hr.visible_log hin v⟩

/-! ## statements -/

/-- `t` writes a version of a scope's row. -/
def KillDb.putState (d : KillDb) (t : Txn) (k : KillScope) (row : KillRow) : KillDb :=
  { d with states := d.states.write t k row }

/-- A step outside the decision tables: allow-list, history, bookkeeping. -/
structure SameStores (d d' : KillDb) : Prop where
  states : d'.states = d.states
  outbox : d'.outbox = d.outbox

theorem KillInv.same (hi : KillInv d) (h : SameStores d d') : KillInv d' := by
  obtain ⟨hs, ho⟩ := h
  constructor <;> simp only [hs, ho]
  · exact hi.outbox
  · exact hi.inStep
  · exact hi.flipped
  · exact hi.distinct
  · exact hi.owner_committed
  · exact hi.owner_inflight

theorem KillRely.same (h : SameStores d d') (hl : ∀ k, (u, k) ∈ d.listed → (u, k) ∈ d'.listed) :
    KillRely uuid4 u d d' where
  states := h.states ▸ .refl u _
  outbox := h.outbox ▸ .refl u _
  row k _ _ := by rw [h.states]
  log k _ _ _ := by rw [h.outbox]
  persists k r hr := ⟨r, by rw [h.states, hr], rfl⟩
  unminted hun :=
    ⟨by simpa only [h.states] using hun.states, by simpa only [h.outbox] using hun.outbox⟩
  listed := hl

theorem hasVersion_putState {k k' : KillScope} {row : KillRow}
    (hvis : d.states.visible t k = some row) (hp : row'.policyId = row.policyId)
    (h : (d.putState t k row').states.HasVersion k' r) :
    ∃ r₀, d.states.HasVersion k' r₀ ∧ r.policyId = r₀.policyId := by
  rcases h.of_write with h | ⟨rfl, rfl⟩
  · exact ⟨r, h, rfl⟩
  · exact ⟨row, .of_visible hvis, hp⟩

/-- A flip under the row's lock. -/
theorem KillInv.putState {row : KillRow} (hi : KillInv d) (hvis : d.states.visible t k = some row)
    (hfree : d.states.free t k = true)
    (hready : ∀ r, d.states.inflight k = some (t, r) → d.states.committed k = none)
    (hp : row'.policyId = row.policyId) (hs : row'.state ≠ row.state) :
    KillInv (d.putState t k row') where
  outbox := hi.outbox
  inStep := hi.inStep
  flipped k' t' r r' hc hin := by
    rcases inflight_write_cases hin with ⟨rfl, rfl, rfl⟩ | ⟨-, hin⟩
    · rcases visible_cases d.states t' k' with ⟨w, hw, _⟩ | ⟨_, hvis'⟩
      · have hnone := hready w hw
        rw [KillDb.putState, committed_write, hnone] at hc
        contradiction
      · have heq : row = r := Option.some.inj (hvis.symm.trans (hvis'.trans hc))
        exact heq ▸ ⟨hp, hs⟩
    · exact hi.flipped k' t' r r' hc hin
  distinct k₁ k₂ r₁ r₂ h₁ h₂ he := by
    obtain ⟨q₁, hq₁, hp₁⟩ := hasVersion_putState hvis hp h₁
    obtain ⟨q₂, hq₂, hp₂⟩ := hasVersion_putState hvis hp h₂
    exact hi.distinct k₁ k₂ q₁ q₂ hq₁ hq₂ (hp₁.symm.trans (he.trans hp₂))
  owner_committed := hi.owner_committed
  owner_inflight key t' o ho := by
    obtain ⟨k', r, v, hin, hkey⟩ := hi.owner_inflight key t' o ho
    by_cases hk : k' = k
    · subst hk
      have ht : t' = t := free_iff.mp hfree t' r hin
      subst ht
      rw [visible_of_inflight hin, Option.some.injEq] at hvis
      refine ⟨k', row', v, by simp [KillDb.putState], ?_⟩
      rw [hp, ← hvis]
      exact hkey
    · exact ⟨k', r, v, by simp only [KillDb.putState, inflight_write_of_ne hk, hin], hkey⟩

theorem KillRely.putState {row : KillRow} (hvis : d.states.visible t k = some row)
    (hfree : d.states.free t k = true) (hp : row'.policyId = row.policyId) (hne : u ≠ t) :
    KillRely uuid4 u d (d.putState t k row') where
  states := frame_write hne hfree
  outbox := .refl u _
  row _ _ _ := rfl
  log _ _ _ _ := rfl
  persists _ r hr := ⟨r, hr, rfl⟩
  unminted h := by
    refine ⟨fun k' r hr => ?_, h.outbox⟩
    obtain ⟨r₀, hr₀, hp₀⟩ := hasVersion_putState hvis hp hr
    rw [hp₀]
    exact h.states k' r₀ hr₀
  listed _ := id

variable {states : Table KillScope KillRow} {x : Bool}

theorem KillInv.insertState
    (hi : KillInv d) (hun : Unminted uuid4 t d)
    (hp : row.policyId = uuid4 t 1) (hins : d.states.insertOrIgnore t k row = some (x, states)) :
    KillInv { d with states } := by
  rcases insertOrIgnore_cases hins with ⟨_, rfl, _⟩ | ⟨_, rfl, hfree, hnone⟩
  · exact hi
  refine
    { outbox := hi.outbox
      inStep := hi.inStep
      flipped := fun k' t' r r' hc hin => ?_
      distinct := fun k₁ k₂ r₁ r₂ h₁ h₂ he => ?_
      owner_committed := hi.owner_committed
      owner_inflight := fun key t' o ho => ?_ }
  · by_cases hk : k' = k
    · rw [hk, committed_write, hnone] at hc
      contradiction
    · simp only [inflight_write_of_ne hk] at hin
      exact hi.flipped k' t' r r' hc hin
  · rcases h₁.of_write with hold₁ | ⟨rfl, rfl⟩
    · rcases h₂.of_write with hold₂ | ⟨rfl, rfl⟩
      · exact hi.distinct k₁ k₂ r₁ r₂ hold₁ hold₂ he
      · exact absurd (he.trans hp) (hun.states k₁ r₁ hold₁)
    · rcases h₂.of_write with hold₂ | ⟨rfl, rfl⟩
      · exact absurd (he.symm.trans hp) (hun.states k₂ r₂ hold₂)
      · rfl
  · obtain ⟨k', r, v, hin, hkey⟩ := hi.owner_inflight key t' o ho
    have hk : k' ≠ k := by
      rintro rfl
      rw [hfree] at hin
      contradiction
    exact ⟨k', r, v, by simp only [inflight_write_of_ne hk, hin], hkey⟩

theorem KillRely.insertState
    (huuid : Function.Injective2 uuid4)
    (hp : row.policyId = uuid4 t 1) (hins : d.states.insertOrIgnore t k row = some (x, states))
    (hne : u ≠ t) : KillRely uuid4 u d { d with states } where
  states := frame_insertOrIgnore hins hne
  outbox := .refl u _
  row k' _ _ := congrFun (committed_insertOrIgnore hins) k'
  log _ _ _ _ := rfl
  persists k' r hr := ⟨r, (congrFun (committed_insertOrIgnore hins) k').trans hr, rfl⟩
  unminted h := by
    refine ⟨fun k' r hr => ?_, h.outbox⟩
    rcases insertOrIgnore_cases hins with ⟨_, rfl, _⟩ | ⟨_, rfl, _⟩
    · exact h.states k' r hr
    · rcases hr.of_write with hr | ⟨_, rfl⟩
      · exact h.states k' r hr
      · rw [hp]
        exact fun he => hne (huuid he).1.symm
  listed _ := id

theorem KillInv.enqueue (hi : KillInv d) (hrow : d.states.inflight k = some (t, row)) (hv : 0 < v)
    (hins : d.outbox.insertOrIgnore t (killKey k row.policyId v) o = some (x, outbox)) :
    KillInv { d with outbox } := by
  refine
    { outbox := hi.outbox.insertOrIgnore hins
      inStep := ?_
      flipped := hi.flipped
      distinct := hi.distinct
      owner_committed := ?_
      owner_inflight := fun key t' o' ho => ?_ }
  · simpa only [committed_insertOrIgnore hins] using hi.inStep
  · simpa only [committed_insertOrIgnore hins] using hi.owner_committed
  · rcases insertOrIgnore_cases hins with ⟨_, rfl, _⟩ | ⟨_, rfl, _⟩
    · exact hi.owner_inflight key t' o' ho
    · rcases inflight_write_cases ho with ⟨rfl, rfl, -⟩ | ⟨-, ho⟩
      · exact ⟨k, row, v, hrow, rfl, hv⟩
      · exact hi.owner_inflight key t' o' ho

theorem KillRely.enqueue (hrow : d.states.inflight k = some (t, row))
    (hins : d.outbox.insertOrIgnore t (killKey k row.policyId v) o = some (x, outbox)) (hne : u ≠ t) :
    KillRely uuid4 u d { d with outbox } where
  states := .refl u _
  outbox := frame_insertOrIgnore hins hne
  row _ _ _ := rfl
  log k' r _ v' := congrFun (committed_insertOrIgnore hins) (killKey k' r.policyId v')
  persists _ r hr := ⟨r, hr, rfl⟩
  unminted h := by
    refine ⟨h.states, fun key o' ho' => ?_⟩
    rcases insertOrIgnore_cases hins with ⟨_, rfl, _⟩ | ⟨_, rfl, _⟩
    · exact h.outbox key o' ho'
    · rcases ho'.of_write with ho' | ⟨rfl, _⟩
      · exact h.outbox key o' ho'
      · exact h.states k row (.inr ⟨t, hrow⟩)
  listed _ := id

/-! ## authority -/

/-- A step that applies an anomalous kill applies it to a scope nobody has listed. -/
def SparesListed (t : Txn) (d d' : KillDb) : Prop :=
  ∀ k row, d'.states.inflight k = some (t, row) → row.state = .killed →
    row.reason = some .anomalousSingleTx → d.states.inflight k ≠ some (t, row) →
    ∀ u, (u, k) ∉ d.listed

theorem Authority.of_versions (ha : Authority d) (hlisted : ∀ p ∈ d'.listed, p ∈ d.listed)
    (hstates : ∀ k row, d'.states.HasVersion k row → row.state = .killed →
      row.reason = some .anomalousSingleTx → d.states.HasVersion k row ∨ ∀ u, (u, k) ∉ d.listed)
    (hreleased : d'.released = d.released) : Authority d' where
  listed t k row hmem hver hkilled hreason := by
    rcases hstates k row hver hkilled hreason with hold | hno
    · exact ha.listed t k row (hlisted _ hmem) hold hkilled hreason
    · exact hno t (hlisted _ hmem)
  released := by
    rw [hreleased]
    exact ha.released

theorem Authority.insertState
    (ha : Authority d) (hclear : row.state = .clear)
    (hins : d.states.insertOrIgnore t k row = some (x, states)) : Authority { d with states } := by
  refine ha.of_versions (fun _ h => h) (fun k' r hr hkilled _ => .inl ?_) rfl
  rcases insertOrIgnore_cases hins with ⟨_, rfl, _⟩ | ⟨_, rfl, _⟩
  · exact hr
  · rcases hr.of_write with hr | ⟨_, rfl⟩
    · exact hr
    · rw [hclear] at hkilled
      contradiction

theorem Authority.kill (ha : Authority d)
    (hspares : row.reason = some .anomalousSingleTx → ∀ u, (u, k) ∉ d.listed) :
    Authority (d.putState t k row) := by
  refine ha.of_versions (fun _ h => h) (fun k' r hr _ hreason => ?_) rfl
  rcases hr.of_write with hr | ⟨rfl, rfl⟩
  · exact .inl hr
  · exact .inr (hspares hreason)

/-- `t` takes `k` off its list. -/
def KillDb.unlist (d : KillDb) (t : Txn) (k : KillScope) : KillDb :=
  { d with listed := d.listed.filter fun q => q ≠ (t, k) }

def KillDb.release (d : KillDb) (t : Txn) (k : KillScope) (caller : Caller) (row row' : KillRow) :
    KillDb :=
  { (d.putState t k row').unlist t k with
    released := d.released ++ [⟨caller, k, row.reason⟩] }

theorem mem_unlist {p : Txn × KillScope} (h : p ∈ d.listed) (hne : p ≠ (t, k)) :
    p ∈ (d.unlist t k).listed :=
  List.mem_filter.mpr ⟨h, by simpa using hne⟩

theorem Authority.release {row : KillRow} {caller : Caller} (ha : Authority d)
    (hvis : d.states.visible t k = some row) (hkilled : row.state = .killed)
    (hclear : row'.state = .clear) (hcaller : caller = .authorizeAgent → (t, k) ∈ d.listed) :
    Authority (d.release t k caller row row') where
  listed t' k' r hmem hr hk hreason := by
    rcases hr.of_write with hr | ⟨_, rfl⟩
    · exact ha.listed t' k' r (List.mem_filter.mp hmem).1 hr hk hreason
    · rw [hclear] at hk
      contradiction
  released r hr hreason := by
    rcases List.mem_append.mp hr with hr | hr
    · exact ha.released r hr hreason
    · rw [List.mem_singleton] at hr
      subst hr
      cases caller with
      | authorizeAgent =>
          exact absurd hreason (ha.listed t k row (hcaller rfl) (.of_visible hvis) hkilled)
      | clearKillSwitch => rfl

theorem Authority.list (hi : KillInv d) (ha : Authority d)
    (h : ∀ p ∈ l, d.states.committed p.1 = some p.2 ∧ p.2.state = .killed ∧
      p.2.reason = some .unauthorizedAgent) :
    Authority { d with listed := d.listed ++ l.map fun p => (t, p.1) } where
  listed t' k row hmem hver hkilled := by
    rcases List.mem_append.mp hmem with hmem | hmem
    · exact ha.listed t' k row hmem hver hkilled
    · obtain ⟨p, hp, heq⟩ := List.mem_map.mp hmem
      obtain ⟨_, rfl⟩ := Prod.mk.inj heq
      obtain ⟨hc, hstate, hreason⟩ := h p hp
      rcases hver with hver | ⟨u, hver⟩
      · rw [hc, Option.some.injEq] at hver
        rw [← hver, hreason]
        decide
      · -- a version in flight over a killed row is a clear one
        exact absurd (hkilled.trans hstate.symm) (hi.flipped p.1 u p.2 row hc hver).2
  released := ha.released

/-! ## the end of a transaction -/

/-- A flip is committed together with its decision. -/
theorem KillInv.commit (hi : KillInv d) (h : Sees t d) : KillInv (Database.commit t d) where
  outbox := hi.outbox.commit t
  inStep := h
  flipped k t' row row' hc hin := by
    obtain ⟨hin, hne⟩ := inflight_commit_eq_some.mp hin
    exact hi.flipped k t' row row' ((visible_of_inflight_ne hin hne).symm.trans hc) hin
  distinct k k' row row' h₁ h₂ := hi.distinct k k' row row' h₁.of_commit h₂.of_commit
  owner_committed key o ho := by
    rcases visible_cases d.outbox t key with ⟨o', ho', _⟩ | ⟨_, hvis⟩
    · obtain ⟨k, row, v, hin, hkey⟩ := hi.owner_inflight key t o' ho'
      exact ⟨k, row, v, visible_of_inflight hin, hkey⟩
    · obtain ⟨k, row, v, hc, hkey⟩ := hi.owner_committed key o (hvis.symm.trans ho)
      rcases visible_cases d.states t k with ⟨row', hin, hvis'⟩ | ⟨_, hvis'⟩
      · have hp := (hi.flipped k t row row' hc hin).1
        exact ⟨k, row', v, hvis', hp ▸ hkey⟩
      · exact ⟨k, row, v, hvis'.trans hc, hkey⟩
  owner_inflight key t' o ho := by
    obtain ⟨ho, hne⟩ := inflight_commit_eq_some.mp ho
    obtain ⟨k, row, v, hin, hkey⟩ := hi.owner_inflight key t' o ho
    exact ⟨k, row, v, inflight_commit_eq_some.mpr ⟨hin, hne⟩, hkey⟩

theorem KillInv.rollback (hi : KillInv d) : KillInv (Database.rollback t d) where
  outbox := hi.outbox.rollback t
  inStep := hi.inStep
  flipped k t' row row' hc hin :=
    hi.flipped k t' row row' hc (inflight_rollback_eq_some.mp hin).1
  distinct k k' row row' h₁ h₂ := hi.distinct k k' row row' h₁.of_rollback h₂.of_rollback
  owner_committed := hi.owner_committed
  owner_inflight key t' o ho := by
    obtain ⟨ho, hne⟩ := inflight_rollback_eq_some.mp ho
    obtain ⟨k, row, v, hin, hkey⟩ := hi.owner_inflight key t' o ho
    exact ⟨k, row, v, inflight_rollback_eq_some.mpr ⟨hin, hne⟩, hkey⟩

theorem mem_listed_end {l : List (Txn × KillScope)} (hne : u ≠ t)
    (h : (u, k) ∈ l) : (u, k) ∈ l.filter fun p => p.1 ≠ t :=
  List.mem_filter.mpr ⟨h, by simpa using hne⟩

theorem KillRely.commit (hi : KillInv d) (hne : u ≠ t) :
    KillRely uuid4 u d (Database.commit t d) where
  states := frame_commit _ hne
  outbox := frame_commit _ hne
  row k r hr := visible_of_inflight_ne hr hne
  log k r hr v := by
    refine visible_of_no_inflight fun o ho => ?_
    obtain ⟨r', hr'⟩ := hi.holds_row (.inr ⟨u, hr⟩) ho
    rw [hr, Option.some.injEq, Prod.mk.injEq] at hr'
    exact hne hr'.1
  persists k r hr := by
    rcases visible_cases d.states t k with ⟨r', hin, hvis⟩ | ⟨_, hvis⟩
    · exact ⟨r', hvis, (hi.flipped k t r r' hr hin).1⟩
    · exact ⟨r, hvis.trans hr, rfl⟩
  unminted h :=
    ⟨fun k r hr => h.states k r hr.of_commit, fun key o ho => h.outbox key o ho.of_commit⟩
  listed _ h := mem_listed_end hne h

theorem KillRely.rollback (hne : u ≠ t) : KillRely uuid4 u d (Database.rollback t d) where
  states := frame_rollback _ hne
  outbox := frame_rollback _ hne
  row _ _ _ := rfl
  log _ _ _ _ := rfl
  persists _ r hr := ⟨r, hr, rfl⟩
  unminted h :=
    ⟨fun k r hr => h.states k r hr.of_rollback, fun key o ho => h.outbox key o ho.of_rollback⟩
  listed _ h := mem_listed_end hne h

theorem Authority.commit (ha : Authority d) : Authority (Database.commit t d) :=
  ha.of_versions (fun _ h => (List.mem_filter.mp h).1) (fun _ _ h _ _ => .inl h.of_commit) rfl

theorem Authority.rollback (ha : Authority d) : Authority (Database.rollback t d) :=
  ha.of_versions (fun _ h => (List.mem_filter.mp h).1) (fun _ _ h _ _ => .inl h.of_rollback) rfl

theorem KillSettled.commit (t : Txn) (d : KillDb) : KillSettled t (Database.commit t d) where
  states _ _ hin := (inflight_commit_eq_some.mp hin).2 rfl
  outbox _ _ ho := (inflight_commit_eq_some.mp ho).2 rfl

theorem KillSettled.rollback (t : Txn) (d : KillDb) : KillSettled t (Database.rollback t d) where
  states _ _ hin := (inflight_rollback_eq_some.mp hin).2 rfl
  outbox _ _ ho := (inflight_rollback_eq_some.mp ho).2 rfl

end Rely

end Anoryx.Delta
