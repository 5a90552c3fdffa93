import Anoryx.Calendar
import Anoryx.StableSort

/-!
# Anoryx.Delta.SubscriptionAnomalies

The anomaly report on subscriptions (`subscriptions/service.py`, `subscriptions/store.py`,
`chargeback/anomaly.py`): the newest charge of each subscription against the average of those
before it.

No step looks at the currency of a charge, so what is said of a subscription depends on its
charges in other currencies (`likeWithLike_iff`).

The rows are those that the tenant's session sees, in the order in which a query reads them;
of charges of one moment, the one read first comes first.  Quotients are doubles: a rounding of
the rationals is given, which is monotone and keeps the integers up to `2 ^ 53`.
-/

namespace Anoryx.Delta.Subscriptions

open StableSort

/-! ## rows -/

structure SubscriptionRecord where
  subscriptionId : String
  name : String
  status : String
  createdAt : DateTime
deriving DecidableEq

structure ChargeRecord where
  chargeId : String
  tenantId : String
  subscriptionId : String
  amountMinorUnits : Nat
  currency : String
  chargedAt : DateTime
  recordedBy : String
  note : Option String
  createdAt : DateTime
deriving DecidableEq

/-- The charges, each under its own id -/
structure ChargeTable where
  rows : List ChargeRecord
  distinct : (rows.map ChargeRecord.chargeId).Nodup

/-- Rounding to doubles -/
structure Rounding where
  round : ℚ → ℚ
  mono : Monotone round
  exact : ∀ n : ℤ, |n| ≤ 2 ^ 53 → round n = n

/-! ## the store -/

def maxListLimit : Int := 500

def maxRecentChargesWindow : Int := 25

def clampLimit (limit : Int) : Nat := (max 1 (min limit maxListLimit)).toNat

def listSubscriptions (subscriptions : List SubscriptionRecord) (status : Option String) (limit : Int) :
    List SubscriptionRecord :=
  let selected : List SubscriptionRecord :=
    match status with
    | some status => subscriptions.filter fun s => s.status = status
    | none => subscriptions
  (selected.insertionSort fun s s' => s'.createdAt ≤ s.createdAt).take (clampLimit limit)

/-- The order of `ROW_NUMBER() OVER (… ORDER BY charged_at DESC)` -/
def Newer (c c' : ChargeRecord) : Prop := c'.chargedAt ≤ c.chargedAt

instance : DecidableRel Newer := fun c c' => inferInstanceAs (Decidable (c'.chargedAt ≤ c.chargedAt))

instance : IsTrans ChargeRecord Newer := ⟨fun _ _ _ h h' => le_trans h' h⟩

instance : Std.Total Newer := ⟨fun c c' => le_total c'.chargedAt c.chargedAt⟩

def newestFirst (charges : List ChargeRecord) (subscriptionId : String) : List ChargeRecord :=
  (charges.filter fun c => c.subscriptionId = subscriptionId).insertionSort Newer

/-- `max(1, min(window_size, MAX_RECENT_CHARGES_WINDOW))` -/
def clampWindow (windowSize : Int) : Nat := (max 1 (min windowSize maxRecentChargesWindow)).toNat

/-- The rows of a subscription with `rn <= window_size + 1` -/
def recentCharges (charges : List ChargeRecord) (windowSize : Int) (subscriptionId : String) : List ChargeRecord :=
  (newestFirst charges subscriptionId).take (clampWindow windowSize + 1)

/-- `list_recent_charges_by_subscription`, a dictionary in the order of its keys -/
def listRecentChargesBySubscription (charges : List ChargeRecord) (subscriptionIds : List String) (windowSize : Int) :
    List (String × List ChargeRecord) :=
  ((subscriptionIds.insertionSort (· ≤ ·)).map fun id =>
    (id, recentCharges charges windowSize id)).filter fun group => group.2 ≠ []

/-! ## the detector -/

inductive AnomalyCode
  | spendSpike
  | newSpender
deriving DecidableEq

inductive Severity
  | info
  | warning
deriving DecidableEq

structure AnomalyResult where
  groupKey : String
  currentSpendCents : Nat
  baselineAvgCents : ℚ
  ratio : Option ℚ
  code : AnomalyCode
  severity : Severity
deriving DecidableEq

/-- `DEFAULT_SPIKE_RATIO_THRESHOLD` -/
def spikeRatioThreshold : ℚ := 3

/-- `DEFAULT_MIN_FLOOR_CENTS` -/
def minFloorCents : Nat := 1000

variable (R : Rounding)

/-- The loop body of `detect_anomalies`, for a group and its baseline -/
def detectAnomaly (baselinePeriods : Nat) (groupKey : String) (currentCents : Nat) (baselineTotal : ℚ) :
    Option AnomalyResult :=
  if currentCents < minFloorCents then none
  else
    let baselineAvg := R.round (baselineTotal / baselinePeriods)
    if baselineAvg ≤ 0 then
      some {
        groupKey := groupKey
        currentSpendCents := currentCents
        baselineAvgCents := 0
        ratio := none
        code := .newSpender
        severity := .info }
    else
      let ratio := R.round (R.round currentCents / baselineAvg)
      if spikeRatioThreshold ≤ ratio then
        some {
          groupKey := groupKey
          currentSpendCents := currentCents
          baselineAvgCents := baselineAvg
          ratio := some ratio
          code := .spendSpike
          severity := .warning }
      else none

/-- `detect_anomalies`, of groups and their baselines; a group without one has baseline 0. -/
def detectAnomalies (groups : List (String × Nat × Option ℚ)) (baselinePeriods : Nat) : List AnomalyResult :=
  (groups.filterMap fun g => detectAnomaly R baselinePeriods g.1 g.2.1 (g.2.2.getD 0)).insertionSort fun r r' =>
    r'.currentSpendCents ≤ r.currentSpendCents

/-! ## the report -/

structure SubscriptionAnomalyRow where
  subscriptionId : String
  subscriptionName : String
  currentChargeCents : Nat
  baselineAvgCents : ℚ
  ratio : Option ℚ
  code : AnomalyCode
  severity : Severity

/-- What `get_anomaly_report` makes of the charges of a subscription: the newest, and the average of the others -/
def baseline : List ChargeRecord → Option (Nat × Option ℚ)
  | [] => none
  | current :: priors => some (current.amountMinorUnits,
      if priors = [] then none
      else some (R.round ((priors.map fun c => (c.amountMinorUnits : ℚ)).sum / priors.length)))

/-- The active subscriptions that a report looks at -/
def reported (subscriptions : List SubscriptionRecord) : List SubscriptionRecord :=
  listSubscriptions subscriptions (some "active") 100

def getAnomalyReport (subscriptions : List SubscriptionRecord) (charges : List ChargeRecord) (baselineWindow : Int) :
    List SubscriptionAnomalyRow :=
  let active := reported subscriptions
  let chargesBySub :=
    listRecentChargesBySubscription charges (active.map SubscriptionRecord.subscriptionId) baselineWindow
  let groups := chargesBySub.filterMap fun group => (baseline R group.2).map fun b => (group.1, b.1, b.2)
  (detectAnomalies R groups 1).map fun r => {
    subscriptionId := r.groupKey
    subscriptionName := ((active.find? fun s => s.subscriptionId = r.groupKey).map SubscriptionRecord.name).getD r.groupKey
    currentChargeCents := r.currentSpendCents
    baselineAvgCents := r.baselineAvgCents
    ratio := r.ratio
    code := r.code
    severity := r.severity }

/-! ## the verdict on one subscription -/

/-- What a report says of a subscription -/
def verdict (subscriptions : List SubscriptionRecord) (charges : List ChargeRecord) (baselineWindow : Int)
    (subscriptionId : String) : List (AnomalyCode × ℚ × Option ℚ) :=
  ((getAnomalyReport R subscriptions charges baselineWindow).filter fun row =>
    row.subscriptionId = subscriptionId).map fun row => (row.code, row.baselineAvgCents, row.ratio)

/-- What is found in the charges of one subscription -/
def judge (subscriptionId : String) (recent : List ChargeRecord) : Option AnomalyResult :=
  (baseline R recent).bind fun b => detectAnomaly R 1 subscriptionId b.1 (b.2.getD 0)

variable {R} {subscriptions : List SubscriptionRecord} {charges charges' : List ChargeRecord} {w : Int} {s C : String}

variable {periods cents k : Nat} {r : AnomalyResult} {c : ChargeRecord}

theorem detectAnomaly_key {key : String} {total : ℚ} (h : detectAnomaly R periods key cents total = some r) :
    r.groupKey = key := by
  unfold detectAnomaly at h
  grind

theorem judge_key {recent : List ChargeRecord} (h : judge R s recent = some r) : r.groupKey = s := by
  obtain ⟨_, -, h⟩ := Option.bind_eq_some_iff.mp h
  exact detectAnomaly_key h

theorem filterMap_detectAnomaly (ids : List String) :
    (((listRecentChargesBySubscription charges ids w).filterMap fun group =>
      (baseline R group.2).map fun b => (group.1, b.1, b.2)).filterMap fun g =>
        detectAnomaly R 1 g.1 g.2.1 (g.2.2.getD 0)) =
      (ids.insertionSort (· ≤ ·)).filterMap fun id => judge R id (recentCharges charges w id) := by
  rw [listRecentChargesBySubscription, List.filterMap_filter, List.filterMap_map, List.filterMap_filterMap]
  refine List.filterMap_congr fun id _ => ?_
  rcases h : recentCharges charges w id with _ | ⟨c, rest⟩ <;> simp [h, judge, baseline]

/-- The verdict on a subscription is that on its own recent charges. -/
theorem verdict_eq : verdict R subscriptions charges w s =
    (List.replicate (((reported subscriptions).map SubscriptionRecord.subscriptionId).count s)
      (judge R s (recentCharges charges w s))).filterMap (Option.map fun r => (r.code, r.baselineAvgCents, r.ratio)) := by
  have htotal : Std.Total fun r r' : AnomalyResult => r'.currentSpendCents ≤ r.currentSpendCents :=
    ⟨fun r r' => le_total r'.currentSpendCents r.currentSpendCents⟩
  have htrans : IsTrans AnomalyResult fun r r' => r'.currentSpendCents ≤ r.currentSpendCents :=
    ⟨fun _ _ _ h h' => le_trans h' h⟩
  generalize hids : (reported subscriptions).map SubscriptionRecord.subscriptionId = ids
  have hcount : (ids.insertionSort (· ≤ ·)).filter (· = s) = List.replicate (ids.count s) s := by
    rw [List.filter_eq, (List.perm_insertionSort _ ids).count_eq]
  have hresults : ((ids.insertionSort (· ≤ ·)).filterMap fun id => judge R id (recentCharges charges w id)).filter
      (fun r => r.groupKey = s) = (List.replicate (ids.count s) s).filterMap fun id => judge R id (recentCharges charges w id) := by
    rw [← hcount, List.filter_filterMap, List.filterMap_filter]
    refine List.filterMap_congr fun id _ => ?_
    cases hjudge : judge R id (recentCharges charges w id) with
    | none => simp
    | some r => simp [judge_key hjudge, Option.filter]
  have hreport : verdict R subscriptions charges w s = ((((ids.insertionSort (· ≤ ·)).filterMap fun id =>
      judge R id (recentCharges charges w id)).insertionSort fun r r' => r'.currentSpendCents ≤ r.currentSpendCents).filter
        fun r => r.groupKey = s).map fun r => (r.code, r.baselineAvgCents, r.ratio) := by
    rw [verdict, getAnomalyReport, List.filter_map, List.map_map, hids, detectAnomalies]
    rw [filterMap_detectAnomaly]
    rfl
  rw [hreport, filter_insertionSort, hresults, List.filterMap_replicate, List.filterMap_replicate]
  cases judge R s (recentCharges charges w s) with
  | none => rfl
  | some r =>
      have hsorted : (List.replicate (ids.count s) r).Pairwise fun r r' => r'.currentSpendCents ≤ r.currentSpendCents := by
        simp [List.pairwise_replicate]
      simp [hsorted.insertionSort_eq]

/-! ## charges in other currencies -/

def inCurrency (C : String) (charges : List ChargeRecord) : List ChargeRecord := charges.filter fun c => c.currency = C

/-- The newest charge of the subscription is `c`. -/
def IsNewest (charges : List ChargeRecord) (s : String) (c : ChargeRecord) : Prop :=
  (newestFirst charges s).head? = some c

/-- The report looks at the subscription. -/
def Reported (subscriptions : List SubscriptionRecord) (s : String) : Prop :=
  s ∈ (reported subscriptions).map SubscriptionRecord.subscriptionId

theorem newestFirst_inCurrency : newestFirst (inCurrency C charges) s = inCurrency C (newestFirst charges s) := by
  rw [newestFirst, newestFirst, inCurrency, inCurrency, filter_insertionSort, List.filter_filter, List.filter_filter]
  simp only [Bool.and_comm]

theorem isNewest_inCurrency (h : IsNewest charges s c) (hc : c.currency = C) :
    IsNewest (inCurrency C charges) s c := by
  obtain ⟨rest, hrest⟩ := List.head?_eq_some_iff.mp h
  rw [IsNewest, newestFirst_inCurrency, hrest, inCurrency, List.filter_cons_of_pos (by simpa using hc)]
  rfl

theorem recentCharges_inCurrency (h : ∀ c ∈ recentCharges charges w s, c.currency = C) :
    recentCharges (inCurrency C charges) w s = recentCharges charges w s := by
  unfold recentCharges at h ⊢
  rw [newestFirst_inCurrency, inCurrency]
  generalize clampWindow w + 1 = n at h ⊢
  generalize newestFirst charges s = newest at h ⊢
  have htake : (newest.take n).filter (fun c => c.currency = C) = newest.take n :=
    List.filter_eq_self.mpr fun c hc => by simpa using h c hc
  rw [← List.take_append_drop n newest, List.filter_append, htake]
  by_cases hn : n ≤ newest.length
  · rw [List.take_append_of_le_length (by simp [hn]), List.take_append_of_le_length (by simp [hn])]
  · simp [List.drop_eq_nil_of_le (by omega : newest.length ≤ n)]

theorem head?_recentCharges (h : IsNewest charges s c) : ∃ priors, recentCharges charges w s = c :: priors := by
  obtain ⟨rest, hrest⟩ := List.head?_eq_some_iff.mp h
  exact ⟨rest.take (clampWindow w), by rw [recentCharges, hrest, List.take_succ_cons]⟩

theorem verdict_eq_nil (hnewest : IsNewest charges s c)
    (h : ¬ Reported subscriptions s ∨ c.amountMinorUnits < minFloorCents) :
    verdict R subscriptions charges w s = [] := by
  rw [verdict_eq]
  rcases h with h | h
  · rw [List.count_eq_zero.mpr h]
    rfl
  · obtain ⟨priors, hpriors⟩ := head?_recentCharges (w := w) hnewest
    simp [hpriors, judge, baseline, detectAnomaly, h]

theorem eq_of_mem_verdict {x y : AnomalyCode × ℚ × Option ℚ} (hx : x ∈ verdict R subscriptions charges w s)
    (hy : y ∈ verdict R subscriptions charges w s) : x = y := by
  rw [verdict_eq, List.filterMap_replicate] at hx hy
  split at hx
  · simp at hx
  · rw [List.eq_of_mem_replicate hx]
    simp_all

/-! ## a history that changes the verdict -/

/-- Charges of `k` in the currency `D`, at the moment of `c` -/
def sameMoment (c : ChargeRecord) (D : String) (k : Nat) (ids : List String) : List ChargeRecord :=
  ids.map fun id => { c with chargeId := id, amountMinorUnits := k, currency := D }

theorem exists_fresh (used : List String) (n : Nat) :
    ∃ ids : List String, ids.length = n ∧ ids.Nodup ∧ ∀ id ∈ ids, id ∉ used := by
  obtain ⟨t, ht, hcard⟩ := (Set.Finite.infinite_compl used.finite_toSet).exists_subset_card_eq n
  refine ⟨t.toList, by simp [hcard], t.nodup_toList, fun id hid => ?_⟩
  exact ht (by simpa using hid)

theorem judge_sameMoment {D : String} {ids : List String} (hids : ids ≠ [])
    (hfloor : minFloorCents ≤ c.amountMinorUnits) (hk : k = 1 ∨ k = 2) :
    ∃ ratio, judge R s (c :: sameMoment c D k ids) =
      some ⟨s, c.amountMinorUnits, k, some ratio, .spendSpike, .warning⟩ := by
  have hround (n : ℕ) (hn : n ≤ 1000) : R.round n = n := by
    have := R.exact n (by rw [abs_of_nonneg (by positivity)]; norm_cast; omega)
    simpa using this
  have hsum : ((sameMoment c D k ids).map fun c => (c.amountMinorUnits : ℚ)).sum / (sameMoment c D k ids).length = k := by
    have hlength : (ids.length : ℚ) ≠ 0 := by simpa using hids
    simp [sameMoment, Function.comp_def, hlength]
  have hpriors : sameMoment c D k ids ≠ [] := by simpa [sameMoment] using hids
  have hamount : (1000 : ℚ) ≤ R.round c.amountMinorUnits := by
    have h := R.mono (Nat.cast_le.mpr hfloor)
    rw [hround minFloorCents le_rfl] at h
    simpa [minFloorCents] using h
  have hratio : spikeRatioThreshold ≤ R.round (R.round c.amountMinorUnits / k) := by
    have hthree : R.round (3 : ℕ) = (3 : ℕ) := hround 3 (by norm_num)
    rw [spikeRatioThreshold, show (3 : ℚ) = ((3 : ℕ) : ℚ) by norm_num, ← hthree]
    apply R.mono
    rcases hk with rfl | rfl <;> push_cast <;> linarith
  refine ⟨R.round (R.round c.amountMinorUnits / k), ?_⟩
  have hpos : ¬ (k : ℚ) ≤ 0 := by rcases hk with rfl | rfl <;> norm_num
  simp [judge, baseline, hpriors, hsum, detectAnomaly, hround k (by omega), not_lt.mpr hfloor, hpos, hratio]

/-- A history alike in the currency, with charges of another one at the moment of the newest. -/
theorem exists_history (h : ChargeTable) (hnewest : IsNewest h.rows s c) (hc : c.currency = C) (w : Int) (k : Nat) :
    ∃ (h' : ChargeTable) (D : String) (ids : List String), ids ≠ [] ∧ inCurrency C h'.rows = inCurrency C h.rows ∧
      IsNewest h'.rows s c ∧ recentCharges h'.rows w s = c :: sameMoment c D k ids := by
  obtain ⟨D, hD⟩ : ∃ D, D ≠ C := exists_ne C
  obtain ⟨rest, hrest⟩ := List.head?_eq_some_iff.mp (isNewest_inCurrency hnewest hc)
  obtain ⟨l, l', hsplit, hbefore, hafter⟩ := exists_of_insertionSort_eq_cons hrest
  obtain ⟨before, tail, hrows, hl, htail⟩ := List.filter_eq_append_iff.mp hsplit
  obtain ⟨skipped, after, rfl, hskipped, hs, hl'⟩ := List.filter_eq_cons_iff.mp htail
  obtain ⟨ids, hlength, hnodup, hfresh⟩ :=
    exists_fresh ((inCurrency C h.rows).map ChargeRecord.chargeId) (clampWindow w)
  have hs : c.subscriptionId = s := by simpa using hs
  have hids : ids ≠ [] := by
    rintro rfl
    simp [clampWindow] at hlength
    omega
  let others := sameMoment c D k ids
  have hothersIds : others.map ChargeRecord.chargeId = ids := by simp [others, sameMoment, Function.comp_def]
  have hothers : ∀ x ∈ others, x.currency = D ∧ x.subscriptionId = s ∧ x.chargedAt = c.chargedAt := by
    simp [others, sameMoment, hs]
  let rows := (before ++ skipped ++ [c]) ++ (others ++ after)
  have hrows : inCurrency C h.rows = (before ++ skipped ++ [c]) ++ after := by
    rw [hrows]
    simp
  have hperm : rows.Perm (others ++ inCurrency C h.rows) := by
    rw [hrows]
    exact List.perm_append_comm_assoc _ _ _
  have hdistinct : (rows.map ChargeRecord.chargeId).Nodup := by
    rw [(hperm.map _).nodup_iff, List.map_append, hothersIds]
    refine List.Nodup.append hnodup ?_ ?_
    · exact h.distinct.sublist (List.filter_sublist.map _)
    · exact fun id hid hused => hfresh id hid hused
  have hin : inCurrency C rows = inCurrency C h.rows := by
    have hself : inCurrency C (inCurrency C h.rows) = inCurrency C h.rows := by simp [inCurrency, List.filter_filter]
    have hothersNil : inCurrency C others = [] := by
      rw [inCurrency, List.filter_eq_nil_iff]
      exact fun x hx => by simpa [(hothers x hx).1] using hD
    rw [hrows] at hself ⊢
    rw [← hself]
    simp only [rows, inCurrency, List.filter_append] at hothersNil ⊢
    rw [hothersNil, List.nil_append]
  have hselected : rows.filter (fun x => x.subscriptionId = s) = l ++ ((c :: others) ++ l') := by
    have hskippedNil : skipped.filter (fun x => x.subscriptionId = s) = [] := List.filter_eq_nil_iff.mpr hskipped
    have hothersAll : others.filter (fun x => x.subscriptionId = s) = others :=
      List.filter_eq_self.mpr fun x hx => by simpa using (hothers x hx).2.1
    simp [rows, hl, hl', hskippedNil, hothersAll, hs]
  have hblock : ∀ b ∈ c :: others, b.chargedAt = c.chargedAt :=
    List.forall_mem_cons.mpr ⟨rfl, fun b hb => (hothers b hb).2.2⟩
  have hsorted : newestFirst rows s = (c :: others) ++ (l ++ l').insertionSort Newer := by
    rw [newestFirst, hselected]
    apply insertionSort_append_append
    · intro x hx b hb
      rw [Newer, hblock b hb]
      exact hbefore x hx
    · refine List.pairwise_of_forall_mem_list fun b hb b' hb' => ?_
      rw [Newer, hblock b hb, hblock b' hb']
    · intro b hb x hx
      rw [Newer, hblock b hb]
      exact hafter x hx
  refine ⟨⟨rows, hdistinct⟩, D, ids, hids, hin, ?_, ?_⟩
  · rw [IsNewest, hsorted]
    rfl
  · have hlen : (c :: others).length = clampWindow w + 1 := by simp [others, sameMoment, hlength]
    rw [recentCharges, hsorted, ← hlen, List.take_left]

/-- The histories that agree with this one on the charges in the currency, the newest among them,
all have its verdict: for a subscription that is not looked at, or whose newest charge is below the
floor, and for no other.  Two histories whose windows hold no charge in another currency have one
verdict. -/
theorem likeWithLike_iff (h : ChargeTable) {c : ChargeRecord} (hnewest : IsNewest h.rows s c) (hc : c.currency = C) :
    ((∀ h' : ChargeTable, inCurrency C h'.rows = inCurrency C h.rows → (∃ c', IsNewest h'.rows s c' ∧ c'.currency = C) →
        verdict R subscriptions h'.rows w s = verdict R subscriptions h.rows w s) ↔
      ¬ Reported subscriptions s ∨ c.amountMinorUnits < minFloorCents) ∧
    ∀ h' : ChargeTable, inCurrency C h'.rows = inCurrency C h.rows →
      (∀ x ∈ recentCharges h.rows w s, x.currency = C) → (∀ x ∈ recentCharges h'.rows w s, x.currency = C) →
        verdict R subscriptions h'.rows w s = verdict R subscriptions h.rows w s := by
  refine ⟨⟨?_, ?_⟩, ?_⟩
  · intro hall
    by_contra hcond
    rw [not_or, not_not, not_lt] at hcond
    obtain ⟨hreported, hfloor⟩ := hcond
    -- Two such histories have different baselines.
    have hverdict (k : Nat) (hk : k = 1 ∨ k = 2) :
        ∃ ratio, (AnomalyCode.spendSpike, (k : ℚ), ratio) ∈ verdict R subscriptions h.rows w s := by
      obtain ⟨h', D, ids, hids, hin, hnewest', hrecent⟩ := exists_history h hnewest hc w k
      obtain ⟨ratio, hjudge⟩ := judge_sameMoment (R := R) (s := s) (D := D) hids hfloor hk
      refine ⟨some ratio, ?_⟩
      rw [← hall h' hin ⟨c, hnewest', hc⟩, verdict_eq, hrecent, hjudge, List.filterMap_replicate]
      exact List.mem_replicate.mpr ⟨(List.count_pos_iff.mpr hreported).ne', rfl⟩
    obtain ⟨_, hone⟩ := hverdict 1 (Or.inl rfl)
    obtain ⟨_, htwo⟩ := hverdict 2 (Or.inr rfl)
    have heq := congrArg (fun x => x.2.1) (eq_of_mem_verdict hone htwo)
    norm_num at heq
  · rintro hcond h' hin ⟨c', hnewest', hc'⟩
    have hsame := isNewest_inCurrency hnewest' hc'
    rw [hin] at hsame
    obtain rfl : c = c' := Option.some.inj ((isNewest_inCurrency hnewest hc).symm.trans hsame)
    rw [verdict_eq_nil hnewest hcond, verdict_eq_nil hnewest' hcond]
  · intro h' hin hpure hpure'
    rw [verdict_eq, verdict_eq, ← recentCharges_inCurrency hpure, ← recentCharges_inCurrency hpure', hin]

/-! ## a sample -/

def sampleCharge (id : String) (amount : Nat) (currency : String) (day : Nat)
    (h : DateTime.valid 2026 7 day 0 0 0 0 = true := by decide) : ChargeRecord where
  chargeId := id
  tenantId := "t"
  subscriptionId := "s"
  amountMinorUnits := amount
  currency := currency
  chargedAt := DateTime.ofFields 2026 7 day 0 0 0 0 h
  recordedBy := "ops"
  note := none
  createdAt := DateTime.ofFields 2026 7 day 0 0 0 0 h

def sampleSubscription : SubscriptionRecord := ⟨"s", "video", "active", DateTime.ofFields 2026 1 1 0 0 0 0 (by decide)⟩

/-- Rationals, not rounded -/
def exactly : Rounding := ⟨id, monotone_id, fun _ _ => rfl⟩

def sampleHistory : ChargeTable := ⟨[sampleCharge "c3" 5000 "USD" 3, sampleCharge "c1" 1000 "USD" 1], by decide⟩

def sampleMixed : ChargeTable :=
  ⟨[sampleCharge "c3" 5000 "USD" 3, sampleCharge "c2" 100000 "JPY" 2, sampleCharge "c1" 1000 "USD" 1], by decide⟩

/-- A charge in JPY hides a spike in USD. -/
theorem likeWithLike_fails : ¬ ∀ (R : Rounding) subscriptions (h h' : ChargeTable) (C s : String) (w : Int) (c c' : ChargeRecord),
    inCurrency C h'.rows = inCurrency C h.rows → IsNewest h.rows s c → c.currency = C → IsNewest h'.rows s c' →
      c'.currency = C → verdict R subscriptions h'.rows w s = verdict R subscriptions h.rows w s := by
  intro hall
  have hsame := hall exactly [sampleSubscription] sampleHistory sampleMixed "USD" "s" 6 (sampleCharge "c3" 5000 "USD" 3)
    (sampleCharge "c3" 5000 "USD" 3) (by decide) (by unfold IsNewest; decide) rfl (by unfold IsNewest; decide) rfl
  have hspike : verdict exactly [sampleSubscription] sampleHistory.rows 6 "s" = [(.spendSpike, 1000, some 5)] := by
    decide +kernel
  have hquiet : verdict exactly [sampleSubscription] sampleMixed.rows 6 "s" = [] := by
    decide +kernel
  rw [hspike, hquiet] at hsame
  simp at hsame

theorem likeWithLike_iff_sample :
    ((∀ h' : ChargeTable, inCurrency "USD" h'.rows = inCurrency "USD" sampleHistory.rows →
        (∃ c', IsNewest h'.rows "s" c' ∧ c'.currency = "USD") →
          verdict exactly [sampleSubscription] h'.rows 6 "s" =
            verdict exactly [sampleSubscription] sampleHistory.rows 6 "s") ↔
      ¬ Reported [sampleSubscription] "s" ∨ 5000 < minFloorCents) ∧
    ∀ h' : ChargeTable, inCurrency "USD" h'.rows = inCurrency "USD" sampleHistory.rows →
      (∀ x ∈ recentCharges sampleHistory.rows 6 "s", x.currency = "USD") →
        (∀ x ∈ recentCharges h'.rows 6 "s", x.currency = "USD") →
          verdict exactly [sampleSubscription] h'.rows 6 "s" =
            verdict exactly [sampleSubscription] sampleHistory.rows 6 "s" :=
  likeWithLike_iff sampleHistory (c := sampleCharge "c3" 5000 "USD" 3) (by unfold IsNewest; decide) rfl

end Anoryx.Delta.Subscriptions
