import Anoryx.Delta.IngestPayload

/-!
# Anoryx.Delta.CostQuantization

The cost of a usage event, from the number on the wire to the cents of a record
(`money.py`, `ingest/posting.py`).

The number is an exact rational: the one that its decimal text, `str(value)`, writes.
`Money.from_wire_cents` rounds it and then looks at the bounds.  So what is checked for its
sign is the rounded number, and a number between minus one half and zero is a cost of zero
(`cost_quantization`).
-/

namespace Anoryx.Delta

open PyJson PyDecimal

variable {q : ℚ} {r : UsageRecord}

section Cost

variable {F : Type} [FloatFormat F]

/-- A JSON number, and the rational that its decimal text writes. -/
def IsNumber (v : Value F) (q : ℚ) : Prop :=
  (∀ s, v ≠ .str s) ∧ ∃ negative coefficient exponent,
    decimalOf v = some (.finite negative coefficient exponent) ∧ q = value negative coefficient exponent

theorem isNumber_int (n : Int) : IsNumber (.int n : Value F) n := by
  refine ⟨by simp, decide (n < 0), n.natAbs, 0, rfl, ?_⟩
  rw [value, zpow_zero, mul_one]
  rcases lt_or_ge n 0 with h | h
  · rw [decide_eq_true h, if_pos rfl, Nat.cast_natAbs, abs_of_neg h]
    push_cast
    ring
  · rw [decide_eq_false (not_lt.mpr h), if_neg (by simp), Nat.cast_natAbs, abs_of_nonneg h, one_mul]

theorem fromWireCents_number {v : Value F} (h : IsNumber v q) :
    fromWireCents v =
      if |halfEven q| < 10 ^ 28 then minorUnits (halfEven q)
      else .error (.valueError "wire cost estimate magnitude is out of range") := by
  obtain ⟨-, negative, coefficient, exponent, hd, rfl⟩ := h
  have hbool : ∀ b, v ≠ .bool b := by
    rintro b rfl
    simp [decimalOf] at hd
  rw [fromWireCents.eq_2 v (fun b hb => hbool b hb), hd]
  simp only [quantizeUnit]
  by_cases hsmall : |halfEven (value negative coefficient exponent)| < 10 ^ 28
  · rw [if_pos hsmall, if_pos hsmall]
  · rw [if_neg hsmall, if_neg hsmall]

theorem fromWireCents_eq_ok {v : Value F} (h : IsNumber v q) {n : Nat} :
    fromWireCents v = .ok n ↔ halfEven q = n ∧ n ≤ maxMoneyMinorUnits := by
  rw [fromWireCents_number h, minorUnits, maxMoneyMinorUnits]
  split
  · grind
  · next hlarge =>
      rw [not_lt] at hlarge
      simp only [reduceCtorEq, false_iff, not_and]
      intro heq
      rw [heq, Nat.abs_cast] at hlarge
      omega

/-! ## the events that differ in their cost -/

/-- The event with a cost. -/
def costed (ms : List (String × Value F)) (cost : Value F) : Value F :=
  .obj (setItem "cost_estimate_cents" cost ms)

variable {libs : Libraries F} {ms : List (String × Value F)} {v : Value F}

omit [FloatFormat F] in
theorem get_costed {k : String} (h : "cost_estimate_cents" ≠ k) :
    get k (setItem "cost_estimate_cents" v ms) = get k ms := by
  rw [get, get, getItem_setItem, if_neg h]

omit [FloatFormat F] in
theorem usageRecord_costed (costCents : Nat) :
    usageRecord libs (setItem "cost_estimate_cents" v ms) costCents = usageRecord libs ms costCents := by
  simp (disch := decide) only [usageRecord, get_costed]

omit [FloatFormat F] in
theorem usageRecord_cost {n : Nat} (h : usageRecord libs ms n = some r) :
    r.costEstimateCents = n ∧ n ≤ maxUsageCostCents ∧
      ∀ n' ≤ maxUsageCostCents, ∃ r', usageRecord libs ms n' = some r' := by
  simp only [usageRecord, Option.bind_eq_bind, Option.bind_eq_some_iff, Option.pure_def, Option.some.injEq] at h ⊢
  obtain ⟨tenantId, htenant, teamId, hteam, projectId, hproject, agentId, hagent, model, hmodel, tokensIn, htokensIn,
    tokensOut, htokensOut, cost, hcost, requestId, hrequest, eventId, hevent, eventTimestamp, hstamp, rfl⟩ := h
  simp only [boundedCount, Option.dite_none_right_eq_some] at hcost
  obtain ⟨⟨_, hle⟩, hcost⟩ := hcost
  rw [Int.toNat_natCast] at hle
  refine ⟨?_, hle, fun n' hn' => ?_⟩
  · rw [← Option.some.inj hcost]
    simp
  · refine ⟨_, tenantId, htenant, teamId, hteam, projectId, hproject, agentId, hagent, model, hmodel, tokensIn, htokensIn,
      tokensOut, htokensOut, ⟨n', hn'⟩, ?_, requestId, hrequest, eventId, hevent, eventTimestamp, hstamp, rfl⟩
    simp [boundedCount, hn']

/-- What an event needs besides its cost. -/
def OtherwiseValid (libs : Libraries F) (ms : List (String × Value F)) : Prop :=
  ∃ r, buildUsageRecord libs (costed ms (.int 0)) = .ok r

theorem buildUsageRecord_costed :
    buildUsageRecord libs (costed ms v) =
      if textOf (get "event_type" ms) ≠ some "usage" then
        .error (.permanent ⟨.malformedPayload,
          "unsupported event_type " ++ libs.repr (get "event_type" ms) ++ " (only 'usage' is ingested)",
          usageAttribution ms⟩)
      else if tenantOf (get "tenant_id" ms) = none then
        .error (.permanent ⟨.unknownTenant, "missing or malformed tenant_id",
          { usageAttribution ms with tenantId := none }⟩)
      else buildCosted libs (setItem "cost_estimate_cents" v ms) v := by
  rw [costed, buildUsageRecord, get_costed (by decide), get_costed (by decide), getItem_setItem, if_pos rfl]
  simp (disch := decide) only [usageAttribution, get_costed]

theorem buildCosted_eq_ok {ms : List (String × Value F)} :
    buildCosted libs ms v = .ok r ↔
      ∃ n, fromWireCents v = .ok n ∧ isInteger (get "latency_ms" ms) = true ∧ usageRecord libs ms n = some r := by
  rw [buildCosted]
  cases fromWireCents v with
  | error e => simp
  | ok n =>
      cases hlatency : isInteger (get "latency_ms" ms) with
      | false => simp
      | true =>
          cases husage : usageRecord libs ms n with
          | none => simp [husage]
          | some record => simp [husage]

/-- **What is accepted**: the cost is the rounded number, and within the bound. -/
theorem buildUsageRecord_number (hv : IsNumber v q) (hrest : OtherwiseValid libs ms) :
    ((∃ r, buildUsageRecord libs (costed ms v) = .ok r) ↔ 0 ≤ halfEven q ∧ halfEven q ≤ maxUsageCostCents) ∧
    ∀ r, buildUsageRecord libs (costed ms v) = .ok r → (r.costEstimateCents : ℤ) = halfEven q := by
  obtain ⟨r₀, hr₀⟩ := hrest
  rw [buildUsageRecord_costed] at hr₀ ⊢
  split_ifs at hr₀ ⊢ with htype htenant
  obtain ⟨n₀, hn₀, hlatency, hrecord⟩ := buildCosted_eq_ok.mp hr₀
  rw [get_costed (by decide)] at hlatency
  rw [usageRecord_costed] at hrecord
  obtain ⟨-, -, hothers⟩ := usageRecord_cost hrecord
  simp only [buildCosted_eq_ok, get_costed (show "cost_estimate_cents" ≠ "latency_ms" by decide), hlatency, true_and,
    usageRecord_costed, fromWireCents_eq_ok hv]
  refine ⟨⟨?_, fun ⟨hpos, hle⟩ => ?_⟩, ?_⟩
  · rintro ⟨r, n, ⟨heq, -⟩, hn⟩
    have hle := (usageRecord_cost hn).2.1
    omega
  · have hnat : halfEven q = (halfEven q).toNat := by omega
    obtain ⟨r, hr⟩ := hothers (halfEven q).toNat (by omega)
    refine ⟨r, (halfEven q).toNat, ⟨hnat, ?_⟩, hr⟩
    rw [maxUsageCostCents] at hle
    rw [maxMoneyMinorUnits]
    omega
  · rintro r ⟨n, ⟨heq, -⟩, hn⟩
    rw [(usageRecord_cost hn).1, heq]

/-- What is expected of the cost `q`: accepted exactly if it is not negative and rounds to
a cost within the bound, stored as it rounds, at most one half away, and in the order of
the numbers; and refused if it is negative. -/
structure Quantizes (libs : Libraries F) (ms : List (String × Value F)) (v : Value F) (q : ℚ) : Prop where
  accepted : (∃ r, buildUsageRecord libs (costed ms v) = .ok r) ↔ 0 ≤ q ∧ halfEven q ≤ maxUsageCostCents
  stored : ∀ r, buildUsageRecord libs (costed ms v) = .ok r →
    (r.costEstimateCents : ℤ) = halfEven q ∧ |(r.costEstimateCents : ℚ) - q| ≤ 1 / 2
  ordered : ∀ v' q' r r', IsNumber v' q' → q ≤ q' → buildUsageRecord libs (costed ms v) = .ok r →
    buildUsageRecord libs (costed ms v') = .ok r' → r.costEstimateCents ≤ r'.costEstimateCents
  negative : q < 0 → ∃ e, buildUsageRecord libs (costed ms v) = .error e

/-- **The cost of an event** is treated as expected, unless it is negative and rounds to
zero. -/
theorem cost_quantization (libs : Libraries F) (ms : List (String × Value F)) (v : Value F) (q : ℚ)
    (hv : IsNumber v q) (hrest : OtherwiseValid libs ms) :
    Quantizes libs ms v q ↔ ¬ (-(1 / 2) ≤ q ∧ q < 0) := by
  obtain ⟨haccepted, hcost⟩ := buildUsageRecord_number hv hrest
  constructor
  · rintro h ⟨hlow, hneg⟩
    have hround : 0 ≤ halfEven q := not_lt.mp fun hlt => absurd (halfEven_neg_iff.mp hlt) (not_lt.mpr hlow)
    have hzero : halfEven q ≤ maxUsageCostCents := by
      have hmono := halfEven_mono hneg.le
      rw [← Int.cast_zero, halfEven_intCast] at hmono
      omega
    exact absurd (h.accepted.mp (haccepted.mpr ⟨hround, hzero⟩)).1 (not_le.mpr hneg)
  · intro hnot
    have hsign : 0 ≤ halfEven q ↔ 0 ≤ q := by
      refine ⟨fun hround => ?_, halfEven_nonneg⟩
      by_contra hneg
      refine absurd hround (not_le.mpr (halfEven_neg_iff.mpr ?_))
      by_contra hlow
      exact hnot ⟨not_lt.mp hlow, not_le.mp hneg⟩
    refine ⟨by rw [haccepted, hsign], fun r hr => ⟨hcost r hr, ?_⟩, fun v' q' r r' hv' hle hr hr' => ?_, fun hneg => ?_⟩
    · have hnear := abs_halfEven_sub_le q
      rwa [← hcost r hr, Int.cast_natCast] at hnear
    · have hmono := halfEven_mono hle
      rw [← hcost r hr, ← (buildUsageRecord_number hv' hrest).2 r' hr'] at hmono
      exact_mod_cast hmono
    · cases hbuild : buildUsageRecord libs (costed ms v) with
      | error e => exact ⟨e, rfl⟩
      | ok r => exact absurd (hsign.mp (haccepted.mp ⟨r, hbuild⟩).1) (not_le.mpr hneg)

end Cost

/-! ## an event -/

/-- A format with two floats, `-0.3` and `2.5`. -/
inductive SampleFloat
  | minusThreeTenths
  | twoAndAHalf
deriving DecidableEq

def SampleFloat.repr : SampleFloat → List Char
  | .minusThreeTenths => ['-', '0', '.', '3']
  | .twoAndAHalf => ['2', '.', '5']

instance : FloatFormat SampleFloat where
  repr := SampleFloat.repr
  ofText cs := [.minusThreeTenths, .twoAndAHalf].find? fun x => x.repr = cs
  isFloatText_repr x := by cases x <;> decide
  ofText_repr x := by cases x <;> rfl

def sampleOccurredAt : DateTime := DateTime.ofFields 2026 1 1 0 0 0 0 (Eq.refl true)

/-- Libraries that read one datetime. -/
def oneDatetime : Libraries SampleFloat where
  datetime
    | .str "2026-01-01T00:00:00+00:00" => some (some sampleOccurredAt)
    | _ => none
  validationText field message _ := field ++ ": " ++ message
  repr _ := ""

def sampleUsageEvent : List (String × Value SampleFloat) :=
  let id := "11111111-1111-4111-8111-111111111111"
  [("event_type", .str "usage"), ("tenant_id", .str id), ("team_id", .str id), ("project_id", .str id),
    ("agent_id", .str "agent-1"), ("model", .str "model-x"), ("tokens_in", .int 1), ("tokens_out", .int 1),
    ("latency_ms", .int 1), ("request_id", .str "req-1"), ("event_id", .str id),
    ("event_timestamp", .str "2026-01-01T00:00:00+00:00")]

theorem sampleUsageEvent_valid : OtherwiseValid oneDatetime sampleUsageEvent := by
  have hcost : fromWireCents (.int 0 : Value SampleFloat) = .ok 0 :=
    (fromWireCents_eq_ok (isNumber_int 0)).mpr ⟨halfEven_intCast 0, by decide⟩
  have hrecord : ∃ r, usageRecord oneDatetime sampleUsageEvent 0 = some r := ⟨_, rfl⟩
  obtain ⟨r, hr⟩ := hrecord
  refine ⟨r, ?_⟩
  rw [buildUsageRecord_costed, if_neg (by decide), if_neg (by decide), buildCosted_eq_ok]
  exact ⟨0, hcost, by rfl, by rwa [usageRecord_costed]⟩

theorem isNumber_minusThreeTenths : IsNumber (.float .minusThreeTenths : Value SampleFloat) (-3 / 10) :=
  ⟨by simp, true, 3, -1, by decide, by norm_num [value]⟩

theorem isNumber_twoAndAHalf : IsNumber (.float .twoAndAHalf : Value SampleFloat) (5 / 2) :=
  ⟨by simp, false, 25, -1, by decide, by norm_num [value]⟩

/-- A cost of -7 is refused, one of 2.5 is stored as 2. -/
theorem cost_quantization_sample :
    Quantizes oneDatetime sampleUsageEvent (.int (-7)) (-7) ∧
    Quantizes oneDatetime sampleUsageEvent (.float .twoAndAHalf) (5 / 2) ∧
    ∃ r, buildUsageRecord oneDatetime (costed sampleUsageEvent (.float .twoAndAHalf)) = .ok r ∧
      r.costEstimateCents = 2 := by
  have hseven : IsNumber (.int (-7) : Value SampleFloat) (-7) := by
    have hint := isNumber_int (F := SampleFloat) (-7)
    push_cast at hint
    exact hint
  have hhalf := (cost_quantization oneDatetime sampleUsageEvent (.float .twoAndAHalf) (5 / 2) isNumber_twoAndAHalf
    sampleUsageEvent_valid).mpr (by norm_num)
  have hround : halfEven (5 / 2) = 2 := by
    have hfloor : ⌊(5 / 2 : ℚ)⌋ = 2 := by norm_num [Int.floor_eq_iff]
    unfold halfEven
    rw [hfloor]
    norm_num
  obtain ⟨r, hr⟩ := hhalf.accepted.mpr ⟨by norm_num, by rw [hround]; decide⟩
  have hcost := (hhalf.stored r hr).1
  rw [hround] at hcost
  exact ⟨(cost_quantization oneDatetime sampleUsageEvent (.int (-7)) (-7) hseven sampleUsageEvent_valid).mpr
    (by norm_num), hhalf, r, hr, by exact_mod_cast hcost⟩

/-- Minus three tenths of a cent is a cost of zero. -/
theorem negative_cost_accepted :
    IsNumber (.float .minusThreeTenths : Value SampleFloat) (-3 / 10) ∧
    ∃ r, buildUsageRecord oneDatetime (costed sampleUsageEvent (.float .minusThreeTenths)) = .ok r ∧
      r.costEstimateCents = 0 := by
  have hround : halfEven (-3 / 10) = 0 := by
    have hfloor : ⌊(-3 / 10 : ℚ)⌋ = -1 := by norm_num [Int.floor_eq_iff]
    unfold halfEven
    rw [hfloor]
    norm_num
  obtain ⟨haccepted, hcost⟩ := buildUsageRecord_number isNumber_minusThreeTenths sampleUsageEvent_valid
  rw [hround] at haccepted
  obtain ⟨r, hr⟩ := haccepted.mpr ⟨le_refl 0, by decide⟩
  refine ⟨isNumber_minusThreeTenths, r, hr, ?_⟩
  have hzero := hcost r hr
  rw [hround] at hzero
  exact_mod_cast hzero

end Anoryx.Delta
