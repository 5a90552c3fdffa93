import Anoryx.BudgetAgreement
import Anoryx.PyInt
import Anoryx.Truncation

/-!
# Anoryx.PeriodWindows

The windows of the budget periods, as Delta computes them (`budget_engine/periods.py`), and
the start that Sentinel computes for the same period (`policy/enforcement.py`).

`datetime` ends with year 9999.  The last window of a period has no end there, and
`period_end` raises; every other window ends where the next one starts (`period_windows`).
-/

namespace Anoryx

open DateTime

open Delta (BudgetPeriod BucketLabel periodStart periodEnd periodBucketLabel)

/-! ## the label -/

/-- `%Y`, which some platforms pad to four digits and others do not. -/
def yearText (pads : Bool) (year : Nat) : List Char :=
  if pads then padded 4 year else Nat.toDigits 10 year

/-- `%Y-%m-%dT%H:%M:%SZ` -/
def labelText (pads : Bool) (label : BucketLabel) : String :=
  String.ofList (yearText pads label.year ++ '-' :: (padded 2 label.month ++
    '-' :: (padded 2 label.day ++ 'T' :: (padded 2 label.hour ++
      ':' :: (padded 2 label.minute ++ ':' :: (padded 2 label.second ++ ['Z']))))))

theorem yearText_append_inj {pads : Bool} {m n : Nat} {cs ds : List Char} (hm : m < 10 ^ 4) (hn : n < 10 ^ 4)
    (h : yearText pads m ++ '-' :: cs = yearText pads n ++ '-' :: ds) : m = n ∧ cs = ds := by
  cases pads with
  | true =>
      obtain ⟨hyear, hrest⟩ := padded_append_inj hm hn h
      exact ⟨hyear, (List.cons.inj hrest).2⟩
  | false => exact PyInt.toDigits_append_inj (by decide) h

variable {period : BudgetPeriod}

variable {t u d e b stop : DateTime}

/-- Labels name periods: equal labels, equal starts. -/
theorem labelText_eq_iff {pads : Bool} :
    labelText pads (periodBucketLabel period t) = labelText pads (periodBucketLabel period u) ↔
      periodStart period t = periodStart period u := by
  constructor
  · intro h
    have h := String.ofList_injective h
    generalize ha : periodStart period t = a at h
    generalize hb : periodStart period u = b at h
    have hmicro : a.microsecond = b.microsecond := by subst ha hb; cases period <;> rfl
    simp only [periodBucketLabel, ha, hb] at h
    have := a.year_le; have := b.year_le; have := a.month_le; have := b.month_le
    have := a.day_le; have := b.day_le
    have := daysInMonth_le a.year a.month; have := daysInMonth_le b.year b.month
    have := a.hour_lt; have := b.hour_lt; have := a.minute_lt; have := b.minute_lt
    have := a.second_lt; have := b.second_lt
    obtain ⟨hyear, h⟩ := yearText_append_inj (by omega) (by omega) h
    obtain ⟨hmonth, h⟩ := padded_append_inj (by omega) (by omega) h
    obtain ⟨hday, h⟩ := padded_append_inj (by omega) (by omega) (List.cons.inj h).2
    obtain ⟨hhour, h⟩ := padded_append_inj (by omega) (by omega) (List.cons.inj h).2
    obtain ⟨hminute, h⟩ := padded_append_inj (by omega) (by omega) (List.cons.inj h).2
    obtain ⟨hsecond, -⟩ := padded_append_inj (by omega) (by omega) (List.cons.inj h).2
    exact DateTime.ext hyear hmonth hday hhour hminute hsecond hmicro
  · intro h
    simp only [periodBucketLabel, h]

/-! ## the starts -/

/-- A month as one number. -/
def DateTime.monthRank (d : DateTime) : Nat := d.year * 13 + d.month

/-- An hour as one number. -/
def DateTime.hourRank (d : DateTime) : Nat := d.dateRank * 24 + d.hour

namespace DateTime

variable {a b : DateTime}

theorem dateRank_mono (h : a ≤ b) : a.dateRank ≤ b.dateRank := by
  have := b.timeRank_lt
  rw [le_iff_rank, rank, rank] at h
  omega

theorem hourRank_mono (h : a ≤ b) : a.hourRank ≤ b.hourRank := by
  have := b.minute_lt; have := b.second_lt; have := b.microsecond_lt
  have := a.hour_lt; have := b.hour_lt
  rw [le_iff_rank, rank, rank, timeRank, timeRank] at h
  rw [hourRank, hourRank]
  omega

theorem monthRank_le_of_dateRank_le (h : a.dateRank ≤ b.dateRank) : a.monthRank ≤ b.monthRank := by
  have := b.day_le; have := daysInMonth_le b.year b.month
  rw [dateRank, dateRank] at h
  rw [monthRank, monthRank]
  omega

theorem startOfHour_mono (h : a.hourRank ≤ b.hourRank) : a.startOfHour ≤ b.startOfHour := by
  have hrank : ∀ d : DateTime, d.startOfHour.rank = d.hourRank * 3600000000 := by
    intro d
    simp only [rank, dateRank, timeRank, hourRank, startOfHour]
    omega
  rw [le_iff_rank, hrank, hrank]
  omega

theorem startOfDay_mono (h : a.dateRank ≤ b.dateRank) : a.startOfDay ≤ b.startOfDay := by
  have hrank : ∀ d : DateTime, d.startOfDay.rank = d.dateRank * 86400000000 := by
    intro d
    simp only [rank, dateRank, timeRank, startOfDay, startOfHour]
    omega
  rw [le_iff_rank, hrank, hrank]
  omega

theorem startOfMonth_mono (h : a.monthRank ≤ b.monthRank) : a.startOfMonth ≤ b.startOfMonth := by
  have hrank : ∀ d : DateTime, d.startOfMonth.rank = (d.monthRank * 32 + 1) * 86400000000 := by
    intro d
    simp only [rank, dateRank, timeRank, monthRank, startOfMonth, startOfDay, startOfHour]
    omega
  rw [le_iff_rank, hrank, hrank]
  omega

/-! ## the next start -/

theorem nextMonth_fields (h : d.nextMonth = some e) :
    e.day = 1 ∧ e.hour = d.hour ∧ e.minute = d.minute ∧ e.second = d.second ∧ e.microsecond = d.microsecond := by
  unfold nextMonth at h
  split_ifs at h <;> cases h <;> exact ⟨rfl, rfl, rfl, rfl, rfl⟩

theorem nextDay_fields (h : d.nextDay = some e) :
    e.hour = d.hour ∧ e.minute = d.minute ∧ e.second = d.second ∧ e.microsecond = d.microsecond := by
  unfold nextDay at h
  split at h
  · cases h
    exact ⟨rfl, rfl, rfl, rfl⟩
  · exact (nextMonth_fields h).2

theorem nextHour_fields (h : d.nextHour = some e) :
    e.minute = d.minute ∧ e.second = d.second ∧ e.microsecond = d.microsecond := by
  unfold nextHour at h
  split at h
  · cases h
    exact ⟨rfl, rfl, rfl⟩
  · exact (nextDay_fields h).2

theorem monthRank_le_of_lt_nextMonth {b : DateTime} (h : d.nextMonth = some e) (hb : b.dateRank < e.dateRank) :
    b.monthRank ≤ d.monthRank := by
  have := b.day_pos; have := b.month_pos; have := b.month_le
  have := d.month_le
  unfold nextMonth at h
  split_ifs at h <;> cases h <;> simp only [dateRank, monthRank] at hb ⊢ <;> omega

theorem dateRank_le_of_lt_nextDay {b : DateTime} (h : d.nextDay = some e) (hb : b.dateRank < e.dateRank) :
    b.dateRank ≤ d.dateRank := by
  unfold nextDay at h
  split at h
  · cases h
    simp only [dateRank] at hb ⊢
    omega
  · next hlast =>
      have hmonth := monthRank_le_of_lt_nextMonth h hb
      have hday := b.day_le
      have := daysInMonth_le b.year b.month
      have := b.month_pos; have := b.month_le; have := d.month_pos; have := d.month_le
      rw [monthRank, monthRank] at hmonth
      rw [dateRank, dateRank]
      rcases hmonth.lt_or_eq with hlt | heq
      · omega
      · have hyear : b.year = d.year := by omega
        have hsame : b.month = d.month := by omega
        rw [hyear, hsame] at hday ⊢
        omega

theorem hourRank_le_of_lt_nextHour {b : DateTime} (hd : d.startOfHour = d) (h : d.nextHour = some e) (hb : b < e) :
    b.hourRank ≤ d.hourRank := by
  have hminute : d.minute = 0 := congrArg minute hd.symm
  have hsecond : d.second = 0 := congrArg second hd.symm
  have hmicro : d.microsecond = 0 := congrArg microsecond hd.symm
  have := b.hour_lt
  unfold nextHour at h
  split at h
  · cases h
    rw [lt_iff_rank] at hb
    simp only [rank, dateRank, timeRank, hourRank, hminute, hsecond, hmicro] at hb ⊢
    omega
  · obtain ⟨hour, hmin, hsec, hmic⟩ := nextDay_fields h
    rw [lt_iff_rank, rank, rank] at hb
    have htime : e.timeRank = 0 := by simp [timeRank, hour, hmin, hsec, hmic, hminute, hsecond, hmicro]
    have hdate := dateRank_le_of_lt_nextDay (b := b) h (by omega)
    simp only [dateRank, hourRank] at hdate ⊢
    omega

end DateTime

/-! ## the windows -/

theorem truncation_periodStart (period : BudgetPeriod) : Truncation (periodStart period) where
  le := Delta.periodStart_le period
  mono a b h := by
    cases period with
    | hourly => exact startOfHour_mono (hourRank_mono h)
    | daily => exact startOfDay_mono (dateRank_mono h)
    | monthly => exact startOfMonth_mono (monthRank_le_of_dateRank_le (dateRank_mono h))
  idem t := by cases period <;> rfl

namespace DateTime

theorem startOfHour_eq_self (hminute : d.minute = 0) (hsecond : d.second = 0) (hmicro : d.microsecond = 0) :
    d.startOfHour = d :=
  DateTime.ext rfl rfl rfl rfl hminute.symm hsecond.symm hmicro.symm

theorem startOfDay_eq_self (h : d.timeRank = 0) : d.startOfDay = d := by
  rw [timeRank] at h
  have hhour : 0 = d.hour := by omega
  have hminute : 0 = d.minute := by omega
  have hsecond : 0 = d.second := by omega
  have hmicro : 0 = d.microsecond := by omega
  exact DateTime.ext rfl rfl rfl hhour hminute hsecond hmicro

theorem startOfMonth_eq_self (hday : d.day = 1) (h : d.timeRank = 0) : d.startOfMonth = d := by
  have hstart := startOfDay_eq_self h
  have hhour : 0 = d.hour := congrArg hour hstart
  have hminute : 0 = d.minute := congrArg minute hstart
  have hsecond : 0 = d.second := congrArg second hstart
  have hmicro : 0 = d.microsecond := congrArg microsecond hstart
  exact DateTime.ext rfl rfl hday.symm hhour hminute hsecond hmicro

theorem timeRank_startOfDay (d : DateTime) : d.startOfDay.timeRank = 0 := by
  simp [timeRank, startOfDay, startOfHour]

theorem timeRank_startOfMonth (d : DateTime) : d.startOfMonth.timeRank = 0 := timeRank_startOfDay d

theorem timeRank_nextMonth (hd : d.timeRank = 0) (h : d.nextMonth = some e) : e.timeRank = 0 := by
  obtain ⟨-, hhour, hminute, hsecond, hmicro⟩ := nextMonth_fields h
  rw [timeRank, hhour, hminute, hsecond, hmicro]
  exact hd

theorem timeRank_nextDay (hd : d.timeRank = 0) (h : d.nextDay = some e) : e.timeRank = 0 := by
  obtain ⟨hhour, hminute, hsecond, hmicro⟩ := nextDay_fields h
  rw [timeRank, hhour, hminute, hsecond, hmicro]
  exact hd

theorem dateRank_lt_of_lt (hd : d.timeRank = 0) (h : b < d) : b.dateRank < d.dateRank := by
  rw [lt_iff_rank, rank, rank] at h
  omega

end DateTime

/-- The end of a period is the next start. -/
theorem isNext_periodEnd (h : periodEnd period t = some stop) : Truncation.IsNext (periodStart period) t stop where
  isStart := by
    cases period with
    | hourly =>
        obtain ⟨hminute, hsecond, hmicro⟩ := nextHour_fields h
        exact startOfHour_eq_self hminute hsecond hmicro
    | daily => exact startOfDay_eq_self (timeRank_nextDay (timeRank_startOfDay t) h)
    | monthly =>
        have hday := (nextMonth_fields h).1
        exact startOfMonth_eq_self hday (timeRank_nextMonth (timeRank_startOfMonth t) h)
  lt := Delta.lt_periodEnd h
  below b hb := by
    cases period with
    | hourly =>
        have hrank := hourRank_le_of_lt_nextHour (d := t.startOfHour) rfl h hb
        exact startOfHour_mono hrank
    | daily =>
        have htime := timeRank_nextDay (timeRank_startOfDay t) h
        have hrank := dateRank_le_of_lt_nextDay h (dateRank_lt_of_lt htime hb)
        exact startOfDay_mono hrank
    | monthly =>
        have htime := timeRank_nextMonth (timeRank_startOfMonth t) h
        have hrank := monthRank_le_of_lt_nextMonth h (dateRank_lt_of_lt htime hb)
        exact startOfMonth_mono hrank

/-- The start of the last window that a `datetime` lies in. -/
def lastStart : BudgetPeriod → DateTime
  | .hourly => .ofFields 9999 12 31 23 0 0 0 (Eq.refl true)
  | .daily => .ofFields 9999 12 31 0 0 0 0 (Eq.refl true)
  | .monthly => .ofFields 9999 12 1 0 0 0 0 (Eq.refl true)

namespace DateTime

theorem nextMonth_eq_none : d.nextMonth = none ↔ d.year = 9999 ∧ d.month = 12 := by
  have := d.month_le; have := d.year_le
  unfold nextMonth
  split_ifs <;> simp <;> omega

theorem nextDay_eq_none : d.nextDay = none ↔ d.year = 9999 ∧ d.month = 12 ∧ d.day = 31 := by
  have hday := d.day_le
  unfold nextDay
  split
  · next hlt =>
      have hdec : ¬ (d.year = 9999 ∧ d.month = 12 ∧ d.day = 31) := by
        rintro ⟨-, hmonth, hlast⟩
        rw [hmonth, hlast, show daysInMonth d.year 12 = 31 from rfl] at hlt
        omega
      simpa using hdec
  · next hge =>
      rw [nextMonth_eq_none]
      constructor
      · rintro ⟨hyear, hmonth⟩
        have hlast : daysInMonth d.year d.month = 31 := by rw [hmonth]; rfl
        exact ⟨hyear, hmonth, by omega⟩
      · rintro ⟨hyear, hmonth, -⟩
        exact ⟨hyear, hmonth⟩

theorem nextHour_eq_none : d.nextHour = none ↔ d.year = 9999 ∧ d.month = 12 ∧ d.day = 31 ∧ d.hour = 23 := by
  have := d.hour_lt
  unfold nextHour
  split
  · next hlt => simp; omega
  · next hge =>
      rw [nextDay_eq_none]
      have hhour : d.hour = 23 := by omega
      simp [hhour]

end DateTime

/-- Only in the last period that a date can name there is no end. -/
theorem periodEnd_eq_none : periodEnd period t = none ↔ lastStart period ≤ t := by
  have := t.year_le; have := t.month_le; have := t.day_le; have := t.hour_lt
  have := t.day_pos; have := daysInMonth_le t.year t.month; have := t.minute_lt; have := t.second_lt
  have := t.microsecond_lt
  rw [le_iff_rank]
  cases period with
  | hourly =>
      rw [periodEnd, nextHour_eq_none]
      simp only [periodStart, startOfHour, lastStart, ofFields, rank, dateRank,
        timeRank]
      omega
  | daily =>
      rw [periodEnd, nextDay_eq_none]
      simp only [periodStart, startOfDay, startOfHour, lastStart, ofFields, rank,
        dateRank, timeRank]
      omega
  | monthly =>
      rw [periodEnd, nextMonth_eq_none]
      simp only [periodStart, startOfMonth, startOfDay, startOfHour, lastStart,
        ofFields, rank, dateRank, timeRank]
      omega

theorem periodStart_lastStart (period : BudgetPeriod) : periodStart period (lastStart period) = lastStart period := by
  cases period <;> rfl

theorem periodStart_le_lastStart (period : BudgetPeriod) (t : DateTime) : periodStart period t ≤ lastStart period := by
  have := t.year_le; have := t.month_le; have := t.day_le; have := daysInMonth_le t.year t.month
  have := t.hour_lt
  cases period with
  | hourly =>
      refine startOfHour_mono (b := lastStart .hourly) ?_
      simp only [hourRank, dateRank, lastStart, ofFields]
      omega
  | daily =>
      refine startOfDay_mono (b := lastStart .daily) ?_
      simp only [dateRank, lastStart, ofFields]
      omega
  | monthly =>
      refine startOfMonth_mono (b := lastStart .monthly) ?_
      simp only [monthRank, lastStart, ofFields]
      omega

/-- `u` lies in the window of `t`; the last window has no end. -/
def InWindow (period : BudgetPeriod) (t u : DateTime) : Prop :=
  periodStart period t ≤ u ∧ ∀ stop, periodEnd period t = some stop → u < stop

theorem periodStart_eq_iff : periodStart period t = periodStart period u ↔ InWindow period t u := by
  have htrunc := truncation_periodStart period
  rw [InWindow]
  cases hend : periodEnd period t with
  | some stop => simpa [eq_comm] using (isNext_periodEnd hend).start_eq_iff htrunc
  | none =>
      have hstart : ∀ v, lastStart period ≤ v → periodStart period v = lastStart period := fun v hv =>
        le_antisymm (periodStart_le_lastStart period v)
          (periodStart_lastStart period ▸ htrunc.mono hv)
      rw [hstart t (periodEnd_eq_none.mp hend)]
      constructor
      · intro heq
        exact ⟨heq ▸ htrunc.le u, fun stop hstop => nomatch hstop⟩
      · rintro ⟨hle, -⟩
        exact (hstart u hle).symm

/-- **Budget windows tile time, and the services agree on them.**  An instant lies in its own
window; a window that `datetime` can end ends at the next start, and only the last window of
year 9999 cannot be ended; one label is one window; and Sentinel starts the period where Delta
does. -/
theorem period_windows (pads : Bool) (period : BudgetPeriod) (t : DateTime) :
    InWindow period t t ∧
      (periodEnd period t = none ↔ lastStart period ≤ t) ∧
      (∀ stop, periodEnd period t = some stop → t < stop ∧ periodStart period stop = stop ∧
        ∀ u, periodStart period t < periodStart period u → stop ≤ periodStart period u) ∧
      (∀ u, labelText pads (periodBucketLabel period t) = labelText pads (periodBucketLabel period u) ↔
        InWindow period t u) ∧
      periodStart period t = Sentinel.periodStart (periodValue period) t := by
  refine ⟨periodStart_eq_iff.mp rfl, periodEnd_eq_none, fun stop hstop => ?_, fun u => ?_, ?_⟩
  · have hnext := isNext_periodEnd hstop
    exact ⟨hnext.lt, hnext.isStart, fun u => hnext.le_of_start_lt (truncation_periodStart period)⟩
  · rw [labelText_eq_iff, periodStart_eq_iff]
  · cases period <;> rfl

/-- In the last hour of year 9999 the window has no end. -/
theorem periodEnd_raises : ¬ ∀ (period : BudgetPeriod) (t : DateTime),
    ∃ stop, periodEnd period t = some stop ∧ periodStart period t ≤ t ∧ t < stop := by
  intro h
  obtain ⟨stop, hstop, -⟩ := h .hourly (.ofFields 9999 12 31 23 30 0 0 (Eq.refl true))
  have hnone : periodEnd .hourly (.ofFields 9999 12 31 23 30 0 0 (Eq.refl true)) = none := by decide
  rw [hnone] at hstop
  cases hstop

end Anoryx
