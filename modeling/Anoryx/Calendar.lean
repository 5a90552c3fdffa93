import Mathlib

/-!
# Anoryx.Calendar

UTC datetimes, as the services compute with them: the broken-down fields of
`datetime` (already converted to UTC), ordered field by field, with the
`replace` and `+ timedelta` steps that the period arithmetic takes.

The order is read off one number, `rank`, the mixed-radix value of the fields;
`rank_lt_of_…` lemmas compare two datetimes that agree on their leading
fields.  Adding a `timedelta` past the end of year 9999 raises in Python and is
`none` here.
-/

namespace Anoryx

/-- Leap years of the proleptic Gregorian calendar. -/
def isLeap (year : Nat) : Bool := year % 4 == 0 && (year % 100 != 0 || year % 400 == 0)

/-- Days of a month (`month` is 1 for January). -/
def daysInMonth (year month : Nat) : Nat :=
  match month with
  | 2 => if isLeap year then 29 else 28
  | 4 => 30
  | 6 => 30
  | 9 => 30
  | 11 => 30
  | _ => 31

theorem daysInMonth_pos (year month : Nat) : 1 ≤ daysInMonth year month := by
  unfold daysInMonth
  split <;> (try split) <;> omega

theorem daysInMonth_le (year month : Nat) : daysInMonth year month ≤ 31 := by
  unfold daysInMonth
  split <;> (try split) <;> omega

@[ext]
structure DateTime where
  year : Nat
  month : Nat
  day : Nat
  hour : Nat
  minute : Nat
  second : Nat
  microsecond : Nat
  year_pos : 1 ≤ year := by decide
  year_le : year ≤ 9999 := by decide
  month_pos : 1 ≤ month := by decide
  month_le : month ≤ 12 := by decide
  day_pos : 1 ≤ day := by decide
  day_le : day ≤ daysInMonth year month := by decide
  hour_lt : hour < 24 := by decide
  minute_lt : minute < 60 := by decide
  second_lt : second < 60 := by decide
  microsecond_lt : microsecond < 1000000 := by decide
deriving DecidableEq

variable {a b d e : DateTime} {width m n : Nat}

namespace DateTime

/-- The fields name a moment that exists. -/
def valid (year month day hour minute second microsecond : Nat) : Bool :=
  1 ≤ year ∧ year ≤ 9999 ∧ 1 ≤ month ∧ month ≤ 12 ∧ 1 ≤ day ∧ day ≤ daysInMonth year month ∧
    hour < 24 ∧ minute < 60 ∧ second < 60 ∧ microsecond < 1000000

/-- `datetime(year, month, day, hour, minute, second, microsecond)` -/
def ofFields (year month day hour minute second microsecond : Nat)
    (h : valid year month day hour minute second microsecond = true) : DateTime where
  year := year
  month := month
  day := day
  hour := hour
  minute := minute
  second := second
  microsecond := microsecond
  year_pos := (of_decide_eq_true h).1
  year_le := (of_decide_eq_true h).2.1
  month_pos := (of_decide_eq_true h).2.2.1
  month_le := (of_decide_eq_true h).2.2.2.1
  day_pos := (of_decide_eq_true h).2.2.2.2.1
  day_le := (of_decide_eq_true h).2.2.2.2.2.1
  hour_lt := (of_decide_eq_true h).2.2.2.2.2.2.1
  minute_lt := (of_decide_eq_true h).2.2.2.2.2.2.2.1
  second_lt := (of_decide_eq_true h).2.2.2.2.2.2.2.2.1
  microsecond_lt := (of_decide_eq_true h).2.2.2.2.2.2.2.2.2

/-! ## the order -/

/-- The date as one number. -/
def dateRank (d : DateTime) : Nat := (d.year * 13 + d.month) * 32 + d.day

/-- The time of day, in microseconds. -/
def timeRank (d : DateTime) : Nat :=
  ((d.hour * 60 + d.minute) * 60 + d.second) * 1000000 + d.microsecond

/-- The datetime as one number; later is larger. -/
def rank (d : DateTime) : Nat := d.dateRank * 86400000000 + d.timeRank

theorem timeRank_lt (d : DateTime) : d.timeRank < 86400000000 := by
  have h₁ := d.hour_lt
  have h₂ := d.minute_lt
  have h₃ := d.second_lt
  have h₄ := d.microsecond_lt
  unfold timeRank
  omega

/-- An instant is given by its rank. -/
theorem rank_injective : Function.Injective rank := by
  intro a b h
  have ha := a.timeRank_lt
  have hb := b.timeRank_lt
  have hdate : a.dateRank = b.dateRank := by unfold rank at h; omega
  have htime : a.timeRank = b.timeRank := by unfold rank at h; omega
  have := a.month_le; have := b.month_le; have := a.day_le; have := b.day_le
  have := daysInMonth_le a.year a.month; have := daysInMonth_le b.year b.month
  have := a.minute_lt; have := b.minute_lt; have := a.second_lt; have := b.second_lt
  have := a.microsecond_lt; have := b.microsecond_lt
  unfold dateRank at hdate
  unfold timeRank at htime
  apply DateTime.ext <;> omega

instance : LinearOrder DateTime := LinearOrder.lift' rank rank_injective

theorem le_iff_rank : a ≤ b ↔ a.rank ≤ b.rank := Iff.rfl

theorem lt_iff_rank : a < b ↔ a.rank < b.rank := Iff.rfl

theorem lt_of_dateRank_lt (h : a.dateRank < b.dateRank) : a < b := by
  have ha := a.timeRank_lt
  rw [lt_iff_rank]
  unfold rank
  omega

/-! ## replacing fields -/

/-- `replace(minute=0, second=0, microsecond=0)` -/
def startOfHour (d : DateTime) : DateTime :=
  { d with
    minute := 0, second := 0, microsecond := 0
    minute_lt := by decide, second_lt := by decide, microsecond_lt := by decide }

/-- `replace(hour=0, minute=0, second=0, microsecond=0)` -/
def startOfDay (d : DateTime) : DateTime :=
  { d.startOfHour with hour := 0, hour_lt := by decide }

/-- `replace(day=1, hour=0, minute=0, second=0, microsecond=0)` -/
def startOfMonth (d : DateTime) : DateTime :=
  { d.startOfDay with day := 1, day_pos := by decide, day_le := daysInMonth_pos _ _ }

/-- `replace(month=month + 1)`, or `replace(year=year + 1, month=1)` in December, of a
first day of the month; `none` past year 9999. -/
def nextMonth (d : DateTime) : Option DateTime :=
  if hm : d.month < 12 then
    some { d with
      month := d.month + 1, day := 1
      month_pos := by omega, month_le := by omega
      day_pos := by decide, day_le := daysInMonth_pos _ _ }
  else if hy : d.year < 9999 then
    some { d with
      year := d.year + 1, month := 1, day := 1
      year_pos := by omega, year_le := by omega
      month_pos := by decide, month_le := by decide
      day_pos := by decide, day_le := daysInMonth_pos _ _ }
  else none

/-- `+ timedelta(days=1)` -/
def nextDay (d : DateTime) : Option DateTime :=
  if hd : d.day < daysInMonth d.year d.month then
    some { d with day := d.day + 1, day_pos := by omega, day_le := by omega }
  else d.nextMonth

/-- `+ timedelta(hours=1)` -/
def nextHour (d : DateTime) : Option DateTime :=
  if hh : d.hour < 23 then
    some { d with hour := d.hour + 1, hour_lt := by omega }
  else { d with hour := 0, hour_lt := by decide : DateTime }.nextDay

/-- `+ timedelta(minutes=1)` -/
def nextMinute (d : DateTime) : Option DateTime :=
  if hm : d.minute < 59 then
    some { d with minute := d.minute + 1, minute_lt := by omega }
  else { d with minute := 0, minute_lt := by decide : DateTime }.nextHour

/-- `+ timedelta(seconds=1)` -/
def nextSecond (d : DateTime) : Option DateTime :=
  if hs : d.second < 59 then
    some { d with second := d.second + 1, second_lt := by omega }
  else { d with second := 0, second_lt := by decide : DateTime }.nextMinute

/-- `+ timedelta(seconds=n)` -/
def addSeconds (d : DateTime) : Nat → Option DateTime
  | 0 => some d
  | n + 1 => d.nextSecond.bind fun e => e.addSeconds n

theorem startOfHour_le (d : DateTime) : d.startOfHour ≤ d := by
  rw [le_iff_rank]
  simp only [rank, dateRank, timeRank, startOfHour]
  omega

theorem startOfDay_le (d : DateTime) : d.startOfDay ≤ d := by
  rw [le_iff_rank]
  simp only [rank, dateRank, timeRank, startOfDay, startOfHour]
  omega

theorem startOfMonth_le (d : DateTime) : d.startOfMonth ≤ d := by
  have := d.day_pos
  rw [le_iff_rank]
  simp only [rank, dateRank, timeRank, startOfMonth, startOfDay, startOfHour]
  omega

/-- A date of the month is before the next month. -/
theorem dateRank_lt_nextMonth (hy : a.year = d.year) (hm : a.month = d.month)
    (h : d.nextMonth = some e) : a.dateRank < e.dateRank := by
  have := a.day_le
  have := daysInMonth_le a.year a.month
  have := a.month_le
  unfold nextMonth at h
  split at h
  · cases h
    simp only [dateRank]
    omega
  · split at h
    · cases h
      simp only [dateRank]
      omega
    · contradiction

theorem dateRank_lt_nextDay (hdate : a.dateRank = d.dateRank) (h : d.nextDay = some e) :
    a.dateRank < e.dateRank := by
  unfold nextDay at h
  split at h
  · cases h
    rw [hdate]
    simp only [dateRank]
    omega
  · rw [hdate]
    exact dateRank_lt_nextMonth rfl rfl h

theorem lt_nextHour (hdate : a.dateRank = d.dateRank) (hhour : a.hour = d.hour)
    (h : d.nextHour = some e) : a < e := by
  unfold nextHour at h
  split at h
  · cases h
    have := a.minute_lt
    have := a.second_lt
    have := a.microsecond_lt
    rw [lt_iff_rank]
    simp only [rank, dateRank, timeRank] at hdate ⊢
    omega
  · refine lt_of_dateRank_lt (dateRank_lt_nextDay ?_ h)
    exact hdate

/-! ## `isoformat` -/

/-- A number in so many decimal digits. -/
def padded : Nat → Nat → List Char
  | 0, _ => []
  | width + 1, n => padded width (n / 10) ++ [(n % 10).digitChar]

theorem length_padded (width n : Nat) : (padded width n).length = width := by
  induction width generalizing n with
  | zero => rfl
  | succ width ih => simp [padded, ih]

theorem padded_injective (hm : m < 10 ^ width) (hn : n < 10 ^ width)
    (h : padded width m = padded width n) : m = n := by
  induction width generalizing m n with
  | zero => omega
  | succ width ih =>
      have hdigit : ∀ a < 10, ∀ b < 10, a.digitChar = b.digitChar → a = b := by decide
      obtain ⟨hinit, hlast⟩ := List.append_inj' h rfl
      have hquot : m / 10 = n / 10 :=
        ih (Nat.div_lt_of_lt_mul (by omega)) (Nat.div_lt_of_lt_mul (by omega)) hinit
      have hmod : m % 10 = n % 10 :=
        hdigit _ (Nat.mod_lt _ (by decide)) _ (Nat.mod_lt _ (by decide)) (List.head_eq_of_cons_eq hlast)
      omega

theorem padded_append_inj {cs ds : List Char} (hm : m < 10 ^ width) (hn : n < 10 ^ width)
    (h : padded width m ++ cs = padded width n ++ ds) : m = n ∧ cs = ds := by
  obtain ⟨hpadded, hrest⟩ := List.append_inj h (by rw [length_padded, length_padded])
  exact ⟨padded_injective hm hn hpadded, hrest⟩

/-- `.ffffff` unless it is zero, and the offset of UTC. -/
def isoTail (microsecond : Nat) : List Char :=
  (if microsecond = 0 then [] else '.' :: padded 6 microsecond) ++ ['+', '0', '0', ':', '0', '0']

/-- `isoformat()` of a UTC datetime. -/
def isoformat (d : DateTime) : String :=
  String.ofList (padded 4 d.year ++ '-' :: (padded 2 d.month ++ '-' :: (padded 2 d.day ++
    'T' :: (padded 2 d.hour ++ ':' :: (padded 2 d.minute ++ ':' :: (padded 2 d.second ++
      isoTail d.microsecond))))))

theorem isoTail_injective (hm : m < 1000000) (hn : n < 1000000) (h : isoTail m = isoTail n) :
    m = n := by
  unfold isoTail at h
  split_ifs at h with h₁ h₂ h₂
  · rw [h₁, h₂]
  · simp at h
  · simp at h
  · rw [List.cons_append, List.cons_append, List.cons.injEq] at h
    exact (padded_append_inj hm hn h.2).1

/-- An instant is given by its text. -/
theorem isoformat_injective : Function.Injective isoformat := by
  intro a b h
  have h := String.ofList_injective h
  have := a.year_le; have := b.year_le; have := a.month_le; have := b.month_le
  have := a.day_le; have := b.day_le
  have := daysInMonth_le a.year a.month; have := daysInMonth_le b.year b.month
  have := a.hour_lt; have := b.hour_lt; have := a.minute_lt; have := b.minute_lt
  have := a.second_lt; have := b.second_lt
  obtain ⟨hyear, h⟩ := padded_append_inj (by omega) (by omega) h
  obtain ⟨hmonth, h⟩ := padded_append_inj (by omega) (by omega) (List.cons.inj h).2
  obtain ⟨hday, h⟩ := padded_append_inj (by omega) (by omega) (List.cons.inj h).2
  obtain ⟨hhour, h⟩ := padded_append_inj (by omega) (by omega) (List.cons.inj h).2
  obtain ⟨hminute, h⟩ := padded_append_inj (by omega) (by omega) (List.cons.inj h).2
  obtain ⟨hsecond, h⟩ := padded_append_inj (by omega) (by omega) (List.cons.inj h).2
  have hmicro := isoTail_injective a.microsecond_lt b.microsecond_lt h
  exact DateTime.ext hyear hmonth hday hhour hminute hsecond hmicro

end DateTime

end Anoryx
