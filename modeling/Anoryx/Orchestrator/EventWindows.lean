import Anoryx.Paging
import Anoryx.PeriodWindows

/-!
# Anoryx.Orchestrator.EventWindows

The queries of events by time: `count_ingest_events_in_window` and the `since` and `until` of
`list_events` (`persistence/repositories.py`).

`event_timestamp` is a column of texts, and the bounds are compared with it as texts.  A text of
the column is the event's RFC 3339 timestamp, in whatever spelling; the bounds of the count are
spelled in UTC with whole seconds.  The texts order by the clock reading that is written
(`lt_of_reading_lt`), whatever its offset; at the second of a bound itself a fraction or a numeric
offset comes before the bound's `Z`.  So the queries select by instants where the timestamps are
spelled as the bounds are, or else keep out of the bounds' own seconds (`event_windows`).
-/

namespace Anoryx.DateTime

/-! ## seconds -/

def daysBeforeYear (year : Nat) : Nat := 365 * (year - 1) + (year - 1) / 4 - (year - 1) / 100 + (year - 1) / 400

def daysBeforeMonth (year month : Nat) : Nat := ((List.range (month - 1)).map fun m => daysInMonth year (m + 1)).sum

/-- The days since the first of the calendar. -/
def dayNumber (d : DateTime) : Nat := daysBeforeYear d.year + daysBeforeMonth d.year d.month + d.day

/-- The seconds since the start of the calendar, without those of the microseconds. -/
def seconds (d : DateTime) : Nat := ((d.dayNumber * 24 + d.hour) * 60 + d.minute) * 60 + d.second

variable {month month' year year' : Nat} {a b : DateTime}

theorem daysBeforeMonth_succ (year : Nat) (h : 1 ≤ month) :
    daysBeforeMonth year (month + 1) = daysBeforeMonth year month + daysInMonth year month := by
  obtain ⟨m, rfl⟩ : ∃ m, month = m + 1 := ⟨month - 1, by omega⟩
  simp [daysBeforeMonth, List.range_succ]

theorem daysBeforeMonth_mono (year : Nat) (hpos : 1 ≤ month) (h : month < month') :
    daysBeforeMonth year month + daysInMonth year month ≤ daysBeforeMonth year month' := by
  induction month', h using Nat.le_induction with
  | base => rw [daysBeforeMonth_succ year hpos]
  | succ m hm ih =>
      rw [daysBeforeMonth_succ year (by omega)]
      omega

theorem succ_div (n k : Nat) : (n + 1) / (k + 1) = n / (k + 1) + if (n + 1) % (k + 1) = 0 then 1 else 0 := by
  rw [Nat.succ_div]
  congr 1
  simp [Nat.dvd_iff_mod_eq_zero]

theorem daysBeforeYear_succ (h : 1 ≤ year) :
    daysBeforeYear year + daysBeforeMonth year 13 = daysBeforeYear (year + 1) := by
  have hmonths : daysBeforeMonth year 13 = if isLeap year then 366 else 365 := by
    cases hleap : isLeap year <;> simp [daysBeforeMonth, List.range_succ, daysInMonth, hleap]
  have hleap : isLeap year = true ↔ year % 4 = 0 ∧ (year % 100 ≠ 0 ∨ year % 400 = 0) := by
    simp [isLeap]
  obtain ⟨y, rfl⟩ : ∃ y, year = y + 1 := ⟨year - 1, by omega⟩
  have hfour := succ_div y 3
  have hhundred := succ_div y 99
  have hfourHundred := succ_div y 399
  have hle : y / 100 ≤ y / 4 := by omega
  have hmod : (y + 1) % 400 = 0 → (y + 1) % 100 = 0 := by omega
  have hmod' : (y + 1) % 100 = 0 → (y + 1) % 4 = 0 := by omega
  simp only [daysBeforeYear, hmonths, Nat.add_sub_cancel, hfour, hhundred, hfourHundred]
  generalize y / 4 = a at *
  generalize y / 100 = b at *
  generalize y / 400 = c at *
  grind

theorem daysBeforeYear_mono (hpos : 1 ≤ year) (h : year < year') :
    daysBeforeYear year + daysBeforeMonth year 13 ≤ daysBeforeYear year' := by
  induction year', h using Nat.le_induction with
  | base => rw [daysBeforeYear_succ hpos]
  | succ y hy ih =>
      have hyear : daysBeforeYear y + daysBeforeMonth y 13 = daysBeforeYear (y + 1) := daysBeforeYear_succ (by omega)
      omega

theorem lt_fields (h : a < b) :
    a.year < b.year ∨ a.year = b.year ∧ (a.month < b.month ∨ a.month = b.month ∧ (a.day < b.day ∨ a.day = b.day ∧
      (a.hour < b.hour ∨ a.hour = b.hour ∧ (a.minute < b.minute ∨ a.minute = b.minute ∧
        (a.second < b.second ∨ a.second = b.second ∧ a.microsecond < b.microsecond))))) := by
  have := a.month_le; have := b.month_le; have := a.day_le; have := b.day_le
  have := daysInMonth_le a.year a.month; have := daysInMonth_le b.year b.month
  have := a.hour_lt; have := b.hour_lt; have := a.minute_lt; have := b.minute_lt
  have := a.second_lt; have := b.second_lt; have := a.microsecond_lt; have := b.microsecond_lt
  rw [lt_iff_rank] at h
  simp only [rank, dateRank, timeRank] at h
  omega

theorem dayNumber_lt (h : a.year < b.year ∨ a.year = b.year ∧ (a.month < b.month ∨ a.month = b.month ∧ a.day < b.day)) :
    a.dayNumber < b.dayNumber := by
  have hday := b.day_pos
  have hday' := a.day_le
  rw [dayNumber, dayNumber]
  obtain hyear | ⟨hyear, hmonth | ⟨hmonth, hlt⟩⟩ := h
  · have hstart := daysBeforeYear_mono a.year_pos hyear
    have hend : daysBeforeMonth a.year a.month + daysInMonth a.year a.month ≤ daysBeforeMonth a.year 13 :=
      daysBeforeMonth_mono a.year a.month_pos (Nat.lt_succ_of_le a.month_le)
    omega
  · have hstart := daysBeforeMonth_mono a.year a.month_pos hmonth
    rw [← hyear]
    omega
  · rw [hyear, hmonth]
    omega

theorem seconds_lt (ha : a.microsecond = 0) (hb : b.microsecond = 0) (h : a < b) : a.seconds < b.seconds := by
  have := a.hour_lt; have := a.minute_lt; have := a.second_lt
  rw [seconds, seconds]
  obtain hday | ⟨hday, htime⟩ : a.dayNumber < b.dayNumber ∨ a.dayNumber = b.dayNumber ∧
      (a.hour < b.hour ∨ a.hour = b.hour ∧ (a.minute < b.minute ∨ a.minute = b.minute ∧ a.second < b.second)) := by
    rcases lt_fields h with hyear | ⟨hyear, hmonth | ⟨hmonth, hday | ⟨hday, hrest⟩⟩⟩
    · exact Or.inl (dayNumber_lt (Or.inl hyear))
    · exact Or.inl (dayNumber_lt (Or.inr ⟨hyear, Or.inl hmonth⟩))
    · exact Or.inl (dayNumber_lt (Or.inr ⟨hyear, Or.inr ⟨hmonth, hday⟩⟩))
    · right
      rw [dayNumber, dayNumber, hyear, hmonth, hday]
      exact ⟨rfl, by omega⟩
  · omega
  · omega

theorem zero_lt_million : 0 < 1000000 := by decide

/-- Without its microseconds, as `strftime` prints it. -/
def wholeSeconds (d : DateTime) : DateTime := { d with microsecond := 0, microsecond_lt := zero_lt_million }

end Anoryx.DateTime

namespace Anoryx.Orchestrator.EventWindows

/-! ## texts -/

/-- Two texts differ first in a digit, and the first has the smaller one. -/
def Before (cs ds : List Char) : Prop :=
  ∃ p c d x y, cs = p ++ c :: x ∧ ds = p ++ d :: y ∧ c.isDigit = true ∧ d.isDigit = true ∧ c < d

variable {cs ds p x y : List Char} {m n : Nat} {a b d bound since until' : DateTime} {t : Timestamp}

theorem Before.append_left (h : Before cs ds) (p : List Char) : Before (p ++ cs) (p ++ ds) := by
  obtain ⟨q, c, d, x, y, rfl, rfl, hrest⟩ := h
  exact ⟨p ++ q, c, d, x, y, by simp, by simp, hrest⟩

theorem Before.cons (h : Before cs ds) (c : Char) : Before (c :: cs) (c :: ds) := h.append_left [c]

theorem Before.append_right (h : Before cs ds) (xs ys : List Char) : Before (cs ++ xs) (ds ++ ys) := by
  obtain ⟨q, c, d, x, y, rfl, rfl, hrest⟩ := h
  exact ⟨q, c, d, x ++ xs, y ++ ys, by simp, by simp, hrest⟩

theorem before_padded {width : Nat} (hn : n < 10 ^ width) (h : m < n) :
    Before (DateTime.padded width m) (DateTime.padded width n) := by
  have hdigits : ∀ a < 10, ∀ b < 10, a < b → a.digitChar.isDigit = true ∧ b.digitChar.isDigit = true ∧
      a.digitChar < b.digitChar := by decide
  induction width generalizing m n with
  | zero => omega
  | succ width ih =>
      rw [DateTime.padded, DateTime.padded]
      rcases Nat.lt_or_ge (m / 10) (n / 10) with hlt | hge
      · exact (ih (Nat.div_lt_of_lt_mul (by omega)) hlt).append_right _ _
      · have hquot : m / 10 = n / 10 := by omega
        obtain ⟨hc, hd, hlt⟩ := hdigits (m % 10) (by omega) (n % 10) (by omega) (by omega)
        exact ⟨_, _, _, [], [], rfl, by rw [hquot], hc, hd, hlt⟩

theorem before_two (hn : n < 100) (h : m < n) (xs ys : List Char) :
    Before (DateTime.padded 2 m ++ xs) (DateTime.padded 2 n ++ ys) := (before_padded hn h).append_right xs ys

/-- The clock reading of a timestamp, up to the seconds. -/
def readingText (year : List Char) (d : DateTime) : List Char :=
  year ++ '-' :: (DateTime.padded 2 d.month ++ '-' :: (DateTime.padded 2 d.day ++ 'T' :: (DateTime.padded 2 d.hour ++
    ':' :: (DateTime.padded 2 d.minute ++ ':' :: (DateTime.padded 2 d.second ++ [])))))

/-- Earlier instants have earlier texts. -/
theorem before_reading (ha : a.microsecond = 0) (hb : b.microsecond = 0) (h : a < b) :
    Before (readingText (DateTime.padded 4 a.year) a) (readingText (DateTime.padded 4 b.year) b) := by
  have := b.year_le; have := b.month_le; have := b.day_le; have := daysInMonth_le b.year b.month
  have := b.hour_lt; have := b.minute_lt; have := b.second_lt
  unfold readingText
  rcases DateTime.lt_fields h with hyear | ⟨hyear, hrest⟩
  · exact (before_padded (by omega) hyear).append_right _ _
  rw [hyear]
  apply Before.append_left
  apply Before.cons
  rcases hrest with hmonth | ⟨hmonth, hrest⟩
  · exact before_two (by omega) hmonth _ _
  rw [hmonth]
  apply Before.append_left
  apply Before.cons
  rcases hrest with hday | ⟨hday, hrest⟩
  · exact before_two (by omega) hday _ _
  rw [hday]
  apply Before.append_left
  apply Before.cons
  rcases hrest with hhour | ⟨hhour, hrest⟩
  · exact before_two (by omega) hhour _ _
  rw [hhour]
  apply Before.append_left
  apply Before.cons
  rcases hrest with hminute | ⟨hminute, hrest⟩
  · exact before_two (by omega) hminute _ _
  rw [hminute]
  apply Before.append_left
  apply Before.cons
  rcases hrest with hsecond | ⟨-, hmicro⟩
  · exact before_two (by omega) hsecond _ _
  · omega

/-! ## timestamps -/

/-- The offset of a timestamp: `Z`, in either case, or numeric. -/
inductive Offset where
  | utc (lower : Bool)
  | numeric (ahead : Bool) (hour : Fin 24) (minute : Fin 60)

/-- A timestamp of RFC 3339: the clock reading, the digits of a fraction of a second and the
offset.  The `T` may be in either case. -/
structure Timestamp where
  reading : DateTime
  whole : reading.microsecond = 0
  lowerT : Bool
  fraction : List (Fin 10)
  offset : Offset

namespace Offset

/-- How far the reading is ahead of UTC, in seconds. -/
def seconds : Offset → Int
  | .utc _ => 0
  | .numeric ahead hour minute => (if ahead then 1 else -1) * ((hour.val * 60 + minute.val) * 60 : Nat)

def text : Offset → List Char
  | .utc lower => [if lower then 'z' else 'Z']
  | .numeric ahead hour minute =>
      (if ahead then '+' else '-') :: (DateTime.padded 2 hour ++ ':' :: DateTime.padded 2 minute)

end Offset

/-- The fraction that digits after a point write. -/
def fractionValue : List (Fin 10) → ℚ
  | [] => 0
  | d :: ds => (d.val + fractionValue ds) / 10

theorem fractionValue_bounds (ds : List (Fin 10)) : 0 ≤ fractionValue ds ∧ fractionValue ds < 1 := by
  induction ds with
  | nil => simp [fractionValue]
  | cons d ds ih =>
      have hd : (d.val : ℚ) ≤ 9 := by exact_mod_cast Nat.le_of_lt_succ d.isLt
      have hd' : (0 : ℚ) ≤ d.val := Nat.cast_nonneg _
      rw [fractionValue]
      constructor
      · linarith
      · linarith

namespace Timestamp

/-- The instant, in seconds since the start of the calendar. -/
def instant (t : Timestamp) : ℚ := (t.reading.seconds - t.offset.seconds : Int) + fractionValue t.fraction

/-- What follows the reading. -/
def suffix (t : Timestamp) : List Char :=
  (if t.fraction = [] then [] else '.' :: t.fraction.map fun d => d.val.digitChar) ++ t.offset.text

def text (t : Timestamp) : List Char :=
  (readingText (DateTime.padded 4 t.reading.year) t.reading).map
    (fun c => if c = 'T' ∧ t.lowerT then 't' else c) ++ t.suffix

/-- Spelled in UTC, with `T` and `Z`. -/
def InZ (t : Timestamp) : Prop := t.lowerT = false ∧ t.offset = .utc false

end Timestamp

/-- `strftime("%Y-%m-%dT%H:%M:%SZ")` -/
def boundText (pads : Bool) (d : DateTime) : List Char := readingText (yearText pads d.year) d ++ ['Z']

/-- The year of a bound has four digits; where `%Y` does not pad, it starts from 1000. -/
def FourDigits (pads : Bool) (d : DateTime) : Prop := pads = true ∨ 1000 ≤ d.year

theorem toDigits_eq_padded (width : Nat) (hlow : 10 ^ width ≤ n) (hhigh : n < 10 ^ (width + 1)) :
    Nat.toDigits 10 n = DateTime.padded (width + 1) n := by
  induction width generalizing n with
  | zero =>
      have hlt : n < 10 := by simpa using hhigh
      rw [Nat.toDigits_of_lt_base hlt, DateTime.padded, DateTime.padded, Nat.mod_eq_of_lt hlt]
      rfl
  | succ width ih =>
      have hten : 10 ≤ n := le_trans (by rw [pow_succ]; exact Nat.le_mul_of_pos_left 10 (by positivity)) hlow
      rw [DateTime.padded, ← ih (by rw [pow_succ] at hlow; omega) (by rw [pow_succ] at hhigh; omega)]
      rw [Nat.toDigits_eq_if (by decide), if_neg (by omega)]

theorem yearText_eq_padded {pads : Bool} (h : FourDigits pads d) :
    yearText pads d.year = DateTime.padded 4 d.year := by
  cases pads with
  | true => rfl
  | false =>
      have hyear : 1000 ≤ d.year := h.resolve_left (by decide)
      exact toDigits_eq_padded 3 hyear (Nat.lt_succ_of_le d.year_le)

/-! ## the order of the column -/

/-- The order in which the database compares texts.  Texts that differ first in a digit have the
order of the digits, and a point or a sign comes before a `Z` in its place. -/
structure Collation where
  le : List Char → List Char → Bool
  total : ∀ a b, le a b = true ∨ le b a = true
  trans : ∀ {a b c}, le a b = true → le b c = true → le a c = true
  digit : ∀ {cs ds}, Before cs ds → le ds cs = false
  mark : ∀ p {c} x y, c ∈ ['.', '+', '-'] → le (p ++ 'Z' :: y) (p ++ c :: x) = false

theorem Collation.le_of_not_le (C : Collation) {a b : List Char} (h : C.le b a = false) : C.le a b = true :=
  (C.total a b).resolve_right (by simp [h])

theorem not_le_of_first {c d : Char} (h : c < d) : ¬ (p ++ d :: y) ≤ (p ++ c :: x) :=
  not_le.mpr (List.append_left_lt (List.cons_lt_cons_iff.mpr (Or.inl h)))

/-- The collation `C`: texts compare by their code points. -/
def Collation.bytewise : Collation where
  le a b := decide (a ≤ b)
  total a b := by simpa using le_total a b
  trans h h' := decide_eq_true (le_trans (of_decide_eq_true h) (of_decide_eq_true h'))
  digit := by
    rintro _ _ ⟨p, c, d, x, y, rfl, rfl, -, -, hlt⟩
    exact decide_eq_false (not_le_of_first hlt)
  mark := by
    intro p c x y hc
    have hlt : c < 'Z' := by
      simp only [List.mem_cons, List.not_mem_nil, or_false] at hc
      rcases hc with rfl | rfl | rfl <;> decide
    exact decide_eq_false (not_le_of_first hlt)

/-! ## the queries -/

section Queries

variable (C : Collation) (pads : Bool)

/-- `event_timestamp >= :since AND event_timestamp < :until` -/
def inWindow (since until' text : List Char) : Bool := C.le since text && !C.le until' text

/-- `count_ingest_events_in_window` of the texts of the column -/
def countIngestEventsInWindow (column : List (List Char)) (since until' : DateTime) : Nat :=
  column.countP (inWindow C (boundText pads since) (boundText pads until'))

/-- The columns of `ingest_events` that `list_events` reads. -/
structure EventRow where
  eventId : List Char
  eventType : List Char
  eventTimestamp : List Char
  tenantId : List Char
  teamId : List Char
  projectId : List Char
  agentId : List Char
  requestId : Option (List Char)

/-- The filters of `list_events`; one that is absent holds of every row. -/
structure Filters where
  tenantId : Option (List Char)
  teamId : Option (List Char)
  agentId : Option (List Char)
  eventType : Option (List Char)
  since : Option (List Char)
  until' : Option (List Char)

/-- The conditions of `list_events` besides the cursor. -/
def Filters.hold (f : Filters) (row : EventRow) : Bool :=
  f.tenantId.all (· = row.tenantId) && f.teamId.all (· = row.teamId) && f.agentId.all (· = row.agentId) &&
    f.eventType.all (· = row.eventType) && f.since.all (C.le · row.eventTimestamp) &&
    f.until'.all (!C.le · row.eventTimestamp)

/-- `list_events`, on the rows of the tenant by their sequence numbers: a page, and where the next
one starts.  The query asks for one row more. -/
def listEvents (f : Filters) (limit : Nat) (cursor : Option Nat) (rows : List (Nat × EventRow)) :
    List EventRow × Option Nat :=
  let found := Paging.page cursor (limit + 1) (rows.filter fun row => f.hold C row.2)
  if limit < found.length then ((found.take limit).map Prod.snd, (found[limit - 1]?).map Prod.fst)
  else (found.map Prod.snd, none)

end Queries

/-! ## what the texts select -/

section Selection

variable {C : Collation} {pads : Bool}

/-- A timestamp comes from the bound on: its reading is later, or the bound's own with nothing but
`Z` after it. -/
def FromBound (bound : DateTime) (t : Timestamp) : Prop :=
  bound.wholeSeconds < t.reading ∨ bound.wholeSeconds = t.reading ∧ t.fraction = [] ∧ t.offset = .utc false

theorem text_eq (h : t.lowerT = false) :
    t.text = readingText (DateTime.padded 4 t.reading.year) t.reading ++ t.suffix := by
  rw [Timestamp.text, h]
  simp

theorem boundText_eq (h : FourDigits pads bound) :
    boundText pads bound =
      readingText (DateTime.padded 4 bound.wholeSeconds.year) bound.wholeSeconds ++ ['Z'] := by
  rw [boundText, yearText_eq_padded h]
  rfl

theorem suffix_cases (t : Timestamp) :
    (∃ c x, c ∈ ['.', '+', '-'] ∧ t.suffix = c :: x) ∨ t.fraction = [] ∧ ∃ lower, t.offset = .utc lower := by
  by_cases hfraction : t.fraction = []
  · cases hoffset : t.offset with
    | utc lower => exact Or.inr ⟨hfraction, lower, rfl⟩
    | numeric ahead hour minute =>
        left
        rw [Timestamp.suffix, if_pos hfraction, hoffset]
        exact ⟨_, _, by cases ahead <;> simp, rfl⟩
  · left
    rw [Timestamp.suffix, if_neg hfraction]
    exact ⟨_, _, by simp, rfl⟩

/-- A text compares with a bound as the bound's reading says. -/
theorem le_text_iff (hbound : FourDigits pads bound) (hT : t.lowerT = false) (hZ : t.offset ≠ .utc true) :
    C.le (boundText pads bound) t.text = true ↔ FromBound bound t := by
  rw [text_eq hT, boundText_eq hbound, FromBound]
  rcases lt_trichotomy bound.wholeSeconds t.reading with hlt | heq | hgt
  · have hbefore := C.digit ((before_reading rfl t.whole hlt).append_right ['Z'] t.suffix)
    exact iff_of_true (C.le_of_not_le hbefore) (Or.inl hlt)
  · rw [heq]
    rcases suffix_cases t with ⟨c, x, hc, hsuffix⟩ | ⟨hfraction, lower, hoffset⟩
    · have hmark := C.mark (readingText (DateTime.padded 4 t.reading.year) t.reading) x [] hc
      rw [hsuffix]
      refine iff_of_false (by simp [hmark]) ?_
      rintro (hlt | ⟨-, hfraction, hoffset⟩)
      · exact lt_irrefl _ hlt
      · rw [Timestamp.suffix, hfraction, hoffset] at hsuffix
        obtain ⟨rfl, -⟩ := List.cons.inj hsuffix
        simp at hc
    · have hupper : lower = false := by
        cases lower with
        | false => rfl
        | true => exact absurd hoffset hZ
      have hsuffix : t.suffix = ['Z'] := by
        rw [Timestamp.suffix, hfraction, hoffset, hupper]
        rfl
      rw [hsuffix]
      exact iff_of_true ((C.total _ _).elim id id) (Or.inr ⟨rfl, hfraction, by rw [hoffset, hupper]⟩)
  · have hbefore := C.digit ((before_reading t.whole rfl hgt).append_right t.suffix ['Z'])
    refine iff_of_false (by simp [hbefore]) ?_
    rintro (hlt | ⟨heq, -⟩)
    · exact lt_asymm hlt hgt
    · exact absurd heq (ne_of_gt hgt)

def boundInstant (bound : DateTime) : ℚ := (bound.seconds : ℚ)

/-- The timestamp is spelled as bounds are, or else not at the second of the bound. -/
def Comparable (bound : DateTime) (t : Timestamp) : Prop :=
  t.InZ ∧ (t.reading = bound.wholeSeconds → t.fraction = [])

theorem fromBound_iff_instant (h : Comparable bound t) : FromBound bound t ↔ boundInstant bound ≤ t.instant := by
  obtain ⟨⟨-, hoffset⟩, hfraction⟩ := h
  obtain ⟨hnonneg, hlt_one⟩ := fractionValue_bounds t.fraction
  have hinstant : t.instant = (t.reading.seconds : ℚ) + fractionValue t.fraction := by
    rw [Timestamp.instant, hoffset]
    simp [Offset.seconds]
  have hseconds : boundInstant bound = (bound.wholeSeconds.seconds : ℚ) := rfl
  rw [hinstant, hseconds, FromBound]
  rcases lt_trichotomy bound.wholeSeconds t.reading with hlt | heq | hgt
  · have hlater : (bound.wholeSeconds.seconds : ℚ) < t.reading.seconds := by
      exact_mod_cast DateTime.seconds_lt rfl t.whole hlt
    exact iff_of_true (Or.inl hlt) (by linarith)
  · refine iff_of_true (Or.inr ⟨heq, hfraction heq.symm, hoffset⟩) ?_
    rw [heq]
    linarith
  · have hearlier : (t.reading.seconds : ℚ) + 1 ≤ bound.wholeSeconds.seconds := by
      exact_mod_cast DateTime.seconds_lt t.whole rfl hgt
    refine iff_of_false ?_ (by linarith)
    rintro (hlt | ⟨heq, -⟩)
    · exact lt_asymm hlt hgt
    · exact absurd heq (ne_of_gt hgt)

theorem wholeSeconds_mono (h : a ≤ b) : a.wholeSeconds ≤ b.wholeSeconds := by
  have hb := b.microsecond_lt
  have hrank : ∀ d : DateTime, d.rank = d.wholeSeconds.rank + d.microsecond := by
    intro d
    simp only [DateTime.rank, DateTime.dateRank, DateTime.timeRank, DateTime.wholeSeconds, Nat.add_zero, Nat.add_assoc]
  have hwhole : ∀ d : DateTime, d.wholeSeconds.rank % 1000000 = 0 := by
    intro d
    simp only [DateTime.rank, DateTime.timeRank, DateTime.wholeSeconds]
    omega
  have ha' := hwhole a
  have hb' := hwhole b
  rw [DateTime.le_iff_rank, hrank a, hrank b] at h
  rw [DateTime.le_iff_rank]
  omega

theorem le_boundText (ha : FourDigits pads a) (hb : FourDigits pads b) (h : a ≤ b) :
    C.le (boundText pads a) (boundText pads b) = true := by
  rw [boundText_eq ha, boundText_eq hb]
  rcases lt_or_eq_of_le (wholeSeconds_mono h) with hlt | heq
  · exact C.le_of_not_le (C.digit ((before_reading rfl rfl hlt).append_right _ _))
  · rw [heq]
    exact (C.total _ _).elim id id

theorem inWindow_adjacent {a b c : List Char} (hab : C.le a b = true) (hbc : C.le b c = true) (text : List Char) :
    inWindow C a c text = (inWindow C a b text || inWindow C b c text) ∧
      (inWindow C a b text && inWindow C b c text) = false := by
  have hfirst : C.le b text = true → C.le a text = true := C.trans hab
  have hlast : C.le c text = true → C.le b text = true := C.trans hbc
  simp only [inWindow]
  grind

theorem count_adjacent {c : DateTime} (ha : FourDigits pads a) (hb : FourDigits pads b) (hc : FourDigits pads c)
    (hab : a ≤ b) (hbc : b ≤ c) (column : List (List Char)) :
    countIngestEventsInWindow C pads column a b + countIngestEventsInWindow C pads column b c =
      countIngestEventsInWindow C pads column a c := by
  induction column with
  | nil => rfl
  | cons text column ih =>
      obtain ⟨hunion, hdisjoint⟩ := inWindow_adjacent (C := C) (le_boundText ha hb hab) (le_boundText hb hc hbc) text
      simp only [countIngestEventsInWindow, List.countP_cons, hunion] at *
      grind

/-- The instants of a window; its bounds are taken without their microseconds. -/
def InstantIn (since until' : DateTime) (t : Timestamp) : Prop :=
  boundInstant since ≤ t.instant ∧ t.instant < boundInstant until'

instance (since until' : DateTime) (t : Timestamp) : Decidable (InstantIn since until' t) :=
  inferInstanceAs (Decidable (_ ∧ _))

theorem inWindow_iff (hsince : FourDigits pads since) (huntil : FourDigits pads until') (hT : t.lowerT = false)
    (hZ : t.offset ≠ .utc true) :
    inWindow C (boundText pads since) (boundText pads until') t.text = true ↔
      FromBound since t ∧ ¬ FromBound until' t := by
  rw [inWindow, Bool.and_eq_true, Bool.not_eq_true', ← Bool.not_eq_true, le_text_iff hsince hT hZ,
    le_text_iff huntil hT hZ]

theorem inWindow_iff_instant (hsince : FourDigits pads since) (huntil : FourDigits pads until')
    (h : Comparable since t) (h' : Comparable until' t) :
    inWindow C (boundText pads since) (boundText pads until') t.text = true ↔ InstantIn since until' t := by
  have hZ : t.offset ≠ .utc true := by simp [h.1.2]
  rw [inWindow_iff hsince huntil h.1.1 hZ, fromBound_iff_instant h, fromBound_iff_instant h', InstantIn, not_le]

def windowFilters (since until' : List Char) : Filters := ⟨none, none, none, none, some since, some until'⟩

theorem listEvents_window (since until' : List Char) (limit : Nat) (cursor : Option Nat)
    (rows : List (Nat × EventRow)) :
    (listEvents C (windowFilters since until') limit cursor rows).1 =
      (Paging.page cursor limit (rows.filter fun row => inWindow C since until' row.2.eventTimestamp)).map
        Prod.snd := by
  have hhold : (fun row : Nat × EventRow => (windowFilters since until').hold C row.2) =
      fun row => inWindow C since until' row.2.eventTimestamp := by
    funext row
    simp [windowFilters, Filters.hold, inWindow]
  rw [listEvents, hhold]
  have htake (rows : List (Nat × EventRow)) :
      (Paging.page cursor (limit + 1) rows).take limit = Paging.page cursor limit rows :=
    Paging.take_page (Nat.le_succ limit)
  split
  case isTrue => simp only [htake]
  case isFalse hle =>
    rw [← htake, List.take_of_length_le (Nat.not_lt.mp hle)]

end Selection

/-- What the queries of a window select.  They go by the texts: adjacent windows add up whatever
the texts are, and a timestamp is in a window when its written reading is.  Where the timestamps
are spelled as the bounds are, or keep out of the bounds' own seconds, that is when their instants
are. -/
theorem event_windows (C : Collation) (pads : Bool) (since mid until' : DateTime) (hsince : FourDigits pads since)
    (hmid : FourDigits pads mid) (huntil : FourDigits pads until') (hle : since ≤ mid) (hle' : mid ≤ until') :
    (∀ column, countIngestEventsInWindow C pads column since mid + countIngestEventsInWindow C pads column mid until' =
        countIngestEventsInWindow C pads column since until') ∧
      (∀ t : Timestamp, t.lowerT = false → t.offset ≠ .utc true →
        (inWindow C (boundText pads since) (boundText pads until') t.text = true ↔
          FromBound since t ∧ ¬ FromBound until' t)) ∧
      (∀ events : List Timestamp, (∀ t ∈ events, Comparable since t ∧ Comparable until' t) →
        countIngestEventsInWindow C pads (events.map Timestamp.text) since until' =
          events.countP fun t => InstantIn since until' t) ∧
      ∀ (rows : List (Nat × EventRow)) (stamp : EventRow → Timestamp) (limit : Nat) (cursor : Option Nat),
        (∀ row ∈ rows, row.2.eventTimestamp = (stamp row.2).text ∧ Comparable since (stamp row.2) ∧
          Comparable until' (stamp row.2)) →
        (listEvents C (windowFilters (boundText pads since) (boundText pads until')) limit cursor rows).1 =
          (Paging.page cursor limit (rows.filter fun row => InstantIn since until' (stamp row.2))).map Prod.snd := by
  refine ⟨count_adjacent hsince hmid huntil hle hle', fun t hT hZ => inWindow_iff hsince huntil hT hZ, ?_, ?_⟩
  · intro events hevents
    rw [countIngestEventsInWindow, List.countP_map]
    apply List.countP_congr
    intro t ht
    obtain ⟨h, h'⟩ := hevents t ht
    rw [Function.comp_apply, inWindow_iff_instant hsince huntil h h', decide_eq_true_eq]
  · intro rows stamp limit cursor hrows
    rw [listEvents_window]
    congr 2
    apply List.filter_congr
    intro row hrow
    obtain ⟨htext, h, h'⟩ := hrows row hrow
    rw [Bool.eq_iff_iff, htext, inWindow_iff_instant hsince huntil h h', decide_eq_true_eq]

/-! ## three days -/

def sampleDay (day : Nat) (h : DateTime.valid 2026 7 day 0 0 0 0 = true := by decide) : DateTime :=
  .ofFields 2026 7 day 0 0 0 0 h

/-- `2026-07-01T12:00:00.25Z` -/
def sampleNoon : Timestamp := ⟨.ofFields 2026 7 1 12 0 0 0 (by decide), rfl, false, [2, 5], .utc false⟩

/-- `2026-07-01T00:30:00+02:00` -/
def sampleAhead : Timestamp :=
  ⟨.ofFields 2026 7 1 0 30 0 0 (by decide), rfl, false, [], .numeric true 2 0⟩

theorem valid_sampleDay : DateTime.valid 2026 7 1 0 0 0 0 = true := by decide

/-- `2026-07-01T00:00:00.5Z` -/
def sampleHalf : Timestamp := ⟨sampleDay 1 valid_sampleDay, rfl, false, [5], .utc false⟩

theorem comparable_noon : ∀ t ∈ [sampleNoon], Comparable (sampleDay 1) t ∧ Comparable (sampleDay 3) t := by
  intro t ht
  obtain rfl := List.mem_singleton.mp ht
  exact ⟨⟨⟨rfl, rfl⟩, fun h => absurd h (by decide)⟩, ⟨rfl, rfl⟩, fun h => absurd h (by decide)⟩

theorem event_windows_days :
    countIngestEventsInWindow .bytewise false [sampleNoon.text, sampleAhead.text] (sampleDay 1) (sampleDay 2) +
        countIngestEventsInWindow .bytewise false [sampleNoon.text, sampleAhead.text] (sampleDay 2) (sampleDay 3) =
          countIngestEventsInWindow .bytewise false [sampleNoon.text, sampleAhead.text] (sampleDay 1) (sampleDay 3) ∧
      countIngestEventsInWindow .bytewise false [sampleNoon.text] (sampleDay 1) (sampleDay 3) = 1 := by
  obtain ⟨hadjacent, -, hcount, -⟩ := event_windows .bytewise false (sampleDay 1) (sampleDay 2) (sampleDay 3)
    (Or.inr (by decide)) (Or.inr (by decide)) (Or.inr (by decide)) (by decide) (by decide)
  exact ⟨hadjacent _, (hcount [sampleNoon] comparable_noon).trans (by decide +kernel)⟩

/-- The text of an instant of the day before is in the window of a day, and the text of an instant
of the day is not. -/
theorem texts_select_otherwise :
    inWindow .bytewise (boundText false (sampleDay 1)) (boundText false (sampleDay 2)) sampleAhead.text = true ∧
      ¬ InstantIn (sampleDay 1) (sampleDay 2) sampleAhead ∧
      inWindow .bytewise (boundText false (sampleDay 1)) (boundText false (sampleDay 2)) sampleHalf.text = false ∧
      InstantIn (sampleDay 1) (sampleDay 2) sampleHalf ∧
      countIngestEventsInWindow .bytewise false [sampleAhead.text] (sampleDay 1) (sampleDay 2) = 1 ∧
      countIngestEventsInWindow .bytewise false [sampleHalf.text] (sampleDay 1) (sampleDay 2) = 0 := by
  have hday : FourDigits false (sampleDay 1) := Or.inr (by decide)
  have hnext : FourDigits false (sampleDay 2) := Or.inr (by decide)
  have hahead : inWindow .bytewise (boundText false (sampleDay 1)) (boundText false (sampleDay 2))
      sampleAhead.text = true := by
    rw [inWindow_iff hday hnext rfl (by simp [sampleAhead])]
    refine ⟨Or.inl (by decide), ?_⟩
    rintro (hlt | ⟨heq, -⟩)
    · exact absurd hlt (by decide)
    · exact absurd heq (by decide)
  have hhalf : inWindow .bytewise (boundText false (sampleDay 1)) (boundText false (sampleDay 2))
      sampleHalf.text = false := by
    rw [Bool.eq_false_iff, Ne, inWindow_iff hday hnext rfl (by simp [sampleHalf])]
    rintro ⟨hlt | ⟨-, hfraction, -⟩, -⟩
    · exact absurd hlt (by decide)
    · contradiction
  refine ⟨hahead, by decide +kernel, hhalf, by decide +kernel, ?_, ?_⟩
  · simp [countIngestEventsInWindow, hahead]
  · simp [countIngestEventsInWindow, hhalf]

end Anoryx.Orchestrator.EventWindows
