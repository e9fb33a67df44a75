namespace jiff

def is_leap (year : Nat) : Bool :=
  year % 4 == 0 && (year % 100 != 0 || year % 400 == 0)

def days_in_year (year : Nat) : Nat :=
  if is_leap year then 366 else 365

def days_in_month (year month : Nat) : Nat :=
  match month with
  | 2 => if is_leap year then 29 else 28
  | 4 | 6 | 9 | 11 => 30
  | _ => 31

/-- Walks through periods of length `len start`, `len (start + 1)`, … and
gives the period that `n` falls in and how far into it. -/
def locate (len : Nat → Nat) : Nat → Nat → Nat → Nat × Nat
  | 0, start, n => (start, n)
  | fuel + 1, start, n => if n < len start then (start, n) else locate len fuel (start + 1) (n - len start)

def nanos_per_second : Int := 1000000000
def seconds_per_day : Int := 86400

/-- The days of 400 years, after which the calendar repeats. -/
def days_per_cycle : Int := 146097

/-- `Timestamp::MIN` and `Timestamp::MAX`, `-009999-01-02T01:59:59Z` and
`9999-12-30T22:00:00.999999999Z`, in nanoseconds from the start of the year 0000. -/
def min_nanos : Int := -315537804001000000000
def max_nanos : Int := 315569426400999999999

/-- An instant that jiff represents, in nanoseconds from the start of the year 0000. -/
structure Timestamp where
  nanos : Int
  in_range : min_nanos ≤ nanos ∧ nanos ≤ max_nanos

theorem year_zero_in_range : min_nanos ≤ 0 ∧ 0 ≤ max_nanos := by decide

theorem unix_epoch_in_range : min_nanos ≤ 62167219200000000000 ∧ 62167219200000000000 ≤ max_nanos := by decide

def Timestamp.second (t : Timestamp) : Int := t.nanos / nanos_per_second
def Timestamp.subsec (t : Timestamp) : Nat := (t.nanos % nanos_per_second).toNat

def digit (n : Nat) : Char := Char.ofNat (48 + n % 10)

/-- `n` in decimal, in exactly `width` digits. -/
def padded : Nat → Nat → List Char
  | 0, _ => []
  | width + 1, n => padded width (n / 10) ++ [digit n]

def year_text (year : Int) : List Char :=
  if year < 0 then '-' :: padded 6 year.natAbs else padded 4 year.toNat

/-- Year, month and day of the month, counting days from the start of the year 0000. -/
def civil_date (day : Int) : Int × Nat × Nat :=
  let (year, day_of_year) := locate days_in_year 400 0 (day % days_per_cycle).toNat
  let (month, day_of_month) := locate (days_in_month year) 12 1 day_of_year
  (400 * (day / days_per_cycle) + year, month, day_of_month + 1)

def clock_text (time : Nat) : List Char :=
  padded 2 (time / 3600) ++ ':' :: padded 2 (time / 60 % 60) ++ ':' :: padded 2 (time % 60)

/-- `YYYY-MM-DDTHH:MM:SS` of a second. -/
def civil (second : Int) : List Char :=
  let (year, month, day) := civil_date (second / seconds_per_day)
  year_text year ++ '-' :: padded 2 month ++ '-' :: padded 2 day ++ 'T' :: clock_text (second % seconds_per_day).toNat

/-- The digits of a fraction of a second, without trailing zeros. -/
def fraction (subsec : Nat) : List Char :=
  ((padded 9 subsec).reverse.dropWhile (· == '0')).reverse

def fraction_text (subsec : Nat) : List Char :=
  if (fraction subsec).isEmpty then [] else '.' :: fraction subsec

/-- jiff's `Display`: RFC 3339 in UTC, with as many fractional digits as the
instant needs and none, not even the point, on a whole second. -/
def Timestamp.to_string (t : Timestamp) : String :=
  String.ofList (civil t.second ++ (fraction_text t.subsec ++ ['Z']))

/-- The most seconds that a `Span` holds. -/
def max_span_seconds : Nat := 631107417600

/-- `t - seconds`; jiff panics when the span or the result is out of its range. -/
def Timestamp.minus_seconds (t : Timestamp) (seconds : Int) : Option Timestamp :=
  let shifted := t.nanos - seconds * nanos_per_second
  if h : min_nanos ≤ shifted ∧ shifted ≤ max_nanos then
    if seconds.natAbs ≤ max_span_seconds then some ⟨shifted, h⟩ else none
  else none

/-- `Span::try_seconds`: the seconds, when a span holds them. -/
def try_seconds (seconds : Int) : Option Int :=
  if seconds.natAbs ≤ max_span_seconds then some seconds else none

/-- `Timestamp::checked_add` of a span of seconds. -/
def Timestamp.checked_add (t : Timestamp) (seconds : Int) : Option Timestamp :=
  let shifted := t.nanos + seconds * nanos_per_second
  if h : min_nanos ≤ shifted ∧ shifted ≤ max_nanos then some ⟨shifted, h⟩ else none

theorem Timestamp.checked_add_nanos {t shifted : Timestamp} {seconds : Int} (h : t.checked_add seconds = some shifted) :
    shifted.nanos = t.nanos + seconds * nanos_per_second := by
  simp only [Timestamp.checked_add] at h
  split at h
  · exact (congrArg Timestamp.nanos (Option.some.inj h)).symm
  · cases h

/-- The start of 1970 in nanoseconds from the start of the year 0000. -/
def unix_epoch_nanos : Int := 62167219200000000000

/-- The whole seconds since the start of 1970, cut off towards it. -/
def Timestamp.as_second (t : Timestamp) : Int := (t.nanos - unix_epoch_nanos).tdiv nanos_per_second

theorem Timestamp.as_second_mono {t u : Timestamp} (h : t.nanos ≤ u.nanos) : t.as_second ≤ u.as_second :=
  Int.tdiv_le_tdiv (by decide) (Int.sub_le_sub_right h _)

/-- The start of 1970 in seconds from the start of the year 0000. -/
def unix_epoch_second : Int := 62167219200

/-- Cutting off towards 1970 differs from cutting off downwards by a second at most. -/
theorem Timestamp.as_second_bounds (t : Timestamp) :
    t.second ≤ t.as_second + unix_epoch_second ∧ t.as_second + unix_epoch_second ≤ t.second + 1 := by
  simp only [Timestamp.as_second, Timestamp.second, Int.tdiv_eq_ediv, unix_epoch_nanos, nanos_per_second, unix_epoch_second]
  split
  · omega
  · simp only [Int.sign_eq_one_of_pos (by decide : (0 : Int) < 1000000000)]
    omega

example : (⟨62167219200500000000, by decide⟩ : Timestamp).to_string = "1970-01-01T00:00:00.5Z" := by
  set_option maxRecDepth 2000 in decide

inductive Weekday where
  | Monday
  | Tuesday
  | Wednesday
  | Thursday
  | Friday
  | Saturday
  | Sunday
  deriving DecidableEq, Repr

/-- The weekday of a day counted from the start of the year 0000, a Saturday. -/
def Weekday.of_day (day : Int) : Weekday :=
  match (day % 7).toNat with
  | 0 => .Saturday
  | 1 => .Sunday
  | 2 => .Monday
  | 3 => .Tuesday
  | 4 => .Wednesday
  | 5 => .Thursday
  | _ => .Friday

/-- A time zone of fixed offset, in seconds east of UTC. -/
structure TimeZone where
  offset : Int
  deriving DecidableEq, Repr

def TimeZone.UTC : TimeZone := ⟨0⟩

/-- What the clocks of a zone read, in seconds from the start of their year 0000. -/
structure Zoned where
  local_second : Int

def Timestamp.to_zoned (t : Timestamp) (tz : TimeZone) : Zoned := ⟨t.second + tz.offset⟩

def Zoned.day (z : Zoned) : Int := z.local_second / seconds_per_day
def Zoned.second_of_day (z : Zoned) : Nat := (z.local_second % seconds_per_day).toNat
def Zoned.weekday (z : Zoned) : Weekday := Weekday.of_day z.day
def Zoned.hour (z : Zoned) : Nat := z.second_of_day / 3600
def Zoned.minute (z : Zoned) : Nat := z.second_of_day / 60 % 60
def Zoned.second (z : Zoned) : Nat := z.second_of_day % 60

/-- The instant, in nanoseconds, at which so many minutes of the day have passed in the zone. -/
def TimeZone.instant (tz : TimeZone) (day : Int) (minute : Nat) : Int :=
  (day * seconds_per_day + minute * 60 - tz.offset) * nanos_per_second

variable {t : Timestamp} {tz : TimeZone}

/-- The readings of the clock are the time since the start of the day. -/
theorem Timestamp.to_zoned_reading (t : Timestamp) (tz : TimeZone) :
    t.second + tz.offset = (t.to_zoned tz).day * seconds_per_day +
      ((t.to_zoned tz).hour * 60 + (t.to_zoned tz).minute : Nat) * 60 + (t.to_zoned tz).second := by
  simp only [Timestamp.to_zoned, Zoned.day, Zoned.hour, Zoned.minute, Zoned.second, Zoned.second_of_day, seconds_per_day]
  omega

theorem Zoned.second_lt (z : Zoned) : z.second < 60 := Nat.mod_lt _ (by decide)

theorem Zoned.minute_of_day_lt (z : Zoned) : z.hour * 60 + z.minute < 1440 := by
  simp only [Zoned.hour, Zoned.minute, Zoned.second_of_day, seconds_per_day]
  omega

theorem Timestamp.second_bounds (t : Timestamp) :
    t.second * nanos_per_second ≤ t.nanos ∧ t.nanos < (t.second + 1) * nanos_per_second := by
  simp only [Timestamp.second, nanos_per_second]
  omega

/-- A whole second is reached when the seconds of the instant reach it. -/
theorem Timestamp.le_nanos_iff (t : Timestamp) (second : Int) : second * nanos_per_second ≤ t.nanos ↔ second ≤ t.second := by
  simp only [Timestamp.second, nanos_per_second]
  omega

/-- A minute of the current day is reached when the clock of the zone reads it. -/
theorem TimeZone.instant_le_iff (t : Timestamp) (tz : TimeZone) (minute : Nat) :
    tz.instant (t.to_zoned tz).day minute ≤ t.nanos ↔ minute ≤ (t.to_zoned tz).hour * 60 + (t.to_zoned tz).minute := by
  have hreading := t.to_zoned_reading tz
  have hsecond := (t.to_zoned tz).second_lt
  rw [TimeZone.instant, Timestamp.le_nanos_iff]
  omega

/-- The day on which an instant lies between two minutes is the day of the zone. -/
theorem TimeZone.day_unique {day : Int} {first last : Nat} (hlast : last ≤ 1440)
    (hfirst : tz.instant day first ≤ t.nanos) (hbefore : t.nanos < tz.instant day last) : day = (t.to_zoned tz).day := by
  have hreading := t.to_zoned_reading tz
  have hsecond := (t.to_zoned tz).second_lt
  have hminute := (t.to_zoned tz).minute_of_day_lt
  rw [TimeZone.instant, Timestamp.le_nanos_iff] at hfirst
  rw [TimeZone.instant, ← Int.not_le, Timestamp.le_nanos_iff] at hbefore
  simp only [seconds_per_day] at hreading hfirst hbefore
  omega

end jiff
