import Mobility.Lib.Rounding
import Mobility.Trips.Receipts
import Mathlib.Tactic.IntervalCases

/-!
# Timestamps — one instant, read in two languages

The phone writes an instant as a canonical ISO-8601 text; `Date.parse` reads it there,
and `datetime` with a division in doubles reads it on the server.  From 1970 to 9999
both give the same whole number of milliseconds.
-/

namespace Mobility
namespace Wire

open Lib
open Trips (valueError)

/-! ## Civil time -/

def isLeap (year : Nat) : Bool := year % 4 = 0 ∧ (year % 100 ≠ 0 ∨ year % 400 = 0)

def daysInMonth (year month : Nat) : Nat :=
  if month = 2 then (if isLeap year then 29 else 28)
  else if month = 4 ∨ month = 6 ∨ month = 9 ∨ month = 11 then 30
  else 31

/-- A date of the proleptic Gregorian calendar with a time of day, up to year 9999. -/
structure CivilTime where
  year : Nat
  month : Nat
  day : Nat
  hour : Nat
  minute : Nat
  second : Nat
  year_range : 1 ≤ year ∧ year ≤ 9999
  month_range : 1 ≤ month ∧ month ≤ 12
  day_range : 1 ≤ day ∧ day ≤ daysInMonth year month
  hour_lt : hour < 24
  minute_lt : minute < 60
  second_lt : second < 60

/-! ## The server -/

/-- An aware `datetime` in UTC. -/
structure UtcDateTime extends CivilTime where
  microsecond : Nat
  microsecond_lt : microsecond < 1000000

/-- `_days_before_month`, of `datetime`. -/
def daysBeforeMonth (year month : Nat) : Nat :=
  [0, 0, 31, 59, 90, 120, 151, 181, 212, 243, 273, 304, 334].getD month 0
    + (if 2 < month ∧ isLeap year = true then 1 else 0)

/-- `date.toordinal`: day 1 is the first of January of year 1. -/
def CivilTime.toordinal (t : CivilTime) : Nat :=
  (t.year - 1) * 365 + (t.year - 1) / 4 - (t.year - 1) / 100 + (t.year - 1) / 400
    + daysBeforeMonth t.year t.month + t.day

def epochOrdinal : Int := 719163

/-- Whole seconds since the epoch. -/
def CivilTime.wholeSeconds (t : CivilTime) : Int :=
  (t.toordinal - epochOrdinal) * 86400 + (t.hour * 3600 + t.minute * 60 + t.second : Nat)

/-- `datetime.timestamp`: the exact microseconds since the epoch, divided in doubles. -/
def UtcDateTime.timestamp (utc : UtcDateTime) : ℚ :=
  nearestDouble ((utc.wholeSeconds * 1000000 + utc.microsecond : Int) / 1000000)

/-- `epoch_milliseconds`, of a datetime that is aware and in UTC. -/
def epochMilliseconds (utc : UtcDateTime) : Except AppError Int := do
  require (utc.microsecond % 1000 = 0)
    (valueError "canonical datetime must have exact millisecond precision")
  return truncate utc.timestamp * 1000 + (utc.microsecond / 1000 : Nat)

/-! ## The phone -/

/-- A canonical UTC text `YYYY-MM-DDTHH:mm:ss.sssZ`, not before 1970. -/
structure IsoTimestamp extends CivilTime where
  millisecond : Nat
  millisecond_lt : millisecond < 1000
  since_epoch : 1970 ≤ year

def padded (width value : Nat) : List Char :=
  (List.range width).reverse.map (fun place => Nat.digitChar (value / 10 ^ place % 10))

/-- The characters of the text, as `toISOString` writes them. -/
def IsoTimestamp.text (t : IsoTimestamp) : List Char :=
  padded 4 t.year ++ '-' :: padded 2 t.month ++ '-' :: padded 2 t.day
    ++ 'T' :: padded 2 t.hour ++ ':' :: padded 2 t.minute ++ ':' :: padded 2 t.second
    ++ '.' :: padded 3 t.millisecond ++ ['Z']

/-- `/\.\d{3}(?:Z|[+-]\d{2}:\d{2})$/`, read from the end of the text. -/
def exactMilliseconds (text : List Char) : Bool :=
  match text.reverse with
  | 'Z' :: c :: b :: a :: '.' :: _ => a.isDigit && b.isDigit && c.isDigit
  | j :: i :: ':' :: h :: g :: sign :: c :: b :: a :: '.' :: _ =>
      (sign = '+' || sign = '-') && g.isDigit && h.isDigit && i.isDigit && j.isDigit
        && a.isDigit && b.isDigit && c.isDigit
  | _ => false

/-- `DayFromYear`. -/
def dayFromYear (year : Int) : Int :=
  365 * (year - 1970) + (year - 1969) / 4 - (year - 1901) / 100 + (year - 1601) / 400

/-- `InLeapYear`, by the number of days in the year. -/
def inLeapYear (year : Nat) : Nat :=
  if year % 4 ≠ 0 then 0
  else if year % 100 ≠ 0 then 1
  else if year % 400 ≠ 0 then 0
  else 1

/-- The day within the year on which a month starts. -/
def monthStart (year month : Nat) : Nat :=
  match month with
  | 1 => 0
  | 2 => 31
  | 3 => 59 + inLeapYear year
  | 4 => 90 + inLeapYear year
  | 5 => 120 + inLeapYear year
  | 6 => 151 + inLeapYear year
  | 7 => 181 + inLeapYear year
  | 8 => 212 + inLeapYear year
  | 9 => 243 + inLeapYear year
  | 10 => 273 + inLeapYear year
  | 11 => 304 + inLeapYear year
  | _ => 334 + inLeapYear year

/-- `Date.parse`: `MakeDate(MakeDay(…), MakeTime(…))`; every step is exact. -/
def dateParse (t : IsoTimestamp) : Int :=
  (dayFromYear t.year + monthStart t.year t.month + t.day - 1) * 86400000
    + (t.hour * 3600000 + t.minute * 60000 + t.second * 1000 + t.millisecond : Nat)

def maxSafeInteger : Int := 2 ^ 53 - 1

def clientError (message : String) : AppError :=
  { code := "Error", message := message, statusCode := 0 }

/-- `epochMilliseconds`; `toISOString` always ends in `Z`. -/
def clientEpochMilliseconds (t : IsoTimestamp) : Except AppError Int := do
  require (exactMilliseconds t.text = true)
    (clientError "evidence timestamp must have exact millisecond precision")
  require (-maxSafeInteger ≤ dateParse t ∧ dateParse t ≤ maxSafeInteger)
    (clientError "invalid evidence timestamp")
  return dateParse t

/-- The instant as the server parses the text. -/
def IsoTimestamp.parsed (t : IsoTimestamp) : UtcDateTime where
  toCivilTime := t.toCivilTime
  microsecond := t.millisecond * 1000
  microsecond_lt := by
    have := t.millisecond_lt
    omega

/-! ## Both read the same instant -/

theorem exactMilliseconds_text (t : IsoTimestamp) : exactMilliseconds t.text = true := by
  have hmillis : padded 3 t.millisecond = [Nat.digitChar (t.millisecond / 100 % 10),
      Nat.digitChar (t.millisecond / 10 % 10), Nat.digitChar (t.millisecond % 10)] := by
    simp [padded, List.range_succ]
  have htext : t.text.reverse = 'Z' :: Nat.digitChar (t.millisecond % 10)
      :: Nat.digitChar (t.millisecond / 10 % 10) :: Nat.digitChar (t.millisecond / 100 % 10)
      :: '.' :: (padded 4 t.year ++ '-' :: padded 2 t.month ++ '-' :: padded 2 t.day
        ++ 'T' :: padded 2 t.hour ++ ':' :: padded 2 t.minute
        ++ ':' :: padded 2 t.second).reverse := by
    rw [IsoTimestamp.text, hmillis]
    simp
  simp only [exactMilliseconds, htext, Nat.isDigit_digitChar, Bool.and_eq_true, decide_eq_true_eq]
  omega

theorem monthStart_eq {year month : Nat} (hmonth : 1 ≤ month ∧ month ≤ 12) :
    monthStart year month = daysBeforeMonth year month := by
  have hleap : inLeapYear year = if isLeap year = true then 1 else 0 := by
    unfold inLeapYear isLeap
    split_ifs <;> simp_all
  rcases hmonth with ⟨hlow, hhigh⟩
  interval_cases month <;> simp [monthStart, daysBeforeMonth, hleap]

/-- Both calendars number the days alike. -/
theorem days_eq (t : CivilTime) :
    dayFromYear t.year + monthStart t.year t.month + t.day - 1 = t.toordinal - epochOrdinal := by
  have hyear := t.year_range
  rw [monthStart_eq t.month_range]
  unfold dayFromYear CivilTime.toordinal epochOrdinal
  omega

theorem dateParse_eq (t : IsoTimestamp) :
    dateParse t = t.wholeSeconds * 1000 + t.millisecond := by
  unfold dateParse CivilTime.wholeSeconds
  rw [days_eq]
  push_cast
  ring

theorem toordinal_range (t : CivilTime) (hepoch : 1970 ≤ t.year) :
    epochOrdinal ≤ t.toordinal ∧ t.toordinal < 3700000 := by
  have hyear := t.year_range
  have hday := t.day_range
  have hmonth : daysInMonth t.year t.month ≤ 31 := by
    unfold daysInMonth
    split_ifs <;> omega
  have hbefore : daysBeforeMonth t.year t.month ≤ 335 := by
    rcases t.month_range with ⟨hlow, hhigh⟩
    unfold daysBeforeMonth
    interval_cases t.month <;> simp <;> split_ifs <;> omega
  have hfourth : 492 ≤ (t.year - 1) / 4 := by omega
  have hcentury : (t.year - 1) / 100 * 25 ≤ (t.year - 1) / 4 := by omega
  have hcycle : 4 ≤ (t.year - 1) / 400 := by omega
  unfold CivilTime.toordinal epochOrdinal
  omega

theorem wholeSeconds_range (t : CivilTime) (hepoch : 1970 ≤ t.year) :
    0 ≤ t.wholeSeconds ∧ t.wholeSeconds < 2 ^ 39 := by
  have hordinal := toordinal_range t hepoch
  have hhour := t.hour_lt
  have hminute := t.minute_lt
  have hsecond := t.second_lt
  unfold CivilTime.wholeSeconds epochOrdinal at *
  omega

/-- From 1970 on, the division in doubles loses no whole second. -/
theorem truncate_timestamp (utc : UtcDateTime) (hepoch : 1970 ≤ utc.year)
    (hmillis : utc.microsecond % 1000 = 0) : truncate utc.timestamp = utc.wholeSeconds := by
  have hrange := wholeSeconds_range utc.toCivilTime hepoch
  obtain ⟨n, hn⟩ := Int.eq_ofNat_of_zero_le hrange.1
  have hle : utc.microsecond ≤ 999000 := by
    have := utc.microsecond_lt
    omega
  have hquotient : ((utc.wholeSeconds * 1000000 + utc.microsecond : Int) : ℚ) / 1000000
      = (n : ℚ) + utc.microsecond / 1000000 := by
    rw [hn]
    push_cast
    ring
  have hfraction : (utc.microsecond : ℚ) / 1000000 ≤ 999 / 1000 := by
    have hcast : (utc.microsecond : ℚ) ≤ 999000 := by exact_mod_cast hle
    linarith
  rw [UtcDateTime.timestamp, hquotient, hn]
  exact truncate_nearestDouble (by omega) (by positivity) (by linarith)

theorem epochMilliseconds_eq (utc : UtcDateTime) (hepoch : 1970 ≤ utc.year)
    (hmillis : utc.microsecond % 1000 = 0) :
    epochMilliseconds utc = .ok (utc.wholeSeconds * 1000 + (utc.microsecond / 1000 : Nat)) := by
  simp only [epochMilliseconds, require_of hmillis, truncate_timestamp utc hepoch hmillis]
  rfl

theorem dateParse_safe (t : IsoTimestamp) :
    -maxSafeInteger ≤ dateParse t ∧ dateParse t ≤ maxSafeInteger := by
  have hrange := wholeSeconds_range t.toCivilTime t.since_epoch
  have hmillis := t.millisecond_lt
  rw [dateParse_eq]
  unfold maxSafeInteger
  omega

/-- The phone and the server read the same milliseconds. -/
theorem epochMilliseconds_parsed (t : IsoTimestamp) :
    epochMilliseconds t.parsed = .ok (dateParse t)
      ∧ clientEpochMilliseconds t = .ok (dateParse t) := by
  have hserver := epochMilliseconds_eq t.parsed t.since_epoch (Nat.mul_mod_left _ _)
  refine ⟨?_, ?_⟩
  · rw [hserver, dateParse_eq]
    simp [IsoTimestamp.parsed]
  · simp only [clientEpochMilliseconds, require_of (exactMilliseconds_text t),
      require_of (dateParse_safe t)]
    rfl

end Wire
end Mobility
