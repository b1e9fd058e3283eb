/-!
# Calendar dates

Days of the proleptic Gregorian calendar from year 1 to year 9999.

* `Date`: a year, a month and a day that exist together.
* `Date.ordinal`, `Date.ofOrdinal?`: the count of days up to a date, and back.
* `Date.ofWeek?`: the date of a day in an ISO week.
-/

namespace LiveForm

/-- February has a 29th in the year. -/
def isLeap (year : Nat) : Bool :=
  year % 4 = 0 && (year % 100 ≠ 0 || year % 400 = 0)

/-- The number of days of a month; none outside `1 … 12`. -/
def daysInMonth (year month : Nat) : Nat :=
  match month with
  | 1 | 3 | 5 | 7 | 8 | 10 | 12 => 31
  | 4 | 6 | 9 | 11 => 30
  | 2 => if isLeap year then 29 else 28
  | _ => 0

/-- The three numbers name a day. -/
def isDay (year month day : Nat) : Bool :=
  1 ≤ year && year ≤ 9999 && 1 ≤ day && day ≤ daysInMonth year month

/-- A day of the calendar. -/
structure Date where
  year : Nat
  month : Nat
  day : Nat
  exists_day : isDay year month day = true
  deriving DecidableEq

namespace Date

/-- The date with the given numbers, if there is one. -/
def ofNumbers? (year month day : Nat) : Option Date :=
  if h : isDay year month day = true then some ⟨year, month, day, h⟩ else none

/-! ## Counting days -/

/-- The number of days in the years before a year. -/
def daysBeforeYear (year : Nat) : Nat :=
  let y := year - 1
  y * 365 + y / 4 - y / 100 + y / 400

/-- The number of days in the months of a year before a month. -/
def daysBeforeMonth (year month : Nat) : Nat :=
  (List.range month).foldl (fun n m => n + daysInMonth year m) 0

/-- The position of a date, where January 1 of year 1 is day 1. -/
def ordinal (d : Date) : Nat :=
  daysBeforeYear d.year + daysBeforeMonth d.year d.month + d.day

/-- The month and day at a zero-based position in a year, searching from a month on. -/
def locate (year : Nat) : List Nat → Nat → Option Date
  | [], _ => none
  | m :: ms, n =>
    if n < daysInMonth year m then ofNumbers? year m (n + 1)
    else locate year ms (n - daysInMonth year m)

/-- The date at a position, if it lies between the years 1 and 9999. -/
def ofOrdinal? (n : Nat) : Option Date :=
  if n = 0 then none
  else
    let n := n - 1
    let (n400, n) := (n / 146097, n % 146097)
    let (n100, n) := (n / 36524, n % 36524)
    let (n4, n) := (n / 1461, n % 1461)
    let (n1, n) := (n / 365, n % 365)
    let year := n400 * 400 + n100 * 100 + n4 * 4 + n1 + 1
    if n1 = 4 ∨ n100 = 4 then ofNumbers? (year - 1) 12 31
    else locate year (List.range' 1 12) n

/-- The order of the calendar. -/
def lt (a b : Date) : Bool := a.ordinal < b.ordinal

/-! ## ISO weeks -/

/-- The zero-based day of the week, Monday first, of a position. -/
def weekdayOf (n : Nat) : Nat := (n + 6) % 7

/-- The position of the Monday of the first ISO week of a year: the week that holds January 4. -/
def firstMonday (year : Nat) : Int :=
  let jan1 := daysBeforeYear year + 1
  let weekday := weekdayOf jan1
  let monday : Int := (jan1 : Int) - weekday
  if 3 < weekday then monday + 7 else monday

/-- The year has a week 53: it begins on a Thursday, or it is a leap year that begins on a
Wednesday. -/
def hasLongYear (year : Nat) : Bool :=
  let weekday := weekdayOf (daysBeforeYear year + 1)
  weekday = 3 || (weekday = 2 && isLeap year)

/-- The date of day `day` (`1` is Monday) of an ISO week. -/
def ofWeek? (year week day : Nat) : Option Date :=
  if year = 0 ∨ week = 0 ∨ 53 < week ∨ (week = 53 ∧ ¬ hasLongYear year) ∨ day = 0 ∨ 7 < day then
    none
  else ofOrdinal? (firstMonday year + ((week - 1) * 7 + (day - 1) : Nat)).toNat

/-! ## Text -/

/-- A number with at least `width` digits. -/
def padded (width n : Nat) : String :=
  let s := toString n
  String.ofList (List.replicate (width - s.length) '0') ++ s

/-- The text `YYYY-MM-DD`. -/
def isoText (d : Date) : String :=
  padded 4 d.year ++ "-" ++ padded 2 d.month ++ "-" ++ padded 2 d.day

end Date

end LiveForm
