import LiveForm.Calendar.Date

/-!
# Moments

A moment is a date with a time of day, to the microsecond, and perhaps an offset from UTC.

* `Moment.sameInstant`: equality of moments; with offsets, of the instants they name.
* `Moment.toUtc?`: the same instant written at offset zero.
* `Moment.isoText`: the text with the date and the time joined by a separator.
-/

namespace LiveForm

/-- The numbers name a time of day. -/
def isTimeOfDay (hour minute second microsecond : Nat) : Bool :=
  hour < 24 && minute < 60 && second < 60 && microsecond < 1000000

/-- The number of microseconds in a day. -/
def dayLength : Nat := 86400000000

/-- A distance from UTC, in microseconds, shorter than a day. -/
structure Offset where
  microseconds : Int
  short : microseconds.natAbs < dayLength
  deriving DecidableEq

/-- The offset with the given microseconds, if it is shorter than a day. -/
def Offset.ofMicroseconds? (n : Int) : Option Offset :=
  if h : n.natAbs < dayLength then some ⟨n, h⟩ else none

/-- The offset of UTC. -/
def Offset.utc : Offset := ⟨0, by decide⟩

/-- A date and a time of day; without an offset it is a local time. -/
structure Moment where
  date : Date
  hour : Nat
  minute : Nat
  second : Nat
  microsecond : Nat
  offset : Option Offset
  exists_time : isTimeOfDay hour minute second microsecond = true
  deriving DecidableEq

namespace Moment

/-- The moment with the given numbers, if they name a time of day. -/
def ofNumbers? (date : Date) (hour minute second microsecond : Nat) (offset : Option Offset) :
    Option Moment :=
  if h : isTimeOfDay hour minute second microsecond = true then
    some ⟨date, hour, minute, second, microsecond, offset, h⟩
  else none

/-- The microseconds since midnight. -/
def timeOfDay (m : Moment) : Nat :=
  ((m.hour * 60 + m.minute) * 60 + m.second) * 1000000 + m.microsecond

/-- The microseconds on the local clock since the day before year 1. -/
def localClock (m : Moment) : Nat := m.date.ordinal * dayLength + m.timeOfDay

/-- The microseconds on the clock of UTC; a local time counts as one of UTC. -/
def instant (m : Moment) : Int :=
  m.localClock - (m.offset.map Offset.microseconds).getD 0

/-- Two moments are equal when both or neither have an offset and they name one instant. -/
def sameInstant (a b : Moment) : Bool :=
  a.offset.isSome == b.offset.isSome && a.instant == b.instant

/-- The moment of UTC at a count of microseconds, if its year is in range. -/
def ofInstant? (n : Int) : Option Moment :=
  if n < 0 then none
  else do
    let n := n.toNat
    let date ← Date.ofOrdinal? (n / dayLength)
    let t := n % dayLength
    let s := t / 1000000
    ofNumbers? date (s / 3600) (s / 60 % 60) (s % 60) (t % 1000000) (some .utc)

/-- The same instant at offset zero, if its year is in range. A local time counts as one of
UTC. -/
def toUtc? (m : Moment) : Option Moment := ofInstant? m.instant

/-! ## Text -/

/-- The text of an offset: `+HH:MM`, then seconds and microseconds that are not zero. -/
def offsetText (o : Offset) : String :=
  let n := o.microseconds.natAbs
  let s := n / 1000000
  let u := n % 1000000
  (if o.microseconds < 0 then "-" else "+")
    ++ Date.padded 2 (s / 3600) ++ ":" ++ Date.padded 2 (s / 60 % 60)
    ++ (if s % 60 = 0 ∧ u = 0 then "" else ":" ++ Date.padded 2 (s % 60))
    ++ (if u = 0 then "" else "." ++ Date.padded 6 u)

/-- The text of the time of day and the offset. -/
def timeText (m : Moment) : String :=
  Date.padded 2 m.hour ++ ":" ++ Date.padded 2 m.minute ++ ":" ++ Date.padded 2 m.second
    ++ (if m.microsecond = 0 then "" else "." ++ Date.padded 6 m.microsecond)
    ++ (m.offset.map offsetText).getD ""

/-- The date and the time, joined by a separator. -/
def joined (separator : String) (m : Moment) : String :=
  m.date.isoText ++ separator ++ m.timeText

/-- The ISO 8601 text. -/
def isoText (m : Moment) : String := m.joined "T"

end Moment

end LiveForm
