import LiveForm.Calendar.Moment

/-!
# Reading ISO 8601 text

Dates are accepted with and without dashes, and as ISO weeks. A moment is a date, any one
separating character, and a time of pairs of digits with or without colons, a fraction after a
point or a comma, and `Z` or an offset.

* `Date.ofText?` and `Moment.ofText?`: the readers.
* `separatorIndex`: where the date of a moment ends.
-/

namespace LiveForm

/-! ## Digits -/

/-- The value of exactly `n` digits at the front, and what follows. -/
def takeDigits : Nat → List Char → Option (Nat × List Char)
  | n, cs =>
    let front := cs.take n
    if front.length = n ∧ front.all Char.isDigit then
      some (front.foldl (fun v c => 10 * v + (c.toNat - 48)) 0, cs.drop n)
    else none

/-- Removes a given character from the front. -/
def skipChar (c : Char) : List Char → Option (List Char)
  | [] => none
  | d :: r => if d = c then some r else none

/-- The text is over; a NUL ends it too. -/
def atEnd : List Char → Bool
  | [] => true
  | c :: _ => c == '\x00'

/-! ## Dates -/

/-- Reads the date at the front of a text, where `width` bytes are set aside for it. What follows
the date within the width is not looked at. -/
def readDate (width : Nat) (cs : List Char) : Option Date := do
  let (year, rest) ← takeDigits 4 cs
  let (dashed, rest) := match rest with
    | '-' :: r => (true, r)
    | r => (false, r)
  match rest with
  | 'W' :: rest =>
    let (week, rest) ← takeDigits 2 rest
    if (if dashed then 8 else 7) < width then
      let rest ← if dashed then skipChar '-' rest else some rest
      let (day, _) ← takeDigits 1 rest
      Date.ofWeek? year week day
    else Date.ofWeek? year week 1
  | rest =>
    let (month, rest) ← takeDigits 2 rest
    let rest ← if dashed then skipChar '-' rest else some rest
    let (day, _) ← takeDigits 2 rest
    Date.ofNumbers? year month day

/-- The date that a text of 7, 8 or 10 bytes writes. -/
def Date.ofText? (s : String) : Option Date :=
  let width := s.utf8ByteSize
  if width = 7 ∨ width = 8 ∨ width = 10 then readDate width s.toList else none

/-! ## Times -/

/-- Numbers read from a clock text, and whether something is left over after them. -/
structure Clock where
  hour : Nat := 0
  minute : Nat := 0
  second : Nat := 0
  microsecond : Nat := 0
  leftover : Bool := false

/-- The numbers of a clock in order. -/
def Clock.ofFields (fields : List Nat) (microsecond : Nat) (leftover : Bool) : Clock :=
  ⟨fields[0]?.getD 0, fields[1]?.getD 0, fields[2]?.getD 0, microsecond, leftover⟩

/-- Reads a fraction of a second: up to six digits count, further digits are dropped. -/
def readFraction (fields : List Nat) (followed : Bool) (cs : List Char) : Option Clock := do
  let n := min 6 cs.length
  let (value, rest) ← takeDigits n cs
  let rest := rest.dropWhile Char.isDigit
  let leftover := if rest = [] then followed else !atEnd rest
  some (Clock.ofFields fields (value * Nat.pow 10 (6 - n)) leftover)

/-- Reads up to `left` more pairs of digits. `colons` tells whether the pairs are separated by
colons, `none` before the first separator; `followed` tells that an offset follows the text. -/
def readPairs (followed : Bool) : (left : Nat) → (colons : Option Bool) → (fields : List Nat) →
    List Char → Option Clock
  | 0, _, fields, cs => readFraction fields followed cs
  | left + 1, colons, fields, cs => do
    let (value, rest) ← takeDigits 2 cs
    let fields := fields ++ [value]
    match rest with
    | [] => some (Clock.ofFields fields 0 followed)
    | [c] => if c.toNat < 128 then some (Clock.ofFields fields 0 (c != '\x00')) else none
    | c :: more =>
      let colons := colons.getD (c == ':')
      if colons && c == ':' then readPairs followed left (some colons) fields more
      else if c = '.' ∨ c = ',' then readFraction fields followed more
      else if !colons then readPairs followed left (some colons) fields rest
      else none

/-- Reads an hour, perhaps a minute, perhaps a second, perhaps a fraction. -/
def readClock (followed : Bool) (cs : List Char) : Option Clock :=
  readPairs followed 3 none [] cs

/-- The character begins an offset. -/
def beginsOffset (c : Char) : Bool := c == '+' || c == '-' || c == 'Z'

/-- Reads an offset. One of whole seconds zero is UTC. -/
def readOffset : List Char → Option Offset
  | [] => none
  | 'Z' :: r => if atEnd r then some .utc else none
  | sign :: r => do
    let c ← readClock false r
    if c.leftover then none
    else
      let seconds := (c.hour * 60 + c.minute) * 60 + c.second
      if seconds = 0 then some .utc
      else
        let n : Nat := seconds * 1000000 + c.microsecond
        Offset.ofMicroseconds? (if sign = '-' then -(n : Int) else n)

/-- Reads a time of day on a date, with or without an offset. -/
def readTime (date : Date) (cs : List Char) : Option Moment := do
  let body := cs.takeWhile (!beginsOffset ·)
  let zone := cs.dropWhile (!beginsOffset ·)
  let c ← readClock (zone ≠ []) body
  let offset ←
    if zone = [] then (if c.leftover then none else some none)
    else (readOffset zone).map some
  Moment.ofNumbers? date c.hour c.minute c.second c.microsecond offset

/-! ## Moments -/

/-- The character at a position, if it is a digit. -/
def digitAt (cs : List Char) (i : Nat) : Bool := (cs[i]?.map Char.isDigit).getD false

/-- The index of the character that separates the date from the time in a text of `width`
bytes. -/
def separatorIndex (width : Nat) (cs : List Char) : Nat :=
  if width = 7 then 7
  else if cs[4]? = some '-' then
    if cs[5]? = some 'W' then
      if 8 < width ∧ cs[8]? = some '-' then
        if 10 < width ∧ digitAt cs 10 then 8 else 10
      else 8
    else 10
  else if cs[4]? = some 'W' then
    let stop := 7 + ((cs.drop 7).takeWhile Char.isDigit).length
    if stop < 9 then stop else if stop % 2 = 0 then 7 else 8
  else 8

/-- The moment that a text writes; without a time it is midnight. -/
def Moment.ofText? (s : String) : Option Moment := do
  let cs := s.toList
  let width := s.utf8ByteSize
  let stop := separatorIndex width cs
  let date ← readDate stop cs
  if stop < width then readTime date (cs.drop (stop + 1))
  else Moment.ofNumbers? date 0 0 0 0 none

end LiveForm
