import LiveForm.Yaml.Library
import LiveForm.Json.Reader

/-!
# Plain scalars in YAML

A scalar without quotes is null, a boolean, a number, a date, a moment or a text, according to how
it is written. The rules are those of YAML 1.1: `on` is true, `010` is eight, `12:30` counts in
sixties, and an exponent needs a point before it and a sign.

* `Form`: what a plain scalar can be, `formOf` what one is.
* `plainValue`: the value of a plain scalar.
-/

namespace LiveForm

namespace Yaml

/-- What a plain scalar can be. -/
inductive Form where
  | null | bool | int | float | time
  /-- The key `<<`, whose value is merged into its mapping. -/
  | merge
  /-- The key `=`. -/
  | default
  | text
  deriving DecidableEq

/-! ## Names -/

/-- The names of null. -/
def nullNames : List String := ["", "~", "null", "Null", "NULL"]

/-- The names of true. -/
def trueNames : List String := ["yes", "Yes", "YES", "true", "True", "TRUE", "on", "On", "ON"]

/-- The names of false. -/
def falseNames : List String :=
  ["no", "No", "NO", "false", "False", "FALSE", "off", "Off", "OFF"]

/-- The names of infinity, after the point and perhaps a sign. -/
def infinityNames : List String := ["inf", "Inf", "INF"]

/-- The names of NaN, after the point. -/
def nanNames : List String := ["nan", "NaN", "NAN"]

/-! ## Numbers -/

/-- Splits off a leading sign: whether there is one, and whether it is a minus. -/
def splitMark : List Char → Bool × Bool × List Char
  | '-' :: r => (true, true, r)
  | '+' :: r => (true, false, r)
  | r => (false, false, r)

/-- A digit, or an underscore between digits. -/
def isDigitOrLine (c : Char) : Bool := c.isDigit || c == '_'

/-- Digits and underscores, a digit first. -/
def isDigitRun : List Char → Bool
  | [] => false
  | c :: cs => c.isDigit && cs.all isDigitOrLine

/-- A number below sixty, of one or two digits. -/
def isSixtieth : List Char → Bool
  | [a] => a.isDigit
  | [a, b] => '0' ≤ a && a ≤ '5' && b.isDigit
  | _ => false

/-- The parts of a text between colons. -/
def splitColons : List Char → List (List Char)
  | [] => [[]]
  | c :: cs =>
    match c, splitColons cs with
    | ':', parts => [] :: parts
    | c, part :: parts => (c :: part) :: parts
    | c, [] => [[c]]

/-- A character is one of those or an underscore. -/
def inOrLine (digits : List Char) (c : Char) : Bool := digits.contains c || c == '_'

/-- The text without its sign writes an integer. -/
def isInteger : List Char → Bool
  | ['0'] => true
  | '0' :: 'b' :: ds => !ds.isEmpty && ds.all (inOrLine ['0', '1'])
  | '0' :: 'x' :: ds => !ds.isEmpty && ds.all fun c => (Json.hexValue? c).isSome || c == '_'
  | '0' :: ds => ds.all fun c => ('0' ≤ c && c ≤ '7') || c == '_'
  | ds =>
    match splitColons ds with
    | first :: rest => isDigitRun first && rest.all isSixtieth
    | [] => false

/-- The text is empty or an exponent with a sign. -/
def isExponent : List Char → Bool
  | [] => true
  | e :: s :: ds => (e == 'e' || e == 'E') && (s == '-' || s == '+') && !ds.isEmpty
      && ds.all Char.isDigit
  | _ => false

/-- The text after the point of a number: digits and perhaps an exponent. -/
def isFraction (cs : List Char) : Bool := isExponent (cs.dropWhile isDigitOrLine)

/-- The text writes a number with a point. -/
def isFloat (cs : List Char) : Bool :=
  let (signed, _, body) := splitMark cs
  match body.span (· ≠ '.') with
  | ([], _ :: tail) =>
    infinityNames.contains (String.ofList tail)
      || (!signed && (nanNames.contains (String.ofList tail)
        || ((tail.head?.map Char.isDigit).getD false && isFraction tail)))
  | (head, _ :: tail) =>
    match splitColons head with
    | [whole] => isDigitRun whole && isFraction tail
    | whole :: sixtieths =>
      isDigitRun whole && sixtieths.all isSixtieth && tail.all isDigitOrLine
    | [] => false
  | (_, []) => false

/-- The number that digits write in a base. -/
def inBase (base : Nat) (cs : List Char) : Nat :=
  cs.foldl (fun n c => base * n + (Json.hexValue? c).getD 0) 0

/-- Whole parts that count in sixties. -/
def inSixties (parts : List (List Char)) : Nat :=
  parts.foldl (fun n part => 60 * n + digitsValue part) 0

/-- The integer of a text that writes one. -/
def integerValue (cs : List Char) : Except Unreadable Value :=
  let (_, negative, body) := splitMark (cs.filter (· ≠ '_'))
  let signed := fun (n : Nat) => Value.int (if negative then -(n : Int) else n)
  match body with
  | ['0', 'b'] | ['0', 'x'] => .error .noValue
  | '0' :: 'b' :: ds => .ok (signed (inBase 2 ds))
  | '0' :: 'x' :: ds => .ok (signed (inBase 16 ds))
  | '0' :: ds => .ok (signed (inBase 8 ds))
  | ds =>
    let parts := splitColons ds
    if parts.any fun part => digitLimit < part.length then .error .noValue
    else .ok (signed (inSixties parts))

/-- A number times a power of sixty, added to a sum. -/
def addSixties (sum : Binary64) (power : Nat) (part : List Char) : Binary64 :=
  match Binary64.ofText? 0 (String.ofList part) with
  | some (.finite s c) => sum.add (Binary64.ofQuotient s (units c * Nat.pow 60 power) 1)
  | some x => sum.add x
  | none => sum

/-- The opposite of a number. -/
def opposite : Binary64 → Binary64
  | .finite s c => .finite (!s) c
  | .infinite s => .infinite (!s)
  | x => x

/-- The label of the NaNs that YAML texts name. -/
def nanLabel : Nat := 1

/-- The number of a text that writes one with a point. -/
def floatValue (cs : List Char) : Binary64 :=
  let (_, negative, body) := splitMark (cs.filter (· ≠ '_'))
  match body with
  | '.' :: tail =>
    if infinityNames.contains (String.ofList tail) then .infinite negative
    else (Binary64.ofText? nanLabel (String.ofList
      (if nanNames.contains (String.ofList tail) then ['n', 'a', 'n'] else cs.filter (· ≠ '_')))
      ).getD (.nan nanLabel)
  | body =>
    match splitColons body with
    | [_] => (Binary64.ofText? nanLabel (String.ofList (cs.filter (· ≠ '_')))).getD (.nan nanLabel)
    | parts =>
      let sum := (parts.reverse.zipIdx.foldl (fun s (part, i) => addSixties s i part)
        (Binary64.zero false))
      if negative then opposite sum else sum

/-! ## Dates and moments -/

/-- The numbers of a date and perhaps a time of day. -/
structure Stamp where
  year : Nat
  month : Nat
  day : Nat
  time : Option (Nat × Nat × Nat × Nat × Option Int) := none

/-- One or two digits at the front. -/
def takeShort (cs : List Char) : Option (Nat × List Char) :=
  (takeDigits 2 cs).or (takeDigits 1 cs)

def isSpaceOrTab (c : Char) : Bool := c == ' ' || c == '\t'

/-- The microseconds that the first six digits of a fraction write. -/
def microseconds (ds : List Char) : Nat :=
  digitsValue (ds.take 6 ++ List.replicate (6 - ds.length) '0')

/-- Reads an offset from UTC up to the end of a text, in seconds: `Z`, or hours and perhaps
minutes. -/
def readOffset? : List Char → Option (Option Int)
  | [] => some none
  | ['Z'] => some (some 0)
  | c :: cs => do
    let sign : Int ← if c = '+' then some 1 else if c = '-' then some (-1) else none
    let (hours, rest) ← takeShort cs
    match rest with
    | [] => some (some (sign * (hours * 3600 : Nat)))
    | ':' :: rest =>
      let (minutes, rest) ← takeDigits 2 rest
      if rest = [] then some (some (sign * (hours * 3600 + minutes * 60 : Nat))) else none
    | _ => none

/-- Reads a time of day and an offset up to the end of a text. -/
def readClock? (cs : List Char) : Option (Nat × Nat × Nat × Nat × Option Int) := do
  let (hour, rest) ← takeShort cs
  let (minute, rest) ← takeDigits 2 (← skipChar ':' rest)
  let (second, rest) ← takeDigits 2 (← skipChar ':' rest)
  let (fraction, rest) := match rest with
    | '.' :: r => spanDigits r
    | r => ([], r)
  let zone := rest.dropWhile isSpaceOrTab
  if zone = [] ∧ rest ≠ [] then none
  else some (hour, minute, second, microseconds fraction, ← readOffset? zone)

/-- Reads a date, or a date and a time between which stand a `T` or blanks. A date by itself has
two digits for the month and the day. -/
def readStamp? (cs : List Char) : Option Stamp := do
  let (year, rest) ← takeDigits 4 cs
  let (month, rest) ← takeShort (← skipChar '-' rest)
  let (day, rest) ← takeShort (← skipChar '-' rest)
  match rest with
  | [] => if cs.length = 10 then some { year, month, day } else none
  | c :: r =>
    let clock ← if c = 'T' ∨ c = 't' then some r
      else if isSpaceOrTab c then some (r.dropWhile isSpaceOrTab) else none
    some { year, month, day, time := some (← readClock? clock) }

/-- The date or moment of a stamp, if it exists. -/
def Stamp.value? (s : Stamp) : Option Value := do
  let date ← Date.ofNumbers? s.year s.month s.day
  match s.time with
  | none => some (.date date)
  | some (hour, minute, second, microsecond, offset) =>
    let offset ← match offset with
      | none => some none
      | some seconds => (Offset.ofMicroseconds? (seconds * 1000000)).map some
    (Moment.ofNumbers? date hour minute second microsecond offset).map .moment

/-! ## Plain scalars -/

/-- What a plain scalar is. -/
def formOf (s : String) : Form :=
  let cs := s.toList
  if nullNames.contains s then .null
  else if trueNames.contains s || falseNames.contains s then .bool
  else if isFloat cs then .float
  else if isInteger (splitMark cs).2.2 then .int
  else if s = "<<" then .merge
  else if (readStamp? cs).isSome then .time
  else if s = "=" then .default
  else .text

/-- The value of a plain scalar. -/
def plainValue (s : String) : Except Unreadable Value :=
  match formOf s with
  | .null => .ok .null
  | .bool => .ok (.bool (trueNames.contains s))
  | .int => integerValue s.toList
  | .float => .ok (.float (floatValue s.toList))
  | .time =>
    match (readStamp? s.toList).bind Stamp.value? with
    | some v => .ok v
    | none => .error .noValue
  | .merge | .default => .error .malformed
  | .text => .ok (.text s)

end Yaml

end LiveForm
