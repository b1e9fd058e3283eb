import LiveForm.Value.Basic
import LiveForm.Text.Class

/-!
# Literals

The text of a value in messages.

* `Value.literal`: the value written out, texts quoted.
* `Value.display`: the same with an outermost text, date or moment left bare.
* `Value.printable`: no integer is too long to be written out.
-/

namespace LiveForm

/-! ## Escapes -/

/-- A number in lower-case hexadecimal, padded to a width. -/
def hexText (width n : Nat) : String :=
  let ds := Nat.toDigits 16 n
  String.ofList (List.replicate (width - ds.length) '0' ++ ds)

/-- The quote for a text: double when it holds a single quote and no double one. -/
def chooseQuote (cs : List Char) : Char :=
  if cs.contains '\'' && !cs.contains '"' then '"' else '\''

/-- A character inside a quoted text: the quote, the backslash and what has no glyph are
escaped. -/
def escapeChar (quote c : Char) : String :=
  if c = quote ∨ c = '\\' then String.ofList ['\\', c]
  else if c = '\n' then "\\n"
  else if c = '\r' then "\\r"
  else if c = '\t' then "\\t"
  else if isPrintable c then c.toString
  else if c.toNat < 0x100 then "\\x" ++ hexText 2 c.toNat
  else if c.toNat < 0x10000 then "\\u" ++ hexText 4 c.toNat
  else "\\U" ++ hexText 8 c.toNat

/-- A text in quotes. -/
def quoted (s : String) : String :=
  let cs := s.toList
  let q := chooseQuote cs
  q.toString ++ String.join (cs.map (escapeChar q)) ++ q.toString

/-- A byte inside a quoted run of bytes. -/
def escapeByte (quote : Char) (b : UInt8) : String :=
  if b < 128 then escapeChar quote (Char.ofNat b.toNat) else "\\x" ++ hexText 2 b.toNat

/-- A run of bytes in quotes, marked as such. -/
def quotedBytes (bs : List UInt8) : String :=
  let q := chooseQuote (bs.map fun b => Char.ofNat b.toNat)
  "b" ++ q.toString ++ String.join (bs.map (escapeByte q)) ++ q.toString

/-! ## Dates -/

/-- The items joined by commas. -/
def commaList (items : List String) : String := String.intercalate ", " items

/-- The literal of a date. -/
def Date.literal (d : Date) : String :=
  "datetime.date(" ++ commaList ([d.year, d.month, d.day].map toString) ++ ")"

/-- The literal of an offset: whole days, then seconds and microseconds that are not zero. -/
def Offset.literal (o : Offset) : String :=
  if o.microseconds = 0 then "datetime.timezone.utc"
  else
    let days := o.microseconds.fdiv dayLength
    let rest := o.microseconds - days * dayLength
    let parts := [("days", days), ("seconds", rest / 1000000), ("microseconds", rest % 1000000)]
    let shown := parts.filterMap fun (name, n) =>
      if n = 0 then none else some (name ++ "=" ++ toString n)
    "datetime.timezone(datetime.timedelta(" ++ commaList shown ++ "))"

/-- The literal of a moment: seconds are left out when they and the microseconds are zero. -/
def Moment.literal (m : Moment) : String :=
  let tail := if m.microsecond ≠ 0 then [m.second, m.microsecond]
    else if m.second ≠ 0 then [m.second] else []
  let numbers := [m.date.year, m.date.month, m.date.day, m.hour, m.minute] ++ tail
  let offset := match m.offset with
    | some o => ["tzinfo=" ++ o.literal]
    | none => []
  "datetime.datetime(" ++ commaList (numbers.map toString ++ offset) ++ ")"

/-! ## Values -/

namespace Value

mutual

/-- The value written out. -/
def literal : Value → String
  | null => "None"
  | bool true => "True"
  | bool false => "False"
  | int n => toString n
  | float x => x.text
  | text s => quoted s
  | bytes bs => quotedBytes bs
  | date d => d.literal
  | moment m => m.literal
  | list items => "[" ++ commaList (literals items) ++ "]"
  | tuple [] => "()"
  | tuple [v] => "(" ++ literal v ++ ",)"
  | tuple items => "(" ++ commaList (literals items) ++ ")"
  | set [] => "set()"
  | set items => "\x7b" ++ commaList (literals items) ++ "\x7d"
  | map entries => "\x7b" ++ commaList (entryLiterals entries) ++ "\x7d"

/-- The members of a container written out. -/
def literals : List Value → List String
  | [] => []
  | v :: vs => literal v :: literals vs

/-- The entries of a mapping written out. -/
def entryLiterals : List (Value × Value) → List String
  | [] => []
  | (k, v) :: es => (literal k ++ ": " ++ literal v) :: entryLiterals es

end

/-- The value written out, a text, a date or a moment without its marks. -/
def display : Value → String
  | text s => s
  | date d => d.isoText
  | moment m => m.joined " "
  | v => v.literal

/-! ## Long integers -/

mutual

/-- The value can be written out: no integer in it has too many digits. -/
def printable : Value → Bool
  | int n => digitCount n ≤ digitLimit
  | list items => allPrintable items
  | tuple items => allPrintable items
  | set items => allPrintable items
  | map entries => entriesPrintable entries
  | _ => true

/-- The members of a container can be written out. -/
def allPrintable : List Value → Bool
  | [] => true
  | v :: vs => printable v && allPrintable vs

/-- The entries of a mapping can be written out. -/
def entriesPrintable : List (Value × Value) → Bool
  | [] => true
  | (k, v) :: es => printable k && printable v && entriesPrintable es

end

/-- The value written out, if it can be. -/
def literal? (v : Value) : Option String := if v.printable then some v.literal else none

/-- The value written out without the outermost marks, if it can be. -/
def display? (v : Value) : Option String := if v.printable then some v.display else none

end Value

end LiveForm
