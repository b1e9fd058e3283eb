import LiveForm.Number.Binary64

/-!
# Decimal text of double-precision numbers

A finite number is written with the fewest digits that read back to it.

* `Binary64.roundsTo`: the decimals that read back to a code form an interval, whose ends belong
  to it when the code is even.
* `Binary64.shortest`: the member of that interval on the coarsest power-of-ten grid that meets
  it, the nearest one if there are two.
* `FloatLayout`: the choices of a text format; `Binary64.write` lays the digits out.
-/

namespace LiveForm

/-- A decimal `coefficient · 10 ^ exponent`. -/
structure Decimal where
  coefficient : Nat
  exponent : Int
  deriving DecidableEq

namespace Binary64

/-- The decimal reads back to the code: twice its units lie between the sums of the code's units
with those of its two neighbours. -/
def roundsTo (code : Nat) (d : Decimal) : Bool :=
  let low := units code + units (code - 1)
  let high := units code + units (code + 1)
  let num := 2 * d.coefficient * Nat.pow 10 d.exponent.toNat * unitsPerOne
  let den := Nat.pow 10 (-d.exponent).toNat
  if code % 2 = 0 then low * den ≤ num && num ≤ high * den
  else low * den < num && num < high * den

/-- The nearest of the grid points `k · 10 ^ exponent` to the value of a code, if it reads
back. -/
def onGrid? (code : Nat) (exponent : Int) : Option Decimal :=
  let num := units code * Nat.pow 10 (-exponent).toNat
  let den := unitsPerOne * Nat.pow 10 exponent.toNat
  let near : Decimal := ⟨roundDiv num den, exponent⟩
  if roundsTo code near then some near else
    let below : Decimal := ⟨num / den, exponent⟩
    if roundsTo code below then some below else
      let above : Decimal := ⟨num / den + 1, exponent⟩
      if roundsTo code above then some above else none

/-- The fewest digits that read back to a code that is not zero. -/
def shortest (code : Nat) : Decimal :=
  let top : Int := ((Nat.log2 (units code) : Int) - 1072) * 30103 / 100000 + 1
  ((List.range 24).findSome? fun i : Nat => onGrid? code (top - i)).getD
    ⟨units code * Nat.pow 5 1074, -1074⟩

end Binary64

/-- The choices of a text format for numbers. -/
structure FloatLayout where
  nan : String
  infinity : String
  negativeInfinity : String
  /-- Written between the digits and the exponent when there is a single digit. -/
  loneDigitTail : String

/-- A text of `n` zeros. -/
def zeros (n : Nat) : String := String.ofList (List.replicate n '0')

/-- Digits with the decimal point after the first `point` of them: positional when the exponent
of the first digit is in `[-4, 16)`, else with an exponent of at least two digits. -/
def FloatLayout.digits (l : FloatLayout) (digits : String) (point : Int) : String :=
  let n : Int := digits.length
  if -4 < point ∧ point ≤ 16 then
    if point ≤ 0 then "0." ++ zeros (-point).toNat ++ digits
    else if n ≤ point then digits ++ zeros (point - n).toNat ++ ".0"
    else
      String.ofList (digits.toList.take point.toNat) ++ "."
        ++ String.ofList (digits.toList.drop point.toNat)
  else
    let e := point - 1
    let size := toString e.natAbs
    let mantissa :=
      if n ≤ 1 then digits ++ l.loneDigitTail
      else String.ofList (digits.toList.take 1) ++ "." ++ String.ofList (digits.toList.drop 1)
    mantissa ++ "e" ++ (if e < 0 then "-" else "+") ++ (if size.length < 2 then "0" else "") ++ size

/-- The text of a number. -/
def Binary64.write (l : FloatLayout) : Binary64 → String
  | .nan _ => l.nan
  | .infinite true => l.negativeInfinity
  | .infinite false => l.infinity
  | .finite s c =>
    let sign := if s then "-" else ""
    if c.val = 0 then sign ++ "0.0"
    else
      let d := shortest c
      let digits := toString d.coefficient
      sign ++ l.digits digits (digits.length + d.exponent)

/-- The plain layout: `nan`, `inf`, and `1e+16`. -/
def plainLayout : FloatLayout := ⟨"nan", "inf", "-inf", ""⟩

/-- The plain text of a number. -/
def Binary64.text (x : Binary64) : String := x.write plainLayout

/-! ## Reading -/

/-- The number that a run of digits writes. -/
def digitsValue (cs : List Char) : Nat := cs.foldl (fun n c => 10 * n + (c.toNat - 48)) 0

/-- Splits off a leading sign; `true` for a minus. -/
def splitSign : List Char → Bool × List Char
  | '-' :: r => (true, r)
  | '+' :: r => (false, r)
  | r => (false, r)

/-- The digits at the front, and what follows them. -/
def spanDigits (cs : List Char) : List Char × List Char := cs.span Char.isDigit

/-- The number that the digits before and after the point and an exponent write. -/
def decimalNumber (negative : Bool) (whole fraction : List Char) (exponent : Int) : Binary64 :=
  Binary64.ofDecimal negative (digitsValue (whole ++ fraction)) (exponent - fraction.length)

/-- Reads an exponent part such as `e-7`; absent, it is zero. -/
def readExponent? : List Char → Option Int
  | [] => some 0
  | e :: r =>
    if e = 'e' ∨ e = 'E' then
      let (negative, ds) := splitSign r
      if ds ≠ [] ∧ ds.all Char.isDigit then
        some (if negative then -(digitsValue ds : Int) else digitsValue ds)
      else none
    else none

/-- Reads the plain text of a number; a NaN gets the given label. -/
def Binary64.ofText? (label : Nat) (s : String) : Option Binary64 :=
  let (negative, body) := splitSign s.toList
  if body = ['n', 'a', 'n'] then some (.nan label)
  else if body = ['i', 'n', 'f'] then some (.infinite negative)
  else
    let (whole, rest) := spanDigits body
    let (fraction, rest) := match rest with
      | '.' :: r => spanDigits r
      | r => ([], r)
    if whole ++ fraction = [] then none
    else (readExponent? rest).map (decimalNumber negative whole fraction)

end LiveForm
