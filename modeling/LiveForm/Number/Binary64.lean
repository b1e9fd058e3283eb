/-!
# Double-precision numbers

A finite number is a sign and a code. The codes `0, 1, 2, …` name the non-negative finite values
in increasing order, and the value of a code is a whole number of units of `2⁻¹⁰⁷⁴`. Arithmetic
is exact on units and rounds once, to the nearest code with ties to the even one.

* `units`: the value of a code, in units.
* `roundDiv`: the nearest whole number to a quotient, ties to even.
* `ofQuotient`: the nearest code to a quotient of units; `none` beyond the largest finite value.
* `Binary64.extent`: the place of a number on the extended line, on which integers lie too.
* `Binary64.add`, `Binary64.divNat`, `ofInt?`, `divInt?`, `roundPlaces?`: the arithmetic.
-/

namespace LiveForm

/-! ## Codes and units -/

/-- One more than the largest code of a finite number: `2047 · 2⁵²`. -/
abbrev codeLimit : Nat := 9218868437227405312

/-- The least significand of a normal number: `2⁵²`. -/
abbrev leastNormal : Nat := 4503599627370496

/-- The value of a code, in units of `2⁻¹⁰⁷⁴`. -/
def units (code : Nat) : Nat :=
  if code < leastNormal then code
  else (leastNormal + code % leastNormal) * Nat.pow 2 (code / leastNormal - 1)

/-- The number of units in one. -/
def unitsPerOne : Nat := Nat.pow 2 1074

/-- The nearest whole number to `num / den`; a tie goes to the even neighbour. -/
def roundDiv (num den : Nat) : Nat :=
  let q := num / den
  let r := num % den
  if 2 * r < den then q else if den < 2 * r then q + 1 else q + q % 2

/-- How many binary digits of a quotient of units lie below the 53 that a code keeps. -/
def excessBits (q : Nat) : Nat := Nat.log2 q - 52

/-- The code nearest to `num / den` units, ties to the even code. -/
def nearestCode (num den : Nat) : Nat :=
  let s := excessBits (num / den)
  s * leastNormal + roundDiv num (den * Nat.pow 2 s)

/-- A double-precision number. A NaN carries a label: copies of one NaN share it, and two NaNs
that arose separately have different ones. -/
inductive Binary64 where
  | finite (negative : Bool) (code : Fin codeLimit)
  | infinite (negative : Bool)
  | nan (label : Nat)
  deriving DecidableEq, Inhabited

namespace Binary64

/-- The finite number nearest to `num / den` units; `none` when it rounds past the largest. -/
def ofQuotient? (negative : Bool) (num den : Nat) : Option Binary64 :=
  let c := nearestCode num den
  if h : c < codeLimit then some (.finite negative ⟨c, h⟩) else none

/-- The number nearest to `num / den` units, infinite when it rounds past the largest. -/
def ofQuotient (negative : Bool) (num den : Nat) : Binary64 :=
  (ofQuotient? negative num den).getD (.infinite negative)

/-- The positive or negative zero. -/
def zero (negative : Bool) : Binary64 := .finite negative ⟨0, by decide⟩

/-! ## Order -/

/-- A place on the line of integers and doubles, counted in units. -/
inductive Extent where
  | bottom
  | at (units : Int)
  | top
  deriving DecidableEq

/-- The strict order of the extended line. -/
def Extent.lt : Extent → Extent → Bool
  | .bottom, .bottom => false
  | .bottom, _ => true
  | .at _, .bottom => false
  | .at a, .at b => a < b
  | .at _, .top => true
  | .top, _ => false

/-- The signed number of units of a finite number. -/
def signedUnits (negative : Bool) (code : Nat) : Int :=
  if negative then -(units code : Int) else units code

/-- The place of a number; a NaN has none. -/
def extent : Binary64 → Option Extent
  | .finite s c => some (.at (signedUnits s c))
  | .infinite true => some .bottom
  | .infinite false => some .top
  | .nan _ => none

/-- The place of an integer. -/
def extentOfInt (n : Int) : Extent := .at (n * unitsPerOne)

def isNaN : Binary64 → Bool
  | .nan _ => true
  | _ => false

def isFinite : Binary64 → Bool
  | .finite _ _ => true
  | _ => false

/-! ## Conversions -/

/-- The nearest number to an integer; `none` when it is too large. -/
def ofInt? (n : Int) : Option Binary64 :=
  ofQuotient? (n < 0) (n.natAbs * unitsPerOne) 1

/-- The integer that a number equals, if it is whole. -/
def toInt? : Binary64 → Option Int
  | .finite s c =>
    let u := units c
    if u % unitsPerOne = 0 then
      some (if s then -((u / unitsPerOne : Nat) : Int) else (u / unitsPerOne : Nat))
    else none
  | _ => none

/-- The integer next to a finite number on the side of zero. -/
def truncate? : Binary64 → Option Int
  | .finite s c =>
    let q : Nat := units c / unitsPerOne
    some (if s then -(q : Int) else q)
  | _ => none

/-- The nearest number to `coefficient · 10 ^ exponent`. Exponents far outside the range decide
the outcome without being raised. -/
def ofDecimal (negative : Bool) (coefficient : Nat) (exponent : Int) : Binary64 :=
  if coefficient = 0 then zero negative
  else
    let magnitude : Int := (Nat.log2 coefficient : Int) * 30103 / 100000 + exponent
    if 400 < magnitude then .infinite negative
    else if magnitude < -400 then zero negative
    else if 0 ≤ exponent then
      ofQuotient negative (coefficient * Nat.pow 10 exponent.toNat * unitsPerOne) 1
    else ofQuotient negative (coefficient * unitsPerOne) (Nat.pow 10 (-exponent).toNat)

/-! ## Arithmetic -/

/-- The sum of two numbers, rounded once. A sum that is exactly zero is negative only when both
terms are. -/
def add : Binary64 → Binary64 → Binary64
  | .nan l, _ => .nan l
  | _, .nan l => .nan l
  | .infinite s, .infinite t => if s = t then .infinite s else .nan 0
  | .infinite s, _ => .infinite s
  | _, .infinite t => .infinite t
  | .finite s a, .finite t b =>
    let sum := signedUnits s a + signedUnits t b
    if sum = 0 then zero (s && t) else ofQuotient (sum < 0) sum.natAbs 1

/-- The quotient by a positive whole number, rounded once. -/
def divNat (x : Binary64) (n : Nat) : Binary64 :=
  match x with
  | .finite s c => ofQuotient s (units c) n
  | other => other

/-- The quotient of an integer by a positive whole number, rounded once; `none` when it is too
large. -/
def divInt? (a : Int) (n : Nat) : Option Binary64 :=
  ofQuotient? (a < 0) (a.natAbs * unitsPerOne) n

/-! ## Rounding to decimal places -/

/-- A number rounded to a count of decimal places (negative counts round to tens, hundreds, …):
the exact value goes to the nearest multiple, ties to the even one. `none` when the result is too
large. Beyond 323 places nothing changes, and below `-308` everything is zero. -/
def roundPlaces? (x : Binary64) (places : Int) : Option Binary64 :=
  match x with
  | .finite s c =>
    if 323 < places then some x
    else if places < -308 then some (zero s)
    else if 0 ≤ places then
      let p := Nat.pow 10 places.toNat
      ofQuotient? s (roundDiv (units c * p) unitsPerOne * unitsPerOne) p
    else
      let p := Nat.pow 10 (-places).toNat
      ofQuotient? s (roundDiv (units c) (unitsPerOne * p) * p * unitsPerOne) 1
  | other => some other

end Binary64

/-- An integer rounded to tens, hundreds, … when the count of places is negative, ties to the
even multiple. -/
def roundIntPlaces (n : Int) (places : Int) : Int :=
  if 0 ≤ places then n
  else
    let k := (-places).toNat
    if Nat.log2 n.natAbs < k then 0
    else
      let p := Nat.pow 10 k
      let m : Nat := roundDiv n.natAbs p * p
      if n < 0 then -(m : Int) else m

end LiveForm
