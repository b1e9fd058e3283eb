import LiveForm.Value.Basic
import LiveForm.Text.Class

/-!
# Whole numbers of values

Numbers, booleans and numerals can be taken for whole numbers.

* `Value.toInteger`: the integer of a value, fractions cut off, or why there is none.
* `readNumeral?`: the integer that a numeral writes.
-/

namespace LiveForm

/-- Why a value is no whole number. -/
inductive IntegerError where
  /-- The kind has no integers. -/
  | kind (k : Value.Kind)
  /-- The text is no numeral. -/
  | numeral
  | notANumber
  | infinite
  deriving DecidableEq

/-- The digits of a numeral. Single underscores may stand between digits. -/
def numeralDigits? : List Char → Option (List Nat)
  | [] => some []
  | '_' :: c :: cs => do some ((← decimalValue? c) :: (← numeralDigits? cs))
  | c :: cs => do some ((← decimalValue? c) :: (← numeralDigits? cs))

/-- White space around a numeral, to which the ASCII separators do not belong. -/
def isMargin (c : Char) : Bool := isSpace c && (c.toNat < 28 || 31 < c.toNat)

/-- The integer that a numeral writes: digits of any script after an optional sign, perhaps
between white space. -/
def readNumeral? (s : String) : Option Int :=
  let trim := fun (cs : List Char) => cs.dropWhile isMargin
  let body := (trim (trim s.toList).reverse).reverse
  let (negative, digits) := match body with
    | '-' :: r => (true, r)
    | '+' :: r => (false, r)
    | r => (false, r)
  match digits with
  | [] => none
  | '_' :: _ => none
  | digits => do
    let ds ← numeralDigits? digits
    if digitLimit < ds.length then none
    else
      let n : Nat := ds.foldl (fun n d => 10 * n + d) 0
      some (if negative then -(n : Int) else n)

namespace Value

/-- The integer of a number, a boolean or a numeral. Fractions are cut off. -/
def toInteger : Value → Except IntegerError Int
  | bool b => .ok (if b then 1 else 0)
  | int n => .ok n
  | float x =>
    match x with
    | .nan _ => .error .notANumber
    | .infinite _ => .error .infinite
    | x => .ok (x.truncate?.getD 0)
  | text s =>
    match readNumeral? s with
    | some n => .ok n
    | none => .error .numeral
  | v => .error (.kind v.kind)

end Value

end LiveForm
