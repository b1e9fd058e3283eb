import LiveForm.Number.Binary64

/-!
# Numbers

A number of a form is an integer of any size or a double-precision number.

* `Number.extent?`: its place on the common line; a NaN has none.
* `Number.lt`: the exact order of integers and doubles together.
* `digitCount`, `digitLimit`: how long the text of an integer would be, and how long it may be.
-/

namespace LiveForm

/-- The number of decimal digits of an integer. -/
def digitCount (n : Int) : Nat := (Nat.toDigits 10 n.natAbs).length

/-- The largest number of digits of an integer that is read or written. -/
def digitLimit : Nat := 4300

/-- An integer or a double-precision number. -/
inductive Number where
  | int (n : Int)
  | float (x : Binary64)
  deriving DecidableEq, Inhabited

namespace Number

/-- The place of a number on the common line. -/
def extent? : Number → Option Binary64.Extent
  | int n => some (Binary64.extentOfInt n)
  | float x => x.extent

/-- The exact strict order; a NaN is in no order with anything. -/
def lt (a b : Number) : Bool :=
  match a.extent?, b.extent? with
  | some x, some y => x.lt y
  | _, _ => false

/-- Equality of magnitude; a NaN equals nothing. -/
def eq (a b : Number) : Bool :=
  match a.extent?, b.extent? with
  | some x, some y => x = y
  | _, _ => false

def isNaN : Number → Bool
  | int _ => false
  | float x => x.isNaN

end Number

end LiveForm
