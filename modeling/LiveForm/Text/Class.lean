import LiveForm.Text.Unprintable
import LiveForm.Text.Alphanumeric
import LiveForm.Text.DecimalDigit
import LiveForm.Text.LowerCase

/-!
# Character classes

Classes of Unicode 14.

* `isSpace`, `isAlphanumeric`, `decimalValue?`, `isPrintable`: the classes.
* `lowerCase`, `caseKey`: the simple lower case, and a key that all cases of a letter share.
* `isBlankText`: the text holds only white space.
-/

namespace LiveForm

/-- Membership in a class given by the code points at which it changes. -/
def inRuns (bounds : List Nat) (code : Nat) : Bool :=
  (bounds.takeWhile (· ≤ code)).length % 2 = 1

/-- White space: the ASCII controls that move the cursor or separate, and the Unicode spaces. -/
def isSpace (c : Char) : Bool :=
  inRuns [9, 14, 28, 33, 133, 134, 160, 161, 5760, 5761, 8192, 8203, 8232, 8234, 8239, 8240,
    8287, 8288, 12288, 12289] c.toNat

/-- A letter or a character with a numeric value. -/
def isAlphanumeric (c : Char) : Bool := inRuns alphanumericBounds c.toNat

/-- The value of a decimal digit of any script. -/
def decimalValue? (c : Char) : Option Nat :=
  (decimalZeros.find? fun z => z ≤ c.toNat && c.toNat < z + 10).map (c.toNat - ·)

/-- The character has a glyph, or is the plain space. -/
def isPrintable (c : Char) : Bool :=
  if c.toNat < 128 then 32 ≤ c.toNat && c.toNat < 127 else !inRuns unprintableBounds c.toNat

/-- The text holds only white space, or nothing. -/
def isBlankText (s : String) : Bool := s.toList.all isSpace

/-! ## Case -/

/-- The shift to lower case of a code point, if it has one. -/
def lowerShift? (code : Nat) : Option Int :=
  (lowerCaseRuns.find? fun (first, last, step, _) =>
    first ≤ code && code ≤ last && (code - first) % step = 0).map fun (_, _, _, shift) => shift

/-- The simple lower case of a character. -/
def lowerCase (c : Char) : Char :=
  match lowerShift? c.toNat with
  | some shift => Char.ofNat (c.toNat + shift).toNat
  | none => c

/-- Lower-case letters that are cases of one letter, by the smallest of them. -/
def sharedCases : List (Nat × List Nat) :=
  [(105, [305]), (115, [383]), (181, [956]), (837, [953, 8126]), (912, [8147]), (944, [8163]),
   (946, [976]), (949, [1013]), (952, [977]), (954, [1008]), (960, [982]), (961, [1009]),
   (962, [963]), (966, [981]), (1074, [7296]), (1076, [7297]), (1086, [7298]), (1089, [7299]),
   (1090, [7300, 7301]), (1098, [7302]), (1123, [7303]), (7304, [42571]), (7777, [7835]),
   (64261, [64262])]

/-- A code that all cases of a letter share. -/
def caseKey (c : Char) : Nat :=
  let l := (lowerCase c).toNat
  ((sharedCases.find? fun (_, others) => others.contains l).map Prod.fst).getD l

/-- The text in simple lower case. -/
def lowerText (s : String) : String := String.ofList (s.toList.map lowerCase)

end LiveForm
