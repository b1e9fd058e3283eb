import LiveForm.Text.Class

/-!
# Paths

A relative path is a list of names, of which `..` leads back. Slashes that are repeated or at the
end, and the name `.`, say nothing.

* `Path.ofText`, `Path.text`: reading and writing a path.
* `Path.suffix`: the end of the last name, from its last point on.
-/

namespace LiveForm

/-- A relative path. -/
structure Path where
  names : List String
  deriving DecidableEq

namespace Path

/-- The parts of a text between slashes. -/
def splitSlashes : List Char → List (List Char)
  | [] => [[]]
  | c :: cs =>
    match c, splitSlashes cs with
    | '/', parts => [] :: parts
    | c, part :: parts => (c :: part) :: parts
    | c, [] => [[c]]

/-- The path that a text writes. -/
def ofText (s : String) : Path :=
  ⟨((splitSlashes s.toList).map String.ofList).filter fun name => name ≠ "" ∧ name ≠ "."⟩

/-- The text of a path. -/
def text (p : Path) : String :=
  if p.names.isEmpty then "." else String.intercalate "/" p.names

/-- The last name; the empty path has none. -/
def name (p : Path) : String := p.names.getLast?.getD ""

/-- The path without its last name. -/
def parent (p : Path) : Path := ⟨p.names.dropLast⟩

/-- The end of a name from its last point on. A point at either end of the name does not count. -/
def suffixOf (name : List Char) : List Char :=
  let after := (name.reverse.takeWhile (· ≠ '.')).reverse
  let stem := name.length - after.length - 1
  if after = [] ∨ stem = 0 then [] else '.' :: after

/-- The end of the last name, from its last point on. -/
def suffix (p : Path) : String := String.ofList (suffixOf p.name.toList)

/-- The suffix in lower case. -/
def lowerSuffix (p : Path) : String := lowerText p.suffix

end Path

end LiveForm
