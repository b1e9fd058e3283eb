import LiveForm.Typed
import LiveForm.Notice
import LiveForm.Pattern.Search

/-!
# Checking values

The value of a field is checked against its type, its limits and its choices. The search for a
pattern can break a check off.

* `Field.check`: the notices about a raw value; none when it may stand.
-/

namespace LiveForm

namespace Constraints

/-- A number lies below the least or above the greatest allowed one. -/
def outOfRange (c : Constraints) (n : Number) : Bool :=
  c.min.any n.lt || c.max.any (·.lt n)

/-- A length lies below the least or above the greatest allowed one. -/
def badLength (c : Constraints) (length : Nat) : Bool :=
  c.minLength.any (fun m => (length : Int) < m) || c.maxLength.any (· < (length : Int))

/-- A text lacks the pattern. The empty pattern asks for nothing, and what is no pattern occurs
nowhere. -/
def lacksPattern (search : Pattern.Search) (c : Constraints) (s : String) :
    Except Pattern.Interruption Bool :=
  match c.pattern with
  | none | some "" => .ok false
  | some p =>
    match search p s with
    | .ok found => .ok !found
    | .error .malformed => .ok true
    | .error (.interrupted cause) => .error cause

end Constraints

namespace Field

/-- The notices about a number. -/
def checkNumber (f : Field) (n : Number) : List Notice :=
  let c := f.constraints
  if c.outOfRange n then [.fieldRange f.key n c.min c.max c.message] else []

/-- The notices about a text: its length, then its pattern. -/
def checkText (search : Pattern.Search) (f : Field) (s : String) :
    Except Pattern.Interruption (List Notice) := do
  let c := f.constraints
  let lacks ← c.lacksPattern search s
  .ok ((if c.badLength s.length then
      [.fieldLength f.key s.length c.minLength c.maxLength c.message] else [])
    ++ if lacks then [.fieldPattern f.key (c.pattern.getD "") c.message] else [])

/-- The notices about values that have to be among the choices. -/
def checkChoices (f : Field) (values : List Value) : List Notice :=
  let allowed := f.choiceValues
  if allowed.isEmpty then []
  else (values.filter fun v => !v.member allowed).map fun v => .fieldChoice f.key v allowed

/-- The notices about a raw value. A value that is empty only has to be there when it is
required, and one of another type is not looked at further. -/
def check (search : Pattern.Search) (f : Field) (raw : Value) (required : Bool) :
    Except Pattern.Interruption (List Notice) :=
  match Typed.read (some f.type) raw with
  | .empty => .ok (if required then [.fieldRequired f.key f.constraints.message] else [])
  | .invalid _ => .ok [.fieldType f.key f.type.name raw.kindName]
  | .number n => .ok (f.checkNumber n)
  | .text s => do
    let notices ← f.checkText search s
    .ok (notices
      ++ if f.type = .select ∨ f.type = .radio then f.checkChoices [.text s] else [])
  | .list items => .ok (f.checkChoices items)
  | .boolean _ => .ok []
  | .date _ => .ok []

end Field

end LiveForm
