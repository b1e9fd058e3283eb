import LiveForm.Schema.Basic

/-!
# Typed readings

A raw value is read by the type of its field before it is compared or checked. Nothing is
converted: a text of digits is no number.

* `Typed`: what a raw value is for a type; `invalid` when it does not fit.
* `Typed.read`: the reading by a declared type.
* `Typed.infer`: the reading of a value without a type.
* `Typed.readLike`: the reading of a value that is compared with another one.
-/

namespace LiveForm

/-- Null, the empty text and the empty list count as no value. -/
def Value.isBlank : Value → Bool
  | null => true
  | text s => s = ""
  | list items | tuple items => items.isEmpty
  | _ => false

/-- A raw value as its type reads it. -/
inductive Typed where
  | empty
  | number (n : Number)
  | text (s : String)
  | boolean (b : Bool)
  | date (d : Date)
  | list (items : List Value)
  | invalid (raw : Value)

namespace Typed

/-- The name of the kind of a reading. -/
def kindName : Typed → String
  | empty => "empty"
  | number _ => "number"
  | text _ => "text"
  | boolean _ => "boolean"
  | date _ => "date"
  | list _ => "list"
  | invalid _ => "invalid"

/-- The value of a reading; the empty one has none. -/
def toValue : Typed → Value
  | empty => .null
  | number n => .ofNumber n
  | text s => .text s
  | boolean b => .bool b
  | date d => .date d
  | list items => .list items
  | invalid raw => raw

def isEmpty : Typed → Bool
  | empty => true
  | _ => false

/-- A number; a NaN is no value. -/
def ofNumber (n : Number) : Typed := if n.isNaN then empty else number n

/-- The date of a date, a moment, or a text that writes a date. -/
def dateOf? : Value → Option Date
  | .date d => some d
  | .moment m => some m.date
  | .text s => Date.ofText? s
  | _ => none

/-- A date, or the raw value that is none. -/
def ofDate (raw : Value) : Typed :=
  match dateOf? raw with
  | some d => date d
  | none => invalid raw

/-- The members of a list or a tuple. -/
def items? : Value → Option (List Value)
  | .list items | .tuple items => some items
  | _ => none

/-- The reading of a raw value by a declared type. Without a type only blank values fit. -/
def read (type : Option FieldType) (raw : Value) : Typed :=
  if raw.isBlank then empty
  else
    match type with
    | some .number =>
      match raw.number? with
      | some n => ofNumber n
      | none => invalid raw
    | some .text | some .textarea | some .select | some .radio =>
      match raw with
      | .text s => text s
      | raw => invalid raw
    | some .boolean =>
      match raw with
      | .bool b => boolean b
      | raw => invalid raw
    | some .date => ofDate raw
    | some .checkbox =>
      match items? raw with
      | some items => list items
      | none => invalid raw
    | none => invalid raw

/-- The reading of a value without a type. -/
def infer (raw : Value) : Typed :=
  if raw.isBlank then empty
  else
    match raw with
    | .bool b => boolean b
    | .int n => number (.int n)
    | .float x => ofNumber (.float x)
    | .text s => text s
    | .date d => date d
    | .moment m => date m.date
    | .list items | .tuple items => list items
    | raw => invalid raw

/-- The reading of a value to compare with a reading: next to a date, texts are dates too. -/
def readLike (other : Typed) (raw : Value) : Typed :=
  if raw.isBlank then empty
  else
    match other with
    | date _ => ofDate raw
    | _ => infer raw

end Typed

end LiveForm
