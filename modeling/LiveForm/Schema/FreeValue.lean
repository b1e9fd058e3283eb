import LiveForm.Schema.Basic

/-!
# Free values

Defaults, choices and the values of rules are free: a schema may give any value. In a document
dates are ISO 8601 texts, and the type of a field restores them.

* `Value.encode`: dates and moments as texts, at any depth.
* `Value.decodeFor`: the date or moment that a text writes, for a date field.
* `Value.isNative`: the value can be written as JSON without loss.
-/

namespace LiveForm

namespace Value

mutual

/-- The value with dates and moments as texts and tuples as lists. -/
def encode : Value → Value
  | date d => text d.isoText
  | moment m => text m.isoText
  | list items => list (encodeItems items)
  | tuple items => list (encodeItems items)
  | map entries => map (encodeEntries entries)
  | v => v

def encodeItems : List Value → List Value
  | [] => []
  | v :: vs => encode v :: encodeItems vs

def encodeEntries : List (Value × Value) → List (Value × Value)
  | [] => []
  | (k, v) :: es => (k, encode v) :: encodeEntries es

end

/-- The date or moment that a text writes: a moment when it holds a `T` or a space. -/
def ofIsoText (s : String) : Value :=
  if s.toList.contains 'T' || s.toList.contains ' ' then
    match Moment.ofText? s with
    | some m => moment m
    | none => text s
  else
    match Date.ofText? s with
    | some d => date d
    | none => text s

/-- The value as a field of a type holds it: texts of dates become dates in a date field. -/
def decodeFor (type : Option FieldType) (v : Value) : Value :=
  match type, v with
  | some .date, text s => ofIsoText s
  | _, v => v

mutual

/-- The value is made of null, booleans, numbers, texts, lists, and mappings with text keys. -/
def isNative : Value → Bool
  | null | bool _ | int _ | float _ | text _ => true
  | list items => allNative items
  | map entries => allNativeEntries entries
  | _ => false

def allNative : List Value → Bool
  | [] => true
  | v :: vs => isNative v && allNative vs

def allNativeEntries : List (Value × Value) → Bool
  | [] => true
  | (k, v) :: es => k.kind = .text && isNative v && allNativeEntries es

end

/-- The encoded value can be written as JSON without loss. -/
def serializable (v : Value) : Bool := v.encode.isNative

end Value

end LiveForm
