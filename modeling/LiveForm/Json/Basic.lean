import LiveForm.Value.Basic

/-!
# JSON trees

JSON texts as trees whose objects keep their members in order. Integers and floating-point
numbers are apart, and numbers may be infinite or NaN.

* `Json.ofValue`: the tree of a value, the members of objects in sorted or in given order.
* `Json.toValue`: the value of a tree; of members with one name the last one counts.
-/

namespace LiveForm

/-- A JSON tree. -/
inductive Json where
  | null
  | bool (b : Bool)
  | int (n : Int)
  | float (x : Binary64)
  | text (s : String)
  | array (items : List Json)
  | object (members : List (String × Json))
  deriving Inhabited

/-- Why a value has no JSON text. -/
inductive Unwritable where
  /-- A value of this kind occurs. -/
  | kind (k : Value.Kind)
  /-- A key of this kind occurs. -/
  | key (k : Value.Kind)
  /-- The keys of a mapping have no order. -/
  | unorderedKeys
  /-- An integer has more digits than are written. -/
  | digits
  deriving DecidableEq

namespace Json

/-- Numbers in JSON are plain, with names for those that are not finite. -/
def numberLayout : FloatLayout := ⟨"NaN", "Infinity", "-Infinity", ""⟩

/-! ## Trees of values -/

/-- An integer that is short enough to be written. -/
def short (n : Int) : Except Unwritable Int :=
  if digitLimit < digitCount n then .error .digits else .ok n

/-- The member name of a key. -/
def memberName : Value → Except Unwritable String
  | .text s => .ok s
  | .null => .ok "null"
  | .bool true => .ok "true"
  | .bool false => .ok "false"
  | .int n => (short n).map toString
  | .float x => .ok (x.write numberLayout)
  | v => .error (.key v.kind)

/-- The text of a key, if it is one. -/
def textKey? : Value → Option String
  | .text s => some s
  | _ => none

/-- The number of a key is at most that of another. -/
def numberLE (a b : Value) : Bool :=
  match a.extent?, b.extent? with
  | some x, some y => !y.lt x
  | _, _ => true

/-- The entries of a mapping by increasing keys: texts by code points, or numbers. Keys of other
kinds are only in order when there is a single one. -/
def sortEntries {α : Type} (entries : List (Value × α)) : Except Unwritable (List (Value × α)) :=
  if entries.length ≤ 1 then .ok entries
  else if entries.all fun e => (textKey? e.1).isSome then
    .ok (entries.mergeSort fun a b => (textKey? a.1).getD "" ≤ (textKey? b.1).getD "")
  else if entries.all fun e => e.1.extent?.isSome || e.1.isNaN then
    .ok (entries.mergeSort fun a b => numberLE a.1 b.1)
  else .error .unorderedKeys

/-- The entries of a mapping as they are written: by increasing keys, or as they are given. -/
def inOrder {α : Type} (sorted : Bool) (entries : List (Value × α)) :
    Except Unwritable (List (Value × α)) :=
  if sorted then sortEntries entries else .ok entries

/-- The name and the tree of an entry, the name first. -/
def named (e : Value × Except Unwritable Json) : Except Unwritable (String × Json) := do
  .ok (← memberName e.1, ← e.2)

mutual

/-- The tree of a value. With `sorted`, the members of objects stand in the order of their keys,
else as they are given. -/
def ofValue (sorted : Bool) : Value → Except Unwritable Json
  | .null => .ok .null
  | .bool b => .ok (.bool b)
  | .int n => (short n).map .int
  | .float x => .ok (.float x)
  | .text s => .ok (.text s)
  | .list items => do .ok (.array (← ofItems sorted items))
  | .tuple items => do .ok (.array (← ofItems sorted items))
  | .map entries => do
    let members ← inOrder sorted (ofEntries sorted entries)
    .ok (.object (← members.mapM named))
  | v => .error (.kind v.kind)

/-- The trees of the members of a list. -/
def ofItems (sorted : Bool) : List Value → Except Unwritable (List Json)
  | [] => .ok []
  | v :: vs => do .ok ((← ofValue sorted v) :: (← ofItems sorted vs))

/-- The trees of the values of a mapping, by their keys. -/
def ofEntries (sorted : Bool) : List (Value × Value) → List (Value × Except Unwritable Json)
  | [] => []
  | (k, v) :: es => (k, ofValue sorted v) :: ofEntries sorted es

end

/-! ## Values of trees -/

mutual

/-- The value of a tree. -/
def toValue : Json → Value
  | null => .null
  | bool b => .bool b
  | int n => .int n
  | float x => .float x
  | text s => .text s
  | array items => .list (toValues items)
  | object members => .map (Value.collect (toEntries members))

/-- The values of the members of an array. -/
def toValues : List Json → List Value
  | [] => []
  | j :: js => toValue j :: toValues js

/-- The entries of the members of an object. -/
def toEntries : List (String × Json) → List (Value × Value)
  | [] => []
  | (k, j) :: ms => (.text k, toValue j) :: toEntries ms

end

end Json

end LiveForm
