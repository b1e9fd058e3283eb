import LiveForm.Number.Basic
import LiveForm.Number.Decimal
import LiveForm.Calendar.Reading

/-!
# Values

The values that a form holds, that schemas and configurations carry, and that files decode to.

* `Value`: scalars, dates, and nested containers. A mapping keeps its entries in order.
* `Value.equiv`: equality that compares numbers and booleans by magnitude and ignores the order
  of mapping entries.
* `Value.same`: equality that also asks for one kind.
* `Value.lookup?`, `Value.put`: reading and writing an entry of a mapping.
-/

namespace LiveForm

/-- A value of any kind. -/
inductive Value where
  | null
  | bool (b : Bool)
  | int (n : Int)
  | float (x : Binary64)
  | text (s : String)
  | bytes (bs : List UInt8)
  | date (d : Date)
  | moment (m : Moment)
  | list (items : List Value)
  | tuple (items : List Value)
  | set (items : List Value)
  | map (entries : List (Value × Value))
  deriving Inhabited

/-- The entries of a mapping, in order. -/
abbrev Entries := List (Value × Value)

namespace Value

/-! ## Kinds -/

/-- The kind of a value. -/
inductive Kind where
  | null | bool | int | float | text | bytes | date | moment | list | tuple | set | map
  deriving DecidableEq

def kind : Value → Kind
  | null => .null
  | bool _ => .bool
  | int _ => .int
  | float _ => .float
  | text _ => .text
  | bytes _ => .bytes
  | date _ => .date
  | moment _ => .moment
  | list _ => .list
  | tuple _ => .tuple
  | set _ => .set
  | map _ => .map

/-- The name of a kind in messages. -/
def Kind.name : Kind → String
  | .null => "NoneType"
  | .bool => "bool"
  | .int => "int"
  | .float => "float"
  | .text => "str"
  | .bytes => "bytes"
  | .date => "date"
  | .moment => "datetime"
  | .list => "list"
  | .tuple => "tuple"
  | .set => "set"
  | .map => "dict"

/-- The name of the kind of a value in messages. -/
def kindName (v : Value) : String := v.kind.name

/-- The number that a value is; a boolean is no number. -/
def number? : Value → Option Number
  | int n => some (.int n)
  | float x => some (.float x)
  | _ => none

/-- The value is a number. -/
def isNumber (v : Value) : Bool := v.number?.isSome

/-- A number as a value. -/
def ofNumber : Number → Value
  | .int n => int n
  | .float x => float x

def isNaN : Value → Bool
  | float x => x.isNaN
  | _ => false

/-- The value is something: not null, false, a zero, or empty. -/
def truthy : Value → Bool
  | null => false
  | bool b => b
  | int n => n ≠ 0
  | float x => x.extent ≠ some (.at 0)
  | text s => s ≠ ""
  | bytes bs => bs ≠ []
  | date _ | moment _ => true
  | list items | tuple items | set items => !items.isEmpty
  | map entries => !entries.isEmpty

/-! ## Equality -/

/-- The place on the number line of a number or a boolean, which counts as zero or one. -/
def extent? : Value → Option Binary64.Extent
  | bool b => some (Binary64.extentOfInt (if b then 1 else 0))
  | v => v.number?.bind Number.extent?

/-- Two copies of one NaN. -/
def sharedNaN : Value → Value → Bool
  | float (.nan l), float (.nan l') => l = l'
  | _, _ => false

/-- Equality of values without parts. Numbers and booleans compare by magnitude, and a NaN equals
nothing. -/
def scalarEquiv : Value → Value → Bool
  | null, null => true
  | text s, text t => s = t
  | bytes a, bytes b => a = b
  | date d, date e => d = e
  | moment m, moment n => m.sameInstant n
  | a, b =>
    match a.extent?, b.extent? with
    | some x, some y => x = y
    | _, _ => false

mutual

/-- Equality of values: numbers and booleans compare by magnitude, the members of containers as
`member` says, and mappings without regard to order. -/
def equiv : Value → Value → Bool
  | list xs, b =>
    match b with
    | list ys => equivAll xs ys
    | _ => false
  | tuple xs, b =>
    match b with
    | tuple ys => equivAll xs ys
    | _ => false
  | set xs, b =>
    match b with
    | set ys => xs.length = ys.length && equivWithin xs ys
    | _ => false
  | map es, b =>
    match b with
    | map fs => es.length = fs.length && equivEntries es fs
    | _ => false
  | a, b => scalarEquiv a b

/-- Two lists have equal members at equal places. -/
def equivAll : List Value → List Value → Bool
  | [], ys => ys.isEmpty
  | x :: xs, ys =>
    match ys with
    | [] => false
    | y :: ys => (sharedNaN x y || equiv x y) && equivAll xs ys

/-- Every member of the first list is a member of the second. -/
def equivWithin : List Value → List Value → Bool
  | [], _ => true
  | x :: xs, ys => ys.any (fun y => sharedNaN x y || equiv x y) && equivWithin xs ys

/-- Every entry of the first list has an equal one in the second. -/
def equivEntries : List (Value × Value) → List (Value × Value) → Bool
  | [], _ => true
  | (k, v) :: es, fs =>
    fs.any (fun f => (sharedNaN k f.1 || equiv k f.1) && (sharedNaN v f.2 || equiv v f.2))
      && equivEntries es fs

end

/-- Equality as members of a container: a NaN equals its own copies. -/
def alike (a b : Value) : Bool := sharedNaN a b || equiv a b

/-- A value is among the members of a container. -/
def member (v : Value) (items : List Value) : Bool := items.any (alike · v)

/-- Equality with one kind: `1`, `1.0` and `true` all differ. -/
def same (a b : Value) : Bool := a.kind = b.kind && equiv a b

/-! ## Mappings -/

/-- The value at a key of a list of entries. -/
def find? (key : Value) (entries : Entries) : Option Value :=
  (entries.find? fun e => alike e.1 key).map Prod.snd

/-- The entries with the value at a key replaced where it stands, or added at the end. -/
def put (key value : Value) : Entries → Entries
  | [] => [(key, value)]
  | e :: es => if alike e.1 key then (e.1, value) :: es else e :: put key value es

/-- A list of entries in which a repeated key keeps its first place and its last value. -/
def collect (entries : Entries) : Entries := entries.foldl (fun acc e => put e.1 e.2 acc) []

/-- The value at a text key of a mapping. -/
def lookup? (key : String) : Value → Option Value
  | map entries => find? (text key) entries
  | _ => none

/-- The value at a text key of a mapping; absent, it is null. -/
def lookup (key : String) (v : Value) : Value := (v.lookup? key).getD null

/-- What a value lists: a container its members, a mapping its keys, a text its characters. -/
def listed? : Value → Option (List Value)
  | list items | tuple items | set items => some items
  | map entries => some (entries.map Prod.fst)
  | text s => some (s.toList.map fun c => text (String.singleton c))
  | _ => none

mutual

/-- The value can be a key of a mapping. -/
def isKey : Value → Bool
  | list _ | map _ | set _ => false
  | tuple items => allKeys items
  | _ => true

def allKeys : List Value → Bool
  | [] => true
  | v :: vs => isKey v && allKeys vs

end

/-- Entries with text keys. -/
def fields (members : List (String × Value)) : Entries := members.map fun (k, v) => (text k, v)

/-- A mapping with text keys. -/
def record (members : List (String × Value)) : Value := map (fields members)

/-- A list of texts. -/
def texts (items : List String) : Value := list (items.map text)

/-- A text, or null. -/
def optText (s : Option String) : Value := (s.map text).getD null

/-- An integer, or null. -/
def optInt (n : Option Int) : Value := (n.map int).getD null

/-- A number, or null. -/
def optNumber (n : Option Number) : Value := (n.map ofNumber).getD null

end Value

end LiveForm
