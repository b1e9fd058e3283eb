import LiveForm.Schema.FreeValue
import LiveForm.Value.Literal

/-!
# Reading schemas

A document is a schema when its containers and names have the right shape. References between
fields are not looked at.

* `StructureError`: the first thing that is wrong with a document, and its path.
* `Schema.ofValue`: the schema of a document.
-/

namespace LiveForm

/-! ## Errors -/

/-- The shape that a part of a document should have. -/
inductive Shape where
  | mapping | list | string | integer | number | boolean
  deriving DecidableEq

def Shape.phrase : Shape → String
  | .mapping => "a mapping"
  | .list => "a list"
  | .string => "a string"
  | .integer => "an integer"
  | .number => "a number"
  | .boolean => "boolean"

/-- Why a document is no schema. -/
inductive StructureError where
  | shape (path : String) (expected : Shape)
  | missing (path : String)
  | unknownName (path : String) (allowed : List String) (got : Value)

/-- The text of the error. There is none when what stands in the place of a name is too long to be
written out; the error is then that of writing it. -/
def StructureError.message? : StructureError → Option String
  | .shape path expected => some (path ++ " must be " ++ expected.phrase)
  | .missing path => some (path ++ " is required")
  | .unknownName path allowed got => got.literal?.map fun shown =>
    path ++ " must be one of " ++ (Value.texts allowed).literal ++ ", got " ++ shown

/-! ## Parts -/

/-- The path of a member of a list. -/
def indexPath (path : String) (i : Nat) : String := path ++ "[" ++ toString i ++ "]"

/-- The path of an entry of a mapping. -/
def entryPath (path key : String) : String := path ++ "." ++ key

namespace Value

/-- The value itself when it is a mapping. -/
def asMapping (path : String) : Value → Except StructureError Value
  | map entries => .ok (map entries)
  | _ => .error (.shape path .mapping)

/-- The members of a list; null has none. -/
def asItems (path : String) : Value → Except StructureError (List Value)
  | null => .ok []
  | list items => .ok items
  | _ => .error (.shape path .list)

/-- A text, or null. -/
def asText? (path : String) : Value → Except StructureError (Option String)
  | null => .ok none
  | text s => .ok (some s)
  | _ => .error (.shape path .string)

/-- A text; null is the empty one. -/
def asText (path : String) (v : Value) : Except StructureError String :=
  (v.asText? path).map (·.getD "")

/-- An integer, or null. -/
def asInt? (path : String) : Value → Except StructureError (Option Int)
  | null => .ok none
  | int n => .ok (some n)
  | _ => .error (.shape path .integer)

/-- A number, or null. -/
def asNumber? (path : String) : Value → Except StructureError (Option Number)
  | null => .ok none
  | v =>
    match v.number? with
    | some n => .ok (some n)
    | none => .error (.shape path .number)

/-- A boolean; null is the default. -/
def asBool (path : String) (default : Bool) : Value → Except StructureError Bool
  | null => .ok default
  | bool b => .ok b
  | _ => .error (.shape path .boolean)

/-- A name among those of a list of things. -/
def asName {α : Type} (path : String) (all : List α) (name : α → String) (v : Value) :
    Except StructureError α :=
  match all.find? (fun a => v.alike (text (name a))) with
  | some a => .ok a
  | none => .error (.unknownName path (all.map name) v)

/-- A text that stands for itself; null is no text here. -/
def asKey (path : String) : Value → Except StructureError String
  | text s => .ok s
  | _ => .error (.shape path .string)

end Value

/-- Reads the members of a list in order, each with its path. -/
def readItems {α : Type} (read : String → Value → Except StructureError α) (path : String) :
    (start : Nat) → List Value → Except StructureError (List α)
  | _, [] => .ok []
  | i, v :: vs => do .ok ((← read (indexPath path i) v) :: (← readItems read path (i + 1) vs))

/-! ## Declarations -/

/-- Reads constraints; null gives the defaults. -/
def Constraints.ofValue (path : String) (v : Value) : Except StructureError Constraints :=
  match v with
  | .null => .ok {}
  | v => do
    let v ← v.asMapping path
    let pattern ← (v.lookup "pattern").asText? (entryPath path "pattern")
    let message ← (v.lookup "message").asText? (entryPath path "message")
    let required ← (v.lookup "required").asBool (entryPath path "required") false
    let min ← (v.lookup "min").asNumber? (entryPath path "min")
    let max ← (v.lookup "max").asNumber? (entryPath path "max")
    let minLength ← (v.lookup "min_length").asInt? (entryPath path "min_length")
    let maxLength ← (v.lookup "max_length").asInt? (entryPath path "max_length")
    .ok { required, min, max, minLength, maxLength, pattern, message }

/-- Reads a choice. Its value may be null but must be given. -/
def Choice.ofValue (path : String) (v : Value) : Except StructureError Choice := do
  let v ← v.asMapping path
  match v.lookup? "value" with
  | none => .error (.missing (entryPath path "value"))
  | some value => do
    let label ← (v.lookup "label").asText (entryPath path "label")
    .ok { value, label }

/-- Reads a formula. -/
def Formula.ofValue (path : String) (v : Value) : Except StructureError Formula := do
  let v ← v.asMapping path
  let sourcesPath := entryPath path "source_fields"
  let sources ← (v.lookup "source_fields").asItems sourcesPath
  let sources ← readItems Value.asKey sourcesPath 0 sources
  let separator ← (v.lookup "separator").asText? (entryPath path "separator")
  let function ← (v.lookup "function").asName (entryPath path "function") Function.all Function.name
  let precision ← (v.lookup "precision").asInt? (entryPath path "precision")
  .ok { function, sources, separator, precision }

/-- Reads the formula of a field; null is none. -/
def Formula.ofValue? (path : String) (v : Value) : Except StructureError (Option Formula) :=
  match v with
  | .null => .ok none
  | v => (Formula.ofValue path v).map some

/-- Reads a field. -/
def Field.ofValue (path : String) (v : Value) : Except StructureError Field := do
  let v ← v.asMapping path
  let choices ← (v.lookup "options").asItems (entryPath path "options")
  let type ← (v.lookup "type").asName (entryPath path "type") FieldType.all FieldType.name
  let key ← (v.lookup "key").asText (entryPath path "key")
  let label ← (v.lookup "label").asText (entryPath path "label")
  let default := (v.lookup "default_value").decodeFor (some type)
  let constraints ← Constraints.ofValue (entryPath path "constraints") (v.lookup "constraints")
  let choices ← readItems Choice.ofValue (entryPath path "options") 0 choices
  let visible ← (v.lookup "visible").asBool (entryPath path "visible") true
  let formula ← Formula.ofValue? (entryPath path "computation") (v.lookup "computation")
  .ok { key, type, label, default, constraints, choices, visible, formula }

/-- Reads a rule. The types of its fields restore dates in its values. -/
def Rule.ofValue (types : String → Option FieldType) (path : String) (v : Value) :
    Except StructureError Rule := do
  let v ← v.asMapping path
  let trigger ← (v.lookup "trigger_field").asText (entryPath path "trigger_field")
  let target ← (v.lookup "target_field").asText (entryPath path "target_field")
  let effect ← (v.lookup "effect").asName (entryPath path "effect") Effect.all Effect.name
  let effectValue := v.lookup "effect_value"
  let effectValue := if effect = .setValue then effectValue.decodeFor (types target)
    else effectValue
  let id ← (v.lookup "id").asText (entryPath path "id")
  let name ← (v.lookup "name").asText (entryPath path "name")
  let operator ← (v.lookup "operator").asName (entryPath path "operator") Operator.all Operator.name
  let compare := (v.lookup "compare_value").decodeFor (types trigger)
  .ok { id, name, trigger, operator, compare, target, effect, effectValue }

/-- Reads a column. -/
def Column.ofValue (path : String) (v : Value) : Except StructureError Column := do
  let v ← v.asMapping path
  let spanPath := entryPath path "span"
  match ← (v.lookup "span").asInt? spanPath with
  | none => .error (.missing spanPath)
  | some span => do
    let keys ← (v.lookup "fields").asItems (entryPath path "fields")
    let fields ← readItems Value.asKey (entryPath path "fields") 0 keys
    .ok { span, fields }

/-- Reads a row. -/
def Row.ofValue (path : String) (v : Value) : Except StructureError Row := do
  let v ← v.asMapping path
  let columns ← (v.lookup "columns").asItems (entryPath path "columns")
  .ok { columns := ← readItems Column.ofValue (entryPath path "columns") 0 columns }

/-- Reads a schema. -/
def Schema.ofValue (v : Value) : Except StructureError Schema := do
  let v ← v.asMapping "schema"
  let version ← (v.lookup "version").asInt? "version"
  let fields ← (v.lookup "fields").asItems "fields"
  let rules ← (v.lookup "rules").asItems "rules"
  let layout ← (v.lookup "layout").asItems "layout"
  let fields ← readItems Field.ofValue "fields" 0 fields
  let types := fun key => (fields.reverse.find? (·.key == key)).map Field.type
  let id ← (v.lookup "id").asText "id"
  let title ← (v.lookup "title").asText "title"
  let description ← (v.lookup "description").asText "description"
  let rules ← readItems (Rule.ofValue types) "rules" 0 rules
  let layout ← readItems Row.ofValue "layout" 0 layout
  .ok { id, version := version.getD 1, title, description, fields, rules, layout }

end LiveForm
