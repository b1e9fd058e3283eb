import LiveForm.Value.Basic

/-!
# Schemas

A schema declares the fields of a form, the rules between them, and their layout.

* `Field`: one field, with its constraints, its choices and perhaps a formula.
* `Rule`: a condition on a trigger field with an effect on a target field.
* `Schema`: the whole form.
* `Schema.equiv`: equality of schemas, their free values compared as members.
-/

namespace LiveForm

/-! ## Names -/

/-- The type of a field. -/
inductive FieldType where
  | text | textarea | number | boolean | date | select | radio | checkbox
  deriving DecidableEq, Inhabited

/-- All types, in the order in which messages list them. -/
def FieldType.all : List FieldType :=
  [.text, .textarea, .number, .boolean, .date, .select, .radio, .checkbox]

def FieldType.name : FieldType → String
  | .text => "text"
  | .textarea => "textarea"
  | .number => "number"
  | .boolean => "boolean"
  | .date => "date"
  | .select => "select"
  | .radio => "radio"
  | .checkbox => "checkbox"

/-- The condition of a rule. -/
inductive Operator where
  | equals | notEquals | greaterThan | lessThan | contains | isEmpty | isNotEmpty
  deriving DecidableEq, Inhabited

/-- All conditions, in the order in which messages list them. -/
def Operator.all : List Operator :=
  [.equals, .notEquals, .greaterThan, .lessThan, .contains, .isEmpty, .isNotEmpty]

def Operator.name : Operator → String
  | .equals => "equals"
  | .notEquals => "not_equals"
  | .greaterThan => "greater_than"
  | .lessThan => "less_than"
  | .contains => "contains"
  | .isEmpty => "is_empty"
  | .isNotEmpty => "is_not_empty"

/-- What a satisfied rule decides about its target. -/
inductive Effect where
  | visibility | required | setValue
  deriving DecidableEq, Inhabited

/-- All effects, in the order in which messages list them. -/
def Effect.all : List Effect := [.visibility, .required, .setValue]

def Effect.name : Effect → String
  | .visibility => "visibility"
  | .required => "required"
  | .setValue => "set_value"

/-- The function of a formula. -/
inductive Function where
  | sum | count | avg | max | min | concat
  deriving DecidableEq, Inhabited

/-- All functions, in the order in which messages list them. -/
def Function.all : List Function := [.sum, .count, .avg, .max, .min, .concat]

def Function.name : Function → String
  | .sum => "SUM"
  | .count => "COUNT"
  | .avg => "AVG"
  | .max => "MAX"
  | .min => "MIN"
  | .concat => "CONCAT"

/-! ## Declarations -/

/-- The declared limits of a field's value. -/
structure Constraints where
  required : Bool := false
  min : Option Number := none
  max : Option Number := none
  minLength : Option Int := none
  maxLength : Option Int := none
  pattern : Option String := none
  message : Option String := none
  deriving DecidableEq, Inhabited

/-- One of the values that a field offers. -/
structure Choice where
  value : Value
  label : String
  deriving Inhabited

/-- The formula of a computed field: a function of the values of other fields. -/
structure Formula where
  function : Function
  sources : List String
  separator : Option String
  precision : Option Int
  deriving DecidableEq, Inhabited

/-- A field. -/
structure Field where
  key : String
  type : FieldType
  label : String
  default : Value
  constraints : Constraints
  choices : List Choice
  visible : Bool
  formula : Option Formula
  deriving Inhabited

namespace Field

/-- The value of the field is derived by a formula. -/
def isComputed (f : Field) : Bool := f.formula.isSome

/-- The values that the field offers. -/
def choiceValues (f : Field) : List Value := f.choices.map Choice.value

/-- The fields that the formula reads. -/
def sources (f : Field) : List String := (f.formula.map Formula.sources).getD []

end Field

/-- A rule: when the trigger field meets the condition, the effect applies to the target field. -/
structure Rule where
  id : String
  name : String
  trigger : String
  operator : Operator
  compare : Value
  target : String
  effect : Effect
  effectValue : Value
  deriving Inhabited

/-- A column of the layout grid. -/
structure Column where
  span : Int
  fields : List String
  deriving DecidableEq, Inhabited

/-- A row of the layout grid. -/
structure Row where
  columns : List Column
  deriving DecidableEq, Inhabited

/-- The fields placed in a row. -/
def Row.fieldKeys (r : Row) : List String := r.columns.flatMap Column.fields

/-- A form: its fields and rules in order of declaration, and its layout. -/
structure Schema where
  id : String
  version : Int
  title : String
  description : String
  fields : List Field
  rules : List Rule
  layout : List Row
  deriving Inhabited

namespace Schema

def fieldKeys (s : Schema) : List String := s.fields.map Field.key

/-- The first field with a key. -/
def field? (s : Schema) (key : String) : Option Field := s.fields.find? (·.key == key)

/-- The first rule with an id. -/
def rule? (s : Schema) (id : String) : Option Rule := s.rules.find? (·.id == id)

/-- The type of the last field with a key. -/
def fieldType? (s : Schema) (key : String) : Option FieldType :=
  (s.fields.reverse.find? (·.key == key)).map Field.type

end Schema

/-! ## Equality -/

/-- Two numbers are alike when they have one magnitude or are copies of one NaN. -/
def Number.alike (a b : Number) : Bool := a = b || a.eq b

/-- Two optional numbers are alike. -/
def Number.optAlike : Option Number → Option Number → Bool
  | none, none => true
  | some a, some b => a.alike b
  | _, _ => false

/-- Two lists agree member by member. -/
def listEquiv {α : Type} (r : α → α → Bool) : List α → List α → Bool
  | [], [] => true
  | a :: as, b :: bs => r a b && listEquiv r as bs
  | _, _ => false

def Constraints.equiv (a b : Constraints) : Bool :=
  Number.optAlike a.min b.min && Number.optAlike a.max b.max
    && { a with min := none, max := none } = { b with min := none, max := none }

def Choice.equiv (a b : Choice) : Bool := a.value.alike b.value && a.label = b.label

def Field.equiv (a b : Field) : Bool :=
  a.key = b.key && a.type = b.type && a.label = b.label && a.default.alike b.default
    && a.constraints.equiv b.constraints && listEquiv Choice.equiv a.choices b.choices
    && a.visible = b.visible && a.formula = b.formula

def Rule.equiv (a b : Rule) : Bool :=
  a.id = b.id && a.name = b.name && a.trigger = b.trigger && a.operator = b.operator
    && a.compare.alike b.compare && a.target = b.target && a.effect = b.effect
    && a.effectValue.alike b.effectValue

/-- Equality of schemas: free values and limits compare by magnitude, all else exactly. -/
def Schema.equiv (a b : Schema) : Bool :=
  a.id = b.id && a.version = b.version && a.title = b.title && a.description = b.description
    && listEquiv Field.equiv a.fields b.fields && listEquiv Rule.equiv a.rules b.rules
    && a.layout = b.layout

end LiveForm
