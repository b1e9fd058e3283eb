import LiveForm.Typed
import LiveForm.Notice
import LiveForm.Table
import LiveForm.Text.Search

/-!
# Rules

A rule reads the value of its trigger by the type of that field and compares it. Values that do
not fit together make the rule unsatisfied, with a reason.

* `Rule.evaluate`: the verdict of one rule on the data of a form.
* `Rule.evaluateAll`: the effects of all satisfied rules, later ones over earlier ones.
-/

namespace LiveForm

/-! ## Verdicts -/

/-- Why the values of a rule do not fit together. -/
inductive Rule.Misfit where
  | undeclaredTrigger
  | triggerType (type : FieldType)
  | compareValue
  | kinds (trigger compare : Typed)
  | order (trigger compare : Typed)
  | textContains
  | contains (trigger : Typed)

/-- The text of the reason. -/
def Rule.Misfit.reason : Rule.Misfit → String
  | undeclaredTrigger => "campo gatilho inexistente"
  | triggerType type => "valor do gatilho incompatível com o tipo '" ++ type.name ++ "'"
  | compareValue => "valor de comparação inválido"
  | kinds t c => "comparação entre '" ++ t.kindName ++ "' e '" ++ c.kindName ++ "'"
  | order t c => "comparação de ordem entre '" ++ t.kindName ++ "' e '" ++ c.kindName ++ "'"
  | textContains => "contains em texto exige valor de comparação textual"
  | contains t => "contains não se aplica a '" ++ t.kindName ++ "'"

/-- The notice of a rule whose values do not fit together. -/
def Rule.Misfit.toNotice (m : Rule.Misfit) (r : Rule) : Notice :=
  .rule r.id r.target r.operator.name m.reason

/-- The rule is satisfied or not, or its values do not fit together. -/
abbrev Rule.Verdict := Except Rule.Misfit Bool

/-- The rule is satisfied. -/
def Rule.Verdict.holds : Rule.Verdict → Bool
  | .ok b => b
  | .error _ => false

/-- The reason why the rule could not be judged. -/
def Rule.Verdict.misfit? : Rule.Verdict → Option Rule.Misfit
  | .ok _ => none
  | .error m => some m

/-! ## Conditions -/

namespace Typed

/-- Two lists have the same members. -/
def sameMembers (xs ys : List Value) : Bool :=
  xs.all (·.member ys) && ys.all (·.member xs)

/-- Equality of a trigger and a compared value. A list equals a value that is among its
members. -/
def equals (trigger compare : Typed) : Rule.Verdict :=
  match trigger, compare with
  | empty, c => .ok c.isEmpty
  | _, empty => .ok false
  | list xs, list ys => .ok (sameMembers xs ys)
  | list xs, c => .ok (c.toValue.member xs)
  | number a, number b => .ok (a.eq b)
  | text a, text b => .ok (a = b)
  | boolean a, boolean b => .ok (a = b)
  | date a, date b => .ok (a = b)
  | t, c => .error (.kinds t c)

/-- The trigger comes before the compared value. Numbers and dates have an order. -/
def precedes (trigger compare : Typed) : Rule.Verdict :=
  match trigger, compare with
  | empty, _ => .ok false
  | _, empty => .ok false
  | number a, number b => .ok (a.lt b)
  | date a, date b => .ok (a.lt b)
  | t, c => .error (.order t c)

/-- The compared value comes before the trigger. -/
def follows (trigger compare : Typed) : Rule.Verdict :=
  match trigger, compare with
  | empty, _ => .ok false
  | _, empty => .ok false
  | number a, number b => .ok (b.lt a)
  | date a, date b => .ok (b.lt a)
  | t, c => .error (.order t c)

/-- A text holds another, and a list holds a value or every member of a list. -/
def contains (trigger compare : Typed) : Rule.Verdict :=
  match trigger, compare with
  | empty, _ => .ok false
  | _, empty => .ok false
  | text a, text b => .ok (textOccursIn b a)
  | text _, _ => .error .textContains
  | list xs, list ys => .ok (ys.all (·.member xs))
  | list xs, c => .ok (c.toValue.member xs)
  | t, _ => .error (.contains t)

end Typed

/-- The fields of a form by key: their types. -/
abbrev FieldTypes := String → Option FieldType

/-- The data of a form by key; what is absent is null. -/
abbrev FormData := String → Value

namespace Rule

/-- Compares a trigger with a value that was read next to it. -/
def compareBy (operator : Operator) (trigger compare : Typed) : Verdict :=
  match operator with
  | .equals => trigger.equals compare
  | .notEquals => (trigger.equals compare).map (!·)
  | .greaterThan => trigger.follows compare
  | .lessThan => trigger.precedes compare
  | .contains => trigger.contains compare
  | .isEmpty => .ok trigger.isEmpty
  | .isNotEmpty => .ok !trigger.isEmpty

/-- Judges a condition on the raw value of a trigger of a declared type. -/
def judge (operator : Operator) (type : FieldType) (trigger compare : Value) : Verdict :=
  let t := Typed.read (some type) trigger
  match operator with
  | .isEmpty => .ok t.isEmpty
  | .isNotEmpty => .ok !t.isEmpty
  | operator =>
    match t with
    | .invalid _ => .error (.triggerType type)
    | t =>
      match t.readLike compare with
      | .invalid _ => .error .compareValue
      | c => compareBy operator t c

/-- The verdict of a rule on the data of a form. -/
def evaluate (r : Rule) (types : FieldTypes) (data : FormData) : Verdict :=
  match types r.trigger with
  | none => .error .undeclaredTrigger
  | some type => judge r.operator type (data r.trigger) r.compare

/-! ## All rules -/

/-- What the rules of a form decide together. The tables hold only targets of satisfied rules. -/
structure Outcome where
  visibility : Table String Bool := .empty
  required : Table String Bool := .empty
  setValues : Table String Value := .empty
  /-- The rule that decided each set value. -/
  setters : Table String String := .empty
  /-- The satisfied rules in order. -/
  triggered : List String := []
  errors : Table String (List Notice) := .empty

/-- The outcome with the effect of a satisfied rule. -/
def Outcome.apply (o : Outcome) (r : Rule) : Outcome :=
  let o := { o with triggered := o.triggered ++ [r.id] }
  match r.effect with
  | .visibility => { o with visibility := o.visibility.set r.target r.effectValue.truthy }
  | .required => { o with required := o.required.set r.target r.effectValue.truthy }
  | .setValue => { o with
      setValues := o.setValues.set r.target r.effectValue
      setters := o.setters.set r.target r.id }

/-- The outcome with a notice for the target of a rule. -/
def Outcome.report (o : Outcome) (r : Rule) (m : Misfit) : Outcome :=
  { o with errors :=
      o.errors.set r.target ((o.errors.get? r.target).getD [] ++ [m.toNotice r]) }

/-- The outcome with one more rule. -/
def Outcome.add (types : FieldTypes) (data : FormData) (o : Outcome) (r : Rule) : Outcome :=
  match r.evaluate types data with
  | .ok true => o.apply r
  | .ok false => o
  | .error m => o.report r m

/-- The outcome of rules in order of declaration. -/
def evaluateAll (rules : List Rule) (types : FieldTypes) (data : FormData) : Outcome :=
  rules.foldl (Outcome.add types data) {}

end Rule

end LiveForm
