import LiveForm.Session.Event
import LiveForm.Graph.Order
import LiveForm.Formula
import LiveForm.Rule
import LiveForm.FieldCheck

/-!
# The state of a session

A session holds the values of a form and what follows from them: visibility, obligation, and the
errors of formulas, rules and checks, each in a channel of its own.

* `Plan`: what does not change during a session.
* `State`: what does.
* `State.errors`: the errors of a field, from all channels.
* `ChangeSet.between`: what differs between two states.
-/

namespace LiveForm

/-- What a session is about, and how it works. -/
structure Plan where
  schema : Schema
  /-- The search for the patterns of fields. -/
  search : Pattern.Search
  graph : Graph
  /-- The keys in order of evaluation. -/
  order : List String
  config : Value
  formulas : Formula.Settings
  notifyOnValidate : Bool
  revalidateOnChange : Bool
  /-- The values that a reset restores. -/
  initial : Table String Value

namespace Plan

/-- The types of the fields. -/
def types (p : Plan) : FieldTypes := fun key => (p.schema.field? key).map Field.type

/-- The rules with an effect on a target, with their positions. -/
def rulesFor (p : Plan) (target : String) (effect : Effect) : List (Nat × Rule) :=
  (p.schema.rules.mapIdx fun i r => (i, r)).filter fun (_, r) =>
    r.target == target && r.effect == effect

end Plan

/-- The values of a form and what follows from them. -/
structure State where
  data : Table String Value
  visibility : Table String Bool
  required : Table String Bool
  /-- The errors of formulas by field. -/
  formulaErrors : Table String (List Notice) := .empty
  /-- The errors of rules by position. -/
  ruleErrors : Table Nat Notice := .empty
  /-- The errors that the last check left, by field. -/
  checkErrors : Table String (List Notice) := .empty

namespace State

/-- The value of a field; null when it has none. -/
def value (s : State) (key : String) : Value := (s.data.get? key).getD .null

/-- The field is shown. -/
def visible (s : State) (key : String) : Bool := (s.visibility.get? key).getD false

/-- The field has to have a value. -/
def requires (s : State) (key : String) : Bool := (s.required.get? key).getD false

/-- The errors of the rules that target a field, by position. -/
def errorsOfRules (p : Plan) (s : State) (key : String) : List Notice :=
  (p.schema.rules.mapIdx fun i r =>
    if r.target == key then (s.ruleErrors.get? i).toList else []).flatten

/-- The errors of a field: of its formula, of the rules that target it, of the last check. -/
def errors (p : Plan) (s : State) (key : String) : List Notice :=
  (s.formulaErrors.get? key).getD [] ++ s.errorsOfRules p key ++ (s.checkErrors.get? key).getD []

/-- The fields that have errors, in order of evaluation, with their errors. -/
def allErrors (p : Plan) (s : State) : List (String × List Notice) :=
  (p.order.map fun key => (key, s.errors p key)).filter fun e => !e.2.isEmpty

/-- The notices that a check of a field gives now. Computed and hidden fields are not checked. -/
def checkField (p : Plan) (s : State) (f : Field) : Except Pattern.Interruption (List Notice) :=
  if f.isComputed || !s.visible f.key then .ok []
  else f.check p.search (s.value f.key) (s.requires f.key)

/-- Those of the field with a key. -/
def checkKey (p : Plan) (s : State) (key : String) : Except Pattern.Interruption (List Notice) :=
  match p.schema.field? key with
  | some f => s.checkField p f
  | none => .ok []

/-- The value, the visibility or the obligation of a field differs between two states. -/
def stirred (before after : State) (key : String) : Bool :=
  !((before.value key).same (after.value key) && before.visible key = after.visible key
    && before.requires key = after.requires key)

end State

/-! ## Changes -/

/-- Who caused a change. -/
inductive Origin where
  | user | engine
  deriving DecidableEq

def Origin.name : Origin → String
  | .user => "user"
  | .engine => "engine"

/-- What can change about a field. -/
inductive Aspect where
  | value | visibility | required | errors
  deriving DecidableEq

def Aspect.name : Aspect → String
  | .value => "value"
  | .visibility => "visibility"
  | .required => "required"
  | .errors => "errors"

/-- What changed about a field. -/
structure FieldChange where
  key : String
  aspects : List Aspect
  origin : Origin
  /-- The rule that wrote the value. -/
  ruleId : Option String
  deriving DecidableEq

/-- What one operation changed. -/
structure ChangeSet where
  /-- The field that the user wrote. -/
  trigger : Option String
  origin : Origin
  changes : List FieldChange := []
  deriving DecidableEq

namespace ChangeSet

/-- The changed fields in order of declaration. -/
def keys (c : ChangeSet) : List String := c.changes.map FieldChange.key

/-- Something changed. -/
def changed (c : ChangeSet) : Bool := !c.changes.isEmpty

/-- The document of a change. -/
def changeValue (c : FieldChange) : Value := .record [
  ("key", .text c.key),
  ("aspects", .texts (c.aspects.map Aspect.name)),
  ("origin", .text c.origin.name),
  ("rule_id", .optText c.ruleId)]

/-- The document of a set of changes. -/
def toValue (c : ChangeSet) : Value := .record [
  ("trigger", .optText c.trigger),
  ("origin", .text c.origin.name),
  ("changes", .record (c.changes.map fun f => (f.key, changeValue f)))]

/-- The aspects of a field that differ between two states. -/
def aspectsOf (p : Plan) (before after : State) (key : String) : List Aspect :=
  (if (before.value key).same (after.value key) then [] else [.value])
    ++ (if before.visible key = after.visible key then [] else [.visibility])
    ++ (if before.requires key = after.requires key then [] else [.required])
    ++ if listEquiv Notice.equiv (before.errors p key) (after.errors p key) then [] else [.errors]

/-- The change of a field between two states. A value counts as the user's when the user wrote
the field and no rule did. -/
def changeOf? (p : Plan) (before after : State) (written : List String)
    (setters : Table String String) (key : String) : Option FieldChange :=
  let aspects := aspectsOf p before after key
  if aspects.isEmpty then none
  else
    let setter := setters.get? key
    let byUser := written.contains key && aspects.contains .value && setter.isNone
    some ⟨key, aspects, if byUser then .user else .engine, setter⟩

/-- The changes between two states, given the fields that the user wrote and those that rules
wrote. -/
def between (p : Plan) (before after : State) (trigger : Option String) (origin : Origin)
    (written : List String) (setters : Table String String) : ChangeSet :=
  { trigger, origin,
    changes := p.schema.fieldKeys.filterMap (changeOf? p before after written setters) }

end ChangeSet

end LiveForm
