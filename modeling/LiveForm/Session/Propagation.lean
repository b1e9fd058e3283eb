import LiveForm.Session.State

/-!
# Propagation

A change goes through the fields once, in order of evaluation. Each field is brought up to date
from the fields before it: its formula, its visibility and obligation, and the values that rules
set.

* `Pass`: the state during a pass, with the fields whose values have changed.
* `Pass.visit`: brings one field up to date.
* `settleAll`: a pass over all fields; `propagate`: one over the descendants of a field.
-/

namespace LiveForm

/-- A pass under way. -/
structure Pass where
  state : State
  /-- The fields whose values have changed. -/
  dirty : List String
  /-- The rules that wrote values, by field. -/
  setters : Table String String := .empty
  /-- What was noted, in order. -/
  lines : List JournalLine := []

namespace Pass

/-- A line is noted. -/
def note (a : Pass) (line : JournalLine) : Pass := { a with lines := a.lines ++ [line] }

/-- Some of the fields have changed. -/
def anyDirty (a : Pass) (keys : List String) : Bool := keys.any a.dirty.contains

/-- A field has a new value. -/
def write (a : Pass) (key : String) (value : Value) : Pass :=
  { a with state := { a.state with data := a.state.data.set key value }, dirty := key :: a.dirty }

/-- A rule is judged: its error is kept or removed. -/
def judged (a : Pass) (index : Nat) (error : Option Notice) : Pass :=
  let errors := match error with
    | some n => a.state.ruleErrors.set index n
    | none => a.state.ruleErrors.erase index
  { a with state := { a.state with ruleErrors := errors } }

/-- The errors of a formula are replaced; without any the field has no entry. -/
def formulaJudged (a : Pass) (key : String) (errors : List Notice) : Pass :=
  let errors := if errors.isEmpty then a.state.formulaErrors.erase key
    else a.state.formulaErrors.set key errors
  { a with state := { a.state with formulaErrors := errors } }

/-! ## Formulas -/

/-- The notice of a formula that failed. -/
def faultNotice (key : String) (f : Formula) (fault : Formula.Fault) : Notice :=
  .computation key f.function.name fault.reason none (some fault.className)

/-- The notice of a source that a formula left out. -/
def issueNotice (key : String) (f : Formula) (i : Formula.Issue) : Notice :=
  .computation key f.function.name i.reason (some i.source) none

/-- Computes a field. A formula that fails leaves the value as it was. -/
def recompute (p : Plan) (key : String) (f : Formula) (a : Pass) : Pass :=
  match f.evaluate p.formulas a.state.value with
  | .error fault =>
    (a.formulaJudged key [faultNotice key f fault]).note
      (.event (.computationFailed key fault.className))
  | .ok result =>
    let a := a.formulaJudged key (result.issues.map (issueNotice key f))
    let a := if result.issues.isEmpty then a
      else a.note (.warning key (toString result.issues.length ++ " computation issue(s)"))
    if (a.state.value key).same result.value then a else a.write key result.value

/-- Computes a field if one of its sources has changed, or in any case. -/
def visitFormula (p : Plan) (full : Bool) (f : Field) (a : Pass) : Pass :=
  match f.formula with
  | some formula =>
    if full || a.anyDirty formula.sources then a.recompute p f.key formula else a
  | none => a

/-! ## Visibility and obligation -/

/-- Judges the rules of a group in order. The last satisfied one decides. -/
def judgeGroup (p : Plan) (group : List (Nat × Rule)) (declared : Bool) (a : Pass) :
    Pass × Bool :=
  group.foldl (fun (a, value) (i, r) =>
    let verdict := r.evaluate p.types a.state.value
    (a.judged i (verdict.misfit?.map (·.toNotice r)),
      if verdict.holds then r.effectValue.truthy else value)) (a, declared)

/-- The group has to be judged again. -/
def stale (full : Bool) (group : List (Nat × Rule)) (a : Pass) : Bool :=
  !group.isEmpty && (full || a.anyDirty (group.map fun (_, r) => r.trigger))

/-- Decides whether a field is shown, if a trigger has changed. -/
def visitVisibility (p : Plan) (full : Bool) (f : Field) (a : Pass) : Pass :=
  let group := p.rulesFor f.key .visibility
  if a.stale full group then
    let (a, shown) := a.judgeGroup p group f.visible
    { a with state := { a.state with visibility := a.state.visibility.set f.key shown } }
  else a

/-- Decides whether a field has to have a value, if a trigger has changed. -/
def visitRequired (p : Plan) (full : Bool) (f : Field) (a : Pass) : Pass :=
  let group := p.rulesFor f.key .required
  if a.stale full group then
    let (a, needed) := a.judgeGroup p group f.constraints.required
    { a with state := { a.state with required := a.state.required.set f.key needed } }
  else a

/-! ## Values set by rules -/

/-- Judges the rules that set a value and whose trigger has changed. The last satisfied one
wins. -/
def judgeSetters (p : Plan) (group : List (Nat × Rule)) (a : Pass) :
    Pass × Option (Nat × Rule) :=
  group.foldl (fun (a, winner) (i, r) =>
    if a.dirty.contains r.trigger then
      let verdict := r.evaluate p.types a.state.value
      (a.judged i (verdict.misfit?.map (·.toNotice r)),
        if verdict.holds then some (i, r) else winner)
    else (a, winner)) (a, none)

/-- The notice of a rule that would set the value of a computed field. -/
def skippedNotice (key : String) (r : Rule) : Notice :=
  .rule r.id key r.operator.name "set_value em campo calculado ignorado"

/-- Writes the value that a rule sets. A computed field keeps its own. -/
def applySetter (f : Field) (a : Pass) (index : Nat) (r : Rule) : Pass :=
  if f.isComputed then
    (a.judged index (some (skippedNotice f.key r))).note (.event (.setValueSkipped f.key r.id))
  else if (a.state.value f.key).same r.effectValue then a
  else
    let a := (a.write f.key r.effectValue).note (.event (.ruleWrite f.key r.id))
    { a with setters := a.setters.set f.key r.id }

/-- Sets the value of a field by the rules whose trigger has changed. -/
def visitSetters (p : Plan) (f : Field) (a : Pass) : Pass :=
  match a.judgeSetters p (p.rulesFor f.key .setValue) with
  | (a, some (i, r)) => applySetter f a i r
  | (a, none) => a

/-! ## Passes -/

/-- Brings a field up to date. A full pass does it whatever has changed, and sets no values. -/
def visitField (p : Plan) (full : Bool) (f : Field) (a : Pass) : Pass :=
  let a := ((a.visitFormula p full f).visitVisibility p full f).visitRequired p full f
  if full then a else a.visitSetters p f

/-- Brings the field of a key up to date. -/
def visit (p : Plan) (full : Bool) (a : Pass) (key : String) : Pass :=
  match p.schema.field? key with
  | some f => a.visitField p full f
  | none => a

/-- Brings fields up to date in order. -/
def run (p : Plan) (full : Bool) (a : Pass) (keys : List String) : Pass :=
  keys.foldl (visit p full) a

end Pass

/-- A pass over all fields. -/
def settleAll (p : Plan) (s : State) : Pass :=
  Pass.run p true { state := s, dirty := p.order } p.order

/-- A pass over what depends on a field that was written. -/
def propagate (p : Plan) (s : State) (key : String) : Pass :=
  let below := p.graph.descendantKeys key
  Pass.run p false { state := s, dirty := [key] } (p.order.filter below.contains)

end LiveForm
