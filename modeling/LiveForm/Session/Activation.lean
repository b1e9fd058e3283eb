import LiveForm.Session.Basic
import LiveForm.Schema.Report

/-!
# Activation

A schema is looked over before a session is opened on it. A cycle always refuses the session;
other errors do as long as the configuration says so; warnings never do.

* `activate`: a session on a schema that has passed, or why there is none.
-/

namespace LiveForm

/-- Why no session is opened on a schema. -/
inductive ActivationError where
  | report (cause : Schema.ReportError)
  /-- The section that says whether errors refuse a session is null. -/
  | noSetting
  | refused (f : Failure)
  | start (cause : Session.StartError)

namespace Report

/-- The failure of a schema with a cycle. -/
def cyclicFailure (cycle : List String) : Failure :=
  let n := Notice.cycle cycle
  .cyclic cycle (.map n.details) n.hint

/-- The failure of a schema with errors. -/
def invalidFailure (r : Report) : Failure :=
  .schemaInvalid ("Schema possui " ++ toString r.errors.length ++ " erro(s) de validação")
    [("errors", .list (r.errors.map Notice.toValue)),
      ("warnings", .list (r.warnings.map Notice.toValue))]
    (some "Corrija o schema ou desative activation.block_on_errors.")

/-- A warning, under the field that it is about. -/
def warningLine (n : Notice) : JournalLine :=
  match (Value.map n.details).lookup "field" with
  | .text field => .warning field n.message
  | _ => .warning "" n.message

/-- What a session notes of the report on its schema. -/
def journal (r : Report) : Journal where
  lines := r.warnings.map warningLine
    ++ if r.errors.isEmpty then [] else [.event (.activationErrors r.errors)]

/-- Why a report refuses a session, if it does. -/
def refusal? (r : Report) (config : Value) : Option ActivationError :=
  match r.cycle with
  | some cycle => some (.refused (cyclicFailure cycle))
  | none =>
    if r.valid then none
    else
      match Config.option? config "activation" "block_on_errors" with
      | none => some .noSetting
      | some blocks => if blocks.truthy then some (.refused r.invalidFailure) else none

end Report

/-- A session on a schema without a cycle, and without errors unless these are let pass. -/
def activate (search : Pattern.Search) (s : Schema) (given : Entries) (overrides : Value) :
    Except ActivationError Session :=
  match Config.resolve overrides with
  | .error conflict => .error (.report (.config conflict))
  | .ok config =>
    match s.reportFor config with
    | .error cause => .error (.report cause)
    | .ok report =>
      match report.refusal? config with
      | some e => .error e
      | none =>
        match (Session.start search report.journal s given config).2 with
        | .ok session => .ok session
        | .error cause => .error (.start cause)

end LiveForm
