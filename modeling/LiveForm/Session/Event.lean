import LiveForm.Notice
import LiveForm.Table

/-!
# The journal of a session

A session notes what happens in it, in order, and collects warnings by field.

* `Event`: one thing that happened.
* `Journal`: the events and the warnings so far.
-/

namespace LiveForm

/-- Something that happened in a session. -/
inductive Event where
  /-- A session was opened although its schema has errors. -/
  | activationErrors (errors : List Notice)
  /-- A session was refused because of a cycle. -/
  | activationRejected (cycle : Value)
  | activated (schemaId : String) (schemaVersion : Int) (schemaDigest configDigest : String)
      (order : List String)
  | write (field : String) (changed : List String)
  | writeUnchanged (field : String)
  | writeRejected (field operation : String)
  /-- A field was named that does not exist; the name may be any value. -/
  | unknownField (field : Value) (operation : String)
  | ruleWrite (field ruleId : String)
  | setValueSkipped (field ruleId : String)
  | computationFailed (field failure : String)
  | settle (changed : List String)
  | reset (changed : List String)
  | validate (invalidFields : List String)

namespace Event

/-- The name of an event. -/
def name : Event → String
  | activationErrors _ => "activation_errors"
  | activationRejected _ => "activation_rejected"
  | activated .. => "activated"
  | write .. => "write"
  | writeUnchanged _ => "write_unchanged"
  | writeRejected .. => "write_rejected"
  | unknownField .. => "unknown_field"
  | ruleWrite .. => "rule_write"
  | setValueSkipped .. => "set_value_skipped"
  | computationFailed .. => "computation_failed"
  | settle _ => "settle"
  | reset _ => "reset"
  | validate _ => "validate"

/-- How grave an event is. -/
def level : Event → String
  | activationErrors _ | writeRejected .. | unknownField .. | setValueSkipped .. => "warning"
  | activationRejected _ | computationFailed .. => "error"
  | activated .. | write .. | reset _ => "info"
  | writeUnchanged _ | ruleWrite .. | settle _ => "debug"
  | validate invalid => if invalid.isEmpty then "info" else "warning"

/-- The text of an event. -/
def message : Event → String
  | activationErrors _ => "activated with schema errors"
  | activationRejected _ => "activation rejected"
  | activated .. => "session activated"
  | write .. => "value written"
  | writeUnchanged _ => "value unchanged"
  | writeRejected .. => "computed field is read-only"
  | unknownField .. => "unknown field"
  | ruleWrite .. => "value set by rule"
  | setValueSkipped .. => "set_value skipped"
  | computationFailed .. => "computation failed"
  | settle _ => "settle completed"
  | reset _ => "session reset"
  | validate _ => "form validated"

/-- What an event tells besides. -/
def details : Event → List (String × Value)
  | activationErrors errors => [("errors", .list (errors.map Notice.toValue))]
  | activationRejected cycle => [("cycle", cycle)]
  | activated id version schemaDigest configDigest order =>
    [("schema_id", .text id), ("schema_version", .int version),
      ("schema_hash", .text schemaDigest), ("config_hash", .text configDigest),
      ("order", .texts order)]
  | write field changed => [("field", .text field), ("changed", .texts changed)]
  | writeUnchanged field => [("field", .text field)]
  | writeRejected field operation => [("field", .text field), ("operation", .text operation)]
  | unknownField field operation => [("field", field), ("operation", .text operation)]
  | ruleWrite field ruleId | setValueSkipped field ruleId =>
    [("field", .text field), ("rule_id", .text ruleId)]
  | computationFailed field failure => [("field", .text field), ("exc_type", .text failure)]
  | settle changed | reset changed => [("changed", .texts changed)]
  | validate invalid => [("valid", .bool invalid.isEmpty), ("invalid_fields", .texts invalid)]

/-- The document of an event. -/
def toValue (e : Event) : Value := .record <|
  [("level", .text e.level), ("message", .text e.message), ("event", .text e.name)] ++ e.details

end Event

/-- A line of a journal. -/
inductive JournalLine where
  | event (e : Event)
  /-- A warning about a field; one about no field is about the form. -/
  | warning (field message : String)

/-- What a session noted, in order. -/
structure Journal where
  lines : List JournalLine := []

namespace Journal

/-- The events in order. -/
def events (j : Journal) : List Event :=
  j.lines.filterMap fun
    | .event e => some e
    | .warning .. => none

/-- The warnings by field. -/
def warnings (j : Journal) : Table String (List String) :=
  j.lines.foldl (fun t line =>
    match line with
    | .event _ => t
    | .warning field message =>
      let owner := if field = "" then "form" else field
      t.set owner ((t.get? owner).getD [] ++ [message])) .empty

/-- The journal with more lines. -/
def append (j : Journal) (lines : List JournalLine) : Journal := ⟨j.lines ++ lines⟩

/-- The events with a name. -/
def eventsNamed (j : Journal) (name : String) : List Event := j.events.filter (·.name == name)

end Journal

end LiveForm
