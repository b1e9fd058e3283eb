import LiveForm.Session.Propagation
import LiveForm.Schema.Encode
import LiveForm.Config.Basic

/-!
# Sessions

A session is opened on a schema, and its user writes values, asks to settle, to reset and to
check. Each operation leaves a settled state and tells what it changed. One whose check of a field
is interrupted answers with that and tells nothing; what it had changed by then stays.

* `Session.start`: a new session, or why there is none.
* `Session.set`, `Session.settle`, `Session.reset`, `Session.check`: the operations.
-/

namespace LiveForm

/-- A session: its plan, its state, and what it noted. -/
structure Session where
  plan : Plan
  state : State
  journal : Journal
  /-- The errors of earlier checks when a later check or a reset replaced them, oldest first. -/
  replacedErrors : List (Table String (List Notice)) := []

/-- What an operation gives: the session after it, what it answers, and the changes to tell. -/
structure Outcome (α : Type) where
  session : Session
  answer : α
  told : Option ChangeSet := none

namespace Session

/-! ## Opening -/

/-- Why a session cannot be opened. -/
inductive StartError where
  | config (conflict : MergeConflict)
  | failure (f : Failure)
  | schemaDigest (cause : Unwritable)
  | configDigest (cause : Config.DigestError)

/-- The value that a field starts with. -/
def initialValue (f : Field) : Value :=
  match f.default, f.type with
  | .null, .checkbox => .list []
  | .null, _ => .null
  | v, _ => v

/-- Why something is refused: the failure, and the event that is noted of it. -/
abbrev Refusal := Event × Failure

/-- A key that no field has. -/
def unknownField (key : Value) (operation : String) : Refusal :=
  (.unknownField key operation, .unknownField key operation)

/-- The field with a key, which must be one that the user may write. -/
def writable (s : Schema) (key operation : String) : Except Refusal Field :=
  match s.field? key with
  | none => .error (unknownField (.text key) operation)
  | some f =>
    if f.isComputed then .error (.writeRejected key operation, .readOnlyField key) else .ok f

/-- The values of the fields with the given ones written over them, up to one that may not be
written. -/
def fill (s : Schema) (data : Table String Value) : (given : Entries) →
    Except Refusal (Table String Value)
  | [] => .ok data
  | (.text key, value) :: rest =>
    match writable s key "initial_data" with
    | .error e => .error e
    | .ok _ => fill s (data.set key value) rest
  | (key, _) :: _ => .error (unknownField key "initial_data")

/-- How formulas work under a configuration. An empty separator is the empty text. -/
def formulaSettings (config : Value) : Formula.Settings :=
  let separator := (Config.option? config "compute" "concat_separator").getD .null
  { separator := if separator.truthy then separator else .text ""
    precision := (Config.option? config "compute" "precision").getD .null }

/-- An option that is on unless it is set to nothing. -/
def switchedOn (config : Value) (key : String) : Bool :=
  ((Config.option? config "runtime" key).map Value.truthy).getD true

/-- The digest of the document of a schema. -/
def schemaDigest (s : Schema) : Except Unwritable String :=
  (canonicalJson s.toValue).map textDigest

/-- The state before the first pass. -/
def declaredState (s : Schema) (data : Table String Value) : State where
  data := data
  visibility := .ofKeys s.fieldKeys fun key => ((s.field? key).map Field.visible).getD false
  required := .ofKeys s.fieldKeys fun key =>
    ((s.field? key).map (·.constraints.required)).getD false

/-- The plan of a session on a graph with an order. -/
def planOf (search : Pattern.Search) (s : Schema) (config : Value) (graph : Graph)
    (order : List String) (data : Table String Value) : Plan where
  schema := s
  search := search
  graph := graph
  order := order
  config := config
  formulas := formulaSettings config
  notifyOnValidate := switchedOn config "notify_on_validate"
  revalidateOnChange := switchedOn config "revalidate_on_change"
  initial := data

/-- The settled session of a plan, with its digests noted. -/
def settled (plan : Plan) (journal : Journal) : Journal × Except StartError Session :=
  let pass := settleAll plan (declaredState plan.schema plan.initial)
  let journal := journal.append pass.lines
  match schemaDigest plan.schema with
  | .error cause => (journal, .error (.schemaDigest cause))
  | .ok schemaDigest =>
    match Config.digest plan.config with
    | .error cause => (journal, .error (.configDigest cause))
    | .ok configDigest =>
      let s := plan.schema
      let journal := journal.append
        [.event (.activated s.id s.version schemaDigest configDigest plan.order)]
      (journal, .ok { plan, journal, state := pass.state })

/-- A session on a schema. The journal is kept also when there is none. -/
def start (search : Pattern.Search) (journal : Journal) (s : Schema) (given : Entries)
    (overrides : Value) : Journal × Except StartError Session :=
  match Config.resolve overrides with
  | .error conflict => (journal, .error (.config conflict))
  | .ok config =>
    match Graph.strict s with
    | .error f => (journal, .error (.failure f))
    | .ok graph =>
      match graph.order with
      | .error f =>
        let cycle := (f.details.lookup "cycle")
        (journal.append [.event (.activationRejected cycle)], .error (.failure f))
      | .ok order =>
        let declared := .ofKeys s.fieldKeys fun key => ((s.field? key).map initialValue).getD .null
        match fill s declared given with
        | .error (e, f) => (journal.append [.event e], .error (.failure f))
        | .ok data => settled (planOf search s config graph order data) journal

/-! ## Reading -/

/-- The session with more lines in its journal. -/
def noting (s : Session) (lines : List JournalLine) : Session :=
  { s with journal := s.journal.append lines }

/-- Why an operation has no answer. -/
inductive OperationError where
  | refused (f : Failure)
  /-- The check of a field was broken off. -/
  | interrupted (cause : Pattern.Interruption)

/-- Refuses something, and notes it. -/
def refuse {α : Type} (s : Session) (r : Refusal) : Outcome (Except OperationError α) :=
  { session := s.noting [.event r.1], answer := .error (.refused r.2) }

/-- Reads something about a field, which must exist. -/
def read {α : Type} (s : Session) (key operation : String) (look : State → α) :
    Outcome (Except OperationError α) :=
  match s.plan.schema.field? key with
  | some _ => { session := s, answer := .ok (look s.state) }
  | none => s.refuse (unknownField (.text key) operation)

/-- The errors of a field. -/
def errorsOf (s : Session) (key : String) : List Notice :=
  s.state.errors s.plan key

/-! ## Writing -/

/-- Another look at the fields that have errors of the last check. -/
structure Recheck where
  state : State
  /-- What broke it off. -/
  interruption : Option Pattern.Interruption := none

/-- Checks the field of a key, and keeps what it finds in place of the errors of the last check. -/
def refresh (p : Plan) (s : State) (key : String) : Except Pattern.Interruption State := do
  let found ← s.checkKey p key
  .ok { s with checkErrors :=
    if found.isEmpty then s.checkErrors.erase key else s.checkErrors.set key found }

/-- Looks again at those of some fields that are stirred since a state, until it is broken off. -/
def recheckAll (p : Plan) (before : State) : (keys : List String) → State → Recheck
  | [], s => { state := s }
  | key :: keys, s =>
    if before.stirred s key then
      match refresh p s key with
      | .ok s => recheckAll p before keys s
      | .error cause => { state := s, interruption := some cause }
    else recheckAll p before keys s

/-- Looks again at the fields with errors of the last check that are stirred since a state. -/
def recheck (p : Plan) (before after : State) : Recheck :=
  if p.revalidateOnChange then recheckAll p before after.checkErrors.keys after
  else { state := after }

/-- Changes are told only when there are any. -/
def tell (c : ChangeSet) : Option ChangeSet := if c.changed then some c else none

/-- Ends an operation whose look at the fields was broken off. -/
def interrupt {α : Type} (s : Session) (lines : List JournalLine) (after : State)
    (cause : Pattern.Interruption) : Outcome (Except OperationError α) :=
  { session := { s.noting lines with state := after }, answer := .error (.interrupted cause) }

/-- Writes the value of a field and what follows from it. -/
def set (s : Session) (key : String) (value : Value) :
    Outcome (Except OperationError ChangeSet) :=
  match writable s.plan.schema key "set_value" with
  | .error r => s.refuse r
  | .ok _ =>
    if (s.state.value key).same value then
      { session := s.noting [.event (.writeUnchanged key)]
        answer := .ok { trigger := some key, origin := .user } }
    else
      let before := s.state
      let pass := propagate s.plan { before with data := before.data.set key value } key
      let again := recheck s.plan before pass.state
      match again.interruption with
      | some cause => s.interrupt pass.lines again.state cause
      | none =>
        let changes :=
          ChangeSet.between s.plan before again.state (some key) .user [key] pass.setters
        { session := { s.noting (pass.lines ++ [.event (.write key changes.keys)]) with
            state := again.state }
          answer := .ok changes
          told := tell changes }

/-- Brings all fields up to date. -/
def settle (s : Session) : Outcome (Except OperationError ChangeSet) :=
  let pass := settleAll s.plan s.state
  let again := recheck s.plan s.state pass.state
  match again.interruption with
  | some cause => s.interrupt pass.lines again.state cause
  | none =>
    let changes := ChangeSet.between s.plan s.state again.state none .engine [] .empty
    { session := { s.noting (pass.lines ++ [.event (.settle changes.keys)]) with
        state := again.state }
      answer := .ok changes
      told := tell changes }

/-- Goes back to the values at the start, without errors of checks. -/
def reset (s : Session) : Outcome ChangeSet :=
  let restored := { s.state with
    data := s.plan.initial, ruleErrors := .empty, checkErrors := .empty }
  let pass := settleAll s.plan restored
  let written := (s.plan.schema.fields.filter fun f => !f.isComputed).map Field.key
  let changes := ChangeSet.between s.plan s.state pass.state none .user written .empty
  { session := { s.noting (pass.lines ++ [.event (.reset changes.keys)]) with
      state := pass.state
      replacedErrors := s.replacedErrors ++ [s.state.checkErrors] }
    answer := changes
    told := tell changes }

/-! ## Checking -/

/-- The errors of all fields, unless a check is broken off. -/
def found (s : Session) : Except Pattern.Interruption (Table String (List Notice)) :=
  s.plan.schema.fields.foldlM (fun t f => do
    let notices ← s.state.checkField s.plan f
    .ok (if notices.isEmpty then t else t.set f.key notices)) .empty

/-- Checks all fields. The answer is the number of the check, by which its errors are found. -/
def check (s : Session) : Outcome (Except OperationError Nat) :=
  match s.found with
  | .error cause => s.interrupt [] s.state cause
  | .ok found =>
    let after := { s.state with checkErrors := found }
    let changes := ChangeSet.between s.plan s.state after none .engine [] .empty
    let replaced := s.replacedErrors ++ [s.state.checkErrors]
    { session := { s.noting [.event (.validate found.keys)] with
        state := after, replacedErrors := replaced }
      answer := .ok replaced.length
      told := if s.plan.notifyOnValidate then tell changes else none }

/-- The errors of a check: as they are now, or as they were when something replaced them. -/
def errorsOfCheck (s : Session) (number : Nat) : Table String (List Notice) :=
  (s.replacedErrors[number]?).getD s.state.checkErrors

end Session

end LiveForm
