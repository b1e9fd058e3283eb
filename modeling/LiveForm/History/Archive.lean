import LiveForm.History.Basic
import LiveForm.Files.Document

/-!
# Files of histories

A history is kept as one JSON text with sorted keys. Reading takes numbers and texts for each
other where one is asked for, and mappings from lists of pairs.

* `History.toValue`: the document of a history.
* `History.save`, `History.load`: writing and reading a file.
-/

namespace LiveForm

namespace History

/-- The version of the format. -/
def formatVersion : String := "1"

/-- The document of a history. -/
def toValue (h : History) : Value := .record [
  ("format_version", .text formatVersion),
  ("snapshots", .list (h.snapshots.map Snapshot.toValue)),
  ("events", .list (h.events.map Value.map))]

/-! ## Writing -/

/-- Why a history is not written. -/
inductive SaveError where
  | value (cause : Unwritable)
  | file (cause : FileError)

/-- The text of a history. -/
def text (h : History) : Except Unwritable String := (Json.ofValue true h.toValue).map Json.indented

/-- Writes a history to the file at a path. The directories that lead to it are made, also when
the history cannot be written. -/
def save (fs : Files) (h : History) (p : Path) : Files × Except SaveError String :=
  match fs.makeDirectories p.parent with
  | .error e => (fs, .error (.file e))
  | .ok fs =>
    match h.text with
    | .error cause => (fs, .error (.value cause))
    | .ok text =>
      match fs.writeText p text with
      | .ok fs => (fs, .ok text)
      | .error e => (fs, .error (.file e))

/-! ## Reading -/

/-- Why a document is no history. -/
inductive ContentError where
  | missing (key : String)
  /-- A value has the wrong kind. -/
  | kind
  /-- A member of a list of pairs is no pair. -/
  | pair
  /-- A name is not among those there are. -/
  | unknownName
  | integer (cause : IntegerError)
  | schema (cause : Unwritable)
  /-- An integer in the place of a text has too many digits to be written out. -/
  | digits

/-- What a value lists. -/
def listed (v : Value) : Except ContentError (List Value) :=
  match v.listed? with
  | some items => .ok items
  | none => .error .kind

/-- What an optional value lists; one that is nothing lists nothing. -/
def listedOr (v : Value) : Except ContentError (List Value) :=
  if v.truthy then listed v else .ok []

/-- The pair that a value lists. -/
def pairOf (v : Value) : Except ContentError (Value × Value) := do
  match ← listed v with
  | [k, v] => if k.isKey then .ok (k, v) else .error .kind
  | _ => .error .pair

/-- The entries of a mapping, or of what lists pairs. -/
def entriesOf : Value → Except ContentError Entries
  | .map entries => .ok entries
  | v => do .ok (Value.collect (← (← listed v).mapM pairOf))

/-- A value that has to be in a mapping. -/
def required (v : Value) (key : String) : Except ContentError Value :=
  match v with
  | .map _ =>
    match v.lookup? key with
    | some x => .ok x
    | none => .error (.missing key)
  | _ => .error .kind

/-- The text of a value. -/
def textOf (v : Value) : Except ContentError String :=
  match v.display? with
  | some s => .ok s
  | none => .error .digits

/-- The text of a value that may be absent. -/
def textOr (v : Value) (key : String) : Except ContentError String :=
  match v.lookup? key with
  | some x => textOf x
  | none => .ok ""

/-- The thing of a name. -/
def named {α : Type} (all : List α) (name : α → String) (v : Value) : Except ContentError α :=
  match all.find? fun a => v.equiv (.text (name a)) with
  | some a => .ok a
  | none => .error .unknownName

end History

/-- Reads a change. -/
def Change.ofValue (v : Value) : Except History.ContentError Change := do
  let kind ← History.named ChangeKind.all ChangeKind.name (← History.required v "kind")
  let part ← History.named Part.all Part.name (← History.required v "target")
  let details := v.lookup "details"
  .ok {
    kind, part
    id := ← History.textOr v "target_id"
    details := ← if details.truthy then History.entriesOf details else .ok []
    before := v.lookup "before"
    after := v.lookup "after" }

/-- Reads a snapshot. -/
def Snapshot.ofValue (v : Value) : Except History.ContentError Snapshot := do
  let id ← History.textOf (← History.required v "id")
  let sequence ← ((← History.required v "sequence").toInteger).mapError .integer
  let schemaJson ← (canonicalJson (← History.required v "schema")).mapError .schema
  let timestamp ← History.textOf (← History.required v "timestamp")
  let author ← History.textOr v "author"
  let note := v.lookup "note"
  let note ← if note.truthy then History.textOf note else .ok ""
  let schemaHash ← History.textOf (← History.required v "schema_hash")
  let changes ← (← History.listedOr (v.lookup "changes")).mapM Change.ofValue
  .ok { id, sequence, schemaJson, timestamp, author, note, schemaHash, changes }

namespace History

/-- Why no history is loaded. -/
inductive LoadError where
  | file (cause : FileError)
  | text (cause : Json.Unreadable)
  | config (conflict : MergeConflict)
  /-- The file does not hold a mapping. -/
  | root
  | content (cause : ContentError)

/-- The history of a document, under a configuration. -/
def ofValue (h : History) (v : Value) : Except ContentError History := do
  let snapshots ← (← listedOr (v.lookup "snapshots")).mapM Snapshot.ofValue
  let events ← (← listedOr (v.lookup "events")).mapM entriesOf
  .ok { h with snapshots, events }

/-- The history in the file at a path, under a configuration. -/
def load (fs : Files) (p : Path) (overrides : Value) : Except LoadError History := do
  let s ← (fs.readText p).mapError .file
  let v ← (Value.ofJsonText s).mapError .text
  let h ← (History.empty overrides).mapError .config
  match v with
  | .map _ => (h.ofValue v).mapError .content
  | _ => throw .root

/-- The snapshots of two histories are equal. -/
def sameSnapshots (a b : History) : Bool := listEquiv Snapshot.equiv a.snapshots b.snapshots

/-- The events of two histories are equal. -/
def sameEvents (a b : History) : Bool :=
  (Value.list (a.events.map Value.map)).equiv (.list (b.events.map Value.map))

end History

end LiveForm
