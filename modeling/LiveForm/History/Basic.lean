import LiveForm.History.Change
import LiveForm.Schema.Decode
import LiveForm.Config.Basic
import LiveForm.Json.Reader
import LiveForm.Notice

/-!
# The history of a schema

A history is a list of snapshots to which one can only add. A snapshot keeps the canonical text of
a schema and tells what has changed since the snapshot before it.

* `Snapshot`: a kept version of a schema.
* `History`: the snapshots, and the events of the history.
* `History.snapshot`, `History.get`, `History.diff`, `History.rollback`: its operations.
-/

namespace LiveForm

/-- A kept version of a schema. -/
structure Snapshot where
  id : String
  sequence : Int
  /-- The canonical JSON text of the schema. -/
  schemaJson : String
  timestamp : String
  author : String
  schemaHash : String
  note : String := ""
  changes : List Change := []

namespace Snapshot

/-- The document of the schema. -/
def schemaValue (s : Snapshot) : Value := ((Value.ofJsonText s.schemaJson).toOption).getD .null

/-- The schema. A snapshot that was read from a file may hold none. -/
def schema (s : Snapshot) : Except StructureError Schema := Schema.ofValue s.schemaValue

/-- The document of a snapshot. -/
def toValue (s : Snapshot) : Value := .record [
  ("id", .text s.id),
  ("sequence", .int s.sequence),
  ("schema", s.schemaValue),
  ("timestamp", .text s.timestamp),
  ("author", .text s.author),
  ("note", .text s.note),
  ("schema_hash", .text s.schemaHash),
  ("changes", .list (s.changes.map Change.toValue))]

/-- Equality of snapshots. -/
def equiv (a b : Snapshot) : Bool :=
  a.id = b.id && a.sequence = b.sequence && a.schemaJson = b.schemaJson
    && a.timestamp = b.timestamp && a.author = b.author && a.schemaHash = b.schemaHash
    && a.note = b.note && listEquiv Change.equiv a.changes b.changes

end Snapshot

/-- The history of a schema. -/
structure History where
  config : Value
  snapshots : List Snapshot := []
  /-- The events in order, each a mapping. -/
  events : List Entries := []

namespace History

/-- The empty history under a configuration. -/
def empty (overrides : Value) : Except MergeConflict History := do
  .ok { config := ← Config.resolve overrides }

/-- The newest snapshot. -/
def latest (h : History) : Option Snapshot := h.snapshots.getLast?

/-- The number of snapshots. -/
def length (h : History) : Nat := h.snapshots.length

/-! ## Events -/

/-- The event with a name, a time and perhaps a payload. -/
def event (name : String) (time : Moment) (payload : Value) : Entries :=
  Value.fields <| [("event_type", .text name), ("timestamp", .text time.isoText)]
    ++ match payload with
      | .null => []
      | v => [("payload", v)]

/-- The history with an event, whose time is written for UTC. Without a result when that time does
not exist. -/
def addEvent (h : History) (name : String) (time : Moment) (payload : Value) : Option History :=
  time.toUtc?.map fun t => { h with events := h.events ++ [event name t payload] }

/-- The history with an event at a time of UTC. -/
def noting (h : History) (name : String) (now : Moment) (payload : Value) : History :=
  { h with events := h.events ++ [event name now payload] }

/-! ## Snapshots -/

/-- Why no snapshot is taken. -/
inductive SnapshotError where
  /-- The newest snapshot holds no schema. -/
  | previous (cause : StructureError)
  | schema (cause : Unwritable)
  /-- The configuration has no default author. -/
  | noAuthor
  /-- The default author is too long to be written out. -/
  | digits

/-- The schema of the newest snapshot. -/
def previous (h : History) : Except StructureError (Option Schema) :=
  match h.latest with
  | none => .ok none
  | some s => s.schema.map some

/-- The given author, or the default one when it is empty. -/
def author (h : History) (given : String) : Except SnapshotError String :=
  if given ≠ "" then .ok given
  else
    match Config.option? h.config "versioning" "default_author" with
    | none => .error .noAuthor
    | some v =>
      match v.display? with
      | some s => .ok s
      | none => .error .digits

/-- Takes a snapshot of a schema under a fresh id. -/
def snapshot (h : History) (id : String) (now : Moment) (schema : Schema) (author note : String) :
    Except SnapshotError (History × Snapshot) := do
  let previous ← h.previous.mapError .previous
  let json ← (canonicalJson schema.toValue).mapError .schema
  let author ← h.author author
  let s : Snapshot := {
    id, schemaJson := json, author, note
    sequence := h.length + 1
    timestamp := now.isoText
    schemaHash := textDigest json
    changes := changesBetween previous schema }
  let payload := Value.record [("version_id", .text id), ("sequence", .int s.sequence),
    ("schema_hash", .text s.schemaHash), ("changes", .int s.changes.length)]
  .ok ({ h with snapshots := h.snapshots ++ [s] }.noting "snapshot_created" now payload, s)

/-- The snapshot with an id; of several the last. Only texts are ids. -/
def get (h : History) (id : Value) : Except Failure Snapshot :=
  match h.snapshots.reverse.find? fun s => id.equiv (.text s.id) with
  | some s => .ok s
  | none => .error (.versionNotFound id)

/-- Why two snapshots are not compared, or one is not restored. -/
inductive VersionError where
  | failure (f : Failure)
  | shape (cause : StructureError)

/-- What differs between two snapshots. -/
structure Comparison where
  source : String
  target : String
  changes : List Change

/-- The document of a comparison. -/
def Comparison.toValue (c : Comparison) : Value :=
  let count := fun (k : ChangeKind) => (c.changes.filter (·.kind = k)).length
  .record [
    ("from_id", .text c.source),
    ("to_id", .text c.target),
    ("changes", .list (c.changes.map Change.toValue)),
    ("summary", .record (ChangeKind.all.map fun k => (k.name, .int (count k))))]

/-- The changes from one snapshot to another. -/
def diff (h : History) (source target : Value) : Except VersionError Comparison := do
  let before ← (h.get source).mapError .failure
  let after ← (h.get target).mapError .failure
  let old ← before.schema.mapError .shape
  let new ← after.schema.mapError .shape
  .ok ⟨before.id, after.id, changesBetween (some old) new⟩

/-- The schema of a snapshot. The history notes that it was asked for, even if there is none. -/
def rollback (h : History) (id : Value) (now : Moment) : History × Except VersionError Schema :=
  match h.get id with
  | .error f => (h, .error (.failure f))
  | .ok s =>
    let payload := Value.record [("version_id", .text s.id), ("sequence", .int s.sequence)]
    (h.noting "rollback" now payload, s.schema.mapError .shape)

end History

end LiveForm
