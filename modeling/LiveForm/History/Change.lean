import LiveForm.Schema.Encode
import LiveForm.Table

/-!
# Differences between schemas

Two schemas are compared through their documents: the form attribute by attribute, the fields by
key and the rules by id. First comes the change of the form, then those of fields and of rules; in
each group additions and alterations in the order of the new schema, then removals in the order of
the old one.

* `Change`: one difference.
* `changesBetween`: all differences.
-/

namespace LiveForm

/-- How a part of a schema differs. -/
inductive ChangeKind where
  | added | changed | removed
  deriving DecidableEq

def ChangeKind.name : ChangeKind → String
  | .added => "added"
  | .changed => "changed"
  | .removed => "removed"

def ChangeKind.all : List ChangeKind := [.added, .changed, .removed]

/-- A kind of part of a schema. -/
inductive Part where
  | form | field | rule
  deriving DecidableEq

def Part.name : Part → String
  | .form => "form"
  | .field => "field"
  | .rule => "rule"

def Part.all : List Part := [.form, .field, .rule]

/-- A difference in one part, whose documents before and after are null where the part does not
exist. -/
structure Change where
  kind : ChangeKind
  part : Part
  id : String
  details : Entries := []
  before : Value := .null
  after : Value := .null

namespace Change

/-- The document of a change. -/
def toValue (c : Change) : Value := .record [
  ("kind", .text c.kind.name),
  ("target", .text c.part.name),
  ("target_id", .text c.id),
  ("details", .map c.details),
  ("before", c.before),
  ("after", c.after)]

/-- Equality of changes: their documents compare as values. -/
def equiv (a b : Change) : Bool :=
  a.kind = b.kind && a.part = b.part && a.id = b.id && (Value.map a.details).equiv (.map b.details)
    && a.before.alike b.before && a.after.alike b.after

/-- A part with some attributes changed. -/
def altered (part : Part) (id : String) (attributes : List String) (before after : Value) :
    Change where
  kind := .changed
  part := part
  id := id
  details := [(.text "attributes", .texts attributes)]
  before := before
  after := after

end Change

/-! ## Attributes -/

namespace Value

/-- The text keys of a mapping. -/
def attributes : Value → List String
  | map entries => entries.filterMap fun
    | (text k, _) => some k
    | _ => none
  | _ => []

/-- The attributes of two mappings that differ. -/
def changedAttributes (before after : Value) : List String :=
  let names := before.attributes ++ after.attributes.filter (!before.attributes.contains ·)
  names.filter fun k => !(before.lookup k).equiv (after.lookup k)

/-- A mapping with some of its attributes. -/
def restrict (keys : List String) (v : Value) : Value := record (keys.map fun k => (k, v.lookup k))

end Value

/-! ## Schemas -/

/-- The attributes of a form as such. -/
def formAttributes : List String := ["id", "title", "description", "version", "layout"]

namespace Schema

/-- The document of a form as such. -/
def formValue (s : Schema) : Value := s.toValue.restrict formAttributes

/-- The documents of the fields by key. -/
def fieldValues (s : Schema) : Table String Value :=
  s.fields.foldl (fun t f => t.set f.key f.toValue) .empty

/-- The documents of the rules by id. -/
def ruleValues (s : Schema) : Table String Value :=
  s.rules.foldl (fun t r => t.set r.id r.toValue) .empty

end Schema

/-- The changes of one kind of part, given the documents by id. -/
def partChanges (part : Part) (old new : Table String Value) : List Change :=
  (new.entries.filterMap fun (id, after) =>
    match old.get? id with
    | none => some { kind := .added, part, id, after }
    | some before =>
      let attributes := before.changedAttributes after
      if attributes.isEmpty then none else some (.altered part id attributes before after))
  ++ (old.entries.filter fun (id, _) => (new.get? id).isNone).map fun (id, before) =>
    { kind := .removed, part, id, before }

/-- The change of a form as such. -/
def formChanges (old new : Schema) : List Change :=
  let attributes := old.formValue.changedAttributes new.formValue
  if attributes.isEmpty then []
  else
    [.altered .form new.id attributes (old.formValue.restrict attributes)
      (new.formValue.restrict attributes)]

/-- The changes from one schema to another; without an old one everything is added. -/
def changesBetween (old : Option Schema) (new : Schema) : List Change :=
  match old with
  | none =>
    { kind := .added, part := .form, id := new.id, after := new.formValue }
      :: (partChanges .field .empty new.fieldValues ++ partChanges .rule .empty new.ruleValues)
  | some old =>
    formChanges old new ++ partChanges .field old.fieldValues new.fieldValues
      ++ partChanges .rule old.ruleValues new.ruleValues

end LiveForm
