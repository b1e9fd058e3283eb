import LiveForm.Schema.Decode
import LiveForm.Schema.Encode
import LiveForm.Files.Document

/-!
# Schema files

* `Schema.load`: the schema in a file.
* `Schema.dump`: writes a schema to a file.
-/

namespace LiveForm.Schema

/-- Why no schema is loaded. -/
inductive LoadError where
  | noPath
  | missing (path : Path)
  | format (suffix : String)
  | file (cause : FileError)
  | text (cause : Format.Unreadable)
  | empty
  /-- The file does not hold a mapping. -/
  | root
  | shape (cause : StructureError)

/-- The text of the error, when it has one. -/
def LoadError.message? : LoadError → Option String
  | .noPath => some "schema path is required"
  | .missing p => some ("schema file not found: " ++ p.text)
  | .format suffix => some ("unsupported schema format: " ++ suffix)
  | .empty => some "schema file is empty"
  | .root => some "schema root must be a mapping/dict"
  | .shape e => e.message?
  | .file _ | .text _ => none

/-- The schema in the file at a path, which must not be blank. -/
def load (yaml : Yaml.Library) (fs : Files) (path : Option String) : Except LoadError Schema := do
  let some path := path.filter (!isBlankText ·) | throw .noPath
  let p := Path.ofText path
  if !fs.has p then throw (.missing p)
  let s ← (fs.readText p).mapError .file
  let some format := Format.ofSuffix? p.lowerSuffix | throw (.format p.lowerSuffix)
  match ← (format.parse yaml s).mapError .text with
  | .null => throw .empty
  | .map entries => (Schema.ofValue (.map entries)).mapError .shape
  | _ => throw .root

/-- Why a schema is not written. -/
inductive DumpError where
  | format (suffix : String)
  | value (cause : Unwritable)
  | file (cause : FileError)

/-- The text of the error, when it has one. -/
def DumpError.message? : DumpError → Option String
  | .format suffix => some ("unsupported schema format: " ++ suffix)
  | .value _ | .file _ => none

/-- The entries of the document of a schema. -/
def entries (s : Schema) : Entries :=
  match s.toValue with
  | .map entries => entries
  | _ => []

/-- Writes a schema to the file at a path and makes the directories that lead to it. -/
def dump (yaml : Yaml.Library) (fs : Files) (s : Schema) (p : Path) : Except DumpError Files := do
  let some format := Format.ofSuffix? p.lowerSuffix | throw (.format p.lowerSuffix)
  let text ← (format.render yaml s.entries).mapError .value
  (fs.saveText p text).mapError .file

end LiveForm.Schema
