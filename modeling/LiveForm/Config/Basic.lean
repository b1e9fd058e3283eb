import LiveForm.Config.Merge
import LiveForm.Value.Integer
import LiveForm.Json.Writer
import LiveForm.Digest

/-!
# Configuration

The configuration of sessions, formulas, activation, layout and versions.

* `Config.defaults`: the value of every option.
* `Config.resolve`: the defaults with overrides merged in.
* `Config.digest`: the identity of a configuration.
-/

namespace LiveForm.Config

open Value

/-- The value of every option when nothing overrides it. -/
def defaults : Value := record [
  ("runtime", record [("notify_on_validate", bool true), ("revalidate_on_change", bool true)]),
  ("compute", record [("concat_separator", text ""), ("precision", null)]),
  ("activation", record [("block_on_errors", bool true)]),
  ("layout", record [("grid_columns", int 12)]),
  ("versioning", record [("default_author", text "system")])]

/-- The complete configuration: the defaults with overrides, if there are any. -/
def resolve (overrides : Value) : Except MergeConflict Value :=
  if overrides.truthy then deepMerge defaults overrides else .ok defaults

/-- The option of a section. A section that was set to null has none. -/
def option? (config : Value) (part key : String) : Option Value :=
  (config.lookup part).lookup? key

/-- The number of columns of the layout grid. -/
def gridColumns (config : Value) : Except IntegerError Int :=
  match option? config "layout" "grid_columns" with
  | some v => v.toInteger
  | none => .error (.kind (config.lookup "layout").kind)

/-- Why a configuration has no digest. -/
inductive DigestError where
  | notMapping (kind : Value.Kind)
  | unwritable (cause : Unwritable)

/-- The text of the error, when it has one. -/
def DigestError.message? : DigestError → Option String
  | .notMapping k => some ("Config para hashing deve ser dict, recebido: " ++ k.name)
  | .unwritable _ => none

/-- The digest of the canonical text of a configuration. -/
def digest (config : Value) : Except DigestError String :=
  match config with
  | .map entries =>
    match canonicalJson (.map entries) with
    | .ok s => .ok (textDigest s)
    | .error cause => .error (.unwritable cause)
  | v => .error (.notMapping v.kind)

end LiveForm.Config
