import LiveForm.Value.Basic
import LiveForm.Json.Basic

/-!
# YAML libraries

Files in YAML are read and written by a library, of which nothing is assumed here.

* `Yaml.Library`: its two operations.
-/

namespace LiveForm.Yaml

/-- Why a text is not read. -/
inductive Unreadable where
  | malformed
  /-- A number or a date that is written well does not exist. -/
  | noValue
  deriving DecidableEq

/-- A library that reads and writes YAML. -/
structure Library where
  /-- The value of a text; null when the text holds none. -/
  parse : String → Except Unreadable Value
  /-- The text of a mapping, its entries in order. -/
  render : Entries → Except Unwritable String

end LiveForm.Yaml
