import LiveForm.Files.Tree
import LiveForm.Yaml.Library
import LiveForm.Json.Writer
import LiveForm.Json.Reader

/-!
# Documents

A document is a file in YAML or JSON. The suffix of its path says which. YAML is left to a library.

* `Format`: the formats, `Format.ofSuffix?` that of a suffix.
* `Format.parse`: the value of a text; `Format.render`: the text of a mapping.
-/

namespace LiveForm

/-- The formats of documents. -/
inductive Format where
  | yaml | json
  deriving DecidableEq

namespace Format

/-- The format of a suffix in lower case. -/
def ofSuffix? (suffix : String) : Option Format :=
  if suffix = ".yaml" ∨ suffix = ".yml" then some .yaml
  else if suffix = ".json" then some .json
  else none

/-- Why a text is no document. -/
inductive Unreadable where
  | yaml (cause : Yaml.Unreadable)
  | json (cause : Json.Unreadable)

/-- The value of a text. -/
def parse (yaml : Yaml.Library) : Format → String → Except Unreadable Value
  | .yaml, s => (yaml.parse s).mapError .yaml
  | .json, s => (Value.ofJsonText s).mapError .json

/-- The text of a mapping, its entries in order. -/
def render (yaml : Yaml.Library) (entries : Entries) : Format → Except Unwritable String
  | .yaml => yaml.render entries
  | .json => (Json.ofValue false (.map entries)).map Json.indented

end Format

end LiveForm
