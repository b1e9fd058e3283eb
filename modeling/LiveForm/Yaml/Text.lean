import LiveForm.Yaml.Node
import LiveForm.Yaml.Page

/-!
# A library for plain YAML

* `Yaml.plainLibrary`: reads and writes texts without directives, anchors and aliases, whose tags
  are those of the values that it writes.
-/

namespace LiveForm.Yaml

/-- The library for plain texts. No integer that is written may have too many digits. -/
def plainLibrary : Library where
  parse := Value.ofYamlText
  render entries :=
    if (Value.map entries).printable then .ok (yamlText entries) else .error .digits

end LiveForm.Yaml
