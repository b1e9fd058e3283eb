import LiveForm.Schema.FreeValue

/-!
# Schemas as documents

The document of a schema: nested mappings with text keys in a fixed order, free values encoded.

* `Schema.toValue`: the document of a schema.
-/

namespace LiveForm

open Value

def Constraints.toValue (c : Constraints) : Value := record [
  ("required", .bool c.required),
  ("min", optNumber c.min),
  ("max", optNumber c.max),
  ("min_length", optInt c.minLength),
  ("max_length", optInt c.maxLength),
  ("pattern", optText c.pattern),
  ("message", optText c.message)]

def Choice.toValue (c : Choice) : Value :=
  record [("value", c.value.encode), ("label", text c.label)]

def Formula.toValue (f : Formula) : Value := record [
  ("function", text f.function.name),
  ("source_fields", texts f.sources),
  ("separator", optText f.separator),
  ("precision", optInt f.precision)]

def Field.toValue (f : Field) : Value := record [
  ("key", text f.key),
  ("type", text f.type.name),
  ("label", text f.label),
  ("default_value", f.default.encode),
  ("constraints", f.constraints.toValue),
  ("options", list (f.choices.map Choice.toValue)),
  ("visible", .bool f.visible),
  ("computation", (f.formula.map Formula.toValue).getD null)]

def Rule.toValue (r : Rule) : Value := record [
  ("id", text r.id),
  ("name", text r.name),
  ("trigger_field", text r.trigger),
  ("operator", text r.operator.name),
  ("compare_value", r.compare.encode),
  ("target_field", text r.target),
  ("effect", text r.effect.name),
  ("effect_value", r.effectValue.encode)]

def Column.toValue (c : Column) : Value :=
  record [("span", int c.span), ("fields", texts c.fields)]

def Row.toValue (r : Row) : Value := record [("columns", list (r.columns.map Column.toValue))]

/-- The document of a schema. -/
def Schema.toValue (s : Schema) : Value := record [
  ("id", text s.id),
  ("version", int s.version),
  ("title", text s.title),
  ("description", text s.description),
  ("fields", list (s.fields.map Field.toValue)),
  ("rules", list (s.rules.map Rule.toValue)),
  ("layout", list (s.layout.map Row.toValue))]

end LiveForm
