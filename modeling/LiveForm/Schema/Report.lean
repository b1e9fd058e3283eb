import LiveForm.Graph.Cycle
import LiveForm.Config.Basic
import LiveForm.Text.Search

/-!
# Reports on schemas

A schema of the right shape may still refer to fields that do not exist, repeat keys, leave out
what its fields need, or depend on itself. The report lists what is wrong, part by part.

* `Report`: the errors, the warnings, and a cycle if there is one.
* `Schema.report`: the report on a schema for a grid of some width.
-/

namespace LiveForm

/-- What was found in a schema. -/
structure Report where
  errors : List Notice
  warnings : List Notice
  cycle : Option (List String)

namespace Report

/-- Nothing is wrong. -/
def valid (r : Report) : Bool := r.errors.isEmpty

/-- The document of a report. -/
def toValue (r : Report) : Value := .record [
  ("valid", .bool r.valid),
  ("errors", .list (r.errors.map Notice.toValue)),
  ("warnings", .list (r.warnings.map Notice.toValue)),
  ("cycle", (r.cycle.map Value.texts).getD .null)]

end Report

/-! ## Embedded scripts -/

/-- The marks of a script in a text. -/
def scriptMarks : List String := ["$\x7b", "function"]

/-- A text holds the mark of a script. -/
def holdsMark (s : String) : Bool := scriptMarks.any (textOccursIn · s)

namespace Value

mutual

/-- A text in the value, or in its lists, holds the mark of a script. -/
def holdsScript : Value → Bool
  | text s => holdsMark s
  | list items => anyScript items
  | tuple items => anyScript items
  | _ => false

def anyScript : List Value → Bool
  | [] => false
  | v :: vs => holdsScript v || anyScript vs

end

/-- A value for the details of a notice: encoded, or written out when it cannot be JSON. -/
def plain (v : Value) : Value := if v.serializable then v.encode else text v.literal

end Value

namespace Schema

/-- A text between single quotes. -/
def named (s : String) : String := "'" ++ s ++ "'"

/-! ## Fields -/

/-- Findings about the title and the id. -/
def formFindings (s : Schema) : List Notice :=
  (if isBlankText s.title then [.schemaError "Título do formulário é obrigatório" "title" []]
    else [])
  ++ if isBlankText s.id then [.schemaError "Identificador do formulário é obrigatório" "id" []]
    else []

/-- Findings about the key of a field, given the keys before it. -/
def keyFindings (path : String) (before : List String) (f : Field) : List Notice :=
  if isBlankText f.key then [.schemaError "Chave de campo vazia" (entryPath path "key") []]
  else if before.contains f.key then
    [.schemaError ("Chave de campo duplicada: " ++ named f.key) (entryPath path "key")
      [("field", .text f.key)]]
  else []

/-- Findings about the choices that a type needs. -/
def choiceFindings (path : String) (f : Field) : List Notice :=
  if !f.choices.isEmpty then []
  else
    match f.type with
    | .select | .radio =>
      [.schemaError
        ("Campo " ++ named f.key ++ " do tipo " ++ f.type.name ++ " exige ao menos uma opção")
        (entryPath path "options") [("field", .text f.key)]]
    | .checkbox =>
      [.schemaWarning ("Campo " ++ named f.key ++ " do tipo checkbox não declara opções")
        (entryPath path "options") [("field", .text f.key)]]
    | _ => []

/-- Findings about free values that cannot be written as JSON. -/
def freeValueFindings (path : String) (f : Field) : List Notice :=
  (if f.default.serializable then [] else
    [.schemaError ("Campo " ++ named f.key ++ " declara default_value não serializável")
      (entryPath path "default_value") [("field", .text f.key)]])
  ++ (f.choices.mapIdx fun j c =>
    if c.value.serializable then [] else
      [Notice.schemaError ("Campo " ++ named f.key ++ " declara opção não serializável")
        (entryPath (indexPath (entryPath path "options") j) "value")
        [("field", .text f.key)]]).flatten

/-- Findings about a formula without sources. -/
def formulaFindings (path : String) (f : Field) : List Notice :=
  match f.formula with
  | some formula =>
    if formula.sources.isEmpty then
      [.schemaError ("Campo calculado " ++ named f.key ++ " não declara campos de origem")
        (path ++ ".computation.source_fields") [("field", .text f.key)]]
    else []
  | none => []

/-- Findings about the fields from a position on. -/
def fieldFindings : (index : Nat) → (before : List String) → List Field → List Notice
  | _, _, [] => []
  | i, before, f :: fs =>
    let path := indexPath "fields" i
    keyFindings path before f ++ choiceFindings path f ++ freeValueFindings path f
      ++ formulaFindings path f ++ fieldFindings (i + 1) (f.key :: before) fs

/-- Findings about formulas that read fields which do not exist. -/
def sourceFindings (s : Schema) : List Notice :=
  (s.fields.mapIdx fun i f => (f.sources.mapIdx fun j source =>
    if s.fieldKeys.contains source then [] else
      [Notice.schemaError
        ("Fórmula de " ++ named f.key ++ " referencia campo inexistente " ++ named source)
        (indexPath (indexPath "fields" i ++ ".computation.source_fields") j)
        [("field", .text f.key), ("reference", .text source)]]).flatten).flatten

/-! ## Rules -/

/-- Findings about the id of a rule, given the ids before it. -/
def ruleIdFindings (path : String) (before : List String) (r : Rule) : List Notice :=
  if isBlankText r.id then [.schemaError "Identificador de regra vazio" (entryPath path "id") []]
  else if before.contains r.id then
    [.schemaError ("Identificador de regra duplicado: " ++ named r.id) (entryPath path "id")
      [("rule_id", .text r.id)]]
  else []

/-- Findings about the fields of a rule. -/
def endFindings (s : Schema) (path : String) (r : Rule) : List Notice :=
  (if s.fieldKeys.contains r.trigger then [] else
    [.schemaError
      ("Regra " ++ named r.id ++ " referencia campo gatilho inexistente " ++ named r.trigger)
      (entryPath path "trigger_field") [("rule_id", .text r.id), ("reference", .text r.trigger)]])
  ++ (if s.fieldKeys.contains r.target then [] else
    [.schemaError
      ("Regra " ++ named r.id ++ " referencia campo alvo inexistente " ++ named r.target)
      (entryPath path "target_field") [("rule_id", .text r.id), ("reference", .text r.target)]])
  ++ if r.effect = .setValue ∧ s.fields.any (fun f => f.isComputed && f.key == r.target) then
    [.schemaError
      ("Regra " ++ named r.id ++ " tenta definir valor do campo calculado " ++ named r.target)
      (entryPath path "target_field") [("rule_id", .text r.id), ("field", .text r.target)]]
    else []

/-- Findings about a free value of a rule. -/
def ruleValueFindings (path : String) (r : Rule) (part : String) (v : Value) :
    List Notice :=
  if !v.serializable then
    [.schemaError ("Regra " ++ named r.id ++ " declara " ++ part ++ " não serializável")
      (entryPath path part) [("rule_id", .text r.id)]]
  else if v.holdsScript then
    [.schemaError ("Regra " ++ named r.id ++ " contém script embutido em " ++ part)
      (entryPath path part) [("rule_id", .text r.id)]]
  else []

/-- The effect needs a boolean and has another value. -/
def lacksBoolean (r : Rule) : Bool := r.effect ≠ .setValue && r.effectValue.kind ≠ .bool

/-- Findings about an effect that needs a boolean. -/
def effectFindings (path : String) (r : Rule) : List Notice :=
  if lacksBoolean r then
    [.schemaError
      ("Regra " ++ named r.id ++ " com efeito " ++ r.effect.name ++ " exige effect_value booleano")
      (entryPath path "effect_value")
      [("rule_id", .text r.id), ("effect_value", r.effectValue.plain)]]
  else []

/-- Findings about the rules from a position on. -/
def ruleFindings (s : Schema) : (index : Nat) → (before : List String) → List Rule → List Notice
  | _, _, [] => []
  | i, before, r :: rs =>
    let path := indexPath "rules" i
    ruleIdFindings path before r ++ endFindings s path r
      ++ ruleValueFindings path r "compare_value" r.compare
      ++ ruleValueFindings path r "effect_value" r.effectValue
      ++ effectFindings path r ++ ruleFindings s (i + 1) (r.id :: before) rs

/-! ## Layout -/

/-- A column is too narrow or too wide for the grid. -/
def misfits (grid : Int) (c : Column) : Bool := c.span < 1 || grid < c.span

/-- Findings about a column. -/
def columnFindings (s : Schema) (grid : Int) (path : String) (c : Column) : List Notice :=
  (if misfits grid c then
    [.schemaError ("Largura de coluna fora do intervalo [1, " ++ toString grid ++ "]")
      (entryPath path "span") [("span", .int c.span)]] else [])
  ++ (c.fields.filter fun key => !s.fieldKeys.contains key).map fun key =>
    .schemaError ("Layout referencia campo inexistente " ++ named key)
      (entryPath path "fields") [("reference", .text key)]

/-- The sum of the widths of the columns of a row. -/
def rowWidth (row : Row) : Int := row.columns.foldl (fun n c => n + c.span) 0

/-- The columns of a row are too wide for the grid together. -/
def overflows (grid : Int) (row : Row) : Bool := grid < rowWidth row

/-- Findings about a row. -/
def rowFindings (s : Schema) (grid : Int) (path : String) (row : Row) : List Notice :=
  (if row.fieldKeys.isEmpty then [.schemaWarning "Linha de layout vazia" path []] else [])
  ++ (row.columns.mapIdx fun j c =>
    columnFindings s grid (indexPath (entryPath path "columns") j) c).flatten
  ++ if overflows grid row then
    [.schemaError ("Soma das larguras da linha excede " ++ toString grid) path
      [("total", .int (rowWidth row))]] else []

/-- Findings about fields that a layout leaves out. -/
def placementFindings (s : Schema) : List Notice :=
  if s.layout.isEmpty then []
  else
    let placed := s.layout.flatMap Row.fieldKeys
    (s.fields.mapIdx fun i f =>
      if f.key = "" ∨ placed.contains f.key then [] else
        [Notice.schemaWarning ("Campo " ++ named f.key ++ " não aparece no layout")
          (indexPath "fields" i) [("field", .text f.key)]]).flatten

/-- Findings about the layout. -/
def layoutFindings (s : Schema) (grid : Int) : List Notice :=
  (s.layout.mapIdx fun i row => rowFindings s grid (indexPath "layout" i) row).flatten
    ++ placementFindings s

/-! ## The report -/

/-- All findings but that of a cycle. -/
def findings (s : Schema) (grid : Int) : List Notice :=
  formFindings s ++ fieldFindings 0 [] s.fields ++ sourceFindings s ++ ruleFindings s 0 [] s.rules
    ++ layoutFindings s grid

/-- The report on a schema for a grid of some width. -/
def report (s : Schema) (grid : Int) : Report :=
  let found := s.findings grid
  let cycle := (Graph.ofSchema s).cycle?
  { errors := found.filter (·.kind ≠ .schemaWarning) ++ (cycle.map Notice.cycle).toList
    warnings := found.filter (·.kind = .schemaWarning)
    cycle }

/-- The findings about a rule can be written out: what stands in the place of a boolean is JSON, or
it is no integer with too many digits, nor does it hold one. -/
def ruleWritable (r : Rule) : Bool :=
  !lacksBoolean r || r.effectValue.serializable || r.effectValue.printable

/-- The findings about a row can be written out: those about widths name the grid. -/
def rowWritable (grid : Int) (row : Row) : Bool :=
  (Value.int grid).printable || !(row.columns.any (misfits grid) || overflows grid row)

/-- All findings can be written out. -/
def writable (s : Schema) (grid : Int) : Bool :=
  s.rules.all ruleWritable && s.layout.all (rowWritable grid)

/-- Why there is no report. -/
inductive ReportError where
  | config (conflict : MergeConflict)
  | grid (cause : IntegerError)
  /-- An integer has too many digits to be written out. -/
  | digits

/-- The report on a schema for a configuration. -/
def reportFor (s : Schema) (overrides : Value) : Except ReportError Report :=
  match Config.resolve overrides with
  | .error conflict => .error (.config conflict)
  | .ok config =>
    match Config.gridColumns config with
    | .error cause => .error (.grid cause)
    | .ok grid => if s.writable grid then .ok (s.report grid) else .error .digits

end Schema

end LiveForm
