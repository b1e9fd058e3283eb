import LiveForm.Value.Basic

/-!
# Notices and failures

A notice is one finding about a schema or a value, with details for whoever has to act on it. A
failure is what stops an operation; it turns into a notice.

* `Notice`: a code, a message, details and a hint.
* `Failure`: a kind, a message and details, `Failure.toNotice` its notice.
-/

namespace LiveForm

/-- The kinds of notices. -/
inductive Notice.Kind where
  | schemaInvalid | schemaWarning | cyclicDependency | unknownField | readOnlyField
  | computation | ruleEvaluation | fieldRequired | fieldType | fieldRange | fieldLength
  | fieldPattern | fieldChoice | versionNotFound
  /-- A kind that is known by a name only. -/
  | other (name : String)
  deriving DecidableEq

/-- The code of a kind. -/
def Notice.Kind.code : Notice.Kind → String
  | schemaInvalid => "SCHEMA_VALIDATION_ERROR"
  | schemaWarning => "SCHEMA_WARNING"
  | cyclicDependency => "CYCLIC_DEPENDENCY"
  | unknownField => "UNKNOWN_FIELD"
  | readOnlyField => "COMPUTED_FIELD_READ_ONLY"
  | computation => "COMPUTATION_ERROR"
  | ruleEvaluation => "RULE_EVALUATION_ERROR"
  | fieldRequired => "FIELD_REQUIRED"
  | fieldType => "FIELD_INVALID_TYPE"
  | fieldRange => "FIELD_OUT_OF_RANGE"
  | fieldLength => "FIELD_INVALID_LENGTH"
  | fieldPattern => "FIELD_PATTERN_MISMATCH"
  | fieldChoice => "FIELD_INVALID_OPTION"
  | versionNotFound => "VERSION_NOT_FOUND"
  | other name => name

/-- A finding. -/
structure Notice where
  kind : Notice.Kind
  message : String
  details : Entries
  hint : Option String := none
  decisionRequired : Bool := false

namespace Notice

open Value (fields)

/-- The document of a notice. -/
def toValue (n : Notice) : Value := .record [
  ("type", .text n.kind.code),
  ("message", .text n.message),
  ("details", .map n.details),
  ("hint", .optText n.hint),
  ("decision_required", .bool n.decisionRequired)]

/-- Equality of notices: the details compare as values. -/
def equiv (a b : Notice) : Bool :=
  a.kind = b.kind && a.message = b.message && (Value.map a.details).equiv (.map b.details)
    && a.hint = b.hint && a.decisionRequired = b.decisionRequired

/-! ## Findings about schemas -/

/-- An error in a schema. -/
def schemaError (message path : String) (details : List (String × Value)) : Notice where
  kind := .schemaInvalid
  message := message
  details := fields (("path", .text path) :: details)
  hint := some "Corrija o schema no designer antes de ativar o formulário."
  decisionRequired := true

/-- A warning about a schema. -/
def schemaWarning (message path : String) (details : List (String × Value)) : Notice where
  kind := .schemaWarning
  message := message
  details := fields (("path", .text path) :: details)

/-- A cycle of dependencies between fields. -/
def cycle (keys : List String) : Notice where
  kind := .cyclicDependency
  message := "Ciclo detectado no grafo de dependências entre campos"
  details := fields [("cycle", .texts keys)]
  hint := some <| "Remova uma das regras ou fórmulas que fecham o ciclo; " ++
    "ciclos nunca são quebrados em runtime."
  decisionRequired := true

/-! ## Findings about evaluation -/

/-- A formula that failed, or a source that it left out. -/
def computation (field function reason : String) (source failure : Option String) : Notice where
  kind := .computation
  message := "Falha ao calcular campo derivado"
  details := fields [("field", .text field), ("function", .text function),
    ("reason", .text reason), ("source_field", .optText source), ("exc_type", .optText failure)]
  hint := some <| "Revise os valores de origem; " ++
    "o campo mantém o último valor válido ou o fallback definido."

/-- A rule that counts as not satisfied because its values do not fit together. -/
def rule (ruleId field operator reason : String) : Notice where
  kind := .ruleEvaluation
  message := "Regra avaliada como falsa por incompatibilidade de valores"
  details := fields [("rule_id", .text ruleId), ("field", .text field),
    ("operator", .text operator), ("reason", .text reason)]
  hint := some "Ajuste o valor de comparação da regra ao tipo declarado do campo gatilho."

/-! ## Findings about values -/

/-- The field's own message, unless it is empty, else the usual one. -/
def messageOr (usual : String) : Option String → String
  | some "" => usual
  | some own => own
  | none => usual

/-- A value is missing. -/
def fieldRequired (field : String) (message : Option String) : Notice where
  kind := .fieldRequired
  message := messageOr "Este campo é obrigatório" message
  details := fields [("field", .text field)]

/-- A value does not have the type of its field. -/
def fieldType (field expected actual : String) : Notice where
  kind := .fieldType
  message := "Valor incompatível com o tipo do campo"
  details := fields [("field", .text field), ("expected_type", .text expected),
    ("actual_type", .text actual)]

/-- A number lies outside its limits. -/
def fieldRange (field : String) (value : Number) (min max : Option Number)
    (message : Option String) : Notice where
  kind := .fieldRange
  message := messageOr "Valor fora do intervalo permitido" message
  details := fields [("field", .text field), ("value", .ofNumber value),
    ("min", .optNumber min), ("max", .optNumber max)]

/-- A text is too short or too long. -/
def fieldLength (field : String) (length : Nat) (min max : Option Int)
    (message : Option String) : Notice where
  kind := .fieldLength
  message := messageOr "Quantidade de caracteres fora do permitido" message
  details := fields [("field", .text field), ("length", .int length),
    ("min_length", .optInt min), ("max_length", .optInt max)]

/-- A text does not match its pattern. -/
def fieldPattern (field pattern : String) (message : Option String) : Notice where
  kind := .fieldPattern
  message := messageOr "Formato inválido" message
  details := fields [("field", .text field), ("pattern", .text pattern)]

/-- A value is not among the choices. -/
def fieldChoice (field : String) (value : Value) (allowed : List Value) : Notice where
  kind := .fieldChoice
  message := "Valor fora das opções declaradas"
  details := fields [("field", .text field), ("value", value), ("allowed", .list allowed)]

end Notice

/-! ## Failures -/

/-- What stops an operation. The details are a mapping or null. -/
structure Failure where
  kind : Notice.Kind
  message : String
  details : Value := .map []
  hint : Option String := none
  decisionRequired : Bool := false

namespace Failure

/-- The entries of the details; null has none. -/
def entries (f : Failure) : Entries :=
  match f.details with
  | .map entries => entries
  | _ => []

/-- The notice of a failure. An empty message is replaced. -/
def toNotice (f : Failure) : Notice where
  kind := f.kind
  message := if f.message = "" then "Erro de execução" else f.message
  details := f.entries
  hint := f.hint
  decisionRequired := f.decisionRequired

/-- Why the details have no list at a key. -/
inductive DetailError where
  | noDetails
  | noList
  deriving DecidableEq

/-- The list at a key of the details; absent or nothing, it is empty. -/
def listAt (f : Failure) (key : String) : Except DetailError (List Value) :=
  match f.details with
  | .map _ =>
    let v := f.details.lookup key
    if !v.truthy then .ok []
    else
      match v.listed? with
      | some items => .ok items
      | none => .error .noList
  | _ => .error .noDetails

/-- The schema has errors that block what was asked. -/
def schemaInvalid (message : String) (details : List (String × Value)) (hint : Option String) :
    Failure where
  kind := .schemaInvalid
  message := message
  details := .record details
  hint := hint
  decisionRequired := true

/-- The fields depend on each other in a cycle. -/
def cyclic (cycle : List String) (details : Value) (hint : Option String) : Failure where
  kind := .cyclicDependency
  message := "Ciclo detectado no grafo de dependências: " ++ String.intercalate " -> " cycle
  details := details
  hint := hint
  decisionRequired := true

/-- No field has the key, which may be any value. -/
def unknownField (key : Value) (operation : String) : Failure where
  kind := .unknownField
  message := "Campo inexistente no schema ativo"
  details := .record [("field", key), ("operation", .text operation)]
  hint := some <| "Verifique a chave do campo; " ++
    "apenas chaves declaradas no schema são aceitas."

/-- The value of the field is derived and cannot be written. -/
def readOnlyField (key : String) : Failure where
  kind := .readOnlyField
  message := "Campo calculado não aceita escrita direta"
  details := .record [("field", .text key)]
  hint := some "Altere os campos de origem da fórmula; o valor é derivado automaticamente."

/-- No formula has a function of this name. -/
def unsupportedFunction (name : String) : Failure where
  kind := .computation
  message := "Função de cálculo não suportada: " ++ name
  details := .record [("function", .text name)]

/-- The history has no version with the id, which may be any value. -/
def versionNotFound (id : Value) : Failure where
  kind := .versionNotFound
  message := "Versão de schema não encontrada no histórico"
  details := .record [("version_id", id)]
  hint := some "Consulte o histórico para obter identificadores válidos."

end Failure

end LiveForm
