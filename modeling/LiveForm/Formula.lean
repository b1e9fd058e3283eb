import LiveForm.Typed
import LiveForm.Notice
import LiveForm.Value.Literal

/-!
# Formulas

A formula applies one function to the values of its source fields in order. Empty values are left
out; what a numeric function cannot use is left out with an issue.

* `Formula.evaluate`: the value and the issues, or why there is no value.
* `Formula.Settings`: the separator and the precision for formulas that declare none.
-/

namespace LiveForm

namespace Formula

/-- What formulas use when they declare no separator or precision of their own. -/
structure Settings where
  separator : Value := .text ""
  precision : Value := .null

/-- Why a formula has no value. -/
inductive Fault where
  /-- The precision is of a kind that is no integer. -/
  | precision (kind : Value.Kind)
  /-- The separator is of a kind that joins nothing. -/
  | separator (kind : Value.Kind)
  /-- The separator joins bytes only. -/
  | bytesSeparator
  | termTooLarge
  | quotientTooLarge
  | roundedTooLarge
  /-- An integer in a source has too many digits to be written out. -/
  | digits
  deriving DecidableEq

/-- The name of a kind in the reasons of faults. -/
def kindText : Value.Kind → String
  | .date => "datetime.date"
  | .moment => "datetime.datetime"
  | k => k.name

/-- The text of the reason. -/
def Fault.reason : Fault → String
  | precision k => "'" ++ kindText k ++ "' object cannot be interpreted as an integer"
  | separator k => "'" ++ kindText k ++ "' object has no attribute 'join'"
  | bytesSeparator => "sequence item 0: expected a bytes-like object, str found"
  | termTooLarge => "int too large to convert to float"
  | quotientTooLarge => "integer division result too large for a float"
  | roundedTooLarge => "rounded value too large to represent"
  | digits => "Exceeds the limit (" ++ toString digitLimit
    ++ " digits) for integer string conversion; "
    ++ "use sys.set_int_max_str_digits() to increase the limit"

/-- The class of a fault. -/
def Fault.className : Fault → String
  | precision _ | bytesSeparator => "TypeError"
  | separator _ => "AttributeError"
  | termTooLarge | quotientTooLarge | roundedTooLarge => "OverflowError"
  | digits => "ValueError"

/-- A source whose value a numeric function left out. -/
structure Issue where
  source : String
  value : Value

/-- The text of an issue. -/
def Issue.reason (i : Issue) : String := "valor não numérico ignorado: " ++ i.value.literal

/-- The value of a formula, and the sources that it left out. -/
structure Result where
  value : Value
  issues : List Issue

/-! ## Sources -/

/-- Blank values and NaN count as no value. -/
def isEmpty (v : Value) : Bool := v.isBlank || v.isNaN

/-- The sources that have a value. -/
def present (sources : List (String × Value)) : List (String × Value) :=
  sources.filter fun s => !isEmpty s.2

/-- The numbers among the sources. -/
def numbers (sources : List (String × Value)) : List Number :=
  (present sources).filterMap fun s => s.2.number?

/-- The sources that have a value but no number. -/
def issues (sources : List (String × Value)) : List Issue :=
  ((present sources).filter fun s => !s.2.isNumber).map fun s => ⟨s.1, s.2⟩

/-- The issues with their reasons written out, if all can be. -/
def reasoned (sources : List (String × Value)) : Except Fault (List Issue) :=
  if (issues sources).all fun i => i.value.printable then .ok (issues sources)
  else .error .digits

/-! ## Numeric functions -/

/-- The sum of two numbers: exact on integers, else of doubles. -/
def add : Number → Number → Except Fault Number
  | .int a, .int b => .ok (.int (a + b))
  | .float x, .float y => .ok (.float (x.add y))
  | .int a, .float y =>
    match Binary64.ofInt? a with
    | some x => .ok (.float (x.add y))
    | none => .error .termTooLarge
  | .float x, .int b =>
    match Binary64.ofInt? b with
    | some y => .ok (.float (x.add y))
    | none => .error .termTooLarge

/-- The sum of numbers from left to right, starting from zero. -/
def sum (ns : List Number) : Except Fault Number := ns.foldlM add (.int 0)

/-- The quotient of a number by a positive count. -/
def divide (n : Number) (count : Nat) : Except Fault Number :=
  match n with
  | .int a =>
    match Binary64.divInt? a count with
    | some x => .ok (.float x)
    | none => .error .quotientTooLarge
  | .float x => .ok (.float (x.divNat count))

/-- The total of the sources, and those that it leaves out. -/
def total (sources : List (String × Value)) : Except Fault (Number × List Issue) := do
  let left ← reasoned sources
  .ok (← sum (numbers sources), left)

/-- The mean over all sources that have a value, and those that it leaves out; zero when there are
none. -/
def mean (sources : List (String × Value)) : Except Fault (Number × List Issue) :=
  if present sources = [] then .ok (.int 0, [])
  else do
    let (n, left) ← total sources
    .ok (← divide n (present sources).length, left)

/-- The first of the largest numbers. -/
def largest? : List Number → Option Number
  | [] => none
  | n :: ns => some (ns.foldl (fun best m => if best.lt m then m else best) n)

/-- The first of the smallest numbers. -/
def smallest? : List Number → Option Number
  | [] => none
  | n :: ns => some (ns.foldl (fun best m => if m.lt best then m else best) n)

/-! ## Texts -/

mutual

/-- A value as a part of a text: whole numbers without a fraction, lists joined by commas. -/
def render : Value → String
  | .bool true => "true"
  | .bool false => "false"
  | .float x =>
    match x.toInt? with
    | some n => toString n
    | none => x.text
  | .date d => d.isoText
  | .moment m => m.isoText
  | .list items => String.intercalate "," (renderItems items)
  | .tuple items => String.intercalate "," (renderItems items)
  | v => v.display

def renderItems : List Value → List String
  | [] => []
  | v :: vs => render v :: renderItems vs

end

/-- The parts of a text, if they can be written out. -/
def renderAll (parts : List Value) : Except Fault (List String) :=
  if parts.all Value.printable then .ok (parts.map render) else .error .digits

/-- Joins values by a separator. -/
def join (separator : Value) (parts : List Value) : Except Fault Value :=
  match separator with
  | .text s => do .ok (.text (String.intercalate s (← renderAll parts)))
  | .bytes _ => do
    match ← renderAll parts with
    | [] => .ok (.bytes [])
    | _ => .error .bytesSeparator
  | v => .error (.separator v.kind)

/-! ## Evaluation -/

/-- The value of a function before it is rounded, and the sources that it left out. -/
def apply (settings : Settings) (f : Formula) (sources : List (String × Value)) :
    Except Fault Result :=
  match f.function with
  | .sum => do
    let (n, left) ← total sources
    .ok ⟨.ofNumber n, left⟩
  | .count => .ok ⟨.int (present sources).length, []⟩
  | .avg => do
    let (n, left) ← mean sources
    .ok ⟨.ofNumber n, left⟩
  | .max => .ok ⟨.optNumber (largest? (numbers sources)), []⟩
  | .min => .ok ⟨.optNumber (smallest? (numbers sources)), []⟩
  | .concat => do
    let separator := (f.separator.map Value.text).getD settings.separator
    .ok ⟨← join separator ((present sources).map Prod.snd), []⟩

/-- The count of places that a precision asks for. -/
def places : Value → Except Fault Int
  | .int n => .ok n
  | .bool b => .ok (if b then 1 else 0)
  | v => .error (.precision v.kind)

/-- Rounds a number to a precision; other values and null precisions change nothing. -/
def roundTo (precision value : Value) : Except Fault Value :=
  match precision, value.number? with
  | .null, _ => .ok value
  | _, none => .ok value
  | p, some (.int n) => do .ok (.int (roundIntPlaces n (← places p)))
  | p, some (.float x) => do
    match x.roundPlaces? (← places p) with
    | some y => .ok (.float y)
    | none => .error .roundedTooLarge

/-- The value of a formula on the data of a form. -/
def evaluate (settings : Settings) (f : Formula) (data : String → Value) :
    Except Fault Result := do
  let result ← f.apply settings (f.sources.map fun key => (key, data key))
  let precision := (f.precision.map Value.int).getD settings.precision
  match f.function with
  | .concat => .ok result
  | _ => .ok { result with value := ← roundTo precision result.value }

end Formula

end LiveForm
