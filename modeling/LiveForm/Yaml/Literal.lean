import LiveForm.Yaml.Quote

/-!
# Block scalars

After a bar the lines that follow are a text as they stand; after a greater sign single line breaks
between them count as spaces. A digit says how far the lines are indented, and `+` or `-` whether
all or none of the line breaks at the end are kept.

* `readBlock`: a block scalar.
-/

namespace LiveForm.Yaml

/-- What is kept of the line breaks at the end of a block scalar. -/
inductive Chomping where
  | one | none | all
  deriving DecidableEq

/-- The chomping that a character stands for. -/
def chomping? (c : Cursor) : Option Chomping :=
  if c.isAt '+' then some .all else if c.isAt '-' then some .none else none

/-- The indentation that a digit stands for. -/
def increment? (c : Cursor) : Option Nat :=
  match c.peek? with
  | some d => if d.isDigit then some (d.toNat - 48) else none
  | none => none

/-- Reads the marks after a bar or a greater sign, in either order. -/
def readMarks (c : Cursor) : Chomping × Option Nat × Cursor :=
  match chomping? c, increment? c with
  | some k, _ =>
    match increment? c.next with
    | some n => (k, some n, c.next.next)
    | none => (k, none, c.next)
  | none, some n =>
    match chomping? c.next with
    | some k => (k, some n, c.next.next)
    | none => (.one, some n, c.next)
  | none, none => (.one, none, c)

/-- Passes spaces up to a column. -/
def toColumn (indent : Nat) (c : Cursor) : Cursor :=
  c.skip (min (indent - c.column) (c.span (· == ' ')).1.length)

/-- Passes lines that hold nothing up to a column, and gives their line ends. -/
def emptyLines (indent : Nat) : (fuel : Nat) → Cursor → List Char × Cursor
  | 0, c => ([], c)
  | fuel + 1, c =>
    let c := toColumn indent c
    match c.lineBreak? with
    | none => ([], c)
    | some (b, c) =>
      let (more, c) := emptyLines indent fuel c
      (b :: more, c)

/-- Passes lines of spaces and the spaces before the first line that has more, and gives the line
ends and the largest number of spaces. -/
def leadingLines : (fuel : Nat) → Cursor → List Char × Nat × Cursor
  | 0, c => ([], 0, c)
  | fuel + 1, c =>
    let (_, c) := c.span (· == ' ')
    match c.lineBreak? with
    | none => ([], c.column, c)
    | some (b, next) =>
      let (more, column, next) := leadingLines fuel next
      (b :: more, max c.column column, next)

/-- Reads the lines of a block scalar. `before` are the line breaks that come before the next line;
at the end, the last one and those after it. -/
def blockLines (folded : Bool) (indent : Nat) : (fuel : Nat) → (before : List Char) → Cursor →
    List Char × List Char × List Char × Cursor
  | 0, before, c => ([], [], before, c)
  | fuel + 1, before, c =>
    if c.column ≠ indent ∨ c.rest = [] then ([], [], before, c)
    else
      let tight := !c.meets isSpaceOrTab
      let (line, c) := c.span (!isLineBreak ·)
      let (last, c) := match c.lineBreak? with
        | some (b, c) => ([b], c)
        | none => ([], c)
      let (others, c) := emptyLines indent (c.rest.length + 1) c
      if c.column = indent ∧ c.rest ≠ [] then
        let joint := if folded && last = ['\n'] && tight && !c.meets isSpaceOrTab then
            (if others = [] then [' '] else [])
          else last
        let (text, last, after, c) := blockLines folded indent fuel others c
        (before ++ line ++ joint ++ text, last, after, c)
      else (before ++ line, last, others, c)

/-- Reads a block scalar after its bar or greater sign; `outer` is the column of the collection
around it. -/
def readBlock (folded : Bool) (outer : Int) (c : Cursor) : Except Unreadable (String × Cursor) :=
  let (chomping, increment, c) := readMarks c
  let gap := (c.span (· == ' ')).2
  let fuel := c.rest.length + 1
  let line := if gap.isAt '#' then (gap.span (!isLineBreak ·)).2 else gap
  if increment = some 0 ∨ !(c.rest = [] || c.meets fun x => x == ' ' || isLineBreak x)
      ∨ !(line.rest = [] || line.meets isLineBreak) then .error .malformed
  else
    let start := (line.lineBreak?.map Prod.snd).getD line
    let least := (max (outer + 1) 1).toNat
    let (breaks, indent, c) := match increment with
      | some n =>
        let (breaks, c) := emptyLines (least + n - 1) fuel start
        (breaks, least + n - 1, c)
      | none =>
        let (breaks, widest, c) := leadingLines fuel start
        (breaks, max least widest, c)
    let (text, last, after, c) := blockLines folded indent fuel breaks c
    let ending := match chomping with
      | .one => last
      | .none => []
      | .all => last ++ after
    .ok (String.ofList (text ++ ending), c)

end LiveForm.Yaml
