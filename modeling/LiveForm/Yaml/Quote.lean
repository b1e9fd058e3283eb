import LiveForm.Yaml.Cursor

/-!
# Scalars on several lines

A scalar may go on over lines. One line break between its lines counts as a space, and of several
the first is left out. In double quotes a backslash begins an escape, and at the end of a line it
joins the line to the next.

* `readPlain`: a scalar without quotes.
* `readQuoted`: one in single or double quotes.
-/

namespace LiveForm.Yaml

/-! ## Line breaks -/

/-- What breaks between two lines count as, given the first and the others. -/
def foldBreaks (first : Char) (others : List Char) : List Char :=
  if first ≠ '\n' then first :: others else if others = [] then [' '] else others

/-- Passes blanks and line ends, and gives the line ends. Stops before a mark between documents,
without a result. -/
def passLines : (fuel : Nat) → Cursor → Option (List Char) × Cursor
  | 0, c => (some [], c)
  | fuel + 1, c =>
    if c.atDocumentMark then (none, c)
    else
      let c := (c.span (· == ' ')).2
      match c.lineBreak? with
      | none => (some [], c)
      | some (b, c) =>
        let (rest, c) := passLines fuel c
        (rest.map (b :: ·), c)

/-! ## Plain scalars -/

/-- Where a run of a plain scalar stops. -/
def plainStops (flow : Bool) : List Char → Bool
  | [] => true
  | c :: cs =>
    isGap c
      || (c == ':' && (atGap cs || (flow && (cs.head?.map ",[]{}".toList.contains).getD false)))
      || (flow && ",?[]{}".toList.contains c)

/-- What stands between two runs of a plain scalar, and whether a line ended there. Nothing stands
before a mark between documents. -/
def plainGap (c : Cursor) : List Char × Bool × Cursor :=
  let (blanks, c) := c.span (· == ' ')
  match c.lineBreak? with
  | none => (blanks, false, c)
  | some (first, c) =>
    match passLines c.rest.length c with
    | (some others, c) => (foldBreaks first others, true, c)
    | (none, c) => ([], true, c)

/-- The runs of a plain scalar with what stands between them, whether a line ended after the last
run, and the position there. The scalar ends before a comment, and in block context before a line
that is not indented enough. -/
def plainRuns (flow : Bool) (indent : Int) : (fuel : Nat) → (gap : List Char) → (crossed : Bool) →
    Cursor → List Char × Bool × Cursor
  | 0, _, crossed, c => ([], crossed, c)
  | fuel + 1, gap, crossed, c =>
    let (run, after) := if c.isAt '#' then ([], c) else c.run (plainStops flow)
    if run = [] then ([], crossed, c)
    else
      let (next, crossed, c) := plainGap after
      if next = [] || c.isAt '#' || (!flow && (c.column : Int) < indent) then
        (gap ++ run, crossed, c)
      else
        let (more, crossed, c) := plainRuns flow indent fuel next crossed c
        (gap ++ run ++ more, crossed, c)

/-- Reads a plain scalar whose lines are indented by at least `indent`; also whether it ends at
the beginning of a line. -/
def readPlain (flow : Bool) (indent : Int) (c : Cursor) : String × Bool × Cursor :=
  let (cs, crossed, c) := plainRuns flow indent (c.rest.length + 1) [] false c
  (String.ofList cs, crossed, c)

/-! ## Quoted scalars -/

/-- The character that a letter after a backslash stands for. -/
def unescape? (c : Char) : Option Char :=
  match c with
  | '0' => some '\x00'
  | 'a' => some '\x07'
  | 'b' => some '\x08'
  | 't' | '\t' => some '\t'
  | 'n' => some '\n'
  | 'v' => some '\x0b'
  | 'f' => some '\x0c'
  | 'r' => some '\r'
  | 'e' => some '\x1b'
  | ' ' => some ' '
  | '"' => some '"'
  | '\\' => some '\\'
  | '/' => some '/'
  | 'N' => some '\x85'
  | '_' => some '\xa0'
  | 'L' => some '\u2028'
  | 'P' => some '\u2029'
  | _ => none

/-- How many hexadecimal digits follow a letter after a backslash. -/
def codeLength? (c : Char) : Option Nat :=
  match c with
  | 'x' => some 2
  | 'u' => some 4
  | 'U' => some 8
  | _ => none

/-- The character with a code, if there is one. -/
def charOfCode? (code : Nat) : Option Char :=
  if code.isValidChar then some (Char.ofNat code) else none

/-- Passes the line ends between two lines of a quoted scalar, and the blanks around them. -/
def quotedBreaks : (fuel : Nat) → Cursor → Except Unreadable (List Char × Cursor)
  | 0, c => .ok ([], c)
  | fuel + 1, c =>
    if c.atDocumentMark then .error .malformed
    else
      let c := (c.span isSpaceOrTab).2
      match c.lineBreak? with
      | none => .ok ([], c)
      | some (b, c) => do
        let (others, c) ← quotedBreaks fuel c
        .ok (b :: others, c)

/-- Reads an escape after its backslash. -/
def readEscape (c : Cursor) : Except Unreadable (List Char × Cursor) :=
  match c.peek?, c.lineBreak? with
  | some _, some (_, after) => quotedBreaks after.rest.length after
  | some x, none =>
    match unescape? x, codeLength? x with
    | some y, _ => .ok ([y], c.next)
    | none, some n =>
      let digits := c.next.rest.take n
      if digits.length = n ∧ digits.all fun d => (Json.hexValue? d).isSome then
        match charOfCode? (inBase 16 digits) with
        | some y => .ok ([y], c.next.skip n)
        | none => .error .noValue
      else .error .malformed
    | none, none => .error .malformed
  | none, _ => .error .malformed

/-- Reads blanks and line ends inside a quoted scalar. -/
def quotedGap (c : Cursor) : Except Unreadable (List Char × Cursor) :=
  let (blanks, c) := c.span isSpaceOrTab
  match c.lineBreak? with
  | some (first, c) => do
    let (others, c) ← quotedBreaks c.rest.length c
    .ok (foldBreaks first others, c)
  | none => .ok (blanks, c)

/-- Reads a quoted scalar up to its closing quote, and that. -/
def quotedText (double : Bool) : (fuel : Nat) → Cursor → Except Unreadable (List Char × Cursor)
  | 0, _ => .error .malformed
  | fuel + 1, c =>
    match c.rest with
    | [] => .error .malformed
    | x :: xs =>
      let step : Except Unreadable (Option (List Char × Cursor)) :=
        if !double && x == '\'' && xs.head? == some '\'' then .ok (some (['\''], c.skip 2))
        else if x == (if double then '"' else '\'') then .ok none
        else if double && x == '\\' then (readEscape c.next).map some
        else if isGap x then (quotedGap c).map some
        else .ok (some ([x], c.next))
      do
        match ← step with
        | none => .ok ([], c.next)
        | some (part, c) =>
          let (rest, c) ← quotedText double fuel c
          .ok (part ++ rest, c)

/-- Reads a quoted scalar, both quotes included. -/
def readQuoted (double : Bool) (c : Cursor) : Except Unreadable (String × Cursor) := do
  let (cs, c) ← quotedText double (c.rest.length + 1) c.next
  .ok (String.ofList cs, c)

end LiveForm.Yaml
