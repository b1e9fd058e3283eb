import LiveForm.Yaml.Scalar

/-!
# Positions in YAML texts

* `isLineBreak`, `isGap`, `isAllowed`: the characters that matter for the layout of a text.
* `Cursor`: a position in a text, with its line and column.
* `Cursor.run`, `Cursor.span`, `Cursor.lineBreak?`: what stands there, and the position after it.
-/

namespace LiveForm.Yaml

/-! ## Characters -/

/-- The character ends a line. -/
def isLineBreak (c : Char) : Bool :=
  c == '\n' || c == '\r' || c == '\x85' || c == '\u2028' || c == '\u2029'

/-- The character is a space, a tab or the end of a line. -/
def isGap (c : Char) : Bool := c == ' ' || c == '\t' || isLineBreak c

/-- A text begins with a space, a tab or the end of a line, or is over. -/
def atGap (cs : List Char) : Bool := (cs.head?.map isGap).getD true

/-- The character may stand in a YAML text. -/
def isAllowed (c : Char) : Bool :=
  let n := c.toNat
  c == '\t' || c == '\n' || c == '\r' || (0x20 ≤ n && n ≤ 0x7E) || n == 0x85
    || (0xA0 ≤ n && n ≤ 0xFFFD) || 0x10000 ≤ n

/-! ## Cursors -/

/-- A position in a text. -/
structure Cursor where
  rest : List Char
  index : Nat := 0
  line : Nat := 0
  column : Nat := 0

namespace Cursor

/-- The next character. -/
def peek? (c : Cursor) : Option Char := c.rest.head?

/-- The next character is the given one. -/
def isAt (c : Cursor) (x : Char) : Bool := c.peek? == some x

/-- The next character satisfies a condition. -/
def meets (c : Cursor) (p : Char → Bool) : Bool := (c.peek?.map p).getD false

/-- The position after the next character. Both characters of a two-character line end count as
one. -/
def next (c : Cursor) : Cursor :=
  match c.rest with
  | [] => c
  | x :: xs =>
    if isLineBreak x && !(x == '\r' && xs.head? == some '\n') then
      { rest := xs, index := c.index + 1, line := c.line + 1, column := 0 }
    else
      { c with rest := xs, index := c.index + 1
               column := if x = '\ufeff' then c.column else c.column + 1 }

/-- The position after some characters. -/
def skip (c : Cursor) : Nat → Cursor
  | 0 => c
  | n + 1 => c.next.skip n

/-- The length of the run of characters up to where a text stops. -/
def runLength (stop : List Char → Bool) : List Char → Nat
  | [] => 0
  | c :: cs => if stop (c :: cs) then 0 else runLength stop cs + 1

/-- The characters up to where a text stops, and the position there. -/
def run (c : Cursor) (stop : List Char → Bool) : List Char × Cursor :=
  let n := runLength stop c.rest
  (c.rest.take n, c.skip n)

/-- The characters that satisfy a condition, and the position after them. -/
def span (c : Cursor) (p : Char → Bool) : List Char × Cursor :=
  c.run fun cs => !((cs.head?.map p).getD false)

/-- The end of a line, as it counts in a text, and the position after it. -/
def lineBreak? (c : Cursor) : Option (Char × Cursor) :=
  match c.rest with
  | '\r' :: '\n' :: _ => some ('\n', c.skip 2)
  | x :: _ =>
    if x = '\u2028' ∨ x = '\u2029' then some (x, c.next)
    else if isLineBreak x then some ('\n', c.next)
    else none
  | [] => none

/-- A mark between documents begins here. -/
def atDocumentMark (c : Cursor) : Bool :=
  match c.rest with
  | '-' :: '-' :: '-' :: r => atGap r
  | '.' :: '.' :: '.' :: r => atGap r
  | _ => false

end Cursor

end LiveForm.Yaml
