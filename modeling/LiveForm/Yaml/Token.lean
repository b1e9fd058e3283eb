import LiveForm.Yaml.Literal
import LiveForm.Table

/-!
# The tokens of a YAML text

Indentation tells where block collections begin and end. What stands before a `:` is known for a
key only when the `:` comes, so that a position where a key could begin is kept until then; it
must come on the same line, within 1024 characters.

* `Token`: a scalar, a mark, or the beginning or end of a collection.
* `Scanner`: the tokens so far, the indentation, and the possible keys.
* `tokens`: all tokens of a text.
-/

namespace LiveForm.Yaml

/-! ## Tokens -/

/-- A part of a YAML text. -/
inductive Token where
  | documentStart
  | documentEnd
  | blockSequenceStart
  | blockMappingStart
  | blockEnd
  | flowSequenceStart
  | flowSequenceEnd
  | flowMappingStart
  | flowMappingEnd
  | flowEntry
  | blockEntry
  | key
  | value
  /-- The name of a type, without its two exclamation marks. -/
  | tag (name : String)
  /-- A scalar; without quotes and not in a block of its own it is plain. -/
  | scalar (plain : Bool) (text : String)
  deriving DecidableEq

/-! ## The state of scanning -/

/-- A position where a key can begin. -/
structure PossibleKey where
  /-- How many tokens come before it. -/
  place : Nat
  cursor : Cursor
  /-- Nothing but a key can stand there. -/
  required : Bool

/-- The state of scanning. -/
structure Scanner where
  cursor : Cursor
  tokens : Array Token := #[]
  /-- How many brackets are open. -/
  depth : Nat := 0
  /-- The column of the innermost block collection, and of those around it. -/
  indent : Int := -1
  outer : List Int := []
  /-- A key may begin at the next token. -/
  keyAllowed : Bool := true
  /-- The possible keys by depth. -/
  possible : Table Nat PossibleKey := .empty

namespace Scanner

/-- The scanner is inside brackets. -/
def inFlow (s : Scanner) : Bool := s.depth ≠ 0

/-- One more token. -/
def push (s : Scanner) (t : Token) : Scanner := { s with tokens := s.tokens.push t }

/-- The column of the cursor. -/
def column (s : Scanner) : Int := s.cursor.column

/-! ## Gaps -/

/-- Passes blanks, comments and line ends. After a line end outside brackets a key may begin. -/
def passGap : (fuel : Nat) → Scanner → Scanner
  | 0, s => s
  | fuel + 1, s =>
    let c := (s.cursor.span (· == ' ')).2
    let c := if c.isAt '#' then (c.span (!isLineBreak ·)).2 else c
    match c.lineBreak? with
    | some (_, c) => passGap fuel { s with cursor := c, keyAllowed := s.keyAllowed || !s.inFlow }
    | none => { s with cursor := c }

/-- Passes to the next token. A byte-order mark at the beginning is passed too. -/
def toToken (s : Scanner) : Scanner :=
  let c := if s.cursor.index = 0 ∧ s.cursor.isAt '\ufeff' then s.cursor.next else s.cursor
  passGap (c.rest.length + 1) { s with cursor := c }

/-! ## Possible keys -/

/-- The most characters between the beginning of a key and its `:`. -/
def keyReach : Nat := 1024

/-- Gives up the possible key at a depth. -/
def dropKey (s : Scanner) : Except Unreadable Scanner :=
  match s.possible.get? s.depth with
  | none => .ok s
  | some k =>
    if k.required then .error .malformed
    else .ok { s with possible := s.possible.erase s.depth }

/-- Gives up the possible keys that are too far back. -/
def dropStale (s : Scanner) : Except Unreadable Scanner :=
  let isStale := fun (k : PossibleKey) =>
    k.cursor.line ≠ s.cursor.line || keyReach < s.cursor.index - k.cursor.index
  let (stale, fresh) := s.possible.entries.partition fun e => isStale e.2
  if stale.any (·.2.required) then .error .malformed else .ok { s with possible := ⟨fresh⟩ }

/-- Keeps the cursor as a position where a key can begin. -/
def keepKey (s : Scanner) : Except Unreadable Scanner :=
  if s.keyAllowed then do
    let s ← s.dropKey
    let k : PossibleKey := ⟨s.tokens.size, s.cursor, !s.inFlow && s.indent == s.column⟩
    .ok { s with possible := s.possible.set s.depth k }
  else .ok s

/-! ## Indentation -/

/-- The indentation after the block collections that end at a column, and how many these are. -/
def unwindTo (column : Int) (indent : Int) : List Int → Int × List Int × Nat
  | [] => (indent, [], 0)
  | o :: os =>
    if column < indent then
      let (indent, outer, n) := unwindTo column o os
      (indent, outer, n + 1)
    else (indent, o :: os, 0)

/-- Ends the block collections that are indented more than a column. -/
def unwind (s : Scanner) (column : Int) : Scanner :=
  if s.inFlow then s
  else
    let (indent, outer, n) := unwindTo column s.indent s.outer
    { s with indent, outer, tokens := s.tokens ++ Array.replicate n .blockEnd }

/-- Begins a block collection at a column, unless one is there. Its token comes at a place among
the tokens. -/
def beginBlock (s : Scanner) (column : Int) (place : Nat) (start : Token) : Scanner :=
  if s.indent < column then
    { s with indent := column, outer := s.indent :: s.outer
             tokens := s.tokens.insertIdxIfInBounds place start }
  else s

/-! ## One token after another -/

/-- A mark of some characters. -/
def mark (s : Scanner) (t : Token) (length : Nat) : Scanner :=
  { s.push t with cursor := s.cursor.skip length }

/-- A mark between documents. -/
def documentMark (s : Scanner) (t : Token) : Except Unreadable Scanner := do
  let s ← (s.unwind (-1)).dropKey
  .ok ({ s with keyAllowed := false }.mark t 3)

/-- An opening bracket. -/
def openBracket (s : Scanner) (t : Token) : Except Unreadable Scanner := do
  let s ← s.keepKey
  .ok ({ s with depth := s.depth + 1, keyAllowed := true }.mark t 1)

/-- A closing bracket. -/
def closeBracket (s : Scanner) (t : Token) : Except Unreadable Scanner :=
  if s.inFlow then do
    let s ← s.dropKey
    .ok ({ s with depth := s.depth - 1, keyAllowed := false }.mark t 1)
  else .error .malformed

/-- A comma between brackets. -/
def comma (s : Scanner) : Except Unreadable Scanner := do
  let s ← { s with keyAllowed := true }.dropKey
  .ok (s.mark .flowEntry 1)

/-- The dash of a member of a sequence. -/
def dash (s : Scanner) : Except Unreadable Scanner :=
  if !s.inFlow && !s.keyAllowed then .error .malformed
  else do
    let s := if s.inFlow then s else s.beginBlock s.column s.tokens.size .blockSequenceStart
    let s ← { s with keyAllowed := true }.dropKey
    .ok (s.mark .blockEntry 1)

/-- The question mark of a key. -/
def questionMark (s : Scanner) : Except Unreadable Scanner :=
  if !s.inFlow && !s.keyAllowed then .error .malformed
  else do
    let s := if s.inFlow then s else s.beginBlock s.column s.tokens.size .blockMappingStart
    let s ← { s with keyAllowed := !s.inFlow }.dropKey
    .ok (s.mark .key 1)

/-- The colon of a value. A possible key becomes one. -/
def colon (s : Scanner) : Except Unreadable Scanner :=
  match s.possible.get? s.depth with
  | some k =>
    let s := { s with possible := s.possible.erase s.depth
                      tokens := s.tokens.insertIdxIfInBounds k.place .key }
    let s := if s.inFlow then s else s.beginBlock k.cursor.column k.place .blockMappingStart
    .ok ({ s with keyAllowed := false }.mark .value 1)
  | none =>
    if !s.inFlow && !s.keyAllowed then .error .malformed
    else
      let s := if s.inFlow then s else s.beginBlock s.column s.tokens.size .blockMappingStart
      .ok ({ s with keyAllowed := !s.inFlow }.mark .value 1)

/-- A quoted scalar. -/
def quoted (s : Scanner) (double : Bool) : Except Unreadable Scanner := do
  let s ← s.keepKey
  let (text, c) ← readQuoted double s.cursor
  .ok { s.push (.scalar false text) with cursor := c, keyAllowed := false }

/-- A plain scalar. When it ends at the beginning of a line, a key may follow. -/
def plain (s : Scanner) : Except Unreadable Scanner := do
  let s ← s.keepKey
  let (text, crossed, c) := readPlain s.inFlow (s.indent + 1) s.cursor
  .ok { s.push (.scalar true text) with cursor := c, keyAllowed := crossed }

/-- A scalar in a block of its own. A key may follow. -/
def block (s : Scanner) (folded : Bool) : Except Unreadable Scanner := do
  let s ← { s with keyAllowed := true }.dropKey
  let (text, c) ← readBlock folded s.indent s.cursor.next
  .ok { s.push (.scalar false text) with cursor := c }

/-- The name of a type: two exclamation marks and letters. -/
def tag (s : Scanner) : Except Unreadable Scanner := do
  let s ← s.keepKey
  match s.cursor.rest with
  | '!' :: '!' :: _ =>
    let (name, c) := (s.cursor.skip 2).span Char.isAlpha
    if atGap c.rest then
      .ok { s.push (.tag (String.ofList name)) with cursor := c, keyAllowed := false }
    else .error .malformed
  | _ => .error .malformed

/-- The characters that begin something other than a plain scalar. -/
def indicators : List Char := "-?:,[]{}#&*!|>'\"%@`".toList

/-- A plain scalar begins with these characters. -/
def plainBegins (flow : Bool) : List Char → Bool
  | [] => false
  | c :: cs =>
    (!isGap c && !indicators.contains c)
      || (!atGap cs && (c == '-' || (!flow && (c == '?' || c == ':'))))

/-- The next token, when a text is not over. Directives, anchors and aliases are not read. -/
def token (s : Scanner) : Except Unreadable Scanner :=
  match s.cursor.rest with
  | [] => .error .malformed
  | c :: cs =>
    if c == '%' && s.cursor.column == 0 then .error .malformed
    else if s.cursor.column == 0 && s.cursor.atDocumentMark then
      s.documentMark (if c == '-' then .documentStart else .documentEnd)
    else if c == '[' then s.openBracket .flowSequenceStart
    else if c == '\x7b' then s.openBracket .flowMappingStart
    else if c == ']' then s.closeBracket .flowSequenceEnd
    else if c == '\x7d' then s.closeBracket .flowMappingEnd
    else if c == ',' then s.comma
    else if c == '-' && atGap cs then s.dash
    else if c == '?' && (s.inFlow || atGap cs) then s.questionMark
    else if c == ':' && (s.inFlow || atGap cs) then s.colon
    else if c == '!' then s.tag
    else if c == '|' && !s.inFlow then s.block false
    else if c == '>' && !s.inFlow then s.block true
    else if c == '\'' then s.quoted false
    else if c == '"' then s.quoted true
    else if plainBegins s.inFlow (c :: cs) then s.plain
    else .error .malformed

/-- Scans up to the end. Each token uses up a character, and so the length of the text is fuel
enough. -/
def scan : (fuel : Nat) → Scanner → Except Unreadable Scanner
  | 0, _ => .error .malformed
  | fuel + 1, s => do
    let s ← s.toToken.dropStale
    let s := s.unwind s.column
    if s.cursor.rest = [] then (s.unwind (-1)).dropKey else scan fuel (← s.token)

end Scanner

/-- The tokens of a text. -/
def tokens (s : String) : Except Unreadable (List Token) := do
  let cs := s.toList
  if cs.all isAllowed then
    let done ← Scanner.scan (cs.length + 1) { cursor := { rest := cs } }
    .ok done.tokens.toList
  else .error .malformed

end LiveForm.Yaml
