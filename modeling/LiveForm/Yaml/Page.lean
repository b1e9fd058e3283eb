import LiveForm.Yaml.Cursor
import LiveForm.Value.Literal

/-!
# Pages of YAML

Collections are written in block style, empty ones as `[]` and `{}`. A text is written without
quotes where it reads back as the same text, else in single quotes, and in double quotes when it
has characters that need an escape. Texts go on to another line at spaces beyond column 80.

* `Page`: the text written so far.
* `Page.node`: writes a value.
* `yamlText`: the YAML text of a value.
-/

namespace LiveForm.Yaml

/-! ## The page -/

/-- A text under way. -/
structure Page where
  /-- The characters so far, last first. -/
  written : List Char := []
  column : Nat := 0
  /-- What comes next need not be set off by a space. -/
  spaced : Bool := true
  /-- Nothing but indentation and marks of collections stand on the line. -/
  fresh : Bool := true

namespace Page

/-- The column beyond which a text goes on to another line. -/
def width : Nat := 80

/-- More characters on the line. -/
def put (p : Page) (cs : List Char) : Page :=
  { p with written := cs.reverse ++ p.written, column := p.column + cs.length }

/-- The end of a line. -/
def newLine (p : Page) (b : Char) : Page :=
  { written := b :: p.written, column := 0, spaced := true, fresh := true }

/-- Goes to a column, on a new line unless the line is fresh and not that far. -/
def goTo (p : Page) (indent : Nat) : Page :=
  let p := if !p.fresh || indent < p.column || (p.column = indent && !p.spaced) then p.newLine '\n'
    else p
  if p.column < indent then { p.put (List.replicate (indent - p.column) ' ') with spaced := true }
  else p

/-- A mark, set off by a space if it has to be. The line stays fresh after a mark of a
collection. -/
def mark (p : Page) (cs : List Char) (setOff collection : Bool) : Page :=
  let p := p.put (if p.spaced || !setOff then cs else ' ' :: cs)
  { p with spaced := false, fresh := p.fresh && collection }

/-- The page in the middle of a scalar. -/
def inScalar (p : Page) : Page := { p with spaced := false, fresh := false }

end Page

/-! ## The look of a text -/

/-- A line break that a text may hold without an escape. -/
def isBreak (c : Char) : Bool := c == '\n' || c == '\x85' || c == '\u2028' || c == '\u2029'

/-- The character can stand in a text without an escape. -/
def isClear (c : Char) : Bool :=
  let n := c.toNat
  c == '\n' || (0x20 ≤ n && n ≤ 0x7E) || n == 0x85 || (0xA0 ≤ n && n ≤ 0xFFFD && c ≠ '\ufeff')
    || (0x10000 ≤ n && n < 0x10FFFF)

/-- What a text looks like. -/
structure Look where
  multiline : Bool
  /-- Without quotes it would not be one scalar. -/
  marked : Bool
  /-- A space or a line break stands at one of its ends. -/
  loose : Bool
  /-- A space follows a line break. -/
  indented : Bool
  /-- It needs escapes, or a line break follows a space. -/
  special : Bool

/-- A text cannot begin like this without quotes. -/
def startMarked (cs : List Char) : Bool :=
  match cs with
  | [] => false
  | c :: r =>
    "#,[]{}&*!|>'\"%@`".toList.contains c || ((c == '?' || c == ':' || c == '-') && atGap r)
      || ['-', '-', '-'].isPrefixOf cs || ['.', '.', '.'].isPrefixOf cs

/-- After a first character, a colon stands before a gap or a `#` after one. -/
def innerMarked : (before : Char) → List Char → Bool
  | _, [] => false
  | b, c :: r => (c == ':' && atGap r) || (c == '#' && isGap b) || innerMarked c r

/-- Two characters that satisfy conditions stand side by side. -/
def pairIn (p q : Char → Bool) : List Char → Bool
  | a :: b :: r => (p a && q b) || pairIn p q (b :: r)
  | _ => false

/-- What a text looks like. -/
def lookOf (cs : List Char) : Look where
  multiline := cs.any isBreak
  marked := startMarked cs || (cs.head?.map (innerMarked · cs.tail)).getD false
  loose := [cs.head?, cs.getLast?].any fun c => (c.map fun c => c == ' ' || isBreak c).getD false
  indented := pairIn isBreak (· == ' ') cs
  special := cs.any (!isClear ·) || pairIn (· == ' ') isBreak cs

/-- How a scalar is written. -/
inductive Style where
  | plain | single | double
  deriving DecidableEq

/-- How a text is written that without quotes would have some form. As a key it stands on one
line. -/
def styleOf (asKey : Bool) (cs : List Char) (plainForm : Bool) : Style :=
  let look := lookOf cs
  if plainForm && !(asKey && (cs.isEmpty || look.multiline))
      && !(look.multiline || look.marked || look.loose || look.indented || look.special) then .plain
  else if !(look.indented || look.special) && !(asKey && look.multiline) then .single
  else .double

namespace Page

/-! ## Plain scalars and single quotes -/

/-- A run of characters of one kind: spaces, line breaks, or others. -/
inductive Run where
  | spaces (count : Nat)
  | breaks (cs : List Char)
  | word (cs : List Char)

/-- The runs of a text. -/
def runs : List Char → List Run
  | [] => []
  | c :: cs =>
    match runs cs with
    | .spaces n :: rest => if c == ' ' then .spaces (n + 1) :: rest
        else if isBreak c then .breaks [c] :: .spaces n :: rest else .word [c] :: .spaces n :: rest
    | .breaks bs :: rest => if isBreak c then .breaks (c :: bs) :: rest
        else if c == ' ' then .spaces 1 :: .breaks bs :: rest else .word [c] :: .breaks bs :: rest
    | .word ws :: rest => if c == ' ' then .spaces 1 :: .word ws :: rest
        else if isBreak c then .breaks [c] :: .word ws :: rest else .word (c :: ws) :: rest
    | [] => [if c == ' ' then .spaces 1 else if isBreak c then .breaks [c] else .word [c]]

/-- The characters of a word; a single quote in quotes is doubled. -/
def wordChars (quoted : Bool) (ws : List Char) : List Char :=
  ws.flatMap fun c => if quoted && c == '\'' then [c, c] else [c]

/-- Line breaks of a text. The first counts as a space when it is read back, unless it is not the
usual one, and is therefore written twice. -/
def breakLines (p : Page) (bs : List Char) : Page :=
  let p := if bs.head? == some '\n' then p.newLine '\n' else p
  bs.foldl newLine p

/-- Writes the runs of a text. Beyond the width a single space becomes the end of a line, except
in quotes at either end of the text. -/
def putRuns (indent : Nat) (asKey quoted : Bool) (p : Page) : (first : Bool) → List Run → Page
  | _, [] => p
  | first, r :: rest =>
    let p := match r with
      | .word ws => p.put (wordChars quoted ws)
      | .breaks bs => (p.breakLines bs).goTo indent
      | .spaces n =>
        if n = 1 && width < p.column && !asKey && !(quoted && (first || rest.isEmpty)) then
          (p.goTo indent).inScalar
        else p.put (List.replicate n ' ')
    putRuns indent asKey quoted p false rest

/-- Writes a plain scalar. -/
def plain (p : Page) (indent : Nat) (asKey : Bool) (cs : List Char) : Page :=
  if cs.isEmpty then p
  else
    let p := if p.spaced then p else p.put [' ']
    putRuns indent asKey false p.inScalar true (runs cs)

/-- Writes a text in single quotes. -/
def single (p : Page) (indent : Nat) (asKey : Bool) (cs : List Char) : Page :=
  (putRuns indent asKey true (p.mark ['\''] true false) true (runs cs)).mark ['\''] false false

/-! ## Double quotes -/

/-- The letter that stands for a character after a backslash. -/
def escapeLetter? (c : Char) : Option Char :=
  match c with
  | '\x00' => some '0'
  | '\x07' => some 'a'
  | '\x08' => some 'b'
  | '\t' => some 't'
  | '\n' => some 'n'
  | '\x0b' => some 'v'
  | '\x0c' => some 'f'
  | '\r' => some 'r'
  | '\x1b' => some 'e'
  | '"' => some '"'
  | '\\' => some '\\'
  | '\x85' => some 'N'
  | '\u2028' => some 'L'
  | '\u2029' => some 'P'
  | _ => none

/-- The characters that need an escape in double quotes although they are clear. -/
def escapedMarks : List Char := ['"', '\\', '\x85', '\u2028', '\u2029', '\ufeff']

/-- The character stands for itself in double quotes. -/
def isBare (c : Char) : Bool :=
  let n := c.toNat
  !escapedMarks.contains c && ((0x20 ≤ n && n ≤ 0x7E) || (0xA0 ≤ n && n ≤ 0xFFFD))

/-- A number in upper-case hexadecimal, padded to a width. -/
def upperHex (width n : Nat) : List Char := (hexText width n).toList.map Char.toUpper

/-- A character with its escape. -/
def escaped (c : Char) : List Char :=
  match escapeLetter? c with
  | some l => ['\\', l]
  | none =>
    let n := c.toNat
    if n < 0x100 then '\\' :: 'x' :: upperHex 2 n
    else if n < 0x10000 then '\\' :: 'u' :: upperHex 4 n
    else '\\' :: 'U' :: upperHex 8 n

/-- The end of a line inside double quotes. A space at the beginning of the next line needs a
backslash. -/
def joinLine (p : Page) (indent : Nat) (next : Option Char) : Page :=
  let p := ((p.put ['\\']).goTo indent).inScalar
  if next == some ' ' then p.put ['\\'] else p

/-- A line that a character makes this long goes on, when the character is neither the first nor
the last one. -/
def turns (length index : Nat) (asKey : Bool) (following : List Char) : Bool :=
  0 < index && !following.isEmpty && width < length && !asKey

/-- Writes a text in double quotes from a position on. Characters that stand for themselves are
`held` back, last first, until a line can end before them. -/
def doubleFrom (indent : Nat) (asKey : Bool) : (index : Nat) → (held : List Char) → List Char →
    Page → Page
  | _, held, [], p => p.put held.reverse
  | index, held, c :: cs, p =>
    if isBare c then
      if (c == ' ' || held.isEmpty) && turns (p.column + held.length) index asKey cs then
        doubleFrom indent asKey (index + 1) [c] cs ((p.put held.reverse).joinLine indent (some c))
      else doubleFrom indent asKey (index + 1) (c :: held) cs p
    else
      let p := (p.put held.reverse).put (escaped c)
      doubleFrom indent asKey (index + 1) [] cs
        (if turns (p.column - 1) index asKey cs then p.joinLine indent cs.head? else p)

/-- Writes a text in double quotes. -/
def double (p : Page) (indent : Nat) (asKey : Bool) (cs : List Char) : Page :=
  (doubleFrom indent asKey 0 [] cs (p.mark ['"'] true false)).mark ['"'] false false

/-! ## Bytes -/

/-- The digits of base 64. -/
def digits64 : List Char :=
  "ABCDEFGHIJKLMNOPQRSTUVWXYZabcdefghijklmnopqrstuvwxyz0123456789+/".toList

/-- The `i`-th digit of base 64 of a number of 24 bits. -/
def digit64 (n i : Nat) : Char := digits64.getD (n / Nat.pow 64 (3 - i) % 64) '='

/-- Bytes in base 64, three by three. -/
def base64 : List UInt8 → List Char
  | a :: b :: c :: rest =>
    let n := a.toNat * 65536 + b.toNat * 256 + c.toNat
    [digit64 n 0, digit64 n 1, digit64 n 2, digit64 n 3] ++ base64 rest
  | [a, b] =>
    let n := a.toNat * 65536 + b.toNat * 256
    [digit64 n 0, digit64 n 1, digit64 n 2, '=']
  | [a] => [digit64 (a.toNat * 65536) 0, digit64 (a.toNat * 65536) 1, '=', '=']
  | [] => []

/-- The number of digits of base 64 on a line. -/
def lineLength64 : Nat := 76

/-- Lines of digits. -/
def lines64 : (fuel : Nat) → List Char → List (List Char)
  | 0, _ => []
  | fuel + 1, cs =>
    if cs.isEmpty then [] else cs.take lineLength64 :: lines64 fuel (cs.drop lineLength64)

/-- Writes bytes as lines of base 64, as a key in double quotes. -/
def bytes (p : Page) (indent : Nat) (asKey : Bool) (bs : List UInt8) : Page :=
  let p := p.mark "!!binary".toList true false
  let lines := lines64 bs.length (base64 bs)
  if asKey || lines.isEmpty then
    p.double indent asKey (lines.flatMap fun line => line ++ ['\n'])
  else
    lines.foldl (fun p line => ((p.goTo indent).put line).newLine '\n')
      ((p.mark ['|'] true false).newLine '\n')

/-! ## Values -/

/-- How numbers are written. -/
def numberLayout : FloatLayout := ⟨".nan", ".inf", "-.inf", ".0"⟩

/-- The text of a scalar without quotes, and the form that it has to have so. -/
def scalarText? : Value → Option (String × Form)
  | .null => some ("null", .null)
  | .bool b => some (if b then "true" else "false", .bool)
  | .int n => some (toString n, .int)
  | .float x => some (x.write numberLayout, .float)
  | .text s => some (s, .text)
  | .date d => some (d.isoText, .time)
  | .moment m => some (m.joined " ", .time)
  | _ => none

/-- The column of a collection or a scalar inside a collection at a column. -/
def deeper (indent : Option Nat) : Nat := (indent.map (· + 2)).getD 0

/-- Writes a scalar. -/
def scalar (p : Page) (indent : Option Nat) (asKey : Bool) (s : String) (form : Form) : Page :=
  let cs := s.toList
  let column := (indent.getD 0) + 2
  match styleOf asKey cs (formOf s = form) with
  | .plain => p.plain column asKey cs
  | .single => p.single column asKey cs
  | .double => p.double column asKey cs

/-- The most characters of a key that stands before its colon without a question mark, the name of
its type included. -/
def keyLimit : Nat := 128

/-- The length of the name of the type of a scalar. -/
def typeLength : Form → Nat
  | .text | .int => 5
  | .null | .bool => 6
  | .float => 7
  | _ => 11

/-- The value can be written as a key without a question mark. -/
def isShortKey (v : Value) : Bool :=
  match v, scalarText? v with
  | _, some (s, form) =>
    !s.isEmpty && !s.toList.any isBreak && s.length + typeLength form < keyLimit
  | .tuple [], none => true
  | _, none => false

/-- A key and its colon at a column. -/
def keyed (column : Nat) (short : Bool) (key : (asKey : Bool) → Page → Page) (p : Page) : Page :=
  let p := p.goTo column
  if short then (key true p).mark [':'] false false
  else ((key false (p.mark ['?'] true true)).goTo column).mark [':'] true true

/-- The column of a sequence: in a mapping that of its key, unless the line is fresh. -/
def sequenceColumn (indent : Option Nat) (inMapping : Bool) (p : Page) : Nat :=
  if inMapping && !p.fresh then indent.getD 0 else deeper indent

mutual

/-- Writes a value inside a collection at a column. -/
def node (indent : Option Nat) (inMapping asKey : Bool) : Value → Page → Page
  | .list [], p | .tuple [], p => p.mark ['[', ']'] true false
  | .list items, p | .tuple items, p => sequence (p.sequenceColumn indent inMapping) items p
  | .set [], p => (p.mark "!!set".toList true false).mark ['\x7b', '\x7d'] true false
  | .set items, p => members (deeper indent) items (p.mark "!!set".toList true false)
  | .map [], p => p.mark ['\x7b', '\x7d'] true false
  | .map entries, p => mapping (deeper indent) entries p
  | .bytes bs, p => p.bytes (indent.getD 0 + 2) asKey bs
  | .text s, p => p.scalar indent asKey s .text
  | v, p =>
    match scalarText? v with
    | some (s, form) => p.scalar indent asKey s form
    | none => p

/-- Writes the members of a sequence at a column. -/
def sequence (column : Nat) : List Value → Page → Page
  | [], p => p
  | v :: vs, p =>
    sequence column vs (node (some column) false false v ((p.goTo column).mark ['-'] true true))

/-- Writes the members of a set at a column, as the keys of a mapping to null. -/
def members (column : Nat) : List Value → Page → Page
  | [], p => p
  | v :: vs, p =>
    let p := p.keyed column (isShortKey v) fun asKey => node (some column) true asKey v
    members column vs (p.scalar (some column) false "null" .null)

/-- Writes the entries of a mapping at a column. -/
def mapping (column : Nat) : List (Value × Value) → Page → Page
  | [], p => p
  | (k, v) :: es, p =>
    let p := p.keyed column (isShortKey k) fun asKey => node (some column) true asKey k
    mapping column es (node (some column) true false v p)

end

end Page

/-- The YAML text of a mapping. -/
def yamlText (entries : Entries) : String :=
  String.ofList (((Page.node none false false (.map entries) {}).goTo 0).written.reverse)

end LiveForm.Yaml
