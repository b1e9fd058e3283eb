import LiveForm.Pattern.Match
import LiveForm.Pattern.Search
import LiveForm.Json.Reader
import LiveForm.Number.Basic

/-!
# Reading patterns

The syntax of patterns: characters and escapes, sets in brackets, groups, choices, repetitions,
flags, and assertions. A text that breaks the syntax is no pattern, and a repetition whose bound is
too large breaks off the reading.

* `Pattern.parse`: the tree of a pattern.
* `Pattern.search`: the search of patterns that are read so.
-/

namespace LiveForm.Pattern

/-! ## Flags -/

/-- The flags in force at a place of a pattern. -/
structure Flags where
  ignoreCase : Bool := false
  multiline : Bool := false
  dotAll : Bool := false
  verbose : Bool := false
  ascii : Bool := false
  unicode : Bool := false

namespace Flags

/-- Switches one flag by its letter. -/
def switch (f : Flags) (on : Bool) : Char → Option Flags
  | 'i' => some { f with ignoreCase := on }
  | 'm' => some { f with multiline := on }
  | 's' => some { f with dotAll := on }
  | 'x' => some { f with verbose := on }
  | 'a' => some { f with ascii := on, unicode := !on }
  | 'u' => some { f with unicode := on, ascii := !on }
  | _ => none

/-- Switches flags by their letters. -/
def switchAll (on : Bool) (letters : List Char) (f : Flags) : Option Flags :=
  letters.foldlM (fun f c => f.switch on c) f

end Flags

/-- The letters that switch a flag. -/
def isFlagLetter (c : Char) : Bool := ['i', 'm', 's', 'x', 'a', 'u'].contains c

/-- Flags written in a group, and whether they hold for the whole pattern. -/
structure FlagGroup where
  on : List Char
  off : List Char
  whole : Bool

/-- Reads flags after `(?`. -/
def readFlags (cs : List Char) : Option (FlagGroup × List Char) :=
  let on := cs.takeWhile isFlagLetter
  let rest := cs.dropWhile isFlagLetter
  if on.contains 'a' ∧ on.contains 'u' then none
  else
    match rest with
    | ')' :: r => if on = [] then none else some (⟨on, [], true⟩, r)
    | ':' :: r => if on = [] then none else some (⟨on, [], false⟩, r)
    | '-' :: r =>
      let off := r.takeWhile isFlagLetter
      match r.dropWhile isFlagLetter with
      | ':' :: r =>
        if off = [] ∨ off.any (fun c => c = 'a' ∨ c = 'u' ∨ on.contains c) then none
        else some (⟨on, off, false⟩, r)
      | _ => none
    | _ => none

/-! ## The state of reading -/

/-- What is left of a pattern, and what is known of its groups. -/
structure Reader where
  rest : List Char
  /-- The number of the next group. -/
  nextGroup : Nat := 1
  names : List (String × Nat) := []
  /-- The groups that are complete, with their widths. -/
  closed : List (Nat × Width) := []
  /-- Groups that conditions name before they are seen. -/
  awaited : List Nat := []
  /-- The first group number inside the lookbehind that is being read. -/
  lookbehind : Option Nat := none
  /-- The flags of the whole pattern. -/
  flags : Flags := {}

namespace Reader

/-- The width of a complete group. -/
def groupWidth (r : Reader) (number : Nat) : Width :=
  ((r.closed.find? (·.1 == number)).map Prod.snd).getD .zero

def isClosed (r : Reader) (number : Nat) : Bool := r.closed.any (·.1 == number)

/-- A group may be referred to here. -/
def mayRefer (r : Reader) (number : Nat) : Bool :=
  r.isClosed number && (r.lookbehind.map fun first => decide (number < first)).getD true

/-- Removes an expected character. -/
def skip? (c : Char) (r : Reader) : Option Reader :=
  (skipFirst c r.rest).map fun rest => { r with rest }
where
  skipFirst (c : Char) : List Char → Option (List Char)
    | [] => none
    | d :: ds => if d = c then some ds else none

end Reader

/-! ## Escapes -/

def isOctal (c : Char) : Bool := '0' ≤ c && c ≤ '7'

def octalValue (cs : List Char) : Nat := cs.foldl (fun n c => 8 * n + (c.toNat - 48)) 0

/-- Reads exactly `n` hexadecimal digits. -/
def hexDigits? (n : Nat) (cs : List Char) : Option (Nat × List Char) := do
  let digits := cs.take n
  if digits.length < n then none
  else
    let value ← digits.foldlM (fun v c => (Json.hexValue? c).map (16 * v + ·)) 0
    some (value, cs.drop n)

/-- The character that a letter after a backslash stands for. -/
def namedEscape? : Char → Option Nat
  | 'a' => some 7
  | 'f' => some 12
  | 'n' => some 10
  | 'r' => some 13
  | 't' => some 9
  | 'v' => some 11
  | '\\' => some 92
  | _ => none

/-- The class that a letter after a backslash stands for. -/
def classEscape? : Char → Option CharItem
  | 'd' => some (.cls .digit false)
  | 'D' => some (.cls .digit true)
  | 's' => some (.cls .space false)
  | 'S' => some (.cls .space true)
  | 'w' => some (.cls .word false)
  | 'W' => some (.cls .word true)
  | _ => none

def isAsciiLetter (c : Char) : Bool := ('a' ≤ c && c ≤ 'z') || ('A' ≤ c && c ≤ 'Z')

/-- Reads an escape by code, or of a character that has no other meaning. -/
def readCodeEscape : List Char → Option (Nat × List Char)
  | 'x' :: r => hexDigits? 2 r
  | 'u' :: r => hexDigits? 4 r
  | 'U' :: r => do
    let (code, rest) ← hexDigits? 8 r
    if code < 0x110000 then some (code, rest) else none
  | c :: r => if isAsciiLetter c then none else some (c.toNat, r)
  | [] => none

/-- Reads what follows a backslash inside a set. -/
def readSetEscape : List Char → Option (CharItem × List Char)
  | [] => none
  | 'b' :: r => some (.single 8, r)
  | c :: r =>
    match namedEscape? c, classEscape? c with
    | some code, _ => some (.single code, r)
    | _, some item => some (item, r)
    | none, none =>
      if isOctal c then
        let digits := c :: (r.take 2).takeWhile isOctal
        let value := octalValue digits
        if value ≤ 0o377 then some (.single value, (c :: r).drop digits.length) else none
      else if c.isDigit then none
      else (readCodeEscape (c :: r)).map fun (code, rest) => (.single code, rest)

/-! ## Sets -/

/-- Reads one member of a set, an escape or a character. -/
def readSetMember : List Char → Option (CharItem × List Char)
  | [] => none
  | '\\' :: r => readSetEscape r
  | c :: r => some (.single c.toNat, r)

/-- Reads the members of a set up to its closing bracket, which cannot be the first member. -/
def readSet : (fuel : Nat) → List CharItem → List Char → Option (List CharItem × List Char)
  | 0, _, _ => none
  | fuel + 1, items, cs =>
    if items ≠ [] ∧ cs.head? = some ']' then some (items, cs.drop 1)
    else do
      let (first, rest) ← readSetMember cs
      match rest with
      | '-' :: ']' :: r => some (items ++ [first, .single 45], r)
      | '-' :: r => do
        let (last, rest) ← readSetMember r
        match first, last with
        | .single low, .single high =>
          if low ≤ high then readSet fuel (items ++ [.range low high]) rest else none
        | _, _ => none
      | rest => readSet fuel (items ++ [first]) rest

/-! ## Repetitions -/

/-- What stands for a repetition without a greatest number; bounds are below it. -/
def maxRepeat : Nat := 4294967295

/-- The number that the digits of a bound write. -/
def boundOf (digits : List Char) : Except Fault Nat :=
  if digitLimit < digits.length then .error (.interrupted ⟨"ValueError"⟩)
  else
    let bound := digits.foldl (fun n c => 10 * n + (c.toNat - 48)) 0
    if bound < maxRepeat then .ok bound else .error (.interrupted ⟨"OverflowError"⟩)

/-- Reads the bounds of a repetition in braces; `none` when the brace stands for itself. -/
def readBounds (cs : List Char) : Except Fault (Option (Nat × Option Nat × List Char)) :=
  let (low, rest) := cs.span Char.isDigit
  let (high, rest) := match rest with
    | ',' :: r => (some (r.takeWhile Char.isDigit), r.dropWhile Char.isDigit)
    | r => (none, r)
  match rest with
  | '\x7d' :: r =>
    if low = [] ∧ high = none then .ok none
    else do
      let min ← boundOf low
      let max ← match high with
        | none => .ok (some min)
        | some [] => .ok none
        | some ds => (boundOf ds).map some
      .ok (some (min, max, r))
  | _ => .ok none

/-- What the last item is to a repetition sign. -/
inductive Repeatable where
  | nothing | repeated | item (n : Node)

/-- The last item as the body of a repetition. -/
def repeatable : Option Node → Repeatable
  | none => .nothing
  | some (.anchor _) => .nothing
  | some (.loop ..) => .repeated
  | some n => .item n

/-- Applies a repetition to the last item. -/
def applyRepeat (items : List Node) (min : Nat) (max : Option Nat) (rest : List Char) :
    Option (List Node × List Char) :=
  match repeatable items.getLast?, max.any (· < min) with
  | .item n, false =>
    let (manner, rest) := match rest with
      | '?' :: r => (Manner.reluctant, r)
      | '+' :: r => (.possessive, r)
      | r => (.greedy, r)
    some (items.dropLast ++ [.loop min max manner n], rest)
  | _, _ => none

/-! ## Patterns -/

/-- The characters of a verbose pattern that mean nothing. -/
def isLayout (c : Char) : Bool := [' ', '\t', '\n', '\r', '\x0b', '\x0c'].contains c

/-- A node for one character. -/
def charNode (f : Flags) (code : Nat) : Node :=
  .one { items := [.single code], ignoreCase := f.ignoreCase, ascii := f.ascii }

/-- The text can name a group. -/
def isGroupName (cs : List Char) : Bool :=
  match cs with
  | [] => false
  | c :: _ => !(decimalValue? c).isSome && cs.all fun c => isAlphanumeric c || c = '_'

/-- Reads up to a closing character: the text before it, and the rest. -/
def readUntil (stop : Char) (cs : List Char) : Option (List Char × List Char) :=
  match cs.dropWhile (· ≠ stop) with
  | _ :: rest => some (cs.takeWhile (· ≠ stop), rest)
  | [] => none

/-- Reads what follows a backslash outside sets. -/
def readEscape (f : Flags) (r : Reader) : Option (Node × Reader) :=
  match r.rest with
  | [] => none
  | 'A' :: rest => some (.anchor .textStart, { r with rest })
  | 'Z' :: rest => some (.anchor .textEnd, { r with rest })
  | 'b' :: rest => some (.anchor (.boundary f.ascii), { r with rest })
  | 'B' :: rest => some (.anchor (.noBoundary f.ascii), { r with rest })
  | c :: rest =>
    match namedEscape? c, classEscape? c with
    | some code, _ => some (charNode f code, { r with rest })
    | _, some item =>
      some (.one { items := [item], ignoreCase := f.ignoreCase, ascii := f.ascii },
        { r with rest })
    | none, none =>
      if c = '0' then
        let digits := (rest.take 2).takeWhile isOctal
        some (charNode f (octalValue digits), { r with rest := rest.drop digits.length })
      else if c.isDigit then
        let more := (rest.take 1).takeWhile Char.isDigit
        let octal := c :: (rest.take 2).takeWhile isOctal
        if octal.length = 3 ∧ isOctal c then
          if octalValue octal ≤ 0o377 then
            some (charNode f (octalValue octal), { r with rest := rest.drop 2 })
          else none
        else
          let number := (c :: more).foldl (fun n c => 10 * n + (c.toNat - 48)) 0
          if r.mayRefer number then
            some (.reference number f.ignoreCase f.ascii, { r with rest := rest.drop more.length })
          else none
      else do
        let (code, rest) ← readCodeEscape (c :: rest)
        some (charNode f code, { r with rest })

/-- What has to be there for the text to be a pattern. -/
def expected {α : Type} : Option α → Except Fault α
  | some x => .ok x
  | none => .error .malformed

mutual

/-- Reads branches up to the end or a closing parenthesis. Each step uses up a unit of fuel. -/
def readChoice (top : Bool) : (fuel : Nat) → Flags → Reader → Except Fault (Node × Reader)
  | 0, _, _ => .error .malformed
  | fuel + 1, f, r => do
    let (branches, r) ← readBranches top true fuel f r
    match branches with
    | [n] => .ok (n, r)
    | branches => .ok (.choice branches, r)

def readBranches (top first : Bool) : (fuel : Nat) → Flags → Reader →
    Except Fault (List Node × Reader)
  | 0, _, _ => .error .malformed
  | fuel + 1, f, r => do
    let (items, r) ← readItems (top && first) fuel f [] r
    match r.rest with
    | '|' :: rest =>
      let (branches, r) ← readBranches top false fuel (if top then r.flags else f) { r with rest }
      .ok (.seq items :: branches, r)
    | _ => .ok ([.seq items], r)

/-- Reads items up to the end of a branch. In the first branch flags for the whole pattern may
stand before any item. -/
def readItems (start : Bool) : (fuel : Nat) → Flags → List Node → Reader →
    Except Fault (List Node × Reader)
  | 0, _, _, _ => .error .malformed
  | fuel + 1, f, items, r =>
    let proceed := fun n r => readItems start fuel f (items ++ [n]) r
    match r.rest with
    | [] => .ok (items, r)
    | '|' :: _ => .ok (items, r)
    | ')' :: _ => .ok (items, r)
    | c :: rest =>
      let r := { r with rest }
      if f.verbose && isLayout c then readItems start fuel f items r
      else if f.verbose && c = '#' then
        readItems start fuel f items { r with rest := (rest.dropWhile (· ≠ '\n')).drop 1 }
      else
        match c with
        | '\\' => do
          let (n, r) ← expected (readEscape f r)
          proceed n r
        | '[' => do
          let (negated, members) := match rest with
            | '^' :: m => (true, m)
            | m => (false, m)
          let (set, rest) ← expected (readSet (members.length + 1) [] members)
          proceed (.one ⟨set, negated, f.ignoreCase, f.ascii⟩) { r with rest }
        | '.' =>
          proceed (.one { items := if f.dotAll then [] else [.single 10], negated := true }) r
        | '^' => proceed (.anchor (if f.multiline then .lineStart else .textStart)) r
        | '$' => proceed (.anchor (if f.multiline then .lineEnd else .lastLineEnd)) r
        | '*' => do
          let (items, rest) ← expected (applyRepeat items 0 none rest)
          readItems start fuel f items { r with rest }
        | '+' => do
          let (items, rest) ← expected (applyRepeat items 1 none rest)
          readItems start fuel f items { r with rest }
        | '?' => do
          let (items, rest) ← expected (applyRepeat items 0 (some 1) rest)
          readItems start fuel f items { r with rest }
        | '\x7b' => do
          match ← readBounds rest with
          | none => proceed (charNode f c.toNat) r
          | some (min, max, rest) => do
            let (items, rest) ← expected (applyRepeat items min max rest)
            readItems start fuel f items { r with rest }
        | '(' =>
          match rest with
          | '?' :: rest => readSpecial start fuel f items { r with rest }
          | _ => do
            let (n, r) ← readGroup fuel f none r
            proceed n r
        | c => proceed (charNode f c.toNat) r

/-- Reads the body of a numbered group after its parenthesis. -/
def readGroup : (fuel : Nat) → Flags → Option String → Reader → Except Fault (Node × Reader)
  | 0, _, _, _ => .error .malformed
  | fuel + 1, f, name, r => do
    let number := r.nextGroup
    let names ← match name with
      | none => .ok r.names
      | some name =>
        if r.names.any (·.1 == name) then .error .malformed else .ok ((name, number) :: r.names)
    let (body, r) ← readChoice false fuel f { r with nextGroup := number + 1, names }
    let r ← expected (r.skip? ')')
    let width := body.width r.groupWidth
    .ok (.group number body, { r with closed := (number, width) :: r.closed })

/-- Reads a group that begins with `(?`, and the items after it. -/
def readSpecial (start : Bool) : (fuel : Nat) → Flags → List Node → Reader →
    Except Fault (List Node × Reader)
  | 0, _, _, _ => .error .malformed
  | fuel + 1, f, items, r =>
    let proceed := fun n r => readItems start fuel f (items ++ [n]) r
    let bodyOf := fun (f : Flags) (rest : List Char) => do
      let (body, r) ← readChoice false fuel f { r with rest }
      .ok (body, ← expected (r.skip? ')'))
    match r.rest with
    | ':' :: rest => do
      let (body, r) ← bodyOf f rest
      proceed (.seq [body]) r
    | '>' :: rest => do
      let (body, r) ← bodyOf f rest
      proceed (.atomic body) r
    | '#' :: rest => do
      let (_, rest) ← expected (readUntil ')' rest)
      readItems start fuel f items { r with rest }
    | '=' :: rest => do
      let (body, r) ← bodyOf f rest
      proceed (.ahead false body) r
    | '!' :: rest => do
      let (body, r) ← bodyOf f rest
      proceed (.ahead true body) r
    | '<' :: sign :: rest =>
      if sign = '=' ∨ sign = '!' then do
        let outer := r.lookbehind
        let inner := if outer = none then some r.nextGroup else outer
        let (body, r) ← readChoice false fuel f { r with rest, lookbehind := inner }
        let r ← expected (Reader.skip? ')' { r with lookbehind := outer })
        let width := body.width r.groupWidth
        if width.max = some width.min then
          proceed (.behind (sign = '!') width.min body) r
        else .error .malformed
      else .error .malformed
    | 'P' :: '<' :: rest => do
      let (name, rest) ← expected (readUntil '>' rest)
      if isGroupName name then do
        let (n, r) ← readGroup fuel f (some (String.ofList name)) { r with rest }
        proceed n r
      else .error .malformed
    | 'P' :: '=' :: rest => do
      let (name, rest) ← expected (readUntil ')' rest)
      let number ← expected ((r.names.find? (·.1 == String.ofList name)).map Prod.snd)
      if r.mayRefer number then
        proceed (.reference number f.ignoreCase f.ascii) { r with rest }
      else .error .malformed
    | '(' :: rest => do
      let (name, rest) ← expected (readUntil ')' rest)
      let number ← expected <|
        if name ≠ [] ∧ name.all Char.isDigit then
          some (name.foldl (fun n c => 10 * n + (c.toNat - 48)) 0)
        else (r.names.find? (·.1 == String.ofList name)).map Prod.snd
      if number = 0 ∨ (r.lookbehind.isSome ∧ ¬ r.mayRefer number) then .error .malformed
      else do
        let r := { r with rest, awaited := number :: r.awaited }
        let (yes, r) ← readItems false fuel f [] r
        let (no, r) ← match r.rest with
          | '|' :: rest => readItems false fuel f [] { r with rest }
          | _ => .ok ([], r)
        let r ← expected (r.skip? ')')
        proceed (.conditional number (.seq yes) (.seq no)) r
    | rest => do
      let (group, rest) ← expected (readFlags rest)
      let f' ← expected ((f.switchAll true group.on).bind (·.switchAll false group.off))
      if group.whole then
        if start ∧ items = [] then
          readItems start fuel f' items { r with rest, flags := f' }
        else .error .malformed
      else do
        let (body, r) ← bodyOf f' rest
        proceed (.seq [body]) r

end

/-- The tree of a pattern. -/
def parse (s : String) : Except Fault Node := do
  let cs := s.toList
  let (n, r) ← readChoice true (8 * cs.length + 16) {} { rest := cs }
  if r.rest = [] ∧ r.awaited.all (· < r.nextGroup) then .ok n else .error .malformed

/-- The search of patterns that are read so. -/
def search : Search := fun pattern text => (parse pattern).map fun n => occurs n text

end LiveForm.Pattern
