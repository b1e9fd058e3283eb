import LiveForm.Json.Basic

/-!
# Reading JSON

The reader accepts JSON and the names `NaN`, `Infinity` and `-Infinity`. A leading byte-order mark
is an error, as is anything after the value but white space. Texts are made of characters, so that
an escaped surrogate without its partner is an error too.

* `Json.parse`: the tree of a text.
* `Value.ofJsonText`: its value.
-/

namespace LiveForm

/-- Why a text is not read. -/
inductive Json.Unreadable where
  | malformed
  /-- An integer has more digits than are converted. -/
  | hugeInteger
  /-- An escaped surrogate is not one of a pair, so that there is no character for it. -/
  | loneSurrogate
  deriving DecidableEq

namespace Json

/-- The label of the NaNs that JSON texts name. -/
def nanLabel : Nat := 0

def isWhite (c : Char) : Bool := c == ' ' || c == '\t' || c == '\n' || c == '\r'

def skipWhite (cs : List Char) : List Char := cs.dropWhile isWhite

/-- Removes an expected run of characters. -/
def expect : List Char → List Char → Except Unreadable (List Char)
  | [], cs => .ok cs
  | x :: xs, c :: cs => if c = x then expect xs cs else .error .malformed
  | _ :: _, [] => .error .malformed

/-! ## Texts -/

/-- The value of a hexadecimal digit. -/
def hexValue? (c : Char) : Option Nat :=
  if '0' ≤ c ∧ c ≤ '9' then some (c.toNat - 48)
  else if 'a' ≤ c ∧ c ≤ 'f' then some (c.toNat - 87)
  else if 'A' ≤ c ∧ c ≤ 'F' then some (c.toNat - 55)
  else none

/-- The value of four hexadecimal digits. -/
def hexQuad? (a b c d : Char) : Option Nat := do
  some ((((← hexValue? a) * 16 + (← hexValue? b)) * 16 + (← hexValue? c)) * 16 + (← hexValue? d))

/-- The character that a letter after a backslash stands for. -/
def unescape? (c : Char) : Option Char :=
  match c with
  | '"' => some '"'
  | '\\' => some '\\'
  | '/' => some '/'
  | 'b' => some '\x08'
  | 'f' => some '\x0c'
  | 'n' => some '\n'
  | 'r' => some '\r'
  | 't' => some '\t'
  | _ => none

/-- The codes of a text up to its closing quote. Escaped surrogates stay apart. -/
def readCodes : List Char → Except Unreadable (List Nat × List Char)
  | [] => .error .malformed
  | '"' :: cs => .ok ([], cs)
  | '\\' :: 'u' :: a :: b :: c :: d :: cs => do
    let some code := hexQuad? a b c d | .error .malformed
    let (codes, rest) ← readCodes cs
    .ok (code :: codes, rest)
  | '\\' :: c :: cs => do
    let some e := unescape? c | .error .malformed
    let (codes, rest) ← readCodes cs
    .ok (e.toNat :: codes, rest)
  | c :: cs =>
    if c.toNat < 32 then .error .malformed
    else do
      let (codes, rest) ← readCodes cs
      .ok (c.toNat :: codes, rest)

def isHighSurrogate (code : Nat) : Bool := 0xD800 ≤ code && code < 0xDC00

def isLowSurrogate (code : Nat) : Bool := 0xDC00 ≤ code && code < 0xE000

/-- The character of a code, unless it is a surrogate. -/
def charOf (code : Nat) : Except Unreadable Char :=
  if isHighSurrogate code || isLowSurrogate code then .error .loneSurrogate
  else .ok (Char.ofNat code)

/-- The characters of codes: a high and a low surrogate make one character. -/
def joinSurrogates : List Nat → Except Unreadable (List Char)
  | [] => .ok []
  | [a] => do .ok [← charOf a]
  | a :: b :: rest =>
    if isHighSurrogate a && isLowSurrogate b then do
      .ok (Char.ofNat (0x10000 + (a - 0xD800) * 0x400 + (b - 0xDC00)) :: (← joinSurrogates rest))
    else do
      .ok ((← charOf a) :: (← joinSurrogates (b :: rest)))

/-- Reads a text after its opening quote. -/
def readText (cs : List Char) : Except Unreadable (String × List Char) := do
  let (codes, rest) ← readCodes cs
  .ok (String.ofList (← joinSurrogates codes), rest)

/-! ## Numbers -/

/-- Splits off a fraction: a point and at least one digit. -/
def splitFraction (cs : List Char) : List Char × List Char :=
  match cs with
  | '.' :: r => if (spanDigits r).1 = [] then ([], cs) else spanDigits r
  | _ => ([], cs)

/-- Splits off an exponent: a letter, perhaps a sign, and at least one digit. -/
def splitExponent (cs : List Char) : Option Int × List Char :=
  match cs with
  | e :: r =>
    if e = 'e' ∨ e = 'E' then
      let (negative, ds) := splitSign r
      let (digits, rest) := spanDigits ds
      if digits = [] then (none, cs)
      else (some (if negative then -(digitsValue digits : Int) else digitsValue digits), rest)
    else (none, cs)
  | [] => (none, cs)

/-- Reads a number without its sign. Without a fraction and an exponent it is an integer, which
may have a limited number of digits. -/
def readNumber (limit : Nat) (negative : Bool) (cs : List Char) :
    Except Unreadable (Json × List Char) :=
  let (whole, rest) := match cs with
    | '0' :: r => (['0'], r)
    | _ => spanDigits cs
  if whole = [] then .error .malformed
  else
    let (fraction, rest) := splitFraction rest
    let (exponent, rest) := splitExponent rest
    if fraction = [] ∧ exponent = none then
      if limit < whole.length then .error .hugeInteger
      else .ok (int (if negative then -(digitsValue whole : Int) else digitsValue whole), rest)
    else .ok (float (decimalNumber negative whole fraction (exponent.getD 0)), rest)

/-- Reads a value that is neither an array nor an object. -/
def readScalar (limit : Nat) : List Char → Except Unreadable (Json × List Char)
  | '"' :: r => do
    let (s, rest) ← readText r
    .ok (text s, rest)
  | 'n' :: r => do .ok (null, ← expect "ull".toList r)
  | 't' :: r => do .ok (bool true, ← expect "rue".toList r)
  | 'f' :: r => do .ok (bool false, ← expect "alse".toList r)
  | 'N' :: r => do .ok (float (.nan nanLabel), ← expect "aN".toList r)
  | 'I' :: r => do .ok (float (.infinite false), ← expect "nfinity".toList r)
  | '-' :: 'I' :: r => do .ok (float (.infinite true), ← expect "nfinity".toList r)
  | '-' :: r => readNumber limit true r
  | cs => readNumber limit false cs

/-! ## Trees -/

mutual

/-- Reads a value. Each step uses up a unit of fuel; the length of the text is enough. -/
def readValue (limit : Nat) : Nat → List Char → Except Unreadable (Json × List Char)
  | 0, _ => .error .malformed
  | fuel + 1, cs =>
    match cs with
    | '[' :: r =>
      match skipWhite r with
      | ']' :: r => .ok (array [], r)
      | r => do
        let (items, rest) ← readItems limit fuel r
        .ok (array items, rest)
    | '\x7b' :: r =>
      match skipWhite r with
      | '\x7d' :: r => .ok (object [], r)
      | r => do
        let (members, rest) ← readMembers limit fuel r
        .ok (object members, rest)
    | cs => readScalar limit cs

/-- Reads the members of an array up to its bracket. -/
def readItems (limit : Nat) : Nat → List Char → Except Unreadable (List Json × List Char)
  | 0, _ => .error .malformed
  | fuel + 1, cs => do
    let (item, rest) ← readValue limit fuel cs
    match skipWhite rest with
    | ']' :: r => .ok ([item], r)
    | ',' :: r =>
      let (items, rest) ← readItems limit fuel (skipWhite r)
      .ok (item :: items, rest)
    | _ => .error .malformed

/-- Reads the members of an object up to its brace. -/
def readMembers (limit : Nat) :
    Nat → List Char → Except Unreadable (List (String × Json) × List Char)
  | 0, _ => .error .malformed
  | fuel + 1, cs =>
    match cs with
    | '"' :: r => do
      let (name, rest) ← readText r
      let rest ← expect [':'] (skipWhite rest)
      let (value, rest) ← readValue limit fuel (skipWhite rest)
      match skipWhite rest with
      | '\x7d' :: r => .ok ([(name, value)], r)
      | ',' :: r =>
        let (members, rest) ← readMembers limit fuel (skipWhite r)
        .ok ((name, value) :: members, rest)
      | _ => .error .malformed
    | _ => .error .malformed

end

/-- The tree of a text. -/
def parse (s : String) : Except Unreadable Json := do
  let cs := s.toList
  let (j, rest) ← readValue digitLimit (2 * cs.length + 2) (skipWhite cs)
  if skipWhite rest = [] then .ok j else .error .malformed

end Json

/-- The value of a JSON text. -/
def Value.ofJsonText (s : String) : Except Json.Unreadable Value := (Json.parse s).map Json.toValue

end LiveForm
