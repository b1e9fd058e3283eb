import LiveForm.Json.Basic
import LiveForm.Value.Literal

/-!
# Writing JSON

Characters beyond ASCII stand for themselves; a quote, a backslash and the ASCII controls are
escaped.

* `Json.compact`: the text without white space.
* `Json.indented`: the text with two spaces of indentation.
* `canonicalJson`: the compact text of a value with sorted keys, one text for all orders.
-/

namespace LiveForm

namespace Json

/-! ## Texts -/

/-- A character in a JSON text. -/
def escape (c : Char) : List Char :=
  match c with
  | '"' => ['\\', '"']
  | '\\' => ['\\', '\\']
  | '\n' => ['\\', 'n']
  | '\r' => ['\\', 'r']
  | '\t' => ['\\', 't']
  | '\x08' => ['\\', 'b']
  | '\x0c' => ['\\', 'f']
  | c => if c.toNat < 32 then '\\' :: 'u' :: (hexText 4 c.toNat).toList else [c]

/-- A text in quotes. -/
def quoteChars (s : String) : List Char := '"' :: s.toList.flatMap escape ++ ['"']

/-- Runs of characters joined by a separator. -/
def joinChars (separator : List Char) : List (List Char) → List Char
  | [] => []
  | [x] => x
  | x :: xs => x ++ separator ++ joinChars separator xs

/-! ## The compact text -/

mutual

/-- The characters of the compact text. -/
def compactChars : Json → List Char
  | null => "null".toList
  | bool true => "true".toList
  | bool false => "false".toList
  | int n => (toString n).toList
  | float x => (x.write numberLayout).toList
  | text s => quoteChars s
  | array items => '[' :: joinChars [','] (compactItems items) ++ [']']
  | object members => '\x7b' :: joinChars [','] (compactMembers members) ++ ['\x7d']

/-- The compact texts of the members of an array. -/
def compactItems : List Json → List (List Char)
  | [] => []
  | j :: js => compactChars j :: compactItems js

/-- The compact texts of the members of an object. -/
def compactMembers : List (String × Json) → List (List Char)
  | [] => []
  | (k, j) :: ms => (quoteChars k ++ ':' :: compactChars j) :: compactMembers ms

end

/-- The text without white space. -/
def compact (j : Json) : String := String.ofList (compactChars j)

/-! ## The indented text -/

/-- A new line at a depth of indentation. -/
def newLine (depth : Nat) : List Char := '\n' :: List.replicate (2 * depth) ' '

/-- Members between brackets, each on a line of its own; nothing between them when there are
none. -/
def block (opening closing : Char) (depth : Nat) (items : List (List Char)) : List Char :=
  if items.isEmpty then [opening, closing]
  else opening :: newLine (depth + 1) ++ joinChars (',' :: newLine (depth + 1)) items
    ++ newLine depth ++ [closing]

mutual

/-- The characters of the indented text at a depth. -/
def indentedChars (depth : Nat) : Json → List Char
  | array items => block '[' ']' depth (indentedItems (depth + 1) items)
  | object members => block '\x7b' '\x7d' depth (indentedMembers (depth + 1) members)
  | null => compactChars null
  | bool b => compactChars (bool b)
  | int n => compactChars (int n)
  | float x => compactChars (float x)
  | text s => compactChars (text s)

/-- The indented texts of the members of an array. -/
def indentedItems (depth : Nat) : List Json → List (List Char)
  | [] => []
  | j :: js => indentedChars depth j :: indentedItems depth js

/-- The indented texts of the members of an object. -/
def indentedMembers (depth : Nat) : List (String × Json) → List (List Char)
  | [] => []
  | (k, j) :: ms => (quoteChars k ++ ':' :: ' ' :: indentedChars depth j)
      :: indentedMembers depth ms

end

/-- The text with two spaces of indentation. -/
def indented (j : Json) : String := String.ofList (indentedChars 0 j)

end Json

/-- The compact JSON text of a value with sorted keys. -/
def canonicalJson (v : Value) : Except Unwritable String := (Json.ofValue true v).map Json.compact

end LiveForm
