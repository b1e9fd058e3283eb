import LiveForm.Text.Class

/-!
# Patterns

A pattern describes texts by characters, classes, repetition, choice, groups, references to
groups, and conditions on the neighbourhood.

* `Pattern.Node`: the syntax tree.
* `Pattern.CharTest.accepts`: which characters a one-character node matches.
* `Pattern.Node.width`: the least and the greatest length of a match.
-/

namespace LiveForm.Pattern

/-! ## Characters -/

/-- A class of characters. -/
inductive CharClass where
  | digit | space | word
  deriving DecidableEq

/-- The character belongs to a class; with `ascii` only ASCII characters do. -/
def CharClass.holds (k : CharClass) (ascii : Bool) (c : Char) : Bool :=
  (!ascii || c.toNat < 128) &&
    match k with
    | digit => (decimalValue? c).isSome
    | space => isSpace c && (!ascii || c.toNat < 28 || c = ' ')
    | word => isAlphanumeric c || c = '_'

/-- A member of a set of characters. -/
inductive CharItem where
  | single (code : Nat)
  | range (low high : Nat)
  | cls (kind : CharClass) (negated : Bool)
  deriving DecidableEq

/-- The test of a one-character node. -/
structure CharTest where
  items : List CharItem
  negated : Bool := false
  ignoreCase : Bool := false
  ascii : Bool := false
  deriving DecidableEq

/-- The lower case under which characters are compared. -/
def foldCase (ascii : Bool) (c : Char) : Char :=
  if ascii then (if 'A' ≤ c ∧ c ≤ 'Z' then Char.ofNat (c.toNat + 32) else c) else lowerCase c

/-- The codes of all cases of a letter. -/
def caseVariants (ascii : Bool) (c : Char) : List Nat :=
  let l := foldCase ascii c
  if ascii then
    if 'a' ≤ l ∧ l ≤ 'z' then [l.toNat, l.toNat - 32] else [l.toNat]
  else
    let key := caseKey c
    let lowers := key ::
      ((sharedCases.find? fun (k, _) => k = key).map Prod.snd).getD []
    lowers ++ lowers.flatMap fun l => lowerCaseRuns.filterMap fun (first, last, step, shift) =>
      let u := ((l : Int) - shift).toNat
      if first ≤ u ∧ u ≤ last ∧ (u - first) % step = 0 then some u else none

/-- An item holds for a character in one of the given cases. -/
def CharItem.holds (ascii : Bool) (c : Char) (codes : List Nat) : CharItem → Bool
  | single code => codes.contains code
  | range low high => codes.any fun u => low ≤ u && u ≤ high
  | cls kind negated => kind.holds ascii c != negated

/-- The characters that a one-character node matches. -/
def CharTest.accepts (t : CharTest) (c : Char) : Bool :=
  let codes := if t.ignoreCase then caseVariants t.ascii c else [c.toNat]
  let c := if t.ignoreCase then foldCase t.ascii c else c
  t.items.any (·.holds t.ascii c codes) != t.negated

/-! ## Trees -/

/-- A place in the text. -/
inductive Anchor where
  | textStart | lineStart | textEnd | lineEnd
  /-- The end of the text, or just before a line break that ends it. -/
  | lastLineEnd
  | boundary (ascii : Bool) | noBoundary (ascii : Bool)
  deriving DecidableEq

/-- Which numbers of repetitions are tried first, and whether others are tried at all. -/
inductive Manner where
  | greedy | reluctant | possessive
  deriving DecidableEq

/-- A pattern as a tree. -/
inductive Node where
  | one (test : CharTest)
  | anchor (a : Anchor)
  | seq (items : List Node)
  | choice (branches : List Node)
  | group (number : Nat) (body : Node)
  | loop (min : Nat) (max : Option Nat) (manner : Manner) (body : Node)
  | ahead (negated : Bool) (body : Node)
  | behind (negated : Bool) (width : Nat) (body : Node)
  | atomic (body : Node)
  | reference (number : Nat) (ignoreCase ascii : Bool)
  | conditional (number : Nat) (yes no : Node)
  deriving Inhabited

/-! ## Widths -/

/-- The least and the greatest length of a match; `none` when there is no greatest. -/
structure Width where
  min : Nat
  max : Option Nat
  deriving DecidableEq, Inhabited

namespace Width

def zero : Width := ⟨0, some 0⟩

/-- One match after another. -/
def add (a b : Width) : Width :=
  ⟨a.min + b.min, do some ((← a.max) + (← b.max))⟩

/-- One match or another. -/
def either (a b : Width) : Width :=
  ⟨Nat.min a.min b.min, do some (Nat.max (← a.max) (← b.max))⟩

/-- A match repeated. -/
def times (w : Width) (min : Nat) (max : Option Nat) : Width :=
  ⟨w.min * min, if w.max = some 0 then some 0 else do some ((← w.max) * (← max))⟩

end Width

mutual

/-- The width of a node, given those of the groups. -/
def Node.width (groups : Nat → Width) : Node → Width
  | .one _ => ⟨1, some 1⟩
  | .anchor _ | .ahead .. | .behind .. => .zero
  | .seq items => widthAll groups items
  | .choice branches => widthAny groups branches
  | .group _ body | .atomic body => body.width groups
  | .loop min max _ body => (body.width groups).times min max
  | .reference number _ _ => groups number
  | .conditional _ yes no => (yes.width groups).either (no.width groups)

def widthAll (groups : Nat → Width) : List Node → Width
  | [] => .zero
  | n :: ns => (n.width groups).add (widthAll groups ns)

def widthAny (groups : Nat → Width) : List Node → Width
  | [] => .zero
  | [n] => n.width groups
  | n :: ns => (n.width groups).either (widthAny groups ns)

end

end LiveForm.Pattern
