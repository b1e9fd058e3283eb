import LiveForm.Pattern.Basic

/-!
# Matching

A node leads from a state, a place in the text with the groups so far, to the states after each
of its matches, the preferred ones first. A state that is reached twice counts once.

* `Pattern.Node.run`: the states after the matches of a node.
* `Pattern.occurs`: a match begins somewhere in a text.
-/

namespace LiveForm.Pattern

/-- A place in the text, and the texts of the groups that have matched. -/
structure State where
  /-- What comes before the place, last character first. -/
  before : List Char
  after : List Char
  groups : List (Nat × List Char)

namespace State

/-- What tells apart the states of one text. -/
abbrev Mark := Nat × List (Nat × List Char)

def mark (s : State) : Mark := (s.after.length, s.groups)

/-- The text of a group. -/
def group? (s : State) (number : Nat) : Option (List Char) :=
  (s.groups.find? (·.1 == number)).map Prod.snd

/-- The state with the text of a group. The groups stay in order of their numbers. -/
def setGroup (s : State) (number : Nat) (text : List Char) : State :=
  { s with groups :=
      s.groups.filter (·.1 < number) ++ (number, text) :: s.groups.filter (number < ·.1) }

/-- The state after the next `n` characters. -/
def forward (n : Nat) (s : State) : State :=
  { s with before := (s.after.take n).reverse ++ s.before, after := s.after.drop n }

/-- The state before the last `n` characters, if there are as many. -/
def back? (n : Nat) (s : State) : Option State :=
  if s.before.length < n then none
  else some { s with before := s.before.drop n, after := (s.before.take n).reverse ++ s.after }

/-- The text between a state and a later one. -/
def textUntil (s t : State) : List Char := s.after.take (s.after.length - t.after.length)

end State

/-- The states without those that occurred before. -/
def distinctStates (states : List State) : List State :=
  (states.foldl (fun (acc : List State.Mark × List State) s =>
    if acc.1.contains s.mark then acc else (s.mark :: acc.1, s :: acc.2)) ([], [])).2.reverse

/-! ## Places -/

/-- The next character is one of a word. -/
def wordAt (ascii : Bool) (cs : List Char) : Bool :=
  match cs with
  | [] => false
  | c :: _ => CharClass.word.holds ascii c

/-- The anchor holds at a place. In the empty text there is no word boundary, and no place that
is not one. -/
def Anchor.holds (s : State) : Anchor → Bool
  | textStart => s.before.isEmpty
  | lineStart => s.before.isEmpty || s.before.head? = some '\n'
  | textEnd => s.after.isEmpty
  | lineEnd => s.after.isEmpty || s.after.head? = some '\n'
  | lastLineEnd => s.after.isEmpty || s.after = ['\n']
  | boundary ascii => wordAt ascii s.before != wordAt ascii s.after
  | noBoundary ascii =>
    !(s.before.isEmpty && s.after.isEmpty) && wordAt ascii s.before == wordAt ascii s.after

/-! ## Repetition -/

/-- The states found by a repetition, and those it has been through. -/
structure Sweep where
  seen : List (State.Mark × Option Nat) := []
  /-- The states found, last one first. -/
  found : List State := []

/-- Goes through the further repetitions of a body from a state. `budget` bounds their number;
each must advance, so the length of the text is enough fuel. -/
def sweep (body : State → List State) (greedy : Bool) :
    (fuel : Nat) → (budget : Option Nat) → State → Sweep → Sweep
  | 0, _, _, w => w
  | fuel + 1, budget, s, w =>
    if w.seen.contains (s.mark, budget) then w
    else
      let w := { w with seen := (s.mark, budget) :: w.seen }
      let w := if greedy then w else { w with found := s :: w.found }
      let w :=
        if budget = some 0 then w
        else (body s).foldl (fun w t =>
          if t.after.length < s.after.length then
            sweep body greedy fuel (budget.map (· - 1)) t w
          else w) w
      if greedy then { w with found := s :: w.found } else w

/-- The states after exactly `n` matches of a body. -/
def repeatExactly (body : State → List State) : (n : Nat) → List State → List State
  | 0, states => states
  | _ + 1, [] => []
  | n + 1, states => repeatExactly body n (distinctStates (states.flatMap body))

/-- The states after the repetitions of a body. -/
def repeatBody (body : State → List State) (min : Nat) (max : Option Nat) (manner : Manner)
    (s : State) : List State :=
  let states := (repeatExactly body min [s]).flatMap fun t =>
    (sweep body (manner ≠ .reluctant) (t.after.length + 1) (max.map (· - min)) t {}).found.reverse
  let states := distinctStates states
  if manner = .possessive then states.take 1 else states

/-! ## Nodes -/

mutual

/-- The states after the matches of a node, the preferred ones first. -/
def Node.run : Node → State → List State
  | .one test, s =>
    match s.after with
    | [] => []
    | c :: _ => if test.accepts c then [s.forward 1] else []
  | .anchor a, s => if a.holds s then [s] else []
  | .seq items, s => runAll items [s]
  | .choice branches, s => distinctStates (runAny branches s)
  | .group number body, s =>
    (body.run s).map fun t => t.setGroup number (s.textUntil t)
  | .loop min max manner body, s => repeatBody body.run min max manner s
  | .ahead negated body, s =>
    match body.run s with
    | [] => if negated then [s] else []
    | t :: _ => if negated then [] else [{ s with groups := t.groups }]
  | .behind negated width body, s =>
    match (s.back? width).map body.run with
    | some (t :: _) => if negated then [] else [{ s with groups := t.groups }]
    | _ => if negated then [s] else []
  | .atomic body, s => (body.run s).take 1
  | .reference number ignoreCase ascii, s =>
    match s.group? number with
    | none => []
    | some text =>
      let next := s.after.take text.length
      let key := fun c => if ignoreCase then foldCase ascii c else c
      if next.map key = text.map key then [s.forward text.length] else []
  | .conditional number yes no, s =>
    if (s.group? number).isSome then yes.run s else no.run s

/-- The states after nodes in sequence. -/
def runAll : List Node → List State → List State
  | [], states => states
  | n :: ns, states => runAll ns (distinctStates (states.flatMap n.run))

/-- The states after any one of several nodes. -/
def runAny : List Node → State → List State
  | [], _ => []
  | n :: ns, s => n.run s ++ runAny ns s

end

/-! ## Texts -/

/-- A match begins at one of the places from here on. -/
def occursFrom (n : Node) (before : List Char) : List Char → Bool
  | [] => !(n.run ⟨before, [], []⟩).isEmpty
  | c :: cs => !(n.run ⟨before, c :: cs, []⟩).isEmpty || occursFrom n (c :: before) cs

/-- A match begins somewhere in a text. -/
def occurs (n : Node) (text : String) : Bool := occursFrom n [] text.toList

end LiveForm.Pattern
