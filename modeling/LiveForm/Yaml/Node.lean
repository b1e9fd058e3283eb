import LiveForm.Yaml.Token

/-!
# Nodes of YAML texts

A text holds one document at most. Its nodes are scalars, sequences and mappings; plain scalars
become values by the way they are written, quoted ones are texts.

* `Node`: a node of a document, `Node.value` its value.
* `Value.ofYamlText`: the value of a text; null when there is no document.
-/

namespace LiveForm

namespace Yaml

/-- A node of a document. -/
inductive Node where
  | scalar (plain : Bool) (text : String)
  | sequence (items : List Node)
  | mapping (entries : List (Node × Node))
  /-- A node of a named type. -/
  | tagged (name : String) (node : Node)

/-- The node that is not written. -/
def Node.empty : Node := .scalar true ""

/-! ## From tokens to nodes -/

/-- The first token is one of some. -/
def nextIs (these : List Token) (ts : List Token) : Bool :=
  (ts.head?.map these.contains).getD true

mutual

/-- Reads a node. In block context collections may begin by indentation; the value of a key may be
a sequence that is indented like the key. Each step uses up a unit of fuel. -/
def readNode : (fuel : Nat) → (block indentless : Bool) → List Token →
    Except Unreadable (Node × List Token)
  | 0, _, _, _ => .error .malformed
  | fuel + 1, block, indentless, ts =>
    match ts with
    | .tag name :: ts => do
      let (node, ts) ← readNode fuel block indentless ts
      .ok (.tagged name node, ts)
    | .scalar plain text :: ts => .ok (.scalar plain text, ts)
    | .flowSequenceStart :: ts => do
      let (items, ts) ← readFlowItems fuel true ts
      .ok (.sequence items, ts)
    | .flowMappingStart :: ts => do
      let (entries, ts) ← readFlowEntries fuel true ts
      .ok (.mapping entries, ts)
    | .blockEntry :: ts =>
      if indentless then do
        let (items, ts) ← readDashes fuel true (.blockEntry :: ts)
        .ok (.sequence items, ts)
      else .error .malformed
    | .blockSequenceStart :: ts =>
      if block then do
        let (items, ts) ← readDashes fuel false ts
        match ts with
        | .blockEnd :: ts => .ok (.sequence items, ts)
        | _ => .error .malformed
      else .error .malformed
    | .blockMappingStart :: ts =>
      if block then do
        let (entries, ts) ← readBlockEntries fuel ts
        .ok (.mapping entries, ts)
      else .error .malformed
    | _ => .error .malformed

/-- Reads a node unless one of some tokens comes, before which it is empty. -/
def readNodeUnless : (fuel : Nat) → (stops : List Token) → (block indentless : Bool) →
    List Token → Except Unreadable (Node × List Token)
  | 0, _, _, _, _ => .error .malformed
  | fuel + 1, stops, block, indentless, ts =>
    if nextIs stops ts then .ok (.empty, ts) else readNode fuel block indentless ts

/-- Reads the members of a sequence that dashes begin. -/
def readDashes : (fuel : Nat) → (indentless : Bool) → List Token →
    Except Unreadable (List Node × List Token)
  | 0, _, _ => .error .malformed
  | fuel + 1, indentless, ts =>
    match ts with
    | .blockEntry :: ts => do
      let stops := if indentless then [.blockEntry, .key, .value, .blockEnd]
        else [.blockEntry, .blockEnd]
      let (item, ts) ← readNodeUnless fuel stops true false ts
      let (items, ts) ← readDashes fuel indentless ts
      .ok (item :: items, ts)
    | ts => .ok ([], ts)

/-- Reads the entries of a block mapping and its end. -/
def readBlockEntries :
    (fuel : Nat) → List Token → Except Unreadable (List (Node × Node) × List Token)
  | 0, _ => .error .malformed
  | fuel + 1, ts =>
    match ts with
    | .key :: ts => do
      let (key, ts) ← readNodeUnless fuel [.key, .value, .blockEnd] true true ts
      let (value, ts) ← match ts with
        | .value :: ts => readNodeUnless fuel [.key, .value, .blockEnd] true true ts
        | ts => .ok (.empty, ts)
      let (entries, ts) ← readBlockEntries fuel ts
      .ok ((key, value) :: entries, ts)
    | .blockEnd :: ts => .ok ([], ts)
    | _ => .error .malformed

/-- Reads the value of an entry between brackets, if there is one. -/
def readFlowValue : (fuel : Nat) → (closing : Token) → List Token →
    Except Unreadable (Node × List Token)
  | 0, _, _ => .error .malformed
  | fuel + 1, closing, ts =>
    match ts with
    | .value :: ts => readNodeUnless fuel [.flowEntry, closing] false false ts
    | ts => .ok (.empty, ts)

/-- Reads the members of a sequence between brackets, and the closing one. A member may be a
mapping of one entry without brackets of its own. -/
def readFlowItems : (fuel : Nat) → (first : Bool) → List Token →
    Except Unreadable (List Node × List Token)
  | 0, _, _ => .error .malformed
  | fuel + 1, first, ts =>
    match ts with
    | .flowSequenceEnd :: ts => .ok ([], ts)
    | ts => do
      let ts ← match first, ts with
        | true, ts => .ok ts
        | false, .flowEntry :: ts => .ok ts
        | false, _ => .error .malformed
      match ts with
      | .flowSequenceEnd :: ts => .ok ([], ts)
      | .key :: ts =>
        let (key, ts) ← readNodeUnless fuel [.value, .flowEntry, .flowSequenceEnd] false false ts
        let (value, ts) ← readFlowValue fuel .flowSequenceEnd ts
        let (items, ts) ← readFlowItems fuel false ts
        .ok (.mapping [(key, value)] :: items, ts)
      | ts =>
        let (item, ts) ← readNode fuel false false ts
        let (items, ts) ← readFlowItems fuel false ts
        .ok (item :: items, ts)

/-- Reads the entries of a mapping between braces, and the closing one. An entry may be a key
only. -/
def readFlowEntries : (fuel : Nat) → (first : Bool) → List Token →
    Except Unreadable (List (Node × Node) × List Token)
  | 0, _, _ => .error .malformed
  | fuel + 1, first, ts =>
    match ts with
    | .flowMappingEnd :: ts => .ok ([], ts)
    | ts => do
      let ts ← match first, ts with
        | true, ts => .ok ts
        | false, .flowEntry :: ts => .ok ts
        | false, _ => .error .malformed
      match ts with
      | .flowMappingEnd :: ts => .ok ([], ts)
      | .key :: ts =>
        let (key, ts) ← readNodeUnless fuel [.value, .flowEntry, .flowMappingEnd] false false ts
        let (value, ts) ← readFlowValue fuel .flowMappingEnd ts
        let (entries, ts) ← readFlowEntries fuel false ts
        .ok ((key, value) :: entries, ts)
      | ts =>
        let (key, ts) ← readNode fuel false false ts
        let (entries, ts) ← readFlowEntries fuel false ts
        .ok ((key, .empty) :: entries, ts)

end

/-! ## Documents -/

/-- Passes the ends of documents. -/
def passEnds (ts : List Token) : List Token := ts.dropWhile (· = .documentEnd)

/-- Reads the node of the only document. -/
def readDocument (ts : List Token) : Except Unreadable (Option Node) := do
  let fuel := 4 * ts.length + 4
  let content : List Token → Except Unreadable (Node × List Token) :=
    readNodeUnless fuel [.documentStart, .documentEnd] true false
  let finish : Node × List Token → Except Unreadable (Option Node) := fun (node, ts) =>
    match passEnds ts with
    | [] => .ok (some node)
    | _ => .error .malformed
  match ts with
  | [] => .ok none
  | .documentStart :: ts => finish (← content ts)
  | ts => finish (← readNode fuel true false ts)

/-! ## From nodes to values -/

/-- The node is the key that merges. -/
def Node.isMerge : Node → Bool
  | .scalar true "<<" => true
  | _ => false

/-- The node is the key `=`, which stands for itself. -/
def Node.isDefault : Node → Bool
  | .scalar true "=" => true
  | _ => false

/-- The entries of a value that is merged into a mapping: a mapping, or a list of mappings of which
earlier ones count more. -/
def mergedEntries : Value → Except Unreadable Entries
  | .map entries => .ok entries
  | .list items => do
    let parts ← items.mapM fun
      | .map entries => .ok entries
      | _ => .error .malformed
    .ok parts.reverse.flatten
  | _ => .error .malformed

/-- The value of a digit of base 64. -/
def value64? (c : Char) : Option Nat :=
  if 'A' ≤ c ∧ c ≤ 'Z' then some (c.toNat - 65)
  else if 'a' ≤ c ∧ c ≤ 'z' then some (c.toNat - 71)
  else if c.isDigit then some (c.toNat + 4)
  else if c = '+' then some 62
  else if c = '/' then some 63
  else none

/-- The bytes that digits of base 64 write, four by four. -/
def bytes64? : List Nat → Option (List UInt8)
  | a :: b :: c :: d :: rest => do
    let n := ((a * 64 + b) * 64 + c) * 64 + d
    some ([n / 65536, n / 256, n].map UInt8.ofNat ++ (← bytes64? rest))
  | [a, b, c] =>
    let n := (a * 64 + b) * 64 + c
    some ([n / 1024, n / 4].map UInt8.ofNat)
  | [a, b] => some [UInt8.ofNat ((a * 64 + b) / 16)]
  | [_] => none
  | [] => some []

/-- The bytes that a text in base 64 writes. Other characters are passed over, and the padding
must fill up four digits. -/
def readBytes? (s : String) : Option (List UInt8) :=
  let digits := s.toList.filterMap value64?
  let padding := (s.toList.filter (· == '=')).length
  if digits.length % 4 = 0 ∨ (digits.length % 4 + padding) = 4 then bytes64? digits else none

/-- The value of a node of a named type, given the value of the node. -/
def typedValue (name : String) (v : Value) : Except Unreadable Value :=
  match name, v with
  | "set", .map entries => .ok (.set (entries.map Prod.fst))
  | "binary", .text s =>
    match readBytes? s with
    | some bs => .ok (.bytes bs)
    | none => .error .malformed
  | _, _ => .error .malformed

mutual

/-- The value of a node. Of equal keys the last counts. -/
def Node.value : Node → Except Unreadable Value
  | .scalar true text => plainValue text
  | .scalar false text => .ok (.text text)
  | .sequence items => do .ok (.list (← nodeValues items))
  | .tagged name node => do typedValue name (← node.value)
  | .mapping entries => do
    let (merged, own) ← entryValues entries
    .ok (.map (Value.collect (merged ++ own)))

def nodeValues : List Node → Except Unreadable (List Value)
  | [] => .ok []
  | n :: ns => do .ok ((← n.value) :: (← nodeValues ns))

/-- The entries that a mapping merges, and its own. -/
def entryValues : List (Node × Node) → Except Unreadable (Entries × Entries)
  | [] => .ok ([], [])
  | (k, v) :: es =>
    if k.isMerge then do
      let merged ← mergedEntries (← v.value)
      let (more, own) ← entryValues es
      .ok (merged ++ more, own)
    else do
      let key ← if k.isDefault then .ok (.text "=") else k.value
      if key.isKey then
        let value ← v.value
        let (merged, own) ← entryValues es
        .ok (merged, (key, value) :: own)
      else .error .malformed

end

end Yaml

/-- The value of a YAML text. -/
def Value.ofYamlText (s : String) : Except Yaml.Unreadable Value := do
  match ← Yaml.readDocument (← Yaml.tokens s) with
  | none => .ok .null
  | some node => node.value

end LiveForm
