import LiveForm.Schema.Decode
import LiveForm.Notice
import LiveForm.Table

/-!
# The dependency graph

A field depends on the sources of its formula and on the triggers of the rules that target it.
The graph has the distinct field keys as nodes, numbered in order of declaration.

* `Schema.references`: the dependencies that a schema declares, in order.
* `KeyIndex`: distinct keys, numbered as they come.
* `Graph.ofSchema`: the graph of the references whose ends are declared.
* `Schema.graphProblems`: the repeated keys and the references to undeclared fields.
* `Graph.strict`: the graph, if there are no problems.
* `Graph.descendants`: the nodes that depend on a node, directly or not.
-/

namespace LiveForm

/-! ## References -/

/-- One field refers to another: the value of `target` may follow from that of `source`. -/
structure Reference where
  source : String
  target : String
  path : String

namespace Schema

/-- The references of the formula of the field at a position. -/
def formulaReferences (i : Nat) (f : Field) : List Reference :=
  f.sources.mapIdx fun j source =>
    ⟨source, f.key, indexPath (indexPath "fields" i ++ ".computation.source_fields") j⟩

/-- All references: those of formulas, then those of rules. -/
def references (s : Schema) : List Reference :=
  (s.fields.mapIdx formulaReferences).flatten
    ++ s.rules.mapIdx fun i r => ⟨r.trigger, r.target, indexPath "rules" i⟩

end Schema

/-! ## Keys -/

/-- Distinct keys in order, with the number of each. -/
structure KeyIndex where
  keys : List String := []
  numbers : Table String Nat := .empty
  get?_numbers : ∀ key, numbers.get? key = keys.idxOf? key := by exact fun _ => rfl

namespace KeyIndex

theorem get?_set_numbers {k : KeyIndex} {key : String} (h : k.numbers.get? key = none)
    (other : String) : (k.numbers.set key k.keys.length).get? other =
      (k.keys ++ [key]).idxOf? other := by
  rw [k.get?_numbers] at h
  rw [Table.get?_set, k.get?_numbers]
  unfold List.idxOf? at h ⊢
  rw [List.findIdx?_append]
  by_cases ho : key = other
  · subst ho
    simp [h]
  · simp [ho]

/-- Adds a key, unless it is there, under the next number. -/
def add (k : KeyIndex) (key : String) : KeyIndex :=
  match h : k.numbers.get? key with
  | some _ => k
  | none => ⟨k.keys ++ [key], k.numbers.set key k.keys.length, get?_set_numbers h⟩

/-- The distinct keys of a list. -/
def ofKeys (keys : List String) : KeyIndex := keys.foldl add {}

end KeyIndex

/-! ## The graph -/

/-- A directed graph whose nodes are the numbers of its keys. -/
structure Graph extends KeyIndex where
  /-- The nodes that depend on each node. -/
  adjacency : List (List Nat)
  /-- The nodes that each node depends on. -/
  predecessors : List (List Nat)

namespace Graph

/-- Puts a number in its place in an increasing list, once. -/
def insertIncreasing (n : Nat) : List Nat → List Nat
  | [] => [n]
  | m :: ms => if n < m then n :: m :: ms else if n = m then m :: ms
    else m :: insertIncreasing n ms

/-- The ends of the edges that begin at a node, increasing. -/
def targetsOf (edges : List (Nat × Nat)) (i : Nat) : List Nat :=
  ((edges.filter (·.1 == i)).map Prod.snd).foldr insertIncreasing []

/-- The edge of a reference, if both its fields are declared. -/
def edge? (numbers : Table String Nat) (r : Reference) : Option (Nat × Nat) := do
  some (← numbers.get? r.source, ← numbers.get? r.target)

/-- A node is listed with each of its targets. -/
def listWith (rows : List (List Nat)) (source : Nat) (targets : List Nat) : List (List Nat) :=
  targets.foldl (fun rows target => rows.modify target (· ++ [source])) rows

/-- The nodes from which an edge leads to each node. -/
def inverse (adjacency : List (List Nat)) : List (List Nat) :=
  adjacency.zipIdx.foldl (fun rows e => listWith rows e.2 e.1) (adjacency.map fun _ => [])

/-- The graph of the references whose fields are declared. -/
def ofSchema (s : Schema) : Graph :=
  let index := KeyIndex.ofKeys s.fieldKeys
  let edges := s.references.filterMap (edge? index.numbers)
  let adjacency := (List.range index.keys.length).map (targetsOf edges)
  { index with adjacency, predecessors := inverse adjacency }

/-- The number of nodes. -/
def size (g : Graph) : Nat := g.keys.length

/-- The nodes that depend on a node. -/
def next (g : Graph) (i : Nat) : List Nat := g.adjacency.getD i []

/-- The nodes that a node depends on. -/
def previous (g : Graph) (i : Nat) : List Nat := g.predecessors.getD i []

/-- The key of a node. -/
def key (g : Graph) (i : Nat) : String := g.keys.getD i ""

/-- The node of a key. -/
def node? (g : Graph) (key : String) : Option Nat := g.numbers.get? key

/-- The number of edges. -/
def edgeCount (g : Graph) : Nat := g.adjacency.flatten.length

/-- The fields that depend on a field. -/
def successors? (g : Graph) (key : String) : Option (List String) :=
  (g.node? key).map fun i => (g.next i).map g.key

/-- The fields that a field depends on. -/
def dependencies? (g : Graph) (key : String) : Option (List String) :=
  (g.node? key).map fun i => (g.previous i).map g.key

/-! ## Descendants -/

/-- Adds what can be reached from the nodes of a stack. At most `room` nodes are added. -/
def reach (g : Graph) (room : Nat) (stack seen : List Nat) : List Nat :=
  match stack with
  | [] => seen
  | i :: stack =>
    if seen.contains i then reach g room stack seen
    else
      match room with
      | 0 => seen
      | room + 1 => reach g room (g.next i ++ stack) (i :: seen)
termination_by (room, stack.length)

/-- The nodes that can be reached from a node by one or more edges. -/
def descendants (g : Graph) (i : Nat) : List Nat := g.reach g.size (g.next i) []

/-- The fields that depend on a field, directly or through others. -/
def descendantKeys (g : Graph) (key : String) : List String :=
  match g.node? key with
  | some i => (g.descendants i).map g.key
  | none => []

end Graph

/-! ## Problems -/

/-- Why a schema has no complete graph. -/
inductive GraphProblem where
  | repeatedKey (index : Nat) (key : String)
  | undeclared (path key : String)

/-- The notice of a problem. -/
def GraphProblem.toNotice : GraphProblem → Notice
  | .repeatedKey index key =>
    .schemaError ("Chave de campo duplicada: '" ++ key ++ "'") (indexPath "fields" index ++ ".key")
      [("field", .text key)]
  | .undeclared path key =>
    .schemaError ("Referência a campo inexistente: '" ++ key ++ "'") path [("field", .text key)]

namespace Schema

/-- The fields whose key was declared before. -/
def repeatedKeys : (index : Nat) → (before : List String) → List String → List GraphProblem
  | _, _, [] => []
  | i, before, k :: ks =>
    (if before.contains k then [.repeatedKey i k] else []) ++ repeatedKeys (i + 1) (k :: before) ks

/-- The undeclared end of a reference, its source first. -/
def undeclaredEnd? (keys : List String) (r : Reference) : Option GraphProblem :=
  if !keys.contains r.source then some (.undeclared r.path r.source)
  else if !keys.contains r.target then some (.undeclared r.path r.target)
  else none

/-- The repeated keys, then the references to undeclared fields. -/
def graphProblems (s : Schema) : List GraphProblem :=
  repeatedKeys 0 [] s.fieldKeys ++ s.references.filterMap (undeclaredEnd? s.fieldKeys)

end Schema

/-- The graph of a schema without repeated keys and undeclared fields. -/
def Graph.strict (s : Schema) : Except Failure Graph :=
  if s.graphProblems.isEmpty then .ok (.ofSchema s)
  else .error (.schemaInvalid "Schema possui referências inválidas no grafo de dependências"
    [("errors", .list (s.graphProblems.map fun p => p.toNotice.toValue))] none)

end LiveForm
