import LiveForm.Graph.Cycle

/-!
# The order of evaluation

Fields are ordered so that each comes after those it depends on. Each node counts down the nodes
that it still waits for; of those that wait for none, the one declared first is taken next.

* `Graph.Countdown`: the counters, and the nodes that are ready.
* `Graph.Countdown.run`: takes the nodes that are ready, one by one.
* `Graph.sequence`: the order as far as it goes.
* `Graph.order`: the keys in order, or the failure that names a cycle.
-/

namespace LiveForm

namespace Graph

/-- How many nodes each node waits for, and the nodes that wait for none and were not taken, in a
queue of which the least comes first. -/
structure Countdown where
  waiting : List Int
  ready : List Nat

namespace Countdown

/-- Puts a node in its place in the queue. -/
def push (i : Nat) : List Nat → List Nat
  | [] => [i]
  | j :: js => if i ≤ j then i :: j :: js else j :: push i js

/-- A node waits for one node less. It is ready when it waits for no more. -/
def release (c : Countdown) (i : Nat) : Countdown :=
  let left := c.waiting.getD i 0 - 1
  { waiting := c.waiting.set i left, ready := if left = 0 then push i c.ready else c.ready }

/-- The nodes that wait or are ready. -/
def weight (c : Countdown) : Nat := c.waiting.countP (0 < ·) + c.ready.length

theorem length_push (i : Nat) (js : List Nat) : (push i js).length = js.length + 1 := by
  induction js with
  | nil => rfl
  | cons j js ih =>
    rw [push]
    split
    · rfl
    · rw [List.length_cons, ih, List.length_cons]

theorem weight_release (c : Countdown) (i : Nat) : (c.release i).weight = c.weight := by
  rw [weight, release, weight]
  dsimp only
  by_cases hi : i < c.waiting.length
  · have hpos : 0 < c.waiting[i] → 0 < c.waiting.countP (0 < ·) := fun hpos =>
      List.countP_pos_iff.mpr ⟨_, List.getElem_mem hi, decide_eq_true hpos⟩
    rw [List.countP_set hi, List.getD_eq_getElem?_getD, List.getElem?_eq_getElem hi,
      Option.getD_some]
    simp only [decide_eq_true_eq]
    by_cases hleft : c.waiting[i] - 1 = 0
    · rw [if_pos hleft, length_push, if_pos (by omega), if_neg (by omega)]
      have := hpos (by omega)
      omega
    · rw [if_neg hleft]
      split <;> split <;> omega
  · have hlen : c.waiting.length ≤ i := Nat.le_of_not_lt hi
    rw [List.set_eq_of_length_le hlen, List.getD_eq_getElem?_getD, List.getElem?_eq_none hlen]
    rfl

theorem weight_foldl_release (is : List Nat) (c : Countdown) :
    (is.foldl release c).weight = c.weight := by
  induction is generalizing c with
  | nil => rfl
  | cons i is ih => rw [List.foldl_cons, ih, weight_release]

/-- Takes the first node that is ready, and releases those that depend on it, until none is. -/
def run (g : Graph) (c : Countdown) (taken : List Nat) : List Nat :=
  match _h : c.ready with
  | [] => taken
  | i :: ready => run g ((g.next i).foldl release { c with ready }) (taken ++ [i])
termination_by c.weight
decreasing_by
  rw [weight_foldl_release, weight, weight, ‹c.ready = _›, List.length_cons]
  exact Nat.lt_succ_self _

/-- Each node waits for all that it depends on, and those that depend on none are ready. -/
def start (g : Graph) : Countdown :=
  let waiting := g.predecessors.map fun ps => (ps.length : Int)
  { waiting, ready := (List.range waiting.length).filter fun i => waiting.getD i 0 = 0 }

end Countdown

/-- The nodes in order, up to where only cycles are left. -/
def sequence (g : Graph) : List Nat := (Countdown.start g).run g []

/-- The nodes that the order does not reach. -/
def unresolved (g : Graph) : List Nat :=
  (List.range g.size).filter fun i => !g.sequence.contains i

/-- The failure of a graph with a cycle. -/
def cyclicFailure (g : Graph) : Failure :=
  let unresolved := g.unresolved.map g.key
  let cycle := g.cycle?.getD unresolved
  .cyclic cycle (.record [("cycle", .texts cycle), ("unresolved", .texts unresolved)])
    (some "Remova uma das regras ou fórmulas que fecham o ciclo.")

/-- The keys in order of evaluation. -/
def order (g : Graph) : Except Failure (List String) :=
  if g.sequence.length = g.size then .ok (g.sequence.map g.key) else .error g.cyclicFailure

end Graph

end LiveForm
