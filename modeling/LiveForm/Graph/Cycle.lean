import LiveForm.Graph.Basic

/-!
# Cycles

A depth-first search from the nodes in order, along edges in order. The first edge back into the
path that is being followed closes the cycle.

* `Graph.Descent`: a search under way, `Graph.Descent.step`: one look at the top of its stack.
* `Graph.Descent.lex_weight_of_step`: only so many looks can follow one another.
* `Graph.Descent.run`: looks until the stack is empty or a cycle is closed.
* `Graph.cycle?`: the keys along the cycle that is found.
-/

namespace LiveForm

namespace Graph

/-- How far a search is with a node: it was not seen, it is on the path, or it is finished. -/
inductive Colour where
  | white | grey | black
  deriving DecidableEq

/-- A search under way. -/
structure Descent where
  colours : List Colour
  path : List Nat
  /-- The nodes of the path, the last one first, each with the neighbours still to be looked at. -/
  stack : List (Nat × List Nat)

namespace Descent

/-- What one look leads to. -/
inductive Look where
  | ended
  | closed (cycle : List Nat)
  | on (s : Descent)

/-- Looks at the next neighbour of the node on top, and finishes the node when there is none. -/
def step (g : Graph) (s : Descent) : Look :=
  match s.stack with
  | [] => .ended
  | (u, []) :: stack =>
    .on { colours := s.colours.set u .black, path := s.path.dropLast, stack }
  | (u, v :: rest) :: stack =>
    match s.colours.getD v .black with
    | .grey => .closed (s.path.dropWhile (· ≠ v))
    | .white =>
      .on { colours := s.colours.set v .grey, path := s.path ++ [v]
            stack := (v, g.next v) :: (u, rest) :: stack }
    | .black => .on { s with stack := (u, rest) :: stack }

/-- The nodes that were not seen, and the looks that the stack still needs without them. -/
def weight (s : Descent) : Nat × Nat :=
  (s.colours.count .white, s.stack.foldr (fun e looks => e.2.length + 1 + looks) 0)

theorem count_white_set_le (colours : List Colour) (i : Nat) {c : Colour} (h : c ≠ .white) :
    (colours.set i c).count .white ≤ colours.count .white := by
  by_cases hi : i < colours.length
  · rw [List.count_eq_countP, List.count_eq_countP, List.countP_set hi,
      if_neg (mt beq_iff_eq.mp h)]
    exact Nat.sub_le _ _
  · have hset : colours.set i c = colours := List.set_eq_of_length_le (Nat.le_of_not_lt hi)
    exact Nat.le_of_eq (congrArg (List.count .white) hset)

theorem count_white_set_lt {colours : List Colour} {i : Nat}
    (hi : colours.getD i .black = .white) :
    (colours.set i .grey).count .white < colours.count .white := by
  have hlt : i < colours.length := by
    refine Nat.lt_of_not_le fun hle => ?_
    rw [List.getD_eq_getElem?_getD, List.getElem?_eq_none hle] at hi
    cases hi
  have hwhite : colours[i] = .white := by
    rwa [List.getD_eq_getElem?_getD, List.getElem?_eq_getElem hlt, Option.getD_some] at hi
  have hpos : 0 < colours.count .white :=
    List.count_pos_iff.mpr (hwhite ▸ List.getElem_mem hlt)
  rw [List.count_eq_countP, List.countP_set hlt, if_pos (by simpa using hwhite),
    if_neg (by decide), ← List.count_eq_countP]
  omega

/-- **Only so many looks can follow one another**: each sees a new node, or takes something from
the stack. -/
theorem lex_weight_of_step {g : Graph} {s t : Descent} (h : s.step g = .on t) :
    Prod.Lex (· < ·) (· < ·) t.weight s.weight := by
  have hlex : ∀ {t : Descent}, t.weight.1 ≤ s.weight.1 → t.weight.2 < s.weight.2 →
      Prod.Lex (· < ·) (· < ·) t.weight s.weight := fun hle hlt =>
    Prod.lex_def.mpr <| (Nat.lt_or_eq_of_le hle).imp_right fun he => ⟨he, hlt⟩
  rw [step] at h
  split at h
  · cases h
  · next u stack hstack =>
    obtain rfl := Look.on.inj h
    exact hlex (count_white_set_le _ _ (by decide)) (by simp [weight, hstack])
  · next u v rest stack hstack =>
    split at h
    · cases h
    · next hv =>
      obtain rfl := Look.on.inj h
      exact Prod.Lex.left _ _ (count_white_set_lt hv)
    · obtain rfl := Look.on.inj h
      exact hlex (Nat.le_refl _) (by simp [weight, hstack])

/-- Looks until the stack is empty, which gives the colours, or a cycle is closed, which is the
error. -/
def run (g : Graph) (s : Descent) : Except (List Nat) (List Colour) :=
  match _h : s.step g with
  | .ended => .ok s.colours
  | .closed cycle => .error cycle
  | .on t => run g t
termination_by s.weight
decreasing_by exact lex_weight_of_step ‹_›

/-- The search from a node that was not seen. -/
def start (g : Graph) (colours : List Colour) (i : Nat) : Descent :=
  { colours := colours.set i .grey, path := [i], stack := [(i, g.next i)] }

end Descent

/-- Searches from the listed nodes, as far as they were not seen. -/
def searchFrom (g : Graph) : (starts : List Nat) → List Colour → Option (List Nat)
  | [], _ => none
  | i :: starts, colours =>
    if colours.getD i .black = .white then
      match (Descent.start g colours i).run g with
      | .error cycle => some cycle
      | .ok colours => searchFrom g starts colours
    else searchFrom g starts colours

/-- The nodes of the first cycle that the search finds. -/
def cycleNodes? (g : Graph) : Option (List Nat) :=
  g.searchFrom (List.range g.size) (List.replicate g.size .white)

/-- The keys along the first cycle that the search finds. -/
def cycle? (g : Graph) : Option (List String) := g.cycleNodes?.map fun c => c.map g.key

end Graph

end LiveForm
