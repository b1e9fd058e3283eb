import Mathlib.Data.List.Chain
import Mathlib.Data.List.TakeWhile
import Mathlib.Logic.Relation
import LiveForm.Graph.Cycle
import LiveForm.Proofs.Graph.Complete

/-!
# Cycles and orders

The search for a cycle follows a path, and finishes a node when all that depends on it is finished.
An edge back into the path closes a cycle. When the search ends without one, the finished nodes are
in an order in which no edge leads back, so there is no cycle at all, and the fields can be ordered.

* `Graph.HasCycle`, `Graph.IsCycle`: there is a cycle, and nodes along one;
* `Graph.Finished`, `Graph.Opened`: what holds of the finished nodes and of those on the stack;
* `Graph.Descent.Fits`: the colours, the path and the stack of a search fit each other;
* `Graph.Descent.Fits.step`, `Graph.Descent.Fits.isCycle`: what one look at the stack leads to;
* `Graph.Descent.Fits.run`: what a whole search leads to;
* **`Graph.isSome_cycle?`**: it finds a cycle when there is one;
* **`Graph.exists_order_of_acyclic`**: without a cycle there is an order of evaluation.
-/

namespace LiveForm

namespace Graph

/-- An edge leads from one node to another. -/
def Edge (g : Graph) (i j : ℕ) : Prop := j ∈ g.next i

/-- **There is a cycle**: edges lead from some node back to it. -/
def HasCycle (g : Graph) : Prop := ∃ i, Relation.TransGen g.Edge i i

/-- **Nodes along a cycle**: distinct, an edge from each to the next, and one from the last to the
first. -/
structure IsCycle (g : Graph) (c : List ℕ) : Prop where
  ne_nil : c ≠ []
  nodup : c.Nodup
  chain : c.IsChain g.Edge
  closes : g.Edge (c.getLast ne_nil) (c.head ne_nil)

/-- The edges of a graph lead to nodes of it. -/
def Bounded (g : Graph) : Prop := ∀ i j, j ∈ g.next i → j < g.size

variable {g : Graph} {i j : ℕ} {finished : List ℕ}

theorem bounded_ofSchema (s : Schema) : (ofSchema s).Bounded := fun _ _ => lt_size_of_mem_next

theorem IsCycle.hasCycle {c : List ℕ} (h : g.IsCycle c) : g.HasCycle :=
  ⟨c.head h.ne_nil, Relation.TransGen.tail'
    (List.relationReflTransGen_of_exists_isChain c h.chain h.ne_nil) h.closes⟩

/-! ## Finished nodes -/

/-- **Nodes are finished in order**: the edges of each lead to nodes that were finished before it,
which stand after it. -/
def Finished (g : Graph) : List ℕ → Prop
  | [] => True
  | i :: is => i < g.size ∧ i ∉ is ∧ (∀ j ∈ g.next i, j ∈ is) ∧ Finished g is

theorem finished_nil : Finished g [] := trivial

namespace Finished

theorem lt_size : (is : List ℕ) → Finished g is → ∀ i ∈ is, i < g.size
  | [], _ => fun _ h => absurd h List.not_mem_nil
  | _ :: is, ⟨hi, _, _, his⟩ => List.forall_mem_cons.mpr ⟨hi, lt_size is his⟩

theorem closed : (is : List ℕ) → Finished g is → g.Closed is
  | [], _ => fun _ h => absurd h List.not_mem_nil
  | _ :: is, ⟨_, _, hnext, his⟩ => List.forall_mem_cons.mpr
    ⟨fun j hj => List.mem_cons_of_mem _ (hnext j hj),
      fun k hk j hj => List.mem_cons_of_mem _ (closed is his k hk j hj)⟩

theorem pairwise : (is : List ℕ) → Finished g is →
    is.Pairwise (fun i j => i ≠ j ∧ ¬ g.Edge j i) ∧ ∀ i ∈ is, ¬ g.Edge i i
  | [], _ => ⟨List.Pairwise.nil, fun _ h => absurd h List.not_mem_nil⟩
  | i :: is, ⟨_, hnew, hnext, his⟩ => by
    obtain ⟨hpairwise, hself⟩ := pairwise is his
    refine ⟨List.pairwise_cons.mpr ⟨fun j hj => ⟨fun he => hnew (he ▸ hj), fun hback => ?_⟩,
      hpairwise⟩, List.forall_mem_cons.mpr ⟨fun hi => hnew (hnext i hi), hself⟩⟩
    exact hnew (closed is his j hj i hback)

theorem mem_of_reflTransGen {is : List ℕ} (h : g.Closed is) {i j : ℕ} (hi : i ∈ is)
    (hij : Relation.ReflTransGen g.Edge i j) : j ∈ is := by
  induction hij with
  | refl => exact hi
  | tail _ hedge ih => exact h _ ih _ hedge

/-- **No cycle goes through finished nodes**: its edges would lead from the first of them to nodes
from which none leads back. -/
theorem not_transGen : (is : List ℕ) → Finished g is → ∀ i ∈ is, ¬ Relation.TransGen g.Edge i i
  | [], _ => fun _ h => absurd h List.not_mem_nil
  | i :: is, ⟨_, hnew, hnext, his⟩ => by
    refine List.forall_mem_cons.mpr ⟨fun hcycle => ?_, not_transGen is his⟩
    obtain ⟨j, hedge, hback⟩ := Relation.TransGen.head'_iff.mp hcycle
    exact hnew (mem_of_reflTransGen (closed is his) (hnext j hedge) hback)

end Finished

theorem not_hasCycle_of_finished (hg : g.Bounded) {is : List ℕ} (h : Finished g is)
    (hall : ∀ i < g.size, i ∈ is) : ¬ g.HasCycle := by
  rintro ⟨i, hi⟩
  -- The last edge of the cycle leads to a node of the graph, so that node is finished.
  obtain ⟨j, -, hedge⟩ := Relation.TransGen.tail'_iff.mp hi
  exact h.not_transGen _ i (hall i (hg j i hedge)) hi

/-! ## The stack -/

/-- **What stands on a stack below a node**: an edge leads to that node and to each neighbour still
to be looked at, and all other neighbours are finished. -/
def Opened (g : Graph) (finished : List ℕ) : (above : Option ℕ) → List (ℕ × List ℕ) → Prop
  | _, [] => True
  | above, (u, rest) :: stack =>
    u < g.size ∧ (∀ j, j ∈ rest ∨ j ∈ above → g.Edge u j) ∧
      (∀ j, g.Edge u j → j ∈ finished ∨ j ∈ rest ∨ j ∈ above) ∧ Opened g finished (some u) stack

namespace Opened

theorem mono {more : List ℕ} (hsub : ∀ i ∈ finished, i ∈ more) : ∀ (above : Option ℕ)
    (stack : List (ℕ × List ℕ)), Opened g finished above stack → Opened g more above stack
  | _, [], _ => trivial
  | _, (u, _) :: stack, ⟨hu, hedge, hall, hstack⟩ =>
    ⟨hu, hedge, fun j hj => (hall j hj).imp_left (hsub j), mono hsub (some u) stack hstack⟩

theorem finish {u : ℕ} {stack : List (ℕ × List ℕ)} (h : Opened g finished (some u) stack) :
    Opened g (u :: finished) none stack := by
  cases stack with
  | nil => trivial
  | cons e stack =>
    obtain ⟨w, rest⟩ := e
    obtain ⟨hw, hedge, hall, hstack⟩ := h
    refine ⟨hw, fun j hj => hedge j (hj.imp_right fun hnone => nomatch hnone), fun j hj => ?_,
      mono (fun i hi => List.mem_cons_of_mem u hi) _ _ hstack⟩
    rcases hall j hj with hj | hj | hj
    · exact Or.inl (List.mem_cons_of_mem u hj)
    · exact Or.inr (Or.inl hj)
    · exact Or.inl (Option.some.inj hj ▸ List.mem_cons_self)

theorem lt_size : ∀ (above : Option ℕ) (stack : List (ℕ × List ℕ)),
    Opened g finished above stack → ∀ i ∈ stack.map Prod.fst, i < g.size
  | _, [], _ => fun _ h => absurd h List.not_mem_nil
  | _, (u, _) :: stack, ⟨hu, _, _, hstack⟩ =>
    List.forall_mem_cons.mpr ⟨hu, lt_size (some u) stack hstack⟩

theorem chain : ∀ (above : Option ℕ) (stack : List (ℕ × List ℕ)),
    Opened g finished above stack → (stack.map Prod.fst).IsChain fun a b => g.Edge b a
  | _, [], _ => .nil
  | _, [(u, _)], _ => .singleton u
  | _, (u, _) :: (w, rest) :: stack, ⟨_, _, _, hstack⟩ =>
    List.isChain_cons_cons.mpr
      ⟨hstack.2.1 u (Or.inr rfl), chain (some u) ((w, rest) :: stack) hstack⟩

end Opened

/-! ## The search -/

namespace Descent

/-- **The parts of a search fit each other**, and the nodes that were finished: the path goes up
the stack, its nodes are grey, the finished ones black and all others white. -/
structure Fits (g : Graph) (s : Descent) (finished : List ℕ) : Prop where
  colours_length : s.colours.length = g.size
  colour_eq : ∀ i < g.size, s.colours.getD i .black =
    if i ∈ s.path then .grey else if i ∈ finished then .black else .white
  path_eq : s.path = (s.stack.map Prod.fst).reverse
  path_nodup : s.path.Nodup
  path_open : ∀ i ∈ s.path, i ∉ finished
  opened : Opened g finished none s.stack
  finished : Finished g finished

variable {s t : Descent}

theorem getD_set {colours : List Colour} {c : Colour} (hi : i < colours.length) :
    (colours.set i c).getD j .black = if i = j then c else colours.getD j .black := by
  rw [List.getD_eq_getElem?_getD, List.getElem?_set]
  split_ifs with hij
  · rfl
  · rw [List.getD_eq_getElem?_getD]

namespace Fits

theorem mem_path (h : Fits g s finished) : i ∈ s.path ↔ i ∈ s.stack.map Prod.fst := by
  rw [h.path_eq, List.mem_reverse]

theorem lt_size (h : Fits g s finished) (hi : i ∈ s.path) : i < g.size :=
  h.opened.lt_size _ _ i (h.mem_path.mp hi)

theorem chain (h : Fits g s finished) : s.path.IsChain g.Edge := by
  rw [h.path_eq, List.isChain_reverse]
  exact h.opened.chain _ _

theorem colour_white (h : Fits g s finished) (hi : s.colours.getD i .black = .white) :
    i < g.size ∧ i ∉ s.path ∧ i ∉ finished := by
  have hlt : i < g.size := by
    rw [← h.colours_length]
    by_contra hle
    rw [List.getD_eq_getElem?_getD, List.getElem?_eq_none (Nat.le_of_not_lt hle)] at hi
    cases hi
  rw [h.colour_eq i hlt] at hi
  split_ifs at hi with hpath hdone
  exact ⟨hlt, hpath, hdone⟩

theorem finish {u : ℕ} {stack : List (ℕ × List ℕ)} (h : Fits g s finished)
    (hstack : s.stack = (u, []) :: stack) :
    Fits g { colours := s.colours.set u .black, path := s.path.dropLast, stack }
      (u :: finished) := by
  have hopened := h.opened
  rw [hstack] at hopened
  obtain ⟨hu, -, hall, hbelow⟩ := hopened
  have hpath : s.path = (stack.map Prod.fst).reverse ++ [u] := by
    rw [h.path_eq, hstack, List.map_cons, List.reverse_cons]
  have hnodup := h.path_nodup
  rw [hpath, List.nodup_append] at hnodup
  obtain ⟨hnodup, -, hdisjoint⟩ := hnodup
  have hnew : u ∉ (stack.map Prod.fst).reverse := fun hmem =>
    hdisjoint u hmem u (List.mem_singleton_self u) rfl
  have hopen : u ∉ finished := h.path_open u (hpath ▸ List.mem_append_right _
    (List.mem_singleton_self u))
  have hnext : ∀ j ∈ g.next u, j ∈ finished := fun j hj =>
    (hall j hj).resolve_right fun hj => hj.elim (fun hnil => absurd hnil List.not_mem_nil)
      fun hnone => nomatch hnone
  have hdrop : s.path.dropLast = (stack.map Prod.fst).reverse := by rw [hpath, List.dropLast_concat]
  rw [hdrop]
  refine ⟨by rw [List.length_set, h.colours_length], fun i hi => ?_, rfl, hnodup, fun i hi => ?_,
    hbelow.finish, hu, hopen, hnext, h.finished⟩
  · rw [getD_set (by rwa [h.colours_length]), h.colour_eq i hi]
    by_cases hui : u = i
    · subst hui
      simp [hnew]
    · rw [if_neg hui]
      simp only [hpath, List.mem_append, List.mem_cons, List.not_mem_nil, Ne.symm hui, or_false,
        false_or]
  · rw [List.mem_cons, not_or]
    exact ⟨fun he => hnew (he ▸ hi), h.path_open i (hpath ▸ List.mem_append_left _ hi)⟩

theorem push {v : ℕ} {stack : List (ℕ × List ℕ)} (h : Fits g s finished)
    (hv : s.colours.getD v .black = .white) (hpath : stack.map Prod.fst = s.stack.map Prod.fst)
    (hopened : Opened g finished (some v) stack) :
    Fits g { colours := s.colours.set v .grey, path := s.path ++ [v]
             stack := (v, g.next v) :: stack } finished := by
  obtain ⟨hlt, hnew, hopen⟩ := h.colour_white hv
  refine ⟨by rw [List.length_set, h.colours_length], fun i hi => ?_, ?_, ?_, ?_, ?_, h.finished⟩
  · rw [getD_set (by rwa [h.colours_length]), h.colour_eq i hi]
    by_cases hvi : v = i
    · subst hvi
      simp
    · simp [hvi, Ne.symm hvi]
  · rw [List.map_cons, hpath, List.reverse_cons, h.path_eq]
  · rw [List.nodup_append]
    exact ⟨h.path_nodup, List.nodup_singleton v, fun a ha b hb hab =>
      hnew (List.mem_singleton.mp hb ▸ hab ▸ ha)⟩
  · rw [List.forall_mem_append]
    exact ⟨h.path_open, fun i hi => List.mem_singleton.mp hi ▸ hopen⟩
  · refine ⟨hlt, fun j hj => ?_, fun j hj => Or.inr (Or.inl hj), hopened⟩
    rcases hj with hj | hj
    · exact hj
    · cases hj

/-- **The parts still fit after a look at the stack**, and what was seen stays on the path or is
finished. -/
theorem step (hg : g.Bounded) (h : Fits g s finished) (hstep : s.step g = .on t) :
    ∃ more, Fits g t more ∧ ∀ i, i ∈ s.path ∨ i ∈ finished → i ∈ t.path ∨ i ∈ more := by
  rw [Descent.step] at hstep
  split at hstep
  · cases hstep
  · next u stack hstack =>
    obtain rfl := Look.on.inj hstep
    refine ⟨u :: finished, h.finish hstack, fun i hi => ?_⟩
    have hfits := h.finish hstack
    rw [hfits.mem_path, List.mem_cons]
    rw [h.mem_path, hstack, List.map_cons, List.mem_cons] at hi
    tauto
  · next u v rest stack hstack =>
    have hopened := h.opened
    rw [hstack] at hopened
    obtain ⟨hu, hedge, hall, hbelow⟩ := hopened
    have hnone : ∀ j, ¬ j ∈ (none : Option ℕ) := fun j => Option.not_mem_none j
    split at hstep
    · cases hstep
    · next hv =>
      obtain rfl := Look.on.inj hstep
      refine ⟨finished, h.push hv (by rw [hstack]; rfl) ⟨hu, fun j hj => ?_, fun j hj => ?_,
        hbelow⟩, fun i hi => hi.imp_left (List.mem_append_left _)⟩
      · refine hedge j (Or.inl ?_)
        rcases hj with hj | hj
        · exact List.mem_cons_of_mem v hj
        · exact Option.some.inj hj ▸ List.mem_cons_self
      · rcases hall j hj with hj | hj | hj
        · exact Or.inl hj
        · rcases List.mem_cons.mp hj with rfl | hj
          · exact Or.inr (Or.inr rfl)
          · exact Or.inr (Or.inl hj)
        · exact absurd hj (hnone j)
    · next hv =>
      obtain rfl := Look.on.inj hstep
      have hlt : v < g.size := hg u v (hedge v (Or.inl List.mem_cons_self))
      have hdone : v ∈ finished := by
        rw [h.colour_eq v hlt] at hv
        by_contra hdone
        rw [if_neg hdone] at hv
        split_ifs at hv
      refine ⟨finished, ⟨h.colours_length, h.colour_eq, ?_, h.path_nodup, h.path_open,
        ⟨hu, fun j hj => hedge j (hj.imp_left (List.mem_cons_of_mem v)), fun j hj => ?_, hbelow⟩,
        h.finished⟩, fun i hi => hi⟩
      · rw [h.path_eq, hstack]
        rfl
      · rcases hall j hj with hj | hj | hj
        · exact Or.inl hj
        · rcases List.mem_cons.mp hj with rfl | hj
          · exact Or.inl hdone
          · exact Or.inr (Or.inl hj)
        · exact absurd hj (hnone j)

/-- **An edge back into the path closes a cycle**: the path from there on. -/
theorem isCycle (hg : g.Bounded) (h : Fits g s finished) {c : List ℕ}
    (hstep : s.step g = .closed c) : g.IsCycle c := by
  rw [Descent.step] at hstep
  split at hstep
  · cases hstep
  · cases hstep
  · next u v rest stack hstack =>
    have hopened := h.opened
    rw [hstack] at hopened
    have hedge : g.Edge u v := hopened.2.1 v (Or.inl List.mem_cons_self)
    split at hstep
    · next hgrey =>
      obtain rfl := Look.closed.inj hstep
      have hv : v ∈ s.path := by
        rw [h.colour_eq v (hg u v hedge)] at hgrey
        by_contra hv
        rw [if_neg hv] at hgrey
        split_ifs at hgrey
      have hsuffix : s.path.dropWhile (· ≠ v) <:+ s.path := List.dropWhile_suffix _
      have hne : s.path.dropWhile (· ≠ v) ≠ [] := fun hnil => by
        simpa using List.dropWhile_eq_nil_iff.mp hnil v hv
      have hhead : (s.path.dropWhile (· ≠ v)).head hne = v := by
        simpa using List.head_dropWhile_not (· ≠ v) hne
      have hlast : s.path.getLast? = some u := by
        rw [h.path_eq, hstack, List.map_cons, List.reverse_cons, List.getLast?_concat]
      refine ⟨hne, h.path_nodup.sublist hsuffix.sublist, h.chain.suffix hsuffix, ?_⟩
      rw [hhead, hsuffix.getLast hne]
      rw [List.getLast?_eq_some_getLast (List.ne_nil_of_mem hv)] at hlast
      rwa [Option.some.inj hlast]
    · cases hstep
    · cases hstep

theorem path_eq_nil (h : Fits g s finished) (hstep : s.step g = .ended) : s.path = [] := by
  rw [Descent.step] at hstep
  split at hstep
  · next hstack => rw [h.path_eq, hstack]; rfl
  · cases hstep
  · split at hstep <;> cases hstep

/-- **A search that ends with a cycle ends with one of the graph**, and another one has finished
all that it has seen. -/
theorem run (hg : g.Bounded) (h : Fits g s finished) :
    (∀ c, s.run g = .error c → g.IsCycle c) ∧ ∀ colours, s.run g = .ok colours →
      ∃ more, Fits g ⟨colours, [], []⟩ more ∧ ∀ i, i ∈ s.path ∨ i ∈ finished → i ∈ more := by
  fun_induction s.run g generalizing finished with
  | case1 s hstep =>
    have hpath := h.path_eq_nil hstep
    have hstack : s.stack = [] := by
      rw [h.path_eq, List.reverse_eq_nil_iff, List.map_eq_nil_iff] at hpath
      exact hpath
    refine ⟨fun c hc => (nomatch hc), fun colours hcolours => ⟨finished, ?_, fun i hi => ?_⟩⟩
    · obtain rfl := Except.ok.inj hcolours
      obtain ⟨colours, path, stack⟩ := s
      obtain rfl : path = [] := hpath
      obtain rfl : stack = [] := hstack
      exact h
    · rw [hpath] at hi
      exact hi.resolve_left List.not_mem_nil
  | case2 s c hstep =>
    refine ⟨fun c' hc => ?_, fun _ hok => nomatch hok⟩
    exact Except.error.inj hc ▸ h.isCycle hg hstep
  | case3 s t hstep ih =>
    obtain ⟨more, hfits, hseen⟩ := h.step hg hstep
    obtain ⟨hcycle, hdone⟩ := ih hfits
    refine ⟨hcycle, fun colours hcolours => ?_⟩
    obtain ⟨result, hresult, hkept⟩ := hdone colours hcolours
    exact ⟨result, hresult, fun i hi => hkept i (hseen i hi)⟩

end Fits

end Descent

/-! ## All nodes -/

open Descent (Fits)

/-- **Searches from some nodes find a cycle or finish these nodes.** -/
theorem searchFrom_spec (hg : g.Bounded) (starts : List ℕ) {colours : List Colour}
    (h : Fits g ⟨colours, [], []⟩ finished) (hstarts : ∀ i ∈ starts, i < g.size) :
    (∀ c, g.searchFrom starts colours = some c → g.IsCycle c) ∧
      (g.searchFrom starts colours = none →
        ∃ more, Finished g more ∧ ∀ i, i ∈ starts ∨ i ∈ finished → i ∈ more) := by
  induction starts generalizing colours finished with
  | nil =>
    exact ⟨fun c hc => (nomatch hc), fun _ =>
      ⟨finished, h.finished, fun i hi => hi.resolve_left List.not_mem_nil⟩⟩
  | cons i starts ih =>
    obtain ⟨hi, hstarts⟩ := List.forall_mem_cons.mp hstarts
    rw [searchFrom]
    split
    · next hwhite =>
      obtain ⟨hcycle, hdone⟩ := Fits.run hg (h.push hwhite rfl trivial)
      split
      · next c hrun =>
        refine ⟨fun c' hc => ?_, fun hnone => nomatch hnone⟩
        exact Option.some.inj hc ▸ hcycle c hrun
      · next colours' hrun =>
        obtain ⟨more, hfits, hseen⟩ := hdone colours' hrun
        obtain ⟨hfound, hall⟩ := ih hfits hstarts
        refine ⟨hfound, fun hnone => ?_⟩
        obtain ⟨result, hresult, hkept⟩ := hall hnone
        refine ⟨result, hresult, fun j hj => hkept j ?_⟩
        rcases hj with hj | hj
        · rcases List.mem_cons.mp hj with rfl | hj
          · exact Or.inr (hseen j (Or.inl List.mem_cons_self))
          · exact Or.inl hj
        · exact Or.inr (hseen j (Or.inr hj))
    · next hseen =>
      have hfinished : i ∈ finished := by
        rw [h.colour_eq i hi, if_neg List.not_mem_nil] at hseen
        by_contra hnot
        exact hseen (if_neg hnot)
      obtain ⟨hfound, hall⟩ := ih h hstarts
      refine ⟨hfound, fun hnone => ?_⟩
      obtain ⟨result, hresult, hkept⟩ := hall hnone
      refine ⟨result, hresult, fun j hj => hkept j ?_⟩
      rcases hj with hj | hj
      · rcases List.mem_cons.mp hj with rfl | hj
        · exact Or.inr hfinished
        · exact Or.inl hj
      · exact Or.inr hj

theorem fits_start (g : Graph) : Fits g ⟨List.replicate g.size .white, [], []⟩ [] where
  colours_length := List.length_replicate
  colour_eq i hi := by
    rw [if_neg List.not_mem_nil, if_neg List.not_mem_nil, List.getD_eq_getElem?_getD,
      List.getElem?_replicate_of_lt hi, Option.getD_some]
  path_eq := rfl
  path_nodup := List.nodup_nil
  path_open _ h := absurd h List.not_mem_nil
  opened := trivial
  finished := finished_nil

theorem exists_finished (hg : g.Bounded) (h : g.cycleNodes? = none) :
    ∃ is, Finished g is ∧ ∀ i < g.size, i ∈ is := by
  obtain ⟨-, hall⟩ := searchFrom_spec hg _ (fits_start g) fun _ hi => List.mem_range.mp hi
  obtain ⟨is, his, hmem⟩ := hall h
  exact ⟨is, his, fun i hi => hmem i (Or.inl (List.mem_range.mpr hi))⟩

theorem isCycle_of_cycleNodes? (hg : g.Bounded) {c : List ℕ} (h : g.cycleNodes? = some c) :
    g.IsCycle c :=
  (searchFrom_spec hg _ (fits_start g) fun _ hi => List.mem_range.mp hi).1 c h

/-- **The search finds a cycle when there is one.** -/
theorem isSome_cycle? (hg : g.Bounded) : g.cycle?.isSome = true ↔ g.HasCycle := by
  rw [cycle?, Option.isSome_map]
  constructor
  · intro h
    obtain ⟨c, hc⟩ := Option.isSome_iff_exists.mp h
    exact (isCycle_of_cycleNodes? hg hc).hasCycle
  · intro hcycle
    by_contra hnone
    rw [Option.not_isSome_iff_eq_none] at hnone
    obtain ⟨is, hfinished, hall⟩ := exists_finished hg hnone
    exact not_hasCycle_of_finished hg hfinished hall hcycle

/-! ## Orders -/

variable {s : Schema}

/-- **Without a cycle there is an order of evaluation**: the finished nodes are one. -/
theorem exists_order_of_acyclic (h : ¬ (ofSchema s).HasCycle) :
    ∃ order, (ofSchema s).order = .ok order := by
  have hg := bounded_ofSchema s
  rw [← isSome_cycle? hg, cycle?, Option.isSome_map, Option.not_isSome_iff_eq_none] at h
  obtain ⟨is, hfinished, hall⟩ := exists_finished hg h
  obtain ⟨hpairwise, hself⟩ := hfinished.pairwise
  have hlt := hfinished.lt_size
  have hedge : ∀ i ∈ is, ∀ j ∈ is, s.Feeds ((ofSchema s).key i) ((ofSchema s).key j) →
      (ofSchema s).Edge i j := fun i hi j hj hf =>
    mem_next_of_feeds hf (node?_key nodup_keys_ofSchema (hlt i hi))
      (node?_key nodup_keys_ofSchema (hlt j hj))
  have hmem : ∀ key, key ∈ is.map (ofSchema s).key ↔ key ∈ s.fieldKeys := by
    intro key
    rw [← mem_keys_ofSchema, List.mem_map]
    constructor
    · rintro ⟨i, hi, rfl⟩
      exact key_mem (hlt i hi)
    · intro hkey
      obtain ⟨i, hi⟩ := exists_node? hkey
      exact ⟨i, hall i (lt_size_of_node? hi), key_of_node? hi⟩
  refine exists_order hmem ?_ ?_
  · rw [List.pairwise_map]
    exact hpairwise.imp_of_mem fun {i j} hi hj hij hf => hij.2 (hedge j hj i hi hf)
  · intro key hkey hf
    obtain ⟨i, hi, rfl⟩ := List.mem_map.mp ((hmem key).mpr hkey)
    exact hself i hi (hedge i hi i hi hf)

end Graph

end LiveForm
