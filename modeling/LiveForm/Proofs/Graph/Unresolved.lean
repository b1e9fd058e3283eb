import Mathlib.Data.List.Chain
import Mathlib.Data.List.Nodup
import Mathlib.Data.Fintype.Card
import Mathlib.Data.Set.Finite.Basic
import LiveForm.Proofs.Graph.Least

/-!
# What no order reaches

A node that lies on a cycle, or that can be reached from one, depends on another such node. So it
never gets ready, and nodes are taken until only such nodes are left: any other would have been
reached, since going back along edges from it ends.

* `Graph.Behind`: the nodes on cycles and those that can be reached from them;
* `Graph.mem_sequence_iff`: all other nodes are taken;
* `Graph.wellFounded_step`: the search for a cycle comes to an end;
* `Graph.IsKeyCycle`, `Graph.isKeyCycle_of_cycle?`: the keys that the search reports;
* **`Graph.Built.namesCycles`**: the search and the order of evaluation agree on cycles, and the
  order names those keys that it cannot reach.
-/

namespace LiveForm

namespace Graph

open Relation (TransGen ReflTransGen)

/-- **The node lies on a cycle or can be reached from one.** -/
def Behind (g : Graph) (i : ℕ) : Prop := ∃ j, TransGen g.Edge j j ∧ ReflTransGen g.Edge j i

variable {g : Graph} {i j : ℕ}

theorem Behind.of_cycle (h : TransGen g.Edge i i) : g.Behind i := ⟨i, h, .refl⟩

theorem Behind.edge (h : g.Behind i) (hedge : g.Edge i j) : g.Behind j := by
  obtain ⟨k, hcycle, hreach⟩ := h
  exact ⟨k, hcycle, hreach.tail hedge⟩

/-- **A node behind a cycle depends on a node behind a cycle.** -/
theorem Behind.exists_edge (h : g.Behind i) : ∃ k, g.Edge k i ∧ g.Behind k := by
  obtain ⟨j, hcycle, hreach⟩ := h
  rcases ReflTransGen.cases_tail hreach with rfl | ⟨k, hreach, hedge⟩
  · obtain ⟨k, hreach, hedge⟩ := TransGen.tail'_iff.mp hcycle
    exact ⟨k, hedge, _, hcycle, hreach⟩
  · exact ⟨k, hedge, j, hcycle, hreach⟩

/-! ## Nodes that are taken -/

variable {s : Schema} {done : List ℕ}

theorem not_behind_of_ready? (h : (ofSchema s).ready? done = some i)
    (hdone : ∀ k ∈ done, ¬ (ofSchema s).Behind k) : ¬ (ofSchema s).Behind i := by
  intro hbehind
  obtain ⟨hlt, -, hprevious⟩ := ready?_eq_some h
  obtain ⟨k, hedge, hk⟩ := hbehind.exists_edge
  exact hdone k (hprevious k ((mem_previous_ofSchema hlt).mpr hedge)) hk

theorem not_behind_of_mem_advance : ∀ (n : ℕ) (done : List ℕ),
    (∀ k ∈ done, ¬ (ofSchema s).Behind k) →
      ∀ k ∈ (ofSchema s).advance n done, ¬ (ofSchema s).Behind k
  | 0, done, h => h
  | n + 1, done, h => by
    rw [advance]
    split
    · next i hi =>
      refine not_behind_of_mem_advance n _ fun k hk => ?_
      rcases List.mem_append.mp hk with hk | hk
      · exact h k hk
      · rw [List.mem_singleton.mp hk]
        exact not_behind_of_ready? hi h
    · exact h

/-! ## Nodes that are left -/

theorem ready?_advance : ∀ (n : ℕ) (done : List ℕ), Sorted g done → done.length + n = g.size →
    g.ready? (g.advance n done) = none
  | 0, done, hsorted, hlen => by
    rw [advance]
    by_contra hready
    obtain ⟨i, hi⟩ := Option.ne_none_iff_exists'.mp hready
    obtain ⟨hlt, hnew, -⟩ := ready?_eq_some hi
    exact hnew (mem_of_length_eq_size hsorted.nodup hsorted.lt_size (by omega) hlt)
  | n + 1, done, hsorted, hlen => by
    rw [advance]
    split
    · next i hi =>
      refine ready?_advance n _ (hsorted.append (ready?_eq_some hi)) ?_
      rw [List.length_append, List.length_singleton]
      omega
    · next hnone => exact hnone

theorem exists_edge_of_left (hready : (ofSchema s).ready? done = none)
    (hlt : i < (ofSchema s).size) (hleft : i ∉ done) :
    ∃ k, (ofSchema s).Edge k i ∧ k ∉ done := by
  by_contra hnone
  refine not_ready_of_ready? hready ⟨hlt, hleft, fun k hk => ?_⟩
  by_contra hk'
  exact hnone ⟨k, (mem_previous_ofSchema hlt).mp hk, hk'⟩

theorem wellFounded_of_not_behind (g : Graph) : WellFounded
    fun i j : { i // i < g.size ∧ ¬ g.Behind i } => TransGen g.Edge i j := by
  have : Finite { i // i < g.size ∧ ¬ g.Behind i } :=
    ((Set.finite_lt_nat g.size).subset fun i hi => hi.1).to_subtype
  have : IsTrans { i // i < g.size ∧ ¬ g.Behind i } fun i j => TransGen g.Edge i j :=
    ⟨fun _ _ _ => TransGen.trans⟩
  have : Std.Irrefl fun i j : { i // i < g.size ∧ ¬ g.Behind i } => TransGen g.Edge i j :=
    ⟨fun i hcycle => i.2.2 (.of_cycle hcycle)⟩
  exact Finite.wellFounded_of_trans_of_irrefl _

/-- **When no node is ready, only nodes behind cycles are left.** -/
theorem behind_of_left (hready : (ofSchema s).ready? done = none)
    (hlt : i < (ofSchema s).size) (hleft : i ∉ done) : (ofSchema s).Behind i := by
  by_contra hnot
  have hall : ∀ x : { i // i < (ofSchema s).size ∧ ¬ (ofSchema s).Behind i }, x.1 ∈ done := by
    intro x
    induction x using (wellFounded_of_not_behind (ofSchema s)).induction with
    | h x ih =>
      by_contra hx
      obtain ⟨k, hedge, hk⟩ := exists_edge_of_left hready x.2.1 hx
      exact hk (ih ⟨k, (lt_size_of_edge hedge).1, fun hbehind => x.2.2 (hbehind.edge hedge)⟩
        (.single hedge))
  exact hleft (hall ⟨i, hlt, hnot⟩)

/-- **The nodes that are taken are those behind no cycle.** -/
theorem mem_sequence_iff (hlt : i < (ofSchema s).size) :
    i ∈ (ofSchema s).sequence ↔ ¬ (ofSchema s).Behind i := by
  rw [sequence_ofSchema]
  constructor
  · exact not_behind_of_mem_advance _ [] (fun _ h => absurd h List.not_mem_nil) i
  · intro hnot
    by_contra hleft
    exact hnot (behind_of_left (ready?_advance _ [] sorted_nil (Nat.zero_add _)) hlt hleft)

/-! ## The order of evaluation -/

/-- **There is no order when there is a cycle.** -/
theorem exists_order_iff : (∃ order, (ofSchema s).order = .ok order) ↔ ¬ (ofSchema s).HasCycle := by
  constructor
  · rintro ⟨order, horder⟩ ⟨i, hcycle⟩
    obtain ⟨hlen, -⟩ := order_eq_ok_iff.mp horder
    obtain ⟨j, -, hedge⟩ := TransGen.tail'_iff.mp hcycle
    have hlt := (lt_size_of_edge hedge).2
    exact (mem_sequence_iff hlt).mp (mem_of_length_eq_size sorted_sequence.nodup
      sorted_sequence.lt_size hlen.ge hlt) (.of_cycle hcycle)
  · exact exists_order_of_acyclic

theorem order_eq_error {f : Failure} (h : g.order = .error f) : f = g.cyclicFailure := by
  rw [order] at h
  split_ifs at h
  exact (Except.error.inj h).symm

theorem map_key_range (g : Graph) : (List.range g.size).map g.key = g.keys := by
  refine List.ext_getElem (by rw [List.length_map, List.length_range, size]) fun i hi hi' => ?_
  rw [List.getElem_map, List.getElem_range, key, List.getD_eq_getElem?_getD,
    List.getElem?_eq_getElem hi', Option.getD_some]

theorem unresolved_sublist (g : Graph) : (g.unresolved.map g.key).Sublist g.keys := by
  rw [← map_key_range g]
  exact List.filter_sublist.map g.key

/-- **The keys that no order reaches are those behind a cycle.** -/
theorem mem_unresolved_iff {key : String} : key ∈ (ofSchema s).unresolved.map (ofSchema s).key ↔
    ∃ i, (ofSchema s).node? key = some i ∧ (ofSchema s).Behind i := by
  rw [List.mem_map]
  constructor
  · rintro ⟨i, hi, rfl⟩
    obtain ⟨hrange, hleft⟩ := List.mem_filter.mp hi
    have hlt := List.mem_range.mp hrange
    refine ⟨i, node?_key nodup_keys_ofSchema hlt, ?_⟩
    by_contra hnot
    rw [List.contains_iff_mem.mpr ((mem_sequence_iff hlt).mpr hnot)] at hleft
    cases hleft
  · rintro ⟨i, hi, hbehind⟩
    have hlt := lt_size_of_node? hi
    refine ⟨i, List.mem_filter.mpr ⟨List.mem_range.mpr hlt, ?_⟩, key_of_node? hi⟩
    rw [Bool.not_eq_true', Bool.eq_false_iff, ne_eq, List.contains_iff_mem]
    exact fun hmem => (mem_sequence_iff hlt).mp hmem hbehind

/-! ## The search for a cycle -/

/-- **No search goes on for ever**: looks at the stack do not follow one another without end. -/
theorem wellFounded_step (g : Graph) : WellFounded fun t s : Descent => s.step g = .on t :=
  Subrelation.wf Descent.lex_weight_of_step
    (InvImage.wf Descent.weight (Prod.lex Nat.lt_wfRel Nat.lt_wfRel).wf)

theorem IsCycle.lt_size {c : List ℕ} (h : (ofSchema s).IsCycle c) :
    ∀ i ∈ c, i < (ofSchema s).size :=
  h.chain.induction (fun i => i < (ofSchema s).size) c
    (fun _ _ hedge _ => (lt_size_of_edge hedge).2) fun _ => (lt_size_of_edge h.closes).2

/-- An edge leads from one key to another. -/
def Leads (g : Graph) (source target : String) : Prop :=
  ∃ targets, g.successors? source = some targets ∧ target ∈ targets

theorem leads_of_edge (h : (ofSchema s).Edge i j) :
    (ofSchema s).Leads ((ofSchema s).key i) ((ofSchema s).key j) := by
  refine ⟨((ofSchema s).next i).map (ofSchema s).key, ?_, List.mem_map_of_mem h⟩
  rw [successors?, node?_key nodup_keys_ofSchema (lt_size_of_edge h).1]
  rfl

/-- **Keys along a cycle**: distinct, an edge from each to the next, and one from the last to the
first. -/
structure IsKeyCycle (g : Graph) (c : List String) : Prop where
  ne_nil : c ≠ []
  nodup : c.Nodup
  chain : c.IsChain g.Leads
  closes : g.Leads (c.getLast ne_nil) (c.head ne_nil)

theorem IsCycle.isKeyCycle {c : List ℕ} (h : (ofSchema s).IsCycle c) :
    (ofSchema s).IsKeyCycle (c.map (ofSchema s).key) := by
  have hne : c.map (ofSchema s).key ≠ [] := fun hnil => h.ne_nil (List.map_eq_nil_iff.mp hnil)
  refine ⟨hne, ?_, ?_, ?_⟩
  · exact h.nodup.map_on fun i hi j hj =>
      key_inj nodup_keys_ofSchema (h.lt_size i hi) (h.lt_size j hj)
  · rw [List.isChain_map]
    exact h.chain.imp fun _ _ => leads_of_edge
  · rw [List.getLast_map, List.head_map]
    exact leads_of_edge h.closes

theorem isKeyCycle_of_cycle? {c : List String} (h : (ofSchema s).cycle? = some c) :
    (ofSchema s).IsKeyCycle c := by
  obtain ⟨nodes, hnodes, rfl⟩ := Option.map_eq_some_iff.mp h
  exact (isCycle_of_cycleNodes? (bounded_ofSchema s) hnodes).isKeyCycle

theorem IsKeyCycle.eq_singleton : {c : List String} → (h : g.IsKeyCycle c) →
    c.head h.ne_nil = c.getLast h.ne_nil → c = [c.head h.ne_nil]
  | [], h, _ => absurd rfl h.ne_nil
  | [_], _, _ => rfl
  | k :: l :: ks, h, hself => by
    have hlast : k ∈ l :: ks := by
      rw [List.head_cons, List.getLast_cons (List.cons_ne_nil l ks)] at hself
      exact hself ▸ List.getLast_mem (List.cons_ne_nil l ks)
    exact absurd hlast (List.nodup_cons.mp h.nodup).1

/-! ## What is reported -/

/-- **What the search for a cycle and the order of evaluation report** of a graph. -/
structure NamesCycles (g : Graph) : Prop where
  /-- The search comes to an end: looks at the stack do not follow one another without end. -/
  ends : WellFounded fun t s : Descent => s.step g = .on t
  none_iff : g.cycle? = none ↔ ¬ g.HasCycle
  /-- What is found is a cycle, of one key if a self-loop closes it. -/
  genuine : ∀ c, g.cycle? = some c → ∃ h : g.IsKeyCycle c,
    c.head h.ne_nil = c.getLast h.ne_nil → c = [c.head h.ne_nil]
  fails_iff : (∃ f, g.order = .error f) ↔ ∃ c, g.cycle? = some c
  /-- The failure names the cycle that is found, and in order of declaration the keys that lie on a
  cycle or can be reached from one. -/
  failure : ∀ f, g.order = .error f → ∃ cycle unresolved, g.cycle? = some cycle ∧
    f = .cyclic cycle
      (.record [("cycle", .texts cycle), ("unresolved", .texts unresolved)])
      (some "Remova uma das regras ou fórmulas que fecham o ciclo.") ∧
    unresolved.Sublist g.keys ∧
      ∀ key, key ∈ unresolved ↔ ∃ i, g.node? key = some i ∧ g.Behind i

/-- **The search for a cycle and the order of evaluation agree**, and name the cycle and all that
lies behind one. -/
theorem Built.namesCycles (hg : g.Built) : g.NamesCycles := by
  obtain ⟨s, rfl⟩ := hg.exists_eq
  have hsearch := isSome_cycle? (bounded_ofSchema s)
  have hfails : (∃ f, (ofSchema s).order = .error f) ↔ (ofSchema s).HasCycle := by
    rw [← not_iff_not, ← exists_order_iff]
    cases (ofSchema s).order <;> simp
  refine ⟨wellFounded_step _, ?_,
    fun c hc => ⟨isKeyCycle_of_cycle? hc, (isKeyCycle_of_cycle? hc).eq_singleton⟩, ?_, ?_⟩
  · rw [← hsearch, Option.not_isSome_iff_eq_none]
  · rw [hfails, ← hsearch, Option.isSome_iff_exists]
  · intro f hf
    obtain ⟨c, hc⟩ := Option.isSome_iff_exists.mp (hsearch.mpr (hfails.mp ⟨f, hf⟩))
    refine ⟨c, _, hc, ?_, unresolved_sublist _, fun key => mem_unresolved_iff⟩
    rw [order_eq_error hf, cyclicFailure, hc]
    rfl

/-- A form with a tax that follows from the total and a total that follows from the tax, an amount
due that follows from the total, and a note that follows from itself. -/
def tangledForm : Schema where
  id := "tangled"
  version := 1
  title := "Tangled"
  description := ""
  fields := [
    { key := "due", type := .number, label := "", default := .null, constraints := {},
      choices := [], visible := true, formula := some ⟨.sum, ["total"], none, none⟩ },
    { key := "price", type := .number, label := "", default := .null, constraints := {},
      choices := [], visible := true, formula := none },
    { key := "total", type := .number, label := "", default := .null, constraints := {},
      choices := [], visible := true, formula := some ⟨.sum, ["price", "tax"], none, none⟩ },
    { key := "tax", type := .number, label := "", default := .null, constraints := {},
      choices := [], visible := true, formula := some ⟨.sum, ["total"], none, none⟩ },
    { key := "note", type := .text, label := "", default := .null, constraints := {},
      choices := [], visible := true, formula := some ⟨.concat, ["note"], none, none⟩ }]
  rules := []
  layout := []

theorem hasCycle_tangledForm : (ofSchema tangledForm).HasCycle :=
  have htax : (ofSchema tangledForm).Edge 2 3 := by unfold Edge; decide
  have htotal : (ofSchema tangledForm).Edge 3 2 := by unfold Edge; decide
  ⟨2, TransGen.head htax (.single htotal)⟩

theorem tangled_namesCycles : (ofSchema tangledForm).Built ∧ (ofSchema tangledForm).HasCycle ∧
    (ofSchema tangledForm).NamesCycles :=
  have hbuilt : (ofSchema tangledForm).Built := ⟨tangledForm, Or.inl rfl⟩
  ⟨hbuilt, hasCycle_tangledForm, hbuilt.namesCycles⟩

end Graph

end LiveForm
