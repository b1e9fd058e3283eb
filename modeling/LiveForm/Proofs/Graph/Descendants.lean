import Mathlib.Algebra.BigOperators.Group.Finset.Basic
import Mathlib.Algebra.Order.BigOperators.Group.Finset
import LiveForm.Proofs.Graph.Unresolved

/-!
# Descendants

A search for the descendants of a node takes nodes off a stack, one at a time and whichever comes
first. A node that is new is seen from then on, and the nodes that depend on it join the stack. A
node may stand on the stack many times, but it is seen once, so each edge puts one node on the
stack at most, and as each step takes one off, the search comes to an end, also where edges lead
back.

* `Graph.Search.Step`, `Graph.Search.Steps`: the steps of a search, in any order;
* `Graph.Underway`: what holds after some steps of a search;
* `Graph.steps_reach`: the search that finds the descendants goes by such steps;
* `Graph.mem_descendants`: descendants are what can be reached by one edge or more;
* `Graph.transGen_self_iff`: what can be reached from itself lies on a cycle;
* **`Graph.Built.findsDescendants`**: every search ends with the descendants.
-/

namespace LiveForm

namespace Graph

open Relation (TransGen ReflTransGen)

/-- A search between two steps: the nodes on the stack, in any order, and those that were seen. -/
structure Search where
  stack : Multiset ℕ
  seen : Finset ℕ

namespace Search

/-- **One step of a search**, with any node of the stack. -/
inductive Step (g : Graph) : Search → Search → Prop
  | skip {i : ℕ} {stack : Multiset ℕ} {seen : Finset ℕ} (hi : i ∈ seen) :
      Step g ⟨i ::ₘ stack, seen⟩ ⟨stack, seen⟩
  | take {i : ℕ} {stack : Multiset ℕ} {seen : Finset ℕ} (hi : i ∉ seen) :
      Step g ⟨i ::ₘ stack, seen⟩ ⟨g.next i + stack, insert i seen⟩

/-- A number of steps. -/
inductive Steps (g : Graph) : ℕ → Search → Search → Prop
  | zero {a : Search} : Steps g 0 a a
  | succ {n : ℕ} {a b c : Search} (h : Step g a b) (hs : Steps g n b c) : Steps g (n + 1) a c

/-- A search from the nodes that depend on a node. -/
def start (g : Graph) (i : ℕ) : Search := ⟨g.next i, ∅⟩

theorem stack_eq_zero {g : Graph} {a : Search} (h : ∀ b, ¬ Step g a b) : a.stack = 0 := by
  obtain ⟨stack, seen⟩ := a
  by_contra hne
  obtain ⟨i, hi⟩ := Multiset.exists_mem_of_ne_zero hne
  obtain ⟨rest, rfl⟩ := Multiset.exists_cons_of_mem hi
  by_cases hseen : i ∈ seen
  · exact h _ (.skip hseen)
  · exact h _ (.take hseen)

end Search

open Search (Step Steps start)

variable {g : Graph} {i j n : ℕ} {a b : Search}

/-! ## After some steps -/

/-- **After some steps of a search below a node**: the nodes on the stack and the seen ones can be
reached from it, what depends on it or on a seen node is seen or on the stack, and each edge from
it or from a seen node has put one node on the stack, which stands there or was taken off. -/
structure Underway (g : Graph) (i n : ℕ) (a : Search) : Prop where
  reached : ∀ j, j ∈ a.seen ∨ j ∈ a.stack → TransGen g.Edge i j
  start_mem : ∀ j, g.Edge i j → j ∈ a.seen ∨ j ∈ a.stack
  next_mem : ∀ k ∈ a.seen, ∀ j, g.Edge k j → j ∈ a.seen ∨ j ∈ a.stack
  count : n + a.stack.card = (g.next i).length + ∑ k ∈ a.seen, (g.next k).length

theorem underway_start (g : Graph) (i : ℕ) : g.Underway i 0 (start g i) where
  reached j hj := by
    rcases hj with hj | hj
    · exact absurd hj (Finset.notMem_empty j)
    · exact .single (Multiset.mem_coe.mp hj)
  start_mem j hj := Or.inr (Multiset.mem_coe.mpr hj)
  next_mem k hk := absurd hk (Finset.notMem_empty k)
  count := by rw [start, Multiset.coe_card, Finset.sum_empty, Nat.zero_add, Nat.add_zero]

namespace Underway

theorem step (h : g.Underway i n a) (hab : Step g a b) : g.Underway i (n + 1) b := by
  cases hab with
  | @skip k stack seen hk =>
    -- The node was seen, so nothing is lost with it.
    have hkeeps : ∀ j, j ∈ seen ∨ j ∈ k ::ₘ stack → j ∈ seen ∨ j ∈ stack := by
      rintro j (hj | hj)
      · exact Or.inl hj
      · rcases Multiset.mem_cons.mp hj with rfl | hj
        · exact Or.inl hk
        · exact Or.inr hj
    refine ⟨fun j hj => h.reached j (hj.imp_right Multiset.mem_cons_of_mem),
      fun j hj => hkeeps j (h.start_mem j hj),
      fun l hl j hj => hkeeps j (h.next_mem l hl j hj), ?_⟩
    have hcount := h.count
    rw [Multiset.card_cons] at hcount
    dsimp only at hcount ⊢
    omega
  | @take k stack seen hk =>
    have hreached := h.reached k (Or.inr (Multiset.mem_cons_self k stack))
    have hkeeps : ∀ j, j ∈ seen ∨ j ∈ k ::ₘ stack →
        j ∈ insert k seen ∨ j ∈ (g.next k : Multiset ℕ) + stack := by
      rintro j (hj | hj)
      · exact Or.inl (Finset.mem_insert_of_mem hj)
      · rcases Multiset.mem_cons.mp hj with rfl | hj
        · exact Or.inl (Finset.mem_insert_self _ _)
        · exact Or.inr (Multiset.mem_add.mpr (Or.inr hj))
    refine ⟨?_, fun j hj => hkeeps j (h.start_mem j hj), fun l hl j hj => ?_, ?_⟩
    · rintro j (hj | hj)
      · rcases Finset.mem_insert.mp hj with rfl | hj
        · exact hreached
        · exact h.reached j (Or.inl hj)
      · rcases Multiset.mem_add.mp hj with hj | hj
        · exact hreached.tail (Multiset.mem_coe.mp hj)
        · exact h.reached j (Or.inr (Multiset.mem_cons_of_mem hj))
    · rcases Finset.mem_insert.mp hl with rfl | hl
      · exact Or.inr (Multiset.mem_add.mpr (Or.inl (Multiset.mem_coe.mpr hj)))
      · exact hkeeps j (h.next_mem l hl j hj)
    · have hcount := h.count
      rw [Multiset.card_cons] at hcount
      rw [Multiset.card_add, Multiset.coe_card, Finset.sum_insert hk]
      dsimp only at hcount
      omega

theorem steps {m : ℕ} (h : g.Underway i n a) (hs : Steps g m a b) : g.Underway i (n + m) b := by
  induction hs generalizing n with
  | zero => exact h
  | succ hab _ ih =>
    have hrest := ih (h.step hab)
    rwa [Nat.add_assoc, Nat.add_comm 1] at hrest

/-- **With nothing left on the stack, the seen nodes are those that can be reached.** -/
theorem mem_seen (h : g.Underway i n a) (hstack : a.stack = 0) :
    j ∈ a.seen ↔ TransGen g.Edge i j := by
  have hseen : ∀ k, k ∈ a.seen ∨ k ∈ a.stack → k ∈ a.seen := by
    rintro k (hk | hk)
    · exact hk
    · rw [hstack] at hk
      exact absurd hk (Multiset.notMem_zero k)
  constructor
  · exact fun hj => h.reached j (Or.inl hj)
  · intro hpath
    induction hpath with
    | single hedge => exact hseen _ (h.start_mem _ hedge)
    | tail _ hedge ih => exact hseen _ (h.next_mem _ ih _ hedge)

end Underway

/-! ## The descendants -/

theorem nodup_reach {room : ℕ} {stack seen : List ℕ} (h : seen.Nodup) :
    (g.reach room stack seen).Nodup := by
  fun_induction g.reach room stack seen with
  | case1 room seen => exact h
  | case2 room seen k stack hk ih => exact ih h
  | case3 seen k stack hk => exact h
  | case4 seen k stack hk room ih =>
    exact ih (List.nodup_cons.mpr ⟨fun hmem => hk (List.contains_iff_mem.mpr hmem), h⟩)

/-- **A search with room for all nodes works its stack off.** -/
theorem steps_reach (hg : g.Bounded) {room : ℕ} {stack seen : List ℕ}
    (h : Searching g room stack seen) :
    ∃ n, Steps g n ⟨stack, seen.toFinset⟩ ⟨0, (g.reach room stack seen).toFinset⟩ := by
  fun_induction g.reach room stack seen with
  | case1 room seen => exact ⟨0, .zero⟩
  | case2 room seen k stack hk ih =>
    have hmem := List.contains_iff_mem.mp hk
    obtain ⟨n, hsteps⟩ := ih (h.skip hmem)
    rw [← Multiset.cons_coe]
    exact ⟨n + 1, .succ (.skip (List.mem_toFinset.mpr hmem)) hsteps⟩
  | case3 seen k stack hk => exact absurd (List.contains_iff_mem.mpr h.mem_of_no_room) hk
  | case4 seen k stack hk room ih =>
    have hnew : k ∉ seen := fun hmem => hk (List.contains_iff_mem.mpr hmem)
    obtain ⟨n, hsteps⟩ := ih (h.take hg hnew)
    rw [List.toFinset_cons, ← Multiset.coe_add] at hsteps
    rw [← Multiset.cons_coe]
    exact ⟨n + 1, .succ (.take fun hmem => hnew (List.mem_toFinset.mp hmem)) hsteps⟩

theorem exists_steps (hg : g.Bounded) (i : ℕ) :
    ∃ n, Steps g n (start g i) ⟨0, (g.descendants i).toFinset⟩ :=
  steps_reach hg (searching_start hg i)

/-- **The descendants of a node are what can be reached from it by one edge or more.** -/
theorem mem_descendants (hg : g.Bounded) : j ∈ g.descendants i ↔ TransGen g.Edge i j := by
  obtain ⟨n, hsteps⟩ := exists_steps hg i
  rw [← List.mem_toFinset]
  exact ((underway_start g i).steps hsteps).mem_seen rfl

theorem lt_size_of_mem_descendants (hg : g.Bounded) (h : j ∈ g.descendants i) : j < g.size := by
  obtain ⟨k, -, hedge⟩ := TransGen.tail'_iff.mp ((mem_descendants hg).mp h)
  exact hg k j hedge

/-- **Every search below a node ends**, as it takes off no more than edges put on the stack. -/
theorem length_le_of_steps (hg : g.Bounded) (hs : Steps g n (start g i) a) :
    n ≤ (g.next i).length + ∑ k ∈ (g.descendants i).toFinset, (g.next k).length := by
  have hunderway := (underway_start g i).steps hs
  have hsub : a.seen ⊆ (g.descendants i).toFinset := fun k hk =>
    List.mem_toFinset.mpr ((mem_descendants hg).mpr (hunderway.reached k (Or.inl hk)))
  have hcount := hunderway.count
  have hsum := Finset.sum_le_sum_of_subset (f := fun k => (g.next k).length) hsub
  omega

/-- **A search that cannot go on has seen the descendants.** -/
theorem eq_of_steps (hg : g.Bounded) (hs : Steps g n (start g i) a) (hend : ∀ b, ¬ Step g a b) :
    a = ⟨0, (g.descendants i).toFinset⟩ := by
  have hstack := Search.stack_eq_zero hend
  have hseen : a.seen = (g.descendants i).toFinset := by
    ext k
    rw [((underway_start g i).steps hs).mem_seen hstack, List.mem_toFinset, mem_descendants hg]
  obtain ⟨stack, seen⟩ := a
  rw [Search.mk.injEq]
  exact ⟨hstack, hseen⟩

/-! ## Cycles -/

theorem exists_path {α : Type} {r : α → α → Prop} {x y : α} (h : ReflTransGen r x y) :
    ∃ l, (x :: l).IsChain r ∧ (x :: l).Nodup ∧ (x :: l).getLast (List.cons_ne_nil x l) = y := by
  induction h using ReflTransGen.head_induction_on with
  | refl => exact ⟨[], .singleton y, List.nodup_singleton y, rfl⟩
  | @head x z hxz _ ih =>
    obtain ⟨l, hchain, hnodup, hlast⟩ := ih
    by_cases hx : x ∈ z :: l
    · -- The path comes back to where it begins: what lies between is left out.
      obtain ⟨pre, post, hsplit⟩ := List.append_of_mem hx
      have hsuffix : x :: post <:+ z :: l := ⟨pre, hsplit.symm⟩
      refine ⟨post, hchain.suffix hsuffix, hnodup.sublist hsuffix.sublist, ?_⟩
      rw [hsuffix.getLast, hlast]
    · refine ⟨z :: l, List.isChain_cons_cons.mpr ⟨hxz, hchain⟩,
        List.nodup_cons.mpr ⟨hx, hnodup⟩, ?_⟩
      rw [List.getLast_cons (List.cons_ne_nil z l), hlast]

/-- **A key can be reached from itself just when it lies on a cycle.** -/
theorem transGen_self_iff {key : String} :
    TransGen g.Leads key key ↔ ∃ c, g.IsKeyCycle c ∧ key ∈ c := by
  constructor
  · intro hcycle
    obtain ⟨last, hpath, hback⟩ := TransGen.tail'_iff.mp hcycle
    obtain ⟨l, hchain, hnodup, hlast⟩ := exists_path hpath
    exact ⟨key :: l, ⟨List.cons_ne_nil key l, hnodup, hchain, hlast ▸ hback⟩, List.mem_cons_self⟩
  · rintro ⟨c, hc, hkey⟩
    have hfrom : ReflTransGen g.Leads (c.head hc.ne_nil) key :=
      hc.chain.induction (ReflTransGen g.Leads (c.head hc.ne_nil)) c
        (fun _ _ hedge hk => hk.tail hedge) (fun _ => .refl) key hkey
    have hto : ReflTransGen g.Leads key (c.getLast hc.ne_nil) :=
      hc.chain.backwards_induction (fun k => ReflTransGen g.Leads k (c.getLast hc.ne_nil)) c
        (fun _ _ hedge hk => hk.head hedge) (fun _ => .refl) key hkey
    exact TransGen.trans_right hto (TransGen.head' hc.closes hfrom)

/-! ## Keys -/

variable {s : Schema} {key target : String}

theorem leads_iff (hi : g.node? key = some i) :
    g.Leads key target ↔ ∃ j, g.Edge i j ∧ g.key j = target := by
  rw [Leads, successors?, hi]
  constructor
  · rintro ⟨targets, htargets, hmem⟩
    obtain rfl := Option.some.inj htargets
    exact List.mem_map.mp hmem
  · intro h
    exact ⟨_, rfl, List.mem_map.mpr h⟩

theorem transGen_leads_iff (hi : (ofSchema s).node? key = some i) :
    TransGen (ofSchema s).Leads key target ↔
      ∃ j, TransGen (ofSchema s).Edge i j ∧ (ofSchema s).key j = target := by
  constructor
  · intro h
    induction h with
    | single h =>
      obtain ⟨j, hedge, hkey⟩ := (leads_iff hi).mp h
      exact ⟨j, .single hedge, hkey⟩
    | tail _ h ih =>
      obtain ⟨j, hpath, rfl⟩ := ih
      obtain ⟨k, -, hlast⟩ := TransGen.tail'_iff.mp hpath
      have hnode := node?_key nodup_keys_ofSchema (lt_size_of_edge hlast).2
      obtain ⟨l, hedge, hkey⟩ := (leads_iff hnode).mp h
      exact ⟨l, hpath.tail hedge, hkey⟩
  · rintro ⟨j, hpath, rfl⟩
    rw [← key_of_node? hi]
    exact hpath.lift (ofSchema s).key fun _ _ => leads_of_edge

/-- **The descendants of a key are the keys that can be reached from it.** -/
theorem mem_descendantKeys_iff (hkey : key ∈ (ofSchema s).keys) :
    target ∈ (ofSchema s).descendantKeys key ↔ TransGen (ofSchema s).Leads key target := by
  obtain ⟨i, hi⟩ := exists_node? hkey
  rw [mem_descendantKeys hi, transGen_leads_iff hi]
  simp only [mem_descendants (bounded_ofSchema s)]

theorem nodup_descendantKeys (s : Schema) (key : String) :
    ((ofSchema s).descendantKeys key).Nodup := by
  rw [descendantKeys]
  split
  · next i hi =>
    have hbounded := bounded_ofSchema s
    exact (nodup_reach List.nodup_nil).map_on fun j hj k hk =>
      key_inj nodup_keys_ofSchema (lt_size_of_mem_descendants hbounded hj)
        (lt_size_of_mem_descendants hbounded hk)
  · exact List.nodup_nil

/-! ## Every search -/

/-- **What searches for descendants find**, whichever node of the stack they take first. -/
structure FindsDescendants (g : Graph) : Prop where
  /-- The descendants are found by one of them. -/
  runs : ∀ i, ∃ n, Steps g n (start g i) ⟨0, (g.descendants i).toFinset⟩
  /-- They come to an end: there are no more steps than edges from the node and its descendants. -/
  ends : ∀ i n a, Steps g n (start g i) a →
    n ≤ (g.next i).length + ∑ k ∈ (g.descendants i).toFinset, (g.next k).length
  /-- A search that cannot go on has seen the descendants. -/
  found : ∀ i n a, Steps g n (start g i) a → (∀ b, ¬ Step g a b) →
    a = ⟨0, (g.descendants i).toFinset⟩
  nodup : ∀ key ∈ g.keys, (g.descendantKeys key).Nodup
  mem_iff : ∀ key ∈ g.keys, ∀ target,
    target ∈ g.descendantKeys key ↔ TransGen g.Leads key target
  self_iff : ∀ key ∈ g.keys, key ∈ g.descendantKeys key ↔ ∃ c, g.IsKeyCycle c ∧ key ∈ c

/-- **Every search below a field ends with its descendants**, which are the fields that can be
reached from it; it is one of them just when it lies on a cycle. -/
theorem Built.findsDescendants (hg : g.Built) : g.FindsDescendants := by
  obtain ⟨s, rfl⟩ := hg.exists_eq
  have hbounded := bounded_ofSchema s
  refine ⟨exists_steps hbounded, fun i n a => length_le_of_steps hbounded,
    fun i n a => eq_of_steps hbounded, fun key _ => nodup_descendantKeys s key,
    fun key hkey target => mem_descendantKeys_iff hkey, fun key hkey => ?_⟩
  rw [mem_descendantKeys_iff hkey, transGen_self_iff]

theorem tangled_findsDescendants : (ofSchema tangledForm).Built ∧
    (ofSchema tangledForm).HasCycle ∧ (ofSchema tangledForm).FindsDescendants :=
  have hbuilt : (ofSchema tangledForm).Built := ⟨tangledForm, Or.inl rfl⟩
  ⟨hbuilt, hasCycle_tangledForm, hbuilt.findsDescendants⟩

end Graph

end LiveForm
