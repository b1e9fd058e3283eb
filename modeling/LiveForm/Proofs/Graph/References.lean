import Mathlib.Data.List.Basic
import LiveForm.Proofs.Graph.Complete

/-!
# References and the graph

The nodes of the graph of a schema are its keys in order of first declaration, and its edges are
the references between them, each listed once and in increasing order.

* `Schema.pairwise_distinct`: distinct keys stand as they were first declared;
* `Graph.Represents`: a graph that holds the references of a schema and nothing else;
* **`Graph.represents_ofSchema`**: the graph of a schema does.
-/

namespace LiveForm

variable {s : Schema}

/-! ## Keys -/

namespace Schema

theorem pairwise_distinct (ks : List String) :
    (distinct ks).Pairwise fun a b => ks.idxOf a < ks.idxOf b := by
  induction ks with
  | nil => exact List.Pairwise.nil
  | cons k ks ih =>
    rw [distinct, List.pairwise_cons]
    have hne : ∀ a ∈ (distinct ks).filter (· ≠ k), k ≠ a := fun a ha =>
      Ne.symm (of_decide_eq_true (List.mem_filter.mp ha).2)
    constructor
    · intro a ha
      rw [List.idxOf_cons_self, List.idxOf_cons_ne ks (hne a ha)]
      exact Nat.succ_pos _
    · refine (ih.filter _).imp_of_mem fun {a b} ha hb hab => ?_
      rw [List.idxOf_cons_ne ks (hne a ha), List.idxOf_cons_ne ks (hne b hb)]
      exact Nat.succ_lt_succ hab

end Schema

namespace Graph

theorem getElem?_keys_eq_some {g : Graph} {key : String} {i : ℕ} :
    g.keys[i]? = some key ↔ i < g.size ∧ g.key i = key := by
  rw [List.getElem?_eq_some_iff, Graph.key, List.getD_eq_getElem?_getD]
  constructor
  · rintro ⟨hi, rfl⟩
    exact ⟨hi, by rw [List.getElem?_eq_getElem hi, Option.getD_some]⟩
  · rintro ⟨hi, rfl⟩
    exact ⟨hi, by rw [List.getElem?_eq_getElem hi, Option.getD_some]⟩

theorem node?_eq_some_iff {g : Graph} (hg : g.keys.Nodup) {key : String} {i : ℕ} :
    g.node? key = some i ↔ g.keys[i]? = some key := by
  rw [getElem?_keys_eq_some]
  constructor
  · exact fun h => ⟨lt_size_of_node? h, key_of_node? h⟩
  · rintro ⟨hi, rfl⟩
    exact node?_key hg hi

/-! ## Edges -/

/-- **The graph holds the references of a schema**, and nothing else. -/
structure Represents (g : Graph) (s : Schema) : Prop where
  /-- The keys are those of the fields, in order of first declaration. -/
  mem_keys : ∀ key, key ∈ g.keys ↔ key ∈ s.fieldKeys
  keys_pairwise : g.keys.Pairwise fun a b => s.fieldKeys.idxOf a < s.fieldKeys.idxOf b
  /-- The node of a key is its place. -/
  node?_iff : ∀ key i, g.node? key = some i ↔ g.keys[i]? = some key
  adjacency_length : g.adjacency.length = g.keys.length
  adjacency_pairwise : ∀ nodes ∈ g.adjacency, nodes.Pairwise (· < ·)
  /-- An edge leads to a field from each source of its formulas, and from the trigger of each rule
  that targets it. -/
  edge_iff : ∀ i j, j ∈ g.next i ↔ ∃ source target,
    g.keys[i]? = some source ∧ g.keys[j]? = some target ∧
      ((∃ f ∈ s.fields, f.key = target ∧ source ∈ f.sources) ∨
        ∃ r ∈ s.rules, r.trigger = source ∧ r.target = target)
  predecessors_length : g.predecessors.length = g.keys.length
  predecessors_pairwise : ∀ nodes ∈ g.predecessors, nodes.Pairwise (· < ·)
  previous_iff : ∀ i j, i ∈ g.previous j ↔ j ∈ g.next i

/-- **The graph of a schema holds its references.** -/
theorem represents_ofSchema (s : Schema) : (ofSchema s).Represents s where
  mem_keys _ := mem_keys_ofSchema
  keys_pairwise := by
    rw [keys_ofSchema]
    exact Schema.pairwise_distinct _
  node?_iff _ _ := node?_eq_some_iff nodup_keys_ofSchema
  adjacency_length := length_adjacency_ofSchema
  adjacency_pairwise _ := pairwise_of_mem_adjacency
  edge_iff i j := by
    rw [mem_next_ofSchema]
    simp only [node?_eq_some_iff nodup_keys_ofSchema, ← Schema.feeds_iff]
    constructor
    · rintro ⟨r, hr, hi, hj⟩
      exact ⟨r.source, r.target, hi, hj, r, hr, rfl, rfl⟩
    · rintro ⟨_, _, hi, hj, r, hr, rfl, rfl⟩
      exact ⟨r, hr, hi, hj⟩
  predecessors_length := length_predecessors_ofSchema
  predecessors_pairwise nodes h := by
    obtain ⟨j, hj⟩ := List.getElem?_of_mem h
    rw [getElem?_predecessors_ofSchema] at hj
    split_ifs at hj
    obtain rfl := Option.some.inj hj
    exact List.pairwise_lt_range.filter _
  previous_iff i j := by
    by_cases hj : j < (ofSchema s).size
    · exact mem_previous_ofSchema hj
    · have hnone : (ofSchema s).previous j = [] := by
        rw [previous, List.getD_eq_getElem?_getD, getElem?_predecessors_ofSchema, if_neg hj]
        rfl
      rw [hnone]
      exact ⟨fun h => absurd h List.not_mem_nil, fun h => absurd (lt_size_of_mem_next h) hj⟩

end Graph

end LiveForm
