import Mathlib.Data.List.Nodup
import Mathlib.Data.List.Perm.Subperm
import LiveForm.Proofs.Graph.Edge

/-!
# What a search reaches

A search from a stack ends with a set of nodes that no edge leaves: there is always room for
another node, since nodes are seen once and there are only `size` of them.

* `Graph.Searching`: what holds between two steps of a search;
* `Graph.reach_closed`: the result holds the stack and what was seen, and no edge leaves it;
* **`Graph.mem_descendantKeys_of_feeds`**: what follows from a field or from one of its descendants
  is a descendant.
-/

namespace LiveForm

namespace Graph

theorem mem_of_length_eq_size {n : ℕ} {ns : List ℕ} (hnodup : ns.Nodup) (hlt : ∀ i ∈ ns, i < n)
    (hlen : n ≤ ns.length) {i : ℕ} (hi : i < n) : i ∈ ns := by
  have hsub : ns.Subperm (List.range n) :=
    List.subperm_of_subset hnodup fun j hj => List.mem_range.mpr (hlt j hj)
  have hperm := hsub.perm_of_length_le (by rw [List.length_range]; exact hlen)
  exact hperm.mem_iff.mpr (List.mem_range.mpr hi)

/-- **Between two steps of a search**: the seen nodes are distinct, an edge from a seen node leads
to a seen one or into the stack, and there is room for all nodes that are not seen. -/
structure Searching (g : Graph) (room : ℕ) (stack seen : List ℕ) : Prop where
  nodup : seen.Nodup
  seen_lt : ∀ i ∈ seen, i < g.size
  stack_lt : ∀ i ∈ stack, i < g.size
  next_mem : ∀ i ∈ seen, ∀ j ∈ g.next i, j ∈ seen ∨ j ∈ stack
  room_le : g.size ≤ seen.length + room

/-- No edge leaves a set of nodes. -/
def Closed (g : Graph) (ns : List ℕ) : Prop := ∀ i ∈ ns, ∀ j ∈ g.next i, j ∈ ns

variable {g : Graph}

namespace Searching

theorem skip {room i : ℕ} {stack seen : List ℕ} (h : Searching g room (i :: stack) seen)
    (hi : i ∈ seen) : Searching g room stack seen where
  nodup := h.nodup
  seen_lt := h.seen_lt
  stack_lt j hj := h.stack_lt j (List.mem_cons_of_mem i hj)
  next_mem a ha j hj := by
    rcases h.next_mem a ha j hj with hj | hj
    · exact Or.inl hj
    · rcases List.mem_cons.mp hj with rfl | hj
      · exact Or.inl hi
      · exact Or.inr hj
  room_le := h.room_le

theorem take (hg : ∀ i j, j ∈ g.next i → j < g.size) {room i : ℕ} {stack seen : List ℕ}
    (h : Searching g (room + 1) (i :: stack) seen) (hi : i ∉ seen) :
    Searching g room (g.next i ++ stack) (i :: seen) where
  nodup := List.nodup_cons.mpr ⟨hi, h.nodup⟩
  seen_lt := List.forall_mem_cons.mpr ⟨h.stack_lt i List.mem_cons_self, h.seen_lt⟩
  stack_lt j hj := by
    rcases List.mem_append.mp hj with hj | hj
    · exact hg i j hj
    · exact h.stack_lt j (List.mem_cons_of_mem i hj)
  next_mem a ha j hj := by
    rcases List.mem_cons.mp ha with rfl | ha
    · exact Or.inr (List.mem_append_left _ hj)
    · rcases h.next_mem a ha j hj with hj | hj
      · exact Or.inl (List.mem_cons_of_mem i hj)
      · rcases List.mem_cons.mp hj with rfl | hj
        · exact Or.inl List.mem_cons_self
        · exact Or.inr (List.mem_append_right _ hj)
  room_le := by
    have := h.room_le
    rw [List.length_cons]; omega

theorem mem_of_no_room {i : ℕ} {stack seen : List ℕ} (h : Searching g 0 (i :: stack) seen) :
    i ∈ seen :=
  mem_of_length_eq_size h.nodup h.seen_lt h.room_le (h.stack_lt i List.mem_cons_self)

end Searching

/-- **The result of a search holds the stack and what was seen, and no edge leaves it.** -/
theorem reach_closed (hg : ∀ i j, j ∈ g.next i → j < g.size) {room : ℕ} {stack seen : List ℕ}
    (h : Searching g room stack seen) :
    (∀ i ∈ seen, i ∈ g.reach room stack seen) ∧ (∀ i ∈ stack, i ∈ g.reach room stack seen) ∧
      (∀ i ∈ g.reach room stack seen, i < g.size) ∧ g.Closed (g.reach room stack seen) := by
  fun_induction g.reach room stack seen with
  | case1 room seen =>
    refine ⟨fun i hi => hi, fun i hi => (List.not_mem_nil hi).elim, h.seen_lt, ?_⟩
    intro i hi j hj
    exact (h.next_mem i hi j hj).resolve_right List.not_mem_nil
  | case2 room seen i stack hi ih =>
    have hmem : i ∈ seen := List.contains_iff_mem.mp hi
    obtain ⟨h₁, h₂, h₃⟩ := ih (h.skip hmem)
    refine ⟨h₁, ?_, h₃⟩
    intro j hj
    rcases List.mem_cons.mp hj with rfl | hj
    · exact h₁ _ hmem
    · exact h₂ j hj
  | case3 seen i stack hi =>
    exact absurd (List.contains_iff_mem.mpr h.mem_of_no_room) hi
  | case4 seen i stack hi room ih =>
    have hmem : i ∉ seen := fun hmem => hi (List.contains_iff_mem.mpr hmem)
    obtain ⟨h₁, h₂, h₃⟩ := ih (h.take hg hmem)
    refine ⟨fun j hj => h₁ j (List.mem_cons_of_mem i hj), ?_, h₃⟩
    intro j hj
    rcases List.mem_cons.mp hj with rfl | hj
    · exact h₁ _ List.mem_cons_self
    · exact h₂ j (List.mem_append_right _ hj)

theorem searching_start (hg : ∀ i j, j ∈ g.next i → j < g.size) (i : ℕ) :
    Searching g g.size (g.next i) [] where
  nodup := List.nodup_nil
  seen_lt _ h := (List.not_mem_nil h).elim
  stack_lt j hj := hg i j hj
  next_mem _ h := (List.not_mem_nil h).elim
  room_le := by simp

/-! ## Descendants of fields -/

variable {s : Schema} {key source target : String}

theorem mem_descendantKeys {i : ℕ} (hi : (ofSchema s).node? key = some i) :
    target ∈ (ofSchema s).descendantKeys key ↔
      ∃ j ∈ (ofSchema s).descendants i, (ofSchema s).key j = target := by
  rw [descendantKeys, hi, List.mem_map]

theorem declared_of_mem_descendantKeys (h : target ∈ (ofSchema s).descendantKeys key) :
    target ∈ s.fieldKeys := by
  have hlt := fun i j => lt_size_of_mem_next (s := s) (i := i) (j := j)
  cases hi : (ofSchema s).node? key with
  | none =>
    rw [descendantKeys, hi] at h
    cases h
  | some i =>
    obtain ⟨j, hj, rfl⟩ := (mem_descendantKeys hi).mp h
    obtain ⟨-, -, hdesc, -⟩ := reach_closed hlt (searching_start hlt i)
    exact mem_keys_ofSchema.mp (key_mem (hdesc j hj))

/-- **What follows from a field or from one of its descendants is a descendant.** -/
theorem mem_descendantKeys_of_feeds (hkey : key ∈ s.fieldKeys) (htarget : target ∈ s.fieldKeys)
    (h : s.Feeds source target)
    (hsource : source = key ∨ source ∈ (ofSchema s).descendantKeys key) :
    target ∈ (ofSchema s).descendantKeys key := by
  obtain ⟨i, hi⟩ := exists_node? (mem_keys_ofSchema.mpr hkey)
  obtain ⟨j, hj⟩ := exists_node? (mem_keys_ofSchema.mpr htarget)
  have hlt := fun i j => lt_size_of_mem_next (s := s) (i := i) (j := j)
  obtain ⟨-, hnext, hdesc, hclosed⟩ := reach_closed hlt (searching_start hlt i)
  refine (mem_descendantKeys hi).mpr ⟨j, ?_, key_of_node? hj⟩
  rcases hsource with rfl | hsource
  · exact hnext j (mem_next_of_feeds h hi hj)
  · obtain ⟨m, hm, rfl⟩ := (mem_descendantKeys hi).mp hsource
    exact hclosed m hm j (mem_next_of_feeds h (node?_key nodup_keys_ofSchema (hdesc m hm)) hj)

end Graph

end LiveForm
