import Mathlib.Data.List.Nodup
import Mathlib.Tactic.SplitIfs
import LiveForm.Graph.Basic

/-!
# Edges and references

The edges of the graph of a schema are its references, seen through the positions of the keys.

* `Schema.Feeds`: the value of one field may follow from that of another;
* `Schema.feeds_iff`: it does by a formula or by a rule;
* `Graph.mem_next_ofSchema`: the edges of the graph;
* `Graph.getElem?_inverse`, `Graph.mem_previous_ofSchema`: the same edges backwards;
* **`Graph.mem_next_of_feeds`**: every reference between declared fields is an edge.
-/

namespace LiveForm

namespace Schema

/-- The schema declares a reference from one field to another. -/
def Feeds (s : Schema) (source target : String) : Prop :=
  ∃ r ∈ s.references, r.source = source ∧ r.target = target

theorem mem_formulaReferences {i : Nat} {f : Field} {r : Reference}
    (h : r ∈ formulaReferences i f) : r.source ∈ f.sources ∧ r.target = f.key := by
  obtain ⟨j, hj, rfl⟩ := List.mem_mapIdx.mp h
  exact ⟨List.getElem_mem hj, rfl⟩

theorem exists_formulaReference {i : Nat} {f : Field} {source : String} (h : source ∈ f.sources) :
    ∃ r ∈ formulaReferences i f, r.source = source ∧ r.target = f.key := by
  obtain ⟨j, hj, rfl⟩ := List.getElem_of_mem h
  exact ⟨_, List.mem_mapIdx.mpr ⟨j, hj, rfl⟩, rfl, rfl⟩

theorem feeds_iff {s : Schema} {source target : String} :
    s.Feeds source target ↔ (∃ f ∈ s.fields, f.key = target ∧ source ∈ f.sources) ∨
      ∃ r ∈ s.rules, r.trigger = source ∧ r.target = target := by
  constructor
  · rintro ⟨r, hr, rfl, rfl⟩
    rcases List.mem_append.mp hr with hr | hr
    · obtain ⟨refs, hrefs, hr⟩ := List.mem_flatten.mp hr
      obtain ⟨i, hi, rfl⟩ := List.mem_mapIdx.mp hrefs
      obtain ⟨hsource, htarget⟩ := mem_formulaReferences hr
      exact Or.inl ⟨_, List.getElem_mem hi, htarget.symm, hsource⟩
    · obtain ⟨i, hi, rfl⟩ := List.mem_mapIdx.mp hr
      exact Or.inr ⟨_, List.getElem_mem hi, rfl, rfl⟩
  · rintro (⟨f, hf, rfl, hsource⟩ | ⟨r, hr, rfl, rfl⟩)
    · obtain ⟨i, hi, rfl⟩ := List.getElem_of_mem hf
      obtain ⟨r, hr, h⟩ := exists_formulaReference (i := i) hsource
      exact ⟨r, List.mem_append_left _ (List.mem_flatten.mpr
        ⟨_, List.mem_mapIdx.mpr ⟨i, hi, rfl⟩, hr⟩), h⟩
    · obtain ⟨i, hi, rfl⟩ := List.getElem_of_mem hr
      exact ⟨_, List.mem_append_right _ (List.mem_mapIdx.mpr ⟨i, hi, rfl⟩), rfl, rfl⟩

theorem feeds_of_formula {s : Schema} {f : Field} (hf : f ∈ s.fields) {fo : Formula}
    (hfo : f.formula = some fo) {source : String} (h : source ∈ fo.sources) :
    s.Feeds source f.key := by
  have hsources : f.sources = fo.sources := by rw [Field.sources, hfo]; rfl
  exact feeds_iff.mpr (Or.inl ⟨f, hf, rfl, hsources ▸ h⟩)

theorem feeds_of_rule {s : Schema} {r : Rule} (hr : r ∈ s.rules) : s.Feeds r.trigger r.target :=
  feeds_iff.mpr (Or.inr ⟨r, hr, rfl, rfl⟩)

/-- The members of a list without those that occurred before. -/
def distinct : List String → List String
  | [] => []
  | k :: ks => k :: (distinct ks).filter (· ≠ k)

theorem mem_distinct {key : String} (ks : List String) : key ∈ distinct ks ↔ key ∈ ks := by
  induction ks with
  | nil => simp [distinct]
  | cons k ks ih =>
    by_cases hk : key = k
    · simp [distinct, hk]
    · simp [distinct, hk, ih]

theorem nodup_distinct (ks : List String) : (distinct ks).Nodup := by
  induction ks with
  | nil => simp [distinct]
  | cons k ks ih =>
    rw [distinct, List.nodup_cons]
    exact ⟨by simp, ih.filter _⟩

end Schema

namespace KeyIndex

theorem keys_add (k : KeyIndex) (key : String) :
    (k.add key).keys = if key ∈ k.keys then k.keys else k.keys ++ [key] := by
  rw [add]
  split
  · next h =>
    rw [k.get?_numbers] at h
    rw [if_pos (List.isSome_idxOf?.mp (Option.isSome_of_eq_some h))]
  · next h =>
    rw [k.get?_numbers, List.idxOf?_eq_none_iff] at h
    rw [if_neg h]

theorem keys_foldl_add (ks : List String) (k : KeyIndex) :
    (ks.foldl add k).keys = k.keys ++ (Schema.distinct ks).filter (· ∉ k.keys) := by
  induction ks generalizing k with
  | nil => simp [Schema.distinct]
  | cons key ks ih =>
    rw [List.foldl_cons, ih, keys_add, Schema.distinct]
    split_ifs with hkey
    · rw [List.filter_cons_of_neg (by simpa using hkey), List.filter_filter]
      congr 1
      refine List.filter_congr fun other _ => ?_
      by_cases ho : other = key
      · simp [ho, hkey]
      · simp [ho]
    · rw [List.filter_cons_of_pos (by simpa using hkey), List.filter_filter, List.append_assoc,
        List.singleton_append]
      congr 2
      refine List.filter_congr fun other _ => ?_
      simp [Bool.and_comm]

theorem keys_ofKeys (ks : List String) : (ofKeys ks).keys = Schema.distinct ks := by
  rw [ofKeys, keys_foldl_add, List.nil_append]
  exact List.filter_eq_self.mpr fun _ _ => rfl

end KeyIndex

namespace Graph

/-! ## Keys and nodes -/

section Keys

variable {g : Graph} {key : String} {i : Nat}

theorem node?_eq (g : Graph) (key : String) : g.node? key = g.keys.idxOf? key :=
  g.get?_numbers key

theorem lt_size_of_node? (h : g.node? key = some i) : i < g.size := by
  rw [node?_eq] at h
  obtain ⟨hi, -⟩ := List.idxOf?_eq_some_iff.mp h
  exact hi

theorem key_of_node? (h : g.node? key = some i) : g.key i = key := by
  rw [node?_eq] at h
  obtain ⟨hi, hk, -⟩ := List.idxOf?_eq_some_iff.mp h
  rw [Graph.key, List.getD_eq_getElem?_getD, List.getElem?_eq_getElem hi, Option.getD_some, hk]

theorem exists_node? (h : key ∈ g.keys) : ∃ i, g.node? key = some i := by
  rw [← Option.isSome_iff_exists, node?_eq]
  exact List.isSome_idxOf?.mpr h

theorem key_mem (h : i < g.size) : g.key i ∈ g.keys := by
  rw [Graph.key, List.getD_eq_getElem?_getD, List.getElem?_eq_getElem h, Option.getD_some]
  exact List.getElem_mem h

theorem node?_key (hg : g.keys.Nodup) (h : i < g.size) : g.node? (g.key i) = some i := by
  obtain ⟨j, hj⟩ := exists_node? (key_mem h)
  have hkey := key_of_node? hj
  rw [Graph.key, Graph.key, List.getD_eq_getElem?_getD, List.getD_eq_getElem?_getD,
    List.getElem?_eq_getElem h, List.getElem?_eq_getElem (lt_size_of_node? hj), Option.getD_some,
    Option.getD_some] at hkey
  rw [hj, hg.getElem_inj_iff.mp hkey]

theorem key_inj {j : Nat} (hg : g.keys.Nodup) (hi : i < g.size) (hj : j < g.size)
    (h : g.key i = g.key j) : i = j := by
  have hnode := node?_key hg hi
  rw [h, node?_key hg hj] at hnode
  exact (Option.some.inj hnode).symm

end Keys

/-! ## Edges -/

theorem mem_insertIncreasing {n m : Nat} (ms : List Nat) :
    m ∈ insertIncreasing n ms ↔ m = n ∨ m ∈ ms := by
  induction ms with
  | nil => simp [insertIncreasing]
  | cons k ks ih =>
    rw [insertIncreasing]
    split_ifs with h₁ h₂
    · simp
    · subst h₂; simp
    · rw [List.mem_cons, ih, List.mem_cons, or_left_comm]

theorem mem_targetsOf {edges : List (Nat × Nat)} {i j : Nat} :
    j ∈ targetsOf edges i ↔ (i, j) ∈ edges := by
  have hfold : ∀ ns : List Nat, j ∈ ns.foldr insertIncreasing [] ↔ j ∈ ns := by
    intro ns
    induction ns with
    | nil => simp
    | cons n ns ih => rw [List.foldr_cons, mem_insertIncreasing, ih, List.mem_cons]
  rw [targetsOf, hfold, List.mem_map]
  constructor
  · rintro ⟨⟨a, b⟩, he, rfl⟩
    obtain ⟨hmem, ha⟩ := List.mem_filter.mp he
    obtain rfl : a = i := by simpa using ha
    exact hmem
  · intro h
    exact ⟨(i, j), List.mem_filter.mpr ⟨h, by simp⟩, rfl⟩

theorem edge?_eq_some {numbers : Table String Nat} {r : Reference} {i j : Nat} :
    edge? numbers r = some (i, j) ↔
      numbers.get? r.source = some i ∧ numbers.get? r.target = some j := by
  simp only [edge?, Option.bind_eq_bind, Option.bind_eq_some_iff, Option.some.injEq, Prod.mk.injEq]
  constructor
  · rintro ⟨a, ha, b, hb, rfl, rfl⟩
    exact ⟨ha, hb⟩
  · rintro ⟨ha, hb⟩
    exact ⟨i, ha, j, hb, rfl, rfl⟩

variable {s : Schema}

theorem keys_ofSchema : (ofSchema s).keys = Schema.distinct s.fieldKeys :=
  KeyIndex.keys_ofKeys _

theorem nodup_keys_ofSchema : (ofSchema s).keys.Nodup := by
  rw [keys_ofSchema]
  exact Schema.nodup_distinct _

theorem mem_keys_ofSchema {key : String} : key ∈ (ofSchema s).keys ↔ key ∈ s.fieldKeys := by
  rw [keys_ofSchema]
  exact Schema.mem_distinct _

theorem adjacency_ofSchema : (ofSchema s).adjacency = (List.range (ofSchema s).size).map
    (targetsOf (s.references.filterMap (edge? (ofSchema s).numbers))) := rfl

/-- **An edge is a reference between the keys of its ends.** -/
theorem mem_next_ofSchema {i j : Nat} : j ∈ (ofSchema s).next i ↔
    ∃ r ∈ s.references,
      (ofSchema s).node? r.source = some i ∧ (ofSchema s).node? r.target = some j := by
  have hedge : (i, j) ∈ s.references.filterMap (edge? (ofSchema s).numbers) ↔
      ∃ r ∈ s.references,
        (ofSchema s).node? r.source = some i ∧ (ofSchema s).node? r.target = some j := by
    simp only [List.mem_filterMap, edge?_eq_some]; rfl
  rw [← hedge, next, adjacency_ofSchema, List.getD_eq_getElem?_getD, List.getElem?_map]
  by_cases hi : i < (ofSchema s).size
  · rw [List.getElem?_range hi, Option.map_some, Option.getD_some, mem_targetsOf]
  · rw [List.getElem?_eq_none (by rwa [List.length_range, ← Nat.not_lt]), hedge]
    constructor
    · intro h; cases h
    · rintro ⟨r, -, hr, -⟩
      exact absurd (lt_size_of_node? hr) hi

theorem lt_size_of_mem_next {i j : Nat} (h : j ∈ (ofSchema s).next i) : j < (ofSchema s).size := by
  obtain ⟨r, -, -, hr⟩ := mem_next_ofSchema.mp h
  exact lt_size_of_node? hr

/-! ## Edges backwards -/

theorem getElem?_listWith (rows : List (List Nat)) (source : Nat) {targets : List Nat}
    (hnodup : targets.Nodup) (j : Nat) : (listWith rows source targets)[j]? =
      rows[j]?.map fun row => if j ∈ targets then row ++ [source] else row := by
  rw [listWith]
  induction targets generalizing rows with
  | nil => simp
  | cons target targets ih =>
    obtain ⟨hnew, hnodup⟩ := List.nodup_cons.mp hnodup
    rw [List.foldl_cons, ih _ hnodup, List.getElem?_modify, Option.map_eq_map, Option.map_map]
    congr 1
    funext row
    by_cases hj : target = j
    · subst hj
      simp [hnew]
    · simp [hj, Ne.symm hj]

theorem getElem?_foldl_listWith {rest : List (List Nat)} (hnodup : ∀ row ∈ rest, row.Nodup)
    (n : Nat) (rows : List (List Nat)) (j : Nat) :
    ((rest.zipIdx n).foldl (fun rows e => listWith rows e.2 e.1) rows)[j]? =
      rows[j]?.map fun row =>
        row ++ (List.range' n rest.length).filter fun i => j ∈ rest.getD (i - n) [] := by
  induction rest generalizing n rows with
  | nil => simp
  | cons targets rest ih =>
    obtain ⟨htargets, hrest⟩ := List.forall_mem_cons.mp hnodup
    rw [List.zipIdx_cons, List.foldl_cons, ih hrest, getElem?_listWith _ _ htargets, Option.map_map,
      List.length_cons, List.range'_succ, List.filter_cons, Nat.sub_self, List.getD_cons_zero]
    have hlater : (List.range' (n + 1) rest.length).filter (fun i =>
        j ∈ (targets :: rest).getD (i - n) []) = (List.range' (n + 1) rest.length).filter fun i =>
          j ∈ rest.getD (i - (n + 1)) [] := by
      refine List.filter_congr fun i hi => ?_
      obtain ⟨k, hk, rfl⟩ := List.mem_range'.mp hi
      have hplace : n + 1 + 1 * k - n = n + 1 + 1 * k - (n + 1) + 1 := by omega
      rw [hplace, List.getD_cons_succ]
    rw [hlater]
    congr 1
    funext row
    by_cases hj : j ∈ targets <;> simp [hj]

/-- **The nodes that lead to a node**, in order. -/
theorem getElem?_inverse {adjacency : List (List Nat)} (hnodup : ∀ row ∈ adjacency, row.Nodup)
    (j : Nat) : (inverse adjacency)[j]? = if j < adjacency.length then
      some ((List.range adjacency.length).filter fun i => j ∈ adjacency.getD i []) else none := by
  rw [inverse, getElem?_foldl_listWith hnodup, List.getElem?_map, ← List.range_eq_range']
  split_ifs with hj
  · rw [List.getElem?_eq_getElem hj]
    rfl
  · rw [List.getElem?_eq_none (Nat.le_of_not_lt hj)]
    rfl

theorem pairwise_insertIncreasing {n : Nat} (ms : List Nat) (h : ms.Pairwise (· < ·)) :
    (insertIncreasing n ms).Pairwise (· < ·) := by
  induction ms with
  | nil => exact List.pairwise_singleton _ n
  | cons m ms ih =>
    obtain ⟨hm, hms⟩ := List.pairwise_cons.mp h
    rw [insertIncreasing]
    split_ifs with hlt heq
    · exact List.pairwise_cons.mpr
        ⟨List.forall_mem_cons.mpr ⟨hlt, fun k hk => Nat.lt_trans hlt (hm k hk)⟩, h⟩
    · exact h
    · refine List.pairwise_cons.mpr ⟨fun k hk => ?_, ih hms⟩
      rcases (mem_insertIncreasing ms).mp hk with rfl | hk
      · omega
      · exact hm k hk

theorem pairwise_targetsOf (edges : List (Nat × Nat)) (i : Nat) :
    (targetsOf edges i).Pairwise (· < ·) := by
  rw [targetsOf]
  induction (edges.filter (·.1 == i)).map Prod.snd with
  | nil => exact List.Pairwise.nil
  | cons n ns ih => exact pairwise_insertIncreasing _ ih

theorem pairwise_of_mem_adjacency {row : List Nat} (h : row ∈ (ofSchema s).adjacency) :
    row.Pairwise (· < ·) := by
  rw [adjacency_ofSchema] at h
  obtain ⟨i, -, rfl⟩ := List.mem_map.mp h
  exact pairwise_targetsOf _ i

theorem nodup_next_ofSchema (i : Nat) : ((ofSchema s).next i).Nodup := by
  rw [next, List.getD_eq_getElem?_getD]
  cases h : (ofSchema s).adjacency[i]? with
  | none => exact List.nodup_nil
  | some row =>
    exact (pairwise_of_mem_adjacency (List.mem_of_getElem? h)).imp fun hlt => Nat.ne_of_lt hlt

theorem length_adjacency_ofSchema : (ofSchema s).adjacency.length = (ofSchema s).size := by
  rw [adjacency_ofSchema, List.length_map, List.length_range]

theorem getElem?_predecessors_ofSchema (j : Nat) : (ofSchema s).predecessors[j]? =
    if j < (ofSchema s).size then
      some ((List.range (ofSchema s).size).filter fun i => j ∈ (ofSchema s).next i) else none := by
  rw [← length_adjacency_ofSchema]
  exact getElem?_inverse (fun row h =>
    (pairwise_of_mem_adjacency h).imp fun hlt => Nat.ne_of_lt hlt) j

theorem length_predecessors_ofSchema :
    (ofSchema s).predecessors.length = (ofSchema s).size := by
  have hnone : ∀ j, (ofSchema s).predecessors.length ≤ j ↔ (ofSchema s).size ≤ j := by
    intro j
    rw [← List.getElem?_eq_none_iff, getElem?_predecessors_ofSchema]
    split_ifs with hj <;> simp [hj, Nat.le_of_not_lt]
  exact Nat.le_antisymm ((hnone _).mpr Nat.le.refl) ((hnone _).mp Nat.le.refl)

theorem previous_ofSchema {j : Nat} (hj : j < (ofSchema s).size) : (ofSchema s).previous j =
    (List.range (ofSchema s).size).filter fun i => j ∈ (ofSchema s).next i := by
  rw [previous, List.getD_eq_getElem?_getD, getElem?_predecessors_ofSchema, if_pos hj,
    Option.getD_some]

theorem mem_previous_ofSchema {i j : Nat} (hj : j < (ofSchema s).size) :
    i ∈ (ofSchema s).previous j ↔ j ∈ (ofSchema s).next i := by
  rw [previous_ofSchema hj, List.mem_filter, List.mem_range, decide_eq_true_eq]
  constructor
  · exact fun h => h.2
  · intro h
    obtain ⟨r, -, hr, -⟩ := mem_next_ofSchema.mp h
    exact ⟨lt_size_of_node? hr, h⟩

/-- **A reference between two nodes is an edge.** -/
theorem mem_next_of_feeds {source target : String} {i j : Nat} (h : s.Feeds source target)
    (hi : (ofSchema s).node? source = some i) (hj : (ofSchema s).node? target = some j) :
    j ∈ (ofSchema s).next i := by
  obtain ⟨r, hr, rfl, rfl⟩ := h
  exact mem_next_ofSchema.mpr ⟨r, hr, hi, hj⟩

end Graph

end LiveForm
