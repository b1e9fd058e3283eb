import LiveForm.Proofs.Graph.Countdown

/-!
# Topological orders

The order of evaluation lists every field once, each after those that it follows from.

* `Graph.Sorted`: a list of nodes that holds what each of them depends on, earlier;
* `Graph.sorted_sequence`: the nodes that are taken one by one as they get ready are sorted;
* `Graph.order_eq_ok_iff`: they are the order when all of them are taken;
* **`Graph.mem_order`, `Graph.pairwise_order`, `Graph.not_feeds_self`**: an order of the graph of a
  schema has all its keys, no later key feeds an earlier one, and none feeds itself.
-/

namespace LiveForm

namespace Graph

/-- **Nodes in order**: what each depends on is listed, and listed before it. -/
structure Sorted (g : Graph) (done : List ℕ) : Prop where
  lt_size : ∀ i ∈ done, i < g.size
  previous_mem : ∀ i ∈ done, ∀ j ∈ g.previous i, j ∈ done
  not_self : ∀ i ∈ done, i ∉ g.previous i
  pairwise : done.Pairwise fun i j => i ≠ j ∧ j ∉ g.previous i

variable {g : Graph}

theorem sorted_nil : Sorted g [] where
  lt_size _ h := (List.not_mem_nil h).elim
  previous_mem _ h := (List.not_mem_nil h).elim
  not_self _ h := (List.not_mem_nil h).elim
  pairwise := List.Pairwise.nil

theorem Sorted.append {done : List ℕ} (h : Sorted g done) {i : ℕ} (hi : g.Ready done i) :
    Sorted g (done ++ [i]) where
  lt_size j hj := by
    rcases List.mem_append.mp hj with hj | hj
    · exact h.lt_size j hj
    · rw [List.mem_singleton.mp hj]; exact hi.1
  previous_mem a ha j hj := by
    rcases List.mem_append.mp ha with ha | ha
    · exact List.mem_append_left _ (h.previous_mem a ha j hj)
    · rw [List.mem_singleton.mp ha] at hj
      exact List.mem_append_left _ (hi.2.2 j hj)
  not_self j hj := by
    rcases List.mem_append.mp hj with hj | hj
    · exact h.not_self j hj
    · rw [List.mem_singleton.mp hj]
      exact fun hself => hi.2.1 (hi.2.2 i hself)
  pairwise := by
    refine List.pairwise_append.mpr ⟨h.pairwise, List.pairwise_singleton _ _, ?_⟩
    intro a ha b hb
    rw [List.mem_singleton.mp hb]
    exact ⟨fun e => hi.2.1 (e ▸ ha), fun hself => hi.2.1 (h.previous_mem a ha i hself)⟩

theorem sorted_advance : ∀ (n : ℕ) (done : List ℕ), Sorted g done → Sorted g (g.advance n done)
  | 0, done, h => h
  | n + 1, done, h => by
    rw [advance]
    split
    · next i hi => exact sorted_advance n _ (h.append (ready?_eq_some hi))
    · exact h

theorem Sorted.nodup {done : List ℕ} (h : Sorted g done) : done.Nodup :=
  h.pairwise.imp fun hij => hij.1

/-- **A graph has an order** when all its nodes are taken. -/
theorem order_eq_ok_iff {order : List String} :
    g.order = .ok order ↔ g.sequence.length = g.size ∧ g.sequence.map g.key = order := by
  rw [Graph.order]
  split_ifs with hlen <;> simp [hlen]

/-! ## The order of a schema -/

variable {s : Schema} {order : List String}

theorem sorted_sequence : Sorted (ofSchema s) (ofSchema s).sequence := by
  rw [sequence_ofSchema]
  exact sorted_advance _ [] sorted_nil

theorem order_eq_ok_of_advance
    (h : ((ofSchema s).advance (ofSchema s).size []).length = (ofSchema s).size ∧
      ((ofSchema s).advance (ofSchema s).size []).map (ofSchema s).key = order) :
    (ofSchema s).order = .ok order := by
  rw [order_eq_ok_iff, sequence_ofSchema]
  exact h

/-- **An order has the keys of all fields.** -/
theorem mem_order (h : (ofSchema s).order = .ok order) {key : String} :
    key ∈ order ↔ key ∈ s.fieldKeys := by
  obtain ⟨hlen, rfl⟩ := order_eq_ok_iff.mp h
  rw [← mem_keys_ofSchema, List.mem_map]
  constructor
  · rintro ⟨i, hi, rfl⟩
    exact key_mem (sorted_sequence.lt_size i hi)
  · intro hkey
    obtain ⟨i, hi⟩ := exists_node? hkey
    exact ⟨i, mem_of_length_eq_size sorted_sequence.nodup sorted_sequence.lt_size (by omega)
      (lt_size_of_node? hi), key_of_node? hi⟩

theorem mem_previous_of_feeds {i j : ℕ} (hi : i < (ofSchema s).size) (hj : j < (ofSchema s).size)
    (h : s.Feeds ((ofSchema s).key i) ((ofSchema s).key j)) : i ∈ (ofSchema s).previous j :=
  (mem_previous_ofSchema hj).mpr
    (mem_next_of_feeds h (node?_key nodup_keys_ofSchema hi) (node?_key nodup_keys_ofSchema hj))

/-- **In an order no later field feeds an earlier one.** -/
theorem pairwise_order (h : (ofSchema s).order = .ok order) :
    order.Pairwise fun a b => a ≠ b ∧ ¬ s.Feeds b a := by
  obtain ⟨-, rfl⟩ := order_eq_ok_iff.mp h
  have hlt := (sorted_sequence (s := s)).lt_size
  rw [List.pairwise_map]
  exact sorted_sequence.pairwise.imp_of_mem fun {i j} hi hj hij =>
    ⟨fun hkey => hij.1 (key_inj nodup_keys_ofSchema (hlt i hi) (hlt j hj) hkey),
      fun hf => hij.2 (mem_previous_of_feeds (hlt j hj) (hlt i hi) hf)⟩

/-- **No field of an order feeds itself.** -/
theorem not_feeds_self (h : (ofSchema s).order = .ok order) {key : String} (hkey : key ∈ order) :
    ¬ s.Feeds key key := by
  obtain ⟨-, rfl⟩ := order_eq_ok_iff.mp h
  obtain ⟨i, hi, rfl⟩ := List.mem_map.mp hkey
  have hlt := sorted_sequence.lt_size i hi
  exact fun hf => sorted_sequence.not_self i hi (mem_previous_of_feeds hlt hlt hf)

end Graph

namespace Schema

theorem mem_of_feeds {s : Schema} {pre post : List String} {source target : String}
    (h : (pre ++ target :: post).Pairwise fun a b => ¬ s.Feeds b a)
    (hself : ¬ s.Feeds target target) (hf : s.Feeds source target)
    (hmem : source ∈ pre ++ target :: post) : source ∈ pre := by
  obtain ⟨-, hrest, -⟩ := List.pairwise_append.mp h
  refine (List.mem_append.mp hmem).resolve_right fun hlater => ?_
  rcases List.mem_cons.mp hlater with rfl | hpost
  · exact hself hf
  · exact (List.pairwise_cons.mp hrest).1 source hpost hf

/-! ## Schemas without problems -/

theorem nodup_of_repeatedKeys {index : ℕ} {before keys : List String}
    (h : repeatedKeys index before keys = []) : keys.Nodup ∧ ∀ k ∈ keys, k ∉ before := by
  induction keys generalizing index before with
  | nil => simp
  | cons k ks ih =>
    rw [repeatedKeys, List.append_eq_nil_iff] at h
    obtain ⟨hk, hks⟩ := h
    obtain ⟨hnodup, hbefore⟩ := ih hks
    have hnew : k ∉ before := fun hmem => by simp [hmem] at hk
    refine ⟨List.nodup_cons.mpr ⟨fun hmem => hbefore k hmem List.mem_cons_self, hnodup⟩, ?_⟩
    refine List.forall_mem_cons.mpr ⟨hnew, ?_⟩
    intro k' hk' hmem
    exact hbefore k' hk' (List.mem_cons_of_mem k hmem)

variable {s : Schema}

theorem mem_of_field? {key : String} {f : Field} (h : s.field? key = some f) :
    f ∈ s.fields ∧ f.key = key := by
  have hkey := List.find?_some h
  exact ⟨List.mem_of_find?_eq_some h, beq_iff_eq.mp hkey⟩

theorem field?_eq_none_iff {key : String} : s.field? key = none ↔ ∀ f ∈ s.fields, f.key ≠ key := by
  rw [field?, List.find?_eq_none]
  simp only [beq_iff_eq, ne_eq]

theorem field?_eq_some_iff (h : s.fieldKeys.Nodup) {key : String} {f : Field} :
    s.field? key = some f ↔ f ∈ s.fields ∧ f.key = key := by
  constructor
  · exact mem_of_field?
  · rintro ⟨hf, rfl⟩
    obtain ⟨g, hg⟩ : ∃ g, s.field? f.key = some g :=
      Option.isSome_iff_exists.mp (List.find?_isSome.mpr ⟨f, hf, beq_self_eq_true _⟩)
    obtain ⟨hgmem, hkey⟩ := mem_of_field? hg
    rw [hg, List.inj_on_of_nodup_map h hgmem hf hkey]

theorem nodup_fieldKeys (h : s.graphProblems = []) : s.fieldKeys.Nodup :=
  (nodup_of_repeatedKeys (List.append_eq_nil_iff.mp h).1).1

/-- A schema without problems refers to declared fields only. -/
theorem declared_of_feeds (h : s.graphProblems = []) {source target : String}
    (hf : s.Feeds source target) : source ∈ s.fieldKeys ∧ target ∈ s.fieldKeys := by
  obtain ⟨r, hr, rfl, rfl⟩ := hf
  have hend := List.filterMap_eq_nil_iff.mp (List.append_eq_nil_iff.mp h).2 r hr
  rw [undeclaredEnd?] at hend
  split_ifs at hend with h₁ h₂
  simp only [Bool.not_eq_true', Bool.not_eq_false, List.contains_iff_mem] at h₁ h₂
  exact ⟨h₁, h₂⟩

end Schema

theorem Graph.strict_of_problems {s : Schema} (h : s.graphProblems = []) :
    Graph.strict s = .ok (.ofSchema s) := by
  rw [Graph.strict, h]
  rfl

theorem Graph.strict_eq_ok {s : Schema} {g : Graph} (h : Graph.strict s = .ok g) :
    s.graphProblems = [] ∧ g = .ofSchema s := by
  rw [Graph.strict] at h
  split_ifs at h with hp
  exact ⟨List.isEmpty_iff.mp hp, (Except.ok.inj h).symm⟩

end LiveForm
