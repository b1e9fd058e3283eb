import LiveForm.Proofs.Graph.Topological

/-!
# Schemas that have an order

Nodes are taken as they get ready until there are none. That there is any order of the fields, in
which each comes after those that feed it, is enough for all nodes to be taken: the first field of
that order that has not been taken is ready.

* `Graph.exists_ready`: some node is ready as long as not all are taken;
* **`Graph.exists_order`**: a schema that can be ordered in some way has an order of evaluation;
* **`Schema.graphProblems_eq_nil_iff`**: when a schema has no problems.
-/

namespace LiveForm

variable {s : Schema} {keys : List String}

namespace Graph

theorem feeds_of_mem_next {i j : ℕ} (h : j ∈ (ofSchema s).next i) :
    s.Feeds ((ofSchema s).key i) ((ofSchema s).key j) := by
  obtain ⟨r, hr, hsource, htarget⟩ := mem_next_ofSchema.mp h
  exact ⟨r, hr, (key_of_node? hsource).symm, (key_of_node? htarget).symm⟩

theorem exists_untaken (hmem : ∀ key, key ∈ keys ↔ key ∈ s.fieldKeys) {done : List ℕ}
    (hdone : done.length < (ofSchema s).size) :
    ∃ pre key post, keys = pre ++ key :: post ∧ key ∉ done.map (ofSchema s).key ∧
      ∀ k ∈ pre, k ∈ done.map (ofSchema s).key := by
  obtain ⟨key, hfirst⟩ : ∃ key, (keys.find? fun key =>
      decide (key ∉ done.map (ofSchema s).key)) = some key := by
    refine Option.isSome_iff_exists.mp (List.find?_isSome.mpr ?_)
    by_contra hall
    have hsub : (ofSchema s).keys ⊆ done.map (ofSchema s).key := by
      intro key hkey
      by_contra hnot
      exact hall ⟨key, (hmem key).mpr (mem_keys_ofSchema.mp hkey), decide_eq_true hnot⟩
    have hle := (List.subperm_of_subset nodup_keys_ofSchema hsub).length_le
    rw [List.length_map] at hle
    exact absurd hdone (Nat.not_lt.mpr hle)
  obtain ⟨hnot, pre, post, hsplit, hpre⟩ := List.find?_eq_some_iff_append.mp hfirst
  exact ⟨pre, key, post, hsplit, of_decide_eq_true hnot, fun k hk => by simpa using hpre k hk⟩

/-- **Some node is ready** as long as not all nodes are taken. -/
theorem exists_ready (hmem : ∀ key, key ∈ keys ↔ key ∈ s.fieldKeys)
    (hkeys : keys.Pairwise fun a b => ¬ s.Feeds b a)
    (hself : ∀ key ∈ s.fieldKeys, ¬ s.Feeds key key)
    {done : List ℕ} (hsorted : Sorted (ofSchema s) done)
    (hdone : done.length < (ofSchema s).size) : ∃ i, (ofSchema s).ready? done = some i := by
  obtain ⟨pre, key, post, rfl, hnot, hpre⟩ := exists_untaken hmem hdone
  have hdeclared := (hmem key).mp (List.mem_append_right pre List.mem_cons_self)
  obtain ⟨i, hi⟩ := exists_node? (mem_keys_ofSchema.mpr hdeclared)
  have hlt := lt_size_of_node? hi
  -- What feeds the key comes before it, so it has been taken.
  have hprevious : ∀ j ∈ (ofSchema s).previous i, j ∈ done := by
    intro j hj
    have hnext := (mem_previous_ofSchema hlt).mp hj
    obtain ⟨r, -, hr, -⟩ := mem_next_ofSchema.mp hnext
    have hjlt := lt_size_of_node? hr
    have hfeeds := feeds_of_mem_next hnext
    rw [key_of_node? hi] at hfeeds
    obtain ⟨m, hm, heq⟩ := List.mem_map.mp (hpre _ (Schema.mem_of_feeds hkeys
      (hself key hdeclared) hfeeds ((hmem _).mpr (mem_keys_ofSchema.mp (key_mem hjlt)))))
    rwa [← key_inj nodup_keys_ofSchema (hsorted.lt_size m hm) hjlt heq]
  have hready : (ofSchema s).Ready done i :=
    ⟨hlt, fun hmemi => hnot (List.mem_map.mpr ⟨i, hmemi, key_of_node? hi⟩), hprevious⟩
  obtain ⟨j, -, hj⟩ := exists_ready? hready
  exact ⟨j, hj⟩

theorem length_advance (hmem : ∀ key, key ∈ keys ↔ key ∈ s.fieldKeys)
    (hkeys : keys.Pairwise fun a b => ¬ s.Feeds b a)
    (hself : ∀ key ∈ s.fieldKeys, ¬ s.Feeds key key) :
    ∀ (n : ℕ) (done : List ℕ), Sorted (ofSchema s) done → done.length + n = (ofSchema s).size →
      ((ofSchema s).advance n done).length = (ofSchema s).size
  | 0, done, _, hlen => by
    rw [advance]
    exact hlen
  | n + 1, done, hsorted, hlen => by
    obtain ⟨i, hi⟩ := exists_ready hmem hkeys hself hsorted (by omega)
    rw [advance, hi]
    refine length_advance hmem hkeys hself n _ (hsorted.append (ready?_eq_some hi)) ?_
    rw [List.length_append, List.length_singleton]
    omega

/-- **A schema that can be ordered in some way has an order of evaluation.** -/
theorem exists_order (hmem : ∀ key, key ∈ keys ↔ key ∈ s.fieldKeys)
    (hkeys : keys.Pairwise fun a b => ¬ s.Feeds b a)
    (hself : ∀ key ∈ s.fieldKeys, ¬ s.Feeds key key) :
    ∃ order, (ofSchema s).order = .ok order := by
  have hlen : (ofSchema s).sequence.length = (ofSchema s).size := by
    rw [sequence_ofSchema]
    exact length_advance hmem hkeys hself _ [] sorted_nil (Nat.zero_add _)
  exact ⟨_, order_eq_ok_iff.mpr ⟨hlen, rfl⟩⟩

end Graph

/-! ## Problems -/

namespace Schema

theorem repeatedKeys_eq_nil {index : ℕ} {before : List String} (hnodup : keys.Nodup)
    (hbefore : ∀ k ∈ keys, k ∉ before) : repeatedKeys index before keys = [] := by
  induction keys generalizing index before with
  | nil => rfl
  | cons k ks ih =>
    obtain ⟨hk, hks⟩ := List.nodup_cons.mp hnodup
    have hnew := hbefore k List.mem_cons_self
    rw [repeatedKeys, if_neg (fun hc => hnew (List.contains_iff_mem.mp hc)), List.nil_append]
    refine ih hks fun k' hk' hmem => ?_
    rcases List.mem_cons.mp hmem with rfl | hmem
    · exact hk hk'
    · exact hbefore k' (List.mem_cons_of_mem k hk') hmem

/-- **A schema has no problems** when its keys are distinct and it refers to declared fields
only. -/
theorem graphProblems_eq_nil_iff : s.graphProblems = [] ↔ s.fieldKeys.Nodup ∧
    ∀ source target, s.Feeds source target → source ∈ s.fieldKeys ∧ target ∈ s.fieldKeys := by
  constructor
  · intro h
    exact ⟨nodup_fieldKeys h, fun _ _ hf => declared_of_feeds h hf⟩
  · rintro ⟨hnodup, hdeclared⟩
    rw [graphProblems, List.append_eq_nil_iff, List.filterMap_eq_nil_iff]
    refine ⟨repeatedKeys_eq_nil hnodup fun _ _ => List.not_mem_nil, fun r hr => ?_⟩
    obtain ⟨hsource, htarget⟩ := hdeclared r.source r.target ⟨r, hr, rfl, rfl⟩
    rw [undeclaredEnd?, List.contains_iff_mem.mpr hsource, List.contains_iff_mem.mpr htarget]
    rfl

end Schema

end LiveForm
