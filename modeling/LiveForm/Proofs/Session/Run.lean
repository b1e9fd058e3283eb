import LiveForm.Proofs.Session.Touch

/-!
# Runs of visits

What a run over fields in order leaves at a field is seen at the visit of that field: visits before
it do not read what they write there, and visits after it write nothing that it reads.

* `Pass.run_keeps`: what every visit keeps, a run keeps;
* **`Pass.run_through`**: what the visit of a field establishes, a run in order establishes;
* **`propagate_eq_run`, `propagate_eq_run_after`**: passing over the descendants of a field is
  passing over all fields, or over those after it.
-/

namespace LiveForm

namespace Pass

variable {p : Plan} {full : Bool} {a : Pass} {nodes : List String} {key : String}

theorem run_cons (p : Plan) (full : Bool) (a : Pass) (k : String) (nodes : List String) :
    run p full a (k :: nodes) = run p full (visit p full a k) nodes := rfl

theorem run_append (p : Plan) (full : Bool) (a : Pass) (pre post : List String) :
    run p full a (pre ++ post) = run p full (run p full a pre) post :=
  List.foldl_append

theorem run_keeps {P : Pass → Prop} {nodes : List String} {a : Pass}
    (hstep : ∀ k ∈ nodes, ∀ a, P a → P (visit p full a k)) (h : P a) : P (run p full a nodes) := by
  induction nodes generalizing a with
  | nil => exact h
  | cons k nodes ih =>
    rw [run_cons]
    exact ih (fun k' hk' => hstep k' (List.mem_cons_of_mem k hk'))
      (hstep k List.mem_cons_self a h)

/-- **A run in order through a field.** What other visits keep until the visit of the field turns
it into something else, which later visits keep, since none of them feeds the field. -/
theorem run_through {P Q : Pass → Prop} {nodes : List String} {a : Pass}
    (hnodes : nodes.Pairwise fun i j => i ≠ j ∧ ¬ p.schema.Feeds j i) (hkey : key ∈ nodes)
    (before : ∀ k, k ≠ key → ∀ a, P a → P (visit p full a k))
    (own : ∀ a, P a → Q (visit p full a key))
    (later : ∀ k, k ≠ key → ¬ p.schema.Feeds k key → ∀ a, Q a → Q (visit p full a k)) (h : P a) :
    Q (run p full a nodes) := by
  induction nodes generalizing a with
  | nil => exact absurd hkey List.not_mem_nil
  | cons k nodes ih =>
    obtain ⟨hk, hnodes⟩ := List.pairwise_cons.mp hnodes
    rw [run_cons]
    by_cases he : k = key
    · subst he
      exact run_keeps (fun j hj => later j (Ne.symm (hk j hj).1) (hk j hj).2) (own a h)
    · exact ih hnodes ((List.mem_cons.mp hkey).resolve_left (Ne.symm he)) (before k he a h)

/-! ## Runs after a change -/

theorem run_eq_self {nodes : List String}
    (h : ∀ k ∈ nodes, ∀ d, p.schema.Feeds d k → d ∉ a.dirty) : run p false a nodes = a := by
  induction nodes with
  | nil => rfl
  | cons k nodes ih =>
    rw [run_cons, visit_eq_self (h k List.mem_cons_self)]
    exact ih fun k' hk' => h k' (List.mem_cons_of_mem k hk')

theorem run_filter (key : String) {below : List String}
    (hbelow : ∀ d k, d = key ∨ d ∈ below → p.schema.Feeds d k → k ∈ below) {nodes : List String}
    {a : Pass} (h : ∀ d ∈ a.dirty, d = key ∨ d ∈ below) :
    run p false a (nodes.filter below.contains) = run p false a nodes := by
  induction nodes generalizing a with
  | nil => rfl
  | cons k nodes ih =>
    by_cases hk : k ∈ below
    · rw [List.filter_cons_of_pos (List.contains_iff_mem.mpr hk), run_cons, run_cons]
      apply ih
      intro d hd
      by_cases he : d = k
      · exact Or.inr (he ▸ hk)
      · exact h d (((touches_visit p false a k).dirty d he).mp hd)
    · rw [List.filter_cons_of_neg fun hc => hk (List.contains_iff_mem.mp hc), run_cons,
        visit_eq_self fun d hd hmem => hk (hbelow d k (h d hmem) hd)]
      exact ih h

end Pass

variable {p : Plan} {key : String}

/-- **Passing over the descendants of a field is passing over all fields.** -/
theorem propagate_eq_run (h : p.WellFormed) (hkey : key ∈ p.schema.fieldKeys) (s : State) :
    propagate p s key = Pass.run p false { state := s, dirty := [key] } p.order := by
  rw [propagate]
  refine Pass.run_filter key ?_ fun d hd => Or.inl (List.mem_singleton.mp hd)
  intro d k hd hf
  rw [h.graph] at hd ⊢
  exact Graph.mem_descendantKeys_of_feeds hkey (Schema.declared_of_feeds h.problems hf).2 hf hd

/-- **Passing over the descendants of a field is passing over the fields after it.** -/
theorem propagate_eq_run_after (h : p.WellFormed) {pre post : List String}
    (horder : p.order = pre ++ key :: post) (s : State) :
    propagate p s key = Pass.run p false { state := s, dirty := [key] } post := by
  have hmem : key ∈ p.order := horder ▸ List.mem_append_right pre List.mem_cons_self
  have hpairwise := h.pairwise_order
  rw [horder, List.pairwise_append] at hpairwise
  have hbefore : Pass.run p false { state := s, dirty := [key] } pre =
      { state := s, dirty := [key] } := by
    apply Pass.run_eq_self
    intro k hk d hd hdirty
    rw [List.mem_singleton.mp hdirty] at hd
    exact (hpairwise.2.2 k hk key List.mem_cons_self).2 hd
  have hown : Pass.visit p false { state := s, dirty := [key] } key =
      { state := s, dirty := [key] } := by
    apply Pass.visit_eq_self
    intro d hd hdirty
    rw [List.mem_singleton.mp hdirty] at hd
    exact h.not_feeds_self key hd
  rw [propagate_eq_run h (h.mem_order.mp hmem), horder, Pass.run_append, Pass.run_cons, hbefore,
    hown]

end LiveForm
