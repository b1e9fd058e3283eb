import LiveForm.Session.State
import LiveForm.Proofs.Graph.Topological
import LiveForm.Proofs.Rule.Deciding

/-!
# Well-formed plans

A session is opened on a schema without problems, with the graph of that schema and an order of
it. What a pass relies on is said here of the plan.

* `Plan.WellFormed`: the schema has no problems, and the graph and the order are its own;
* `Plan.mem_rulesFor`, `Plan.map_snd_rulesFor`: the rules with an effect on a target;
* **`Plan.WellFormed.pairwise_order`, `Plan.WellFormed.mem_order`**: every field is evaluated
  once, after all that feed it.
-/

namespace LiveForm

theorem Field.isComputed_of_formula {f : Field} {fo : Formula} (h : f.formula = some fo) :
    f.isComputed = true := by
  rw [isComputed, h]
  rfl

namespace Plan

variable {p : Plan} {i : ℕ} {r : Rule} {key target : String} {effect : Effect}

/-! ## The rules of a target -/

theorem mem_rulesFor : (i, r) ∈ p.rulesFor target effect ↔
    p.schema.rules[i]? = some r ∧ r.target = target ∧ r.effect = effect := by
  rw [rulesFor, List.mem_filter, Bool.and_eq_true, beq_iff_eq, beq_iff_eq, List.mem_mapIdx]
  constructor
  · rintro ⟨⟨j, hj, he⟩, haims⟩
    obtain ⟨rfl, rfl⟩ := Prod.mk.inj he
    exact ⟨List.getElem?_eq_getElem hj, haims⟩
  · rintro ⟨hr, haims⟩
    obtain ⟨hi, hr⟩ := List.getElem?_eq_some_iff.mp hr
    exact ⟨⟨i, hi, by rw [hr]⟩, haims⟩

theorem map_snd_rulesFor (p : Plan) (target : String) (effect : Effect) :
    (p.rulesFor target effect).map Prod.snd = p.schema.rules.filter (Rule.aims target effect) := by
  have hsnd : (p.schema.rules.mapIdx fun i r => (i, r)).map Prod.snd = p.schema.rules := by
    refine List.ext_getElem? fun i => ?_
    cases hi : p.schema.rules[i]? <;> simp [hi]
  conv_rhs => rw [← hsnd, List.filter_map]
  rfl

theorem eq_of_mem_rulesFor {target' : String} {effect' : Effect} {r' : Rule}
    (h : (i, r) ∈ p.rulesFor target effect) (h' : (i, r') ∈ p.rulesFor target' effect') :
    r' = r := by
  rw [mem_rulesFor] at h h'
  exact Option.some.inj (h'.1.symm.trans h.1)

theorem feeds_of_mem_rulesFor (h : (i, r) ∈ p.rulesFor target effect) :
    p.schema.Feeds r.trigger target := by
  obtain ⟨hr, rfl, -⟩ := mem_rulesFor.mp h
  exact Schema.feeds_of_rule (List.mem_of_getElem? hr)

/-! ## Well-formedness -/

/-- **A well-formed plan.** -/
structure WellFormed (p : Plan) : Prop where
  problems : p.schema.graphProblems = []
  graph : p.graph = .ofSchema p.schema
  order : p.graph.order = .ok p.order

variable (h : p.WellFormed)

include h

theorem WellFormed.order_eq : (Graph.ofSchema p.schema).order = .ok p.order := h.graph ▸ h.order

theorem WellFormed.mem_order : key ∈ p.order ↔ key ∈ p.schema.fieldKeys :=
  Graph.mem_order h.order_eq

theorem WellFormed.pairwise_order : p.order.Pairwise fun a b => a ≠ b ∧ ¬ p.schema.Feeds b a :=
  Graph.pairwise_order h.order_eq

theorem WellFormed.field_mem_order {f : Field} (hf : f ∈ p.schema.fields) : f.key ∈ p.order :=
  h.mem_order.mpr (List.mem_map_of_mem hf)

theorem WellFormed.not_feeds_self (key : String) : ¬ p.schema.Feeds key key := fun hf =>
  Graph.not_feeds_self h.order_eq (h.mem_order.mpr (Schema.declared_of_feeds h.problems hf).1) hf

theorem WellFormed.not_mem_sources {f : Field} (hf : f ∈ p.schema.fields) {fo : Formula}
    (hfo : f.formula = some fo) : f.key ∉ fo.sources := fun hmem =>
  h.not_feeds_self f.key (Schema.feeds_of_formula hf hfo hmem)

theorem WellFormed.field?_key {f : Field} (hf : f ∈ p.schema.fields) :
    p.schema.field? f.key = some f :=
  (Schema.field?_eq_some_iff (Schema.nodup_fieldKeys h.problems)).mpr ⟨hf, rfl⟩

end Plan

end LiveForm
