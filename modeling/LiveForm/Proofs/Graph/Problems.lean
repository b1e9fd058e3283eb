import Mathlib.Data.List.Forall2
import LiveForm.Proofs.Graph.References

/-!
# What keeps a graph from being complete

What is wrong with a schema is told place by place: first the declarations that repeat a key, then
the sources of formulas that are not declared, then the rules with an end that is not.

* `Schema.Place`, `Schema.Wrong`: the places of a schema, and what is wrong at one of them;
* `Schema.inspected`, `Schema.graphProblems_eq`: what is found at each place, in order;
* `Schema.mem_inspected`: what is found at a place is what is wrong there;
* `Schema.exists_places`: the problems are told once for each place where something is wrong;
* **`Schema.buildsGraph`**: the graph of a schema, and what is told when it is not complete.
-/

namespace LiveForm

/-! ## Numbered lists -/

section Numbered

variable {α β : Type} {l : List α}

theorem mem_map_zipIdx {f : α × ℕ → β} {b : β} :
    b ∈ l.zipIdx.map f ↔ ∃ i a, l[i]? = some a ∧ f (a, i) = b := by
  rw [List.mem_map]
  constructor
  · rintro ⟨⟨a, i⟩, h, rfl⟩
    exact ⟨i, a, List.mk_mem_zipIdx_iff_getElem?.mp h, rfl⟩
  · rintro ⟨i, a, h, rfl⟩
    exact ⟨(a, i), List.mk_mem_zipIdx_iff_getElem?.mpr h, rfl⟩

theorem pairwise_map_zipIdx {f : α × ℕ → β} {r : β → β → Prop}
    (h : ∀ a b : α × ℕ, a.2 < b.2 → r (f a) (f b)) : (l.zipIdx.map f).Pairwise r := by
  have hnumbers : (l.zipIdx.map Prod.snd).Pairwise (· < ·) := by
    rw [List.zipIdx_map_snd]
    exact List.pairwise_lt_range'
  exact List.pairwise_map.mpr ((List.pairwise_map.mp hnumbers).imp (h _ _))

theorem forall₂_found (l : List (α × Option β)) :
    List.Forall₂ (fun a b => (a, some b) ∈ l) ((l.filter (·.2.isSome)).map Prod.fst)
      (l.filterMap Prod.snd) := by
  induction l with
  | nil => exact .nil
  | cons x l ih =>
    have hrest := ih.imp fun a b h => List.mem_cons_of_mem x h
    obtain ⟨a, _ | b⟩ := x
    · exact hrest
    · exact .cons List.mem_cons_self hrest

end Numbered

variable {s : Schema}

/-! ## Places -/

namespace Schema

/-- Where a schema declares a key or refers to one. -/
inductive Place where
  | declaration (field : ℕ)
  | source (field position : ℕ)
  | rule (index : ℕ)

/-- One place comes before another: declarations, then sources, then rules. -/
def Place.Before : Place → Place → Prop
  | .declaration i, .declaration j => i < j
  | .source i m, .source j n => i < j ∨ i = j ∧ m < n
  | .rule i, .rule j => i < j
  | .declaration _, .source _ _ => True
  | .declaration _, .rule _ => True
  | .source _ _, .rule _ => True
  | _, _ => False

/-- **What is wrong at a place**: a key that was declared before, or an end of a reference that is
not declared. -/
inductive Wrong (s : Schema) : Place → GraphProblem → Prop
  | repeated {i : ℕ} {key : String} (hi : s.fieldKeys[i]? = some key)
      (hkey : key ∈ s.fieldKeys.take i) : Wrong s (.declaration i) (.repeatedKey i key)
  | source {i j : ℕ} {f : Field} {key : String} (hi : s.fields[i]? = some f)
      (hj : f.sources[j]? = some key) (hkey : key ∉ s.fieldKeys) :
      Wrong s (.source i j) (.undeclared
        (indexPath (indexPath "fields" i ++ ".computation.source_fields") j) key)
  | trigger {i : ℕ} {r : Rule} (hi : s.rules[i]? = some r) (htrigger : r.trigger ∉ s.fieldKeys) :
      Wrong s (.rule i) (.undeclared (indexPath "rules" i) r.trigger)
  | target {i : ℕ} {r : Rule} (hi : s.rules[i]? = some r) (htrigger : r.trigger ∈ s.fieldKeys)
      (htarget : r.target ∉ s.fieldKeys) :
      Wrong s (.rule i) (.undeclared (indexPath "rules" i) r.target)

/-! ## What is found -/

/-- What is found at each declaration. -/
def inspectedKeys (keys : List String) : List (Place × Option GraphProblem) :=
  keys.zipIdx.map fun k =>
    (.declaration k.2, if k.1 ∈ keys.take k.2 then some (.repeatedKey k.2 k.1) else none)

/-- What is found at each source of the formula of a field. -/
def inspectedSources (keys : List String) (i : ℕ) (f : Field) :
    List (Place × Option GraphProblem) :=
  f.sources.zipIdx.map fun k => (.source i k.2, undeclaredEnd? keys
    ⟨k.1, f.key, indexPath (indexPath "fields" i ++ ".computation.source_fields") k.2⟩)

/-- What is found at each rule. -/
def inspectedRules (keys : List String) (rules : List Rule) : List (Place × Option GraphProblem) :=
  rules.zipIdx.map fun r =>
    (.rule r.2, undeclaredEnd? keys ⟨r.1.trigger, r.1.target, indexPath "rules" r.2⟩)

/-- What is found at each place, in order. -/
def inspected (s : Schema) : List (Place × Option GraphProblem) :=
  inspectedKeys s.fieldKeys ++ (s.fields.zipIdx.map fun f =>
    inspectedSources s.fieldKeys f.2 f.1).flatten ++ inspectedRules s.fieldKeys s.rules

theorem repeatedKeys_eq (pre ks : List String) :
    repeatedKeys pre.length pre.reverse ks = (ks.zipIdx pre.length).filterMap fun k =>
      if k.1 ∈ (pre ++ ks).take k.2 then some (.repeatedKey k.2 k.1) else none := by
  induction ks generalizing pre with
  | nil => rfl
  | cons k ks ih =>
    have hrest := ih (pre ++ [k])
    rw [List.length_append, List.length_singleton, List.reverse_concat, List.append_assoc,
      List.singleton_append] at hrest
    rw [repeatedKeys, hrest, List.zipIdx_cons, List.filterMap_cons]
    dsimp only
    rw [List.take_left]
    by_cases hk : k ∈ pre
    · rw [if_pos hk, if_pos (List.contains_iff_mem.mpr (List.mem_reverse.mpr hk))]
      rfl
    · rw [if_neg hk, if_neg fun hc => hk (List.mem_reverse.mp (List.contains_iff_mem.mp hc))]
      rfl

/-- **The problems are what is found.** -/
theorem graphProblems_eq (s : Schema) : s.graphProblems = s.inspected.filterMap Prod.snd := by
  have hkeys : repeatedKeys 0 [] s.fieldKeys =
      (inspectedKeys s.fieldKeys).filterMap Prod.snd := by
    rw [inspectedKeys, List.filterMap_map]
    exact repeatedKeys_eq [] s.fieldKeys
  rw [graphProblems, inspected, List.filterMap_append, List.filterMap_append, references,
    List.filterMap_append, hkeys, List.append_assoc]
  congr 2
  · rw [List.mapIdx_eq_zipIdx_map, List.filterMap_flatten, List.filterMap_flatten, List.map_map,
      List.map_map]
    congr 1
    refine List.map_congr_left fun found _ => ?_
    obtain ⟨f, i⟩ := found
    dsimp only [Function.comp_apply]
    rw [formulaReferences, inspectedSources, List.mapIdx_eq_zipIdx_map, List.filterMap_map,
      List.filterMap_map]
    rfl
  · rw [List.mapIdx_eq_zipIdx_map, inspectedRules, List.filterMap_map, List.filterMap_map]
    rfl

theorem undeclaredEnd?_eq_some {keys : List String} {r : Reference} {p : GraphProblem} :
    undeclaredEnd? keys r = some p ↔
      (r.source ∉ keys ∧ .undeclared r.path r.source = p) ∨
        (r.source ∈ keys ∧ r.target ∉ keys ∧ .undeclared r.path r.target = p) := by
  rw [undeclaredEnd?]
  by_cases hsource : r.source ∈ keys <;> by_cases htarget : r.target ∈ keys <;>
    simp [hsource, htarget]

/-- **What is found at a place is what is wrong there.** -/
theorem mem_inspected {p : Place} {problem : GraphProblem} :
    (p, some problem) ∈ s.inspected ↔ s.Wrong p problem := by
  rw [inspected, List.mem_append, List.mem_append, List.mem_flatten, inspectedKeys, inspectedRules,
    mem_map_zipIdx, mem_map_zipIdx]
  constructor
  · rintro ((⟨i, key, hi, h⟩ | ⟨found, hfound, h⟩) | ⟨i, r, hi, h⟩)
    · obtain ⟨rfl, hfound⟩ := Prod.mk.inj h
      split_ifs at hfound with hkey
      obtain rfl := Option.some.inj hfound
      exact .repeated hi hkey
    · obtain ⟨i, f, hi, rfl⟩ := mem_map_zipIdx.mp hfound
      obtain ⟨j, key, hj, h⟩ := mem_map_zipIdx.mp h
      obtain ⟨rfl, hend⟩ := Prod.mk.inj h
      rcases undeclaredEnd?_eq_some.mp hend with ⟨hkey, rfl⟩ | ⟨-, htarget, -⟩
      · exact .source hi hj hkey
      · exact absurd (List.mem_map_of_mem (List.mem_of_getElem? hi)) htarget
    · obtain ⟨rfl, hend⟩ := Prod.mk.inj h
      rcases undeclaredEnd?_eq_some.mp hend with ⟨htrigger, rfl⟩ | ⟨htrigger, htarget, rfl⟩
      · exact .trigger hi htrigger
      · exact .target hi htrigger htarget
  · intro h
    cases h with
    | repeated hi hkey => exact Or.inl (Or.inl ⟨_, _, hi, by rw [if_pos hkey]⟩)
    | source hi hj hkey =>
      refine Or.inl (Or.inr ⟨_, mem_map_zipIdx.mpr ⟨_, _, hi, rfl⟩, mem_map_zipIdx.mpr
        ⟨_, _, hj, ?_⟩⟩)
      rw [undeclaredEnd?_eq_some.mpr (Or.inl ⟨hkey, rfl⟩)]
    | trigger hi htrigger =>
      exact Or.inr ⟨_, _, hi, by rw [undeclaredEnd?_eq_some.mpr (Or.inl ⟨htrigger, rfl⟩)]⟩
    | target hi htrigger htarget =>
      exact Or.inr ⟨_, _, hi,
        by rw [undeclaredEnd?_eq_some.mpr (Or.inr ⟨htrigger, htarget, rfl⟩)]⟩

theorem pairwise_inspectedSources (s : Schema) : (s.fields.zipIdx.map fun f =>
    inspectedSources s.fieldKeys f.2 f.1).flatten.Pairwise fun a b => a.1.Before b.1 := by
  refine List.pairwise_flatten.mpr ⟨fun found hfound => ?_, ?_⟩
  · obtain ⟨i, f, -, rfl⟩ := mem_map_zipIdx.mp hfound
    exact pairwise_map_zipIdx fun _ _ hlt => Or.inr ⟨rfl, hlt⟩
  · refine pairwise_map_zipIdx fun _ _ hlt a ha b hb => ?_
    obtain ⟨j, key, -, rfl⟩ := mem_map_zipIdx.mp ha
    obtain ⟨j', key', -, rfl⟩ := mem_map_zipIdx.mp hb
    exact Or.inl hlt

/-- **Places are inspected in order.** -/
theorem pairwise_inspected (s : Schema) : s.inspected.Pairwise fun a b => a.1.Before b.1 := by
  have hkeys : (inspectedKeys s.fieldKeys).Pairwise fun a b => a.1.Before b.1 :=
    pairwise_map_zipIdx fun _ _ hlt => hlt
  have hrules : (inspectedRules s.fieldKeys s.rules).Pairwise fun a b => a.1.Before b.1 :=
    pairwise_map_zipIdx fun _ _ hlt => hlt
  have hsource : ∀ a ∈ (s.fields.zipIdx.map fun f =>
      inspectedSources s.fieldKeys f.2 f.1).flatten, ∃ i j, a.1 = .source i j := by
    intro a ha
    obtain ⟨found, hfound, ha⟩ := List.mem_flatten.mp ha
    obtain ⟨i, f, -, rfl⟩ := mem_map_zipIdx.mp hfound
    obtain ⟨j, key, -, rfl⟩ := mem_map_zipIdx.mp ha
    exact ⟨i, j, rfl⟩
  refine List.pairwise_append.mpr ⟨List.pairwise_append.mpr
    ⟨hkeys, pairwise_inspectedSources s, fun a ha b hb => ?_⟩, hrules, fun a ha b hb => ?_⟩
  · obtain ⟨i, key, -, rfl⟩ := mem_map_zipIdx.mp ha
    obtain ⟨i', j', hb⟩ := hsource b hb
    rw [hb]
    trivial
  · obtain ⟨i, r, -, rfl⟩ := mem_map_zipIdx.mp hb
    rcases List.mem_append.mp ha with ha | ha
    · obtain ⟨i', key, -, rfl⟩ := mem_map_zipIdx.mp ha
      trivial
    · obtain ⟨i', j', ha⟩ := hsource a ha
      rw [ha]
      trivial

/-! ## Building the graph -/

/-- **A key is declared twice, or a formula or a rule names an undeclared field.** -/
def Unresolvable (s : Schema) : Prop :=
  ¬ s.fieldKeys.Nodup ∨ (∃ f ∈ s.fields, ∃ source ∈ f.sources, source ∉ s.fieldKeys) ∨
    ∃ r ∈ s.rules, r.trigger ∉ s.fieldKeys ∨ r.target ∉ s.fieldKeys

theorem graphProblems_ne_nil_iff : s.graphProblems ≠ [] ↔ s.Unresolvable := by
  rw [ne_eq, graphProblems_eq_nil_iff, not_and_or, Unresolvable]
  refine or_congr Iff.rfl ⟨fun h => ?_, ?_⟩
  · simp only [not_forall] at h
    obtain ⟨source, target, hfeeds, hnot⟩ := h
    rcases feeds_iff.mp hfeeds with ⟨f, hf, rfl, hsource⟩ | ⟨r, hr, rfl, rfl⟩
    · exact Or.inl ⟨f, hf, source, hsource, fun h => hnot ⟨h, List.mem_map_of_mem hf⟩⟩
    · exact Or.inr ⟨r, hr, not_and_or.mp hnot⟩
  · rintro (⟨f, hf, source, hsource, hnot⟩ | ⟨r, hr, hnot⟩) hdeclared
    · exact hnot (hdeclared _ _ (feeds_iff.mpr (Or.inl ⟨f, hf, rfl, hsource⟩))).1
    · exact not_and_or.mpr hnot (hdeclared _ _ (feeds_of_rule hr))

theorem strict_eq_error_iff {failure : Failure} : Graph.strict s = .error failure ↔
    s.graphProblems ≠ [] ∧
      failure = .schemaInvalid "Schema possui referências inválidas no grafo de dependências"
        [("errors", .list (s.graphProblems.map fun p => p.toNotice.toValue))] none := by
  rw [Graph.strict]
  split_ifs with hempty
  · have hnil := List.isEmpty_iff.mp hempty
    exact ⟨False.elim, fun h => absurd hnil h.1⟩
  · have hne : s.graphProblems ≠ [] := fun hnil => hempty (List.isEmpty_iff.mpr hnil)
    exact ⟨fun h => ⟨hne, (Except.error.inj h).symm⟩, fun h => congrArg Except.error h.2.symm⟩

/-- **The problems stand in order, one for each place where something is wrong.** -/
theorem exists_places (s : Schema) : ∃ places : List Place, places.Pairwise Place.Before ∧
    (∀ p, p ∈ places ↔ ∃ problem, s.Wrong p problem) ∧
      List.Forall₂ s.Wrong places s.graphProblems := by
  refine ⟨(s.inspected.filter (·.2.isSome)).map Prod.fst,
    List.pairwise_map.mpr ((pairwise_inspected s).filter _), fun p => ?_, ?_⟩
  · rw [List.mem_map]
    constructor
    · rintro ⟨⟨p, found⟩, hmem, rfl⟩
      obtain ⟨hmem, hsome⟩ := List.mem_filter.mp hmem
      obtain ⟨problem, rfl⟩ := Option.isSome_iff_exists.mp hsome
      exact ⟨problem, mem_inspected.mp hmem⟩
    · rintro ⟨problem, hwrong⟩
      exact ⟨(p, some problem), List.mem_filter.mpr ⟨mem_inspected.mpr hwrong, rfl⟩, rfl⟩
  · rw [graphProblems_eq]
    exact (forall₂_found s.inspected).imp fun p problem => mem_inspected.mp

/-- **What building the graph of a schema gives.** -/
structure BuildsGraph (s : Schema) : Prop where
  /-- References to undeclared fields are left out. -/
  represents : (Graph.ofSchema s).Represents s
  fails_iff : (∃ failure, Graph.strict s = .error failure) ↔ s.Unresolvable
  /-- The failure tells once, and in order, what is wrong at each place. -/
  failure : ∀ failure, Graph.strict s = .error failure → ∃ places problems,
    places.Pairwise Place.Before ∧ (∀ p, p ∈ places ↔ ∃ problem, s.Wrong p problem) ∧
      List.Forall₂ s.Wrong places problems ∧
      failure = .schemaInvalid "Schema possui referências inválidas no grafo de dependências"
        [("errors", .list (problems.map fun p => p.toNotice.toValue))] none
  succeeds : ¬ s.Unresolvable → Graph.strict s = .ok (Graph.ofSchema s)

/-- **The graph of a schema holds its references, and a schema that has no complete graph is
refused with all that is wrong with it.** -/
theorem buildsGraph (s : Schema) : s.BuildsGraph := by
  refine ⟨Graph.represents_ofSchema s, ?_, fun failure h => ?_, fun h =>
    Graph.strict_of_problems (not_ne_iff.mp (graphProblems_ne_nil_iff.not.mpr h))⟩
  · rw [← graphProblems_ne_nil_iff]
    exact ⟨fun ⟨_, h⟩ => (strict_eq_error_iff.mp h).1,
      fun h => ⟨_, strict_eq_error_iff.mpr ⟨h, rfl⟩⟩⟩
  · obtain ⟨places, hbefore, hmem, hwrong⟩ := exists_places s
    exact ⟨places, s.graphProblems, hbefore, hmem, hwrong, (strict_eq_error_iff.mp h).2⟩

end Schema

end LiveForm
