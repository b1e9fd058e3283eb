import LiveForm.Rule

/-!
# The rule that decides

Among the satisfied rules with one effect on one target the last declared one decides.

* `foldl_last`: a fold in which the last that satisfies a condition counts;
* `Rule.evaluate_congr`: a verdict depends on the value of the trigger only;
* **`Rule.evaluateAll_visibility`, `Rule.evaluateAll_required`**: the outcome of all rules holds,
  for each target, the effect of the deciding rule.
-/

namespace LiveForm

theorem foldl_last {α β : Type} (c : α → Bool) (g : α → β) (l : List α) (init : β) :
    l.foldl (fun acc a => if c a then g a else acc) init =
      ((l.filter c).getLast?.map g).getD init := by
  induction l generalizing init with
  | nil => rfl
  | cons a l ih =>
    rw [List.foldl_cons, ih]
    by_cases ha : c a = true
    · rw [if_pos ha, List.filter_cons_of_pos ha, List.getLast?_cons]
      cases (l.filter c).getLast? <;> rfl
    · rw [if_neg ha, List.filter_cons_of_neg ha]

namespace Rule

variable {types : FieldTypes} {data data' : FormData}

theorem evaluate_congr {r : Rule} (h : data r.trigger = data' r.trigger) :
    r.evaluate types data = r.evaluate types data' := by
  rw [evaluate, evaluate, h]

/-- The rule has an effect on a target. -/
def aims (target : String) (effect : Effect) (r : Rule) : Bool :=
  r.target == target && r.effect == effect

theorem aims_iff {target : String} {effect : Effect} {r : Rule} :
    r.aims target effect = true ↔ r.target = target ∧ r.effect = effect := by
  rw [aims, Bool.and_eq_true, beq_iff_eq, beq_iff_eq]

/-- **The deciding rule** of an effect on a target: the last declared one that is satisfied. -/
def deciding? (rules : List Rule) (types : FieldTypes) (data : FormData) (target : String)
    (effect : Effect) : Option Rule :=
  ((rules.filter (aims target effect)).filter fun r => (r.evaluate types data).holds).getLast?

/-! ## The outcome of all rules -/

theorem visibility_add (o : Outcome) (r : Rule) (key : String) :
    (o.add types data r).visibility.get? key =
      if r.aims key .visibility && (r.evaluate types data).holds
        then some r.effectValue.truthy else o.visibility.get? key := by
  rw [Outcome.add]
  rcases r.evaluate types data with m | _ | _
  · simp [Verdict.holds, Outcome.report]
  · simp [Verdict.holds]
  · cases he : r.effect <;> simp [Verdict.holds, Outcome.apply, he, aims, Table.get?_set]

theorem required_add (o : Outcome) (r : Rule) (key : String) :
    (o.add types data r).required.get? key =
      if r.aims key .required && (r.evaluate types data).holds
        then some r.effectValue.truthy else o.required.get? key := by
  rw [Outcome.add]
  rcases r.evaluate types data with m | _ | _
  · simp [Verdict.holds, Outcome.report]
  · simp [Verdict.holds]
  · cases he : r.effect <;> simp [Verdict.holds, Outcome.apply, he, aims, Table.get?_set]

/-- What each rule that aims at a target overwrites when it is satisfied ends as the deciding rule
leaves it. -/
theorem foldl_deciding (look : Outcome → Option Bool) {key : String} {effect : Effect}
    (hadd : ∀ o r, look (o.add types data r) =
      if r.aims key effect && (r.evaluate types data).holds
        then some r.effectValue.truthy else look o) (rules : List Rule) (o : Outcome) :
    look (rules.foldl (Outcome.add types data) o) =
      ((deciding? rules types data key effect).map fun r => some r.effectValue.truthy).getD
        (look o) := by
  have hfold : rules.foldl (fun acc r => if r.aims key effect && (r.evaluate types data).holds
      then some r.effectValue.truthy else acc) (look o) =
      look (rules.foldl (Outcome.add types data) o) :=
    List.foldl_hom look fun o r => (hadd o r).symm
  rw [← hfold, foldl_last fun r : Rule => r.aims key effect && (r.evaluate types data).holds,
    deciding?, List.filter_filter]
  simp only [Bool.and_comm]

/-- **All rules show or hide a target as the deciding one says.** -/
theorem evaluateAll_visibility (rules : List Rule) (key : String) :
    (evaluateAll rules types data).visibility.get? key =
      (deciding? rules types data key .visibility).map (·.effectValue.truthy) := by
  rw [evaluateAll,
    foldl_deciding (fun o => o.visibility.get? key) fun o r => visibility_add o r key]
  cases deciding? rules types data key .visibility <;> rfl

/-- **All rules oblige a target or not as the deciding one says.** -/
theorem evaluateAll_required (rules : List Rule) (key : String) :
    (evaluateAll rules types data).required.get? key =
      (deciding? rules types data key .required).map (·.effectValue.truthy) := by
  rw [evaluateAll,
    foldl_deciding (fun o => o.required.get? key) fun o r => required_add o r key]
  cases deciding? rules types data key .required <;> rfl

end Rule

end LiveForm
