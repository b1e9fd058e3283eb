import LiveForm.Proofs.Session.Start

/-!
# Visibility, obligation and errors of rules

Writes judge only the rules whose trigger has changed. What a session holds is nevertheless what
all rules, evaluated together on its values, decide.

* **`Session.Reachable.derived_eq_evaluateAll`**: visibility, obligation and errors of a field.
-/

namespace LiveForm

namespace Plan

variable {p : Plan} {s : State} {key : String} {declared : Bool}

theorem decision_visibility : p.decision s key .visibility declared =
    ((Rule.evaluateAll p.schema.rules p.types s.value).visibility.get? key).getD declared := by
  rw [decision, Rule.evaluateAll_visibility]

theorem decision_required : p.decision s key .required declared =
    ((Rule.evaluateAll p.schema.rules p.types s.value).required.get? key).getD declared := by
  rw [decision, Rule.evaluateAll_required]

theorem FieldSettled.ruleErrors {f : Field} (h : p.FieldSettled s f) {i : ℕ} {r : Rule}
    (hr : p.schema.rules[i]? = some r) (htarget : r.target = f.key) (he : r.effect ≠ .setValue) :
    s.ruleErrors.get? i = r.notice? p.types s.value := by
  cases heffect : r.effect with
  | visibility =>
    exact (h.flags .visibility).errors (i, r) (mem_rulesFor.mpr ⟨hr, htarget, heffect⟩)
  | required =>
    exact (h.flags .required).errors (i, r) (mem_rulesFor.mpr ⟨hr, htarget, heffect⟩)
  | setValue => exact absurd heffect he

end Plan

/-- **Every reachable session shows and obliges its fields as all rules together decide**, and where
no rule decides, as declared. At the position of each rule on visibility or obligation it has the
error that the rule gives now, or none. -/
theorem Session.Reachable.derived_eq_evaluateAll {s : Session} (h : s.Reachable) {f : Field}
    (hf : f ∈ s.plan.schema.fields) :
    s.state.visible f.key =
        ((Rule.evaluateAll s.plan.schema.rules s.plan.types s.state.value).visibility.get?
          f.key).getD f.visible ∧
      s.state.requires f.key =
        ((Rule.evaluateAll s.plan.schema.rules s.plan.types s.state.value).required.get?
          f.key).getD f.constraints.required ∧
      ∀ i r, s.plan.schema.rules[i]? = some r → r.target = f.key → r.effect ≠ .setValue →
        s.state.ruleErrors.get? i =
          (r.evaluate s.plan.types s.state.value).misfit?.map (·.toNotice r) := by
  have hsettled := h.sound.settled f hf
  refine ⟨?_, ?_, ?_⟩
  · have hdecided := (hsettled.flags .visibility).decided
    rw [Flag.effect, Plan.decision_visibility] at hdecided
    rw [State.visible, show s.state.visibility.get? f.key = _ from hdecided]
    rfl
  · have hdecided := (hsettled.flags .required).decided
    rw [Flag.effect, Plan.decision_required] at hdecided
    rw [State.requires, show s.state.required.get? f.key = _ from hdecided]
    rfl
  · intro i r hr htarget he
    exact hsettled.ruleErrors hr htarget he

/-- An order after a price was written: its note is shown and obliged as its rules decide. -/
theorem order_derived_eq_evaluateAll :
    ∃ s : Session, (s.Reachable ∧ orderForm.fields[3] ∈ s.plan.schema.fields) ∧
      s.state.visible "note" =
        ((Rule.evaluateAll s.plan.schema.rules s.plan.types s.state.value).visibility.get?
          "note").getD false ∧
      s.state.requires "note" =
        ((Rule.evaluateAll s.plan.schema.rules s.plan.types s.state.value).required.get?
          "note").getD false ∧
      ∀ i r, s.plan.schema.rules[i]? = some r → r.target = "note" → r.effect ≠ .setValue →
        s.state.ruleErrors.get? i =
          (r.evaluate s.plan.types s.state.value).misfit?.map (·.toNotice r) := by
  obtain ⟨s, hs, hplan, -⟩ := exists_order
  have hreachable := (Session.Reachable.opened hs).set "price" (.int 10)
  have hmem : orderForm.fields[3] ∈ (s.set "price" (.int 10)).session.plan.schema.fields := by
    rw [Session.plan_set, hplan]
    exact List.getElem_mem _
  exact ⟨_, ⟨hreachable, hmem⟩, hreachable.derived_eq_evaluateAll hmem⟩

end LiveForm
