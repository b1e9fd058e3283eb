import LiveForm.Proofs.Session.Checked
import LiveForm.Proofs.Session.Locality
import LiveForm.Proofs.Session.Operation

/-!
# A reset restores the session

A reset puts back the values of the start and removes the errors of rules and of checks, but leaves
flags and errors of formulas as they are. The pass after it makes up for that: it writes values and
errors of rules from values and errors of rules alone, so it goes as the first pass of the session
did, and it decides all flags and judges all formulas from the values that it ends with. What it
does not write is never written at all.

* `Pass.Abreast`: two passes with the same values and errors of rules, `Pass.abreast_run`: a pass
  over all fields keeps them so;
* `Plan.Fitting`: a state has flags of fields only, and errors of formulas only where there is one;
* `Session.Reachable.fitting`: the states of reachable sessions do;
* **`Session.Opened.restored`**: a reset leads back to the state of the start.
-/

namespace LiveForm

variable {p : Plan} {s s' : State} {f : Field} {key : String} {full : Bool}

/-! ## Passes abreast -/

theorem Plan.judgeErrors_congr (hvalue : s'.value = s.value)
    (herrors : s'.ruleErrors = s.ruleErrors) (group : List (ℕ × Rule)) :
    p.judgeErrors s' group = p.judgeErrors s group := by
  rw [judgeErrors, judgeErrors, hvalue, herrors]

theorem Plan.decision_eq_of_value (hvalue : s'.value = s.value) (key : String) (effect : Effect)
    (declared : Bool) : p.decision s' key effect declared = p.decision s key effect declared :=
  decision_congr fun e _ => congrFun hvalue e.2.trigger

namespace Pass

variable {a a' : Pass}

/-- **Two passes have the same values and errors of rules.** -/
structure Abreast (a a' : Pass) : Prop where
  data : a'.state.data = a.state.data
  ruleErrors : a'.state.ruleErrors = a.state.ruleErrors

theorem Abreast.value (h : Abreast a a') : a'.state.value = a.state.value :=
  State.value_eq_of_data_eq h.data

theorem data_recompute (p : Plan) (key : String) (fo : Formula) (a : Pass) :
    (a.recompute p key fo).state.data =
      match fo.evaluate p.formulas a.state.value with
      | .error _ => a.state.data
      | .ok result =>
        if (a.state.value key).same result.value then a.state.data
        else a.state.data.set key result.value := by
  cases h : fo.evaluate p.formulas a.state.value with
  | error fault =>
    rw [recompute_of_error h, formulaJudged_eq]
    rfl
  | ok result =>
    obtain ⟨lines, hrun⟩ := exists_recompute_of_ok key h
    rw [hrun, formulaJudged_eq]
    dsimp only
    split <;> rfl

theorem Abreast.visitFormula (h : Abreast a a') (p : Plan) (f : Field) :
    Abreast (a.visitFormula p true f) (a'.visitFormula p true f) := by
  obtain ⟨-, herrors⟩ := visitFormula_frame p true f a
  obtain ⟨-, herrors'⟩ := visitFormula_frame p true f a'
  refine ⟨?_, by rw [herrors, herrors', h.ruleErrors]⟩
  rw [Pass.visitFormula, Pass.visitFormula]
  cases f.formula with
  | none => exact h.data
  | some fo =>
    dsimp only
    rw [if_pos (Bool.true_or _), if_pos (Bool.true_or _), data_recompute, data_recompute, h.value,
      h.data]

theorem Abreast.visitFlag (h : Abreast a a') (p : Plan) (f : Field) (d : Flag) :
    Abreast (a.visitFlag p true f d) (a'.visitFlag p true f d) := by
  rw [Pass.visitFlag, Pass.visitFlag]
  -- Whether a full pass judges a group does not depend on what has changed.
  have hstale : ∀ b : Pass, b.stale true (p.rulesFor f.key d.effect) =
      !(p.rulesFor f.key d.effect).isEmpty := fun b => Bool.and_true _
  rw [hstale, hstale]
  split
  · refine ⟨?_, ?_⟩
    · rw [flagDecided, flagDecided]
      dsimp only
      rw [State.data_withFlag, State.data_withFlag]
      exact h.data
    · rw [ruleErrors_flagDecided, ruleErrors_flagDecided,
        Plan.judgeErrors_congr h.value h.ruleErrors]
  · exact h

theorem Abreast.visit (h : Abreast a a') (p : Plan) (key : String) :
    Abreast (Pass.visit p true a key) (Pass.visit p true a' key) := by
  cases hf : p.schema.field? key with
  | none =>
    rw [Pass.visit, Pass.visit, hf]
    exact h
  | some f =>
    rw [visit_of_field? hf, visit_of_field? hf, if_pos rfl, if_pos rfl]
    exact ((h.visitFormula p f).visitFlag p f .visibility).visitFlag p f .required

/-- **Full passes with the same values and errors of rules stay abreast.** -/
theorem abreast_run (h : Abreast a a') (p : Plan) (nodes : List String) :
    Abreast (run p true a nodes) (run p true a' nodes) := by
  induction nodes generalizing a a' with
  | nil => exact h
  | cons k nodes ih => exact ih (h.visit p k)

end Pass

/-! ## What is never written -/

namespace Plan

/-- No field with the key has a formula. -/
def Uncomputed (p : Plan) (key : String) : Prop :=
  ∀ f, p.schema.field? key = some f → f.formula = none

/-- **A state has flags of fields only, and errors of formulas only where there is one.** -/
structure Fitting (p : Plan) (s : State) : Prop where
  flags : ∀ d key, p.schema.field? key = none → (s.flags d).get? key = none
  formulaErrors : ∀ key, p.Uncomputed key → s.formulaErrors.get? key = none

theorem Fitting.congr (h : p.Fitting s) (hflags : ∀ d, s'.flags d = s.flags d)
    (herrors : s'.formulaErrors = s.formulaErrors) : p.Fitting s' where
  flags d key hkey := by rw [hflags, h.flags d key hkey]
  formulaErrors key hkey := by rw [herrors, h.formulaErrors key hkey]

end Plan

namespace Pass

variable {a : Pass}

theorem fitting_visit (h : p.Fitting a.state) (k : String) :
    p.Fitting (visit p full a k).state := by
  have ht := touches_visit p full a k
  constructor
  · intro d key hkey
    by_cases hk : key = k
    · rw [visit, ← hk, hkey]
      exact h.flags d key hkey
    · rw [ht.flags d key hk, h.flags d key hkey]
  · intro key hkey
    by_cases hk : key = k
    · subst hk
      cases hf : p.schema.field? key with
      | none =>
        rw [visit, hf]
        exact h.formulaErrors key hkey
      | some f =>
        rw [formulaErrors_visit hf, visitFormula, hkey f hf]
        exact h.formulaErrors key hkey
    · rw [ht.formulaErrors key hk, h.formulaErrors key hkey]

theorem fitting_run (h : p.Fitting a.state) (nodes : List String) :
    p.Fitting (run p full a nodes).state :=
  run_keeps (P := fun b => p.Fitting b.state) (fun k _ _ hb => fitting_visit hb k) h

end Pass

namespace Session

variable {t : Session}

theorem fitting_declaredState (p : Plan) (data : Table String Value) :
    p.Fitting (declaredState p.schema data) := by
  refine ⟨fun d key hkey => ?_, fun key _ => rfl⟩
  have hnot : key ∉ p.schema.fieldKeys := by
    rw [Schema.mem_fieldKeys, hkey]
    decide
  cases d with
  | visibility => rw [State.flags, declaredState, Table.get?_ofKeys, if_neg hnot]
  | required => rw [State.flags, declaredState, Table.get?_ofKeys, if_neg hnot]

theorem fitting_recheck {before : State} (h : p.Fitting s) :
    p.Fitting (recheck p before s).state := by
  obtain ⟨errors, he⟩ := recheck_eq p before s
  rw [he]
  exact h.congr (fun d => by cases d <;> rfl) rfl

/-- **The states of reachable sessions are fitting.** -/
theorem Reachable.fitting (h : t.Reachable) : t.plan.Fitting t.state := by
  induction h with
  | opened h =>
    obtain ⟨_, _, _, _, _, hs⟩ := h
    rw [(start_eq_ok hs).2]
    exact Pass.fitting_run (fitting_declaredState _ _) _
  | @set t h key v ih =>
    obtain ⟨hplan, hstate | ⟨f, -, -, hstate⟩⟩ := set_cases t key v
    · rw [hplan, hstate]
      exact ih
    · rw [hplan, hstate]
      exact fitting_recheck (Pass.fitting_run (ih.congr (fun d => by cases d <;> rfl) rfl) _)
  | settle h ih =>
    rw [plan_settle, state_settle]
    exact fitting_recheck (Pass.fitting_run ih _)
  | reset h ih => exact Pass.fitting_run (ih.congr (fun d => by cases d <;> rfl) rfl) _
  | @check t h ih =>
    obtain ⟨hplan, ⟨-, -, hstate⟩ | ⟨errors, -, hstate⟩⟩ := check_cases t
    · rw [hplan, hstate]
      exact ih
    · rw [hplan, hstate]
      exact ih.congr (fun d => by cases d <;> rfl) rfl

end Session

/-! ## The reset -/

/-- **Two states are the same**: the values, the flags at every key, and the errors of every
channel. -/
structure State.Same (s s' : State) : Prop where
  data : s'.data = s.data
  visibility : ∀ key, s'.visibility.get? key = s.visibility.get? key
  required : ∀ key, s'.required.get? key = s.required.get? key
  formulaErrors : ∀ key, s'.formulaErrors.get? key = s.formulaErrors.get? key
  ruleErrors : s'.ruleErrors = s.ruleErrors
  checkErrors : s'.checkErrors = s.checkErrors

/-- **Settled and fitting states are the same when their values and errors of rules and of checks
are.** What else they have is decided by the values. -/
theorem State.same_of_settled (hs : ∀ f ∈ p.schema.fields, p.FieldSettled s f)
    (hs' : ∀ f ∈ p.schema.fields, p.FieldSettled s' f) (hfit : p.Fitting s) (hfit' : p.Fitting s')
    (hdata : s'.data = s.data) (hrules : s'.ruleErrors = s.ruleErrors)
    (hcheck : s'.checkErrors = s.checkErrors) : s.Same s' := by
  have hvalue := State.value_eq_of_data_eq hdata
  have hflags : ∀ d key, (s'.flags d).get? key = (s.flags d).get? key := by
    intro d key
    cases hf : p.schema.field? key with
    | none => rw [hfit.flags d key hf, hfit'.flags d key hf]
    | some f =>
      obtain ⟨hmem, rfl⟩ := Schema.mem_of_field? hf
      rw [((hs f hmem).flags d).decided, ((hs' f hmem).flags d).decided,
        Plan.decision_eq_of_value hvalue]
  have herrors : ∀ key, s'.formulaErrors.get? key = s.formulaErrors.get? key := by
    intro key
    by_cases hkey : p.Uncomputed key
    · rw [hfit.formulaErrors key hkey, hfit'.formulaErrors key hkey]
    · rw [Plan.Uncomputed, not_forall] at hkey
      obtain ⟨f, hkey⟩ := hkey
      obtain ⟨hf, hformula⟩ := Classical.not_imp.mp hkey
      obtain ⟨fo, hfo⟩ := Option.ne_none_iff_exists'.mp hformula
      obtain ⟨hmem, rfl⟩ := Schema.mem_of_field? hf
      rw [((hs f hmem).formula fo hfo).errors, ((hs' f hmem).formula fo hfo).errors, hvalue]
  exact ⟨hdata, hflags .visibility, hflags .required, herrors, hrules, hcheck⟩

namespace Session

variable {t t' : Session}

theorem Opened.same_reset (h : t.Opened) (h' : t'.Reachable) (hplan : t'.plan = t.plan) :
    t.state.Same t'.reset.session.state := by
  have hsound' := h'.sound.reset
  have hfit' := h'.reset.fitting
  have hreset : t'.reset.session.plan = t.plan := hplan
  rw [hreset] at hfit'
  have habreast : Pass.Abreast (settleAll t.plan (declaredState t.plan.schema t.plan.initial))
      (settleAll t.plan { t'.state with
        data := t.plan.initial, ruleErrors := .empty, checkErrors := .empty }) := by
    refine Pass.abreast_run ?_ t.plan t.plan.order
    exact ⟨rfl, rfl⟩
  have hstate := h.state_eq
  have hstate' : t'.reset.session.state = (settleAll t.plan { t'.state with
      data := t.plan.initial, ruleErrors := .empty, checkErrors := .empty }).state := by
    rw [← hplan]
    rfl
  refine State.same_of_settled (p := t.plan) h.sound.settled (hreset ▸ hsound'.settled)
    (Reachable.opened h).fitting hfit' ?_ ?_ ?_
  · rw [hstate, hstate', habreast.data]
  · rw [hstate, hstate', habreast.ruleErrors]
  · rw [checkErrors_reset, checkErrors_opened h]

theorem plan_after (t : Session) (ops : List Operation) : (t.after ops).plan = t.plan := by
  induction ops generalizing t with
  | nil => rfl
  | cons o ops ih => exact (ih _).trans (plan_perform t o)

/-- **A reset restores the session.** Whatever was done since a session was opened, after a reset it
has again the values, flags and errors that it had then. -/
theorem Opened.restored (h : t.Opened) (ops : List Operation) :
    t.state.Same (t.after ops).reset.session.state :=
  h.same_reset ((Reachable.opened h).after ops) (plan_after t ops)

/-- An order in which a price and a note were written, and which was checked. -/
theorem order_restored :
    ∃ t : Session, (t.Opened ∧ t.plan = orderPlan) ∧ t.state.Same
      (t.after [.set "price" (.int 10), .check, .set "note" (.text "ring"), .settle]
        ).reset.session.state := by
  obtain ⟨t, ht, hplan, -⟩ := exists_order
  exact ⟨t, ⟨ht, hplan⟩, Opened.restored ht _⟩

end Session

end LiveForm
