import LiveForm.Proofs.Session.Channel
import LiveForm.Proofs.Session.Locality
import LiveForm.Proofs.Session.Operation

/-!
# Twin sessions

Two sessions on reordered schemas go through the fields in different orders and number their rules
in different ways. As long as they hold the same of every field, one operation leads both to the
same again, and both answer the same. An operation that is interrupted in one is interrupted in the
other. After it only the errors of checks may differ, since it was broken off at some field.

* `Plan.Reordered`: two plans on reordered schemas, `Plan.Reordered.renumbers`: they have the same
  fields and rules;
* `Session.Kindred`: two sessions hold the same of every field, up to errors of checks;
* `State.Twins`, `Session.Twins`: two states, or sessions, hold the same of every field;
* `ChangeSet.Same`, `Session.SameAnswer`: two sets of changes, or answers, say the same;
* `Session.Kindred.perform`: one operation keeps sessions kindred;
* **`Session.Twins.perform`, `Session.Twins.sameAnswer`**: it keeps them twins unless it is
  interrupted, and its answers say the same;
* `Session.Kindred.sameFields`: what kindred sessions have in common.
-/

namespace LiveForm

variable {p p' : Plan} {key : String}

/-! ## Plans -/

theorem Plan.rulesFor_eq (hids : (p.schema.rules.map Rule.id).Nodup) (target : String)
    (effect : Effect) : p.rulesFor target effect =
      (p.schema.rules.filter (Rule.aims target effect)).map
        fun r => (p.schema.positionOf r.id, r) := by
  rw [← map_snd_rulesFor, List.map_map]
  refine ((List.map_congr_left fun e he => ?_).trans (List.map_id _)).symm
  rw [Function.comp_apply, Schema.positionOf_eq hids (mem_rulesFor.mp he).1]
  rfl

/-- **Two plans on reordered schemas**, alike in all else that sessions make use of. -/
structure Plan.Reordered (p p' : Plan) : Prop where
  schema : p.schema.Reordered p'.schema
  search : p'.search = p.search
  formulas : p'.formulas = p.formulas
  revalidates : p'.revalidateOnChange = p.revalidateOnChange
  notifies : p'.notifyOnValidate = p.notifyOnValidate
  initial : ∀ key, p'.initial.get? key = p.initial.get? key

theorem Plan.Reordered.renumbers (h : p.Reordered p') (hp : p.WellFormed) :
    p.Renumbers (p.schema.renumber p'.schema) p' where
  field? := h.schema.field? (Schema.nodup_fieldKeys hp.problems)
  feeds := h.schema.feeds
  rulesFor target effect := by
    rw [rulesFor_eq h.schema.symm.ids, rulesFor_eq h.schema.ids, h.schema.groups, List.map_map]
    refine List.map_congr_left fun r hr => ?_
    have hrule := Schema.rule_positionOf h.schema.ids (List.mem_filter.mp hr).1
    rw [Function.comp_apply, Prod.map_apply, Schema.renumber_eq p'.schema hrule, id]
  injective i j r r' hr hr' hij := by
    have hids := h.schema.ids
    have hids' := h.schema.symm.ids
    rw [Schema.renumber_eq p'.schema hr, Schema.renumber_eq p'.schema hr'] at hij
    have hrule := Schema.rule_positionOf hids'
      (h.schema.rules.mem_iff.mp (List.mem_of_getElem? hr))
    have hrule' := Schema.rule_positionOf hids'
      (h.schema.rules.mem_iff.mp (List.mem_of_getElem? hr'))
    rw [hij, hrule'] at hrule
    rw [← Schema.positionOf_eq hids hr, ← Schema.positionOf_eq hids hr', Option.some.inj hrule]
  formulas := h.formulas

/-! ## States -/

/-- **Two states hold the same of every field.** -/
structure State.Twins (p p' : Plan) (s s' : State) : Prop where
  alike : ∀ key, State.Alike (p.schema.renumber p'.schema) p key s s'
  checkErrors : ∀ key, s'.checkErrors.get? key = s.checkErrors.get? key

namespace State

variable {s s' before before' after after' : State} {σ : ℕ → ℕ}

theorem Alike.findings (hfield : ∀ key, p'.schema.field? key = p.schema.field? key)
    (hsearch : p'.search = p.search) (h : State.Alike σ p key s s') :
    s'.findings p' key = s.findings p key := by
  rw [State.findings, State.findings, checkKey, checkKey, hfield]
  cases hf : p.schema.field? key with
  | none => rfl
  | some f =>
    obtain ⟨-, rfl⟩ := Schema.mem_of_field? hf
    dsimp only
    rw [checkField, checkField, h.value, h.visible, h.requires, hsearch]

theorem Alike.stirred (hb : State.Alike σ p key before before')
    (ha : State.Alike σ p key after after') :
    before'.stirred after' key = before.stirred after key := by
  rw [State.stirred, State.stirred, hb.value, ha.value, hb.visible, ha.visible, hb.requires,
    ha.requires]

namespace Twins

section

variable (hp : p.Reordered p') (hwf : p.WellFormed) (hb : before.Twins p p' before')
  (ha : after.Twins p p' after')

include hp hwf hb ha

theorem interruption_recheck :
    (∃ cause, (Session.recheck p' before' after').interruption = some cause) ↔
      ∃ cause, (Session.recheck p before after).interruption = some cause := by
  cases hr : p.revalidateOnChange with
  | false => rw [Session.recheck_of_not hr, Session.recheck_of_not (hp.revalidates.trans hr)]
  | true =>
    rw [(Session.rechecks_recheck hr before after).interrupted_iff,
      (Session.rechecks_recheck (hp.revalidates.trans hr) before' after').interrupted_iff]
    refine exists_congr fun key => ?_
    rw [Table.mem_keys, Table.mem_keys, ha.checkErrors, (hb.alike key).stirred (ha.alike key),
      (ha.alike key).findings (hp.renumbers hwf).field? hp.search]

theorem recheck (hcalm : ¬ ∃ cause, (Session.recheck p before after).interruption = some cause) :
    (Session.recheck p before after).state.Twins p p'
      (Session.recheck p' before' after').state where
  alike key := Session.alike_recheck (ha.alike key)
  checkErrors key := by
    cases hr : p.revalidateOnChange with
    | false =>
      rw [Session.recheck_of_not hr, Session.recheck_of_not (hp.revalidates.trans hr)]
      exact ha.checkErrors key
    | true =>
      have hchecks := Session.rechecks_recheck hr before after
      have hchecks' := Session.rechecks_recheck (hp.revalidates.trans hr) before' after'
      have hcalm' := (interruption_recheck hp hwf hb ha).not.mpr hcalm
      rw [← Option.isSome_iff_exists, Option.not_isSome_iff_eq_none] at hcalm hcalm'
      have hstirred := (hb.alike key).stirred (ha.alike key)
      by_cases hkey : key ∈ after.checkErrors.keys ∧ before.stirred after key = true
      · have hmem' : key ∈ after'.checkErrors.keys := by
          rw [Table.mem_keys, ha.checkErrors, ← Table.mem_keys]
          exact hkey.1
        have hfound := hchecks.found hcalm key hkey.1 hkey.2
        have hfound' := hchecks'.found hcalm' key hmem' (hstirred.trans hkey.2)
        rw [(ha.alike key).findings (hp.renumbers hwf).field? hp.search, hfound] at hfound'
        exact (Except.ok.inj hfound').symm
      · have hnot : key ∈ after.checkErrors.keys → before.stirred after key = false :=
          fun hmem => Bool.eq_false_iff.mpr fun hs => hkey ⟨hmem, hs⟩
        rw [hchecks.kept key hnot, hchecks'.kept key fun hmem => ?_, ha.checkErrors]
        rw [Table.mem_keys, ha.checkErrors, ← Table.mem_keys] at hmem
        exact hstirred.trans (hnot hmem)

end

theorem settleAll (hp : p.Reordered p') (hwf : p.WellFormed) (hwf' : p'.WellFormed)
    (h : s.Twins p p' s') :
    (settleAll p s).state.Twins p p' (LiveForm.settleAll p' s').state where
  alike key := (settleAll_alike (hp.renumbers hwf) hwf hwf' h.alike key).toAlike
  checkErrors key := by
    rw [LiveForm.settleAll, LiveForm.settleAll, Pass.checkErrors_run, Pass.checkErrors_run]
    exact h.checkErrors key

/-! ## Errors -/

variable {r : Rule}

theorem errorOfRule (hp : p.Reordered p')
    (h : State.Alike (p.schema.renumber p'.schema) p key s s') (hr : r ∈ p.schema.rules) :
    s'.errorOfRule p' key r = s.errorOfRule p key r := by
  rw [State.errorOfRule, State.errorOfRule]
  split
  · next htarget =>
    have hrule := Schema.rule_positionOf hp.schema.ids hr
    rw [← h.ruleErrors _ r hrule (beq_iff_eq.mp htarget),
      Schema.renumber_eq p'.schema hrule]
  · rfl

theorem errorsOfRules (hp : p.Reordered p')
    (h : State.Alike (p.schema.renumber p'.schema) p key s s') :
    (s.errorsOfRules p key).Perm (s'.errorsOfRules p' key) := by
  rw [errorsOfRules_eq hp.schema.ids, errorsOfRules_eq hp.schema.symm.ids]
  refine hp.schema.rules.flatMap fun r hr => ?_
  rw [errorOfRule hp h hr]

/-- **The errors of a field differ between two states when they differ between their twins.** -/
theorem errors_equiv (hp : p.Reordered p') (hb : before.Twins p p' before')
    (ha : after.Twins p p' after') (hsb : p.Sourced before) (hsa : p.Sourced after)
    (hsb' : p'.Sourced before') (hsa' : p'.Sourced after') :
    listEquiv Notice.equiv (before'.errors p' key) (after'.errors p' key) =
      listEquiv Notice.equiv (before.errors p key) (after.errors p key) := by
  rw [Bool.eq_iff_iff, errors_equiv_iff hp.schema.symm.ids hsb' hsa',
    errors_equiv_iff hp.schema.ids hsb hsa, (hb.alike key).formulaErrors,
    (ha.alike key).formulaErrors, hb.checkErrors, ha.checkErrors]
  refine and_congr_left fun _ => and_congr_right fun _ => ?_
  constructor
  · intro h r hr
    rw [← errorOfRule hp (hb.alike key) hr, ← errorOfRule hp (ha.alike key) hr]
    exact h r (hp.schema.rules.mem_iff.mp hr)
  · intro h r hr
    have hr := hp.schema.rules.mem_iff.mpr hr
    rw [errorOfRule hp (hb.alike key) hr, errorOfRule hp (ha.alike key) hr]
    exact h r hr

end Twins

end State

/-! ## Changes -/

/-- **Two sets of changes say the same of every field**, in any order. -/
structure ChangeSet.Same (c c' : ChangeSet) : Prop where
  trigger : c'.trigger = c.trigger
  origin : c'.origin = c.origin
  changes : c.changes.Perm c'.changes

namespace ChangeSet

variable {c c' : ChangeSet}

theorem Same.refl (c : ChangeSet) : c.Same c := ⟨rfl, rfl, .refl _⟩

theorem Same.tell (h : c.Same c') :
    Option.Rel Same (Session.tell c) (Session.tell c') := by
  have hchanged : c'.changed = c.changed := by
    rw [changed, changed, h.changes.isEmpty_eq]
  rw [Session.tell, Session.tell, hchanged]
  split
  · exact .some h
  · exact .none

variable {before before' after after' : State} {written written' : List String}
  {setters setters' : Table String String}

/-- **What differs between two states differs between their twins**, as long as the user and rules
wrote the same. -/
theorem same_between (hp : p.Reordered p') (hb : before.Twins p p' before')
    (ha : after.Twins p p' after') (hsb : p.Sourced before) (hsa : p.Sourced after)
    (hsb' : p'.Sourced before') (hsa' : p'.Sourced after') (trigger : Option String)
    (origin : Origin) (hwritten : written.Perm written')
    (hsetters : ∀ key, setters'.get? key = setters.get? key) :
    (between p before after trigger origin written setters).Same
      (between p' before' after' trigger origin written' setters') where
  trigger := rfl
  origin := rfl
  changes := by
    have hchange : changeOf? p' before' after' written' setters' =
        changeOf? p before after written setters := by
      funext key
      have haspects : aspectsOf p' before' after' key = aspectsOf p before after key := by
        rw [aspectsOf, aspectsOf, hb.errors_equiv hp ha hsb hsa hsb' hsa', (hb.alike key).value,
          (ha.alike key).value, (hb.alike key).visible, (ha.alike key).visible,
          (hb.alike key).requires, (ha.alike key).requires]
      have hcontains : written'.contains key = written.contains key := hwritten.symm.contains_eq
      rw [changeOf?, changeOf?, haspects, hcontains, hsetters]
    rw [between, between, hchange]
    exact hp.schema.fieldKeys.filterMap _

end ChangeSet

/-! ## Sessions -/

namespace Session

/-- **Two sessions hold the same of every field, up to errors of checks**, on reordered schemas. -/
structure Kindred (s s' : Session) : Prop where
  plans : s.plan.Reordered s'.plan
  alike : ∀ key, State.Alike (s.plan.schema.renumber s'.plan.schema) s.plan key s.state s'.state
  reachable : s.Reachable
  reachable' : s'.Reachable

/-- **Two sessions hold the same of every field.** -/
structure Twins (s s' : Session) : Prop extends Kindred s s' where
  checkErrors : ∀ key, s'.state.checkErrors.get? key = s.state.checkErrors.get? key

/-- **Two answers say the same.** Operations may be interrupted by different fields. -/
inductive SameAnswer :
    Except OperationError (Option ChangeSet) → Except OperationError (Option ChangeSet) → Prop
  | refused (f : Failure) : SameAnswer (.error (.refused f)) (.error (.refused f))
  | interrupted (cause cause' : Pattern.Interruption) :
    SameAnswer (.error (.interrupted cause)) (.error (.interrupted cause'))
  | done {c c' : Option ChangeSet} (h : Option.Rel ChangeSet.Same c c') :
    SameAnswer (.ok c) (.ok c')

theorem SameAnswer.of_interrupted {o o' : Outcome (Except OperationError (Option ChangeSet))}
    (h : o.Interrupted) (h' : o'.Interrupted) : SameAnswer o.answer o'.answer := by
  obtain ⟨cause, hcause⟩ := h
  obtain ⟨cause', hcause'⟩ := h'
  rw [hcause, hcause']
  exact .interrupted cause cause'

theorem SameAnswer.tell {a a' : Except OperationError (Option ChangeSet)} (h : SameAnswer a a') :
    Option.Rel ChangeSet.Same (a.toOption.bind fun c => c.bind Session.tell)
      (a'.toOption.bind fun c => c.bind Session.tell) := by
  cases h with
  | refused f => exact .none
  | interrupted cause cause' => exact .none
  | done h =>
    cases h with
    | none => exact .none
    | some h => exact h.tell

variable {s s' : Session}

namespace Kindred

section

variable (h : s.Kindred s')

include h

theorem wellFormed : s.plan.WellFormed := h.reachable.sound.planned.toWellFormed

theorem wellFormed' : s'.plan.WellFormed := h.reachable'.sound.planned.toWellFormed

theorem renumbers : s.plan.Renumbers (s.plan.schema.renumber s'.plan.schema) s'.plan :=
  h.plans.renumbers h.wellFormed

theorem passes {f : Field} (hf : writable s.plan.schema key "set_value" = .ok f) (v : Value)
    (k : String) : Pass.Alike (s.plan.schema.renumber s'.plan.schema) s.plan k
      (propagate s.plan { s.state with data := s.state.data.set key v } key)
      (propagate s'.plan { s'.state with data := s'.state.data.set key v } key) :=
  propagate_alike (fun _ => True) h.renumbers h.wellFormed h.wellFormed'
    (mem_fieldKeys_of_writable hf) (fun _ _ _ _ => trivial) (fun k _ => h.alike k) k trivial

theorem alike_set (key : String) (v : Value) (k : String) :
    State.Alike (s.plan.schema.renumber s'.plan.schema) s.plan k (s.set key v).session.state
      (s'.set key v).session.state := by
  obtain ⟨f, hf, hstate, hstate'⟩ | ⟨hstate, hstate'⟩ :=
    state_set_both (v := v) (h.renumbers.field? key) (h.alike key).value
  · rw [hstate, hstate']
    exact alike_recheck (h.passes hf v k).toAlike
  · rw [hstate, hstate']
    exact h.alike k

theorem states_reset : s.reset.session.state.Twins s.plan s'.plan s'.reset.session.state := by
  refine State.Twins.settleAll h.plans h.wellFormed h.wellFormed' ⟨fun k => ?_, fun _ => rfl⟩
  exact {
    value := by rw [State.value, State.value, h.plans.initial]
    flags := fun d => by
      cases d with
      | visibility => exact (h.alike k).flags .visibility
      | required => exact (h.alike k).flags .required
    formulaErrors := (h.alike k).formulaErrors
    ruleErrors := fun _ _ _ _ => rfl }

theorem alike_check (k : String) : State.Alike (s.plan.schema.renumber s'.plan.schema) s.plan k
    s.check.session.state s'.check.session.state := by
  have hchecked : ∀ t : Session, ∃ errors,
      t.check.session.state = { t.state with checkErrors := errors } := by
    intro t
    obtain ⟨-, ⟨_, -, hstate⟩ | ⟨errors, -, hstate⟩⟩ := check_cases t
    · exact ⟨t.state.checkErrors, hstate⟩
    · exact ⟨errors, hstate⟩
  obtain ⟨errors, hstate⟩ := hchecked s
  obtain ⟨errors', hstate'⟩ := hchecked s'
  rw [hstate, hstate']
  exact (h.alike k).withCheckErrors errors errors'

theorem alike_perform (o : Operation) (k : String) :
    State.Alike (s.plan.schema.renumber s'.plan.schema) s.plan k (s.perform o).session.state
      (s'.perform o).session.state := by
  cases o with
  | set key v => exact h.alike_set key v k
  | settle =>
    rw [Session.perform, Session.perform, state_settle, state_settle]
    exact alike_recheck (settleAll_alike h.renumbers h.wellFormed h.wellFormed' h.alike k).toAlike
  | reset => exact h.states_reset.alike k
  | check => exact h.alike_check k

/-- **An operation keeps sessions kindred**, also one that is interrupted. -/
theorem perform (o : Operation) : (s.perform o).session.Kindred (s'.perform o).session where
  plans := by
    rw [plan_perform, plan_perform]
    exact h.plans
  alike k := by
    rw [plan_perform, plan_perform]
    exact h.alike_perform o k
  reachable := h.reachable.perform o
  reachable' := h.reachable'.perform o

end

theorem after (h : s.Kindred s') (ops : List Operation) : (s.after ops).Kindred (s'.after ops) := by
  induction ops generalizing s s' with
  | nil => exact h
  | cons o ops ih => exact ih (h.perform o)

end Kindred

namespace Twins

section

variable (h : s.Twins s')

include h

theorem states : s.state.Twins s.plan s'.plan s'.state := ⟨h.alike, h.checkErrors⟩

/-! ### States -/

theorem states_propagate {f : Field} (hf : writable s.plan.schema key "set_value" = .ok f)
    (v : Value) :
    (propagate s.plan { s.state with data := s.state.data.set key v } key).state.Twins s.plan
      s'.plan (propagate s'.plan { s'.state with data := s'.state.data.set key v } key).state where
  alike k := (h.passes hf v k).toAlike
  checkErrors k := by
    rw [propagate, propagate, Pass.checkErrors_run, Pass.checkErrors_run]
    exact h.checkErrors k

theorem states_settleAll : (settleAll s.plan s.state).state.Twins s.plan s'.plan
    (settleAll s'.plan s'.state).state :=
  h.states.settleAll h.plans h.wellFormed h.wellFormed'

theorem interrupted_check : s'.check.Interrupted ↔ s.check.Interrupted := by
  rw [interrupted_check_iff_findings h.wellFormed, interrupted_check_iff_findings h.wellFormed']
  refine exists_congr fun k => ?_
  rw [(h.alike k).findings h.renumbers.field? h.plans.search]

theorem states_check (hcalm : ¬ s.check.Interrupted) :
    s.check.session.state.Twins s.plan s'.plan s'.check.session.state where
  alike := h.alike_check
  checkErrors k := by
    have hcalm' := h.interrupted_check.not.mpr hcalm
    rw [interrupted_check_iff] at hcalm hcalm'
    obtain ⟨-, ⟨cause, hbroken, -⟩ | ⟨errors, hfound, hstate⟩⟩ := check_cases s
    · exact absurd ⟨cause, hbroken⟩ hcalm
    obtain ⟨-, ⟨cause, hbroken, -⟩ | ⟨errors', hfound', hstate'⟩⟩ := check_cases s'
    · exact absurd ⟨cause, hbroken⟩ hcalm'
    have hget := findings_of_found h.wellFormed' hfound' k
    rw [(h.alike k).findings h.renumbers.field? h.plans.search,
      findings_of_found h.wellFormed hfound] at hget
    rw [hstate, hstate']
    exact (Except.ok.inj hget).symm

/-- **An operation is interrupted in both sessions or in none.** -/
theorem interrupted_perform (o : Operation) :
    (s'.perform o).Interrupted ↔ (s.perform o).Interrupted := by
  cases o with
  | set key v =>
    rw [interrupted_perform_set, interrupted_perform_set]
    have hwritable := writable_congr (h.renumbers.field? key) "set_value"
    have hvalue := (h.alike key).value
    obtain ⟨f, hf, hv⟩ | hnot := s.new_or_not key v
    · rw [interrupted_set_iff hf hv, interrupted_set_iff (hwritable.trans hf) (hvalue ▸ hv)]
      exact h.states.interruption_recheck h.plans h.wellFormed (h.states_propagate hf v)
    · exact iff_of_false (not_interrupted_set_of_not (by rw [hwritable, hvalue]; exact hnot))
        (not_interrupted_set_of_not hnot)
  | settle =>
    rw [interrupted_perform_settle, interrupted_perform_settle, interrupted_settle_iff,
      interrupted_settle_iff]
    exact h.states.interruption_recheck h.plans h.wellFormed h.states_settleAll
  | reset => exact iff_of_false not_interrupted_perform_reset not_interrupted_perform_reset
  | check =>
    rw [interrupted_perform_check, interrupted_perform_check]
    exact h.interrupted_check

theorem states_perform {o : Operation} (hcalm : ¬ (s.perform o).Interrupted) :
    (s.perform o).session.state.Twins s.plan s'.plan (s'.perform o).session.state := by
  cases o with
  | set key v =>
    rw [interrupted_perform_set] at hcalm
    rw [Session.perform, Session.perform]
    dsimp only
    have hwritable := writable_congr (h.renumbers.field? key) "set_value"
    have hvalue := (h.alike key).value
    obtain ⟨f, hf, hv⟩ | hnot := s.new_or_not key v
    · rw [interrupted_set_iff hf hv] at hcalm
      rw [state_set_of_ne hf hv, state_set_of_ne (hwritable.trans hf) (hvalue ▸ hv)]
      exact h.states.recheck h.plans h.wellFormed (h.states_propagate hf v) hcalm
    · rw [state_set_of_not hnot, state_set_of_not (by rw [hwritable, hvalue]; exact hnot)]
      exact h.states
  | settle =>
    rw [interrupted_perform_settle, interrupted_settle_iff] at hcalm
    rw [Session.perform, Session.perform, state_settle, state_settle]
    exact h.states.recheck h.plans h.wellFormed h.states_settleAll hcalm
  | reset => exact h.states_reset
  | check => exact h.states_check (interrupted_perform_check.not.mp hcalm)

/-- **An operation that is not interrupted keeps sessions twins.** -/
theorem perform {o : Operation} (hcalm : ¬ (s.perform o).Interrupted) :
    (s.perform o).session.Twins (s'.perform o).session where
  toKindred := h.toKindred.perform o
  checkErrors := (h.states_perform hcalm).checkErrors

/-! ### Answers -/

theorem same_between {o : Operation} (hcalm : ¬ (s.perform o).Interrupted)
    (trigger : Option String) (origin : Origin) {written written' : List String}
    (hwritten : written.Perm written') {setters setters' : Table String String}
    (hsetters : ∀ key, setters'.get? key = setters.get? key) :
    (ChangeSet.between s.plan s.state (s.perform o).session.state trigger origin written
      setters).Same
    (ChangeSet.between s'.plan s'.state (s'.perform o).session.state trigger origin written'
      setters') :=
  ChangeSet.same_between h.plans h.states (h.states_perform hcalm) h.reachable.sourced
    (plan_perform s o ▸ (h.reachable.perform o).sourced) h.reachable'.sourced
    (plan_perform s' o ▸ (h.reachable'.perform o).sourced) trigger origin hwritten hsetters

/-- Twins differ in the same where nothing was written but by the engine. -/
theorem same_between_engine {o : Operation} (hcalm : ¬ (s.perform o).Interrupted) :
    (ChangeSet.between s.plan s.state (s.perform o).session.state none .engine [] .empty).Same
      (ChangeSet.between s'.plan s'.state (s'.perform o).session.state none .engine [] .empty) :=
  h.same_between hcalm none .engine (.refl []) fun _ => rfl

theorem sameAnswer_set {key : String} {v : Value} (hcalm : ¬ (s.perform (.set key v)).Interrupted) :
    SameAnswer ((s.set key v).answer.map some) ((s'.set key v).answer.map some) := by
  have hwritable := writable_congr (h.renumbers.field? key) "set_value"
  have hvalue := (h.alike key).value
  cases hf : writable s.plan.schema key "set_value" with
  | error r =>
    rw [set, set, hwritable, hf]
    exact .refused r.2
  | ok f =>
    cases hv : (s.state.value key).same v with
    | true =>
      rw [set, set, hwritable, hf, hvalue, hv]
      exact .done (.some (.refl _))
    | false =>
      have hf' := hwritable.trans hf
      have hv' : (s'.state.value key).same v = false := hvalue ▸ hv
      have hcalm' := (h.interrupted_perform _).not.mpr hcalm
      have hsame := h.same_between hcalm (some key) .user (.refl [key])
        fun k => (h.passes hf v k).setters
      rw [Session.perform, Session.perform] at hsame
      dsimp only at hsame
      rw [state_set_of_ne hf hv, state_set_of_ne hf' hv'] at hsame
      rw [interrupted_perform_set] at hcalm hcalm'
      rw [answer_set_of_ne hf hv hcalm, answer_set_of_ne hf' hv' hcalm']
      exact .done (.some hsame)

theorem sameAnswer_settle (hcalm : ¬ (s.perform .settle).Interrupted) :
    SameAnswer (s.settle.answer.map some) (s'.settle.answer.map some) := by
  have hcalm' := (h.interrupted_perform _).not.mpr hcalm
  have hsame := h.same_between_engine hcalm
  rw [Session.perform, Session.perform] at hsame
  dsimp only at hsame
  rw [state_settle, state_settle] at hsame
  rw [interrupted_perform_settle] at hcalm hcalm'
  rw [answer_settle hcalm, answer_settle hcalm']
  exact .done (.some hsame)

/-- **Twins answer an operation with the same.** -/
theorem sameAnswer (o : Operation) : SameAnswer (s.perform o).answer (s'.perform o).answer := by
  by_cases hcalm : (s.perform o).Interrupted
  · exact .of_interrupted hcalm ((h.interrupted_perform o).mpr hcalm)
  · cases o with
    | set key v => exact h.sameAnswer_set hcalm
    | settle => exact h.sameAnswer_settle hcalm
    | reset =>
      have hwritten := (h.plans.schema.fields.filter fun f => !f.isComputed).map Field.key
      exact .done (.some (h.same_between hcalm none .user hwritten fun _ => rfl))
    | check =>
      have hchecked : ∀ t : Session, ¬ (t.perform .check).Interrupted →
          (t.perform .check).answer = .ok none := by
        intro t ht
        rw [interrupted_perform_check, interrupted_check_iff] at ht
        rw [Session.perform, check]
        cases hfound : t.found with
        | error cause => exact absurd ⟨cause, hfound⟩ ht
        | ok errors => rfl
      rw [hchecked s hcalm, hchecked s' ((h.interrupted_perform _).not.mpr hcalm)]
      exact .done .none

theorem sameTold (o : Operation) :
    Option.Rel ChangeSet.Same (s.perform o).told (s'.perform o).told := by
  by_cases ho : o = .check
  · subst ho
    have htold : ∀ t : Session, (t.perform .check).Interrupted →
        (t.perform .check).told = none := by
      intro t ht
      obtain ⟨cause, hbroken⟩ := interrupted_check_iff.mp (interrupted_perform_check.mp ht)
      rw [Session.perform, check, hbroken]
      rfl
    by_cases hcalm : (s.perform .check).Interrupted
    · rw [htold s hcalm, htold s' ((h.interrupted_perform _).mpr hcalm)]
      exact .none
    · have hsame := h.same_between_engine hcalm
      rw [interrupted_perform_check] at hcalm
      have hcalm' := h.interrupted_check.not.mpr hcalm
      rw [interrupted_check_iff] at hcalm hcalm'
      rw [Session.perform, Session.perform] at hsame ⊢
      rw [check, check] at hsame ⊢
      cases hfound : s.found with
      | error cause => exact absurd ⟨cause, hfound⟩ hcalm
      | ok errors =>
        cases hfound' : s'.found with
        | error cause => exact absurd ⟨cause, hfound'⟩ hcalm'
        | ok errors' =>
          rw [hfound, hfound'] at hsame
          dsimp only at hsame ⊢
          rw [h.plans.notifies]
          split
          · exact hsame.tell
          · exact .none
  · rw [told_perform s ho, told_perform s' ho]
    exact (h.sameAnswer o).tell

end

theorem after {ops : List Operation} (h : s.Twins s') (hcalm : s.Uninterrupted ops) :
    (s.after ops).Twins (s'.after ops) := by
  induction ops generalizing s s' with
  | nil => exact h
  | cons o ops ih => exact ih (h.perform hcalm.1) hcalm.2

theorem uninterrupted_iff (h : s.Twins s') (ops : List Operation) :
    s'.Uninterrupted ops ↔ s.Uninterrupted ops := by
  induction ops generalizing s s' with
  | nil => exact Iff.rfl
  | cons o ops ih =>
    rw [Uninterrupted, Uninterrupted, h.interrupted_perform]
    exact and_congr_right fun hcalm => ih (h.perform hcalm)

end Twins

/-! ### Fields -/

/-- **Two sessions show the same of every field**, up to errors of checks; the errors of rules may
come in another order. -/
structure SameFields (s s' : Session) : Prop where
  value : ∀ key, s'.state.value key = s.state.value key
  visible : ∀ key, s'.state.visible key = s.state.visible key
  requires : ∀ key, s'.state.requires key = s.state.requires key
  formulaErrors : ∀ key, s'.state.formulaErrors.get? key = s.state.formulaErrors.get? key
  ruleErrors : ∀ key, (s.state.errorsOfRules s.plan key).Perm (s'.state.errorsOfRules s'.plan key)

theorem Kindred.sameFields (h : s.Kindred s') : s.SameFields s' where
  value k := (h.alike k).value
  visible k := (h.alike k).visible
  requires k := (h.alike k).requires
  formulaErrors k := (h.alike k).formulaErrors
  ruleErrors k := State.Twins.errorsOfRules h.plans (h.alike k)

end Session

end LiveForm
