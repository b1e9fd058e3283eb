import LiveForm.Proofs.Session.Recheck
import LiveForm.Proofs.Session.Setter
import LiveForm.Proofs.Session.Start

/-!
# Errors of checks are never stale

Only fields with errors of a check are looked at again after a write, and of these only the
stirred ones. No error gets stale by that: where nothing that a check reads has changed, the check
would find the same. But a check that is broken off leaves the errors at its field as they were, so
one of them is stale then, until the next reset or the next check of all fields.

* `Plan.Current`: the errors of checks in a state are what a check would find now;
* `Session.current_recheck`, `Session.exists_stale`: looking again after a pass keeps them so,
  unless it is broken off;
* `Session.Undisturbed`: the sessions where nothing was broken off since all errors were replaced;
* `Session.ChecksCurrent`: what a session promises of errors of checks;
* **`Session.checksCurrent`**: every session keeps the promise;
* `Session.not_current_of_interrupted`: not all of them have current errors.
-/

namespace LiveForm

variable {p : Plan} {before after : State} {key : String} {s : Session} {v : Value} {f : Field}

/-- **The errors of checks are what a check would find now.** -/
def Plan.Current (p : Plan) (s : State) : Prop :=
  ∀ key errors, s.checkErrors.get? key = some errors → s.findings p key = .ok (some errors)

theorem State.findings_eq_of_not_stirred
    (hvalue : ∀ f ∈ p.schema.fields, (before.value f.key).Rewrites (after.value f.key))
    (h : before.stirred after key = false) : after.findings p key = before.findings p key := by
  rw [stirred, Bool.not_eq_false', Bool.and_eq_true, Bool.and_eq_true, decide_eq_true_eq,
    decide_eq_true_eq] at h
  obtain ⟨⟨hsame, hvisible⟩, hrequires⟩ := h
  rw [findings, findings, checkKey, checkKey]
  cases hf : p.schema.field? key with
  | none => rfl
  | some f =>
    obtain ⟨hmem, rfl⟩ := Schema.mem_of_field? hf
    dsimp only
    rw [checkField, checkField, ← hvisible, ← hrequires, (hvalue f hmem).eq hsame]

namespace Session

theorem findings_recheck (p : Plan) (before after : State) (key : String) :
    (recheck p before after).state.findings p key = after.findings p key := by
  obtain ⟨errors, he⟩ := recheck_eq p before after
  rw [he]
  rfl

/-- **Looking again keeps errors current**, after a pass that leaves them alone and that gives each
field its old value or one that is not the same. -/
theorem current_recheck (hr : p.revalidateOnChange = true) (h : p.Current before)
    (hkept : after.checkErrors = before.checkErrors)
    (hvalue : ∀ f ∈ p.schema.fields, (before.value f.key).Rewrites (after.value f.key))
    (hcalm : (recheck p before after).interruption = none) :
    p.Current (recheck p before after).state := by
  intro key errors herrors
  have hchecks := rechecks_recheck hr before after
  rw [findings_recheck]
  cases hs : before.stirred after key with
  | true =>
    have hsome := isSome_of_recheck (Option.isSome_iff_exists.mpr ⟨errors, herrors⟩)
    rw [← herrors]
    exact hchecks.found hcalm key ((Table.mem_keys _).mpr hsome) hs
  | false =>
    rw [hchecks.kept key fun _ => hs, hkept] at herrors
    rw [State.findings_eq_of_not_stirred hvalue hs]
    exact h key errors herrors

/-- **When looking again is broken off, errors stay at a key whose check is broken off.** -/
theorem exists_stale (hr : p.revalidateOnChange = true) {cause : Pattern.Interruption}
    (h : (recheck p before after).interruption = some cause) :
    ∃ key errors, (recheck p before after).state.checkErrors.get? key = some errors ∧
      (recheck p before after).state.findings p key = .error cause := by
  have hchecks := rechecks_recheck hr before after
  obtain ⟨key, hmem, -, hbroken⟩ := hchecks.broken cause h
  obtain ⟨errors, herrors⟩ := Option.isSome_iff_exists.mp ((Table.mem_keys _).mp hmem)
  refine ⟨key, errors, ?_, (findings_recheck p before after key).trans hbroken⟩
  rcases hchecks.kept_or_found key with hkept | hfound
  · exact hkept.trans herrors
  · rw [hbroken] at hfound
    cases hfound

/-! ## Operations -/

/-- A pass after a write gives each field its old value or one that is not the same; the written
one has the written value. -/
theorem rewrites_propagate (hp : p.WellFormed) (hmem : key ∈ p.schema.fieldKeys)
    (hv : (before.value key).same v = false) {f : Field} (hf : f ∈ p.schema.fields) :
    (before.value f.key).Rewrites
      ((propagate p { before with data := before.data.set key v } key).state.value f.key) := by
  by_cases hkey : f.key = key
  · rw [hkey, (written_propagate hp hmem).1]
    exact Or.inr hv
  · rw [propagate_eq_run hp hmem]
    refine Pass.rewrites_run hp hf ?_
    rw [State.value, Table.get?_set, if_neg (Ne.symm hkey), State.value]

theorem current_set (hs : s.Sound) (hr : s.plan.revalidateOnChange = true)
    (h : s.plan.Current s.state) (key : String) (v : Value)
    (hcalm : ¬ (s.set key v).Interrupted) : s.plan.Current (s.set key v).session.state := by
  obtain ⟨-, hstate | ⟨f, hf, hv, hstate⟩⟩ := set_cases s key v
  · rw [hstate]
    exact h
  · rw [interrupted_set_iff hf hv, ← Option.isSome_iff_exists, Option.not_isSome_iff_eq_none]
      at hcalm
    rw [hstate]
    exact current_recheck hr h (Pass.checkErrors_run _ _ _ _) (fun g hg =>
      rewrites_propagate hs.planned.toWellFormed (mem_fieldKeys_of_writable hf) hv hg) hcalm

theorem current_settle (hs : s.Sound) (hr : s.plan.revalidateOnChange = true)
    (h : s.plan.Current s.state) (hcalm : ¬ s.settle.Interrupted) :
    s.plan.Current s.settle.session.state := by
  rw [interrupted_settle_iff, ← Option.isSome_iff_exists, Option.not_isSome_iff_eq_none] at hcalm
  rw [state_settle]
  exact current_recheck hr h (Pass.checkErrors_run _ _ _ _) (fun _ hf =>
    Pass.rewrites_run hs.planned.toWellFormed hf rfl) hcalm

theorem checkErrors_reset (s : Session) : s.reset.session.state.checkErrors = .empty :=
  Pass.checkErrors_run _ _ _ _

theorem current_check (hs : s.Sound) (hcalm : ¬ s.check.Interrupted) :
    s.plan.Current s.check.session.state := by
  rw [interrupted_check_iff] at hcalm
  obtain ⟨-, ⟨cause, hfound, -⟩ | ⟨found, hfound, hstate⟩⟩ := check_cases s
  · exact absurd ⟨cause, hfound⟩ hcalm
  · rw [hstate]
    intro key errors herrors
    exact (findings_of_found hs.planned.toWellFormed hfound key).trans (congrArg _ herrors)

theorem checkErrors_opened (h : s.Opened) : s.state.checkErrors = .empty := by
  obtain ⟨_, _, _, _, _, hstart⟩ := h
  obtain ⟨-, hstate⟩ := start_eq_ok hstart
  rw [hstate]
  exact Pass.checkErrors_run _ _ _ _

theorem current_of_empty {t : State} (h : t.checkErrors = .empty) : p.Current t := by
  intro key errors herrors
  rw [h, Table.get?_empty] at herrors
  cases herrors

/-- **The sessions where no write and no settling was interrupted** since the session was opened, or
since all errors of checks were last replaced. -/
inductive Undisturbed : Session → Prop
  | opened {s : Session} (h : Opened s) : Undisturbed s
  | set {s : Session} (h : Undisturbed s) (key : String) (value : Value)
    (hcalm : ¬ (s.set key value).Interrupted) : Undisturbed (s.set key value).session
  | settle {s : Session} (h : Undisturbed s) (hcalm : ¬ s.settle.Interrupted) :
    Undisturbed s.settle.session
  | reset {s : Session} (h : Reachable s) : Undisturbed s.reset.session
  | check {s : Session} (h : Reachable s) (hcalm : ¬ s.check.Interrupted) :
    Undisturbed s.check.session
  | notChecked {s : Session} (h : Undisturbed s) : Undisturbed s.check.session

theorem Undisturbed.reachable (h : s.Undisturbed) : s.Reachable := by
  induction h with
  | opened h => exact .opened h
  | set _ key v _ ih => exact ih.set key v
  | settle _ _ ih => exact ih.settle
  | reset h => exact h.reset
  | check h => exact h.check
  | notChecked _ ih => exact ih.check

/-- **The errors in an undisturbed session are current.** -/
theorem Undisturbed.current (h : s.Undisturbed) (hr : s.plan.revalidateOnChange = true) :
    s.plan.Current s.state := by
  induction h with
  | opened h => exact current_of_empty (checkErrors_opened h)
  | @set s h key v hcalm ih =>
    rw [plan_set] at hr ⊢
    exact current_set h.reachable.sound hr (ih hr) key v hcalm
  | @settle s h hcalm ih =>
    rw [plan_settle] at hr ⊢
    exact current_settle h.reachable.sound hr (ih hr) hcalm
  | @reset s h => exact current_of_empty (checkErrors_reset s)
  | @check s h hcalm =>
    rw [plan_check]
    exact current_check h.sound hcalm
  | @notChecked s h ih =>
    rw [plan_check] at hr ⊢
    by_cases hcalm : s.check.Interrupted
    · obtain ⟨-, ⟨_, -, hstate⟩ | ⟨found, hfound, -⟩⟩ := check_cases s
      · rw [hstate]
        exact ih hr
      · obtain ⟨cause, hcause⟩ := interrupted_check_iff.mp hcalm
        rw [hfound] at hcause
        cases hcause
    · exact current_check h.reachable.sound hcalm

end Session

/-- **An error of a check is stale**: it is at a field whose check is broken off now. -/
def Plan.Stale (p : Plan) (s : State) : Prop :=
  ∃ f ∈ p.schema.fields, ∃ errors cause, s.checkErrors.get? f.key = some errors ∧
    f.check p.search (s.value f.key) (s.requires f.key) = .error cause

namespace Session

/-- **What a session promises of the errors of checks.** -/
structure ChecksCurrent (s : Session) : Prop where
  /-- Where fields are looked at again, the errors at a key are those of a field that is shown and
  not computed, and they are what its check finds now, as long as nothing was interrupted. -/
  current : s.plan.revalidateOnChange = true → s.Undisturbed → ∀ key errors,
    s.state.checkErrors.get? key = some errors →
      ∃ f ∈ s.plan.schema.fields, f.key = key ∧ f.isComputed = false ∧
        s.state.visible key = true ∧ errors ≠ [] ∧
        f.check s.plan.search (s.state.value key) (s.state.requires key) = .ok errors
  /-- A write that is interrupted leaves errors at a field whose check is broken off. -/
  stale_by_set : s.plan.revalidateOnChange = true → ∀ key v, (s.set key v).Interrupted →
    s.plan.Stale (s.set key v).session.state
  /-- So does settling. -/
  stale_by_settle : s.plan.revalidateOnChange = true → s.settle.Interrupted →
    s.plan.Stale s.settle.session.state
  /-- A write adds errors at no key. -/
  none_by_set : ∀ key v k, ((s.set key v).session.state.checkErrors.get? k).isSome = true →
    (s.state.checkErrors.get? k).isSome = true
  /-- Nor does settling. -/
  none_by_settle : ∀ k, (s.settle.session.state.checkErrors.get? k).isSome = true →
    (s.state.checkErrors.get? k).isSome = true
  /-- A reset removes all errors. -/
  cleared_by_reset : s.reset.session.state.checkErrors = .empty
  /-- Where fields are not looked at again, a write leaves the errors as they are. -/
  kept_by_set : s.plan.revalidateOnChange = false → ∀ key v,
    (s.set key v).session.state.checkErrors = s.state.checkErrors
  /-- So does settling. -/
  kept_by_settle : s.plan.revalidateOnChange = false →
    s.settle.session.state.checkErrors = s.state.checkErrors

theorem checkField_of_ne_nil {t : State} {r : Except Pattern.Interruption (List Notice)}
    (h : t.checkField p f = r) (hne : r ≠ .ok []) : f.isComputed = false ∧
      t.visible f.key = true ∧ f.check p.search (t.value f.key) (t.requires f.key) = r := by
  rw [State.checkField] at h
  split at h
  · exact absurd h.symm hne
  · next hc =>
    rw [Bool.not_eq_true, Bool.or_eq_false_iff, Bool.not_eq_false'] at hc
    exact ⟨hc.1, hc.2, h⟩

theorem stale_of_recheck (hr : p.revalidateOnChange = true) {cause : Pattern.Interruption}
    (h : (recheck p before after).interruption = some cause) :
    p.Stale (recheck p before after).state := by
  obtain ⟨key, errors, herrors, hbroken⟩ := exists_stale hr h
  obtain ⟨f, hf, hcheck⟩ := State.findings_eq_error hbroken
  obtain ⟨hmem, rfl⟩ := Schema.mem_of_field? hf
  obtain ⟨-, -, hcheck⟩ := checkField_of_ne_nil hcheck nofun
  exact ⟨f, hmem, errors, cause, herrors, hcheck⟩

theorem stale_of_interrupted_set (hr : s.plan.revalidateOnChange = true)
    (h : (s.set key v).Interrupted) : s.plan.Stale (s.set key v).session.state := by
  obtain ⟨f, hf, hv⟩ | hnot := s.new_or_not key v
  · obtain ⟨cause, hcause⟩ := (interrupted_set_iff hf hv).mp h
    rw [state_set_of_ne hf hv]
    exact stale_of_recheck hr hcause
  · exact absurd h (not_interrupted_set_of_not hnot)

/-- **Every session keeps its promise of the errors of checks.** -/
theorem checksCurrent (s : Session) : s.ChecksCurrent where
  current hr hcalm key errors herrors := by
    obtain ⟨f, hf, hcheck, hne⟩ := State.findings_eq_some (hcalm.current hr key errors herrors)
    obtain ⟨hmem, rfl⟩ := Schema.mem_of_field? hf
    obtain ⟨hcomputed, hvisible, hcheck⟩ :=
      checkField_of_ne_nil hcheck fun hnil => hne (Except.ok.inj hnil)
    exact ⟨f, hmem, rfl, hcomputed, hvisible, hne, hcheck⟩
  stale_by_set hr key v := stale_of_interrupted_set hr
  stale_by_settle hr hinterrupted := by
    obtain ⟨cause, hcause⟩ := interrupted_settle_iff.mp hinterrupted
    rw [state_settle]
    exact stale_of_recheck hr hcause
  none_by_set key v k hk := by
    obtain ⟨-, hstate | ⟨f, hf, hv, hstate⟩⟩ := set_cases s key v
    · rwa [hstate] at hk
    · rw [hstate] at hk
      have hpass := isSome_of_recheck hk
      rwa [propagate, Pass.checkErrors_run] at hpass
  none_by_settle k hk := by
    rw [state_settle] at hk
    have hpass := isSome_of_recheck hk
    rwa [settleAll, Pass.checkErrors_run] at hpass
  cleared_by_reset := checkErrors_reset s
  kept_by_set hr key v := by
    obtain ⟨-, hstate | ⟨f, hf, hv, hstate⟩⟩ := set_cases s key v
    · rw [hstate]
    · rw [hstate, written, afterWrite, recheck_of_not hr, propagate, Pass.checkErrors_run]
  kept_by_settle hr := by
    rw [state_settle, afterSettle, recheck_of_not hr, settleAll, Pass.checkErrors_run]

/-- An order whose note has become obligatory and was found missing. -/
theorem order_checksCurrent : ∃ (s : Session) (errors : List Notice), s.Undisturbed ∧
    s.plan.revalidateOnChange = true ∧ s.state.checkErrors.get? "note" = some errors ∧
    ∃ f ∈ s.plan.schema.fields, f.key = "note" ∧ f.isComputed = false ∧
      s.state.visible "note" = true ∧ errors ≠ [] ∧
      f.check s.plan.search (s.state.value "note") (s.state.requires "note") = .ok errors := by
  obtain ⟨s, hs, hplan, hstate⟩ := exists_order
  have hp : orderPlan.WellFormed := hplan ▸ hs.sound.planned.toWellFormed
  have hwritten : (s.set "price" (.int 10)).session.state = (recheck orderPlan orderState
      (propagate orderPlan { orderState with data := orderState.data.set "price" (.int 10) }
        "price").state).state := by
    rw [← hplan, ← hstate]
    refine state_set_of_ne (f := orderForm.fields[0]) (by rw [hplan]; rfl) ?_
    rw [hstate]
    decide +kernel
  have hkeys : (s.set "price" (.int 10)).session.found.map Table.keys = .ok ["note"] := by
    rw [found, plan_set, hplan, hwritten, propagate_eq_run hp (by decide)]
    decide +kernel
  obtain ⟨found, hfound, hnote⟩ := map_eq_ok.mp hkeys
  have hreachable := (Reachable.opened hs).set "price" (.int 10)
  have hcalm : ¬ (s.set "price" (.int 10)).session.check.Interrupted := by
    rw [interrupted_check_iff, hfound]
    exact nofun
  have hundisturbed := Undisturbed.check hreachable hcalm
  have hrevalidate : (s.set "price" (.int 10)).session.check.session.plan.revalidateOnChange =
      true := by
    rw [plan_check, plan_set, hplan]
    decide +kernel
  have hsome : ((s.set "price" (.int 10)).session.check.session.state.checkErrors.get?
      "note").isSome = true := by
    obtain ⟨-, ⟨cause, hbroken, -⟩ | ⟨found', hfound', hchecked⟩⟩ :=
      check_cases (s.set "price" (.int 10)).session
    · exact absurd (interrupted_check_iff.mpr ⟨cause, hbroken⟩) hcalm
    · rw [hchecked, ← Except.ok.inj (hfound.symm.trans hfound')]
      exact (Table.mem_keys found).mp (hnote ▸ List.mem_singleton_self _)
  obtain ⟨errors, herrors⟩ := Option.isSome_iff_exists.mp hsome
  exact ⟨_, errors, hundisturbed, hrevalidate, herrors,
    (checksCurrent _).current hrevalidate hundisturbed "note" errors herrors⟩

/-! ### A pattern that is too long -/

/-- A form with a code, which has to have a value, of as many digits as no pattern may ask for. -/
def codeForm : Schema where
  id := "form"
  version := 1
  title := "Form"
  description := ""
  fields := [
    { key := "code", type := .text, label := "code", default := .null,
      constraints := { required := true, pattern := some "^[0-9]\x7b4294967295\x7d$" },
      choices := [], visible := true, formula := none }]
  rules := []
  layout := []

/-- The plan of a session on the form as it is declared. -/
def codePlan : Plan :=
  planOf Pattern.search codeForm Config.defaults (.ofSchema codeForm) ["code"]
    (declaredData codeForm)

/-- The state of a session on the form that was just opened and checked. -/
def codeState : State :=
  { (settleAll codePlan (declaredState codeForm (declaredData codeForm))).state with
    checkErrors := .ofKeys ["code"] fun key => [.fieldRequired key none] }

theorem exists_code : ∃ s : Session, s.Reachable ∧ s.plan = codePlan ∧ s.state = codeState := by
  have horder : (Graph.ofSchema codeForm).order = .ok ["code"] :=
    Graph.order_eq_ok_of_advance (by decide +kernel)
  obtain ⟨s, hs, hplan⟩ := exists_opened (by decide +kernel) horder (by decide +kernel)
    (by decide +kernel) Pattern.search
  have hstate := hs.state_eq
  rw [hplan] at hstate
  have hfound : s.found = .ok codeState.checkErrors := by
    rw [found, hplan, hstate]
    rfl
  obtain ⟨hchecked, ⟨cause, hbroken, -⟩ | ⟨found, hfound', hcheck⟩⟩ := check_cases s
  · rw [hfound] at hbroken
    cases hbroken
  · refine ⟨_, (Reachable.opened hs).check, hchecked.trans hplan, ?_⟩
    rw [hcheck, ← Except.ok.inj (hfound.symm.trans hfound'), hstate]
    rfl

/-- **An error stays where the check of a written value is broken off.** -/
theorem not_current_of_interrupted : ∃ (s : Session) (errors : List Notice), s.Reachable ∧
    s.plan = codePlan ∧ s.plan.revalidateOnChange = true ∧ s.state.value "code" = .text "x" ∧
    s.state.checkErrors.get? "code" = some errors ∧ ∀ f ∈ s.plan.schema.fields,
      f.check s.plan.search (s.state.value "code") (s.state.requires "code") ≠ .ok errors := by
  obtain ⟨s, hs, hplan, hstate⟩ := exists_code
  have hp := hs.sound.planned.toWellFormed
  have hv : (s.state.value "code").same (.text "x") = false := by
    rw [hstate]
    decide +kernel
  have hwritable : writable s.plan.schema "code" "set_value" = .ok codeForm.fields[0] := by
    rw [hplan]
    rfl
  have hmem := mem_fieldKeys_of_writable hwritable
  have hinterrupted : (s.set "code" (.text "x")).Interrupted := by
    refine (interrupted_set_iff hwritable hv).mpr ⟨⟨"OverflowError"⟩, ?_⟩
    rw [afterWrite, propagate_eq_run hp hmem, hplan, hstate]
    decide +kernel
  have hrevalidate : s.plan.revalidateOnChange = true := by
    rw [hplan]
    decide +kernel
  obtain ⟨f, hf, errors, cause, herrors, hbroken⟩ :=
    stale_of_interrupted_set hrevalidate hinterrupted
  rw [hplan] at hf
  obtain rfl := List.mem_singleton.mp hf
  refine ⟨_, errors, hs.set "code" (.text "x"), (plan_set _ _ _).trans hplan,
    (plan_set _ _ _).symm ▸ hrevalidate, ?_, herrors, ?_⟩
  · rw [state_set_of_ne hwritable hv, value_written]
    exact (written_propagate hp hmem).1
  · rw [plan_set, hplan]
    refine List.forall_mem_singleton.mpr fun hfound => ?_
    rw [hplan] at hbroken
    rw [hfound] at hbroken
    cases hbroken

end Session

end LiveForm
