import LiveForm.Proofs.Value.Reflexive
import LiveForm.Proofs.Session.Round
import LiveForm.Proofs.Session.Start

/-!
# Settling what is settled

Operations leave every field settled, so asking a session to settle changes nothing. Only a NaN is
written again, since it differs from itself.

* `Pass.state_visit_of_settled`: a visit in a full pass leaves a settled field as it is;
* `ChangeSet.between_self`: a state does not differ from itself;
* **`Session.Reachable.settle_idle`**: settling a reachable session changes nothing, and nobody is
  told.
-/

namespace LiveForm

variable {p : Plan} {s : State} {f : Field} {key : String} {effect : Effect} {a : Pass}

/-! ## Visits of settled fields -/

theorem Plan.judgeErrors_of_settled {group : List (ℕ × Rule)}
    (h : ∀ e ∈ group, s.ruleErrors.get? e.1 = e.2.notice? p.types s.value) :
    p.judgeErrors s group = s.ruleErrors := by
  rw [judgeErrors]
  generalize s.ruleErrors = t at h ⊢
  induction group with
  | nil => rfl
  | cons e group ih =>
    rw [List.foldl_cons, Table.update_of_get? (h e List.mem_cons_self)]
    exact ih fun e he => h e (List.mem_cons_of_mem _ he)

namespace Pass

theorem formulaJudged_of_get? {notices : List Notice}
    (h : a.state.formulaErrors.get? key = if notices.isEmpty then none else some notices) :
    a.formulaJudged key notices = a := by
  rw [formulaJudged_eq, Table.update_of_get? h]

theorem state_recompute_of_settled {fo : Formula} (h : p.FormulaSettled a.state key fo)
    (hn : (a.state.value key).isNaN = false) :
    (a.recompute p key fo).state = a.state := by
  cases heval : fo.evaluate p.formulas a.state.value with
  | error fault =>
    have herrors := h.errors
    rw [heval] at herrors
    rw [recompute_of_error heval, formulaJudged_of_get? herrors]
    rfl
  | ok result =>
    have herrors := h.errors
    rw [heval, formulaNotices, ← List.isEmpty_map (f := issueNotice key fo)] at herrors
    obtain ⟨lines, hrun⟩ := exists_recompute_of_ok key heval
    have hsame : (a.state.value key).same result.value = true := by
      rcases h.value result heval with hv | hv
      · rw [← hv]
        exact Value.same_refl hn
      · exact hv
    rw [hrun, formulaJudged_of_get? herrors]
    dsimp only
    rw [if_pos hsame]

theorem state_visitFormula_of_settled (h : p.FieldSettled a.state f)
    (hn : (a.state.value f.key).isNaN = false) :
    (a.visitFormula p true f).state = a.state := by
  rw [visitFormula]
  split
  · next fo hfo => exact state_recompute_of_settled (h.formula fo hfo) hn
  · rfl

theorem state_visitFlag_of_settled {full : Bool} {d : Flag} (h : p.FieldSettled a.state f) :
    (a.visitFlag p full f d).state = a.state := by
  rw [visitFlag]
  split
  · rw [flagDecided, Plan.judgeErrors_of_settled (h.flags d).errors]
    exact State.withFlag_of_get? (h.flags d).decided
  · rfl

/-- **A full pass leaves a settled field as it is.** -/
theorem state_visit_of_settled (hf : p.schema.field? key = some f)
    (h : p.FieldSettled a.state f) (hn : a.state.NaNFree) :
    (visit p true a key).state = a.state := by
  have hformula := state_visitFormula_of_settled h (hn f.key)
  have hshown : ((a.visitFormula p true f).visitFlag p true f .visibility).state = a.state := by
    rw [state_visitFlag_of_settled (by rw [hformula]; exact h), hformula]
  rw [visit_of_field? hf, if_pos rfl, visitDerived,
    state_visitFlag_of_settled (by rw [hshown]; exact h), hshown]

end Pass

/-- **A pass over settled fields changes nothing.** -/
theorem state_settleAll_of_settled (h : ∀ f ∈ p.schema.fields, p.FieldSettled s f)
    (hn : s.NaNFree) : (settleAll p s).state = s := by
  refine Pass.run_keeps (P := fun a => a.state = s) ?_ rfl
  intro key _ a ha
  cases hf : p.schema.field? key with
  | none => rw [Pass.visit, hf]; exact ha
  | some f =>
    obtain ⟨hmem, -⟩ := Schema.mem_of_field? hf
    subst ha
    exact Pass.state_visit_of_settled hf (h f hmem) hn

/-! ## No difference -/

theorem State.stirred_self (hn : s.NaNFree) (key : String) : s.stirred s key = false := by
  rw [stirred, Value.same_refl (hn key), decide_eq_true rfl, decide_eq_true rfl]
  rfl

theorem Session.recheck_self (p : Plan) (hn : s.NaNFree) : recheck p s s = { state := s } := by
  rw [recheck]
  split
  · generalize s.checkErrors.keys = keys
    induction keys with
    | nil => rfl
    | cons key keys ih =>
      rw [recheckAll, if_neg (Bool.eq_false_iff.mp (State.stirred_self hn key))]
      exact ih
  · rfl

theorem ChangeSet.changeOf?_of_kept {before after : State}
    (hvalue : after.value key = before.value key)
    (hvisible : after.visible key = before.visible key)
    (hrequires : after.requires key = before.requires key)
    (herrors : after.errors p key = before.errors p key)
    (hn : (before.value key).isNaN = false) (written : List String)
    (setters : Table String String) : changeOf? p before after written setters key = none := by
  have haspects : aspectsOf p before after key = [] := by
    rw [aspectsOf, hvalue, hvisible, hrequires, herrors, Value.same_refl hn,
      listEquiv_refl Notice.equiv_refl, if_pos rfl, if_pos rfl, if_pos rfl, if_pos rfl]
    rfl
  rw [changeOf?, haspects]
  rfl

theorem ChangeSet.changeOf?_self (p : Plan) (hn : s.NaNFree) (written : List String)
    (setters : Table String String) (key : String) :
    changeOf? p s s written setters key = none :=
  changeOf?_of_kept rfl rfl rfl rfl (hn key) written setters

theorem ChangeSet.between_self (p : Plan) (hn : s.NaNFree) (trigger : Option String)
    (origin : Origin) (written : List String) (setters : Table String String) :
    between p s s trigger origin written setters = { trigger, origin } := by
  have hchanges : p.schema.fieldKeys.filterMap (changeOf? p s s written setters) = [] :=
    List.filterMap_eq_nil_iff.mpr fun key _ => changeOf?_self p hn written setters key
  rw [between, hchanges]

/-! ## Settling -/

/-- **Settling a reachable session changes nothing**: its state stays exactly as it is, the answer
is empty, and no listener of an audience is told. -/
theorem Session.Reachable.settle_idle {s : Session} (h : s.Reachable) (hn : s.state.NaNFree) :
    s.settle.session.state = s.state ∧
      s.settle.answer = .ok { trigger := none, origin := .engine } ∧
      s.settle.told = none ∧
      ∀ a : Audience, a.session = s → (a.request .settle).exchanges = [] := by
  have hpass : (settleAll s.plan s.state).state = s.state :=
    state_settleAll_of_settled h.sound.settled hn
  have hafter : s.afterSettle = { state := s.state } := by
    rw [afterSettle, hpass, recheck_self s.plan hn]
  have hchanges : s.settleChanges = { trigger := none, origin := .engine } := by
    rw [settleChanges, hafter, ChangeSet.between_self s.plan hn]
  obtain ⟨lines, hsettle⟩ := settle_of_calm (s := s) (by rw [hafter])
  have htold : s.settle.told = none := by
    rw [hsettle, hchanges]
    rfl
  refine ⟨by rw [hsettle, hafter], by rw [hsettle, hchanges], htold, fun a ha =>
    congrArg Audience.Effect.exchanges (Audience.request_of_untold ?_)⟩
  subst ha
  exact htold

/-- An order that was just opened is settled. -/
theorem order_settle_idle :
    ∃ s : Session, (s.Reachable ∧ s.state.NaNFree) ∧
      s.settle.session.state = s.state ∧
      s.settle.answer = .ok { trigger := none, origin := .engine } ∧
      s.settle.told = none ∧
      ∀ a : Audience, a.session = s → (a.request .settle).exchanges = [] := by
  obtain ⟨s, hs, -, hstate⟩ := exists_order
  have hn : s.state.NaNFree := hstate ▸ nanFree_orderState
  exact ⟨s, ⟨.opened hs, hn⟩, Session.Reachable.settle_idle (.opened hs) hn⟩

end LiveForm
