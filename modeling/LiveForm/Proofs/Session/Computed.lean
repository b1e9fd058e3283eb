import LiveForm.Proofs.Session.Start

/-!
# Computed fields

The value of a computed field comes from its formula alone. While the formula fails, the field
keeps the value that it had.

* `Plan.Stored`: a field has an old value, or else the result of its formula;
* `Pass.stored_run`: a run over all fields leaves a computed field so;
* `Session.Computes`: what a session promises of a computed field;
* **`Session.Reachable.computes`**: every reachable session keeps the promise.
-/

namespace LiveForm

variable {p : Plan} {s : State} {f : Field} {fo : Formula} {key : String} {old v : Value}
  {full : Bool}

/-- The field has an old value, or else the result of its formula. -/
def Plan.Stored (p : Plan) (s : State) (key : String) (fo : Formula) (old : Value) : Prop :=
  s.value key = old ∨
    ∃ result, fo.evaluate p.formulas s.value = .ok result ∧ s.value key = result.value

theorem Plan.Stored.of_error (h : p.Stored s key fo old) {fault : Formula.Fault}
    (hfault : fo.evaluate p.formulas s.value = .error fault) : s.value key = old := by
  rcases h with hold | ⟨result, hresult, -⟩
  · exact hold
  · rw [hfault] at hresult
    cases hresult

theorem Plan.Stored.congr {s' : State} (h : p.Stored s key fo old)
    (hsources : ∀ k ∈ fo.sources, s'.value k = s.value k) (hvalue : s'.value key = s.value key) :
    p.Stored s' key fo old := by
  rw [Stored, hvalue, Formula.evaluate_congr hsources]
  exact h

/-! ## Passes -/

namespace Pass

variable {a : Pass}

theorem stored_visitFormula (hfo : f.formula = some fo) (hself : f.key ∉ fo.sources)
    (h : a.state.value f.key = old) : p.Stored (a.visitFormula p full f).state f.key fo old := by
  rw [visitFormula, hfo]
  dsimp only
  split
  · have hsources : ∀ k ∈ fo.sources, (a.recompute p f.key fo).state.value k = a.state.value k :=
      fun k hk => (touches_recompute p f.key fo a).value k fun he => hself (he ▸ hk)
    rw [Plan.Stored, Formula.evaluate_congr hsources]
    cases heval : fo.evaluate p.formulas a.state.value with
    | error fault =>
      rw [recompute_of_error heval, formulaJudged_eq]
      exact Or.inl h
    | ok result =>
      obtain ⟨lines, hrun⟩ := exists_recompute_of_ok f.key heval
      rw [hrun, formulaJudged_eq]
      dsimp only
      split
      · exact Or.inl h
      · exact Or.inr ⟨result, rfl, (value_write _ _ _ _).trans (if_pos rfl)⟩
  · exact Or.inl h

theorem stored_visit (hp : p.WellFormed) (hf : f ∈ p.schema.fields) (hfo : f.formula = some fo)
    (h : a.state.value f.key = old) :
    p.Stored (visit p full a f.key).state f.key fo old := by
  obtain ⟨hderived, -, -⟩ := visitDerived_frame p full f a
  have hvisit : (visit p full a f.key).state.value = (a.visitFormula p full f).state.value := by
    rw [visit_of_field? (hp.field?_key hf)]
    split
    · exact hderived
    · obtain ⟨hdata, -, -⟩ := visitSetters_of_computed p (a.visitDerived p full f)
        (Field.isComputed_of_formula hfo)
      rw [State.value_eq_of_data_eq hdata, hderived]
  exact (stored_visitFormula hfo (hp.not_mem_sources hf hfo) h).congr (fun k _ => congrFun hvisit k)
    (congrFun hvisit f.key)

/-- **A run stores in a computed field the result of its formula, or nothing.** The result is the
one on the values at the end: what the formula reads is written before. -/
theorem stored_run (hp : p.WellFormed) (hf : f ∈ p.schema.fields) (hfo : f.formula = some fo)
    (h : a.state.value f.key = old) : p.Stored (run p full a p.order).state f.key fo old := by
  refine run_through (p := p) (P := fun a => a.state.value f.key = old)
    (Q := fun a => p.Stored a.state f.key fo old) hp.pairwise_order (hp.field_mem_order hf)
    ?_ (fun a => stored_visit hp hf hfo) ?_ h
  · intro k hk a h
    exact ((touches_visit p full a k).value f.key (Ne.symm hk)).trans h
  · intro k hk hfeeds a h
    have ht := touches_visit p full a k
    refine h.congr (fun d hd => ht.value d fun he => hfeeds ?_) (ht.value f.key (Ne.symm hk))
    exact Schema.feeds_of_formula hf hfo (he ▸ hd)

end Pass

/-! ## Sessions -/

namespace Session

variable {s : Session}

/-- **What a session promises of a computed field.** -/
structure Computes (s : Session) (f : Field) (fo : Formula) : Prop where
  /-- The value is the result of the formula, or the same. -/
  value : ∀ result, fo.evaluate s.plan.formulas s.state.value = .ok result →
    s.state.value f.key = result.value ∨ (s.state.value f.key).same result.value = true
  /-- The errors are the issues of the formula; there are none without issues. -/
  issues : ∀ result, fo.evaluate s.plan.formulas s.state.value = .ok result →
    s.state.formulaErrors.get? f.key = if result.issues.isEmpty then none
      else some (result.issues.map (Pass.issueNotice f.key fo))
  /-- The only error of a formula that fails is its fault. -/
  fault : ∀ fault, fo.evaluate s.plan.formulas s.state.value = .error fault →
    s.state.formulaErrors.get? f.key = some [Pass.faultNotice f.key fo fault]
  /-- A write after which the formula fails leaves the value alone. -/
  kept_by_set : ∀ key v fault,
    fo.evaluate s.plan.formulas (s.set key v).session.state.value = .error fault →
      (s.set key v).session.state.value f.key = s.state.value f.key
  /-- So does settling. -/
  kept_by_settle : ∀ fault,
    fo.evaluate s.plan.formulas s.settle.session.state.value = .error fault →
      s.settle.session.state.value f.key = s.state.value f.key
  /-- After a reset a field whose formula fails has its default. -/
  default_of_reset : ∀ fault,
    fo.evaluate s.plan.formulas s.reset.session.state.value = .error fault →
      s.reset.session.state.value f.key = initialValue f
  /-- So it has when the session was just opened. -/
  default_of_opened : s.Opened → ∀ fault,
    fo.evaluate s.plan.formulas s.state.value = .error fault →
      s.state.value f.key = initialValue f
  /-- No value given at the start stands in for the default. -/
  initial : s.plan.initial.get? f.key = some (initialValue f)
  /-- The user cannot write the field. -/
  refused : ∀ v, (s.set f.key v).answer = .error (.refused (.readOnlyField f.key)) ∧
    (s.set f.key v).session.state = s.state
  /-- Writes of other fields store nothing in it but results of the formula. -/
  stored_by_set : ∀ key v, s.plan.Stored (s.set key v).session.state f.key fo
    (s.state.value f.key)
  /-- Rules that set values store nothing in it, and none counts as having done so. -/
  unset : ∀ a : Pass, (a.visitSetters s.plan f).state.data = a.state.data ∧
    (a.visitSetters s.plan f).setters = a.setters

theorem Sound.stored_by_set (h : s.Sound) (hf : f ∈ s.plan.schema.fields)
    (hfo : f.formula = some fo) (key : String) (v : Value) :
    s.plan.Stored (s.set key v).session.state f.key fo (s.state.value f.key) := by
  have hp := h.planned.toWellFormed
  obtain ⟨-, hstate | ⟨g, hg, -, hstate⟩⟩ := set_cases s key v
  · rw [hstate]
    exact Or.inl rfl
  · have hne : key ≠ f.key := by
      intro he
      have hcomputed := not_computed_of_writable hp hg hf he.symm
      rw [Field.isComputed_of_formula hfo] at hcomputed
      exact Bool.noConfusion hcomputed
    have hstart : ({ s.state with data := s.state.data.set key v } : State).value f.key =
        s.state.value f.key := by
      rw [State.value, Table.get?_set, if_neg hne, State.value]
    rw [hstate, Plan.Stored, value_written,
      propagate_eq_run hp (mem_fieldKeys_of_writable hg)]
    exact Pass.stored_run hp hf hfo hstart

theorem Sound.stored_by_settle (h : s.Sound) (hf : f ∈ s.plan.schema.fields)
    (hfo : f.formula = some fo) :
    s.plan.Stored s.settle.session.state f.key fo (s.state.value f.key) := by
  rw [Plan.Stored, value_settle]
  exact Pass.stored_run h.planned.toWellFormed hf hfo rfl

theorem Planned.default_of_error (hp : Planned p) (hf : f ∈ p.schema.fields)
    (hfo : f.formula = some fo) {before : State} (hdata : before.data = p.initial)
    {fault : Formula.Fault}
    (hfault : fo.evaluate p.formulas (settleAll p before).state.value = .error fault) :
    (settleAll p before).state.value f.key = initialValue f := by
  have hcomputed := Field.isComputed_of_formula hfo
  have hstart : before.value f.key = initialValue f := by
    rw [State.value, hdata, hp.initial f hf hcomputed, Option.getD_some]
  exact (Pass.stored_run hp.toWellFormed hf hfo hstart).of_error hfault

/-- **Every reachable session keeps its promise of computed fields.** -/
theorem Reachable.computes (h : s.Reachable) (hf : f ∈ s.plan.schema.fields)
    (hfo : f.formula = some fo) : s.Computes f fo := by
  have hsound := h.sound
  have hp := hsound.planned
  have hformula := (hsound.settled f hf).formula fo hfo
  have hcomputed := Field.isComputed_of_formula hfo
  have hwritable : writable s.plan.schema f.key "set_value" =
      .error (.writeRejected f.key "set_value", .readOnlyField f.key) := by
    rw [writable, hp.toWellFormed.field?_key hf]
    dsimp only
    rw [if_pos hcomputed]
  exact {
    value := hformula.value
    issues := fun result hresult => by rw [hformula.errors, hresult, formulaNotices]
    fault := fun fault hfault => by rw [hformula.errors, hfault, formulaNotices]
    kept_by_set := fun key v fault => (hsound.stored_by_set hf hfo key v).of_error
    kept_by_settle := fun fault => (hsound.stored_by_settle hf hfo).of_error
    default_of_reset := fun fault => hp.default_of_error hf hfo rfl
    default_of_opened := fun hopened fault hfault => by
      obtain ⟨_, _, _, _, _, hstart⟩ := hopened
      obtain ⟨-, hstate⟩ := start_eq_ok hstart
      rw [hstate] at hfault ⊢
      exact hp.default_of_error hf hfo rfl hfault
    initial := hp.initial f hf hcomputed
    refused := fun v => by
      rw [Session.set, hwritable]
      exact ⟨rfl, rfl⟩
    stored_by_set := hsound.stored_by_set hf hfo
    unset := fun a => by
      obtain ⟨hdata, -, hsetters⟩ := Pass.visitSetters_of_computed s.plan a hcomputed
      exact ⟨hdata, hsetters⟩ }

/-- The total of an order that was just opened. -/
theorem order_computes :
    ∃ s : Session, (s.Reachable ∧ orderForm.fields[1] ∈ s.plan.schema.fields ∧
      orderForm.fields[1].formula = some ⟨.sum, ["price", "fee"], none, none⟩) ∧
      s.Computes orderForm.fields[1] ⟨.sum, ["price", "fee"], none, none⟩ := by
  obtain ⟨s, hs, hplan, -⟩ := exists_order
  have hmem : orderForm.fields[1] ∈ s.plan.schema.fields := by
    rw [hplan]
    exact List.getElem_mem _
  exact ⟨s, ⟨.opened hs, hmem, rfl⟩, Reachable.computes (.opened hs) hmem rfl⟩

end Session

end LiveForm
