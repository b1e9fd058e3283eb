import LiveForm.Proofs.Session.Settled

/-!
# The visit of a field

A visit brings up to date what is stale of its field, so a pass settles every field.

* `Pass.formulaSettled_visitFormula`, `Pass.flagSettled_visitFlag`: what each step brings up to
  date;
* `Pass.visitFormula_frame`, `Pass.visitSetters_frame`: what each step leaves alone;
* `Pass.settled_visit`: the whole visit;
* **`Pass.settled_run`**: a run over all fields settles every field that was pending.
-/

namespace LiveForm

namespace Pass

open Plan

variable {p : Plan} {a b : Pass} {full : Bool} {f : Field} {key : String} {fo : Formula}
  {effect : Effect} {d : Flag}

/-! ## Formulas -/

theorem recompute_frame (p : Plan) (key : String) (fo : Formula) (a : Pass) :
    (∀ d, (a.recompute p key fo).state.flags d = a.state.flags d) ∧
      (a.recompute p key fo).state.ruleErrors = a.state.ruleErrors := by
  cases h : fo.evaluate p.formulas a.state.value with
  | error fault =>
    rw [recompute_of_error h, formulaJudged_eq]
    exact ⟨fun d => by cases d <;> rfl, rfl⟩
  | ok result =>
    obtain ⟨lines, hrun⟩ := exists_recompute_of_ok key h
    rw [hrun, formulaJudged_eq]
    dsimp only
    split <;> exact ⟨fun d => by cases d <;> rfl, rfl⟩

theorem visitFormula_frame (p : Plan) (full : Bool) (f : Field) (a : Pass) :
    (∀ d, (a.visitFormula p full f).state.flags d = a.state.flags d) ∧
      (a.visitFormula p full f).state.ruleErrors = a.state.ruleErrors := by
  rw [visitFormula]
  split
  · split
    · exact recompute_frame p f.key _ a
    · exact ⟨fun _ => rfl, rfl⟩
  · exact ⟨fun _ => rfl, rfl⟩

theorem formulaErrors_recompute (p : Plan) (key : String) (fo : Formula) (a : Pass) :
    (a.recompute p key fo).state.formulaErrors.get? key =
      formulaNotices key fo (fo.evaluate p.formulas a.state.value) := by
  cases h : fo.evaluate p.formulas a.state.value with
  | error fault =>
    rw [recompute_of_error h, formulaJudged_eq]
    exact (Table.get?_update _ _ _ _).trans (if_pos rfl)
  | ok result =>
    obtain ⟨lines, hrun⟩ := exists_recompute_of_ok key h
    have hnotices : ∀ errors : Table String (List Notice),
        (errors.update key (if (result.issues.map (issueNotice key fo)).isEmpty then none
          else some (result.issues.map (issueNotice key fo)))).get? key =
            formulaNotices key fo (.ok result) := by
      intro errors
      rw [Table.get?_update, if_pos rfl, List.isEmpty_map, formulaNotices]
    rw [hrun, formulaJudged_eq]
    dsimp only
    split <;> exact hnotices _

/-- A formula that is computed is up to date: it does not read its own field. -/
theorem formulaSettled_recompute (hself : key ∉ fo.sources) :
    p.FormulaSettled (a.recompute p key fo).state key fo := by
  have hsame : fo.evaluate p.formulas (a.recompute p key fo).state.value =
      fo.evaluate p.formulas a.state.value :=
    Formula.evaluate_congr fun k hk =>
      (touches_recompute p key fo a).value k fun he => hself (he ▸ hk)
  refine ⟨?_, by rw [hsame, formulaErrors_recompute]⟩
  intro result hresult
  rw [hsame] at hresult
  obtain ⟨lines, hrun⟩ := exists_recompute_of_ok key hresult
  rw [hrun, formulaJudged_eq]
  dsimp only
  split
  · next h => exact Or.inr h
  · exact Or.inl ((value_write _ _ _ _).trans (if_pos rfl))

theorem formulaSettled_visitFormula (hfo : f.formula = some fo) (hself : f.key ∉ fo.sources)
    (h : FormulaPending p full a f.key fo) :
    p.FormulaSettled (a.visitFormula p full f).state f.key fo := by
  rw [visitFormula, hfo]
  dsimp only
  split
  · exact formulaSettled_recompute hself
  · next hfresh => exact h (Bool.eq_false_iff.mpr hfresh)

/-! ## Flags -/

theorem get?_judgeErrors_of_ne {group : List (ℕ × Rule)} {effect' : Effect} {key' : String}
    (hgroup : ∀ e ∈ group, e ∈ p.rulesFor key' effect') (hne : effect ≠ effect') {e : ℕ × Rule}
    (he : e ∈ p.rulesFor key effect) {s : State} :
    (p.judgeErrors s group).get? e.1 = s.ruleErrors.get? e.1 := by
  refine get?_judgeErrors_of_not_mem fun r hr => hne ?_
  obtain ⟨hrule, -, heffect⟩ := mem_rulesFor.mp he
  obtain ⟨hrule', -, heffect'⟩ := mem_rulesFor.mp (hgroup _ hr)
  rw [← heffect, ← heffect', Option.some.inj (hrule.symm.trans hrule')]

theorem ruleErrors_visitFlag (hne : effect ≠ d.effect) {e : ℕ × Rule}
    (he : e ∈ p.rulesFor key effect) :
    (a.visitFlag p full f d).state.ruleErrors.get? e.1 = a.state.ruleErrors.get? e.1 := by
  rw [visitFlag]
  split
  · rw [ruleErrors_flagDecided]
    exact get?_judgeErrors_of_ne (fun _ => id) hne he
  · rfl

theorem flagSettled_flagDecided (p : Plan) (f : Field) (d : Flag) (a : Pass) :
    p.FlagSettled (a.flagDecided p f d).state f d := by
  have hvalue : (a.flagDecided p f d).state.value = a.state.value :=
    State.value_eq_of_data_eq State.data_withFlag
  constructor
  · rw [get?_flags_flagDecided, if_pos rfl, decision_congr fun e _ => congrFun hvalue _]
  · intro e he
    rw [ruleErrors_flagDecided, hvalue]
    exact get?_judgeErrors_of_mem he fun _ h => eq_of_mem_rulesFor he h

theorem flagSettled_visitFlag (h : FlagPending p full a f d) :
    p.FlagSettled (a.visitFlag p full f d).state f d := by
  rw [visitFlag]
  split
  · exact flagSettled_flagDecided p f d a
  · next hfresh => exact h (Bool.eq_false_iff.mpr hfresh)

/-! ## Values set by rules -/

theorem applySetter_frame (f : Field) (a : Pass) (i : ℕ) (r : Rule) :
    (∀ d, (applySetter f a i r).state.flags d = a.state.flags d) ∧
      (applySetter f a i r).state.formulaErrors = a.state.formulaErrors := by
  rw [applySetter]
  split
  · rw [judged_eq]
    exact ⟨fun d => by cases d <;> rfl, rfl⟩
  · split <;> exact ⟨fun d => by cases d <;> rfl, rfl⟩

theorem visitSetters_frame (p : Plan) (f : Field) (a : Pass) :
    (∀ d, (a.visitSetters p f).state.flags d = a.state.flags d) ∧
      (a.visitSetters p f).state.formulaErrors = a.state.formulaErrors := by
  have hjudged : ∀ d, (a.settersJudged p f.key).state.flags d = a.state.flags d :=
    fun d => by cases d <;> rfl
  cases h : winner? p a f.key with
  | none => rw [visitSetters_of_none h]; exact ⟨hjudged, rfl⟩
  | some e =>
    obtain ⟨hflags, herrors⟩ := applySetter_frame f (a.settersJudged p f.key) e.1 e.2
    rw [visitSetters_of_some h]
    exact ⟨fun d => (hflags d).trans (hjudged d), herrors⟩

/-- **Rules set no value of a computed field**, nor do they mark it. -/
theorem visitSetters_of_computed (p : Plan) (a : Pass) (hf : f.isComputed = true) :
    (a.visitSetters p f).state.data = a.state.data ∧
      (a.visitSetters p f).dirty = a.dirty ∧ (a.visitSetters p f).setters = a.setters := by
  cases h : winner? p a f.key with
  | none => rw [visitSetters_of_none h]; exact ⟨rfl, rfl, rfl⟩
  | some e =>
    rw [visitSetters_of_some h, applySetter, if_pos hf, judged_eq]
    exact ⟨rfl, rfl, rfl⟩

theorem ruleErrors_applySetter {i j : ℕ} {r : Rule} (hij : i ≠ j) :
    (applySetter f a i r).state.ruleErrors.get? j = a.state.ruleErrors.get? j := by
  rw [applySetter]
  split
  · rw [judged_eq]
    exact (Table.get?_update _ _ _ _).trans (if_neg hij)
  · split <;> rfl

theorem ruleErrors_visitSetters (hne : effect ≠ .setValue) {e : ℕ × Rule}
    (he : e ∈ p.rulesFor key effect) :
    (a.visitSetters p f).state.ruleErrors.get? e.1 = a.state.ruleErrors.get? e.1 := by
  have hjudged : (a.settersJudged p f.key).state.ruleErrors.get? e.1 =
      a.state.ruleErrors.get? e.1 :=
    get?_judgeErrors_of_ne (fun e he => (mem_live.mp he).1) hne he
  cases h : winner? p a f.key with
  | none => rw [visitSetters_of_none h, hjudged]
  | some e' =>
    obtain ⟨hr, -, heffect⟩ := mem_rulesFor.mp (mem_of_winner? h).1
    obtain ⟨hr', -, heffect'⟩ := mem_rulesFor.mp he
    have hij : e'.1 ≠ e.1 := by
      intro heq
      rw [heq, hr'] at hr
      rw [Option.some.inj hr, heffect] at heffect'
      exact hne heffect'.symm
    rw [visitSetters_of_some h]
    exact (ruleErrors_applySetter hij).trans hjudged

/-! ## The whole visit -/

theorem visitDerived_frame (p : Plan) (full : Bool) (f : Field) (a : Pass) :
    (a.visitDerived p full f).state.value = (a.visitFormula p full f).state.value ∧
      (a.visitDerived p full f).dirty = (a.visitFormula p full f).dirty ∧
      (a.visitDerived p full f).setters = (a.visitFormula p full f).setters := by
  obtain ⟨hvalue, -, hdirty, hsetters⟩ := visitFlag_frame p full f .visibility
    (a.visitFormula p full f)
  obtain ⟨hvalue', -, hdirty', hsetters'⟩ := visitFlag_frame p full f .required
    ((a.visitFormula p full f).visitFlag p full f .visibility)
  exact ⟨hvalue'.trans hvalue, hdirty'.trans hdirty, hsetters'.trans hsetters⟩

theorem formulaErrors_visitDerived (p : Plan) (full : Bool) (f : Field) (a : Pass) :
    (a.visitDerived p full f).state.formulaErrors =
      (a.visitFormula p full f).state.formulaErrors := by
  obtain ⟨-, hshown, -, -⟩ := visitFlag_frame p full f .visibility (a.visitFormula p full f)
  obtain ⟨-, hneeded, -, -⟩ := visitFlag_frame p full f .required
    ((a.visitFormula p full f).visitFlag p full f .visibility)
  exact hneeded.trans hshown

theorem formulaErrors_visit (hf : p.schema.field? key = some f) :
    (visit p full a key).state.formulaErrors = (a.visitFormula p full f).state.formulaErrors := by
  rw [visit_of_field? hf]
  split
  · exact formulaErrors_visitDerived p full f a
  · rw [(visitSetters_frame p f _).2, formulaErrors_visitDerived]

theorem settled_visitDerived (hp : p.WellFormed) (hf : f ∈ p.schema.fields)
    (h : Pending p full a f) : p.FieldSettled (a.visitDerived p full f).state f := by
  rw [visitDerived]
  set b := a.visitFormula p full f with hb
  set c := b.visitFlag p full f .visibility with hc
  have hab : Touches p f.key a b := touches_visitFormula p full f a
  have hbc : Touches p f.key b c := touches_visitFlag p full f .visibility b
  obtain ⟨hbflags, hberrors⟩ := visitFormula_frame p full f a
  obtain ⟨hcvalue, hcformula, -, -⟩ := visitFlag_frame p full f .visibility b
  obtain ⟨hdvalue, hdformula, -, -⟩ := visitFlag_frame p full f .required c
  have hpending : ∀ d, FlagPending p full b f d := fun d =>
    (h.flags d).touched hab (by rw [hb, hbflags]) fun e _ => by rw [hb, hberrors]
  constructor
  · intro fo hfo
    have hsettled := formulaSettled_visitFormula hfo (hp.not_mem_sources hf hfo) (h.formula fo hfo)
    have hvalue := hdvalue.trans hcvalue
    exact hsettled.congr (fun k _ => congrFun hvalue k) (congrFun hvalue f.key)
      (by rw [hdformula, hcformula])
  · intro d
    cases d with
    | visibility =>
      exact (flagSettled_visitFlag (hpending .visibility)).congr
        (fun e _ => congrFun hdvalue _) (by rw [flags_visitFlag_of_ne (by decide)])
        fun e he => ruleErrors_visitFlag (by decide) he
    | required =>
      have hkept : FlagPending p full c f .required := (hpending .required).touched hbc
        (by rw [hc, flags_visitFlag_of_ne (by decide)])
        fun e he => ruleErrors_visitFlag (by decide) he
      exact flagSettled_visitFlag hkept

theorem settled_visitSetters (hp : p.WellFormed) (hf : f ∈ p.schema.fields)
    (h : p.FieldSettled a.state f) : p.FieldSettled (a.visitSetters p f).state f := by
  have ht := touches_visitSetters p f a
  obtain ⟨hflags, herrors⟩ := visitSetters_frame p f a
  have hvalue : ∀ d, p.schema.Feeds d f.key →
      (a.visitSetters p f).state.value d = a.state.value d :=
    fun d hd => ht.value d fun he => hp.not_feeds_self f.key (he ▸ hd)
  constructor
  · intro fo hfo
    obtain ⟨hdata, -, -⟩ := visitSetters_of_computed p a (Field.isComputed_of_formula hfo)
    refine (h.formula fo hfo).congr (fun d hd => hvalue d ?_)
      (congrFun (State.value_eq_of_data_eq hdata) _) (by rw [herrors])
    exact Schema.feeds_of_formula hf hfo hd
  · intro d
    exact (h.flags d).congr (fun e he => hvalue _ (feeds_of_mem_rulesFor he))
      (by rw [hflags]) fun e he => ruleErrors_visitSetters d.effect_ne_setValue he

/-- **The visit of a field settles it.** -/
theorem settled_visit (hp : p.WellFormed) (hf : f ∈ p.schema.fields) (h : Pending p full a f) :
    p.FieldSettled (visit p full a f.key).state f := by
  rw [visit_of_field? (hp.field?_key hf)]
  have hderived := settled_visitDerived hp hf h
  split
  · exact hderived
  · exact settled_visitSetters hp hf hderived

/-- **A run over all fields settles every field that was pending.** -/
theorem settled_run (hp : p.WellFormed) (hf : f ∈ p.schema.fields) (h : Pending p full a f) :
    p.FieldSettled (run p full a p.order).state f := by
  refine run_through (p := p) (P := fun a => Pending p full a f)
    (Q := fun a => p.FieldSettled a.state f) hp.pairwise_order (hp.field_mem_order hf)
    (fun k hk a h => h.touched (touches_visit p full a k) hk) (fun a => settled_visit hp hf)
    (fun k hk hfeeds a h => settled_of_touches hf h (touches_visit p full a k) hk hfeeds) h

end Pass

end LiveForm
