import LiveForm.Proofs.Session.Flag

/-!
# What a visit touches

Bringing a field up to date writes nothing of other fields: neither their values, their
visibility, their obligation and their errors, nor whether they have changed.

* `Pass.Touches`: two passes that differ at one field only, whose new value is marked;
* `Pass.touches_recompute`, `Pass.touches_visitFlag`, `Pass.touches_visitSetters`: the steps of a
  visit touch its field only;
* **`Pass.touches_visit`**: so does the visit;
* `Pass.visit_eq_self`: it changes nothing when nothing that feeds the field has changed.
-/

namespace LiveForm

namespace Pass

variable {p : Plan} {a b c : Pass} {full : Bool} {f : Field} {key : String}

/-- **Passes that differ at a field only**: at its value, its channels, its mark. -/
structure Touches (p : Plan) (key : String) (a b : Pass) : Prop where
  value : ∀ k, k ≠ key → b.state.value k = a.state.value k
  flags : ∀ d k, k ≠ key → (b.state.flags d).get? k = (a.state.flags d).get? k
  formulaErrors : ∀ k, k ≠ key → b.state.formulaErrors.get? k = a.state.formulaErrors.get? k
  ruleErrors : ∀ i r, p.schema.rules[i]? = some r → r.target ≠ key →
    b.state.ruleErrors.get? i = a.state.ruleErrors.get? i
  setters : ∀ k, k ≠ key → b.setters.get? k = a.setters.get? k
  dirty : ∀ k, k ≠ key → (k ∈ b.dirty ↔ k ∈ a.dirty)
  still_dirty : key ∈ a.dirty → key ∈ b.dirty
  marked : b.state.value key = a.state.value key ∨ key ∈ b.dirty

namespace Touches

theorem refl (p : Plan) (key : String) (a : Pass) : Touches p key a a where
  value _ _ := rfl
  flags _ _ _ := rfl
  formulaErrors _ _ := rfl
  ruleErrors _ _ _ _ := rfl
  setters _ _ := rfl
  dirty _ _ := Iff.rfl
  still_dirty := id
  marked := Or.inl rfl

theorem trans (h : Touches p key a b) (h' : Touches p key b c) : Touches p key a c where
  value k hk := (h'.value k hk).trans (h.value k hk)
  flags d k hk := (h'.flags d k hk).trans (h.flags d k hk)
  formulaErrors k hk := (h'.formulaErrors k hk).trans (h.formulaErrors k hk)
  ruleErrors i r hr hk := (h'.ruleErrors i r hr hk).trans (h.ruleErrors i r hr hk)
  setters k hk := (h'.setters k hk).trans (h.setters k hk)
  dirty k hk := (h'.dirty k hk).trans (h.dirty k hk)
  still_dirty hd := h'.still_dirty (h.still_dirty hd)
  marked := by
    rcases h'.marked with hv | hd
    · rcases h.marked with hv' | hd
      · exact Or.inl (hv.trans hv')
      · exact Or.inr (h'.still_dirty hd)
    · exact Or.inr hd

theorem dirty_of_mem (h : Touches p key a b) {k : String} (hk : k ∈ a.dirty) : k ∈ b.dirty := by
  by_cases he : k = key
  · subst he; exact h.still_dirty hk
  · exact (h.dirty k he).mpr hk

theorem value_of_not_dirty (h : Touches p key a b) {k : String} (hk : k ∉ b.dirty) :
    b.state.value k = a.state.value k := by
  by_cases he : k = key
  · subst he
    exact h.marked.resolve_right hk
  · exact h.value k he

end Touches

/-! ## Steps of a visit -/

theorem value_write (a : Pass) (key k : String) (v : Value) :
    (a.write key v).state.value k = if key = k then v else a.state.value k := by
  rw [State.value, write, Table.get?_set]
  by_cases hk : key = k
  · rw [if_pos hk, if_pos hk, Option.getD_some]
  · rw [if_neg hk, if_neg hk, State.value]

theorem touches_write (p : Plan) (a : Pass) (key : String) (v : Value) :
    Touches p key a (a.write key v) :=
  { Touches.refl p key a with
    value := fun k hk => by rw [value_write, if_neg (Ne.symm hk)]
    dirty := fun k hk => by simp [write, hk]
    still_dirty := List.mem_cons_of_mem key
    marked := Or.inr List.mem_cons_self }

theorem touches_note (p : Plan) (key : String) (a : Pass) (line : JournalLine) :
    Touches p key a (a.note line) :=
  { Touches.refl p key a with }

theorem touches_formulaJudged (p : Plan) (a : Pass) (key : String) (notices : List Notice) :
    Touches p key a (a.formulaJudged key notices) := by
  rw [formulaJudged_eq]
  exact { Touches.refl p key a with
    formulaErrors := fun k hk => by rw [Table.get?_update, if_neg (Ne.symm hk)] }

theorem touches_judgeErrors {group : List (ℕ × Rule)}
    (h : ∀ i r, (i, r) ∈ group → p.schema.rules[i]? = some r ∧ r.target = key) :
    Touches p key a (a.withRuleErrors (p.judgeErrors a.state group)) :=
  { Touches.refl p key a with
    ruleErrors := fun i r hr hk => Plan.get?_judgeErrors_of_not_mem fun r' hmem => by
      obtain ⟨hr', htarget⟩ := h i r' hmem
      rw [hr] at hr'
      exact hk (Option.some.inj hr' ▸ htarget) }

theorem touches_judged {i : ℕ} {r : Rule} (hr : p.schema.rules[i]? = some r)
    (hkey : r.target = key) (n : Option Notice) : Touches p key a (a.judged i n) := by
  rw [judged_eq]
  exact { Touches.refl p key a with
    ruleErrors := fun j r' hr' hk => by
      have hij : i ≠ j := by
        intro e
        subst e
        rw [hr] at hr'
        exact hk (Option.some.inj hr' ▸ hkey)
      exact (Table.get?_update _ _ _ _).trans (if_neg hij) }

/-! ## Formulas -/

theorem recompute_of_error {fo : Formula} {fault : Formula.Fault}
    (h : fo.evaluate p.formulas a.state.value = .error fault) :
    a.recompute p key fo = (a.formulaJudged key [faultNotice key fo fault]).note
      (.event (.computationFailed key fault.className)) := by
  rw [recompute, h]

theorem exists_recompute_of_ok (key : String) {fo : Formula} {result : Formula.Result}
    (h : fo.evaluate p.formulas a.state.value = .ok result) :
    ∃ lines, a.recompute p key fo =
      let b := { a.formulaJudged key (result.issues.map (issueNotice key fo)) with lines := lines }
      if (a.state.value key).same result.value then b else b.write key result.value := by
  rw [recompute, h]
  dsimp only
  split
  · exact ⟨_, rfl⟩
  · exact ⟨_, rfl⟩

theorem touches_recompute (p : Plan) (key : String) (fo : Formula) (a : Pass) :
    Touches p key a (a.recompute p key fo) := by
  cases h : fo.evaluate p.formulas a.state.value with
  | error fault =>
    rw [recompute_of_error h]
    exact (touches_formulaJudged p a key _).trans (touches_note p key _ _)
  | ok result =>
    obtain ⟨lines, hrun⟩ := exists_recompute_of_ok key h
    rw [hrun]
    have hjudged : Touches p key a
        { a.formulaJudged key (result.issues.map (issueNotice key fo)) with lines := lines } :=
      (touches_formulaJudged p a key _).trans { Touches.refl p key _ with }
    dsimp only
    split
    · exact hjudged
    · exact hjudged.trans (touches_write p _ key _)

theorem touches_visitFormula (p : Plan) (full : Bool) (f : Field) (a : Pass) :
    Touches p f.key a (a.visitFormula p full f) := by
  rw [visitFormula]
  split
  · split
    · exact touches_recompute p f.key _ a
    · exact Touches.refl p f.key a
  · exact Touches.refl p f.key a

/-! ## Flags -/

theorem touches_flagDecided (p : Plan) (f : Field) (d : Flag) (a : Pass) :
    Touches p f.key a (a.flagDecided p f d) := by
  obtain ⟨hvalue, hformula⟩ : (a.flagDecided p f d).state.value = a.state.value ∧
      (a.flagDecided p f d).state.formulaErrors = a.state.formulaErrors :=
    ⟨State.value_eq_of_data_eq State.data_withFlag, State.formulaErrors_withFlag⟩
  have hjudged : Touches p f.key a
      (a.withRuleErrors (p.judgeErrors a.state (p.rulesFor f.key d.effect))) :=
    touches_judgeErrors fun _ _ h => ⟨(Plan.mem_rulesFor.mp h).1, (Plan.mem_rulesFor.mp h).2.1⟩
  exact {
    value := fun k _ => congrFun hvalue k
    flags := fun d' k hk => by
      by_cases hd : d = d'
      · subst hd
        rw [get?_flags_flagDecided, if_neg (Ne.symm hk)]
      · rw [flagDecided]
        dsimp only
        rw [State.flags_withFlag_of_ne hd]
        exact hjudged.flags d' k hk
    formulaErrors := fun k _ => by rw [hformula]
    ruleErrors := fun i r hr hk => by
      rw [ruleErrors_flagDecided]
      exact hjudged.ruleErrors i r hr hk
    setters := fun _ _ => rfl
    dirty := fun _ _ => Iff.rfl
    still_dirty := id
    marked := Or.inl (congrFun hvalue f.key) }

theorem touches_visitFlag (p : Plan) (full : Bool) (f : Field) (d : Flag) (a : Pass) :
    Touches p f.key a (a.visitFlag p full f d) := by
  rw [visitFlag]
  split
  · exact touches_flagDecided p f d a
  · exact Touches.refl p f.key a

/-! ## Values set by rules -/

/-- The rule that would set the value of a field: the last satisfied one whose trigger has
changed. -/
def winner? (p : Plan) (a : Pass) (key : String) : Option (ℕ × Rule) :=
  ((a.live (p.rulesFor key .setValue)).filter fun e => p.satisfied a.state e.2).getLast?

theorem mem_live {group : List (ℕ × Rule)} {e : ℕ × Rule} :
    e ∈ a.live group ↔ e ∈ group ∧ e.2.trigger ∈ a.dirty := by
  rw [live, List.mem_filter, List.contains_iff_mem]

theorem mem_of_winner? {e : ℕ × Rule} (h : winner? p a key = some e) :
    e ∈ p.rulesFor key .setValue ∧ e.2.trigger ∈ a.dirty :=
  mem_live.mp (List.mem_filter.mp (List.mem_of_getLast? h)).1

/-- The pass with the rules that set the value of a field judged. -/
def settersJudged (p : Plan) (key : String) (a : Pass) : Pass :=
  a.withRuleErrors (p.judgeErrors a.state (a.live (p.rulesFor key .setValue)))

theorem visitSetters_of_none (h : winner? p a f.key = none) :
    a.visitSetters p f = a.settersJudged p f.key := by
  rw [winner?] at h
  rw [visitSetters, judgeSetters_eq, h, settersJudged]

theorem visitSetters_of_some {i : ℕ} {r : Rule} (h : winner? p a f.key = some (i, r)) :
    a.visitSetters p f = applySetter f (a.settersJudged p f.key) i r := by
  rw [winner?] at h
  rw [visitSetters, judgeSetters_eq, h, settersJudged]

theorem touches_settersJudged (p : Plan) (key : String) (a : Pass) :
    Touches p key a (a.settersJudged p key) :=
  touches_judgeErrors fun _ _ h => by
    obtain ⟨hr, hkey, -⟩ := Plan.mem_rulesFor.mp (mem_live.mp h).1
    exact ⟨hr, hkey⟩

theorem touches_applySetter {i : ℕ} {r : Rule} (hr : p.schema.rules[i]? = some r)
    (hkey : r.target = f.key) : Touches p f.key a (applySetter f a i r) := by
  rw [applySetter]
  split
  · exact (touches_judged hr hkey _).trans (touches_note p f.key _ _)
  · split
    · exact Touches.refl p f.key a
    · exact { touches_write p a f.key r.effectValue with
        setters := fun k hk => (Table.get?_set _ _ _ _).trans (if_neg (Ne.symm hk)) }

theorem touches_visitSetters (p : Plan) (f : Field) (a : Pass) :
    Touches p f.key a (a.visitSetters p f) := by
  cases h : winner? p a f.key with
  | none => rw [visitSetters_of_none h]; exact touches_settersJudged p f.key a
  | some e =>
    obtain ⟨hr, hkey, -⟩ := Plan.mem_rulesFor.mp (mem_of_winner? h).1
    rw [visitSetters_of_some h]
    exact (touches_settersJudged p f.key a).trans (touches_applySetter hr hkey)

/-! ## Visits -/

/-- A field before the rules that set its value are looked at. -/
def visitDerived (p : Plan) (full : Bool) (f : Field) (a : Pass) : Pass :=
  ((a.visitFormula p full f).visitFlag p full f .visibility).visitFlag p full f .required

theorem visitField_eq (p : Plan) (full : Bool) (f : Field) (a : Pass) :
    a.visitField p full f =
      if full then a.visitDerived p full f else (a.visitDerived p full f).visitSetters p f := by
  rw [visitField, visitVisibility_eq, visitRequired_eq, visitDerived]

theorem visit_of_field? (hf : p.schema.field? key = some f) :
    visit p full a key =
      if full then a.visitDerived p full f else (a.visitDerived p full f).visitSetters p f := by
  rw [visit, hf]
  exact visitField_eq p full f a

theorem touches_visitDerived (p : Plan) (full : Bool) (f : Field) (a : Pass) :
    Touches p f.key a (a.visitDerived p full f) :=
  ((touches_visitFormula p full f a).trans (touches_visitFlag p full f .visibility _)).trans
    (touches_visitFlag p full f .required _)

theorem touches_visitField (p : Plan) (full : Bool) (f : Field) (a : Pass) :
    Touches p f.key a (a.visitField p full f) := by
  rw [visitField_eq]
  split
  · exact touches_visitDerived p full f a
  · exact (touches_visitDerived p full f a).trans (touches_visitSetters p f _)

/-- **A visit touches its field only.** -/
theorem touches_visit (p : Plan) (full : Bool) (a : Pass) (key : String) :
    Touches p key a (visit p full a key) := by
  rw [visit]
  split
  · next f hf =>
    obtain ⟨-, rfl⟩ := Schema.mem_of_field? hf
    exact touches_visitField p full f a
  · exact Touches.refl p key a

/-! ## Visits without effect -/

theorem visitFormula_of_fresh {fo : Formula} (hf : f.formula = some fo)
    (h : a.anyDirty fo.sources = false) : a.visitFormula p false f = a := by
  rw [visitFormula, hf]
  dsimp only
  rw [h]
  rfl

/-- **Nothing changes at a field that nothing changed feeds.** -/
theorem visit_eq_self (h : ∀ k, p.schema.Feeds k key → k ∉ a.dirty) :
    visit p false a key = a := by
  rw [visit]
  split
  · next f hf =>
    obtain ⟨hmem, rfl⟩ := Schema.mem_of_field? hf
    have htrigger : ∀ effect, ∀ e ∈ p.rulesFor f.key effect, e.2.trigger ∉ a.dirty :=
      fun _ e he => h _ (Plan.feeds_of_mem_rulesFor he)
    have hfresh : ∀ effect, a.stale false (p.rulesFor f.key effect) = false :=
      fun effect => stale_eq_false.mpr (Or.inr ⟨rfl, htrigger effect⟩)
    have hformula : a.visitFormula p false f = a := by
      cases hfo : f.formula with
      | none => rw [visitFormula, hfo]
      | some fo =>
        refine visitFormula_of_fresh hfo (anyDirty_eq_false.mpr fun k hk => h k ?_)
        exact Schema.feeds_of_formula hmem hfo hk
    have hlive : a.live (p.rulesFor f.key .setValue) = [] :=
      List.eq_nil_iff_forall_not_mem.mpr fun e he =>
        htrigger _ e (mem_live.mp he).1 (mem_live.mp he).2
    have hwinner : winner? p a f.key = none := by rw [winner?, hlive]; rfl
    have hderived : a.visitDerived p false f = a := by
      rw [visitDerived, hformula, visitFlag_of_fresh (hfresh _), visitFlag_of_fresh (hfresh _)]
    rw [visitField_eq, if_neg Bool.false_ne_true, hderived, visitSetters_of_none hwinner,
      settersJudged, hlive]
    rfl
  · rfl

end Pass

end LiveForm
