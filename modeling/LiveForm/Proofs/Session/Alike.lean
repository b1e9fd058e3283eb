import LiveForm.Proofs.Session.Visit

/-!
# Passes that go alike

What a visit makes of a field follows from what the field is and from what feeds it. Two passes
that agree on both before the visit agree on the field after it, also when the rules of the two are
numbered in different ways.

* `Plan.Renumbers`: two plans with the same fields and rules, the rules under other numbers;
* `State.Alike`, `Pass.Alike`: two states, or passes, agree on all that they hold of a field;
* `Pass.SameInputs`: two passes agree on what feeds a field;
* **`Pass.Alike.visit`**: visits of a field go alike on the same inputs.
-/

namespace LiveForm

variable {σ : ℕ → ℕ} {p p' : Plan} {s s' : State} {key : String} {i : ℕ} {r : Rule}

/-! ## Plans -/

/-- **Two plans with the same fields and rules**, which may be declared in another order. The rules
of a target with one effect keep their order. -/
structure Plan.Renumbers (σ : ℕ → ℕ) (p p' : Plan) : Prop where
  field? : ∀ key, p'.schema.field? key = p.schema.field? key
  feeds : ∀ source target, p'.schema.Feeds source target ↔ p.schema.Feeds source target
  rulesFor : ∀ key effect, p'.rulesFor key effect = (p.rulesFor key effect).map (Prod.map σ id)
  injective : ∀ i j r r', p.schema.rules[i]? = some r → p.schema.rules[j]? = some r' →
    σ i = σ j → i = j
  formulas : p'.formulas = p.formulas

namespace Plan.Renumbers

theorem refl (p : Plan) : Renumbers id p p where
  field? _ := rfl
  feeds _ _ := Iff.rfl
  rulesFor key effect := by rw [Prod.map_id, List.map_id]
  injective _ _ _ _ _ _ h := h
  formulas := rfl

variable (h : Renumbers σ p p')

include h

theorem types : p'.types = p.types := by
  funext key
  rw [Plan.types, Plan.types, h.field?]

theorem rule (hr : p.schema.rules[i]? = some r) : p'.schema.rules[σ i]? = some r := by
  have hmem : (i, r) ∈ p.rulesFor r.target r.effect := mem_rulesFor.mpr ⟨hr, rfl, rfl⟩
  have hmem' : (σ i, r) ∈ p'.rulesFor r.target r.effect := by
    rw [h.rulesFor]
    exact List.mem_map.mpr ⟨(i, r), hmem, rfl⟩
  exact (mem_rulesFor.mp hmem').1

theorem satisfied (hvalue : s'.value r.trigger = s.value r.trigger) :
    p'.satisfied s' r = p.satisfied s r := by
  rw [Plan.satisfied, Plan.satisfied, h.types, Rule.evaluate_congr hvalue]

theorem notice? (hvalue : s'.value r.trigger = s.value r.trigger) :
    r.notice? p'.types s'.value = r.notice? p.types s.value := by
  rw [h.types, notice?_congr hvalue]

theorem filter_satisfied {group : List (ℕ × Rule)}
    (hvalue : ∀ e ∈ group, s'.value e.2.trigger = s.value e.2.trigger) :
    (group.map (Prod.map σ id)).filter (fun e => p'.satisfied s' e.2) =
      (group.filter fun e => p.satisfied s e.2).map (Prod.map σ id) := by
  rw [List.filter_map]
  exact congrArg _ (List.filter_congr fun e he => h.satisfied (hvalue e he))

theorem decision {effect : Effect} {declared : Bool}
    (hvalue : ∀ d, p.schema.Feeds d key → s'.value d = s.value d) :
    p'.decision s' key effect declared = p.decision s key effect declared := by
  rw [decision_eq, decision_eq, h.rulesFor,
    h.filter_satisfied fun e he => hvalue _ (feeds_of_mem_rulesFor he), List.getLast?_map,
    Option.map_map]
  rfl

/-- **Groups are judged alike**, each rule under its own number. -/
theorem judgeErrors {group : List (ℕ × Rule)}
    (hgroup : ∀ e ∈ group, p.schema.rules[e.1]? = some e.2)
    (hvalue : ∀ e ∈ group, s'.value e.2.trigger = s.value e.2.trigger)
    (hr : p.schema.rules[i]? = some r)
    (herrors : s'.ruleErrors.get? (σ i) = s.ruleErrors.get? i) :
    (p'.judgeErrors s' (group.map (Prod.map σ id))).get? (σ i) =
      (p.judgeErrors s group).get? i := by
  have hone : ∀ r', (i, r') ∈ group → r' = r := by
    intro r' hr'
    exact Option.some.inj ((hgroup _ hr').symm.trans hr)
  -- A rule of the renumbered group under the number of `r` is `r` itself.
  have hback : ∀ r', (σ i, r') ∈ group.map (Prod.map σ id) → (i, r') ∈ group := by
    intro r' hr'
    obtain ⟨⟨j, r''⟩, hj, heq⟩ := List.mem_map.mp hr'
    obtain ⟨hij, rfl⟩ := Prod.mk.inj heq
    have hji := h.injective j i r'' r (hgroup _ hj) hr hij
    exact hji ▸ hj
  by_cases hmem : (i, r) ∈ group
  · rw [get?_judgeErrors_of_mem hmem hone,
      get?_judgeErrors_of_mem (List.mem_map.mpr ⟨(i, r), hmem, rfl⟩)
        fun r' hr' => hone r' (hback r' hr')]
    exact h.notice? (hvalue _ hmem)
  · have hnot : ∀ r', (i, r') ∉ group := fun r' hr' => hmem (hone r' hr' ▸ hr')
    rw [get?_judgeErrors_of_not_mem hnot,
      get?_judgeErrors_of_not_mem fun r' hr' => hnot r' (hback r' hr'), herrors]

end Plan.Renumbers

/-! ## States and passes -/

/-- **Two states agree on a field**: on its value, its flags, and its errors except for those of
checks. -/
structure State.Alike (σ : ℕ → ℕ) (p : Plan) (key : String) (s s' : State) : Prop where
  value : s'.value key = s.value key
  flags : ∀ d, (s'.flags d).get? key = (s.flags d).get? key
  formulaErrors : s'.formulaErrors.get? key = s.formulaErrors.get? key
  ruleErrors : ∀ i r, p.schema.rules[i]? = some r → r.target = key →
    s'.ruleErrors.get? (σ i) = s.ruleErrors.get? i

namespace State.Alike

variable {t t' : State}

theorem refl (p : Plan) (key : String) (s : State) : State.Alike id p key s s where
  value := rfl
  flags _ := rfl
  formulaErrors := rfl
  ruleErrors _ _ _ _ := rfl

theorem symm (h : State.Alike id p key s t) : State.Alike id p key t s where
  value := h.value.symm
  flags d := (h.flags d).symm
  formulaErrors := h.formulaErrors.symm
  ruleErrors i r hr htarget := (h.ruleErrors i r hr htarget).symm

theorem trans (h : State.Alike id p key s t) (h' : State.Alike σ p key t t') :
    State.Alike σ p key s t' where
  value := h'.value.trans h.value
  flags d := (h'.flags d).trans (h.flags d)
  formulaErrors := h'.formulaErrors.trans h.formulaErrors
  ruleErrors i r hr htarget := (h'.ruleErrors i r hr htarget).trans (h.ruleErrors i r hr htarget)

theorem trans_right (hσ : p.Renumbers σ p') (h : State.Alike σ p key s s')
    (h' : State.Alike id p' key s' t') : State.Alike σ p key s t' where
  value := h'.value.trans h.value
  flags d := (h'.flags d).trans (h.flags d)
  formulaErrors := h'.formulaErrors.trans h.formulaErrors
  ruleErrors i r hr htarget :=
    (h'.ruleErrors (σ i) r (hσ.rule hr) htarget).trans (h.ruleErrors i r hr htarget)

theorem visible (h : State.Alike σ p key s s') : s'.visible key = s.visible key :=
  congrArg (Option.getD · false) (h.flags .visibility)

theorem requires (h : State.Alike σ p key s s') : s'.requires key = s.requires key :=
  congrArg (Option.getD · false) (h.flags .required)

end State.Alike

namespace Pass

variable {a a' b b' : Pass} {f : Field} {full : Bool} {d : Flag}

/-- **Two passes agree on a field**, also on whether it has changed and on the rule that set it. -/
structure Alike (σ : ℕ → ℕ) (p : Plan) (key : String) (a a' : Pass) : Prop extends
    State.Alike σ p key a.state a'.state where
  dirty : key ∈ a'.dirty ↔ key ∈ a.dirty
  setters : a'.setters.get? key = a.setters.get? key

/-- Two passes agree on what feeds a field: on values, and on what has changed. -/
def SameInputs (p : Plan) (key : String) (a a' : Pass) : Prop :=
  ∀ d, p.schema.Feeds d key →
    a'.state.value d = a.state.value d ∧ (d ∈ a'.dirty ↔ d ∈ a.dirty)

theorem SameInputs.touched (h : SameInputs p key a a') (hself : ¬ p.schema.Feeds key key)
    (ht : Touches p key a b) (ht' : Touches p' key a' b') : SameInputs p key b b' := by
  intro d hd
  have hne : d ≠ key := fun he => hself (he ▸ hd)
  rw [ht.value d hne, ht'.value d hne, ht.dirty d hne, ht'.dirty d hne]
  exact h d hd

theorem Touches.alike {k : String} (ht : Touches p k a b) (hk : key ≠ k) : Alike id p key a b where
  value := ht.value key hk
  flags d := ht.flags d key hk
  formulaErrors := ht.formulaErrors key hk
  ruleErrors i r hr htarget := ht.ruleErrors i r hr fun he => hk (htarget.symm.trans he)
  dirty := ht.dirty key hk
  setters := ht.setters key hk

namespace Alike

theorem refl (p : Plan) (key : String) (a : Pass) : Alike id p key a a :=
  { State.Alike.refl p key a.state with
    dirty := Iff.rfl
    setters := rfl }

theorem symm (h : Alike id p key a b) : Alike id p key b a :=
  { h.toAlike.symm with
    dirty := h.dirty.symm
    setters := h.setters.symm }

theorem trans (h : Alike id p key a b) (h' : Alike σ p key b b') : Alike σ p key a b' :=
  { h.toAlike.trans h'.toAlike with
    dirty := h'.dirty.trans h.dirty
    setters := h'.setters.trans h.setters }

theorem trans_right (hσ : p.Renumbers σ p') (h : Alike σ p key a a') (h' : Alike id p' key a' b') :
    Alike σ p key a b' :=
  { h.toAlike.trans_right hσ h'.toAlike with
    dirty := h'.dirty.trans h.dirty
    setters := h'.setters.trans h.setters }

end Alike

/-! ## Formulas -/

theorem anyDirty_congr {keys : List String} (h : ∀ k ∈ keys, k ∈ a'.dirty ↔ k ∈ a.dirty) :
    a'.anyDirty keys = a.anyDirty keys := by
  rw [Bool.eq_iff_iff, anyDirty, anyDirty, List.any_eq_true, List.any_eq_true]
  simp only [List.contains_iff_mem]
  exact exists_congr fun k => and_congr_right (h k)

theorem Alike.recompute (hσ : p.Renumbers σ p') (h : Alike σ p key a a') {fo : Formula}
    (hvalue : ∀ k ∈ fo.sources, a'.state.value k = a.state.value k) :
    Alike σ p key (a.recompute p key fo) (a'.recompute p' key fo) := by
  obtain ⟨hflags, hrules⟩ := recompute_frame p key fo a
  obtain ⟨hflags', hrules'⟩ := recompute_frame p' key fo a'
  have heval : fo.evaluate p'.formulas a'.state.value = fo.evaluate p.formulas a.state.value := by
    rw [hσ.formulas, Formula.evaluate_congr hvalue]
  have hmarks : (a'.recompute p' key fo).state.value key = (a.recompute p key fo).state.value key ∧
      (key ∈ (a'.recompute p' key fo).dirty ↔ key ∈ (a.recompute p key fo).dirty) ∧
      (a'.recompute p' key fo).setters.get? key = (a.recompute p key fo).setters.get? key := by
    cases hresult : fo.evaluate p.formulas a.state.value with
    | error fault =>
      rw [recompute_of_error hresult, recompute_of_error (heval.trans hresult), formulaJudged_eq,
        formulaJudged_eq]
      exact ⟨h.value, h.dirty, h.setters⟩
    | ok result =>
      obtain ⟨lines, hrun⟩ := exists_recompute_of_ok key hresult
      obtain ⟨lines', hrun'⟩ := exists_recompute_of_ok key (heval.trans hresult)
      rw [hrun, hrun', formulaJudged_eq, formulaJudged_eq, h.value]
      dsimp only
      split
      · exact ⟨h.value, h.dirty, h.setters⟩
      · rw [value_write, value_write, if_pos rfl, if_pos rfl]
        exact ⟨rfl, iff_of_true List.mem_cons_self List.mem_cons_self, h.setters⟩
  exact {
    value := hmarks.1
    flags := fun d => by rw [hflags, hflags', h.flags]
    formulaErrors := by rw [formulaErrors_recompute, formulaErrors_recompute, heval]
    ruleErrors := fun i r hr htarget => by rw [hrules, hrules', h.ruleErrors i r hr htarget]
    dirty := hmarks.2.1
    setters := hmarks.2.2 }

theorem Alike.visitFormula (full : Bool) (hσ : p.Renumbers σ p') (hf : f ∈ p.schema.fields)
    (h : Alike σ p f.key a a') (hin : SameInputs p f.key a a') :
    Alike σ p f.key (a.visitFormula p full f) (a'.visitFormula p' full f) := by
  rw [Pass.visitFormula, Pass.visitFormula]
  cases hfo : f.formula with
  | none => exact h
  | some fo =>
    have hsources : ∀ k ∈ fo.sources, p.schema.Feeds k f.key :=
      fun k hk => Schema.feeds_of_formula hf hfo hk
    dsimp only
    rw [anyDirty_congr fun k hk => (hin k (hsources k hk)).2]
    split
    · exact h.recompute hσ fun k hk => (hin k (hsources k hk)).1
    · exact h

/-! ## Flags -/

theorem stale_renumbered (full : Bool) (hσ : p.Renumbers σ p') (hin : SameInputs p key a a')
    (effect : Effect) :
    a'.stale full (p'.rulesFor key effect) = a.stale full (p.rulesFor key effect) := by
  have htriggers : (p'.rulesFor key effect).map (fun e => e.2.trigger) =
      (p.rulesFor key effect).map fun e => e.2.trigger := by
    rw [hσ.rulesFor, List.map_map]
    rfl
  have hdirty : a'.anyDirty ((p.rulesFor key effect).map fun e => e.2.trigger) =
      a.anyDirty ((p.rulesFor key effect).map fun e => e.2.trigger) := by
    refine anyDirty_congr fun k hk => ?_
    obtain ⟨e, he, rfl⟩ := List.mem_map.mp hk
    exact (hin _ (Plan.feeds_of_mem_rulesFor he)).2
  rw [stale, stale, htriggers, hdirty, hσ.rulesFor, List.isEmpty_map]

theorem Alike.visitFlag (full : Bool) (d : Flag) (hσ : p.Renumbers σ p')
    (h : Alike σ p f.key a a') (hin : SameInputs p f.key a a') :
    Alike σ p f.key (a.visitFlag p full f d) (a'.visitFlag p' full f d) := by
  obtain ⟨hvalue, hformula, hdirty, hsetters⟩ := visitFlag_frame p full f d a
  obtain ⟨hvalue', hformula', hdirty', hsetters'⟩ := visitFlag_frame p' full f d a'
  have hstale := stale_renumbered full hσ hin d.effect
  exact {
    value := by rw [hvalue, hvalue', h.value]
    flags := fun d' => by
      by_cases hd : d = d'
      · subst hd
        rw [Pass.visitFlag, Pass.visitFlag, hstale]
        split
        · rw [get?_flags_flagDecided, get?_flags_flagDecided, if_pos rfl, if_pos rfl,
            hσ.decision fun k hk => (hin k hk).1]
        · exact h.flags d
      · rw [flags_visitFlag_of_ne hd, flags_visitFlag_of_ne hd, h.flags]
    formulaErrors := by rw [hformula, hformula', h.formulaErrors]
    ruleErrors := fun i r hr htarget => by
      rw [Pass.visitFlag, Pass.visitFlag, hstale]
      split
      · rw [ruleErrors_flagDecided, ruleErrors_flagDecided, hσ.rulesFor]
        exact hσ.judgeErrors (fun e he => (Plan.mem_rulesFor.mp he).1)
          (fun e he => (hin _ (Plan.feeds_of_mem_rulesFor he)).1) hr (h.ruleErrors i r hr htarget)
      · exact h.ruleErrors i r hr htarget
    dirty := by rw [hdirty, hdirty', h.dirty]
    setters := by rw [hsetters, hsetters', h.setters] }

/-! ## Values set by rules -/

theorem live_renumbered (hσ : p.Renumbers σ p') (hin : SameInputs p key a a') (effect : Effect) :
    a'.live (p'.rulesFor key effect) =
      (a.live (p.rulesFor key effect)).map (Prod.map σ id) := by
  rw [live, live, hσ.rulesFor, List.filter_map]
  refine congrArg _ (List.filter_congr fun e he => ?_)
  rw [Bool.eq_iff_iff]
  exact List.contains_iff_mem.trans
    ((hin _ (Plan.feeds_of_mem_rulesFor he)).2.trans List.contains_iff_mem.symm)

theorem winner?_renumbered (hσ : p.Renumbers σ p') (hin : SameInputs p key a a') :
    winner? p' a' key = (winner? p a key).map (Prod.map σ id) := by
  have hvalue : ∀ e ∈ a.live (p.rulesFor key .setValue),
      a'.state.value e.2.trigger = a.state.value e.2.trigger :=
    fun e he => (hin _ (Plan.feeds_of_mem_rulesFor (mem_live.mp he).1)).1
  rw [winner?, winner?, live_renumbered hσ hin, hσ.filter_satisfied hvalue, List.getLast?_map]

theorem Alike.settersJudged (hσ : p.Renumbers σ p') (h : Alike σ p key a a')
    (hin : SameInputs p key a a') :
    Alike σ p key (a.settersJudged p key) (a'.settersJudged p' key) where
  value := h.value
  flags := h.flags
  formulaErrors := h.formulaErrors
  ruleErrors i r hr htarget := by
    rw [Pass.settersJudged, Pass.settersJudged, live_renumbered hσ hin]
    exact hσ.judgeErrors (fun e he => (Plan.mem_rulesFor.mp (mem_live.mp he).1).1)
      (fun e he => (hin _ (Plan.feeds_of_mem_rulesFor (mem_live.mp he).1)).1) hr
      (h.ruleErrors i r hr htarget)
  dirty := h.dirty
  setters := h.setters

theorem Alike.applySetter (hσ : p.Renumbers σ p') (h : Alike σ p f.key a a')
    (hr : p.schema.rules[i]? = some r) :
    Alike σ p f.key (applySetter f a i r) (applySetter f a' (σ i) r) := by
  rw [Pass.applySetter, Pass.applySetter, h.value]
  split
  · rw [judged_eq, judged_eq]
    exact { h with
      ruleErrors := fun j r' hr' htarget => by
        refine (Table.get?_update _ _ _ _).trans (Eq.trans ?_ (Table.get?_update _ _ _ _).symm)
        by_cases hij : i = j
        · rw [if_pos hij, if_pos (congrArg σ hij)]
        · rw [if_neg hij, if_neg fun he => hij (hσ.injective i j r r' hr hr' he)]
          exact h.ruleErrors j r' hr' htarget }
  · split
    · exact h
    · exact { h with
        value := by
          have hwrite := value_write a f.key f.key r.effectValue
          have hwrite' := value_write a' f.key f.key r.effectValue
          rw [if_pos rfl] at hwrite hwrite'
          exact hwrite'.trans hwrite.symm
        dirty := iff_of_true List.mem_cons_self List.mem_cons_self
        setters := by
          refine (Table.get?_set _ _ _ _).trans (Eq.trans ?_ (Table.get?_set _ _ _ _).symm)
          rw [if_pos rfl, if_pos rfl] }

theorem Alike.visitSetters (hσ : p.Renumbers σ p') (h : Alike σ p f.key a a')
    (hin : SameInputs p f.key a a') :
    Alike σ p f.key (a.visitSetters p f) (a'.visitSetters p' f) := by
  have hjudged := h.settersJudged hσ hin
  have hwinner := winner?_renumbered hσ hin
  cases hw : winner? p a f.key with
  | none =>
    rw [hw] at hwinner
    rw [visitSetters_of_none hw, visitSetters_of_none hwinner]
    exact hjudged
  | some e =>
    obtain ⟨i, r⟩ := e
    rw [hw] at hwinner
    rw [visitSetters_of_some hw, visitSetters_of_some hwinner]
    exact hjudged.applySetter hσ (Plan.mem_rulesFor.mp (mem_of_winner? hw).1).1

/-! ## Visits -/

/-- **Visits of a field go alike** when the field and what feeds it are alike. -/
theorem Alike.visit (hσ : p.Renumbers σ p') (hself : ¬ p.schema.Feeds key key)
    (h : Alike σ p key a a') (hin : SameInputs p key a a') :
    Alike σ p key (visit p full a key) (visit p' full a' key) := by
  cases hf : p.schema.field? key with
  | none =>
    rw [Pass.visit, Pass.visit, hσ.field?, hf]
    exact h
  | some f =>
    obtain ⟨hmem, rfl⟩ := Schema.mem_of_field? hf
    have hformula := h.visitFormula full hσ hmem hin
    have hin₁ := hin.touched hself (touches_visitFormula p full f a)
      (touches_visitFormula p' full f a')
    have hshown := hformula.visitFlag full .visibility hσ hin₁
    have hin₂ := hin₁.touched hself (touches_visitFlag p full f .visibility _)
      (touches_visitFlag p' full f .visibility _)
    have hderived : Alike σ p f.key (a.visitDerived p full f) (a'.visitDerived p' full f) :=
      hshown.visitFlag full .required hσ hin₂
    rw [visit_of_field? hf, visit_of_field? ((hσ.field? f.key).trans hf)]
    split
    · exact hderived
    · exact hderived.visitSetters hσ
        (hin.touched hself (touches_visitDerived p full f a) (touches_visitDerived p' full f a'))

end Pass

end LiveForm
