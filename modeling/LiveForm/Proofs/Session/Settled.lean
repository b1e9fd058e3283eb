import LiveForm.Proofs.Session.Run

/-!
# Settled fields

A field is settled when its formula, its visibility, its obligation and their errors are what the
values of the form say. In a pass a field that is not settled yet is stale.

* `Plan.FormulaSettled`, `Plan.FlagSettled`, `Plan.FieldSettled`: what is up to date;
* `Pass.Pending`: all of a field that is not stale is up to date;
* `Pass.Pending.touched`, `Pass.settled_of_touches`: what the visits of other fields keep.
-/

namespace LiveForm

theorem Formula.evaluate_congr {settings : Formula.Settings} {fo : Formula}
    {data data' : String → Value} (h : ∀ k ∈ fo.sources, data k = data' k) :
    fo.evaluate settings data = fo.evaluate settings data' := by
  have hsources : (fo.sources.map fun k => (k, data k)) = fo.sources.map fun k => (k, data' k) :=
    List.map_congr_left fun k hk => by rw [h k hk]
  rw [evaluate, evaluate, hsources]

/-- No value of the form is a NaN. -/
def State.NaNFree (s : State) : Prop := ∀ key, (s.value key).isNaN = false

/-! ## What is up to date -/

/-- The errors that a formula leaves at its field: its fault, or its issues if there are any. -/
def formulaNotices (key : String) (fo : Formula) :
    Except Formula.Fault Formula.Result → Option (List Notice)
  | .ok result =>
    if result.issues.isEmpty then none
    else some (result.issues.map (Pass.issueNotice key fo))
  | .error fault => some [Pass.faultNotice key fo fault]

namespace Plan

/-- **A formula is up to date**: its field has its value and its errors. -/
structure FormulaSettled (p : Plan) (s : State) (key : String) (fo : Formula) : Prop where
  value : ∀ result, fo.evaluate p.formulas s.value = .ok result →
    s.value key = result.value ∨ (s.value key).same result.value = true
  errors : s.formulaErrors.get? key =
    formulaNotices key fo (fo.evaluate p.formulas s.value)

/-- **A flag is up to date**: it stands as it is decided, and the errors of its rules are noted. -/
structure FlagSettled (p : Plan) (s : State) (f : Field) (d : Flag) : Prop where
  decided : (s.flags d).get? f.key = some (p.decision s f.key d.effect (f.declares d))
  errors : ∀ e ∈ p.rulesFor f.key d.effect,
    s.ruleErrors.get? e.1 = e.2.notice? p.types s.value

/-- **A field is up to date.** -/
structure FieldSettled (p : Plan) (s : State) (f : Field) : Prop where
  formula : ∀ fo, f.formula = some fo → p.FormulaSettled s f.key fo
  flags : ∀ d, p.FlagSettled s f d

variable {p : Plan} {s s' : State} {f : Field} {key : String} {fo : Formula} {effect : Effect}
  {declared : Bool} {d : Flag}

theorem FormulaSettled.congr (h : p.FormulaSettled s key fo)
    (hsources : ∀ k ∈ fo.sources, s'.value k = s.value k) (hvalue : s'.value key = s.value key)
    (herrors : s'.formulaErrors.get? key = s.formulaErrors.get? key) :
    p.FormulaSettled s' key fo where
  value result hresult := by
    rw [Formula.evaluate_congr hsources] at hresult
    rw [hvalue]
    exact h.value result hresult
  errors := by rw [herrors, h.errors, Formula.evaluate_congr hsources]

theorem decision_congr
    (h : ∀ e ∈ p.rulesFor key effect, s'.value e.2.trigger = s.value e.2.trigger) :
    p.decision s' key effect declared = p.decision s key effect declared := by
  rw [decision_eq, decision_eq, List.filter_congr fun e he => satisfied_congr (h e he)]

theorem FlagSettled.congr (h : p.FlagSettled s f d)
    (htriggers : ∀ e ∈ p.rulesFor f.key d.effect, s'.value e.2.trigger = s.value e.2.trigger)
    (hdecided : (s'.flags d).get? f.key = (s.flags d).get? f.key)
    (herrors : ∀ e ∈ p.rulesFor f.key d.effect,
      s'.ruleErrors.get? e.1 = s.ruleErrors.get? e.1) :
    p.FlagSettled s' f d where
  decided := by rw [hdecided, h.decided, decision_congr htriggers]
  errors e he := by rw [herrors e he, h.errors e he, notice?_congr (htriggers e he)]

end Plan

namespace Pass

open Plan

variable {p : Plan} {a b : Pass} {full : Bool} {f : Field} {key : String} {fo : Formula}
  {effect : Effect} {d : Flag}

/-! ## What is not stale -/

/-- A formula whose sources are not marked is up to date. -/
def FormulaPending (p : Plan) (full : Bool) (a : Pass) (key : String) (fo : Formula) : Prop :=
  (full || a.anyDirty fo.sources) = false → p.FormulaSettled a.state key fo

/-- A flag whose rules have not to be judged again is up to date. -/
def FlagPending (p : Plan) (full : Bool) (a : Pass) (f : Field) (d : Flag) : Prop :=
  a.stale full (p.rulesFor f.key d.effect) = false → p.FlagSettled a.state f d

/-- **All of a field that is not stale is up to date.** -/
structure Pending (p : Plan) (full : Bool) (a : Pass) (f : Field) : Prop where
  formula : ∀ fo, f.formula = some fo → FormulaPending p full a f.key fo
  flags : ∀ d, FlagPending p full a f d

/-- What is pending stays so: a source that gets another value is marked. -/
theorem FormulaPending.touched {k : String} (h : FormulaPending p full a key fo)
    (ht : Touches p k a b) (hvalue : b.state.value key = a.state.value key)
    (herrors : b.state.formulaErrors.get? key = a.state.formulaErrors.get? key) :
    FormulaPending p full b key fo := by
  intro hfresh
  rw [Bool.or_eq_false_iff, anyDirty_eq_false] at hfresh
  obtain ⟨rfl, hclean⟩ := hfresh
  have hbefore : (false || a.anyDirty fo.sources) = false := by
    rw [Bool.or_eq_false_iff, anyDirty_eq_false]
    exact ⟨rfl, fun s hs hd => hclean s hs (ht.dirty_of_mem hd)⟩
  exact (h hbefore).congr (fun s hs => ht.value_of_not_dirty (hclean s hs)) hvalue herrors

theorem FlagPending.touched {k : String} (h : FlagPending p full a f d) (ht : Touches p k a b)
    (hdecided : (b.state.flags d).get? f.key = (a.state.flags d).get? f.key)
    (herrors : ∀ e ∈ p.rulesFor f.key d.effect,
      b.state.ruleErrors.get? e.1 = a.state.ruleErrors.get? e.1) :
    FlagPending p full b f d := by
  intro hfresh
  rw [stale_eq_false] at hfresh
  have hbefore : a.stale full (p.rulesFor f.key d.effect) = false := by
    refine stale_eq_false.mpr (hfresh.imp_right fun h => ⟨h.1, ?_⟩)
    intro e he hd
    exact h.2 e he (ht.dirty_of_mem hd)
  refine (h hbefore).congr ?_ hdecided herrors
  intro e he
  rcases hfresh with hnil | ⟨-, hclean⟩
  · exact absurd (hnil ▸ he) List.not_mem_nil
  · exact ht.value_of_not_dirty (hclean e he)

theorem ruleErrors_of_touches {k : String} (ht : Touches p k a b) (hk : k ≠ key) {e : ℕ × Rule}
    (he : e ∈ p.rulesFor key effect) :
    b.state.ruleErrors.get? e.1 = a.state.ruleErrors.get? e.1 := by
  obtain ⟨hr, htarget, -⟩ := mem_rulesFor.mp he
  exact ht.ruleErrors e.1 e.2 hr fun h => hk (h.symm.trans htarget)

theorem Pending.touched {k : String} (h : Pending p full a f) (ht : Touches p k a b)
    (hk : k ≠ f.key) : Pending p full b f where
  formula fo hfo := (h.formula fo hfo).touched ht (ht.value _ hk.symm) (ht.formulaErrors _ hk.symm)
  flags d := (h.flags d).touched ht (ht.flags d _ hk.symm) fun _ => ruleErrors_of_touches ht hk

theorem settled_of_touches {k : String} (hf : f ∈ p.schema.fields) (h : p.FieldSettled a.state f)
    (ht : Touches p k a b) (hk : k ≠ f.key) (hfeeds : ¬ p.schema.Feeds k f.key) :
    p.FieldSettled b.state f := by
  have hvalue : ∀ d, p.schema.Feeds d f.key → b.state.value d = a.state.value d :=
    fun d hd => ht.value d fun he => hfeeds (he ▸ hd)
  constructor
  · intro fo hfo
    refine (h.formula fo hfo).congr (fun d hd => hvalue d ?_) (ht.value _ hk.symm)
      (ht.formulaErrors _ hk.symm)
    exact Schema.feeds_of_formula hf hfo hd
  · intro d
    exact (h.flags d).congr (fun e he => hvalue _ (feeds_of_mem_rulesFor he))
      (ht.flags d _ hk.symm) fun _ => ruleErrors_of_touches ht hk

end Pass

end LiveForm
