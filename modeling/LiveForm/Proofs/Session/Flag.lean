import LiveForm.Proofs.Session.Judge

/-!
# Flags

Rules decide two things about a field: whether it is shown, and whether it has to have a value. A
pass brings both up to date in one way.

* `Flag`: one of the two; `State.flags` and `State.withFlag` read and write it;
* `Pass.visitFlag`: the rules on a flag are judged, and what they decide is written;
* `Pass.visitVisibility_eq`, `Pass.visitRequired_eq`: the two steps of a visit are its cases;
* `Pass.visitFlag_frame`, `Pass.flags_visitFlag_of_ne`: what it leaves alone.
-/

namespace LiveForm

/-- What rules decide about a field. -/
inductive Flag where
  | visibility | required
  deriving DecidableEq

/-- The effect of the rules that decide it. -/
def Flag.effect : Flag → Effect
  | visibility => .visibility
  | required => .required

theorem Flag.effect_ne_setValue (d : Flag) : d.effect ≠ .setValue := by
  cases d <;> decide

/-- What a field declares. -/
def Field.declares (f : Field) : Flag → Bool
  | .visibility => f.visible
  | .required => f.constraints.required

namespace State

variable {s : State} {d d' : Flag} {key k : String} {b : Bool}

/-- The decisions on all fields. -/
def flags (s : State) : Flag → Table String Bool
  | .visibility => s.visibility
  | .required => s.required

/-- The state with a decision on a field. -/
def withFlag (s : State) (d : Flag) (key : String) (b : Bool) : State :=
  match d with
  | .visibility => { s with visibility := s.visibility.set key b }
  | .required => { s with required := s.required.set key b }

theorem get?_flags_withFlag : ((s.withFlag d key b).flags d).get? k =
    if key = k then some b else (s.flags d).get? k := by
  cases d <;> exact Table.get?_set _ _ _ _

theorem flags_withFlag_of_ne (h : d ≠ d') : (s.withFlag d key b).flags d' = s.flags d' := by
  cases d <;> cases d' <;> first | rfl | exact absurd rfl h

@[simp] theorem data_withFlag : (s.withFlag d key b).data = s.data := by
  cases d <;> rfl

@[simp] theorem formulaErrors_withFlag :
    (s.withFlag d key b).formulaErrors = s.formulaErrors := by
  cases d <;> rfl

@[simp] theorem ruleErrors_withFlag : (s.withFlag d key b).ruleErrors = s.ruleErrors := by
  cases d <;> rfl

theorem withFlag_of_get? (h : (s.flags d).get? key = some b) : s.withFlag d key b = s := by
  cases d with
  | visibility =>
    have hset : s.visibility.set key b = s.visibility := Table.set_of_get? h
    rw [withFlag, hset]
  | required =>
    have hset : s.required.set key b = s.required := Table.set_of_get? h
    rw [withFlag, hset]

theorem value_eq_of_data_eq {s' : State} (h : s'.data = s.data) : s'.value = s.value := by
  funext k
  rw [value, value, h]

end State

namespace Pass

variable {p : Plan} {a : Pass} {full : Bool} {f : Field} {d : Flag}

/-- The pass with the rules on a flag judged, and the flag decided. -/
def flagDecided (p : Plan) (f : Field) (d : Flag) (a : Pass) : Pass :=
  let shown := p.decision a.state f.key d.effect (f.declares d)
  let b := a.withRuleErrors (p.judgeErrors a.state (p.rulesFor f.key d.effect))
  { b with state := b.state.withFlag d f.key shown }

/-- **Brings a flag of a field up to date**, if one of its triggers has changed. -/
def visitFlag (p : Plan) (full : Bool) (f : Field) (d : Flag) (a : Pass) : Pass :=
  if a.stale full (p.rulesFor f.key d.effect) then a.flagDecided p f d else a

theorem visitVisibility_eq (p : Plan) (full : Bool) (f : Field) (a : Pass) :
    a.visitVisibility p full f = a.visitFlag p full f .visibility := by
  rw [visitVisibility, visitFlag]
  dsimp only
  rw [judgeGroup_eq]
  rfl

theorem visitRequired_eq (p : Plan) (full : Bool) (f : Field) (a : Pass) :
    a.visitRequired p full f = a.visitFlag p full f .required := by
  rw [visitRequired, visitFlag]
  dsimp only
  rw [judgeGroup_eq]
  rfl

theorem visitFlag_of_fresh (h : a.stale full (p.rulesFor f.key d.effect) = false) :
    a.visitFlag p full f d = a := by
  rw [visitFlag, h]
  rfl

theorem ruleErrors_flagDecided (p : Plan) (f : Field) (d : Flag) (a : Pass) :
    (a.flagDecided p f d).state.ruleErrors =
      p.judgeErrors a.state (p.rulesFor f.key d.effect) :=
  State.ruleErrors_withFlag

theorem get?_flags_flagDecided (p : Plan) (f : Field) (d : Flag) (a : Pass) (k : String) :
    ((a.flagDecided p f d).state.flags d).get? k =
      if f.key = k then some (p.decision a.state f.key d.effect (f.declares d))
      else (a.state.flags d).get? k := by
  rw [flagDecided]
  dsimp only
  rw [State.get?_flags_withFlag]
  cases d <;> rfl

theorem visitFlag_frame (p : Plan) (full : Bool) (f : Field) (d : Flag) (a : Pass) :
    (a.visitFlag p full f d).state.value = a.state.value ∧
      (a.visitFlag p full f d).state.formulaErrors = a.state.formulaErrors ∧
      (a.visitFlag p full f d).dirty = a.dirty ∧
      (a.visitFlag p full f d).setters = a.setters := by
  rw [visitFlag]
  split
  · exact ⟨State.value_eq_of_data_eq State.data_withFlag, State.formulaErrors_withFlag, rfl, rfl⟩
  · exact ⟨rfl, rfl, rfl, rfl⟩

theorem flags_visitFlag_of_ne {d' : Flag} (h : d ≠ d') :
    (a.visitFlag p full f d).state.flags d' = a.state.flags d' := by
  rw [visitFlag]
  split
  · rw [flagDecided]
    dsimp only
    rw [State.flags_withFlag_of_ne h]
    cases d' <;> rfl
  · rfl

end Pass

end LiveForm
