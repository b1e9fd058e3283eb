import LiveForm.Session.Basic
import LiveForm.Proofs.Result
import LiveForm.Proofs.Session.Visit

/-!
# Passes and checks

A pass over all fields settles them from any state whose fields without rules are as declared. A
pass over what depends on a written field keeps the fields settled. Looking again at errors of
checks writes no other channel.

* `Session.recheck_eq`: only the errors of checks are written;
* **`settled_settleAll`, `settled_propagate`**: both kinds of pass leave all fields settled.
-/

namespace LiveForm

variable {p : Plan} {s s' : State} {f : Field} {key : String} {d : Flag}

/-! ## Errors of checks -/

theorem Plan.FieldSettled.withCheckErrors (h : p.FieldSettled s f)
    (errors : Table String (List Notice)) :
    p.FieldSettled { s with checkErrors := errors } f where
  formula fo hfo := (h.formula fo hfo).congr (fun _ _ => rfl) rfl rfl
  flags d := (h.flags d).congr (fun _ _ => rfl) (by cases d <;> rfl) fun _ _ => rfl

namespace Session

theorem refresh_eq_ok (h : refresh p s key = .ok s') :
    ∃ errors, s' = { s with checkErrors := errors } := by
  obtain ⟨found, -, h⟩ := bind_eq_ok.mp h
  exact ⟨_, (Except.ok.inj h).symm⟩

theorem recheckAll_eq (p : Plan) (before : State) (keys : List String) (s : State) :
    ∃ errors, (recheckAll p before keys s).state = { s with checkErrors := errors } := by
  induction keys generalizing s with
  | nil => exact ⟨s.checkErrors, rfl⟩
  | cons key keys ih =>
    rw [recheckAll]
    split
    · split
      · next s' hs' =>
        obtain ⟨errors, rfl⟩ := refresh_eq_ok hs'
        exact ih _
      · exact ⟨s.checkErrors, rfl⟩
    · exact ih s

/-- Looking again at the checked fields writes nothing but the errors of checks. -/
theorem recheck_eq (p : Plan) (before after : State) :
    ∃ errors, (recheck p before after).state = { after with checkErrors := errors } := by
  rw [recheck]
  split
  · exact recheckAll_eq p before _ after
  · exact ⟨after.checkErrors, rfl⟩

theorem value_recheck (p : Plan) (before after : State) :
    (recheck p before after).state.value = after.value := by
  obtain ⟨errors, he⟩ := recheck_eq p before after
  rw [he]
  rfl

end Session

/-! ## Passes over all fields -/

/-- A flag is as the field declares it, where it has no rules. -/
def Plan.FlagDeclared (p : Plan) (s : State) (f : Field) (d : Flag) : Prop :=
  p.rulesFor f.key d.effect = [] → (s.flags d).get? f.key = some (f.declares d)

theorem Plan.decision_of_nil (h : p.rulesFor f.key d.effect = []) :
    p.decision s f.key d.effect (f.declares d) = f.declares d := by
  rw [decision_eq, h]
  rfl

theorem Plan.FlagSettled.flagDeclared (h : p.FlagSettled s f d) : p.FlagDeclared s f d := by
  intro hnil
  rw [h.decided, decision_of_nil hnil]

theorem Pass.flagPending_of_declared {dirty : List String} (h : p.FlagDeclared s f d) :
    FlagPending p true { state := s, dirty := dirty } f d := by
  intro hfresh
  obtain hnil | ⟨hfull, -⟩ := stale_eq_false.mp hfresh
  · refine ⟨by rw [h hnil, Plan.decision_of_nil hnil], ?_⟩
    intro e he
    exact absurd (hnil ▸ he) List.not_mem_nil
  · exact Bool.noConfusion hfull

/-- **A pass over all fields settles them.** -/
theorem settled_settleAll (hp : p.WellFormed) (hf : f ∈ p.schema.fields)
    (hflags : ∀ d, p.FlagDeclared s f d) : p.FieldSettled (settleAll p s).state f :=
  Pass.settled_run hp hf {
    formula := fun _ _ hfresh => Bool.noConfusion hfresh
    flags := fun d => Pass.flagPending_of_declared (hflags d) }

/-! ## Passes after a write -/

theorem Pass.pending_write {v : Value} (h : p.FieldSettled s f)
    (hkey : f.key = key → f.isComputed = false) :
    Pending p false { state := { s with data := s.data.set key v }, dirty := [key] } f := by
  have hbefore : Pending p false { state := s, dirty := [] } f :=
    ⟨fun fo hfo _ => h.formula fo hfo, fun d _ => h.flags d⟩
  have ht := touches_write p { state := s, dirty := [] } key v
  by_cases he : f.key = key
  · constructor
    · intro fo hfo
      have hcomputed := hkey he
      rw [Field.isComputed_of_formula hfo] at hcomputed
      exact Bool.noConfusion hcomputed
    · intro d
      exact (hbefore.flags d).touched ht (by cases d <;> rfl) fun _ _ => rfl
  · exact hbefore.touched ht (Ne.symm he)

/-- **A pass after a write leaves all fields settled.** -/
theorem settled_propagate (hp : p.WellFormed) (hf : f ∈ p.schema.fields) {v : Value}
    (h : p.FieldSettled s f) (hkey : key ∈ p.schema.fieldKeys)
    (hwritable : f.key = key → f.isComputed = false) :
    p.FieldSettled (propagate p { s with data := s.data.set key v } key).state f := by
  rw [propagate_eq_run hp hkey]
  exact Pass.settled_run hp hf (Pass.pending_write h hwritable)

end LiveForm
