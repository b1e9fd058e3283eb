import LiveForm.Proofs.Field.Check
import LiveForm.Proofs.Session.Recheck
import LiveForm.Proofs.Session.Start
import LiveForm.Proofs.Value.Decidable

/-!
# Valid forms

A check of all fields answers with its errors, and the form is valid when there are none. So it is
exactly when every field that is shown and not computed holds a value that it admits, as it stands:
under the obligation that the rules have decided. There is no answer when the check of a field is
broken off.

* `Session.found_of_check`: the errors that a check answers with;
* `Session.collect_empty_iff`: there are none when no field has one;
* **`Session.check_admits`**: what a check gives for a value, and when a form is valid.
-/

namespace LiveForm

theorem Table.isEmpty_set {κ α : Type} [DecidableEq κ] (t : Table κ α) (key : κ) (value : α) :
    (t.set key value).isEmpty = false := by
  unfold set isEmpty
  cases t.entries with
  | nil => rfl
  | cons e es =>
    unfold put
    split <;> rfl

namespace Session

variable {s : Session} {f : Field}

theorem found_of_check {number : ℕ} (h : s.check.answer = .ok number) :
    s.found = .ok (s.check.session.errorsOfCheck number) := by
  rw [check] at h ⊢
  cases hfound : s.found with
  | error cause =>
    rw [hfound] at h
    cases h
  | ok errors =>
    rw [hfound] at h
    obtain rfl := Except.ok.inj h
    simp [errorsOfCheck]

theorem exists_check_iff : (∃ number, s.check.answer = .ok number ∧
      (s.check.session.errorsOfCheck number).isEmpty = true) ↔
    ∃ errors, s.found = .ok errors ∧ errors.isEmpty = true := by
  constructor
  · rintro ⟨number, hanswer, hempty⟩
    exact ⟨_, found_of_check hanswer, hempty⟩
  · rintro ⟨errors, hfound, hempty⟩
    have hanswer : ∃ number, s.check.answer = .ok number := by
      rw [check, hfound]
      exact ⟨_, rfl⟩
    obtain ⟨number, hanswer⟩ := hanswer
    obtain rfl := Except.ok.inj (hfound.symm.trans (found_of_check hanswer))
    exact ⟨number, hanswer, hempty⟩

/-- Errors of fields are collected only where there are some. -/
theorem collect_empty_iff (find : Field → Except Pattern.Interruption (List Notice))
    (fs : List Field) (t : Table String (List Notice)) :
    (∃ errors, fs.foldlM (fun t f => do
        let notices ← find f
        .ok (if notices.isEmpty then t else t.set f.key notices)) t = .ok errors ∧
      errors.isEmpty = true) ↔ t.isEmpty = true ∧ ∀ f ∈ fs, find f = .ok [] := by
  induction fs generalizing t with
  | nil => simp [pure, Except.pure]
  | cons f fs ih =>
    rw [List.foldlM_cons, List.forall_mem_cons]
    cases hf : find f with
    | error cause => exact iff_of_false (fun ⟨_, h, _⟩ => nomatch h) fun ⟨_, h, _⟩ => nomatch h
    | ok notices =>
      rw [ok_bind, ok_bind, ih]
      by_cases hnil : notices = []
      · simp [hnil]
      · simp [hnil, Table.isEmpty_set]

theorem checkField_eq_nil_iff {p : Plan} {t : State} : t.checkField p f = .ok [] ↔
    (f.isComputed = false → t.visible f.key = true →
      f.Admits p.search (t.value f.key) (t.requires f.key)) := by
  unfold State.checkField
  rw [← Field.check_eq_nil_iff_admits]
  cases f.isComputed <;> cases t.visible f.key <;> simp

theorem checkField_eq_error_iff {p : Plan} {t : State} {cause : Pattern.Interruption} :
    t.checkField p f = .error cause ↔ f.isComputed = false ∧ t.visible f.key = true ∧
      f.BreaksOff p.search (.read (some f.type) (t.value f.key)) cause := by
  unfold State.checkField
  rw [← @Field.check_eq_error_iff _ _ _ (t.requires f.key)]
  cases f.isComputed <;> cases t.visible f.key <;> simp

/-- **A check accepts just the admissible values.** It gives no notices for them, and for any other
value it tells what is wrong. So a form is valid exactly when each field that is shown and not
computed admits the value that it holds, under its obligation at that time. There is no answer only
when the search for the pattern of such a field is broken off. -/
theorem check_admits :
    (∀ (search : Pattern.Search) (f : Field) (raw : Value) (required : Bool),
      f.Checks search raw required) ∧
    (∀ s : Session, (∃ number, s.check.answer = .ok number ∧
        (s.check.session.errorsOfCheck number).isEmpty = true) ↔
      ∀ f ∈ s.plan.schema.fields, f.isComputed = false → s.state.visible f.key = true →
        f.Admits s.plan.search (s.state.value f.key) (s.state.requires f.key)) ∧
    ∀ s : Session, s.check.Interrupted ↔
      ∃ f ∈ s.plan.schema.fields, ∃ cause, f.isComputed = false ∧ s.state.visible f.key = true ∧
        f.BreaksOff s.plan.search (.read (some f.type) (s.state.value f.key)) cause := by
  refine ⟨Field.checks, fun s => ?_, fun s => ?_⟩
  · rw [exists_check_iff]
    refine (collect_empty_iff (s.state.checkField s.plan) _ .empty).trans ?_
    exact (and_iff_right rfl).trans (forall₂_congr fun f _ => checkField_eq_nil_iff)
  · rw [interrupted_check_iff]
    refine (Table.collect_eq_error_iff (s.state.checkField s.plan) _ .empty).trans ?_
    simp only [checkField_eq_error_iff]

/-- A field of two toppings. -/
def toppingsField : Field where
  key := "toppings"
  type := .checkbox
  label := "Toppings"
  default := .null
  constraints := { required := true }
  choices := [⟨.text "ham", "Ham"⟩, ⟨.text "egg", "Egg"⟩]
  visible := true
  formula := none

/-- A topping that is not offered is told of as often as it was chosen. An order without the note
that its price asks for is not valid. -/
theorem toppings_check_admits :
    (∃ ns, toppingsField.check Pattern.search (.tuple [.text "glue", .text "ham", .text "glue"])
        true = .ok ns ∧ ns.filter (·.kind = .fieldChoice) =
      List.replicate 2 (.fieldChoice "toppings" (.text "glue") [.text "ham", .text "egg"])) ∧
    ∃ s : Session, s.Reachable ∧ (∃ number, s.check.answer = .ok number ∧
        (s.check.session.errorsOfCheck number).isEmpty = false) ∧
      ∃ f ∈ s.plan.schema.fields, f.isComputed = false ∧ s.state.visible f.key = true ∧
        ¬ f.Admits s.plan.search (s.state.value f.key) (s.state.requires f.key) := by
  have hfits : (Typed.read (some toppingsField.type)
      (.tuple [.text "glue", .text "ham", .text "glue"])).Fits := ⟨rfl, rfl⟩
  have htold := (check_admits.1 Pattern.search toppingsField _ true).unoffered hfits
    (List.cons_ne_nil _ _) _ rfl
  have hleft : ((toppingsField.chosen (.list [.text "glue", .text "ham", .text "glue"])).filter
      fun v => !v.member toppingsField.choiceValues) = [.text "glue", .text "glue"] := by
    decide +kernel
  obtain ⟨s, hs, hplan, hstate⟩ := exists_order
  have hwritten : (s.set "price" (.int 10)).session.state = (recheck orderPlan orderState
      (propagate orderPlan { orderState with data := orderState.data.set "price" (.int 10) }
        "price").state).state := by
    rw [← hplan, ← hstate]
    refine state_set_of_ne (f := orderForm.fields[0]) (by rw [hplan]; rfl) ?_
    rw [hstate]
    decide +kernel
  have hfound : (s.set "price" (.int 10)).session.found.map Table.isEmpty = .ok false := by
    have hp : orderPlan.WellFormed := hplan ▸ hs.sound.planned.toWellFormed
    rw [found, plan_set, hplan, hwritten, propagate_eq_run hp (by decide)]
    decide +kernel
  obtain ⟨errors, herrors, hne⟩ := map_eq_ok.mp hfound
  have hanswer : ∃ number, (s.set "price" (.int 10)).session.check.answer = .ok number := by
    rw [check, herrors]
    exact ⟨_, rfl⟩
  obtain ⟨number, hanswer⟩ := hanswer
  have hnumber := Except.ok.inj ((found_of_check hanswer).symm.trans herrors)
  refine ⟨⟨_, rfl, htold.trans (congrArg (List.map _) hleft)⟩, _,
    (Reachable.opened hs).set "price" (.int 10), ⟨number, hanswer, by rw [hnumber, hne]⟩, ?_⟩
  have hinvalid := mt (check_admits.2.1 (s.set "price" (.int 10)).session).mpr (by
    rintro ⟨number', hanswer', hempty⟩
    have heq := Except.ok.inj ((found_of_check hanswer').symm.trans herrors)
    rw [heq, hne] at hempty
    cases hempty)
  push Not at hinvalid
  exact hinvalid

end Session

end LiveForm
