import LiveForm.Proofs.Session.Derived
import LiveForm.Proofs.Session.Locality

/-!
# Independent writes commute

Two writes are independent when neither field follows from the other and no field that follows from
both is written by a formula or a rule. Outside of what follows from the second field a session is,
after both writes, as after the first; so the order does not matter there. What follows from both
fields can only be shown, hidden, obliged or not, and that is decided by the values at the end.

* `State.Agrees`: two states hold the same, but for errors of checks;
* `Plan.Independent`: two fields are independent;
* `Session.kept_set`: a field that neither a formula nor a rule writes keeps its value;
* `Session.alike_set_set`: outside of what follows from one field the order of writes does not
  matter;
* **`Session.Reachable.set_comm`**: independent writes commute.
-/

namespace LiveForm

variable {p : Plan} {f : Field} {key : String} {full : Bool}

/-- **Two states hold the same**: values, visibility, obligation, and the errors of formulas and of
rules. -/
structure State.Agrees (p : Plan) (s s' : State) : Prop where
  value : ∀ key, s'.value key = s.value key
  visible : ∀ key, s'.visible key = s.visible key
  requires : ∀ key, s'.requires key = s.requires key
  formulaErrors : ∀ key, s'.formulaErrors.get? key = s.formulaErrors.get? key
  /-- The errors of rules are the same at the position of every rule. -/
  ruleErrors : ∀ i r, p.schema.rules[i]? = some r → s'.ruleErrors.get? i = s.ruleErrors.get? i

theorem State.agrees_of_alike {s s' : State} (h : ∀ k, State.Alike id p k s s') :
    s.Agrees p s' where
  value k := (h k).value
  visible k := (h k).visible
  requires k := (h k).requires
  formulaErrors k := (h k).formulaErrors
  ruleErrors i r hr := (h r.target).ruleErrors i r hr rfl

namespace Plan

/-- A field is another one, or follows from it. -/
def Reaches (p : Plan) (key k : String) : Prop := k = key ∨ k ∈ p.graph.descendantKeys key

/-- No formula and no rule writes the value of a field. -/
structure Unwritten (p : Plan) (f : Field) : Prop where
  not_computed : f.isComputed = false
  no_setters : ∀ r ∈ p.schema.rules, r.target = f.key → r.effect ≠ .setValue

/-- **Two fields are independent**: neither follows from the other, and what follows from both is
written by no formula and no rule. -/
structure Independent (p : Plan) (a b : String) : Prop where
  ne : a ≠ b
  not_below : b ∉ p.graph.descendantKeys a
  not_above : a ∉ p.graph.descendantKeys b
  shared : ∀ f ∈ p.schema.fields, f.key ∈ p.graph.descendantKeys a →
    f.key ∈ p.graph.descendantKeys b → p.Unwritten f

variable {a b : String}

theorem Independent.symm (h : p.Independent a b) : p.Independent b a where
  ne := h.ne.symm
  not_below := h.not_above
  not_above := h.not_below
  shared f hf hb ha := h.shared f hf ha hb

theorem Independent.not_reaches (h : p.Independent a b) : ¬ p.Reaches b a := by
  rintro (hab | hab)
  · exact h.ne hab
  · exact h.not_above hab

theorem Independent.exists_unwritten (hp : p.WellFormed) (h : p.Independent a b) {k : String}
    (ha : p.Reaches a k) (hb : p.Reaches b k) :
    ∃ f ∈ p.schema.fields, f.key = k ∧ a ≠ f.key ∧ b ≠ f.key ∧ p.Unwritten f := by
  have hak : a ≠ k := fun he => h.not_reaches (he ▸ hb)
  have hbk : b ≠ k := fun he => h.symm.not_reaches (he ▸ ha)
  have ha := ha.resolve_left hak.symm
  have hb := hb.resolve_left hbk.symm
  obtain ⟨f, hf, rfl⟩ := List.mem_map.mp (Graph.declared_of_mem_descendantKeys (hp.graph ▸ ha))
  exact ⟨f, hf, rfl, hak, hbk, h.shared f hf ha hb⟩

theorem not_reaches_of_feeds (hp : p.WellFormed) (hkey : key ∈ p.schema.fieldKeys) {d k : String}
    (hf : p.schema.Feeds d k) (hk : ¬ p.Reaches key k) : ¬ p.Reaches key d := by
  intro hd
  rw [Reaches, hp.graph] at hd hk
  have hdeclared := (Schema.declared_of_feeds hp.problems hf).2
  exact hk (Or.inr (Graph.mem_descendantKeys_of_feeds hkey hdeclared hf hd))

end Plan

/-! ## Unwritten fields -/

theorem Pass.kept_visit (full : Bool) (h : p.Unwritten f) (hf : p.schema.field? f.key = some f)
    (a : Pass) :
    (visit p full a f.key).state.value = a.state.value ∧
      (visit p full a f.key).state.formulaErrors = a.state.formulaErrors := by
  have hformula : a.visitFormula p full f = a := by
    have hnone := h.not_computed
    rw [Field.isComputed, Option.isSome_eq_false_iff, Option.isNone_iff_eq_none] at hnone
    rw [visitFormula, hnone]
  have hderived : (a.visitDerived p full f).state.value = a.state.value ∧
      (a.visitDerived p full f).state.formulaErrors = a.state.formulaErrors := by
    obtain ⟨hvalue, -, -⟩ := visitDerived_frame p full f a
    have herrors := formulaErrors_visitDerived p full f a
    rw [hformula] at hvalue herrors
    exact ⟨hvalue, herrors⟩
  have hwinner : ∀ b : Pass, winner? p b f.key = none := by
    intro b
    refine Option.eq_none_iff_forall_ne_some.mpr fun e he => ?_
    obtain ⟨hr, htarget, heffect⟩ := Plan.mem_rulesFor.mp (mem_of_winner? he).1
    exact h.no_setters e.2 (List.mem_of_getElem? hr) htarget heffect
  rw [visit_of_field? hf]
  split
  · exact hderived
  · rw [visitSetters_of_none (hwinner _)]
    exact hderived

theorem State.alike_of_settled {s s' : State} (h : p.FieldSettled s f) (h' : p.FieldSettled s' f)
    (hf : p.Unwritten f) (hvalue : s'.value = s.value)
    (herrors : s'.formulaErrors.get? f.key = s.formulaErrors.get? f.key) :
    State.Alike id p f.key s s' where
  value := congrFun hvalue f.key
  flags d := by
    rw [(h.flags d).decided, (h'.flags d).decided,
      Plan.decision_congr fun e _ => congrFun hvalue e.2.trigger]
  formulaErrors := herrors
  ruleErrors i r hr htarget := by
    have heffect := hf.no_setters r (List.mem_of_getElem? hr) htarget
    rw [id_eq, h.ruleErrors hr htarget heffect, h'.ruleErrors hr htarget heffect, hvalue]

/-! ## Writes -/

namespace Session

variable {s : Session} {a b : String} {fa fb : Field}

/-- **A write keeps the values of other fields that nothing writes.** -/
theorem kept_set (hp : s.plan.WellFormed) (hf : f ∈ s.plan.schema.fields)
    (h : s.plan.Unwritten f) (hne : key ≠ f.key) (v : Value) :
    (s.set key v).session.state.value f.key = s.state.value f.key ∧
      (s.set key v).session.state.formulaErrors.get? f.key =
        s.state.formulaErrors.get? f.key := by
  obtain ⟨-, hstate | ⟨g, -, -, hstate⟩⟩ := set_cases s key v
  · rw [hstate]
    exact ⟨rfl, rfl⟩
  · obtain ⟨errors, he⟩ := recheck_eq s.plan s.state
      (propagate s.plan { s.state with data := s.state.data.set key v } key).state
    rw [hstate, written, afterWrite, he]
    refine Pass.run_keeps (P := fun b => b.state.value f.key = s.state.value f.key ∧
      b.state.formulaErrors.get? f.key = s.state.formulaErrors.get? f.key) ?_ ⟨?_, rfl⟩
    · intro k _ b hb
      by_cases hk : f.key = k
      · obtain ⟨hvalue, herrors⟩ := Pass.kept_visit false h (hp.field?_key hf) b
        rw [← hk, hvalue, herrors]
        exact hb
      · have ht := Pass.touches_visit s.plan false b k
        rw [ht.value f.key hk, ht.formulaErrors f.key hk]
        exact hb
    · rw [State.value_set, if_neg hne]

theorem kept_set_set (hp : s.plan.WellFormed) (hf : f ∈ s.plan.schema.fields)
    (h : s.plan.Unwritten f) (ha : a ≠ f.key) (hb : b ≠ f.key) (va vb : Value) :
    ((s.set a va).session.set b vb).session.state.value f.key = s.state.value f.key ∧
      ((s.set a va).session.set b vb).session.state.formulaErrors.get? f.key =
        s.state.formulaErrors.get? f.key := by
  have hplan := plan_set s a va
  obtain ⟨hvalue, herrors⟩ := kept_set hp hf h ha va
  obtain ⟨hvalue', herrors'⟩ := kept_set (s := (s.set a va).session) (hplan ▸ hp) (hplan ▸ hf)
    (hplan ▸ h) hb vb
  exact ⟨hvalue'.trans hvalue, herrors'.trans herrors⟩

/-- **Outside of what follows from the second field the order of two writes does not matter.** The
write of the first field goes there as if the second had not been written. -/
theorem alike_set_set (hp : s.plan.WellFormed) (hb : b ∈ s.plan.schema.fieldKeys)
    (ha : ¬ s.plan.Reaches b a) (va vb : Value) {k : String} (hk : ¬ s.plan.Reaches b k) :
    State.Alike id s.plan k ((s.set a va).session.set b vb).session.state
      ((s.set b vb).session.set a va).session.state := by
  have hplan := plan_set s a va
  have hplan' := plan_set s b vb
  have hwritten : ∀ k, ¬ s.plan.Reaches b k →
      State.Alike id s.plan k s.state (s.set b vb).session.state := by
    intro k hk
    rw [Plan.Reaches, not_or] at hk
    exact alike_set s vb (Ne.symm hk.1) hk.2
  have hfirst : State.Alike id s.plan k (s.set a va).session.state
      ((s.set b vb).session.set a va).session.state :=
    set_alike (fun k => ¬ s.plan.Reaches b k) (hplan' ▸ Plan.Renumbers.refl s.plan) hp
      (hplan' ▸ hp) (fun _ _ => Plan.not_reaches_of_feeds hp hb) ha hwritten k hk
  have hsecond : State.Alike id s.plan k (s.set a va).session.state
      ((s.set a va).session.set b vb).session.state := by
    rw [Plan.Reaches, not_or] at hk
    have hlast : State.Alike id (s.set a va).session.plan k (s.set a va).session.state
        ((s.set a va).session.set b vb).session.state :=
      alike_set _ vb (Ne.symm hk.1) (by rw [hplan]; exact hk.2)
    rwa [hplan] at hlast
  exact hsecond.symm.trans hfirst

/-- **Independent writes commute.** It does not matter for values, visibility, obligation, and
errors of formulas and rules which of two independent fields is written first. -/
theorem Reachable.set_comm (h : s.Reachable)
    (ha : writable s.plan.schema a "set_value" = .ok fa)
    (hb : writable s.plan.schema b "set_value" = .ok fb) (hab : s.plan.Independent a b)
    (va vb : Value) :
    ((s.set a va).session.set b vb).session.state.Agrees s.plan
      ((s.set b vb).session.set a va).session.state := by
  have hp := h.sound.planned.toWellFormed
  have hplan := plan_set s a va
  have hplan' := plan_set s b vb
  have houtside : ∀ k, ¬ (s.plan.Reaches a k ∧ s.plan.Reaches b k) →
      State.Alike id s.plan k ((s.set a va).session.set b vb).session.state
        ((s.set b vb).session.set a va).session.state := by
    intro k hk
    rcases not_and_or.mp hk with hk | hk
    · exact (alike_set_set hp (mem_fieldKeys_of_writable ha) hab.symm.not_reaches vb va hk).symm
    · exact alike_set_set hp (mem_fieldKeys_of_writable hb) hab.not_reaches va vb hk
  have hkept : ∀ f ∈ s.plan.schema.fields, a ≠ f.key → b ≠ f.key → s.plan.Unwritten f →
      ((s.set b vb).session.set a va).session.state.value f.key =
          ((s.set a va).session.set b vb).session.state.value f.key ∧
        ((s.set b vb).session.set a va).session.state.formulaErrors.get? f.key =
          ((s.set a va).session.set b vb).session.state.formulaErrors.get? f.key := by
    intro f hf hak hbk hun
    obtain ⟨hvalue, herrors⟩ := kept_set_set hp hf hun hak hbk va vb
    obtain ⟨hvalue', herrors'⟩ := kept_set_set hp hf hun hbk hak vb va
    exact ⟨hvalue'.trans hvalue.symm, herrors'.trans herrors.symm⟩
  -- The values agree everywhere, so what is decided about the fields that follow from both does.
  have hvalue : ((s.set b vb).session.set a va).session.state.value =
      ((s.set a va).session.set b vb).session.state.value := by
    funext k
    by_cases hk : s.plan.Reaches a k ∧ s.plan.Reaches b k
    · obtain ⟨f, hf, rfl, hak, hbk, hun⟩ := hab.exists_unwritten hp hk.1 hk.2
      exact (hkept f hf hak hbk hun).1
    · exact (houtside k hk).value
  have hsettled := ((h.set a va).set b vb).sound.settled
  have hsettled' := ((h.set b vb).set a va).sound.settled
  rw [plan_set, hplan] at hsettled
  rw [plan_set, hplan'] at hsettled'
  refine State.agrees_of_alike fun k => ?_
  by_cases hk : s.plan.Reaches a k ∧ s.plan.Reaches b k
  · obtain ⟨f, hf, rfl, hak, hbk, hun⟩ := hab.exists_unwritten hp hk.1 hk.2
    exact State.alike_of_settled (hsettled f hf) (hsettled' f hf) hun hvalue
      (hkept f hf hak hbk hun).2
  · exact houtside k hk

end Session

/-! ## A form -/

/-- A dinner: a number of guests and one of children, and a note. More than 5 guests show the note,
and children require it. -/
def dinnerForm : Schema :=
  { orderForm with
    id := "dinner"
    title := "Dinner"
    fields := [
      orderForm.field "guests" .number none true,
      orderForm.field "children" .number none true,
      orderForm.field "note" .text none false]
    rules := [
      orderForm.rule "shown" "guests" 5 "note" .visibility (.bool true),
      orderForm.rule "needed" "children" 0 "note" .required (.bool true)] }

theorem order_dinnerForm :
    (Graph.ofSchema dinnerForm).order = .ok ["guests", "children", "note"] :=
  Graph.order_eq_ok_of_advance (by decide +kernel)

theorem descendantKeys_dinnerForm {key : String} {i : ℕ}
    (hkey : (Graph.ofSchema dinnerForm).node? key = some i)
    (hnext : (Graph.ofSchema dinnerForm).next i = [2]) :
    (Graph.ofSchema dinnerForm).descendantKeys key = ["note"] := by
  have hsize : (Graph.ofSchema dinnerForm).size = 3 := by decide +kernel
  have hlast : (Graph.ofSchema dinnerForm).next 2 = [] := by decide +kernel
  have hdescendants : (Graph.ofSchema dinnerForm).descendants i = [2] := by
    rw [Graph.descendants, hsize, hnext]
    simp [Graph.reach, hlast]
  rw [Graph.descendantKeys, hkey]
  dsimp only
  rw [hdescendants]
  decide +kernel

/-- The numbers of guests and of children can be written in any order. -/
theorem Session.dinner_set_comm :
    ∃ s : Session, (s.Reachable ∧
        writable s.plan.schema "guests" "set_value" = .ok dinnerForm.fields[0] ∧
        writable s.plan.schema "children" "set_value" = .ok dinnerForm.fields[1] ∧
        s.plan.Independent "guests" "children") ∧
      ((s.set "guests" (.int 8)).session.set "children" (.int 2)).session.state.Agrees s.plan
        ((s.set "children" (.int 2)).session.set "guests" (.int 8)).session.state := by
  obtain ⟨s, hs, hplan⟩ := exists_opened (by decide +kernel) order_dinnerForm (by decide +kernel)
    (by decide +kernel) Pattern.search
  have hguests : s.plan.graph.descendantKeys "guests" = ["note"] := by
    rw [hplan]
    exact descendantKeys_dinnerForm (i := 0) (by decide +kernel) (by decide +kernel)
  have hchildren : s.plan.graph.descendantKeys "children" = ["note"] := by
    rw [hplan]
    exact descendantKeys_dinnerForm (i := 1) (by decide +kernel) (by decide +kernel)
  have hfirst : writable s.plan.schema "guests" "set_value" = .ok dinnerForm.fields[0] := by
    rw [hplan]
    rfl
  have hsecond : writable s.plan.schema "children" "set_value" = .ok dinnerForm.fields[1] := by
    rw [hplan]
    rfl
  have hindependent : s.plan.Independent "guests" "children" :=
    { ne := by decide
      not_below := by rw [hguests]; decide
      not_above := by rw [hchildren]; decide
      shared := fun f hf _ _ => by
        rw [hplan] at hf ⊢
        exact ⟨(by decide +kernel : ∀ f ∈ dinnerForm.fields, f.isComputed = false) f hf,
          fun r hr _ => (by decide +kernel : ∀ r ∈ dinnerForm.rules, r.effect ≠ .setValue) r hr⟩ }
  exact ⟨s, ⟨.opened hs, hfirst, hsecond, hindependent⟩,
    Reachable.set_comm (.opened hs) hfirst hsecond hindependent _ _⟩

end LiveForm
