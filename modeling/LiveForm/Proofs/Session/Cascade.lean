import LiveForm.Proofs.Session.Change
import LiveForm.Proofs.Session.Recheck
import LiveForm.Proofs.Session.Setter
import LiveForm.Proofs.Session.Start

/-!
# The cascade of a write

A write goes on through rules that set values, which are judged on a state that is half written.
What comes of it is nevertheless told by the states before and after: the rules that were applied
are those whose triggers have moved and that are satisfied at the end.

* `dirty_propagate`: what a pass has marked is what has moved;
* `Session.Cascade`: what a write leads to, in terms of the states before and after;
* **`Session.Reachable.set_cascade`**: every accepted write leads to it.
-/

namespace LiveForm

variable {p : Plan} {s : State} {key : String} {v : Value}

/-- **What is marked is what has moved.** -/
theorem dirty_propagate (hp : p.WellFormed) (hmem : key ∈ p.schema.fieldKeys) (hn : s.NaNFree)
    (hv : (s.value key).same v = false) {k : String} (hk : k ∈ p.schema.fieldKeys) :
    (propagate p { s with data := s.data.set key v } key).dirty.contains k =
      s.moved (propagate p { s with data := s.data.set key v } key).state k := by
  obtain ⟨hvalue, hdirty, -⟩ := written_propagate (s := s) (v := v) hp hmem
  by_cases hkey : k = key
  · subst hkey
    rw [List.contains_iff_mem.mpr hdirty, Eq.comm, State.moved_eq_true, hvalue]
    exact hv
  · obtain ⟨f, hf, rfl⟩ := List.mem_map.mp hk
    rcases marked_propagate (s := s) (v := v) hp hmem hf hkey with ⟨hclean, hsame⟩ | ⟨hd, hdiffers⟩
    · rw [Bool.eq_false_iff.mpr fun hc => hclean (List.contains_iff_mem.mp hc), Eq.comm,
        State.moved_eq_false, hsame]
      exact Value.same_refl (hn f.key)
    · rw [List.contains_iff_mem.mpr hd, Eq.comm, State.moved_eq_true]
      exact hdiffers

/-! ## Writes -/

namespace Session

/-- **What a write leads to**, told by the states before and after. -/
structure Cascade (p : Plan) (before after : State) (key : String) (v : Value)
    (changes : ChangeSet) : Prop where
  /-- The written field has its new value. -/
  value : after.value key = v
  /-- Another field has the value that the last rule sets whose trigger has moved and which is
  satisfied at the end. -/
  set_by_rule : ∀ f ∈ p.schema.fields, f.isComputed = false → f.key ≠ key →
    ∀ w, p.setter? (before.moved after) after f.key = some w →
      (after.value f.key).same w.effectValue = true
  /-- Without such a rule it has the value that it had. -/
  left_alone : ∀ f ∈ p.schema.fields, f.isComputed = false → f.key ≠ key →
    p.setter? (before.moved after) after f.key = none → after.value f.key = before.value f.key
  /-- When its value has moved, there is such a rule, and it is reported with that rule. -/
  rule_of_moved : ∀ f ∈ p.schema.fields, f.isComputed = false → f.key ≠ key →
    before.moved after f.key = true →
      ∃ w, p.setter? (before.moved after) after f.key = some w ∧
        (∃ c ∈ changes.changes, c.key = f.key) ∧
        ∀ c ∈ changes.changes, c.key = f.key → c.ruleId = some w.id
  /-- When its value has not moved, it is reported without a rule, if at all. -/
  no_rule_of_still : ∀ f ∈ p.schema.fields, f.isComputed = false → f.key ≠ key →
    before.moved after f.key = false → ∀ c ∈ changes.changes, c.key = f.key → c.ruleId = none
  /-- The written field is reported. -/
  reported : ∃ c ∈ changes.changes, c.key = key
  /-- Its value is the user's, and no rule's. -/
  by_user : ∀ c ∈ changes.changes, c.key = key →
    Aspect.value ∈ c.aspects ∧ c.origin = .user ∧ c.ruleId = none
  /-- All else is reported as following from it. -/
  by_engine : ∀ c ∈ changes.changes, c.key ≠ key → c.origin = .engine

variable {before after : State} {pass : Pass} {c : FieldChange}

theorem entry_of_write {trigger : Option String} {origin : Origin}
    (h : c ∈ (ChangeSet.between p before after trigger origin [key] pass.setters).changes) :
    c.aspects = ChangeSet.aspectsOf p before after c.key ∧ c.ruleId = pass.setters.get? c.key ∧
      c.origin = if c.key = key ∧ Aspect.value ∈ c.aspects ∧ c.ruleId = none
        then .user else .engine := by
  obtain ⟨k, -, hk⟩ := ChangeSet.mem_between.mp h
  obtain ⟨rfl, haspects, hrule, horigin⟩ := ChangeSet.changeOf?_eq_some hk
  refine ⟨haspects, hrule, horigin.trans ?_⟩
  simp [and_assoc]

theorem setter?_moved (hp : p.WellFormed) (hmem : key ∈ p.schema.fieldKeys)
    (hn : before.NaNFree) (hv : (before.value key).same v = false)
    (hpass : pass = propagate p { before with data := before.data.set key v } key)
    (hafter : after.value = pass.state.value) (k : String) :
    p.setter? (before.moved after) after k = p.setter? pass.dirty.contains pass.state k := by
  refine Plan.setter?_congr fun d hd => ⟨by rw [hafter], ?_⟩
  have hdeclared := (Schema.declared_of_feeds hp.problems hd).1
  rw [hpass, dirty_propagate hp hmem hn hv hdeclared, ← hpass, State.moved, State.moved, hafter]

/-- **Every accepted write of a new value leads to its cascade**, where no value of the form before
and no value that rules set is a NaN. It is answered with the changes, unless it is interrupted. -/
theorem Reachable.set_cascade {s : Session} (h : s.Reachable) {f : Field}
    (hf : writable s.plan.schema key "set_value" = .ok f)
    (hv : (s.state.value key).same v = false) (hn : s.state.NaNFree)
    (hrules : ∀ r ∈ s.plan.schema.rules, r.effectValue.isNaN = false) :
    ∃ changes, (¬ (s.set key v).Interrupted → (s.set key v).answer = .ok changes) ∧
      Cascade s.plan s.state (s.set key v).session.state key v changes := by
  have hp := h.sound.planned.toWellFormed
  have hmem := mem_fieldKeys_of_writable hf
  refine ⟨_, answer_set_of_ne hf hv, ?_⟩
  rw [state_set_of_ne hf hv]
  set pass := propagate s.plan { s.state with data := s.state.data.set key v } key with hpass
  set after := s.written key v with hwritten
  have hafter : after.value = pass.state.value := value_written s key v
  have hsetter := setter?_moved hp hmem hn hv hpass hafter
  obtain ⟨hvalue, -, hkeysetter⟩ := written_propagate (s := s.state) (v := v) hp hmem
  have hkey : after.value key = v := by rw [hafter]; exact hvalue
  have hmoved : s.state.moved after key = true := by
    rw [State.moved_eq_true, hkey]
    exact hv
  have hdecided : ∀ g ∈ s.plan.schema.fields, g.isComputed = false → g.key ≠ key →
      Pass.Decided s.plan pass g.key (s.state.value g.key) :=
    fun g hg hc hne => decided_propagate hp hmem hg hc hne
  refine ⟨hkey, ?_, ?_, ?_, ?_, ?_, ?_, ?_⟩
  · intro g hg hc hne w hw
    rw [hsetter] at hw
    rw [hafter]
    exact (hdecided g hg hc hne).same_effectValue hw (hrules w (Plan.mem_of_setter? hw))
  · intro g hg hc hne hnone
    rw [hsetter] at hnone
    rw [hafter]
    exact ((hdecided g hg hc hne).without hnone).value
  · intro g hg hc hne hm
    rw [State.moved_eq_true, hafter] at hm
    obtain ⟨w, hw, hset⟩ := (hdecided g hg hc hne).setBy_of_differs (hn g.key) hm
    refine ⟨w, (hsetter g.key).trans hw, ?_, ?_⟩
    · refine ChangeSet.exists_mem_between (List.mem_map_of_mem hg) ?_
      rw [State.moved_eq_true, hafter]
      exact hm
    · intro c hmemc hck
      obtain ⟨-, hrule, -⟩ := entry_of_write hmemc
      rw [hrule, hck, hset.setter]
  · intro g hg hc hne hstill c hmemc hck
    rw [State.moved_eq_false, hafter] at hstill
    obtain ⟨-, hrule, -⟩ := entry_of_write hmemc
    rw [hrule, hck, ((hdecided g hg hc hne).untouched_of_same hstill).no_setter]
  · exact ChangeSet.exists_mem_between hmem hmoved
  · intro c hc hck
    obtain ⟨haspects, hrule, horigin⟩ := entry_of_write hc
    rw [hck, hkeysetter] at hrule
    have hreported : Aspect.value ∈ c.aspects := by
      rw [haspects, hck]
      exact ChangeSet.value_mem_aspectsOf.mpr hmoved
    exact ⟨hreported, horigin.trans (if_pos ⟨hck, hreported, hrule⟩), hrule⟩
  · intro c hc hck
    obtain ⟨-, -, horigin⟩ := entry_of_write hc
    exact horigin.trans (if_neg fun hall => hck hall.1)

/-- The cascade of a price in an order that was just opened. -/
theorem order_set_cascade :
    ∃ s : Session, (s.Reachable ∧
        writable s.plan.schema "price" "set_value" = .ok orderForm.fields[0] ∧
        (s.state.value "price").same (.int 10) = false ∧ s.state.NaNFree ∧
        (∀ r ∈ s.plan.schema.rules, r.effectValue.isNaN = false) ∧
        ¬ (s.set "price" (.int 10)).Interrupted) ∧
      ∃ changes, (s.set "price" (.int 10)).answer = .ok changes ∧
        Cascade s.plan s.state (s.set "price" (.int 10)).session.state "price" (.int 10)
          changes := by
  obtain ⟨s, hs, hplan, hstate⟩ := exists_order
  have hf : writable s.plan.schema "price" "set_value" = .ok orderForm.fields[0] := by
    rw [hplan]
    rfl
  have hv : (s.state.value "price").same (.int 10) = false := by
    rw [hstate]
    decide +kernel
  have hn : s.state.NaNFree := hstate ▸ nanFree_orderState
  have hrules : ∀ r ∈ s.plan.schema.rules, r.effectValue.isNaN = false := by
    rw [hplan]
    decide +kernel
  have hcalm : ¬ (s.set "price" (.int 10)).Interrupted := by
    rw [interrupted_set_iff hf hv, afterWrite, interruption_of_unchecked]
    · rintro ⟨cause, hcause⟩
      cases hcause
    · rw [propagate, Pass.checkErrors_run, hstate]
      decide +kernel
  obtain ⟨changes, hanswer, hcascade⟩ := Reachable.set_cascade (.opened hs) hf hv hn hrules
  exact ⟨s, ⟨.opened hs, hf, hv, hn, hrules, hcalm⟩, changes, hanswer hcalm, hcascade⟩

end Session

end LiveForm
