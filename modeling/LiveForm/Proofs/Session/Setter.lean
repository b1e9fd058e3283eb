import LiveForm.Proofs.Value.Reflexive
import LiveForm.Proofs.Session.Pass

/-!
# Values set by rules in a pass

After a write a pass applies, at each field, the last satisfied rule that sets its value and whose
trigger has changed. Which rule that is can still be told at the end of the pass, since nothing
that the rule reads is written later.

* `Plan.setter?`: the last satisfied rule on a field whose trigger has moved;
* `Pass.Untouched`, `Pass.SetBy`, `Pass.Decided`, `Pass.Marked`: what a pass has made of a field;
* `Pass.decided_visit`, `Pass.marked_visit`: what a visit makes of its field;
* **`decided_propagate`, `marked_propagate`, `written_propagate`**: what the pass of a write makes
  of each field.
-/

namespace LiveForm

variable {p : Plan} {s : State} {f : Field} {key : String} {full : Bool}

/-! ## The rule that sets a value -/

/-- The last rule that sets the value of a target, is satisfied in a state, and whose trigger has
moved. -/
def Plan.setter? (p : Plan) (moved : String → Bool) (s : State) (target : String) : Option Rule :=
  ((p.schema.rules.filter (Rule.aims target .setValue)).filter fun r =>
    p.satisfied s r && moved r.trigger).getLast?

theorem Plan.mem_of_setter? {moved : String → Bool} {w : Rule}
    (h : p.setter? moved s key = some w) : w ∈ p.schema.rules :=
  (List.mem_filter.mp (List.mem_filter.mp (List.mem_of_getLast? h)).1).1

theorem Plan.setter?_congr {s' : State} {moved moved' : String → Bool}
    (h : ∀ k, p.schema.Feeds k key → s'.value k = s.value k ∧ moved' k = moved k) :
    p.setter? moved' s' key = p.setter? moved s key := by
  rw [setter?, setter?, List.filter_congr fun r hr => ?_]
  obtain ⟨hr, haims⟩ := List.mem_filter.mp hr
  obtain ⟨hvalue, hmoved⟩ := h r.trigger ((Rule.aims_iff.mp haims).1 ▸ Schema.feeds_of_rule hr)
  rw [satisfied_congr hvalue, hmoved]

namespace Pass

variable {a b : Pass} {old : Value} {w : Rule}

theorem setter?_eq_winner? (p : Plan) (a : Pass) (key : String) :
    p.setter? a.dirty.contains a.state key = (winner? p a key).map Prod.snd := by
  rw [winner?, live, List.filter_filter, ← List.getLast?_map, Plan.setter?,
    ← Plan.map_snd_rulesFor, List.filter_map]
  rfl

theorem setter?_of_touches {k : String} (ht : Touches p k a b) (hfeeds : ¬ p.schema.Feeds k key) :
    p.setter? b.dirty.contains b.state key = p.setter? a.dirty.contains a.state key := by
  apply Plan.setter?_congr
  intro d hd
  have hne : d ≠ k := fun he => hfeeds (he ▸ hd)
  refine ⟨ht.value d hne, ?_⟩
  rw [Bool.eq_iff_iff, List.contains_iff_mem, List.contains_iff_mem]
  exact ht.dirty d hne

/-! ## What a pass makes of a field -/

/-- The field has its old value and is not marked, and no rule has set it. -/
structure Untouched (a : Pass) (key : String) (old : Value) : Prop where
  not_dirty : key ∉ a.dirty
  value : a.state.value key = old
  no_setter : a.setters.get? key = none

/-- A rule has set the field to another value. -/
structure SetBy (a : Pass) (key : String) (old : Value) (w : Rule) : Prop where
  differs : old.same w.effectValue = false
  dirty : key ∈ a.dirty
  value : a.state.value key = w.effectValue
  setter : a.setters.get? key = some w.id

/-- **The rule that sets a field, if there is one, has been applied.** -/
structure Decided (p : Plan) (a : Pass) (key : String) (old : Value) : Prop where
  without : p.setter? a.dirty.contains a.state key = none → a.Untouched key old
  applied : ∀ w, p.setter? a.dirty.contains a.state key = some w →
    old.same w.effectValue = true ∧ a.Untouched key old ∨ a.SetBy key old w

/-- A field is marked if and only if its value differs from the old one. -/
def Marked (a : Pass) (key : String) (old : Value) : Prop :=
  key ∉ a.dirty ∧ a.state.value key = old ∨
    key ∈ a.dirty ∧ old.same (a.state.value key) = false

theorem Untouched.touched {k : String} (h : a.Untouched key old) (ht : Touches p k a b)
    (hk : k ≠ key) : b.Untouched key old where
  not_dirty hd := h.not_dirty ((ht.dirty key hk.symm).mp hd)
  value := (ht.value key hk.symm).trans h.value
  no_setter := (ht.setters key hk.symm).trans h.no_setter

theorem SetBy.touched {k : String} (h : a.SetBy key old w) (ht : Touches p k a b) (hk : k ≠ key) :
    b.SetBy key old w where
  differs := h.differs
  dirty := (ht.dirty key hk.symm).mpr h.dirty
  value := (ht.value key hk.symm).trans h.value
  setter := (ht.setters key hk.symm).trans h.setter

theorem Decided.touched {k : String} (h : Decided p a key old) (ht : Touches p k a b)
    (hk : k ≠ key) (hfeeds : ¬ p.schema.Feeds k key) : Decided p b key old where
  without hnone := by
    rw [setter?_of_touches ht hfeeds] at hnone
    exact (h.without hnone).touched ht hk
  applied w hw := by
    rw [setter?_of_touches ht hfeeds] at hw
    exact (h.applied w hw).imp (fun h => ⟨h.1, h.2.touched ht hk⟩) fun h => h.touched ht hk

theorem Marked.touched {k : String} (h : a.Marked key old) (ht : Touches p k a b) (hk : k ≠ key) :
    b.Marked key old := by
  rw [Marked, ht.dirty key hk.symm, ht.value key hk.symm]
  exact h

theorem Decided.marked (h : Decided p a key old) : a.Marked key old := by
  cases hw : p.setter? a.dirty.contains a.state key with
  | none => exact Or.inl ⟨(h.without hw).not_dirty, (h.without hw).value⟩
  | some w =>
    rcases h.applied w hw with ⟨-, hsame⟩ | hset
    · exact Or.inl ⟨hsame.not_dirty, hsame.value⟩
    · exact Or.inr ⟨hset.dirty, by rw [hset.value]; exact hset.differs⟩

theorem Decided.setBy_of_differs (h : Decided p a key old) (hold : old.isNaN = false)
    (hdiffers : old.same (a.state.value key) = false) :
    ∃ w, p.setter? a.dirty.contains a.state key = some w ∧ a.SetBy key old w := by
  have hmoved : ¬ a.Untouched key old := by
    intro hu
    rw [hu.value, Value.same_refl hold] at hdiffers
    exact Bool.noConfusion hdiffers
  cases hw : p.setter? a.dirty.contains a.state key with
  | none => exact absurd (h.without hw) hmoved
  | some w => exact ⟨w, rfl, (h.applied w hw).resolve_left fun hu => hmoved hu.2⟩

theorem Decided.untouched_of_same (h : Decided p a key old)
    (hsame : old.same (a.state.value key) = true) : a.Untouched key old := by
  cases hw : p.setter? a.dirty.contains a.state key with
  | none => exact h.without hw
  | some w =>
    rcases h.applied w hw with ⟨-, hu⟩ | hset
    · exact hu
    · rw [hset.value, hset.differs] at hsame
      exact Bool.noConfusion hsame

theorem Decided.same_effectValue (h : Decided p a key old) (hw : p.setter? a.dirty.contains a.state
    key = some w) (hn : w.effectValue.isNaN = false) :
    (a.state.value key).same w.effectValue = true := by
  rcases h.applied w hw with ⟨hsame, hu⟩ | hset
  · rw [hu.value]
    exact hsame
  · rw [hset.value]
    exact Value.same_refl hn

/-! ## The visit of a field -/

theorem untouched_visitDerived (hf : f.isComputed = false) (h : a.Untouched f.key old) :
    (a.visitDerived p full f).Untouched f.key old := by
  have hformula : a.visitFormula p full f = a := by
    rw [Field.isComputed, Option.isSome_eq_false_iff, Option.isNone_iff_eq_none] at hf
    rw [visitFormula, hf]
  obtain ⟨hvalue, hdirty, hsetters⟩ := visitDerived_frame p full f a
  rw [hformula] at hvalue hdirty hsetters
  exact ⟨by rw [hdirty]; exact h.not_dirty, by rw [hvalue]; exact h.value,
    by rw [hsetters]; exact h.no_setter⟩

theorem decided_visitSetters (hp : p.WellFormed) (hf : f.isComputed = false)
    (h : a.Untouched f.key old) : Decided p (a.visitSetters p f) f.key old := by
  -- The field feeds none of its own rules, so its rule is the same before and after it is written.
  have hsetter : p.setter? (a.visitSetters p f).dirty.contains (a.visitSetters p f).state f.key =
      (winner? p a f.key).map Prod.snd := by
    rw [setter?_of_touches (touches_visitSetters p f a) (hp.not_feeds_self f.key),
      setter?_eq_winner?]
  have hjudged : (a.settersJudged p f.key).Untouched f.key old :=
    ⟨h.not_dirty, h.value, h.no_setter⟩
  cases hw : winner? p a f.key with
  | none =>
    rw [hw] at hsetter
    constructor
    · intro _
      rw [visitSetters_of_none hw]
      exact hjudged
    · intro w hsome
      rw [hsetter] at hsome
      cases hsome
  | some e =>
    rw [hw] at hsetter
    constructor
    · intro hnone
      rw [hsetter] at hnone
      cases hnone
    · intro w hsome
      rw [hsetter] at hsome
      obtain rfl := Option.some.inj hsome
      rw [visitSetters_of_some hw, applySetter, if_neg (Bool.eq_false_iff.mp hf), hjudged.value]
      split
      · next hsame => exact Or.inl ⟨hsame, hjudged⟩
      · next hdiffers =>
        exact Or.inr ⟨Bool.eq_false_iff.mpr hdiffers, List.mem_cons_self,
          (value_write _ _ _ _).trans (if_pos rfl), (Table.get?_set _ _ _ _).trans (if_pos rfl)⟩

/-- **The visit of a field that is not computed applies the rule that sets it.** -/
theorem decided_visit (hp : p.WellFormed) (hf : f ∈ p.schema.fields) (hc : f.isComputed = false)
    (h : a.Untouched f.key old) : Decided p (visit p false a f.key) f.key old := by
  rw [visit_of_field? (hp.field?_key hf), if_neg Bool.false_ne_true]
  exact decided_visitSetters hp hc (untouched_visitDerived hc h)

theorem marked_recompute {fo : Formula} (h : a.Untouched key old) :
    (a.recompute p key fo).Marked key old := by
  cases heval : fo.evaluate p.formulas a.state.value with
  | error fault =>
    rw [recompute_of_error heval, formulaJudged_eq]
    exact Or.inl ⟨h.not_dirty, h.value⟩
  | ok result =>
    obtain ⟨lines, hrun⟩ := exists_recompute_of_ok key heval
    rw [hrun, formulaJudged_eq, h.value]
    dsimp only
    split
    · exact Or.inl ⟨h.not_dirty, h.value⟩
    · next hdiffers =>
      refine Or.inr ⟨List.mem_cons_self, ?_⟩
      rw [value_write, if_pos rfl]
      exact Bool.eq_false_iff.mpr hdiffers

theorem marked_visitFormula (p : Plan) (full : Bool) (h : a.Untouched f.key old) :
    (a.visitFormula p full f).Marked f.key old := by
  rw [visitFormula]
  split
  · split
    · exact marked_recompute h
    · exact Or.inl ⟨h.not_dirty, h.value⟩
  · exact Or.inl ⟨h.not_dirty, h.value⟩

/-- **The visit of a field marks it if and only if it writes another value.** -/
theorem marked_visit (hp : p.WellFormed) (hf : f ∈ p.schema.fields) (h : a.Untouched f.key old) :
    (visit p false a f.key).Marked f.key old := by
  cases hc : f.isComputed with
  | false => exact (decided_visit hp hf hc h).marked
  | true =>
    obtain ⟨hvalue, hdirty, -⟩ := visitDerived_frame p false f a
    obtain ⟨hdata', hdirty', -⟩ := visitSetters_of_computed p (a.visitDerived p false f) hc
    have hformula := marked_visitFormula p false h
    rw [visit_of_field? (hp.field?_key hf), if_neg Bool.false_ne_true, Marked, hdirty',
      State.value_eq_of_data_eq hdata', hvalue, hdirty]
    exact hformula

end Pass

/-! ## The pass of a write -/

section Propagate

variable {v : Value}

theorem Pass.untouched_start (hkey : f.key ≠ key) :
    Pass.Untouched { state := { s with data := s.data.set key v }, dirty := [key] } f.key
      (s.value f.key) where
  not_dirty hd := hkey (List.mem_singleton.mp hd)
  value := by rw [State.value, Table.get?_set, if_neg (Ne.symm hkey), State.value]
  no_setter := rfl

theorem decided_propagate (hp : p.WellFormed) (hmem : key ∈ p.schema.fieldKeys)
    (hf : f ∈ p.schema.fields) (hc : f.isComputed = false) (hkey : f.key ≠ key) :
    Pass.Decided p (propagate p { s with data := s.data.set key v } key) f.key
      (s.value f.key) := by
  rw [propagate_eq_run hp hmem]
  exact Pass.run_through (p := p) (P := fun a => a.Untouched f.key (s.value f.key))
    (Q := fun a => Pass.Decided p a f.key (s.value f.key)) hp.pairwise_order
    (hp.field_mem_order hf) (fun k hk a h => h.touched (Pass.touches_visit p false a k) hk)
    (fun a => Pass.decided_visit hp hf hc)
    (fun k hk hfeeds a h => h.touched (Pass.touches_visit p false a k) hk hfeeds)
    (Pass.untouched_start hkey)

theorem marked_propagate (hp : p.WellFormed) (hmem : key ∈ p.schema.fieldKeys)
    (hf : f ∈ p.schema.fields) (hkey : f.key ≠ key) :
    Pass.Marked (propagate p { s with data := s.data.set key v } key) f.key (s.value f.key) := by
  rw [propagate_eq_run hp hmem]
  exact Pass.run_through (p := p) (P := fun a => a.Untouched f.key (s.value f.key))
    (Q := fun a => a.Marked f.key (s.value f.key)) hp.pairwise_order
    (hp.field_mem_order hf) (fun k hk a h => h.touched (Pass.touches_visit p false a k) hk)
    (fun a => Pass.marked_visit hp hf)
    (fun k hk _ a h => h.touched (Pass.touches_visit p false a k) hk)
    (Pass.untouched_start hkey)

/-- **The written field is left as it was written.** Only fields after it are visited. -/
theorem written_propagate (hp : p.WellFormed) (hmem : key ∈ p.schema.fieldKeys) :
    (propagate p { s with data := s.data.set key v } key).state.value key = v ∧
      key ∈ (propagate p { s with data := s.data.set key v } key).dirty ∧
      (propagate p { s with data := s.data.set key v } key).setters.get? key = none := by
  obtain ⟨pre, post, horder⟩ := List.append_of_mem (hp.mem_order.mpr hmem)
  have hpost : ∀ k ∈ post, k ≠ key := by
    intro k hk
    have hpairwise := hp.pairwise_order
    rw [horder, List.pairwise_append, List.pairwise_cons] at hpairwise
    exact Ne.symm (hpairwise.2.1.1 k hk).1
  rw [propagate_eq_run_after hp horder]
  -- The fields up to the written one are not visited, and those after it do not touch it.
  refine Pass.run_keeps (P := fun a => a.state.value key = v ∧ key ∈ a.dirty ∧
    a.setters.get? key = none) ?_ ⟨?_, List.mem_cons_self, rfl⟩
  · intro k hk a h
    have ht := Pass.touches_visit p false a k
    have hne := Ne.symm (hpost k hk)
    exact ⟨(ht.value key hne).trans h.1, (ht.dirty key hne).mpr h.2.1,
      (ht.setters key hne).trans h.2.2⟩
  · rw [State.value, Table.get?_set, if_pos rfl, Option.getD_some]

end Propagate

end LiveForm
