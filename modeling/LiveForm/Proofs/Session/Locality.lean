import Mathlib.Data.List.Induction
import LiveForm.Proofs.Session.Alike
import LiveForm.Proofs.Session.Reachable

/-!
# What a run depends on

What a run leaves at a field depends only on the fields that the field follows from. So two runs
that start alike on some fields, and on all that feeds these, end alike on them, and the order of
the fields in the runs does not matter as long as each comes after those that feed it.

* `Pass.alike_run`: a run leaves the fields alone that it does not visit;
* `Pass.exists_visited`: a run in order, seen from one of its fields;
* **`Pass.Alike.run`**: runs that start alike on fields and all that feeds these end alike there;
* `propagate_alike`, `settleAll_alike`: both kinds of pass do;
* `Session.set_alike`, `Session.alike_set`: writes of one value go alike, and a write leaves the
  fields alone that do not follow from the written one.
-/

namespace LiveForm

variable {σ : ℕ → ℕ} {p p' : Plan} {s s' : State} {key : String} {full : Bool} {v : Value}

namespace Pass

variable {a a' : Pass} {nodes nodes' pre post : List String}

theorem alike_run (h : key ∉ nodes) (a : Pass) : Alike id p key a (run p full a nodes) :=
  run_keeps (P := Alike id p key a) (fun k hk b hb =>
    hb.trans ((touches_visit p full b k).alike fun he => h (he ▸ hk))) (Alike.refl p key a)

/-- **A run in order, seen from one of its fields**: before the visit the field is as at the start,
after it as at the end, and what feeds it is as at the end already. -/
theorem exists_visited (full : Bool) (hnodes : (pre ++ key :: post).Pairwise fun i j =>
      i ≠ j ∧ ¬ p.schema.Feeds j i) (hself : ¬ p.schema.Feeds key key) (a : Pass) :
    ∃ c, Alike id p key a c ∧
      Alike id p key (visit p full c key) (run p full a (pre ++ key :: post)) ∧
      ∀ d, p.schema.Feeds d key → Alike id p d c (run p full a (pre ++ key :: post)) := by
  obtain ⟨-, hrest, hbefore⟩ := List.pairwise_append.mp hnodes
  obtain ⟨hlater, -⟩ := List.pairwise_cons.mp hrest
  rw [run_append]
  refine ⟨run p full a pre, alike_run ?_ a, alike_run ?_ _, fun d hd => alike_run ?_ _⟩
  · exact fun hmem => (hbefore key hmem key List.mem_cons_self).1 rfl
  · exact fun hmem => (hlater key hmem).1 rfl
  · intro hmem
    rcases List.mem_cons.mp hmem with rfl | hmem
    · exact hself hd
    · exact (hlater d hmem).2 hd

/-- **Runs that start alike end alike**, on fields among which are all that feed them. The two may
visit the fields in different orders. -/
theorem Alike.run (among : String → Prop) (hσ : p.Renumbers σ p')
    (hnodes : nodes.Pairwise fun i j => i ≠ j ∧ ¬ p.schema.Feeds j i)
    (hnodes' : nodes'.Pairwise fun i j => i ≠ j ∧ ¬ p'.schema.Feeds j i)
    (hself : ∀ k, ¬ p.schema.Feeds k k) (hamong : ∀ d k, p.schema.Feeds d k → among k → among d)
    (hmem : ∀ k, k ∈ nodes ↔ k ∈ nodes') (h : ∀ k, among k → Alike σ p k a a') :
    ∀ k, among k → Alike σ p k (Pass.run p full a nodes) (Pass.run p' full a' nodes') := by
  have hout : ∀ k, among k → k ∉ nodes →
      Alike σ p k (Pass.run p full a nodes) (Pass.run p' full a' nodes') := by
    intro k hk hnot
    have hnot' : k ∉ nodes' := fun hk' => hnot ((hmem k).mpr hk')
    exact ((alike_run hnot a).symm.trans (h k hk)).trans_right hσ (alike_run hnot' a')
  -- By induction on how much of the first run has passed: what feeds a field came before it.
  have hprefix : ∀ pre post, nodes = pre ++ post → ∀ k ∈ pre, among k →
      Alike σ p k (Pass.run p full a nodes) (Pass.run p' full a' nodes') := by
    intro pre
    induction pre using List.reverseRecOn with
    | nil => exact fun _ _ _ hk => absurd hk List.not_mem_nil
    | append_singleton pre key ih =>
      intro post hsplit k hk hamongk
      rw [List.append_assoc, List.singleton_append] at hsplit
      rcases List.mem_append.mp hk with hk | hk
      · exact ih _ hsplit k hk hamongk
      obtain rfl := List.mem_singleton.mp hk
      have hkmem : k ∈ nodes := hsplit ▸ List.mem_append_right pre List.mem_cons_self
      obtain ⟨pre', post', hsplit'⟩ := List.append_of_mem ((hmem k).mp hkmem)
      have hself' : ¬ p'.schema.Feeds k k := fun hf => hself k ((hσ.feeds k k).mp hf)
      obtain ⟨c, hstart, hend, hfed⟩ := exists_visited full (hsplit ▸ hnodes) (hself k) a
      obtain ⟨c', hstart', hend', hfed'⟩ :=
        exists_visited full (hsplit' ▸ hnodes') hself' a'
      rw [← hsplit] at hend hfed
      rw [← hsplit'] at hend' hfed'
      have hvisit := (hstart.symm.trans (h k hamongk)).trans_right hσ hstart'
      refine (hend.symm.trans (hvisit.visit hσ (hself k) ?_)).trans_right hσ hend'
      intro d hd
      have hfinal : Alike σ p d (Pass.run p full a nodes) (Pass.run p' full a' nodes') := by
        by_cases hdmem : d ∈ pre
        · exact ih _ hsplit d hdmem (hamong d k hd hamongk)
        · refine hout d (hamong d k hd hamongk) fun hdnodes => hdmem ?_
          rw [hsplit] at hnodes hdnodes
          exact Schema.mem_of_feeds (hnodes.imp And.right) (hself k) hd hdnodes
      have hbefore := ((hfed d hd).trans hfinal).trans_right hσ
        (hfed' d ((hσ.feeds d k).mpr hd)).symm
      exact ⟨hbefore.value, hbefore.dirty⟩
  intro k hk
  by_cases hkmem : k ∈ nodes
  · exact hprefix nodes [] (List.append_nil nodes).symm k hkmem hk
  · exact hout k hk hkmem

end Pass

/-! ## Both kinds of pass -/

theorem Schema.mem_fieldKeys {schema : Schema} :
    key ∈ schema.fieldKeys ↔ (schema.field? key).isSome = true := by
  rw [fieldKeys, List.mem_map, field?, List.find?_isSome]
  simp only [beq_iff_eq]

theorem Plan.Renumbers.mem_order (h : p.Renumbers σ p') (hp : p.WellFormed) (hp' : p'.WellFormed) :
    key ∈ p.order ↔ key ∈ p'.order := by
  rw [hp.mem_order, hp'.mem_order, Schema.mem_fieldKeys, Schema.mem_fieldKeys, h.field?]

theorem State.value_set (s : State) (key k : String) (v : Value) :
    ({ s with data := s.data.set key v } : State).value k = if key = k then v else s.value k :=
  Pass.value_write { state := s, dirty := [] } key k v

theorem State.Alike.set {k : String} (h : State.Alike σ p k s s') (key : String) (v : Value) :
    State.Alike σ p k { s with data := s.data.set key v }
      { s' with data := s'.data.set key v } where
  value := by rw [value_set, value_set, h.value]
  flags := fun d => by
    cases d with
    | visibility => exact h.flags .visibility
    | required => exact h.flags .required
  formulaErrors := h.formulaErrors
  ruleErrors := h.ruleErrors

theorem State.Alike.withCheckErrors {k : String} (h : State.Alike σ p k s s')
    (errors errors' : Table String (List Notice)) :
    State.Alike σ p k { s with checkErrors := errors } { s' with checkErrors := errors' } :=
  { h with
    flags := fun d => by
      cases d with
      | visibility => exact h.flags .visibility
      | required => exact h.flags .required }

theorem propagate_alike (among : String → Prop) (hσ : p.Renumbers σ p') (hp : p.WellFormed)
    (hp' : p'.WellFormed)
    (hkey : key ∈ p.schema.fieldKeys) (hamong : ∀ d k, p.schema.Feeds d k → among k → among d)
    (h : ∀ k, among k → State.Alike σ p k s s') :
    ∀ k, among k → Pass.Alike σ p k (propagate p { s with data := s.data.set key v } key)
      (propagate p' { s' with data := s'.data.set key v } key) := by
  have hkey' : key ∈ p'.schema.fieldKeys := by
    rwa [Schema.mem_fieldKeys, hσ.field?, ← Schema.mem_fieldKeys]
  rw [propagate_eq_run hp hkey, propagate_eq_run hp' hkey']
  refine Pass.Alike.run among hσ hp.pairwise_order hp'.pairwise_order hp.not_feeds_self hamong
    (fun k => hσ.mem_order hp hp') fun k hk => ?_
  exact { (h k hk).set key v with
    dirty := Iff.rfl
    setters := rfl }

theorem settleAll_alike (hσ : p.Renumbers σ p') (hp : p.WellFormed) (hp' : p'.WellFormed)
    (h : ∀ k, State.Alike σ p k s s') (k : String) :
    Pass.Alike σ p k (settleAll p s) (settleAll p' s') := by
  refine Pass.Alike.run (fun _ => True) hσ hp.pairwise_order hp'.pairwise_order
    hp.not_feeds_self (fun _ _ _ _ => trivial) (fun k => hσ.mem_order hp hp') ?_ k trivial
  intro k _
  exact { h k with
    dirty := (hσ.mem_order hp hp').symm
    setters := rfl }

theorem alike_propagate {k : String} (hne : key ≠ k) (hk : k ∉ p.graph.descendantKeys key) :
    State.Alike id p k s (propagate p { s with data := s.data.set key v } key).state := by
  have hrun : Pass.Alike id p k { state := { s with data := s.data.set key v }, dirty := [key] }
      (propagate p { s with data := s.data.set key v } key) :=
    Pass.alike_run (fun hmem => hk (List.contains_iff_mem.mp (List.mem_filter.mp hmem).2)) _
  have hstart : State.Alike id p k s { s with data := s.data.set key v } :=
    { State.Alike.refl p k s with
      value := by rw [State.value_set, if_neg hne]
      flags := fun d => by cases d <;> rfl }
  exact hstart.trans hrun.toAlike

namespace Session

/-! ## Writes -/

variable {a b : Session} {before before' : State} {k : String}

theorem alike_recheck (h : State.Alike σ p k s s') :
    State.Alike σ p k (recheck p before s).state (recheck p' before' s').state := by
  obtain ⟨errors, he⟩ := recheck_eq p before s
  obtain ⟨errors', he'⟩ := recheck_eq p' before' s'
  rw [he, he']
  exact h.withCheckErrors errors errors'

theorem state_set_of_not (h : ∀ f, writable a.plan.schema key "set_value" = .ok f →
    (a.state.value key).same v = true) : (a.set key v).session.state = a.state := by
  obtain ⟨-, hstate | ⟨f, hf, hv, -⟩⟩ := set_cases a key v
  · exact hstate
  · rw [h f hf] at hv
    cases hv

theorem state_set_both (hfield : b.plan.schema.field? key = a.plan.schema.field? key)
    (hvalue : b.state.value key = a.state.value key) :
    (∃ f, writable a.plan.schema key "set_value" = .ok f ∧
        (a.set key v).session.state = a.written key v ∧
        (b.set key v).session.state = b.written key v) ∨
      ((a.set key v).session.state = a.state ∧ (b.set key v).session.state = b.state) := by
  have hwritable := writable_congr hfield "set_value"
  obtain ⟨f, hf, hv⟩ | hnot := a.new_or_not key v
  · exact Or.inl ⟨f, hf, state_set_of_ne hf hv,
      state_set_of_ne (hwritable.trans hf) (hvalue ▸ hv)⟩
  · exact Or.inr ⟨state_set_of_not hnot,
      state_set_of_not (by rw [hwritable, hvalue]; exact hnot)⟩

/-- **Writes of one value go alike** in sessions that are alike on the written field, on others, and
on all that feeds these. -/
theorem set_alike (among : String → Prop) (hσ : a.plan.Renumbers σ b.plan) (ha : a.plan.WellFormed)
    (hb : b.plan.WellFormed) (hamong : ∀ d k, a.plan.schema.Feeds d k → among k → among d)
    (hkey : among key) (h : ∀ k, among k → State.Alike σ a.plan k a.state b.state) :
    ∀ k, among k → State.Alike σ a.plan k (a.set key v).session.state
      (b.set key v).session.state := by
  obtain ⟨f, hf, hstate, hstate'⟩ | ⟨hstate, hstate'⟩ :=
    state_set_both (v := v) (hσ.field? key) (h key hkey).value
  · rw [hstate, hstate']
    intro k hk
    exact alike_recheck
      (propagate_alike among hσ ha hb (mem_fieldKeys_of_writable hf) hamong h k hk).toAlike
  · rw [hstate, hstate']
    exact h

/-- **A write leaves the fields alone that do not follow from the written one.** -/
theorem alike_set (s : Session) (v : Value) (hne : key ≠ k)
    (hk : k ∉ s.plan.graph.descendantKeys key) :
    State.Alike id s.plan k s.state (s.set key v).session.state := by
  obtain ⟨-, hstate | ⟨f, hf, hv, hstate⟩⟩ := set_cases s key v
  · rw [hstate]
    exact State.Alike.refl s.plan k s.state
  · obtain ⟨errors, he⟩ := recheck_eq s.plan s.state
      (propagate s.plan { s.state with data := s.state.data.set key v } key).state
    have hpass := alike_propagate (s := s.state) (v := v) hne hk
    rw [hstate, written, afterWrite, he]
    exact hpass.withCheckErrors s.state.checkErrors errors

end Session

end LiveForm
