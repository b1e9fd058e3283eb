import LiveForm.Proofs.Graph.Complete
import LiveForm.Proofs.Json.Writable
import LiveForm.Proofs.Session.Commute
import LiveForm.Proofs.Session.Twins

/-!
# The order of declaration

Fields and rules are declared in some order, and which of two fields is evaluated first may follow
from it. Nothing that a session shows does, as long as the rules of a target with one effect keep
their order.

* `Session.exists_fill`: the same values may be given at the start;
* `Session.Startable.reordered`: what it takes to open a session on a reordered schema;
* `Session.twins_of_start`: sessions that are opened alike are twins;
* `Session.SameRuns`: two sessions stay the same under all operations;
* **`Session.start_reordered`**: so do sessions on reordered schemas.
-/

namespace LiveForm

namespace Session

variable {schema schema' : Schema} {given : Entries} {overrides config : Value}
  {order : List String} {data data' out : Table String Value} {search : Pattern.Search}

/-! ## Opening -/

/-- **The same values may be given at the start**, and they are written alike. -/
theorem exists_fill (hfield : ∀ key, schema'.field? key = schema.field? key)
    (hdata : ∀ key, data'.get? key = data.get? key) (h : fill schema data given = .ok out) :
    ∃ out', fill schema' data' given = .ok out' ∧ ∀ key, out'.get? key = out.get? key := by
  induction given generalizing data data' with
  | nil =>
    obtain rfl := Except.ok.inj h
    exact ⟨data', rfl, hdata⟩
  | cons e given ih =>
    obtain ⟨k, v⟩ := e
    cases k with
    | text k =>
      rw [fill] at h
      split at h
      · cases h
      · next f hf =>
        rw [fill, writable_congr (hfield k), hf]
        refine ih (fun key => ?_) h
        rw [Table.get?_set, Table.get?_set, hdata]
    | _ => cases h

theorem exists_schemaDigest_iff :
    (∃ digest, schemaDigest schema = .ok digest) ↔ Json.Writable true schema.toValue := by
  rw [schemaDigest, canonicalJson, Json.Writable]
  cases Json.ofValue true schema.toValue <;> simp [Except.map]

section

variable (hr : schema.Reordered schema')

include hr

theorem get?_ofKeys_reordered {α : Type} (hnodup : schema.fieldKeys.Nodup)
    (value : Option Field → α) (key : String) :
    (Table.ofKeys schema'.fieldKeys fun k => value (schema'.field? k)).get? key =
      (Table.ofKeys schema.fieldKeys fun k => value (schema.field? k)).get? key := by
  rw [Table.get?_ofKeys, Table.get?_ofKeys, hr.field? hnodup]
  simp only [hr.mem_fieldKeys]

/-- **What it takes to open a session**, on a reordered schema. -/
theorem Startable.reordered (h : Startable schema given overrides config order data) :
    ∃ order' data', Startable schema' given overrides config order' data' ∧
      ∀ key, data'.get? key = data.get? key := by
  have hnodup := Schema.nodup_fieldKeys h.problems
  have hself : ∀ key, ¬ schema.Feeds key key := fun key hf => Graph.not_feeds_self h.orders
    ((Graph.mem_order h.orders).mpr (Schema.declared_of_feeds h.problems hf).1) hf
  obtain ⟨data', hfills, hdata⟩ := exists_fill (hr.field? hnodup)
    (get?_ofKeys_reordered hr hnodup fun f => (f.map initialValue).getD .null) h.fills
  obtain ⟨order', horder⟩ := Graph.exists_order
    (fun key => (Graph.mem_order h.orders).trans hr.mem_fieldKeys.symm)
    ((Graph.pairwise_order h.orders).imp fun hab hf => hab.2 ((hr.feeds _ _).mp hf))
    (fun key _ hf => hself key ((hr.feeds key key).mp hf))
  refine ⟨order', data', ?_, hdata⟩
  exact {
    resolves := h.resolves
    problems := by
      refine Schema.graphProblems_eq_nil_iff.mpr ⟨hr.fieldKeys.nodup_iff.mp hnodup, ?_⟩
      intro source target hf
      rw [hr.mem_fieldKeys, hr.mem_fieldKeys]
      exact Schema.declared_of_feeds h.problems ((hr.feeds source target).mp hf)
    orders := horder
    fills := hfills
    schemaDigest := exists_schemaDigest_iff.mpr
      (hr.writable_toValue.mpr (exists_schemaDigest_iff.mp h.schemaDigest))
    configDigest := h.configDigest }

theorem exists_start_reordered {journal : Journal}
    (h : ∃ s, (start search journal schema given overrides).2 = .ok s) (journal' : Journal) :
    ∃ s', (start search journal' schema' given overrides).2 = .ok s' := by
  obtain ⟨s, hs⟩ := h
  obtain ⟨config, order, data, hstart, -⟩ := startable_of_start hs
  obtain ⟨order', data', hstart', -⟩ := hstart.reordered hr
  obtain ⟨s', hs', -⟩ := hstart'.exists_start search journal'
  exact ⟨s', hs'⟩

/-- **Sessions that are opened alike on reordered schemas are twins.** -/
theorem twins_of_start {journal journal' : Journal} {s s' : Session}
    (hs : (start search journal schema given overrides).2 = .ok s)
    (hs' : (start search journal' schema' given overrides).2 = .ok s') : s.Twins s' := by
  have hreachable : s.Reachable := .opened ⟨_, _, _, _, _, hs⟩
  have hreachable' : s'.Reachable := .opened ⟨_, _, _, _, _, hs'⟩
  obtain ⟨config, order, data, hstart, hplan, hstate⟩ := startable_of_start hs
  obtain ⟨config', order', data', hstart', hplan', hstate'⟩ := startable_of_start hs'
  obtain ⟨_, data₁, hstart₁, hdata⟩ := hstart.reordered hr
  obtain rfl : config = config' := Except.ok.inj (hstart.resolves.symm.trans hstart'.resolves)
  obtain rfl : data₁ = data' := Except.ok.inj (hstart₁.fills.symm.trans hstart'.fills)
  have hnodup := Schema.nodup_fieldKeys hstart.problems
  have hplans : s.plan.Reordered s'.plan := by
    rw [hplan, hplan']
    exact ⟨hr, rfl, rfl, rfl, rfl, hdata⟩
  suffices hstates : s.state.Twins s.plan s'.plan s'.state from
    ⟨⟨hplans, hstates.alike, hreachable, hreachable'⟩, hstates.checkErrors⟩
  rw [hstate, hstate']
  refine State.Twins.settleAll hplans hreachable.sound.planned.toWellFormed
    hreachable'.sound.planned.toWellFormed ⟨fun key => ?_, fun _ => rfl⟩
  exact {
    value := by rw [State.value, State.value, declaredState, declaredState, hdata]
    flags := fun d => by
      cases d with
      | visibility =>
        exact get?_ofKeys_reordered hr hnodup (fun f => (f.map Field.visible).getD false) key
      | required =>
        exact get?_ofKeys_reordered hr hnodup
          (fun f => (f.map (·.constraints.required)).getD false) key
    formulaErrors := rfl
    ruleErrors := fun _ _ _ _ => rfl }

end

/-! ## Runs -/

/-- **Two sessions stay the same under all operations**: they show the same of every field, and as
long as no operation is interrupted, they answer and tell the same and have the same errors of
checks. -/
structure SameRuns (s s' : Session) : Prop where
  fields : ∀ ops, (s.after ops).SameFields (s'.after ops)
  uninterrupted : ∀ ops, s'.Uninterrupted ops ↔ s.Uninterrupted ops
  checkErrors : ∀ ops, s.Uninterrupted ops → ∀ key,
    (s'.after ops).state.checkErrors.get? key = (s.after ops).state.checkErrors.get? key
  answers : ∀ ops, s.Uninterrupted ops → ∀ o,
    SameAnswer ((s.after ops).perform o).answer ((s'.after ops).perform o).answer
  told : ∀ ops, s.Uninterrupted ops → ∀ o,
    Option.Rel ChangeSet.Same ((s.after ops).perform o).told ((s'.after ops).perform o).told

theorem Twins.sameRuns {s s' : Session} (h : s.Twins s') : s.SameRuns s' where
  fields ops := (h.toKindred.after ops).sameFields
  uninterrupted := h.uninterrupted_iff
  checkErrors _ hcalm := (h.after hcalm).checkErrors
  answers _ hcalm := (h.after hcalm).sameAnswer
  told _ hcalm := (h.after hcalm).sameTold

/-- **The order of declaration does not matter.** A session can be opened on both of two reordered
schemas or on none, and the two stay the same under all operations. -/
theorem start_reordered (hr : schema.Reordered schema') (search : Pattern.Search) (given : Entries)
    (overrides : Value) (journal journal' : Journal) :
    ((∃ s, (start search journal schema given overrides).2 = .ok s) ↔
      ∃ s', (start search journal' schema' given overrides).2 = .ok s') ∧
    ∀ s s', (start search journal schema given overrides).2 = .ok s →
      (start search journal' schema' given overrides).2 = .ok s' → s.SameRuns s' :=
  ⟨⟨fun h => exists_start_reordered hr h journal',
    fun h => exists_start_reordered hr.symm h journal⟩,
    fun _ _ hs hs' => (twins_of_start hr hs hs').sameRuns⟩

end Session

/-! ## A form -/

/-- The dinner with its fields and rules the other way round. -/
def reversedDinner : Schema :=
  { dinnerForm with
    fields := dinnerForm.fields.reverse
    rules := dinnerForm.rules.reverse }

theorem reordered_dinnerForm : dinnerForm.Reordered reversedDinner where
  fields := dinnerForm.fields.reverse_perm.symm
  rules := dinnerForm.rules.reverse_perm.symm
  groups target effect := by
    -- The two rules have different effects, so no group has both.
    cases effect <;> cases h : ("note" == target) <;>
      simp [reversedDinner, dinnerForm, orderForm.rule, Rule.aims, h]
  ids := by decide +kernel
  rest := rfl

theorem order_reversedDinner :
    (Graph.ofSchema reversedDinner).order = .ok ["children", "guests", "note"] :=
  Graph.order_eq_ok_of_advance (by decide +kernel)

/-- Two sessions on the dinner evaluate its fields in different orders, and stay the same. -/
theorem Session.dinner_start_reordered :
    dinnerForm.Reordered reversedDinner ∧ ∃ s s' : Session,
      ((start Pattern.search {} dinnerForm [] .null).2 = .ok s ∧
        (start Pattern.search {} reversedDinner [] .null).2 = .ok s') ∧
        s.plan.order ≠ s'.plan.order ∧ s.SameRuns s' := by
  obtain ⟨s, hs, hplan⟩ := (startable_declared (by decide +kernel) order_dinnerForm
    (by decide +kernel) (by decide +kernel)).exists_start Pattern.search {}
  have hreordered := start_reordered reordered_dinnerForm Pattern.search [] .null {} {}
  obtain ⟨s', hs'⟩ := hreordered.1.mp ⟨s, hs⟩
  obtain ⟨config, order, data, hstart, hplan', -⟩ := startable_of_start hs'
  obtain rfl := Except.ok.inj (order_reversedDinner.symm.trans hstart.orders)
  refine ⟨reordered_dinnerForm, s, s', ⟨hs, hs'⟩, ?_, hreordered.2 s s' hs hs'⟩
  rw [hplan, hplan']
  exact (by decide : ["guests", "children", "note"] ≠ ["children", "guests", "note"])

end LiveForm
