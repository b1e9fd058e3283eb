import LiveForm.Proofs.Session.Change
import LiveForm.Proofs.Session.Checked
import LiveForm.Proofs.Session.Commute
import LiveForm.Proofs.Session.Idle
import LiveForm.Proofs.Session.Twins

/-!
# Writes are local

A write visits the fields that follow from the written one. Afterwards errors of checks are looked
at again, and changes are looked for, at all fields; but what is looked at elsewhere is as it was,
so the check finds what it found, and no change is seen.

* `State.Kept`: a field is the same in two states, in every channel;
* `Session.kept_of_not_reaches`: a write keeps the fields that do not follow from the written one;
* `Audience.Untouched`: a request was refused, and nobody was told;
* `Session.WritesLocally`: what a session promises of its writes;
* **`Session.Reachable.writesLocally`**: every reachable session keeps the promise.
-/

namespace LiveForm

variable {p : Plan} {before after : State} {key k : String} {s : Session} {v : Value} {f : Field}

/-- **A field is the same in two states but for errors of checks**: its value, its flags, and its
errors of formulas and of rules. -/
structure State.Spared (p : Plan) (before after : State) (key : String) : Prop where
  value : after.value key = before.value key
  visible : after.visible key = before.visible key
  requires : after.requires key = before.requires key
  formulaErrors : after.formulaErrors.get? key = before.formulaErrors.get? key
  ruleErrors : after.errorsOfRules p key = before.errorsOfRules p key

/-- **A field is the same in two states**, in every channel. -/
structure State.Kept (p : Plan) (before after : State) (key : String) : Prop extends
    State.Spared p before after key where
  checkErrors : after.checkErrors.get? key = before.checkErrors.get? key

namespace State

theorem Alike.errorsOfRules (h : State.Alike id p key before after) :
    after.errorsOfRules p key = before.errorsOfRules p key := by
  rw [State.errorsOfRules, State.errorsOfRules]
  refine congrArg List.flatten (List.ext_getElem? fun i => ?_)
  rw [List.getElem?_mapIdx, List.getElem?_mapIdx]
  cases hr : p.schema.rules[i]? with
  | none => rfl
  | some r =>
    rw [Option.map_some, Option.map_some]
    split
    · next htarget => rw [← h.ruleErrors i r hr (beq_iff_eq.mp htarget), id]
    · rfl

theorem Alike.spared (h : State.Alike id p key before after) : before.Spared p after key where
  value := h.value
  visible := h.visible
  requires := h.requires
  formulaErrors := h.formulaErrors
  ruleErrors := h.errorsOfRules

theorem Kept.errors (h : before.Kept p after key) : after.errors p key = before.errors p key := by
  rw [State.errors, State.errors, h.formulaErrors, h.ruleErrors, h.checkErrors]

end State

/-! ## Accepted writes -/

namespace Session

/-- Looking again at a field finds what it found, when a check reads the same as before, and the
errors there are current or nothing has stirred the field. -/
theorem get?_recheck_of_alike (h : State.Alike id p key before after)
    (hcurrent : p.revalidateOnChange = true → before.stirred after key = true → p.Current before)
    (hkept : after.checkErrors = before.checkErrors) :
    (recheck p before after).state.checkErrors.get? key = before.checkErrors.get? key := by
  cases hr : p.revalidateOnChange with
  | false => rw [recheck_of_not hr, hkept]
  | true =>
    have hchecks := rechecks_recheck hr before after
    by_cases hlooked : key ∈ after.checkErrors.keys ∧ before.stirred after key = true
    · obtain ⟨hmem, hstirred⟩ := hlooked
      rw [Table.mem_keys, hkept] at hmem
      obtain ⟨errors, herrors⟩ := Option.isSome_iff_exists.mp hmem
      rcases hchecks.kept_or_found key with hsame | hfound
      · rw [hsame, hkept]
      · rw [h.findings (fun _ => rfl) rfl, hcurrent hr hstirred key errors herrors] at hfound
        rw [← Except.ok.inj hfound, herrors]
    · rw [hchecks.kept key fun hmem => Bool.eq_false_iff.mpr fun hs => hlooked ⟨hmem, hs⟩, hkept]

/-- Nothing has stirred a field that is the same, unless it has the one value that is not. -/
theorem not_stirred_of_alike (h : State.Alike id p key before after)
    (hn : (before.value key).isNaN = false) : before.stirred after key = false := by
  rw [State.stirred, h.value, h.visible, h.requires, Value.same_refl hn]
  simp

/-- **A write keeps the fields that do not follow from the written one**, but for errors of checks.
-/
theorem spared_of_not_reaches (hk : ¬ s.plan.Reaches key k) (v : Value) :
    s.state.Spared s.plan (s.set key v).session.state k := by
  rw [Plan.Reaches, not_or] at hk
  exact (alike_set s v (Ne.symm hk.1) hk.2).spared

/-- A write keeps the errors of checks too where they are current, or the field has a value that is
the same as itself. -/
theorem kept_of_not_reaches (hk : ¬ s.plan.Reaches key k) (v : Value)
    (h : (s.state.value k).isNaN = false ∨ s.Undisturbed) :
    s.state.Kept s.plan (s.set key v).session.state k where
  toSpared := spared_of_not_reaches hk v
  checkErrors := by
    rw [Plan.Reaches, not_or] at hk
    obtain ⟨-, hstate | ⟨f, -, -, hstate⟩⟩ := set_cases s key v
    · rw [hstate]
    · rw [hstate]
      have halike := alike_propagate (s := s.state) (v := v) (Ne.symm hk.1) hk.2
      refine get?_recheck_of_alike halike (fun hr hstirred => ?_) (Pass.checkErrors_run _ _ _ _)
      rcases h with hn | hcalm
      · rw [not_stirred_of_alike halike hn] at hstirred
        cases hstirred
      · exact hcalm.current hr

theorem not_mem_keys_of_kept {c : ChangeSet} (h : s.state.Kept s.plan (s.set key v).session.state k)
    (hn : (s.state.value k).isNaN = false) (hc : (s.set key v).answer = .ok c) : k ∉ c.keys := by
  cases hf : writable s.plan.schema key "set_value" with
  | error r =>
    rw [set, hf] at hc
    cases hc
  | ok f =>
    cases hv : (s.state.value key).same v with
    | true =>
      rw [set, hf] at hc
      dsimp only at hc
      rw [hv] at hc
      obtain rfl := Except.ok.inj hc
      exact List.not_mem_nil
    | false =>
      have hcalm : ¬ (s.set key v).Interrupted := by
        rintro ⟨cause, hcause⟩
        rw [hcause] at hc
        cases hc
      rw [answer_set_of_ne hf hv hcalm, writeChanges, ← state_set_of_ne hf hv] at hc
      obtain rfl := Except.ok.inj hc
      intro hmem
      obtain ⟨change, hchange, rfl⟩ := List.mem_map.mp hmem
      obtain ⟨k', -, hk'⟩ := ChangeSet.mem_between.mp hchange
      obtain rfl := (ChangeSet.changeOf?_eq_some hk').1
      rw [ChangeSet.changeOf?_of_kept h.value h.visible h.requires h.errors hn] at hk'
      cases hk'

theorem writable_of_not_computed (hp : p.WellFormed) (hf : f ∈ p.schema.fields)
    (hcomputed : f.isComputed = false) (operation : String) :
    writable p.schema f.key operation = .ok f := by
  rw [writable, hp.field?_key hf]
  dsimp only
  rw [hcomputed]
  rfl

theorem exists_answer_set (hf : writable s.plan.schema key "set_value" = .ok f) (v : Value) :
    ∃ c, ¬ (s.set key v).Interrupted → (s.set key v).answer = .ok c := by
  cases hv : (s.state.value key).same v with
  | true =>
    rw [set, hf]
    dsimp only
    rw [hv]
    exact ⟨_, fun _ => rfl⟩
  | false => exact ⟨_, answer_set_of_ne hf hv⟩

theorem exists_refusal (h : ∀ f ∈ p.schema.fields, f.key = key → f.isComputed = true)
    (operation : String) : ∃ r, writable p.schema key operation = .error r := by
  rw [writable]
  split
  · exact ⟨_, rfl⟩
  · next f hf =>
    obtain ⟨hmem, hkey⟩ := Schema.mem_of_field? hf
    rw [h f hmem hkey]
    exact ⟨_, rfl⟩

end Session

/-! ## Refused writes -/

namespace Audience

variable {a : Audience} {r : Request}

/-- **A request was refused**: it fails, nothing but the journal is written, the listeners are the
same, and nobody is told. -/
structure Untouched (a : Audience) (r : Request) : Prop where
  result : ∃ e, (a.request r).result = .error e
  audience : ∃ journal,
    (a.request r).audience = { a with session := { a.session with journal := journal } }
  exchanges : (a.request r).exchanges = []

theorem untouched_of_step (htold : (a.step r).told = none)
    (hreply : ∃ e, (a.step r).reply = .error e)
    (haudience : ∃ journal, (a.step r).audience =
      { a with session := { a.session with journal := journal } }) : a.Untouched r := by
  have hrequest := request_of_untold htold
  constructor
  · obtain ⟨e, he⟩ := hreply
    refine ⟨e, ?_⟩
    rw [hrequest, resultOf, he]
    rfl
  · obtain ⟨journal, hjournal⟩ := haudience
    exact ⟨journal, by rw [hrequest, hjournal]⟩
  · rw [hrequest]

theorem untouched_set {key : Value}
    (h : ∀ f ∈ a.session.plan.schema.fields, .text f.key = key → f.isComputed = true) (v : Value) :
    a.Untouched (.set key v) := by
  by_cases htext : ∃ k, key = .text k
  · obtain ⟨k, rfl⟩ := htext
    have hcomputed : ∀ f ∈ a.session.plan.schema.fields, f.key = k → f.isComputed = true :=
      fun f hf hkey => h f hf (by rw [hkey])
    obtain ⟨r, hr⟩ := Session.exists_refusal hcomputed "set_value"
    have hset : a.session.set k v = a.session.refuse r := by
      rw [Session.set, hr]
    refine untouched_of_step ?_ ⟨.failure r.2, ?_⟩ ⟨a.session.journal.append [.event r.1], ?_⟩
    · exact congrArg Outcome.told hset
    · exact congrArg (replyOf fun c _ => Reply.changes c) (congrArg Outcome.answer hset)
    · exact congrArg (fun session => { a with session := session })
        (congrArg Outcome.session hset)
  · have hstep : a.step (.set key v) =
        if key.isKey then a.stepOf (a.session.refuse (Session.unknownField key "set_value"))
          (replyOf fun c _ => .changes c)
        else { audience := a, reply := .error .noKey } := by
      cases key with
      | text k => exact absurd ⟨k, rfl⟩ htext
      | _ => rfl
    by_cases hkey : key.isKey = true
    · rw [if_pos hkey] at hstep
      exact untouched_of_step (by rw [hstep]; rfl) ⟨_, by rw [hstep]; rfl⟩
        ⟨_, by rw [hstep]; rfl⟩
    · rw [if_neg hkey] at hstep
      exact untouched_of_step (by rw [hstep]) ⟨_, by rw [hstep]⟩
        ⟨a.session.journal, by rw [hstep]⟩

end Audience

/-! ## The promise -/

namespace Session

/-- **What a session promises of its writes.** -/
structure WritesLocally (s : Session) : Prop where
  /-- A field that is not computed may be written, and the write is answered unless it is
  interrupted. All fields that do not follow from it are kept, the errors of checks at those whose
  value is the same as itself, and where they are current. None of these is reported. -/
  accepted : ∀ f ∈ s.plan.schema.fields, f.isComputed = false → ∀ v,
    ∃ c, (¬ (s.set f.key v).Interrupted → (s.set f.key v).answer = .ok c) ∧
      ∀ k, ¬ s.plan.Reaches f.key k →
        s.state.Spared s.plan (s.set f.key v).session.state k ∧
        ((s.state.value k).isNaN = false ∨ s.Undisturbed →
          s.state.Kept s.plan (s.set f.key v).session.state k) ∧
        ((s.state.value k).isNaN = false → (s.set f.key v).answer = .ok c → k ∉ c.keys)
  /-- The write of a computed field, or of no field at all, leaves a session and its listeners as
  they are. -/
  refused : ∀ a : Audience, a.session = s → ∀ key : Value,
    (∀ f ∈ s.plan.schema.fields, .text f.key = key → f.isComputed = true) → ∀ v,
      a.Untouched (.set key v)

/-- **Writes of every reachable session are local.** -/
theorem Reachable.writesLocally (h : s.Reachable) : s.WritesLocally where
  accepted f hf hcomputed v := by
    obtain ⟨c, hc⟩ := exists_answer_set
      (writable_of_not_computed h.sound.planned.toWellFormed hf hcomputed "set_value") v
    exact ⟨c, hc, fun k hk => ⟨spared_of_not_reaches hk v, kept_of_not_reaches hk v,
      fun hn => not_mem_keys_of_kept (kept_of_not_reaches hk v (.inl hn)) hn⟩⟩
  refused := by
    rintro a rfl key hkey v
    exact Audience.untouched_set hkey v

/-- An order that was checked. -/
theorem order_writesLocally :
    ∃ s : Session, (s.Reachable ∧ s.plan = orderPlan) ∧ s.WritesLocally := by
  obtain ⟨s, hs, hplan, -⟩ := exists_order
  have hreachable := (Reachable.opened hs).check
  exact ⟨s.check.session, ⟨hreachable, (plan_check s).trans hplan⟩,
    Reachable.writesLocally hreachable⟩

end Session

end LiveForm
