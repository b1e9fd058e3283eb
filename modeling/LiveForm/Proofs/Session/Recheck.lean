import LiveForm.Proofs.Session.Reachable

/-!
# Errors of checks after a pass

A pass leaves the errors of checks alone. After it the fields that have such errors are looked at
again, but only those of which something that a check reads has changed, and only until a check is
broken off.

* `State.findings`: the errors that a check would leave at a key now;
* `Session.Rechecks`, **`Session.rechecks_recheck`**: what looking again leaves at each key;
* `Session.findings_of_found`: what a check of all fields leaves at each key;
* `Pass.checkErrors_run`: a pass writes no errors of checks;
* **`Pass.rewrites_run`**: a pass gives a field its old value or one that is not the same.
-/

namespace LiveForm

variable {p : Plan} {s before after : State} {f : Field} {key : String} {full : Bool} {a : Pass}

/-- What a table collects of fields with distinct keys, when only some of them have anything. -/
theorem Table.get?_collect {check : Field → Except Pattern.Interruption (List Notice)}
    {fields : List Field} (hnodup : (fields.map Field.key).Nodup)
    {t t' : Table String (List Notice)}
    (h : fields.foldlM (fun t f => do
      let notices ← check f
      .ok (if notices.isEmpty then t else t.set f.key notices)) t = .ok t') (key : String) :
    match fields.find? (·.key == key) with
    | none => t'.get? key = t.get? key
    | some f => ∃ notices, check f = .ok notices ∧
        t'.get? key = if notices.isEmpty then t.get? key else some notices := by
  induction fields generalizing t with
  | nil => rw [Except.ok.inj h]; rfl
  | cons f fs ih =>
    obtain ⟨hnew, hnodup⟩ := List.nodup_cons.mp hnodup
    rw [List.foldlM_cons, bind_eq_ok] at h
    obtain ⟨t₁, hstep, hrest⟩ := h
    obtain ⟨notices, hcheck, hset⟩ := bind_eq_ok.mp hstep
    obtain rfl := Except.ok.inj hset
    have htail := ih hnodup hrest
    by_cases hkey : f.key = key
    · subst hkey
      have hnone : fs.find? (·.key == f.key) = none :=
        List.find?_eq_none.mpr fun g hg hgkey =>
          hnew (List.mem_map.mpr ⟨g, hg, beq_iff_eq.mp hgkey⟩)
      rw [hnone] at htail
      rw [List.find?_cons, beq_self_eq_true]
      refine ⟨notices, hcheck, htail.trans ?_⟩
      split
      · rfl
      · rw [get?_set, if_pos rfl]
    · have hkept : (if notices.isEmpty then t else t.set f.key notices).get? key = t.get? key := by
        split
        · rfl
        · rw [get?_set, if_neg hkey]
      rw [hkept] at htail
      rw [List.find?_cons, beq_eq_false_iff_ne.mpr hkey]
      exact htail

theorem Table.collect_eq_error_iff (check : Field → Except Pattern.Interruption (List Notice))
    (fields : List Field) (t : Table String (List Notice)) :
    (∃ cause, fields.foldlM (fun t f => do
      let notices ← check f
      .ok (if notices.isEmpty then t else t.set f.key notices)) t = .error cause) ↔
      ∃ f ∈ fields, ∃ cause, check f = .error cause := by
  induction fields generalizing t with
  | nil => simp [pure, Except.pure]
  | cons f fs ih =>
    rw [List.foldlM_cons]
    cases hf : check f with
    | error cause => exact iff_of_true ⟨cause, rfl⟩ ⟨f, List.mem_cons_self, cause, hf⟩
    | ok notices =>
      rw [ok_bind, ok_bind, ih]
      simp [hf]

/-! ## Looking again -/

/-- The errors that a check would leave at a key now, if there are any. -/
def State.findings (p : Plan) (s : State) (key : String) :
    Except Pattern.Interruption (Option (List Notice)) :=
  (s.checkKey p key).map fun found => if found.isEmpty then none else some found

theorem State.findings_eq_some {errors : List Notice}
    (h : s.findings p key = .ok (some errors)) :
    ∃ f, p.schema.field? key = some f ∧ s.checkField p f = .ok errors ∧ errors ≠ [] := by
  obtain ⟨found, hfound, hsome⟩ := map_eq_ok.mp h
  split_ifs at hsome with hempty
  obtain rfl := Option.some.inj hsome
  have hne : found ≠ [] := fun hnil => hempty (by rw [hnil]; rfl)
  rw [checkKey] at hfound
  split at hfound
  · next f hf => exact ⟨f, hf, hfound, hne⟩
  · exact absurd (Except.ok.inj hfound).symm hne

theorem State.findings_eq_error {cause : Pattern.Interruption}
    (h : s.findings p key = .error cause) :
    ∃ f, p.schema.field? key = some f ∧ s.checkField p f = .error cause := by
  rw [findings, checkKey] at h
  split at h
  · next f hf =>
    cases hcheck : s.checkField p f with
    | ok found => rw [hcheck] at h; cases h
    | error cause' =>
      rw [hcheck] at h
      exact ⟨f, hf, hcheck.trans (congrArg Except.error (Except.error.inj h))⟩
  · cases h

namespace Session

theorem refresh_eq (p : Plan) (s : State) (key : String) : refresh p s key =
    (s.findings p key).map fun errors =>
      { s with checkErrors := s.checkErrors.update key errors } := by
  rw [refresh, State.findings]
  cases s.checkKey p key with
  | error cause => rfl
  | ok found =>
    rw [ok_bind, Except.map, Except.map]
    split <;> rfl

/-- **Some fields were looked at again** after a state, as far as they are stirred. -/
structure Rechecks (p : Plan) (before after : State) (keys : List String) (r : Recheck) :
    Prop where
  /-- The other fields keep their errors. -/
  kept : ∀ key, (key ∈ keys → before.stirred after key = false) →
    r.state.checkErrors.get? key = after.checkErrors.get? key
  /-- So does every field for which nothing is found. -/
  kept_or_found : ∀ key, r.state.checkErrors.get? key = after.checkErrors.get? key ∨
    after.findings p key = .ok (r.state.checkErrors.get? key)
  /-- Unless it was broken off, each stirred field has what was found. -/
  found : r.interruption = none → ∀ key ∈ keys, before.stirred after key = true →
    after.findings p key = .ok (r.state.checkErrors.get? key)
  /-- What broke it off is the check of a stirred field. -/
  broken : ∀ cause, r.interruption = some cause →
    ∃ key ∈ keys, before.stirred after key = true ∧ after.findings p key = .error cause

theorem Rechecks.interrupted_iff {keys : List String} {r : Recheck}
    (h : Rechecks p before after keys r) : (∃ cause, r.interruption = some cause) ↔
      ∃ key ∈ keys, before.stirred after key = true ∧
        ∃ cause, after.findings p key = .error cause := by
  constructor
  · rintro ⟨cause, hcause⟩
    obtain ⟨key, hmem, hs, hbroken⟩ := h.broken cause hcause
    exact ⟨key, hmem, hs, cause, hbroken⟩
  · rintro ⟨key, hmem, hs, cause, hbroken⟩
    by_contra hnone
    rw [h.found (Option.eq_none_iff_forall_ne_some.mpr fun cause hcause => hnone ⟨cause, hcause⟩)
      key hmem hs] at hbroken
    cases hbroken

theorem Rechecks.cons {keys : List String} {r : Recheck} {errors : Option (List Notice)}
    (hs : before.stirred after key = true) (hf : after.findings p key = .ok errors)
    (h : Rechecks p before { after with checkErrors := after.checkErrors.update key errors }
      keys r) : Rechecks p before after (key :: keys) r := by
  have hget : ∀ k, (after.checkErrors.update key errors).get? k =
      if key = k then errors else after.checkErrors.get? k :=
    fun k => Table.get?_update _ _ _ _
  have hfound : ∀ k, r.state.checkErrors.get? k = after.checkErrors.get? k ∧ k ≠ key ∨
      after.findings p k = .ok (r.state.checkErrors.get? k) := by
    intro k
    rcases h.kept_or_found k with hk | hk
    · rw [hget] at hk
      by_cases he : key = k
      · subst he
        rw [if_pos rfl] at hk
        exact Or.inr (hk ▸ hf)
      · rw [if_neg he] at hk
        exact Or.inl ⟨hk, Ne.symm he⟩
    · exact Or.inr hk
  refine ⟨fun k hk => ?_, fun k => (hfound k).imp_left And.left, fun hcalm k hk hstirred => ?_,
    fun cause hcause => ?_⟩
  · have hne : key ≠ k := by
      rintro rfl
      rw [hk List.mem_cons_self] at hs
      cases hs
    refine (h.kept k fun hmem => hk (List.mem_cons_of_mem _ hmem)).trans ?_
    rw [hget, if_neg hne]
  · rcases List.mem_cons.mp hk with rfl | hmem
    · exact (hfound k).resolve_left fun hne => hne.2 rfl
    · exact h.found hcalm k hmem hstirred
  · obtain ⟨k, hmem, hk⟩ := h.broken cause hcause
    exact ⟨k, List.mem_cons_of_mem _ hmem, hk⟩

theorem Rechecks.skip {keys : List String} {r : Recheck} (hs : before.stirred after key = false)
    (h : Rechecks p before after keys r) : Rechecks p before after (key :: keys) r where
  kept k hk := h.kept k fun hmem => hk (List.mem_cons_of_mem _ hmem)
  kept_or_found := h.kept_or_found
  found hcalm k hk hstirred := by
    rcases List.mem_cons.mp hk with rfl | hmem
    · rw [hs] at hstirred
      cases hstirred
    · exact h.found hcalm k hmem hstirred
  broken cause hcause := by
    obtain ⟨k, hmem, hk⟩ := h.broken cause hcause
    exact ⟨k, List.mem_cons_of_mem _ hmem, hk⟩

theorem rechecks_recheckAll (p : Plan) (before : State) (keys : List String) (s : State) :
    Rechecks p before s keys (recheckAll p before keys s) := by
  induction keys generalizing s with
  | nil =>
    refine ⟨fun _ _ => rfl, fun _ => Or.inl rfl, fun _ key hkey => ?_, fun cause hcause => ?_⟩
    · exact absurd hkey List.not_mem_nil
    · cases hcause
  | cons key keys ih =>
    rw [recheckAll]
    split
    · next hs =>
      rw [refresh_eq]
      cases hf : s.findings p key with
      | error cause =>
        refine ⟨fun _ _ => rfl, fun _ => Or.inl rfl, fun hnone => ?_, fun cause' hcause => ?_⟩
        · cases hnone
        · exact ⟨key, List.mem_cons_self, hs,
            hf.trans (congrArg Except.error (Option.some.inj hcause))⟩
      | ok errors => exact (ih _).cons hs hf
    · next hs => exact (ih s).skip (Bool.eq_false_iff.mpr hs)

/-- **The fields with errors were looked at again.** -/
theorem rechecks_recheck (h : p.revalidateOnChange = true) (before after : State) :
    Rechecks p before after after.checkErrors.keys (recheck p before after) := by
  rw [recheck, if_pos h]
  exact rechecks_recheckAll p before _ after

theorem recheck_of_not (h : p.revalidateOnChange = false) (before after : State) :
    recheck p before after = { state := after } := by
  rw [recheck, h]
  rfl

/-- Looking again finds errors only where there were some. -/
theorem isSome_of_recheck
    (h : ((recheck p before after).state.checkErrors.get? key).isSome = true) :
    (after.checkErrors.get? key).isSome = true := by
  cases hr : p.revalidateOnChange with
  | false => rwa [recheck_of_not hr] at h
  | true =>
    by_contra hnone
    rw [(rechecks_recheck hr before after).kept key fun hmem =>
      absurd ((Table.mem_keys _).mp hmem) hnone] at h
    exact hnone h

theorem interruption_of_unchecked (h : after.checkErrors.keys = []) :
    (recheck p before after).interruption = none := by
  rw [recheck, h]
  split <;> rfl

/-! ## Checking all fields -/

/-- **The errors that a check of all fields leaves at each key.** -/
theorem findings_of_found {s : Session} (hp : s.plan.WellFormed)
    {errors : Table String (List Notice)} (h : s.found = .ok errors) (key : String) :
    s.state.findings s.plan key = .ok (errors.get? key) := by
  have hcollect := Table.get?_collect (Schema.nodup_fieldKeys hp.problems) h key
  rw [State.findings, State.checkKey, Schema.field?]
  cases hf : s.plan.schema.fields.find? (·.key == key) with
  | none =>
    rw [hf] at hcollect
    rw [hcollect]
    rfl
  | some f =>
    rw [hf] at hcollect
    obtain ⟨notices, hcheck, hget⟩ := hcollect
    dsimp only
    rw [hcheck, hget]
    rfl

theorem interrupted_check_iff_findings {s : Session} (hp : s.plan.WellFormed) :
    s.check.Interrupted ↔ ∃ key cause, s.state.findings s.plan key = .error cause := by
  rw [interrupted_check_iff, found, Table.collect_eq_error_iff]
  constructor
  · rintro ⟨f, hf, cause, hbroken⟩
    refine ⟨f.key, cause, ?_⟩
    rw [State.findings, State.checkKey, hp.field?_key hf]
    dsimp only
    rw [hbroken]
    rfl
  · rintro ⟨key, cause, hbroken⟩
    obtain ⟨f, hf, hcheck⟩ := State.findings_eq_error hbroken
    exact ⟨f, (Schema.mem_of_field? hf).1, cause, hcheck⟩

end Session

/-! ## Passes -/

namespace Pass

theorem checkErrors_recompute (p : Plan) (key : String) (fo : Formula) (a : Pass) :
    (a.recompute p key fo).state.checkErrors = a.state.checkErrors := by
  cases h : fo.evaluate p.formulas a.state.value with
  | error fault =>
    rw [recompute_of_error h, formulaJudged_eq]
    rfl
  | ok result =>
    obtain ⟨lines, hrun⟩ := exists_recompute_of_ok key h
    rw [hrun, formulaJudged_eq]
    dsimp only
    split <;> rfl

theorem checkErrors_visitFlag (p : Plan) (full : Bool) (f : Field) (d : Flag) (a : Pass) :
    (a.visitFlag p full f d).state.checkErrors = a.state.checkErrors := by
  rw [visitFlag]
  split
  · cases d <;> rfl
  · rfl

theorem checkErrors_visitDerived (p : Plan) (full : Bool) (f : Field) (a : Pass) :
    (a.visitDerived p full f).state.checkErrors = a.state.checkErrors := by
  rw [visitDerived, checkErrors_visitFlag, checkErrors_visitFlag, visitFormula]
  split
  · split
    · exact checkErrors_recompute p f.key _ a
    · rfl
  · rfl

theorem checkErrors_visitSetters (p : Plan) (f : Field) (a : Pass) :
    (a.visitSetters p f).state.checkErrors = a.state.checkErrors := by
  cases h : winner? p a f.key with
  | none => rw [visitSetters_of_none h]; rfl
  | some e =>
    rw [visitSetters_of_some h, applySetter]
    split
    · rw [judged_eq]; rfl
    · split <;> rfl

theorem checkErrors_visit (p : Plan) (full : Bool) (a : Pass) (key : String) :
    (visit p full a key).state.checkErrors = a.state.checkErrors := by
  cases hf : p.schema.field? key with
  | none => rw [visit, hf]
  | some f =>
    rw [visit_of_field? hf]
    split
    · exact checkErrors_visitDerived p full f a
    · rw [checkErrors_visitSetters, checkErrors_visitDerived]

theorem checkErrors_run (p : Plan) (full : Bool) (a : Pass) (nodes : List String) :
    (run p full a nodes).state.checkErrors = a.state.checkErrors :=
  run_keeps (P := fun b => b.state.checkErrors = a.state.checkErrors)
    (fun k _ b hb => (checkErrors_visit p full b k).trans hb) rfl

end Pass

/-! ## Old and new values -/

/-- A value takes the place of an old one: it is the old one, or it is not the same. -/
def Value.Rewrites (old new : Value) : Prop := new = old ∨ old.same new = false

theorem Value.Rewrites.eq {old new : Value} (h : old.Rewrites new) (hsame : old.same new = true) :
    new = old := by
  rcases h with heq | hdiffers
  · exact heq
  · rw [hsame] at hdiffers
    cases hdiffers

namespace Pass

variable {old : Value}

theorem rewrites_visitFormula (h : a.state.value f.key = old) :
    old.Rewrites ((a.visitFormula p full f).state.value f.key) := by
  rw [visitFormula]
  split
  · next fo hfo =>
    split
    · cases heval : fo.evaluate p.formulas a.state.value with
      | error fault =>
        rw [recompute_of_error heval, formulaJudged_eq]
        exact Or.inl h
      | ok result =>
        obtain ⟨lines, hrun⟩ := exists_recompute_of_ok f.key heval
        rw [hrun, formulaJudged_eq, h]
        dsimp only
        split
        · exact Or.inl h
        · next hdiffers =>
          refine Or.inr ?_
          rw [value_write, if_pos rfl]
          exact Bool.eq_false_iff.mpr hdiffers
    · exact Or.inl h
  · exact Or.inl h

theorem rewrites_visitSetters (h : a.state.value f.key = old) :
    old.Rewrites ((a.visitSetters p f).state.value f.key) := by
  have hjudged : (a.settersJudged p f.key).state.value f.key = old := h
  cases hw : winner? p a f.key with
  | none =>
    rw [visitSetters_of_none hw]
    exact Or.inl h
  | some e =>
    rw [visitSetters_of_some hw, applySetter]
    split
    · rw [judged_eq]
      exact Or.inl h
    · rw [hjudged]
      split
      · exact Or.inl h
      · next hdiffers =>
        exact Or.inr (by
          rw [State.value, note, write, Table.get?_set, if_pos rfl]
          exact Bool.eq_false_iff.mpr hdiffers)

/-- A visit writes the value of a field once at most: by its formula, or else by a rule. -/
theorem rewrites_visit (hp : p.WellFormed) (hf : f ∈ p.schema.fields)
    (h : a.state.value f.key = old) :
    old.Rewrites ((visit p full a f.key).state.value f.key) := by
  obtain ⟨hderived, -, -⟩ := visitDerived_frame p full f a
  have hformula : old.Rewrites ((a.visitDerived p full f).state.value f.key) := by
    rw [hderived]
    exact rewrites_visitFormula h
  rw [visit_of_field? (hp.field?_key hf)]
  split
  · exact hformula
  · cases hc : f.isComputed with
    | true =>
      obtain ⟨hdata, -, -⟩ := visitSetters_of_computed p (a.visitDerived p full f) hc
      rw [State.value_eq_of_data_eq hdata]
      exact hformula
    | false =>
      have hnone : a.visitFormula p full f = a := by
        rw [Field.isComputed, Option.isSome_eq_false_iff, Option.isNone_iff_eq_none] at hc
        rw [visitFormula, hc]
      exact rewrites_visitSetters (by rw [hderived, hnone]; exact h)

/-- **A pass over all fields gives each its old value, or one that is not the same.** -/
theorem rewrites_run (hp : p.WellFormed) (hf : f ∈ p.schema.fields)
    (h : a.state.value f.key = old) :
    old.Rewrites ((run p full a p.order).state.value f.key) := by
  refine run_through (p := p) (P := fun a => a.state.value f.key = old)
    (Q := fun a => old.Rewrites (a.state.value f.key)) hp.pairwise_order
    (hp.field_mem_order hf) ?_ (fun a => rewrites_visit hp hf) ?_ h
  · intro k hk a h
    exact ((touches_visit p full a k).value f.key (Ne.symm hk)).trans h
  · intro k hk _ a h
    rw [(touches_visit p full a k).value f.key (Ne.symm hk)]
    exact h

end Pass

end LiveForm
