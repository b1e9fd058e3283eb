import LiveForm.Proofs.Field.Check
import LiveForm.Proofs.Schema.Reordered
import LiveForm.Proofs.Session.Recheck

/-!
# Channels of errors

The errors of a field come from its formula, from the rules that target it, and from its last check.
A notice shows where it comes from: by its kind, and when it comes from a rule by the id of the
rule. So two lists of errors are equal when they are equal channel by channel, and the order of the
rules does not matter.

* `listEquiv_append`, `listEquiv_flatMap`: lists in parts of which no members are equal across;
* `Plan.Sourced`: the notices of a state show where they come from;
* `Session.Reachable.sourced`: those of reachable sessions do;
* **`State.errors_equiv_iff`**: equality of errors, channel by channel.
-/

namespace LiveForm

/-! ## Lists in parts -/

section Parts

variable {α ι : Type} {r : α → α → Bool}

/-- No member of one list equals a member of the other. -/
def Apart (r : α → α → Bool) (as bs : List α) : Prop := ∀ a ∈ as, ∀ b ∈ bs, r a b = false

theorem listEquiv_append {as as' bs bs' : List α} (h : Apart r as bs') (h' : Apart r bs as') :
    listEquiv r (as ++ bs) (as' ++ bs') = (listEquiv r as as' && listEquiv r bs bs') := by
  induction as generalizing as' with
  | nil =>
    cases as' with
    | nil => rfl
    | cons a' as' =>
      cases bs with
      | nil => rfl
      | cons b bs =>
        rw [List.nil_append, List.cons_append, listEquiv, h' b List.mem_cons_self a'
          List.mem_cons_self]
        rfl
  | cons a as ih =>
    cases as' with
    | nil =>
      cases bs' with
      | nil => rfl
      | cons b' bs' =>
        rw [List.nil_append, List.cons_append, listEquiv, h a List.mem_cons_self b'
          List.mem_cons_self]
        rfl
    | cons a' as' =>
      rw [List.cons_append, List.cons_append, listEquiv, listEquiv, Bool.and_assoc, ih]
      · exact fun a ha => h a (List.mem_cons_of_mem _ ha)
      · exact fun b hb a' ha' => h' b hb a' (List.mem_cons_of_mem _ ha')

/-- **Lists in many parts** that are apart across are equal part by part. -/
theorem listEquiv_flatMap {part part' : ι → List α} {is : List ι}
    (h : is.Pairwise fun i j => Apart r (part i) (part' j) ∧ Apart r (part j) (part' i)) :
    listEquiv r (is.flatMap part) (is.flatMap part') = true ↔
      ∀ i ∈ is, listEquiv r (part i) (part' i) = true := by
  induction is with
  | nil => simp [listEquiv]
  | cons i is ih =>
    obtain ⟨hi, his⟩ := List.pairwise_cons.mp h
    rw [List.flatMap_cons, List.flatMap_cons, listEquiv_append, Bool.and_eq_true, ih his,
      List.forall_mem_cons]
    · intro a ha b hb
      obtain ⟨j, hj, hb⟩ := List.mem_flatMap.mp hb
      exact (hi j hj).1 a ha b hb
    · intro b hb a ha
      obtain ⟨j, hj, hb⟩ := List.mem_flatMap.mp hb
      exact (hi j hj).2 b hb a ha

end Parts

/-! ## Where notices come from -/

namespace Notice

theorem equiv_eq_false_of_kind {m n : Notice} (h : m.kind ≠ n.kind) : m.equiv n = false := by
  rw [equiv, decide_eq_false h]
  rfl

theorem equiv_rule_eq_false {id id' field field' operator operator' reason reason' : String}
    (h : id ≠ id') :
    (rule id field operator reason).equiv (rule id' field' operator' reason') = false := by
  have hdetails : (Value.map (rule id field operator reason).details).equiv
      (.map (rule id' field' operator' reason').details) = false := by
    simp [rule, Value.fields, Value.equiv, Value.equivEntries, Value.scalarEquiv,
      Value.sharedNaN, h]
  rw [equiv, hdetails, Bool.and_false, Bool.false_and, Bool.false_and]

/-- The notice comes from a rule. -/
def IsFrom (n : Notice) (r : Rule) : Prop :=
  ∃ field operator reason, n = .rule r.id field operator reason

theorem IsFrom.kind {n : Notice} {r : Rule} (h : n.IsFrom r) : n.kind = .ruleEvaluation := by
  obtain ⟨_, _, _, rfl⟩ := h
  rfl

end Notice

theorem Rule.isFrom_of_notice? {r : Rule} {types : FieldTypes} {data : FormData} {n : Notice}
    (h : r.notice? types data = some n) : n.IsFrom r := by
  obtain ⟨m, -, rfl⟩ := Option.map_eq_some_iff.mp h
  exact ⟨_, _, _, rfl⟩

theorem kind_of_formulaNotices {key : String} {fo : Formula}
    {outcome : Except Formula.Fault Formula.Result} {n : Notice}
    (h : n ∈ (formulaNotices key fo outcome).getD []) : n.kind = .computation := by
  cases outcome with
  | error fault =>
    obtain rfl := List.mem_singleton.mp h
    rfl
  | ok result =>
    rw [formulaNotices] at h
    split at h
    · cases h
    · obtain ⟨i, -, rfl⟩ := List.mem_map.mp h
      rfl

/-- The notice comes from no formula and from no rule. -/
def Notice.IsOfCheck (n : Notice) : Prop := n.kind ≠ .computation ∧ n.kind ≠ .ruleEvaluation

theorem Field.isOfCheck_of_mem_check {search : Pattern.Search} {f : Field} {raw : Value}
    {required : Bool} {ns : List Notice} (hns : f.check search raw required = .ok ns) {n : Notice}
    (h : n ∈ ns) : n.IsOfCheck := by
  rcases isEmpty_or_isInvalid_or_fits (.read (some f.type) raw) with hempty | hinvalid | hfits
  · rw [check_of_isEmpty hempty] at hns
    obtain rfl := Except.ok.inj hns
    split at h
    · obtain rfl := List.mem_singleton.mp h
      exact ⟨Notice.Kind.noConfusion, Notice.Kind.noConfusion⟩
    · cases h
  · rw [check_of_isInvalid hinvalid] at hns
    obtain rfl := Except.ok.inj hns
    obtain rfl := List.mem_singleton.mp h
    exact ⟨Notice.Kind.noConfusion, Notice.Kind.noConfusion⟩
  · have hkind := kind_of_mem_check hfits hns h
    refine ⟨fun hother => ?_, fun hother => ?_⟩ <;> simp [hother] at hkind

/-! ## Sourced states -/

namespace Plan

/-- The notice at the position of a rule comes from that rule. -/
def RulesSourced (p : Plan) (errors : Table ℕ Notice) : Prop :=
  ∀ i r n, p.schema.rules[i]? = some r → errors.get? i = some n → n.IsFrom r

/-- **The notices of a state show where they come from.** -/
structure Sourced (p : Plan) (s : State) : Prop where
  formula : ∀ key, ∀ n ∈ (s.formulaErrors.get? key).getD [], n.kind = .computation
  rules : p.RulesSourced s.ruleErrors
  check : ∀ key, ∀ n ∈ (s.checkErrors.get? key).getD [], n.IsOfCheck

variable {p : Plan} {s : State} {group : List (ℕ × Rule)}

theorem RulesSourced.judgeErrors (h : p.RulesSourced s.ruleErrors)
    (hgroup : ∀ e ∈ group, p.schema.rules[e.1]? = some e.2) :
    p.RulesSourced (p.judgeErrors s group) := by
  intro i r n hr hn
  by_cases hmem : (i, r) ∈ group
  · rw [get?_judgeErrors_of_mem hmem fun r' hr' =>
      Option.some.inj ((hgroup _ hr').symm.trans hr)] at hn
    exact Rule.isFrom_of_notice? hn
  · rw [get?_judgeErrors_of_not_mem fun r' hr' =>
      hmem (Option.some.inj ((hgroup _ hr').symm.trans hr) ▸ hr')] at hn
    exact h i r n hr hn

end Plan

namespace Pass

variable {p : Plan} {a : Pass} {f : Field} {full : Bool}

theorem rulesSourced_visitFlag {d : Flag} (h : p.RulesSourced a.state.ruleErrors) :
    p.RulesSourced (a.visitFlag p full f d).state.ruleErrors := by
  rw [visitFlag]
  split
  · rw [ruleErrors_flagDecided]
    exact h.judgeErrors fun e he => (Plan.mem_rulesFor.mp he).1
  · exact h

theorem rulesSourced_applySetter {i : ℕ} {r : Rule} (hr : p.schema.rules[i]? = some r)
    (h : p.RulesSourced a.state.ruleErrors) :
    p.RulesSourced (applySetter f a i r).state.ruleErrors := by
  rw [applySetter]
  split
  · rw [judged_eq]
    intro j r' n hr' hn
    have hget := (Table.get?_update _ _ _ _).symm.trans hn
    by_cases hij : i = j
    · subst hij
      rw [if_pos rfl] at hget
      rw [← Option.some.inj hget, ← Option.some.inj (hr.symm.trans hr')]
      exact ⟨_, _, _, rfl⟩
    · rw [if_neg hij] at hget
      exact h j r' n hr' hget
  · split <;> exact h

theorem rulesSourced_visitSetters (h : p.RulesSourced a.state.ruleErrors) :
    p.RulesSourced (a.visitSetters p f).state.ruleErrors := by
  have hjudged : p.RulesSourced (a.settersJudged p f.key).state.ruleErrors :=
    h.judgeErrors fun e he => (Plan.mem_rulesFor.mp (mem_live.mp he).1).1
  cases hw : winner? p a f.key with
  | none =>
    rw [visitSetters_of_none hw]
    exact hjudged
  | some e =>
    rw [visitSetters_of_some hw]
    exact rulesSourced_applySetter (Plan.mem_rulesFor.mp (mem_of_winner? hw).1).1 hjudged

theorem rulesSourced_visitDerived (h : p.RulesSourced a.state.ruleErrors) :
    p.RulesSourced (a.visitDerived p full f).state.ruleErrors := by
  obtain ⟨-, hformula⟩ := visitFormula_frame p full f a
  exact rulesSourced_visitFlag (rulesSourced_visitFlag (hformula ▸ h))

theorem kind_visitFormula {n : Notice}
    (h : ∀ n ∈ (a.state.formulaErrors.get? f.key).getD [], n.kind = .computation)
    (hn : n ∈ ((a.visitFormula p full f).state.formulaErrors.get? f.key).getD []) :
    n.kind = .computation := by
  rw [visitFormula] at hn
  split at hn
  · split at hn
    · rw [formulaErrors_recompute] at hn
      exact kind_of_formulaNotices hn
    · exact h n hn
  · exact h n hn

/-- **A visit keeps the notices of a state sourced.** -/
theorem sourced_visit (h : p.Sourced a.state) (key : String) :
    p.Sourced (visit p full a key).state := by
  cases hf : p.schema.field? key with
  | none =>
    rw [visit, hf]
    exact h
  | some f =>
    obtain ⟨-, rfl⟩ := Schema.mem_of_field? hf
    have hderived : p.RulesSourced (a.visitDerived p full f).state.ruleErrors :=
      rulesSourced_visitDerived h.rules
    constructor
    · intro key n hn
      by_cases hkey : key = f.key
      · subst hkey
        rw [formulaErrors_visit hf] at hn
        exact kind_visitFormula (h.formula f.key) hn
      · rw [(touches_visit p full a f.key).formulaErrors key hkey] at hn
        exact h.formula key n hn
    · rw [visit_of_field? hf]
      split
      · exact hderived
      · exact rulesSourced_visitSetters hderived
    · rw [checkErrors_visit]
      exact h.check

theorem sourced_run (h : p.Sourced a.state) (nodes : List String) :
    p.Sourced (run p full a nodes).state :=
  run_keeps (P := fun b => p.Sourced b.state) (fun key _ _ hb => sourced_visit hb key) h

end Pass

namespace Session

variable {p : Plan} {s : State} {before : State}

theorem isOfCheck_of_findings {key : String} {found : Option (List Notice)}
    (h : s.findings p key = .ok found) {n : Notice} (hn : n ∈ found.getD []) : n.IsOfCheck := by
  cases found with
  | none => cases hn
  | some errors =>
    obtain ⟨f, -, hcheck, -⟩ := State.findings_eq_some h
    rw [State.checkField] at hcheck
    split at hcheck
    · rw [← Except.ok.inj hcheck] at hn
      cases hn
    · exact Field.isOfCheck_of_mem_check hcheck hn

theorem sourced_recheck (h : p.Sourced s) : p.Sourced (recheck p before s).state := by
  obtain ⟨errors, he⟩ := recheck_eq p before s
  constructor
  · rw [he]
    exact h.formula
  · rw [he]
    exact h.rules
  · intro key n hn
    cases hr : p.revalidateOnChange with
    | false =>
      rw [recheck_of_not hr] at hn
      exact h.check key n hn
    | true =>
      rcases (rechecks_recheck hr before s).kept_or_found key with hkept | hfound
      · rw [hkept] at hn
        exact h.check key n hn
      · exact isOfCheck_of_findings hfound hn

/-- **The notices of every reachable session show where they come from.** -/
theorem Reachable.sourced {s : Session} (h : s.Reachable) : s.plan.Sourced s.state := by
  induction h with
  | opened h =>
    obtain ⟨_, _, _, _, _, hs⟩ := h
    rw [(start_eq_ok hs).2]
    refine Pass.sourced_run ⟨?_, ?_, ?_⟩ _
    · exact fun key n hn => absurd hn List.not_mem_nil
    · intro i r n _ hn
      cases hn
    · exact fun key n hn => absurd hn List.not_mem_nil
  | @set s h key v ih =>
    obtain ⟨hplan, hstate | ⟨f, -, -, hstate⟩⟩ := set_cases s key v
    · rw [hplan, hstate]
      exact ih
    · rw [hplan, hstate]
      exact sourced_recheck (Pass.sourced_run ⟨ih.formula, ih.rules, ih.check⟩ _)
  | settle h ih =>
    rw [plan_settle, state_settle]
    exact sourced_recheck (Pass.sourced_run ih _)
  | reset h ih =>
    refine Pass.sourced_run ⟨ih.formula, ?_, ?_⟩ _
    · intro i r n _ hn
      cases hn
    · exact fun key n hn => absurd hn List.not_mem_nil
  | @check s h ih =>
    obtain ⟨hplan, ⟨-, -, hstate⟩ | ⟨errors, hfound, hstate⟩⟩ := check_cases s
    · rw [hplan, hstate]
      exact ih
    · rw [hplan, hstate]
      exact ⟨ih.formula, ih.rules, fun key n hn =>
        isOfCheck_of_findings (findings_of_found h.sound.planned.toWellFormed hfound key) hn⟩

end Session

/-! ## Errors of a field -/

namespace State

variable {p : Plan} {s before after : State} {key : String} {r : Rule}

/-- The error of a rule, when the rule targets a field. -/
def errorOfRule (p : Plan) (s : State) (key : String) (r : Rule) : List Notice :=
  if r.target == key then (s.ruleErrors.get? (p.schema.positionOf r.id)).toList else []

theorem errorsOfRules_eq (hids : (p.schema.rules.map Rule.id).Nodup) (s : State) (key : String) :
    s.errorsOfRules p key = p.schema.rules.flatMap (s.errorOfRule p key) := by
  rw [errorsOfRules, List.flatMap_def]
  refine congrArg List.flatten (List.ext_getElem? fun i => ?_)
  rw [List.getElem?_mapIdx, List.getElem?_map]
  cases hr : p.schema.rules[i]? with
  | none => rfl
  | some r => rw [Option.map_some, Option.map_some, errorOfRule, Schema.positionOf_eq hids hr]

theorem isFrom_of_mem_errorOfRule (hids : (p.schema.rules.map Rule.id).Nodup) (h : p.Sourced s)
    (hr : r ∈ p.schema.rules) {n : Notice} (hn : n ∈ s.errorOfRule p key r) : n.IsFrom r := by
  rw [errorOfRule] at hn
  split at hn
  · exact h.rules _ r n (Schema.rule_positionOf hids hr) (Option.mem_toList.mp hn)
  · cases hn

theorem kind_of_mem_errorsOfRules (hids : (p.schema.rules.map Rule.id).Nodup) (h : p.Sourced s)
    {n : Notice} (hn : n ∈ p.schema.rules.flatMap (s.errorOfRule p key)) :
    n.kind = .ruleEvaluation := by
  obtain ⟨r, hr, hn⟩ := List.mem_flatMap.mp hn
  exact (isFrom_of_mem_errorOfRule hids h hr hn).kind

theorem apart_of_kind {as bs : List Notice} (h : ∀ m ∈ as, ∀ n ∈ bs, m.kind ≠ n.kind) :
    Apart Notice.equiv as bs :=
  fun m hm n hn => Notice.equiv_eq_false_of_kind (h m hm n hn)

theorem pairwise_apart (hids : (p.schema.rules.map Rule.id).Nodup) (hb : p.Sourced before)
    (ha : p.Sourced after) : p.schema.rules.Pairwise fun r r' =>
      Apart Notice.equiv (before.errorOfRule p key r) (after.errorOfRule p key r') ∧
        Apart Notice.equiv (before.errorOfRule p key r') (after.errorOfRule p key r) := by
  have hdistinct : p.schema.rules.Pairwise fun r r' => r.id ≠ r'.id := List.pairwise_map.mp hids
  have hapart : ∀ r ∈ p.schema.rules, ∀ r' ∈ p.schema.rules, r.id ≠ r'.id →
      Apart Notice.equiv (before.errorOfRule p key r) (after.errorOfRule p key r') := by
    intro r hr r' hr' hid m hm n hn
    obtain ⟨_, _, _, rfl⟩ := isFrom_of_mem_errorOfRule hids hb hr hm
    obtain ⟨_, _, _, rfl⟩ := isFrom_of_mem_errorOfRule hids ha hr' hn
    exact Notice.equiv_rule_eq_false hid
  exact hdistinct.imp_of_mem fun {r r'} hr hr' hid =>
    ⟨hapart r hr r' hr' hid, hapart r' hr' r hr hid.symm⟩

/-- **The errors of a field are equal when they are equal channel by channel**, and those of rules
rule by rule. -/
theorem errors_equiv_iff (hids : (p.schema.rules.map Rule.id).Nodup) (hb : p.Sourced before)
    (ha : p.Sourced after) :
    listEquiv Notice.equiv (before.errors p key) (after.errors p key) = true ↔
      (listEquiv Notice.equiv ((before.formulaErrors.get? key).getD [])
          ((after.formulaErrors.get? key).getD []) = true ∧
        ∀ r ∈ p.schema.rules, listEquiv Notice.equiv (before.errorOfRule p key r)
          (after.errorOfRule p key r) = true) ∧
      listEquiv Notice.equiv ((before.checkErrors.get? key).getD [])
        ((after.checkErrors.get? key).getD []) = true := by
  have hformula : ∀ {s s' : State}, p.Sourced s → p.Sourced s' →
      Apart Notice.equiv ((s.formulaErrors.get? key).getD [])
        (p.schema.rules.flatMap (s'.errorOfRule p key)) := by
    intro s s' hs hs'
    refine apart_of_kind fun m hm n hn => ?_
    rw [hs.formula key m hm, kind_of_mem_errorsOfRules hids hs' hn]
    exact Notice.Kind.noConfusion
  have hrules : ∀ {s s' : State}, p.Sourced s → p.Sourced s' →
      Apart Notice.equiv (p.schema.rules.flatMap (s.errorOfRule p key))
        ((s'.formulaErrors.get? key).getD []) := by
    intro s s' hs hs'
    refine apart_of_kind fun m hm n hn => ?_
    rw [kind_of_mem_errorsOfRules hids hs hm, hs'.formula key n hn]
    exact Notice.Kind.noConfusion
  -- What comes from a formula or a rule equals nothing that comes from a check.
  have hcheck : ∀ {s s' : State}, p.Sourced s → p.Sourced s' →
      ∀ m ∈ (s.formulaErrors.get? key).getD [] ++ p.schema.rules.flatMap (s.errorOfRule p key),
        ∀ n ∈ (s'.checkErrors.get? key).getD [], m.kind ≠ n.kind := by
    intro s s' hs hs' m hm n hn
    obtain ⟨hn₁, hn₂⟩ := hs'.check key n hn
    rcases List.mem_append.mp hm with hm | hm
    · rw [hs.formula key m hm]
      exact hn₁.symm
    · rw [kind_of_mem_errorsOfRules hids hs hm]
      exact hn₂.symm
  rw [errors, errors, errorsOfRules_eq hids, errorsOfRules_eq hids,
    listEquiv_append (apart_of_kind (hcheck hb ha))
      (apart_of_kind fun m hm n hn => (hcheck ha hb n hn m hm).symm),
    listEquiv_append (hformula hb ha) (hrules hb ha), Bool.and_eq_true, Bool.and_eq_true,
    listEquiv_flatMap (pairwise_apart hids hb ha)]

end State

end LiveForm
