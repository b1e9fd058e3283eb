import LiveForm.Session.Propagation
import LiveForm.Proofs.Session.Plan

/-!
# Judging rules

A group of rules is judged on one state: the verdicts depend on values only, and judging writes
nothing but errors of rules.

* `Table.update`: an entry is written or erased;
* `Plan.decision`: what the deciding rule of an effect says about a field;
* `Pass.judgeGroup_eq`: the errors of a group, and its decision;
* `Pass.judgeSetters_eq`: the same of the rules whose trigger has changed;
* `Plan.get?_judgeErrors_of_mem`, `Plan.get?_judgeErrors_of_not_mem`: the errors of the judged rules
  and of the others.
-/

namespace LiveForm

/-! ## Written or erased entries -/

namespace Table

variable {κ α : Type} [DecidableEq κ]

/-- The table with a value at a key, or without the key. -/
def update (t : Table κ α) (key : κ) : Option α → Table κ α
  | some v => t.set key v
  | none => t.erase key

theorem get?_update (t : Table κ α) (key other : κ) (v : Option α) :
    (t.update key v).get? other = if key = other then v else t.get? other := by
  cases v with
  | none => exact t.get?_erase key other
  | some v => exact t.get?_set key other v

theorem update_of_get? {t : Table κ α} {key : κ} {v : Option α} (h : t.get? key = v) :
    t.update key v = t := by
  cases v with
  | none => exact erase_of_get? h
  | some v => exact set_of_get? h

theorem get?_foldl_update {β : Type} (key : β → κ) (value : β → Option α) (l : List β)
    (t : Table κ α) (k : κ) :
    (l.foldl (fun t b => t.update (key b) (value b)) t).get? k =
      ((l.filter fun b => decide (key b = k)).getLast?.map value).getD (t.get? k) := by
  have hfold : l.foldl (fun acc b => if decide (key b = k) then value b else acc) (t.get? k) =
      (l.foldl (fun t b => t.update (key b) (value b)) t).get? k :=
    List.foldl_hom (fun t : Table κ α => t.get? k) fun t b => by
      simp only [get?_update, decide_eq_true_eq]
  rw [← hfold, foldl_last fun b => decide (key b = k)]

end Table

/-! ## Verdicts on a state -/

/-- The notice that a rule has on the data of a form. -/
def Rule.notice? (r : Rule) (types : FieldTypes) (data : FormData) : Option Notice :=
  (r.evaluate types data).misfit?.map (·.toNotice r)

namespace Plan

/-- The rule is satisfied in a state. -/
def satisfied (p : Plan) (s : State) (r : Rule) : Bool := (r.evaluate p.types s.value).holds

/-- The errors of rules after a group is judged on a state. -/
def judgeErrors (p : Plan) (s : State) (group : List (ℕ × Rule)) : Table ℕ Notice :=
  group.foldl (fun t e => t.update e.1 (e.2.notice? p.types s.value)) s.ruleErrors

/-- What the deciding rule of an effect says about a field; without one, what is declared. -/
def decision (p : Plan) (s : State) (key : String) (effect : Effect) (declared : Bool) : Bool :=
  ((Rule.deciding? p.schema.rules p.types s.value key effect).map
    (·.effectValue.truthy)).getD declared

variable {p : Plan} {s s' : State} {r : Rule} {group : List (ℕ × Rule)} {i : ℕ}

theorem satisfied_congr (h : s.value r.trigger = s'.value r.trigger) :
    p.satisfied s r = p.satisfied s' r := by
  rw [satisfied, satisfied, Rule.evaluate_congr h]

theorem notice?_congr (h : s.value r.trigger = s'.value r.trigger) :
    r.notice? p.types s.value = r.notice? p.types s'.value := by
  rw [Rule.notice?, Rule.notice?, Rule.evaluate_congr h]

theorem deciding?_eq (p : Plan) (s : State) (key : String) (effect : Effect) :
    Rule.deciding? p.schema.rules p.types s.value key effect =
      ((p.rulesFor key effect).filter fun e => p.satisfied s e.2).getLast?.map Prod.snd := by
  rw [Rule.deciding?, ← map_snd_rulesFor, List.filter_map, List.getLast?_map]
  rfl

theorem decision_eq (p : Plan) (s : State) (key : String) (effect : Effect) (declared : Bool) :
    p.decision s key effect declared =
      (((p.rulesFor key effect).filter fun e => p.satisfied s e.2).getLast?.map
        (·.2.effectValue.truthy)).getD declared := by
  rw [decision, deciding?_eq, Option.map_map]
  rfl

theorem get?_judgeErrors_of_not_mem (h : ∀ r, (i, r) ∉ group) :
    (p.judgeErrors s group).get? i = s.ruleErrors.get? i := by
  have hnone : (group.filter fun e => decide (e.1 = i)) = [] := by
    refine List.filter_eq_nil_iff.mpr fun e he hi => h e.2 ?_
    rw [← of_decide_eq_true hi]
    exact he
  rw [judgeErrors, Table.get?_foldl_update Prod.fst, hnone]
  rfl

theorem get?_judgeErrors_of_mem (h : (i, r) ∈ group)
    (hone : ∀ r', (i, r') ∈ group → r' = r) :
    (p.judgeErrors s group).get? i = r.notice? p.types s.value := by
  obtain ⟨e, he⟩ : ∃ e, (group.filter fun e => decide (e.1 = i)).getLast? = some e := by
    refine Option.ne_none_iff_exists'.mp fun hnone => ?_
    rw [List.getLast?_eq_none_iff, List.filter_eq_nil_iff] at hnone
    exact hnone _ h (decide_eq_true rfl)
  obtain ⟨hmem, hi⟩ := List.mem_filter.mp (List.mem_of_getLast? he)
  have hrule : e.2 = r := hone e.2 (by rw [← of_decide_eq_true hi]; exact hmem)
  rw [judgeErrors, Table.get?_foldl_update Prod.fst, he, ← hrule]
  rfl

end Plan

/-! ## Judging in a pass -/

namespace Pass

variable {p : Plan} {a : Pass}

/-- The pass with other errors of rules. -/
def withRuleErrors (a : Pass) (errors : Table ℕ Notice) : Pass :=
  { a with state := { a.state with ruleErrors := errors } }

theorem judged_eq (a : Pass) (i : ℕ) (n : Option Notice) :
    a.judged i n = a.withRuleErrors (a.state.ruleErrors.update i n) := by
  cases n <;> rfl

theorem formulaJudged_eq (a : Pass) (key : String) (notices : List Notice) :
    a.formulaJudged key notices = { a with
      state := { a.state with
        formulaErrors := a.state.formulaErrors.update key
          (if notices.isEmpty then none else some notices) } } := by
  cases notices <;> rfl

theorem anyDirty_eq_false {keys : List String} :
    a.anyDirty keys = false ↔ ∀ k ∈ keys, k ∉ a.dirty := by
  simp [anyDirty]

theorem stale_eq_false {full : Bool} {group : List (ℕ × Rule)} :
    a.stale full group = false ↔
      group = [] ∨ full = false ∧ ∀ e ∈ group, e.2.trigger ∉ a.dirty := by
  rw [stale, Bool.and_eq_false_iff, Bool.or_eq_false_iff, anyDirty_eq_false, Bool.not_eq_false',
    List.isEmpty_iff, List.forall_mem_map]

/-- Judges one rule of a group: its error, and what it decides when it is satisfied. -/
def judgeOne (p : Plan) (b : Pass × Bool) (e : ℕ × Rule) : Pass × Bool :=
  (b.1.judged e.1 (e.2.notice? p.types b.1.state.value),
    if p.satisfied b.1.state e.2 then e.2.effectValue.truthy else b.2)

theorem foldl_judgeOne (group : List (ℕ × Rule)) (t : Table ℕ Notice) (shown : Bool) :
    group.foldl (judgeOne p) (a.withRuleErrors t, shown) =
      (a.withRuleErrors (group.foldl
          (fun t e => t.update e.1 (e.2.notice? p.types a.state.value)) t),
        group.foldl (fun b e => if p.satisfied a.state e.2 then e.2.effectValue.truthy else b)
          shown) := by
  induction group generalizing t shown with
  | nil => rfl
  | cons e group ih =>
    rw [List.foldl_cons, List.foldl_cons, List.foldl_cons, ← ih, judgeOne, judged_eq]
    rfl

/-- **A group judged**: its errors are noted, and its last satisfied rule decides. -/
theorem judgeGroup_eq (p : Plan) (key : String) (effect : Effect) (declared : Bool) (a : Pass) :
    a.judgeGroup p (p.rulesFor key effect) declared =
      (a.withRuleErrors (p.judgeErrors a.state (p.rulesFor key effect)),
        p.decision a.state key effect declared) := by
  have hrun := foldl_judgeOne (p := p) (a := a) (p.rulesFor key effect) a.state.ruleErrors declared
  rw [foldl_last fun e : ℕ × Rule => p.satisfied a.state e.2, ← Plan.decision_eq] at hrun
  exact hrun

/-- The rules of a group whose trigger has changed. -/
def live (a : Pass) (group : List (ℕ × Rule)) : List (ℕ × Rule) :=
  group.filter fun e => a.dirty.contains e.2.trigger

/-- Judges one rule that sets a value, if its trigger has changed. -/
def judgeSetter (p : Plan) (b : Pass × Option (ℕ × Rule)) (e : ℕ × Rule) :
    Pass × Option (ℕ × Rule) :=
  if b.1.dirty.contains e.2.trigger then
    (b.1.judged e.1 (e.2.notice? p.types b.1.state.value),
      if p.satisfied b.1.state e.2 then some e else b.2)
  else b

theorem foldl_judgeSetter (group : List (ℕ × Rule)) (t : Table ℕ Notice)
    (winner : Option (ℕ × Rule)) :
    group.foldl (judgeSetter p) (a.withRuleErrors t, winner) =
      (a.withRuleErrors ((a.live group).foldl
          (fun t e => t.update e.1 (e.2.notice? p.types a.state.value)) t),
        (a.live group).foldl (fun w e => if p.satisfied a.state e.2 then some e else w)
          winner) := by
  induction group generalizing t winner with
  | nil => rfl
  | cons e group ih =>
    rw [List.foldl_cons]
    by_cases hlive : a.dirty.contains e.2.trigger = true
    · have hstep : judgeSetter p (a.withRuleErrors t, winner) e =
          (a.withRuleErrors (t.update e.1 (e.2.notice? p.types a.state.value)),
            if p.satisfied a.state e.2 then some e else winner) := by
        refine (if_pos hlive).trans ?_
        rw [judged_eq]
        rfl
      have hcons : a.live (e :: group) = e :: a.live group := List.filter_cons_of_pos hlive
      rw [hstep, ih, hcons]
      rfl
    · have hstep : judgeSetter p (a.withRuleErrors t, winner) e = (a.withRuleErrors t, winner) :=
        if_neg hlive
      have hcons : a.live (e :: group) = a.live group := List.filter_cons_of_neg hlive
      rw [hstep, ih, hcons]

/-- **The rules that set a value judged**: only those whose trigger has changed, and the last
satisfied one of them wins. -/
theorem judgeSetters_eq (p : Plan) (group : List (ℕ × Rule)) (a : Pass) :
    a.judgeSetters p group =
      (a.withRuleErrors (p.judgeErrors a.state (a.live group)),
        ((a.live group).filter fun e => p.satisfied a.state e.2).getLast?) := by
  have hrun := foldl_judgeSetter (p := p) (a := a) group a.state.ruleErrors none
  rw [foldl_last fun e : ℕ × Rule => p.satisfied a.state e.2] at hrun
  refine hrun.trans (congrArg (Prod.mk _) ?_)
  cases ((a.live group).filter fun e => p.satisfied a.state e.2).getLast? <;> rfl

end Pass

end LiveForm
