import LiveForm.Proofs.Session.Hearing
import LiveForm.Proofs.Session.Valid

/-!
# Requests in which nothing is raised

Errors are raised in the midst of an operation by listeners that fail, and by searches for a pattern
that are broken off. Where no search is, nothing is raised before a listener is told when none of
those that come before it fails.

* `Plan.Steady`: no search for the pattern of a field is broken off;
* `Session.not_interrupted`: then no operation is interrupted;
* `Audience.Willing`, `Audience.Willing.round`: some listeners do not fail, and will not;
* **`Audience.Carried.smooth`**: nothing is raised by a request before those are told who come after
  these listeners.
-/

namespace LiveForm

/-- No search for the pattern of a field is broken off. -/
def Plan.Steady (p : Plan) : Prop :=
  ∀ f ∈ p.schema.fields, ∀ t cause, ¬ f.BreaksOff p.search t cause

namespace Session

variable {s : Session} {p : Plan}

theorem findings_ne_error (h : p.Steady) (t : State) (key : String)
    (cause : Pattern.Interruption) : t.findings p key ≠ .error cause := by
  intro hbroken
  obtain ⟨f, hf, hcheck⟩ := State.findings_eq_error hbroken
  obtain ⟨-, -, hbreaks⟩ := checkField_eq_error_iff.mp hcheck
  exact h f (Schema.mem_of_field? hf).1 _ cause hbreaks

theorem interruption_recheck (h : p.Steady) (before after : State) (cause : Pattern.Interruption) :
    (recheck p before after).interruption ≠ some cause := by
  intro hcause
  cases hr : p.revalidateOnChange with
  | false =>
    rw [recheck_of_not hr] at hcause
    cases hcause
  | true =>
    obtain ⟨key, -, -, hbroken⟩ := (rechecks_recheck hr before after).broken cause hcause
    exact findings_ne_error h after key cause hbroken

/-- **No operation is interrupted** where no pattern breaks a search off. -/
theorem not_interrupted (h : s.plan.Steady) (o : Operation) :
    ¬ (s.perform o).Interrupted := by
  cases o with
  | set key v =>
    rw [interrupted_perform_set]
    intro hinterrupted
    obtain ⟨f, hf, hv⟩ | hnot := s.new_or_not key v
    · obtain ⟨cause, hcause⟩ := (interrupted_set_iff hf hv).mp hinterrupted
      exact interruption_recheck h _ _ cause hcause
    · exact not_interrupted_set_of_not hnot hinterrupted
  | settle =>
    rw [interrupted_perform_settle, interrupted_settle_iff]
    rintro ⟨cause, hcause⟩
    exact interruption_recheck h _ _ cause hcause
  | reset => exact not_interrupted_perform_reset
  | check =>
    rw [interrupted_perform_check, interrupted_check_iff, found, Table.collect_eq_error_iff]
    rintro ⟨f, hf, cause, hbroken⟩
    obtain ⟨-, -, hbreaks⟩ := checkField_eq_error_iff.mp hbroken
    exact h f hf _ cause hbreaks

end Session

namespace Audience

variable {a b : Audience} {r : Request} {c : ChangeSet} {first names : List String}
  {name : String} {reaction : Reaction} {later : List Reaction} {failure : Option String}
  {xs : List Exchange} {ts : List Telling} {e : Effect} {error : RequestError}

/-! ## Listeners that do not fail -/

/-- **Some listeners are willing**: they are known, and none of them will fail. -/
def Willing (a : Audience) (first : List String) : Prop :=
  ∀ name ∈ first, ∃ reactions, a.reactions.get? name = some reactions ∧ .fail ∉ reactions

namespace Willing

theorem left (h : a.Willing first) (hr : a.reactions.get? name = some (reaction :: later)) :
    (a.left name later).Willing first ∧ (name ∈ first → reaction ≠ .fail) := by
  have hown : name ∈ first → .fail ∉ reaction :: later := by
    intro hname
    obtain ⟨reactions, hreactions, hmem⟩ := h name hname
    exact Option.some.inj (hr.symm.trans hreactions) ▸ hmem
  constructor
  · intro other hother
    rw [Audience.left, Table.get?_set]
    split
    · next heq =>
      exact ⟨later, rfl, fun hmem => hown (heq ▸ hother) (List.mem_cons_of_mem _ hmem)⟩
    · exact h other hother
  · rintro hname rfl
    exact hown hname List.mem_cons_self

/-- No request makes a listener fail that was known before. -/
theorem step (h : a.Willing first) (r : Request) : (a.step r).audience.Willing first := by
  obtain ⟨other, reactions, rfl⟩ | ⟨other, rfl⟩ | ⟨hreactions, -⟩ := listeners_step a r
  · rw [Audience.step]
    dsimp only
    split
    · exact h
    · next hnew =>
      intro name hname
      obtain ⟨own, hown, hmem⟩ := h name hname
      refine ⟨own, ?_, hmem⟩
      rw [Table.get?_set, if_neg]
      · exact hown
      · rintro rfl
        rw [hown] at hnew
        exact hnew rfl
  · rw [Audience.step]
    split <;> exact h
  · rw [Willing, hreactions]
    exact h

theorem round (ha : a.Willing first) (h : Round c a names b failure xs ts) : b.Willing first := by
  induction h with
  | done => exact ha
  | silent _ _ ih => exact ih ha
  | failed hr => exact (ha.left hr).1
  | untold hr _ _ ih => exact ih ((ha.left hr).1.step _)
  | nested hr _ _ _ ih ih' => exact ih' (ih ((ha.left hr).1.step _))

theorem carried (ha : a.Willing first) (h : Carried a r e ts) : e.audience.Willing first := by
  cases h with
  | untold => exact ha.step r
  | told _ round => exact (ha.step r).round round

end Willing

/-! ## Nothing is raised -/

theorem not_raised_step (h : a.session.plan.Steady)
    (herror : (a.step r).reply = .error error) : ¬ error.RaisedBefore first := by
  have hrefused : ∀ {α : Type} {o : Outcome (Except Session.OperationError α)}
      (make : α → Session → Reply), ¬ o.Interrupted → replyOf make o.answer = .error error →
        ¬ error.RaisedBefore first := by
    intro α o make hcalm hreply
    cases hanswer : o.answer with
    | ok answer =>
      rw [hanswer] at hreply
      cases hreply
    | error e =>
      rw [hanswer] at hreply
      cases e with
      | refused f =>
        cases hreply
        exact id
      | interrupted cause => exact absurd ⟨cause, hanswer⟩ hcalm
  have hkeyed : ∀ {α : Type} (key : Value) (operation : String) (make : α → Reply)
      (run : String → Outcome (Except Session.OperationError α)),
      (∀ k, ¬ (run k).Interrupted) → (a.keyed key operation make run).reply = .error error →
        ¬ error.RaisedBefore first := by
    intro α key operation make run hcalm hreply
    obtain ⟨k, -, hstep⟩ | ⟨-, -, -, -, -, error', herror', hraised⟩ :=
      keyed_cases a key operation make run
    · rw [hstep] at hreply
      exact hrefused _ (hcalm k) hreply
    · rw [herror'] at hreply
      exact Except.error.inj hreply ▸ hraised first
  have hcalm := fun o => Session.not_interrupted (s := a.session) h o
  cases r with
  | set key value =>
    exact hkeyed key _ _ _ (fun k => Session.interrupted_perform_set k value |>.not.mp
      (hcalm (.set k value))) herror
  | read what key =>
    refine hkeyed key _ _ _ (fun k => ?_) herror
    rw [Session.read]
    rintro ⟨cause, hcause⟩
    split at hcause <;> cases hcause
  | settle =>
    exact hrefused _ (Session.interrupted_perform_settle.not.mp (hcalm .settle)) herror
  | check => exact hrefused _ (Session.interrupted_perform_check.not.mp (hcalm .check)) herror
  | reset | subscribe => cases herror
  | unsubscribe other =>
    rw [step] at herror
    split at herror <;> cases herror
    exact id

theorem not_raised_resultOf (h : a.session.plan.Steady)
    (hfailure : ∀ other, failure = some other → other ∉ first)
    (herror : a.resultOf r b failure = .error error) : ¬ error.RaisedBefore first := by
  cases failure with
  | some other =>
    obtain rfl := Except.error.inj herror
    exact hfailure other rfl
  | none =>
    rw [resultOf] at herror
    cases hreply : (a.step r).reply with
    | ok make =>
      rw [hreply] at herror
      cases herror
    | error e =>
      rw [hreply] at herror
      cases herror
      exact not_raised_step h hreply

theorem Round.smooth (h : Round c a names b failure xs ts) (ha : a.Willing first)
    (hsteady : a.session.plan.Steady) :
    (∀ other, failure = some other → other ∉ first) ∧
      ∀ error, .error error ∈ reactionsIn xs → ¬ error.RaisedBefore first := by
  have hnone : ∀ other, none = some other → other ∉ first := by simp
  induction h with
  | done => exact ⟨hnone, fun _ h => absurd h List.not_mem_nil⟩
  | silent _ _ ih => exact ih ha hsteady
  | failed hr =>
    refine ⟨?_, fun _ h => absurd h List.not_mem_nil⟩
    rintro other heq hmem
    obtain rfl := Option.some.inj heq
    exact (ha.left hr).2 hmem rfl
  | @untold _ a _ name _ later r _ _ _ hr htold _ ih =>
    obtain ⟨hfailure, hrest⟩ := ih ((ha.left hr).1.step r)
      ((plan_step (a.left name later) r).symm ▸ hsteady)
    refine ⟨hfailure, fun error herror => ?_⟩
    rcases List.mem_cons.mp herror with hown | hother
    · exact not_raised_resultOf (a := a.left name later) hsteady hnone hown.symm
    · exact hrest error hother
  | @nested _ _ a _ b' name _ later r _ _ _ _ _ _ hr htold inner _ ih ih' =>
    have hstep := (ha.left hr).1.step r
    have hsteady' : ((a.left name later).step r).audience.session.plan.Steady :=
      (plan_step (a.left name later) r).symm ▸ hsteady
    obtain ⟨hfailure', hinner⟩ := ih hstep hsteady'
    obtain ⟨hfailure, hrest⟩ := ih' (hstep.round inner) (plan_round inner ▸ hsteady')
    refine ⟨hfailure, fun error herror => ?_⟩
    rw [List.cons_append, List.cons_append, reactionsIn_told, reactionsIn_reacted,
      reactionsIn_append] at herror
    rcases List.mem_cons.mp herror with hown | hother
    · exact not_raised_resultOf (a := a.left name later) hsteady hfailure' hown.symm
    · exact (List.mem_append.mp hother).elim (hinner error) (hrest error)

/-- **Nothing is raised too early by a request** if some listeners do not fail and no pattern breaks
a search off. -/
theorem Carried.smooth (h : Carried a r e ts) (ha : a.Willing first)
    (hsteady : a.session.plan.Steady) : e.Smooth first := by
  cases h with
  | untold =>
    have hresult : ∀ error, a.resultOf r (a.step r).audience none = .error error →
        ¬ error.RaisedBefore first := fun _ => not_raised_resultOf hsteady (by simp)
    exact ⟨hresult, fun _ h => absurd h List.not_mem_nil⟩
  | told _ round =>
    obtain ⟨hfailure, hrest⟩ := round.smooth (ha.step r) (plan_step a r ▸ hsteady)
    exact ⟨fun _ => not_raised_resultOf hsteady hfailure, hrest⟩

end Audience

end LiveForm
