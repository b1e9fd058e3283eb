import LiveForm.Session.Listening
import LiveForm.Proofs.Session.Reachable

/-!
# Operations

What a user asks of a session, as data, so that statements can speak of any sequence of requests.

* `Operation`, `Session.perform`, `Session.after`: one request, and a session after some of them;
* `Session.Reachable.after`: it is reachable from where the first one was made;
* `Session.Uninterrupted`: no check of a field is broken off in a run of operations;
* **`Session.perform_cases`**: an operation changes nothing, is interrupted, or tells what differs;
* `Session.told_perform`: it tells what it answers, if that is anything.
-/

namespace LiveForm

/-- What a user asks of a session. -/
inductive Operation where
  | set (key : String) (value : Value)
  | settle
  | reset
  | check

/-- The request that asks for an operation. -/
def Operation.request : Operation → Request
  | set key value => .set (.text key) value
  | settle => .settle
  | reset => .reset
  | check => .check

namespace Session

/-- Carries out an operation. The answer is an error or a set of changes, and a check answers with
none. -/
def perform (s : Session) : Operation → Outcome (Except OperationError (Option ChangeSet))
  | .set key value =>
    let o := s.set key value
    { session := o.session, answer := o.answer.map some, told := o.told }
  | .settle =>
    let o := s.settle
    { session := o.session, answer := o.answer.map some, told := o.told }
  | .reset => { session := s.reset.session, answer := .ok s.reset.answer, told := s.reset.told }
  | .check =>
    let o := s.check
    { session := o.session, answer := o.answer.map fun _ => none, told := o.told }

/-- The session after operations. -/
def after (s : Session) (ops : List Operation) : Session :=
  ops.foldl (fun s o => (s.perform o).session) s

/-- **None of some operations is interrupted**, as they are made in turn. -/
def Uninterrupted (s : Session) : List Operation → Prop
  | [] => True
  | o :: ops => ¬ (s.perform o).Interrupted ∧ (s.perform o).session.Uninterrupted ops

variable {s : Session} {o : Operation}

theorem Reachable.perform (h : s.Reachable) (o : Operation) : (s.perform o).session.Reachable := by
  cases o with
  | set key value => exact h.set key value
  | settle => exact h.settle
  | reset => exact h.reset
  | check => exact h.check

theorem Reachable.after (h : s.Reachable) (ops : List Operation) : (s.after ops).Reachable := by
  induction ops generalizing s with
  | nil => exact h
  | cons o ops ih => exact ih (h.perform o)

theorem plan_perform (s : Session) (o : Operation) : (s.perform o).session.plan = s.plan := by
  cases o with
  | set key value => exact plan_set s key value
  | settle => exact plan_settle s
  | reset => rfl
  | check => exact plan_check s

theorem interrupted_map {α β : Type} {f : α → β} {o : Outcome (Except OperationError α)}
    {o' : Outcome (Except OperationError β)} (h : o'.answer = o.answer.map f) :
    o'.Interrupted ↔ o.Interrupted := by
  rw [Outcome.Interrupted, Outcome.Interrupted, h]
  cases o.answer <;> simp [Except.map]

theorem interrupted_perform_set (key : String) (v : Value) :
    (s.perform (.set key v)).Interrupted ↔ (s.set key v).Interrupted := interrupted_map rfl

theorem interrupted_perform_settle : (s.perform .settle).Interrupted ↔ s.settle.Interrupted :=
  interrupted_map rfl

theorem interrupted_perform_check : (s.perform .check).Interrupted ↔ s.check.Interrupted :=
  interrupted_map rfl

theorem not_interrupted_perform_reset : ¬ (s.perform .reset).Interrupted := nofun

/-! ## Changes that are told -/

theorem told_set (s : Session) (key : String) (value : Value) :
    (s.set key value).told = (s.set key value).answer.toOption.bind tell := by
  rw [Session.set]
  split
  · rfl
  · split
    · rfl
    · dsimp only
      split <;> rfl

theorem told_settle (s : Session) : s.settle.told = s.settle.answer.toOption.bind tell := by
  rw [Session.settle]
  dsimp only
  split <;> rfl

theorem told_reset (s : Session) : s.reset.told = tell s.reset.answer := rfl

theorem changed_of_tell {c c' : ChangeSet} (h : tell c = some c') : c' = c ∧ c.changed = true := by
  rw [tell] at h
  split at h
  · next hc => exact ⟨(Option.some.inj h).symm, hc⟩
  · cases h

/-- **What an operation tells is what it answers**, if that is any change; a check answers with
none. -/
theorem told_perform (s : Session) (ho : o ≠ .check) :
    (s.perform o).told = (s.perform o).answer.toOption.bind fun c => c.bind tell := by
  cases o with
  | set key value =>
    have htold := told_set s key value
    rw [perform]
    dsimp only
    rw [htold]
    cases (s.set key value).answer <;> rfl
  | settle =>
    have htold := told_settle s
    rw [perform]
    dsimp only
    rw [htold]
    cases s.settle.answer <;> rfl
  | reset => exact told_reset s
  | check => exact absurd rfl ho

/-- **What an operation can do**: nothing at all to the state, or it is interrupted, or it tells
what differs between the states before and after it. Checks tell of it when they are asked to. -/
theorem perform_cases (s : Session) (o : Operation) (h : s.plan.notifyOnValidate = true) :
    ((s.perform o).session.state = s.state ∧ (s.perform o).told = none) ∨
      ((s.perform o).Interrupted ∧ (s.perform o).told = none) ∨
      ∃ trigger origin written setters, (s.perform o).told = tell
        (.between s.plan s.state (s.perform o).session.state trigger origin written setters) := by
  cases o with
  | set key value =>
    rw [interrupted_perform_set, perform]
    dsimp only
    cases hf : writable s.plan.schema key "set_value" with
    | error r =>
      rw [Session.set, hf]
      exact Or.inl ⟨rfl, rfl⟩
    | ok f =>
      cases hv : (s.state.value key).same value with
      | true =>
        rw [Session.set, hf]
        simp only [hv]
        exact Or.inl ⟨rfl, rfl⟩
      | false =>
        rw [interrupted_set_iff hf hv]
        cases hagain : (s.afterWrite key value).interruption with
        | some cause =>
          rw [set_of_interruption hf hv hagain]
          exact Or.inr (Or.inl ⟨⟨cause, rfl⟩, rfl⟩)
        | none =>
          obtain ⟨lines, hset⟩ := set_of_calm hf hv hagain
          rw [hset]
          exact Or.inr (Or.inr ⟨_, _, _, _, rfl⟩)
  | settle =>
    rw [interrupted_perform_settle, interrupted_settle_iff, perform]
    dsimp only
    cases hagain : s.afterSettle.interruption with
    | some cause =>
      rw [settle_of_interruption hagain]
      exact Or.inr (Or.inl ⟨⟨cause, rfl⟩, rfl⟩)
    | none =>
      obtain ⟨lines, hsettle⟩ := settle_of_calm hagain
      rw [hsettle]
      exact Or.inr (Or.inr ⟨_, _, _, _, rfl⟩)
  | reset => exact Or.inr (Or.inr ⟨_, _, _, _, rfl⟩)
  | check =>
    rw [perform, Session.check]
    cases s.found with
    | error cause => exact Or.inl ⟨rfl, rfl⟩
    | ok errors =>
      refine Or.inr (Or.inr ⟨none, .engine, [], .empty, ?_⟩)
      dsimp only
      rw [h]
      rfl

theorem changed_of_told {c : ChangeSet} (h : (s.perform o).told = some c) : c.changed = true := by
  by_cases ho : o = .check
  · subst ho
    rw [perform, Session.check] at h
    split at h
    · cases h
    · dsimp only at h
      split at h
      · obtain ⟨rfl, hc⟩ := changed_of_tell h
        exact hc
      · cases h
  · rw [told_perform s ho, Option.bind_eq_some_iff] at h
    obtain ⟨c', -, h⟩ := h
    obtain ⟨c'', -, htell⟩ := Option.bind_eq_some_iff.mp h
    obtain ⟨rfl, hc⟩ := changed_of_tell htell
    exact hc

end Session

end LiveForm
