import LiveForm.Proofs.Session.Hearing
import LiveForm.Proofs.Session.Write

/-!
# Writing again what was written

A write compares the new value with the one that is there. What follows from a write never writes
the field that was written, so when the same value is written again it is found there, and nothing
happens. A NaN is the exception: it is not the same as itself, so it is written as if it were new,
and everybody is told each time.

* `Audience.Quiet`: listeners that make no requests;
* `Session.IdleWrite`: a write that does nothing, and tells nobody;
* **`Session.idleWrite_iff`**: a write is idle just when the value that is there is the same;
* `Session.same_value_set`: the value that a write leaves;
* **`Session.Reachable.set_again`**: which writes are idle when they are repeated;
* `Session.not_idle_again`: not all of them are.
-/

namespace LiveForm

theorem Value.same_eq_false_of_isNaN {v w : Value} (h : v.isNaN = true) : w.same v = false := by
  cases v with
  | float x =>
    cases x with
    | nan label =>
      cases w <;>
        simp [same, kind, equiv, scalarEquiv, extent?, number?, Number.extent?, Binary64.extent]
    | _ => cases h
  | _ => cases h

/-! ## Listeners that make no requests -/

namespace Audience

/-- No listener has anything to do when it is told of changes. -/
def Quiet (a : Audience) : Prop := ∀ name reactions, a.reactions.get? name = some reactions →
  reactions = []

variable {a b : Audience} {c : ChangeSet} {names : List String} {failure : Option String}
  {xs : List Exchange} {ts : List Telling}

theorem Quiet.round (hquiet : a.Quiet) (h : Round c a names b failure xs ts) : b = a := by
  induction h with
  | done => rfl
  | silent _ _ ih => exact ih hquiet
  | failed h | untold h | nested h => cases hquiet _ _ h

theorem Quiet.session_request (hquiet : a.Quiet) (o : Operation) :
    (a.request o.request).audience.session = (a.session.perform o).session := by
  have hcarried := a.carried_request o.request
  obtain ⟨haudience, -⟩ := a.step_operation o
  generalize a.request o.request = e at hcarried ⊢
  generalize a.tellings o.request = ts at hcarried
  cases hcarried with
  | untold => exact congrArg Audience.session haudience
  | told _ round =>
    rw [haudience] at round
    have hstep : Quiet { a with session := (a.session.perform o).session } := hquiet
    rw [hstep.round round]

end Audience

/-! ## Writing twice -/

namespace Session

variable {s : Session} {key : String} {v : Value} {f : Field}

/-- **A write does nothing**: the state stays as it is in every channel, the answer is empty, and no
listener of an audience is told. -/
structure IdleWrite (s : Session) (key : String) (v : Value) : Prop where
  state : (s.set key v).session.state = s.state
  answer : (s.set key v).answer = .ok { trigger := some key, origin := .user }
  told : (s.set key v).told = none
  exchanges : ∀ a : Audience, a.session = s → (a.request (.set (.text key) v)).exchanges = []

theorem idleWrite_of_same (hf : writable s.plan.schema key "set_value" = .ok f)
    (hv : (s.state.value key).same v = true) : s.IdleWrite key v := by
  have hset : s.set key v =
      { session := s.noting [.event (.writeUnchanged key)]
        answer := .ok { trigger := some key, origin := .user } } := by
    rw [set, hf]
    dsimp only
    rw [if_pos hv]
  have htold : (s.set key v).told = none := by rw [hset]
  refine ⟨by rw [hset]; rfl, by rw [hset], htold, fun a ha =>
    congrArg Audience.Effect.exchanges (Audience.request_of_untold ?_)⟩
  subst ha
  exact htold

/-- A value that is not the same is written, and the answer has an entry for its field, unless the
write is interrupted. -/
theorem exists_change_of_ne (hp : s.plan.WellFormed)
    (hf : writable s.plan.schema key "set_value" = .ok f)
    (hv : (s.state.value key).same v = false) (hcalm : ¬ (s.set key v).Interrupted) :
    ∃ c, (s.set key v).answer = .ok c ∧ key ∈ c.keys ∧ (s.set key v).told = some c := by
  have hmem := mem_fieldKeys_of_writable hf
  have hmoved : s.state.moved (s.written key v) key = true := by
    rw [State.moved_eq_true, value_written, (written_propagate hp hmem).1]
    exact hv
  obtain ⟨change, hchange, hkey⟩ := ChangeSet.exists_mem_between hmem hmoved
  have hanswer := answer_set_of_ne hf hv hcalm
  refine ⟨_, hanswer, List.mem_map.mpr ⟨change, hchange, hkey⟩, ?_⟩
  rw [told_set, hanswer]
  refine if_pos ?_
  rw [ChangeSet.changed, Bool.not_eq_true', List.isEmpty_eq_false_iff]
  exact List.ne_nil_of_mem hchange

/-- **A write is idle** just when the value that is there is the same. -/
theorem idleWrite_iff (hp : s.plan.WellFormed)
    (hf : writable s.plan.schema key "set_value" = .ok f) :
    s.IdleWrite key v ↔ (s.state.value key).same v = true := by
  refine ⟨fun hidle => ?_, idleWrite_of_same hf⟩
  have hcalm : ¬ (s.set key v).Interrupted := by
    rintro ⟨cause, hcause⟩
    rw [hidle.answer] at hcause
    cases hcause
  by_contra hv
  obtain ⟨c, -, -, htold⟩ := exists_change_of_ne hp hf (Bool.eq_false_iff.mpr hv) hcalm
  rw [hidle.told] at htold
  cases htold

/-- **The value that a write leaves** is the same as the written one, unless that is a NaN. -/
theorem same_value_set (hp : s.plan.WellFormed)
    (hf : writable s.plan.schema key "set_value" = .ok f) (hn : v.isNaN = false) :
    ((s.set key v).session.state.value key).same v = true := by
  cases hv : (s.state.value key).same v with
  | true =>
    rw [(idleWrite_of_same hf hv).state]
    exact hv
  | false =>
    have hvalue : (s.set key v).session.state.value key = v := by
      rw [state_set_of_ne hf hv, value_written]
      exact (written_propagate hp (mem_fieldKeys_of_writable hf)).1
    rw [hvalue]
    exact Value.same_refl hn

/-- **What comes of a write that is repeated.** -/
structure Repeats (s : Session) (key : String) (v : Value) : Prop where
  /-- It is idle, unless it writes a NaN. -/
  idle_iff : (s.set key v).session.IdleWrite key v ↔ v.isNaN = false
  /-- Listeners that make no requests of their own are not told of it. -/
  unheard : v.isNaN = false → ∀ a : Audience, a.Quiet → a.session = s →
    ((a.request (.set (.text key) v)).audience.request (.set (.text key) v)).exchanges = []
  /-- A NaN is written again, and everybody is told, unless the second write is interrupted. -/
  nan : v.isNaN = true → ¬ ((s.set key v).session.set key v).Interrupted →
    ∃ c, ((s.set key v).session.set key v).answer = .ok c ∧ key ∈ c.keys ∧
      ((s.set key v).session.set key v).told = some c

/-- **A repeated write** of a field that may be written is idle in every reachable session, unless
it writes a NaN. -/
theorem Reachable.set_again (h : s.Reachable) (hf : f ∈ s.plan.schema.fields)
    (hcomputed : f.isComputed = false) (v : Value) : s.Repeats f.key v := by
  have hp := h.sound.planned.toWellFormed
  have hwritable := writable_of_not_computed hp hf hcomputed "set_value"
  have hp' := (h.set f.key v).sound.planned.toWellFormed
  have hwritable' : writable (s.set f.key v).session.plan.schema f.key "set_value" = .ok f := by
    rw [plan_set]
    exact hwritable
  have hidle : (s.set f.key v).session.IdleWrite f.key v ↔ v.isNaN = false := by
    rw [idleWrite_iff hp' hwritable']
    constructor
    · intro hv
      by_contra hn
      rw [Value.same_eq_false_of_isNaN ((Bool.not_eq_false _).mp hn)] at hv
      cases hv
    · exact same_value_set hp hwritable
  refine ⟨hidle, ?_,
    fun hn => exists_change_of_ne hp' hwritable' (Value.same_eq_false_of_isNaN hn)⟩
  rintro hn a hquiet rfl
  exact (hidle.mpr hn).exchanges _ (hquiet.session_request (.set f.key v))

theorem order_set_again : ∃ (s : Session) (f : Field),
    (s.Reachable ∧ f ∈ s.plan.schema.fields ∧ f.isComputed = false) ∧
      s.Repeats f.key (.list [.float (.nan 1), .text "a"]) := by
  obtain ⟨s, hs, hplan, -⟩ := exists_order
  have hmem : orderForm.fields[0] ∈ s.plan.schema.fields := by
    rw [hplan]
    exact List.getElem_mem _
  exact ⟨s, _, ⟨.opened hs, hmem, rfl⟩, Reachable.set_again (.opened hs) hmem rfl _⟩

/-- **Not every repeated write is idle**: that of a NaN is not. -/
theorem not_idle_again : ¬ ∀ (s : Session) (f : Field) (v : Value), s.Reachable →
    f ∈ s.plan.schema.fields → f.isComputed = false →
      (s.set f.key v).session.IdleWrite f.key v := by
  intro hall
  obtain ⟨s, hs, hplan, -⟩ := exists_order
  have hmem : orderForm.fields[0] ∈ s.plan.schema.fields := by
    rw [hplan]
    exact List.getElem_mem _
  have hreachable := (Reachable.opened hs).set orderForm.fields[0].key (.float (.nan 1))
  have hp := hreachable.sound.planned.toWellFormed
  have hwritable := writable_of_not_computed hp (by rw [plan_set]; exact hmem) rfl "set_value"
  have hsame := (idleWrite_iff hp hwritable).mp
    (hall s orderForm.fields[0] (.float (.nan 1)) (.opened hs) hmem rfl)
  rw [Value.same_eq_false_of_isNaN rfl] at hsame
  cases hsame

end Session

end LiveForm
