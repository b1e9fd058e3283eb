import LiveForm.Proofs.Session.Operation

/-!
# Rounds of telling

A set of changes is told to all listeners in a round. A listener may answer with a request, which is
carried out before the round goes on, with a round of its own when it has something to tell.

* `Telling`: who is told of what, and the session at that time, `Audience.tellings`: all that are
  told in the course of a request;
* `RequestError.RaisedBefore`: errors that keep changes from those who are told later;
* `Audience.keyed_cases`: a request for a field is refused when its key is no text;
* `Audience.Round`: a round and the rounds within it;
* `Audience.weight_step`, `Audience.Round.weight_le`: the requests that are still to be made get
  fewer;
* **`Audience.carried_request`**: so a request is carried out in full, as a step and the round of
  what it has to tell;
* `Audience.request_of_untold`: it is no more than a step when it has nothing to tell.
-/

namespace LiveForm

/-- Who is told of what, and the session at that time. -/
structure Telling where
  listener : String
  changes : ChangeSet
  session : Session

namespace Audience

variable {a b : Audience} {r : Request} {c : ChangeSet} {name listener : String}
  {names : List String} {later : List Reaction} {depth : ℕ}

/-! ## What is told -/

/-- The audience when a listener has one thing less to do. -/
def left (a : Audience) (name : String) (later : List Reaction) : Audience :=
  { a with reactions := a.reactions.set name later }

/-- All that are told of changes, and of what follows from the requests of those who are. -/
def tellRound (carry : Audience → Request → Effect)
    (tellings : Audience → Request → List Telling) (changes : ChangeSet) (a : Audience) :
    (names : List String) → List Telling
  | [] => []
  | name :: names =>
    let now : Telling := ⟨name, changes, a.session⟩
    match a.reactions.get? name with
    | some (.fail :: _) => [now]
    | some (.request r :: later) =>
      now :: tellings (a.left name later) r ++
        tellRound carry tellings changes (carry (a.left name later) r).audience names
    | _ => now :: tellRound carry tellings changes a names

/-- All that are told in the course of a request, to a depth of requests within requests. -/
def tellingsTo : (depth : ℕ) → Audience → Request → List Telling
  | depth, a, r =>
    let s := a.step r
    match depth, s.told with
    | depth + 1, some changes =>
      tellRound (carry depth) (tellingsTo depth) changes s.audience s.audience.listening
    | _, _ => []

/-- All that are told in the course of a request. -/
def tellings (a : Audience) (r : Request) : List Telling := tellingsTo (a.weight + r.weight) a r

/-! ## Rounds -/

/-- What a request comes to when all have been told of it, or a listener has failed. -/
def resultOf (a : Audience) (r : Request) (b : Audience) :
    (failure : Option String) → Except RequestError Reply
  | none => (a.step r).reply.map (· b.session)
  | some name => .error (.listenerFailed name)

/-- **The listeners of some names are told of changes in turn**, with all that comes of it: the
audience afterwards, the listener that failed, what was exchanged, and who was told. -/
inductive Round : ChangeSet → Audience → List String → Audience → Option String →
    List Exchange → List Telling → Prop
  | done (c : ChangeSet) (a : Audience) : Round c a [] a none [] []
  /-- A listener that has nothing to do. -/
  | silent {c : ChangeSet} {a b : Audience} {name : String} {names : List String}
    {failure : Option String} {xs : List Exchange} {ts : List Telling}
    (h : ∀ reactions, a.reactions.get? name = some reactions → reactions = [])
    (rest : Round c a names b failure xs ts) :
    Round c a (name :: names) b failure (.told name c :: xs) (⟨name, c, a.session⟩ :: ts)
  /-- A listener that fails. Nobody is told any more. -/
  | failed {c : ChangeSet} {a : Audience} {name : String} {names : List String}
    {later : List Reaction} (h : a.reactions.get? name = some (.fail :: later)) :
    Round c a (name :: names) (a.left name later) (some name) [.told name c] [⟨name, c, a.session⟩]
  /-- A listener whose request has nothing to tell. -/
  | untold {c : ChangeSet} {a b : Audience} {name : String} {names : List String}
    {later : List Reaction} {r : Request} {failure : Option String} {xs : List Exchange}
    {ts : List Telling} (h : a.reactions.get? name = some (.request r :: later))
    (htold : ((a.left name later).step r).told = none)
    (rest : Round c ((a.left name later).step r).audience names b failure xs ts) :
    Round c a (name :: names) b failure
      (.told name c :: .reacted name
        ((a.left name later).resultOf r ((a.left name later).step r).audience none) :: xs)
      (⟨name, c, a.session⟩ :: ts)
  /-- A listener whose request leads to a round of its own. -/
  | nested {c c' : ChangeSet} {a b b' : Audience} {name : String} {names : List String}
    {later : List Reaction} {r : Request} {failure failure' : Option String}
    {xs xs' : List Exchange} {ts ts' : List Telling}
    (h : a.reactions.get? name = some (.request r :: later))
    (htold : ((a.left name later).step r).told = some c')
    (inner : Round c' ((a.left name later).step r).audience
      ((a.left name later).step r).audience.listening b' failure' xs' ts')
    (rest : Round c b' names b failure xs ts) :
    Round c a (name :: names) b failure
      (.told name c :: .reacted name ((a.left name later).resultOf r b' failure') :: xs' ++ xs)
      (⟨name, c, a.session⟩ :: ts' ++ ts)

/-- **A request is carried out**: its step has nothing to tell, or all listeners are told of it. -/
inductive Carried (a : Audience) (r : Request) : Effect → List Telling → Prop
  | untold (htold : (a.step r).told = none) :
    Carried a r
      { audience := (a.step r).audience, result := a.resultOf r (a.step r).audience none } []
  | told {c : ChangeSet} {b : Audience} {failure : Option String} {xs : List Exchange}
    {ts : List Telling} (htold : (a.step r).told = some c)
    (round : Round c (a.step r).audience (a.step r).audience.listening b failure xs ts) :
    Carried a r { audience := b, result := a.resultOf r b failure, exchanges := xs } ts

end Audience

/-! ## Requests for a field -/

/-- The error is raised before anybody is told who comes after the listeners of some names: one of
these failed, or a check was broken off. -/
def RequestError.RaisedBefore (first : List String) : RequestError → Prop
  | .listenerFailed name => name ∈ first
  | .interrupted _ => True
  | .failure _ | .noKey | .unknownListener => False

namespace Audience

variable {α : Type} (a : Audience) (key : Value) (operation : String) (make : α → Reply)
  (run : String → Outcome (Except Session.OperationError α))

/-- **A step is refused**: nothing is told, and the session and its listeners stay as they are. -/
structure Refused (a : Audience) (s : Step) : Prop where
  reactions : s.audience.reactions = a.reactions
  listening : s.audience.listening = a.listening
  plan : s.audience.session.plan = a.session.plan
  state : s.audience.session.state = a.session.state
  told : s.told = none
  reply : ∃ error, s.reply = .error error ∧ ∀ first, ¬ error.RaisedBefore first

/-- A request for a field is made of the session when its key is a text, and else refused. -/
theorem keyed_cases :
    (∃ k, key = .text k ∧
      a.keyed key operation make run = a.stepOf (run k) (replyOf fun answer _ => make answer)) ∨
    a.Refused (a.keyed key operation make run) := by
  by_cases htext : ∃ k, key = .text k
  · obtain ⟨k, rfl⟩ := htext
    exact .inl ⟨k, rfl, rfl⟩
  · refine .inr ?_
    rw [keyed]
    · split
      · exact ⟨rfl, rfl, rfl, rfl, rfl, _, rfl, fun _ => id⟩
      · exact ⟨rfl, rfl, rfl, rfl, rfl, _, rfl, fun _ => id⟩
    · exact fun k hk => htext ⟨k, hk⟩

theorem listeners_keyed : (a.keyed key operation make run).audience.reactions = a.reactions ∧
    (a.keyed key operation make run).audience.listening = a.listening := by
  obtain ⟨k, -, hstep⟩ | hrefused := keyed_cases a key operation make run
  · rw [hstep]
    exact ⟨rfl, rfl⟩
  · exact ⟨hrefused.reactions, hrefused.listening⟩

end Audience

namespace Audience

variable {a b : Audience} {r : Request} {c : ChangeSet} {name listener : String}
  {names : List String} {later : List Reaction} {depth : ℕ}

/-! ## Counting requests -/

/-- The number of requests that some listeners have still to make. -/
def weightOf : List (String × List Reaction) → ℕ
  | [] => 0
  | e :: es => weights e.2 + weightOf es

theorem weight_eq (a : Audience) : a.weight = weightOf a.reactions.entries := by
  have hfold : ∀ (es : List (String × List Reaction)) (n : ℕ),
      es.foldl (fun n e => n + weights e.2) n = n + weightOf es := by
    intro es
    induction es with
    | nil => exact fun _ => rfl
    | cons e es ih =>
      intro n
      rw [List.foldl_cons, ih, weightOf, Nat.add_assoc]
  rw [weight, hfold, Nat.zero_add]

theorem weightOf_put_of_find {old : List Reaction} (new : List Reaction)
    {es : List (String × List Reaction)} (h : Table.find name es = some old) :
    weightOf (Table.put name new es) + weights old = weightOf es + weights new := by
  induction es with
  | nil => cases h
  | cons e es ih =>
    obtain ⟨k, v⟩ := e
    rw [Table.find] at h
    rw [Table.put]
    split at h
    · next hk =>
      obtain rfl := Option.some.inj h
      rw [if_pos hk]
      simp only [weightOf]
      omega
    · next hk =>
      rw [if_neg hk]
      simp only [weightOf]
      have := ih h
      omega

theorem weightOf_put_of_find_eq_none (new : List Reaction) {es : List (String × List Reaction)}
    (h : Table.find name es = none) :
    weightOf (Table.put name new es) = weightOf es + weights new := by
  induction es with
  | nil => exact Nat.add_comm _ _
  | cons e es ih =>
    obtain ⟨k, v⟩ := e
    rw [Table.find] at h
    rw [Table.put]
    split at h
    · cases h
    · next hk =>
      rw [if_neg hk]
      simp only [weightOf]
      rw [ih h]
      omega

theorem weight_left {reaction : Reaction} (h : a.reactions.get? name = some (reaction :: later)) :
    (a.left name later).weight + reaction.weight = a.weight := by
  have hsum := weightOf_put_of_find later h
  rw [weights] at hsum
  rw [weight_eq, weight_eq, left, Table.set]
  dsimp only
  omega

/-- A request is counted no more when its step is made. What a new listener will do is counted from
then on. -/
theorem weight_step (a : Audience) (r : Request) :
    (a.step r).audience.weight + 1 ≤ a.weight + r.weight := by
  cases r with
  | set key value =>
    rw [weight_eq, weight_eq, step, (listeners_keyed a key _ _ _).1]
    exact Nat.le_refl _
  | read what key =>
    rw [weight_eq, weight_eq, step, (listeners_keyed a key _ _ _).1]
    exact Nat.le_refl _
  | settle | reset | check => exact Nat.le_refl _
  | unsubscribe other =>
    rw [step]
    split <;> exact Nat.le_refl _
  | subscribe other reactions =>
    rw [step, Request.weight, weight_eq, weight_eq]
    dsimp only
    split
    · omega
    · next hknown =>
      rw [Bool.not_eq_true, Option.isSome_eq_false_iff, Option.isNone_iff_eq_none] at hknown
      rw [Table.set, weightOf_put_of_find_eq_none _ hknown]
      omega

theorem Round.weight_le {failure : Option String} {xs : List Exchange} {ts : List Telling}
    (h : Round c a names b failure xs ts) : b.weight ≤ a.weight := by
  induction h with
  | done => exact Nat.le_refl _
  | silent _ _ ih => exact ih
  | failed h => exact Nat.le.intro (weight_left h)
  | @untold _ a _ name _ later r _ _ _ h _ _ ih =>
    have hstep := weight_step (a.left name later) r
    have hleft := weight_left h
    rw [Reaction.weight] at hleft
    omega
  | @nested _ _ a _ _ name _ later r _ _ _ _ _ _ h _ _ _ ih ih' =>
    have hstep := weight_step (a.left name later) r
    have hleft := weight_left h
    rw [Reaction.weight] at hleft
    omega

theorem Carried.weight_le {e : Effect} {ts : List Telling} (h : Carried a r e ts) :
    e.audience.weight + 1 ≤ a.weight + r.weight := by
  have hstep := weight_step a r
  cases h with
  | untold => exact hstep
  | told _ round => exact Nat.le_trans (Nat.add_le_add_right round.weight_le 1) hstep

/-! ## Requests in full -/

theorem round_tell (hcarry : ∀ a r, a.weight + r.weight ≤ depth →
      Carried a r (carry depth a r) (tellingsTo depth a r))
    (c : ChangeSet) (names : List String) (a : Audience) (h : a.weight ≤ depth) :
    Round c a names (tell (carry depth) c a names).1 (tell (carry depth) c a names).2.1
      (tell (carry depth) c a names).2.2
      (tellRound (carry depth) (tellingsTo depth) c a names) := by
  -- Whatever the listeners before it have asked for, the requests that are left fit the depth.
  induction names generalizing a with
  | nil => exact .done c a
  | cons name names ih =>
    rw [tell, tellRound]
    dsimp only
    rcases hreactions : a.reactions.get? name with _ | (_ | ⟨reaction, later⟩)
    · refine .silent (fun reactions hr => ?_) (ih a h)
      rw [hreactions] at hr
      cases hr
    · refine .silent (fun reactions hr => ?_) (ih a h)
      rw [hreactions] at hr
      exact (Option.some.inj hr).symm
    · cases reaction with
      | fail => exact .failed hreactions
      | request r =>
        have hleft := weight_left hreactions
        rw [Reaction.weight] at hleft
        have hcarried := hcarry (a.left name later) r (Nat.le_trans (Nat.le_of_eq hleft) h)
        have hrest := ih (carry depth (a.left name later) r).audience
          (by have := hcarried.weight_le; omega)
        dsimp only
        rw [← left]
        generalize carry depth (a.left name later) r = e at hcarried hrest ⊢
        generalize tellingsTo depth (a.left name later) r = ts at hcarried ⊢
        cases hcarried with
        | untold htold => exact .untold hreactions htold hrest
        | told htold round => exact .nested hreactions htold round hrest

/-- **A depth of as many requests as there are is deep enough.** -/
theorem carried_carry (depth : ℕ) (a : Audience) (r : Request) (h : a.weight + r.weight ≤ depth) :
    Carried a r (carry depth a r) (tellingsTo depth a r) := by
  induction depth generalizing a r with
  | zero =>
    have := weight_step a r
    omega
  | succ depth ih =>
    unfold carry tellingsTo
    dsimp only
    cases htold : (a.step r).told with
    | none => exact .untold htold
    | some c =>
      refine .told htold (round_tell ih c _ _ ?_)
      have := weight_step a r
      omega

/-- **A request is a step, and the round of what it has to tell.** -/
theorem carried_request (a : Audience) (r : Request) :
    Carried a r (a.request r) (a.tellings r) :=
  carried_carry _ a r (Nat.le_refl _)

theorem request_of_untold (h : (a.step r).told = none) : a.request r =
    { audience := (a.step r).audience, result := a.resultOf r (a.step r).audience none } := by
  have hcarried := carried_request a r
  generalize a.request r = e at hcarried ⊢
  generalize a.tellings r = ts at hcarried
  cases hcarried with
  | untold => rfl
  | told htold =>
    rw [h] at htold
    cases htold

end Audience

end LiveForm
