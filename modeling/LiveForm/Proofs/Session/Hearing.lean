import LiveForm.Proofs.Session.Round

/-!
# What listeners hear

A listener that goes on listening, and makes no requests, is told of everything that happens to a
session, unless an error is raised before its turn comes.

* `Audience.step_cases`: only operations change a session, and only they have anything to tell;
* `heardBy`, `reactionsIn`: what a listener hears, and what came of the requests of others;
* `Audience.Effect.Smooth`: no error was raised too early for those who come after some
  listeners;
* `Audience.Ahead`: who comes before a listener;
* `Audience.Attended`, **`Audience.Attended.round`**: a listener goes on listening;
* **`Audience.Carried.mem_heardBy`, `Audience.Carried.length_heardBy`**: it hears what an operation
  has to tell, and no more than one set of changes of each request.
-/

namespace LiveForm

namespace Audience

variable {a b : Audience} {r : Request} {c : ChangeSet}

/-! ## Steps -/

theorem step_operation (a : Audience) (o : Operation) :
    (a.step o.request).audience = { a with session := (a.session.perform o).session } ∧
      (a.step o.request).told = (a.session.perform o).told := by
  cases o <;> exact ⟨rfl, rfl⟩

/-- **Only operations change a session**, and only they have anything to tell. -/
theorem step_cases (a : Audience) (r : Request) : (∃ o : Operation, r = o.request) ∨
    (a.step r).told = none ∧ (a.step r).audience.session.plan = a.session.plan ∧
      (a.step r).audience.session.state = a.session.state := by
  cases r with
  | set key value =>
    obtain ⟨k, rfl, -⟩ | hrefused :=
      a.keyed_cases key "set_value" .changes fun k => a.session.set k value
    · exact .inl ⟨.set k value, rfl⟩
    · exact .inr ⟨hrefused.told, hrefused.plan, hrefused.state⟩
  | settle => exact .inl ⟨.settle, rfl⟩
  | reset => exact .inl ⟨.reset, rfl⟩
  | check => exact .inl ⟨.check, rfl⟩
  | read what key =>
    refine .inr ?_
    obtain ⟨k, -, hstep⟩ | hrefused := a.keyed_cases key (readName what) .value fun k =>
      a.session.read k (readName what) fun _ => aspectValue a.session k what
    · rw [step, hstep, stepOf, Session.read]
      split <;> exact ⟨rfl, rfl, rfl⟩
    · exact ⟨hrefused.told, hrefused.plan, hrefused.state⟩
  | subscribe other reactions => exact .inr ⟨rfl, rfl, rfl⟩
  | unsubscribe other =>
    rw [step]
    split <;> exact .inr ⟨rfl, rfl, rfl⟩

theorem plan_step (a : Audience) (r : Request) :
    (a.step r).audience.session.plan = a.session.plan := by
  obtain ⟨o, rfl⟩ | ⟨-, hplan, -⟩ := step_cases a r
  · rw [(step_operation a o).1]
    exact Session.plan_perform _ o
  · exact hplan

theorem reply_of_interrupted {o : Operation} (h : (a.session.perform o).Interrupted) :
    ∃ cause, (a.step o.request).reply = .error (.interrupted cause) := by
  have hreply : ∀ {α : Type} {o : Outcome (Except Session.OperationError α)}
      (make : α → Session → Reply), o.Interrupted →
        ∃ cause, replyOf make o.answer = .error (.interrupted cause) := by
    intro α o make h
    obtain ⟨cause, hcause⟩ := h
    exact ⟨cause, by rw [hcause]; rfl⟩
  cases o with
  | set key value => exact hreply _ (Session.interrupted_perform_set key value |>.mp h)
  | settle => exact hreply _ (Session.interrupted_perform_settle.mp h)
  | reset => exact absurd h Session.not_interrupted_perform_reset
  | check => exact hreply _ (Session.interrupted_perform_check.mp h)

theorem changed_of_told (h : (a.step r).told = some c) : c.changed = true := by
  obtain ⟨o, rfl⟩ | ⟨hnone, -⟩ := step_cases a r
  · rw [(step_operation a o).2] at h
    exact Session.changed_of_told h
  · rw [hnone] at h
    cases h

/-- **What an operation tells is what it replies**, if that is any change; a check replies with
none. -/
theorem told_iff_replied {o : Operation} (ho : o ≠ .check) (s : Session) :
    (a.step o.request).told = some c ↔
      (a.step o.request).reply.map (· s) = .ok (.changes c) ∧ c.changed = true := by
  have htell : ∀ {answer : Except Session.OperationError ChangeSet},
      answer.toOption.bind Session.tell = some c ↔
        (replyOf (fun c _ => Reply.changes c) answer).map (· s) = .ok (.changes c) ∧
          c.changed = true := by
    intro answer
    cases answer with
    | error e => cases e <;> exact iff_of_false nofun fun h => nomatch h.1
    | ok c' =>
      simp only [Except.toOption, Option.bind_some, replyOf, Except.map, Except.ok.injEq,
        Reply.changes.injEq]
      rw [Session.tell]
      split <;> grind
  rw [(a.step_operation o).2]
  cases o with
  | set key value => exact (Session.told_set _ key value ▸ htell :)
  | settle => exact (Session.told_settle _ ▸ htell :)
  | reset => exact @htell (.ok a.session.reset.answer)
  | check => exact absurd rfl ho

end Audience

/-! ## What is heard -/

/-- The sets of changes that a listener was told. -/
def heardBy (name : String) (exchanges : List Exchange) : List ChangeSet :=
  exchanges.filterMap fun
    | .told listener c => if listener = name then some c else none
    | .reacted .. => none

/-- What came of the requests that listeners made. -/
def reactionsIn (exchanges : List Exchange) : List (Except RequestError Reply) :=
  exchanges.filterMap fun
    | .told .. => none
    | .reacted _ result => some result

section

variable {name listener : String} {c : ChangeSet} {xs ys : List Exchange}
  {result : Except RequestError Reply}

theorem heardBy_append : heardBy name (xs ++ ys) = heardBy name xs ++ heardBy name ys :=
  List.filterMap_append

theorem heardBy_told : heardBy name (.told listener c :: xs) =
    (if listener = name then [c] else []) ++ heardBy name xs := by
  rw [heardBy, List.filterMap_cons]
  by_cases h : listener = name
  · simp [h, heardBy]
  · simp [h, heardBy]

theorem heardBy_reacted : heardBy name (.reacted listener result :: xs) = heardBy name xs := rfl

theorem reactionsIn_append : reactionsIn (xs ++ ys) = reactionsIn xs ++ reactionsIn ys :=
  List.filterMap_append

theorem reactionsIn_told : reactionsIn (.told listener c :: xs) = reactionsIn xs := rfl

theorem reactionsIn_reacted :
    reactionsIn (.reacted listener result :: xs) = result :: reactionsIn xs := rfl

end

/-! ## Turns -/

/-- **Those who come before a listener** are among some. -/
def Audience.Ahead (first : List String) (name : String) (names : List String) : Prop :=
  names.Pairwise fun before later => later = name → before ∈ first

theorem Audience.Ahead.of_cons {first names : List String} {name other : String}
    (h : Ahead first name (other :: names)) :
    (name ∈ names → other ∈ first) ∧ Ahead first name names :=
  (List.pairwise_cons.mp h).imp_left fun hother hmem => hother name hmem rfl

namespace Audience.Round

variable {a b : Audience} {c : ChangeSet} {first names : List String} {failure : Option String}
  {xs : List Exchange} {ts : List Telling} {name : String}

theorem heardBy_eq (h : Round c a names b failure xs ts) (name : String) :
    heardBy name xs = (ts.filter (·.listener = name)).map Telling.changes := by
  induction h with
  | done => rfl
  | @failed _ _ listener =>
    rw [heardBy_told, List.filter_cons]
    by_cases hname : listener = name <;> simp [hname, heardBy]
  | @silent _ _ _ listener _ _ _ _ _ _ ih =>
    rw [heardBy_told, List.filter_cons, ih]
    by_cases hname : listener = name <;> simp [hname]
  | @untold _ _ _ listener _ _ _ _ _ _ _ _ _ ih =>
    rw [heardBy_told, heardBy_reacted, List.filter_cons, ih]
    by_cases hname : listener = name <;> simp [hname]
  | @nested _ _ _ _ _ listener _ _ _ _ _ _ _ _ _ _ _ _ _ ih ih' =>
    rw [List.cons_append, List.cons_append, heardBy_told, heardBy_reacted, heardBy_append,
      List.cons_append, List.filter_cons, List.filter_append, ih, ih']
    by_cases hname : listener = name <;> simp [hname]

theorem changed_of_mem (h : Round c a names b failure xs ts) (hc : c.changed = true) :
    ∀ t ∈ ts, t.changes.changed = true := by
  induction h with
  | done => exact fun _ h => absurd h List.not_mem_nil
  | failed => exact List.forall_mem_singleton.mpr hc
  | silent _ _ ih | untold _ _ _ ih => exact List.forall_mem_cons.mpr ⟨hc, ih hc⟩
  | nested _ htold _ _ ih ih' =>
    exact List.forall_mem_append.mpr
      ⟨List.forall_mem_cons.mpr ⟨hc, ih (changed_of_told htold)⟩, ih' hc⟩

/-- A listener of a name is told in a round, unless one of those before it fails. -/
theorem exists_telling (h : Round c a names b failure xs ts) (hahead : Ahead first name names)
    (hfailure : ∀ other, failure = some other → other ∉ first) (hname : name ∈ names) :
    ∃ t ∈ ts, t.listener = name ∧ t.changes = c := by
  induction h with
  | done => exact absurd hname List.not_mem_nil
  | failed =>
    rcases List.mem_cons.mp hname with rfl | hmem
    · exact ⟨_, List.mem_cons_self, rfl, rfl⟩
    · exact absurd (hahead.of_cons.1 hmem) (hfailure _ rfl)
  | silent _ _ ih | untold _ _ _ ih =>
    rcases List.mem_cons.mp hname with rfl | hmem
    · exact ⟨_, List.mem_cons_self, rfl, rfl⟩
    · obtain ⟨t, ht, htold⟩ := ih hahead.of_cons.2 hfailure hmem
      exact ⟨t, List.mem_cons_of_mem _ ht, htold⟩
  | nested _ _ _ _ _ ih =>
    rcases List.mem_cons.mp hname with rfl | hmem
    · exact ⟨_, List.mem_cons_self, rfl, rfl⟩
    · obtain ⟨t, ht, htold⟩ := ih hahead.of_cons.2 hfailure hmem
      exact ⟨t, List.mem_append_right _ ht, htold⟩

theorem heardBy_of_unanswered (h : Round c a names b failure xs ts)
    (hahead : Ahead first name names) (hfailure : ∀ other, failure = some other → other ∉ first)
    (hnone : reactionsIn xs = []) : heardBy name xs = List.replicate (names.count name) c := by
  induction h with
  | done => rfl
  | @failed c _ other names =>
    have hrest : names.count name = 0 := List.count_eq_zero.mpr fun hmem =>
      hfailure other rfl (hahead.of_cons.1 hmem)
    rw [heardBy_told, List.count_cons, hrest]
    by_cases hname : other = name <;> simp [hname, heardBy]
  | @silent _ _ _ listener _ _ _ _ _ _ ih =>
    rw [heardBy_told, ih hahead.of_cons.2 hfailure hnone, List.count_cons]
    by_cases hname : listener = name <;> simp [hname, List.replicate_succ]
  | untold | nested => cases hnone

end Audience.Round

/-! ## Errors that are raised -/

/-- **Nothing was raised too early** by a request or by those that listeners made upon it: none of
some listeners failed, and no check of a field was broken off. Those who come after these listeners
were told of everything. -/
structure Audience.Effect.Smooth (first : List String) (e : Audience.Effect) : Prop where
  result : ∀ error, e.result = .error error → ¬ error.RaisedBefore first
  reactions : ∀ error, .error error ∈ reactionsIn e.exchanges → ¬ error.RaisedBefore first

theorem Audience.calm_of_resultOf {a b : Audience} {r : Request} {first : List String}
    {failure : Option String}
    (h : ∀ error, a.resultOf r b failure = .error error → ¬ error.RaisedBefore first) :
    (∀ other, failure = some other → other ∉ first) ∧
      (failure = none → ∀ cause, (a.step r).reply ≠ .error (.interrupted cause)) := by
  constructor
  · rintro other rfl
    exact h (.listenerFailed other) rfl
  · rintro rfl cause hcause
    refine h (.interrupted cause) ?_ trivial
    rw [resultOf, hcause]
    rfl

/-! ## Listeners that go on listening -/

mutual

/-- Something holds of all that listeners will do whom the request brings in. -/
def Request.Throughout (P : Reaction → Prop) : Request → Prop
  | .subscribe _ reactions => ThroughoutAll P reactions
  | _ => True

/-- It holds of what a listener does, and of all that is done by those whom this brings in. -/
def Reaction.Throughout (P : Reaction → Prop) : Reaction → Prop
  | .fail => P .fail
  | .request r => P (.request r) ∧ r.Throughout P

def ThroughoutAll (P : Reaction → Prop) : List Reaction → Prop
  | [] => True
  | r :: rs => r.Throughout P ∧ ThroughoutAll P rs

end

/-- A request does not change how often a listener is told. -/
def Request.Spares (name : String) : Request → Prop
  | .subscribe other _ | .unsubscribe other => other ≠ name
  | _ => True

/-- Nor does what a listener does. -/
def Reaction.Spares (name : String) : Reaction → Prop
  | .fail => True
  | .request r => r.Spares name

theorem Operation.throughout_request (o : Operation) (P : Reaction → Prop) :
    o.request.Throughout P := by
  cases o <;> exact trivial

theorem Operation.spares_request (o : Operation) (name : String) : o.request.Spares name := by
  cases o <;> exact trivial

namespace Audience

/-- Something holds of all that listeners have still to do. -/
def Throughout (P : Reaction → Prop) (a : Audience) : Prop :=
  ∀ name reactions, a.reactions.get? name = some reactions → ThroughoutAll P reactions

/-- **A listener listens**: it is told once of each change, after none but some others, makes no
requests, and none of the requests that others have still to make changes that. -/
structure Attended (a : Audience) (first : List String) (name : String) : Prop where
  once : a.listening.count name = 1
  ahead : Ahead first name a.listening
  silent : a.reactions.get? name = some []
  spared : a.Throughout (Reaction.Spares name)

variable {a b : Audience} {name other : String} {first names : List String} {P : Reaction → Prop}
  {r : Request} {reaction : Reaction} {later : List Reaction} {c : ChangeSet}
  {failure : Option String} {xs : List Exchange} {ts : List Telling} {e : Effect}

/-- A request but for those of subscriptions leaves the listeners as they are. -/
theorem listeners_step (a : Audience) (r : Request) :
    (∃ name reactions, r = .subscribe name reactions) ∨ (∃ name, r = .unsubscribe name) ∨
      (a.step r).audience.reactions = a.reactions ∧
        (a.step r).audience.listening = a.listening := by
  cases r with
  | set key value => exact .inr (.inr (listeners_keyed a key _ _ _))
  | read what key => exact .inr (.inr (listeners_keyed a key _ _ _))
  | settle | reset | check => exact .inr (.inr ⟨rfl, rfl⟩)
  | subscribe other reactions => exact .inl ⟨_, _, rfl⟩
  | unsubscribe other => exact .inr (.inl ⟨_, rfl⟩)

namespace Throughout

theorem left (h : a.Throughout P) (hr : a.reactions.get? name = some (reaction :: later)) :
    (a.left name later).Throughout P ∧ reaction.Throughout P := by
  obtain ⟨hreaction, hlater⟩ := h name _ hr
  refine ⟨fun k reactions hk => ?_, hreaction⟩
  rw [Audience.left, Table.get?_set] at hk
  split at hk
  · exact Option.some.inj hk ▸ hlater
  · exact h k reactions hk

theorem step (h : a.Throughout P) (hr : r.Throughout P) : (a.step r).audience.Throughout P := by
  obtain ⟨other, reactions, rfl⟩ | ⟨other, rfl⟩ | ⟨hreactions, -⟩ := listeners_step a r
  · intro k rs hk
    rw [Audience.step] at hk
    dsimp only at hk
    split at hk
    · exact h k rs hk
    · rw [Table.get?_set] at hk
      split at hk
      · exact Option.some.inj hk ▸ hr
      · exact h k rs hk
  · rw [Audience.step]
    split <;> exact h
  · rw [Throughout, hreactions]
    exact h

end Throughout

theorem plan_round (h : Round c a names b failure xs ts) : b.session.plan = a.session.plan := by
  induction h with
  | done | failed => rfl
  | silent _ _ ih => exact ih
  | untold _ _ _ ih => exact ih.trans (plan_step _ _)
  | nested _ _ _ _ ih ih' => exact ih'.trans (ih.trans (plan_step _ _))

theorem plan_carried (h : Carried a r e ts) : e.audience.session.plan = a.session.plan := by
  cases h with
  | untold => exact plan_step a r
  | told _ round => exact (plan_round round).trans (plan_step a r)

namespace Attended

theorem mem_listening (h : a.Attended first name) : name ∈ a.listening :=
  List.count_pos_iff.mp (by rw [h.once]; exact Nat.one_pos)

theorem left (h : a.Attended first name) (hr : a.reactions.get? other = some (reaction :: later)) :
    (a.left other later).Attended first name := by
  refine ⟨h.once, h.ahead, ?_, (h.spared.left hr).1⟩
  rw [Audience.left, Table.get?_set, if_neg]
  · exact h.silent
  · rintro rfl
    rw [h.silent] at hr
    cases hr

theorem step (h : a.Attended first name) (hr : r.Spares name)
    (hthroughout : r.Throughout (Reaction.Spares name)) :
    (a.step r).audience.Attended first name := by
  suffices hlisten : (a.step r).audience.listening.count name = 1 ∧
      Ahead first name (a.step r).audience.listening ∧
      (a.step r).audience.reactions.get? name = some [] from
    ⟨hlisten.1, hlisten.2.1, hlisten.2.2, h.spared.step hthroughout⟩
  obtain ⟨other, reactions, rfl⟩ | ⟨other, rfl⟩ | ⟨hreactions, hlistening⟩ := listeners_step a r
  · have hne : other ≠ name := hr
    refine ⟨?_, ?_, ?_⟩
    · change (a.listening ++ [other]).count name = 1
      rw [List.count_append, h.once, List.count_singleton, beq_false_of_ne hne]
      rfl
    · refine List.pairwise_append.mpr ⟨h.ahead, List.pairwise_singleton _ _, ?_⟩
      rintro before - later hlater rfl
      exact absurd (List.mem_singleton.mp hlater).symm hne
    · rw [Audience.step]
      dsimp only
      split
      · exact h.silent
      · rw [Table.get?_set, if_neg hne]
        exact h.silent
  · have hne : other ≠ name := hr
    rw [Audience.step]
    split
    · exact ⟨(List.count_erase_of_ne hne.symm).trans h.once,
        h.ahead.sublist List.erase_sublist, h.silent⟩
    · exact ⟨h.once, h.ahead, h.silent⟩
  · rw [hreactions, hlistening]
    exact ⟨h.once, h.ahead, h.silent⟩

theorem step_left (h : a.Attended first name)
    (hr : a.reactions.get? other = some (.request r :: later)) :
    ((a.left other later).step r).audience.Attended first name := by
  obtain ⟨-, hspares, hthroughout⟩ := h.spared.left hr
  exact (h.left hr).step hspares hthroughout

theorem step_operation (h : a.Attended first name) (o : Operation) :
    (a.step o.request).audience.Attended first name :=
  h.step (o.spares_request name) (o.throughout_request _)

/-- **A round leaves a listener listening.** -/
theorem round (ha : a.Attended first name) (h : Round c a names b failure xs ts) :
    b.Attended first name := by
  induction h with
  | done => exact ha
  | silent _ _ ih => exact ih ha
  | failed hr => exact ha.left hr
  | untold hr _ _ ih => exact ih (ha.step_left hr)
  | nested hr _ _ _ ih ih' => exact ih' (ih (ha.step_left hr))

theorem carried {o : Operation} (ha : a.Attended first name) (h : Carried a o.request e ts) :
    e.audience.Attended first name := by
  cases h with
  | untold => exact ha.step_operation o
  | told _ round => exact (ha.step_operation o).round round

end Attended

theorem Round.length_heardBy (h : Round c a names b failure xs ts) (ha : a.Attended first name) :
    (heardBy name xs).length ≤ names.count name + (reactionsIn xs).length := by
  have hone : ∀ (listener : String) (c : ChangeSet) (names : List String),
      (if listener = name then [c] else []).length + names.count name =
        (listener :: names).count name := by
    intro listener c names
    rw [List.count_cons]
    by_cases hname : listener = name <;> simp [hname, Nat.add_comm]
  induction h with
  | done => exact Nat.zero_le _
  | @failed c _ listener names =>
    rw [heardBy_told, List.length_append, ← hone listener c names]
    exact Nat.add_le_add_right (Nat.le_add_right _ _) 0
  | @silent c _ _ listener names _ _ _ _ _ ih =>
    have hrest := ih ha
    rw [heardBy_told, List.length_append, ← hone listener c names, reactionsIn_told]
    omega
  | @untold c _ _ listener names _ _ _ _ _ hr _ _ ih =>
    have hrest := ih (ha.step_left hr)
    rw [heardBy_told, heardBy_reacted, List.length_append, ← hone listener c names,
      reactionsIn_told, reactionsIn_reacted, List.length_cons]
    omega
  | @nested c _ _ _ _ listener names _ _ _ _ _ _ _ _ hr _ inner _ ih ih' =>
    have hstep := ha.step_left hr
    have hinner := ih hstep
    have hrest := ih' (hstep.round inner)
    rw [hstep.once] at hinner
    rw [List.cons_append, List.cons_append, heardBy_told, heardBy_reacted, heardBy_append,
      List.length_append, List.length_append, ← hone listener c names, reactionsIn_told,
      reactionsIn_reacted, reactionsIn_append, List.length_cons, List.length_append]
    omega

namespace Carried

theorem heardBy_eq (h : Carried a r e ts) (name : String) :
    heardBy name e.exchanges = (ts.filter (·.listener = name)).map Telling.changes := by
  cases h with
  | untold => rfl
  | told _ round => exact round.heardBy_eq name

theorem changed_of_mem (h : Carried a r e ts) : ∀ t ∈ ts, t.changes.changed = true := by
  cases h with
  | untold => exact fun _ ht => absurd ht List.not_mem_nil
  | told htold round => exact round.changed_of_mem (changed_of_told htold)

/-- A request that returns has the reply of its step. -/
theorem reply (h : Carried a r e ts) {reply : Reply} (hresult : e.result = .ok reply) :
    (a.step r).reply.map (· e.audience.session) = .ok reply := by
  cases h with
  | untold => exact hresult
  | @told _ _ failure =>
    cases failure with
    | none => exact hresult
    | some other => cases hresult

section

variable {o : Operation} (h : Carried a o.request e ts) (ha : a.Attended first name)

include h ha

theorem length_heardBy :
    (heardBy name e.exchanges).length ≤ 1 + (reactionsIn e.exchanges).length := by
  cases h with
  | untold => exact Nat.zero_le _
  | told _ round =>
    have hlength := round.length_heardBy (ha.step_operation o)
    rwa [(ha.step_operation o).once] at hlength

variable (hsmooth : e.Smooth first)

include hsmooth

/-- A listener hears what an operation has to tell, unless something is raised before its turn. -/
theorem mem_heardBy (htold : (a.step o.request).told = some c) : c ∈ heardBy name e.exchanges := by
  cases h with
  | untold hnone =>
    rw [htold] at hnone
    cases hnone
  | told htold' round =>
    obtain rfl := Option.some.inj (htold'.symm.trans htold)
    have hresult := hsmooth.result
    have hattended := ha.step_operation o
    obtain ⟨t, ht, hlistener, hchanges⟩ := round.exists_telling hattended.ahead
      (calm_of_resultOf hresult).1 hattended.mem_listening
    rw [round.heardBy_eq name]
    exact List.mem_map.mpr ⟨t, List.mem_filter.mpr ⟨ht, decide_eq_true hlistener⟩, hchanges⟩

theorem heardBy_of_unanswered (hnone : reactionsIn e.exchanges = []) :
    heardBy name e.exchanges = (a.step o.request).told.toList := by
  cases h with
  | untold htold =>
    rw [htold]
    rfl
  | told htold round =>
    have hresult := hsmooth.result
    have hattended := ha.step_operation o
    rw [htold, round.heardBy_of_unanswered hattended.ahead (calm_of_resultOf hresult).1 hnone,
      hattended.once]
    rfl

end

end Carried

end Audience

end LiveForm
