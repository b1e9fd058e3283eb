import LiveForm.Proofs.Session.Change
import LiveForm.Proofs.Session.Setter
import LiveForm.Proofs.Session.Smooth
import LiveForm.Proofs.Value.Transitive

/-!
# Observers

An observer copies what it sees of a session when it subscribes. From then on it looks only at what
it is told to have changed. Another listener that is told first may change the session again, and
then the observer hears of the later changes before the earlier ones. Still it never misses any:
what is out of date in its copy is reported by the changes that it has still to hear, and when it
hears of them it looks at what is there by then. Only an error that is raised before its turn comes
keeps changes from it: by a listener that subscribed before, or by a check that is broken off.

* `View`, `View.refresh`: a copy, and what it becomes when the reported aspects are read again;
* `View.Follows`: a copy is up to date at a field, `View.UpTo`: but for what is still to be heard;
* `Audience.Attended`: one listener goes on listening, and makes no requests;
* **`View.UpTo.round`**: a round brings its copy up to date;
* `Watch`: a session with its listeners, one of which is the observer;
* **`Watch.loses_nothing`**: the copy stays up to date, and what operations reply is heard;
* `Audience.runsSmoothly`: no error is raised too early if no listener that subscribed before fails
  and no pattern breaks a search off;
* `Watch.not_follows_of_failed`: a listener that fails keeps a change from those after it.
-/

namespace LiveForm

/-! ## Copies -/

/-- What an observer has of the fields of a form. -/
structure View where
  value : String → Value
  visible : String → Bool
  requires : String → Bool
  errors : String → List Notice

namespace View

/-- A copy of what a session has now. -/
def copy (s : Session) : View := ⟨s.state.value, s.state.visible, s.state.requires, s.errorsOf⟩

/-- The reported aspects of the reported fields are read again, and no others. -/
def refresh (s : Session) (v : View) (c : ChangeSet) : View where
  value key := if c.reports key .value then s.state.value key else v.value key
  visible key := if c.reports key .visibility then s.state.visible key else v.visible key
  requires key := if c.reports key .required then s.state.requires key else v.requires key
  errors key := if c.reports key .errors then s.errorsOf key else v.errors key

/-- **The copy is up to date in one aspect of a field**: a flag is the session's, the errors equal
the session's, and the value is the session's or the same. -/
def Agrees (v : View) (p : Plan) (s : State) (key : String) : Aspect → Prop
  | .value => v.value key = s.value key ∨ (v.value key).same (s.value key) = true
  | .visibility => v.visible key = s.visible key
  | .required => v.requires key = s.requires key
  | .errors => listEquiv Notice.equiv (v.errors key) (s.errors p key) = true

/-- **The copy is up to date at a field.** -/
def Follows (v : View) (p : Plan) (s : State) (key : String) : Prop :=
  ∀ aspect, v.Agrees p s key aspect

/-- **The copy is up to date but for what is still to be heard.** -/
def UpTo (v : View) (pending : List ChangeSet) (p : Plan) (s : State) : Prop :=
  ∀ key ∈ p.schema.fieldKeys, ∀ aspect,
    v.Agrees p s key aspect ∨ ∃ c ∈ pending, c.reports key aspect = true

variable {v : View} {s : Session} {p : Plan} {before after t : State} {key : String}
  {c : ChangeSet} {aspect : Aspect} {pending pending' : List ChangeSet}

theorem follows_copy (s : Session) (key : String) : (copy s).Follows s.plan s.state key
  | .value => Or.inl rfl
  | .visibility | .required => rfl
  | .errors => listEquiv_refl Notice.equiv_refl _

theorem Agrees.of_not_differs (h : v.Agrees p before key aspect)
    (hd : before.differs p after key aspect = false) : v.Agrees p after key aspect := by
  cases aspect with
  | value =>
    rw [State.differs, State.moved_eq_false] at hd
    rcases h with heq | hsame
    · exact Or.inr (heq ▸ hd)
    · exact Or.inr (Value.same_trans hsame hd)
  | visibility =>
    rw [State.differs, bne_eq_false_iff_eq] at hd
    exact Eq.trans h hd
  | required =>
    rw [State.differs, bne_eq_false_iff_eq] at hd
    exact Eq.trans h hd
  | errors =>
    rw [State.differs, Bool.not_eq_false'] at hd
    exact listEquiv_trans (r := Notice.equiv) Notice.equiv_trans h hd

theorem agrees_refresh (v : View) (h : c.reports key aspect = true) :
    (v.refresh s c).Agrees s.plan s.state key aspect := by
  cases aspect with
  | value => exact Or.inl (if_pos h)
  | visibility | required => exact if_pos h
  | errors =>
    have herrors : (v.refresh s c).errors key = s.state.errors s.plan key := if_pos h
    rw [Agrees, herrors]
    exact listEquiv_refl Notice.equiv_refl _

theorem Agrees.refresh (h : v.Agrees p t key aspect) (hc : c.reports key aspect = false) :
    (v.refresh s c).Agrees p t key aspect := by
  cases aspect <;> simpa [Agrees, View.refresh, hc] using h

namespace UpTo

theorem mono (h : v.UpTo pending p t) (hsub : pending ⊆ pending') : v.UpTo pending' p t :=
  fun key hkey aspect => (h key hkey aspect).imp_right fun ⟨c, hc, hr⟩ => ⟨c, hsub hc, hr⟩

/-- **Hearing of changes** leaves only the others to be heard. -/
theorem refresh (h : v.UpTo (c :: pending) s.plan s.state) :
    (v.refresh s c).UpTo pending s.plan s.state := by
  intro key hkey aspect
  cases hc : c.reports key aspect with
  | true => exact Or.inl (agrees_refresh v hc)
  | false =>
    rcases h key hkey aspect with hv | ⟨c', hc', hr⟩
    · exact Or.inl (hv.refresh hc)
    · rcases List.mem_cons.mp hc' with rfl | hmem
      · rw [hc] at hr
        cases hr
      · exact Or.inr ⟨c', hmem, hr⟩

/-- **What an operation changes is still to be heard.** -/
theorem between (h : v.UpTo pending p before) (trigger : Option String) (origin : Origin)
    (written : List String) (setters : Table String String) :
    v.UpTo ((Session.tell (.between p before after trigger origin written setters)).toList ++
      pending) p after := by
  intro key hkey aspect
  rcases h key hkey aspect with hv | ⟨c, hc, hr⟩
  · cases hd : before.differs p after key aspect with
    | false => exact Or.inl (hv.of_not_differs hd)
    | true =>
      have hr : (ChangeSet.between p before after trigger origin written setters).reports key
          aspect = true := by rw [ChangeSet.reports_between hkey, hd]
      refine Or.inr ⟨_, List.mem_append_left _ ?_, hr⟩
      rw [Session.tell, if_pos (ChangeSet.changed_of_reports hr)]
      exact List.mem_singleton_self _
  · exact Or.inr ⟨c, List.mem_append_right _ hc, hr⟩

end UpTo

end View

/-! ## Copies while others are told -/

namespace View

/-- What an observer of a name makes of something that is told. -/
def hear (name : String) (v : View) (t : Telling) : View :=
  if t.listener = name then v.refresh t.session t.changes else v

/-- What it makes of all that is told. -/
def follow (name : String) (v : View) (ts : List Telling) : View := ts.foldl (hear name) v

variable {v : View} {p : Plan} {name : String} {c : ChangeSet} {pending : List ChangeSet}
  {a b : Audience} {r : Request} {first names : List String} {failure : Option String}
  {xs : List Exchange} {ts : List Telling} {e : Audience.Effect} {o : Operation}

namespace UpTo

theorem hear {listener : String} {s : Session} (hplan : s.plan = p)
    (h : v.UpTo (if name ∈ listener :: names then c :: pending else pending) p s.state) :
    (v.hear name ⟨listener, c, s⟩).UpTo (if name ∈ names then c :: pending else pending) p
      s.state := by
  subst hplan
  rw [View.hear]
  by_cases hname : listener = name
  · rw [if_pos (List.mem_cons.mpr (Or.inl hname.symm))] at h
    rw [if_pos hname]
    refine h.refresh.mono ?_
    split
    · exact List.subset_cons_self c pending
    · exact List.Subset.refl pending
  · rw [if_neg hname]
    have hmem : name ∈ listener :: names ↔ name ∈ names := by simp [Ne.symm hname]
    simpa only [hmem] using h

/-- **What a step changes is still to be heard**, if it is not interrupted. One that tells something
never is. -/
theorem step (h : v.UpTo pending p a.session.state) (hplan : a.session.plan = p)
    (hn : p.notifyOnValidate = true) (r : Request)
    (hcalm : (a.step r).told = none → ∀ cause, (a.step r).reply ≠ .error (.interrupted cause)) :
    v.UpTo ((a.step r).told.toList ++ pending) p (a.step r).audience.session.state := by
  obtain ⟨o, rfl⟩ | ⟨htold, -, hstate⟩ := a.step_cases r
  · obtain ⟨haudience, htold⟩ := a.step_operation o
    rw [haudience, htold]
    subst hplan
    obtain ⟨hstate, hnone⟩ | ⟨hinterrupted, hnone⟩ | ⟨trigger, origin, written, setters, hc⟩ :=
      a.session.perform_cases o hn
    · rw [hstate, hnone]
      exact h
    · obtain ⟨cause, hcause⟩ := Audience.reply_of_interrupted hinterrupted
      exact absurd hcause (hcalm (htold.trans hnone) cause)
    · rw [hc]
      exact h.between trigger origin written setters
  · rw [htold, hstate]
    exact h

/-- **A round brings the copy up to date** with what it is about, unless something is raised before
the turn of the observer. -/
theorem round (h : Audience.Round c a names b failure xs ts) (ha : a.Attended first name)
    (hplan : a.session.plan = p) (hn : p.notifyOnValidate = true)
    (hahead : Audience.Ahead first name names)
    (hfailure : ∀ other, failure = some other → other ∉ first)
    (hsmooth : ∀ error, .error error ∈ reactionsIn xs → ¬ error.RaisedBefore first)
    (hv : v.UpTo (if name ∈ names then c :: pending else pending) p a.session.state) :
    (v.follow name ts).UpTo pending p b.session.state := by
  -- The copy lags behind in what is pending, and in `c` until the turn of the observer has come. A
  -- round within this one has both pending, which is why they are general in the induction.
  induction h generalizing v pending with
  | done => exact hv
  | failed =>
    -- The observer had its turn, for else the listener that fails would come before it.
    have hrest := hv.hear hplan
    rwa [if_neg fun hmem => hfailure _ rfl (hahead.of_cons.1 hmem)] at hrest
  | silent _ _ ih => exact ih ha hplan hahead.of_cons.2 hfailure hsmooth (hv.hear hplan)
  | @untold _ a _ listener _ later r _ _ _ hr htold _ ih =>
    have hattended := ha.step_left hr
    obtain ⟨-, hcalm⟩ := Audience.calm_of_resultOf fun error herror =>
      hsmooth error (herror ▸ List.mem_cons_self)
    have hstep := View.UpTo.step (a := a.left listener later) (hv.hear hplan) hplan hn r
      fun _ => hcalm rfl
    rw [htold] at hstep
    exact ih hattended ((Audience.plan_step _ r).trans hplan) hahead.of_cons.2 hfailure
      (fun error herror => hsmooth error (List.mem_cons_of_mem _ herror)) hstep
  | @nested _ _ a _ _ listener _ later r _ _ _ _ _ _ hr htold inner _ ih ih' =>
    have hattended := ha.step_left hr
    have hplan' := (Audience.plan_step (a.left listener later) r).trans hplan
    obtain ⟨hfailure', -⟩ := Audience.calm_of_resultOf fun error herror =>
      hsmooth error (herror ▸ List.mem_cons_self)
    have hstep := View.UpTo.step (a := a.left listener later) (hv.hear hplan) hplan hn r
      fun hnone => absurd (htold.symm.trans hnone) (Option.some_ne_none _)
    rw [htold] at hstep
    rw [List.cons_append, List.cons_append, reactionsIn_told, reactionsIn_reacted,
      reactionsIn_append] at hsmooth
    have hinner := ih hattended hplan' hattended.ahead hfailure'
      (fun error herror => hsmooth error (List.mem_cons_of_mem _ (List.mem_append_left _ herror)))
      (by rw [if_pos hattended.mem_listening]; exact hstep)
    have hrest := ih' (hattended.round inner) ((Audience.plan_round inner).trans hplan')
      hahead.of_cons.2 hfailure
      (fun error herror => hsmooth error (List.mem_cons_of_mem _ (List.mem_append_right _ herror)))
      hinner
    rwa [follow, List.cons_append, List.foldl_cons, List.foldl_append]

/-- **An operation leaves the copy up to date**, unless something is raised before the turn of the
observer. -/
theorem carried (h : Audience.Carried a o.request e ts) (ha : a.Attended first name)
    (hplan : a.session.plan = p) (hn : p.notifyOnValidate = true) (hsmooth : e.Smooth first)
    (hv : v.UpTo pending p a.session.state) :
    (v.follow name ts).UpTo pending p e.audience.session.state := by
  cases h with
  | untold htold =>
    have hresult : ∀ error, a.resultOf o.request (a.step o.request).audience none =
        .error error → ¬ error.RaisedBefore first := hsmooth.result
    have hstep := hv.step hplan hn o.request fun _ => (Audience.calm_of_resultOf hresult).2 rfl
    rw [htold] at hstep
    exact hstep
  | told htold round =>
    have hresult := hsmooth.result
    have hstep := hv.step hplan hn o.request
      fun hnone => absurd (htold.symm.trans hnone) (Option.some_ne_none _)
    rw [htold] at hstep
    have hattended := ha.step_operation o
    refine View.UpTo.round round hattended ((Audience.plan_step a _).trans hplan) hn
      hattended.ahead (Audience.calm_of_resultOf hresult).1 hsmooth.reactions ?_
    rw [if_pos hattended.mem_listening]
    exact hstep

end UpTo

end View

/-! ## Watching -/

/-- A session with its listeners, and what one of them has of its fields. -/
structure Watch where
  audience : Audience
  view : View

/-- **Nothing is raised too early** by some operations, as they are asked for in turn, for those who
come after some listeners. -/
def Audience.RunsSmoothly (first : List String) (a : Audience) : List Operation → Prop
  | [] => True
  | o :: ops =>
    (a.request o.request).Smooth first ∧ (a.request o.request).audience.RunsSmoothly first ops

namespace Watch

/-- An operation is carried out, and the observer reads again what it is told to have changed, when
it is told. -/
def step (name : String) (w : Watch) (o : Operation) : Watch where
  audience := (w.audience.request o.request).audience
  view := w.view.follow name (w.audience.tellings o.request)

/-- Operations are carried out one after another. -/
def run (name : String) (w : Watch) (ops : List Operation) : Watch := ops.foldl (step name) w

/-- An observer subscribes, and copies what the session has. -/
def start (name : String) (a : Audience) : Watch :=
  { audience := (a.request (.subscribe name [])).audience, view := .copy a.session }

/-- What the observer is told of an operation. -/
def heard (w : Watch) (name : String) (o : Operation) : List ChangeSet :=
  heardBy name (w.audience.request o.request).exchanges

/-- **What an observer hears of an operation.** -/
structure Hears (w : Watch) (name : String) (o : Operation) : Prop where
  /-- What it reads again is what it hears of. -/
  told : w.heard name o =
    ((w.audience.tellings o.request).filter (·.listener = name)).map Telling.changes
  /-- No set of changes is empty. -/
  changed : ∀ c ∈ w.heard name o, c.changed = true
  /-- It is told once at most of the operation, and of each request that a listener makes upon it.
  -/
  atMost : (w.heard name o).length ≤
    1 + (reactionsIn (w.audience.request o.request).exchanges).length
  /-- The changes that are replied are heard, if there are any. -/
  replied : o ≠ .check → ∀ c, (w.audience.request o.request).result = .ok (.changes c) →
    c.changed = true → c ∈ w.heard name o
  /-- Nothing else is, if no listener makes a request. -/
  alone : reactionsIn (w.audience.request o.request).exchanges = [] → ∀ c ∈ w.heard name o,
    w.heard name o = [c] ∧ (o ≠ .check → ∀ reply,
      (w.audience.request o.request).result = .ok reply → reply = .changes c)

variable {w : Watch} {name : String} {first : List String} {p : Plan} {o : Operation}
  {a : Audience} {c : ChangeSet}

/-- **The observer is up to date**, and goes on listening. -/
structure UpToDate (w : Watch) (first : List String) (name : String) (p : Plan) : Prop where
  attended : w.audience.Attended first name
  plan : w.audience.session.plan = p
  upTo : w.view.UpTo [] p w.audience.session.state

theorem UpToDate.follows (h : w.UpToDate first name p) {key : String}
    (hkey : key ∈ p.schema.fieldKeys) : w.view.Follows p w.audience.session.state key :=
  fun aspect => (h.upTo key hkey aspect).resolve_right fun ⟨_, hc, _⟩ => absurd hc List.not_mem_nil

/-- **An operation leaves the observer up to date**, unless something is raised before its turn. -/
theorem UpToDate.step (h : w.UpToDate first name p) (hn : p.notifyOnValidate = true)
    (hsmooth : (w.audience.request o.request).Smooth first) :
    (w.step name o).UpToDate first name p := by
  have hcarried := w.audience.carried_request o.request
  exact ⟨h.attended.carried hcarried, (Audience.plan_carried hcarried).trans h.plan,
    View.UpTo.carried hcarried h.attended h.plan hn hsmooth h.upTo⟩

theorem UpToDate.run (h : w.UpToDate first name p) (hn : p.notifyOnValidate = true)
    {ops : List Operation} (hsmooth : w.audience.RunsSmoothly first ops) :
    (w.run name ops).UpToDate first name p := by
  induction ops generalizing w with
  | nil => exact h
  | cons o ops ih => exact ih (h.step hn hsmooth.1) hsmooth.2

/-- **A name can be taken** for an observer: nobody listens under it, or will. -/
structure Free (a : Audience) (name : String) : Prop where
  unheard : name ∉ a.listening
  silent : ∀ reactions, a.reactions.get? name = some reactions → reactions = []
  spared : a.Throughout (Reaction.Spares name)

theorem upToDate_start (h : Free a name) :
    (start name a).UpToDate a.listening name a.session.plan := by
  have hstart : (start name a).audience = (a.step (.subscribe name [])).audience := by
    rw [start, Audience.request_of_untold rfl]
  have hsilent : (start name a).audience.reactions.get? name = some [] := by
    rw [hstart, Audience.step]
    dsimp only
    cases hreactions : a.reactions.get? name with
    | some reactions =>
      rw [h.silent _ hreactions] at hreactions
      exact hreactions
    | none => exact (Table.get?_set _ _ _ _).trans (if_pos rfl)
  have hsession : (start name a).audience.session = a.session := by
    rw [hstart]
    rfl
  have hahead : Audience.Ahead a.listening name (a.listening ++ [name]) := by
    refine List.pairwise_append.mpr ⟨?_, List.pairwise_singleton _ _, fun _ hmem _ _ _ => hmem⟩
    exact List.pairwise_of_forall_mem_list fun before _ later hlater heq =>
      absurd (heq ▸ hlater) h.unheard
  refine ⟨⟨?_, hstart ▸ hahead, hsilent, ?_⟩, congrArg Session.plan hsession, ?_⟩
  · rw [hstart]
    exact (List.count_append ..).trans (by
      rw [List.count_eq_zero.mpr h.unheard, List.count_singleton_self])
  · rw [hstart]
    exact h.spared.step trivial
  · rw [hsession]
    exact fun key _ aspect => Or.inl (View.follows_copy a.session key aspect)

/-- **What is heard of an operation**, if nothing is raised before the turn of the observer. -/
theorem UpToDate.hears (h : w.UpToDate first name p)
    (hsmooth : (w.audience.request o.request).Smooth first) : w.Hears name o := by
  have hcarried := w.audience.carried_request o.request
  constructor
  case told => exact hcarried.heardBy_eq name
  case changed =>
    intro c hc
    rw [heard, hcarried.heardBy_eq name] at hc
    obtain ⟨t, ht, rfl⟩ := List.mem_map.mp hc
    exact hcarried.changed_of_mem t (List.mem_of_mem_filter ht)
  case atMost => exact hcarried.length_heardBy h.attended
  case replied =>
    intro ho c hresult hchanged
    exact hcarried.mem_heardBy h.attended hsmooth
      ((Audience.told_iff_replied ho _).mpr ⟨hcarried.reply hresult, hchanged⟩)
  case alone =>
    intro hnone c hc
    have hheard := hcarried.heardBy_of_unanswered h.attended hsmooth hnone
    rw [heard, hheard, Option.mem_toList] at hc
    rw [heard, hheard, hc]
    refine ⟨rfl, fun ho reply hresult => ?_⟩
    have hreply := ((Audience.told_iff_replied ho
      (w.audience.request o.request).audience.session).mp hc).1
    exact Except.ok.inj ((hcarried.reply hresult).symm.trans hreply)

/-- **No change is lost to an observer.** It subscribes under a free name to a session that tells of
checks too, and copies what the session has. After any operations in the course of which no listener
that subscribed before it fails, and no check is broken off, it is up to date at every field. Then
it hears of the next operation what that changes, as long as the same holds again. -/
theorem loses_nothing {a : Audience} (hfree : Free a name)
    (hn : a.session.plan.notifyOnValidate = true) {ops : List Operation}
    (hsmooth : (start name a).audience.RunsSmoothly a.listening ops) :
    let w := (start name a).run name ops
    (∀ key ∈ a.session.plan.schema.fieldKeys,
      w.view.Follows a.session.plan w.audience.session.state key) ∧
    ∀ o, (w.audience.request o.request).Smooth a.listening → w.Hears name o := by
  have hrun := (upToDate_start hfree).run hn hsmooth
  exact ⟨fun key hkey => hrun.follows hkey, fun o ho => hrun.hears ho⟩

end Watch

/-- **No operation raises anything too early** if some listeners do not fail and no pattern breaks a
search off. -/
theorem Audience.runsSmoothly {a : Audience} {first : List String} (ha : a.Willing first)
    (hsteady : a.session.plan.Steady) (ops : List Operation) : a.RunsSmoothly first ops := by
  induction ops generalizing a with
  | nil => trivial
  | cons o ops ih =>
    have hcarried := a.carried_request o.request
    exact ⟨hcarried.smooth ha hsteady,
      ih (ha.carried hcarried) ((plan_carried hcarried).symm ▸ hsteady)⟩

namespace Watch

/-- A session with one listener, and what it will do when it is told. -/
def besides (name : String) (reactions : List Reaction) (s : Session) : Audience where
  session := s
  reactions := Table.empty.set name reactions
  listening := [name]

theorem free_besides {name other : String} {reactions : List Reaction} (hne : other ≠ name)
    (h : ThroughoutAll (Reaction.Spares name) reactions) (s : Session) :
    Free (besides other reactions s) name where
  unheard hmem := hne (List.mem_singleton.mp hmem).symm
  silent rs hr := by
    rw [besides, Table.get?_set, if_neg hne, Table.get?_empty] at hr
    cases hr
  spared listener rs hr := by
    rw [besides, Table.get?_set, Table.get?_empty] at hr
    split at hr
    · exact Option.some.inj hr ▸ h
    · cases hr

/-- An observer of an order with a clerk who writes a note when a price is written, and then brings
in an alarm, which fails. -/
theorem order_loses_nothing : ∃ a : Audience, ∃ ops : List Operation,
    (Free a "screen" ∧ a.session.plan.notifyOnValidate = true ∧
      (start "screen" a).audience.RunsSmoothly a.listening ops ∧
      a.session.plan.schema = orderForm ∧ a.listening = ["clerk"] ∧
      ops = [.set "price" (.int 10), .check]) ∧
    let w := (start "screen" a).run "screen" ops
    (∀ key ∈ a.session.plan.schema.fieldKeys,
      w.view.Follows a.session.plan w.audience.session.state key) ∧
    ∀ o, (w.audience.request o.request).Smooth a.listening → w.Hears "screen" o := by
  obtain ⟨s, -, hplan, -⟩ := exists_order
  let tasks : List Reaction :=
    [.request (.set (.text "note") (.text "ring")), .request (.subscribe "alarm" [.fail])]
  have halarm : "alarm" ≠ "screen" := by decide
  have hspares : ThroughoutAll (Reaction.Spares "screen") tasks :=
    ⟨⟨trivial, trivial⟩, ⟨halarm, trivial, trivial⟩, trivial⟩
  have hfree : Free (besides "clerk" tasks s) "screen" := free_besides (by decide) hspares s
  have hnotify : s.plan.notifyOnValidate = true := by
    rw [hplan]
    decide +kernel
  have hsteady : s.plan.Steady := by
    have hnone : ∀ f ∈ orderForm.fields, f.constraints.pattern = none := by decide +kernel
    rw [hplan]
    rintro f hf t cause ⟨_, -, pattern, hpattern, -⟩
    rw [hnone f hf] at hpattern
    cases hpattern
  have hwilling : (besides "clerk" tasks s).Willing ["clerk"] := by
    refine List.forall_mem_singleton.mpr ⟨tasks, (Table.get?_set _ _ _ _).trans (if_pos rfl), ?_⟩
    simp [tasks]
  have hmild : (start "screen" (besides "clerk" tasks s)).audience.Willing ["clerk"] := by
    rw [start, Audience.request_of_untold rfl]
    exact hwilling.step _
  have hstart := (upToDate_start hfree).plan
  have hsmooth := Audience.runsSmoothly hmild (hstart ▸ hsteady) [.set "price" (.int 10), .check]
  exact ⟨_, _, ⟨hfree, hnotify, hsmooth, by rw [besides, hplan]; rfl, rfl, rfl⟩,
    loses_nothing hfree hnotify hsmooth⟩

theorem follow_of_failed {a : Audience} {name other : String} {names : List String}
    {later : List Reaction} (hlistening : a.listening = other :: names)
    (hr : a.reactions.get? other = some (.fail :: later)) (hne : other ≠ name) (o : Operation)
    (v : View) : (a.request o.request).audience.session = (a.session.perform o).session ∧
      v.follow name (a.tellings o.request) = v := by
  have hcarried := a.carried_request o.request
  obtain ⟨haudience, -⟩ := a.step_operation o
  generalize a.request o.request = e at hcarried ⊢
  generalize a.tellings o.request = ts at hcarried ⊢
  cases hcarried with
  | untold => exact ⟨congrArg Audience.session haudience, rfl⟩
  | told _ round =>
    rw [haudience, hlistening] at round
    cases round with
    | failed => exact ⟨rfl, if_neg hne⟩
    | silent h => cases h _ hr
    | untold h | nested h => cases hr.symm.trans h

/-- **A listener that fails keeps a change from those after it.** -/
theorem not_follows_of_failed : ¬ ∀ (a : Audience) (name : String) (ops : List Operation),
    a.session.Reachable → Free a name → a.session.plan.notifyOnValidate = true →
      ∀ key ∈ a.session.plan.schema.fieldKeys, ((start name a).run name ops).view.Follows
        a.session.plan ((start name a).run name ops).audience.session.state key := by
  intro hall
  obtain ⟨s, hs, hplan, hstate⟩ := exists_order
  have hnotify : s.plan.notifyOnValidate = true := by
    rw [hplan]
    decide +kernel
  have hspares : ThroughoutAll (Reaction.Spares "screen") [.fail] := ⟨trivial, trivial⟩
  have hfollows := hall (besides "alarm" [.fail] s) "screen" [.set "price" (.int 10)] (.opened hs)
    (free_besides (by decide) hspares s) hnotify "price" (by rw [besides, hplan]; decide) .value
  have hstart : (start "screen" (besides "alarm" [.fail] s)).audience =
      ((besides "alarm" [.fail] s).step (.subscribe "screen" [])).audience := by
    rw [start, Audience.request_of_untold rfl]
  have hne : "alarm" ≠ "screen" := by decide
  obtain ⟨hsession, hview⟩ := @follow_of_failed
    (start "screen" (besides "alarm" [.fail] s)).audience "screen" "alarm" ["screen"] []
    (by rw [hstart]; rfl) (by rw [hstart]; rfl) hne (.set "price" (.int 10)) (.copy s)
  have hv : (s.state.value "price").same (.int 10) = false := by
    rw [hstate]
    decide +kernel
  have hvalue : (s.set "price" (.int 10)).session.state.value "price" = .int 10 := by
    have hf : Session.writable s.plan.schema "price" "set_value" = .ok orderForm.fields[0] := by
      rw [hplan]
      rfl
    rw [Session.state_set_of_ne hf hv, Session.value_written]
    exact (written_propagate hs.sound.planned.toWellFormed
      (Session.mem_fieldKeys_of_writable hf)).1
  have hrun : ((start "screen" (besides "alarm" [.fail] s)).run "screen"
      [.set "price" (.int 10)]).view = .copy s := hview
  have hafter : ((start "screen" (besides "alarm" [.fail] s)).run "screen"
      [.set "price" (.int 10)]).audience.session = (s.set "price" (.int 10)).session := by
    refine hsession.trans ?_
    rw [hstart]
    rfl
  rw [hrun, hafter] at hfollows
  rcases hfollows with heq | hsame
  · have hold : s.state.value "price" = .int 10 := heq.trans hvalue
    rw [hold] at hv
    revert hv
    decide +kernel
  · rw [hvalue] at hsame
    exact Bool.false_ne_true (hv.symm.trans hsame)

end Watch

end LiveForm
