import LiveForm.Session.Basic

/-!
# Listeners

Listeners subscribe to a session and are told every set of changes. A listener may answer with a
request of its own, which is carried out at once, before the next listener is told.

* `Request`: what can be asked of a session with listeners, `Reply` what it answers.
* `Audience`: a session and its listeners.
* `Audience.request`: carries a request out, with all that listeners do upon it.
-/

namespace LiveForm

mutual

/-- What can be asked of a session with listeners. Keys may be any values. -/
inductive Request where
  | set (key value : Value)
  | settle
  | reset
  | check
  /-- Asks for one aspect of a field. -/
  | read (what : Aspect) (key : Value)
  /-- The first time, a name comes with what its listener will do, notification by notification. -/
  | subscribe (name : String) (reactions : List Reaction)
  | unsubscribe (name : String)

/-- What a listener does when it is told of changes. -/
inductive Reaction where
  /-- It fails, and with it the operation that told it. -/
  | fail
  | request (r : Request)

end

/-- What a request is answered with. -/
inductive Reply where
  | done
  | changes (c : ChangeSet)
  | checked (errors : Table String (List Notice))
  | value (v : Value)

/-- Why a request is not carried out. -/
inductive RequestError where
  | failure (f : Failure)
  /-- The value cannot be a key. -/
  | noKey
  /-- The listener of a name failed. The session keeps what was changed. -/
  | listenerFailed (name : String)
  /-- The check of a field was broken off. The session keeps what was changed by then. -/
  | interrupted (cause : Pattern.Interruption)
  /-- No listener has the name. -/
  | unknownListener

/-- What happened between a session and its listeners. -/
inductive Exchange where
  | told (listener : String) (changes : ChangeSet)
  | reacted (listener : String) (result : Except RequestError Reply)

/-- A session and its listeners. -/
structure Audience where
  session : Session
  /-- The listeners by name, with what they have still to do. -/
  reactions : Table String (List Reaction) := .empty
  /-- Who is told, in order. A listener that subscribed twice is told twice. -/
  listening : List String := []

/-! ## Counting -/

mutual

/-- The number of requests in a request, itself included. -/
def Request.weight : Request → Nat
  | .subscribe _ reactions => 1 + weights reactions
  | _ => 1

/-- The number of requests that a listener will make, those in its requests included. -/
def Reaction.weight : Reaction → Nat
  | .fail => 1
  | .request r => r.weight

def weights : List Reaction → Nat
  | [] => 0
  | r :: rs => r.weight + weights rs

end

namespace Audience

/-- The number of requests that listeners have still to make. -/
def weight (a : Audience) : Nat := a.reactions.entries.foldl (fun n e => n + weights e.2) 0

/-! ## A request by itself -/

/-- The value of one aspect of a field. -/
def aspectValue (s : Session) (key : String) : Aspect → Value
  | .value => s.state.value key
  | .visibility => .bool (s.state.visible key)
  | .required => .bool (s.state.requires key)
  | .errors => .list ((s.errorsOf key).map Notice.toValue)

/-- The name of the operation that reads an aspect. -/
def readName (what : Aspect) : String := "get_" ++ what.name

/-- What a request leads to before any listener is told. The reply is put together at the end. -/
structure Step where
  audience : Audience
  reply : Except RequestError (Session → Reply)
  told : Option ChangeSet := none

/-- The step of an operation on the session. -/
def stepOf {α : Type} (a : Audience) (o : LiveForm.Outcome α)
    (reply : α → Except RequestError (Session → Reply)) : Step :=
  { audience := { a with session := o.session }, reply := reply o.answer, told := o.told }

/-- The reply of an operation, put together when listeners have been told. -/
def replyOf {α : Type} (make : α → Session → Reply) :
    Except Session.OperationError α → Except RequestError (Session → Reply)
  | .ok answer => .ok (make answer)
  | .error (.refused f) => .error (.failure f)
  | .error (.interrupted cause) => .error (.interrupted cause)

/-- The step of an operation on the field with a key. Only texts are keys of fields. -/
def keyed {α : Type} (a : Audience) (key : Value) (operation : String) (make : α → Reply)
    (run : String → LiveForm.Outcome (Except Session.OperationError α)) : Step :=
  match key with
  | .text k => a.stepOf (run k) (replyOf fun answer _ => make answer)
  | key =>
    if key.isKey then
      a.stepOf (a.session.refuse (Session.unknownField key operation))
        (replyOf fun answer _ => make answer)
    else { audience := a, reply := .error .noKey }

/-- Carries out a request without telling anybody. -/
def step (a : Audience) : Request → Step
  | .set key value => a.keyed key "set_value" .changes fun k => a.session.set k value
  | .settle => a.stepOf a.session.settle (replyOf fun c _ => .changes c)
  | .reset => a.stepOf a.session.reset fun c => .ok fun _ => .changes c
  | .check => a.stepOf a.session.check (replyOf fun number s => .checked (s.errorsOfCheck number))
  | .read what key =>
    a.keyed key (readName what) .value fun k =>
      a.session.read k (readName what) fun _ => aspectValue a.session k what
  | .subscribe name reactions =>
    let known := (a.reactions.get? name).isSome
    { audience := { a with
        reactions := if known then a.reactions else a.reactions.set name reactions
        listening := a.listening ++ [name] }
      reply := .ok fun _ => .done }
  | .unsubscribe name =>
    match a.reactions.get? name with
    | some _ =>
      { audience := { a with listening := a.listening.erase name }, reply := .ok fun _ => .done }
    | none => { audience := a, reply := .error .unknownListener }

/-! ## Telling -/

/-- What comes of a request. -/
structure Effect where
  audience : Audience
  result : Except RequestError Reply
  exchanges : List Exchange := []

/-- Tells listeners in order, until one fails, which is named. Requests are carried out by
`carry`. -/
def tell (carry : Audience → Request → Effect) (changes : ChangeSet) (a : Audience) :
    (names : List String) → Audience × Option String × List Exchange
  | [] => (a, none, [])
  | name :: names =>
    let heard := Exchange.told name changes
    match a.reactions.get? name with
    | some (reaction :: later) =>
      let a := { a with reactions := a.reactions.set name later }
      match reaction with
      | .fail => (a, some name, [heard])
      | .request r =>
        let effect := carry a r
        let (a, failure, rest) := tell carry changes effect.audience names
        (a, failure, heard :: .reacted name effect.result :: effect.exchanges ++ rest)
    | _ =>
      let (a, failure, rest) := tell carry changes a names
      (a, failure, heard :: rest)

/-- Carries out a request with what listeners do upon it, to a depth of requests within
requests. -/
def carry : (depth : Nat) → Audience → Request → Effect
  | depth, a, r =>
    let s := a.step r
    match depth, s.told with
    | depth + 1, some changes =>
      let (a, failure, exchanges) := tell (carry depth) changes s.audience s.audience.listening
      let result := match failure with
        | none => s.reply.map (· a.session)
        | some name => .error (.listenerFailed name)
      { audience := a, result, exchanges }
    | _, _ => { audience := s.audience, result := s.reply.map (· s.audience.session) }

/-- Carries out a request with all that listeners do upon it. Each listener's request is one that
was still to be made, so their number bounds the depth. -/
def request (a : Audience) (r : Request) : Effect := carry (a.weight + r.weight) a r

end Audience

end LiveForm
