import Mathlib.Logic.Function.Basic

namespace ClickNBack.Core

variable {T E H X : Type}

/-- `InMemoryMessageBroker`; a type without an entry is one without handlers, and `==`
decides which handlers are the same. -/
structure InMemoryMessageBroker (T H : Type) where
  handlers : T → List H

namespace InMemoryMessageBroker

def init : InMemoryMessageBroker T H := ⟨fun _ => []⟩

variable [DecidableEq T]

def subscribe (eventType : T) (handler : H) (b : InMemoryMessageBroker T H) :
    InMemoryMessageBroker T H :=
  ⟨Function.update b.handlers eventType (b.handlers eventType ++ [handler])⟩

/-- The error is the ValueError of `list.remove`. -/
def unsubscribe [DecidableEq H] (eventType : T) (handler : H) (b : InMemoryMessageBroker T H) :
    Except String (InMemoryMessageBroker T H) :=
  if handler ∈ b.handlers eventType then
    .ok ⟨Function.update b.handlers eventType ((b.handlers eventType).erase handler)⟩
  else
    .error "list.remove(x): x not in list"

end InMemoryMessageBroker

/-- Where a call of `publish` stands in its loop over the snapshot. -/
inductive DispatchState (H X : Type)
  | awaiting (handler : H) (rest : List H)
  | ended (outcome : Except X Unit)

def DispatchState.next : List H → DispatchState H X
  | [] => .ended (.ok ())
  | handler :: rest => .awaiting handler rest

/-- A call of `publish`, with the invocations of handlers that have ended and how. -/
structure Dispatch (E H X : Type) where
  event : E
  finished : List (H × Except X Unit)
  state : DispatchState H X

namespace Dispatch

def publish (event : E) (snapshot : List H) : Dispatch E H X := ⟨event, [], .next snapshot⟩

def handlerEnds (outcome : Except X Unit) (d : Dispatch E H X) : Dispatch E H X :=
  match d.state with
  | .awaiting handler rest =>
    { d with
      finished := d.finished ++ [(handler, outcome)]
      state := match outcome with
        | .ok _ => .next rest
        | .error x => .ended (.error x) }
  | .ended _ => d

def inProgress (d : Dispatch E H X) : Bool :=
  match d.state with
  | .awaiting _ _ => true
  | .ended _ => false

end Dispatch

/-- The broker in use. Each call of `publish` has a number; a task of the event loop is
inside the calls that it has not come out of, the innermost first. -/
@[ext]
structure Dispatching (T E H X : Type) where
  broker : InMemoryMessageBroker T H
  dispatches : Nat → Option (Dispatch E H X)
  inside : Nat → List Nat

/-- What any code does at any time, a handler that is awaited included: it calls the
broker, or the handler that a task awaits in its innermost `publish` ends. -/
inductive BrokerAction (T E H X : Type)
  | subscribe (eventType : T) (handler : H)
  | unsubscribe (eventType : T) (handler : H)
  | publish (task call : Nat) (event : E)
  | handlerEnds (task : Nat) (outcome : Except X Unit)

namespace Dispatching

def init : Dispatching T E H X := ⟨.init, fun _ => none, fun _ => []⟩

/-- The task goes on in a call of `publish`, or has come out of it. -/
def resume (task call : Nat) (outer : List Nat) (d : Dispatch E H X) (s : Dispatching T E H X) :
    Dispatching T E H X :=
  { s with
    dispatches := Function.update s.dispatches call (some d)
    inside := Function.update s.inside task (if d.inProgress then call :: outer else outer) }

section

variable {task task' call call' : Nat} {outer : List Nat} {d : Dispatch E H X}
  {s : Dispatching T E H X}

@[simp] theorem resume_broker : (s.resume task call outer d).broker = s.broker := rfl

@[simp] theorem resume_dispatches_self : (s.resume task call outer d).dispatches call = some d :=
  Function.update_self _ _ _

theorem resume_dispatches_of_ne (h : call' ≠ call) :
    (s.resume task call outer d).dispatches call' = s.dispatches call' :=
  Function.update_of_ne h _ _

@[simp] theorem resume_inside_self : (s.resume task call outer d).inside task =
    if d.inProgress then call :: outer else outer := Function.update_self _ _ _

theorem resume_inside_of_ne (h : task' ≠ task) :
    (s.resume task call outer d).inside task' = s.inside task' := Function.update_of_ne h _ _

end

variable [DecidableEq T] [DecidableEq H] (typeOf : E → T)

/-- A call that raises leaves the registrations as they are, and a number is used once. -/
def exec (a : BrokerAction T E H X) (s : Dispatching T E H X) : Dispatching T E H X :=
  match a with
  | .subscribe eventType handler => { s with broker := s.broker.subscribe eventType handler }
  | .unsubscribe eventType handler =>
    match s.broker.unsubscribe eventType handler with
    | .ok broker => { s with broker }
    | .error _ => s
  | .publish task call event =>
    match s.dispatches call with
    | none => s.resume task call (s.inside task)
        (Dispatch.publish event (s.broker.handlers (typeOf event)))
    | some _ => s
  | .handlerEnds task outcome =>
    match s.inside task with
    | [] => s
    | call :: outer =>
      match s.dispatches call with
      | none => s
      | some d => s.resume task call outer (d.handlerEnds outcome)

end Dispatching

end ClickNBack.Core
