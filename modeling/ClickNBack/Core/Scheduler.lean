import Mathlib.Data.List.AList

namespace ClickNBack.Core

variable {T Seconds E : Type}

inductive LoopState (E : Type)
  | invoking
  | sleeping
  | raised (e : E)
  | cancelled

inductive LoopStep (Seconds E : Type)
  | invoked (outcome : Except E Unit)
  | slept (seconds : Seconds)

/-- An asyncio task that runs `_run_loop`, with what it has done so far. -/
structure LoopTask (T Seconds E : Type) where
  name : String
  task : T
  intervalSeconds : Seconds
  state : LoopState E
  steps : List (LoopStep Seconds E)

namespace LoopTask

/-- An exception of the task is one of the loop. -/
def afterInvocation (outcome : Except E Unit) (t : LoopTask T Seconds E) : LoopTask T Seconds E :=
  { t with
    state := match outcome with
      | .ok _ => .sleeping
      | .error e => .raised e
    steps := t.steps ++ [.invoked outcome] }

def afterSleep (t : LoopTask T Seconds E) : LoopTask T Seconds E :=
  { t with state := .invoking, steps := t.steps ++ [.slept t.intervalSeconds] }

/-- `Task.cancel` does nothing to a task that is done. -/
def cancel (t : LoopTask T Seconds E) : LoopTask T Seconds E :=
  { t with
    state := match t.state with
      | .raised e => .raised e
      | _ => .cancelled }

end LoopTask

/-- `InMemoryTaskScheduler`, with the asyncio tasks that it has created; the order of
a dictionary's entries decides no more than the numbers of these tasks. -/
structure InMemoryTaskScheduler (T Seconds E : Type) where
  registered : AList fun _ : String => T × Seconds
  running : AList fun _ : String => Nat
  tasks : List (LoopTask T Seconds E)

namespace InMemoryTaskScheduler

def init : InMemoryTaskScheduler T Seconds E := ⟨∅, ∅, []⟩

def schedule (name : String) (task : T) (intervalSeconds : Seconds)
    (s : InMemoryTaskScheduler T Seconds E) : InMemoryTaskScheduler T Seconds E :=
  { s with registered := s.registered.insert name (task, intervalSeconds) }

/-- The error is the KeyError. -/
def cancel (name : String) (s : InMemoryTaskScheduler T Seconds E) :
    Except String (InMemoryTaskScheduler T Seconds E) :=
  if name ∉ s.registered then
    .error ("No task registered with name '" ++ name ++ "'.")
  else
    let registered := s.registered.erase name
    match s.running.lookup name with
    | none => .ok { s with registered }
    | some n => .ok
      { registered, running := s.running.erase name, tasks := s.tasks.modify n LoopTask.cancel }

def createTask (name : String) (task : T) (intervalSeconds : Seconds)
    (s : InMemoryTaskScheduler T Seconds E) : InMemoryTaskScheduler T Seconds E :=
  { s with
    running := s.running.insert name s.tasks.length
    tasks := s.tasks ++ [⟨name, task, intervalSeconds, .invoking, []⟩] }

def start (s : InMemoryTaskScheduler T Seconds E) : InMemoryTaskScheduler T Seconds E :=
  s.registered.entries.foldl (fun s item => s.createTask item.1 item.2.1 item.2.2) s

def stop (s : InMemoryTaskScheduler T Seconds E) : InMemoryTaskScheduler T Seconds E :=
  { s with
    running := ∅
    tasks := s.running.entries.foldl (fun tasks item => tasks.modify item.2 LoopTask.cancel)
      s.tasks }

end InMemoryTaskScheduler

inductive Action (T Seconds E : Type)
  | schedule (name : String) (task : T) (intervalSeconds : Seconds)
  | cancel (name : String)
  | start
  | stop
  | invoked (n : Nat) (outcome : Except E Unit)
  | slept (n : Nat)

/-- Neither `cancel(name)` nor `stop()`. -/
def Action.Keeps (name : String) : Action T Seconds E → Prop
  | .cancel name' => name' ≠ name
  | .stop => False
  | _ => True

namespace InMemoryTaskScheduler

variable (ends : T → Except E Unit → Prop)

/-- A call of the scheduler, or the end of an invocation or of a sleep; `ends` says
how the invocations of a task may end. -/
inductive Step (s : InMemoryTaskScheduler T Seconds E) :
    Action T Seconds E → InMemoryTaskScheduler T Seconds E → Prop
  | schedule (name : String) (task : T) (intervalSeconds : Seconds) :
    Step s (.schedule name task intervalSeconds) (s.schedule name task intervalSeconds)
  | cancel {name : String} {s' : InMemoryTaskScheduler T Seconds E} (h : s.cancel name = .ok s') :
    Step s (.cancel name) s'
  | start : Step s .start s.start
  | stop : Step s .stop s.stop
  | invoked {n : Nat} {t : LoopTask T Seconds E} {outcome : Except E Unit}
    (ht : s.tasks[n]? = some t) (hstate : t.state = .invoking) (hends : ends t.task outcome) :
    Step s (.invoked n outcome) { s with tasks := s.tasks.set n (t.afterInvocation outcome) }
  | slept {n : Nat} {t : LoopTask T Seconds E} (ht : s.tasks[n]? = some t)
    (hstate : t.state = .sleeping) :
    Step s (.slept n) { s with tasks := s.tasks.set n t.afterSleep }

inductive Reach (permitted : Action T Seconds E → Prop)
    (s₀ : InMemoryTaskScheduler T Seconds E) : InMemoryTaskScheduler T Seconds E → Prop
  | refl : Reach permitted s₀ s₀
  | step {s s' : InMemoryTaskScheduler T Seconds E} {a : Action T Seconds E}
    (hr : Reach permitted s₀ s) (ha : permitted a) (hs : Step ends s a s') :
    Reach permitted s₀ s'

end InMemoryTaskScheduler

end ClickNBack.Core
