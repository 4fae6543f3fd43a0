import ClickNBack.EventLoop.Coroutine
import Mathlib.Data.List.Basic

namespace ClickNBack.EventLoop

variable {Q : Type} {R : Q → Type} {M X E W α : Type}

structure Task {Q : Type} (R : Q → Type) (M X E : Type) where
  label : X
  coro : Coro R M X E Unit

structure Shared {Q : Type} (R : Q → Type) (M X E : Type) where
  memory : M
  tasks : List (Task R M X E)

/-- A job that a scheduler starts again and again, the tasks that it creates, and
the answers that the world may give to a request. -/
structure Job {Q : Type} (W : Type) (R : Q → Type) (M X E : Type) where
  main : Coro R M X E Unit
  task : X → Nat → Coro R M X E Unit
  serves : W → (q : Q) → R q → Prop

structure Loop {Q : Type} (W : Type) (R : Q → Type) (M X E : Type) where
  world : W
  shared : Shared R M X E
  main : Coro R M X E Unit

structure Answer {Q : Type} (W : Type) (R : Q → Type) (M X E : Type) where
  world : W
  shared : Shared R M X E
  request : Q
  answer : Except E (R request)

namespace Shared

def Runs (σ : Shared R M X E) (x : X) (n : Nat) : Prop :=
  ∃ t, σ.tasks[n]? = some t ∧ t.label = x ∧ ¬ t.coro.Done

end Shared

namespace Job

variable (J : Job W R M X E)

/-- A new task does not run before its creator is suspended. -/
def create (x : X) (σ : Shared R M X E) : Shared R M X E :=
  { σ with tasks := σ.tasks ++ [⟨x, J.task x σ.tasks.length⟩] }

/-- Run a coroutine until it is suspended or done. -/
def settle : Coro R M X E α → Shared R M X E → Coro R M X E α × Shared R M X E
  | .read k, σ => settle (k σ.memory) σ
  | .write m c, σ => settle c { σ with memory := m }
  | .spawn x k, σ => settle (k σ.tasks.length) (J.create x σ)
  | .ret a, σ => (.ret a, σ)
  | .raise e, σ => (.raise e, σ)
  | .await q k, σ => (.await q k, σ)

/-- A request may fail at any moment. -/
def Answers (w : W) (q : Q) : Except E (R q) → Prop
  | .ok a => J.serves w q a
  | .error _ => True

def proceed (s : Loop W R M X E) (c : Coro R M X E Unit) : Loop W R M X E :=
  ⟨s.world, (J.settle c s.shared).2, (J.settle c s.shared).1⟩

def proceedTask (s : Loop W R M X E) (n : Nat) (x : X) (c : Coro R M X E Unit) :
    Loop W R M X E :=
  { s with shared :=
    { (J.settle c s.shared).2 with
      tasks := (J.settle c s.shared).2.tasks.set n ⟨x, (J.settle c s.shared).1⟩ } }

inductive Other (s : Loop W R M X E) : Loop W R M X E → Prop
  | world (w : W) : Other s { s with world := w }
  | task {n : Nat} {x : X} {q : Q} {k : Except E (R q) → Coro R M X E Unit}
      {r : Except E (R q)} (ht : s.shared.tasks[n]? = some ⟨x, .await q k⟩)
      (hr : J.Answers s.world q r) : Other s (J.proceedTask s n x (k r))

/-- One step of the loop. The scheduler starts the job anew once it has returned. -/
inductive Step (s : Loop W R M X E) : Loop W R M X E → Prop
  | other {s' : Loop W R M X E} (h : J.Other s s') : Step s s'
  | start (h : s.main = .ret ()) : Step s (J.proceed s J.main)
  | main {q : Q} {k : Except E (R q) → Coro R M X E Unit} {r : Except E (R q)}
      (h : s.main = .await q k) (hr : J.Answers s.world q r) : Step s (J.proceed s (k r))

inductive Reach (s₀ : Loop W R M X E) : Loop W R M X E → Prop
  | refl : Reach s₀ s₀
  | step {s s' : Loop W R M X E} (hr : Reach s₀ s) (hs : J.Step s s') : Reach s₀ s'

/-- One start of the job, from `s₀` to a later state, with the answers it has got
so far; the others go on between its awaits. -/
inductive Tick (s₀ : Loop W R M X E) : List (Answer W R M X E) → Loop W R M X E → Prop
  | start (h : s₀.main = .ret ()) : Tick s₀ [] (J.proceed s₀ J.main)
  | main {l : List (Answer W R M X E)} {s : Loop W R M X E} {q : Q}
      {k : Except E (R q) → Coro R M X E Unit} {r : Except E (R q)} (ht : Tick s₀ l s)
      (h : s.main = .await q k) (hr : J.Answers s.world q r) :
      Tick s₀ (l ++ [⟨s.world, s.shared, q, r⟩]) (J.proceed s (k r))
  | other {l : List (Answer W R M X E)} {s s' : Loop W R M X E} (ht : Tick s₀ l s)
      (hs : J.Other s s') : Tick s₀ l s'

variable {J} in
theorem Other.main_eq {s s' : Loop W R M X E} (h : J.Other s s') : s'.main = s.main := by
  cases h with
  | world w => rfl
  | task ht hr => rfl

theorem ends_of_settle {c : Coro R M X E α} {σ : Shared R M X E} {r : Except E α}
    (h : (J.settle c σ).1.Ends r) : c.Ends r := by
  induction c generalizing σ with
  | ret a | raise e | await q k ih => exact h
  | read k ih => exact .read _ (ih _ h)
  | write m c ih => exact .write (ih h)
  | spawn x k ih => exact .spawn _ (ih _ h)

variable {J} in
theorem Tick.ends {s₀ s : Loop W R M X E} {l : List (Answer W R M X E)} (ht : J.Tick s₀ l s)
    {r : Except E Unit} (h : s.main.Ends r) : J.main.Ends r := by
  induction ht with
  | start => exact ends_of_settle J h
  | @main l s q k r' ht hmain hr ih =>
    apply ih
    rw [hmain]
    exact .await r' (ends_of_settle J h)
  | other ht hs ih =>
    rw [hs.main_eq] at h
    exact ih h

end Job

end ClickNBack.EventLoop
