import ClickNBack.EventLoop.Coroutine
import Mathlib.Data.List.Basic

namespace ClickNBack.EventLoop.Coro

variable {Q Q' : Type} {R : Q → Type} {R' : Q' → Type} {M X X' E α β γ : Type}

def attempt : Coro R M X E α → (Except E α → Coro R M X E β) → Coro R M X E β
  | .ret a, f => f (.ok a)
  | .raise e, f => f (.error e)
  | .read k, f => .read fun m => (k m).attempt f
  | .write m c, f => .write m (c.attempt f)
  | .spawn x k, f => .spawn x fun n => (k n).attempt f
  | .await q k, f => .await q fun r => (k r).attempt f

/-- Serve every request of a coroutine by another coroutine. -/
def interpret (h : (q : Q) → Coro R' M X E (R q)) : Coro R M Empty E α → Coro R' M X E α
  | .ret a => .ret a
  | .raise e => .raise e
  | .read k => .read fun m => (k m).interpret h
  | .write m c => .write m (c.interpret h)
  | .spawn x _ => x.elim
  | .await q k => (h q).attempt fun r => (k r).interpret h

theorem attempt_bind (c : Coro R M X E α) (f : Except E α → Coro R M X E β)
    (g : β → Coro R M X E γ) :
    (c.attempt f).bind g = c.attempt fun r => (f r).bind g := by
  induction c with
  | ret a | raise e => rfl
  | read k ih | spawn x k ih | await q k ih => simp only [attempt, bind, ih]
  | write m c ih => simp only [attempt, bind, ih]

theorem attempt_tryFinally (c : Coro R M X E α) (f : Except E α → Coro R M X E β)
    (fin : Coro R M X E Unit) :
    (c.attempt f).tryFinally fin = c.attempt fun r => (f r).tryFinally fin := by
  induction c with
  | ret a | raise e => rfl
  | read k ih | spawn x k ih | await q k ih => simp only [attempt, tryFinally, ih]
  | write m c ih => simp only [attempt, tryFinally, ih]

theorem attempt_rethrow (c : Coro R M X E α) : c.attempt lift = c := by
  induction c with
  | ret a | raise e => rfl
  | read k ih | spawn x k ih | await q k ih => simp only [attempt, ih]
  | write m c ih => simp only [attempt, ih]

section

variable (h : (q : Q) → Coro R' M X E (R q))

@[simp] theorem interpret_pure (a : α) :
    (pure a : Coro R M Empty E α).interpret h = pure a := rfl

@[simp] theorem interpret_request (q : Q) : (request q).interpret h = h q := by
  change (h q).attempt _ = h q
  conv_rhs => rw [← attempt_rethrow (h q)]
  congr 1
  funext r
  cases r <;> rfl

@[simp] theorem interpret_bind (c : Coro R M Empty E α) (f : α → Coro R M Empty E β) :
    (c >>= f).interpret h = c.interpret h >>= fun a => (f a).interpret h := by
  change (c.bind f).interpret h = (c.interpret h).bind _
  induction c with
  | ret a | raise e => rfl
  | read k ih => simp only [interpret, bind, ih]
  | write m c ih => simp only [interpret, bind, ih]
  | spawn x => exact x.elim
  | await q k ih => simp only [interpret, bind, ih, attempt_bind]

theorem interpret_tryFinally (c : Coro R M Empty E α) (fin : Coro R M Empty E Unit) :
    (c.tryFinally fin).interpret h = (c.interpret h).tryFinally (fin.interpret h) := by
  induction c with
  | ret a | raise e => exact interpret_bind h fin _
  | read k ih => simp only [interpret, tryFinally, ih]
  | write m c ih => simp only [interpret, tryFinally, ih]
  | spawn x => exact x.elim
  | await q k ih => simp only [interpret, tryFinally, ih, attempt_tryFinally]

end

end ClickNBack.EventLoop.Coro
