import Mathlib.Logic.Function.Basic

namespace ClickNBack.EventLoop

/-- A coroutine on a single-threaded event loop. It reads and writes the memory
that it shares with the others, and creates tasks, without giving up control; at an
await it is suspended until its request is answered or fails. -/
inductive Coro {Q : Type} (R : Q → Type) (M X E α : Type)
  | ret (a : α)
  | raise (e : E)
  | read (k : M → Coro R M X E α)
  | write (m : M) (c : Coro R M X E α)
  | spawn (x : X) (k : Nat → Coro R M X E α)
  | await (q : Q) (k : Except E (R q) → Coro R M X E α)

variable {Q : Type} {R : Q → Type} {M X E α β γ : Type}

namespace Coro

def bind : Coro R M X E α → (α → Coro R M X E β) → Coro R M X E β
  | .ret a, f => f a
  | .raise e, _ => .raise e
  | .read k, f => .read fun m => (k m).bind f
  | .write m c, f => .write m (c.bind f)
  | .spawn x k, f => .spawn x fun n => (k n).bind f
  | .await q k, f => .await q fun r => (k r).bind f

instance : Monad (Coro R M X E) where
  pure := .ret
  bind := bind

theorem bind_ret (c : Coro R M X E α) : c.bind .ret = c := by
  induction c with
  | ret a | raise e => rfl
  | read k ih | spawn x k ih | await q k ih => simp only [bind, ih]
  | write m c ih => simp only [bind, ih]

theorem bind_bind (c : Coro R M X E α) (f : α → Coro R M X E β) (g : β → Coro R M X E γ) :
    (c.bind f).bind g = c.bind fun a => (f a).bind g := by
  induction c with
  | ret a | raise e => rfl
  | read k ih | spawn x k ih | await q k ih => simp only [bind, ih]
  | write m c ih => simp only [bind, ih]

instance : LawfulMonad (Coro R M X E) :=
  LawfulMonad.mk' _ bind_ret (fun _ _ => rfl) bind_bind

def request (q : Q) : Coro R M X E (R q) :=
  .await q fun
    | .ok a => .ret a
    | .error e => .raise e

def lift : Except E α → Coro R M X E α
  | .ok a => .ret a
  | .error e => .raise e

def get : Coro R M X E M := .read .ret

def modify (f : M → M) : Coro R M X E Unit := .read fun m => .write (f m) (.ret ())

def createTask (x : X) : Coro R M X E Nat := .spawn x .ret

def tryFinally : Coro R M X E α → Coro R M X E Unit → Coro R M X E α
  | .ret a, fin => fin.bind fun _ => .ret a
  | .raise e, fin => fin.bind fun _ => .raise e
  | .read k, fin => .read fun m => (k m).tryFinally fin
  | .write m c, fin => .write m (c.tryFinally fin)
  | .spawn x k, fin => .spawn x fun n => (k n).tryFinally fin
  | .await q k, fin => .await q fun r => (k r).tryFinally fin

def Done (c : Coro R M X E α) : Prop := (∃ a, c = .ret a) ∨ ∃ e, c = .raise e

/-- The coroutine leaves the memory alone and creates no task. -/
def Quiet : Coro R M X E α → Prop
  | .ret _ | .raise _ => True
  | .read _ | .write _ _ | .spawn _ _ => False
  | .await _ k => ∀ r, (k r).Quiet

/-- All that the coroutine does is to await, and to change the memory by `f` as the
last thing before it returns or raises. -/
def EndsWith (f : M → M) : Coro R M X E α → Prop
  | .ret _ | .raise _ | .write _ _ | .spawn _ _ => False
  | .read k => ∀ m, ∃ c, c.Done ∧ k m = .write (f m) c
  | .await _ k => ∀ r, (k r).EndsWith f

/-- A way in which the coroutine may end, whatever it reads and whatever it is answered. -/
inductive Ends : Coro R M X E α → Except E α → Prop
  | ret (a : α) : Ends (.ret a) (.ok a)
  | raise (e : E) : Ends (.raise e) (.error e)
  | read {k : M → Coro R M X E α} {r : Except E α} (m : M) (h : Ends (k m) r) : Ends (.read k) r
  | write {m : M} {c : Coro R M X E α} {r : Except E α} (h : Ends c r) : Ends (.write m c) r
  | spawn {x : X} {k : Nat → Coro R M X E α} {r : Except E α} (n : Nat) (h : Ends (k n) r) :
    Ends (.spawn x k) r
  | await {q : Q} {k : Except E (R q) → Coro R M X E α} {r : Except E α} (a : Except E (R q))
    (h : Ends (k a) r) : Ends (.await q k) r

theorem EndsWith.not_done {f : M → M} {c : Coro R M X E α} (h : c.EndsWith f) : ¬ c.Done := by
  rintro (⟨a, rfl⟩ | ⟨e, rfl⟩)
  · exact h
  · exact h

theorem Quiet.bind {c : Coro R M X E α} (hc : c.Quiet) {f : α → Coro R M X E β}
    (hf : ∀ a, (f a).Quiet) : (c >>= f).Quiet := by
  induction c with
  | ret a => exact hf a
  | raise e => trivial
  | read k ih | write m c ih | spawn x k ih => exact hc.elim
  | await q k ih => exact fun r => ih r (hc r)

end Coro

end ClickNBack.EventLoop
