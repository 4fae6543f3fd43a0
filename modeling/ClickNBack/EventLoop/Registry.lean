import ClickNBack.EventLoop.Rely
import Mathlib.Data.List.AList

namespace ClickNBack.EventLoop

/-- A dictionary from labels to the tasks that run for them. -/
abbrev Registry (X : Type) := AList fun _ : X => Nat

variable {Q : Type} {R : Q → Type} {X E W α : Type} [DecidableEq X]

/-- Every task leaves the registry as it exits, and the registry holds the tasks
that have not exited. -/
structure Exact (σ : Shared R (Registry X) X E) : Prop where
  live : ∀ n t, σ.tasks[n]? = some t →
    t.coro.Done ∨ t.coro.EndsWith (AList.erase t.label) ∧ σ.memory.lookup t.label = some n
  registered : ∀ x n, σ.memory.lookup x = some n → σ.Runs x n

section

variable {σ : Shared R (Registry X) X E} {x : X} {n m : Nat}

theorem Exact.lookup_eq_some (h : Exact σ) : σ.memory.lookup x = some n ↔ σ.Runs x n := by
  constructor
  · exact h.registered x n
  · rintro ⟨t, ht, rfl, hlive⟩
    exact ((h.live n t ht).resolve_left hlive).2

theorem Exact.unique (h : Exact σ) (hn : σ.Runs x n) (hm : σ.Runs x m) : n = m := by
  rw [← h.lookup_eq_some] at hn hm
  exact Option.some.inj (hn.symm.trans hm)

end

namespace Job

variable {J : Job W R (Registry X) X E}

variable {σ : Shared R (Registry X) X E} {n : Nat} {x : X}

def register (x : X) : Coro R (Registry X) X E Unit := do
  let n ← Coro.createTask x
  Coro.modify (AList.insert x n)

section

variable {P : Except E α → List (Answer W R (Registry X) X E) → Shared R (Registry X) X E → Prop}
  {l : List (Answer W R (Registry X) X E)} (htask : ∀ x n, (J.task x n).EndsWith (AList.erase x))

include htask

end

end Job

end ClickNBack.EventLoop
