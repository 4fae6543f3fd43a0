import ClickNBack.EventLoop.Coroutine
import Mathlib.Data.List.Basic

namespace ClickNBack.EventLoop

variable {Q : Type} {R : Q → Type} {M E α β : Type}

/-- How each request is answered after those made before it, and what the other
coroutines have done to the memory when the answer arrives. -/
structure Environment {Q : Type} (R : Q → Type) (M E : Type) where
  serve : List Q → (q : Q) → Except E (R q)
  others : List Q → M → M

namespace Coro

variable (w : Environment R M E)

/-- The outcome of a coroutine, the requests that it has made by then, after those of
`l`, and the memory that it leaves. -/
def play : Coro R M Empty E α → M → List Q → Except E α × List Q × M
  | .ret a, m, l => (.ok a, l, m)
  | .raise e, m, l => (.error e, l, m)
  | .read k, m, l => (k m).play m l
  | .write m c, _, l => c.play m l
  | .spawn x _, _, _ => x.elim
  | .await q k, m, l => (k (w.serve l q)).play (w.others (l ++ [q]) m) (l ++ [q])

/-- After the requests of `l`, the coroutine makes those of `calls` and returns `a`. -/
def Returns (c : Coro R M Empty E α) (l : List Q) (a : α) (calls : List Q) : Prop :=
  ∀ m, ∃ m', c.play w m l = (.ok a, l ++ calls, m')

variable {w} {c : Coro R M Empty E α} {f : α → Coro R M Empty E β} {l calls calls' : List Q}
  {a : α} {b : β}

theorem play_bind_of_ok {m m' : M} {l' : List Q} (h : c.play w m l = (.ok a, l', m')) :
    (c >>= f).play w m l = (f a).play w m' l' := by
  change (c.bind f).play w m l = _
  induction c generalizing m l with
  | ret a' =>
    cases h
    rfl
  | raise e => cases h
  | read k ih | await q k ih => exact ih _ h
  | write m' c ih => exact ih h
  | spawn x => exact x.elim

theorem Returns.bind (h : Returns w c l a calls) (hf : Returns w (f a) (l ++ calls) b calls') :
    Returns w (c >>= f) l b (calls ++ calls') := by
  intro m
  obtain ⟨m', hm⟩ := h m
  obtain ⟨m'', hm'⟩ := hf m'
  refine ⟨m'', ?_⟩
  rw [play_bind_of_ok hm, hm', List.append_assoc]

end Coro

end ClickNBack.EventLoop
