import ClickNBack.ReadCommitted.Program

namespace ClickNBack.ReadCommitted.Prog

variable {D S E K α β : Type}

/-- The coroutine whose `n`-th awaited action fails with `e`, where no handler
stands around that action. -/
def failAt : Prog D S E α → Nat → E → Prog D S E α
  | .ret a, _, _ => .ret a
  | .raise e', _, _ => .raise e'
  | .select _, 0, e | .exec _ _, 0, e | .commit _, 0, e => .raise e
  | .select k, n + 1, e => .select fun d => (k d).failAt n e
  | .exec s k, n + 1, e => .exec s fun r => (k r).failAt n e
  | .commit k, n + 1, e => .commit (k.failAt n e)
  | .close k, n, e => .close (k.failAt n e)

variable [Statement S D E K]

def firstCommit : Prog D S E α → D → List S → Option Nat
  | .ret _, _, _ | .raise _, _, _ => none
  | .select k, d, log => ((k (replay log d)).firstCommit d log).map (· + 1)
  | .exec s k, d, log =>
    match Statement.exec s (replay log d) with
    | .ok _ => ((k (.ok ())).firstCommit d (log ++ [s])).map (· + 1)
    | .error e => ((k (.error e)).firstCommit d []).map (· + 1)
  | .commit _, _, _ => some 0
  | .close k, d, _ => k.firstCommit d []

theorem run_exec_of_ok {s : S} {d d' : D} {log : List S}
    (h : Statement.exec s (replay log d) = .ok d') (k : Except E Unit → Prog D S E α) :
    (exec s k).run d log = (k (.ok ())).run d (log ++ [s]) := by
  simp only [run, h]

theorem firstCommit_exec_of_ok {s : S} {d d' : D} {log : List S}
    (h : Statement.exec s (replay log d) = .ok d') (k : Except E Unit → Prog D S E α) :
    (exec s k).firstCommit d log = ((k (.ok ())).firstCommit d (log ++ [s])).map (· + 1) := by
  simp only [firstCommit, h]

/-- From the flushed statements `log`, the coroutine returns `a` after `m`
actions, none of them a commit, and leaves the statements `log'` flushed. -/
inductive Flushes (d : D) : Prog D S E α → List S → α → List S → Nat → Prop
  | ret (a : α) (log : List S) : Flushes d (.ret a) log a log 0
  | select {k : D → Prog D S E α} {log log' : List S} {a : α} {m : Nat}
      (h : Flushes d (k (replay log d)) log a log' m) : Flushes d (.select k) log a log' (m + 1)
  | exec {s : S} {k : Except E Unit → Prog D S E α} {log log' : List S} {a : α} {m : Nat} {d' : D}
      (hs : Statement.exec s (replay log d) = .ok d')
      (h : Flushes d (k (.ok ())) (log ++ [s]) a log' m) : Flushes d (.exec s k) log a log' (m + 1)

namespace Flushes

variable {d : D} {p : Prog D S E α} {f : α → Prog D S E β} {log log' log₁ : List S} {a : α} {b : β}
  {m m' : Nat}

theorem pure (a : α) (log : List S) :
    Flushes d (Pure.pure a : Prog D S E α) log a log 0 := Flushes.ret a log

theorem query (f : D → α) (log : List S) :
    Flushes d (Prog.query f : Prog D S E α) log (f (replay log d)) log 1 :=
  Flushes.select (Flushes.ret _ log)

theorem execute {s : S} {d' : D} (h : Statement.exec s (replay log d) = .ok d') :
    Flushes d (Prog.execute s) log () (log ++ [s]) 1 :=
  Flushes.exec h (Flushes.ret () _)

theorem bind (h : Flushes d p log a log₁ m) (hf : Flushes d (f a) log₁ b log' m') :
    Flushes d (p >>= f) log b log' (m + m') := by
  induction h with
  | ret a log =>
    rw [Nat.zero_add]
    exact hf
  | select h ih =>
    rw [Nat.succ_add_eq_add_succ]
    exact Flushes.select (ih hf)
  | exec hs h ih =>
    rw [Nat.succ_add_eq_add_succ]
    exact Flushes.exec hs (ih hf)

theorem failAt_bind (h : Flushes d p log a log' m) (f : α → Prog D S E β) (n : Nat) (e : E) :
    ((p >>= f).failAt n e).run d log =
      if n < m then (.error e, d) else ((f a).failAt (n - m) e).run d log' := by
  induction h generalizing n with
  | ret a log => rfl
  | select h ih =>
    cases n with
    | zero => rfl
    | succ n =>
      simp only [Nat.add_lt_add_iff_right, Nat.add_sub_add_right]
      exact ih n
  | @exec s k log log' a m d' hs h ih =>
    cases n with
    | zero => rfl
    | succ n =>
      simp only [Nat.add_lt_add_iff_right, Nat.add_sub_add_right]
      rw [← ih n]
      exact run_exec_of_ok hs _

theorem firstCommit_bind (h : Flushes d p log a log' m) (f : α → Prog D S E β) :
    (p >>= f).firstCommit d log = ((f a).firstCommit d log').map (· + m) := by
  induction h with
  | ret a log => exact Option.map_id'.symm
  | @select k log log' a m h ih =>
    change ((k (replay log d) >>= f).firstCommit d log).map _ = _
    rw [ih, Option.map_map]
    rfl
  | @exec s k log log' a m d' hs h ih =>
    change (Prog.exec s fun r => k r >>= f).firstCommit d log = _
    rw [firstCommit_exec_of_ok hs, ih, Option.map_map]
    rfl

end Flushes

theorem failAt_commitTx_bind (f : Unit → Prog D S E β) (d : D) (log : List S) (n : Nat) (e : E) :
    ((commitTx >>= f).failAt n e).run d log =
      if n = 0 then (.error e, d) else ((f ()).failAt (n - 1) e).run (replay log d) [] := by
  cases n with
  | zero => rfl
  | succ n => rfl

theorem firstCommit_commitTx_bind (f : Unit → Prog D S E β) (d : D) (log : List S) :
    (commitTx >>= f).firstCommit d log = some 0 := rfl

end ClickNBack.ReadCommitted.Prog
