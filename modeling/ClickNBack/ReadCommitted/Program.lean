import Mathlib.Logic.Function.Basic

namespace ClickNBack.ReadCommitted

/-- How a database runs one statement on the rows that its transaction sees,
and which keys the statement then keeps locked until that transaction ends. -/
class Statement (S : Type) (D E K : outParam Type) where
  exec : S → D → Except E D
  locks : S → D → List K

/-- A coroutine that talks to a database. Its only actions are a SELECT, a
flushed statement, a commit and the closing of its session without a commit;
between two actions it may be suspended. -/
inductive Prog (D S E α : Type)
  | ret (a : α)
  | raise (e : E)
  | select (k : D → Prog D S E α)
  | exec (s : S) (k : Except E Unit → Prog D S E α)
  | commit (k : Prog D S E α)
  | close (k : Prog D S E α)

variable {D S E K α β γ : Type}

namespace Prog

def bind : Prog D S E α → (α → Prog D S E β) → Prog D S E β
  | .ret a, f => f a
  | .raise e, _ => .raise e
  | .select k, f => .select fun d => (k d).bind f
  | .exec s k, f => .exec s fun r => (k r).bind f
  | .commit k, f => .commit (k.bind f)
  | .close k, f => .close (k.bind f)

instance : Monad (Prog D S E) where
  pure := .ret
  bind := bind

theorem bind_ret (p : Prog D S E α) : p.bind .ret = p := by
  induction p with
  | ret a | raise e => rfl
  | select k ih => simp only [bind, ih]
  | exec s k ih => simp only [bind, ih]
  | commit k ih | close k ih => simp only [bind, ih]

theorem bind_bind (p : Prog D S E α) (f : α → Prog D S E β) (g : β → Prog D S E γ) :
    (p.bind f).bind g = p.bind fun a => (f a).bind g := by
  induction p with
  | ret a | raise e => rfl
  | select k ih => simp only [bind, ih]
  | exec s k ih => simp only [bind, ih]
  | commit k ih | close k ih => simp only [bind, ih]

instance : LawfulMonad (Prog D S E) :=
  LawfulMonad.mk' _ bind_ret (fun _ _ => rfl) bind_bind

def query (f : D → α) : Prog D S E α := .select fun d => .ret (f d)

def execute (s : S) : Prog D S E Unit :=
  .exec s fun
    | .ok _ => .ret ()
    | .error e => .raise e

def commitTx : Prog D S E Unit := .commit (.ret ())

def closeSession : Prog D S E Unit := .close (.ret ())

def lift : Except E α → Prog D S E α
  | .ok a => .ret a
  | .error e => .raise e

def tryCatch : Prog D S E α → (E → Prog D S E α) → Prog D S E α
  | .ret a, _ => .ret a
  | .raise e, h => h e
  | .select k, h => .select fun d => (k d).tryCatch h
  | .exec s k, h => .exec s fun r => (k r).tryCatch h
  | .commit k, h => .commit (k.tryCatch h)
  | .close k, h => .close (k.tryCatch h)

@[simp] theorem raise_bind (e : E) (f : α → Prog D S E β) : (raise e >>= f) = raise e := rfl

@[simp] theorem lift_ok (a : α) : (lift (.ok a) : Prog D S E α) = pure a := rfl

@[simp] theorem lift_error (e : E) : (lift (.error e) : Prog D S E α) = raise e := rfl

end Prog

section

variable [Statement S D E K]

/-- The rows after a statement; one that is refused leaves them as they are. -/
def apply (s : S) (d : D) : D :=
  match Statement.exec s d with
  | .ok d' => d'
  | .error _ => d

theorem apply_of_ok {s : S} {d d' : D} (h : Statement.exec s d = .ok d') : apply s d = d' := by
  simp only [apply, h]

def replay (log : List S) (d : D) : D := log.foldl (fun d s => apply s d) d

@[simp] theorem replay_nil (d : D) : replay ([] : List S) d = d := rfl

@[simp] theorem replay_cons (s : S) (log : List S) (d : D) :
    replay (s :: log) d = replay log (apply s d) := rfl

theorem replay_append (l l' : List S) (d : D) : replay (l ++ l') d = replay l' (replay l d) :=
  List.foldl_append

theorem replay_snoc {s : S} {log : List S} {d d' : D}
    (h : Statement.exec s (replay log d) = .ok d') : replay (log ++ [s]) d = d' := by
  rw [replay_append, replay_cons, replay_nil, apply_of_ok h]

theorem replay_invariant {P : D → Prop} (log : List S) (d : D)
    (hstep : ∀ s ∈ log, ∀ d, P d → P (apply s d)) (hd : P d) : P (replay log d) := by
  induction log generalizing d with
  | nil => exact hd
  | cons s log ih =>
    exact ih (apply s d) (fun t ht => hstep t (List.mem_cons_of_mem s ht))
      (hstep s List.mem_cons_self d hd)

theorem replay_congr {O : Type} (f : D → O) (log : List S) (d : D)
    (hstep : ∀ s ∈ log, ∀ d, f (apply s d) = f d) : f (replay log d) = f d :=
  replay_invariant (P := fun d' => f d' = f d) log d
    (fun s hs d' hd' => (hstep s hs d').trans hd') rfl

namespace Prog

/-- Running alone: what the caller gets, and the committed rows afterwards. The
second argument collects what is flushed but not committed yet. -/
def run : Prog D S E α → D → List S → Except E α × D
  | .ret a, d, _ => (.ok a, d)
  | .raise e, d, _ => (.error e, d)
  | .select k, d, log => (k (replay log d)).run d log
  | .exec s k, d, log =>
    match Statement.exec s (replay log d) with
    | .ok _ => (k (.ok ())).run d (log ++ [s])
    | .error e => (k (.error e)).run d []
  | .commit k, d, log => k.run (replay log d) []
  | .close k, d, _ => k.run d []

/-- The statements that a run alone commits, in order. -/
def committed : Prog D S E α → D → List S → List S
  | .ret _, _, _ => []
  | .raise _, _, _ => []
  | .select k, d, log => (k (replay log d)).committed d log
  | .exec s k, d, log =>
    match Statement.exec s (replay log d) with
    | .ok _ => (k (.ok ())).committed d (log ++ [s])
    | .error e => (k (.error e)).committed d []
  | .commit k, d, log => log ++ k.committed (replay log d) []
  | .close k, d, _ => k.committed d []

theorem run_snd (p : Prog D S E α) (d : D) (log : List S) :
    (p.run d log).2 = replay (p.committed d log) d := by
  induction p generalizing d log with
  | ret a | raise e => rfl
  | select k ih => exact ih _ d log
  | exec s k ih =>
    simp only [run, committed]
    cases Statement.exec s (replay log d) with
    | ok d' => exact ih _ d (log ++ [s])
    | error e => exact ih _ d []
  | commit k ih => simp only [run, committed, ih, replay_append]
  | close k ih => exact ih d []

@[simp] theorem run_pure (a : α) (d : D) (log : List S) :
    (pure a : Prog D S E α).run d log = (.ok a, d) := rfl

@[simp] theorem committed_pure (a : α) (d : D) (log : List S) :
    (pure a : Prog D S E α).committed d log = [] := rfl

@[simp] theorem run_raise (e : E) (d : D) (log : List S) :
    (raise e : Prog D S E α).run d log = (.error e, d) := rfl

@[simp] theorem committed_raise (e : E) (d : D) (log : List S) :
    (raise e : Prog D S E α).committed d log = [] := rfl

@[simp] theorem run_query_bind (f : D → α) (g : α → Prog D S E β) (d : D) (log : List S) :
    (query f >>= g).run d log = (g (f (replay log d))).run d log := rfl

@[simp] theorem committed_query_bind (f : D → α) (g : α → Prog D S E β) (d : D) (log : List S) :
    (query f >>= g).committed d log = (g (f (replay log d))).committed d log := rfl

@[simp] theorem run_commitTx_bind (g : Unit → Prog D S E β) (d : D) (log : List S) :
    (commitTx >>= g).run d log = (g ()).run (replay log d) [] := rfl

@[simp] theorem committed_commitTx_bind (g : Unit → Prog D S E β) (d : D) (log : List S) :
    (commitTx >>= g).committed d log = log ++ (g ()).committed (replay log d) [] := rfl

@[simp] theorem committed_closeSession_bind (g : Unit → Prog D S E β) (d : D) (log : List S) :
    (closeSession >>= g).committed d log = (g ()).committed d [] := rfl

theorem committed_lift_bind {P : List S → Prop} {x : Except E α} {g : α → Prog D S E β} {d : D}
    {log : List S} (hnil : P []) (hok : ∀ a, x = .ok a → P ((g a).committed d log)) :
    P ((lift x >>= g).committed d log) := by
  cases x with
  | error e => exact hnil
  | ok a => exact hok a rfl

theorem committed_execute_bind {P : List S → Prop} {s : S} {g : Unit → Prog D S E β} {d : D}
    {log : List S} (hnil : P [])
    (hok : ∀ d', Statement.exec s (replay log d) = .ok d' →
      P ((g ()).committed d (log ++ [s]))) :
    P ((execute s >>= g).committed d log) := by
  change P ((bind (execute s) g).committed d log)
  simp only [execute, bind, committed]
  cases h : Statement.exec s (replay log d) with
  | error e => exact hnil
  | ok d' => exact hok d' h

def concluded (d : D) (write : α → Except E β × D) : Except E α → Except E β × D
  | .error e => (.error e, d)
  | .ok a => write a

theorem run_lift_bind {d : D} {log : List S} {write : γ → Except E β × D} {x : Except E α}
    {f : α → Prog D S E β} {h : α → Except E γ}
    (hok : ∀ a, (f a).run d log = concluded d write (h a)) :
    (lift x >>= f).run d log = concluded d write (x >>= h) := by
  cases x with
  | error e => rfl
  | ok a => exact hok a

theorem execute_run_bind {d : D} {log : List S} (s : S) (f : Unit → Prog D S E β) :
    (execute s >>= f).run d log =
      match Statement.exec s (replay log d) with
      | .ok _ => (f ()).run d (log ++ [s])
      | .error e => (.error e, d) := by
  change (Prog.bind (execute s) f).run d log = _
  simp only [execute, bind, run]

theorem run_tryCatch {h : E → Prog D S E α} {g : E → E} (hg : ∀ e, h e = raise (g e))
    (p : Prog D S E α) (d : D) (log : List S) :
    (tryCatch p h).run d log = ((p.run d log).1.mapError g, (p.run d log).2) := by
  induction p generalizing d log with
  | ret a => rfl
  | raise e =>
    simp only [tryCatch, hg]
    rfl
  | select k ih => exact ih _ d log
  | exec s k ih =>
    simp only [tryCatch, run]
    cases Statement.exec s (replay log d) with
    | ok d' => exact ih _ d (log ++ [s])
    | error e => exact ih _ d []
  | commit k ih => exact ih (replay log d) []
  | close k ih => exact ih d []

end Prog

end

end ClickNBack.ReadCommitted
