import ClickNBack.ReadCommitted.Program
import Mathlib.Algebra.Ring.Nat
import Mathlib.Data.Fintype.Defs
import Mathlib.Data.Fintype.Basic

namespace ClickNBack.ReadCommitted

open Function

/-- A database session: what is left of its coroutine, what it has flushed but
not committed, and whether its open transaction has read anything. -/
structure Session (D S E α : Type) where
  prog : Prog D S E α
  log : List S
  reading : Bool

structure Sys (ι D S E α : Type) where
  db : D
  session : ι → Session D S E α

inductive Action (E : Type)
  | advance
  | fail (e : E)

variable {ι D S E K α : Type}

/-- A coroutine that has returned or raised has closed its session, which rolls
back whatever it had not committed. -/
def Session.settle : Prog D S E α → List S → Bool → Session D S E α
  | .ret a, _, _ => ⟨.ret a, [], false⟩
  | .raise e, _, _ => ⟨.raise e, [], false⟩
  | p, log, reading => ⟨p, log, reading⟩

@[simp] theorem Session.settle_prog (p : Prog D S E α) (log : List S) (r : Bool) :
    (Session.settle p log r).prog = p := by
  cases p <;> rfl

theorem Session.settle_log (p : Prog D S E α) (log : List S) (r : Bool) :
    (Session.settle p log r).log = [] ∨ (Session.settle p log r).log = log := by
  cases p with
  | ret a | raise e => exact Or.inl rfl
  | select k | exec s k | commit k | close k => exact Or.inr rfl

@[simp] theorem Session.settle_nil (p : Prog D S E α) (r : Bool) :
    (Session.settle p ([] : List S) r).log = [] := by
  obtain he | he := Session.settle_log p ([] : List S) r <;> exact he

theorem Session.settle_forall {P : S → Prop} {p : Prog D S E α} {log : List S} {r : Bool}
    (h : ∀ t ∈ log, P t) : ∀ t ∈ (Session.settle p log r).log, P t := by
  intro t ht
  obtain he | he := Session.settle_log p log r
  · simp [he] at ht
  · exact h t (he ▸ ht)

def Prog.Done (p : Prog D S E α) : Prop := (∃ a, p = .ret a) ∨ ∃ e, p = .raise e

instance (p : Prog D S E α) : Decidable p.Done :=
  match p with
  | .ret a => .isTrue (Or.inl ⟨a, rfl⟩)
  | .raise e => .isTrue (Or.inr ⟨e, rfl⟩)
  | .select _ | .exec _ _ | .commit _ | .close _ => .isFalse (by simp [Prog.Done])

theorem Session.settle_of_done {p : Prog D S E α} (h : p.Done) (log : List S) (r : Bool) :
    Session.settle p log r = ⟨p, [], false⟩ := by
  obtain ⟨a, rfl⟩ | ⟨e, rfl⟩ := h <;> rfl

theorem Session.settle_of_not_done {p : Prog D S E α} (h : ¬ p.Done) (log : List S) (r : Bool) :
    Session.settle p log r = ⟨p, log, r⟩ := by
  cases p with
  | ret a => exact absurd (Or.inl ⟨a, rfl⟩) h
  | raise e => exact absurd (Or.inr ⟨e, rfl⟩) h
  | select k | exec s k | commit k | close k => rfl

/-- The literals of `Fin 2`, for two sessions, are the same term in every module. -/
scoped instance neZero_two : NeZero 2 := ⟨Nat.succ_ne_zero 1⟩

namespace Sys

def start (d : D) (p : ι → Prog D S E α) : Sys ι D S E α :=
  ⟨d, fun i => Session.settle (p i) [] false⟩

def returned [Fintype ι] (s : Sys ι D S E α) : Multiset (ι × α) :=
  Finset.univ.val.filterMap fun i =>
    match (s.session i).prog with
    | .ret a => some (i, a)
    | _ => none

theorem mem_returned [Fintype ι] {s : Sys ι D S E α} {x : ι × α} :
    x ∈ s.returned ↔ (s.session x.1).prog = .ret x.2 := by
  obtain ⟨i, a⟩ := x
  rw [returned]
  rw [Multiset.mem_filterMap]
  constructor
  · rintro ⟨j, -, hj⟩
    split at hj
    · cases hj
      assumption
    · cases hj
  · intro h
    exact ⟨i, Finset.mem_univ i, by simp [h]⟩

theorem nodup_returned [Fintype ι] (s : Sys ι D S E α) : s.returned.Nodup := by
  apply Finset.univ.nodup.filterMap _
  intro i j x hi hj
  have hfst : ∀ {i : ι}, x ∈ (match (s.session i).prog with
      | .ret a => some (i, a)
      | _ => none) → x.1 = i := by
    intro i hi
    split at hi
    · cases hi
      rfl
    · cases hi
  exact (hfst hi).symm.trans (hfst hj)

variable [DecidableEq ι]

def put (s : Sys ι D S E α) (i : ι) (d : D) (x : Session D S E α) : Sys ι D S E α :=
  ⟨d, update s.session i x⟩

@[simp] theorem put_db (s : Sys ι D S E α) (i : ι) (d : D) (x : Session D S E α) :
    (s.put i d x).db = d := rfl

@[simp] theorem put_self (s : Sys ι D S E α) (i : ι) (d : D) (x : Session D S E α) :
    (s.put i d x).session i = x := by simp [put]

theorem put_of_ne (s : Sys ι D S E α) {i j : ι} (d : D) (x : Session D S E α) (h : j ≠ i) :
    (s.put i d x).session j = s.session j := by simp [put, h]

theorem forall_put (s : Sys ι D S E α) {i : ι} {d : D} {x : Session D S E α}
    (P : ι → Session D S E α → Prop) :
    (∀ j, P j ((s.put i d x).session j)) ↔ P i x ∧ ∀ j, j ≠ i → P j (s.session j) :=
  forall_update_iff s.session P

variable [Fintype ι] [DecidableEq K] [Statement S D E K]

/-- The rows that the transaction of a session sees. -/
def view (s : Sys ι D S E α) (i : ι) : D := replay (s.session i).log s.db

def Blocked (s : Sys ι D S E α) (i : ι) (st : S) : Prop :=
  ∃ j, j ≠ i ∧ ∃ t ∈ (s.session j).log,
    ∃ k ∈ Statement.locks st (s.view i), k ∈ Statement.locks t (s.view j)

instance (s : Sys ι D S E α) (i : ι) (st : S) : Decidable (s.Blocked i st) :=
  inferInstanceAs (Decidable (∃ j, j ≠ i ∧ ∃ t ∈ (s.session j).log,
    ∃ k ∈ Statement.locks st (s.view i), k ∈ Statement.locks t (s.view j)))

/-- One action of session `i` under READ COMMITTED. A SELECT sees the committed
rows of this moment under the session's own writes; a statement waits for its
keys and is run on the rows of the moment it gets them. -/
def next (s : Sys ι D S E α) (i : ι) : Action E → Option (Sys ι D S E α)
  | .fail e =>
    match (s.session i).prog with
    | .ret _ | .raise _ => none
    | _ => some (s.put i s.db (.settle (.raise e) [] false))
  | .advance =>
    match (s.session i).prog with
    | .ret _ | .raise _ => none
    | .select k =>
      some (s.put i s.db
        (.settle (k (replay (s.session i).log s.db)) (s.session i).log true))
    | .exec st k =>
      if s.Blocked i st then none
      else match Statement.exec st (replay (s.session i).log s.db) with
        | .ok _ =>
          some (s.put i s.db
            (.settle (k (.ok ())) ((s.session i).log ++ [st]) (s.session i).reading))
        | .error e => some (s.put i s.db (.settle (k (.error e)) [] (s.session i).reading))
    | .commit k => some (s.put i (replay (s.session i).log s.db) (.settle k [] false))
    | .close k => some (s.put i s.db (.settle k [] false))

inductive Step (s : Sys ι D S E α) (i : ι) : Action E → Sys ι D S E α → Prop
  | fail (e : E) (h : ¬ (s.session i).prog.Done) :
      Step s i (.fail e) (s.put i s.db (.settle (.raise e) [] false))
  | select {k : D → Prog D S E α} (h : (s.session i).prog = .select k) :
      Step s i .advance (s.put i s.db
        (.settle (k (replay (s.session i).log s.db)) (s.session i).log true))
  | flush {st : S} {k : Except E Unit → Prog D S E α} {d' : D}
      (h : (s.session i).prog = .exec st k) (hfree : ¬ s.Blocked i st)
      (hd : Statement.exec st (replay (s.session i).log s.db) = .ok d') :
      Step s i .advance (s.put i s.db
        (.settle (k (.ok ())) ((s.session i).log ++ [st]) (s.session i).reading))
  | refuse {st : S} {k : Except E Unit → Prog D S E α} {e : E}
      (h : (s.session i).prog = .exec st k) (hfree : ¬ s.Blocked i st)
      (hd : Statement.exec st (replay (s.session i).log s.db) = .error e) :
      Step s i .advance (s.put i s.db (.settle (k (.error e)) [] (s.session i).reading))
  | commit {k : Prog D S E α} (h : (s.session i).prog = .commit k) :
      Step s i .advance (s.put i (replay (s.session i).log s.db) (.settle k [] false))
  | close {k : Prog D S E α} (h : (s.session i).prog = .close k) :
      Step s i .advance (s.put i s.db (.settle k [] false))

omit [Fintype ι] [DecidableEq K] in
theorem Step.not_done {s s' : Sys ι D S E α} {i : ι} {a : Action E} (h : s.Step i a s') :
    ¬ (s.session i).prog.Done := by
  cases h with
  | fail e hp => exact hp
  | select hp | flush hp | refuse hp | commit hp | close hp => simp [Prog.Done, hp]

omit [Fintype ι] [DecidableEq K] in
theorem Step.of_select {s s' : Sys ι D S E α} {i : ι} (h : s.Step i .advance s')
    {k : D → Prog D S E α} (hk : (s.session i).prog = .select k) :
    s' = s.put i s.db (.settle (k (replay (s.session i).log s.db)) (s.session i).log true) := by
  cases h with
  | select hp =>
    obtain rfl := Prog.select.inj (hk.symm.trans hp)
    rfl
  | flush hp | refuse hp | commit hp | close hp => simp [hk] at hp

theorem step_of_next {s s' : Sys ι D S E α} {i : ι} {a : Action E} (h : s.next i a = some s') :
    s.Step i a s' := by
  cases a with
  | fail e =>
    cases hp : (s.session i).prog with
    | ret a | raise e' => simp [next, hp] at h
    | select k | exec st k | commit k | close k =>
      simp only [next, hp, Option.some.injEq] at h
      subst h
      exact Step.fail e (by simp [Prog.Done, hp])
  | advance =>
    cases hp : (s.session i).prog with
    | ret a | raise e => simp [next, hp] at h
    | select k =>
      simp only [next, hp, Option.some.injEq] at h
      subst h
      exact Step.select hp
    | exec st k =>
      simp only [next, hp] at h
      split at h
      · cases h
      · rename_i hfree
        cases hd : Statement.exec st (replay (s.session i).log s.db) with
        | ok d' =>
          simp only [hd, Option.some.injEq] at h
          subst h
          exact Step.flush hp hfree hd
        | error e =>
          simp only [hd, Option.some.injEq] at h
          subst h
          exact Step.refuse hp hfree hd
    | commit k =>
      simp only [next, hp, Option.some.injEq] at h
      subst h
      exact Step.commit hp
    | close k =>
      simp only [next, hp, Option.some.injEq] at h
      subst h
      exact Step.close hp

/-- The states of the interleavings in which every action meets `C`. -/
inductive Reach (C : Sys ι D S E α → ι → Action E → Prop) (s₀ : Sys ι D S E α) :
    Sys ι D S E α → Prop
  | refl : Reach C s₀ s₀
  | step {s s' : Sys ι D S E α} {i : ι} {a : Action E} (hr : Reach C s₀ s) (hc : C s i a)
      (hn : s.next i a = some s') : Reach C s₀ s'

/-- What holds at the start and is kept by every permitted action holds in
every state that an interleaving can reach. -/
theorem Reach.invariant {C : Sys ι D S E α → ι → Action E → Prop}
    {P : Sys ι D S E α → Prop} {s₀ s : Sys ι D S E α} (h : Reach C s₀ s) (h₀ : P s₀)
    (hstep : ∀ s i a s', P s → C s i a → s.Step i a s' → P s') : P s := by
  induction h with
  | refl => exact h₀
  | step _ hc hn ih => exact hstep _ _ _ _ ih hc (step_of_next hn)

/-- An interleaving, with the states that it has left behind, the last one first. -/
inductive Path (C : Sys ι D S E α → ι → Action E → Prop) (s₀ : Sys ι D S E α) :
    List (Sys ι D S E α) → Sys ι D S E α → Prop
  | start : Path C s₀ [] s₀
  | step {past : List (Sys ι D S E α)} {s s' : Sys ι D S E α} {i : ι} {a : Action E}
      (h : Path C s₀ past s) (hc : C s i a) (hn : s.next i a = some s') :
      Path C s₀ (s :: past) s'

theorem Path.reach {C : Sys ι D S E α → ι → Action E → Prop} {s₀ s : Sys ι D S E α}
    {past : List (Sys ι D S E α)} (h : Path C s₀ past s) : Reach C s₀ s := by
  induction h with
  | start => exact Reach.refl
  | step _ hc hn ih => exact ih.step hc hn

/-- Let the sessions act in the given order, as long as a guard admits it. -/
def play (g : Sys ι D S E α → ι → Bool) : List ι → Sys ι D S E α → Option (Sys ι D S E α)
  | [], s => some s
  | i :: is, s => if g s i then (s.next i .advance).bind (play g is) else none

theorem reach_of_play {C : Sys ι D S E α → ι → Action E → Prop}
    {g : Sys ι D S E α → ι → Bool} (hg : ∀ s i, g s i = true → C s i .advance)
    {s₀ s s' : Sys ι D S E α} {is : List ι} (hs : Reach C s₀ s) (h : play g is s = some s') :
    Reach C s₀ s' := by
  induction is generalizing s with
  | nil =>
    simp only [play, Option.some.injEq] at h
    exact h ▸ hs
  | cons i is ih =>
    simp only [play] at h
    split at h
    · rename_i hgi
      obtain ⟨t, ht, hp⟩ := Option.bind_eq_some_iff.mp h
      exact ih (Reach.step hs (hg s i hgi) ht) hp
    · cases h

theorem path_of_play {C : Sys ι D S E α → ι → Action E → Prop}
    {g : Sys ι D S E α → ι → Bool} (hg : ∀ s i, g s i = true → C s i .advance)
    {s₀ s s' : Sys ι D S E α} {past : List (Sys ι D S E α)} {is : List ι}
    (hs : Path C s₀ past s) (h : play g is s = some s') :
    ∃ past', Path C s₀ past' s' ∧ ∀ t ∈ s :: past, t ∈ s' :: past' := by
  induction is generalizing s past with
  | nil =>
    simp only [play, Option.some.injEq] at h
    subst h
    exact ⟨past, hs, fun _ ht => ht⟩
  | cons i is ih =>
    simp only [play] at h
    split at h
    · rename_i hgi
      obtain ⟨t, ht, hp⟩ := Option.bind_eq_some_iff.mp h
      obtain ⟨past', hpath, hmem⟩ := ih (hs.step (hg s i hgi) ht) hp
      exact ⟨past', hpath, fun u hu => hmem u (List.mem_cons_of_mem t hu)⟩
    · cases h

end Sys

def serial [Statement S D E K] (p : ι → Prog D S E α) (order : List ι) (d : D) : D :=
  order.foldl (fun d i => ((p i).run d []).2) d

@[simp] theorem serial_append [Statement S D E K] (p : ι → Prog D S E α) (l l' : List ι) (d : D) :
    serial p (l ++ l') d = serial p l' (serial p l d) := List.foldl_append

theorem serial_invariant [Statement S D E K] {P : D → Prop} {p : ι → Prog D S E α}
    (hstep : ∀ i d, P d → P ((p i).run d []).2) (order : List ι) {d : D} (hd : P d) :
    P (serial p order d) := by
  induction order generalizing d with
  | nil => exact hd
  | cons i order ih => exact ih (hstep i d hd)

end ClickNBack.ReadCommitted
