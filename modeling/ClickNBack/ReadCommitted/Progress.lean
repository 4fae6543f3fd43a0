import ClickNBack.ReadCommitted.System
import Mathlib.Data.DFinsupp.WellFounded
import Mathlib.Data.Set.Finite.Lemmas

namespace ClickNBack.ReadCommitted

variable {ι D S E K α β : Type}

namespace Prog

inductive Leaves : Prog D S E α → Prog D S E α → Prop
  | select (k : D → Prog D S E α) (d : D) : Leaves (k d) (.select k)
  | exec (s : S) (k : Except E Unit → Prog D S E α) (r : Except E Unit) : Leaves (k r) (.exec s k)
  | commit (k : Prog D S E α) : Leaves k (.commit k)
  | close (k : Prog D S E α) : Leaves k (.close k)
  | fail {p : Prog D S E α} (e : E) (h : ¬ p.Done) : Leaves (.raise e) p

theorem leaves_wellFounded : WellFounded (Leaves (D := D) (S := S) (E := E) (α := α)) := by
  have hraise : ∀ e : E, Acc Leaves (Prog.raise e : Prog D S E α) := by
    refine fun e => Acc.intro _ fun q hq => ?_
    cases hq with
    | fail e' h => exact absurd (Or.inr ⟨e, rfl⟩) h
  refine ⟨fun p => ?_⟩
  induction p with
  | ret a =>
    refine Acc.intro _ fun q hq => ?_
    cases hq with
    | fail e h => exact absurd (Or.inl ⟨a, rfl⟩) h
  | raise e => exact hraise e
  | select k ih =>
    refine Acc.intro _ fun q hq => ?_
    cases hq with
    | select k d => exact ih d
    | fail e => exact hraise e
  | exec s k ih =>
    refine Acc.intro _ fun q hq => ?_
    cases hq with
    | exec s k r => exact ih r
    | fail e => exact hraise e
  | commit k ih =>
    refine Acc.intro _ fun q hq => ?_
    cases hq with
    | commit => exact ih
    | fail e => exact hraise e
  | close k ih =>
    refine Acc.intro _ fun q hq => ?_
    cases hq with
    | close => exact ih
    | fail e => exact hraise e

variable [Statement S D E K] (level : K → Nat)

/-- Until it commits, the coroutine locks keys of higher and higher levels; those that it
holds are below the given one. -/
def Ascends : Prog D S E α → Nat → Prop
  | .ret _, _ => True
  | .raise _, _ => True
  | .select k, n => ∀ d, (k d).Ascends n
  | .exec s k, n => ∃ m, n ≤ m ∧ (∀ d, ∀ x ∈ Statement.locks s d, n ≤ level x ∧ level x < m) ∧
      (k (.ok ())).Ascends m ∧ ∀ e, (k (.error e)).Ascends 0
  | .commit k, _ => k.Ascends 0
  | .close k, _ => k.Ascends 0

variable {level} {n : Nat}

theorem ascends_lift_bind {x : Except E α} {g : α → Prog D S E β}
    (h : ∀ a, x = .ok a → (g a).Ascends level n) : (lift x >>= g).Ascends level n := by
  cases x with
  | error e => trivial
  | ok a => exact h a rfl

theorem ascends_query_bind {f : D → α} {g : α → Prog D S E β}
    (h : ∀ d, (g (f d)).Ascends level n) : (query f >>= g).Ascends level n := h

theorem ascends_execute_bind {s : S} {g : Unit → Prog D S E β} (m : Nat) (hm : n ≤ m)
    (hs : ∀ d, ∀ x ∈ Statement.locks s d, n ≤ level x ∧ level x < m)
    (h : (g ()).Ascends level m) : (execute s >>= g).Ascends level n :=
  ⟨m, hm, hs, h, fun _ => trivial⟩

theorem ascends_commitTx_bind {g : Unit → Prog D S E β} (h : (g ()).Ascends level 0) :
    (commitTx >>= g).Ascends level n := h

end Prog

namespace Sys

variable [DecidableEq ι] [Fintype ι] [DecidableEq K] [Statement S D E K]

omit [DecidableEq K] [Fintype ι] in
theorem Step.leaves {s s' : Sys ι D S E α} {i : ι} {a : Action E} (h : s.Step i a s') :
    ((s'.session i).prog).Leaves (s.session i).prog ∧ ∀ j, j ≠ i → s'.session j = s.session j := by
  cases h with
  | fail e hp =>
    rw [put_self, Session.settle_prog]
    exact ⟨.fail e hp, fun j hj => put_of_ne s _ _ hj⟩
  | select hp =>
    rw [put_self, Session.settle_prog, hp]
    exact ⟨.select _ _, fun j hj => put_of_ne s _ _ hj⟩
  | flush hp | refuse hp =>
    rw [put_self, Session.settle_prog, hp]
    exact ⟨.exec _ _ _, fun j hj => put_of_ne s _ _ hj⟩
  | commit hp =>
    rw [put_self, Session.settle_prog, hp]
    exact ⟨.commit _, fun j hj => put_of_ne s _ _ hj⟩
  | close hp =>
    rw [put_self, Session.settle_prog, hp]
    exact ⟨.close _, fun j hj => put_of_ne s _ _ hj⟩

theorem next_wellFounded :
    WellFounded fun s' s : Sys ι D S E α => ∃ i a, s.next i a = some s' := by
  let order : LinearOrder ι := LinearOrder.lift' (Fintype.equivFin ι) (Fintype.equivFin ι).injective
  have hlex := Pi.Lex.wellFounded (ι := ι) (· < ·) fun _ : ι =>
    Prog.leaves_wellFounded (D := D) (S := S) (E := E) (α := α)
  refine Subrelation.wf ?_ (InvImage.wf (fun (s : Sys ι D S E α) i => (s.session i).prog) hlex)
  rintro s' s ⟨i, a, h⟩
  obtain ⟨hleaves, hothers⟩ := (step_of_next h).leaves
  exact ⟨i, fun j hj => congrArg Session.prog (hothers j hj.ne), hleaves⟩

variable (level : K → Nat)

/-- Every session goes on to lock higher keys than those that it holds; one that is done
holds none. -/
structure Ascending (s : Sys ι D S E α) : Prop where
  ascends : ∀ i, ∃ n, (s.session i).prog.Ascends level n ∧
    ∀ t ∈ (s.session i).log, ∀ d, ∀ x ∈ Statement.locks t d, level x < n
  released : ∀ i, (s.session i).prog.Done → (s.session i).log = []

variable {level} {s s' : Sys ι D S E α}

omit [DecidableEq K] [Fintype ι] in
theorem Ascending.put (h : s.Ascending level) {i : ι} {d : D} {q : Prog D S E α} {log : List S}
    {r : Bool} {n : Nat} (hq : q.Ascends level n)
    (hlog : ∀ t ∈ log, ∀ d, ∀ x ∈ Statement.locks t d, level x < n) :
    (s.put i d (.settle q log r)).Ascending level where
  ascends := by
    refine (forall_put s fun _ v => ∃ n, v.prog.Ascends level n ∧
      ∀ t ∈ v.log, ∀ d, ∀ x ∈ Statement.locks t d, level x < n).mpr
        ⟨⟨n, ?_, Session.settle_forall hlog⟩, fun j _ => h.ascends j⟩
    rw [Session.settle_prog]
    exact hq
  released := by
    refine (forall_put s fun _ v => v.prog.Done → v.log = []).mpr
      ⟨fun hdone => ?_, fun j _ => h.released j⟩
    rw [Session.settle_prog] at hdone
    rw [Session.settle_of_done hdone]

omit [DecidableEq K] [Fintype ι] in
theorem Ascending.step (h : s.Ascending level) {i : ι} {a : Action E} (hs : s.Step i a s') :
    s'.Ascending level := by
  obtain ⟨n, hn, hlog⟩ := h.ascends i
  have hnil : ∀ t ∈ ([] : List S), ∀ d, ∀ x ∈ Statement.locks t d, level x < 0 := by simp
  cases hs with
  | fail e hp => exact h.put (n := 0) trivial hnil
  | select hp =>
    rw [hp] at hn
    exact h.put (hn _) hlog
  | flush hp hfree hd =>
    rw [hp] at hn
    obtain ⟨m, hm, hlocks, hok, -⟩ := hn
    refine h.put hok fun t ht d x hx => ?_
    obtain ht | ht := List.mem_append.mp ht
    · exact (hlog t ht d x hx).trans_le hm
    · rw [List.mem_singleton.mp ht] at hx
      exact (hlocks d x hx).2
  | refuse hp hfree hd =>
    rw [hp] at hn
    obtain ⟨m, -, -, -, herror⟩ := hn
    exact h.put (herror _) hnil
  | commit hp =>
    rw [hp] at hn
    exact h.put hn hnil
  | close hp =>
    rw [hp] at hn
    exact h.put hn hnil

omit [DecidableEq ι] [DecidableEq K] [Fintype ι] in
theorem ascending_start {p : ι → Prog D S E α} (hp : ∀ i, (p i).Ascends level 0) (d : D) :
    (start d p).Ascending level where
  ascends i := by
    refine ⟨0, ?_, ?_⟩
    · simpa [start] using hp i
    · simp [start]
  released i _ := Session.settle_nil (p i) false

/-- What keeps a session that is not done from going on. -/
theorem blocked_of_stuck {i : ι} (hdone : ¬ (s.session i).prog.Done)
    (hstuck : s.next i .advance = none) :
    ∃ st k, (s.session i).prog = .exec st k ∧ s.Blocked i st := by
  cases hp : (s.session i).prog with
  | ret a => exact absurd (Or.inl ⟨a, hp⟩) hdone
  | raise e => exact absurd (Or.inr ⟨e, hp⟩) hdone
  | select k | commit k | close k => simp [next, hp] at hstuck
  | exec st k =>
    refine ⟨st, k, rfl, ?_⟩
    by_contra hfree
    simp only [next, hp, if_neg hfree] at hstuck
    split at hstuck <;> cases hstuck

theorem Ascending.exists_next (h : s.Ascending level) {i : ι} (hi : ¬ (s.session i).prog.Done) :
    ∃ j s', s.next j .advance = some s' := by
  by_contra hnone
  have hstuck : ∀ j, s.next j .advance = none := by
    intro j
    by_contra hsome
    obtain ⟨s', hs'⟩ := Option.ne_none_iff_exists'.mp hsome
    exact hnone ⟨j, s', hs'⟩
  choose n hn hlog using h.ascends
  -- whoever waits is kept waiting by one who waits for a higher key
  have hwaits : ∀ j, ¬ (s.session j).prog.Done →
      ∃ j', ¬ (s.session j').prog.Done ∧ n j < n j' := by
    intro j hj
    obtain ⟨st, k, hp, j', -, t, ht, x, hx, hxt⟩ := blocked_of_stuck hj (hstuck j)
    have hnj := hn j
    rw [hp] at hnj
    obtain ⟨m, -, hlocks, -⟩ := hnj
    refine ⟨j', fun hdone => ?_, (hlocks _ x hx).1.trans_lt (hlog j' t ht _ x hxt)⟩
    rw [h.released j' hdone] at ht
    cases ht
  obtain ⟨j, hj, hmax⟩ := Set.exists_max_image { j | ¬ (s.session j).prog.Done } n
    (Set.toFinite _) ⟨i, hi⟩
  obtain ⟨j', hj', hlt⟩ := hwaits j hj
  exact absurd (hmax j' hj') (Nat.not_le.mpr hlt)

/-- A schedule in which some session acts as long as one can go on. -/
def Schedule (f : ℕ → Sys ι D S E α) : Prop :=
  ∀ n, (∃ i a, (f n).next i a = some (f (n + 1))) ∨ ∀ i, (f n).next i .advance = none

def Faultless (f : ℕ → Sys ι D S E α) : Prop :=
  ∀ n, (∃ i, (f n).next i .advance = some (f (n + 1))) ∨ ∀ i, (f n).next i .advance = none

theorem Faultless.schedule {f : ℕ → Sys ι D S E α} (h : Faultless f) : Schedule f := by
  intro n
  apply (h n).imp_left
  rintro ⟨i, hi⟩
  exact ⟨i, .advance, hi⟩

theorem Reach.head {C : Sys ι D S E α → ι → Action E → Prop} {t : Sys ι D S E α} {i : ι}
    {a : Action E} (hc : C s i a) (hn : s.next i a = some s') (h : Reach C s' t) :
    Reach C s t := by
  induction h with
  | refl => exact Reach.refl.step hc hn
  | step _ hc' hn' ih => exact ih.step hc' hn'

/-- Where every session locks keys in ascending order, every schedule brings all of them to
their ends. -/
theorem Ascending.reach_done {C : Sys ι D S E α → ι → Action E → Prop} {f : ℕ → Sys ι D S E α}
    (hf : ∀ n, (∃ i a, C (f n) i a ∧ (f n).next i a = some (f (n + 1))) ∨
      ∀ i, (f n).next i .advance = none) {n : ℕ} (h : (f n).Ascending level) :
    ∃ m, Reach C (f n) (f m) ∧ ∀ i, ((f m).session i).prog.Done := by
  have hacc := next_wellFounded.apply (f n)
  generalize hs : f n = s at h hacc
  induction hacc generalizing n with
  | intro s _ ih =>
    obtain ⟨i, a, hc, hnext⟩ | hstuck := hf n
    · rw [hs] at hc hnext
      obtain ⟨m, hr, hdone⟩ := ih (f (n + 1)) ⟨i, a, hnext⟩ rfl (h.step (step_of_next hnext))
      exact ⟨m, hr.head hc hnext, hdone⟩
    · refine ⟨n, hs ▸ Reach.refl, fun i => ?_⟩
      by_contra hi
      rw [hs] at hi hstuck
      obtain ⟨j, s', hj⟩ := h.exists_next hi
      cases (hstuck j).symm.trans hj

theorem Ascending.eventually_done {f : ℕ → Sys ι D S E α} (hf : Schedule f) {n : ℕ}
    (h : (f n).Ascending level) : ∃ m, ∀ i, ((f m).session i).prog.Done := by
  obtain ⟨m, -, hdone⟩ := h.reach_done (C := fun _ _ _ => True) fun n => by
    simpa only [true_and] using hf n
  exact ⟨m, hdone⟩

theorem Ascending.reach_done_of_faultless {f : ℕ → Sys ι D S E α} (hf : Faultless f) {n : ℕ}
    (h : (f n).Ascending level) :
    ∃ m, Reach (fun _ _ a => a = .advance) (f n) (f m) ∧ ∀ i, ((f m).session i).prog.Done := by
  apply h.reach_done
  intro n
  apply (hf n).imp_left
  rintro ⟨i, hi⟩
  exact ⟨i, .advance, rfl, hi⟩

end Sys

end ClickNBack.ReadCommitted
