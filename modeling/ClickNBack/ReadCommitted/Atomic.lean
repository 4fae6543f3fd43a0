import ClickNBack.ReadCommitted.System

namespace ClickNBack.ReadCommitted

variable {ι D S E K α β : Type} [Statement S D E K]

/-- The statements run one after another, and none of them is refused. -/
def Runs : List S → D → Prop
  | [], _ => True
  | s :: log, d => ∃ d', Statement.exec s d = .ok d' ∧ Runs log d'

theorem runs_append {l l' : List S} {d : D} :
    Runs (l ++ l') d ↔ Runs l d ∧ Runs l' (replay l d) := by
  induction l generalizing d with
  | nil => simp [Runs]
  | cons s l ih =>
    simp only [List.cons_append, Runs, replay_cons]
    constructor
    · rintro ⟨d', hd, h⟩
      obtain ⟨h₁, h₂⟩ := ih.mp h
      exact ⟨⟨d', hd, h₁⟩, apply_of_ok hd ▸ h₂⟩
    · rintro ⟨⟨d', hd, h₁⟩, h₂⟩
      exact ⟨d', hd, ih.mpr ⟨h₁, apply_of_ok hd ▸ h₂⟩⟩

namespace Prog

/-- Whatever it reads, the coroutine either raises, or flushes the script of an
outcome that meets `R`, commits once and returns this outcome. -/
def Follows (script : α → List S) (R : α → Prop) : Prog D S E α → List S → Prop
  | .ret _, _ => False
  | .raise _, _ => True
  | .select k, log => ∀ d, Runs log d → (k (replay log d)).Follows script R log
  | .exec s k, log => (∃ a, R a ∧ log ++ [s] <+: script a) ∧
      (k (.ok ())).Follows script R (log ++ [s]) ∧ ∀ e, ∃ e', k (.error e) = .raise e'
  | .commit k, log => ∃ a, R a ∧ log = script a ∧ k = .ret a
  | .close _, _ => False

variable {script : β → List S} {R : β → Prop} {log : List S}

theorem follows_lift_bind {x : Except E α} {g : α → Prog D S E β}
    (h : ∀ a, x = .ok a → (g a).Follows script R log) : (lift x >>= g).Follows script R log := by
  cases x with
  | error e => trivial
  | ok a => exact h a rfl

theorem follows_query_bind {f : D → α} {g : α → Prog D S E β}
    (h : ∀ d, Runs log d → (g (f (replay log d))).Follows script R log) :
    (query f >>= g).Follows script R log := h

theorem follows_execute_bind {s : S} {g : Unit → Prog D S E β}
    (hs : ∃ b, R b ∧ log ++ [s] <+: script b) (h : (g ()).Follows script R (log ++ [s])) :
    (execute s >>= g).Follows script R log :=
  ⟨hs, h, fun e => ⟨e, rfl⟩⟩

theorem follows_commit {b : β} (hR : R b) (hlog : log = script b) :
    (commitTx >>= fun _ => pure b).Follows script R log := ⟨b, hR, hlog, rfl⟩

end Prog

namespace Sys

variable [DecidableEq ι]

/-- The sessions of `order` have committed their scripts, in this order; what
the others have flushed can still be committed, and no two of them share a key. -/
structure Atomic (script : ι → α → List S) (R : ι → α → Prop) (keys : S → List K) (d₀ : D)
    (s : Sys ι D S E α) (order : List (ι × α)) : Prop where
  nodup : (order.map Prod.fst).Nodup
  returned : ∀ i a, (i, a) ∈ order ↔ (s.session i).prog = .ret a
  meets : ∀ x ∈ order, R x.1 x.2
  runs : Runs (order.flatMap fun x => script x.1 x.2) d₀
  db : s.db = replay (order.flatMap fun x => script x.1 x.2) d₀
  follows : ∀ i, (s.session i).prog.Done ∨
    (s.session i).prog.Follows (script i) (R i) (s.session i).log
  log : ∀ i, (s.session i).log = [] ∨ ∃ a, R i a ∧ (s.session i).log <+: script i a
  flushed : ∀ i, Runs (s.session i).log s.db
  apart : ∀ i j, i ≠ j → ∀ t ∈ (s.session i).log, ∀ u ∈ (s.session j).log,
    List.Disjoint (keys t) (keys u)

variable {script : ι → α → List S} {R : ι → α → Prop} {keys : S → List K} {d₀ : D}
  {s : Sys ι D S E α} {order : List (ι × α)}

omit [Statement S D E K] in
theorem apart_put {i : ι} {d : D} {x : Session D S E α}
    (hx : ∀ j, j ≠ i → ∀ t ∈ x.log, ∀ u ∈ (s.session j).log, List.Disjoint (keys t) (keys u))
    (h : ∀ j k, j ≠ k → ∀ t ∈ (s.session j).log, ∀ u ∈ (s.session k).log,
      List.Disjoint (keys t) (keys u)) :
    ∀ j k, j ≠ k → ∀ t ∈ ((s.put i d x).session j).log, ∀ u ∈ ((s.put i d x).session k).log,
      List.Disjoint (keys t) (keys u) := by
  intro j k hjk
  by_cases hji : j = i
  · subst hji
    rw [put_self, put_of_ne _ _ _ (Ne.symm hjk)]
    exact hx k (Ne.symm hjk)
  · rw [put_of_ne _ _ _ hji]
    by_cases hki : k = i
    · subst hki
      rw [put_self]
      exact fun t ht u hu => (hx j hji u hu t ht).symm
    · rw [put_of_ne _ _ _ hki]
      exact h j k hjk

theorem Atomic.step_local (h : Atomic script R keys d₀ s order) {i : ι} {q : Prog D S E α}
    {log : List S} {r : Bool} (hrun : ¬ (s.session i).prog.Done)
    (hq : q.Follows (script i) (R i) log)
    (hlog : log = [] ∨ ∃ a, R i a ∧ log <+: script i a) (hflushed : Runs log s.db)
    (hapart : ∀ j, j ≠ i → ∀ t ∈ log, ∀ u ∈ (s.session j).log, List.Disjoint (keys t) (keys u)) :
    Atomic script R keys d₀ (s.put i s.db (.settle q log r)) order := by
  have hother : ∀ j, j ≠ i → ∀ t ∈ (Session.settle q log r : Session D S E α).log,
      ∀ u ∈ (s.session j).log, List.Disjoint (keys t) (keys u) :=
    fun j hji => Session.settle_forall (hapart j hji)
  refine ⟨h.nodup, ?_, h.meets, h.runs, h.db, ?_, ?_, ?_, apart_put hother h.apart⟩
  · refine (forall_put s fun j v => ∀ a, (j, a) ∈ order ↔ v.prog = .ret a).mpr
      ⟨fun a => ?_, fun j _ => h.returned j⟩
    rw [Session.settle_prog, h.returned]
    constructor
    · exact fun he => absurd (Or.inl ⟨a, he⟩) hrun
    · rintro rfl
      exact absurd hq id
  · refine (forall_put s fun j v => v.prog.Done ∨ v.prog.Follows (script j) (R j) v.log).mpr
      ⟨?_, fun j _ => h.follows j⟩
    cases q with
    | ret a => exact absurd hq id
    | raise e => exact Or.inl (Or.inr ⟨e, rfl⟩)
    | select k | exec st k | commit k | close k => exact Or.inr hq
  · refine (forall_put s fun j v => v.log = [] ∨ ∃ a, R j a ∧ v.log <+: script j a).mpr
      ⟨?_, fun j _ => h.log j⟩
    obtain he | he := Session.settle_log q log r
    · exact Or.inl he
    · rw [he]
      exact hlog
  · refine (forall_put s fun _ v => Runs v.log s.db).mpr ⟨?_, fun j _ => h.flushed j⟩
    obtain he | he := Session.settle_log q log r <;> rw [he]
    · trivial
    · exact hflushed

theorem Atomic.step_commit
    (hexcl : ∀ i j a b, R i a → R j b → ∀ l, l <+: script i a →
      (∀ t ∈ l, ∀ u ∈ script j b, List.Disjoint (keys t) (keys u)) →
      ∀ d, Runs l d → Runs (script j b) d → Runs l (replay (script j b) d))
    (h : Atomic script R keys d₀ s order) {i : ι} {a : α}
    (hrun : ¬ (s.session i).prog.Done) (hR : R i a) (hlog : (s.session i).log = script i a) :
    Atomic script R keys d₀
      (s.put i (replay (s.session i).log s.db) (.settle (.ret a) [] false))
      (order ++ [(i, a)]) := by
  have hnew : ∀ b, (i, b) ∉ order := fun b hb =>
    hrun (Or.inl ⟨b, (h.returned i b).mp hb⟩)
  have hflat : (order ++ [(i, a)]).flatMap (fun x => script x.1 x.2) =
      order.flatMap (fun x => script x.1 x.2) ++ (s.session i).log := by
    simp [List.flatMap_append, hlog]
  have hflushed := h.flushed i
  refine ⟨?_, ?_, ?_, ?_, ?_, ?_, ?_, ?_, apart_put (by simp) h.apart⟩
  · rw [List.map_append, List.nodup_append]
    refine ⟨h.nodup, by simp, ?_⟩
    rintro j hj k hk rfl
    obtain ⟨⟨i', b⟩, hb, rfl⟩ := List.mem_map.mp hj
    simp only [List.map_cons, List.map_nil, List.mem_singleton] at hk
    exact hnew b (hk ▸ hb)
  · refine (forall_put s fun j v => ∀ b, (j, b) ∈ order ++ [(i, a)] ↔ v.prog = .ret b).mpr
      ⟨fun b => ?_, fun j hji b => ?_⟩
    · simp only [List.mem_append, List.mem_singleton, Prod.mk.injEq, true_and,
        Session.settle_prog, Prog.ret.injEq]
      exact ⟨fun hb => (hb.resolve_left (hnew b)).symm, fun hb => Or.inr hb.symm⟩
    · rw [← h.returned]
      simp [hji]
  · exact List.forall_mem_append.mpr ⟨h.meets, List.forall_mem_singleton.mpr hR⟩
  · rw [hflat, runs_append, ← h.db]
    exact ⟨h.runs, hflushed⟩
  · rw [hflat, replay_append, ← h.db]
    rfl
  · exact (forall_put s fun j v => v.prog.Done ∨ v.prog.Follows (script j) (R j) v.log).mpr
      ⟨Or.inl (Or.inl ⟨a, rfl⟩), fun j _ => h.follows j⟩
  · exact (forall_put s fun j v => v.log = [] ∨ ∃ b, R j b ∧ v.log <+: script j b).mpr
      ⟨Or.inl rfl, fun j _ => h.log j⟩
  · refine (forall_put s fun _ v => Runs v.log (replay (s.session i).log s.db)).mpr
      ⟨trivial, fun j hji => ?_⟩
    obtain he | ⟨b, hb, hpre⟩ := h.log j
    · rw [he]
      trivial
    · have happ := h.apart j i hji
      rw [hlog] at happ hflushed ⊢
      exact hexcl j i b a hb hR _ hpre happ s.db (h.flushed j) hflushed

theorem Atomic.step
    (hkeys : ∀ i a, R i a → ∀ t ∈ script i a, ∀ d, Statement.locks t d = keys t)
    (hexcl : ∀ i j a b, R i a → R j b → ∀ l, l <+: script i a →
      (∀ t ∈ l, ∀ u ∈ script j b, List.Disjoint (keys t) (keys u)) →
      ∀ d, Runs l d → Runs (script j b) d → Runs l (replay (script j b) d))
    (h : Atomic script R keys d₀ s order) {i : ι} {a : Action E} {s' : Sys ι D S E α}
    (hs : s.Step i a s') : ∃ order', Atomic script R keys d₀ s' order' := by
  have hsub : ∀ j, ∀ u ∈ (s.session j).log, ∀ d, Statement.locks u d = keys u := by
    intro j u hu d
    obtain he | ⟨b, hb, hpre⟩ := h.log j
    · simp [he] at hu
    · exact hkeys j b hb u (hpre.subset hu) d
  have hfollows := h.follows i
  cases hs with
  | fail e hp =>
    exact ⟨order, h.step_local hp trivial (Or.inl rfl) trivial (by simp)⟩
  | select hp =>
    have hrun : ¬ (s.session i).prog.Done := by simp [Prog.Done, hp]
    rw [hp] at hfollows
    exact ⟨order, h.step_local hrun ((hfollows.resolve_left (hp ▸ hrun)) s.db (h.flushed i))
      (h.log i) (h.flushed i) fun j hj => h.apart i j (Ne.symm hj)⟩
  | @flush st k d' hp hfree hd =>
    have hrun : ¬ (s.session i).prog.Done := by simp [Prog.Done, hp]
    rw [hp] at hfollows
    obtain ⟨⟨b, hb, hpre⟩, hk, -⟩ := hfollows.resolve_left (hp ▸ hrun)
    refine ⟨order, h.step_local hrun hk (Or.inr ⟨b, hb, hpre⟩)
      (runs_append.mpr ⟨h.flushed i, d', hd, trivial⟩) ?_⟩
    intro j hj t ht u hu
    obtain ht | ht := List.mem_append.mp ht
    · exact h.apart i j (Ne.symm hj) t ht u hu
    · -- the statement was not blocked, so it shares no key with what the others flushed
      obtain rfl := List.mem_singleton.mp ht
      intro key hkt hku
      refine hfree ⟨j, hj, u, hu, key, ?_, ?_⟩
      · rw [hkeys i b hb t (hpre.subset (by simp))]
        exact hkt
      · rw [hsub j u hu]
        exact hku
  | refuse hp hfree hd =>
    have hrun : ¬ (s.session i).prog.Done := by simp [Prog.Done, hp]
    rw [hp] at hfollows
    obtain ⟨-, -, hrefused⟩ := hfollows.resolve_left (hp ▸ hrun)
    obtain ⟨e', he'⟩ := hrefused _
    exact ⟨order, h.step_local hrun (he' ▸ trivial) (Or.inl rfl) trivial (by simp)⟩
  | commit hp =>
    have hrun : ¬ (s.session i).prog.Done := by simp [Prog.Done, hp]
    rw [hp] at hfollows
    obtain ⟨b, hb, hlog, rfl⟩ := hfollows.resolve_left (hp ▸ hrun)
    exact ⟨order ++ [(i, b)], h.step_commit hexcl hrun hb hlog⟩
  | close hp =>
    have hrun : ¬ (s.session i).prog.Done := by simp [Prog.Done, hp]
    rw [hp] at hfollows
    exact absurd (hfollows.resolve_left (hp ▸ hrun)) id

omit [DecidableEq ι] in
theorem atomic_start {p : ι → Prog D S E α} (hp : ∀ i, (p i).Follows (script i) (R i) []) :
    Atomic script R keys d₀ (start d₀ p) [] := by
  have hlog : ∀ i, ((start d₀ p).session i).log = [] := fun i => Session.settle_nil (p i) false
  refine ⟨List.nodup_nil, fun i a => ?_, by simp, trivial, rfl, fun i => Or.inr ?_,
    fun i => Or.inl (hlog i), fun i => ?_, fun i j _ t ht => ?_⟩
  · simp only [List.not_mem_nil, start, Session.settle_prog, false_iff]
    intro he
    have hi := hp i
    rw [he] at hi
    exact hi
  · rw [hlog i]
    simpa [start] using hp i
  · rw [hlog i]
    trivial
  · simp [hlog i] at ht

variable [Fintype ι]

omit [DecidableEq ι] in
theorem Atomic.returned_eq (h : Atomic script R keys d₀ s order) : s.returned = ↑order := by
  refine (s.nodup_returned.ext (Multiset.coe_nodup.mpr (List.Nodup.of_map _ h.nodup))).mpr
    fun x => ?_
  rw [mem_returned, Multiset.mem_coe]
  exact (h.returned x.1 x.2).symm

variable [DecidableEq K]

/-- Coroutines that follow scripts are atomic: whatever the interleaving and the
failures, the committed rows are those of the scripts of the coroutines that have
returned, one after another and none of their statements refused. -/
theorem atomic_of_follows (script : ι → α → List S) (R : ι → α → Prop) (keys : S → List K)
    {p : ι → Prog D S E α}
    (hkeys : ∀ i a, R i a → ∀ t ∈ script i a, ∀ d, Statement.locks t d = keys t)
    (hexcl : ∀ i j a b, R i a → R j b → ∀ l, l <+: script i a →
      (∀ t ∈ l, ∀ u ∈ script j b, List.Disjoint (keys t) (keys u)) →
      ∀ d, Runs l d → Runs (script j b) d → Runs l (replay (script j b) d))
    (hp : ∀ i, (p i).Follows (script i) (R i) [])
    {C : Sys ι D S E α → ι → Action E → Prop} (hr : Reach C (start d₀ p) s) :
    ∃ order, Atomic script R keys d₀ s order := by
  refine hr.invariant (P := fun s => ∃ order, Atomic script R keys d₀ s order)
    ⟨[], atomic_start hp⟩ ?_
  rintro s i a s' ⟨order, h⟩ - hs
  exact h.step hkeys hexcl hs

end Sys

end ClickNBack.ReadCommitted
