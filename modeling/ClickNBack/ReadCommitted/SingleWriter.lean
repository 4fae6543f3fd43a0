import ClickNBack.ReadCommitted.Atomic

namespace ClickNBack.ReadCommitted

variable {ι D S E K α β : Type}

namespace Prog

/-- The coroutine flushes nothing but right after it has read that `U` does not
hold; until then it only reads. -/
def ChecksFirst (U : D → Prop) : Prog D S E α → Prop
  | .ret _ => False
  | .raise _ => True
  | .select k => ∀ d, (k d).ChecksFirst U ∨ ¬ U d ∧ ∃ s k', k d = .exec s k'
  | .exec _ _ => False
  | .commit _ => False
  | .close _ => False

section

variable {U : D → Prop}

theorem checksFirst_query_bind {f : D → α} {g : α → Prog D S E β}
    (h : ∀ a, (g a).ChecksFirst U) : (query f >>= g).ChecksFirst U := fun d => Or.inl (h (f d))

theorem checksFirst_lift_bind {x : Except E α} {g : α → Prog D S E β}
    (h : ∀ a, x = .ok a → (g a).ChecksFirst U) : (lift x >>= g).ChecksFirst U := by
  cases x with
  | error e => trivial
  | ok a => exact h a rfl

theorem checksFirst_check {c : D → Except E Unit} {s : S} {g : Unit → Prog D S E β}
    (h : ∀ d, U d → ∃ e, c d = .error e) :
    (query c >>= fun x => lift x >>= fun _ => execute s >>= g).ChecksFirst U := by
  intro d
  change (lift (c d) >>= fun _ => execute s >>= g).ChecksFirst U ∨ ¬ U d ∧
    ∃ s' k', (lift (c d) >>= fun _ => execute s >>= g) = .exec s' k'
  cases hc : c d with
  | error e => exact Or.inl trivial
  | ok a =>
    refine Or.inr ⟨fun hd => ?_, s, _, rfl⟩
    obtain ⟨e, he⟩ := h d hd
    cases hc.symm.trans he

end

end Prog

/-- The session is about to flush a statement, or has flushed one and not ended. -/
def Session.Writing (x : Session D S E α) : Prop :=
  ¬ x.prog.Done ∧ (x.log ≠ [] ∨ ∃ s k, x.prog = .exec s k)

instance (p : Prog D S E α) : Decidable (∃ s k, p = .exec s k) :=
  match p with
  | .exec s k => .isTrue ⟨s, k, rfl⟩
  | .ret _ | .raise _ | .select _ | .commit _ | .close _ => .isFalse (by simp)

instance (x : Session D S E α) : Decidable x.Writing :=
  inferInstanceAs (Decidable (¬ x.prog.Done ∧ (x.log ≠ [] ∨ ∃ s k, x.prog = .exec s k)))

/-- The session has raised, or its check is still to come. -/
def Session.Waiting (U : D → Prop) (x : Session D S E α) : Prop :=
  x.log = [] ∧ x.prog.ChecksFirst U

theorem Session.Waiting.not_writing {U : D → Prop} {x : Session D S E α} (h : x.Waiting U) :
    ¬ x.Writing := by
  rintro ⟨-, hlog | ⟨s, k, hk⟩⟩
  · exact hlog h.1
  · have hcheck := h.2
    rw [hk] at hcheck
    exact hcheck

theorem Session.waiting_settle {U : D → Prop} {p : Prog D S E α} (h : p.ChecksFirst U) (r : Bool) :
    (Session.settle p [] r).Waiting U :=
  ⟨Session.settle_nil p r, by rwa [Session.settle_prog]⟩

namespace Sys

def CommitsAlone (s : Sys ι D S E α) (i : ι) (a : Action E) : Prop :=
  a = .advance → (∃ k, (s.session i).prog = .commit k) → ∀ j, j ≠ i → ¬ (s.session j).Writing

def unshared [Fintype ι] [DecidableEq ι] (s : Sys ι D S E α) (i : ι) : Bool :=
  match (s.session i).prog with
  | .commit _ => decide (∀ j, j ≠ i → ¬ (s.session j).Writing)
  | _ => true

theorem commitsAlone_of_unshared [Fintype ι] [DecidableEq ι] {s : Sys ι D S E α} {i : ι}
    (h : s.unshared i = true) : CommitsAlone s i .advance := by
  rintro - ⟨k, hk⟩
  simpa [unshared, hk] using h

/-- Either nobody has returned, or one session has, after which `U` holds and all
the others are waiting. -/
inductive OneWriter (U : D → Prop) (s : Sys ι D S E α) : Prop
  | contended (rest : ∀ i, (s.session i).Waiting U ∨ (s.session i).Writing)
  | settled (i : ι) (a : α) (result : (s.session i).prog = .ret a) (used : U s.db)
      (rest : ∀ j, j ≠ i → (s.session j).Waiting U)

variable {U : D → Prop} {s s' : Sys ι D S E α}

theorem OneWriter.running (h : OneWriter U s) {i : ι} (hi : ¬ (s.session i).prog.Done) :
    (s.session i).Waiting U ∨ (s.session i).Writing ∧
      ∀ j, (s.session j).Waiting U ∨ (s.session j).Writing := by
  cases h with
  | contended hrest => exact (hrest i).imp_right fun hw => ⟨hw, hrest⟩
  | settled i₀ a hresult hused hrest =>
    refine Or.inl (hrest i ?_)
    rintro rfl
    exact hi (Or.inl ⟨a, hresult⟩)

variable [DecidableEq ι]

/-- A session acts and leaves the committed rows alone: it waits afterwards, or it
writes and did so before, or has just seen that `U` does not hold. -/
theorem OneWriter.step_local (h : OneWriter U s) {i : ι} (hi : ¬ (s.session i).prog.Done)
    {x : Session D S E α}
    (hx : x.Waiting U ∨ x.Writing ∧ (U s.db → (s.session i).Writing)) :
    OneWriter U (s.put i s.db x) := by
  cases h with
  | contended hrest =>
    exact .contended ((forall_put s fun _ y => y.Waiting U ∨ y.Writing).mpr
      ⟨hx.imp_right And.left, fun j _ => hrest j⟩)
  | settled i₀ a hresult hused hrest =>
    have hne : i ≠ i₀ := by
      rintro rfl
      exact hi (Or.inl ⟨a, hresult⟩)
    refine .settled i₀ a (by rwa [put_of_ne _ _ _ (Ne.symm hne)]) hused ?_
    refine (forall_put s fun j y => j ≠ i₀ → y.Waiting U).mpr ⟨fun _ => ?_, fun j _ => hrest j⟩
    exact hx.resolve_right fun hw => (hrest i hne).not_writing (hw.2 hused)

variable [Statement S D E K] {script : ι → α → List S} {R : ι → α → Prop} {keys : S → List K}
  {d₀ : D} {order : List (ι × α)}

omit [DecidableEq ι] in
theorem waiting_or_writing_of_follows {i : ι} {q : Prog D S E α} {log : List S} (r : Bool)
    (hq : q.Follows (script i) (R i) log) (hlog : log ≠ []) :
    (Session.settle q log r).Waiting U ∨ (Session.settle q log r).Writing := by
  by_cases hdone : q.Done
  · obtain ⟨a, rfl⟩ | ⟨e, rfl⟩ := hdone
    · exact absurd hq id
    · exact Or.inl ⟨rfl, trivial⟩
  · rw [Session.settle_of_not_done hdone]
    exact Or.inr ⟨hdone, Or.inl hlog⟩

theorem OneWriter.step (hatomic : Atomic script R keys d₀ s order)
    (huses : ∀ i a, R i a → ∀ d, Runs (script i a) d → U (replay (script i a) d))
    (h : OneWriter U s) {i : ι} {a : Action E} (hc : CommitsAlone s i a)
    (hs : s.Step i a s') : OneWriter U s' := by
  have hi := hs.not_done
  have hrunning := h.running hi
  have hfollows := (hatomic.follows i).resolve_left hi
  cases hs with
  | fail e hp => exact h.step_local hi (Or.inl ⟨rfl, trivial⟩)
  | select hp =>
    rw [hp] at hfollows
    obtain ⟨hlog, hcheck⟩ | ⟨hw, -⟩ := hrunning
    · rw [hp] at hcheck
      rw [hlog, replay_nil]
      obtain hcheck | ⟨hnot, st, k', hk'⟩ := hcheck s.db
      · exact h.step_local hi (Or.inl (Session.waiting_settle hcheck true))
      · rw [hk']
        exact h.step_local hi (Or.inr ⟨⟨by simp [Prog.Done], Or.inr ⟨st, k', by simp⟩⟩,
          fun hu => absurd hu hnot⟩)
    · have hlog : (s.session i).log ≠ [] := hw.2.resolve_right (by simp [hp])
      apply h.step_local hi
      exact (waiting_or_writing_of_follows true (hfollows s.db (hatomic.flushed i)) hlog).imp_right
        fun hw' => ⟨hw', fun _ => hw⟩
  | @flush st k d' hp hfree hd =>
    rw [hp] at hfollows
    obtain ⟨-, hcheck⟩ | ⟨hw, -⟩ := hrunning
    · rw [hp] at hcheck
      exact absurd hcheck id
    · apply h.step_local hi
      exact (waiting_or_writing_of_follows (s.session i).reading hfollows.2.1
        (by simp)).imp_right fun hw' => ⟨hw', fun _ => hw⟩
  | @refuse st k e hp hfree hd =>
    rw [hp] at hfollows
    obtain ⟨e', he'⟩ := hfollows.2.2 e
    rw [he']
    exact h.step_local hi (Or.inl ⟨rfl, trivial⟩)
  | commit hp =>
    rw [hp] at hfollows
    obtain ⟨b, hb, hlog, rfl⟩ := hfollows
    obtain ⟨-, hcheck⟩ | ⟨-, hrest⟩ := hrunning
    · rw [hp] at hcheck
      exact absurd hcheck id
    · have hflushed := hatomic.flushed i
      rw [hlog] at hflushed ⊢
      refine .settled i b (by simp) (huses i b hb s.db hflushed) fun j hji => ?_
      rw [put_of_ne _ _ _ hji]
      exact (hrest j).resolve_right (hc rfl ⟨_, hp⟩ j hji)
  | close hp =>
    rw [hp] at hfollows
    exact absurd hfollows id

variable [Fintype ι] [DecidableEq K]

/-- Coroutines that follow scripts, and write only right after they have read that
`U` does not hold, return once at most when nobody commits while another session is
writing. -/
theorem returned_le_one (hkeys : ∀ i a, R i a → ∀ t ∈ script i a, ∀ d, Statement.locks t d = keys t)
    (hexcl : ∀ i j a b, R i a → R j b → ∀ l, l <+: script i a →
      (∀ t ∈ l, ∀ u ∈ script j b, List.Disjoint (keys t) (keys u)) →
      ∀ d, Runs l d → Runs (script j b) d → Runs l (replay (script j b) d))
    {p : ι → Prog D S E α} (hp : ∀ i, (p i).Follows (script i) (R i) [])
    (hchecks : ∀ i, (p i).ChecksFirst U)
    (huses : ∀ i a, R i a → ∀ d, Runs (script i a) d → U (replay (script i a) d))
    (hr : Reach CommitsAlone (start d₀ p) s) : s.returned.card ≤ 1 := by
  have hwriter : (∃ order, Atomic script R keys d₀ s order) ∧ OneWriter U s := by
    refine hr.invariant (P := fun s => (∃ order, Atomic script R keys d₀ s order) ∧ OneWriter U s)
      ⟨⟨[], atomic_start hp⟩, .contended fun i => Or.inl ?_⟩ ?_
    · exact Session.waiting_settle (hchecks i) false
    · rintro s i a s' ⟨⟨order, hatomic⟩, h⟩ hc hs
      exact ⟨hatomic.step hkeys hexcl hs, h.step hatomic huses hc hs⟩
  obtain ⟨-, hrest | ⟨i, a, hresult, -, hrest⟩⟩ := hwriter
  · have hnone : s.returned = 0 := Multiset.eq_zero_of_forall_notMem fun x hx => by
      have hret := mem_returned.mp hx
      obtain ⟨-, hcheck⟩ | hw := hrest x.1
      · rw [hret] at hcheck
        exact hcheck
      · exact hw.1 (Or.inl ⟨x.2, hret⟩)
    simp [hnone]
  · have hone : s.returned ≤ {(i, a)} := by
      refine (Multiset.le_iff_subset s.nodup_returned).mpr fun x hx => ?_
      have hret := mem_returned.mp hx
      by_cases hxi : x.1 = i
      · rw [hxi, hresult] at hret
        exact Multiset.mem_singleton.mpr (Prod.ext hxi (Prog.ret.inj hret).symm)
      · have hcheck := (hrest x.1 hxi).2
        rw [hret] at hcheck
        exact absurd hcheck id
    exact Multiset.card_le_card hone

omit [DecidableEq ι] [Statement S D E K] [DecidableEq K] in
theorem eq_of_returned_le_one (hone : s.returned.card ≤ 1) {x y : ι × α} (hx : x ∈ s.returned)
    (hy : y ∈ s.returned) : x = y := by
  obtain ⟨rest, hrest⟩ := Multiset.exists_cons_of_mem hy
  rw [hrest, Multiset.card_cons] at hone
  have hnone : rest.card = 0 := by omega
  rw [hrest, Multiset.card_eq_zero.mp hnone] at hx
  exact Multiset.mem_singleton.mp hx

end Sys

end ClickNBack.ReadCommitted
