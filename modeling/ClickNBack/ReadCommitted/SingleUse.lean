import ClickNBack.ReadCommitted.Serializable

namespace ClickNBack.ReadCommitted

variable {ι D S E K α β : Type} [Statement S D E K]

namespace Prog

/-- The coroutine returns at its one commit, or raises. -/
def Final : Prog D S E α → Prop
  | .ret _ => False
  | .raise _ => True
  | .select k => ∀ d, (k d).Final
  | .exec _ k => ∀ r, (k r).Final
  | .commit k => ∃ a, k = .ret a
  | .close _ => False

/-- Whenever the coroutine returns from a run alone, its result and the committed
rows meet the postcondition. -/
def Returns (P : α → D → Prop) (p : Prog D S E α) (d : D) (log : List S) : Prop :=
  ∀ a d', p.run d log = (.ok a, d') → P a d'

section

variable {P : β → D → Prop} {d : D} {log : List S}

omit [Statement S D E K] in
theorem final_query_bind {f : D → α} {g : α → Prog D S E β} (h : ∀ a, (g a).Final) :
    (query f >>= g).Final := fun d => h (f d)

omit [Statement S D E K] in
theorem final_lift_bind {x : Except E α} {g : α → Prog D S E β} (h : ∀ a, (g a).Final) :
    (lift x >>= g).Final := by
  cases x with
  | error e => trivial
  | ok a => exact h a

omit [Statement S D E K] in
theorem final_execute_bind {s : S} {g : Unit → Prog D S E β} (h : (g ()).Final) :
    (execute s >>= g).Final := by
  intro r
  cases r with
  | error e => trivial
  | ok a => exact h

omit [Statement S D E K] in
theorem final_commit (b : β) : (commitTx >>= fun _ => pure b : Prog D S E β).Final := ⟨b, rfl⟩

omit [Statement S D E K] in
theorem Final.tryCatch {p : Prog D S E α} (hp : p.Final) {h : E → Prog D S E α}
    (hh : ∀ e, ∃ e', h e = .raise e') : (p.tryCatch h).Final := by
  induction p with
  | ret a => exact hp
  | raise e =>
    obtain ⟨e', he⟩ := hh e
    simp only [Prog.tryCatch, he]
    trivial
  | select k ih => exact fun d => ih d (hp d)
  | exec s k ih => exact fun r => ih r (hp r)
  | commit k ih =>
    obtain ⟨a, rfl⟩ := hp
    exact ⟨a, rfl⟩
  | close k ih => exact hp

theorem returns_query_bind {f : D → α} {g : α → Prog D S E β}
    (h : (g (f (replay log d))).Returns P d log) : (query f >>= g).Returns P d log := h

theorem returns_lift_bind {x : Except E α} {g : α → Prog D S E β}
    (h : ∀ a, x = .ok a → (g a).Returns P d log) : (lift x >>= g).Returns P d log := by
  cases x with
  | error e =>
    intro a d' he
    cases he
  | ok a => exact h a rfl

theorem returns_execute_bind {s : S} {g : Unit → Prog D S E β}
    (h : ∀ d', Statement.exec s (replay log d) = .ok d' → (g ()).Returns P d (log ++ [s])) :
    (execute s >>= g).Returns P d log := by
  intro a d'' hrun
  change (Prog.bind (execute s) g).run d log = _ at hrun
  simp only [execute, Prog.bind, Prog.run] at hrun
  cases hs : Statement.exec s (replay log d) with
  | error e =>
    rw [hs] at hrun
    cases hrun
  | ok d' =>
    rw [hs] at hrun
    exact h d' hs a d'' hrun

theorem returns_commit {b : β} (h : P b (replay log d)) :
    (commitTx >>= fun _ => pure b : Prog D S E β).Returns P d log := by
  rintro a d' he
  cases he
  exact h

theorem Returns.tryCatch {p : Prog D S E β} (hp : p.Returns P d log) {h : E → Prog D S E β}
    (hh : ∀ e, ∃ e', h e = .raise e') : (p.tryCatch h).Returns P d log := by
  induction p generalizing d log with
  | ret a => exact hp
  | raise e =>
    obtain ⟨e', he⟩ := hh e
    intro a d' hrun
    simp only [Prog.tryCatch, he] at hrun
    cases hrun
  | select k ih => exact ih _ hp
  | exec s k ih =>
    intro a d' hrun
    simp only [Prog.tryCatch, Prog.run] at hrun
    have hp' : ∀ a d', (Prog.exec s k).run d log = (.ok a, d') → P a d' := hp
    simp only [Prog.run] at hp'
    cases hs : Statement.exec s (replay log d) with
    | ok d₁ =>
      rw [hs] at hrun hp'
      exact ih _ hp' a d' hrun
    | error e =>
      rw [hs] at hrun hp'
      exact ih _ hp' a d' hrun
  | commit k ih => exact ih hp
  | close k ih => exact ih hp

end

end Prog

namespace Sys

variable [DecidableEq ι]

/-- Either nobody has returned yet and every session is where a run alone would
be, or exactly one has, and the others are yet to read or have raised. -/
inductive UsedOnce (p : ι → Prog D S E α) (d₀ : D) (s : Sys ι D S E α) : Prop
  | fresh (db : s.db = d₀) (rest : ∀ i, (∃ e, (s.session i).prog = .raise e) ∨
      ((s.session i).prog = p i ∧ (s.session i).log = []) ∨
      (s.session i).reading = true ∧ (s.session i).prog.Final ∧
        (s.session i).prog.run d₀ (s.session i).log = (p i).run d₀ [])
  | spent (i : ι) (a : α) (run : (p i).run d₀ [] = (.ok a, s.db))
      (result : (s.session i).prog = .ret a)
      (rest : ∀ j, j ≠ i → (∃ e, (s.session j).prog = .raise e) ∨
        ((s.session j).prog = p j ∧ (s.session j).log = []))

variable {p : ι → Prog D S E α} {d₀ : D} {s s' : Sys ι D S E α} {U : D → Prop}

theorem UsedOnce.step_fresh (hdb : s.db = d₀)
    (hrest : ∀ i, (∃ e, (s.session i).prog = .raise e) ∨
      ((s.session i).prog = p i ∧ (s.session i).log = []) ∨
      (s.session i).reading = true ∧ (s.session i).prog.Final ∧
        (s.session i).prog.run d₀ (s.session i).log = (p i).run d₀ [])
    (i : ι) {q : Prog D S E α} {log : List S} (hq : q.Final)
    (hrun : (∃ e, q = .raise e) ∨ q.run d₀ log = (p i).run d₀ []) :
    UsedOnce p d₀ (s.put i s.db (.settle q log true)) := by
  refine .fresh hdb ((forall_put s fun j v => (∃ e, v.prog = .raise e) ∨
    (v.prog = p j ∧ v.log = []) ∨
    v.reading = true ∧ v.prog.Final ∧ v.prog.run d₀ v.log = (p j).run d₀ []).mpr
    ⟨?_, fun j _ => hrest j⟩)
  cases q with
  | ret a => exact hq.elim
  | raise e => exact Or.inl ⟨e, rfl⟩
  | select k | exec st k | commit k | close k =>
    refine Or.inr (Or.inr ⟨rfl, hq, ?_⟩)
    exact hrun.resolve_left (by simp)

theorem UsedOnce.step_commit (hdb : s.db = d₀)
    (hrest : ∀ i, (∃ e, (s.session i).prog = .raise e) ∨
      ((s.session i).prog = p i ∧ (s.session i).log = []) ∨
      (s.session i).reading = true ∧ (s.session i).prog.Final ∧
        (s.session i).prog.run d₀ (s.session i).log = (p i).run d₀ [])
    {i : ι} {a : α} (halone : (p i).run d₀ [] = (.ok a, replay (s.session i).log d₀))
    (hothers : ∀ j, j ≠ i → (s.session j).reading = false) :
    UsedOnce p d₀ (s.put i (replay (s.session i).log s.db) (.settle (.ret a) [] false)) := by
  refine .spent i a (by rw [halone, put_db, hdb]) (by simp) fun j hji => ?_
  rw [put_of_ne _ _ _ hji]
  obtain hj | hj | ⟨hj, -⟩ := hrest j
  · exact Or.inl hj
  · exact Or.inr hj
  · rw [hothers j hji] at hj
    cases hj

section

variable (hfirst : ∀ i, (∃ e, p i = .raise e) ∨
    ∃ k, p i = .select k ∧ ∀ d, U d → ∃ e, k d = .raise e)

include hfirst

theorem select_of_new {i : ι} {a : Action E} (ha : a = .advance) (hs : s.Step i a s')
    (hp : (s.session i).prog = p i) (hlog : (s.session i).log = []) :
    ∃ k, p i = .select k ∧ (∀ d, U d → ∃ e, k d = .raise e) ∧
      s' = s.put i s.db (.settle (k s.db) [] true) := by
  subst ha
  obtain ⟨e, he⟩ | ⟨k, hk, hraise⟩ := hfirst i
  · exact absurd (Or.inr ⟨e, hp.trans he⟩) hs.not_done
  · have hs' := hs.of_select (hp.trans hk)
    rw [hlog] at hs'
    exact ⟨k, hk, hraise, hs'⟩

theorem UsedOnce.step_spent {i₀ i : ι} {a : α} {x : Action E} (hused : U s.db)
    (hrun : (p i₀).run d₀ [] = (.ok a, s.db)) (hresult : (s.session i₀).prog = .ret a)
    (hrest : ∀ j, j ≠ i₀ → (∃ e, (s.session j).prog = .raise e) ∨
      ((s.session j).prog = p j ∧ (s.session j).log = []))
    (hx : x = .advance) (hs : s.Step i x s') : UsedOnce p d₀ s' := by
  have hi : i ≠ i₀ := by
    rintro rfl
    exact hs.not_done (Or.inl ⟨a, hresult⟩)
  obtain he | ⟨hp, hlog⟩ := hrest i hi
  · exact absurd (Or.inr he) hs.not_done
  · obtain ⟨k, hk, hraise, rfl⟩ := select_of_new hfirst hx hs hp hlog
    obtain ⟨e, he⟩ := hraise _ hused
    refine .spent i₀ a hrun ?_ fun j hj => ?_
    · rw [put_of_ne _ _ _ (Ne.symm hi)]
      exact hresult
    · by_cases hji : j = i
      · subst hji
        exact Or.inl ⟨e, by simp [he]⟩
      · rw [put_of_ne _ _ _ hji]
        exact hrest j hj

end

variable (hfinal : ∀ i, (p i).Final)
  (hfirst : ∀ i, (∃ e, p i = .raise e) ∨ ∃ k, p i = .select k ∧ ∀ d, U d → ∃ e, k d = .raise e)
  (huses : ∀ i, (p i).Returns (fun _ d => U d) d₀ []) (hunused : ¬ U d₀)

include hfinal hfirst huses hunused

theorem UsedOnce.step (h : UsedOnce p d₀ s) {i : ι} {a : Action E}
    (hc : NotOvertaken id s i a) (hs : s.Step i a s') : UsedOnce p d₀ s' := by
  cases h with
  | fresh hdb hrest =>
    obtain he | ⟨hp, hlog⟩ | ⟨hreading, hf, hrun⟩ := hrest i
    · exact absurd (Or.inr he) hs.not_done
    · obtain ⟨k, hk, -, rfl⟩ := select_of_new hfirst hc.1 hs hp hlog
      refine UsedOnce.step_fresh hdb hrest i ?_ (Or.inr ?_)
      · exact (hk ▸ hfinal i : (Prog.select k).Final) _
      · rw [hk, hdb]
        rfl
    · obtain rfl := hc.1
      cases hs with
      | select hq =>
        rw [hq] at hf hrun
        exact UsedOnce.step_fresh hdb hrest i (hf _) (Or.inr (hdb ▸ hrun))
      | flush hq hfree hd =>
        rw [hq] at hf hrun
        rw [hdb] at hd
        simp only [Prog.run, hd] at hrun
        rw [hreading]
        exact UsedOnce.step_fresh hdb hrest i (hf _) (Or.inr hrun)
      | refuse hq hfree hd =>
        rw [hq] at hf hrun
        rw [hdb] at hd
        simp only [Prog.run, hd] at hrun
        rw [hreading]
        exact UsedOnce.step_fresh hdb hrest i (hf _) (Or.inr hrun)
      | @commit k hq =>
        rw [hq] at hf hrun
        obtain ⟨a, rfl⟩ := hf
        have halone : (p i).run d₀ [] = (.ok a, replay (s.session i).log d₀) := hrun.symm
        have hused : U (replay (s.session i).log d₀) := huses i _ _ halone
        have hchange : replay (s.session i).log s.db ≠ s.db := by
          rw [hdb]
          intro he
          rw [he] at hused
          exact hunused hused
        exact UsedOnce.step_commit hdb hrest halone (hc.2 _ hq hchange)
      | close hq =>
        rw [hq] at hf
        exact hf.elim
  | spent i₀ a hrun hresult hrest =>
    exact UsedOnce.step_spent hfirst (huses i₀ a _ hrun) hrun hresult hrest hc.1 hs

variable [Fintype ι] [DecidableEq K]

/-- Coroutines that use something up, and raise when they read that it is used,
take effect once at most when no session is overtaken: exactly one has returned,
with the result and the rows of its run alone, or nothing has happened. -/
theorem single_use (hr : Reach (NotOvertaken id) (start d₀ p) s) :
    (s.db = d₀ ∧ s.returned = 0) ∨
      ∃ i a, (p i).run d₀ [] = (.ok a, s.db) ∧ s.returned = {(i, a)} := by
  have h : UsedOnce p d₀ s := by
    refine hr.invariant (P := UsedOnce p d₀) (.fresh rfl fun i => ?_)
      fun s i a s' h hc hs => h.step hfinal hfirst huses hunused hc hs
    obtain ⟨e, he⟩ | ⟨k, hk, -⟩ := hfirst i
    · exact Or.inl ⟨e, by simp [start, he]⟩
    · exact Or.inr (Or.inl (by simp [start, hk, Session.settle]))
  cases h with
  | fresh hdb hrest =>
    refine Or.inl ⟨hdb, Multiset.eq_zero_of_forall_notMem fun x hx => ?_⟩
    have hret := mem_returned.mp hx
    obtain ⟨e, he⟩ | ⟨hp, -⟩ | ⟨-, hf, -⟩ := hrest x.1
    · simp [he] at hret
    · have hf := hfinal x.1
      rw [← hp, hret] at hf
      exact hf
    · rw [hret] at hf
      exact hf
  | spent i a hrun hresult hrest =>
    refine Or.inr ⟨i, a, hrun, ?_⟩
    refine (s.nodup_returned.ext (Multiset.nodup_singleton _)).mpr fun x => ?_
    rw [mem_returned, Multiset.mem_singleton]
    constructor
    · intro hret
      by_cases hxi : x.1 = i
      · rw [hxi, hresult] at hret
        exact Prod.ext hxi (Prog.ret.inj hret).symm
      · obtain ⟨e, he⟩ | ⟨hp, -⟩ := hrest x.1 hxi
        · simp [he] at hret
        · have hf := hfinal x.1
          rw [← hp, hret] at hf
          exact hf.elim
    · rintro rfl
      exact hresult

end Sys

end ClickNBack.ReadCommitted
