import ClickNBack.ReadCommitted.System

namespace ClickNBack.ReadCommitted

variable {ι D S E K α O : Type} [Statement S D E K]

/-- The statement's fate and visible effect depend on the visible rows only. -/
def Uniform (obs : D → O) (s : S) : Prop :=
  ∀ d d', obs d = obs d' →
    (Statement.exec s d).map obs = (Statement.exec s d').map obs

def Quiet (obs : D → O) (s : S) : Prop := ∀ d, obs (apply s d) = obs d

theorem Uniform.apply {obs : D → O} {s : S} (hs : Uniform obs s) {d d' : D}
    (h : obs d = obs d') : obs (apply s d) = obs (apply s d') := by
  have he := hs d d' h
  unfold ReadCommitted.apply
  cases h₁ : Statement.exec s d with
  | ok e₁ =>
    cases h₂ : Statement.exec s d' with
    | ok e₂ => simpa [h₁, h₂, Except.map] using he
    | error e₂ => simp [h₁, h₂, Except.map] at he
  | error e₁ =>
    cases h₂ : Statement.exec s d' with
    | ok e₂ => simp [h₁, h₂, Except.map] at he
    | error e₂ => exact h

theorem Uniform.replay {obs : D → O} {log : List S} (hlog : ∀ s ∈ log, Uniform obs s) {d d' : D}
    (h : obs d = obs d') : obs (replay log d) = obs (replay log d') := by
  induction log generalizing d d' with
  | nil => exact h
  | cons s log ih =>
    exact ih (fun t ht => hlog t (List.mem_cons_of_mem s ht))
      ((hlog s List.mem_cons_self).apply h)

namespace Prog

/-- Everything the coroutine reads and flushes goes through the visible rows. -/
def Sees (obs : D → O) : Prog D S E α → Prop
  | .ret _ => True
  | .raise _ => True
  | .select k => (∀ d d', obs d = obs d' → k d = k d') ∧ ∀ d, (k d).Sees obs
  | .exec s k => Uniform obs s ∧ ∀ r, (k r).Sees obs
  | .commit k => k.Sees obs
  | .close k => k.Sees obs

def Silent (obs : D → O) : Prog D S E α → Prop
  | .ret _ => True
  | .raise _ => True
  | .select k => ∀ d, (k d).Silent obs
  | .exec s k => Quiet obs s ∧ ∀ r, (k r).Silent obs
  | .commit k => k.Silent obs
  | .close k => k.Silent obs

/-- All visible statements belong to the first transaction. -/
def OneShot (obs : D → O) : Prog D S E α → Prop
  | .ret _ => True
  | .raise _ => True
  | .select k => ∀ d, (k d).OneShot obs
  | .exec _ k => ∀ r, (k r).OneShot obs
  | .commit k => k.Silent obs
  | .close k => k.Silent obs

def Opening (obs : D → O) (p : Prog D S E α) : Prop := p.Sees obs ∧ p.OneShot obs

def Trailing (obs : D → O) (p : Prog D S E α) : Prop := p.Sees obs ∧ p.Silent obs

section

variable {obs : D → O} {β : Type}

theorem opening_query_bind {f : D → α} {g : α → Prog D S E β}
    (hf : ∀ d d', obs d = obs d' → f d = f d') (hg : ∀ a, (g a).Opening obs) :
    (query f >>= g).Opening obs :=
  ⟨⟨fun d d' h => congrArg g (hf d d' h), fun d => (hg (f d)).1⟩, fun d => (hg (f d)).2⟩

theorem opening_lift_bind {x : Except E α} {g : α → Prog D S E β}
    (hg : ∀ a, x = .ok a → (g a).Opening obs) : (lift x >>= g).Opening obs := by
  cases x with
  | error e => exact ⟨trivial, trivial⟩
  | ok a => exact hg a rfl

theorem opening_execute_bind {s : S} {g : Unit → Prog D S E β} (hs : Uniform obs s)
    (hg : (g ()).Opening obs) : (execute s >>= g).Opening obs := by
  refine ⟨⟨hs, fun r => ?_⟩, fun r => ?_⟩
  · cases r with
    | ok a => exact hg.1
    | error e => trivial
  · cases r with
    | ok a => exact hg.2
    | error e => trivial

theorem opening_commitTx_bind {g : Unit → Prog D S E β} (hg : (g ()).Trailing obs) :
    (commitTx >>= g).Opening obs := hg

theorem trailing_execute_bind {s : S} {g : Unit → Prog D S E β} (hs : Uniform obs s)
    (hq : Quiet obs s) (hg : (g ()).Trailing obs) : (execute s >>= g).Trailing obs := by
  refine ⟨⟨hs, fun r => ?_⟩, hq, fun r => ?_⟩
  · cases r with
    | ok a => exact hg.1
    | error e => trivial
  · cases r with
    | ok a => exact hg.2
    | error e => trivial

theorem trailing_commitTx_bind {g : Unit → Prog D S E β} (hg : (g ()).Trailing obs) :
    (commitTx >>= g).Trailing obs := hg

end

def ReadsFirst (p : Prog D S E α) : Prop := p.Done ∨ ∃ k, p = .select k

theorem Done.run_snd {p : Prog D S E α} (h : p.Done) (d : D) (log : List S) :
    (p.run d log).2 = d := by
  obtain ⟨a, rfl⟩ | ⟨e, rfl⟩ := h <;> rfl

theorem Sees.run {obs : D → O} {p : Prog D S E α} (hp : p.Sees obs) {log : List S}
    (hlog : ∀ s ∈ log, Uniform obs s) {d d' : D} (h : obs d = obs d') :
    obs (p.run d log).2 = obs (p.run d' log).2 := by
  induction p generalizing d d' log with
  | ret a | raise e => exact h
  | select k ih =>
    simp only [Prog.run, hp.1 _ _ (Uniform.replay hlog h)]
    exact ih _ (hp.2 _) hlog h
  | exec s k ih =>
    have he := hp.1 _ _ (Uniform.replay hlog h)
    have hlog' : ∀ t ∈ log ++ [s], Uniform obs t :=
      List.forall_mem_append.mpr ⟨hlog, List.forall_mem_singleton.mpr hp.1⟩
    simp only [Prog.run]
    cases h₁ : Statement.exec s (ReadCommitted.replay log d) with
    | ok e₁ =>
      cases h₂ : Statement.exec s (ReadCommitted.replay log d') with
      | ok e₂ => exact ih _ (hp.2 _) hlog' h
      | error e₂ => simp [h₁, h₂, Except.map] at he
    | error e₁ =>
      cases h₂ : Statement.exec s (ReadCommitted.replay log d') with
      | ok e₂ => simp [h₁, h₂, Except.map] at he
      | error e₂ =>
        simp only [h₁, h₂, Except.map, Except.error.injEq] at he
        subst he
        exact ih _ (hp.2 _) (by simp) h
  | commit k ih => exact ih hp (by simp) (Uniform.replay hlog h)
  | close k ih => exact ih hp (by simp) h

theorem Silent.run {obs : D → O} {p : Prog D S E α} (hp : p.Silent obs) {log : List S}
    (hlog : ∀ s ∈ log, Quiet obs s) (d : D) : obs (p.run d log).2 = obs d := by
  induction p generalizing d log with
  | ret a | raise e => rfl
  | select k ih => exact ih _ (hp _) hlog d
  | exec s k ih =>
    have hlog' : ∀ t ∈ log ++ [s], Quiet obs t :=
      List.forall_mem_append.mpr ⟨hlog, List.forall_mem_singleton.mpr hp.1⟩
    simp only [Prog.run]
    cases Statement.exec s (ReadCommitted.replay log d) with
    | ok e₁ => exact ih _ (hp.2 _) hlog' d
    | error e₁ => exact ih _ (hp.2 _) (by simp) d
  | commit k ih =>
    exact (ih hp (by simp) _).trans (replay_congr obs log d fun s hs d' => hlog s hs d')
  | close k ih => exact ih hp (by simp) d

end Prog

namespace Sys

variable [DecidableEq ι]

/-- A commit that changes something visible happens only while no other session
is between its first SELECT and its own commit; and nobody is interrupted. -/
def NotOvertaken (obs : D → O) (s : Sys ι D S E α) (i : ι) (a : Action E) : Prop :=
  a = .advance ∧ ∀ k, (s.session i).prog = .commit k →
    obs (replay (s.session i).log s.db) ≠ obs s.db → ∀ j, j ≠ i → (s.session j).reading = false

/-- A guard for runs in which nobody commits while another session is reading. -/
def undisturbed [Fintype ι] (s : Sys ι D S E α) (i : ι) : Bool :=
  match (s.session i).prog with
  | .commit _ => decide (∀ j, j ≠ i → (s.session j).reading = false)
  | _ => true

theorem notOvertaken_of_undisturbed [Fintype ι] (obs : D → O) {s : Sys ι D S E α} {i : ι}
    (h : s.undisturbed i = true) : NotOvertaken obs s i .advance := by
  refine ⟨rfl, fun k hk _ => ?_⟩
  simpa [undisturbed, hk] using h

/-- The sessions of `order` are past their visible transaction, in this order;
each other one would still do to the rows of this moment what it would do if it
started now. -/
structure Ordered (obs : D → O) (p : ι → Prog D S E α) (d₀ : D) (s : Sys ι D S E α)
    (order : List ι) : Prop where
  nodup : order.Nodup
  db : obs s.db = obs (serial p order d₀)
  sees : ∀ i, (s.session i).prog.Sees obs ∧ ∀ t ∈ (s.session i).log, Uniform obs t
  past : ∀ i ∈ order, (s.session i).prog.Silent obs ∧ ∀ t ∈ (s.session i).log, Quiet obs t
  oneShot : ∀ i, i ∉ order → (s.session i).prog.OneShot obs
  same : ∀ i, i ∉ order →
    obs ((s.session i).prog.run s.db (s.session i).log).2 = obs ((p i).run s.db []).2
  fresh : ∀ i, i ∉ order → ((s.session i).reading = true ∧ ¬ (s.session i).prog.Done) ∨
    ((s.session i).prog = p i ∧ (s.session i).log = [])

variable {obs : D → O} {p : ι → Prog D S E α} {d₀ : D} {s : Sys ι D S E α} {order : List ι}

theorem Ordered.step_past (h : Ordered obs p d₀ s order) (hsees : ∀ i, (p i).Sees obs) {i : ι}
    (hi : i ∈ order) {d : D} {q : Prog D S E α} {log : List S} {r : Bool}
    (hd : obs d = obs s.db) (hq : q.Sees obs) (hqs : q.Silent obs)
    (hlog : ∀ t ∈ log, Uniform obs t ∧ Quiet obs t) :
    Ordered obs p d₀ (s.put i d (.settle q log r)) order := by
  have hne : ∀ {j}, j ∉ order → j ≠ i := fun hj e => hj (e ▸ hi)
  have hleft : ∀ t ∈ (Session.settle q log r : Session D S E α).log, Uniform obs t ∧ Quiet obs t :=
    Session.settle_forall hlog
  refine ⟨h.nodup, hd.trans h.db, ?_, ?_, fun j hj => ?_, fun j hj => ?_, fun j hj => ?_⟩
  · refine (forall_put s fun _ v => v.prog.Sees obs ∧ ∀ t ∈ v.log, Uniform obs t).mpr
      ⟨?_, fun j _ => h.sees j⟩
    rw [Session.settle_prog]
    exact ⟨hq, fun t ht => (hleft t ht).1⟩
  · refine (forall_put s fun j v =>
      j ∈ order → v.prog.Silent obs ∧ ∀ t ∈ v.log, Quiet obs t).mpr
      ⟨fun _ => ?_, fun j _ => h.past j⟩
    rw [Session.settle_prog]
    exact ⟨hqs, fun t ht => (hleft t ht).2⟩
  · simpa [put_of_ne _ _ _ (hne hj)] using h.oneShot j hj
  · rw [put_of_ne _ _ _ (hne hj), put_db, (h.sees j).1.run (h.sees j).2 hd,
      (hsees j).run (by simp) hd]
    exact h.same j hj
  · simpa [put_of_ne _ _ _ (hne hj)] using h.fresh j hj

theorem Ordered.step_leave (h : Ordered obs p d₀ s order) (hsees : ∀ i, (p i).Sees obs) {i : ι}
    (hi : i ∉ order) {d : D} {q : Prog D S E α} {log : List S} {r : Bool}
    (hd : obs d = obs ((p i).run s.db []).2) (hq : q.Sees obs) (hqs : q.Silent obs)
    (hlog : (Session.settle q log r).log = [])
    (hother : ∀ j, j ∉ order → j ≠ i → obs d = obs s.db ∨ (s.session j).reading = false) :
    Ordered obs p d₀ (s.put i d (.settle q log r)) (order ++ [i]) := by
  have hsplit : ∀ {j}, j ∉ order ++ [i] → j ∉ order ∧ j ≠ i := by
    intro j hj
    simpa using hj
  refine ⟨?_, ?_, ?_, ?_, fun j hj => ?_, fun j hj => ?_, fun j hj => ?_⟩
  · exact List.nodup_append.mpr ⟨h.nodup, by simp, by
      intro a ha b hb
      exact List.mem_singleton.mp hb ▸ fun e => hi (e ▸ ha)⟩
  · rw [put_db, serial_append, hd]
    exact (hsees i).run (by simp) h.db
  · exact (forall_put s fun _ v => v.prog.Sees obs ∧ ∀ t ∈ v.log, Uniform obs t).mpr
      ⟨by simpa [hlog] using hq, fun j _ => h.sees j⟩
  · exact (forall_put s fun j v =>
      j ∈ order ++ [i] → v.prog.Silent obs ∧ ∀ t ∈ v.log, Quiet obs t).mpr
      ⟨fun _ => by simpa [hlog] using hqs, fun j hji hj => h.past j (by simpa [hji] using hj)⟩
  · obtain ⟨hjo, hji⟩ := hsplit hj
    simpa [put_of_ne _ _ _ hji] using h.oneShot j hjo
  · obtain ⟨hjo, hji⟩ := hsplit hj
    rw [put_of_ne _ _ _ hji, put_db]
    obtain he | hr := hother j hjo hji
    · rw [(h.sees j).1.run (h.sees j).2 he, (hsees j).run (by simp) he]
      exact h.same j hjo
    · obtain hf | hf := h.fresh j hjo
      · rw [hr] at hf
        exact absurd hf.1 (by simp)
      · rw [hf.1, hf.2]
  · obtain ⟨hjo, hji⟩ := hsplit hj
    simpa [put_of_ne _ _ _ hji] using h.fresh j hjo

theorem Ordered.step_open (h : Ordered obs p d₀ s order) (hsees : ∀ i, (p i).Sees obs) {i : ι}
    (hi : i ∉ order) {q : Prog D S E α} {log : List S}
    (hrun : obs (q.run s.db log).2 = obs ((p i).run s.db []).2) (hq : q.Sees obs)
    (hqs : q.OneShot obs) (hlog : ∀ t ∈ log, Uniform obs t) :
    ∃ order', Ordered obs p d₀ (s.put i s.db (.settle q log true)) order' := by
  by_cases hdone : q.Done
  · refine ⟨order ++ [i], h.step_leave hsees hi ?_ hq ?_ ?_ fun _ _ _ => Or.inl rfl⟩
    · rw [← hrun, hdone.run_snd]
    · obtain ⟨a, rfl⟩ | ⟨e, rfl⟩ := hdone <;> trivial
    · rw [Session.settle_of_done hdone]
  · rw [Session.settle_of_not_done hdone]
    refine ⟨order, h.nodup, h.db, ?_, fun j hj => ?_, ?_, ?_, ?_⟩
    · exact (forall_put s fun _ v => v.prog.Sees obs ∧ ∀ t ∈ v.log, Uniform obs t).mpr
        ⟨⟨hq, hlog⟩, fun j _ => h.sees j⟩
    · have hji : j ≠ i := fun e => hi (e ▸ hj)
      simpa [put_of_ne _ _ _ hji] using h.past j hj
    · exact (forall_put s fun j v => j ∉ order → v.prog.OneShot obs).mpr
        ⟨fun _ => hqs, fun j _ => h.oneShot j⟩
    · exact (forall_put s fun j v =>
        j ∉ order → obs (v.prog.run s.db v.log).2 = obs ((p j).run s.db []).2).mpr
        ⟨fun _ => hrun, fun j _ => h.same j⟩
    · exact (forall_put s fun j v => j ∉ order →
        (v.reading = true ∧ ¬ v.prog.Done) ∨ (v.prog = p j ∧ v.log = [])).mpr
        ⟨fun _ => Or.inl ⟨rfl, hdone⟩, fun j _ => h.fresh j⟩

theorem Ordered.step_of_mem (h : Ordered obs p d₀ s order) (hsees : ∀ i, (p i).Sees obs)
    {i : ι} {a : Action E} {s' : Sys ι D S E α} (hc : NotOvertaken obs s i a)
    (hs : s.Step i a s') (hi : i ∈ order) : Ordered obs p d₀ s' order := by
  have hsi := h.sees i
  have hpi := h.past i hi
  have hlog : ∀ t ∈ (s.session i).log, Uniform obs t ∧ Quiet obs t :=
    fun t ht => ⟨hsi.2 t ht, hpi.2 t ht⟩
  cases hs with
  | fail e hp => cases hc.1
  | select hp =>
    rw [hp] at hsi hpi
    exact h.step_past hsees hi rfl (hsi.1.2 _) (hpi.1 _) hlog
  | flush hp hfree hd =>
    rw [hp] at hsi hpi
    apply h.step_past hsees hi rfl (hsi.1.2 _) (hpi.1.2 _)
    exact List.forall_mem_append.mpr
      ⟨hlog, List.forall_mem_singleton.mpr ⟨hsi.1.1, hpi.1.1⟩⟩
  | refuse hp hfree hd =>
    rw [hp] at hsi hpi
    exact h.step_past hsees hi rfl (hsi.1.2 _) (hpi.1.2 _) (by simp)
  | commit hp =>
    rw [hp] at hsi hpi
    exact h.step_past hsees hi
      (replay_congr obs _ _ fun t ht d' => (hlog t ht).2 d') hsi.1 hpi.1 (by simp)
  | close hp =>
    rw [hp] at hsi hpi
    exact h.step_past hsees hi rfl hsi.1 hpi.1 (by simp)

theorem Ordered.step_of_not_mem (h : Ordered obs p d₀ s order) (hsees : ∀ i, (p i).Sees obs)
    (hfirst : ∀ i, (p i).ReadsFirst) {i : ι} {a : Action E} {s' : Sys ι D S E α}
    (hc : NotOvertaken obs s i a) (hs : s.Step i a s') (hi : i ∉ order) :
    ∃ order', Ordered obs p d₀ s' order' := by
  have hsi := h.sees i
  have hone := h.oneShot i hi
  have hsame := h.same i hi
  -- only a SELECT can be the first action, so every later one belongs to a reader
  have hreading : (∀ k, (s.session i).prog ≠ .select k) → ¬ (s.session i).prog.Done →
      (s.session i).reading = true := by
    intro hk hd
    obtain hf | hf := h.fresh i hi
    · exact hf.1
    · obtain hr | ⟨k, hr⟩ := hfirst i
      · exact absurd (hf.1 ▸ hr) hd
      · exact absurd (hf.1.trans hr) (hk k)
  cases hs with
  | fail e hp => cases hc.1
  | select hp =>
    rw [hp] at hsi hone hsame
    exact h.step_open hsees hi hsame (hsi.1.2 _) (hone _) hsi.2
  | flush hp hfree hd =>
    rw [hreading (by simp [hp]) (by simp [Prog.Done, hp])]
    rw [hp] at hsi hone hsame
    simp only [Prog.run, hd] at hsame
    apply h.step_open hsees hi hsame (hsi.1.2 _) (hone _)
    exact List.forall_mem_append.mpr ⟨hsi.2, List.forall_mem_singleton.mpr hsi.1.1⟩
  | refuse hp hfree hd =>
    rw [hreading (by simp [hp]) (by simp [Prog.Done, hp])]
    rw [hp] at hsi hone hsame
    simp only [Prog.run, hd] at hsame
    exact h.step_open hsees hi hsame (hsi.1.2 _) (hone _) (by simp)
  | @commit k hp =>
    have hother := hc.2 k hp
    rw [hp] at hsi hone hsame
    refine ⟨order ++ [i], h.step_leave hsees hi ?_ hsi.1 hone (Session.settle_nil k false) ?_⟩
    · have hk : obs (k.run (replay (s.session i).log s.db) []).2 = _ :=
        Prog.Silent.run hone (by simp) _
      exact hk.symm.trans hsame
    · intro j hj hji
      by_cases hv : obs (replay (s.session i).log s.db) = obs s.db
      · exact Or.inl hv
      · exact Or.inr (hother hv j hji)
  | @close k hp =>
    rw [hp] at hsi hone hsame
    refine ⟨order ++ [i], h.step_leave hsees hi ?_ hsi.1 hone (Session.settle_nil k false)
      fun _ _ _ => Or.inl rfl⟩
    have hk : obs (k.run s.db []).2 = obs s.db := Prog.Silent.run hone (by simp) _
    exact hk.symm.trans hsame

theorem Ordered.step (h : Ordered obs p d₀ s order) (hsees : ∀ i, (p i).Sees obs)
    (hfirst : ∀ i, (p i).ReadsFirst) {i : ι} {a : Action E} {s' : Sys ι D S E α}
    (hc : NotOvertaken obs s i a) (hs : s.Step i a s') :
    ∃ order', Ordered obs p d₀ s' order' := by
  by_cases hi : i ∈ order
  · exact ⟨order, h.step_of_mem hsees hc hs hi⟩
  · exact h.step_of_not_mem hsees hfirst hc hs hi

omit [DecidableEq ι] in
theorem ordered_start (hsees : ∀ i, (p i).Sees obs) (hone : ∀ i, (p i).OneShot obs) :
    Ordered obs p d₀ (start d₀ p) [] where
  nodup := List.nodup_nil
  db := rfl
  sees i := by simpa [start] using hsees i
  past i hi := by simp at hi
  oneShot i _ := by simpa [start] using hone i
  same i _ := by simp [start]
  fresh i _ := Or.inr (by simp [start])

variable [Fintype ι] [DecidableEq K]

/-- As long as no session is overtaken, the committed rows are those of executing
coroutines one at a time: all that are done, in the order of their commits and
refusals. -/
theorem serializable_of_not_overtaken (hp : ∀ i, (p i).Opening obs)
    (hfirst : ∀ i, (p i).ReadsFirst) (hr : Reach (NotOvertaken obs) (start d₀ p) s) :
    ∃ order : List ι, order.Nodup ∧ (∀ i, (s.session i).prog.Done → i ∈ order) ∧
      obs s.db = obs (serial p order d₀) := by
  obtain ⟨order, h⟩ : ∃ order, Ordered obs p d₀ s order := by
    refine hr.invariant (P := fun s => ∃ order, Ordered obs p d₀ s order)
      ⟨[], ordered_start (fun i => (hp i).1) fun i => (hp i).2⟩ ?_
    rintro s i a s' ⟨order, h⟩ hc hs
    exact h.step (fun i => (hp i).1) hfirst hc hs
  -- what is done without ever having acted may come last
  have hidle : ∀ i, i ∉ order → (s.session i).prog.Done → (p i).Done := by
    intro i hi hdone
    obtain hf | hf := h.fresh i hi
    · exact absurd hdone hf.2
    · exact hf.1 ▸ hdone
  refine ⟨order ++ Finset.univ.toList.filter fun i => i ∉ order ∧ (s.session i).prog.Done, ?_,
    fun i hdone => ?_, ?_⟩
  · refine List.nodup_append.mpr ⟨h.nodup, (Finset.nodup_toList _).filter _, ?_⟩
    intro a ha b hb e
    have := (List.mem_filter.mp hb).2
    simp_all
  · by_cases hi : i ∈ order <;> simp [hi, hdone]
  · rw [h.db, serial_append]
    congr 1
    have hrest : ∀ l : List ι, (∀ i ∈ l, (p i).Done) → ∀ d, serial p l d = d := by
      intro l
      induction l with
      | nil => exact fun _ _ => rfl
      | cons i l ih =>
        intro hl d
        change serial p l ((p i).run d []).2 = d
        rw [(hl i List.mem_cons_self).run_snd]
        exact ih (fun j hj => hl j (List.mem_cons_of_mem i hj)) d
    refine (hrest _ (fun i hi => ?_) _).symm
    obtain ⟨hi, hdone⟩ := of_decide_eq_true (List.mem_filter.mp hi).2
    exact hidle i hi hdone

end Sys

end ClickNBack.ReadCommitted
