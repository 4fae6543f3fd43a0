import ClickNBack.ReadCommitted.Guarantees

namespace ClickNBack.ReadCommitted

variable {ι D S E K α β : Type} [Statement S D E K]

namespace Prog

/-- The coroutine raises only when it has found that `U` holds of the committed rows. -/
def RaisesOnly (U : D → Prop) : Prog D S E α → List S → Prop
  | .ret _, _ => True
  | .raise _, _ => False
  | .select k, log => ∀ d, Runs log d → U d ∨ (k (replay log d)).RaisesOnly U log
  | .exec s k, log => (k (.ok ())).RaisesOnly U (log ++ [s]) ∧
      ∀ d e, Runs log d → Statement.exec s (replay log d) = .error e → U d
  | .commit k, _ => k.RaisesOnly U []
  | .close k, _ => k.RaisesOnly U []

variable {U : D → Prop} {log : List S}

theorem raisesOnly_query_bind {f : D → α} {g : α → Prog D S E β}
    (h : ∀ d, Runs log d → U d ∨ (g (f (replay log d))).RaisesOnly U log) :
    (query f >>= g).RaisesOnly U log := h

theorem raisesOnly_execute_bind {s : S} {g : Unit → Prog D S E β}
    (hrefused : ∀ d e, Runs log d → Statement.exec s (replay log d) = .error e → U d)
    (h : (g ()).RaisesOnly U (log ++ [s])) : (execute s >>= g).RaisesOnly U log := ⟨h, hrefused⟩

theorem raisesOnly_commitTx_bind {g : Unit → Prog D S E β} (h : (g ()).RaisesOnly U []) :
    (commitTx >>= g).RaisesOnly U log := h

theorem abides_true (p : Prog D S E α) (d : D) (log : List S) :
    p.Abides (fun _ => True) (fun _ _ => True) (fun _ _ => True) d log := by
  induction p generalizing d log with
  | ret a | raise e => trivial
  | select k ih => exact fun d' _ _ _ => ih _ d' log
  | exec s k ih => exact ⟨ih _ d _, fun e => ih _ d _⟩
  | commit k ih => exact fun _ _ _ _ => ⟨trivial, fun _ _ => ih _ []⟩
  | close k ih => exact ih d []

end Prog

theorem replay_stable {U : D → Prop}
    (hstable : ∀ (s : S) d d', Statement.exec s d = .ok d' → U d → U d') (log : List S) (d : D)
    (hU : U d) : U (replay log d) := by
  refine replay_invariant log d (fun s _ d hd => ?_) hU
  rw [apply]
  cases h : Statement.exec s d with
  | ok d' => exact hstable s d d' h hd
  | error e => exact hd

namespace Sys

variable [DecidableEq ι] [Fintype ι] [DecidableEq K] {keys needs : S → List K}
  {taken : D → K → Prop} {p : ι → Prog D S E α} {d₀ : D} {s : Sys ι D S E α}

theorem runs_of_reach (hkeys : UniqueKeys keys needs taken)
    {C : Sys ι D S E α → ι → Action E → Prop} (hr : Reach C (start d₀ p) s) (i : ι) :
    Runs (s.session i).log s.db := by
  have hrules : Rules (ι := ι) (S := S) (fun _ : D => True) (fun _ _ => True)
      (fun _ _ _ => True) :=
    ⟨fun _ => trivial, fun _ _ _ _ _ => trivial, fun _ _ _ => ⟨trivial, trivial⟩⟩
  obtain ⟨h, ha⟩ : ∃ h, Abiding (fun _ : D => True) (fun _ _ => True) (fun (_ : ι) _ _ => True)
      keys d₀ s h := by
    refine hr.invariant (P := fun s => ∃ h, Abiding (fun _ : D => True) (fun _ _ => True)
      (fun (_ : ι) _ _ => True) keys d₀ s h) ⟨[], abiding_start trivial fun i => ?_⟩ ?_
    · exact Prog.abides_true _ _ _
    · rintro s i a s' ⟨h, ha⟩ - hs
      exact ha.step hkeys hrules hs
  exact ha.runs i

omit [Fintype ι] [DecidableEq K] in
theorem Step.raisesOnly {U : D → Prop} {i : ι} {s' : Sys ι D S E α} (hs : s.Step i .advance s')
    (hruns : Runs (s.session i).log s.db)
    (hp : (s.session i).prog.RaisesOnly U (s.session i).log) :
    U s'.db ∨ (s'.session i).prog.RaisesOnly U (s'.session i).log := by
  have hsettle : ∀ {q : Prog D S E α} {log : List S} (r : Bool), q.RaisesOnly U log →
      (Session.settle q log r).prog.RaisesOnly U (Session.settle q log r).log := by
    intro q log r hq
    cases q with
    | ret a => trivial
    | raise e => exact hq.elim
    | select k | exec st k | commit k | close k => exact hq
  cases hs with
  | select hk =>
    rw [hk] at hp
    rw [put_db, put_self]
    exact (hp s.db hruns).imp_right (hsettle true)
  | flush hk hfree hd =>
    rw [hk] at hp
    rw [put_self]
    exact Or.inr (hsettle _ hp.1)
  | refuse hk hfree hd =>
    rw [hk] at hp
    exact Or.inl (hp.2 s.db _ hruns hd)
  | commit hk =>
    rw [hk] at hp
    rw [put_self]
    exact Or.inr (hsettle false hp)
  | close hk =>
    rw [hk] at hp
    rw [put_self]
    exact Or.inr (hsettle false hp)

omit [Fintype ι] [DecidableEq K] in
theorem Step.others {i : ι} {a : Action E} {s' : Sys ι D S E α} (hs : s.Step i a s') :
    (s'.db = s.db ∨ s'.db = replay (s.session i).log s.db) ∧
      ∀ j, j ≠ i → s'.session j = s.session j := by
  cases hs with
  | commit hk => exact ⟨Or.inr rfl, fun j hj => put_of_ne _ _ _ hj⟩
  | fail | select | flush | refuse | close =>
    exact ⟨Or.inl rfl, fun j hj => put_of_ne _ _ _ hj⟩

theorem Reach.mono {C C' : Sys ι D S E α → ι → Action E → Prop}
    (hC : ∀ s i a, C s i a → C' s i a) {s₀ : Sys ι D S E α} (hr : Reach C s₀ s) :
    Reach C' s₀ s := by
  induction hr with
  | refl => exact Reach.refl
  | step _ hc hn ih => exact ih.step (hC _ _ _ hc) hn

/-- Without failures from outside, a session that raises has a reason that still
holds of the committed rows. -/
theorem reason_of_raise (hkeys : UniqueKeys keys needs taken) {U : D → Prop}
    (hstable : ∀ (st : S) d d', Statement.exec st d = .ok d' → U d → U d') {i : ι}
    (hp : (p i).RaisesOnly U []) (hr : Reach (fun _ _ a => a = .advance) (start d₀ p) s) {e : E}
    (he : (s.session i).prog = .raise e) : U s.db := by
  suffices hinv : U s.db ∨ (s.session i).prog.RaisesOnly U (s.session i).log by
    refine hinv.resolve_right fun hraises => ?_
    rw [he] at hraises
    exact hraises
  clear he
  induction hr with
  | refl =>
    rw [start_log]
    simpa [start] using Or.inr hp
  | @step s s' j a hr hc hn ih =>
    obtain rfl := hc
    have hs := step_of_next hn
    obtain ⟨hdb, hother⟩ := hs.others
    obtain hU | hraises := ih
    · left
      obtain hdb | hdb := hdb <;> rw [hdb]
      · exact hU
      · exact replay_stable hstable _ _ hU
    · by_cases hj : i = j
      · subst hj
        exact hs.raisesOnly (runs_of_reach hkeys hr i) hraises
      · rw [hother i hj]
        exact Or.inr hraises

end Sys

end ClickNBack.ReadCommitted
