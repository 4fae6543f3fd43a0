import ClickNBack.ReadCommitted.UniqueKeys

namespace ClickNBack.ReadCommitted

variable {ι D S E K α β : Type} [Statement S D E K]

/-- A promise for the transactions of every session: each one keeps `I` and only
leads to rows that come `Later`. -/
structure Rules (I : D → Prop) (Later : D → D → Prop) (G : ι → List S → D → Prop) : Prop where
  refl (d : D) : Later d d
  trans (d d' d'' : D) : Later d d' → Later d' d'' → Later d d''
  keeps {i : ι} {log : List S} {d : D} : I d → Runs log d → G i log d →
    I (replay log d) ∧ Later d (replay log d)

def Kept (G : ι → List S → D → Prop) : List (ι × List S) → D → Prop
  | [], _ => True
  | x :: h, d => Runs x.2 d ∧ G x.1 x.2 d ∧ Kept G h (replay x.2 d)

section

variable {I : D → Prop} {Later : D → D → Prop} {G : ι → List S → D → Prop}

theorem Rules.kept (hrules : Rules I Later G) {h : List (ι × List S)} {d : D} (hI : I d)
    (hkept : Kept G h d) : I (replay (h.flatMap Prod.snd) d) ∧
      Later d (replay (h.flatMap Prod.snd) d) := by
  induction h generalizing d with
  | nil => exact ⟨hI, hrules.refl d⟩
  | cons x h ih =>
    obtain ⟨hruns, hG, hrest⟩ := hkept
    obtain ⟨hI', hlater⟩ := hrules.keeps hI hruns hG
    obtain ⟨hend, hlater'⟩ := ih hI' hrest
    rw [List.flatMap_cons, replay_append]
    exact ⟨hend, hrules.trans _ _ _ hlater hlater'⟩

theorem kept_snoc {h : List (ι × List S)} {x : ι × List S} {d : D} (hkept : Kept G h d)
    (hruns : Runs x.2 (replay (h.flatMap Prod.snd) d))
    (hG : G x.1 x.2 (replay (h.flatMap Prod.snd) d)) : Kept G (h ++ [x]) d := by
  induction h generalizing d with
  | nil => exact ⟨hruns, hG, trivial⟩
  | cons y h ih =>
    rw [List.flatMap_cons, replay_append] at hruns hG
    exact ⟨hkept.1, hkept.2.1, ih hkept.2.2 hruns hG⟩

/-- What holds of the rows in the end and not at the start, some transaction of the
history has brought about. -/
theorem Rules.origin (hrules : Rules I Later G) {P : D → Prop} {h : List (ι × List S)} {d : D}
    (hI : I d) (hkept : Kept G h d) (hstart : ¬ P d) (hend : P (replay (h.flatMap Prod.snd) d)) :
    ∃ i log d', G i log d' ∧ Runs log d' ∧ I d' ∧ Later d d' ∧
      Later (replay log d') (replay (h.flatMap Prod.snd) d) ∧ ¬ P d' ∧ P (replay log d') := by
  induction h generalizing d with
  | nil => exact absurd hend hstart
  | cons x h ih =>
    obtain ⟨hruns, hG, hrest⟩ := hkept
    obtain ⟨hI', hlater⟩ := hrules.keeps hI hruns hG
    rw [List.flatMap_cons, replay_append] at hend ⊢
    by_cases hx : P (replay x.2 d)
    · exact ⟨x.1, x.2, d, hG, hruns, hI, hrules.refl d, (hrules.kept hI' hrest).2, hstart, hx⟩
    · obtain ⟨i, log, d', hG', hruns', hId', hafter, hbefore, hnot, hholds⟩ :=
        ih hI' hrest hx hend
      exact ⟨i, log, d', hG', hruns', hId', hrules.trans _ _ _ hlater hafter, hbefore, hnot, hholds⟩

end

namespace Prog

variable (I : D → Prop) (Later : D → D → Prop) (G : List S → D → Prop)

/-- Whatever the others make of the rows that come after `d`, the coroutine commits
only what `G` admits. -/
def Abides : Prog D S E α → D → List S → Prop
  | .ret _, _, _ => True
  | .raise _, _, _ => True
  | .select k, d, log => ∀ d', I d' → Later d d' → Runs log d' →
      (k (replay log d')).Abides d' log
  | .exec s k, d, log => (k (.ok ())).Abides d (log ++ [s]) ∧ ∀ e, (k (.error e)).Abides d []
  | .commit k, d, log => ∀ d', I d' → Later d d' → Runs log d' → G log d' ∧
      (I (replay log d') → Later d' (replay log d') → k.Abides (replay log d') [])
  | .close k, d, _ => k.Abides d []

variable {I Later G} {d : D} {log : List S}

theorem abides_lift_bind {x : Except E α} {g : α → Prog D S E β}
    (h : ∀ a, x = .ok a → (g a).Abides I Later G d log) :
    (lift x >>= g).Abides I Later G d log := by
  cases x with
  | error e => trivial
  | ok a => exact h a rfl

theorem abides_query_bind {f : D → α} {g : α → Prog D S E β}
    (h : ∀ d', I d' → Later d d' → Runs log d' →
      (g (f (replay log d'))).Abides I Later G d' log) :
    (query f >>= g).Abides I Later G d log := h

theorem abides_execute_bind {s : S} {g : Unit → Prog D S E β}
    (h : (g ()).Abides I Later G d (log ++ [s])) :
    (execute s >>= g).Abides I Later G d log := ⟨h, fun _ => trivial⟩

theorem abides_commitTx_bind {g : Unit → Prog D S E β}
    (h : ∀ d', I d' → Later d d' → Runs log d' → G log d' ∧
      (I (replay log d') → Later d' (replay log d') → (g ()).Abides I Later G (replay log d') [])) :
    (commitTx >>= g).Abides I Later G d log := h

theorem Abides.tryCatch {p : Prog D S E α} (h : p.Abides I Later G d log)
    {handler : E → Prog D S E α} (hraises : ∀ e, ∃ e', handler e = .raise e') :
    (p.tryCatch handler).Abides I Later G d log := by
  induction p generalizing d log with
  | ret a => trivial
  | raise e =>
    obtain ⟨e', he'⟩ := hraises e
    simp only [Prog.tryCatch, he']
    trivial
  | select k ih => exact fun d' hI hlater hruns => ih _ (h d' hI hlater hruns)
  | exec s k ih => exact ⟨ih _ h.1, fun e => ih _ (h.2 e)⟩
  | commit k ih =>
    intro d' hI hlater hruns
    obtain ⟨hG, hk⟩ := h d' hI hlater hruns
    exact ⟨hG, fun hI' hlater' => ih (hk hI' hlater')⟩
  | close k ih => exact ih h

theorem Abides.later {p : Prog D S E α}
    (htrans : ∀ d d' d'' : D, Later d d' → Later d' d'' → Later d d'')
    (h : p.Abides I Later G d log) {d' : D} (hlater : Later d d') :
    p.Abides I Later G d' log := by
  induction p generalizing log with
  | ret a | raise e => trivial
  | select k ih => exact fun d'' hI hlater' hruns => h d'' hI (htrans _ _ _ hlater hlater') hruns
  | exec s k ih => exact ⟨ih _ h.1, fun e => ih _ (h.2 e)⟩
  | commit k ih => exact fun d'' hI hlater' hruns => h d'' hI (htrans _ _ _ hlater hlater') hruns
  | close k ih => exact ih h

theorem Abides.imp {G' : List S → D → Prop} {p : Prog D S E α} (h : p.Abides I Later G d log)
    (htrans : ∀ d d' d'' : D, Later d d' → Later d' d'' → Later d d'')
    (hG : ∀ log d', Later d d' → G log d' → G' log d') : p.Abides I Later G' d log := by
  induction p generalizing d log with
  | ret a | raise e => trivial
  | select k ih =>
    exact fun d' hI hlater hruns => ih _ (h d' hI hlater hruns) fun log d'' hlater' =>
      hG log d'' (htrans _ _ _ hlater hlater')
  | exec s k ih => exact ⟨ih _ h.1 hG, fun e => ih _ (h.2 e) hG⟩
  | commit k ih =>
    intro d' hI hlater hruns
    obtain ⟨hpromised, hk⟩ := h d' hI hlater hruns
    refine ⟨hG log d' hlater hpromised, fun hI' hlater' => ih (hk hI' hlater') ?_⟩
    exact fun log d'' hlater'' => hG log d'' (htrans _ _ _ (htrans _ _ _ hlater hlater') hlater'')
  | close k ih => exact ih h hG

theorem Follows.abides {script : α → List S} {R : α → Prop} {p : Prog D S E α}
    (h : p.Follows script R log) (hG : ∀ a d, R a → G (script a) d) :
    p.Abides I Later G d log := by
  induction p generalizing d log with
  | ret a => exact h.elim
  | raise e => trivial
  | select k ih => exact fun d' _ _ hruns => ih _ (h d' hruns)
  | exec s k ih =>
    refine ⟨ih _ h.2.1, fun e => ?_⟩
    obtain ⟨e', he'⟩ := h.2.2 e
    rw [he']
    trivial
  | commit k ih =>
    obtain ⟨a, hR, rfl, rfl⟩ := h
    exact fun d' _ _ _ => ⟨hG a d' hR, fun _ _ => trivial⟩
  | close k ih => exact h.elim

def Emits (P : S → Prop) : Prog D S E α → Prop
  | .ret _ => True
  | .raise _ => True
  | .select k => ∀ d, (k d).Emits P
  | .exec s k => P s ∧ ∀ r, (k r).Emits P
  | .commit k => k.Emits P
  | .close k => k.Emits P

section

variable {P : S → Prop}

theorem emits_lift_bind {x : Except E α} {g : α → Prog D S E β}
    (h : ∀ a, x = .ok a → (g a).Emits P) : (lift x >>= g).Emits P := by
  cases x with
  | error e => trivial
  | ok a => exact h a rfl

theorem emits_query_bind {f : D → α} {g : α → Prog D S E β} (h : ∀ d, (g (f d)).Emits P) :
    (query f >>= g).Emits P := h

theorem emits_execute_bind {s : S} {g : Unit → Prog D S E β} (hs : P s) (h : (g ()).Emits P) :
    (execute s >>= g).Emits P := by
  refine ⟨hs, fun r => ?_⟩
  cases r with
  | ok _ => exact h
  | error e => trivial

end

theorem Emits.abides {P : S → Prop} {p : Prog D S E α} (h : p.Emits P) (hlog : ∀ s ∈ log, P s)
    (htrans : ∀ d d' d'' : D, Later d d' → Later d' d'' → Later d d'')
    (hG : ∀ log d', I d' → Later d d' → Runs log d' → (∀ s ∈ log, P s) → G log d') :
    p.Abides I Later G d log := by
  induction p generalizing d log with
  | ret a | raise e => trivial
  | select k ih =>
    intro d' hI hlater hruns
    exact ih _ (h _) hlog fun log d'' hI' hlater' => hG log d'' hI' (htrans _ _ _ hlater hlater')
  | exec s k ih =>
    refine ⟨ih _ (h.2 _) ?_ hG, fun e => ih _ (h.2 _) (by simp) hG⟩
    exact List.forall_mem_append.mpr ⟨hlog, List.forall_mem_singleton.mpr h.1⟩
  | commit k ih =>
    intro d' hI hlater hruns
    refine ⟨hG log d' hI hlater hruns hlog, fun _ hlater' => ih h (by simp) ?_⟩
    exact fun log d'' hI'' hlater'' =>
      hG log d'' hI'' (htrans _ _ _ (htrans _ _ _ hlater hlater') hlater'')
  | close k ih => exact ih h (by simp) hG

end Prog

namespace Sys

/-- The rows are those of a history that keeps the promises, and every session
goes on by them. -/
structure Abiding (I : D → Prop) (Later : D → D → Prop)
    (G : ι → List S → D → Prop) (keys : S → List K) (d₀ : D) (s : Sys ι D S E α)
    (h : List (ι × List S)) : Prop where
  kept : Kept G h d₀
  db : s.db = replay (h.flatMap Prod.snd) d₀
  inv : I s.db
  runs : ∀ i, Runs (s.session i).log s.db
  apart : ∀ i j, i ≠ j → ∀ t ∈ (s.session i).log, ∀ u ∈ (s.session j).log,
    List.Disjoint (keys t) (keys u)
  abides : ∀ i, (s.session i).prog.Abides I Later (G i) s.db (s.session i).log

variable [DecidableEq ι] {I : D → Prop} {Later : D → D → Prop} {G : ι → List S → D → Prop}
  {keys needs : S → List K} {taken : D → K → Prop} {d₀ : D} {s s' : Sys ι D S E α}
  {h : List (ι × List S)}

theorem Abiding.step_local (ha : Abiding I Later G keys d₀ s h) {i : ι} {q : Prog D S E α}
    {log : List S} {r : Bool} (hq : q.Abides I Later (G i) s.db log) (hruns : Runs log s.db)
    (hapart : ∀ j, j ≠ i → ∀ t ∈ log, ∀ u ∈ (s.session j).log, List.Disjoint (keys t) (keys u)) :
    Abiding I Later G keys d₀ (s.put i s.db (.settle q log r)) h := by
  refine ⟨ha.kept, ha.db, ha.inv, ?_, apart_put (fun j hj => ?_) ha.apart, ?_⟩
  · refine (forall_put s fun _ v => Runs v.log s.db).mpr ⟨?_, fun j _ => ha.runs j⟩
    obtain he | he := Session.settle_log q log r <;> rw [he]
    · trivial
    · exact hruns
  · exact Session.settle_forall (hapart j hj)
  · refine (forall_put s fun j v => v.prog.Abides I Later (G j) s.db v.log).mpr
      ⟨?_, fun j _ => ha.abides j⟩
    by_cases hdone : q.Done
    · rw [Session.settle_of_done hdone]
      obtain ⟨a, rfl⟩ | ⟨e, rfl⟩ := hdone <;> trivial
    · rw [Session.settle_of_not_done hdone]
      exact hq

theorem Abiding.step_commit (hkeys : UniqueKeys keys needs taken) (hrules : Rules I Later G)
    (ha : Abiding I Later G keys d₀ s h) {i : ι} {k : Prog D S E α}
    (hk : (s.session i).prog = .commit k) :
    Abiding I Later G keys d₀
      (s.put i (replay (s.session i).log s.db) (.settle k [] false))
      (h ++ [(i, (s.session i).log)]) := by
  have habides := ha.abides i
  rw [hk] at habides
  obtain ⟨hG, hk'⟩ := habides s.db ha.inv (hrules.refl _) (ha.runs i)
  obtain ⟨hI, hlater⟩ := hrules.keeps ha.inv (ha.runs i) hG
  refine ⟨kept_snoc ha.kept (ha.db ▸ ha.runs i) (ha.db ▸ hG), ?_, hI, ?_,
    apart_put (by simp) ha.apart, ?_⟩
  · rw [List.flatMap_append, replay_append, ← ha.db]
    simp
  · refine (forall_put s fun _ v => Runs v.log (replay (s.session i).log s.db)).mpr
      ⟨by simp [Runs], fun j hj => ?_⟩
    exact hkeys.runs_after (ha.runs j) (ha.runs i) (ha.apart j i hj)
  · refine (forall_put s fun j v =>
      v.prog.Abides I Later (G j) (replay (s.session i).log s.db) v.log).mpr ⟨?_, fun j _ => ?_⟩
    · rw [Session.settle_prog, Session.settle_nil]
      exact hk' hI hlater
    · exact (ha.abides j).later hrules.trans hlater

theorem Abiding.step (hkeys : UniqueKeys keys needs taken) (hrules : Rules I Later G)
    (ha : Abiding I Later G keys d₀ s h) {i : ι} {a : Action E} (hs : s.Step i a s') :
    ∃ h', Abiding I Later G keys d₀ s' h' := by
  have habides := ha.abides i
  cases hs with
  | fail e hp => exact ⟨h, ha.step_local trivial trivial (by simp)⟩
  | select hp =>
    rw [hp] at habides
    exact ⟨h, ha.step_local (habides s.db ha.inv (hrules.refl _) (ha.runs i)) (ha.runs i)
      fun j hj => ha.apart i j (Ne.symm hj)⟩
  | flush hp hfree hd =>
    rw [hp] at habides
    refine ⟨h, ha.step_local habides.1 (runs_append.mpr ⟨ha.runs i, _, hd, trivial⟩) ?_⟩
    intro j hj t ht u hu
    obtain ht | ht := List.mem_append.mp ht
    · exact ha.apart i j (Ne.symm hj) t ht u hu
    · rw [List.mem_singleton.mp ht]
      exact hkeys.disjoint_of_not_blocked hfree hj hu
  | refuse hp hfree hd =>
    rw [hp] at habides
    exact ⟨h, ha.step_local (habides.2 _) trivial (by simp)⟩
  | commit hp => exact ⟨_, ha.step_commit hkeys hrules hp⟩
  | close hp =>
    rw [hp] at habides
    exact ⟨h, ha.step_local habides trivial (by simp)⟩

omit [DecidableEq ι] in
theorem start_log (d₀ : D) (p : ι → Prog D S E α) (i : ι) :
    ((start d₀ p).session i).log = [] := Session.settle_nil (p i) false

omit [DecidableEq ι] in
theorem abiding_start (hI : I d₀) {p : ι → Prog D S E α}
    (hp : ∀ i, (p i).Abides I Later (G i) d₀ []) :
    Abiding I Later G keys d₀ (start d₀ p) [] := by
  refine ⟨trivial, rfl, hI, fun i => ?_, fun i j _ t ht => ?_, fun i => ?_⟩
  · rw [start_log]
    trivial
  · rw [start_log] at ht
    exact absurd ht (by simp)
  · rw [start_log]
    simpa [start] using hp i

variable [Fintype ι] [DecidableEq K]

omit [DecidableEq ι] [Fintype ι] [DecidableEq K] in
/-- A history can be told from any of its states on. -/
theorem Abiding.afresh (ha : Abiding I Later G keys d₀ s h) :
    Abiding I Later G keys s.db s [] :=
  ⟨trivial, rfl, ha.inv, ha.runs, ha.apart, ha.abides⟩

theorem Abiding.reach (hkeys : UniqueKeys keys needs taken) (hrules : Rules I Later G)
    (ha : Abiding I Later G keys d₀ s h) {C : Sys ι D S E α → ι → Action E → Prop}
    (hr : Reach C s s') : ∃ h', Abiding I Later G keys d₀ s' h' := by
  refine hr.invariant (P := fun s => ∃ h, Abiding I Later G keys d₀ s h) ⟨h, ha⟩ ?_
  rintro s i a s' ⟨h, ha⟩ - hs
  exact ha.step hkeys hrules hs

/-- Coroutines that abide by the rules: whatever the interleaving and the failures, what
is committed between two states is a history of transactions as promised, which keeps `I`
and comes after the earlier one. -/
theorem history_between (hkeys : UniqueKeys keys needs taken) (hrules : Rules I Later G)
    (hI : I d₀) {p : ι → Prog D S E α} (hp : ∀ i, (p i).Abides I Later (G i) d₀ [])
    {C : Sys ι D S E α → ι → Action E → Prop} (hr : Reach C (start d₀ p) s)
    (hr' : Reach C s s') :
    ∃ h : List (ι × List S), Kept G h s.db ∧ s'.db = replay (h.flatMap Prod.snd) s.db ∧
      I s'.db ∧ Later s.db s'.db := by
  obtain ⟨h₀, ha₀⟩ := (abiding_start hI hp).reach hkeys hrules hr
  obtain ⟨h, ha⟩ := ha₀.afresh.reach hkeys hrules hr'
  obtain ⟨hI', hlater⟩ := hrules.kept ha₀.inv ha.kept
  rw [← ha.db] at hI' hlater
  exact ⟨h, ha.kept, ha.db, hI', hlater⟩

theorem history_of_reach (hkeys : UniqueKeys keys needs taken) (hrules : Rules I Later G)
    (hI : I d₀) {p : ι → Prog D S E α} (hp : ∀ i, (p i).Abides I Later (G i) d₀ [])
    {C : Sys ι D S E α → ι → Action E → Prop} (hr : Reach C (start d₀ p) s) :
    ∃ h : List (ι × List S), Kept G h d₀ ∧ s.db = replay (h.flatMap Prod.snd) d₀ ∧ I s.db ∧
      Later d₀ s.db :=
  history_between hkeys hrules hI hp Reach.refl hr

end Sys

end ClickNBack.ReadCommitted
