import ClickNBack.ReadCommitted.System
import Mathlib.Data.List.Basic
import Mathlib.Data.List.Nodup

namespace ClickNBack.ReadCommitted

variable {ι D S E K α : Type} [Statement S D E K]

/-- Running `t` first changes neither the fate nor the effect of `s`. -/
def Independent (I : D → Prop) (s t : S) : Prop :=
  ∀ d, I d →
    (Statement.exec s (apply t d)).map (fun _ => ()) = (Statement.exec s d).map (fun _ => ()) ∧
    apply s (apply t d) = apply t (apply s d)

variable {I : D → Prop}

theorem replay_apply_comm (hI : ∀ (s : S) d, I d → I (apply s d)) {log : List S} {t : S}
    (h : ∀ s ∈ log, Independent I s t) {d : D} (hd : I d) :
    replay log (apply t d) = apply t (replay log d) := by
  induction log generalizing d with
  | nil => rfl
  | cons s log ih =>
    rw [replay_cons, replay_cons, (h s List.mem_cons_self d hd).2]
    exact ih (fun u hu => h u (List.mem_cons_of_mem s hu)) (hI s d hd)

theorem replay_keeps (hI : ∀ (s : S) d, I d → I (apply s d)) (log : List S) {d : D} (hd : I d) :
    I (replay log d) :=
  replay_invariant log d (fun s _ => hI s) hd

namespace Prog

/-- Along its run alone, nothing the coroutine reads or flushes interferes with
the statements in `F`. -/
def Apart (F : S → Prop) (I : D → Prop) : Prog D S E α → D → List S → Prop
  | .ret _, _, _ => True
  | .raise _, _, _ => True
  | .select k, d, log =>
    (∀ t, F t → ∀ d, I d → k (apply t d) = k d) ∧ (k (replay log d)).Apart F I d log
  | .exec s k, d, log =>
    (∀ t, F t → Independent I s t) ∧
    (∀ d', Statement.exec s (replay log d) = .ok d' → (k (.ok ())).Apart F I d (log ++ [s])) ∧
    ∀ e, Statement.exec s (replay log d) = .error e → (k (.error e)).Apart F I d []
  | .commit k, d, log => k.Apart F I (replay log d) []
  | .close k, d, _ => k.Apart F I d []

variable {F : S → Prop} {β : Type} {d : D} {log : List S}

theorem apart_query_bind {f : D → α} {g : α → Prog D S E β}
    (hsame : ∀ t, F t → ∀ d, I d → g (f (ReadCommitted.apply t d)) = g (f d))
    (h : (g (f (replay log d))).Apart F I d log) : (query f >>= g).Apart F I d log := ⟨hsame, h⟩

theorem apart_lift_bind {x : Except E α} {g : α → Prog D S E β}
    (h : ∀ a, x = .ok a → (g a).Apart F I d log) : (lift x >>= g).Apart F I d log := by
  cases x with
  | error e => trivial
  | ok a => exact h a rfl

theorem apart_execute_bind {s : S} {g : Unit → Prog D S E β}
    (hs : ∀ t, F t → Independent I s t)
    (h : ∀ d', Statement.exec s (replay log d) = .ok d' → (g ()).Apart F I d (log ++ [s])) :
    (execute s >>= g).Apart F I d log :=
  ⟨hs, h, fun _ _ => trivial⟩

theorem apart_commitTx_bind {g : Unit → Prog D S E β}
    (h : (g ()).Apart F I (replay log d) []) : (commitTx >>= g).Apart F I d log := h

theorem Apart.apply (hI : ∀ (s : S) d, I d → I (ReadCommitted.apply s d)) {F : S → Prop} {t : S}
    (ht : F t) {p : Prog D S E α} {d : D} {log : List S} (hp : p.Apart F I d log)
    (hlog : ∀ s ∈ log, ∀ t, F t → Independent I s t) (hd : I d) :
    p.Apart F I (ReadCommitted.apply t d) log ∧
      p.committed (ReadCommitted.apply t d) log = p.committed d log := by
  induction p generalizing d log with
  | ret a | raise e => exact ⟨trivial, rfl⟩
  | select k ih =>
    have hr := replay_apply_comm hI (fun s hs => hlog s hs t ht) hd
    have hk := hp.1 t ht _ (replay_keeps hI log hd)
    obtain ⟨h₁, h₂⟩ := ih _ hp.2 hlog hd
    simp only [Apart, committed, hr, hk]
    exact ⟨⟨hp.1, h₁⟩, h₂⟩
  | exec s k ih =>
    have hr := replay_apply_comm hI (fun s hs => hlog s hs t ht) hd
    obtain ⟨hind, hok, herr⟩ := hp
    have hf := (hind t ht _ (replay_keeps hI log hd)).1
    simp only [Apart, committed, hr]
    cases h₁ : Statement.exec s (ReadCommitted.replay log d) with
    | ok e₁ =>
      have hlog' : ∀ u ∈ log ++ [s], ∀ t, F t → Independent I u t :=
        List.forall_mem_append.mpr ⟨hlog, List.forall_mem_singleton.mpr hind⟩
      cases h₂ : Statement.exec s (ReadCommitted.apply t (ReadCommitted.replay log d)) with
      | ok e₂ =>
        obtain ⟨h₃, h₄⟩ := ih _ (hok e₁ h₁) hlog' hd
        exact ⟨⟨hind, fun _ _ => h₃, fun _ he => by cases he⟩, h₄⟩
      | error e₂ => simp [h₁, h₂, Except.map] at hf
    | error e₁ =>
      cases h₂ : Statement.exec s (ReadCommitted.apply t (ReadCommitted.replay log d)) with
      | ok e₂ => simp [h₁, h₂, Except.map] at hf
      | error e₂ =>
        simp only [h₁, h₂, Except.map, Except.error.injEq] at hf
        subst hf
        obtain ⟨h₃, h₄⟩ := ih _ (herr e₂ h₁) (by simp) hd
        refine ⟨⟨hind, fun _ he => (by cases he), fun e he => ?_⟩, h₄⟩
        cases he
        exact h₃
  | commit k ih =>
    have hr := replay_apply_comm hI (fun s hs => hlog s hs t ht) hd
    obtain ⟨h₁, h₂⟩ := ih hp (by simp) (replay_keeps hI log hd)
    simp only [Apart, committed, hr, h₂]
    exact ⟨h₁, trivial⟩
  | close k ih => exact ih hp (by simp) hd

theorem Apart.replay (hI : ∀ (s : S) d, I d → I (ReadCommitted.apply s d)) {F : S → Prop}
    {ts : List S} (hts : ∀ t ∈ ts, F t) {p : Prog D S E α} {d : D} {log : List S}
    (hp : p.Apart F I d log) (hlog : ∀ s ∈ log, ∀ t, F t → Independent I s t) (hd : I d) :
    p.Apart F I (ReadCommitted.replay ts d) log ∧
      p.committed (ReadCommitted.replay ts d) log = p.committed d log := by
  induction ts generalizing d with
  | nil => exact ⟨hp, rfl⟩
  | cons t ts ih =>
    obtain ⟨h₁, h₂⟩ := hp.apply hI (hts t List.mem_cons_self) hlog hd
    obtain ⟨h₃, h₄⟩ := ih (fun u hu => hts u (List.mem_cons_of_mem t hu)) h₁ (hI t d hd)
    exact ⟨h₃, h₄.trans h₂⟩

theorem Apart.independent {F : S → Prop} {p : Prog D S E α} {d : D} {log : List S}
    (hp : p.Apart F I d log) (hlog : ∀ s ∈ log, ∀ t, F t → Independent I s t) :
    ∀ s ∈ p.committed d log, ∀ t, F t → Independent I s t := by
  induction p generalizing d log with
  | ret a | raise e => simp [committed]
  | select k ih => exact ih _ hp.2 hlog
  | exec s k ih =>
    obtain ⟨hind, hok, herr⟩ := hp
    simp only [committed]
    cases h₁ : Statement.exec s (ReadCommitted.replay log d) with
    | ok e₁ =>
      apply ih _ (hok e₁ h₁)
      exact List.forall_mem_append.mpr ⟨hlog, List.forall_mem_singleton.mpr hind⟩
    | error e₁ => exact ih _ (herr e₁ h₁) (by simp)
  | commit k ih =>
    exact List.forall_mem_append.mpr ⟨hlog, ih hp (by simp)⟩
  | close k ih => exact ih hp (by simp)

end Prog

theorem replay_sort [DecidableEq ι] (hI : ∀ (s : S) d, I d → I (apply s d))
    {hist : List (ι × S)} (i : ι)
    (hind : ∀ x ∈ hist, ∀ y ∈ hist, x.1 ≠ y.1 → Independent I x.2 y.2) {d : D} (hd : I d) :
    replay (hist.map Prod.snd) d =
      replay ((hist.filter (·.1 ≠ i)).map Prod.snd)
        (replay ((hist.filter (·.1 = i)).map Prod.snd) d) := by
  induction hist generalizing d with
  | nil => rfl
  | cons x hist ih =>
    have htail := ih (fun y hy z hz => hind y (List.mem_cons_of_mem x hy) z
      (List.mem_cons_of_mem x hz)) (hI x.2 d hd)
    by_cases hx : x.1 = i
    · simpa [hx] using htail
    · have hmove : replay ((hist.filter (·.1 = i)).map Prod.snd) (apply x.2 d) =
          apply x.2 (replay ((hist.filter (·.1 = i)).map Prod.snd) d) := by
        refine replay_apply_comm hI ?_ hd
        intro s hs
        obtain ⟨y, hy, rfl⟩ := List.mem_map.mp hs
        obtain ⟨hyh, hyi⟩ := List.mem_filter.mp hy
        apply hind y (List.mem_cons_of_mem x hyh) x List.mem_cons_self
        exact (of_decide_eq_true hyi).trans_ne (Ne.symm hx)
      rw [hmove] at htail
      simpa [hx] using htail

theorem replay_sort_all [DecidableEq ι] (hI : ∀ (s : S) d, I d → I (apply s d))
    {hist : List (ι × S)} {order : List ι} (hnodup : order.Nodup)
    (hmem : ∀ x ∈ hist, x.1 ∈ order)
    (hind : ∀ x ∈ hist, ∀ y ∈ hist, x.1 ≠ y.1 → Independent I x.2 y.2) {d : D} (hd : I d) :
    replay (hist.map Prod.snd) d =
      replay (order.flatMap fun i => (hist.filter (·.1 = i)).map Prod.snd) d := by
  induction order generalizing hist d with
  | nil =>
    have he : hist = [] := List.eq_nil_iff_forall_not_mem.mpr fun x hx => by simpa using hmem x hx
    simp [he]
  | cons i order ih =>
    obtain ⟨hi, hnd⟩ := List.nodup_cons.mp hnodup
    have hsub : ∀ x ∈ hist.filter (·.1 ≠ i), x ∈ hist := fun x hx => (List.mem_filter.mp hx).1
    have hothers : ∀ x ∈ hist.filter (·.1 ≠ i), x.1 ∈ order := by
      intro x hx
      obtain ⟨hxh, hxi⟩ := List.mem_filter.mp hx
      exact (List.mem_cons.mp (hmem x hxh)).resolve_left (of_decide_eq_true hxi)
    have hrest := ih hnd hothers (fun x hx y hy => hind x (hsub x hx) y (hsub y hy))
      (replay_keeps hI ((hist.filter (·.1 = i)).map Prod.snd) hd)
    have hblocks : (order.flatMap fun j => ((hist.filter (·.1 ≠ i)).filter (·.1 = j)).map Prod.snd)
        = order.flatMap fun j => (hist.filter (·.1 = j)).map Prod.snd := by
      refine List.flatMap_congr fun j hj => ?_
      rw [List.filter_filter]
      congr 1
      refine List.filter_congr fun x _ => ?_
      have hji : j ≠ i := fun e => hi (e ▸ hj)
      by_cases hx : x.1 = j <;> simp [hx, hji]
    rw [replay_sort hI i hind hd, hrest, hblocks, List.flatMap_cons, replay_append]

theorem Session.settle_committed (p : Prog D S E α) (d : D) (log : List S) (r : Bool) :
    p.committed d (Session.settle p log r).log = p.committed d log := by
  cases p <;> rfl

theorem Session.settle_apart {F : S → Prop} {p : Prog D S E α} {d : D} {log : List S}
    (h : p.Apart F I d log) (r : Bool) : p.Apart F I d (Session.settle p log r).log := by
  cases p <;> exact h

/-- Running alone on rows where foreign statements have been replayed already
commits the same statements, so any serial order commits them owner by owner. -/
theorem serial_eq_replay (hI : ∀ (s : S) d, I d → I (apply s d)) {F : ι → S → Prop}
    {p : ι → Prog D S E α} {c : ι → List S} (hforeign : ∀ i j, i ≠ j → ∀ t ∈ c j, F i t)
    {order : List ι} (hnodup : order.Nodup) {d : D} (hd : I d)
    (hp : ∀ i ∈ order, (p i).Apart (F i) I d [] ∧ (p i).committed d [] = c i) :
    serial p order d = replay (order.flatMap c) d := by
  induction order generalizing d with
  | nil => rfl
  | cons i order ih =>
    obtain ⟨hi, hnd⟩ := List.nodup_cons.mp hnodup
    have hrun : ((p i).run d []).2 = replay (c i) d := by
      rw [Prog.run_snd, (hp i List.mem_cons_self).2]
    have hrest : ∀ j ∈ order, (p j).Apart (F j) I (replay (c i) d) [] ∧
        (p j).committed (replay (c i) d) [] = c j := by
      intro j hj
      have hji : j ≠ i := fun e => hi (e ▸ hj)
      obtain ⟨h₁, h₂⟩ := hp j (List.mem_cons_of_mem i hj)
      obtain ⟨h₃, h₄⟩ := h₁.replay hI (hforeign j i hji) (by simp) hd
      exact ⟨h₃, h₄.trans h₂⟩
    have htail := ih hnd (replay_keeps hI (c i) hd) hrest
    rw [List.flatMap_cons, replay_append, ← htail, ← hrun]
    rfl

namespace Sys

variable [DecidableEq ι]

/-- The committed rows are the replay of a history in which every session still
has to add exactly what is missing of its run alone. -/
structure Merged (F : ι → S → Prop) (I : D → Prop) (p : ι → Prog D S E α) (d₀ : D)
    (s : Sys ι D S E α) (hist : List (ι × S)) : Prop where
  db : s.db = replay (hist.map Prod.snd) d₀
  inv : I s.db
  rest : ∀ i, (hist.filter (·.1 = i)).map Prod.snd ++
    (s.session i).prog.committed s.db (s.session i).log = (p i).committed d₀ []
  apart : ∀ i, (s.session i).prog.Apart (F i) I s.db (s.session i).log
  log : ∀ i, ∀ t ∈ (s.session i).log, ∀ u, F i u → Independent I t u

variable {F : ι → S → Prop} {p : ι → Prog D S E α} {d₀ : D} {s : Sys ι D S E α}
  {hist : List (ι × S)}

theorem Merged.step_local (h : Merged F I p d₀ s hist) {i : ι} {q : Prog D S E α} {log : List S}
    {r : Bool} (hq : q.Apart (F i) I s.db log)
    (hc : q.committed s.db log = (s.session i).prog.committed s.db (s.session i).log)
    (hlog : ∀ t ∈ log, ∀ u, F i u → Independent I t u) :
    Merged F I p d₀ (s.put i s.db (.settle q log r)) hist := by
  refine ⟨h.db, h.inv, ?_, ?_, ?_⟩
  · refine (forall_put s fun j v => (hist.filter (·.1 = j)).map Prod.snd ++
      v.prog.committed s.db v.log = (p j).committed d₀ []).mpr ⟨?_, fun j _ => h.rest j⟩
    rw [Session.settle_prog, Session.settle_committed, hc]
    exact h.rest i
  · refine (forall_put s fun j v => v.prog.Apart (F j) I s.db v.log).mpr
      ⟨?_, fun j _ => h.apart j⟩
    rw [Session.settle_prog]
    exact Session.settle_apart hq r
  · exact (forall_put s fun j v => ∀ t ∈ v.log, ∀ u, F j u → Independent I t u).mpr
      ⟨Session.settle_forall hlog, fun j _ => h.log j⟩

theorem Merged.step_commit (hI : ∀ (s : S) d, I d → I (apply s d))
    (hforeign : ∀ i j, i ≠ j → ∀ t ∈ (p j).committed d₀ [], F i t)
    (h : Merged F I p d₀ s hist) {i : ι} {k : Prog D S E α}
    (hp : (s.session i).prog = .commit k) :
    Merged F I p d₀ (s.put i (replay (s.session i).log s.db) (.settle k [] false))
      (hist ++ (s.session i).log.map fun t => (i, t)) := by
  have hrest := h.rest i
  have hapart := h.apart i
  rw [hp] at hrest hapart
  change k.Apart (F i) I (replay (s.session i).log s.db) [] at hapart
  simp only [Prog.committed] at hrest
  -- to every other session the committed statements are foreign
  have hother : ∀ j, j ≠ i → ∀ t ∈ (s.session i).log, F j t := by
    intro j hji t ht
    apply hforeign j i hji t
    rw [← hrest]
    simp [ht]
  have hseen : ∀ j, j ≠ i →
      (s.session j).prog.Apart (F j) I (replay (s.session i).log s.db) (s.session j).log ∧
        (s.session j).prog.committed (replay (s.session i).log s.db) (s.session j).log =
          (s.session j).prog.committed s.db (s.session j).log := fun j hji =>
    (h.apart j).replay hI (hother j hji) (h.log j) h.inv
  refine ⟨?_, replay_keeps hI _ h.inv, ?_, ?_, ?_⟩
  · rw [put_db, h.db, List.map_append, replay_append]
    simp [Function.comp_def]
  · refine (forall_put s fun j v =>
      ((hist ++ (s.session i).log.map fun t => (i, t)).filter (·.1 = j)).map Prod.snd ++
        v.prog.committed (replay (s.session i).log s.db) v.log = (p j).committed d₀ []).mpr
      ⟨?_, fun j hji => ?_⟩
    · rw [Session.settle_prog, Session.settle_committed, ← hrest]
      simp [List.filter_append, List.filter_map, Function.comp_def]
    · rw [(hseen j hji).2, ← h.rest j]
      simp [List.filter_append, List.filter_map, Function.comp_def, Ne.symm hji]
  · refine (forall_put s fun j v =>
      v.prog.Apart (F j) I (replay (s.session i).log s.db) v.log).mpr
      ⟨?_, fun j hji => (hseen j hji).1⟩
    rw [Session.settle_prog]
    exact Session.settle_apart hapart false
  · exact (forall_put s fun j v => ∀ t ∈ v.log, ∀ u, F j u → Independent I t u).mpr
      ⟨by simp, fun j _ => h.log j⟩

theorem Merged.step [DecidableEq K] (hI : ∀ (s : S) d, I d → I (apply s d))
    (hforeign : ∀ i j, i ≠ j → ∀ t ∈ (p j).committed d₀ [], F i t)
    (h : Merged F I p d₀ s hist) {i : ι} {s' : Sys ι D S E α} (hs : s.Step i .advance s') :
    ∃ hist', Merged F I p d₀ s' hist' := by
  have hapart := h.apart i
  cases hs with
  | select hp =>
    rw [hp] at hapart
    exact ⟨hist, h.step_local hapart.2 (by rw [hp]; rfl) (h.log i)⟩
  | flush hp hfree hd =>
    rw [hp] at hapart
    refine ⟨hist, h.step_local (hapart.2.1 _ hd) (by rw [hp]; simp [Prog.committed, hd]) ?_⟩
    exact List.forall_mem_append.mpr ⟨h.log i, List.forall_mem_singleton.mpr hapart.1⟩
  | refuse hp hfree hd =>
    rw [hp] at hapart
    exact ⟨hist, h.step_local (hapart.2.2 _ hd) (by rw [hp]; simp [Prog.committed, hd]) (by simp)⟩
  | commit hp => exact ⟨_, h.step_commit hI hforeign hp⟩
  | close hp =>
    rw [hp] at hapart
    exact ⟨hist, h.step_local hapart (by rw [hp]; rfl) (by simp)⟩

theorem merged_start (hd₀ : I d₀) (hp : ∀ i, (p i).Apart (F i) I d₀ []) :
    Merged F I p d₀ (start d₀ p) [] where
  db := rfl
  inv := hd₀
  rest i := by simp [start]
  apart i := by simpa [start] using Session.settle_apart (hp i) false
  log i := by simp [start]

variable [Fintype ι] [DecidableEq K]

/-- Coroutines that keep apart end, however their actions interleave, as after
executing them one at a time in any order. -/
theorem eq_serial_of_apart (hI : ∀ (s : S) d, I d → I (apply s d)) (hd₀ : I d₀)
    (hp : ∀ i, (p i).Apart (F i) I d₀ [])
    (hforeign : ∀ i j, i ≠ j → ∀ t ∈ (p j).committed d₀ [], F i t)
    (hr : Reach (fun _ _ a => a = .advance) (start d₀ p) s)
    (hdone : ∀ i, (s.session i).prog.Done) {order : List ι} (hnodup : order.Nodup)
    (hall : ∀ i, i ∈ order) : s.db = serial p order d₀ := by
  obtain ⟨hist, h⟩ : ∃ hist, Merged F I p d₀ s hist := by
    refine hr.invariant (P := fun s => ∃ hist, Merged F I p d₀ s hist)
      ⟨[], merged_start hd₀ hp⟩ ?_
    rintro s i a s' ⟨hist, h⟩ rfl hs
    exact h.step hI hforeign hs
  have hblock : ∀ i, (hist.filter (·.1 = i)).map Prod.snd = (p i).committed d₀ [] := by
    intro i
    rw [← h.rest i]
    obtain ⟨a, ha⟩ | ⟨e, he⟩ := hdone i
    · simp [ha, Prog.committed]
    · simp [he]
  have hmem : ∀ x ∈ hist, x.2 ∈ (p x.1).committed d₀ [] := by
    intro x hx
    rw [← hblock x.1]
    exact List.mem_map_of_mem (List.mem_filter.mpr ⟨hx, by simp⟩)
  have hind : ∀ x ∈ hist, ∀ y ∈ hist, x.1 ≠ y.1 → Independent I x.2 y.2 := by
    intro x hx y hy hxy
    exact (hp x.1).independent (by simp) x.2 (hmem x hx) y.2
      (hforeign x.1 y.1 hxy y.2 (hmem y hy))
  rw [h.db, replay_sort_all hI hnodup (fun x _ => hall x.1) hind hd₀,
    serial_eq_replay hI hforeign hnodup hd₀ fun i _ => ⟨hp i, rfl⟩]
  simp only [hblock]

end Sys

end ClickNBack.ReadCommitted
