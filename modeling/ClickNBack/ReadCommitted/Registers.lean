import ClickNBack.ReadCommitted.Guarantees
import ClickNBack.ReadCommitted.Refusals

namespace ClickNBack.ReadCommitted

open Function

variable {ι D S E K κ V α β : Type} [DecidableEq κ]

def setAll (key : ι → κ) (value : ι → V) (order : List ι) (m : κ → V) : κ → V :=
  order.foldl (fun m i => update m (key i) (value i)) m

section

variable (key : ι → κ) (value : ι → V)

theorem setAll_snoc (order : List ι) (i : ι) (m : κ → V) :
    setAll key value (order ++ [i]) m = update (setAll key value order m) (key i) (value i) := by
  simp only [setAll, List.foldl_append, List.foldl_cons, List.foldl_nil]

theorem setAll_filter {P : ι → Prop} [DecidablePred P] {order : List ι} {m : κ → V}
    (h : ∀ pre i post, order = pre ++ i :: post →
      P i ∨ setAll key value pre m (key i) = value i) :
    setAll key value (order.filter P) m = setAll key value order m := by
  induction order generalizing m with
  | nil => rfl
  | cons i order ih =>
    have hrest : setAll key value (order.filter P) (update m (key i) (value i)) =
        setAll key value order (update m (key i) (value i)) :=
      ih fun pre j post he => h (i :: pre) j post (congrArg (i :: ·) he)
    by_cases hi : P i
    · rw [List.filter_cons_of_pos (by simpa using hi)]
      exact hrest
    · have hsame : m (key i) = value i := (h [] i order rfl).resolve_left hi
      rw [← hsame, update_eq_self] at hrest
      rw [List.filter_cons_of_neg (by simpa using hi), hrest]
      change _ = setAll key value order (update m (key i) (value i))
      rw [← hsame, update_eq_self]

end

section

variable [Statement S D E K] (obs : D → κ → V) (k : κ) (v : V)

def Invisible (s : S) : Prop := ∀ d d', Statement.exec s d = .ok d' → obs d' = obs d

def SetsTo (s : S) : Prop :=
  ∀ d d', Statement.exec s d = .ok d' → obs d' = update (obs d) k v

variable {obs k v} in
/-- Statements that set a register leave it, or it has been set in the end. -/
theorem obs_replay_of_setsTo {log : List S} {d : D}
    (hlog : ∀ s ∈ log, SetsTo obs k v s ∨ Invisible obs s) (hruns : Runs log d) :
    obs (replay log d) = obs d ∨ obs (replay log d) = update (obs d) k v := by
  induction log generalizing d with
  | nil => exact Or.inl rfl
  | cons s log ih =>
    obtain ⟨d', hexec, hrest⟩ := hruns
    have hafter := ih (fun t ht => hlog t (List.mem_cons_of_mem s ht)) hrest
    rw [replay_cons, apply_of_ok hexec]
    obtain hs | hs := hlog s List.mem_cons_self
    · rw [hs d d' hexec, update_idem, or_self] at hafter
      exact Or.inr hafter
    · rw [hs d d' hexec] at hafter
      exact hafter

omit [DecidableEq κ] in
theorem obs_replay_of_invisible {log : List S} {d : D} {m : κ → V} {s : S}
    (hs : Invisible obs s) (hlog : Runs log d → obs (replay log d) = m)
    (hruns : Runs (log ++ [s]) d) : obs (replay (log ++ [s]) d) = m := by
  obtain ⟨hl, d', hd, -⟩ := runs_append.mp hruns
  rw [replay_snoc hd, hs _ _ hd]
  exact hlog hl

namespace Prog

def Passes : Prog D S E α → Prop
  | .ret _ => True
  | .raise _ => True
  | .select f => ∀ d, (f d).Passes
  | .exec s f => Invisible obs s ∧ (f (.ok ())).Passes ∧ ∀ e, ∃ e', f (.error e) = .raise e'
  | .commit f => ∃ a, f = .ret a
  | .close _ => False

/-- The coroutine has flushed its value; it commits once and returns, or raises. -/
def Holds : Prog D S E α → Prop
  | .ret _ => False
  | .raise _ => True
  | .select f => ∀ d, (f d).Holds
  | .exec s f => Invisible obs s ∧ (f (.ok ())).Holds ∧ ∀ e, ∃ e', f (.error e) = .raise e'
  | .commit f => ∃ a, f = .ret a
  | .close _ => False

/-- The coroutine sets one register: it reads that its value is there, or flushes it. -/
def Sets : Prog D S E α → Prop
  | .ret _ => False
  | .raise _ => True
  | .select f => ∀ d, (f d).Sets ∨ obs d k = v ∧ (f d).Passes obs
  | .exec s f => SetsTo obs k v s ∧ (f (.ok ())).Holds obs ∧ ∀ e, ∃ e', f (.error e) = .raise e'
  | .commit _ => False
  | .close _ => False

variable {obs k v}

theorem sets_lift_bind {x : Except E α} {g : α → Prog D S E β}
    (h : ∀ a, x = .ok a → (g a).Sets obs k v) : (lift x >>= g).Sets obs k v := by
  cases x with
  | error e => trivial
  | ok a => exact h a rfl

theorem sets_query_bind {f : D → α} {g : α → Prog D S E β}
    (h : ∀ d, (g (f d)).Sets obs k v ∨ obs d k = v ∧ (g (f d)).Passes obs) :
    (query f >>= g).Sets obs k v := h

omit [DecidableEq κ] in
theorem Passes.emits {P : S → Prop} (hP : ∀ s, Invisible obs s → P s) {p : Prog D S E α}
    (h : p.Passes obs) : p.Emits P := by
  induction p with
  | ret a | raise e => trivial
  | select f ih => exact fun d => ih _ (h d)
  | exec s f ih =>
    refine ⟨hP s h.1, fun r => ?_⟩
    cases r with
    | ok _ => exact ih _ h.2.1
    | error e =>
      obtain ⟨e', he'⟩ := h.2.2 e
      rw [he']
      trivial
  | commit f ih =>
    obtain ⟨a, rfl⟩ := h
    trivial
  | close f ih => exact h.elim

omit [DecidableEq κ] in
theorem Holds.passes {p : Prog D S E α} (h : p.Holds obs) : p.Passes obs := by
  induction p with
  | ret a => exact h.elim
  | raise e => trivial
  | select f ih => exact fun d => ih _ (h d)
  | exec s f ih => exact ⟨h.1, ih _ h.2.1, h.2.2⟩
  | commit f ih => exact h
  | close f ih => exact h.elim

theorem Sets.emits {p : Prog D S E α} (h : p.Sets obs k v) :
    p.Emits fun s => SetsTo obs k v s ∨ Invisible obs s := by
  have hP : ∀ s : S, Invisible obs s → SetsTo obs k v s ∨ Invisible obs s := fun _ => Or.inr
  induction p with
  | ret a => exact h.elim
  | raise e => trivial
  | select f ih =>
    intro d
    obtain hsets | ⟨-, hpasses⟩ := h d
    · exact ih _ hsets
    · exact hpasses.emits hP
  | exec s f ih =>
    refine ⟨Or.inl h.1, fun r => ?_⟩
    cases r with
    | ok _ => exact h.2.1.passes.emits hP
    | error e =>
      obtain ⟨e', he'⟩ := h.2.2 e
      rw [he']
      trivial
  | commit f ih => exact h.elim
  | close f ih => exact h.elim

end Prog

end

namespace Sys

variable [Statement S D E K]

/-- The settings of `order` have taken effect, one after another; of those that have
not returned, each has found its value in place. -/
structure Placed (obs : D → κ → V) (key : ι → κ) (value : ι → V) (d₀ : D)
    (s : Sys ι D S E α) (order : List ι) : Prop where
  nodup : order.Nodup
  db : obs s.db = setAll key value order (obs d₀)
  waiting : ∀ i, i ∉ order →
    ((s.session i).prog.Sets obs (key i) (value i) ∧ (s.session i).log = []) ∨
    ((s.session i).prog.Holds obs ∧ ∀ d, Runs (s.session i).log d →
      obs (replay (s.session i).log d) = update (obs d) (key i) (value i))
  passed : ∀ i, i ∈ order → (s.session i).prog.Passes obs ∧
    (∀ d, Runs (s.session i).log d → obs (replay (s.session i).log d) = obs d) ∧
    ((s.session i).prog.Done ∨ (s.session i).reading = true)
  idle : ∀ pre i post, order = pre ++ i :: post → (∃ a, (s.session i).prog = .ret a) ∨
    setAll key value pre (obs d₀) (key i) = value i

variable [DecidableEq ι] {obs : D → κ → V} {key : ι → κ} {value : ι → V} {d₀ : D}
  {s s' : Sys ι D S E α} {order : List ι}

omit [Statement S D E K] [DecidableEq ι] in
theorem settle_begun {q : Prog D S E α} {log : List S} {r : Bool} (h : q.Done ∨ r = true) :
    q.Done ∨ (Session.settle q log r).reading = true := by
  by_cases hdone : q.Done
  · exact Or.inl hdone
  · rw [Session.settle_of_not_done hdone]
    exact h

theorem Placed.step_waiting (h : Placed obs key value d₀ s order) {i : ι} (hi : i ∉ order)
    {q : Prog D S E α} {log : List S} {r : Bool}
    (hq : (q.Sets obs (key i) (value i) ∧ log = []) ∨ (q.Holds obs ∧ ∀ d, Runs log d →
      obs (replay log d) = update (obs d) (key i) (value i))) :
    Placed obs key value d₀ (s.put i s.db (.settle q log r)) order := by
  have hne : ∀ {j}, j ∈ order → j ≠ i := fun hj e => hi (e ▸ hj)
  refine ⟨h.nodup, h.db, ?_, fun j hj => ?_, fun pre j post he => ?_⟩
  · refine (forall_put s fun j x => j ∉ order →
      (x.prog.Sets obs (key j) (value j) ∧ x.log = []) ∨ (x.prog.Holds obs ∧ ∀ d, Runs x.log d →
        obs (replay x.log d) = update (obs d) (key j) (value j))).mpr
      ⟨fun _ => ?_, fun j _ => h.waiting j⟩
    by_cases hdone : q.Done
    · obtain ⟨a, rfl⟩ | ⟨e, rfl⟩ := hdone
      · obtain hq | hq := hq <;> exact hq.1.elim
      · exact Or.inl ⟨trivial, rfl⟩
    · rw [Session.settle_of_not_done hdone]
      exact hq
  · rw [put_of_ne _ _ _ (hne hj)]
    exact h.passed j hj
  · rw [put_of_ne _ _ _ (hne (he ▸ by simp))]
    exact h.idle pre j post he

theorem Placed.step_place (h : Placed obs key value d₀ s order) {i : ι} (hi : i ∉ order)
    {d : D} {q : Prog D S E α} {r : Bool} (hd : obs d = update (obs s.db) (key i) (value i))
    (hq : q.Passes obs) (hr : q.Done ∨ r = true)
    (hidle : (∃ a, q = .ret a) ∨ obs s.db (key i) = value i) :
    Placed obs key value d₀ (s.put i d (.settle q [] r)) (order ++ [i]) := by
  have hne : ∀ {j}, j ∈ order → j ≠ i := fun hj e => hi (e ▸ hj)
  refine ⟨?_, ?_, fun j hj => ?_, ?_, fun pre j post he => ?_⟩
  · rw [List.nodup_append]
    refine ⟨h.nodup, by simp, fun a ha b hb => ?_⟩
    rw [List.mem_singleton.mp hb]
    exact hne ha
  · rw [put_db, setAll_snoc, ← h.db, hd]
  · simp only [List.mem_append, List.mem_singleton, not_or] at hj
    rw [put_of_ne _ _ _ hj.2]
    exact h.waiting j hj.1
  · refine (forall_put s fun j x => j ∈ order ++ [i] → x.prog.Passes obs ∧
      (∀ d, Runs x.log d → obs (replay x.log d) = obs d) ∧ (x.prog.Done ∨ x.reading = true)).mpr
      ⟨fun _ => ?_, fun j hj hmem => h.passed j (by simpa [hj] using hmem)⟩
    rw [Session.settle_prog, Session.settle_nil]
    exact ⟨hq, fun _ _ => rfl, settle_begun hr⟩
  · obtain rfl | ⟨post, x, rfl⟩ := post.eq_nil_or_concat
    · obtain ⟨rfl, hlast⟩ := List.append_inj' he rfl
      obtain rfl := List.singleton_inj.mp hlast
      rw [put_self, Session.settle_prog, ← h.db]
      exact hidle
    · rw [List.concat_eq_append, ← List.cons_append, ← List.append_assoc] at he
      obtain ⟨hpre, -⟩ := List.append_inj' he rfl
      rw [put_of_ne _ _ _ (hne (hpre ▸ by simp))]
      exact h.idle pre j post hpre

theorem Placed.step_passed (h : Placed obs key value d₀ s order) {i : ι} (hi : i ∈ order)
    (hrun : ¬ (s.session i).prog.Done) {d : D} {q : Prog D S E α} {log : List S} {r : Bool}
    (hd : obs d = obs s.db) (hq : q.Passes obs)
    (hlog : ∀ d, Runs log d → obs (replay log d) = obs d) (hr : q.Done ∨ r = true) :
    Placed obs key value d₀ (s.put i d (.settle q log r)) order := by
  refine ⟨h.nodup, hd.trans h.db, fun j hj => ?_, ?_, fun pre j post he => ?_⟩
  · have hne : j ≠ i := fun e => hj (e ▸ hi)
    rw [put_of_ne _ _ _ hne]
    exact h.waiting j hj
  · refine (forall_put s fun j x => j ∈ order → x.prog.Passes obs ∧
      (∀ d, Runs x.log d → obs (replay x.log d) = obs d) ∧ (x.prog.Done ∨ x.reading = true)).mpr
      ⟨fun _ => ?_, fun j _ => h.passed j⟩
    rw [Session.settle_prog]
    refine ⟨hq, ?_, by simpa using settle_begun hr⟩
    obtain he | he := Session.settle_log q log r <;> rw [he]
    · exact fun _ _ => rfl
    · exact hlog
  · obtain ⟨a, ha⟩ | hidle := h.idle pre j post he
    · have hne : j ≠ i := fun e => hrun (Or.inl ⟨a, e ▸ ha⟩)
      rw [put_of_ne _ _ _ hne]
      exact Or.inl ⟨a, ha⟩
    · exact Or.inr hidle

theorem Placed.step (h : Placed obs key value d₀ s order)
    (hruns : ∀ i, Runs (s.session i).log s.db) {i : ι} {a : Action E} (hs : s.Step i a s') :
    ∃ new, Placed obs key value d₀ s' (order ++ new) := by
  have hrun := hs.not_done
  by_cases hi : i ∈ order
  · refine ⟨[], ?_⟩
    rw [List.append_nil]
    obtain ⟨hpasses, hlog, hbegun⟩ := h.passed i hi
    have hreading := hbegun.resolve_left hrun
    cases hs with
    | fail e hp => exact h.step_passed hi hrun rfl trivial (by simp) (Or.inl (Or.inr ⟨e, rfl⟩))
    | select hp =>
      rw [hp] at hpasses
      exact h.step_passed hi hrun rfl (hpasses _) hlog (Or.inr rfl)
    | flush hp hfree hd =>
      rw [hp] at hpasses
      exact h.step_passed hi hrun rfl hpasses.2.1
        (fun d => obs_replay_of_invisible obs hpasses.1 (hlog d)) (Or.inr hreading)
    | @refuse st k e hp hfree hd =>
      rw [hp] at hpasses
      obtain ⟨e', he'⟩ := hpasses.2.2 e
      rw [he']
      exact h.step_passed hi hrun rfl trivial (by simp) (Or.inl (Or.inr ⟨e', rfl⟩))
    | commit hp =>
      rw [hp] at hpasses
      obtain ⟨a, rfl⟩ := hpasses
      exact h.step_passed hi hrun (hlog _ (hruns i)) trivial (by simp) (Or.inl (Or.inl ⟨a, rfl⟩))
    | close hp =>
      rw [hp] at hpasses
      exact hpasses.elim
  · have hstay : ∀ {q : Prog D S E α} {log : List S} {r : Bool},
        ((q.Sets obs (key i) (value i) ∧ log = []) ∨ (q.Holds obs ∧ ∀ d, Runs log d →
          obs (replay log d) = update (obs d) (key i) (value i))) →
        ∃ new, Placed obs key value d₀ (s.put i s.db (.settle q log r)) (order ++ new) := by
      intro q log r hq
      exact ⟨[], by rw [List.append_nil]; exact h.step_waiting hi hq⟩
    obtain ⟨hsets, hlog⟩ | ⟨hholds, hlog⟩ := h.waiting i hi
    · cases hs with
      | fail e hp => exact hstay (Or.inl ⟨trivial, rfl⟩)
      | select hp =>
        rw [hp] at hsets
        rw [hlog, replay_nil]
        obtain hsets | ⟨hvalue, hpasses⟩ := hsets s.db
        · exact hstay (Or.inl ⟨hsets, rfl⟩)
        · refine ⟨[i], h.step_place hi ?_ hpasses (Or.inr rfl) (Or.inr hvalue)⟩
          rw [← hvalue, update_eq_self]
      | flush hp hfree hd =>
        rw [hp] at hsets
        rw [hlog]
        refine hstay (Or.inr ⟨hsets.2.1, ?_⟩)
        rintro d ⟨d', hd', -⟩
        rw [List.nil_append, replay_cons, replay_nil, apply_of_ok hd', hsets.1 d d' hd']
      | @refuse st k e hp hfree hd =>
        rw [hp] at hsets
        obtain ⟨e', he'⟩ := hsets.2.2 e
        rw [he']
        exact hstay (Or.inl ⟨trivial, rfl⟩)
      | commit hp | close hp =>
        rw [hp] at hsets
        exact hsets.elim
    · cases hs with
      | fail e hp => exact hstay (Or.inl ⟨trivial, rfl⟩)
      | select hp =>
        rw [hp] at hholds
        exact hstay (Or.inr ⟨hholds _, hlog⟩)
      | flush hp hfree hd =>
        rw [hp] at hholds
        exact hstay (Or.inr ⟨hholds.2.1, fun d => obs_replay_of_invisible obs hholds.1 (hlog d)⟩)
      | @refuse st k e hp hfree hd =>
        rw [hp] at hholds
        obtain ⟨e', he'⟩ := hholds.2.2 e
        rw [he']
        exact hstay (Or.inl ⟨trivial, rfl⟩)
      | commit hp =>
        rw [hp] at hholds
        obtain ⟨a, rfl⟩ := hholds
        exact ⟨[i], h.step_place hi (hlog _ (hruns i)) trivial (Or.inl (Or.inl ⟨a, rfl⟩))
          (Or.inl ⟨a, rfl⟩)⟩
      | close hp =>
        rw [hp] at hholds
        exact hholds.elim

omit [DecidableEq ι] in
theorem placed_start {p : ι → Prog D S E α} (hp : ∀ i, (p i).Sets obs (key i) (value i)) :
    Placed obs key value d₀ (start d₀ p) [] := by
  refine ⟨List.nodup_nil, rfl, fun i _ => Or.inl ⟨?_, start_log d₀ p i⟩, by simp, by simp⟩
  simpa [start] using hp i

omit [DecidableEq ι] in
theorem Placed.mem_of_returned (h : Placed obs key value d₀ s order) {i : ι} {a : α}
    (ha : (s.session i).prog = .ret a) : i ∈ order := by
  by_contra hi
  have hwaiting := h.waiting i hi
  rw [ha] at hwaiting
  obtain hw | hw := hwaiting <;> exact hw.1

omit [DecidableEq ι] in
theorem Placed.not_mem_of_idle (h : Placed obs key value d₀ s order) {i : ι}
    (hrun : ¬ (s.session i).prog.Done) (hidle : (s.session i).reading = false) : i ∉ order := by
  intro hi
  obtain ⟨-, -, hdone | hreading⟩ := h.passed i hi
  · exact hrun hdone
  · rw [hidle] at hreading
    cases hreading

variable [Fintype ι] [DecidableEq K]

/-- The places only grow along an interleaving, and whoever has returned stays so. -/
theorem placed_of_path {keys needs : S → List K} {taken : D → K → Prop}
    (hkeys : UniqueKeys keys needs taken) {p : ι → Prog D S E α}
    (hp : ∀ i, (p i).Sets obs (key i) (value i)) {C : Sys ι D S E α → ι → Action E → Prop}
    {past : List (Sys ι D S E α)} (h : Path C (start d₀ p) past s) :
    ∃ order, Placed obs key value d₀ s order ∧ ∀ t ∈ s :: past, ∃ placed new,
      order = placed ++ new ∧ Placed obs key value d₀ t placed ∧
      ∀ i a, (t.session i).prog = .ret a → (s.session i).prog = .ret a := by
  induction h with
  | start =>
    refine ⟨[], placed_start hp, fun t ht => ⟨[], [], rfl, ?_⟩⟩
    obtain rfl := List.mem_singleton.mp ht
    exact ⟨placed_start hp, fun _ _ ha => ha⟩
  | @step past s s' i b hpath _ hn ih =>
    obtain ⟨order, hplaced, hpast⟩ := ih
    have hs := step_of_next hn
    obtain ⟨new, hnew⟩ := hplaced.step (runs_of_reach hkeys hpath.reach) hs
    have hstays : ∀ j a, (s.session j).prog = .ret a → (s'.session j).prog = .ret a := by
      intro j a ha
      have hne : j ≠ i := fun he => hs.not_done (Or.inl ⟨a, he ▸ ha⟩)
      rw [hs.others.2 j hne]
      exact ha
    refine ⟨order ++ new, hnew, fun t ht => ?_⟩
    obtain rfl | ht := List.mem_cons.mp ht
    · exact ⟨order ++ new, [], (List.append_nil _).symm, hnew, fun _ _ ha => ha⟩
    · obtain ⟨placed, new', rfl, hplaced', hreturned⟩ := hpast t ht
      exact ⟨placed, new' ++ new, List.append_assoc _ _ _, hplaced',
        fun j a ha => hstays j a (hreturned j a ha)⟩

/-- Concurrent settings of registers are linearizable: there is one order of those that
have returned in the end of which every state of the interleaving shows a beginning, with
all that have returned by then and none that has not begun. -/
theorem linearizable_of_sets {keys needs : S → List K} {taken : D → K → Prop}
    (hkeys : UniqueKeys keys needs taken) {p : ι → Prog D S E α}
    (hp : ∀ i, (p i).Sets obs (key i) (value i)) {C : Sys ι D S E α → ι → Action E → Prop}
    {past : List (Sys ι D S E α)} (h : Path C (start d₀ p) past s) :
    ∃ order : List ι, order.Nodup ∧ (∀ i, i ∈ order ↔ ∃ a, (s.session i).prog = .ret a) ∧
      ∀ t ∈ s :: past, ∃ before after, order = before ++ after ∧
        (∀ i a, (t.session i).prog = .ret a → i ∈ before) ∧
        (∀ i, ¬ (t.session i).prog.Done → (t.session i).reading = false → i ∉ before) ∧
        obs t.db = setAll key value before (obs d₀) := by
  classical
  obtain ⟨order, hplaced, hpast⟩ := placed_of_path hkeys hp h
  -- those that have found their values in place and have not returned change nothing
  refine ⟨order.filter fun i => ∃ a, (s.session i).prog = .ret a, hplaced.nodup.filter _,
    fun i => ?_, fun t ht => ?_⟩
  · rw [List.mem_filter, decide_eq_true_eq]
    refine ⟨fun hi => hi.2, fun hi => ⟨?_, hi⟩⟩
    obtain ⟨a, ha⟩ := hi
    exact hplaced.mem_of_returned ha
  · obtain ⟨placed, new, rfl, hplaced', hreturned⟩ := hpast t ht
    refine ⟨placed.filter fun i => ∃ a, (s.session i).prog = .ret a,
      new.filter fun i => ∃ a, (s.session i).prog = .ret a, List.filter_append _ _,
      fun i a ha => ?_, fun i hrun hidle hi => ?_, ?_⟩
    · rw [List.mem_filter, decide_eq_true_eq]
      exact ⟨hplaced'.mem_of_returned ha, a, hreturned i a ha⟩
    · exact hplaced'.not_mem_of_idle hrun hidle (List.mem_filter.mp hi).1
    · rw [hplaced'.db]
      refine (setAll_filter key value fun pre i post he => ?_).symm
      refine hplaced.idle pre i (post ++ new) ?_
      rw [he, List.append_assoc, List.cons_append]

end Sys

end ClickNBack.ReadCommitted
