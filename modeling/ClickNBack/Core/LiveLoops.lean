import ClickNBack.Core.PeriodicTasks
import ClickNBack.Transition.Runs

namespace ClickNBack.Core

open Transition

variable {T Seconds E : Type}

/-- Neither cancelled nor ended by an exception. -/
def LoopState.isLive : LoopState E → Bool
  | .invoking | .sleeping => true
  | .raised _ | .cancelled => false

namespace LoopTask

def Live (t : LoopTask T Seconds E) : Prop := t.state.isLive = true

instance (t : LoopTask T Seconds E) : Decidable t.Live :=
  inferInstanceAs (Decidable (t.state.isLive = true))

def invoked (outcome : Except E Unit) (t : LoopTask T Seconds E) : LoopTask T Seconds E :=
  match t.state with
  | .invoking => t.afterInvocation outcome
  | _ => t

def slept (t : LoopTask T Seconds E) : LoopTask T Seconds E :=
  match t.state with
  | .sleeping => t.afterSleep
  | _ => t

section

variable {t : LoopTask T Seconds E}

theorem not_live_cancel : ¬ t.cancel.Live := by
  rw [Live, cancel]
  cases t.state <;> simp [LoopState.isLive]

theorem invoked_name (outcome : Except E Unit) : (t.invoked outcome).name = t.name := by
  rw [invoked]
  split <;> rfl

theorem slept_name : t.slept.name = t.name := by
  rw [slept]
  split <;> rfl

theorem Live.of_invoked {outcome : Except E Unit} (h : (t.invoked outcome).Live) : t.Live := by
  rw [invoked] at h
  split at h
  · rename_i hstate
    simp [Live, hstate, LoopState.isLive]
  · exact h

theorem Live.of_slept (h : t.slept.Live) : t.Live := by
  rw [slept] at h
  split at h
  · rename_i hstate
    simp [Live, hstate, LoopState.isLive]
  · exact h

end

end LoopTask

namespace InMemoryTaskScheduler

/-- One action; a call that raises, and a progress that no loop can make, leave the
scheduler as it is. -/
def exec (a : Action T Seconds E) (s : InMemoryTaskScheduler T Seconds E) :
    InMemoryTaskScheduler T Seconds E :=
  match a with
  | .schedule name task intervalSeconds => s.schedule name task intervalSeconds
  | .cancel name =>
    match s.cancel name with
    | .ok s' => s'
    | .error _ => s
  | .start => s.start
  | .stop => s.stop
  | .invoked n outcome => { s with tasks := s.tasks.modify n (LoopTask.invoked outcome) }
  | .slept n => { s with tasks := s.tasks.modify n LoopTask.slept }

variable {s s' : InMemoryTaskScheduler T Seconds E} {n : Nat} {t : LoopTask T Seconds E}

theorem getElem?_modify_eq_some {f : LoopTask T Seconds E → LoopTask T Seconds E}
    {tasks : List (LoopTask T Seconds E)} {m : Nat} :
    (tasks.modify m f)[n]? = some t ↔ ∃ u, tasks[n]? = some u ∧ (if m = n then f u else u) = t := by
  rw [List.getElem?_modify]
  exact Option.map_eq_some_iff

theorem modify_eq_set {f : LoopTask T Seconds E → LoopTask T Seconds E}
    (ht : s.tasks[n]? = some t) : s.tasks.modify n f = s.tasks.set n (f t) := by
  have : Inhabited (LoopTask T Seconds E) := ⟨t⟩
  rw [List.modify_eq_set, ht]
  rfl

theorem exec_of_step {ends : T → Except E Unit → Prop} {a : Action T Seconds E}
    (hs : Step ends s a s') : exec a s = s' := by
  cases hs with
  | schedule | start | stop => rfl
  | cancel hc => simp only [exec, hc]
  | invoked ht hstate hends => simp only [exec, modify_eq_set ht, LoopTask.invoked, hstate]
  | slept ht hstate => simp only [exec, modify_eq_set ht, LoopTask.slept, hstate]

/-- Each live loop is the one that is held under its name, and the name is registered. -/
def Held (s : InMemoryTaskScheduler T Seconds E) : Prop :=
  ∀ n t, s.tasks[n]? = some t → t.Live →
    s.running.lookup t.name = some n ∧ t.name ∈ s.registered

theorem createTasks_registered (items : List (Sigma fun _ : String => T × Seconds))
    (s : InMemoryTaskScheduler T Seconds E) :
    (items.foldl (fun s item => s.createTask item.1 item.2.1 item.2.2) s).registered =
      s.registered := by
  induction items generalizing s with
  | nil => rfl
  | cons item items ih => exact ih _

theorem createTasks_loops (items : List (Sigma fun _ : String => T × Seconds))
    (hnodup : items.NodupKeys) (s : InMemoryTaskScheduler T Seconds E) :
    let s' := items.foldl (fun s item => s.createTask item.1 item.2.1 item.2.2) s
    (∀ name ∈ items.keys, ∃ n, s.tasks.length ≤ n ∧ s'.running.lookup name = some n) ∧
      ∀ n t, s'.tasks[n]? = some t → s.tasks[n]? = some t ∨
        t.name ∈ items.keys ∧ s'.running.lookup t.name = some n := by
  induction items generalizing s with
  | nil => exact ⟨fun _ h => (by cases h), fun n t ht => Or.inl ht⟩
  | cons item items ih =>
    obtain ⟨hfresh, hnodup⟩ := List.nodupKeys_cons.mp hnodup
    obtain ⟨hstarted, hloops⟩ := ih hnodup (s.createTask item.1 item.2.1 item.2.2)
    have hitem : (items.foldl (fun s item => s.createTask item.1 item.2.1 item.2.2)
        (s.createTask item.1 item.2.1 item.2.2)).running.lookup item.1 = some s.tasks.length :=
      ((createTasks_spec items _).2.2.1 item.1 hfresh).trans (AList.lookup_insert _)
    constructor
    · intro name hname
      obtain rfl | hname := List.mem_cons.mp hname
      · exact ⟨_, Nat.le_refl _, hitem⟩
      · obtain ⟨n, hn, hlookup⟩ := hstarted name hname
        refine ⟨n, Nat.le_trans ?_ hn, hlookup⟩
        simp [InMemoryTaskScheduler.createTask]
    · intro n t ht
      obtain ht | ⟨hname, hlookup⟩ := hloops n t ht
      · by_cases hn : n < s.tasks.length
        · exact Or.inl ((List.getElem?_append_left hn).symm.trans ht)
        · change (s.tasks ++ [_])[n]? = some t at ht
          have hlt := (List.getElem?_eq_some_iff.mp ht).1
          obtain rfl : n = s.tasks.length := by
            simp only [List.length_append, List.length_singleton] at hlt
            omega
          rw [List.getElem?_concat_length] at ht
          cases ht
          exact Or.inr ⟨List.mem_cons_self, hitem⟩
      · exact Or.inr ⟨List.mem_cons_of_mem _ hname, hlookup⟩

theorem cancelAll_live (items : List (Sigma fun _ : String => Nat))
    (tasks : List (LoopTask T Seconds E))
    (ht : (items.foldl (fun tasks item => tasks.modify item.2 LoopTask.cancel) tasks)[n]? = some t)
    (hlive : t.Live) : tasks[n]? = some t ∧ ∀ name, ⟨name, n⟩ ∉ items := by
  induction items generalizing tasks with
  | nil => exact ⟨ht, fun _ h => by cases h⟩
  | cons item items ih =>
    obtain ⟨ht, hitems⟩ := ih _ ht
    obtain ⟨u, hu, rfl⟩ := getElem?_modify_eq_some.mp ht
    by_cases hn : item.2 = n
    · rw [if_pos hn] at hlive
      exact absurd hlive LoopTask.not_live_cancel
    · rw [if_neg hn]
      refine ⟨hu, fun name hmem => ?_⟩
      obtain rfl | hmem := List.mem_cons.mp hmem
      · exact hn rfl
      · exact hitems name hmem

theorem stop_not_live (h : s.Held) (ht : s.stop.tasks[n]? = some t) : ¬ t.Live := by
  intro hlive
  obtain ⟨ht, hitems⟩ := cancelAll_live _ _ ht hlive
  exact hitems t.name (AList.mem_lookup_iff.mp (h n t ht hlive).1)

theorem cancel_live {name : String} (h : s.Held) (hc : s.cancel name = .ok s')
    (ht : s'.tasks[n]? = some t) (hlive : t.Live) :
    s.tasks[n]? = some t ∧ t.name ≠ name ∧
      s'.running.lookup t.name = s.running.lookup t.name := by
  obtain ⟨hnone, rfl⟩ | ⟨m, hm, rfl⟩ := cancel_eq_ok hc
  · refine ⟨ht, ?_, rfl⟩
    rintro rfl
    rw [(h n t ht hlive).1] at hnone
    cases hnone
  · obtain ⟨u, hu, rfl⟩ := getElem?_modify_eq_some.mp ht
    by_cases hmn : m = n
    · rw [if_pos hmn] at hlive
      exact absurd hlive LoopTask.not_live_cancel
    · rw [if_neg hmn] at hlive ⊢
      have hne : u.name ≠ name := by
        rintro rfl
        exact hmn (Option.some.inj (hm.symm.trans (h n u hu hlive).1))
      exact ⟨hu, hne, AList.lookup_erase_ne hne⟩

def startsOnce (a : Action T Seconds E) (s : InMemoryTaskScheduler T Seconds E) : Prop :=
  a = .start → ∀ name ∈ s.registered, ∀ n t, s.running.lookup name = some n →
    s.tasks[n]? = some t → ¬ t.Live

theorem Held.modify (h : s.Held) (m : Nat) {f : LoopTask T Seconds E → LoopTask T Seconds E}
    (hname : ∀ u, (f u).name = u.name) (hlive : ∀ u, (f u).Live → u.Live) :
    Held { s with tasks := s.tasks.modify m f } := by
  intro n t ht hfu
  obtain ⟨u, hu, rfl⟩ := getElem?_modify_eq_some.mp ht
  by_cases hmn : m = n
  · rw [if_pos hmn] at hfu ⊢
    rw [hname]
    exact h n u hu (hlive u hfu)
  · rw [if_neg hmn] at hfu ⊢
    exact h n u hu hfu

theorem Held.cancel {name : String} (h : s.Held) (hc : s.cancel name = .ok s') : s'.Held := by
  intro n t ht hlive
  obtain ⟨ht', hne, hlookup⟩ := cancel_live h hc ht hlive
  obtain ⟨hold, hmem⟩ := h n t ht' hlive
  refine ⟨hlookup.trans hold, ?_⟩
  obtain ⟨-, rfl⟩ | ⟨m, -, rfl⟩ := cancel_eq_ok hc <;>
    exact AList.mem_erase.mpr ⟨hne, hmem⟩

theorem Held.exec (h : s.Held) {a : Action T Seconds E} (ha : startsOnce a s) :
    (exec a s).Held := by
  cases a with
  | schedule name task intervalSeconds =>
    intro n t ht hlive
    obtain ⟨hlookup, hmem⟩ := h n t ht hlive
    exact ⟨hlookup, (AList.mem_insert _).mpr (Or.inr hmem)⟩
  | cancel name =>
    cases hc : s.cancel name with
    | error e =>
      simp only [InMemoryTaskScheduler.exec, hc]
      exact h
    | ok s' =>
      simp only [InMemoryTaskScheduler.exec, hc]
      exact h.cancel hc
  | start =>
    obtain ⟨-, hloops⟩ := createTasks_loops s.registered.entries s.registered.nodupKeys s
    intro n t ht hlive
    obtain ht | ⟨hname, hlookup⟩ := hloops n t ht
    · obtain ⟨hlookup, hmem⟩ := h n t ht hlive
      exact absurd hlive (ha rfl t.name hmem n t hlookup ht)
    · refine ⟨hlookup, ?_⟩
      rw [InMemoryTaskScheduler.exec, start, createTasks_registered]
      exact hname
  | stop => exact fun n t ht hlive => absurd hlive (stop_not_live h ht)
  | invoked n outcome =>
    exact h.modify n (fun _ => LoopTask.invoked_name outcome) fun _ => LoopTask.Live.of_invoked
  | slept n => exact h.modify n (fun _ => LoopTask.slept_name) fun _ => LoopTask.Live.of_slept

/-- A second loop under the name of a live one takes its place. -/
theorem not_held_start (htracked : s.Tracked) {name : String} (hname : name ∈ s.registered)
    (hn : s.running.lookup name = some n) (ht : s.tasks[n]? = some t) (hlive : t.Live) :
    ¬ s.start.Held := by
  intro h
  obtain ⟨hstarted, -⟩ := createTasks_loops s.registered.entries s.registered.nodupKeys s
  obtain ⟨m, hm, hlookup⟩ := hstarted name hname
  obtain ⟨rest, hrest⟩ := (createTasks_spec s.registered.entries s).2.1
  obtain ⟨u, hu, hnamed⟩ := htracked name n hn
  rw [ht] at hu
  cases hu
  have hlt := (List.getElem?_eq_some_iff.mp ht).1
  have hold : s.start.tasks[n]? = some t := by
    rw [start, ← hrest]
    exact (List.getElem?_append_left hlt).trans ht
  have hheld := (h n t hold hlive).1
  rw [hnamed] at hheld
  have hnm : m = n := Option.some.inj (hlookup.symm.trans hheld)
  omega

theorem Tracked.modify (h : s.Tracked) (m : Nat) {f : LoopTask T Seconds E → LoopTask T Seconds E}
    (hname : ∀ u, (f u).name = u.name) : Tracked { s with tasks := s.tasks.modify m f } := by
  intro name n hn
  obtain ⟨u, hu, hnamed⟩ := h name n hn
  refine ⟨_, getElem?_modify_eq_some.mpr ⟨u, hu, rfl⟩, ?_⟩
  by_cases hmn : m = n
  · rw [if_pos hmn, hname]
    exact hnamed
  · rw [if_neg hmn]
    exact hnamed

theorem Tracked.exec (h : s.Tracked) (a : Action T Seconds E) : (exec a s).Tracked := by
  cases a with
  | schedule name task intervalSeconds => exact h
  | cancel name =>
    cases hc : s.cancel name with
    | error e =>
      simp only [InMemoryTaskScheduler.exec, hc]
      exact h
    | ok s' =>
      simp only [InMemoryTaskScheduler.exec, hc]
      have hs : Step (fun _ _ => True) s (.cancel name) s' := .cancel hc
      exact hs.tracked h
  | start => exact start_tracked h
  | stop =>
    intro name n hn
    cases hn
  | invoked n outcome => exact h.modify n fun _ => LoopTask.invoked_name outcome
  | slept n => exact h.modify n fun _ => LoopTask.slept_name

theorem cancel_of_not_registered {name : String} (h : name ∉ s.registered) :
    s.cancel name = .error ("No task registered with name '" ++ name ++ "'.") := if_pos h

/-- No loop is lost in a state, and none will be by a call of `cancel` or of `stop`. -/
structure NeverLost (s : InMemoryTaskScheduler T Seconds E) : Prop where
  held : s.Held
  onePerName : ∀ (n m : Nat) (t u : LoopTask T Seconds E), s.tasks[n]? = some t →
    s.tasks[m]? = some u → t.Live → u.Live → t.name = u.name → n = m
  cancelled : ∀ name s', s.cancel name = .ok s' → ∀ (n : Nat) (t : LoopTask T Seconds E),
    s'.tasks[n]? = some t → t.Live → t.name ≠ name
  stopped : ∀ (n : Nat) (t : LoopTask T Seconds E), s.stop.tasks[n]? = some t → ¬ t.Live
  unregistered : ∀ name, name ∉ s.registered →
    s.cancel name = .error ("No task registered with name '" ++ name ++ "'.") ∧
      exec (.cancel name) s = s

theorem Held.neverLost (h : s.Held) : s.NeverLost where
  held := h
  onePerName := by
    intro n m t u ht hu htlive hulive hname
    have hn := (h n t ht htlive).1
    rw [hname, (h m u hu hulive).1] at hn
    exact (Option.some.inj hn).symm
  cancelled := fun name s' hc n t ht hlive => (cancel_live h hc ht hlive).2.1
  stopped := fun n t ht => stop_not_live h ht
  unregistered := by
    intro name hname
    have hc := cancel_of_not_registered hname
    refine ⟨hc, ?_⟩
    simp only [InMemoryTaskScheduler.exec, hc]

/-- No loop is ever lost exactly when `start()` is never called while a registered task
has a live loop. -/
theorem neverLost_iff (steps : List (Action T Seconds E)) :
    (∀ pre, pre <+: steps → (run exec pre init).NeverLost) ↔
      ∀ pre a, pre ++ [a] <+: steps → startsOnce a (run exec pre init) := by
  refine run_holds_iff (I := fun s => s.Tracked ∧ s.Held) ⟨tracked_init, ?_⟩ ?_ ?_ ?_ steps
  · intro n t ht
    cases ht
  · exact fun s h => h.2.neverLost
  · exact fun a s h ha => ⟨h.1.exec a, h.2.exec ha⟩
  · intro a s h ha hlost
    rw [startsOnce] at ha
    push Not at ha
    obtain ⟨rfl, name, hname, n, t, hn, ht, hlive⟩ := ha
    exact not_held_start h.1 hname hn ht hlive hlost.held

/-- After a second `start()`, `stop()` leaves the loop of the first one running. -/
theorem startedTwice_lost : ∃ t : LoopTask Unit Nat String,
    (run exec [.schedule "verify_purchases" () 30, .start, .start, .stop] init).tasks[0]? = some t ∧
      t.Live ∧ (run exec [.schedule "verify_purchases" () 30, .start, .start, .stop]
        (init : InMemoryTaskScheduler Unit Nat String)).running.lookup t.name = none :=
  ⟨_, rfl, rfl, rfl⟩

end InMemoryTaskScheduler

end ClickNBack.Core
