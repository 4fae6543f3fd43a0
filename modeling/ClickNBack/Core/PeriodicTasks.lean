import ClickNBack.Core.Scheduler

namespace ClickNBack.Core

variable {T Seconds E : Type}

namespace LoopTask

def outcomes (t : LoopTask T Seconds E) : List (Except E Unit) :=
  t.steps.filterMap fun
    | .invoked outcome => some outcome
    | .slept _ => none

def rounds (t : LoopTask T Seconds E) : List (LoopStep Seconds E) :=
  t.outcomes.flatMap fun outcome => [.invoked outcome, .slept t.intervalSeconds]

/-- After each invocation, whatever its outcome, one sleep and then the next
invocation are what the loop has done or does next. -/
def Continues (t : LoopTask T Seconds E) : Prop :=
  (t.state = .invoking ∧ t.steps = t.rounds) ∨
    (t.state = .sleeping ∧ t.steps ++ [.slept t.intervalSeconds] = t.rounds)

inductive Uncancelled (t : LoopTask T Seconds E) : Prop
  | continues (h : t.Continues) (hok : ∀ outcome ∈ t.outcomes, outcome = .ok ())
  | raised {e : E} (hstate : t.state = .raised e) (h : .error e ∈ t.outcomes)

inductive Moves (ends : T → Except E Unit → Prop) (t : LoopTask T Seconds E) :
    LoopTask T Seconds E → Prop
  | refl : Moves ends t t
  | invoked {outcome : Except E Unit} (hstate : t.state = .invoking)
    (hends : ends t.task outcome) : Moves ends t (t.afterInvocation outcome)
  | slept (hstate : t.state = .sleeping) : Moves ends t t.afterSleep

section

variable (t : LoopTask T Seconds E)

theorem outcomes_afterInvocation (outcome : Except E Unit) :
    (t.afterInvocation outcome).outcomes = t.outcomes ++ [outcome] := by
  simp [outcomes, afterInvocation, List.filterMap_append]

theorem outcomes_afterSleep : t.afterSleep.outcomes = t.outcomes := by
  simp [outcomes, afterSleep, List.filterMap_append]

theorem rounds_afterInvocation (outcome : Except E Unit) :
    (t.afterInvocation outcome).rounds =
      t.rounds ++ [.invoked outcome, .slept t.intervalSeconds] := by
  rw [rounds]
  rw [outcomes_afterInvocation, List.flatMap_append, List.flatMap_singleton]
  rfl

theorem rounds_afterSleep : t.afterSleep.rounds = t.rounds := by
  rw [rounds]
  rw [outcomes_afterSleep]
  rfl

variable {t}

theorem Uncancelled.afterInvocation (h : t.Uncancelled) (hstate : t.state = .invoking)
    (outcome : Except E Unit) : (t.afterInvocation outcome).Uncancelled := by
  obtain ⟨hcontinues, hok⟩ | ⟨hraised, -⟩ := h
  · cases outcome with
    | error e =>
      refine .raised rfl ?_
      rw [outcomes_afterInvocation]
      exact List.mem_append_right _ (List.mem_singleton_self _)
    | ok a =>
      refine .continues (Or.inr ⟨rfl, ?_⟩) ?_
      · obtain ⟨-, hsteps⟩ | ⟨hsleeping, -⟩ := hcontinues
        · rw [rounds_afterInvocation, ← hsteps]
          exact List.append_assoc _ _ _
        · rw [hsleeping] at hstate
          cases hstate
      · rw [outcomes_afterInvocation]
        intro outcome hmem
        obtain hmem | hmem := List.mem_append.mp hmem
        · exact hok outcome hmem
        · exact List.mem_singleton.mp hmem
  · rw [hraised] at hstate
    cases hstate

theorem Uncancelled.afterSleep (h : t.Uncancelled) (hstate : t.state = .sleeping) :
    t.afterSleep.Uncancelled := by
  obtain ⟨hcontinues, hok⟩ | ⟨hraised, -⟩ := h
  · refine .continues (Or.inl ⟨rfl, ?_⟩) ?_
    · obtain ⟨hinvoking, -⟩ | ⟨-, hsteps⟩ := hcontinues
      · rw [hinvoking] at hstate
        cases hstate
      · rw [rounds_afterSleep]
        exact hsteps
    · rw [outcomes_afterSleep]
      exact hok
  · rw [hraised] at hstate
    cases hstate

theorem Uncancelled.moves {ends : T → Except E Unit → Prop} {t' : LoopTask T Seconds E}
    (h : t.Uncancelled) (hm : t.Moves ends t') : t'.Uncancelled := by
  cases hm with
  | refl => exact h
  | invoked hstate hends => exact h.afterInvocation hstate _
  | slept hstate => exact h.afterSleep hstate

theorem Uncancelled.continues_iff (h : t.Uncancelled) :
    t.Continues ↔ ∀ outcome ∈ t.outcomes, outcome = .ok () := by
  obtain ⟨hcontinues, hok⟩ | ⟨hraised, hmem⟩ := h
  · exact iff_of_true hcontinues hok
  · refine iff_of_false ?_ fun hok => ?_
    · rintro (⟨hstate, -⟩ | ⟨hstate, -⟩)
      · rw [hraised] at hstate
        cases hstate
      · rw [hraised] at hstate
        cases hstate
    · cases hok _ hmem

end

end LoopTask

namespace InMemoryTaskScheduler

variable {s s' : InMemoryTaskScheduler T Seconds E}

/-- The dictionary of running tasks names them right. -/
def Tracked (s : InMemoryTaskScheduler T Seconds E) : Prop :=
  ∀ name n, s.running.lookup name = some n → ∃ t, s.tasks[n]? = some t ∧ t.name = name

section

variable (name : String) (task : T) (intervalSeconds : Seconds)

theorem Tracked.createTask (h : s.Tracked) : (s.createTask name task intervalSeconds).Tracked := by
  intro name' n hn
  by_cases hname : name' = name
  · subst hname
    rw [InMemoryTaskScheduler.createTask, AList.lookup_insert] at hn
    cases hn
    exact ⟨_, List.getElem?_concat_length, rfl⟩
  · rw [InMemoryTaskScheduler.createTask, AList.lookup_insert_ne hname] at hn
    obtain ⟨t, ht, hnamed⟩ := h name' n hn
    exact ⟨t, List.getElem?_append_left (List.getElem?_eq_some_iff.mp ht).1 |>.trans ht, hnamed⟩

end

theorem createTasks_spec (items : List (Sigma fun _ : String => T × Seconds))
    (s : InMemoryTaskScheduler T Seconds E) :
    let s' := items.foldl (fun s item => s.createTask item.1 item.2.1 item.2.2) s
    (s.Tracked → s'.Tracked) ∧ s.tasks <+: s'.tasks ∧
      (∀ name, name ∉ items.keys → s'.running.lookup name = s.running.lookup name) ∧
      (items.NodupKeys → ∀ name task intervalSeconds,
        ⟨name, (task, intervalSeconds)⟩ ∈ items → ∃ n, s'.running.lookup name = some n ∧
          s'.tasks[n]? = some ⟨name, task, intervalSeconds, .invoking, []⟩) := by
  induction items generalizing s with
  | nil => exact ⟨id, List.prefix_refl _, fun _ _ => rfl, fun _ _ _ _ h => by cases h⟩
  | cons item items ih =>
    obtain ⟨htracked, hprefix, hrunning, hstarted⟩ :=
      ih (s.createTask item.1 item.2.1 item.2.2)
    refine ⟨fun h => htracked (h.createTask _ _ _), (List.prefix_append _ _).trans hprefix, ?_, ?_⟩
    · intro name hname
      rw [List.keys_cons, List.mem_cons, not_or] at hname
      exact (hrunning name hname.2).trans (AList.lookup_insert_ne hname.1)
    · intro hnodup name task intervalSeconds hmem
      obtain ⟨hfresh, hnodup⟩ := List.nodupKeys_cons.mp hnodup
      obtain heq | hmem := List.mem_cons.mp hmem
      · subst heq
        refine ⟨s.tasks.length, (hrunning name hfresh).trans (AList.lookup_insert _), ?_⟩
        obtain ⟨rest, hrest⟩ := hprefix
        rw [List.foldl_cons, ← hrest]
        simp [InMemoryTaskScheduler.createTask]
      · exact hstarted hnodup name task intervalSeconds hmem

theorem start_tracked (h : s.Tracked) : s.start.Tracked := (createTasks_spec _ s).1 h

theorem start_registered {name : String} {task : T} {intervalSeconds : Seconds}
    (h : s.registered.lookup name = some (task, intervalSeconds)) :
    ∃ n, s.start.running.lookup name = some n ∧
      s.start.tasks[n]? = some ⟨name, task, intervalSeconds, .invoking, []⟩ :=
  (createTasks_spec _ s).2.2.2 s.registered.nodupKeys name task intervalSeconds
    (AList.mem_lookup_iff.mp h)

theorem cancel_eq_ok {name : String} (h : s.cancel name = .ok s') :
    (s.running.lookup name = none ∧ s' = { s with registered := s.registered.erase name }) ∨
      ∃ n, s.running.lookup name = some n ∧ s' =
        { registered := s.registered.erase name, running := s.running.erase name
          tasks := s.tasks.modify n LoopTask.cancel } := by
  rw [cancel] at h
  split at h
  · cases h
  · cases hn : s.running.lookup name with
    | none =>
      rw [hn] at h
      exact Or.inl ⟨rfl, (Except.ok.inj h).symm⟩
    | some n =>
      rw [hn] at h
      exact Or.inr ⟨n, rfl, (Except.ok.inj h).symm⟩

variable {ends : T → Except E Unit → Prop} {a : Action T Seconds E} {n : Nat}
  {t : LoopTask T Seconds E}

theorem Tracked.set (h : s.Tracked) (ht : s.tasks[n]? = some t) {t' : LoopTask T Seconds E}
    (hname : t'.name = t.name) : Tracked { s with tasks := s.tasks.set n t' } := by
  intro name m hm
  obtain ⟨u, hu, hnamed⟩ := h name m hm
  by_cases hnm : n = m
  · subst hnm
    rw [ht] at hu
    cases hu
    exact ⟨t', List.getElem?_set_self (List.getElem?_eq_some_iff.mp ht).1, hname.trans hnamed⟩
  · exact ⟨u, (List.getElem?_set_ne hnm).trans hu, hnamed⟩

theorem Step.tracked (h : s.Tracked) (hs : Step ends s a s') : s'.Tracked := by
  cases hs with
  | schedule => exact h
  | cancel hc =>
    obtain ⟨-, rfl⟩ | ⟨n, -, rfl⟩ := cancel_eq_ok hc
    · exact h
    · intro name m hm
      have hlookup : s.running.lookup name = some m := by
        rw [← AList.lookup_erase_ne]
        · exact hm
        · rintro rfl
          rw [AList.lookup_erase] at hm
          cases hm
      obtain ⟨t, ht, hnamed⟩ := h name m hlookup
      rw [List.getElem?_modify, ht]
      by_cases hnm : n = m
      · exact ⟨t.cancel, by simp [hnm], hnamed⟩
      · exact ⟨t, by simp [hnm], hnamed⟩
  | start => exact start_tracked h
  | stop =>
    intro name m hm
    cases hm
  | invoked ht => exact h.set ht rfl
  | slept ht => exact h.set ht rfl

theorem Step.moves (h : s.Tracked) (hs : Step ends s a s') (ht : s.tasks[n]? = some t)
    (ha : a.Keeps t.name) : ∃ t', s'.tasks[n]? = some t' ∧ t.Moves ends t' := by
  have hset : ∀ {m u u'}, s.tasks[m]? = some u → u.Moves ends u' →
      ∃ t', (s.tasks.set m u')[n]? = some t' ∧ t.Moves ends t' := by
    intro m u u' hu hmoves
    by_cases hmn : m = n
    · subst hmn
      rw [ht] at hu
      cases hu
      exact ⟨u', List.getElem?_set_self (List.getElem?_eq_some_iff.mp ht).1, hmoves⟩
    · exact ⟨t, (List.getElem?_set_ne hmn).trans ht, .refl⟩
  cases hs with
  | schedule => exact ⟨t, ht, .refl⟩
  | cancel hc =>
    obtain ⟨-, rfl⟩ | ⟨m, hm, rfl⟩ := cancel_eq_ok hc
    · exact ⟨t, ht, .refl⟩
    · -- the loop that is cancelled has another name
      obtain ⟨u, hu, hnamed⟩ := h _ m hm
      have hmn : m ≠ n := by
        rintro rfl
        rw [ht] at hu
        cases hu
        exact ha hnamed.symm
      exact ⟨t, (List.getElem?_modify_ne _ _ hmn).trans ht, .refl⟩
  | start =>
    obtain ⟨rest, hrest⟩ := (createTasks_spec s.registered.entries s).2.1
    refine ⟨t, ?_, .refl⟩
    rw [InMemoryTaskScheduler.start]
    rw [← hrest]
    exact (List.getElem?_append_left (List.getElem?_eq_some_iff.mp ht).1).trans ht
  | stop => exact ha.elim
  | invoked hu hstate hends => exact hset hu (.invoked hstate hends)
  | slept hu hstate => exact hset hu (.slept hstate)

theorem Reach.tracked {permitted : Action T Seconds E → Prop} (h : s.Tracked)
    (hr : Reach ends permitted s s') : s'.Tracked := by
  induction hr with
  | refl => exact h
  | step hr ha hs ih => exact hs.tracked ih

theorem Reach.uncancelled (h : s.Tracked) (hr : Reach ends (Action.Keeps t.name) s s')
    (ht : s.tasks[n]? = some t) (huncancelled : t.Uncancelled) :
    ∃ t', s'.tasks[n]? = some t' ∧ t'.name = t.name ∧ t'.task = t.task ∧
      t'.intervalSeconds = t.intervalSeconds ∧ t'.Uncancelled := by
  induction hr with
  | refl => exact ⟨t, ht, rfl, rfl, rfl, huncancelled⟩
  | step hr ha hs ih =>
    obtain ⟨u, hu, hname, htask, hinterval, huncancelled⟩ := ih
    rw [← hname] at ha
    obtain ⟨t', ht', hmoves⟩ := hs.moves (hr.tracked h) hu ha
    have hsame : t'.name = u.name ∧ t'.task = u.task ∧ t'.intervalSeconds = u.intervalSeconds := by
      cases hmoves <;> exact ⟨rfl, rfl, rfl⟩
    exact ⟨t', ht', hsame.1.trans hname, hsame.2.1.trans htask, hsame.2.2.trans hinterval,
      huncancelled.moves hmoves⟩

theorem tracked_init : (init : InMemoryTaskScheduler T Seconds E).Tracked := fun _ _ h => by cases h

theorem uncancelled_created (name : String) (task : T) (intervalSeconds : Seconds) :
    (⟨name, task, intervalSeconds, .invoking, []⟩ : LoopTask T Seconds E).Uncancelled :=
  .continues (Or.inl ⟨rfl, rfl⟩) (fun _ h => by cases h)

/-- In every state that is reached without a call of `cancel(name)` or of `stop()`, the
loop of a started task goes on exactly when no invocation has raised. -/
theorem run_loop_continues_iff {name : String} {task : T} {intervalSeconds : Seconds}
    (hr : Reach ends (fun _ => True) init s)
    (hscheduled : s.registered.lookup name = some (task, intervalSeconds))
    (hr' : Reach ends (Action.Keeps name) s.start s') :
    ∃ n t, s.start.running.lookup name = some n ∧ s'.tasks[n]? = some t ∧ t.task = task ∧
      t.intervalSeconds = intervalSeconds ∧
      (t.Continues ↔ ∀ outcome ∈ t.outcomes, outcome = .ok ()) := by
  obtain ⟨n, hn, ht⟩ := start_registered hscheduled
  obtain ⟨t, ht', -, htask, hinterval, huncancelled⟩ := Reach.uncancelled
    (start_tracked (hr.tracked tracked_init)) hr' ht (uncancelled_created _ _ _)
  exact ⟨n, t, hn, ht', htask, hinterval, huncancelled.continues_iff⟩

end InMemoryTaskScheduler

end ClickNBack.Core
