import ClickNBack.Core.Deliveries

namespace ClickNBack.Core.Dispatching

open Transition

variable {T E H X : Type}

def inProgress (s : Dispatching T E H X) (call : Nat) : Bool :=
  (s.dispatches call).any Dispatch.inProgress

def madeBy (task : Nat) (p : BrokerAction T E H X × Dispatching T E H X) : Option Nat :=
  match p.1 with
  | .publish task' call _ =>
    if task' = task ∧ (p.2.dispatches call).isNone then some call else none
  | _ => none

/-- How the handler ends that the call awaits, innermost of its task. -/
def endedIn (call : Nat) (p : BrokerAction T E H X × Dispatching T E H X) :
    Option (Except X Unit) :=
  match p.1 with
  | .handlerEnds task outcome =>
    if (p.2.inside task).head? = some call then some outcome else none
  | _ => none

def outcomes (s : Dispatching T E H X) (call : Nat) : List (Except X Unit) :=
  ((s.dispatches call).map fun d => d.finished.map Prod.snd).getD []

/-- The calls that each task has made, the last one first, and which of them it is inside. -/
structure Nested (calls : Nat → List Nat) (s : Dispatching T E H X) : Prop where
  called : ∀ task, ∀ call ∈ calls task, (s.dispatches call).isSome = true
  nodup : ∀ task, (calls task).Nodup
  apart : ∀ task task', task ≠ task' → ∀ call ∈ calls task, call ∉ calls task'
  inside : ∀ task, s.inside task = (calls task).filter s.inProgress

section

variable {s : Dispatching T E H X} {task call call' : Nat} {outer : List Nat} {d : Dispatch E H X}

theorem nested_init : (init : Dispatching T E H X).Nested fun _ => [] where
  called _ call hcall := by cases hcall
  nodup _ := List.nodup_nil
  apart _ _ _ call hcall := by cases hcall
  inside _ := rfl

theorem inProgress_resume_self :
    (s.resume task call outer d).inProgress call = d.inProgress := by
  rw [inProgress, resume_dispatches_self, Option.any_some]

theorem inProgress_resume_of_ne (h : call' ≠ call) :
    (s.resume task call outer d).inProgress call' = s.inProgress call' := by
  rw [inProgress, resume_dispatches_of_ne h, inProgress]

theorem isSome_resume (h : (s.dispatches call').isSome = true) :
    ((s.resume task call outer d).dispatches call').isSome = true := by
  by_cases heq : call' = call
  · subst heq
    rw [resume_dispatches_self]
    rfl
  · rw [resume_dispatches_of_ne heq]
    exact h

theorem outcomes_resume_self :
    (s.resume task call outer d).outcomes call = d.finished.map Prod.snd := by
  rw [outcomes, resume_dispatches_self]
  rfl

theorem outcomes_resume_of_ne (h : call' ≠ call) :
    (s.resume task call outer d).outcomes call' = s.outcomes call' := by
  rw [outcomes, resume_dispatches_of_ne h, outcomes]

theorem filter_inProgress_resume {calls : List Nat} (h : call ∉ calls) :
    calls.filter (s.resume task call outer d).inProgress = calls.filter s.inProgress := by
  apply List.filter_congr
  rintro call' hcall'
  exact inProgress_resume_of_ne fun heq => h (heq ▸ hcall')

theorem Nested.publish {calls : Nat → List Nat} (h : s.Nested calls)
    (hnew : s.dispatches call = none) :
    (s.resume task call (s.inside task) d).Nested
      (Function.update calls task (call :: calls task)) := by
  have hfresh : ∀ task', call ∉ calls task' := by
    intro task' hmem
    have hsome := h.called task' call hmem
    rw [hnew] at hsome
    cases hsome
  have hcalls : ∀ task' call', call' ∈ Function.update calls task (call :: calls task) task' →
      (task' = task ∧ call' = call) ∨ call' ∈ calls task' := by
    intro task' call' hmem
    by_cases htask : task' = task
    · subst htask
      rw [Function.update_self, List.mem_cons] at hmem
      exact hmem.imp_left fun heq => ⟨rfl, heq⟩
    · rw [Function.update_of_ne htask] at hmem
      exact Or.inr hmem
  constructor
  · intro task' call' hmem
    obtain ⟨-, rfl⟩ | hmem := hcalls task' call' hmem
    · rw [resume_dispatches_self]
      rfl
    · exact isSome_resume (h.called task' call' hmem)
  · intro task'
    by_cases htask : task' = task
    · subst htask
      rw [Function.update_self]
      exact List.nodup_cons.mpr ⟨hfresh task', h.nodup task'⟩
    · rw [Function.update_of_ne htask]
      exact h.nodup task'
  · intro task₁ task₂ hne call' h₁ h₂
    obtain ⟨htask₁, hcall₁⟩ | hold₁ := hcalls task₁ call' h₁
    · obtain ⟨htask₂, -⟩ | hold₂ := hcalls task₂ call' h₂
      · exact hne (htask₁.trans htask₂.symm)
      · exact hfresh task₂ (hcall₁ ▸ hold₂)
    · obtain ⟨-, hcall₂⟩ | hold₂ := hcalls task₂ call' h₂
      · exact hfresh task₁ (hcall₂ ▸ hold₁)
      · exact h.apart task₁ task₂ hne call' hold₁ hold₂
  · intro task'
    by_cases htask : task' = task
    · subst htask
      rw [Function.update_self, resume_inside_self, List.filter_cons, inProgress_resume_self,
        filter_inProgress_resume (hfresh task'), h.inside task']
    · rw [Function.update_of_ne htask, resume_inside_of_ne htask,
        filter_inProgress_resume (hfresh task')]
      exact h.inside task'

theorem Nested.goesOn {calls : Nat → List Nat} (h : s.Nested calls)
    (hinside : s.inside task = call :: outer) : (s.resume task call outer d).Nested calls := by
  have hfilter : (calls task).filter s.inProgress = call :: outer :=
    (h.inside task).symm.trans hinside
  obtain ⟨hmem, hin⟩ := List.mem_filter.mp (hfilter ▸ List.mem_cons_self :
    call ∈ (calls task).filter s.inProgress)
  have hnodup : (call :: outer).Nodup := hfilter ▸ (h.nodup task).filter _
  refine ⟨fun task' call' hcall' => isSome_resume (h.called task' call' hcall'), h.nodup, h.apart,
    fun task' => ?_⟩
  by_cases htask : task' = task
  · subst htask
    rw [resume_inside_self]
    cases hd : d.inProgress with
    | true =>
      rw [if_pos rfl, ← hfilter]
      apply List.filter_congr
      intro call' _
      by_cases heq : call' = call
      · rw [heq, inProgress_resume_self, hd, hin]
      · exact (inProgress_resume_of_ne heq).symm
    | false =>
      -- the call has left the list, and nothing else has
      have hleft : (calls task').filter (s.resume task' call outer d).inProgress =
          ((calls task').filter s.inProgress).filter fun call' => call' ≠ call := by
        rw [List.filter_filter]
        apply List.filter_congr
        intro call' _
        by_cases heq : call' = call
        · simp [heq, inProgress_resume_self, hd]
        · simp [heq, inProgress_resume_of_ne heq]
      have houter : ∀ call' ∈ outer, call' ≠ call := fun call' hcall' heq =>
        (List.nodup_cons.mp hnodup).1 (heq ▸ hcall')
      rw [if_neg Bool.false_ne_true, hleft, hfilter, List.filter_cons_of_neg (by simp),
        List.filter_eq_self.mpr fun call' hcall' => decide_eq_true (houter call' hcall')]
  · rw [resume_inside_of_ne htask, filter_inProgress_resume]
    · exact h.inside task'
    · exact h.apart task task' (Ne.symm htask) call hmem

theorem Nested.inProgress_of_inside {calls : Nat → List Nat} (h : s.Nested calls)
    (hinside : s.inside task = call :: outer) :
    ∃ d, s.dispatches call = some d ∧ d.inProgress = true := by
  have hmem : call ∈ (calls task).filter s.inProgress := by
    rw [← h.inside task, hinside]
    exact List.mem_cons_self
  have hin := (List.mem_filter.mp hmem).2
  rw [inProgress, Option.any_eq_true] at hin
  exact hin

end

theorem finished_handlerEnds {d : Dispatch E H X} (h : d.inProgress = true)
    (outcome : Except X Unit) :
    (d.handlerEnds outcome).finished.map Prod.snd = d.finished.map Prod.snd ++ [outcome] := by
  rw [Dispatch.inProgress] at h
  cases hstate : d.state with
  | awaiting handler rest =>
    simp only [Dispatch.handlerEnds, hstate, List.map_append, List.map_cons, List.map_nil]
  | ended outcome' =>
    rw [hstate] at h
    cases h

variable [DecidableEq T] [DecidableEq H] {typeOf : E → T} {s : Dispatching T E H X}

variable (typeOf) in
theorem Nested.step {calls : Nat → List Nat} (h : s.Nested calls) (a : BrokerAction T E H X) :
    (exec typeOf a s).Nested (fun task => (madeBy task (a, s)).toList ++ calls task) ∧
      ∀ call, (exec typeOf a s).outcomes call =
        s.outcomes call ++ (endedIn call (a, s)).toList := by
  have hidle : (∀ task, madeBy task (a, s) = none) → (∀ call, endedIn call (a, s) = none) →
      ∀ b, (exec typeOf a s) = { s with broker := b } →
      (exec typeOf a s).Nested (fun task => (madeBy task (a, s)).toList ++ calls task) ∧
        ∀ call, (exec typeOf a s).outcomes call =
          s.outcomes call ++ (endedIn call (a, s)).toList := by
    intro hmade hended b heq
    simp only [hmade, hended, Option.toList_none, List.nil_append, List.append_nil, heq]
    exact ⟨⟨h.called, h.nodup, h.apart, h.inside⟩, fun _ => rfl⟩
  cases a with
  | subscribe eventType handler => exact hidle (fun _ => rfl) (fun _ => rfl) _ rfl
  | unsubscribe eventType handler =>
    by_cases hmem : handler ∈ s.broker.handlers eventType
    · exact hidle (fun _ => rfl) (fun _ => rfl) _ (exec_unsubscribe_of_mem hmem)
    · exact hidle (fun _ => rfl) (fun _ => rfl) _ (exec_unsubscribe_of_not_mem hmem)
  | publish task call event =>
    cases hd : s.dispatches call with
    | some d =>
      refine hidle (fun task' => ?_) (fun _ => rfl) s.broker (exec_publish_of_used hd task event)
      simp [madeBy, hd]
    | none =>
      rw [exec_publish_of_new hd]
      constructor
      · have hcalls : (fun task' =>
            (madeBy task' (BrokerAction.publish task call event, s)).toList ++ calls task') =
            Function.update calls task (call :: calls task) := by
          funext task'
          by_cases htask : task = task'
          · subst htask
            simp [madeBy, hd]
          · rw [Function.update_of_ne (Ne.symm htask)]
            simp [madeBy, htask]
        rw [hcalls]
        exact h.publish hd
      · intro call'
        change _ = s.outcomes call' ++ []
        rw [List.append_nil]
        by_cases heq : call' = call
        · subst heq
          rw [outcomes_resume_self, outcomes, hd]
          rfl
        · exact outcomes_resume_of_ne heq
  | handlerEnds task outcome =>
    cases hinside : s.inside task with
    | nil =>
      refine hidle (fun _ => rfl) (fun call => ?_) s.broker ?_
      · simp [endedIn, hinside]
      · simp only [exec, hinside]
    | cons call outer =>
      obtain ⟨d, hd, hin⟩ := h.inProgress_of_inside hinside
      rw [exec_handlerEnds hinside hd]
      refine ⟨h.goesOn hinside, fun call' => ?_⟩
      by_cases heq : call' = call
      · subst heq
        have hended : endedIn call' (BrokerAction.handlerEnds task outcome, s) = some outcome := by
          simp [endedIn, hinside]
        rw [outcomes_resume_self, finished_handlerEnds hin, hended, outcomes, hd]
        rfl
      · have hended : endedIn call' (BrokerAction.handlerEnds task outcome, s) = none := by
          simp [endedIn, hinside, Ne.symm heq]
        rw [outcomes_resume_of_ne heq, hended, Option.toList_none, List.append_nil]

variable (typeOf) in
/-- A task is inside the calls that it has made and that are not over, and a call has seen
its handlers end as they have ended while it was the innermost one of its task. -/
theorem nested (history : List (BrokerAction T E H X)) :
    (run (exec typeOf) history init).Nested
        (fun task => ((trace (exec typeOf) history init).filterMap (madeBy task)).reverse) ∧
      ∀ call, (run (exec typeOf) history init).outcomes call =
        (trace (exec typeOf) history init).filterMap (endedIn call) := by
  induction history using List.reverseRecOn with
  | nil => exact ⟨nested_init, fun _ => rfl⟩
  | append_singleton history a ih =>
    obtain ⟨hnested, houtcomes⟩ := ih
    obtain ⟨hnested', houtcomes'⟩ := hnested.step typeOf a
    simp only [trace_append, trace, List.filterMap_append, run_append, run_singleton,
      List.reverse_append]
    constructor
    · convert hnested' using 3 with task
      cases h : madeBy task (a, run (exec typeOf) history init) <;> simp [h]
    · intro call
      rw [houtcomes', houtcomes]
      cases h : endedIn call (a, run (exec typeOf) history init) <;> simp [h]

end ClickNBack.Core.Dispatching
