import Mathlib.Data.List.Perm.Subperm
import ClickNBack.Core.Broker
import ClickNBack.Core.MessageBroker
import ClickNBack.Transition.Runs

namespace ClickNBack.Core

open Transition

variable {T E H X : Type}

inductive Dispatch.Delivers (registrations : List H) (d : Dispatch E H X) : Prop
  | awaiting {handler : H} {rest : List H} (hstate : d.state = .awaiting handler rest)
    (hall : registrations = d.finished.map Prod.fst ++ handler :: rest)
    (hok : ∀ p ∈ d.finished, p.2 = .ok ())
  | returned (hstate : d.state = .ended (.ok ()))
    (hall : registrations = d.finished.map Prod.fst) (hok : ∀ p ∈ d.finished, p.2 = .ok ())
  | raised {before : List (H × Except X Unit)} {handler : H} {rest : List H} {x : X}
    (hstate : d.state = .ended (.error x))
    (hfinished : d.finished = before ++ [(handler, .error x)])
    (hall : registrations = before.map Prod.fst ++ handler :: rest)
    (hok : ∀ p ∈ before, p.2 = .ok ())

namespace Dispatch

variable {registrations : List H} {d : Dispatch E H X}

theorem delivers_next {rest : List H} (hstate : d.state = .next rest)
    (hall : registrations = d.finished.map Prod.fst ++ rest)
    (hok : ∀ p ∈ d.finished, p.2 = .ok ()) : d.Delivers registrations := by
  cases rest with
  | nil => exact .returned hstate (hall.trans (List.append_nil _)) hok
  | cons handler rest => exact .awaiting hstate hall hok

theorem publish_delivers (event : E) (snapshot : List H) :
    (publish event snapshot : Dispatch E H X).Delivers snapshot := by
  refine delivers_next rfl rfl ?_
  intro p hp
  cases hp

theorem handlerEnds_event {outcome : Except X Unit} : (d.handlerEnds outcome).event = d.event := by
  rw [handlerEnds]
  split <;> rfl

theorem Delivers.handlerEnds (h : d.Delivers registrations) (outcome : Except X Unit) :
    (d.handlerEnds outcome).Delivers registrations := by
  cases h with
  | @awaiting handler rest hstate hall hok =>
    rw [Dispatch.handlerEnds, hstate]
    cases outcome with
    | error x => exact .raised rfl rfl hall hok
    | ok a =>
      refine delivers_next rfl ?_ ?_
      · rw [hall, List.map_append]
        exact List.append_cons _ _ _
      · intro p hp
        obtain hp | hp := List.mem_append.mp hp
        · exact hok p hp
        · rw [List.mem_singleton.mp hp]
  | returned hstate hall hok =>
    have hd : d.handlerEnds outcome = d := by
      rw [Dispatch.handlerEnds, hstate]
    rw [hd]
    exact .returned hstate hall hok
  | raised hstate hfinished hall hok =>
    have hd : d.handlerEnds outcome = d := by
      rw [Dispatch.handlerEnds, hstate]
    rw [hd]
    exact .raised hstate hfinished hall hok

theorem forM_finished {Payload : T → Type} {t : T} {event : Payload t}
    {call : H → Payload t → Except X Unit} {before : List (H × Except X Unit)}
    (hcall : ∀ p ∈ before, call p.1 event = p.2) (hok : ∀ p ∈ before, p.2 = .ok ())
    (rest : List H) :
    ((before.map Prod.fst ++ rest).map call).forM (fun handler => handler event) =
      (rest.map call).forM fun handler => handler event := by
  induction before with
  | nil => rfl
  | cons p before ih =>
    have hp : call p.1 event = .ok () :=
      (hcall p List.mem_cons_self).trans (hok p List.mem_cons_self)
    have hrest := ih (fun q hq => hcall q (List.mem_cons_of_mem _ hq))
      fun q hq => hok q (List.mem_cons_of_mem _ hq)
    rw [← hrest]
    simp only [List.map_cons, List.cons_append, List.forM_eq_forM, List.forM_cons, hp]
    rfl

/-- Handlers that leave the broker alone make `publish` what it is without a history. -/
theorem Delivers.publish_eq (h : d.Delivers registrations) {Payload : T → Type} {t : T}
    {event : Payload t} {call : H → Payload t → Except X Unit} {b : Broker Payload (Except X)}
    (hb : b t = registrations.map call) (hcall : ∀ p ∈ d.finished, call p.1 event = p.2)
    {outcome : Except X Unit} (hended : d.state = .ended outcome) : b.publish event = outcome := by
  rw [Broker.publish, hb]
  cases h with
  | awaiting hstate hall hok =>
    rw [hstate] at hended
    cases hended
  | returned hstate hall hok =>
    rw [hstate] at hended
    cases hended
    rw [hall, ← List.append_nil (d.finished.map Prod.fst), forM_finished hcall hok]
    rfl
  | @raised before handler rest x hstate hfinished hall hok =>
    rw [hstate] at hended
    cases hended
    rw [hfinished] at hcall
    have hraises : call handler event = .error x :=
      hcall (handler, .error x) (List.mem_append_right _ (List.mem_singleton_self _))
    rw [hall, forM_finished (fun p hp => hcall p (List.mem_append_left _ hp)) hok]
    simp only [List.map_cons, List.forM_eq_forM, List.forM_cons, hraises]
    rfl

end Dispatch

theorem diff_append_singleton [DecidableEq H] {l l' : List H} (h : l'.Subperm l) (a : H) :
    (l ++ [a]).diff l' = l.diff l' ++ [a] := by
  induction l' generalizing l with
  | nil => rfl
  | cons b l' ih =>
    have hb : b ∈ l := h.subset List.mem_cons_self
    have hrest : l'.Subperm (l.erase b) := by
      have herase := h.erase b
      rwa [List.erase_cons_head] at herase
    rw [List.diff_cons, List.diff_cons, List.erase_append_left _ hb]
    exact ih hrest

theorem subperm_append_singleton [DecidableEq H] {l l' : List H} (h : l'.Subperm l) {a : H}
    (ha : a ∈ l.diff l') : (l' ++ [a]).Subperm l := by
  have hperm : (l' ++ l.diff l').Perm l :=
    List.subperm_append_diff_self_of_count_le fun x _ => h.count_le x
  exact ((List.subperm_append_left l').mpr (List.singleton_subperm_iff.mpr ha)).trans hperm.subperm

namespace Dispatching

inductive Effect (typeOf : E → T) (s : Dispatching T E H X) : Dispatching T E H X → Prop
  | idle : Effect typeOf s s
  | broker (b : InMemoryMessageBroker T H) : Effect typeOf s { s with broker := b }
  | publish {task call : Nat} {event : E} (hd : s.dispatches call = none) :
    Effect typeOf s (s.resume task call (s.inside task)
      (Dispatch.publish event (s.broker.handlers (typeOf event))))
  | handlerEnds {task call : Nat} {outer : List Nat} {d : Dispatch E H X}
    {outcome : Except X Unit} (hinside : s.inside task = call :: outer)
    (hd : s.dispatches call = some d) :
    Effect typeOf s (s.resume task call outer (d.handlerEnds outcome))

theorem Effect.dispatches {typeOf : E → T} {s s' : Dispatching T E H X}
    (h : Effect typeOf s s') {call : Nat} {d : Dispatch E H X} (hd : s.dispatches call = some d) :
    s'.dispatches call = some d ∨
      ∃ outcome, s'.dispatches call = some (d.handlerEnds outcome) := by
  cases h with
  | idle | broker b => exact Or.inl hd
  | @publish task call' event hnew =>
    have hne : call ≠ call' := by
      rintro rfl
      rw [hd] at hnew
      cases hnew
    exact Or.inl ((resume_dispatches_of_ne hne).trans hd)
  | @handlerEnds task call' outer d' outcome hinside hd' =>
    by_cases hcall : call = call'
    · subst hcall
      rw [hd] at hd'
      cases hd'
      exact Or.inr ⟨outcome, resume_dispatches_self⟩
    · exact Or.inl ((resume_dispatches_of_ne hcall).trans hd)

variable [DecidableEq T] [DecidableEq H]

def subscribed (t : T) (p : BrokerAction T E H X × Dispatching T E H X) : Option H :=
  match p.1 with
  | .subscribe eventType handler => if eventType = t then some handler else none
  | _ => none

/-- The handler of a call of `unsubscribe` for the type, if the call does not raise. -/
def unsubscribed (t : T) (p : BrokerAction T E H X × Dispatching T E H X) : Option H :=
  match p.1 with
  | .unsubscribe eventType handler =>
    match p.2.broker.unsubscribe eventType handler with
    | .ok _ => if eventType = t then some handler else none
    | .error _ => none
  | _ => none

section

variable {typeOf : E → T} {s : Dispatching T E H X}

theorem unsubscribe_of_not_mem {t : T} {handler : H} (h : handler ∉ s.broker.handlers t) :
    s.broker.unsubscribe t handler = .error "list.remove(x): x not in list" := if_neg h

theorem exec_unsubscribe_of_not_mem {t : T} {handler : H} (h : handler ∉ s.broker.handlers t) :
    exec typeOf (.unsubscribe t handler) s = s := by
  simp only [exec, unsubscribe_of_not_mem h]

theorem exec_unsubscribe_of_mem {t : T} {handler : H} (h : handler ∈ s.broker.handlers t) :
    exec typeOf (.unsubscribe t handler) s = { s with
      broker := ⟨Function.update s.broker.handlers t ((s.broker.handlers t).erase handler)⟩ } := by
  simp only [exec, InMemoryMessageBroker.unsubscribe, if_pos h]

theorem exec_publish_of_new {call : Nat} (h : s.dispatches call = none) (task : Nat) (event : E) :
    exec typeOf (.publish task call event) s = s.resume task call (s.inside task)
      (Dispatch.publish event (s.broker.handlers (typeOf event))) := by
  simp only [exec, h]

theorem exec_publish_of_used {call : Nat} {d : Dispatch E H X} (h : s.dispatches call = some d)
    (task : Nat) (event : E) : exec typeOf (.publish task call event) s = s := by
  simp only [exec, h]

theorem exec_handlerEnds {task call : Nat} {outer : List Nat} {d : Dispatch E H X}
    (hinside : s.inside task = call :: outer) (hd : s.dispatches call = some d)
    (outcome : Except X Unit) :
    exec typeOf (.handlerEnds task outcome) s =
      s.resume task call outer (d.handlerEnds outcome) := by
  simp only [exec, hinside, hd]

theorem exec_effect (a : BrokerAction T E H X) : Effect typeOf s (exec typeOf a s) := by
  cases a with
  | subscribe eventType handler => exact .broker _
  | unsubscribe eventType handler =>
    by_cases hmem : handler ∈ s.broker.handlers eventType
    · rw [exec_unsubscribe_of_mem hmem]
      exact .broker _
    · rw [exec_unsubscribe_of_not_mem hmem]
      exact .idle
  | publish task call event =>
    cases hd : s.dispatches call with
    | some d =>
      rw [exec_publish_of_used hd]
      exact .idle
    | none =>
      rw [exec_publish_of_new hd]
      exact .publish hd
  | handlerEnds task outcome =>
    cases hinside : s.inside task with
    | nil =>
      simp only [exec, hinside]
      exact .idle
    | cons call outer =>
      cases hd : s.dispatches call with
      | none =>
        simp only [exec, hinside, hd]
        exact .idle
      | some d =>
        rw [exec_handlerEnds hinside hd]
        exact .handlerEnds hinside hd

variable (typeOf) in
/-- A call of `publish` delivers the registrations that it started from, whatever is done
while it is in progress. -/
theorem run_delivers {registrations : List H} {call : Nat} {d : Dispatch E H X}
    (hd : s.dispatches call = some d) (h : d.Delivers registrations)
    (history : List (BrokerAction T E H X)) :
    ∃ d', (run (exec typeOf) history s).dispatches call = some d' ∧ d'.event = d.event ∧
      d'.Delivers registrations := by
  induction history generalizing s d with
  | nil => exact ⟨d, hd, rfl, h⟩
  | cons a history ih =>
    obtain hd' | ⟨outcome, hd'⟩ := (exec_effect a).dispatches hd
    · exact ih hd' h
    · obtain ⟨d', hrun, hevent, hdelivers⟩ := ih hd' (h.handlerEnds outcome)
      exact ⟨d', hrun, hevent.trans Dispatch.handlerEnds_event, hdelivers⟩

/-- The first handler unsubscribes the second one, which this publish invokes all the same. -/
example : ((run (exec id) [.subscribe 7 1, .subscribe 7 2, .publish 0 0 7, .unsubscribe 7 2,
    .handlerEnds 0 (.ok ())] (init : Dispatching Nat Nat Nat String)).dispatches 0).map
      Dispatch.state = some (.awaiting 2 []) := rfl

theorem exec_publish_broker (task call : Nat) (event : E) :
    (exec typeOf (.publish task call event) s).broker = s.broker := by
  simp only [exec]
  split <;> rfl

theorem exec_handlerEnds_broker (task : Nat) (outcome : Except X Unit) :
    (exec typeOf (.handlerEnds task outcome) s).broker = s.broker := by
  simp only [exec]
  split
  · rfl
  · split <;> rfl

variable (typeOf s) in
theorem exec_handlers (a : BrokerAction T E H X) (t : T) :
    (subscribed t (a, s) = none ∧ unsubscribed t (a, s) = none ∧
        (exec typeOf a s).broker.handlers t = s.broker.handlers t) ∨
      (∃ handler, subscribed t (a, s) = some handler ∧ unsubscribed t (a, s) = none ∧
        (exec typeOf a s).broker.handlers t = s.broker.handlers t ++ [handler]) ∨
      ∃ handler ∈ s.broker.handlers t, subscribed t (a, s) = none ∧
        unsubscribed t (a, s) = some handler ∧
        (exec typeOf a s).broker.handlers t = (s.broker.handlers t).erase handler := by
  cases a with
  | subscribe eventType handler =>
    by_cases ht : eventType = t
    · subst ht
      exact Or.inr (Or.inl ⟨handler, if_pos rfl, rfl, Function.update_self _ _ _⟩)
    · exact Or.inl ⟨if_neg ht, rfl, Function.update_of_ne (Ne.symm ht) _ _⟩
  | unsubscribe eventType handler =>
    by_cases hmem : handler ∈ s.broker.handlers eventType
    · rw [exec_unsubscribe_of_mem hmem]
      by_cases ht : eventType = t
      · subst ht
        refine Or.inr (Or.inr ⟨handler, hmem, rfl, ?_, Function.update_self _ _ _⟩)
        simp [unsubscribed, InMemoryMessageBroker.unsubscribe, hmem]
      · refine Or.inl ⟨rfl, ?_, Function.update_of_ne (Ne.symm ht) _ _⟩
        simp [unsubscribed, InMemoryMessageBroker.unsubscribe, hmem, ht]
    · rw [exec_unsubscribe_of_not_mem hmem]
      refine Or.inl ⟨rfl, ?_, rfl⟩
      simp only [unsubscribed, unsubscribe_of_not_mem hmem]
  | publish task call event =>
    rw [exec_publish_broker]
    exact Or.inl ⟨rfl, rfl, rfl⟩
  | handlerEnds task outcome =>
    rw [exec_handlerEnds_broker]
    exact Or.inl ⟨rfl, rfl, rfl⟩

variable (typeOf) in
/-- The registrations of a type are the handlers subscribed without the earliest of those
unsubscribed. -/
theorem registrations (history : List (BrokerAction T E H X)) (t : T) :
    let calls := trace (exec typeOf) history init
    (calls.filterMap (unsubscribed t)).Subperm (calls.filterMap (subscribed t)) ∧
      (run (exec typeOf) history init).broker.handlers t =
        (calls.filterMap (subscribed t)).diff (calls.filterMap (unsubscribed t)) := by
  induction history using List.reverseRecOn with
  | nil => exact ⟨List.Subperm.refl _, rfl⟩
  | append_singleton history a ih =>
    obtain ⟨hsub, hheld⟩ := ih
    simp only [trace_append, trace, List.filterMap_append, run_append, run_singleton]
    obtain ⟨hin, hout, hhandlers⟩ | ⟨handler, hin, hout, hhandlers⟩ |
        ⟨handler, hmem, hin, hout, hhandlers⟩ :=
      exec_handlers typeOf (run (exec typeOf) history init) a t
    · simp only [List.filterMap_cons, hin, hout, List.filterMap_nil, List.append_nil]
      exact ⟨hsub, hhandlers.trans hheld⟩
    · simp only [List.filterMap_cons, hin, hout, List.filterMap_nil, List.append_nil]
      refine ⟨hsub.trans (List.sublist_append_left _ _).subperm, ?_⟩
      rw [diff_append_singleton hsub, ← hheld]
      exact hhandlers
    · simp only [List.filterMap_cons, hin, hout, List.filterMap_nil, List.append_nil]
      rw [hheld] at hmem hhandlers
      refine ⟨subperm_append_singleton hsub hmem, ?_⟩
      rw [List.diff_append, List.diff_cons, List.diff_nil]
      exact hhandlers

end

end Dispatching

end ClickNBack.Core
