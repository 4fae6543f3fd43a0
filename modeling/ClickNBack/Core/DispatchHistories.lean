import ClickNBack.Core.NestedCalls

namespace ClickNBack.Core

open Transition

variable {T E H X : Type}

namespace Dispatching

section

variable {s : Dispatching T E H X}

def Entered (s : Dispatching T E H X) : Prop :=
  ∀ task, ∀ call ∈ s.inside task, (s.dispatches call).isSome = true

theorem entered_init : (init : Dispatching T E H X).Entered := by
  intro task call hcall
  cases hcall

structure Resumes (s : Dispatching T E H X) (task call : Nat) (outer : List Nat)
    (d : Dispatch E H X) : Prop where
  mem_inside : ∀ call ∈ outer, call ∈ s.inside task
  event_eq : ∀ d', s.dispatches call = some d' → d'.event = d.event

variable {task call : Nat} {outer : List Nat} {d : Dispatch E H X}

theorem resumes_publish (hd : s.dispatches call = none) :
    s.Resumes task call (s.inside task) d where
  mem_inside := fun _ hcall => hcall
  event_eq := by
    intro d' hd'
    rw [hd] at hd'
    cases hd'

theorem resumes_handlerEnds (hinside : s.inside task = call :: outer)
    (hd : s.dispatches call = some d) (outcome : Except X Unit) :
    s.Resumes task call outer (d.handlerEnds outcome) where
  mem_inside := by
    intro call' hcall'
    rw [hinside]
    exact List.mem_cons_of_mem _ hcall'
  event_eq := by
    intro d' hd'
    rw [hd] at hd'
    cases hd'
    exact Dispatch.handlerEnds_event.symm

theorem Entered.resume (h : s.Entered) (hresumes : s.Resumes task call outer d) :
    (s.resume task call outer d).Entered := by
  intro task' call' hcall'
  by_cases heq : call' = call
  · subst heq
    rw [resume_dispatches_self]
    rfl
  rw [resume_dispatches_of_ne heq]
  by_cases htask : task' = task
  · subst htask
    rw [resume_inside_self] at hcall'
    refine h task' call' (hresumes.mem_inside call' ?_)
    split at hcall'
    · exact (List.mem_cons.mp hcall').resolve_left heq
    · exact hcall'
  · rw [resume_inside_of_ne htask] at hcall'
    exact h task' call' hcall'

theorem Entered.effect {typeOf : E → T} {s' : Dispatching T E H X} (h : s.Entered)
    (heffect : Effect typeOf s s') : s'.Entered := by
  cases heffect with
  | idle | broker b => exact h
  | publish hd => exact h.resume (resumes_publish hd)
  | handlerEnds hinside hd => exact h.resume (resumes_handlerEnds hinside hd _)

end

section

variable [DecidableEq T]

def isFor (typeOf : E → T) (t : T) (d : Dispatch E H X) : Bool := typeOf d.event = t

/-- What there is of one event type. -/
def only (typeOf : E → T) (t : T) (s : Dispatching T E H X) : Dispatching T E H X where
  broker := ⟨Function.update (fun _ => []) t (s.broker.handlers t)⟩
  dispatches call := (s.dispatches call).filter (isFor typeOf t)
  inside task := (s.inside task).filter fun call => (s.dispatches call).any (isFor typeOf t)

/-- A call for the type, or the end of a handler that such a call awaits. -/
def concerns (typeOf : E → T) (t : T) (a : BrokerAction T E H X) (s : Dispatching T E H X) : Bool :=
  match a with
  | .subscribe eventType _ | .unsubscribe eventType _ => eventType = t
  | .publish _ call event => (s.dispatches call).isNone && typeOf event = t
  | .handlerEnds task _ => ((s.inside task).head?.bind s.dispatches).any (isFor typeOf t)

variable {typeOf : E → T} {t : T} {s : Dispatching T E H X} {task call : Nat}
  {outer : List Nat} {d : Dispatch E H X}

theorem isFor_congr {d d' : Dispatch E H X} (h : d'.event = d.event) :
    isFor typeOf t d' = isFor typeOf t d := by
  unfold isFor
  rw [h]

theorem only_init : (init : Dispatching T E H X).only typeOf t = init := by
  apply Dispatching.ext
  · simp [only, init, InMemoryMessageBroker.init]
  · rfl
  · rfl

@[simp] theorem only_handlers : (s.only typeOf t).broker.handlers t = s.broker.handlers t := by
  simp [only]

theorem only_dispatches (call : Nat) :
    (s.only typeOf t).dispatches call = (s.dispatches call).filter (isFor typeOf t) := rfl

theorem only_inside (task : Nat) : (s.only typeOf t).inside task =
    (s.inside task).filter fun call => (s.dispatches call).any (isFor typeOf t) := rfl

theorem filter_resume (hresumes : s.Resumes task call outer d) {calls : List Nat}
    (hcalls : ∀ call ∈ calls, (s.dispatches call).isSome = true) :
    (calls.filter fun call' =>
        ((s.resume task call outer d).dispatches call').any (isFor typeOf t)) =
      calls.filter fun call' => (s.dispatches call').any (isFor typeOf t) := by
  apply List.filter_congr
  intro call' hmem
  by_cases heq : call' = call
  · subst heq
    obtain ⟨d', hd'⟩ := Option.isSome_iff_exists.mp (hcalls call' hmem)
    rw [resume_dispatches_self, hd']
    exact (isFor_congr (hresumes.event_eq d' hd')).symm
  · rw [resume_dispatches_of_ne heq]

theorem only_resume_of_isFor (h : s.Entered) (hresumes : s.Resumes task call outer d)
    (hfor : isFor typeOf t d = true) :
    (s.resume task call outer d).only typeOf t = (s.only typeOf t).resume task call
      (outer.filter fun call => (s.dispatches call).any (isFor typeOf t)) d := by
  apply Dispatching.ext
  · rfl
  · funext call'
    rw [only_dispatches]
    by_cases heq : call' = call
    · subst heq
      rw [resume_dispatches_self, resume_dispatches_self]
      exact Option.filter_some_pos hfor
    · rw [resume_dispatches_of_ne heq, resume_dispatches_of_ne heq]
      rfl
  · funext task'
    rw [only_inside]
    by_cases htask : task' = task
    · subst htask
      rw [resume_inside_self, resume_inside_self,
        ← filter_resume hresumes fun call hcall => h task' call (hresumes.mem_inside call hcall)]
      split
      · apply List.filter_cons_of_pos
        rw [resume_dispatches_self]
        exact hfor
      · rfl
    · rw [resume_inside_of_ne htask, resume_inside_of_ne htask]
      exact filter_resume hresumes (h task')

theorem only_resume_of_not_isFor (h : s.Entered) (hresumes : s.Resumes task call outer d)
    (hfor : isFor typeOf t d = false)
    (hinside : (outer.filter fun call => (s.dispatches call).any (isFor typeOf t)) =
      (s.inside task).filter fun call => (s.dispatches call).any (isFor typeOf t)) :
    (s.resume task call outer d).only typeOf t = s.only typeOf t := by
  apply Dispatching.ext
  · rfl
  · funext call'
    rw [only_dispatches, only_dispatches]
    by_cases heq : call' = call
    · subst heq
      rw [resume_dispatches_self, Option.filter_some_neg hfor]
      refine (Option.filter_eq_none_iff.mpr fun d' hd' => ?_).symm
      rw [isFor_congr (hresumes.event_eq d' hd'), hfor]
      exact Bool.false_ne_true
    · rw [resume_dispatches_of_ne heq]
  · funext task'
    rw [only_inside, only_inside]
    by_cases htask : task' = task
    · subst htask
      rw [resume_inside_self, ← hinside,
        ← filter_resume hresumes fun call hcall => h task' call (hresumes.mem_inside call hcall)]
      split
      · apply List.filter_cons_of_neg
        rw [resume_dispatches_self, Option.any_some, hfor]
        exact Bool.false_ne_true
      · rfl
    · rw [resume_inside_of_ne htask]
      exact filter_resume hresumes (h task')

end

variable [DecidableEq T] [DecidableEq H] {typeOf : E → T} {s : Dispatching T E H X} {t : T}

theorem only_exec_of_concerns (h : s.Entered) {a : BrokerAction T E H X}
    (ha : concerns typeOf t a s = true) :
    (exec typeOf a s).only typeOf t = exec typeOf a (s.only typeOf t) := by
  cases a with
  | subscribe eventType handler =>
    obtain rfl : eventType = t := of_decide_eq_true ha
    apply Dispatching.ext
    · simp [only, exec, InMemoryMessageBroker.subscribe]
    · rfl
    · rfl
  | unsubscribe eventType handler =>
    obtain rfl : eventType = t := of_decide_eq_true ha
    by_cases hmem : handler ∈ s.broker.handlers eventType
    · have hmem' : handler ∈ (s.only typeOf eventType).broker.handlers eventType := by
        rw [only_handlers]
        exact hmem
      rw [exec_unsubscribe_of_mem hmem, exec_unsubscribe_of_mem hmem']
      apply Dispatching.ext
      · simp [only]
      · rfl
      · rfl
    · have hmem' : handler ∉ (s.only typeOf eventType).broker.handlers eventType := by
        rw [only_handlers]
        exact hmem
      rw [exec_unsubscribe_of_not_mem hmem, exec_unsubscribe_of_not_mem hmem']
  | publish task call event =>
    obtain ⟨hnew, htype⟩ := Bool.and_eq_true_iff.mp ha
    obtain rfl : typeOf event = t := of_decide_eq_true htype
    have hd : s.dispatches call = none := Option.isNone_iff_eq_none.mp hnew
    have hd' : (s.only typeOf (typeOf event)).dispatches call = none := by
      rw [only_dispatches, hd]
      rfl
    rw [exec_publish_of_new hd, exec_publish_of_new hd', only_handlers, only_inside]
    exact only_resume_of_isFor h (resumes_publish hd) (decide_eq_true rfl)
  | handlerEnds task outcome =>
    cases hinside : s.inside task with
    | nil => simp [concerns, hinside] at ha
    | cons call outer =>
      cases hd : s.dispatches call with
      | none => simp [concerns, hinside, hd] at ha
      | some d =>
        have hfor : isFor typeOf t d = true := by
          simpa [concerns, hinside, hd] using ha
        have hinside' : (s.only typeOf t).inside task = call :: outer.filter fun call =>
            (s.dispatches call).any (isFor typeOf t) := by
          rw [only_inside, hinside]
          apply List.filter_cons_of_pos
          rw [hd]
          exact hfor
        have hd' : (s.only typeOf t).dispatches call = some d := by
          rw [only_dispatches, hd]
          exact Option.filter_some_pos hfor
        rw [exec_handlerEnds hinside hd, exec_handlerEnds hinside' hd']
        exact only_resume_of_isFor h (resumes_handlerEnds hinside hd outcome)
          ((isFor_congr Dispatch.handlerEnds_event).trans hfor)

theorem only_exec_of_not_concerns (h : s.Entered) {a : BrokerAction T E H X}
    (ha : concerns typeOf t a s = false) :
    (exec typeOf a s).only typeOf t = s.only typeOf t := by
  cases a with
  | subscribe eventType handler =>
    have hne : t ≠ eventType := Ne.symm (of_decide_eq_false ha)
    apply Dispatching.ext
    · simp [only, exec, InMemoryMessageBroker.subscribe, hne]
    · rfl
    · rfl
  | unsubscribe eventType handler =>
    have hne : t ≠ eventType := Ne.symm (of_decide_eq_false ha)
    by_cases hmem : handler ∈ s.broker.handlers eventType
    · rw [exec_unsubscribe_of_mem hmem]
      apply Dispatching.ext
      · simp [only, hne]
      · rfl
      · rfl
    · rw [exec_unsubscribe_of_not_mem hmem]
  | publish task call event =>
    cases hd : s.dispatches call with
    | some d => rw [exec_publish_of_used hd]
    | none =>
      have hfor : decide (typeOf event = t) = false := by
        simpa [concerns, hd] using ha
      rw [exec_publish_of_new hd]
      exact only_resume_of_not_isFor h (resumes_publish hd) hfor rfl
  | handlerEnds task outcome =>
    cases hinside : s.inside task with
    | nil => simp only [exec, hinside]
    | cons call outer =>
      cases hd : s.dispatches call with
      | none => simp only [exec, hinside, hd]
      | some d =>
        have hfor : isFor typeOf t d = false := by
          simpa [concerns, hinside, hd] using ha
        rw [exec_handlerEnds hinside hd]
        apply only_resume_of_not_isFor h (resumes_handlerEnds hinside hd outcome)
          ((isFor_congr Dispatch.handlerEnds_event).trans hfor)
        rw [hinside, List.filter_cons_of_neg]
        rw [hd, Option.any_some, hfor]
        exact Bool.false_ne_true

/-- What the broker promises of a history of calls. -/
structure Lawful (typeOf : E → T) (history : List (BrokerAction T E H X)) : Prop where
  delivers : ∀ pre task call event post, history = pre ++ .publish task call event :: post →
    (run (exec typeOf) pre init).dispatches call = none →
    ∃ d, (run (exec typeOf) history init).dispatches call = some d ∧ d.event = event ∧
      d.Delivers ((run (exec typeOf) pre init).broker.handlers (typeOf event)) ∧
      d.finished.map Prod.snd = (trace (exec typeOf) history init).filterMap (endedIn call)
  inside : ∀ task, (run (exec typeOf) history init).inside task =
    ((trace (exec typeOf) history init).filterMap (madeBy task)).reverse.filter
      (run (exec typeOf) history init).inProgress
  registrations : ∀ t, (run (exec typeOf) history init).broker.handlers t =
    ((trace (exec typeOf) history init).filterMap (subscribed t)).diff
      ((trace (exec typeOf) history init).filterMap (unsubscribed t))
  notRegistered : ∀ t handler, handler ∉ (run (exec typeOf) history init).broker.handlers t →
    (run (exec typeOf) history init).broker.unsubscribe t handler =
        .error "list.remove(x): x not in list" ∧
      run (exec typeOf) (history ++ [.unsubscribe t handler]) init =
        run (exec typeOf) history init
  independent : ∀ t, (run (exec typeOf) history init).only typeOf t =
    run (exec typeOf) (restrict (exec typeOf) (concerns typeOf t) history init) init

/-- Every history of calls of the broker, those made by handlers included. -/
theorem lawful (typeOf : E → T) (history : List (BrokerAction T E H X)) :
    Lawful typeOf history where
  delivers := by
    rintro pre task call event post rfl hnew
    have hd : (exec typeOf (.publish task call event) (run (exec typeOf) pre init)).dispatches
        call = some (.publish event
          ((run (exec typeOf) pre init).broker.handlers (typeOf event))) := by
      rw [exec_publish_of_new hnew]
      exact resume_dispatches_self
    obtain ⟨d, hrun, hevent, hdelivers⟩ := run_delivers typeOf hd
      (Dispatch.publish_delivers _ _) post
    have houtcomes := (nested typeOf (pre ++ .publish task call event :: post)).2 call
    rw [← houtcomes, outcomes, run_append]
    refine ⟨d, hrun, hevent, hdelivers, ?_⟩
    change _ = (((run (exec typeOf) post _).dispatches call).map _).getD []
    rw [hrun]
    rfl
  inside := (nested typeOf history).1.inside
  registrations := fun t => (registrations typeOf history t).2
  notRegistered := by
    intro t handler hmem
    refine ⟨unsubscribe_of_not_mem hmem, ?_⟩
    rw [run_append, run_singleton]
    exact exec_unsubscribe_of_not_mem hmem
  independent := by
    intro t
    have hrun : only typeOf t (run (exec typeOf) history init) = run (exec typeOf)
        (restrict (exec typeOf) (concerns typeOf t) history init) (only typeOf t init) :=
      run_restrict entered_init (fun a s h => h.effect (exec_effect a))
        (fun a s h => only_exec_of_concerns h) (fun a s h => only_exec_of_not_concerns h) history
    rw [only_init] at hrun
    exact hrun

/-- The first handler of 7 publishes 8 while it runs, and what the handler of 8 raises comes
through it. -/
def nestedHistory : List (BrokerAction Nat Nat Nat String) :=
  [.subscribe 7 1, .subscribe 7 2, .subscribe 8 3, .publish 0 0 7, .publish 0 1 8,
    .handlerEnds 0 (.error "raised"), .handlerEnds 0 (.error "raised")]

theorem lawful_nestedHistory : ∃ d, (run (exec id) nestedHistory init).dispatches 0 = some d ∧
    d.Delivers [1, 2] ∧ d.finished.map Prod.snd = [.error "raised"] := by
  obtain ⟨d, hd, -, hdelivers, houtcomes⟩ := (lawful id nestedHistory).delivers
    [.subscribe 7 1, .subscribe 7 2, .subscribe 8 3] 0 0 7
    [.publish 0 1 8, .handlerEnds 0 (.error "raised"), .handlerEnds 0 (.error "raised")] rfl rfl
  exact ⟨d, hd, hdelivers, houtcomes⟩

end Dispatching

end ClickNBack.Core
