import ClickNBack.Core.PeriodicTasks
import ClickNBack.VerifyPurchases.Job

namespace ClickNBack.VerifyPurchases

open Relational EventLoop FeatureFlags Purchases ClickNBack.Core
  InMemoryTaskScheduler

/-- The scheduler of the application before its startup, by the settings. -/
def scheduler (specs : Listing Scope) (purchaseConfirmationIntervalSeconds : Int) :
    InMemoryTaskScheduler (JobCoroutine Unit) Int JobException :=
  init.schedule "verify_purchases" (dispatchPendingPurchases specs)
    purchaseConfirmationIntervalSeconds

section

variable (specs : Listing Scope) (interval : Int)

def dispatcherLoop : LoopTask (JobCoroutine Unit) Int JobException :=
  ⟨"verify_purchases", dispatchPendingPurchases specs, interval, .invoking, []⟩

theorem tick_ends {verify : Nat → Purchase → Nat → VerificationResult} {clock : Nat → Nat → Nat}
    {maxAttempts : Int} {s₀ s : Loop World Request.Answer InFlightTracker String JobException}
    {l : List (Answer World Request.Answer InFlightTracker String JobException)}
    (ht : (verifyPurchasesTask specs verify clock maxAttempts).Tick s₀ l s) :
    (s.main = .ret () → (dispatchPendingPurchases specs).Ends (.ok ())) ∧
      ∀ e, s.main = .raise e → (dispatchPendingPurchases specs).Ends (.error e) := by
  refine ⟨fun h => ht.ends (r := .ok ()) ?_, fun e h => ht.ends (r := .error e) ?_⟩
  · rw [h]
    exact .ret ()
  · rw [h]
    exact .raise e

/-- The first session of a tick may fail with any error. -/
theorem dispatcher_ends_error (e : JobException) :
    (dispatchPendingPurchases specs).Ends (.error e) := .await (.error e) (.raise e)

theorem dispatcher_ends_ok : (dispatchPendingPurchases specs).Ends (.ok ()) :=
  .await (.ok ([] : List Purchase)) (.await (.ok ()) (.ret ()))

theorem scheduler_reach : Reach Coro.Ends (fun _ => True) init (scheduler specs interval) :=
  Reach.refl.step trivial (.schedule _ _ _)

theorem scheduler_start :
    (scheduler specs interval).start.tasks = [dispatcherLoop specs interval] ∧
      (scheduler specs interval).start.running.lookup "verify_purchases" = some 0 := ⟨rfl, rfl⟩

def afterTick (outcome : Except JobException Unit) :
    InMemoryTaskScheduler (JobCoroutine Unit) Int JobException :=
  { (scheduler specs interval).start with
    tasks := [(dispatcherLoop specs interval).afterInvocation outcome] }

theorem afterTick_reach {outcome : Except JobException Unit}
    (h : (dispatchPendingPurchases specs).Ends outcome) :
    Reach Coro.Ends (Action.Keeps "verify_purchases") (scheduler specs interval).start
      (afterTick specs interval outcome) := by
  have hstep : Step Coro.Ends (scheduler specs interval).start (.invoked 0 outcome)
      (afterTick specs interval outcome) := .invoked (t := dispatcherLoop specs interval) rfl rfl h
  exact Reach.refl.step (a := .invoked 0 outcome) trivial hstep

end

theorem run_loop_continues_iff_firstTick :
    ∃ n t, (scheduler default 60).start.running.lookup "verify_purchases" = some n ∧
      (afterTick default 60 (.ok ())).tasks[n]? = some t ∧
      t.task = dispatchPendingPurchases default ∧ t.intervalSeconds = 60 ∧
      (t.Continues ↔ ∀ outcome ∈ t.outcomes, outcome = .ok ()) :=
  run_loop_continues_iff (scheduler_reach default 60) rfl
    (afterTick_reach default 60 (dispatcher_ends_ok default))

/-- One failing session is the end of all verification. -/
theorem failingTick_ends_loop :
    ¬ ∀ (specs : Listing Scope) (interval : Int)
      (s : InMemoryTaskScheduler (JobCoroutine Unit) Int JobException),
      Reach Coro.Ends (Action.Keeps "verify_purchases") (scheduler specs interval).start s →
        ∃ n t, (scheduler specs interval).start.running.lookup "verify_purchases" = some n ∧
          s.tasks[n]? = some t ∧ t.Continues := by
  intro h
  obtain ⟨n, t, hn, ht, hcontinues⟩ := h default 60 _
    (afterTick_reach default 60 (dispatcher_ends_error default (.purchase .operationalError)))
  cases (scheduler_start default 60).2.symm.trans hn
  cases ht
  obtain ⟨hstate, -⟩ | ⟨hstate, -⟩ := hcontinues
  · cases hstate
  · cases hstate

end ClickNBack.VerifyPurchases
