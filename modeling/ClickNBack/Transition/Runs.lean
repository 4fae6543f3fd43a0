import Mathlib.Data.List.Induction
import Mathlib.Data.List.Infix

namespace ClickNBack.Transition

variable {D σ : Type}

def run (exec : σ → D → D) (steps : List σ) (d : D) : D := steps.foldl (fun d s => exec s d) d

variable (exec : σ → D → D)

@[simp] theorem run_nil (d : D) : run exec [] d = d := rfl

@[simp] theorem run_append (l l' : List σ) (d : D) :
    run exec (l ++ l') d = run exec l' (run exec l d) := List.foldl_append

@[simp] theorem run_singleton (s : σ) (d : D) : run exec [s] d = exec s d := rfl

variable {exec} {I P : D → Prop} {C : σ → D → Prop} {d₀ : D}

/-- What holds at the start and is kept by the permitted steps holds after every run. -/
theorem run_invariant (h₀ : I d₀) (hkeep : ∀ s d, I d → C s d → I (exec s d))
    {steps : List σ} (hok : ∀ pre s, pre ++ [s] <+: steps → C s (run exec pre d₀)) :
    I (run exec steps d₀) := by
  induction steps using List.reverseRecOn with
  | nil => exact h₀
  | append_singleton steps s ih =>
    have hpre := ih fun pre t h => hok pre t (h.trans (List.prefix_append _ _))
    rw [run_append, run_singleton]
    exact hkeep s _ hpre (hok steps s (List.prefix_refl _))

theorem forall_prefix_cons {s : σ} {steps : List σ} {d : D} :
    (∀ pre t, pre ++ [t] <+: s :: steps → C t (run exec pre d)) ↔
      C s d ∧ ∀ pre t, pre ++ [t] <+: steps → C t (run exec pre (exec s d)) := by
  constructor
  · intro h
    refine ⟨h [] s (List.prefix_append [s] steps), fun pre t hpre => ?_⟩
    exact h (s :: pre) t (List.cons_prefix_cons.mpr ⟨rfl, hpre⟩)
  · rintro ⟨hhead, htail⟩ pre t hpre
    cases pre with
    | nil =>
      obtain ⟨rfl, -⟩ := List.cons_prefix_cons.mp hpre
      exact hhead
    | cons s' pre =>
      obtain ⟨rfl, hpre'⟩ := List.cons_prefix_cons.mp hpre
      exact htail pre t hpre'

/-- A property that the invariant implies, and that any other step breaks, holds
throughout a run exactly when all its steps are permitted. -/
theorem run_holds_iff (h₀ : I d₀) (hP : ∀ d, I d → P d)
    (hkeep : ∀ s d, I d → C s d → I (exec s d))
    (hbreak : ∀ s d, I d → ¬ C s d → ¬ P (exec s d)) (steps : List σ) :
    (∀ pre, pre <+: steps → P (run exec pre d₀)) ↔
      ∀ pre s, pre ++ [s] <+: steps → C s (run exec pre d₀) := by
  constructor
  · intro h
    suffices hsub : ∀ steps', steps' <+: steps → ∀ pre s, pre ++ [s] <+: steps' →
        C s (run exec pre d₀) from hsub steps (List.prefix_refl _)
    intro steps' hsteps'
    induction steps' using List.reverseRecOn with
    | nil => exact fun pre s hpre => absurd (List.prefix_nil.mp hpre) (by simp)
    | append_singleton steps' t ih =>
      have hok := ih ((List.prefix_append steps' [t]).trans hsteps')
      intro pre s hpre
      obtain heq | hpre := List.prefix_concat_iff.mp hpre
      · obtain ⟨rfl, hs⟩ := List.append_inj' heq rfl
        obtain rfl := List.singleton_inj.mp hs
        by_contra hno
        apply hbreak s _ (run_invariant h₀ hkeep hok) hno
        have hlast := h _ hsteps'
        rwa [run_append, run_singleton] at hlast
      · exact hok pre s hpre
  · intro hok pre hpre
    exact hP _ (run_invariant h₀ hkeep fun pre' s h => hok pre' s (h.trans hpre))

def trace (exec : σ → D → D) : List σ → D → List (σ × D)
  | [], _ => []
  | s :: steps, d => (s, d) :: trace exec steps (exec s d)

theorem trace_append (exec : σ → D → D) (l l' : List σ) (d : D) :
    trace exec (l ++ l') d = trace exec l d ++ trace exec l' (run exec l d) := by
  induction l generalizing d with
  | nil => rfl
  | cons s l ih => exact congrArg (_ :: ·) (ih (exec s d))

def restrict (exec : σ → D → D) (relevant : σ → D → Bool) (steps : List σ) (d : D) : List σ :=
  ((trace exec steps d).filter fun p => relevant p.1 p.2).map Prod.fst

/-- What one sees of a run is what the relevant steps alone make of it, where the other
steps are not seen. -/
theorem run_restrict {relevant : σ → D → Bool} {view : D → D} (h₀ : I d₀)
    (hI : ∀ s d, I d → I (exec s d))
    (hrelevant : ∀ s d, I d → relevant s d = true → view (exec s d) = exec s (view d))
    (hother : ∀ s d, I d → relevant s d = false → view (exec s d) = view d) (steps : List σ) :
    view (run exec steps d₀) = run exec (restrict exec relevant steps d₀) (view d₀) := by
  induction steps generalizing d₀ with
  | nil => rfl
  | cons s steps ih =>
    have hrest := ih (hI s d₀ h₀)
    cases hs : relevant s d₀ with
    | true =>
      rw [hrelevant s d₀ h₀ hs] at hrest
      have hcons : restrict exec relevant (s :: steps) d₀ =
          s :: restrict exec relevant steps (exec s d₀) := by
        simp [restrict, trace, hs]
      rw [hcons]
      exact hrest
    | false =>
      rw [hother s d₀ h₀ hs] at hrest
      have hcons : restrict exec relevant (s :: steps) d₀ =
          restrict exec relevant steps (exec s d₀) := by
        simp [restrict, trace, hs]
      rw [hcons]
      exact hrest

end ClickNBack.Transition
