import ClickNBack.EventLoop.Loop

namespace ClickNBack.EventLoop

variable {Q : Type} {R : Q → Type} {M X E W α β : Type}

namespace Coro

def Settled : Coro R M X E α → Prop
  | .ret _ | .raise _ | .await _ _ => True
  | .read _ | .write _ _ | .spawn _ _ => False

end Coro

namespace Job

variable (J : Job W R M X E) (I : Shared R M X E → Prop)
  (G : Shared R M X E → Shared R M X E → Prop)
  (P : Except E α → List (Answer W R M X E) → Shared R M X E → Prop)

/-- The coroutine keeps `I` at every await and meets `P` at its end, if the others
keep `I` and `G` while it is suspended. -/
def Meets : Coro R M X E α → List (Answer W R M X E) → Shared R M X E → Prop
  | .ret a, l, σ => I σ ∧ P (.ok a) l σ
  | .raise e, l, σ => I σ ∧ P (.error e) l σ
  | .read k, l, σ => Meets (k σ.memory) l σ
  | .write m c, l, σ => Meets c l { σ with memory := m }
  | .spawn x k, l, σ => Meets (k σ.tasks.length) l (J.create x σ)
  | .await q k, l, σ => I σ ∧ ∀ σ', G σ σ' → I σ' → ∀ w r, J.Answers w q r →
      Meets (k r) (l ++ [⟨w, σ', q, r⟩]) σ'

/-- What the others do between two awaits. -/
structure Relies : Prop where
  refl (σ : Shared R M X E) : G σ σ
  trans {σ σ' σ'' : Shared R M X E} : G σ σ' → G σ' σ'' → G σ σ''
  other {s s' : Loop W R M X E} : I s.shared → J.Other s s' → I s'.shared ∧ G s.shared s'.shared

/-- The others cannot undo the postcondition. -/
def Stable : Prop := ∀ r l σ σ', P r l σ → G σ σ' → P r l σ'

section

variable {J I G P} {c : Coro R M X E α} {l : List (Answer W R M X E)} {σ σ' : Shared R M X E}

theorem settled_settle (c : Coro R M X E α) (σ : Shared R M X E) : (J.settle c σ).1.Settled := by
  induction c generalizing σ with
  | ret a | raise e | await q k ih => trivial
  | read k ih | spawn x k ih => exact ih _ _
  | write m c ih => exact ih _

theorem Meets.settle (h : J.Meets I G P c l σ) :
    J.Meets I G P (J.settle c σ).1 l (J.settle c σ).2 := by
  induction c generalizing σ with
  | ret a | raise e | await q k ih => exact h
  | read k ih | spawn x k ih => exact ih _ h
  | write m c ih => exact ih h

theorem Meets.invariant (h : J.Meets I G P c l σ) (hc : c.Settled) : I σ := by
  cases c with
  | ret a | raise e | await q k => exact h.1
  | read k | write m c | spawn x k => exact hc.elim

theorem Meets.rely (hG : J.Relies I G) (hP : Stable G P) (h : J.Meets I G P c l σ)
    (hc : c.Settled) (hσ : G σ σ') (hI : I σ') : J.Meets I G P c l σ' := by
  cases c with
  | ret a | raise e => exact ⟨hI, hP _ _ _ _ h.2 hσ⟩
  | await q k => exact ⟨hI, fun σ'' hσ' => h.2 σ'' (hG.trans hσ hσ')⟩
  | read k | write m c | spawn x k => exact hc.elim

end

variable {J I G} {P : Except E Unit → List (Answer W R M X E) → Shared R M X E → Prop}
  {s₀ s : Loop W R M X E} {l : List (Answer W R M X E)}

/-- In every state of a tick, the rest of the job meets its specification. -/
theorem Tick.meets (hG : J.Relies I G) (hP : Stable G P) (hmain : J.Meets I G P J.main [] s₀.shared)
    (ht : J.Tick s₀ l s) : s.main.Settled ∧ J.Meets I G P s.main l s.shared := by
  induction ht with
  | start h => exact ⟨settled_settle _ _, hmain.settle⟩
  | @main l s q k r ht h hr ih =>
    obtain ⟨-, hmeets⟩ := ih
    rw [h] at hmeets
    exact ⟨settled_settle _ _, (hmeets.2 s.shared (hG.refl _) hmeets.1 s.world r hr).settle⟩
  | other ht hs ih =>
    obtain ⟨hsettled, hmeets⟩ := ih
    obtain ⟨hI, hσ⟩ := hG.other (hmeets.invariant hsettled) hs
    rw [hs.main_eq]
    exact ⟨hsettled, hmeets.rely hG hP hsettled hσ hI⟩

end Job

end ClickNBack.EventLoop
