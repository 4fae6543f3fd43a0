import Mathlib.Logic.Function.Basic

namespace ClickNBack.Core

/-- The handlers of every event type, in registration order. -/
def Broker {T : Type} (Payload : T → Type) (M : Type → Type) : Type :=
  (t : T) → List (Payload t → M Unit)

namespace Broker

variable {T : Type} {Payload : T → Type} {M : Type → Type}

def empty : Broker Payload M := fun _ => []

def publish [Monad M] (b : Broker Payload M) {t : T} (event : Payload t) : M Unit :=
  (b t).forM fun handler => handler event

theorem publish_of_nil [Monad M] (b : Broker Payload M) {t : T} (h : b t = [])
    (event : Payload t) : b.publish event = pure () := by
  simp [publish, h]

theorem publish_of_singleton [Monad M] [LawfulMonad M] (b : Broker Payload M) {t : T}
    {handler : Payload t → M Unit} (h : b t = [handler]) (event : Payload t) :
    b.publish event = handler event := by
  simp only [publish, h, List.forM_eq_forM, List.forM_cons, List.forM_nil]
  exact bind_pure_unit

variable [DecidableEq T]

def subscribe (b : Broker Payload M) (t : T) (handler : Payload t → M Unit) : Broker Payload M :=
  Function.update b t (b t ++ [handler])

end Broker

end ClickNBack.Core
