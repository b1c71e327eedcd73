import Amqp.Fault

/-!
# Actions

An action changes a state and gives a result.  It can stop short: on a fault, or because it is still
waiting when the observed time is over.  What it had changed by then stays changed.
-/

namespace Amqp

/-- Why an action stopped before its end. -/
inductive Halt where
  | fault (cause : Fault)
  | stalled

/-- A computation over a state that keeps its changes when it stops short. -/
abbrev Action (σ α : Type) := EStateM Halt σ α

namespace Action

variable {σ τ α : Type}

/-- Stops on a fault. -/
def raise (f : Fault) : Action σ α := throw (.fault f)

/-- The result of a check. -/
def ofExcept : Except Fault α → Action σ α
  | .ok a => pure a
  | .error f => raise f

/-- Runs an action and passes over its fault. -/
def tolerant (x : Action σ Unit) : Action σ Unit := fun s =>
  match x s with
  | .error (.fault _) s => .ok () s
  | r => r

/-- Runs an action on a part of the state. -/
def within (part : σ → τ) (replace : τ → σ → σ) (x : Action τ α) : Action σ α := fun s =>
  match x (part s) with
  | .ok a t => .ok a (replace t s)
  | .error e t => .error e (replace t s)

/-! ## Actions one after another -/

variable {β : Type} {x : Action σ α} {f : α → Action σ β} {s t : σ}

theorem bind_of_ok {a : α} (h : x s = .ok a t) : (x >>= f) s = f a t := by
  change EStateM.bind x f s = f a t
  unfold EStateM.bind
  rw [h]

theorem bind_of_error {halt : Halt} (h : x s = .error halt t) : (x >>= f) s = .error halt t := by
  change EStateM.bind x f s = .error halt t
  unfold EStateM.bind
  rw [h]

theorem get_bind (f : σ → Action σ β) (s : σ) : (get >>= f) s = f s s := bind_of_ok rfl

theorem ofExcept_ok_bind (a : α) (f : α → Action σ β) (s : σ) :
    (ofExcept (.ok a) >>= f) s = f a s := bind_of_ok rfl

end Action

end Amqp
