import Mathlib.Data.List.Basic

/-!
# Exceptions, undefined behaviour and the shared value types

Scalars are a type variable `F` throughout. Results that only compare and subtract hold of any `F`
with these operations, machine floats included; results about order or arithmetic laws name the
structure on `F` they need, and are then about exact arithmetic.
-/

namespace FacePipeline

/-- An exception derived from `std::exception`, with its `what()` text. -/
inductive Exn where
  | invalidArgument (what : String)
  | runtimeError (what : String)
  | outOfRange (what : String)
  | other (what : String)
  deriving DecidableEq, Repr

/-- How a call can end other than by returning: it throws, or its behaviour is undefined. -/
inductive Stop where
  | throws (e : Exn)
  | undefined (what : String)
  deriving DecidableEq, Repr

/-- A sequence of fallible steps succeeds when each of them does. -/
@[simp] theorem bind_ok {ε α β : Type} {x : Except ε α} {f : α → Except ε β} {b : β} :
    (x >>= f) = .ok b ↔ ∃ a, x = .ok a ∧ f a = .ok b := by
  cases x <;> simp [bind, Except.bind]

theorem ok_bind {ε α β : Type} (a : α) (f : α → Except ε β) : (Except.ok a >>= f) = f a := rfl

@[simp] theorem pure_ok {ε α : Type} {a b : α} : (pure a : Except ε α) = .ok b ↔ b = a := by
  simp [pure, Except.pure, eq_comm]

theorem map_ok {ε α β : Type} {x : Except ε α} {f : α → β} {b : β} :
    f <$> x = .ok b ↔ ∃ a, x = .ok a ∧ b = f a := by
  cases x <;> simp [Functor.map, Except.map, eq_comm]

theorem mapError_ok {ε δ α : Type} {x : Except ε α} {f : ε → δ} {a : α} :
    x.mapError f = .ok a ↔ x = .ok a := by
  cases x <;> simp [Except.mapError]

/-- A sequence of stateful steps returns when each of them does. -/
theorem bind_run_ok {ε σ α β : Type} {x : EStateM ε σ α} {f : α → EStateM ε σ β} {b : β} {s s' : σ} :
    (x >>= f).run s = .ok b s' ↔ ∃ a s₁, x.run s = .ok a s₁ ∧ (f a).run s₁ = .ok b s' := by
  rw [EStateM.run_bind]
  cases x.run s <;> simp

/-- A step that returns is followed by the next one. -/
theorem bind_run_of_ok {ε σ α β : Type} {x : EStateM ε σ α} {f : α → EStateM ε σ β} {a : α} {s s' : σ}
    (h : x.run s = .ok a s') : (x >>= f).run s = (f a).run s' := by
  rw [EStateM.run_bind, h]

/-- A step that fails ends the sequence. -/
theorem bind_run_error {ε σ α β : Type} {x : EStateM ε σ α} {f : α → EStateM ε σ β} {e : ε} {s s' : σ}
    (h : x.run s = .error e s') : (x >>= f).run s = .error e s' := by
  rw [EStateM.run_bind, h]

/-- How a call ended. -/
def outcome {ε σ α : Type} : EStateM.Result ε σ α → Except ε α
  | .ok a _ => .ok a
  | .error e _ => .error e

/-- The state a call has left. -/
def stateAfter {ε σ α : Type} : EStateM.Result ε σ α → σ
  | .ok _ s => s
  | .error _ s => s

/-- `cv::Point2f`. -/
@[ext]
structure Point2f (F : Type) where
  x : F
  y : F
  deriving DecidableEq, Repr

/-- `cv::Rect2f`. -/
structure Rect2f (F : Type) where
  x : F
  y : F
  width : F
  height : F
  deriving DecidableEq, Repr

/-- The five landmarks of a face: eyes, nose, mouth corners. -/
abbrev Landmarks (F : Type) := Vector (Point2f F) 5

/-- A face embedding (`Eigen::Matrix<float, Eigen::Dynamic, 1>`). -/
abbrev Embedding (F : Type) := List F

end FacePipeline
