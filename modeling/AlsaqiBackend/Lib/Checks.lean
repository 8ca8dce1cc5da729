import Mathlib.Data.List.Basic

/-!
# Checks that throw

A block of `Except` succeeds exactly when each of its parts does. The lemmas take such a block apart, from
its first part on.
-/

namespace AlsaqiBackend.Lib

variable {ε α β : Type} {x : Except ε α} {f : α → Except ε β} {y : Except ε β} {a : α} {b : β} {e : ε}

/-- What follows a part that succeeds. -/
theorem bind_eq_ok : (x >>= f) = .ok b ↔ ∃ a, x = .ok a ∧ f a = .ok b := by
  cases x <;> simp [bind, Except.bind]

theorem pure_eq_ok {b : α} : (pure a : Except ε α) = .ok b ↔ a = b := by
  simp [pure, Except.pure]

/-- `if (p) throw e;` before the rest. -/
theorem ite_throw_eq_ok {p : Prop} [Decidable p] :
    (if p then throw e >>= f else y) = .ok b ↔ ¬ p ∧ y = .ok b := by
  by_cases hp : p
  · simp [hp, bind_eq_ok, throw, throwThe, MonadExceptOf.throw]
  · simp [hp]

end AlsaqiBackend.Lib
