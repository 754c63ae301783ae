import Mathlib.Algebra.BigOperators.Group.List.Basic
import Mathlib.Algebra.CharZero.Defs
import Mathlib.Algebra.Field.Basic

/-! # The rolling mean

A mean kept beside a count: the next value `x` turns the mean `m` of `n` values into
`(m * n + x) / (n + 1)`. Over a field it is the sum over the count (`mean_concat`), so it does not
depend on the order of the values.
-/

namespace RollingMean

variable {K : Type _} [Field K]

/-- The mean of no values is `0`. -/
def mean (xs : List K) : K := xs.sum / xs.length

@[simp] theorem mean_nil : mean ([] : List K) = 0 := by simp [mean]

@[simp] theorem mean_singleton (x : K) : mean [x] = x := by simp [mean]

variable [CharZero K]

theorem mean_mul_length (xs : List K) : mean xs * xs.length = xs.sum := by
  cases xs with
  | nil => simp
  | cons x xs =>
    have hne : (((x :: xs).length : Nat) : K) ≠ 0 := by
      rw [Nat.cast_ne_zero, List.length_cons]
      exact Nat.succ_ne_zero _
    exact div_mul_cancel₀ _ hne

/-- **One more value.** -/
theorem mean_concat (xs : List K) (x : K) :
    mean (xs ++ [x]) = (mean xs * xs.length + x) / (xs.length + 1) := by
  rw [mean_mul_length, mean, List.sum_append, List.sum_singleton, List.length_append,
    List.length_singleton, Nat.cast_add, Nat.cast_one]

end RollingMean
