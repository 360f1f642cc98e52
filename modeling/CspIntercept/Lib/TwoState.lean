import Mathlib.Algebra.Order.Field.Basic
import Mathlib.Tactic.FieldSimp
import Mathlib.Tactic.LinearCombination
import Mathlib.Tactic.Linarith

namespace TwoState

variable {K : Type*} [Field K]

/-- The probability of the second state after one turn of the chain that enters it with
    probability `p` and leaves it with probability `r`. -/
def next (p r q : K) : K := (1 - q) * p + q * (1 - r)

/-- A probability of the second state that a turn of the chain keeps. -/
def Stationary (p r q : K) : Prop := next p r q = q

variable {p r q : K}

theorem stationary_iff (hsum : p + r ≠ 0) : Stationary p r q ↔ q = p / (p + r) := by
  rw [eq_div_iff hsum, Stationary, next]
  constructor
  · intro h
    linear_combination -h
  · intro h
    linear_combination -h

end TwoState
