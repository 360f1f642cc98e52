import Mathlib.Algebra.BigOperators.Group.List.Basic
import Mathlib.Algebra.GroupWithZero.Nat

namespace Histogram

variable {α : Type*} {bin : α → ℕ}

/-- Count an item in its bin. -/
def bump (bin : α → ℕ) (counts : List ℕ) (a : α) : List ℕ := counts.modify (bin a) (· + 1)

theorem sum_take_modify (counts : List ℕ) (i k : ℕ) :
    ((counts.modify i (· + 1)).take k).sum =
      (counts.take k).sum + if i < k ∧ i < counts.length then 1 else 0 := by
  induction counts generalizing i k with
  | nil => simp
  | cons n counts ih =>
    cases k with
    | zero => simp
    | succ k =>
      cases i with
      | zero =>
        simp
        omega
      | succ i =>
        simp [ih, Nat.add_assoc]

/-- The first bins together hold the items that belong there. -/
theorem sum_take_foldl_bump {counts : List ℕ} {items : List α} (hbin : ∀ a ∈ items, bin a < counts.length) (k : ℕ) :
    ((items.foldl (bump bin) counts).take k).sum = (counts.take k).sum + items.countP (bin · < k) := by
  induction items generalizing counts with
  | nil => simp
  | cons a items ih =>
    have ha : bin a < counts.length := hbin a List.mem_cons_self
    have hlen : (bump bin counts a).length = counts.length := List.length_modify _ counts (bin a)
    rw [List.foldl_cons, ih fun b hb => hlen ▸ hbin b (List.mem_cons_of_mem a hb), bump, sum_take_modify,
      List.countP_cons]
    by_cases hk : bin a < k
    · simp [ha, hk]
      omega
    · simp [hk]

theorem length_foldl_bump (counts : List ℕ) (items : List α) :
    (items.foldl (bump bin) counts).length = counts.length := by
  induction items generalizing counts with
  | nil => rfl
  | cons a items ih => exact (ih _).trans (List.length_modify _ counts (bin a))

end Histogram
