import Mathlib.Algebra.Order.Group.Nat
import Mathlib.Data.Finset.Card
import Mathlib.Data.Finset.Range

namespace Growth

variable {α : Type*} {held : ℕ → Finset α} {goal : Finset α} {n : ℕ}

/-- What a growing set holds after `n` steps is at least as much as the steps in `P` that
    add something to it. -/
theorem card_le_of_grows (hmono : ∀ r, held r ⊆ held (r + 1)) {P : Finset ℕ} (hP : P ⊆ Finset.range n)
    (hgrow : ∀ r ∈ P, held r ≠ held (r + 1)) : P.card ≤ (held n).card := by
  induction n generalizing P with
  | zero =>
    rw [Finset.range_zero, Finset.subset_empty] at hP
    rw [hP, Finset.card_empty]
    exact Nat.zero_le _
  | succ n ih =>
    have hrest := ih (P := P.erase n) (fun r hr => ?_) fun r hr => hgrow r (Finset.mem_of_mem_erase hr)
    · by_cases hn : n ∈ P
      · have hcard := Finset.card_erase_add_one hn
        have hlt := Finset.card_lt_card ((hmono n).ssubset_of_ne (hgrow n hn))
        omega
      · rw [Finset.erase_eq_of_notMem hn] at hrest
        exact hrest.trans (Finset.card_le_card (hmono n))
    · obtain ⟨hne, hmem⟩ := Finset.mem_erase.mp hr
      have hlt := Finset.mem_range.mp (hP hmem)
      exact Finset.mem_range.mpr (by omega)

/-- A set that grows inside a goal, in as many steps as the goal has members, reaches it. -/
theorem eq_goal_of_grows (hmono : ∀ r, held r ⊆ held (r + 1)) (hgoal : held n ⊆ goal) {P : Finset ℕ}
    (hP : P ⊆ Finset.range n) (hgrow : ∀ r ∈ P, held r ≠ held (r + 1)) (hcard : goal.card ≤ P.card) :
    held n = goal :=
  Finset.eq_of_subset_of_card_le hgoal (hcard.trans (card_le_of_grows hmono hP hgrow))

end Growth
