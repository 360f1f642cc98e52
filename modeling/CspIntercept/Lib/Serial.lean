import Mathlib.Algebra.Order.Ring.Int
import Mathlib.Data.List.Basic
import Mathlib.Data.List.Infix
import Mathlib.Order.MinMax
import Mathlib.Tactic.Linarith

namespace Serial

/-- A stream of positions stays within a window of its running maximum: each
    position is fewer than `back` behind it and fewer than `ahead` ahead of it. -/
def Within {α : Type*} [LinearOrder α] [Add α] (back ahead : α) : α → List α → Prop
  | _, [] => True
  | top, p :: ps => top < p + back ∧ p < top + ahead ∧ Within back ahead (max top p) ps

instance {α : Type*} [LinearOrder α] [Add α] (back ahead : α) :
    (top : α) → (ps : List α) → Decidable (Within back ahead top ps)
  | _, [] => inferInstanceAs (Decidable True)
  | top, p :: ps =>
    have : Decidable (Within back ahead (max top p) ps) := instDecidableWithin back ahead (max top p) ps
    inferInstanceAs (Decidable (top < p + back ∧ p < top + ahead ∧ Within back ahead (max top p) ps))

section Window

variable {α : Type*} [LinearOrder α] [Add α] {back ahead top : α} {ps qs : List α}

theorem within_append : Within back ahead top (ps ++ qs) ↔
    Within back ahead top ps ∧ Within back ahead (ps.foldl max top) qs := by
  induction ps generalizing top with
  | nil => simp [Within]
  | cons p ps ih => simp [Within, ih, and_assoc]

/-- Every prefix of an admissible stream is admissible. -/
theorem Within.of_prefix (h : Within back ahead top ps) (hinit : qs <+: ps) :
    Within back ahead top qs := by
  obtain ⟨rest, rfl⟩ := hinit
  exact (within_append.mp h).1

end Window

section Maximum

variable {α : Type*} [LinearOrder α]

theorem le_foldl_max (top : α) (ps : List α) : top ≤ ps.foldl max top := by
  induction ps generalizing top with
  | nil => exact le_rfl
  | cons p ps ih => exact (le_max_left top p).trans (ih (max top p))

theorem mem_le_foldl_max {p : α} (top : α) {ps : List α} (hp : p ∈ ps) : p ≤ ps.foldl max top := by
  induction ps generalizing top with
  | nil => cases hp
  | cons q ps ih =>
    cases hp with
    | head => exact (le_max_right top p).trans (le_foldl_max _ ps)
    | tail _ hp => exact ih (max top q) hp

/-- The running maximum is one of the positions. -/
theorem foldl_max_mem (top : α) (ps : List α) : ps.foldl max top ∈ top :: ps := by
  induction ps generalizing top with
  | nil => simp
  | cons p ps ih =>
    have h := ih (max top p)
    rcases max_choice top p with hmax | hmax <;> rw [hmax] at h <;>
      simp only [List.foldl_cons, hmax, List.mem_cons] at h ⊢ <;> tauto

end Maximum

/-- The balanced residue of the distance to any representative of `top` is the
    distance to `top` itself, whenever that lies in the balanced range. -/
theorem bmod_sub_of_emod_eq {p n top : ℤ} {m : ℕ} (hres : n % m = top % m)
    (hlo : -(m : ℤ) ≤ 2 * (p - top)) (hhi : 2 * (p - top) < m) : Int.bmod (p - n) m = p - top := by
  have hcongr : Int.bmod (p - n) m = Int.bmod (p - top) m := by
    rw [← Int.sub_emod_bmod, hres, Int.sub_emod_bmod]
  rw [hcongr]
  exact Int.bmod_eq_of_le_mul_two (by omega) (by omega)

/-- Comparing residues of consecutive positions detects a crossed multiple of the
    modulus exactly when the step does not cross one backwards and does not cross
    one by half the modulus or more. -/
theorem epoch_step_iff {m p q : ℕ} (hback : p ≤ q + m / 2) (hahead : q < p + m) :
    (q / m = p / m + if (m - p % m + q % m) % m < m / 2 ∧ q % m < p % m then 1 else 0) ↔
      q / m = p / m ∨ (p ≤ q ∧ q < p + m / 2) := by
  have hm : 0 < m := by omega
  have hp := Nat.div_add_mod p m
  have hq := Nat.div_add_mod q m
  have hpr := Nat.mod_lt p hm
  have hqr := Nat.mod_lt q hm
  generalize p / m = a, p % m = r, q / m = b, q % m = s at *
  -- the two quotients differ by at most one
  obtain hba | hba | hba : b + 1 = a ∨ b = a ∨ b = a + 1 := by
    have h₁ : m * b < m * (a + 2) := by rw [Nat.mul_add]; omega
    have h₂ : m * a < m * (b + 2) := by rw [Nat.mul_add]; omega
    have h₃ := Nat.lt_of_mul_lt_mul_left h₁
    have h₄ := Nat.lt_of_mul_lt_mul_left h₂
    omega
  · subst hba
    rw [Nat.mul_add] at hp
    have hnot : ¬ s < r := by omega
    rw [if_neg (fun h => hnot h.2)]
    omega
  · subst hba
    have hnot : ¬ ((m - r + s) % m < m / 2 ∧ s < r) := by
      rintro ⟨hfwd, hlt⟩
      rw [Nat.mod_eq_of_lt (by omega)] at hfwd
      omega
    rw [if_neg hnot]
    omega
  · subst hba
    rw [Nat.mul_add] at hq
    have hlt : s < r := by omega
    rw [Nat.mod_eq_of_lt (by omega)]
    by_cases hfwd : m - r + s < m / 2
    · rw [if_pos ⟨hfwd, hlt⟩]
      omega
    · rw [if_neg (fun h => hfwd h.1)]
      omega

end Serial
