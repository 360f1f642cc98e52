import Mathlib.Data.Int.ModEq
import Mathlib.Data.Set.Insert
import Mathlib.Order.Lattice

namespace CircularWindow

variable {β : Type*} {m : ℤ}

/-- An array of flags addressed by integers modulo `m`, in any representation. -/
structure Flags (β : Type*) (m : ℤ) where
  get : β → ℤ → Bool
  set : β → ℤ → Bool → β
  get_congr : ∀ {b p q}, p ≡ q [ZMOD m] → get b p = get b q
  get_set : ∀ b p v q, get (set b p v) q = if p ≡ q [ZMOD m] then v else get b q

/-- On the last `m` positions up to `top` the flags are exactly the set `S`. -/
def Represents (F : Flags β m) (b : β) (S : Set ℤ) (top : ℤ) : Prop :=
  ∀ p, top - m < p → p ≤ top → (F.get b p = true ↔ p ∈ S)

/-- Two positions of one window share a slot only when they are the same. -/
theorem eq_of_modEq {top p q : ℤ} (hp : top - m < p) (hptop : p ≤ top) (hq : top - m < q)
    (hqtop : q ≤ top) (hslot : p ≡ q [ZMOD m]) : p = q := by
  have hdvd : m ∣ q - p := hslot.dvd
  have habs : |q - p| < m := by
    rw [abs_lt]
    omega
  have hzero : q - p = 0 := Int.eq_zero_of_abs_lt_dvd hdvd habs
  omega

/-- Marking a position of the window adds that position to the set. -/
theorem Represents.mark {F : Flags β m} {b : β} {S : Set ℤ} {top p : ℤ}
    (h : Represents F b S top) (hlo : top - m < p) (hhi : p ≤ top) :
    Represents F (F.set b p true) (insert p S) top := by
  intro q hqlo hqhi
  rw [F.get_set]
  by_cases hslot : p ≡ q [ZMOD m]
  · have hpq : p = q := eq_of_modEq hlo hhi hqlo hqhi hslot
    simp [hpq]
  · have hne : q ≠ p := by
      rintro rfl
      exact hslot rfl
    simp [hslot, hne, h q hqlo hqhi]

/-- `b'` is `b` with the positions from `lo` up to, but not including, `hi` cleared. -/
def Cleared (F : Flags β m) (b b' : β) (lo hi : ℤ) : Prop :=
  ∀ q, F.get b' q = true ↔ F.get b q = true ∧ ∀ p, lo ≤ p → p < hi → ¬ p ≡ q [ZMOD m]

theorem Cleared.nil {F : Flags β m} {b : β} {lo hi : ℤ} (hempty : hi ≤ lo) :
    Cleared F b b lo hi := by
  intro q
  refine ⟨fun h => ⟨h, ?_⟩, fun h => h.1⟩
  intro p hlo hhi
  omega

/-- A clearing loop, one position at a time. -/
theorem Cleared.cons {F : Flags β m} {b b' : β} {lo hi : ℤ} (hlt : lo < hi)
    (h : Cleared F (F.set b lo false) b' (lo + 1) hi) : Cleared F b b' lo hi := by
  intro q
  rw [h q, F.get_set]
  by_cases hslot : lo ≡ q [ZMOD m]
  · simp only [hslot, if_true, Bool.false_eq_true, false_and, false_iff, not_and]
    intro _ hall
    exact hall lo le_rfl hlt hslot
  · simp only [hslot, if_false, and_congr_right_iff]
    intro _
    refine ⟨fun hall p hlo hhi => ?_, fun hall p hlo hhi => hall p (by omega) hhi⟩
    by_cases hp : p = lo
    · rwa [hp]
    · exact hall p (by omega) hhi

/-- Moving the window forward: when the slots between the old and the new top are
    cleared, as far back as the window reaches, marking the new top represents the
    set with the new top added, whatever the size of the jump. -/
theorem Represents.advance {F : Flags β m} {b b' : β} {S : Set ℤ} {top new lo : ℤ}
    (h : Represents F b S top) (hS : ∀ p ∈ S, p ≤ top) (hnew : top < new)
    (hlo : top < lo) (hreach : lo = top + 1 ∨ lo ≤ new - m + 1)
    (hclear : Cleared F b b' lo new) :
    Represents F (F.set b' new true) (insert new S) new := by
  intro q hqlo hqhi
  rw [F.get_set]
  by_cases hslot : new ≡ q [ZMOD m]
  · have hq : new = q := eq_of_modEq (by omega) le_rfl hqlo hqhi hslot
    simp [hq]
  · have hne : q ≠ new := by
      rintro rfl
      exact hslot rfl
    simp only [hslot, if_false, Set.mem_insert_iff, hne, false_or]
    rw [hclear q]
    by_cases hold : q ≤ top
    · -- an old position: no cleared slot aliases it
      have hwin : F.get b q = true ↔ q ∈ S := h q (by omega) hold
      rw [hwin, and_iff_left_iff_imp]
      intro _ p hplo hphi hpq
      have heq : p = q := eq_of_modEq (by omega) (by omega) hqlo hqhi hpq
      omega
    · -- a newly exposed position was cleared and is in no set bounded by `top`
      have hnot : q ∉ S := fun hmem => hold (hS q hmem)
      simp only [hnot, iff_false, not_and]
      intro _ hall
      exact hall q (by omega) (by omega) rfl

end CircularWindow
