import Mathlib.Algebra.Order.Field.Power
import Mathlib.Data.Int.Log
import Mathlib.Data.Rat.Floor
import Mathlib.Tactic.Linarith
import Mathlib.Tactic.Positivity

namespace Rounding

/-- The nearest integer; a tie goes to the even one. -/
def nearest (x : ℚ) : ℤ :=
  if x - ⌊x⌋ < 1 / 2 ∨ x - ⌊x⌋ = 1 / 2 ∧ ⌊x⌋ % 2 = 0 then ⌊x⌋ else ⌊x⌋ + 1

theorem floor_le_nearest (x : ℚ) : ⌊x⌋ ≤ nearest x := by
  rw [nearest]
  split_ifs <;> omega

theorem nearest_le_floor_add_one (x : ℚ) : nearest x ≤ ⌊x⌋ + 1 := by
  rw [nearest]
  split_ifs <;> omega

theorem nearest_intCast (n : ℤ) : nearest n = n := by
  rw [nearest, Int.floor_intCast, sub_self, if_pos (.inl (by norm_num))]

theorem nearest_mono {x y : ℚ} (hxy : x ≤ y) : nearest x ≤ nearest y := by
  rcases (Int.floor_le_floor hxy).lt_or_eq with hlt | heq
  · have hx := nearest_le_floor_add_one x
    have hy := floor_le_nearest y
    omega
  · by_cases hy : y - ⌊y⌋ < 1 / 2 ∨ y - ⌊y⌋ = 1 / 2 ∧ ⌊y⌋ % 2 = 0
    · -- what rounds `y` down rounds `x` down
      have hx : x - ⌊x⌋ < 1 / 2 ∨ x - ⌊x⌋ = 1 / 2 ∧ ⌊x⌋ % 2 = 0 := by
        rw [heq]
        have hsub : x - ⌊y⌋ ≤ y - ⌊y⌋ := sub_le_sub_right hxy _
        rcases hy with hlt | ⟨htie, heven⟩
        · exact .inl (hsub.trans_lt hlt)
        · exact (hsub.trans_eq htie).lt_or_eq.imp id fun h => ⟨h, heven⟩
      rw [nearest, nearest, if_pos hx, if_pos hy, heq]
    · have hx := nearest_le_floor_add_one x
      have hup : nearest y = ⌊y⌋ + 1 := if_neg hy
      rwa [hup, ← heq]

theorem lt_nearest {x : ℚ} {n : ℤ} (h : n + 1 / 2 < x) : n < nearest x := by
  have hfloor : n ≤ ⌊x⌋ := Int.le_floor.mpr (by linarith)
  rcases hfloor.lt_or_eq with hlt | heq
  · exact hlt.trans_le (floor_le_nearest x)
  · have hup : ¬ (x - ⌊x⌋ < 1 / 2 ∨ x - ⌊x⌋ = 1 / 2 ∧ ⌊x⌋ % 2 = 0) := by
      rw [← heq]
      rintro (hdown | ⟨htie, -⟩) <;> linarith
    rw [nearest, if_neg hup]
    omega

/-- The binary floating-point numbers with so many digits behind the first one, down to `2 ^ emin`.
    There is no largest one. -/
structure Format where
  fraction : ℕ
  emin : ℤ

namespace Format

variable (F : Format) {x y : ℚ}

/-- The exponent of the last digit of the numbers about `x`. -/
def exponent (x : ℚ) : ℤ := max (Int.log 2 x - F.fraction) F.emin

/-- The nearest multiple of the last digit. -/
def onGrid (x : ℚ) : ℚ := nearest (x / 2 ^ F.exponent x) * 2 ^ F.exponent x

/-- The number of the format that is nearest to `x`; a tie goes to the even one. -/
def rnd (x : ℚ) : ℚ := if 0 ≤ x then F.onGrid x else -F.onGrid (-x)

theorem le_onGrid {z : ℤ} (h : z * 2 ^ F.exponent x ≤ x) : z * 2 ^ F.exponent x ≤ F.onGrid x := by
  have hpow : (0 : ℚ) < 2 ^ F.exponent x := by positivity
  have hz : nearest z ≤ nearest (x / 2 ^ F.exponent x) := nearest_mono ((le_div_iff₀ hpow).mpr h)
  rw [nearest_intCast] at hz
  exact mul_le_mul_of_nonneg_right (by exact_mod_cast hz) hpow.le

theorem onGrid_le {z : ℤ} (h : x ≤ z * 2 ^ F.exponent x) : F.onGrid x ≤ z * 2 ^ F.exponent x := by
  have hpow : (0 : ℚ) < 2 ^ F.exponent x := by positivity
  have hz : nearest (x / 2 ^ F.exponent x) ≤ nearest z := nearest_mono ((div_le_iff₀ hpow).mpr h)
  rw [nearest_intCast] at hz
  exact mul_le_mul_of_nonneg_right (by exact_mod_cast hz) hpow.le

theorem onGrid_nonneg (hx : 0 ≤ x) : 0 ≤ F.onGrid x := by
  have hzero : ((0 : ℤ) : ℚ) * 2 ^ F.exponent x ≤ F.onGrid x := F.le_onGrid (by simpa using hx)
  simpa using hzero

theorem exponent_mono (hx : 0 < x) (hxy : x ≤ y) : F.exponent x ≤ F.exponent y :=
  max_le_max_right _ (sub_le_sub_right (Int.log_mono_right hx hxy) _)

/-- A power of two that is on the grids of both numbers lies between them when the grids differ. -/
theorem onGrid_mono (hx : 0 ≤ x) (hxy : x ≤ y) : F.onGrid x ≤ F.onGrid y := by
  rcases hx.eq_or_lt with rfl | hpos
  · have hzero : F.onGrid 0 = 0 := by simp [onGrid, nearest]
    rw [hzero]
    exact F.onGrid_nonneg hxy
  rcases (F.exponent_mono hpos hxy).eq_or_lt with heq | hlt
  · have hpow : (0 : ℚ) < 2 ^ F.exponent y := by positivity
    rw [onGrid, onGrid, heq]
    have hnear := nearest_mono (div_le_div_of_nonneg_right hxy hpow.le)
    exact mul_le_mul_of_nonneg_right (by exact_mod_cast hnear) hpow.le
  · have hypos : 0 < y := hpos.trans_le hxy
    have hlog : F.exponent y = Int.log 2 y - F.fraction := by
      have hmin : F.emin ≤ F.exponent x := le_max_right _ _
      exact max_eq_left_of_lt ((lt_max_iff.mp (hmin.trans_lt hlt)).resolve_right (lt_irrefl _))
    have hxlog : Int.log 2 x + 1 ≤ Int.log 2 y := by
      have hle : Int.log 2 x - F.fraction ≤ F.exponent x := le_max_left _ _
      omega
    -- `2 ^ log y` is a multiple of both last digits
    have hmultiple {e : ℤ} (he : e ≤ Int.log 2 y) :
        (2 : ℚ) ^ Int.log 2 y = ((2 ^ (Int.log 2 y - e).toNat : ℤ) : ℚ) * 2 ^ e := by
      push_cast
      rw [← zpow_natCast, Int.toNat_of_nonneg (by omega), ← zpow_add₀ (by norm_num)]
      congr 1
      omega
    have hbelow : x ≤ (2 : ℚ) ^ Int.log 2 y := by
      have hlt : x < (2 : ℚ) ^ (Int.log 2 x + 1) := by exact_mod_cast Int.lt_zpow_succ_log_self Nat.one_lt_two x
      exact hlt.le.trans (zpow_le_zpow_right₀ (by norm_num) hxlog)
    have habove : (2 : ℚ) ^ Int.log 2 y ≤ y := by exact_mod_cast Int.zpow_log_le_self Nat.one_lt_two hypos
    have hleft : F.onGrid x ≤ 2 ^ Int.log 2 y := by
      rw [hmultiple (e := F.exponent x) (by omega)] at hbelow ⊢
      exact F.onGrid_le hbelow
    have hright : 2 ^ Int.log 2 y ≤ F.onGrid y := by
      rw [hmultiple (e := F.exponent y) (by omega)] at habove ⊢
      exact F.le_onGrid habove
    exact hleft.trans hright

@[simp] theorem rnd_zero : F.rnd 0 = 0 := by simp [rnd, onGrid, nearest]

theorem rnd_mono (hxy : x ≤ y) : F.rnd x ≤ F.rnd y := by
  rw [rnd, rnd]
  split_ifs with hx hy
  · exact F.onGrid_mono hx hxy
  · exact absurd (hx.trans hxy) hy
  · have hx' := F.onGrid_nonneg (x := -x) (by linarith)
    rename_i hy
    have hy' := F.onGrid_nonneg hy
    linarith
  · exact neg_le_neg (F.onGrid_mono (by linarith) (neg_le_neg hxy))

/-- What is over the middle between a multiple of the last digit and the next one is not rounded down. -/
theorem lt_rnd {n : ℤ} (hx : 0 ≤ x) (h : (n + 1 / 2) * 2 ^ F.exponent x < x) :
    n * 2 ^ F.exponent x < F.rnd x := by
  have hpow : (0 : ℚ) < 2 ^ F.exponent x := by positivity
  have hnear : n < nearest (x / 2 ^ F.exponent x) := lt_nearest ((lt_div_iff₀ hpow).mpr h)
  rw [rnd, if_pos hx]
  exact mul_lt_mul_of_pos_right (by exact_mod_cast hnear) hpow

end Format

/-- The doubles. -/
def binary64 : Format where
  fraction := 52
  emin := -1074

end Rounding
