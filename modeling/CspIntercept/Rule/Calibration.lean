import CspIntercept.Lib.Words
import CspIntercept.Rule.Decide
import Mathlib.Algebra.Order.Field.Power
import Mathlib.Tactic.Linarith
import Mathlib.Tactic.Positivity

open csp_intercept.ci_rule

namespace csp_intercept.ci_prng

theorem xor_shift_injective {k : UInt64} (hk : 0 < (k.toBitVec % 64).toNat) :
    Function.Injective fun x : UInt64 => x ^^^ (x >>> k) := by
  intro x y h
  have hbits := congrArg UInt64.toBitVec h
  simp only [UInt64.toBitVec_xor, UInt64.toBitVec_shiftRight, BitVec.ushiftRight_eq'] at hbits
  exact UInt64.toBitVec_inj.1 (Words.xor_ushiftRight_injective hk hbits)

theorem mul_odd_injective {c : UInt64} (hc : c.toBitVec.toNat % 2 = 1) :
    Function.Injective fun x : UInt64 => x * c := by
  intro x y h
  have hbits := congrArg UInt64.toBitVec h
  simp only [UInt64.toBitVec_mul] at hbits
  exact UInt64.toBitVec_inj.1 (Words.mul_odd_injective hc hbits)

/-- No step of splitmix64 loses a bit. -/
theorem ci_splitmix64_injective : Function.Injective ci_splitmix64 := by
  intro x y h
  -- undo the steps from the last one inwards
  have h27 := mul_odd_injective (by decide) (xor_shift_injective (by decide) h)
  have h30 := mul_odd_injective (by decide) (xor_shift_injective (by decide) h27)
  have hsum := xor_shift_injective (by decide) h30
  simpa using hsum

theorem finite_uint64 : Finite UInt64 :=
  Finite.of_injective UInt64.toFin fun _ _ h => UInt64.toFin_inj.1 h

/-- Under one seed, the draws of the indices are a permutation of the words. -/
theorem ci_draw_bijective (seed : UInt64) : Function.Bijective (ci_draw seed) := by
  have : Finite UInt64 := finite_uint64
  apply Finite.injective_iff_bijective.1
  intro i j h
  have hxor : seed ^^^ i = seed ^^^ j := ci_splitmix64_injective h
  simpa using hxor

theorem toBitVec_bijective : Function.Bijective UInt64.toBitVec :=
  ⟨fun _ _ h => UInt64.toBitVec_inj.1 h, fun b => ⟨⟨b⟩, rfl⟩⟩

/-- Exactly as many indices draw below a threshold as the threshold says. -/
theorem ncard_ci_draw_lt (seed threshold : UInt64) :
    {index | ci_draw seed index < threshold}.ncard = threshold.toNat := by
  have hcount := Words.ncard_bijective_lt (toBitVec_bijective.comp (ci_draw_bijective seed))
    (n := threshold.toNat) threshold.toNat_lt.le
  simp only [UInt64.lt_iff_toNat_lt]
  exact hcount

end csp_intercept.ci_prng

namespace csp_intercept.ci_rule

open csp_intercept.ci_prng

/-- A finite double: a significand of 53 bits and an exponent of the format. -/
def IsDouble (p : ℚ) : Prop :=
  ∃ m e : ℤ, |m| < 9007199254740992 ∧ -1074 ≤ e ∧ e ≤ 971 ∧ p = m * 2 ^ e

/-- The product `p * 2^64` of the conversion is again a double, so it is not rounded. -/
theorem IsDouble.scale {p : ℚ} (h : IsDouble p) (hpos : 0 < p) (hlt : p < 1) :
    IsDouble (p * 18446744073709551616) := by
  obtain ⟨m, e, hm, hlo, hhi, rfl⟩ := h
  have hpow : (0 : ℚ) < 2 ^ e := by positivity
  have hm1 : (1 : ℚ) ≤ m := by
    have hm0 : (0 : ℚ) < m := pos_of_mul_pos_left hpos hpow.le
    exact_mod_cast hm0
  have he : e < 0 := by
    have hlt1 : (2 : ℚ) ^ e < 1 := by
      calc (2 : ℚ) ^ e ≤ m * 2 ^ e := le_mul_of_one_le_left hpow.le hm1
        _ < 1 := hlt
    exact (zpow_lt_one_iff_right₀ (by norm_num)).1 hlt1
  refine ⟨m, e + 64, hm, by omega, by omega, ?_⟩
  rw [zpow_add₀ (by norm_num), ← mul_assoc]
  norm_num

/-- Strictly inside the guards the scaled probability fits 64 bits. -/
theorem floor_scale_lt {p : ℚ} (hlt : p < 1) :
    (p * 18446744073709551616).floor.toNat < 18446744073709551616 := by
  have hfloor : (p * 18446744073709551616).floor < 18446744073709551616 := by
    have hscale : p * 18446744073709551616 < 18446744073709551616 := by linarith
    exact Int.floor_lt.2 (by exact_mod_cast hscale)
  omega

theorem ci_threshold_toNat {p : ℚ} (hlt : p < 1) :
    (ci_threshold p).toNat = (p * 18446744073709551616).floor.toNat := by
  unfold ci_threshold
  rw [UInt64.toNat_ofNat']
  exact Nat.mod_eq_of_lt (floor_scale_lt hlt)

theorem ci_threshold_mono {p q : ℚ} (hle : p ≤ q) (hlt : q < 1) :
    (ci_threshold p).toNat ≤ (ci_threshold q).toNat := by
  rw [ci_threshold_toNat (hle.trans_lt hlt), ci_threshold_toNat hlt]
  apply Int.toNat_le_toNat
  exact Int.floor_mono (mul_le_mul_of_nonneg_right hle (by norm_num))

/-- The rule at a probability, without a replay vector. -/
def CiDropRule.at_probability (r : CiDropRule) (p : ℚ) : CiDropRule :=
  { r with drop_probability := p, replay_vector := none }

/-- The indices that a rule drops. -/
def dropped (r : CiDropRule) : Set UInt64 := {index | ci_rule_decide r index = true}

variable {p q : ℚ}

theorem dropped_nonpos (r : CiDropRule) (h : p ≤ 0) : dropped (r.at_probability p) = ∅ := by
  ext index
  simp [dropped, ci_rule_decide, CiDropRule.at_probability, h]

theorem dropped_one_le (r : CiDropRule) (h : 1 ≤ p) : dropped (r.at_probability p) = Set.univ := by
  have hpos : ¬ p ≤ 0 := by linarith
  ext index
  simp [dropped, ci_rule_decide, CiDropRule.at_probability, h, hpos]

theorem dropped_inside (r : CiDropRule) (hpos : 0 < p) (hlt : p < 1) :
    dropped (r.at_probability p) = {index | ci_draw r.seed index < ci_threshold p} := by
  ext index
  change ci_rule_decide (r.at_probability p) index = true ↔ ci_draw r.seed index < ci_threshold p
  simp only [ci_rule_decide, CiDropRule.at_probability, hpos.not_ge, hlt.not_ge, if_false]
  exact decide_eq_true_iff

theorem dropped_mono (r : CiDropRule) (hle : p ≤ q) :
    dropped (r.at_probability p) ⊆ dropped (r.at_probability q) := by
  by_cases hp : p ≤ 0
  · rw [dropped_nonpos r hp]
    exact Set.empty_subset _
  by_cases hq : 1 ≤ q
  · rw [dropped_one_le r hq]
    exact Set.subset_univ _
  have hp : 0 < p := lt_of_not_ge hp
  have hq : q < 1 := lt_of_not_ge hq
  rw [dropped_inside r hp (hle.trans_lt hq), dropped_inside r (hp.trans_le hle) hq]
  intro index hindex
  have hindex : ci_draw r.seed index < ci_threshold p := hindex
  apply UInt64.lt_iff_toNat_lt.2
  exact (UInt64.lt_iff_toNat_lt.1 hindex).trans_le (ci_threshold_mono hle hq)

/-- The identity-keyed injector is calibrated exactly, and a higher probability only
    adds drops. -/
theorem dropped_calibrated (r : CiDropRule) (p : ℚ) :
    (p ≤ 0 → dropped (r.at_probability p) = ∅) ∧
      (0 < p → p < 1 →
        (IsDouble p → IsDouble (p * 18446744073709551616)) ∧
        (p * 18446744073709551616).floor.toNat < 18446744073709551616 ∧
        (dropped (r.at_probability p)).ncard = (p * 18446744073709551616).floor.toNat) ∧
      (1 ≤ p → dropped (r.at_probability p) = Set.univ) ∧
      ∀ q, p ≤ q → dropped (r.at_probability p) ⊆ dropped (r.at_probability q) := by
  refine ⟨dropped_nonpos r, fun hpos hlt => ⟨fun h => h.scale hpos hlt, floor_scale_lt hlt, ?_⟩,
    dropped_one_le r, fun q => dropped_mono r⟩
  rw [dropped_inside r hpos hlt, ncard_ci_draw_lt, ci_threshold_toNat hlt]

end csp_intercept.ci_rule
