import CspIntercept.Inject.GilbertElliott
import CspIntercept.Lib.TwoState
import CspIntercept.Rule.Calibration

open csp_intercept.ci_prng csp_intercept.ci_rule

namespace csp_intercept.ci_ge

/-- Transition probabilities, into BAD and out of it, for a target loss and mean burst. -/
def ci_ge_params (loss mean_burst : ℚ) : ℚ × ℚ :=
  let mean_burst := if mean_burst < 1 then 1 else mean_burst
  let r := 1 / mean_burst
  if loss ≤ 0 then (0, r)
  else if 1 ≤ loss then (1, 0)
  else
    let p := r * loss / (1 - loss)
    (if 1 < p then 1 else p, r)

/-- The counter values at which the chain leaves the state it is in. -/
def ci_ge_flips (st : CiGeState) : Set UInt64 :=
  {step | (ci_ge_state_step { st with step := step }).1.bad ≠ st.bad}

/-- Out of all words, as many flip the chain as the threshold of its state says. -/
theorem ncard_ci_ge_flips (st : CiGeState) :
    (ci_ge_flips st).ncard = (if st.bad then st.t_b2g else st.t_g2b).toNat := by
  have hflips : ci_ge_flips st =
      {step | ci_draw st.seed step < if st.bad then st.t_b2g else st.t_g2b} := by
    ext step
    rw [ci_ge_flips, Set.mem_ofPred_eq, Set.mem_ofPred_eq, ci_ge_state_step]
    cases hbad : st.bad
    · by_cases hdraw : ci_draw st.seed step < st.t_g2b <;> simp [hdraw]
    · by_cases hdraw : ci_draw st.seed step < st.t_b2g <;> simp [hdraw]
  rw [hflips, ncard_ci_draw_lt]

/-- A threshold is its probability to within one word. -/
theorem ci_ge_threshold_close {p : ℚ} (hpos : 0 ≤ p) (hle : p ≤ 1) :
    |((ci_ge_threshold p).toNat : ℚ) / 18446744073709551616 - p| ≤ 1 / 18446744073709551616 := by
  have hscale : |((ci_ge_threshold p).toNat : ℚ) - p * 18446744073709551616| ≤ 1 := by
    unfold ci_ge_threshold
    split_ifs with hzero hone
    · have hp : p = 0 := le_antisymm hzero hpos
      rw [hp]
      norm_num
    · have hp : p = 1 := le_antisymm hle hone
      rw [hp]
      have hmax : (0xFFFFFFFFFFFFFFFF : UInt64).toNat = 18446744073709551615 := rfl
      rw [hmax]
      norm_num
    · rw [ci_threshold_toNat (lt_of_not_ge hone)]
      have hscaled : ((0 : ℤ) : ℚ) ≤ p * 18446744073709551616 := by positivity
      have hcast : (((p * 18446744073709551616).floor.toNat : ℕ) : ℚ) = (p * 18446744073709551616).floor := by
        exact_mod_cast Int.toNat_of_nonneg (Rat.le_floor_iff.2 hscaled)
      have hlo := Rat.floor_le (p * 18446744073709551616)
      have hhi := Rat.lt_floor_add_one (p * 18446744073709551616)
      push_cast at hhi
      rw [hcast, abs_le]
      exact ⟨by linarith, by linarith⟩
  have hdiv : ((ci_ge_threshold p).toNat : ℚ) / 18446744073709551616 - p =
      ((ci_ge_threshold p).toNat - p * 18446744073709551616) / 18446744073709551616 := by
    field_simp
  rw [hdiv, abs_div, abs_of_pos (a := (18446744073709551616 : ℚ)) (by norm_num)]
  exact div_le_div_of_nonneg_right hscale (by norm_num)

/-- The share of the words that flip the chain. -/
noncomputable def ci_ge_flip_share (st : CiGeState) : ℚ := (ci_ge_flips st).ncard / 18446744073709551616

/-- The chain of a pair of probabilities after `n` transmissions. -/
def ci_ge_chain (seed : UInt64) (p_g2b p_b2g : ℚ) (n : ℕ) : CiGeState :=
  (Transducer.run (fun st (_ : Unit) => ci_ge_state_step st) (ci_ge_state_init seed p_g2b p_b2g)
    (List.replicate n ())).1

/-- A step leaves the thresholds alone. -/
theorem ci_ge_state_step_thresholds (st : CiGeState) :
    (ci_ge_state_step st).1.t_g2b = st.t_g2b ∧ (ci_ge_state_step st).1.t_b2g = st.t_b2g := by
  unfold ci_ge_state_step
  dsimp only
  split_ifs <;> exact ⟨rfl, rfl⟩

/-- The pair means to the chain what it says: in either state, the share of the words that
    leave it is the probability of leaving it, to within one word. -/
theorem ci_ge_chain_flip_share {p r : ℚ} (hp : 0 ≤ p ∧ p ≤ 1) (hr : 0 ≤ r ∧ r ≤ 1) (seed : UInt64)
    (n : ℕ) :
    |ci_ge_flip_share (ci_ge_chain seed p r n) - if (ci_ge_chain seed p r n).bad then r else p| ≤
      1 / 18446744073709551616 := by
  have hthresholds : (ci_ge_chain seed p r n).t_g2b = ci_ge_threshold p ∧
      (ci_ge_chain seed p r n).t_b2g = ci_ge_threshold r := by
    apply Transducer.run_invariant (fun st : CiGeState =>
      st.t_g2b = ci_ge_threshold p ∧ st.t_b2g = ci_ge_threshold r)
    · intro st _ h
      obtain ⟨hg2b, hb2g⟩ := ci_ge_state_step_thresholds st
      exact ⟨hg2b.trans h.1, hb2g.trans h.2⟩
    · exact ⟨rfl, rfl⟩
  rw [ci_ge_flip_share, ncard_ci_ge_flips, hthresholds.1, hthresholds.2]
  cases (ci_ge_chain seed p r n).bad
  · exact ci_ge_threshold_close hp.1 hp.2
  · exact ci_ge_threshold_close hr.1 hr.2

section Targets

variable {loss mean_burst : ℚ}

/-- Inside the guards: the burst length fixes the way out, and the way in is clamped. -/
theorem ci_ge_params_inside (hpos : 0 < loss) (hlt : loss < 1) (hburst : 1 ≤ mean_burst) :
    ci_ge_params loss mean_burst =
      (min 1 (1 / mean_burst * loss / (1 - loss)), 1 / mean_burst) := by
  have hmin (p : ℚ) : (if 1 < p then 1 else p) = min 1 p := by
    rw [min_def]
    split_ifs <;> linarith
  unfold ci_ge_params
  rw [if_neg (not_lt.2 hburst), if_neg (not_le.2 hpos), if_neg (not_le.2 hlt)]
  simp only [hmin]

/-- The clamp acts exactly on the targets that bursts of this length cannot reach. -/
theorem ci_ge_params_clamp_iff (hlt : loss < 1) (hburst : 1 ≤ mean_burst) :
    1 / mean_burst * loss / (1 - loss) ≤ 1 ↔ loss ≤ mean_burst / (mean_burst + 1) := by
  have hb : 0 < mean_burst := by linarith
  have hgood : 0 < 1 - loss := by linarith
  rw [div_le_one hgood, one_div_mul_eq_div, div_le_iff₀ hb, le_div_iff₀ (by linarith)]
  constructor <;> intro h <;> linarith

/-- The loss that the pair stands for: the target, or the most that such bursts can make. -/
theorem ci_ge_params_ratio (hpos : 0 < loss) (hlt : loss < 1) (hburst : 1 ≤ mean_burst) :
    (ci_ge_params loss mean_burst).1 /
        ((ci_ge_params loss mean_burst).1 + (ci_ge_params loss mean_burst).2) =
      min loss (mean_burst / (mean_burst + 1)) := by
  have hb : 0 < mean_burst := by linarith
  have hgood : 0 < 1 - loss := by linarith
  rw [ci_ge_params_inside hpos hlt hburst]
  by_cases hreach : loss ≤ mean_burst / (mean_burst + 1)
  · rw [min_eq_right ((ci_ge_params_clamp_iff hlt hburst).2 hreach), min_eq_left hreach]
    have hsum : 1 / mean_burst * loss / (1 - loss) + 1 / mean_burst = 1 / mean_burst / (1 - loss) := by
      field_simp
      ring
    rw [hsum]
    field_simp
  · have hclamp : 1 ≤ 1 / mean_burst * loss / (1 - loss) := by
      by_contra hnot
      exact hreach ((ci_ge_params_clamp_iff hlt hburst).1 (le_of_not_ge hnot))
    rw [min_eq_left hclamp, min_eq_right (le_of_not_ge hreach)]
    field_simp

theorem ci_ge_params_bounds (hpos : 0 < loss) (hlt : loss < 1) (hburst : 1 ≤ mean_burst) :
    (0 < (ci_ge_params loss mean_burst).1 ∧ (ci_ge_params loss mean_burst).1 ≤ 1) ∧
      (0 < (ci_ge_params loss mean_burst).2 ∧ (ci_ge_params loss mean_burst).2 ≤ 1) := by
  have hb : 0 < mean_burst := by linarith
  have hgood : 0 < 1 - loss := by linarith
  rw [ci_ge_params_inside hpos hlt hburst]
  refine ⟨⟨lt_min one_pos ?_, min_le_left _ _⟩, one_div_pos.2 hb, (div_le_one hb).2 hburst⟩
  exact div_pos (mul_pos (one_div_pos.2 hb) hpos) hgood

/-- The pair computed for a target inside the guards is a pair of probabilities, the way out
    is the inverse of the burst length, and the chain that runs it has one stationary
    probability of BAD: the target, capped at what bursts of that length can reach. -/
theorem ci_ge_params_delivers (loss mean_burst : ℚ) (hpos : 0 < loss) (hlt : loss < 1)
    (hburst : 1 ≤ mean_burst) :
    ∃ p r, ci_ge_params loss mean_burst = (p, r) ∧
      (0 < p ∧ p ≤ 1) ∧ (0 < r ∧ r ≤ 1) ∧ r = 1 / mean_burst ∧
      (∀ seed n, |ci_ge_flip_share (ci_ge_chain seed p r n) -
          if (ci_ge_chain seed p r n).bad then r else p| ≤ 1 / 18446744073709551616) ∧
      (∀ bad, TwoState.Stationary p r bad ↔ bad = p / (p + r)) ∧
      p / (p + r) = min loss (mean_burst / (mean_burst + 1)) := by
  obtain ⟨hp, hr⟩ := ci_ge_params_bounds hpos hlt hburst
  have hsum : (ci_ge_params loss mean_burst).1 + (ci_ge_params loss mean_burst).2 ≠ 0 := (add_pos hp.1 hr.1).ne'
  refine ⟨_, _, rfl, hp, hr, ?_, ci_ge_chain_flip_share ⟨hp.1.le, hp.2⟩ ⟨hr.1.le, hr.2⟩,
    fun _ => TwoState.stationary_iff hsum, ci_ge_params_ratio hpos hlt hburst⟩
  exact congrArg Prod.snd (ci_ge_params_inside hpos hlt hburst)

/-- A tenth lost in bursts of five is within reach of the chain. -/
theorem ci_ge_params_delivers_tenth :
    (ci_ge_params (1 / 10) 5).1 / ((ci_ge_params (1 / 10) 5).1 + (ci_ge_params (1 / 10) 5).2) =
      1 / 10 := by
  obtain ⟨p, r, hpair, -, -, -, -, -, hratio⟩ :=
    ci_ge_params_delivers (1 / 10) 5 (by norm_num) (by norm_num) (by norm_num)
  rw [hpair, hratio]
  norm_num

/-- Three quarters lost in bursts of one: the pair is clamped to a chain that loses half. -/
theorem ci_ge_params_misses_target :
    ci_ge_params (3 / 4) 1 = (1, 1) ∧
      (ci_ge_params (3 / 4) 1).1 / ((ci_ge_params (3 / 4) 1).1 + (ci_ge_params (3 / 4) 1).2) ≠ 3 / 4 := by
  have hpair : ci_ge_params (3 / 4) 1 = (1, 1) := by
    rw [ci_ge_params_inside (by norm_num) (by norm_num) le_rfl]
    norm_num
  refine ⟨hpair, ?_⟩
  rw [hpair]
  norm_num

end Targets

end csp_intercept.ci_ge
