import CspIntercept.Rule.Calibration

open csp_intercept.ci_prng

namespace csp_intercept.ci_rule

/-- The rule under a seed. -/
def CiDropRule.at_seed (r : CiDropRule) (seed : UInt64) : CiDropRule := { r with seed := seed }

/-- The indices below `2 ^ k` that a rule drops. -/
def dropped_below (r : CiDropRule) (k : ℕ) : Set UInt64 := {index | index.toNat < 2 ^ k} ∩ dropped r

variable {s₁ s₂ : UInt64} {k : ℕ}

/-- One draw under the second seed is the draw under the first at a shifted index. -/
theorem ci_draw_xor (s₁ s₂ index : UInt64) : ci_draw s₂ (index ^^^ (s₁ ^^^ s₂)) = ci_draw s₁ index := by
  have hkey : s₂ ^^^ (index ^^^ (s₁ ^^^ s₂)) = s₁ ^^^ index := by
    rw [UInt64.xor_comm s₁ s₂, ← UInt64.xor_assoc index, UInt64.xor_comm index s₂, UInt64.xor_assoc s₂ index,
      ← UInt64.xor_assoc s₂, UInt64.xor_self, UInt64.zero_xor, UInt64.xor_comm]
  rw [ci_draw, ci_draw, hkey]

/-- Without a replay vector a decision depends on the seed through the draw alone. -/
theorem ci_rule_decide_xor (r : CiDropRule) (p : ℚ) (s₁ s₂ index : UInt64) :
    ci_rule_decide ((r.at_seed s₂).at_probability p) (index ^^^ (s₁ ^^^ s₂)) =
      ci_rule_decide ((r.at_seed s₁).at_probability p) index := by
  unfold ci_rule_decide CiDropRule.at_probability CiDropRule.at_seed
  simp only [ci_draw_xor]

/-- Seeds that agree from bit `k` on differ by a word below `2 ^ k`. -/
theorem xor_lt_of_agree (hagree : ∀ b, k ≤ b → s₁.toNat.testBit b = s₂.toNat.testBit b) :
    (s₁ ^^^ s₂).toNat < 2 ^ k := by
  rw [UInt64.toNat_xor]
  apply Nat.lt_pow_two_of_testBit
  intro b hb
  rw [Nat.testBit_xor, hagree b hb, Bool.xor_self]

theorem xor_xor_cancel (index mask : UInt64) : index ^^^ mask ^^^ mask = index := by
  rw [UInt64.xor_assoc, UInt64.xor_self, UInt64.xor_zero]

/-- The indices below a power of two are closed under such a shift. -/
theorem xor_lt_iff {mask : UInt64} (hmask : mask.toNat < 2 ^ k) (index : UInt64) :
    (index ^^^ mask).toNat < 2 ^ k ↔ index.toNat < 2 ^ k := by
  constructor
  · intro h
    have hback := Nat.xor_lt_two_pow h hmask
    rwa [← UInt64.toNat_xor, xor_xor_cancel] at hback
  · intro h
    rw [UInt64.toNat_xor]
    exact Nat.xor_lt_two_pow h hmask

/-- Two seeds that differ below bit `k` only drop the same of the first `2 ^ k` indices up to a
    permutation of them, so they drop equally many. -/
theorem dropped_below_permuted (r : CiDropRule) (p : ℚ)
    (hagree : ∀ b, k ≤ b → s₁.toNat.testBit b = s₂.toNat.testBit b) :
    dropped_below ((r.at_seed s₂).at_probability p) k =
        (fun index => index ^^^ (s₁ ^^^ s₂)) '' dropped_below ((r.at_seed s₁).at_probability p) k ∧
      (dropped_below ((r.at_seed s₂).at_probability p) k).ncard =
        (dropped_below ((r.at_seed s₁).at_probability p) k).ncard := by
  have hmask := xor_lt_of_agree hagree
  have hinv : Function.Involutive fun index => index ^^^ (s₁ ^^^ s₂) :=
    fun index => xor_xor_cancel index (s₁ ^^^ s₂)
  have himage : dropped_below ((r.at_seed s₂).at_probability p) k =
      (fun index => index ^^^ (s₁ ^^^ s₂)) '' dropped_below ((r.at_seed s₁).at_probability p) k := by
    rw [Set.image_eq_preimage_of_inverse hinv.leftInverse hinv.rightInverse]
    ext index
    have hshift := ci_rule_decide_xor r p s₁ s₂ (index ^^^ (s₁ ^^^ s₂))
    rw [xor_xor_cancel] at hshift
    simp only [dropped_below, dropped, Set.preimage_inter, Set.mem_inter_iff, Set.mem_preimage,
      Set.mem_ofPred_eq, xor_lt_iff hmask, hshift]
  exact ⟨himage, by rw [himage, Set.ncard_image_of_injective _ hinv.injective]⟩

/-- A rule over every flow that drops a tenth. -/
def tenth : CiDropRule where
  seed := 1
  match_dport := -1
  match_rdp_syn := false
  drop_probability := 1 / 10
  replay_vector := none
  replay_len := 0

/-- Under the seeds 1 and 5 of a sweep it drops equally many of the first eight indices. -/
theorem dropped_below_permuted_sweep :
    (dropped_below ((tenth.at_seed 5).at_probability (1 / 10)) 3).ncard =
      (dropped_below ((tenth.at_seed 1).at_probability (1 / 10)) 3).ncard := by
  have hagree (b : ℕ) (hb : 3 ≤ b) : (1 : UInt64).toNat.testBit b = (5 : UInt64).toNat.testBit b := by
    have hlow (n : ℕ) (hn : n < 8) : n.testBit b = false :=
      Nat.testBit_lt_two_pow (hn.trans_le (Nat.pow_le_pow_right (n := 2) Nat.two_pos hb))
    exact (hlow 1 (by omega)).trans (hlow 5 (by omega)).symm
  exact (dropped_below_permuted tenth (1 / 10) hagree).2

end csp_intercept.ci_rule
