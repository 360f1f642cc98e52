import Mathlib.Algebra.Group.Nat.Defs
import Mathlib.Data.Nat.ModEq
import Mathlib.Data.Nat.GCD.Basic
import Mathlib.Data.Set.Card
import Mathlib.Order.Interval.Set.Nat

namespace Words

variable {w : ℕ}

theorem eq_zero_of_eq_ushiftRight {z : BitVec w} {k : ℕ} (hk : 0 < k) (h : z = z >>> k) : z = 0 := by
  apply BitVec.eq_of_toNat_eq
  have hdiv : z.toNat = z.toNat / 2 ^ k := by
    conv_lhs => rw [h]
    rw [BitVec.toNat_ushiftRight, Nat.shiftRight_eq_div_pow]
  by_contra hne
  have hlt : z.toNat / 2 ^ k < z.toNat :=
    Nat.div_lt_self (by simpa [Nat.pos_iff_ne_zero] using hne) (Nat.one_lt_two_pow hk.ne')
  omega

/-- Mixing a word with its own right shift loses nothing. -/
theorem xor_ushiftRight_injective {k : ℕ} (hk : 0 < k) :
    Function.Injective fun x : BitVec w => x ^^^ (x >>> k) := by
  intro x y h
  have hsum : (x ^^^ y) ^^^ ((x ^^^ y) >>> k) = 0 := by
    have hcross : x ^^^ (x >>> k) ^^^ (y ^^^ (y >>> k)) = 0 := by
      apply BitVec.xor_eq_zero_iff.2
      exact h
    rw [BitVec.ushiftRight_xor_distrib, ← hcross]
    simp only [BitVec.xor_assoc]
    rw [← BitVec.xor_assoc y, BitVec.xor_comm y, BitVec.xor_assoc]
  apply BitVec.xor_eq_zero_iff.1
  exact eq_zero_of_eq_ushiftRight hk (BitVec.xor_eq_zero_iff.1 hsum)

/-- Neither does the multiplication by an odd constant. -/
theorem mul_odd_injective {c : BitVec w} (hc : c.toNat % 2 = 1) :
    Function.Injective fun x : BitVec w => x * c := by
  intro x y h
  have hcop : Nat.gcd (2 ^ w) c.toNat = 1 := by
    apply Nat.Coprime.pow_left
    change Nat.gcd 2 c.toNat = 1
    rw [Nat.gcd_rec, hc]
    rfl
  have hmod : x.toNat * c.toNat ≡ y.toNat * c.toNat [MOD 2 ^ w] := by
    have hnat := congrArg BitVec.toNat h
    simpa only [Nat.ModEq, BitVec.toNat_mul] using hnat
  have hcancel := Nat.ModEq.cancel_right_of_coprime hcop hmod
  apply BitVec.eq_of_toNat_eq
  exact Nat.ModEq.eq_of_lt_of_lt hcancel x.isLt y.isLt

theorem ncard_toNat_lt {n : ℕ} (hn : n ≤ 2 ^ w) : {x : BitVec w | x.toNat < n}.ncard = n := by
  have himage : BitVec.toNat '' {x : BitVec w | x.toNat < n} = Set.Iio n := by
    ext i
    constructor
    · rintro ⟨x, hx, rfl⟩
      exact hx
    · intro hi
      have hi : i < n := hi
      have hval : (BitVec.ofNat w i).toNat = i := by
        rw [BitVec.toNat_ofNat, Nat.mod_eq_of_lt (hi.trans_le hn)]
      exact ⟨BitVec.ofNat w i, by simpa only [Set.mem_ofPred_eq, hval] using hi, hval⟩
  have hinj : Set.InjOn BitVec.toNat {x : BitVec w | x.toNat < n} :=
    fun x _ y _ h => BitVec.eq_of_toNat_eq h
  rw [← hinj.ncard_image, himage]
  exact Set.ncard_Iio_nat n

/-- A bijection onto the words meets a threshold at exactly as many arguments as the
    threshold says. -/
theorem ncard_bijective_lt {α : Type*} {f : α → BitVec w} (hf : Function.Bijective f) {n : ℕ}
    (hn : n ≤ 2 ^ w) : {a | (f a).toNat < n}.ncard = n := by
  have hpre := Set.ncard_preimage_of_injective_subset_range (s := {x : BitVec w | x.toNat < n}) hf.1
    (by rw [hf.2.range_eq]; exact Set.subset_univ _)
  calc {a | (f a).toNat < n}.ncard = {x : BitVec w | x.toNat < n}.ncard := hpre
    _ = n := ncard_toNat_lt hn

end Words
