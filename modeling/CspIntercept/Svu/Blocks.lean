import CspIntercept.Svu.Ranges
import Mathlib.Algebra.Order.Floor.Div

namespace csp_intercept.ci_svu

/-- The blocks that are counted, hashed and reported for a file of `total` bytes cut it up. -/
structure BlocksTile (total block : UInt32) : Prop where
  count : (ci_svu_nblocks total block).toNat = total.toNat ⌈/⌉ block.toNat
  /-- The bytes `hash_block` reads. -/
  hashed : ∀ src, ∀ b < (ci_svu_nblocks total block).toNat, hash_block src total block b =
    Fips180.sha256 ((src.drop (b * block.toNat)).take
      (min ((b + 1) * block.toNat) total.toNat - b * block.toNat))
  /-- The bounds `ci_svu_verify` gives for a block that differs. -/
  reported : ∀ s max acc, s.total = total → s.block = block → ∀ b < (ci_svu_nblocks total block).toNat,
    hash_block s.data total block b ≠ digest s.expected b →
      ∃ i : CiSvuInterval, i.start.toNat = b * block.toNat ∧
        i.end_.toNat = min ((b + 1) * block.toNat) total.toNat ∧
        check_block s max acc b =
          (.CORRUPT, if acc.2.2 < max then acc.2.1.set acc.2.2 i else acc.2.1, acc.2.2 + 1)
  nonempty : ∀ b < (ci_svu_nblocks total block).toNat, (Tiling.span block.toNat total.toNat b).Nonempty
  disjoint : ∀ b < (ci_svu_nblocks total block).toNat, ∀ c < (ci_svu_nblocks total block).toNat, b ≠ c →
    Disjoint (Tiling.span block.toNat total.toNat b) (Tiling.span block.toNat total.toNat c)
  cover : ⋃ b ∈ Set.Iio (ci_svu_nblocks total block).toNat, Tiling.span block.toNat total.toNat b =
    Set.Iio total.toNat
  manifest : ∀ src, (ci_svu_manifest src total block).1 ≠ 0
  receiver : ∀ expected, (ci_svu_new total block expected (ci_svu_nblocks total block)).isSome

section Blocks

variable {total block : UInt32}

/-- The range a block is reported with, in words. -/
theorem check_block_reported {s : CiSvu} {max b : Nat} (acc : CiSvuStatus × List CiSvuInterval × Nat)
    (hb : b * s.block.toNat < s.total.toNat)
    (hdiff : hash_block s.data s.total s.block b ≠ digest s.expected b) :
    ∃ i : CiSvuInterval, i.start.toNat = b * s.block.toNat ∧
      i.end_.toNat = min ((b + 1) * s.block.toNat) s.total.toNat ∧
      check_block s max acc b =
        (.CORRUPT, if acc.2.2 < max then acc.2.1.set acc.2.2 i else acc.2.1, acc.2.2 + 1) := by
  have htotal := s.total.toNat_lt
  have hstart : (UInt32.ofNat (b * s.block.toNat)).toNat = b * s.block.toNat := by
    rw [UInt32.toNat_ofNat']
    exact Nat.mod_eq_of_lt (by omega)
  have hend : (UInt32.ofNat (min ((b + 1) * s.block.toNat) s.total.toNat)).toNat =
      min ((b + 1) * s.block.toNat) s.total.toNat := by
    rw [UInt32.toNat_ofNat']
    exact Nat.mod_eq_of_lt (by omega)
  refine ⟨⟨_, _⟩, hstart, hend, ?_⟩
  have hclip : (if b * s.block.toNat + s.block.toNat > s.total.toNat then s.total.toNat
      else b * s.block.toNat + s.block.toNat) = min ((b + 1) * s.block.toNat) s.total.toNat := by
    rw [Nat.add_mul, Nat.one_mul]
    split_ifs <;> omega
  rw [check_block, if_pos hdiff]
  simp only [hclip]
  rfl

end Blocks

/-- The blocks cut up the file exactly as long as the 32-bit sum in the block count does not wrap. -/
theorem blocks_tile_iff (total block : UInt32) (htotal : 0 < total) (hblock : 0 < block) :
    BlocksTile total block ↔ total.toNat + block.toNat ≤ 4294967296 := by
  rw [UInt32.lt_iff_toNat_lt, UInt32.toNat_zero] at htotal hblock
  refine Iff.trans ?_ (ci_svu_nblocks_ne_zero_iff htotal hblock)
  constructor
  · exact fun htile => htile.manifest []
  · intro hne
    obtain ⟨-, hpos, hcount⟩ := ci_svu_nblocks_toNat hne
    have hinside : ∀ b < (ci_svu_nblocks total block).toNat, b * block.toNat < total.toNat := by
      intro b hb
      rw [hcount] at hb
      exact Tiling.start_lt_total hpos hb
    refine ⟨?_, fun src b _ => hash_block_eq src total block b, ?_, ?_, ?_, ?_, fun src => hne, fun expected => ?_⟩
    · rw [hcount, Nat.ceilDiv_eq_add_pred_div]
    · rintro s max acc rfl rfl b hb hdiff
      exact check_block_reported acc (hinside b hb) hdiff
    · intro b hb
      rw [hcount] at hb
      exact Tiling.span_nonempty hpos hb
    · exact fun b _ c _ hbc => Tiling.disjoint_span hpos hbc
    · rw [hcount]
      exact Tiling.iUnion_span hpos
    · simp [ci_svu_new, hne]

/-- Five bytes in blocks of two. -/
theorem blocks_tile_iff_five : BlocksTile 5 2 :=
  (blocks_tile_iff 5 2 (by decide) (by decide)).mpr (by decide)

/-- All but one byte of 4 GiB in blocks of two: no block at all, and neither a manifest nor a receiver. -/
theorem no_block_of_two : ¬ ∀ total block : UInt32, 0 < total → 0 < block → BlocksTile total block := by
  intro hall
  have hcount := (hall 4294967295 2 (by decide) (by decide)).manifest []
  exact hcount rfl

end csp_intercept.ci_svu
