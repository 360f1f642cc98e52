import CspIntercept.Svu.Receiver

open Overlay

namespace csp_intercept.ci_svu

/-- No block of the buffer collides with a different block of the source. -/
def NoCollision (total block nblocks : UInt32) (data src : List UInt8) : Prop :=
  ∀ b < nblocks.toNat,
    Fips180.sha256 (Tiling.tile block.toNat total.toNat data b) =
        Fips180.sha256 (Tiling.tile block.toNat total.toNat src b) →
      Tiling.tile block.toNat total.toNat data b = Tiling.tile block.toNat total.toNat src b

/-- Verified completion of a receiver for `total` bytes in blocks of `block`, with the
    digests `expected`, after the fragments `fs`. -/
structure VerifiedCompletion (total block nblocks : UInt32) (expected : List UInt8) (s₀ : CiSvu)
    (fs : List Fragment) : Prop where
  /-- Every offset holds the byte of the last accepted fragment that covers it. -/
  buffer : (accept_all s₀ fs).1.data =
    (List.range total.toNat).map fun i => (lastWrite (writes total fs) i).getD 0
  /-- A fragment is rejected exactly when it runs past the total. -/
  answers : (accept_all s₀ fs).2 = fs.map fun f => if f.Fits total then 0 else -1
  /-- A rejected fragment changes nothing. -/
  rejected : ∀ f : Fragment, ¬ f.Fits total →
    ci_svu_accept (accept_all s₀ fs).1 f.offset f.bytes = ((accept_all s₀ fs).1, -1)
  /-- The counter is the number of distinct covered offsets. -/
  covered_count : (ci_svu_covered (accept_all s₀ fs).1).toNat =
    ((Finset.range total.toNat).filter fun i => ∃ w ∈ writes total fs, w.Covers i).card
  incomplete : ∀ out max, (ci_svu_verify (accept_all s₀ fs).1 out max).1 = .INCOMPLETE ↔
    ∃ i < total.toNat, ∀ w ∈ writes total fs, ¬ w.Covers i
  verified : ∀ out max, (∀ i < total.toNat, ∃ w ∈ writes total fs, w.Covers i) →
    ((ci_svu_verify (accept_all s₀ fs).1 out max).1 = .COMPLETE_VERIFIED ↔ ∀ b < nblocks.toNat,
      Fips180.sha256 (Tiling.tile block.toNat total.toNat (accept_all s₀ fs).1.data b) = digest expected b)
  corrupt : ∀ out max, (∀ i < total.toNat, ∃ w ∈ writes total fs, w.Covers i) →
    ((ci_svu_verify (accept_all s₀ fs).1 out max).1 = .CORRUPT ↔ ∃ b < nblocks.toNat,
      Fips180.sha256 (Tiling.tile block.toNat total.toNat (accept_all s₀ fs).1.data b) ≠ digest expected b)
  /-- Under the manifest of a source a verified buffer is that source. -/
  source : ∀ src out max, src.length = total.toNat → expected = (ci_svu_manifest src total block).2 →
    NoCollision total block nblocks (accept_all s₀ fs).1.data src →
    (ci_svu_verify (accept_all s₀ fs).1 out max).1 = .COMPLETE_VERIFIED →
    (accept_all s₀ fs).1.data = src

/-- The items of one member of a flat list of equally long ones. -/
private theorem take_drop_flatMap {α β : Type} {n : Nat} {f : α → List β} {l : List α}
    (hlen : ∀ a ∈ l, (f a).length = n) (i : Nat) (hi : i < l.length) :
    ((l.flatMap f).drop (i * n)).take n = f l[i] := by
  induction l generalizing i with
  | nil => cases hi
  | cons a l ih =>
    have ha : (f a).length = n := hlen a List.mem_cons_self
    rw [List.flatMap_cons]
    cases i with
    | zero =>
      rw [Nat.zero_mul, List.drop_zero, List.take_left' ha]
      rfl
    | succ i =>
      have hsplit : (i + 1) * n = (f a).length + i * n := by rw [ha, Nat.add_mul, Nat.one_mul, Nat.add_comm]
      rw [hsplit, List.drop_append, List.drop_eq_nil_of_le (by omega), List.nil_append,
        Nat.add_sub_cancel_left]
      exact ih (fun b hb => hlen b (List.mem_cons_of_mem a hb)) i (by simpa using hi)

/-- Digest `b` of a manifest is the hash of block `b` of its source. -/
theorem digest_manifest (src : List UInt8) (total block : UInt32) {b : Nat}
    (hb : b < (ci_svu_nblocks total block).toNat) :
    digest (ci_svu_manifest src total block).2 b =
      Fips180.sha256 (Tiling.tile block.toNat total.toNat src b) := by
  have hlen : ∀ b ∈ List.range (ci_svu_nblocks total block).toNat,
      (hash_block src total block b).length = CI_SVU_HASH_LEN := by
    intro b _
    rw [hash_block_eq, Fips180.length_sha256]
  have hget := take_drop_flatMap hlen b (by simpa using hb)
  rw [List.getElem_range] at hget
  rw [digest, ← hash_block_eq]
  exact hget

/-- The copy `ci_svu_new` makes has the digests of the caller's manifest. -/
theorem digest_take {expected : List UInt8} {n b : Nat} (hb : b < n) :
    digest (expected.take (n * CI_SVU_HASH_LEN)) b = digest expected b := by
  have hmul : (b + 1) * CI_SVU_HASH_LEN ≤ n * CI_SVU_HASH_LEN := Nat.mul_le_mul_right _ hb
  rw [Nat.add_mul, Nat.one_mul] at hmul
  rw [digest, digest, List.drop_take, List.take_take, Nat.min_eq_left (by omega)]

/-- The verdict in terms of the abstract history. -/
theorem Reassembles.verify_status {s₀ s : CiSvu} {ws : List (Write UInt8)} (h : Reassembles s₀ ws s)
    (out : List CiSvuInterval) (max : Nat) : (ci_svu_verify s out max).1 =
      if ∃ i < s₀.total.toNat, ∀ w ∈ ws, ¬ w.Covers i then .INCOMPLETE
      else if ∃ b < s₀.nblocks.toNat,
        Fips180.sha256 (Tiling.tile s₀.block.toNat s₀.total.toNat s.data b) ≠ digest s₀.expected b
      then .CORRUPT else .COMPLETE_VERIFIED := by
  rw [ci_svu_verify, if_congr h.covered_count_lt_iff rfl rfl]
  split_ifs with _ hbad
  · rfl
  · rw [check_blocks_status, if_pos]
    simpa only [List.mem_range, h.nblocks, hash_block_eq, h.total, h.block, h.expected] using hbad
  · rw [check_blocks_status, if_neg]
    simpa only [List.mem_range, h.nblocks, hash_block_eq, h.total, h.block, h.expected] using hbad

/-- The verdict once every offset is covered. -/
theorem Reassembles.verify_covered {s₀ s : CiSvu} {ws : List (Write UInt8)} (h : Reassembles s₀ ws s)
    (hfull : ∀ i < s₀.total.toNat, ∃ w ∈ ws, w.Covers i) (out : List CiSvuInterval) (max : Nat) :
    (ci_svu_verify s out max).1 = if ∃ b < s₀.nblocks.toNat,
        Fips180.sha256 (Tiling.tile s₀.block.toNat s₀.total.toNat s.data b) ≠ digest s₀.expected b
      then .CORRUPT else .COMPLETE_VERIFIED := by
  rw [h.verify_status, if_neg]
  rintro ⟨i, hi, hnone⟩
  obtain ⟨w, hw, hcov⟩ := hfull i hi
  exact hnone w hw hcov

theorem Reassembles.verified_digest {s₀ s : CiSvu} {ws : List (Write UInt8)} (h : Reassembles s₀ ws s)
    {out : List CiSvuInterval} {max : Nat} (hverified : (ci_svu_verify s out max).1 = .COMPLETE_VERIFIED) :
    ∀ b < s₀.nblocks.toNat,
      Fips180.sha256 (Tiling.tile s₀.block.toNat s₀.total.toNat s.data b) = digest s₀.expected b := by
  intro b hb
  rw [h.verify_status] at hverified
  split_ifs at hverified with hhole hdiff
  by_contra hne
  exact hdiff ⟨b, hb, hne⟩

/-- Verified completion is sound and complete. -/
theorem verified_completion {total block nblocks : UInt32} {expected : List UInt8} {s₀ : CiSvu}
    (hnew : ci_svu_new total block expected nblocks = some s₀) (fs : List Fragment) :
    VerifiedCompletion total block nblocks expected s₀ fs := by
  obtain ⟨rfl, rfl, rfl, hcount, hne, hexpected, hstart⟩ := ci_svu_new_spec hnew
  obtain ⟨hrun, hanswers⟩ := hstart.accept_all fs
  rw [List.nil_append] at hrun
  have hdigest : ∀ b < s₀.nblocks.toNat, digest s₀.expected b = digest expected b := by
    intro b hb
    rw [hexpected, digest_take hb]
  obtain ⟨htotal, hblock, hnblocks⟩ := ci_svu_nblocks_toNat (hcount ▸ hne)
  have hbad : (∃ b < s₀.nblocks.toNat, Fips180.sha256 (Tiling.tile s₀.block.toNat s₀.total.toNat
      (accept_all s₀ fs).1.data b) ≠ digest s₀.expected b) ↔
      ∃ b < s₀.nblocks.toNat, Fips180.sha256 (Tiling.tile s₀.block.toNat s₀.total.toNat
        (accept_all s₀ fs).1.data b) ≠ digest expected b := by
    refine exists_congr fun b => and_congr_right fun hb => ?_
    rw [hdigest b hb]
  have hgood : ∀ out max, (ci_svu_verify (accept_all s₀ fs).1 out max).1 = .COMPLETE_VERIFIED →
      ∀ b < s₀.nblocks.toNat, Fips180.sha256 (Tiling.tile s₀.block.toNat s₀.total.toNat
        (accept_all s₀ fs).1.data b) = digest expected b := by
    intro out max hverified b hb
    rw [hrun.verified_digest hverified b hb, hdigest b hb]
  refine ⟨hrun.data, hanswers, ?_, hrun.card_covered, ?_, ?_, ?_, ?_⟩
  · intro f hfits
    have hstep := hrun.accept f
    rwa [if_neg hfits] at hstep
  · intro out max
    rw [hrun.verify_status]
    split_ifs with hhole hdiff <;> simp [hhole]
  · intro out max hfull
    refine ⟨hgood out max, fun hall => ?_⟩
    rw [hrun.verify_covered hfull, if_neg]
    rw [hbad]
    rintro ⟨b, hb, hdiff⟩
    exact hdiff (hall b hb)
  · intro out max hfull
    rw [hrun.verify_covered hfull, ← hbad]
    split_ifs with hdiff <;> simp [hdiff]
  · intro src out max hsrc hmanifest hcoll hverified
    refine Tiling.ext_tile hblock (by rw [hrun.data, length_image]) hsrc fun b hb => ?_
    have hb' : b < s₀.nblocks.toNat := by rwa [hcount, hnblocks]
    refine hcoll b hb' ?_
    rw [hgood out max hverified b hb', hmanifest, digest_manifest src _ _ (hcount ▸ hb')]

/-- A one-byte payload: a fragment past the end is rejected, one inside is kept. -/
theorem verified_completion_byte : ∃ s₀, ci_svu_new 1 1 (List.replicate 32 0) 1 = some s₀ ∧
    VerifiedCompletion 1 1 1 (List.replicate 32 0) s₀
      [⟨1, [9], by decide⟩, ⟨0, [7], by decide⟩, ⟨0, [8], by decide⟩] :=
  ⟨_, rfl, verified_completion rfl _⟩

end csp_intercept.ci_svu
