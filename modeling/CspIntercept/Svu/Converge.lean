import CspIntercept.Svu.Transfer

open Overlay csp_intercept.ci_svu csp_intercept.svu_proto csp_intercept.svu_serve

namespace csp_intercept.svu_session

/-- The receiver's buffer once its holes are filled with the source's bytes. -/
def filled (src : List UInt8) (s : CiSvu) : List UInt8 :=
  (List.range s.total.toNat).map fun i =>
    if s.covered[i]? = some true then s.data.getD i 0 else src.getD i 0

/-- The blocks that fail their hash once the holes are filled. -/
def failing_when_filled (src : List UInt8) (s : CiSvu) : List Nat :=
  failing_blocks { s with data := filled src s }

/-- Where a transfer stands: the maximal uncovered runs that are left, and the blocks
    that will fail once these are filled. -/
structure Phase (src : List UInt8) (s₀ s : CiSvu) (holes : List (Nat × Nat)) (bad : List Nat) : Prop where
  reach : ∃ ws, Reassembles s₀ ws s
  holes : Runs.RunsFrom (Uncovered s) s.total.toNat 0 holes
  bad : failing_when_filled src s = bad

/-- All ranges `ci_svu_verify` enumerates where a transfer stands. -/
def wanted (s : CiSvu) (holes : List (Nat × Nat)) (bad : List Nat) : List (Nat × Nat) :=
  if holes ≠ [] then holes else bad.map (block_range s)

/-- The rounds that are left: 32 runs each, and then 32 blocks each. -/
def rounds_left (holes : List (Nat × Nat)) (bad : List Nat) : Nat :=
  (holes.length + 31) / 32 + (bad.length + 31) / 32

section Filled

variable {src : List UInt8} {s₀ s : CiSvu} {ws : List (Write UInt8)}

theorem uncovered_iff (h : Reassembles s₀ ws s) {i : Nat} (hi : i < s.total.toNat) :
    Uncovered s i ↔ lastWrite ws i = none := by
  rw [Uncovered, h.getElem?_covered (by rw [← h.total]; exact hi)]
  cases lastWrite ws i <;> simp

theorem filled_eq (h : Reassembles s₀ ws s) (src : List UInt8) :
    filled src s = (List.range s.total.toNat).map fun i => (lastWrite ws i).getD (src.getD i 0) := by
  refine List.map_congr_left fun i hi => ?_
  have hi' : i < s₀.total.toNat := by
    rw [← h.total]
    exact List.mem_range.mp hi
  have hdata : s.data.getD i 0 = (lastWrite ws i).getD 0 := by
    rw [h.data, List.getD_eq_getElem?_getD, getElem?_image 0 ws hi']
    rfl
  rw [h.getElem?_covered hi', hdata]
  cases lastWrite ws i <;> simp

/-- Without holes the filled buffer is the buffer. -/
theorem filled_eq_data (h : Reassembles s₀ ws s) (hfull : ∀ i < s.total.toNat, ¬ Uncovered s i) :
    filled src s = s.data := by
  rw [filled_eq h, h.data, image, ← h.total]
  refine List.map_congr_left fun i hi => ?_
  have hi' := List.mem_range.mp hi
  have hne := mt (uncovered_iff h hi').mpr (hfull i hi')
  obtain ⟨b, hb⟩ := Option.ne_none_iff_exists'.mp hne
  rw [hb]
  rfl

end Filled

/-- Taking the first members out of a list without repetitions leaves the others. -/
private theorem filter_notMem_take {l : List Nat} (hl : l.Nodup) (k : Nat) :
    l.filter (fun b => b ∉ l.take k) = l.drop k := by
  have hnodup := hl
  rw [← List.take_append_drop k l, List.nodup_append] at hnodup
  obtain ⟨-, -, hdisj⟩ := hnodup
  calc l.filter (fun b => b ∉ l.take k)
      = (l.take k ++ l.drop k).filter (fun b => b ∉ l.take k) := by rw [List.take_append_drop]
    _ = l.drop k := by
      rw [List.filter_append, List.filter_eq_nil_iff.mpr (by simp), List.nil_append, List.filter_eq_self]
      intro b hb
      simpa using fun hmem => hdisj b hmem b hb rfl

section Round

variable {src : List UInt8} {s₀ s : CiSvu} {holes : List (Nat × Nat)} {bad : List Nat}
  {packets : List CspPacket}

/-- The receiver was built under the manifest of the source. -/
structure UnderManifest (src : List UInt8) (s₀ : CiSvu) : Prop where
  length : src.length = s₀.total.toNat
  total_pos : 0 < s₀.total.toNat
  block_pos : 0 < s₀.block.toNat
  nblocks : s₀.nblocks.toNat = (s₀.total.toNat + s₀.block.toNat - 1) / s₀.block.toNat
  digests : ∀ b < s₀.nblocks.toNat, digest s₀.expected b =
    Fips180.sha256 (Tiling.tile s₀.block.toNat s₀.total.toNat src b)

theorem Phase.wanted_ranges (hm : UnderManifest src s₀) (h : Phase src s₀ s holes bad) :
    ∀ r ∈ wanted s holes bad, r.1 < r.2 ∧ r.2 ≤ s₀.total.toNat := by
  obtain ⟨ws, hreach⟩ := h.reach
  intro r hr
  rw [wanted] at hr
  split_ifs at hr with hne
  · obtain ⟨-, hlt, hle, -⟩ := h.holes.pairwise.2 r hr
    rw [← hreach.total]
    exact ⟨hlt, hle⟩
  · obtain ⟨b, hb, rfl⟩ := List.mem_map.mp hr
    rw [← h.bad, failing_when_filled, failing_blocks] at hb
    have hb' : b < s₀.nblocks.toNat := by
      rw [← hreach.nblocks]
      exact List.mem_range.mp (List.mem_filter.mp hb).1
    rw [hm.nblocks] at hb'
    have hstart := Tiling.start_lt_total hm.block_pos hb'
    have hsize := hm.block_pos
    simp only [block_range, hreach.block, hreach.total, Tiling.stop, Nat.add_mul, Nat.one_mul]
    omega

/-- Whether a block of a filled buffer fails its hash. -/
def Fails (s₀ : CiSvu) (buf : List UInt8) (b : Nat) : Prop :=
  Fips180.sha256 (Tiling.tile s₀.block.toNat s₀.total.toNat buf b) ≠ digest s₀.expected b

instance (s₀ : CiSvu) (buf : List UInt8) (b : Nat) : Decidable (Fails s₀ buf b) :=
  inferInstanceAs (Decidable (_ ≠ _))

theorem failing_when_filled_eq {ws : List (Write UInt8)} (h : Reassembles s₀ ws s) (src : List UInt8) :
    failing_when_filled src s = (List.range s₀.nblocks.toNat).filter fun b => Fails s₀ (filled src s) b := by
  simp only [failing_when_filled, failing_blocks, h.nblocks, h.total, h.block, h.expected, hash_block_eq]
  rfl

/-- What draining the packets of some ranges does to the holes and to the filled buffer. -/
theorem Carries.drain_filled {R : List (Nat × Nat)} (hsrc : src.length = s₀.total.toNat)
    (hcarry : Carries src s₀.total R packets) (hreach : ∃ ws, Reassembles s₀ ws s) :
    (∃ ws, Reassembles s₀ ws (drain_data s packets)) ∧
      (∀ i < s₀.total.toNat, (Uncovered (drain_data s packets) i ↔ Uncovered s i ∧ ¬ InRanges R i)) ∧
      ∀ i < s₀.total.toNat, (InRanges R i → (filled src (drain_data s packets))[i]? = src[i]?) ∧
        (¬ InRanges R i → (filled src (drain_data s packets))[i]? = (filled src s)[i]?) := by
  obtain ⟨ws, h⟩ := hreach
  obtain ⟨us, h', hus⟩ := hcarry.drain h
  refine ⟨⟨_, h'⟩, fun i hi => ?_, fun i hi => ?_⟩
  · rw [uncovered_iff h' (by rw [h'.total]; exact hi), uncovered_iff h (by rw [h.total]; exact hi),
      lastWrite_append]
    by_cases hin : InRanges R i
    · have hsome : src[i]? = some src[i] := List.getElem?_eq_getElem (by omega)
      simp [hin, (hus i).1 hin, hsome]
    · simp [hin, (hus i).2 hin]
  · have hget {t : CiSvu} {vs : List (Write UInt8)} (ht : Reassembles s₀ vs t) :
        (filled src t)[i]? = some ((lastWrite vs i).getD (src.getD i 0)) := by
      rw [filled_eq ht, ht.total]
      simp [hi]
    rw [hget h', hget h, lastWrite_append]
    refine ⟨fun hin => ?_, fun hout => ?_⟩
    · have hsome : src[i]? = some src[i] := List.getElem?_eq_getElem (by omega)
      simp [(hus i).1 hin, hsome]
    · simp [(hus i).2 hout]

theorem length_filled (src : List UInt8) (s : CiSvu) : (filled src s).length = s.total.toNat := by
  rw [filled, List.length_map, List.length_range]

/-- Bringing uncovered ranges does not change the filled buffer. -/
theorem Phase.filled_drain (hm : UnderManifest src s₀) (h : Phase src s₀ s holes bad)
    (hcarry : Carries src s₀.total (holes.take 32) packets) :
    filled src (drain_data s packets) = filled src s := by
  obtain ⟨⟨ws', hws'⟩, -, hfill⟩ := hcarry.drain_filled hm.length h.reach
  obtain ⟨ws, hws⟩ := h.reach
  apply List.ext_getElem?
  intro i
  by_cases hi : i < s₀.total.toNat
  · by_cases hin : InRanges (holes.take 32) i
    · obtain ⟨r, hr, hlo, hhi⟩ := hin
      have hunc := (h.holes.pairwise.2 r (List.mem_of_mem_take hr)).2.2.2 i hlo hhi
      have hnone := (uncovered_iff hws (by rw [hws.total]; exact hi)).mp hunc
      have hi' : i < src.length := by
        rw [hm.length]
        exact hi
      have hsome : src[i]? = some src[i] := List.getElem?_eq_getElem hi'
      rw [(hfill i hi).1 ⟨r, hr, hlo, hhi⟩, filled_eq hws, hws.total]
      simp [hi, hnone, hsome]
    · exact (hfill i hi).2 hin
  · rw [List.getElem?_eq_none (by rw [length_filled, hws'.total]; omega),
      List.getElem?_eq_none (by rw [length_filled, hws.total]; omega)]

/-- A clean round on the first 32 runs fills these. -/
theorem Phase.round_holes (hm : UnderManifest src s₀) (h : Phase src s₀ s holes bad)
    (hcarry : Carries src s₀.total (holes.take 32) packets) :
    Phase src s₀ (drain_data s packets) (holes.drop 32) bad := by
  obtain ⟨⟨ws', hws'⟩, hun, -⟩ := hcarry.drain_filled hm.length h.reach
  obtain ⟨ws, hws⟩ := h.reach
  refine ⟨⟨ws', hws'⟩, ?_, ?_⟩
  · rw [hws'.total, ← hws.total]
    refine h.holes.drop 32 fun j _ hj => ?_
    rw [hun j (by rw [← hws.total]; exact hj)]
    refine and_congr_right fun _ => ?_
    simp [InRanges]
  · rw [failing_when_filled_eq hws', h.filled_drain hm hcarry, ← failing_when_filled_eq hws, h.bad]

/-- An offset lies in the range of one of the blocks when its own block is among these. -/
theorem inRanges_blocks_iff {ws : List (Write UInt8)} (h : Reassembles s₀ ws s) (hsize : 0 < s₀.block.toNat)
    {bs : List Nat} {i : Nat} (hi : i < s₀.total.toNat) :
    InRanges (bs.map (block_range s)) i ↔ i / s₀.block.toNat ∈ bs := by
  have hrange (b : Nat) : (block_range s b).1 ≤ i ∧ i < (block_range s b).2 ↔ b = i / s₀.block.toNat := by
    rw [← Tiling.mem_tile_iff hsize hi]
    simp only [block_range, h.block, h.total]
  simp only [InRanges, List.mem_map, exists_exists_and_eq_and, hrange]
  simp

/-- Renewing some blocks of a buffer with the source's bytes mends exactly these. -/
theorem fails_renewed (hm : UnderManifest src s₀) {bs : List Nat} {buf buf' : List UInt8}
    (hin : ∀ i < s₀.total.toNat, i / s₀.block.toNat ∈ bs → buf'[i]? = src[i]?)
    (hout : ∀ i < s₀.total.toNat, i / s₀.block.toNat ∉ bs → buf'[i]? = buf[i]?)
    {b : Nat} (hb : b < s₀.nblocks.toNat) : Fails s₀ buf' b ↔ Fails s₀ buf b ∧ b ∉ bs := by
  have hquot (i : Nat) (hlo : b * s₀.block.toNat ≤ i)
      (hhi : i < Tiling.stop s₀.block.toNat s₀.total.toNat b) : i < s₀.total.toNat ∧ b = i / s₀.block.toNat := by
    have hi : i < s₀.total.toNat := by
      rw [Tiling.stop] at hhi
      omega
    exact ⟨hi, (Tiling.mem_tile_iff hm.block_pos hi).mp ⟨hlo, hhi⟩⟩
  by_cases hmem : b ∈ bs
  · have heq : Tiling.tile s₀.block.toNat s₀.total.toNat buf' b =
        Tiling.tile s₀.block.toNat s₀.total.toNat src b := by
      refine Tiling.tile_congr fun i hlo hhi => ?_
      obtain ⟨hi, rfl⟩ := hquot i hlo hhi
      exact hin i hi hmem
    simp only [Fails, heq, hm.digests b hb, hmem, not_true_eq_false, and_false, ne_eq]
  · have heq : Tiling.tile s₀.block.toNat s₀.total.toNat buf' b =
        Tiling.tile s₀.block.toNat s₀.total.toNat buf b := by
      refine Tiling.tile_congr fun i hlo hhi => ?_
      obtain ⟨hi, rfl⟩ := hquot i hlo hhi
      exact hout i hi hmem
    simp only [Fails, heq, hmem, not_false_eq_true, and_true]

/-- A clean round on the first 32 failing blocks, no run being left, mends these. -/
theorem Phase.round_blocks (hm : UnderManifest src s₀) (h : Phase src s₀ s [] bad)
    (hcarry : Carries src s₀.total ((bad.take 32).map (block_range s)) packets) :
    Phase src s₀ (drain_data s packets) [] (bad.drop 32) := by
  obtain ⟨⟨ws', hws'⟩, hun, hfill⟩ := hcarry.drain_filled hm.length h.reach
  obtain ⟨ws, hws⟩ := h.reach
  have hbad := h.bad
  rw [failing_when_filled_eq hws] at hbad
  have hrange {i : Nat} (hi : i < s₀.total.toNat) :
      InRanges ((bad.take 32).map (block_range s)) i ↔ i / s₀.block.toNat ∈ bad.take 32 :=
    inRanges_blocks_iff hws hm.block_pos hi
  refine ⟨⟨ws', hws'⟩, ?_, ?_⟩
  · rw [hws'.total, ← hws.total]
    refine .nil fun j hlo hj hunc => h.holes.gap hlo hj ?_
    exact ((hun j (by rw [← hws.total]; exact hj)).mp hunc).1
  · have hnodup : bad.Nodup := by
      rw [← hbad]
      exact List.nodup_range.filter _
    rw [failing_when_filled_eq hws', ← filter_notMem_take hnodup 32]
    conv_rhs => rw [← hbad, List.filter_filter]
    refine List.filter_congr fun b hb => ?_
    rw [hbad]
    have hiff := fails_renewed hm (fun i hi hmem => (hfill i hi).1 ((hrange hi).mpr hmem))
      (fun i hi hmem => (hfill i hi).2 fun hin => hmem ((hrange hi).mp hin)) (List.mem_range.mp hb)
    simp only [hiff, Bool.decide_and, Bool.and_comm]

/-- A clean round fills the first 32 runs, or renews the first 32 failing blocks once
    there is no run left. -/
theorem Phase.round (hm : UnderManifest src s₀) (h : Phase src s₀ s holes bad)
    (hcarry : Carries src s₀.total ((wanted s holes bad).take 32) packets) :
    Phase src s₀ (drain_data s packets) (holes.drop 32) (if holes ≠ [] then bad else bad.drop 32) := by
  by_cases hne : holes ≠ []
  · rw [wanted, if_pos hne] at hcarry
    rw [if_pos hne]
    exact h.round_holes hm hcarry
  · obtain rfl := not_not.mp hne
    rw [wanted, if_neg hne, ← List.map_take] at hcarry
    rw [if_neg hne]
    exact h.round_blocks hm hcarry

end Round

end csp_intercept.svu_session
