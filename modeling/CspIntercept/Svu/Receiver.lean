import CspIntercept.Hash.Streaming
import CspIntercept.Lib.Tiling
import CspIntercept.Lib.Transducer
import CspIntercept.Svu.Core
import Mathlib.Data.Finset.Card
import Mathlib.Data.Finset.Range

open Overlay

namespace csp_intercept.ci_svu

/-- One data packet's payload and the offset it is destined for. -/
structure Fragment where
  offset : UInt32
  bytes : List UInt8
  length_lt : bytes.length < 2 ^ 16

def Fragment.write (f : Fragment) : Write UInt8 := ⟨f.offset.toNat, f.bytes⟩

/-- The fragment lies within the declared payload. -/
def Fragment.Fits (total : UInt32) (f : Fragment) : Prop :=
  f.offset.toNat + f.bytes.length ≤ total.toNat

instance (total : UInt32) (f : Fragment) : Decidable (f.Fits total) :=
  inferInstanceAs (Decidable (_ ≤ _))

/-- A receiver handed a list of fragments, and its answers. -/
def accept_all (s : CiSvu) (fs : List Fragment) : CiSvu × List Int :=
  Transducer.run (fun s f => ci_svu_accept s f.offset f.bytes) s fs

/-- The writes of the fragments that fit, oldest first. -/
def writes (total : UInt32) (fs : List Fragment) : List (Write UInt8) :=
  (fs.filter fun f => f.Fits total).map Fragment.write

section CoverLoop

variable {covered : List Bool} {count : UInt32}

/-- The coverage loop sets its range and nothing else. -/
theorem getElem?_cover_loop (n i : Nat) (hfit : i + n ≤ covered.length) (j : Nat) :
    (cover_loop covered count i n).1[j]? = if i ≤ j ∧ j < i + n then some true else covered[j]? := by
  induction n generalizing covered count i with
  | zero =>
    rw [cover_loop, if_neg (by omega)]
  | succ n ih =>
    rw [cover_loop]
    split_ifs with hold hin hin
    · rw [ih (i + 1) (by rw [List.length_set]; omega)]
      by_cases hj : i = j
      · subst hj
        rw [if_neg (by omega), List.getElem?_set_self (by omega)]
      · rw [if_pos (by omega)]
    · rw [ih (i + 1) (by rw [List.length_set]; omega), if_neg (by omega), List.getElem?_set_ne (by omega)]
    · rw [ih (i + 1) (by omega)]
      by_cases hj : i = j
      · subst hj
        obtain ⟨b, hb⟩ : ∃ b, covered[i]? = some b := ⟨_, List.getElem?_eq_getElem (by omega)⟩
        rw [if_neg (by omega), hb]
        cases b with
        | true => rfl
        | false => exact absurd hb hold
      · rw [if_pos (by omega)]
    · rw [ih (i + 1) (by omega), if_neg (by omega)]

/-- The counter stays the number of set flags. -/
theorem count_cover_loop (n i : Nat) (hlen : covered.length < 2 ^ 32)
    (hcount : count.toNat = covered.count true) :
    (cover_loop covered count i n).2.toNat = (cover_loop covered count i n).1.count true := by
  induction n generalizing covered count i with
  | zero => exact hcount
  | succ n ih =>
    rw [cover_loop]
    split_ifs with hold
    · obtain ⟨hi, hfalse⟩ := List.getElem?_eq_some_iff.mp hold
      have hset : (covered.set i true).count true = covered.count true + 1 := by
        rw [List.count_set hi, hfalse]
        simp
      have hle : (covered.set i true).count true ≤ covered.length := by
        have h := List.count_le_length (a := true) (l := covered.set i true)
        rwa [List.length_set] at h
      apply ih (i + 1) (by rwa [List.length_set])
      rw [UInt32.toNat_add, UInt32.toNat_one, hset, hcount, Nat.mod_eq_of_lt (by omega)]
    · exact ih (i + 1) hlen hcount

end CoverLoop

/-- The receiver built from `s₀` by a history of writes that fit: it holds their
    outcome, and its flags and its counter are those of the covered offsets. -/
structure Reassembles (s₀ : CiSvu) (ws : List (Write UInt8)) (s : CiSvu) : Prop where
  total : s.total = s₀.total
  block : s.block = s₀.block
  nblocks : s.nblocks = s₀.nblocks
  expected : s.expected = s₀.expected
  fits : ∀ w ∈ ws, w.offset + w.items.length ≤ s₀.total.toNat
  data : s.data = image 0 s₀.total.toNat ws
  covered : s.covered = (List.range s₀.total.toNat).map fun i => (lastWrite ws i).isSome
  covered_count : s.covered_count.toNat = s.covered.count true

theorem Reassembles.getElem?_covered {s₀ s : CiSvu} {ws : List (Write UInt8)} (h : Reassembles s₀ ws s)
    {i : Nat} (hi : i < s₀.total.toNat) : s.covered[i]? = some (lastWrite ws i).isSome := by
  rw [h.covered]
  simp [hi]

/-- One delivery: a fragment that fits is stored and its bytes are counted, any other
    is refused. The 64-bit end of a fragment does not wrap. -/
theorem ci_svu_accept_eq (s : CiSvu) (f : Fragment) : ci_svu_accept s f.offset f.bytes =
    if f.Fits s.total then
      ({ s with
          covered := (cover_loop s.covered s.covered_count f.offset.toNat f.bytes.length).1
          covered_count := (cover_loop s.covered s.covered_count f.offset.toNat f.bytes.length).2
          data := Overlay.store s.data f.write }, 0)
    else (s, -1) := by
  have hoff := f.offset.toNat_lt
  have hbytes := f.length_lt
  have hend : (f.offset.toNat + f.bytes.length) % 2 ^ 64 = f.offset.toNat + f.bytes.length :=
    Nat.mod_eq_of_lt (by omega)
  split_ifs with hfits
  · have hle : ¬ f.offset.toNat + f.bytes.length > s.total.toNat := Nat.not_lt.mpr hfits
    have hn : f.offset.toNat + f.bytes.length - f.offset.toNat = f.bytes.length := by omega
    simp only [ci_svu_accept, hend, hle, if_false, hn, Fragment.write]
    by_cases hpos : f.bytes.length > 0
    · simp only [hpos, if_true]
    · have hnil : f.bytes = [] := List.eq_nil_of_length_eq_zero (by omega)
      simp [hnil, Overlay.store]
  · have hgt : f.offset.toNat + f.bytes.length > s.total.toNat := Nat.lt_of_not_le hfits
    simp only [ci_svu_accept, hend, hgt, if_true]

/-- A fragment that fits is one more write; any other is refused and changes nothing. -/
theorem Reassembles.accept {s₀ s : CiSvu} {ws : List (Write UInt8)} (h : Reassembles s₀ ws s)
    (f : Fragment) :
    if f.Fits s₀.total then
      (ci_svu_accept s f.offset f.bytes).2 = 0 ∧
        Reassembles s₀ (ws ++ [f.write]) (ci_svu_accept s f.offset f.bytes).1
    else ci_svu_accept s f.offset f.bytes = (s, -1) := by
  have htotal := s₀.total.toNat_lt
  have hsame : f.Fits s.total ↔ f.Fits s₀.total := by rw [h.total]
  rw [ci_svu_accept_eq, if_congr hsame rfl rfl]
  split_ifs with hfits
  · have hlen : s.covered.length = s₀.total.toNat := by
      rw [h.covered, List.length_map, List.length_range]
    have hfit : f.write.offset + f.write.items.length ≤ s₀.total.toNat := hfits
    refine ⟨rfl, h.total, h.block, h.nblocks, h.expected, ?_, ?_, ?_, ?_⟩
    · intro w hw
      rcases List.mem_append.mp hw with hw | hw
      · exact h.fits w hw
      · rw [List.mem_singleton.mp hw]
        exact hfit
    · change Overlay.store s.data f.write = _
      rw [h.data, store_image 0 ws hfit]
    · apply List.ext_getElem?
      intro i
      change (cover_loop s.covered s.covered_count f.offset.toNat f.bytes.length).1[i]? = _
      rw [getElem?_cover_loop _ _ (by rw [hlen]; exact hfits)]
      by_cases hi : i < s₀.total.toNat
      · rw [h.getElem?_covered hi]
        simp only [List.getElem?_map, List.getElem?_range hi, Option.map_some, lastWrite_concat]
        by_cases hcov : f.offset.toNat ≤ i ∧ i < f.offset.toNat + f.bytes.length
        · have hitem := Write.itemAt_isSome_iff.mpr (show f.write.Covers i from hcov)
          rw [if_pos hcov, Option.isSome_or, hitem, Bool.true_or]
        · have hitem : (f.write.itemAt i).isSome = false := by
            rw [← Bool.not_eq_true, Write.itemAt_isSome_iff]
            exact hcov
          rw [if_neg hcov, Option.isSome_or, hitem, Bool.false_or]
      · have hout : ¬ (f.offset.toNat ≤ i ∧ i < f.offset.toNat + f.bytes.length) := by
          have hfits' : f.offset.toNat + f.bytes.length ≤ s₀.total.toNat := hfits
          omega
        rw [if_neg hout, List.getElem?_eq_none (by omega), List.getElem?_eq_none (by simpa using hi)]
    · exact count_cover_loop _ _ (by omega) h.covered_count
  · rfl

/-- What a receiver holds after any list of fragments. -/
theorem Reassembles.accept_all {s₀ s : CiSvu} {ws : List (Write UInt8)} (h : Reassembles s₀ ws s)
    (fs : List Fragment) :
    Reassembles s₀ (ws ++ writes s₀.total fs) (ci_svu.accept_all s fs).1 ∧
      (ci_svu.accept_all s fs).2 = fs.map fun f => if f.Fits s₀.total then 0 else -1 := by
  induction fs generalizing s ws with
  | nil => simpa [ci_svu.accept_all, writes] using h
  | cons f fs ih =>
    have hstep := h.accept f
    by_cases hfits : f.Fits s₀.total
    · rw [if_pos hfits] at hstep
      obtain ⟨hanswer, hnext⟩ := hstep
      obtain ⟨hrun, hanswers⟩ := ih hnext
      have hwrites : ws ++ writes s₀.total (f :: fs) = ws ++ [f.write] ++ writes s₀.total fs := by
        simp [writes, hfits]
      refine ⟨by rw [hwrites]; exact hrun, ?_⟩
      rw [List.map_cons, if_pos hfits, ← hanswers, ← hanswer]
      rfl
    · rw [if_neg hfits] at hstep
      obtain ⟨hrun, hanswers⟩ := ih h
      have hwrites : writes s₀.total (f :: fs) = writes s₀.total fs := by
        simp [writes, hfits]
      have hstate : ci_svu.accept_all s (f :: fs) =
          ((ci_svu.accept_all s fs).1, -1 :: (ci_svu.accept_all s fs).2) := by
        simp only [ci_svu.accept_all, Transducer.run_cons, hstep]
      rw [hstate, hwrites, List.map_cons, if_neg hfits, ← hanswers]
      exact ⟨hrun, rfl⟩

section New

variable {total block nblocks : UInt32} {expected : List UInt8} {s₀ : CiSvu}

/-- The sum in the block count is taken modulo 2^32. -/
theorem ci_svu_nblocks_mod (htotal : 0 < total.toNat) (hblock : 0 < block.toNat) :
    (ci_svu_nblocks total block).toNat = (total.toNat + block.toNat - 1) % 2 ^ 32 / block.toNat := by
  have hnonzero : ¬ (total = 0 ∨ block = 0) := by
    rw [← UInt32.toNat_inj, ← UInt32.toNat_inj, UInt32.toNat_zero]
    omega
  have ht := total.toNat_lt
  have hb := block.toNat_lt
  have hsum : (total + block - 1).toNat = (total.toNat + block.toNat - 1) % 2 ^ 32 := by
    rw [UInt32.toNat_sub, UInt32.toNat_add, UInt32.toNat_one]
    omega
  rw [ci_svu_nblocks, if_neg hnonzero, UInt32.toNat_div, hsum]

/-- The sum wraps exactly where the count comes out as zero. -/
theorem ci_svu_nblocks_ne_zero_iff (htotal : 0 < total.toNat) (hblock : 0 < block.toNat) :
    ci_svu_nblocks total block ≠ 0 ↔ total.toNat + block.toNat ≤ 2 ^ 32 := by
  have ht := total.toNat_lt
  have hb := block.toNat_lt
  rw [← UInt32.toNat_inj.ne, UInt32.toNat_zero, ci_svu_nblocks_mod htotal hblock, ← Nat.pos_iff_ne_zero,
    Nat.div_pos_iff]
  omega

/-- Where the block count is not zero it is the rounded-up quotient. -/
theorem ci_svu_nblocks_toNat (h : ci_svu_nblocks total block ≠ 0) :
    0 < total.toNat ∧ 0 < block.toNat ∧
      (ci_svu_nblocks total block).toNat = (total.toNat + block.toNat - 1) / block.toNat := by
  have hnonzero : ¬ (total = 0 ∨ block = 0) := by
    intro hzero
    rw [ci_svu_nblocks, if_pos hzero] at h
    exact h rfl
  rw [← UInt32.toNat_inj, ← UInt32.toNat_inj, UInt32.toNat_zero] at hnonzero
  have htotal : 0 < total.toNat := by omega
  have hblock : 0 < block.toNat := by omega
  have hsum := (ci_svu_nblocks_ne_zero_iff htotal hblock).mp h
  refine ⟨htotal, hblock, ?_⟩
  rw [ci_svu_nblocks_mod htotal hblock, Nat.mod_eq_of_lt (by omega)]

/-- What `ci_svu_new` builds. -/
theorem ci_svu_new_spec (hnew : ci_svu_new total block expected nblocks = some s₀) :
    s₀.total = total ∧ s₀.block = block ∧ s₀.nblocks = nblocks ∧ nblocks = ci_svu_nblocks total block ∧
      nblocks ≠ 0 ∧ s₀.expected = expected.take (nblocks.toNat * CI_SVU_HASH_LEN) ∧ Reassembles s₀ [] s₀ := by
  rw [ci_svu_new] at hnew
  split_ifs at hnew with hbad
  obtain ⟨hne, heq⟩ := not_or.mp hbad
  rw [not_not] at heq
  subst heq
  cases hnew
  refine ⟨rfl, rfl, rfl, rfl, hne, rfl, rfl, rfl, rfl, rfl, by simp, ?_, ?_, ?_⟩
  · simp [image, List.map_const']
  · simp [List.map_const']
  · simp [List.count_replicate]

end New

/-- The digest of a block is the SHA-256 of its bytes. -/
theorem hash_block_eq (src : List UInt8) (total block : UInt32) (b : Nat) :
    hash_block src total block b = Fips180.sha256 (Tiling.tile block.toNat total.toNat src b) := by
  have hend : (if b * block.toNat + block.toNat > total.toNat then total.toNat
      else b * block.toNat + block.toNat) = Tiling.stop block.toNat total.toNat b := by
    rw [Tiling.stop, Nat.add_mul, Nat.one_mul]
    split_ifs <;> omega
  rw [hash_block, ci_sha256.ci_sha256_digest, hend]
  rfl

section Verify

variable {s₀ s : CiSvu} {ws : List (Write UInt8)}

/-- The counter is the number of covered offsets. -/
theorem Reassembles.card_covered (h : Reassembles s₀ ws s) : s.covered_count.toNat =
    ((Finset.range s₀.total.toNat).filter fun i => ∃ w ∈ ws, w.Covers i).card := by
  have hflags : s.covered.count true = ((List.range s₀.total.toNat).filter
      fun i => (lastWrite ws i).isSome).length := by
    rw [h.covered, List.count, List.countP_map, List.countP_eq_length_filter]
    congr 2
    funext i
    simp
  have hfinset : (Finset.range s₀.total.toNat).filter (fun i => ∃ w ∈ ws, w.Covers i) =
      ((List.range s₀.total.toNat).filter fun i => (lastWrite ws i).isSome).toFinset := by
    ext i
    simp only [Finset.mem_filter, Finset.mem_range, List.mem_toFinset, List.mem_filter, List.mem_range,
      lastWrite_isSome_iff]
  rw [h.covered_count, hflags, hfinset, List.toFinset_card_of_nodup]
  exact List.nodup_range.filter _

/-- The counter falls short of the total exactly when some offset is uncovered. -/
theorem Reassembles.covered_count_lt_iff (h : Reassembles s₀ ws s) :
    s.covered_count < s.total ↔ ∃ i < s₀.total.toNat, ∀ w ∈ ws, ¬ w.Covers i := by
  have hlen : s.covered.length = s₀.total.toNat := by
    rw [h.covered, List.length_map, List.length_range]
  have hle := List.count_le_length (a := true) (l := s.covered)
  rw [UInt32.lt_iff_toNat_lt, h.covered_count, h.total, ← hlen]
  have hfull : s.covered.count true = s.covered.length ↔ ¬ ∃ i < s₀.total.toNat, ∀ w ∈ ws, ¬ w.Covers i := by
    rw [List.count_eq_length, h.covered]
    simp only [List.mem_map, List.mem_range, forall_exists_index, and_imp, forall_apply_eq_imp_iff₂,
      eq_comm (a := true), lastWrite_isSome_iff, not_exists, not_and, not_forall, not_not, exists_prop]
  rw [hlen] at hfull ⊢
  constructor
  · intro hlt
    by_contra hnone
    exact absurd (hfull.mpr hnone) (by omega)
  · intro hsome
    have hne : s.covered.count true ≠ s₀.total.toNat := fun heq => hfull.mp heq hsome
    omega

/-- The block loop reports corruption exactly when it meets a differing digest. -/
theorem check_blocks_status (max : Nat) (bs : List Nat) (acc : CiSvuStatus × List CiSvuInterval × Nat) :
    (bs.foldl (check_block s max) acc).1 =
      if ∃ b ∈ bs, hash_block s.data s.total s.block b ≠ digest s.expected b then .CORRUPT else acc.1 := by
  induction bs generalizing acc with
  | nil => simp
  | cons b bs ih =>
    rw [List.foldl_cons, ih, check_block]
    by_cases hb : hash_block s.data s.total s.block b = digest s.expected b
    · simp [hb]
    · simp [hb]

end Verify

end csp_intercept.ci_svu
