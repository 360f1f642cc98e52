import CspIntercept.Lib.Gaps
import Mathlib.Algebra.Order.Field.Rat
import Mathlib.Data.List.Sort
import Mathlib.Data.Rat.Floor
import Mathlib.Tactic.Linarith

open Gaps

namespace csp_intercept.regime_common

/-- `sorted`. -/
def sorted (xs : List ℚ) : List ℚ := xs.insertionSort (· ≤ ·)

/-- Linear-interpolated percentile, `p` in 0..100; none of no items. -/
def percentile (xs : List ℚ) (p : ℚ) : Option ℚ :=
  if xs.isEmpty then none
  else
    let s := sorted xs
    if s.length = 1 then s[0]?
    else
      let k := ((s.length : ℚ) - 1) * (p / 100)
      let lo := ⌊k⌋.toNat
      let hi := min (lo + 1) (s.length - 1)
      match s[lo]?, s[hi]? with
      | some a, some b => some (a + (b - a) * (k - lo))
      | _, _ => none

/-- The sample intervals that are not empty. -/
def deltas (epochs_s : List ℚ) : List ℚ :=
  (intervals epochs_s).filterMap fun i => if i.2 > i.1 then some (i.2 - i.1) else none

/-- The median interval and the gap size above which an interval is a blackout; none where
    there are too few samples for a cadence. -/
def blackout_threshold (epochs_s : List ℚ) (gap_factor min_floor_s : ℚ) : Option (ℚ × ℚ) :=
  if epochs_s.length < 3 then none
  else (percentile (deltas epochs_s) 50).map fun med => (med, max (gap_factor * med) min_floor_s)

/-- The median interval and the gaps over the threshold. -/
def detect_blackouts (epochs_s : List ℚ) (gap_factor min_floor_s : ℚ) : Option ℚ × List ℚ :=
  match blackout_threshold epochs_s gap_factor min_floor_s with
  | none => (none, [])
  | some (med, thresh) => (some med, (deltas epochs_s).filter fun d => d > thresh)

/-- The default of `min_floor_s`. -/
abbrev MIN_FLOOR_S : ℚ := 2

/-- There is a cadence exactly when there are three samples, not all at one time. -/
theorem blackout_threshold_isSome_iff (epochs_s : List ℚ) (gap_factor min_floor_s : ℚ) :
    (blackout_threshold epochs_s gap_factor min_floor_s).isSome ↔ 3 ≤ epochs_s.length ∧ deltas epochs_s ≠ [] := by
  have hpercentile (xs : List ℚ) : (percentile xs 50).isSome ↔ xs ≠ [] := by
    have hlen : (sorted xs).length = xs.length := List.length_insertionSort _ xs
    rw [percentile]
    by_cases hnil : xs = []
    · simp [hnil]
    · have hpos : 0 < xs.length := List.length_pos_of_ne_nil hnil
      have hk : ⌊((xs.length : ℚ) - 1) * (50 / 100)⌋.toNat < xs.length := by
        have hone : (1 : ℚ) ≤ xs.length := by exact_mod_cast hpos
        rw [Int.toNat_lt' hpos, Int.floor_lt]
        push_cast
        linarith
      have hi : min (⌊((xs.length : ℚ) - 1) * (50 / 100)⌋.toNat + 1) (xs.length - 1) < xs.length := by omega
      have hne : xs.isEmpty = false := by simpa using hnil
      simp only [hne, Bool.false_eq_true, if_false, hlen]
      split_ifs
      · simp [hlen, hnil, hpos]
      · rw [List.getElem?_eq_getElem (by rwa [hlen]), List.getElem?_eq_getElem (by rwa [hlen])]
        simp [hnil]
  rw [blackout_threshold]
  split_ifs with hfew
  · simp
    omega
  · rw [Option.isSome_map, hpercentile]
    simp
    omega

/-- Over a floor, skipping the zero deltas changes nothing, also where the differences are rounded. -/
theorem filter_deltas {rnd : ℚ → ℚ} (hmono : Monotone rnd) (hzero : rnd 0 = 0) {thresh : ℚ} (hthresh : 0 ≤ thresh)
    (is : List (ℚ × ℚ)) :
    (is.filterMap fun i => if i.2 > i.1 then some (rnd (i.2 - i.1)) else none).filter (fun d => d > thresh) =
      (is.filter fun i => rnd (i.2 - i.1) > thresh).map fun i => rnd (i.2 - i.1) := by
  induction is with
  | nil => rfl
  | cons i is ih =>
    by_cases hover : rnd (i.2 - i.1) > thresh
    · have hstep : i.2 > i.1 := by
        by_contra hle
        have hneg : rnd (i.2 - i.1) ≤ rnd 0 := hmono (sub_nonpos.mpr (not_lt.mp hle))
        linarith
      simp [hstep, hover, ih]
    · by_cases hstep : i.2 > i.1
      · simp [hstep, hover, ih]
      · simp [hstep, hover, ih]

/-- A threshold is never below its floor. -/
theorem floor_le_threshold {epochs_s : List ℚ} {gap_factor min_floor_s med thresh : ℚ}
    (hthresh : blackout_threshold epochs_s gap_factor min_floor_s = some (med, thresh)) :
    min_floor_s ≤ thresh := by
  rw [blackout_threshold] at hthresh
  split_ifs at hthresh
  obtain ⟨m, -, heq⟩ := Option.map_eq_some_iff.mp hthresh
  cases heq
  exact le_max_right _ _

end csp_intercept.regime_common

open csp_intercept.regime_common

namespace csp_intercept.within_pass_blackouts

/-- `round(x, ndigits)` of an exact number: a tie goes to the even digit. -/
def round (x : ℚ) (ndigits : ℕ) : ℚ :=
  let scaled := x * 10 ^ ndigits
  let f := ⌊scaled⌋
  (if scaled - f < 1 / 2 ∨ scaled - f = 1 / 2 ∧ f % 2 = 0 then f else f + 1) / 10 ^ ndigits

structure Blackout where
  onset_pos : ℚ
  dur_s : ℚ
deriving DecidableEq

/-- The sample intervals of one pass that are appended as blackouts. -/
def blackout_intervals (epochs_s : List ℚ) (gap_factor : ℚ) : List (ℚ × ℚ) :=
  if epochs_s.length < 3 then []
  else if epochs_s.getLastD 0 - epochs_s.headD 0 ≤ 0 then []
  else
    match blackout_threshold epochs_s gap_factor MIN_FLOOR_S with
    | none => []
    | some (_, thresh) => (intervals epochs_s).filter fun i => i.2 - i.1 > thresh

/-- What is appended for the interval of `a` and `b`: the last contact before the drop as a
    fraction of the pass, and how long it lasted. -/
def blackout_entry (epochs_s : List ℚ) (i : ℚ × ℚ) : Blackout where
  onset_pos := (i.1 - epochs_s.headD 0) / (epochs_s.getLastD 0 - epochs_s.headD 0)
  dur_s := round (i.2 - i.1) 1

def blackout_positions (epochs_s : List ℚ) (gap_factor : ℚ) : List Blackout :=
  (blackout_intervals epochs_s gap_factor).map (blackout_entry epochs_s)

section Intervals

variable {epochs_s : List ℚ} {gap_factor : ℚ}

/-- A blackout is a pair of neighbours, and there is time between them. -/
theorem mem_blackout_intervals {i : ℚ × ℚ} (hi : i ∈ blackout_intervals epochs_s gap_factor) :
    i ∈ intervals epochs_s ∧ i.1 < i.2 := by
  rw [blackout_intervals] at hi
  split_ifs at hi
  · cases hi
  · cases hi
  · split at hi
    · cases hi
    · rename_i med thresh hthresh
      obtain ⟨hmem, hover⟩ := List.mem_filter.mp hi
      have hfloor := floor_le_threshold hthresh
      have hgap : thresh < i.2 - i.1 := of_decide_eq_true hover
      exact ⟨hmem, by linarith⟩

theorem blackout_intervals_sublist (epochs_s : List ℚ) (gap_factor : ℚ) :
    (blackout_intervals epochs_s gap_factor).Sublist (intervals epochs_s) := by
  rw [blackout_intervals]
  split_ifs
  · exact List.nil_sublist _
  · exact List.nil_sublist _
  · split
    · exact List.nil_sublist _
    · exact List.filter_sublist

theorem headD_le {epochs_s : List ℚ} (hsorted : epochs_s.Pairwise (· ≤ ·)) {t : ℚ} (ht : t ∈ epochs_s) :
    epochs_s.headD 0 ≤ t := by
  cases epochs_s with
  | nil => cases ht
  | cons a l =>
    rcases List.mem_cons.mp ht with rfl | ht
    · exact le_rfl
    · exact (List.pairwise_cons.mp hsorted).1 t ht

theorem le_getLastD {epochs_s : List ℚ} (hsorted : epochs_s.Pairwise (· ≤ ·)) {t : ℚ} (ht : t ∈ epochs_s) :
    t ≤ epochs_s.getLastD 0 := by
  rw [List.getLastD_eq_getLast?, List.getLast?_eq_getLast_of_ne_nil (List.ne_nil_of_mem ht)]
  exact hsorted.rel_getLast ht

/-- The blackouts are the gaps: either both analyses leave before the scan, or the zero deltas
    that only one of them skips are below the floor. -/
theorem blackout_intervals_gaps (hsorted : epochs_s.Pairwise (· ≤ ·)) :
    (detect_blackouts epochs_s gap_factor MIN_FLOOR_S).2 =
      (blackout_intervals epochs_s gap_factor).map fun i => i.2 - i.1 := by
  rw [detect_blackouts, blackout_intervals]
  cases hthresh : blackout_threshold epochs_s gap_factor MIN_FLOOR_S with
  | none => split_ifs <;> rfl
  | some mt =>
    obtain ⟨med, thresh⟩ := mt
    have hfloor := floor_le_threshold hthresh
    have hcadence := (blackout_threshold_isSome_iff epochs_s gap_factor MIN_FLOOR_S).mp (by rw [hthresh]; rfl)
    have hspan : 0 < epochs_s.getLastD 0 - epochs_s.headD 0 := by
      obtain ⟨d, hd⟩ := List.exists_mem_of_ne_nil _ hcadence.2
      obtain ⟨i, hi, hstep⟩ := List.mem_filterMap.mp hd
      rw [Option.ite_none_right_eq_some] at hstep
      obtain ⟨hfst, hsnd, -, -⟩ := between_of_mem_intervals hsorted hi
      have hlo := headD_le hsorted hfst
      have hhi := le_getLastD hsorted hsnd
      have hlt : i.1 < i.2 := hstep.1
      linarith
    rw [if_neg (Nat.not_lt.mpr hcadence.1), if_neg (not_le.mpr hspan)]
    exact filter_deltas monotone_id rfl (by linarith) _

end Intervals

/-- Count and positions do not drift apart: one entry for each gap, in their order, with its
    rounded length, at strictly increasing places of the pass before its end. -/
theorem blackout_positions_detect (epochs_s : List ℚ) (gap_factor : ℚ)
    (hsorted : epochs_s.Pairwise (· ≤ ·)) :
    (blackout_positions epochs_s gap_factor).map Blackout.dur_s =
        (detect_blackouts epochs_s gap_factor MIN_FLOOR_S).2.map (round · 1) ∧
      (∀ b ∈ blackout_positions epochs_s gap_factor, 0 ≤ b.onset_pos ∧ b.onset_pos < 1) ∧
      ((blackout_positions epochs_s gap_factor).map Blackout.onset_pos).Pairwise (· < ·) := by
  have hspan {i : ℚ × ℚ} (hi : i ∈ blackout_intervals epochs_s gap_factor) :
      epochs_s.headD 0 ≤ i.1 ∧ i.1 < i.2 ∧ i.2 ≤ epochs_s.getLastD 0 := by
    obtain ⟨hmem, hlt⟩ := mem_blackout_intervals hi
    obtain ⟨hfst, hsnd, -, -⟩ := between_of_mem_intervals hsorted hmem
    exact ⟨headD_le hsorted hfst, hlt, le_getLastD hsorted hsnd⟩
  refine ⟨?_, ?_, ?_⟩
  · rw [blackout_intervals_gaps hsorted, blackout_positions, List.map_map, List.map_map]
    rfl
  · intro b hb
    obtain ⟨i, hi, rfl⟩ := List.mem_map.mp hb
    obtain ⟨hlo, hlt, hhi⟩ := hspan hi
    have hpos : 0 < epochs_s.getLastD 0 - epochs_s.headD 0 := by linarith
    refine ⟨div_nonneg (by linarith) hpos.le, ?_⟩
    rw [blackout_entry, div_lt_one hpos]
    linarith
  · rw [blackout_positions, List.map_map, List.pairwise_map]
    have hordered : (blackout_intervals epochs_s gap_factor).Pairwise fun i j => i.2 ≤ j.1 :=
      (pairwise_intervals hsorted).sublist (blackout_intervals_sublist epochs_s gap_factor)
    refine hordered.imp_of_mem fun {i j} hi hj hij => ?_
    obtain ⟨hlo, hlt, hhi⟩ := hspan hi
    have hpos : 0 < epochs_s.getLastD 0 - epochs_s.headD 0 := by linarith
    exact div_lt_div_of_pos_right (by linarith) hpos

/-- Seven samples with one drop of seven seconds. -/
theorem blackout_positions_detect_one_drop :
    blackout_positions [0, 1, 2, 3, 10, 11, 12] 5 = [⟨1 / 4, 7⟩] ∧
      (blackout_positions [0, 1, 2, 3, 10, 11, 12] 5).map Blackout.dur_s =
        (detect_blackouts [0, 1, 2, 3, 10, 11, 12] 5 MIN_FLOOR_S).2.map (round · 1) :=
  ⟨by decide +kernel, (blackout_positions_detect _ 5 (by norm_num)).1⟩

end csp_intercept.within_pass_blackouts
