import CspIntercept.Lib.Rounding
import CspIntercept.Scripts.Passes

open Gaps Rounding
open csp_intercept.regime_common (sorted MIN_FLOOR_S)
open csp_intercept.within_pass_blackouts (PASS_GAP_S)

namespace csp_intercept.regime_common.rounded

variable (rnd : ℚ → ℚ)

/-- `percentile` where the result of every operation is rounded. -/
def percentile (xs : List ℚ) (p : ℚ) : Option ℚ :=
  if xs.isEmpty then none
  else
    let s := sorted xs
    if s.length = 1 then s[0]?
    else
      let k := rnd (rnd ((s.length : ℚ) - 1) * rnd (p / 100))
      let lo := ⌊k⌋.toNat
      let hi := min (lo + 1) (s.length - 1)
      match s[lo]?, s[hi]? with
      | some a, some b => some (rnd (a + rnd (rnd (b - a) * rnd (k - lo))))
      | _, _ => none

def deltas (epochs_s : List ℚ) : List ℚ :=
  (intervals epochs_s).filterMap fun i => if i.2 > i.1 then some (rnd (i.2 - i.1)) else none

def blackout_threshold (epochs_s : List ℚ) (gap_factor min_floor_s : ℚ) : Option (ℚ × ℚ) :=
  if epochs_s.length < 3 then none
  else (percentile rnd (deltas rnd epochs_s) 50).map fun med => (med, max (rnd (gap_factor * med)) min_floor_s)

def detect_blackouts (epochs_s : List ℚ) (gap_factor min_floor_s : ℚ) : Option ℚ × List ℚ :=
  match blackout_threshold rnd epochs_s gap_factor min_floor_s with
  | none => (none, [])
  | some (med, thresh) => (some med, (deltas rnd epochs_s).filter fun d => d > thresh)

section Threshold

variable {rnd} {epochs_s : List ℚ} {gap_factor min_floor_s thresh : ℚ}

/-- A threshold is never below its floor. -/
theorem floor_le_threshold {med : ℚ}
    (hthresh : blackout_threshold rnd epochs_s gap_factor min_floor_s = some (med, thresh)) :
    min_floor_s ≤ thresh := by
  rw [blackout_threshold] at hthresh
  split_ifs at hthresh
  obtain ⟨m, -, heq⟩ := Option.map_eq_some_iff.mp hthresh
  cases heq
  exact le_max_right _ _

/-- There is a threshold for three samples or more only. -/
theorem three_le_of_threshold {mt : ℚ × ℚ}
    (hthresh : blackout_threshold rnd epochs_s gap_factor min_floor_s = some mt) : 3 ≤ epochs_s.length := by
  rw [blackout_threshold] at hthresh
  split_ifs at hthresh with hfew
  exact not_lt.mp hfew

end Threshold

end csp_intercept.regime_common.rounded

namespace csp_intercept.within_pass_blackouts.rounded

open csp_intercept.regime_common.rounded

variable (rnd : ℚ → ℚ)

/-- `round(x, ndigits)`: the nearest decimal number, as a float. -/
def round (x : ℚ) (ndigits : ℕ) : ℚ := rnd (within_pass_blackouts.round x ndigits)

def blackout_intervals (epochs_s : List ℚ) (gap_factor : ℚ) : List (ℚ × ℚ) :=
  if epochs_s.length < 3 then []
  else if rnd (epochs_s.getLastD 0 - epochs_s.headD 0) ≤ 0 then []
  else
    match blackout_threshold rnd epochs_s gap_factor MIN_FLOOR_S with
    | none => []
    | some (_, thresh) => (intervals epochs_s).filter fun i => rnd (i.2 - i.1) > thresh

def blackout_entry (epochs_s : List ℚ) (i : ℚ × ℚ) : Blackout where
  onset_pos := rnd (rnd (i.1 - epochs_s.headD 0) / rnd (epochs_s.getLastD 0 - epochs_s.headD 0))
  dur_s := round rnd (rnd (i.2 - i.1)) 1

def blackout_positions (epochs_s : List ℚ) (gap_factor : ℚ) : List Blackout :=
  (blackout_intervals rnd epochs_s gap_factor).map (blackout_entry rnd epochs_s)

def add_session (gap_s : ℚ) (acc : List Cluster × Option ℚ) (s : Session) : List Cluster × Option ℚ :=
  let opened := acc.1 ++ [⟨[s.source_file], s.epochs_s ∪ []⟩]
  let clusters := match acc.1.getLast?, acc.2 with
    | some c, some last_start =>
      if rnd (s.start - last_start) ≤ gap_s then
        acc.1.dropLast ++ [⟨c.files ++ [s.source_file], s.epochs_s ∪ c.epochs⟩]
      else opened
    | _, _ => opened
  (clusters, some s.start)

def cluster_passes (sessions : List Session) (gap_s : ℚ) : List Pass :=
  ((by_start sessions).foldl (add_session rnd gap_s) ([], none)).1.map fun c => ⟨c.files, sorted c.epochs⟩

section Exact

/-- The exact definitions are those in which nothing is rounded. -/
theorem blackout_positions_id : blackout_positions id = within_pass_blackouts.blackout_positions := rfl

theorem detect_blackouts_id : detect_blackouts id = regime_common.detect_blackouts := rfl

end Exact

/-- Where the rounding of a difference can be undone in the comparison with the gap, the passes are
    those of exact arithmetic for another gap. -/
theorem cluster_passes_eq {rnd} {gap_s gap_s' : ℚ} (hgap : ∀ d, rnd d ≤ gap_s ↔ d ≤ gap_s')
    (sessions : List Session) :
    cluster_passes rnd sessions gap_s = within_pass_blackouts.cluster_passes sessions gap_s' := by
  have hturn : add_session rnd gap_s = within_pass_blackouts.add_session gap_s' := by
    funext acc s
    rcases acc with ⟨clusters, last_start⟩
    cases hlast : clusters.getLast? <;> cases last_start <;>
      simp only [add_session, within_pass_blackouts.add_session, hgap, hlast]
  rw [cluster_passes, within_pass_blackouts.cluster_passes, hturn]

/-- The blackouts are the gaps: a pass with a gap has a span, and the zero deltas that only one of the
    analyses skips are below the floor. -/
theorem blackout_intervals_gaps {rnd} (hmono : Monotone rnd) (hzero : rnd 0 = 0) {epochs_s : List ℚ} {gap_factor : ℚ}
    (hsorted : epochs_s.Pairwise (· ≤ ·)) :
    (detect_blackouts rnd epochs_s gap_factor MIN_FLOOR_S).2 =
      (blackout_intervals rnd epochs_s gap_factor).map fun i => rnd (i.2 - i.1) := by
  rw [detect_blackouts, blackout_intervals]
  cases hthresh : blackout_threshold rnd epochs_s gap_factor MIN_FLOOR_S with
  | none => split_ifs <;> rfl
  | some mt =>
    obtain ⟨med, thresh⟩ := mt
    have hpos : 0 ≤ thresh := le_trans (by norm_num) (floor_le_threshold hthresh)
    have hgaps := regime_common.filter_deltas hmono hzero hpos (intervals epochs_s)
    rw [if_neg (Nat.not_lt.mpr (three_le_of_threshold hthresh))]
    split_ifs with hspan
    · -- no interval is longer than the span
      have hnone : ((intervals epochs_s).filter fun i => rnd (i.2 - i.1) > thresh) = [] := by
        rw [List.filter_eq_nil_iff]
        intro i hi
        obtain ⟨hfst, hsnd, -, -⟩ := between_of_mem_intervals hsorted hi
        have hinside : rnd (i.2 - i.1) ≤ rnd (epochs_s.getLastD 0 - epochs_s.headD 0) :=
          hmono (sub_le_sub (le_getLastD hsorted hsnd) (headD_le hsorted hfst))
        rw [decide_eq_true_eq]
        exact not_lt.mpr ((hinside.trans hspan).trans hpos)
      rw [hnone] at hgaps
      exact hgaps
    · exact hgaps

end csp_intercept.within_pass_blackouts.rounded

namespace csp_intercept.float

/-- What an operation on floats makes of the exact result. None of them here is so large that it
    is infinite, but for a threshold, which is then above every difference. -/
def fl (x : ℚ) : ℚ := binary64.rnd x

theorem fl_mono : Monotone fl := fun _ _ hxy => binary64.rnd_mono hxy

theorem fl_zero : fl 0 = 0 := binary64.rnd_zero

/-- The last digit of a double between 1024 and 2048. -/
theorem exponent_of_lt_2048 {d : ℚ} (hlow : 1024 ≤ d) (hhigh : d < 2048) : binary64.exponent d = -42 := by
  have hpos : 0 < d := by linarith
  have hge : 10 ≤ Int.log 2 d := (Int.zpow_le_iff_le_log Nat.one_lt_two hpos).mp (by norm_num; exact hlow)
  have hlt : Int.log 2 d < 11 := (Int.lt_zpow_iff_log_lt Nat.one_lt_two hpos).mp (by norm_num; exact hhigh)
  have hlog : Int.log 2 d = 10 := by omega
  simp [Format.exponent, binary64, hlog]

/-- A start is over the gap when it is over the middle between the gap and the next double. -/
theorem fl_le_pass_gap_iff (d : ℚ) : fl d ≤ PASS_GAP_S ↔ d ≤ PASS_GAP_S + 1 / 2 ^ 43 := by
  rw [PASS_GAP_S]
  constructor
  · contrapose!
    intro hd
    rcases le_or_gt 2048 d with hbig | hsmall
    · have hle : fl 2048 ≤ fl d := fl_mono hbig
      have h2048 : fl 2048 = 2048 := by decide +kernel
      rw [h2048] at hle
      linarith
    · have hlast := exponent_of_lt_2048 (by linarith) hsmall
      have hover : ((1200 * 2 ^ 42 : ℤ) : ℚ) * 2 ^ binary64.exponent d < fl d := by
        apply binary64.lt_rnd
        · linarith
        · rw [hlast]
          norm_num at hd ⊢
          linarith
      rw [hlast] at hover
      norm_num at hover
      exact hover
  · intro hd
    have hle : fl d ≤ fl (1200 + 1 / 2 ^ 43) := fl_mono hd
    have hgap : fl (1200 + 1 / 2 ^ 43) = 1200 := by decide +kernel
    rwa [hgap] at hle

end csp_intercept.float
