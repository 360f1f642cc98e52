import CspIntercept.Lib.Runs
import CspIntercept.Svu.Verdict

open Overlay

namespace csp_intercept.ci_svu

/-- The offset never received a byte. -/
def Uncovered (s : CiSvu) (i : Nat) : Prop := s.covered[i]? = some false

/-- No byte was delivered to the offset. -/
def Missing (ws : List (Write UInt8)) (i : Nat) : Prop := ∀ w ∈ ws, ¬ w.Covers i

/-- A range as the interval the caller is given. -/
def interval (r : Nat × Nat) : CiSvuInterval := ⟨UInt32.ofNat r.1, UInt32.ofNat r.2⟩

def push_range (max : Nat) (acc : List CiSvuInterval × Nat) (r : Nat × Nat) : List CiSvuInterval × Nat :=
  push_interval max acc r.1 r.2

/-- The range of a block, clipped to the total. -/
def block_range (s : CiSvu) (b : Nat) : Nat × Nat :=
  (b * s.block.toNat, Tiling.stop s.block.toNat s.total.toNat b)

/-- The blocks whose hash differs, in order. -/
def failing_blocks (s : CiSvu) : List Nat :=
  (List.range s.nblocks.toNat).filter fun b => hash_block s.data s.total s.block b ≠ digest s.expected b

/-- Pushing a list of ranges counts all of them and keeps those there is room for. -/
theorem foldl_push_range (max : Nat) (l : List (Nat × Nat)) (out : List CiSvuInterval) {c : Nat}
    (hmax : max ≤ out.length) (hc : c ≤ max) :
    l.foldl (push_range max) (out, c) =
      (out.take c ++ (l.take (max - c)).map interval ++ out.drop (c + min l.length (max - c)),
        c + l.length) := by
  induction l generalizing out c with
  | nil => simp
  | cons r l ih =>
    rw [List.foldl_cons, push_range, push_interval]
    rcases Nat.lt_or_ge c max with hlt | hge
    · have hset : out.set c ⟨UInt32.ofNat r.1, UInt32.ofNat r.2⟩ =
          out.take c ++ interval r :: out.drop (c + 1) := by
        rw [List.set_eq_take_append_cons_drop, if_pos (by omega)]
        rfl
      have htake : (out.take c).length = c := by
        rw [List.length_take]
        omega
      have hlen : (out.take c ++ [interval r]).length = c + 1 := by
        rw [List.length_append, htake, List.length_singleton]
      have hroom : max - c = (max - (c + 1)) + 1 := by omega
      rw [if_pos hlt, ih _ (by rw [List.length_set]; exact hmax) (by omega), hset, ← List.singleton_append,
        ← List.append_assoc, List.take_left' hlen, List.drop_append, hlen,
        List.drop_eq_nil_of_le (by omega), List.nil_append, List.drop_drop, hroom, List.take_succ_cons,
        List.length_cons]
      refine Prod.ext ?_ (by simp only; omega)
      simp only [List.map_cons, List.append_assoc, List.cons_append, List.nil_append]
      congr 4
      omega
    · have hcm : c = max := by omega
      subst hcm
      have hsame : ∀ (l : List (Nat × Nat)) (n : Nat), c ≤ n →
          l.foldl (push_range c) (out, n) = (out, n + l.length) := by
        intro l
        induction l with
        | nil => intro n _; rfl
        | cons r l ih' =>
          intro n hn
          rw [List.foldl_cons, push_range, push_interval, if_neg (by simp only; omega), ih' _ (by omega),
            List.length_cons, Nat.add_assoc, Nat.add_comm 1]
      rw [if_neg (by omega), hsame l _ (by omega)]
      simp only [Nat.sub_self, List.take_zero, List.map_nil, List.append_nil, Nat.min_zero, Nat.add_zero,
        List.take_append_drop, List.length_cons]
      refine Prod.ext rfl ?_
      simp only
      omega

/-- The inner scan stops at the first covered offset, or at the end. -/
theorem run_end_spec (s : CiSvu) {n run : Nat} (hle : run ≤ s.total.toNat) (hfuel : s.total.toNat ≤ run + n) :
    run ≤ run_end s.covered s.total.toNat n run ∧
      run_end s.covered s.total.toNat n run ≤ s.total.toNat ∧
      (∀ j, run ≤ j → j < run_end s.covered s.total.toNat n run → Uncovered s j) ∧
      (run_end s.covered s.total.toNat n run = s.total.toNat ∨
        ¬ Uncovered s (run_end s.covered s.total.toNat n run)) := by
  induction n generalizing run with
  | zero =>
    rw [run_end]
    exact ⟨le_rfl, hle, fun j hlo hhi => by omega, .inl (by omega)⟩
  | succ n ih =>
    rw [run_end]
    split_ifs with hgo
    · obtain ⟨hlo, hhi, hall, hright⟩ := ih (by omega : run + 1 ≤ s.total.toNat) (by omega)
      refine ⟨by omega, hhi, fun j hj hj' => ?_, hright⟩
      rcases Nat.eq_or_lt_of_le hj with heq | hlt
      · subst heq
        exact hgo.2
      · exact hall j hlt hj'
    · refine ⟨le_rfl, hle, fun j hlo hhi => by omega, ?_⟩
      rcases Nat.eq_or_lt_of_le hle with heq | hlt
      · exact .inl heq
      · exact .inr fun hun => hgo ⟨hlt, hun⟩

/-- The scan pushes the maximal uncovered runs, in order. -/
theorem scan_holes_spec (s : CiSvu) (max : Nat) {n i : Nat} (hfuel : s.total.toNat ≤ i + n) :
    ∃ l, Runs.RunsFrom (Uncovered s) s.total.toNat i l ∧
      ∀ acc, scan_holes s.covered s.total.toNat max n i acc = l.foldl (push_range max) acc := by
  induction n generalizing i with
  | zero => exact ⟨[], .nil fun j hlo hhi => by omega, fun acc => rfl⟩
  | succ n ih =>
    by_cases hi : i < s.total.toNat
    · by_cases hun : s.covered[i]? = some false
      · obtain ⟨hlo, hhi, hall, hright⟩ := run_end_spec s (n := s.total.toNat - i) hi.le (by omega)
        have hlt : i < run_end s.covered s.total.toNat (s.total.toNat - i) i := by
          rcases Nat.eq_or_lt_of_le hlo with heq | hlt
          · rw [← heq] at hright
            rcases hright with htotal | hnot
            · omega
            · exact absurd hun hnot
          · exact hlt
        obtain ⟨l, hl, hscan⟩ := ih (i := run_end s.covered s.total.toNat (s.total.toNat - i) i) (by omega)
        refine ⟨_, .cons le_rfl (fun j hlo hhi => by omega) hlt hhi hall hright hl, fun acc => ?_⟩
        rw [scan_holes, if_pos hi, if_pos hun, List.foldl_cons, hscan]
        rfl
      · obtain ⟨l, hl, hscan⟩ := ih (i := i + 1) (by omega)
        refine ⟨l, hl.extend (by omega) fun j hlo hhi => ?_, fun acc => ?_⟩
        · have heq : j = i := by omega
          rwa [heq]
        · rw [scan_holes, if_pos hi, if_neg hun, hscan]
    · exact ⟨[], .nil fun j hlo hhi => by omega, fun acc => by rw [scan_holes, if_neg hi]; rfl⟩

/-- The block loop pushes the ranges of the failing blocks, in order. -/
theorem check_blocks_ranges (s : CiSvu) (max : Nat) (bs : List Nat)
    (acc : CiSvuStatus × List CiSvuInterval × Nat) :
    (bs.foldl (check_block s max) acc).2 =
      ((bs.filter fun b => hash_block s.data s.total s.block b ≠ digest s.expected b).map
        (block_range s)).foldl (push_range max) acc.2 := by
  induction bs generalizing acc with
  | nil => rfl
  | cons b bs ih =>
    rw [List.foldl_cons, ih, check_block]
    by_cases hb : hash_block s.data s.total s.block b = digest s.expected b
    · simp [hb]
    · have hend : (if b * s.block.toNat + s.block.toNat > s.total.toNat then s.total.toNat
          else b * s.block.toNat + s.block.toNat) = Tiling.stop s.block.toNat s.total.toNat b := by
        rw [Tiling.stop, Nat.add_mul, Nat.one_mul]
        split_ifs <;> omega
      rw [if_pos hb, List.filter_cons_of_pos (by simpa using hb), List.map_cons, List.foldl_cons]
      simp only [hend]
      rfl

theorem Reassembles.uncovered_iff_missing {s₀ s : CiSvu} {ws : List (Write UInt8)} (h : Reassembles s₀ ws s)
    {i : Nat} (hi : i < s₀.total.toNat) : Uncovered s i ↔ Missing ws i := by
  have hiff : (lastWrite ws i).isSome ↔ ∃ w ∈ ws, w.Covers i := lastWrite_isSome_iff
  rw [Uncovered, h.getElem?_covered hi]
  constructor
  · intro hnone w hw hcov
    have hsome := hiff.mpr ⟨w, hw, hcov⟩
    rw [hsome] at hnone
    cases hnone
  · intro hmissing
    cases hlast : (lastWrite ws i).isSome with
    | false => rfl
    | true =>
      obtain ⟨w, hw, hcov⟩ := hiff.mp hlast
      exact absurd hcov (hmissing w hw)

/-- The counter is short of the total exactly when there is an uncovered run. -/
theorem Reassembles.lt_total_iff_holes {s₀ s : CiSvu} {ws : List (Write UInt8)} (h : Reassembles s₀ ws s)
    {holes : List (Nat × Nat)} (hholes : Runs.RunsFrom (Uncovered s) s.total.toNat 0 holes) :
    s.covered_count < s.total ↔ holes ≠ [] := by
  rw [h.covered_count_lt_iff]
  rw [h.total] at hholes
  constructor
  · rintro ⟨i, hi, hmissing⟩ rfl
    cases hholes with
    | nil hgap => exact hgap i (Nat.zero_le i) hi ((h.uncovered_iff_missing hi).mpr hmissing)
  · intro hne
    cases hholes with
    | nil _ => exact absurd rfl hne
    | @cons _ a b l _ _ hlt hend hall _ _ =>
      have ha : a < s₀.total.toNat := by omega
      exact ⟨a, ha, (h.uncovered_iff_missing ha).mp (hall a le_rfl hlt)⟩

/-- What `ci_svu_verify` enumerates: the maximal uncovered runs as long as there is
    one, the failing blocks once there is none. -/
theorem ci_svu_verify_ranges {s₀ s : CiSvu} {ws : List (Write UInt8)} (h : Reassembles s₀ ws s) (max : Nat) :
    ∃ holes, Runs.RunsFrom (Uncovered s) s.total.toNat 0 holes ∧
      (∀ out, (ci_svu_verify s out max).1 = .INCOMPLETE ↔ holes ≠ []) ∧
      (∀ out, (ci_svu_verify s out max).1 = .COMPLETE_VERIFIED ↔ holes = [] ∧ failing_blocks s = []) ∧
      ∀ out, (ci_svu_verify s out max).2 =
        (if holes ≠ [] then holes else (failing_blocks s).map (block_range s)).foldl (push_range max) (out, 0) := by
  obtain ⟨holes, hholes, hscan⟩ := scan_holes_spec s max (n := s.total.toNat) (i := 0) (by omega)
  have hsome := h.lt_total_iff_holes hholes
  refine ⟨holes, hholes, fun out => ?_, fun out => ?_, fun out => ?_⟩
  · rw [ci_svu_verify]
    split_ifs with hlt
    · simpa using hsome.mp hlt
    · have hnil : ¬ holes ≠ [] := fun hne => hlt (hsome.mpr hne)
      rw [check_blocks_status]
      split_ifs <;> simpa using hnil
  · rw [ci_svu_verify]
    by_cases hlt : s.covered_count < s.total
    · simp [hlt, hsome.mp hlt]
    · have hnil : holes = [] := by
        by_contra hne
        exact hlt (hsome.mpr hne)
      rw [if_neg hlt, check_blocks_status, failing_blocks, List.filter_eq_nil_iff]
      split_ifs with hbad
      · obtain ⟨b, hb, hdiff⟩ := hbad
        refine iff_of_false (by simp) fun hall => ?_
        exact hall.2 b hb (by simpa using hdiff)
      · refine iff_of_true rfl ⟨hnil, fun b hb hdiff => hbad ⟨b, hb, ?_⟩⟩
        simpa using hdiff
  · rw [ci_svu_verify]
    by_cases hlt : s.covered_count < s.total
    · rw [if_pos hlt, if_pos (hsome.mp hlt)]
      exact hscan (out, 0)
    · rw [if_neg hlt, if_neg fun hne => hlt (hsome.mpr hne), check_blocks_ranges]
      rfl

end csp_intercept.ci_svu
