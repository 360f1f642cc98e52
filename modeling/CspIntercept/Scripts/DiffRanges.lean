import CspIntercept.Lib.Overlay
import CspIntercept.Lib.Runs
import CspIntercept.Scripts.CspVerify
import Mathlib.Algebra.BigOperators.Group.List.Basic

open Runs

namespace csp_intercept.csp_verify

structure DiffRange where
  offset : Nat
  length : Nat
deriving DecidableEq

/-- The variables of `diff_ranges`. -/
structure DiffScan where
  ranges : List DiffRange
  n : Nat
  start : Option Nat

def bad (orig recv : List UInt8) (i : Nat) : Bool :=
  i ≥ orig.length || i ≥ recv.length || orig[i]? != recv[i]?

/-- One turn of the loop. -/
def diff_byte (orig recv : List UInt8) (s : DiffScan) (i : Nat) : DiffScan :=
  if bad orig recv i then { s with n := s.n + 1, start := some (s.start.getD i) }
  else
    match s.start with
    | some start => { s with ranges := s.ranges ++ [⟨start, i - start⟩], start := none }
    | none => s

/-- What follows the loop: a range still open ends with the longer file. -/
def diff_close (span : Nat) (s : DiffScan) : List DiffRange × Nat :=
  match s.start with
  | some start => (s.ranges ++ [⟨start, span - start⟩], s.n)
  | none => (s.ranges, s.n)

/-- Contiguous byte runs where delivered is not source, and how many bytes they have. -/
def diff_ranges (orig recv : List UInt8) : List DiffRange × Nat :=
  let span := max orig.length recv.length
  diff_close span ((List.range span).foldl (diff_byte orig recv) ⟨[], 0, none⟩)

/-- The bytes of the source on a range. -/
def resent (orig : List UInt8) (r : DiffRange) : Overlay.Write UInt8 :=
  ⟨r.offset, (orig.drop r.offset).take r.length⟩

/-- The delivered file after the ranges are sent again. -/
def recover (orig recv : List UInt8) (ranges : List DiffRange) : List UInt8 :=
  ((ranges.map (resent orig)).foldl Overlay.store recv).take orig.length

section Scan

/-- A maximal run as the range it is reported as. -/
def range_of (r : Nat × Nat) : DiffRange := ⟨r.1, r.2 - r.1⟩

/-- The number of positions in a list of runs. -/
def run_bytes (l : List (Nat × Nat)) : Nat := (l.map fun r => r.2 - r.1).sum

/-- The scan from `i` on appends the runs from there on, whether no range is open or one has
    been since `a`. -/
theorem diff_close_foldl (orig recv : List UInt8) {span : Nat} (m i : Nat) (hi : i + m = span)
    (rs : List DiffRange) (n : Nat) :
    (∃ l, RunsFrom (bad orig recv · = true) span i l ∧
      diff_close span ((List.range' i m).foldl (diff_byte orig recv) ⟨rs, n, none⟩) =
        (rs ++ l.map range_of, n + run_bytes l)) ∧
    ∀ a, ∃ b l, OpenRun (bad orig recv · = true) span i b l ∧
      diff_close span ((List.range' i m).foldl (diff_byte orig recv) ⟨rs, n, some a⟩) =
        (rs ++ range_of (a, b) :: l.map range_of, n + (b - i) + run_bytes l) := by
  induction m generalizing i rs n with
  | zero =>
    obtain rfl : i = span := hi
    refine ⟨⟨[], OpenRun.done.rest, ?_⟩, fun a => ⟨i, [], OpenRun.done, ?_⟩⟩
    · simp [diff_close, run_bytes]
    · simp [diff_close, run_bytes, range_of]
  | succ m ih =>
    rw [List.range'_succ]
    simp only [List.foldl_cons, diff_byte]
    by_cases hbad : bad orig recv i = true
    · simp only [if_pos hbad, Option.getD_none, Option.getD_some]
      have hopen := (ih (i + 1) (by omega) rs (n + 1)).2
      constructor
      · obtain ⟨b, l, hl, heq⟩ := hopen i
        have hle := hl.le
        refine ⟨(i, b) :: l, hl.runsFrom hbad, heq.trans (Prod.ext rfl ?_)⟩
        simp only [run_bytes, List.map_cons, List.sum_cons]
        omega
      · intro a
        obtain ⟨b, l, hl, heq⟩ := hopen a
        have hle := hl.le
        refine ⟨b, l, hl.extend hbad, heq.trans (Prod.ext rfl ?_)⟩
        simp only
        omega
    · simp only [if_neg hbad]
      constructor
      · obtain ⟨l, hl, heq⟩ := (ih (i + 1) (by omega) rs n).1
        exact ⟨l, hl.skip hbad, heq⟩
      · intro a
        obtain ⟨l, hl, heq⟩ := (ih (i + 1) (by omega) (rs ++ [⟨a, i - a⟩]) n).1
        refine ⟨i, l, hl.openRun (by omega) hbad, heq.trans ?_⟩
        simp [range_of]

/-- The ranges are the maximal runs of bad positions, and the count is their total length. -/
theorem diff_ranges_runs (orig recv : List UInt8) :
    ∃ l, RunsFrom (bad orig recv · = true) (max orig.length recv.length) 0 l ∧
      diff_ranges orig recv = (l.map range_of, run_bytes l) := by
  obtain ⟨l, hl, heq⟩ :=
    (diff_close_foldl orig recv (max orig.length recv.length) 0 (Nat.zero_add _) [] 0).1
  refine ⟨l, hl, ?_⟩
  rw [diff_ranges, List.range_eq_range']
  simpa using heq

end Scan

/-- The recovery list of a source and a delivered file. -/
structure RecoveryExact (orig recv : List UInt8) : Prop where
  positive : ∀ r ∈ (diff_ranges orig recv).1, 1 ≤ r.length
  /-- Each range starts behind the one before it, with a byte between them that agrees. -/
  separated : (diff_ranges orig recv).1.Pairwise fun r s => ∃ j, r.offset + r.length ≤ j ∧ j < s.offset ∧
    ∃ byte, orig[j]? = some byte ∧ recv[j]? = some byte
  /-- A position is in some range exactly when the bytes differ there or one file has ended. -/
  union : ∀ i, (∃ r ∈ (diff_ranges orig recv).1, r.offset ≤ i ∧ i < r.offset + r.length) ↔
    i < max orig.length recv.length ∧ (orig.length ≤ i ∨ recv.length ≤ i ∨ orig[i]? ≠ recv[i]?)
  count : (diff_ranges orig recv).2 = ((diff_ranges orig recv).1.map DiffRange.length).sum
  identical : (diff_ranges orig recv).1 = [] ↔ orig = recv
  /-- Sending the ranges again gives the source. -/
  recovered : recover orig recv (diff_ranges orig recv).1 = orig

section Exact

variable {orig recv : List UInt8}

theorem bad_iff {i : Nat} :
    bad orig recv i = true ↔ orig.length ≤ i ∨ recv.length ≤ i ∨ orig[i]? ≠ recv[i]? := by
  simp [bad, or_assoc]

/-- Where the files agree they have the same byte. -/
theorem agree_of_not_bad {i : Nat} (hgood : ¬ bad orig recv i = true) :
    ∃ byte, orig[i]? = some byte ∧ recv[i]? = some byte := by
  rw [bad_iff, not_or, not_or, not_not] at hgood
  obtain ⟨horig, -, hsame⟩ := hgood
  have hi : i < orig.length := Nat.lt_of_not_le horig
  refine ⟨orig[i], List.getElem?_eq_getElem hi, ?_⟩
  rw [← hsame]
  exact List.getElem?_eq_getElem _

theorem eq_of_no_bad (hgood : ∀ i, i < max orig.length recv.length → ¬ bad orig recv i = true) : orig = recv := by
  apply List.ext_getElem?
  intro i
  by_cases hi : i < max orig.length recv.length
  · obtain ⟨byte, horig, hrecv⟩ := agree_of_not_bad (hgood i hi)
    rw [horig, hrecv]
  · rw [List.getElem?_eq_none (by omega), List.getElem?_eq_none (by omega)]

/-- What a range sends again for a position. -/
theorem itemAt_resent {r : DiffRange} {i : Nat} :
    (resent orig r).itemAt i = if r.offset ≤ i ∧ i < r.offset + r.length then orig[i]? else none := by
  rw [Overlay.Write.itemAt, resent]
  simp only
  split_ifs with hlo hin hin
  · rw [List.getElem?_take, if_pos (by omega), List.getElem?_drop]
    congr 1
    omega
  · rw [List.getElem?_take, if_neg (by omega)]
  · omega
  · rfl

/-- Ranges that start inside the delivered file and cover all bad positions restore the source. -/
theorem recover_eq {ranges : List DiffRange} (hinside : ∀ r ∈ ranges, r.offset ≤ recv.length)
    (hcover : ∀ i, i < max orig.length recv.length → bad orig recv i = true →
      ∃ r ∈ ranges, r.offset ≤ i ∧ i < r.offset + r.length) : recover orig recv ranges = orig := by
  have hwrites : ∀ w ∈ ranges.map (resent orig), w.offset ≤ recv.length := by
    intro w hw
    obtain ⟨r, hr, rfl⟩ := List.mem_map.mp hw
    exact hinside r hr
  apply List.ext_getElem?
  intro i
  rw [recover, List.getElem?_take]
  split_ifs with hi
  · rw [Overlay.getElem?_foldl_store hwrites]
    cases hlast : Overlay.lastWrite (ranges.map (resent orig)) i with
    | none =>
      have hgood : ¬ bad orig recv i = true := by
        intro hbad
        obtain ⟨r, hr, hin⟩ := hcover i (by omega) hbad
        have hsome : (Overlay.lastWrite (ranges.map (resent orig)) i).isSome := by
          rw [Overlay.lastWrite_isSome_iff]
          refine ⟨resent orig r, List.mem_map_of_mem hr, ?_⟩
          rw [← Overlay.Write.itemAt_isSome_iff, itemAt_resent, if_pos hin, List.getElem?_eq_getElem hi]
          rfl
        rw [hlast] at hsome
        cases hsome
      obtain ⟨byte, horig, hrecv⟩ := agree_of_not_bad hgood
      rw [Option.none_or, horig, hrecv]
    | some byte =>
      obtain ⟨w, hw, hitem⟩ := List.exists_of_findSome?_eq_some hlast
      obtain ⟨r, hr, rfl⟩ := List.mem_map.mp (List.mem_reverse.mp hw)
      rw [itemAt_resent, Option.ite_none_right_eq_some] at hitem
      rw [Option.some_or, hitem.2]
  · rw [List.getElem?_eq_none (by omega)]

theorem range_of_end {r : Nat × Nat} (hlt : r.1 < r.2) : (range_of r).offset + (range_of r).length = r.2 := by
  rw [range_of]
  simp only
  omega

variable {l : List (Nat × Nat)} (hl : RunsFrom (bad orig recv · = true) (max orig.length recv.length) 0 l)
include hl

/-- The ranges of the runs hold the bad positions. -/
theorem exists_range_iff (i : Nat) : (∃ r ∈ l.map range_of, r.offset ≤ i ∧ i < r.offset + r.length) ↔
    i < max orig.length recv.length ∧ bad orig recv i = true := by
  obtain ⟨-, hmem⟩ := hl.pairwise
  simp only [List.mem_map, exists_exists_and_eq_and]
  constructor
  · rintro ⟨r, hr, hlo, hhi⟩
    obtain ⟨-, hlt, hend, hall⟩ := hmem r hr
    rw [range_of_end hlt] at hhi
    exact ⟨by omega, hall i hlo hhi⟩
  · rintro ⟨hi, hbad⟩
    obtain ⟨r, hr, hlo, hhi⟩ := hl.exists_mem (Nat.zero_le i) hi hbad
    exact ⟨r, hr, hlo, by rwa [range_of_end (hmem r hr).2.1]⟩

/-- There is no run between equal files only. -/
theorem runs_eq_nil_iff : l = [] ↔ orig = recv := by
  constructor
  · rintro rfl
    exact eq_of_no_bad fun i hi => hl.gap (Nat.zero_le i) hi
  · rintro rfl
    rw [List.eq_nil_iff_forall_not_mem]
    intro r hr
    obtain ⟨-, hlt, hend, hall⟩ := hl.pairwise.2 r hr
    have hbad := bad_iff.mp (hall r.1 le_rfl hlt)
    simp at hbad
    omega

/-- A run starts inside the delivered file or where it ends: behind that all positions are bad. -/
theorem start_le_recv {r : Nat × Nat} (hr : r ∈ l) : r.1 ≤ recv.length := by
  rcases ((hl.mem_iff (.inl rfl)).mp hr).2.left with hzero | hgood
  · exact hzero.trans_le (Nat.zero_le _)
  · rw [bad_iff] at hgood
    omega

end Exact

/-- The recovery list is exact. -/
theorem recovery_exact (orig recv : List UInt8) : RecoveryExact orig recv := by
  obtain ⟨l, hl, hranges⟩ := diff_ranges_runs orig recv
  obtain ⟨hpair, hmem⟩ := hl.pairwise
  constructor
  · rw [hranges]
    intro s hs
    obtain ⟨r, hr, rfl⟩ := List.mem_map.mp hs
    exact Nat.sub_pos_of_lt (hmem r hr).2.1
  · rw [hranges, List.pairwise_map]
    refine hpair.imp_of_mem fun {r s} hr hs hrs => ?_
    obtain ⟨-, hlt, hend, -⟩ := hmem s hs
    have hright := ((hl.mem_iff (.inl rfl)).mp hr).2.right
    refine ⟨r.2, (range_of_end (hmem r hr).2.1).le, hrs, ?_⟩
    exact agree_of_not_bad (hright.resolve_left (by omega))
  · intro i
    rw [hranges, exists_range_iff hl, bad_iff]
  · rw [hranges, run_bytes, List.map_map]
    rfl
  · rw [hranges, List.map_eq_nil_iff, runs_eq_nil_iff hl]
  · rw [hranges]
    refine recover_eq (fun s hs => ?_) fun i hi hbad => (exists_range_iff hl i).mpr ⟨hi, hbad⟩
    obtain ⟨r, hr, rfl⟩ := List.mem_map.mp hs
    exact start_le_recv hl hr

end csp_intercept.csp_verify
