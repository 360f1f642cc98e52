import CspIntercept.Svu.Ranges

open Overlay

namespace csp_intercept.ci_svu

/-- A call on a receiver. -/
inductive Call
  | accept (f : Fragment)
  | verify (out : List CiSvuInterval) (max : Nat)

/-- The answer to a call. -/
inductive Answer
  | accepted (rc : Int)
  | verdict (status : CiSvuStatus) (out : List CiSvuInterval) (nout : Nat)

/-- The receiver after a call, and the answer. -/
def call (s : CiSvu) : Call → CiSvu × Answer
  | .accept f =>
    let (s, rc) := ci_svu_accept s f.offset f.bytes
    (s, .accepted rc)
  | .verify out max =>
    let (status, out, nout) := ci_svu_verify s out max
    (s, .verdict status out nout)

/-- The fragments that a list of calls delivers. -/
def delivered : List Call → List Fragment
  | [] => []
  | .accept f :: calls => f :: delivered calls
  | .verify _ _ :: calls => delivered calls

/-- The blocks of a payload that do not have their digest, in order. -/
def differing_blocks (total block nblocks : UInt32) (expected data : List UInt8) : List Nat :=
  (List.range nblocks.toNat).filter fun b =>
    Fips180.sha256 (Tiling.tile block.toNat total.toNat data b) ≠ digest expected b

/-- The list of ranges `l` is what the status calls for. -/
structure Rerequests (total block nblocks : UInt32) (expected data : List UInt8) (ws : List (Write UInt8))
    (status : CiSvuStatus) (l : List (Nat × Nat)) : Prop where
  /-- Without full coverage it has the maximal missing runs, -/
  incomplete : status = .INCOMPLETE → ∀ r, r ∈ l ↔ Runs.Maximal (Missing ws) total.toNat r.1 r.2
  /-- with a delivered byte between any two; -/
  separated : status = .INCOMPLETE →
    l.Pairwise fun r t => ∃ i, r.2 ≤ i ∧ i < t.1 ∧ ¬ Missing ws i
  /-- with full coverage, the ranges of the differing blocks. -/
  corrupt : status = .CORRUPT → l = (differing_blocks total block nblocks expected data).map fun b =>
    (b * block.toNat, min ((b + 1) * block.toNat) total.toNat)
  verified : status = .COMPLETE_VERIFIED ↔ l = []
  increasing : l.Pairwise fun r t => r.2 ≤ t.1
  inside : ∀ r ∈ l, r.1 < r.2 ∧ r.2 ≤ total.toNat
  /-- The 32-bit entries and their count are faithful. -/
  entries : ∀ r ∈ l, (interval r).start.toNat = r.1 ∧ (interval r).end_.toNat = r.2
  count : l.length < 4294967296

section Reachable

variable {s₀ s : CiSvu} {ws : List (Write UInt8)}

/-- Calls reach what their fragments reach: a verdict leaves the receiver alone. -/
theorem run_call_state (s : CiSvu) (calls : List Call) :
    (Transducer.run call s calls).1 = (accept_all s (delivered calls)).1 := by
  induction calls generalizing s with
  | nil => rfl
  | cons c calls ih =>
    rw [Transducer.run_cons_state, ih]
    cases c with
    | accept f => rfl
    | verify out max => rfl

/-- Disjoint ranges inside the total are no more than its bytes. -/
theorem length_le_of_increasing {n : Nat} {l : List (Nat × Nat)} (hpair : l.Pairwise fun r t => r.2 ≤ t.1)
    (hmem : ∀ r ∈ l, r.1 < r.2 ∧ r.2 ≤ n) {a : Nat} (ha : ∀ r ∈ l, a ≤ r.1) (han : a ≤ n) :
    a + l.length ≤ n := by
  induction l generalizing a with
  | nil => simpa using han
  | cons r l ih =>
    obtain ⟨hnext, hpair⟩ := List.pairwise_cons.mp hpair
    obtain ⟨hlt, hle⟩ := hmem r List.mem_cons_self
    have har := ha r List.mem_cons_self
    have hrest := ih hpair (fun t ht => hmem t (List.mem_cons_of_mem r ht)) hnext hle
    rw [List.length_cons]
    omega

/-- The range of a block below the count is not empty and lies inside. -/
theorem block_range_inside {size total b : Nat} (hsize : 0 < size) (hb : b < (total + size - 1) / size) :
    b * size < min ((b + 1) * size) total ∧ min ((b + 1) * size) total ≤ total := by
  have hstart := Tiling.start_lt_total hsize hb
  rw [Nat.add_mul, Nat.one_mul]
  omega

theorem block_ranges_increasing (size total : Nat) {bs : List Nat} (hbs : bs.Pairwise (· < ·)) :
    (bs.map fun b => (b * size, min ((b + 1) * size) total)).Pairwise fun r t => r.2 ≤ t.1 := by
  rw [List.pairwise_map]
  apply hbs.imp
  intro b c hbc
  have hmul : (b + 1) * size ≤ c * size := Nat.mul_le_mul_right size hbc
  change min ((b + 1) * size) total ≤ c * size
  omega

theorem failing_blocks_eq (h : Reassembles s₀ ws s) {expected : List UInt8}
    (hexpected : s₀.expected = expected.take (s₀.nblocks.toNat * CI_SVU_HASH_LEN)) :
    failing_blocks s = differing_blocks s₀.total s₀.block s₀.nblocks expected s.data := by
  rw [failing_blocks, differing_blocks, h.nblocks]
  apply List.filter_congr
  intro b hb
  rw [hash_block_eq, h.total, h.block, h.expected, hexpected, digest_take (List.mem_range.mp hb)]

end Reachable

section Lists

variable {total block nblocks : UInt32} {expected data : List UInt8} {ws : List (Write UInt8)}
  {l : List (Nat × Nat)}

theorem interval_toNat {r : Nat × Nat} (hr : r.1 < r.2 ∧ r.2 ≤ total.toNat) :
    (interval r).start.toNat = r.1 ∧ (interval r).end_.toNat = r.2 := by
  have htotal := total.toNat_lt
  rw [interval, UInt32.toNat_ofNat', UInt32.toNat_ofNat']
  exact ⟨Nat.mod_eq_of_lt (by omega), Nat.mod_eq_of_lt (by omega)⟩

theorem length_lt_of_inside (hpair : l.Pairwise fun r t => r.2 ≤ t.1)
    (hmem : ∀ r ∈ l, r.1 < r.2 ∧ r.2 ≤ total.toNat) : l.length < 4294967296 := by
  have htotal := total.toNat_lt
  have hlen := length_le_of_increasing hpair hmem (fun r _ => Nat.zero_le r.1) (Nat.zero_le _)
  omega

/-- A list with holes in it. -/
theorem rerequests_holes (hholes : Runs.RunsFrom (Missing ws) total.toNat 0 l) (hne : l ≠ []) :
    Rerequests total block nblocks expected data ws .INCOMPLETE l := by
  obtain ⟨hpair, hmem⟩ := hholes.pairwise
  have hinside : ∀ r ∈ l, r.1 < r.2 ∧ r.2 ≤ total.toNat := fun r hr =>
    ⟨(hmem r hr).2.1, (hmem r hr).2.2.1⟩
  have hmaximal : ∀ r, r ∈ l ↔ Runs.Maximal (Missing ws) total.toNat r.1 r.2 := by
    intro r
    have hiff : (r.1, r.2) ∈ l ↔ 0 ≤ r.1 ∧ Runs.Maximal (Missing ws) total.toNat r.1 r.2 :=
      hholes.mem_iff (.inl rfl)
    simpa using hiff
  have hincreasing : l.Pairwise fun r t => r.2 ≤ t.1 := hpair.imp fun h => Nat.le_of_lt h
  refine ⟨fun _ => hmaximal, fun _ => ?_, nofun, by simp [hne], hincreasing, hinside,
    fun r hr => interval_toNat (hinside r hr), length_lt_of_inside hincreasing hinside⟩
  apply hpair.imp_of_mem
  intro r t hr ht hrt
  refine ⟨r.2, le_rfl, hrt, fun hmissing => ?_⟩
  -- a run is maximal, so the offset behind it is delivered unless it is the total
  rcases ((hmaximal r).mp hr).right with hend | hnot
  · have hle := (hinside t ht).2
    have hlt := (hinside t ht).1
    omega
  · exact hnot hmissing

/-- A list of the differing blocks, with the status that goes with it. -/
theorem rerequests_blocks (hblock : 0 < block.toNat)
    (hnblocks : nblocks.toNat = (total.toNat + block.toNat - 1) / block.toNat)
    (hl : l = (differing_blocks total block nblocks expected data).map fun b =>
      (b * block.toNat, min ((b + 1) * block.toNat) total.toNat))
    {status : CiSvuStatus} (hstatus : status ≠ .INCOMPLETE) (hverified : status = .COMPLETE_VERIFIED ↔ l = []) :
    Rerequests total block nblocks expected data ws status l := by
  have hincreasing : l.Pairwise fun r t => r.2 ≤ t.1 := by
    rw [hl]
    apply block_ranges_increasing
    exact List.pairwise_lt_range.filter _
  have hinside : ∀ r ∈ l, r.1 < r.2 ∧ r.2 ≤ total.toNat := by
    intro r hr
    rw [hl] at hr
    obtain ⟨b, hb, rfl⟩ := List.mem_map.mp hr
    apply block_range_inside hblock
    rw [← hnblocks]
    exact List.mem_range.mp (List.mem_of_mem_filter hb)
  exact ⟨fun h => absurd h hstatus, fun h => absurd h hstatus, fun _ => hl, hverified, hincreasing,
    hinside, fun r hr => interval_toNat (hinside r hr), length_lt_of_inside hincreasing hinside⟩

end Lists

/-- The re-request list of any reachable receiver is exact and minimal; the caller gets
    its first `max` entries and its full count, and nothing else is touched. -/
theorem ci_svu_verify_rerequests {total block nblocks : UInt32} {expected : List UInt8} {s₀ : CiSvu}
    (hnew : ci_svu_new total block expected nblocks = some s₀) (calls : List Call)
    (out : List CiSvuInterval) {max : Nat} (hmax : max ≤ out.length) :
    ∃ status l, Rerequests total block nblocks expected (Transducer.run call s₀ calls).1.data
        (writes total (delivered calls)) status l ∧
      call (Transducer.run call s₀ calls).1 (.verify out max) =
        ((Transducer.run call s₀ calls).1,
          .verdict status ((l.take max).map interval ++ out.drop (min l.length max)) l.length) := by
  obtain ⟨rfl, rfl, rfl, hcount, hne, hexpected, hstart⟩ := ci_svu_new_spec hnew
  obtain ⟨htotal, hblock, hnblocks⟩ := ci_svu_nblocks_toNat (hcount ▸ hne)
  rw [run_call_state]
  obtain ⟨hrun, -⟩ := hstart.accept_all (delivered calls)
  rw [List.nil_append] at hrun
  generalize (accept_all s₀ (delivered calls)).1 = s at hrun ⊢
  generalize writes s₀.total (delivered calls) = ws at hrun ⊢
  obtain ⟨holes, hholes, hincomplete, hverified, hlist⟩ := ci_svu_verify_ranges hrun max
  have hmissing : Runs.RunsFrom (Missing ws) s₀.total.toNat 0 holes := by
    rw [← hrun.total]
    apply hholes.congr
    intro i _ hi
    exact (hrun.uncovered_iff_missing (by rwa [← hrun.total])).symm
  have hblocks := failing_blocks_eq hrun hexpected
  have hranges : (failing_blocks s).map (block_range s) =
      (differing_blocks s₀.total s₀.block s₀.nblocks expected s.data).map fun b =>
        (b * s₀.block.toNat, min ((b + 1) * s₀.block.toNat) s₀.total.toNat) := by
    rw [hblocks, ← hrun.total, ← hrun.block]
    rfl
  have hcall (l : List (Nat × Nat))
      (hl : (if holes ≠ [] then holes else (failing_blocks s).map (block_range s)) = l) :
      call s (.verify out max) = (s, .verdict (ci_svu_verify s out max).1
        ((l.take max).map interval ++ out.drop (min l.length max)) l.length) := by
    have hpush := hlist out
    rw [hl, foldl_push_range max l out hmax (Nat.zero_le max)] at hpush
    simp only [List.take_zero, List.nil_append, Nat.sub_zero, Nat.zero_add] at hpush
    rw [call, ← Prod.mk.eta (p := ci_svu_verify s out max), hpush]
  by_cases hne : holes ≠ []
  · refine ⟨_, holes, ?_, hcall holes (if_pos hne)⟩
    rw [(hincomplete out).mpr hne]
    exact rerequests_holes hmissing hne
  · refine ⟨_, _, ?_, hcall _ (if_neg hne)⟩
    refine rerequests_blocks hblock (by rw [hcount, hnblocks]) hranges (fun h => hne ((hincomplete out).mp h)) ?_
    rw [hverified out, List.map_eq_nil_iff]
    exact and_iff_right (not_not.mp hne)

/-- The middle byte of three arrived; there is room for one of the two holes. -/
theorem ci_svu_verify_rerequests_middle : ∃ s₀, ci_svu_new 3 2 (List.replicate 64 0) 2 = some s₀ ∧
    ∃ status l, Rerequests 3 2 2 (List.replicate 64 0)
        (Transducer.run call s₀ [.accept ⟨1, [7], by decide⟩, .verify [] 0]).1.data
        (writes 3 (delivered [.accept ⟨1, [7], by decide⟩, .verify [] 0])) status l ∧
      call (Transducer.run call s₀ [.accept ⟨1, [7], by decide⟩, .verify [] 0]).1 (.verify [⟨0, 0⟩] 1) =
        ((Transducer.run call s₀ [.accept ⟨1, [7], by decide⟩, .verify [] 0]).1,
          .verdict status ((l.take 1).map interval ++ [⟨0, 0⟩].drop (min l.length 1)) l.length) :=
  ⟨_, rfl, ci_svu_verify_rerequests rfl _ [⟨0, 0⟩] (by decide)⟩

end csp_intercept.ci_svu
