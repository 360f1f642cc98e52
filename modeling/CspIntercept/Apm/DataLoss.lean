import CspIntercept.Apm.Stream
import CspIntercept.Meas.SeqLoss

open csp_intercept.ci_meas
open csp_intercept.ci_drop_iface (CspPacket)

namespace csp_intercept.csp_monitor_apm

/-- The numbers of the measured frames, and whether each carries payload. -/
def measured (cfg : MonConfig) (frames : List (UInt32 × CspPacket)) : List (UInt16 × Bool) :=
  frames.filterMap fun f => (rdp_header cfg f.2).map fun h => (h.seq, carries_payload f.2)

/-- The frames on the wire, of packets at true positions. -/
def on_wire (packets : List (ℤ × Bool)) : List (UInt16 × Bool) := packets.map fun p => (wire p.1, p.2)

/-- The positions that carried payload, in order. -/
def data_positions (packets : List (ℤ × Bool)) : List ℤ := (packets.filter Prod.snd).map Prod.fst

/-- The data packets lost: the positions between the first and the highest one with payload that
    no payload was observed at. -/
def lost (packets : List (ℤ × Bool)) : Finset ℤ :=
  match data_positions packets with
  | [] => ∅
  | d₀ :: ds => missing d₀ ds

/-- The loss published counts the holes of the stream, and every lost data packet is one. -/
def CountsLost (t : CiSeqTracker) (p₀ : ℤ) (packets : List (ℤ × Bool)) : Prop :=
  ci_seq_tracker_loss t = (missing p₀ (packets.tail.map Prod.fst)).card ∧
    lost packets ⊆ missing p₀ (packets.tail.map Prod.fst)

theorem fed_seqs_eq_measured (cfg : MonConfig) (frames : List (UInt32 × CspPacket)) :
    fed_seqs cfg frames = (measured cfg frames).map Prod.fst := by
  rw [fed_seqs, measured, List.map_filterMap]
  congr 1
  funext f
  rw [Option.map_map]
  rfl

theorem on_wire_seqs (packets : List (ℤ × Bool)) :
    (on_wire packets).map Prod.fst = (packets.map Prod.fst).map wire := by
  rw [on_wire, List.map_map, List.map_map]
  rfl

theorem mem_data_positions {packets : List (ℤ × Bool)} {p : ℤ} :
    p ∈ data_positions packets ↔ (p, true) ∈ packets := by
  simp [data_positions]

/-- What is known of a lost position. -/
theorem mem_lost {packets : List (ℤ × Bool)} {p : ℤ} (hp : p ∈ lost packets) :
    (p, true) ∉ packets ∧ ∃ q, p ≤ q ∧ (q, true) ∈ packets := by
  unfold lost at hp
  cases hdata : data_positions packets with
  | nil =>
    rw [hdata] at hp
    simp at hp
  | cons d₀ ds =>
    rw [hdata] at hp
    obtain ⟨hspan, hnot⟩ := Finset.mem_filter.1 hp
    refine ⟨fun hmem => hnot ?_, highest d₀ ds, (mem_span.1 hspan).2, ?_⟩
    · rw [← hdata]
      exact mem_data_positions.2 hmem
    · rw [← mem_data_positions, hdata]
      exact Serial.foldl_max_mem d₀ ds

section Stream

variable {p₀ : ℤ} {d₀ : Bool} {packets : List (ℤ × Bool)}

/-- A lost position is a hole unless a header-only frame, or the start of the stream, hides it. -/
theorem mem_missing_of_lost {p : ℤ} (hp : p ∈ lost ((p₀, d₀) :: packets)) :
    p ∈ missing p₀ (packets.map Prod.fst) ↔ p₀ ≤ p ∧ (p, false) ∉ (p₀, d₀) :: packets := by
  obtain ⟨hnodata, q, hle, hq⟩ := mem_lost hp
  have hfed (r : ℤ) : r ∈ p₀ :: packets.map Prod.fst ↔
      (r, true) ∈ (p₀, d₀) :: packets ∨ (r, false) ∈ (p₀, d₀) :: packets := by
    have hmem : r ∈ ((p₀, d₀) :: packets).map Prod.fst ↔
        ∃ d, (r, d) ∈ (p₀, d₀) :: packets := by
      simp only [List.mem_map, Prod.exists, exists_and_right, exists_eq_right]
    rw [List.map_cons] at hmem
    rw [hmem, Bool.exists_bool, Or.comm]
  have hhigh : p ≤ highest p₀ (packets.map Prod.fst) := hle.trans (fed_le_highest ((hfed q).2 (.inl hq)))
  rw [missing, Finset.mem_filter, mem_span, hfed]
  tauto

/-- After a stream within the tracker's window, the published loss counts every lost data packet
    exactly when no header-only frame has the number of one, none is older than the first frame
    observed, and no frame older than that one was observed while there is a hole. -/
theorem inferred_loss_counts_lost_iff (cfg : MonConfig) (conn_ovf buffer_out : UInt8) (es : List Event)
    (hwin : Serial.Within 2048 32768 p₀ (packets.map Prod.fst))
    (hstream : measured cfg (stream cfg (csp_monitor_start conn_ovf buffer_out) es) =
      on_wire ((p₀, d₀) :: packets)) :
    CountsLost (run cfg (csp_monitor_start conn_ovf buffer_out) es).mon_seq p₀ ((p₀, d₀) :: packets) ↔
      (∀ p ∈ lost ((p₀, d₀) :: packets), p₀ ≤ p ∧ (p, false) ∉ (p₀, d₀) :: packets) ∧
        NoneEarlyOrComplete p₀ (packets.map Prod.fst) := by
  have hseq : (run cfg (csp_monitor_start conn_ovf buffer_out) es).mon_seq =
      (feeds (p₀ :: packets.map Prod.fst)).1 := by
    rw [run_start_mon_seq, fed_seqs_eq_measured, hstream, on_wire_seqs]
    rfl
  rw [CountsLost, hseq, List.tail_cons]
  change LossIsMissing p₀ (packets.map Prod.fst) ∧ _ ↔ _
  rw [lossIsMissing_iff hwin, and_comm]
  apply and_congr_left
  intro _
  constructor
  · intro hsub p hp
    exact (mem_missing_of_lost hp).1 (hsub hp)
  · intro hcond p hp
    exact (mem_missing_of_lost hp).2 (hcond p hp)

end Stream

section Runs

/-- An RDP frame of node 1 with a sequence number below 256. -/
def rdp_frame (payload : List UInt8) (seq : UInt8) : CspPacket where
  id := { pri := 2, flags := 2, src := 1, dst := 2, dport := 13, sport := 20 }
  data := payload ++ [4, 0, seq, 0, 0]

/-- The drainer at its default port, run over frames from its start. -/
def dipp_monitor : MonConfig where
  mon_match_dport := 13
  mon_window_ms := 1000
  mon_mtu := 200
  mon_dtp_overhead := 4
  mon_buffer_low_water := 100

/-- Data 10 and 12 with 11 lost, and no header-only frame in between. -/
theorem inferred_loss_counts_lost_iff_data_only :
    CountsLost (run dipp_monitor (csp_monitor_start 0 0) (observe [rdp_frame [1] 10, rdp_frame [1] 12])).mon_seq
      10 [(10, true), (12, true)] := by
  have hlost : lost [(10, true), (12, true)] = {11} := by decide
  refine (inferred_loss_counts_lost_iff dipp_monitor 0 0 _ (by decide) rfl).2
    ⟨fun p hp => ?_, .inl fun p hp => ?_⟩
  · rw [hlost, Finset.mem_singleton] at hp
    rw [hp]
    exact ⟨by omega, by simp⟩
  · rw [List.mem_singleton.1 hp]
    omega

/-- Data 10, an acknowledgement of the sender with its next number 11, and data 12 after data
    11 was lost: the loss published is 0. -/
theorem inferred_loss_hidden_by_ack :
    let m := run dipp_monitor (csp_monitor_start 0 0)
      (observe [rdp_frame [1] 10, rdp_frame [] 11, rdp_frame [1] 12])
    measured dipp_monitor (stream dipp_monitor (csp_monitor_start 0 0)
        (observe [rdp_frame [1] 10, rdp_frame [] 11, rdp_frame [1] 12])) =
        on_wire [(10, true), (11, false), (12, true)] ∧
      lost [(10, true), (11, false), (12, true)] = {11} ∧ ci_seq_tracker_loss m.mon_seq = 0 ∧
      ¬ CountsLost m.mon_seq 10 [(10, true), (11, false), (12, true)] := by
  intro m
  have hlost : lost [(10, true), (11, false), (12, true)] = {11} := by decide
  have hseq : m.mon_seq = (feeds [10, 11, 12]).1 := run_start_mon_seq dipp_monitor 0 0 _
  have hloss : ci_seq_tracker_loss (feeds [10, 11, 12]).1 = 0 := by
    rw [ci_seq_tracker_loss_eq (by decide)]
    decide
  refine ⟨rfl, hlost, by rw [hseq, hloss], fun hcounts => ?_⟩
  have hmem : (11 : ℤ) ∈ missing 10 [11, 12] := hcounts.2 (by rw [hlost]; exact Finset.mem_singleton_self 11)
  exact absurd hmem (by decide)

end Runs

end csp_intercept.csp_monitor_apm
