import CspIntercept.Apm.Monitor
import CspIntercept.Meas.RttHistory

open csp_intercept.ci_rdp csp_intercept.ci_rule csp_intercept.ci_meas
open csp_intercept.ci_drop_iface (CspPacket)

namespace csp_intercept.csp_monitor_apm

/-- The frame that the drainer handles on an event, and its time. -/
def handled (m : Monitor) : Event → Option (UInt32 × CspPacket)
  | .drain a => if m.drainer = .promisc_read then a.packet.map fun pk => (a.t, pk) else none
  | _ => none

/-- The frames handled in a run, in order. -/
def stream (cfg : MonConfig) : Monitor → List Event → List (UInt32 × CspPacket)
  | _, [] => []
  | m, e :: es => (handled m e).toList ++ stream cfg (step cfg m e) es

/-- The trailer of a frame that the drainer measures. -/
def rdp_header (cfg : MonConfig) (pk : CspPacket) : Option CiRdpHeader :=
  if (cfg.mon_match_dport < 0 ∨ pk.id.dport = UInt16.ofInt cfg.mon_match_dport) ∧
      (ci_frame_from_fields pk.id.dport pk.id.flags pk.data).is_rdp then
    ci_rdp_parse_trailer pk.data
  else none

/-- A frame longer than its trailer is data, any other one only acknowledges. -/
def carries_payload (pk : CspPacket) : Bool := decide (pk.data.length > CI_RDP_HEADER_SIZE)

/-- The sequence numbers that frames feed to the tracker. -/
def fed_seqs (cfg : MonConfig) (frames : List (UInt32 × CspPacket)) : List UInt16 :=
  frames.filterMap fun f => (rdp_header cfg f.2).map CiRdpHeader.seq

/-- A frame recorded as data, before its acknowledgement is looked up. -/
def data_call (t : UInt32) (pk : CspPacket) (h : CiRdpHeader) : List RttCall :=
  if carries_payload pk then [.data h.seq t] else []

/-- The calls that a frame makes on the pairing ring. -/
def rtt_calls (cfg : MonConfig) (f : UInt32 × CspPacket) : List RttCall :=
  match rdp_header cfg f.2 with
  | some h => data_call f.1 f.2 h ++ [.ack h.ack f.1]
  | none => []

section Drain

variable {cfg : MonConfig} {pk : CspPacket} {h : CiRdpHeader}

/-- A measured frame feeds the tracker once, calls on the ring and writes its row. -/
theorem drain_packet_measured (hpk : rdp_header cfg pk = some h) (m : Monitor) (t : UInt32) :
    (drain_packet cfg m t (some pk)).mon_seq = (ci_seq_tracker_feed m.mon_seq h.seq).1 ∧
      (drain_packet cfg m t (some pk)).mon_rtt = (Transducer.run rtt_step m.mon_rtt (rtt_calls cfg (t, pk))).1 ∧
      (drain_packet cfg m t (some pk)).mon_csv = m.mon_csv ++
        [.rdp t pk.id.src pk.id.dst pk.id.dport pk.id.flags h.flags h.seq h.ack
          (ci_rtt_on_ack (Transducer.run rtt_step m.mon_rtt (data_call t pk h)).1 h.ack t).2.isSome
          ((ci_rtt_on_ack (Transducer.run rtt_step m.mon_rtt (data_call t pk h)).1 h.ack t).2.getD 0)] := by
  have hcalls : rtt_calls cfg (t, pk) = data_call t pk h ++ [.ack h.ack t] := by
    unfold rtt_calls
    rw [hpk]
  rw [hcalls, Transducer.run_append]
  unfold rdp_header at hpk
  split_ifs at hpk with hmatched
  have hdrain : drain_packet cfg m t (some pk) = drain_rdp m t pk :=
    (if_pos hmatched.1).trans (if_pos hmatched.2)
  have hring : (Transducer.run rtt_step m.mon_rtt (data_call t pk h)).1 =
      if pk.data.length > CI_RDP_HEADER_SIZE then ci_rtt_on_data m.mon_rtt h.seq t else m.mon_rtt := by
    unfold data_call carries_payload
    by_cases hdata : pk.data.length > CI_RDP_HEADER_SIZE
    · rw [if_pos (decide_eq_true hdata), if_pos hdata]
      rfl
    · rw [if_neg (by simpa using hdata), if_neg hdata]
      rfl
  rw [hdrain, hring]
  simp only [drain_rdp, hpk, true_and, and_true]
  rw [← hring]
  rfl

/-- No other frame reaches the tracker or the ring. -/
theorem drain_packet_unmeasured (hpk : rdp_header cfg pk = none) (m : Monitor) (t : UInt32) :
    (drain_packet cfg m t (some pk)).mon_seq = m.mon_seq ∧
      (drain_packet cfg m t (some pk)).mon_rtt = m.mon_rtt := by
  unfold rdp_header at hpk
  simp only [drain_packet]
  split_ifs with hmatch hrdp hdtp
  · rw [if_pos ⟨hmatch, hrdp⟩] at hpk
    simp only [drain_rdp, hpk, and_self]
  all_goals exact ⟨rfl, rfl⟩

end Drain

/-- One event, as the tracker and the ring see it. -/
theorem step_measures (cfg : MonConfig) (m : Monitor) (e : Event) :
    (step cfg m e).mon_seq =
        (Transducer.run ci_seq_tracker_feed m.mon_seq (fed_seqs cfg (handled m e).toList)).1 ∧
      (step cfg m e).mon_rtt =
        (Transducer.run rtt_step m.mon_rtt ((handled m e).toList.flatMap (rtt_calls cfg))).1 := by
  cases e with
  | loss c => cases c <;> exact ⟨rfl, rfl⟩
  | stop => exact ⟨rfl, rfl⟩
  | drain a =>
    cases hat : m.drainer with
    | promisc_read =>
      simp only [step, mon_drainer, hat, handled, if_true]
      cases hpacket : a.packet with
      | none => exact ⟨rfl, rfl⟩
      | some pk =>
        cases hpk : rdp_header cfg pk with
        | none =>
          obtain ⟨hseq, hrtt⟩ := drain_packet_unmeasured hpk m a.t
          simp only [hseq, hrtt, fed_seqs, rtt_calls, hpk, Option.map_some, Option.toList_some,
            List.filterMap_cons, Option.map_none, List.filterMap_nil, List.flatMap_cons, List.flatMap_nil,
            List.append_nil, Transducer.run_nil, and_self]
        | some h =>
          obtain ⟨hseq, hrtt, -⟩ := drain_packet_measured hpk m a.t
          simp only [hseq, hrtt, fed_seqs, hpk, Option.map_some, Option.toList_some, List.filterMap_cons,
            List.filterMap_nil, List.flatMap_cons, List.flatMap_nil, List.append_nil, Transducer.run_cons_state,
            Transducer.run_nil, and_self]
    | _ => simp [step, mon_drainer, hat, handled, fed_seqs]

/-- After a run the tracker has been fed the numbers of the frames handled, and the ring has
    had their calls. -/
theorem run_measures (cfg : MonConfig) (m : Monitor) (es : List Event) :
    (run cfg m es).mon_seq =
        (Transducer.run ci_seq_tracker_feed m.mon_seq (fed_seqs cfg (stream cfg m es))).1 ∧
      (run cfg m es).mon_rtt =
        (Transducer.run rtt_step m.mon_rtt ((stream cfg m es).flatMap (rtt_calls cfg))).1 := by
  induction es generalizing m with
  | nil => exact ⟨rfl, rfl⟩
  | cons e es ih =>
    obtain ⟨hseq, hrtt⟩ := step_measures cfg m e
    obtain ⟨hseqs, hrtts⟩ := ih (step cfg m e)
    rw [hseq] at hseqs
    rw [hrtt] at hrtts
    have happend : fed_seqs cfg (stream cfg m (e :: es)) =
        fed_seqs cfg (handled m e).toList ++ fed_seqs cfg (stream cfg (step cfg m e) es) :=
      List.filterMap_append
    rw [happend, stream, List.flatMap_append, Transducer.run_append, Transducer.run_append]
    exact ⟨hseqs, hrtts⟩

section Start

variable (cfg : MonConfig) (conn_ovf buffer_out : UInt8) (es : List Event)

theorem run_start_mon_seq : (run cfg (csp_monitor_start conn_ovf buffer_out) es).mon_seq =
    fed (fed_seqs cfg (stream cfg (csp_monitor_start conn_ovf buffer_out) es)) :=
  (run_measures cfg _ es).1

theorem run_start_mon_rtt : (run cfg (csp_monitor_start conn_ovf buffer_out) es).mon_rtt =
    rtt_ring ((stream cfg (csp_monitor_start conn_ovf buffer_out) es).flatMap (rtt_calls cfg)) :=
  (run_measures cfg _ es).2

end Start

section Observe

def drain (packet : Option CspPacket) : Event :=
  .drain { t := 0, now := 0, packet, csp_buffer_remaining := 200 }

/-- The start, and then each frame and the loop head after it. -/
def observe (frames : List CspPacket) : List Event :=
  [drain none, drain none, drain none] ++ frames.flatMap fun pk => [drain (some pk), drain none]

/-- A frame leaves the clock of the window and the running flag. -/
theorem drain_packet_frame (cfg : MonConfig) (m : Monitor) (t : UInt32) (packet : Option CspPacket) :
    (drain_packet cfg m t packet).window_start = m.window_start ∧
      (drain_packet cfg m t packet).mon_running = m.mon_running := by
  cases packet with
  | none => exact ⟨rfl, rfl⟩
  | some pk =>
    simp only [drain_packet]
    split_ifs
    · unfold drain_rdp
      cases ci_rdp_parse_trailer pk.data <;> exact ⟨rfl, rfl⟩
    · exact ⟨rfl, rfl⟩
    · exact ⟨rfl, rfl⟩
    · exact ⟨rfl, rfl⟩

theorem stream_reading {cfg : MonConfig} (hwindow : 0 < cfg.mon_window_ms) (frames : List CspPacket) {m : Monitor}
    (hat : m.drainer = .promisc_read) (hrunning : m.mon_running = true) (hstart : m.window_start = 0) :
    stream cfg m (frames.flatMap fun pk => [drain (some pk), drain none]) = frames.map fun pk => (0, pk) := by
  induction frames generalizing m with
  | nil => rfl
  | cons pk frames ih =>
    obtain ⟨hclock, hflag⟩ := drain_packet_frame cfg m 0 (some pk)
    have hyoung : ¬ (0 : UInt32) - m.window_start ≥ cfg.mon_window_ms := by
      rw [hstart, UInt32.sub_self]
      exact UInt32.not_le.mpr hwindow
    have hread : step cfg m (drain (some pk)) = { drain_packet cfg m 0 (some pk) with drainer := .loop_head } := by
      simp only [step, drain, mon_drainer, hat, if_neg hyoung]
    have hhead : step cfg (step cfg m (drain (some pk))) (drain none) =
        { drain_packet cfg m 0 (some pk) with drainer := .promisc_read } := by
      rw [hread]
      simp only [step, drain, mon_drainer, hflag, hrunning, if_true]
    have hhandled : handled m (drain (some pk)) = some (0, pk) := if_pos hat
    have hidle : handled (step cfg m (drain (some pk))) (drain none) = none := by
      rw [hread]
      rfl
    have hrest := ih (m := { drain_packet cfg m 0 (some pk) with drainer := .promisc_read }) rfl
      (hflag.trans hrunning) (hclock.trans hstart)
    rw [List.flatMap_cons, List.cons_append, List.cons_append, List.nil_append, stream, stream, hhandled, hidle, hhead,
      hrest]
    rfl

/-- All the frames are handled. -/
theorem stream_observe {cfg : MonConfig} (hwindow : 0 < cfg.mon_window_ms) (frames : List CspPacket) :
    stream cfg (csp_monitor_start 0 0) (observe frames) = frames.map fun pk => (0, pk) :=
  stream_reading (m := step cfg (step cfg (step cfg (csp_monitor_start 0 0) (drain none)) (drain none)) (drain none))
    hwindow frames rfl rfl rfl

end Observe

end csp_intercept.csp_monitor_apm
