import CspIntercept.Inject.DropIface
import CspIntercept.Meas.LossTrust
import CspIntercept.Meas.RttPairing
import CspIntercept.Meas.WindowHealth

open csp_intercept.ci_rdp csp_intercept.ci_dtp csp_intercept.ci_rule csp_intercept.ci_meas
open csp_intercept.ci_drop_iface (CspPacket)

namespace csp_intercept.csp_monitor_apm

/-- What `csp_monitor start` was given. -/
structure MonConfig where
  mon_match_dport : Int
  mon_window_ms : UInt32
  mon_mtu : UInt16
  mon_dtp_overhead : UInt16
  mon_buffer_low_water : ℤ

/-- A `#WINDOW` row. -/
structure WindowRow where
  t_ms : UInt32
  conn_ovf_delta : UInt8
  buffer_out_delta : UInt8
  buffer_remaining : ℤ
  inferred_loss : ℕ
  dups : ℕ
  reorders : ℕ
  suspect : Bool
  suspect_flags : UInt32
deriving DecidableEq, Repr

/-- The rows of the CSV file. -/
inductive CsvRow where
  | rdp (t_ms : UInt32) (src dst dport : UInt16) (csp_flags rdp_flags : UInt8)
      (rdp_seq rdp_ack : UInt16) (rtt_paired : Bool) (rtt_ms : UInt32)
  | dtp (t_ms : UInt32) (src dst dport : UInt16) (csp_flags : UInt8) (dtp_offset dtp_frag : UInt32)
  | window (row : WindowRow)
deriving DecidableEq, Repr

/-- Where the drainer stands: before each of its reads of the two counters, at the loop
    head, in `csp_promisc_read`, or before it writes the window row. What it has read
    for the window so far stands with it. -/
inductive DrainerAt where
  | sample_conn_ovf
  | sample_buffer_out
  | loop_head
  | promisc_read
  | delta_conn_ovf (now : UInt32)
  | delta_buffer_out (now : UInt32) (conn_ovf_delta : UInt8)
  | write_window (now : UInt32) (conn_ovf_delta buffer_out_delta : UInt8)
  | rearm_conn_ovf (now : UInt32)
  | rearm_buffer_out (now : UInt32)
  | returned
deriving DecidableEq, Repr

/-- libcsp's two counters, the monitor's state and the drainer's locals. -/
structure Monitor where
  csp_dbg_conn_ovf : UInt8
  csp_dbg_buffer_out : UInt8
  mon_running : Bool
  mon_csv : List CsvRow
  mon_seq : CiSeqTracker
  mon_rtt : CiRttPairing
  mon_loss_suspect_windows : ℕ
  prev_ovf : UInt8
  prev_bout : UInt8
  window_start : UInt32
  drainer : DrainerAt

/-- What the drainer's calls into libcsp return in one step: the clock, twice, the
    packet read, if one came in time, and the free buffers. -/
structure Answers where
  t : UInt32
  now : UInt32
  packet : Option CspPacket
  csp_buffer_remaining : ℤ

inductive Counter where
  | conn_ovf
  | buffer_out
deriving DecidableEq, Repr

/-- The router counts a loss, the operator stops the monitor, or the drainer goes on. -/
inductive Event where
  | loss (c : Counter)
  | stop
  | drain (answers : Answers)

/-- The thread as `csp_monitor start` leaves it. -/
def csp_monitor_start (csp_dbg_conn_ovf csp_dbg_buffer_out : UInt8) : Monitor where
  csp_dbg_conn_ovf
  csp_dbg_buffer_out
  mon_running := true
  mon_csv := []
  mon_seq := ci_seq_tracker_init
  mon_rtt := ci_rtt_init
  mon_loss_suspect_windows := 0
  prev_ovf := 0
  prev_bout := 0
  window_start := 0
  drainer := .sample_conn_ovf

/-- A matched RDP frame: feed the tracker and pair an acknowledgement. -/
def drain_rdp (m : Monitor) (t : UInt32) (pk : CspPacket) : Monitor :=
  match ci_rdp_parse_trailer pk.data with
  | some h =>
    -- only a frame that carries payload can be acknowledged
    let mon_rtt := if pk.data.length > CI_RDP_HEADER_SIZE then ci_rtt_on_data m.mon_rtt h.seq t else m.mon_rtt
    let paired := ci_rtt_on_ack mon_rtt h.ack t
    { m with
      mon_seq := (ci_seq_tracker_feed m.mon_seq h.seq).1
      mon_rtt := paired.1
      mon_csv := m.mon_csv ++ [.rdp t pk.id.src pk.id.dst pk.id.dport pk.id.flags h.flags h.seq h.ack
        paired.2.isSome (paired.2.getD 0)] }
  | none =>
    { m with
      mon_csv := m.mon_csv ++
        [.rdp t pk.id.src pk.id.dst pk.id.dport pk.id.flags 0 0 0 false 0] }

/-- A matched frame on the DTP data port. -/
def drain_dtp (cfg : MonConfig) (m : Monitor) (t : UInt32) (pk : CspPacket) : Monitor :=
  let off := ci_dtp_parse_offset pk.data
  let frag := (off.bind fun off => ci_dtp_fragment_index_ovh off cfg.mon_mtu cfg.mon_dtp_overhead).getD 0
  { m with
    mon_csv := m.mon_csv ++
      [.dtp t pk.id.src pk.id.dst pk.id.dport pk.id.flags (off.getD 0) frag] }

/-- The loop body between the read and the window check. -/
def drain_packet (cfg : MonConfig) (m : Monitor) (t : UInt32) : Option CspPacket → Monitor
  | none => m
  | some pk =>
    if cfg.mon_match_dport < 0 ∨ pk.id.dport = UInt16.ofInt cfg.mon_match_dport then
      if (ci_frame_from_fields pk.id.dport pk.id.flags pk.data).is_rdp then
        drain_rdp m t pk
      else if pk.id.dport = CI_DTP_DATA_PORT then
        drain_dtp cfg m t pk
      else m
    else m

/-- The `#WINDOW` row, suspect also when the loss estimate is rejected. -/
def window_row (cfg : MonConfig) (m : Monitor) (now : UInt32) (conn_ovf_delta buffer_out_delta : UInt8)
    (buffer_remaining : ℤ) : WindowRow :=
  let health := ci_measurement_suspect
    { conn_ovf_delta, buffer_out_delta, buffer_remaining, buffer_low_water := cfg.mon_buffer_low_water }
  let sparse := ci_loss_trustworthy m.mon_seq = 0
  { t_ms := now
    conn_ovf_delta
    buffer_out_delta
    buffer_remaining
    inferred_loss := ci_seq_tracker_loss m.mon_seq
    dups := m.mon_seq.n_dup
    reorders := m.mon_seq.n_reorder
    suspect := health.1 || sparse
    suspect_flags := if sparse then health.2 ||| CI_SUSPECT_SPARSE_SEQ else health.2 }

/-- The drainer from one read of a shared variable to the next. -/
def mon_drainer (cfg : MonConfig) (m : Monitor) (a : Answers) : Monitor :=
  match m.drainer with
  | .sample_conn_ovf => { m with prev_ovf := m.csp_dbg_conn_ovf, drainer := .sample_buffer_out }
  | .sample_buffer_out =>
    { m with prev_bout := m.csp_dbg_buffer_out, window_start := a.now, drainer := .loop_head }
  | .loop_head => { m with drainer := if m.mon_running then .promisc_read else .returned }
  | .promisc_read =>
    { drain_packet cfg m a.t a.packet with
      drainer := if a.now - m.window_start ≥ cfg.mon_window_ms then .delta_conn_ovf a.now else .loop_head }
  | .delta_conn_ovf now =>
    { m with drainer := .delta_buffer_out now (ci_u8_delta m.prev_ovf m.csp_dbg_conn_ovf) }
  | .delta_buffer_out now conn_ovf_delta =>
    { m with drainer := .write_window now conn_ovf_delta (ci_u8_delta m.prev_bout m.csp_dbg_buffer_out) }
  | .write_window now conn_ovf_delta buffer_out_delta =>
    { m with
      mon_csv := m.mon_csv ++
        [.window (window_row cfg m now conn_ovf_delta buffer_out_delta a.csp_buffer_remaining)]
      mon_loss_suspect_windows :=
        if ci_loss_trustworthy m.mon_seq = 0 then m.mon_loss_suspect_windows + 1
        else m.mon_loss_suspect_windows
      drainer := .rearm_conn_ovf now }
  | .rearm_conn_ovf now => { m with prev_ovf := m.csp_dbg_conn_ovf, drainer := .rearm_buffer_out now }
  | .rearm_buffer_out now =>
    { m with prev_bout := m.csp_dbg_buffer_out, window_start := now, drainer := .loop_head }
  | .returned => m

/-- One event. `csp_monitor stop` clears `mon_running` and waits for the drainer to return. -/
def step (cfg : MonConfig) (m : Monitor) : Event → Monitor
  | .loss .conn_ovf => { m with csp_dbg_conn_ovf := m.csp_dbg_conn_ovf + 1 }
  | .loss .buffer_out => { m with csp_dbg_buffer_out := m.csp_dbg_buffer_out + 1 }
  | .stop => { m with mon_running := false }
  | .drain a => mon_drainer cfg m a

/-- The state after any events in any order. -/
def run (cfg : MonConfig) : Monitor → List Event → Monitor := List.foldl (step cfg)

end csp_intercept.csp_monitor_apm
