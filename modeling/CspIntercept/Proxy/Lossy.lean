import CspIntercept.Inject.DropIface

open csp_intercept.ci_rdp csp_intercept.ci_dtp csp_intercept.ci_rule
open csp_intercept.ci_drop_iface (CspId CspPacket DropLogRow)

namespace csp_intercept.zmqproxy

/-- `sizeof(packet->data)` in this build. -/
def CSP_BUFFER_SIZE : Nat := 2048

/-- The one packet the proxy parses every frame into. `mem` is its memory from
    `frame_begin` on, so `data` starts a header's length into it. -/
structure ProxyPacket where
  id : CspId
  length : Nat
  frame_length : Nat
  mem : List UInt8
deriving DecidableEq, Repr

/-- The proxy's globals. -/
structure Proxy where
  g_rule : CiDropRule
  g_last_seq : UInt16
  g_have_last_seq : Bool
  g_epoch : UInt32
  g_dtp_mtu : UInt16
  g_dtp_overhead : UInt16
  g_drop_log : Option (List DropLogRow)
  g_drops : Nat
  g_kept : Nat
  g_malformed_frames : Nat
  packet : ProxyPacket

/-- One frontend message, with the clock and the outcome the `rand()` comparison
    would have; the latter is only looked at when no dport is matched. -/
structure ProxyEvent where
  msg : List UInt8
  now : UInt32
  legacy_drop : Bool

/-- What becomes of the message. -/
inductive ProxyOutcome
  | malformed
  | dropped
  | sent (msg : List UInt8)
deriving DecidableEq, Repr

def proxy_flow_index (p : Proxy) (data : List UInt8) (f : CiFrame) : Proxy × UInt64 :=
  if f.is_rdp then
    match ci_rdp_parse_trailer data with
    | some h =>
      let g_epoch :=
        if p.g_have_last_seq && ci_rdp_seq_is_wrap p.g_last_seq h.seq then p.g_epoch + 1 else p.g_epoch
      ({ p with g_epoch, g_last_seq := h.seq, g_have_last_seq := true }, ci_flow_index_rdp g_epoch h.seq)
    | none => (p, 0)
  else
    match ci_dtp_parse_offset data with
    | some off => (p, ((ci_dtp_fragment_index_ovh off p.g_dtp_mtu p.g_dtp_overhead).getD 0).toUInt64)
    | none => (p, 0)

section Frames

-- `version` is `csp_conf.version`; `csp_id_strip` is libcsp's, and `none` stands for
-- its non-zero return, which leaves the packet as it is
variable (version : Int) (csp_id_strip : ProxyPacket → Option ProxyPacket)

/-- Bytes of the CSP header in front of the payload. -/
def header_size : Nat := if version = 2 then 6 else 4

/-- The size of a message as the `int` the proxy keeps it in. -/
def datalen (msg : List UInt8) : Int := Int.bmod msg.length 4294967296

def proxy_frame_fits (n : Int) : Bool := 0 ≤ n ∧ n ≤ CSP_BUFFER_SIZE + header_size version

/-- `csp_id_setup_rx`, the copy to `frame_begin` and the new frame length. -/
def ProxyPacket.receive (buf : ProxyPacket) (msg : List UInt8) : ProxyPacket :=
  let n := (datalen msg).toNat
  { buf with mem := msg.take n ++ buf.mem.drop n, frame_length := n }

/-- The payload view `data[0..length)`. -/
def ProxyPacket.data (buf : ProxyPacket) : List UInt8 := (buf.mem.drop (header_size version)).take buf.length

/-- One frontend message through the loop, with corruption, delay and half duplex
    off. The result of `csp_id_strip` is not looked at. -/
def zmq_proxy_lossy_step (p : Proxy) (e : ProxyEvent) : Proxy × ProxyOutcome :=
  if 0 ≤ p.g_rule.match_dport then
    if !proxy_frame_fits version (datalen e.msg) then
      ({ p with g_malformed_frames := p.g_malformed_frames + 1 }, .malformed)
    else
      let received := p.packet.receive e.msg
      let packet := (csp_id_strip received).getD received
      let p := { p with packet }
      let data := packet.data version
      let f := ci_frame_from_fields packet.id.dport packet.id.flags data
      if ci_rule_match p.g_rule f then
        let (p, idx) := proxy_flow_index p data f
        let drop := ci_rule_decide p.g_rule idx
        let row : DropLogRow :=
          { t_ms := e.now, src := packet.id.src, dport := packet.id.dport, csp_flags := packet.id.flags
            is_rdp := f.is_rdp, index := idx, epoch := p.g_epoch, dropped := drop }
        let p := { p with g_drop_log := p.g_drop_log.map (· ++ [row]) }
        if drop then ({ p with g_drops := p.g_drops + 1 }, .dropped)
        else ({ p with g_kept := p.g_kept + 1 }, .sent e.msg)
      else
        ({ p with g_kept := p.g_kept + 1 }, .sent e.msg)
  else if e.legacy_drop then
    ({ p with g_drops := p.g_drops + 1 }, .dropped)
  else
    ({ p with g_kept := p.g_kept + 1 }, .sent e.msg)

def proxyRun (p : Proxy) (events : List ProxyEvent) : Proxy × List ProxyOutcome :=
  Transducer.run (zmq_proxy_lossy_step version csp_id_strip) p events

end Frames

/-- The globals once the command line is taken over, before the first frame. The
    packet memory is whatever `malloc` returned. -/
def zmq_proxy_lossy_start (rule : CiDropRule) (mtu overhead : UInt16) (packet : ProxyPacket) : Proxy :=
  { g_rule := rule
    g_last_seq := 0
    g_have_last_seq := false
    g_epoch := 0
    g_dtp_mtu := mtu
    g_dtp_overhead := overhead
    g_drop_log := some []
    g_drops := 0
    g_kept := 0
    g_malformed_frames := 0
    packet }

/-- The proxy's flow globals as a flow tracker. -/
def Proxy.tracker (p : Proxy) : CiFlowTracker :=
  { last_seq := p.g_last_seq, have_last_seq := p.g_have_last_seq, epoch := p.g_epoch
    dtp_mtu := p.g_dtp_mtu, dtp_overhead := p.g_dtp_overhead }

/-- Put a tracker's flow state back into the globals. -/
def Proxy.withTracker (p : Proxy) (t : CiFlowTracker) : Proxy :=
  { p with g_last_seq := t.last_seq, g_have_last_seq := t.have_last_seq, g_epoch := t.epoch
           g_dtp_mtu := t.dtp_mtu, g_dtp_overhead := t.dtp_overhead }

/-- The duplicated index function is the shared one on the proxy's globals. -/
theorem proxy_flow_index_eq (p : Proxy) (data : List UInt8) (f : CiFrame) :
    proxy_flow_index p data f =
      (p.withTracker (ci_flow_index p.tracker f data).1, (ci_flow_index p.tracker f data).2) := by
  cases hrdp : f.is_rdp with
  | true =>
    cases hparse : ci_rdp_parse_trailer data <;>
      simp [proxy_flow_index, ci_flow_index, hrdp, hparse, Proxy.tracker, Proxy.withTracker]
  | false =>
    cases hparse : ci_dtp_parse_offset data <;>
      simp [proxy_flow_index, ci_flow_index, hrdp, hparse, Proxy.tracker, Proxy.withTracker]

end csp_intercept.zmqproxy
