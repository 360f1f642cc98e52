import CspIntercept.Inject.Accounting
import CspIntercept.Proxy.Lossy

open csp_intercept.ci_rule csp_intercept.ci_drop_iface

namespace csp_intercept.zmqproxy

/-- A log row without its clock column. -/
def untimed (row : DropLogRow) : DropLogRow := { row with t_ms := 0 }

/-- The shim as the bridge sets it up: identity mode, log open, and the header
    overhead of the session in its tracker. -/
def ci_inject_bridge_shim (rule : CiDropRule) (mtu overhead : UInt16) : CiDropIface :=
  { ci_drop_iface_init rule mtu (some []) with tracker := ci_flow_tracker_init_ovh mtu overhead }

section Frames

variable (version : Int) (csp_id_strip : ProxyPacket → Option ProxyPacket)

/-- The wire message fits, and parsing it yields the packet the shim sees at its
    nexthop, whatever the parse buffer held before. -/
structure SameFrame (c : NexthopCall) (e : ProxyEvent) : Prop where
  fits : e.msg.length ≤ CSP_BUFFER_SIZE + header_size version
  strip : ∀ buf : ProxyPacket, ∃ parsed, csp_id_strip (buf.receive e.msg) = some parsed ∧
    parsed.id = c.packet.id ∧ parsed.data version = c.packet.data

/-- Both injectors forward the frame, or both drop it. -/
def SameFate (call : NexthopCall × NexthopResult) (event : ProxyEvent × ProxyOutcome) : Prop :=
  (call.2 = call.1.delegate ∧ event.2 = .sent event.1.msg) ∨
    (call.2 = call.1.free ∧ event.2 = .dropped)

/-- Same rule, same flow state, and logs that differ in the clock column only. -/
structure Agree (s : CiDropIface) (p : Proxy) : Prop where
  rule : p.g_rule = s.rule
  deterministic : 0 ≤ s.rule.match_dport
  identity : s.per_attempt = false
  tracker : p.tracker = s.tracker
  log : s.drop_log.map (·.map untimed) = p.g_drop_log.map (·.map untimed)

theorem proxy_frame_fits_of_le {msg : List UInt8} 
    (hfits : msg.length ≤ CSP_BUFFER_SIZE + header_size version) :
    proxy_frame_fits version (datalen msg) = true := by
  have hlen : datalen msg = msg.length := by
    have hsize : header_size version ≤ 6 := by
      unfold header_size
      split <;> omega
    apply Int.bmod_eq_of_le_mul_two <;> simp only [CSP_BUFFER_SIZE] at hfits <;> omega
  simp only [proxy_frame_fits, hlen, decide_eq_true_eq]
  omega

section Step

variable {version csp_id_strip} {c : NexthopCall} {e : ProxyEvent} {p : Proxy}

/-- A parsed frame out of scope is sent on and leaves the flow state alone. -/
theorem step_of_out_of_scope 
    (hframe : SameFrame version csp_id_strip c e) (hdport : 0 ≤ p.g_rule.match_dport)
    (hscope : inScope p.g_rule c = false) :
    ∃ packet, zmq_proxy_lossy_step version csp_id_strip p e =
      ({ p with packet, g_kept := p.g_kept + 1 }, .sent e.msg) := by
  obtain ⟨parsed, hstrip, hid, hdata⟩ := hframe.strip p.packet
  have hfits := proxy_frame_fits_of_le version hframe.fits
  refine ⟨parsed, ?_⟩
  unfold inScope NexthopCall.frame at hscope
  simp [zmq_proxy_lossy_step, hdport, hfits, hstrip, hid, hdata, hscope]

/-- A parsed frame in scope advances the flow globals as the shared tracker does, is
    logged under the key of that tracker, and is dropped or sent as its key decides. -/
theorem step_of_in_scope 
    (hframe : SameFrame version csp_id_strip c e) (hdport : 0 ≤ p.g_rule.match_dport)
    (hscope : inScope p.g_rule c = true) {key : CiFlowTracker × UInt64}
    (hkey : ci_flow_index p.tracker c.frame c.packet.data = key) :
    ∃ packet, zmq_proxy_lossy_step version csp_id_strip p e =
      ({ (p.withTracker key.1) with
          packet
          g_drop_log := p.g_drop_log.map
            (· ++ [{ logRow p.tracker c (ci_rule_decide p.g_rule key.2) with t_ms := e.now }])
          g_drops := p.g_drops + if ci_rule_decide p.g_rule key.2 then 1 else 0
          g_kept := p.g_kept + if ci_rule_decide p.g_rule key.2 then 0 else 1 },
        if ci_rule_decide p.g_rule key.2 then .dropped else .sent e.msg) := by
  obtain ⟨parsed, hstrip, hid, hdata⟩ := hframe.strip p.packet
  have hfits := proxy_frame_fits_of_le version hframe.fits
  refine ⟨parsed, ?_⟩
  subst hkey
  unfold inScope NexthopCall.frame at hscope
  simp only [zmq_proxy_lossy_step, hdport, if_true, hfits, Bool.not_true, Bool.false_eq_true, if_false,
    hstrip, Option.getD_some, hid, hdata, hscope, proxy_flow_index_eq]
  have htracker : Proxy.tracker { p with packet := parsed } = p.tracker := rfl
  simp only [htracker, Proxy.withTracker, logRow, NexthopCall.frame]
  by_cases hdrop : ci_rule_decide p.g_rule (ci_flow_index p.tracker (ci_frame_from_fields
      c.packet.id.dport c.packet.id.flags c.packet.data) c.packet.data).2 = true <;>
    simp [hdrop]

end Step

/-- Every kind of frame keeps the agreement of shim and proxy and meets the same fate on both
    sides. -/
theorem agree_step {s : CiDropIface} {p : Proxy} {c : NexthopCall} {e : ProxyEvent} (hagree : Agree s p)
    (hframe : SameFrame version csp_id_strip c e) :
    Agree (ci_drop_iface_nexthop s c).1 (zmq_proxy_lossy_step version csp_id_strip p e).1 ∧
      SameFate (c, (ci_drop_iface_nexthop s c).2) (e, (zmq_proxy_lossy_step version csp_id_strip p e).2) := by
  have hdport : 0 ≤ p.g_rule.match_dport := hagree.rule ▸ hagree.deterministic
  cases hscope : inScope s.rule c with
  | false =>
    obtain ⟨packet, hstep⟩ := step_of_out_of_scope hframe hdport (hagree.rule ▸ hscope)
    rw [hstep, nexthop_of_out_of_scope hscope]
    exact ⟨⟨hagree.rule, hagree.deterministic, hagree.identity, hagree.tracker, hagree.log⟩, .inl ⟨rfl, rfl⟩⟩
  | true =>
    obtain ⟨packet, hstep⟩ := step_of_in_scope hframe hdport (hagree.rule ▸ hscope) rfl
    rw [hstep, nexthop_of_in_scope hscope]
    refine ⟨⟨hagree.rule, hagree.deterministic, hagree.identity, ?_, ?_⟩, ?_⟩
    · simp [Proxy.tracker, Proxy.withTracker, ← hagree.tracker]
    · have hlog := hagree.log
      simp only [decideFrame, hagree.identity, Bool.false_eq_true, if_false, hagree.tracker, hagree.rule]
      cases hs : s.drop_log <;> cases hp : p.g_drop_log <;>
        simp_all [untimed, logRow]
    · simp only [decideFrame, hagree.identity, Bool.false_eq_true, if_false, hagree.tracker, hagree.rule]
      cases hdrop : ci_rule_decide s.rule (ci_flow_index s.tracker c.frame c.packet.data).2 with
      | false => exact .inl ⟨rfl, rfl⟩
      | true => exact .inr ⟨rfl, rfl⟩

/-- The agreement of shim and proxy is a simulation. -/
theorem agree_simulation :
    Transducer.Simulation ci_drop_iface_nexthop (zmq_proxy_lossy_step version csp_id_strip)
      (SameFrame version csp_id_strip) SameFate Agree :=
  ⟨fun hagree hframe => (agree_step version csp_id_strip hagree hframe).1,
    fun hagree hframe => (agree_step version csp_id_strip hagree hframe).2⟩

/-- The proxy and the in-path shim are interchangeable: from fresh state, on every
    sequence of frames they forward and drop the same frames and log the same rows
    apart from the clock. Every sequence includes every prefix of a longer one. -/
theorem proxy_shim_interchangeable (rule : CiDropRule)
    (hdport : 0 ≤ rule.match_dport) (mtu overhead : UInt16) (packet : ProxyPacket)
    {calls : List NexthopCall} {events : List ProxyEvent}
    (hframes : List.Forall₂ (SameFrame version csp_id_strip) calls events) :
    List.Forall₂ SameFate
        (calls.zip (shimRun (ci_inject_bridge_shim rule mtu overhead) calls).2)
        (events.zip (proxyRun version csp_id_strip
          (zmq_proxy_lossy_start rule mtu overhead packet) events).2) ∧
      (shimRun (ci_inject_bridge_shim rule mtu overhead) calls).1.drop_log.map (·.map untimed) =
        (proxyRun version csp_id_strip
          (zmq_proxy_lossy_start rule mtu overhead packet) events).1.g_drop_log.map (·.map untimed) := by
  have hagree : Agree (ci_inject_bridge_shim rule mtu overhead)
      (zmq_proxy_lossy_start rule mtu overhead packet) := ⟨rfl, hdport, rfl, rfl, rfl⟩
  obtain ⟨hafter, hfates⟩ := (agree_simulation version csp_id_strip).run hagree hframes
  exact ⟨hfates, hafter.log⟩

end Frames

/-- The wire frame of `droppedCall`: six header bytes, then the payload. -/
def droppedEvent : ProxyEvent :=
  { msg := [0x80, 0x14, 0x00, 0x28, 0xDA, 0x02, 0x04, 0, 7, 0, 0], now := 5, legacy_drop := false }

/-- Header parsing as it comes out for `droppedEvent`. -/
def stripDropped (buf : ProxyPacket) : Option ProxyPacket :=
  if buf.frame_length < 6 then none
  else some { buf with id := droppedCall.packet.id, length := buf.frame_length - 6 }

theorem droppedEvent_sameFrame : SameFrame 2 stripDropped droppedCall droppedEvent :=
  ⟨by decide, fun _ => ⟨_, rfl, rfl, rfl⟩⟩

/-- The identifier in a header of version 2, most significant bit first. -/
def header_id (header : List UInt8) : CspId :=
  let bits := header.foldl (fun n byte => n * 256 + byte.toNat) 0
  { pri := .ofNat (bits / 2 ^ 46), dst := .ofNat (bits / 2 ^ 32 % 2 ^ 14), src := .ofNat (bits / 2 ^ 18 % 2 ^ 14)
    dport := .ofNat (bits / 2 ^ 12 % 2 ^ 6), sport := .ofNat (bits / 2 ^ 6 % 2 ^ 6), flags := .ofNat (bits % 2 ^ 6) }

/-- Header parsing of version 2. -/
def strip_header (buf : ProxyPacket) : Option ProxyPacket :=
  if buf.frame_length < 6 then none
  else some { buf with id := header_id (buf.mem.take 6), length := buf.frame_length - 6 }

/-- A frame with a header is parsed alike whatever the buffer held. -/
theorem strip_header_receive {msg : List UInt8} (hheader : 6 ≤ msg.length) (hfits : msg.length ≤ CSP_BUFFER_SIZE + 6)
    (buf : ProxyPacket) : ∃ parsed, strip_header (buf.receive msg) = some parsed ∧
      parsed.id = header_id (msg.take 6) ∧ parsed.data 2 = msg.drop 6 := by
  have hlen : (datalen msg).toNat = msg.length := by
    have hbmod : datalen msg = msg.length := by
      simp only [CSP_BUFFER_SIZE] at hfits
      apply Int.bmod_eq_of_le_mul_two <;> omega
    rw [hbmod, Int.toNat_natCast]
  refine ⟨_, if_neg ?_, ?_, ?_⟩
  · simp only [ProxyPacket.receive, hlen, not_lt]
    exact hheader
  · simp only [ProxyPacket.receive, hlen, List.take_length, List.take_append_of_le_length hheader]
  · simp only [ProxyPacket.data, ProxyPacket.receive, header_size, hlen, List.take_length, if_true,
      List.drop_append_of_le_length hheader]
    rw [← List.length_drop, List.take_left]

/-- A frame from node 10 to node 20 at the shim. -/
def nodeCall (flags dport : UInt8) (data : List UInt8) : NexthopCall :=
  { droppedCall with packet := { id := { droppedCall.packet.id with flags, dport := dport.toUInt16 }, data } }

/-- The same frame on the wire. -/
def nodeEvent (flags dport : UInt8) (data : List UInt8) : ProxyEvent :=
  { msg := 0x80 :: 0x14 :: 0 :: ((0x28 : UInt8) ||| dport >>> 4) :: (dport <<< 4 ||| (0x0A : UInt8)) :: flags :: data
    now := 5
    legacy_drop := false }

/-- RDP frames over the wrap of the sequence number, one cut short behind its first byte, a fragment
    at offset 196, and a frame to another port. -/
def mixed : List (UInt8 × UInt8 × List UInt8) :=
  [(2, 8, [4, 0xFF, 0xFF, 0, 0]), (2, 8, [4, 0, 1, 0, 0]), (2, 8, [4]), (0, 8, [196, 0, 0, 0, 7]),
    (2, 20, [4, 0, 2, 0, 0])]

def mixedCalls : List NexthopCall := mixed.map fun f => nodeCall f.1 f.2.1 f.2.2

def mixedEvents : List ProxyEvent := mixed.map fun f => nodeEvent f.1 f.2.1 f.2.2

/-- The port of the fragments, half of the frames dropped. -/
def mixedRule : CiDropRule := { dropAllRule with match_dport := 8, drop_probability := 1 / 2 }

theorem mixed_sameFrame : List.Forall₂ (SameFrame 2 strip_header) mixedCalls mixedEvents := by
  have hnode : ∀ f ∈ mixed, f.2.2.length ≤ CSP_BUFFER_SIZE ∧ (nodeCall f.1 f.2.1 f.2.2).packet.id =
      header_id ((nodeEvent f.1 f.2.1 f.2.2).msg.take 6) := by
    decide +kernel
  rw [mixedCalls, mixedEvents, List.forall₂_map_left_iff, List.forall₂_map_right_iff, List.forall₂_same]
  intro f hf
  obtain ⟨hshort, hid⟩ := hnode f hf
  have hfits : (nodeEvent f.1 f.2.1 f.2.2).msg.length ≤ CSP_BUFFER_SIZE + 6 := Nat.add_le_add_right hshort 6
  refine ⟨hfits, fun buf => ?_⟩
  obtain ⟨parsed, hstrip, hparsed, hdata⟩ := strip_header_receive (Nat.le_add_left 6 _) hfits buf
  exact ⟨parsed, hstrip, hparsed.trans hid.symm, hdata⟩

theorem proxy_shim_interchangeable_mixed :
    List.Forall₂ SameFate
        (mixedCalls.zip (shimRun (ci_inject_bridge_shim mixedRule 200 4) mixedCalls).2)
        (mixedEvents.zip (proxyRun 2 strip_header
          (zmq_proxy_lossy_start mixedRule 200 4 ⟨droppedCall.packet.id, 0, 0, []⟩) mixedEvents).2) ∧
      (shimRun (ci_inject_bridge_shim mixedRule 200 4) mixedCalls).1.drop_log.map (·.map untimed) =
        (proxyRun 2 strip_header (zmq_proxy_lossy_start mixedRule 200 4 ⟨droppedCall.packet.id, 0, 0, []⟩)
          mixedEvents).1.g_drop_log.map (·.map untimed) :=
  proxy_shim_interchangeable 2 strip_header mixedRule (by decide) 200 4 _ mixed_sameFrame

end csp_intercept.zmqproxy
