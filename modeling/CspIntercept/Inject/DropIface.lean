import CspIntercept.Inject.GilbertElliott
import CspIntercept.Rule.Flow

open csp_intercept.ci_rule csp_intercept.ci_dtp csp_intercept.ci_ge

namespace csp_intercept.ci_drop_iface

/-- The CSP identifier of a packet. -/
structure CspId where
  pri : UInt8
  flags : UInt8
  src : UInt16
  dst : UInt16
  dport : UInt16
  sport : UInt16
deriving DecidableEq, Repr

/-- A packet: its identifier and the payload `data[0..length)`. -/
structure CspPacket where
  id : CspId
  data : List UInt8
deriving DecidableEq, Repr

/-- One line of the drop log. -/
structure DropLogRow where
  t_ms : UInt32
  src : UInt16
  dport : UInt16
  csp_flags : UInt8
  is_rdp : Bool
  index : UInt64
  epoch : UInt32
  dropped : Bool
deriving DecidableEq, Repr

/-- The shim's own state. `drop_log` is `none` for a null file, else the rows
    written so far. -/
structure CiDropIface where
  rule : CiDropRule
  tracker : CiFlowTracker
  drop_log : Option (List DropLogRow)
  per_attempt : Bool
  ge : CiGeState
  injected_drops : Nat
  forwarded : Nat
  passthrough : Nat

/-- One transmission through the shim, with what the environment answers: the
    clock and the return code of the downstream interface. -/
structure NexthopCall where
  via : UInt16
  packet : CspPacket
  from_me : Bool
  now : UInt32
  target_rc : Int

/-- What can happen to the packet buffer. -/
inductive IfaceEffect
  | target_nexthop (via : UInt16) (packet : CspPacket) (from_me : Bool)
  | buffer_free (packet : CspPacket)
deriving DecidableEq, Repr

structure NexthopResult where
  effects : List IfaceEffect
  rc : Int
deriving DecidableEq, Repr

def CSP_ERR_NONE : Int := 0

/-- Hand the packet to the downstream interface and pass its return code on. -/
def NexthopCall.delegate (c : NexthopCall) : NexthopResult :=
  { effects := [.target_nexthop c.via c.packet c.from_me], rc := c.target_rc }

/-- Free the packet and report success. -/
def NexthopCall.free (c : NexthopCall) : NexthopResult :=
  { effects := [.buffer_free c.packet], rc := CSP_ERR_NONE }

/-- The parsed view of the packet at nexthop. -/
def NexthopCall.frame (c : NexthopCall) : CiFrame :=
  ci_frame_from_fields c.packet.id.dport c.packet.id.flags c.packet.data

def ci_drop_iface_nexthop (s : CiDropIface) (c : NexthopCall) : CiDropIface × NexthopResult :=
  let f := c.frame
  if !ci_rule_match s.rule f then
    ({ s with passthrough := s.passthrough + 1 }, c.delegate)
  else
    -- the index is computed in both modes; in per-attempt mode it is only logged
    let (tracker, idx) := ci_flow_index s.tracker f c.packet.data
    let (ge, drop) := if s.per_attempt then ci_ge_state_step s.ge else (s.ge, ci_rule_decide s.rule idx)
    let row : DropLogRow :=
      { t_ms := c.now, src := c.packet.id.src, dport := c.packet.id.dport, csp_flags := c.packet.id.flags
        is_rdp := f.is_rdp, index := idx, epoch := tracker.epoch, dropped := drop }
    let s := { s with tracker, ge, drop_log := s.drop_log.map (· ++ [row]) }
    if drop then
      ({ s with injected_drops := s.injected_drops + 1 }, c.free)
    else
      ({ s with forwarded := s.forwarded + 1 }, c.delegate)

/-- A fresh shim: everything zeroed, identity mode, dipp header overhead. -/
def ci_drop_iface_init (rule : CiDropRule) (dtp_mtu : UInt16) (drop_log : Option (List DropLogRow)) :
    CiDropIface :=
  { rule
    tracker := ci_flow_tracker_init dtp_mtu
    drop_log
    per_attempt := false
    ge := { seed := 0, step := 0, t_g2b := 0, t_b2g := 0, bad := false }
    injected_drops := 0
    forwarded := 0
    passthrough := 0 }

/-- Switch to the per-attempt chain, seeded from the rule. -/
def ci_drop_iface_enable_ge (s : CiDropIface) (p_g2b p_b2g : ℚ) : CiDropIface :=
  { s with ge := ci_ge_state_init s.rule.seed p_g2b p_b2g, per_attempt := true }

/-- The frame of the call is in the rule's scope. -/
def inScope (rule : CiDropRule) (c : NexthopCall) : Bool := ci_rule_match rule c.frame

/-- The row an in-scope frame is logged with, given the flow state it meets. -/
def logRow (t : CiFlowTracker) (c : NexthopCall) (drop : Bool) : DropLogRow :=
  let key := ci_flow_index t c.frame c.packet.data
  { t_ms := c.now, src := c.packet.id.src, dport := c.packet.id.dport, csp_flags := c.packet.id.flags
    is_rdp := c.frame.is_rdp, index := key.2, epoch := key.1.epoch, dropped := drop }

/-- The decision of the shim for an in-scope frame, with the chain after it. -/
def decideFrame (s : CiDropIface) (c : NexthopCall) : CiGeState × Bool :=
  if s.per_attempt then ci_ge_state_step s.ge
  else (s.ge, ci_rule_decide s.rule (ci_flow_index s.tracker c.frame c.packet.data).2)

/-- An out-of-scope frame is delegated and only counted. -/
theorem nexthop_of_out_of_scope {s : CiDropIface} {c : NexthopCall} (h : inScope s.rule c = false) :
    ci_drop_iface_nexthop s c = ({ s with passthrough := s.passthrough + 1 }, c.delegate) := by
  unfold inScope at h
  simp [ci_drop_iface_nexthop, h]

/-- An in-scope frame advances the tracker, is logged with its decision, and is
    freed or delegated as decided. -/
theorem nexthop_of_in_scope {s : CiDropIface} {c : NexthopCall} (h : inScope s.rule c = true) :
    ci_drop_iface_nexthop s c =
      ({ s with
          tracker := (ci_flow_index s.tracker c.frame c.packet.data).1
          ge := (decideFrame s c).1
          drop_log := s.drop_log.map (· ++ [logRow s.tracker c (decideFrame s c).2])
          injected_drops := s.injected_drops + if (decideFrame s c).2 then 1 else 0
          forwarded := s.forwarded + if (decideFrame s c).2 then 0 else 1 },
        if (decideFrame s c).2 then c.free else c.delegate) := by
  unfold inScope at h
  cases hdrop : (decideFrame s c).2 <;> cases hmode : s.per_attempt <;>
    simp [decideFrame, hmode] at hdrop <;>
    simp [ci_drop_iface_nexthop, h, hmode, hdrop, decideFrame, logRow]

/-- No step touches the rule or the mode, nor opens or closes the log. -/
theorem nexthop_frame (s : CiDropIface) (c : NexthopCall) :
    (ci_drop_iface_nexthop s c).1.rule = s.rule ∧
      (ci_drop_iface_nexthop s c).1.per_attempt = s.per_attempt ∧
      (ci_drop_iface_nexthop s c).1.drop_log.isSome = s.drop_log.isSome := by
  cases hscope : inScope s.rule c with
  | false => simp [nexthop_of_out_of_scope hscope]
  | true => simp [nexthop_of_in_scope hscope]

end csp_intercept.ci_drop_iface
