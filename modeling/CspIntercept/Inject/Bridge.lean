import CspIntercept.Inject.Accounting

open csp_intercept.ci_drop_iface

namespace csp_intercept.ci_inject_bridge

/-- The parts of libcsp that the pump calls. `csp_send_direct_iface` ends in the nexthop
    of the interface it is given, unless the library refuses the packet (`none`); it keeps
    the identifier. -/
structure Libcsp where
  CSP_NO_VIA_ADDRESS : UInt16
  csp_send_direct_iface : CspId → CspPacket → Option CspPacket
  keeps_id : ∀ {id packet sent}, csp_send_direct_iface id packet = some sent → sent.id = id

/-- The two interfaces the bridge receives on. -/
inductive RxIface
  | in_iface
  | out_raw
deriving DecidableEq, Repr

/-- The two interfaces the bridge sends to: the shim wraps `out_raw`. -/
inductive TxIface
  | in_iface
  | shim
deriving DecidableEq, Repr

/-- What `csp_qfifo_read` hands the pump, with what the environment answers on the way:
    the verdict of `csp_dedup_is_duplicate`, and the clock and return code of the shim. -/
structure QfifoInput where
  iface : RxIface
  packet : CspPacket
  duplicate : Bool
  now : UInt32
  target_rc : Int
deriving DecidableEq, Repr

/-- What the pump does with a packet. -/
inductive PumpEffect
  | buffer_free (packet : CspPacket)
  | send_direct_iface (iface : TxIface) (packet : CspPacket)
deriving DecidableEq, Repr

/-- The bridge, and what it has published on either medium so far. -/
structure Bridge where
  shim : CiDropIface
  g_echo_in : Nat
  g_echo_out : Nat
  sent_in : List CspPacket
  sent_out : List CspPacket

/-- The shim's nexthop, as `csp_send_direct_iface` calls it for a bridged frame. -/
def QfifoInput.nexthop_call (csp : Libcsp) (input : QfifoInput) (sent : CspPacket) : NexthopCall :=
  { via := csp.CSP_NO_VIA_ADDRESS, packet := sent, from_me := false, now := input.now
    target_rc := input.target_rc }

/-- The packet a transmission puts on the medium behind the shim. -/
def published : IfaceEffect → Option CspPacket
  | .target_nexthop _ packet _ => some packet
  | .buffer_free _ => none

/-- Send to the shim, which drops the packet or passes it on to `out_raw`. -/
def Bridge.send_shim (csp : Libcsp) (b : Bridge) (input : QfifoInput) : Bridge :=
  match csp.csp_send_direct_iface input.packet.id input.packet with
  | none => b
  | some sent =>
    let (shim, result) := ci_drop_iface_nexthop b.shim (input.nexthop_call csp sent)
    { b with shim, sent_out := b.sent_out ++ result.effects.filterMap published }

/-- Send to the ingress interface. -/
def Bridge.send_in_iface (csp : Libcsp) (b : Bridge) (input : QfifoInput) : Bridge :=
  match csp.csp_send_direct_iface input.packet.id input.packet with
  | none => b
  | some sent => { b with sent_in := b.sent_in ++ [sent] }

/-- One turn of the split-horizon pump; `none` is a read that timed out or had no packet. -/
def pump (csp : Libcsp) (src_addr : UInt16) (b : Bridge) : Option QfifoInput → Bridge × List PumpEffect
  | none => (b, [])
  | some input =>
    if input.duplicate then
      (b, [.buffer_free input.packet])
    else if input.iface = .in_iface then
      if input.packet.id.src ≠ src_addr then
        ({ b with g_echo_in := b.g_echo_in + 1 }, [.buffer_free input.packet])
      else
        (b.send_shim csp input, [.send_direct_iface .shim input.packet])
    else if input.packet.id.src = src_addr then
      ({ b with g_echo_out := b.g_echo_out + 1 }, [.buffer_free input.packet])
    else
      (b.send_in_iface csp input, [.send_direct_iface .in_iface input.packet])

/-- The bridge when the pump starts. -/
def bridge_init (shim : CiDropIface) : Bridge :=
  { shim, g_echo_in := 0, g_echo_out := 0, sent_in := [], sent_out := [] }

/-- One event of the media: nothing, a frame originated by another node, or an echo. -/
inductive MediumEvent
  | quiet
  | external (input : QfifoInput)
  | echo (input : QfifoInput)
deriving DecidableEq, Repr

/-- The pump cannot tell an echo from an external frame. -/
def MediumEvent.input : MediumEvent → Option QfifoInput
  | .quiet => none
  | .external input => some input
  | .echo input => some input

def MediumEvent.isExternal : MediumEvent → Bool
  | .external _ => true
  | _ => false

def PumpEffect.isForward : PumpEffect → Bool
  | .send_direct_iface _ _ => true
  | .buffer_free _ => false

/-- What the bridge has published on the medium of an interface. -/
def Bridge.sent (b : Bridge) : RxIface → List CspPacket
  | .in_iface => b.sent_in
  | .out_raw => b.sent_out

/-- What the media may deliver. The node `src_addr` is attached to the ingress side only.
    An echo has the identifier of a frame the bridge has published there, however often it
    was echoed before; its bytes may differ, as transports represent a frame differently. -/
def Delivers (src_addr : UInt16) (b : Bridge) : MediumEvent → Prop
  | .quiet => True
  | .external input => input.iface = .out_raw → input.packet.id.src ≠ src_addr
  | .echo input => ∃ sent ∈ b.sent input.iface, input.packet.id = sent.id

instance (src_addr : UInt16) (b : Bridge) : (event : MediumEvent) → Decidable (Delivers src_addr b event)
  | .quiet => inferInstanceAs (Decidable True)
  | .external input =>
    inferInstanceAs (Decidable (input.iface = .out_raw → input.packet.id.src ≠ src_addr))
  | .echo input => inferInstanceAs (Decidable (∃ sent ∈ b.sent input.iface, input.packet.id = sent.id))

/-- The pump fed by the media. -/
def turn (csp : Libcsp) (src_addr : UInt16) (b : Bridge) (event : MediumEvent) : Bridge × List PumpEffect :=
  pump csp src_addr b event.input

/-- The bridge publishes the source's frames behind the shim and all others on the ingress. -/
structure Split (src_addr : UInt16) (b : Bridge) : Prop where
  sent_in : ∀ packet ∈ b.sent_in, packet.id.src ≠ src_addr
  sent_out : ∀ packet ∈ b.sent_out, packet.id.src = src_addr

theorem split_init (src_addr : UInt16) (shim : CiDropIface) : Split src_addr (bridge_init shim) :=
  ⟨by simp [bridge_init], by simp [bridge_init]⟩

/-- The shim publishes nothing but the packet it was called with. -/
theorem nexthop_published (s : CiDropIface) (c : NexthopCall) :
    ∀ packet ∈ (ci_drop_iface_nexthop s c).2.effects.filterMap published, packet = c.packet := by
  intro packet hpacket
  rcases nexthop_disposedOnce s c with h | h
  · rw [h] at hpacket
    simpa [NexthopCall.delegate, published] using hpacket
  · rw [h] at hpacket
    simp [NexthopCall.free, published] at hpacket

section Pump

variable {csp : Libcsp} {src_addr : UInt16} {b : Bridge} {input : QfifoInput}

theorem pump_duplicate (h : input.duplicate = true) :
    pump csp src_addr b (some input) = (b, [.buffer_free input.packet]) := by
  simp [pump, h]

theorem pump_uplink (hfresh : input.duplicate = false) (hiface : input.iface = .in_iface)
    (hsrc : input.packet.id.src = src_addr) :
    pump csp src_addr b (some input) =
      (b.send_shim csp input, [.send_direct_iface .shim input.packet]) := by
  simp [pump, hfresh, hiface, hsrc]

theorem pump_downlink (hfresh : input.duplicate = false) (hiface : input.iface = .out_raw)
    (hsrc : input.packet.id.src ≠ src_addr) :
    pump csp src_addr b (some input) =
      (b.send_in_iface csp input, [.send_direct_iface .in_iface input.packet]) := by
  simp [pump, hfresh, hiface, hsrc]

/-- A frame from the wrong side is freed and only counted. -/
theorem pump_wrong_side (csp : Libcsp) (b : Bridge)
    (hside : input.iface = .in_iface ↔ input.packet.id.src ≠ src_addr) :
    (pump csp src_addr b (some input)).2 = [.buffer_free input.packet] ∧
      (pump csp src_addr b (some input)).1.sent_in = b.sent_in ∧
      (pump csp src_addr b (some input)).1.sent_out = b.sent_out := by
  cases hfresh : input.duplicate with
  | true => simp [pump_duplicate hfresh]
  | false =>
    cases hiface : input.iface with
    | in_iface => simp [pump, hfresh, hiface, hside.1 hiface]
    | out_raw =>
      have hsrc : input.packet.id.src = src_addr := by
        by_contra hne
        have hin := hside.2 hne
        simp [hiface] at hin
      simp [pump, hfresh, hiface, hsrc]

theorem Split.send_shim (h : Split src_addr b) (hsrc : input.packet.id.src = src_addr) :
    Split src_addr (b.send_shim csp input) := by
  unfold Bridge.send_shim
  cases hsend : csp.csp_send_direct_iface input.packet.id input.packet with
  | none => exact h
  | some sent =>
    refine ⟨h.sent_in, fun packet hpacket => ?_⟩
    rcases List.mem_append.1 hpacket with hold | hnew
    · exact h.sent_out packet hold
    · have heq : packet = sent := nexthop_published b.shim (input.nexthop_call csp sent) packet hnew
      rw [heq, csp.keeps_id hsend, hsrc]

theorem Split.send_in_iface (h : Split src_addr b) (hsrc : input.packet.id.src ≠ src_addr) :
    Split src_addr (b.send_in_iface csp input) := by
  unfold Bridge.send_in_iface
  cases hsend : csp.csp_send_direct_iface input.packet.id input.packet with
  | none => exact h
  | some sent =>
    refine ⟨fun packet hpacket => ?_, h.sent_out⟩
    rcases List.mem_append.1 hpacket with hold | hnew
    · exact h.sent_in packet hold
    · rw [List.mem_singleton.1 hnew, csp.keeps_id hsend]
      exact hsrc

/-- Whatever the pump reads, it keeps the two directions apart. -/
theorem Split.pump (h : Split src_addr b) (read : Option QfifoInput) :
    Split src_addr (pump csp src_addr b read).1 := by
  cases read with
  | none => exact h
  | some input =>
    cases hfresh : input.duplicate with
    | true =>
      rw [pump_duplicate hfresh]
      exact h
    | false =>
      by_cases hside : input.iface = .in_iface ↔ input.packet.id.src ≠ src_addr
      · obtain ⟨-, hin, hout⟩ := pump_wrong_side csp b hside
        refine ⟨?_, ?_⟩
        · rw [hin]
          exact h.sent_in
        · rw [hout]
          exact h.sent_out
      cases hiface : input.iface with
      | in_iface =>
        have hsrc : input.packet.id.src = src_addr := by simpa [hiface] using hside
        rw [pump_uplink hfresh hiface hsrc]
        exact h.send_shim hsrc
      | out_raw =>
        have hsrc : input.packet.id.src ≠ src_addr := by simpa [hiface] using hside
        rw [pump_downlink hfresh hiface hsrc]
        exact h.send_in_iface hsrc

/-- An echo always comes from the wrong side. -/
theorem Split.echo_wrong_side (h : Split src_addr b) (hecho : Delivers src_addr b (.echo input)) :
    input.iface = .in_iface ↔ input.packet.id.src ≠ src_addr := by
  obtain ⟨sent, hsent, hid⟩ := hecho
  cases hiface : input.iface with
  | in_iface =>
    rw [hiface] at hsent
    simpa [hid] using h.sent_in sent hsent
  | out_raw =>
    rw [hiface] at hsent
    simpa [hid] using h.sent_out sent hsent

end Pump

/-- What the bridge makes of one event. -/
structure SplitHorizon (src_addr : UInt16) (event : MediumEvent) (effects : List PumpEffect) : Prop where
  echo : ∀ input, event = .echo input → effects = [.buffer_free input.packet]
  forwards : effects.countP (·.isForward) ≤ if event.isExternal then 1 else 0
  uplink : ∀ input, event.input = some input → input.iface = .in_iface → input.duplicate = false →
    input.packet.id.src = src_addr → effects = [.send_direct_iface .shim input.packet]
  downlink : ∀ input, event.input = some input → input.iface = .out_raw → input.duplicate = false →
    input.packet.id.src ≠ src_addr → effects = [.send_direct_iface .in_iface input.packet]

theorem pump_forwards_le_one (csp : Libcsp) (src_addr : UInt16) (b : Bridge) (read : Option QfifoInput) :
    (pump csp src_addr b read).2.countP (·.isForward) ≤ 1 := by
  cases read with
  | none => simp [pump]
  | some input =>
    simp only [pump]
    split_ifs <;> simp [PumpEffect.isForward]

/-- One turn obeys the split horizon. -/
theorem Split.turn {csp : Libcsp} {src_addr : UInt16} {b : Bridge} {event : MediumEvent}
    (h : Split src_addr b) (hevent : Delivers src_addr b event) :
    SplitHorizon src_addr event (turn csp src_addr b event).2 := by
  refine ⟨?_, ?_, ?_, ?_⟩
  · rintro input rfl
    exact (pump_wrong_side csp b (h.echo_wrong_side hevent)).1
  · cases event with
    | quiet => exact Nat.zero_le _
    | external input => exact pump_forwards_le_one csp src_addr b _
    | echo input =>
      have hfree := (pump_wrong_side csp b (h.echo_wrong_side hevent)).1
      simp [ci_inject_bridge.turn, MediumEvent.input, hfree, PumpEffect.isForward]
  · intro input hinput hiface hfresh hsrc
    rw [ci_inject_bridge.turn, hinput, pump_uplink hfresh hiface hsrc]
  · intro input hinput hiface hfresh hsrc
    rw [ci_inject_bridge.turn, hinput, pump_downlink hfresh hiface hsrc]

theorem forwards_le_external {src_addr : UInt16} {events : List MediumEvent} {outs : List (List PumpEffect)}
    (h : List.Forall₂ (SplitHorizon src_addr) events outs) :
    outs.flatten.countP (·.isForward) ≤ events.countP (·.isExternal) := by
  induction h with
  | nil => simp
  | @cons event effects events outs hstep _ ih =>
    have hone := hstep.forwards
    rw [List.flatten_cons, List.countP_append, List.countP_cons]
    omega

/-- Along every run of the bridge, whatever the media deliver and echo and whatever dedup
    discards, echoes die, frames cross once in their own direction, and there are no more
    forwards than external receptions. -/
theorem bridge_split_horizon (csp : Libcsp) (src_addr : UInt16) (shim : CiDropIface)
    (events : List MediumEvent)
    (h : Transducer.Admits (turn csp src_addr) (Delivers src_addr) (bridge_init shim) events) :
    List.Forall₂ (SplitHorizon src_addr) events
        (Transducer.run (turn csp src_addr) (bridge_init shim) events).2 ∧
      (Transducer.run (turn csp src_addr) (bridge_init shim) events).2.flatten.countP (·.isForward) ≤
        events.countP (·.isExternal) := by
  have hturns : List.Forall₂ (SplitHorizon src_addr) events
      (Transducer.run (turn csp src_addr) (bridge_init shim) events).2 := by
    refine h.run_forall₂ (Split src_addr) ?_ ?_ (split_init src_addr shim)
    · intro _ event hb _
      exact hb.pump event.input
    · intro _ _ hb hevent
      exact hb.turn hevent
  exact ⟨hturns, forwards_le_external hturns⟩

/-- The library as it treats a bridged frame: the identifier is copied onto the packet. -/
def forwarding : Libcsp where
  CSP_NO_VIA_ADDRESS := 0xFFFF
  csp_send_direct_iface := fun id packet => some { packet with id }
  keeps_id := by
    rintro id packet sent ⟨⟩
    rfl

/-- A frame on an interface that dedup lets through. -/
def heard (iface : RxIface) (src dst : UInt16) : QfifoInput :=
  { iface
    packet := { id := { pri := 2, flags := 0, src, dst, dport := 8, sport := 40 }, data := [0, 0, 0, 0] }
    duplicate := false
    now := 0
    target_rc := 0 }

/-- A shim that drops nothing. -/
def lossless_shim : CiDropIface :=
  ci_drop_iface_init { dropAllRule with match_dport := 8, drop_probability := 0 } 200 none

/-- An upload frame and its reply, each echoed by its medium. -/
theorem bridge_split_horizon_echoed :
    List.Forall₂ (SplitHorizon 5424)
        [.external (heard .in_iface 5424 10), .echo (heard .out_raw 5424 10),
          .external (heard .out_raw 10 5424), .echo (heard .in_iface 10 5424)]
        (Transducer.run (turn forwarding 5424) (bridge_init lossless_shim)
          [.external (heard .in_iface 5424 10), .echo (heard .out_raw 5424 10),
            .external (heard .out_raw 10 5424), .echo (heard .in_iface 10 5424)]).2 ∧
      (Transducer.run (turn forwarding 5424) (bridge_init lossless_shim)
          [.external (heard .in_iface 5424 10), .echo (heard .out_raw 5424 10),
            .external (heard .out_raw 10 5424), .echo (heard .in_iface 10 5424)]).2.flatten.countP
          (·.isForward) ≤
        [MediumEvent.external (heard .in_iface 5424 10), .echo (heard .out_raw 5424 10),
          .external (heard .out_raw 10 5424), .echo (heard .in_iface 10 5424)].countP (·.isExternal) :=
  bridge_split_horizon forwarding 5424 lossless_shim
    [.external (heard .in_iface 5424 10), .echo (heard .out_raw 5424 10),
      .external (heard .out_raw 10 5424), .echo (heard .in_iface 10 5424)]
    ⟨by decide, by decide, by decide, by decide, trivial⟩

end csp_intercept.ci_inject_bridge
