import CspIntercept.Proxy.Interchange
import CspIntercept.Proxy.Delay

open csp_intercept.ci_rule csp_intercept.ci_drop_iface

namespace csp_intercept.zmqproxy

section Frames

variable (version : Int) (csp_id_strip : ProxyPacket → Option ProxyPacket) (modes : ProxyModes)

/-- The message is parsed alike whatever the packet held before. -/
def ParsesAlike (msg : List UInt8) : Prop :=
  ∃ id data, ∀ buf : ProxyPacket, ∃ parsed, csp_id_strip (buf.receive msg) = some parsed ∧
    parsed.id = id ∧ parsed.data version = data

/-- The message of this effect got as far as the drop decision. -/
def ProxyEffect.is_decided : ProxyEffect → Bool
  | .malformed _ => modes.hdx_node = 0
  | .dropped _ => true
  | .delayed dmsg => !dmsg.hdx
  | .delay_drop dmsg => !dmsg.hdx
  | .sent _ => true
  | _ => false

/-- The decision that led to the effect, as the loop without the other modes acts on it. -/
def ProxyEffect.decision : ProxyEffect → ProxyOutcome
  | .dropped _ => .dropped
  | .delayed dmsg => .sent dmsg.msg
  | .delay_drop dmsg => .sent dmsg.msg
  | .sent msg => .sent msg
  | _ => .malformed

/-- The frontend message as it came before the decision. -/
def decided : ProxyTurn × ProxyEffect → Option ProxyEvent
  | (.frontend e, effect) =>
    if effect.is_decided modes then some { e.toProxyEvent with msg := corrupt modes e } else none
  | (.delay_send _ _, _) => none

/-- The loop with every mode and the loop with none of them agree on the oracle: on the rule, the flow
    state and the log, and on the parsed packet where only the decision parses. -/
structure SameOracle {Q : Type} (p : LossyProxy Q) (q : Proxy) : Prop where
  rule : p.g_rule = q.g_rule
  tracker : p.tracker = q.tracker
  log : p.g_drop_log = q.g_drop_log
  drops : p.g_drops = q.g_drops
  packet : modes.hdx_node = 0 → p.packet = q.packet

end Frames

section Decision

variable {Q : Type} {lib : CspQueue Q} {version : Int} {csp_id_strip : ProxyPacket → Option ProxyPacket}
  {modes : ProxyModes}

theorem SameOracle.of_toProxy {p p' : LossyProxy Q} {q : Proxy} (h : SameOracle modes p q)
    (heq : p'.toProxy = p.toProxy) : SameOracle modes p' q := by
  obtain ⟨hrule, htracker, hlog, hdrops, hpacket⟩ := h
  refine ⟨?_, ?_, ?_, ?_, ?_⟩ <;> rw [heq] <;> assumption

/-- Two parses that agree wherever the decision looks. -/
theorem parses_alike {p : LossyProxy Q} {q : Proxy} {msg : List UInt8} (h : SameOracle modes p q)
    (hparses : modes.hdx_node = 0 ∨ ParsesAlike version csp_id_strip msg) {a b : ProxyPacket}
    (ha : (csp_id_strip (p.packet.receive msg)).getD (p.packet.receive msg) = a)
    (hb : (csp_id_strip (q.packet.receive msg)).getD (q.packet.receive msg) = b) :
    a.id = b.id ∧ a.data version = b.data version ∧ (modes.hdx_node = 0 → a = b) := by
  subst ha hb
  by_cases hoff : modes.hdx_node = 0
  · rw [h.packet hoff]
    exact ⟨rfl, rfl, fun _ => rfl⟩
  · obtain ⟨id, data, hall⟩ := hparses.resolve_left hoff
    obtain ⟨parsed, hp, hid, hdata⟩ := hall p.packet
    obtain ⟨parsed', hq, hid', hdata'⟩ := hall q.packet
    rw [hp, hq]
    exact ⟨hid.trans hid'.symm, hdata.trans hdata'.symm, fun h => absurd h hoff⟩

/-- The decision on a message that fits, by what it was parsed to. -/
theorem drop_decision_of_fit {p : Proxy} {e : ProxyEvent} (hdport : 0 ≤ p.g_rule.match_dport)
    (hfits : proxy_frame_fits version (datalen e.msg) = true) {a : ProxyPacket}
    (ha : (csp_id_strip (p.packet.receive e.msg)).getD (p.packet.receive e.msg) = a) :
    let f := ci_frame_from_fields a.id.dport a.id.flags (a.data version)
    let key := ci_flow_index p.tracker f (a.data version)
    drop_decision version csp_id_strip p e =
      if ci_rule_match p.g_rule f then
        ({ p.withTracker key.1 with
            packet := a
            g_drop_log := p.g_drop_log.map
              (· ++ [{ t_ms := e.now, src := a.id.src, dport := a.id.dport, csp_flags := a.id.flags
                       is_rdp := f.is_rdp, index := key.2, epoch := key.1.epoch
                       dropped := ci_rule_decide p.g_rule key.2 }]) },
          some (ci_rule_decide p.g_rule key.2))
      else ({ p with packet := a }, some false) := by
  subst ha
  simp only [drop_decision, if_pos hdport, hfits, Bool.not_true, Bool.false_eq_true, if_false,
    proxy_flow_index_eq]
  rfl

theorem drop_decision_of_unfit {p : Proxy} {e : ProxyEvent} (hdport : 0 ≤ p.g_rule.match_dport)
    (hfits : proxy_frame_fits version (datalen e.msg) = false) :
    drop_decision version csp_id_strip p e =
      ({ p with g_malformed_frames := p.g_malformed_frames + 1 }, none) := by
  simp only [drop_decision, if_pos hdport, hfits, Bool.not_false, if_true]

theorem drop_decision_of_legacy {p : Proxy} {e : ProxyEvent} (hdport : ¬ 0 ≤ p.g_rule.match_dport) :
    drop_decision version csp_id_strip p e = (p, some e.legacy_drop) := if_neg hdport

theorem drop_decision_none {p r : Proxy} {e : ProxyEvent} (h : drop_decision version csp_id_strip p e = (r, none)) :
    r = { p with g_malformed_frames := p.g_malformed_frames + 1 } := by
  by_cases hdport : 0 ≤ p.g_rule.match_dport
  · cases hfits : proxy_frame_fits version (datalen e.msg) with
    | false =>
      rw [drop_decision_of_unfit hdport hfits] at h
      exact (Prod.mk.inj h).1.symm
    | true =>
      rw [drop_decision_of_fit hdport hfits rfl] at h
      split_ifs at h <;> cases (Prod.mk.inj h).2
  · rw [drop_decision_of_legacy hdport] at h
    cases (Prod.mk.inj h).2

/-- The decision rests on what two proxies that agree on the oracle agree on. -/
theorem drop_decision_alike {p : LossyProxy Q} {q : Proxy} {e : ProxyEvent} (h : SameOracle modes p q)
    (hparses : modes.hdx_node = 0 ∨ ParsesAlike version csp_id_strip e.msg) :
    (drop_decision version csp_id_strip p.toProxy e).2 = (drop_decision version csp_id_strip q e).2 ∧
      SameOracle modes { p with toProxy := (drop_decision version csp_id_strip p.toProxy e).1 }
        (drop_decision version csp_id_strip q e).1 := by
  obtain ⟨hid, hdata, hsame⟩ := parses_alike h hparses rfl rfl
  obtain ⟨hrule, htracker, hlog, hdrops, hpacket⟩ := h
  by_cases hdport : 0 ≤ q.g_rule.match_dport
  · have hdport' : 0 ≤ p.g_rule.match_dport := hrule ▸ hdport
    cases hfits : proxy_frame_fits version (datalen e.msg) with
    | false =>
      rw [drop_decision_of_unfit hdport hfits, drop_decision_of_unfit hdport' hfits]
      exact ⟨rfl, hrule, htracker, hlog, hdrops, hpacket⟩
    | true =>
      rw [drop_decision_of_fit hdport hfits rfl, drop_decision_of_fit hdport' hfits rfl, hid, hdata, hrule,
        htracker]
      split_ifs
      · refine ⟨rfl, hrule, ?_, ?_, hdrops, hsame⟩
        · rfl
        · rw [hlog]
      · exact ⟨rfl, rfl, htracker, hlog, hdrops, hsame⟩
  · have hdport' : ¬ 0 ≤ p.g_rule.match_dport := hrule ▸ hdport
    rw [drop_decision_of_legacy hdport, drop_decision_of_legacy hdport']
    exact ⟨rfl, hrule, htracker, hlog, hdrops, hpacket⟩

theorem drop_decision_related {p : LossyProxy Q} {q r : Proxy} {e : ProxyEvent} {decision : Option Bool}
    (h : SameOracle modes p q) (hleft : drop_decision version csp_id_strip p.toProxy e = (r, decision))
    (hparses : modes.hdx_node = 0 ∨ ParsesAlike version csp_id_strip e.msg) :
    ∃ s, drop_decision version csp_id_strip q e = (s, decision) ∧ SameOracle modes { p with toProxy := r } s := by
  obtain ⟨hsame, horacle⟩ := drop_decision_alike h hparses
  rw [hleft] at hsame horacle
  exact ⟨_, Prod.ext rfl hsame.symm, horacle⟩

variable (lib version csp_id_strip) in
/-- What the half-duplex gate does changes nothing the two agree on. -/
theorem hdx_gate_alike {p : LossyProxy Q} {q : Proxy} (e : LossyEvent) (h : SameOracle modes p q) :
    SameOracle modes (hdx_gate lib version csp_id_strip modes p e).1 q := by
  obtain ⟨hrule, htracker, hlog, hdrops, hpacket⟩ := h
  unfold hdx_gate
  by_cases hoff : modes.hdx_node = 0
  · rw [if_pos hoff]
    exact ⟨hrule, htracker, hlog, hdrops, hpacket⟩
  rw [if_neg hoff]
  cases proxy_frame_fits version (datalen e.msg) with
  | false => exact ⟨hrule, htracker, hlog, hdrops, hpacket⟩
  | true =>
    have hnot : modes.hdx_node = 0 → ∀ a : ProxyPacket, a = q.packet := fun h => absurd h hoff
    rw [if_neg (by simp)]
    dsimp only
    generalize (csp_id_strip (p.packet.receive e.msg)).getD (p.packet.receive e.msg) = a
    unfold LossyProxy.delay
    split_ifs
    all_goals first
      | exact ⟨hrule, htracker, hlog, hdrops, fun h => hnot h a⟩
      | (split <;> exact ⟨hrule, htracker, hlog, hdrops, fun h => hnot h a⟩)

/-- Handing a message over touches nothing that the loops agree on, and counts as a decision unless
    the half-duplex gate does it. -/
theorem delay_decides (modes : ProxyModes) (p : LossyProxy Q) (dmsg : DelayedMsg) :
    (p.delay lib dmsg).2.is_decided modes = (!dmsg.hdx) ∧ (p.delay lib dmsg).2.decision = .sent dmsg.msg ∧
      (p.delay lib dmsg).1.toProxy = p.toProxy := by
  unfold LossyProxy.delay
  split <;> exact ⟨rfl, rfl, rfl⟩

variable (lib version csp_id_strip modes) in
/-- A message that the half-duplex gate stops never gets to the decision. -/
theorem hdx_gate_not_decided (p : LossyProxy Q) (e : LossyEvent) :
    ∀ effect ∈ (hdx_gate lib version csp_id_strip modes p e).2, effect.is_decided modes = false := by
  unfold hdx_gate
  by_cases hoff : modes.hdx_node = 0
  · rw [if_pos hoff]
    nofun
  rw [if_neg hoff]
  cases proxy_frame_fits version (datalen e.msg) with
  | false =>
    rintro effect ⟨rfl⟩
    exact decide_eq_false hoff
  | true =>
    rw [if_neg (by simp)]
    dsimp only
    split_ifs
    · rintro effect ⟨rfl⟩
      exact (delay_decides modes _ _).1
    · rintro effect ⟨rfl⟩
      exact (delay_decides modes _ _).1
    · rintro effect ⟨rfl⟩
      rfl
    · nofun
    · rintro effect ⟨rfl⟩
      rfl
    · nofun

/-- An iteration of the loop with every mode, seen from the loop with none: the same decision when
    one is made, and nothing that the two agree on otherwise. -/
structure FollowsDecision (version : Int) (csp_id_strip : ProxyPacket → Option ProxyPacket)
    (modes : ProxyModes) (q : Proxy) (event : ProxyEvent) (after : LossyProxy Q × ProxyEffect) : Prop where
  decided : after.2.is_decided modes = true →
    (modes.hdx_node = 0 ∨ ParsesAlike version csp_id_strip event.msg) →
      SameOracle modes after.1 (zmq_proxy_lossy_step version csp_id_strip q event).1 ∧
        (zmq_proxy_lossy_step version csp_id_strip q event).2 = after.2.decision
  stopped : after.2.is_decided modes = false → SameOracle modes after.1 q

variable (lib version csp_id_strip) in
theorem frontend_follows {p : LossyProxy Q} {q : Proxy} (e : LossyEvent) (h : SameOracle modes p q) :
    FollowsDecision version csp_id_strip modes q { e.toProxyEvent with msg := corrupt modes e }
      (zmq_proxy_lossy_frontend lib version csp_id_strip modes p e) := by
  have hgate := hdx_gate_alike lib version csp_id_strip e h
  have hstopped := hdx_gate_not_decided lib version csp_id_strip modes p e
  unfold zmq_proxy_lossy_frontend
  generalize hdx_gate lib version csp_id_strip modes p e = gate at hgate hstopped ⊢
  obtain ⟨p', _ | effect⟩ := gate
  · dsimp only at hgate ⊢
    generalize hevent : { e.toProxyEvent with msg := corrupt modes e } = event
    have hmsg : event.msg = corrupt modes e := by rw [← hevent]
    rcases hleft : drop_decision version csp_id_strip p'.toProxy event with ⟨r, _ | _ | _⟩ <;>
      have hrelated := drop_decision_related hgate hleft <;> dsimp only
    · refine ⟨fun _ hparses => ?_, fun _ => ?_⟩
      · obtain ⟨s, hright, horacle⟩ := hrelated hparses
        rw [zmq_proxy_lossy_step_eq, hright]
        exact ⟨horacle, rfl⟩
      · have hr := drop_decision_none hleft
        subst hr
        exact ⟨hgate.rule, hgate.tracker, hgate.log, hgate.drops, hgate.packet⟩
    · split_ifs
      · obtain ⟨hdecided, hdecision, hproxy⟩ := delay_decides modes { p' with toProxy := r }
          { msg := corrupt modes e, timestamp_tx := e.send_ms + UInt32.ofInt modes.delay_ms, hdx := false }
        refine ⟨fun _ hparses => ?_, fun hnot => ?_⟩
        · obtain ⟨s, hright, horacle⟩ := hrelated hparses
          have hafter := horacle.of_toProxy hproxy
          rw [zmq_proxy_lossy_step_eq, hright, hdecision]
          exact ⟨⟨hafter.rule, hafter.tracker, hafter.log, hafter.drops, hafter.packet⟩,
            congrArg ProxyOutcome.sent hmsg⟩
        · rw [hdecided] at hnot
          cases hnot
      · refine ⟨fun _ hparses => ?_, nofun⟩
        obtain ⟨s, hright, horacle⟩ := hrelated hparses
        rw [zmq_proxy_lossy_step_eq, hright]
        exact ⟨⟨horacle.rule, horacle.tracker, horacle.log, horacle.drops, horacle.packet⟩,
          congrArg ProxyOutcome.sent hmsg⟩
    · refine ⟨fun _ hparses => ?_, nofun⟩
      obtain ⟨s, hright, horacle⟩ := hrelated hparses
      rw [zmq_proxy_lossy_step_eq, hright]
      exact ⟨⟨horacle.rule, horacle.tracker, horacle.log, congrArg (· + 1) horacle.drops, horacle.packet⟩, rfl⟩
  · have hnot := hstopped effect rfl
    refine ⟨fun hdecided => ?_, fun _ => hgate⟩
    rw [hnot] at hdecided
    cases hdecided

/-- The delay worker shares nothing with the oracle. -/
theorem task_delay_send_toProxy (p : LossyProxy Q) (now tx_ms : UInt32) :
    (task_delay_send lib p now tx_ms).1.toProxy = p.toProxy := by
  unfold task_delay_send
  rcases p.worker with _ | (_ | left) | ⟨left, dmsg⟩
  · rfl
  · rfl
  · dsimp only
    split <;> rfl
  · dsimp only
    split_ifs
    · rfl
    · rfl
    · split <;> rfl

theorem turn_follows {p : LossyProxy Q} {q : Proxy} (t : ProxyTurn) (h : SameOracle modes p q) :
    let after := zmq_proxy_lossy_turn lib version csp_id_strip modes p t
    (decided modes (t, after.2)).elim (SameOracle modes after.1 q) fun event =>
      (modes.hdx_node = 0 ∨ ParsesAlike version csp_id_strip event.msg) →
        SameOracle modes after.1 (zmq_proxy_lossy_step version csp_id_strip q event).1 ∧
          (zmq_proxy_lossy_step version csp_id_strip q event).2 = after.2.decision := by
  cases t with
  | frontend e =>
    have hfollows := frontend_follows lib version csp_id_strip e h
    cases hdecided : (zmq_proxy_lossy_turn lib version csp_id_strip modes p (.frontend e)).2.is_decided modes with
    | true =>
      simp only [decided, hdecided, if_true, Option.elim_some]
      exact hfollows.decided hdecided
    | false =>
      simp only [decided, hdecided, Bool.false_eq_true, if_false, Option.elim_none]
      exact hfollows.stopped hdecided
  | delay_send now tx_ms =>
    change SameOracle modes (if modes.spawns_worker then task_delay_send lib p now tx_ms else (p, .idle)).1 q
    split_ifs
    · exact h.of_toProxy (task_delay_send_toProxy p now tx_ms)
    · exact h

/-- Without half duplex every frontend message gets to the decision. -/
theorem frontend_decided (hoff : modes.hdx_node = 0) (p : LossyProxy Q) (e : LossyEvent) :
    (zmq_proxy_lossy_frontend lib version csp_id_strip modes p e).2.is_decided modes = true := by
  unfold zmq_proxy_lossy_frontend hdx_gate
  rw [if_pos hoff]
  dsimp only
  rcases drop_decision version csp_id_strip p.toProxy _ with ⟨q, _ | _ | _⟩ <;> dsimp only
  · exact decide_eq_true hoff
  · split_ifs
    · exact (delay_decides modes _ _).1
    · rfl
  · rfl

theorem corrupt_of_off (hoff : modes.corr_prob ≤ 0) (e : LossyEvent) : corrupt modes e = e.msg := by
  simp [corrupt, not_lt.mpr hoff]

end Decision

section Run

variable {Q : Type} (lib : CspQueue Q) (version : Int) (csp_id_strip : ProxyPacket → Option ProxyPacket)
  (modes : ProxyModes)

/-- The frontend messages of a run that got as far as the drop decision, as they came before it. -/
def decidedEvents (p : LossyProxy Q) (turns : List ProxyTurn) : List ProxyEvent :=
  Transducer.picked (decided modes) (zmq_proxy_lossy_turn lib version csp_id_strip modes) p turns

/-- The frontend message of a turn. -/
def ProxyTurn.event : ProxyTurn → Option ProxyEvent
  | .frontend e => some e.toProxyEvent
  | .delay_send _ _ => none

/-- The oracle of a run is that of the plain loop on the messages that got to the decision, and the
    loop with every mode dropped, rejected and let through the same of them. Without half duplex and
    corruption these are all messages. -/
structure OracleOfDecided (p : LossyProxy Q) (q : Proxy) (turns : List ProxyTurn) : Prop where
  same : SameOracle modes (lossyRun lib version csp_id_strip modes p turns).1
    (proxyRun version csp_id_strip q (decidedEvents lib version csp_id_strip modes p turns)).1
  fates : (proxyRun version csp_id_strip q (decidedEvents lib version csp_id_strip modes p turns)).2 =
    ((turns.zip (lossyRun lib version csp_id_strip modes p turns).2).filter fun turn =>
      (decided modes turn).isSome).map fun turn => turn.2.decision
  all : modes.hdx_node = 0 → modes.corr_prob ≤ 0 →
    decidedEvents lib version csp_id_strip modes p turns = turns.filterMap ProxyTurn.event

/-- However the two threads interleave, and whatever is delayed, the drop log, the flow state and the
    fate of each message are those of the plain loop on the messages that reach the decision. -/
theorem oracle_of_decided (rule : CiDropRule) (mtu overhead : UInt16) (packet : ProxyPacket)
    (turns : List ProxyTurn)
    (hparses : ∀ e ∈ decidedEvents lib version csp_id_strip modes
      (zmq_proxy_lossy_init lib rule mtu overhead packet) turns,
      modes.hdx_node = 0 ∨ ParsesAlike version csp_id_strip e.msg) :
    OracleOfDecided lib version csp_id_strip modes (zmq_proxy_lossy_init lib rule mtu overhead packet)
      (zmq_proxy_lossy_start rule mtu overhead packet) turns := by
  have hstart : SameOracle modes (zmq_proxy_lossy_init lib rule mtu overhead packet)
      (zmq_proxy_lossy_start rule mtu overhead packet) := ⟨rfl, rfl, rfl, rfl, fun _ => rfl⟩
  obtain ⟨hsame, hfates⟩ := Transducer.run_picks (SameOracle modes) (decided modes) ProxyEffect.decision
    (fun e : ProxyEvent => modes.hdx_node = 0 ∨ ParsesAlike version csp_id_strip e.msg)
    (fun _ _ t h => turn_follows t h) hstart hparses
  refine ⟨hsame, hfates, fun hhdx hcorr => Transducer.picked_eq_filterMap (fun p t => ?_) _ turns⟩
  cases t with
  | frontend e =>
    have hdecided : (zmq_proxy_lossy_turn lib version csp_id_strip modes p (.frontend e)).2.is_decided modes = true :=
      frontend_decided hhdx p e
    simp only [decided, hdecided, if_true, corrupt_of_off hcorr, ProxyTurn.event]
  | delay_send now tx_ms => rfl

end Run

/-- Half duplex on a node that the valid frame does not name, and every message delayed. -/
def busyModes : ProxyModes :=
  { hdx_node := 99, hdx_powerup_delay := 30, hdx_powerdown_delay := 100, corr_prob := 0, delay_prob := 1
    delay_ms := 5 }

/-- The valid frame, to be delayed, and two turns of the worker around it. -/
def busyTurns : List ProxyTurn :=
  [.delay_send 1 1,
    .frontend
      { droppedEvent with
        gap_ms := 5, start_ms := 5, tx_ms := 5, rx_ms := 5, send_ms := 5
        corrupts := false, rand_byte := 0, rand_bit := 0, delays := true },
    .delay_send 6 6]

theorem oracle_of_decided_busy :
    OracleOfDecided boundedQueue 2 stripDropped busyModes
      (zmq_proxy_lossy_init boundedQueue { dropAllRule with drop_probability := 0 } 200 4
        ⟨droppedCall.packet.id, 0, 0, []⟩)
      (zmq_proxy_lossy_start { dropAllRule with drop_probability := 0 } 200 4
        ⟨droppedCall.packet.id, 0, 0, []⟩)
      busyTurns := by
  apply oracle_of_decided
  intro e he
  have hevents : decidedEvents boundedQueue 2 stripDropped busyModes
      (zmq_proxy_lossy_init boundedQueue { dropAllRule with drop_probability := 0 } 200 4
        ⟨droppedCall.packet.id, 0, 0, []⟩)
      busyTurns = [droppedEvent] := by rfl
  rw [hevents] at he
  rw [List.mem_singleton.mp he]
  exact .inr ⟨_, _, droppedEvent_sameFrame.strip⟩

end csp_intercept.zmqproxy
