import CspIntercept.Lib.Transducer
import CspIntercept.Proxy.Interchange

open csp_intercept.ci_rule csp_intercept.ci_rdp csp_intercept.ci_dtp csp_intercept.ci_drop_iface

namespace csp_intercept.zmqproxy

/-- One more frame rejected. -/
def Proxy.count_malformed (p : Proxy) : Proxy := { p with g_malformed_frames := p.g_malformed_frames + 1 }

section Frames

variable (version : Int) (csp_id_strip : ProxyPacket → Option ProxyPacket)

/-- A frame that can be parsed: it has a whole header, and fits the packet. -/
def WellFormed (msg : List UInt8) : Prop :=
  header_size version ≤ msg.length ∧ msg.length ≤ CSP_BUFFER_SIZE + header_size version

instance (msg : List UInt8) : Decidable (WellFormed version msg) :=
  inferInstanceAs (Decidable (_ ∧ _))

/-- The step wrote a row or moved the flow state. -/
def Traces (p p' : Proxy) : Prop :=
  p'.g_drop_log ≠ p.g_drop_log ∨ p'.g_epoch ≠ p.g_epoch ∨ p'.g_last_seq ≠ p.g_last_seq

/-- Malformed frames are counted and nothing else comes of them: they are not forwarded or
    logged, rows and flow state come of parsed frames only, and those meet the fate they meet
    without the malformed ones. -/
structure LeavesNoTrace (p : Proxy) (events : List ProxyEvent) : Prop where
  rejected : ∀ past e rest, past ++ e :: rest = events → ¬ WellFormed version e.msg →
    zmq_proxy_lossy_step version csp_id_strip (proxyRun version csp_id_strip p past).1 e =
      ((proxyRun version csp_id_strip p past).1.count_malformed, .malformed)
  caused : ∀ past e rest, past ++ e :: rest = events →
    Traces (proxyRun version csp_id_strip p past).1
      (zmq_proxy_lossy_step version csp_id_strip (proxyRun version csp_id_strip p past).1 e).1 →
    WellFormed version e.msg ∧
      (csp_id_strip ((proxyRun version csp_id_strip p past).1.packet.receive e.msg)).isSome
  isolated : let parsed := events.filter fun e => decide (WellFormed version e.msg)
    (proxyRun version csp_id_strip p events).1 =
        Proxy.count_malformed^[events.countP fun e => !decide (WellFormed version e.msg)]
          (proxyRun version csp_id_strip p parsed).1 ∧
      ((events.zip (proxyRun version csp_id_strip p events).2).filter
          fun eo => decide (WellFormed version eo.1.msg)).map Prod.snd =
        (proxyRun version csp_id_strip p parsed).2

section Step

variable {version csp_id_strip} {p : Proxy} {e : ProxyEvent}

/-- The deterministic path rejects what does not fit, and only counts it. -/
theorem step_of_unfit (hdport : 0 ≤ p.g_rule.match_dport)
    (hfits : proxy_frame_fits version (datalen e.msg) = false) :
    zmq_proxy_lossy_step version csp_id_strip p e = (p.count_malformed, .malformed) := by
  unfold zmq_proxy_lossy_step
  rw [if_pos hdport, hfits, if_pos (by rfl)]
  rfl

/-- What fits is dropped or forwarded, whether it was parsed or not. -/
theorem step_of_fit (hdport : 0 ≤ p.g_rule.match_dport)
    (hfits : proxy_frame_fits version (datalen e.msg) = true) :
    (zmq_proxy_lossy_step version csp_id_strip p e).2 ≠ .malformed := by
  unfold zmq_proxy_lossy_step
  rw [if_pos hdport, hfits, if_neg (by simp)]
  dsimp only
  split_ifs <;> nofun

theorem proxy_flow_index_g_rule (p : Proxy) (data : List UInt8) (f : CiFrame) :
    (proxy_flow_index p data f).1.g_rule = p.g_rule := by
  rw [proxy_flow_index_eq]
  rfl

/-- The rule stays as it was set up. -/
theorem step_g_rule (p : Proxy) (e : ProxyEvent) :
    (zmq_proxy_lossy_step version csp_id_strip p e).1.g_rule = p.g_rule := by
  unfold zmq_proxy_lossy_step
  dsimp only
  split_ifs <;> first | rfl | exact proxy_flow_index_g_rule _ _ _

theorem proxyRun_g_rule (p : Proxy) (events : List ProxyEvent) :
    (proxyRun version csp_id_strip p events).1.g_rule = p.g_rule :=
  Transducer.run_invariant (fun q => q.g_rule = p.g_rule)
    (fun q e hq => (step_g_rule q e).trans hq) rfl events

/-- No step looks at the count of malformed frames. -/
theorem step_count_malformed (p : Proxy) (e : ProxyEvent) :
    zmq_proxy_lossy_step version csp_id_strip p.count_malformed e =
      ((zmq_proxy_lossy_step version csp_id_strip p e).1.count_malformed,
        (zmq_proxy_lossy_step version csp_id_strip p e).2) := by
  simp only [zmq_proxy_lossy_step, proxy_flow_index_eq, Proxy.count_malformed, Proxy.withTracker,
    Proxy.tracker]
  split_ifs <;> rfl

theorem WellFormed.fits {msg : List UInt8} (h : WellFormed version msg) :
    proxy_frame_fits version (datalen msg) = true := proxy_frame_fits_of_le version h.2

theorem datalen_of_lt {msg : List UInt8} (hlt : msg.length < 2147483648) : datalen msg = msg.length := by
  apply Int.bmod_eq_of_le_mul_two <;> omega

theorem WellFormed.datalen {msg : List UInt8} (h : WellFormed version msg) : datalen msg = msg.length := by
  have hsize : header_size version ≤ 6 := by
    unfold header_size
    split <;> omega
  have hle := h.2
  unfold CSP_BUFFER_SIZE at hle
  exact datalen_of_lt (by omega)

/-- A frame that can be parsed is. -/
theorem WellFormed.parsed (hstrip : ∀ buf, (csp_id_strip buf).isSome ↔ header_size version ≤ buf.frame_length)
    {msg : List UInt8} (h : WellFormed version msg) (buf : ProxyPacket) :
    (csp_id_strip (buf.receive msg)).isSome := by
  have hlength : (buf.receive msg).frame_length = msg.length := by
    unfold ProxyPacket.receive
    rw [h.datalen]
    exact Int.toNat_natCast msg.length
  rw [hstrip, hlength]
  exact h.1

/-- The condition on a frame: it can be parsed, or its length as the code keeps it does not fit. -/
def ParsedOrUnfit (version : Int) (msg : List UInt8) : Prop :=
  WellFormed version msg ∨ proxy_frame_fits version (datalen msg) = false

theorem step_of_malformed (hdport : 0 ≤ p.g_rule.match_dport) (he : ParsedOrUnfit version e.msg)
    (hbad : ¬ WellFormed version e.msg) :
    zmq_proxy_lossy_step version csp_id_strip p e = (p.count_malformed, .malformed) := by
  rcases he with hgood | hunfit
  · exact absurd hgood hbad
  · exact step_of_unfit hdport hunfit

/-- In a run of the deterministic path, malformed frames leave no trace exactly when each frame
    can be parsed or has a length that the code finds not to fit: no frame is shorter than its
    header, and the length of no oversized one wraps to one that fits. -/
theorem leavesNoTrace_iff {events : List ProxyEvent} (hdport : 0 ≤ p.g_rule.match_dport)
    (hstrip : ∀ buf, (csp_id_strip buf).isSome ↔ header_size version ≤ buf.frame_length) :
    LeavesNoTrace version csp_id_strip p events ↔ ∀ e ∈ events, ParsedOrUnfit version e.msg := by
  have hrule (past : List ProxyEvent) : 0 ≤ (proxyRun version csp_id_strip p past).1.g_rule.match_dport := by
    rw [proxyRun_g_rule]
    exact hdport
  constructor
  · intro h e he
    obtain ⟨past, rest, hevents⟩ := List.append_of_mem he
    by_contra hnot
    unfold ParsedOrUnfit at hnot
    rw [not_or, Bool.not_eq_false] at hnot
    have houtcome := congrArg Prod.snd (h.rejected past e rest hevents.symm hnot.1)
    exact step_of_fit (hrule past) hnot.2 houtcome
  · intro hframes
    have hmem {past rest : List ProxyEvent} {e : ProxyEvent} (hevents : past ++ e :: rest = events) :
        ParsedOrUnfit version e.msg := hframes e (by rw [← hevents]; simp)
    refine ⟨fun past e rest hevents hbad => ?_, fun past e rest hevents htraces => ?_, ?_⟩
    · exact step_of_malformed (hrule past) (hmem hevents) hbad
    · have hgood : WellFormed version e.msg := by
        by_contra hbad
        rw [step_of_malformed (hrule past) (hmem hevents) hbad] at htraces
        rcases htraces with hlog | hepoch | hseq
        · exact hlog rfl
        · exact hepoch rfl
        · exact hseq rfl
      exact ⟨hgood, hgood.parsed hstrip _⟩
    · apply Transducer.run_filter (fun q : Proxy => 0 ≤ q.g_rule.match_dport)
        (fun e => decide (WellFormed version e.msg)) Proxy.count_malformed step_count_malformed hdport
      · intro q e hq
        rw [step_g_rule]
        exact hq
      · intro q e hq he hbad
        rw [step_of_malformed hq (hframes e he) (of_decide_eq_false hbad)]

end Step

end Frames

/-- The rule of the valid frame's port that drops nothing. -/
def keepAllRule : CiDropRule := { dropAllRule with drop_probability := 0 }

/-- Libcsp leaves a frame without a whole header alone. -/
theorem stripDropped_isSome (buf : ProxyPacket) :
    (stripDropped buf).isSome ↔ header_size 2 ≤ buf.frame_length := by
  unfold stripDropped
  change _ ↔ 6 ≤ buf.frame_length
  split_ifs with hshort
  · exact iff_of_false (by simp) (by omega)
  · exact iff_of_true rfl (by omega)

/-- A frame with a whole header, and one that is too long by a byte. -/
theorem leavesNoTrace_iff_oversized :
    LeavesNoTrace 2 stripDropped (zmq_proxy_lossy_start keepAllRule 200 4 ⟨droppedCall.packet.id, 0, 0, []⟩)
      [droppedEvent, { droppedEvent with msg := List.replicate 2055 0 }] := by
  have hunfit {msg : List UInt8} (hlength : msg.length = 2055) :
      proxy_frame_fits 2 (datalen msg) = false := by
    rw [datalen_of_lt (by omega), hlength]
    rfl
  apply (leavesNoTrace_iff (by decide) stripDropped_isSome).2
  intro e he
  rcases List.mem_cons.1 he with rfl | he
  · exact .inl (by decide)
  · rw [List.mem_singleton.1 he]
    exact .inr (hunfit List.length_replicate)

/-- An empty frame after a frame on the matched port: it is logged and forwarded under the
    predecessor's header, and not counted. -/
theorem short_frame_inherits_predecessor :
    let p := zmq_proxy_lossy_start keepAllRule 200 4 ⟨droppedCall.packet.id, 0, 0, []⟩
    let events := [droppedEvent, { droppedEvent with msg := [] }]
    (proxyRun 2 stripDropped p events).2 = [.sent droppedEvent.msg, .sent []] ∧
      (proxyRun 2 stripDropped p events).1.g_drop_log.map List.length = some 2 ∧
      (proxyRun 2 stripDropped p events).1.g_malformed_frames = 0 ∧
      ¬ LeavesNoTrace 2 stripDropped p events := by
  refine ⟨by decide, by decide, by decide, fun h => ?_⟩
  have hrejected := congrArg Prod.snd (h.rejected [droppedEvent] _ [] rfl (by decide))
  exact absurd hrejected (by decide)

end csp_intercept.zmqproxy
