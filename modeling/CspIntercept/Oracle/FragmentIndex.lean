import CspIntercept.Apm.Monitor
import CspIntercept.Proxy.Interchange
import CspIntercept.Svu.Proto

open csp_intercept.ci_rule csp_intercept.ci_drop_iface csp_intercept.zmqproxy csp_intercept.csp_monitor_apm
open csp_intercept.svu_proto

namespace csp_intercept.ci_dtp

/-- The check on the integers the operator passed, and the casts to 16 bits after it. -/
def overhead_guard (mtu overhead : ℤ) : Option (UInt16 × UInt16) :=
  if overhead < CI_DTP_OFFSET_SIZE ∨ overhead ≥ mtu then none
  else some (UInt16.ofInt mtu, UInt16.ofInt overhead)

/-- `-m` and `-H` of the proxy. -/
def zmq_proxy_lossy_geometry (mtu_arg overhead_arg : Int32) : Option (UInt16 × UInt16) :=
  overhead_guard mtu_arg.toInt overhead_arg.toInt

/-- `-m` and `-O` of the monitor, which are unsigned. -/
def csp_monitor_start_cmd_geometry (mtu overhead : UInt32) : Option (UInt16 × UInt16) :=
  overhead_guard mtu.toNat overhead.toNat

/-- The bridge's `mtu` and `overhead`. -/
def ci_inject_bridge_geometry (mtu overhead : Int32) : Option (UInt16 × UInt16) :=
  overhead_guard mtu.toInt overhead.toInt

/-- A 16-bit geometry gives every offset the index that the integers passed stand for. -/
def Indexes (mtu overhead : ℤ) (m o : UInt16) : Prop :=
  ∀ off, ∃ frag, ci_dtp_fragment_index_ovh off m o = some frag ∧
    (frag.toNat : ℤ) = off.toNat / (mtu - overhead)

section Geometry

variable {mtu overhead : ℤ} {m o : UInt16}

theorem overhead_guard_eq_some (h : overhead_guard mtu overhead = some (m, o)) :
    4 ≤ overhead ∧ overhead < mtu ∧ (m.toNat : ℤ) = mtu % 65536 ∧ (o.toNat : ℤ) = overhead % 65536 := by
  unfold overhead_guard CI_DTP_OFFSET_SIZE at h
  split_ifs at h with hreject
  obtain ⟨rfl, rfl⟩ : UInt16.ofInt mtu = m ∧ UInt16.ofInt overhead = o := by simpa using h
  have hcast (n : ℤ) : ((UInt16.ofInt n).toNat : ℤ) = n % 65536 := by
    rw [UInt16.ofInt, UInt16.toNat_ofNat']
    omega
  exact ⟨by omega, by omega, hcast mtu, hcast overhead⟩

/-- The index a geometry computes. -/
theorem toNat_ci_dtp_fragment_index_ovh {off frag : UInt32}
    (h : ci_dtp_fragment_index_ovh off m o = some frag) :
    o.toNat < m.toNat ∧ frag.toNat = off.toNat / (m.toNat - o.toNat) := by
  unfold ci_dtp_fragment_index_ovh at h
  split_ifs at h with hle
  rw [UInt16.le_iff_toNat_le] at hle
  have hm := m.toNat_lt
  obtain rfl := Option.some.inj h
  refine ⟨by omega, ?_⟩
  have hsub : (m - o).toNat = m.toNat - o.toNat := by
    rw [UInt16.toNat_sub]
    omega
  rw [UInt32.toNat_div, UInt16.toNat_toUInt32, hsub]

theorem ci_dtp_fragment_index_ovh_isSome (off : UInt32) (h : o.toNat < m.toNat) :
    (ci_dtp_fragment_index_ovh off m o).isSome := by
  unfold ci_dtp_fragment_index_ovh
  rw [if_neg (by rw [UInt16.le_iff_toNat_le]; omega)]
  rfl

/-- Behind the guard, the casts are harmless exactly when they cut the same multiple of `2^16`
    off both integers. -/
theorem indexes_iff (hguard : overhead_guard mtu overhead = some (m, o)) :
    Indexes mtu overhead m o ↔ mtu / 65536 = overhead / 65536 := by
  obtain ⟨hpos, hlt, hm, ho⟩ := overhead_guard_eq_some hguard
  constructor
  · intro hindexes
    have hpayload : o.toNat < m.toNat := by
      obtain ⟨frag, hfrag, -⟩ := hindexes 0
      exact (toNat_ci_dtp_fragment_index_ovh hfrag).1
    -- the start of the code's second fragment: a wider one would not have ended there
    have hsecond : (UInt32.ofNat (m.toNat - o.toNat)).toNat = m.toNat - o.toNat := by
      have hm' := m.toNat_lt
      rw [UInt32.toNat_ofNat']
      omega
    obtain ⟨frag, hfrag, hright⟩ := hindexes (UInt32.ofNat (m.toNat - o.toNat))
    have hone : frag.toNat = 1 := by
      rw [(toNat_ci_dtp_fragment_index_ovh hfrag).2, hsecond]
      exact Nat.div_self (by omega)
    rw [hsecond, hone] at hright
    have hwide : mtu - overhead ≤ (m.toNat - o.toNat : ℕ) := by
      by_contra hnot
      rw [Int.ediv_eq_zero_of_lt (by omega) (by omega)] at hright
      omega
    omega
  · intro hupper off
    have hdiff : ((m.toNat - o.toNat : ℕ) : ℤ) = mtu - overhead := by omega
    have hpayload : o.toNat < m.toNat := by omega
    obtain ⟨frag, hfrag⟩ := Option.isSome_iff_exists.1 (ci_dtp_fragment_index_ovh_isSome off hpayload)
    refine ⟨frag, hfrag, ?_⟩
    rw [(toNat_ci_dtp_fragment_index_ovh hfrag).2, ← hdiff]
    exact Int.natCast_ediv ..

/-- The offset a frame starts with can be any word. -/
theorem ci_dtp_parse_offset_put32 (off : UInt32) (rest : List UInt8) :
    ci_dtp_parse_offset (svu_put32 off ++ rest) = some off := by
  have hlength : ¬ (svu_put32 off ++ rest).length < CI_DTP_OFFSET_SIZE := by
    rw [List.length_append, length_svu_put32]
    unfold CI_DTP_OFFSET_SIZE
    omega
  unfold ci_dtp_parse_offset
  rw [if_neg hlength]
  exact congrArg some (svu_get32_put32 off rest)

theorem ci_dtp_parse_offset_isSome {data : List UInt8} (hlength : CI_DTP_OFFSET_SIZE ≤ data.length) :
    ∃ off, ci_dtp_parse_offset data = some off := by
  unfold ci_dtp_parse_offset
  rw [if_neg (by omega)]
  exact ⟨_, rfl⟩

/-- What a front end makes of a data frame: the offset parses, its index exists, and it is the
    index that the integers passed stand for. -/
def FrameIndexed (mtu overhead : ℤ) (m o : UInt16) (data : List UInt8) (given : ℕ) : Prop :=
  ∃ off, ci_dtp_parse_offset data = some off ∧ (ci_dtp_fragment_index_ovh off m o).isSome ∧
    (given : ℤ) = off.toNat / (mtu - overhead)

/-- Whatever gives data frames the code's index, or 0 in its place, indexes them right exactly
    when the geometry does. -/
theorem frames_indexed_iff (given : List UInt8 → ℕ)
    (hgiven : ∀ data off, ci_dtp_parse_offset data = some off →
      given data = ((ci_dtp_fragment_index_ovh off m o).getD 0).toNat) :
    (∀ data, CI_DTP_OFFSET_SIZE ≤ data.length → FrameIndexed mtu overhead m o data (given data)) ↔
      Indexes mtu overhead m o := by
  constructor
  · intro hframes off
    have hparse : ci_dtp_parse_offset (svu_put32 off ++ []) = some off := ci_dtp_parse_offset_put32 off []
    obtain ⟨off', hoff', hsome, hright⟩ := hframes (svu_put32 off ++ []) (by simp [CI_DTP_OFFSET_SIZE])
    obtain rfl : off' = off := Option.some.inj (hoff'.symm.trans hparse)
    obtain ⟨frag, hfrag⟩ := Option.isSome_iff_exists.1 hsome
    rw [hgiven _ off' hparse, hfrag] at hright
    exact ⟨frag, hfrag, hright⟩
  · intro hindexes data hlength
    obtain ⟨off, hoff⟩ := ci_dtp_parse_offset_isSome hlength
    obtain ⟨frag, hfrag, hright⟩ := hindexes off
    refine ⟨off, hoff, by rw [hfrag]; rfl, ?_⟩
    rw [hgiven data off hoff, hfrag]
    exact hright

end Geometry

/-- The proxy started on a geometry gives every data frame its index, after any frames. -/
def ProxyIndexes (mtu overhead : ℤ) (m o : UInt16) : Prop :=
  ∀ version csp_id_strip rule packet events f data, f.is_rdp = false → CI_DTP_OFFSET_SIZE ≤ data.length →
    let p := (proxyRun version csp_id_strip (zmq_proxy_lossy_start rule m o packet) events).1
    FrameIndexed mtu overhead p.g_dtp_mtu p.g_dtp_overhead data (proxy_flow_index p data f).2.toNat

/-- The monitor logs every data frame under its offset and index. -/
def MonitorIndexes (mtu overhead : ℤ) (m o : UInt16) : Prop :=
  ∀ cfg st t pk, cfg.mon_mtu = m → cfg.mon_dtp_overhead = o → CI_DTP_OFFSET_SIZE ≤ pk.data.length →
    ∃ off frag, ci_dtp_parse_offset pk.data = some off ∧
      (drain_dtp cfg st t pk).mon_csv =
        st.mon_csv ++ [.dtp t pk.id.src pk.id.dst pk.id.dport pk.id.flags off frag] ∧
      FrameIndexed mtu overhead cfg.mon_mtu cfg.mon_dtp_overhead pk.data frag.toNat

/-- The bridge's shim, in either mode, gives every data frame its index, after any frames. -/
def BridgeIndexes (mtu overhead : ℤ) (m o : UInt16) : Prop :=
  ∀ shim calls f data, shim.tracker = ci_flow_tracker_init_ovh m o → f.is_rdp = false →
    CI_DTP_OFFSET_SIZE ≤ data.length →
    let t := (shimRun shim calls).1.tracker
    FrameIndexed mtu overhead t.dtp_mtu t.dtp_overhead data (ci_flow_index t f data).2.toNat

section FrontEnds

variable {mtu overhead : ℤ} {m o : UInt16}

theorem ci_flow_index_geometry (t : CiFlowTracker) (f : CiFrame) (data : List UInt8) :
    (ci_flow_index t f data).1.dtp_mtu = t.dtp_mtu ∧
      (ci_flow_index t f data).1.dtp_overhead = t.dtp_overhead := by
  unfold ci_flow_index
  split_ifs
  · split <;> exact ⟨rfl, rfl⟩
  · split <;> exact ⟨rfl, rfl⟩

/-- A data frame is indexed by its offset alone. -/
theorem ci_flow_index_of_dtp {t : CiFlowTracker} {f : CiFrame} {data : List UInt8} {off : UInt32}
    (hdtp : f.is_rdp = false) (hoff : ci_dtp_parse_offset data = some off) :
    (ci_flow_index t f data).2.toNat = ((ci_dtp_fragment_index_ovh off t.dtp_mtu t.dtp_overhead).getD 0).toNat := by
  simp [ci_flow_index, hdtp, hoff]

theorem shimRun_geometry (shim : CiDropIface) (calls : List NexthopCall) :
    (shimRun shim calls).1.tracker.dtp_mtu = shim.tracker.dtp_mtu ∧
      (shimRun shim calls).1.tracker.dtp_overhead = shim.tracker.dtp_overhead := by
  apply Transducer.run_invariant (fun s : CiDropIface => s.tracker.dtp_mtu = shim.tracker.dtp_mtu ∧
    s.tracker.dtp_overhead = shim.tracker.dtp_overhead)
  · intro s c hs
    cases hscope : inScope s.rule c with
    | false =>
      rw [nexthop_of_out_of_scope hscope]
      exact hs
    | true =>
      obtain ⟨hmtu, hoverhead⟩ := ci_flow_index_geometry s.tracker c.frame c.packet.data
      rw [nexthop_of_in_scope hscope]
      exact ⟨hmtu.trans hs.1, hoverhead.trans hs.2⟩
  · exact ⟨rfl, rfl⟩

theorem step_geometry (version : Int) (csp_id_strip : ProxyPacket → Option ProxyPacket) (p : Proxy)
    (e : ProxyEvent) :
    (zmq_proxy_lossy_step version csp_id_strip p e).1.tracker.dtp_mtu = p.tracker.dtp_mtu ∧
      (zmq_proxy_lossy_step version csp_id_strip p e).1.tracker.dtp_overhead = p.tracker.dtp_overhead := by
  have hindex (p : Proxy) (data : List UInt8) (f : CiFrame) :
      (proxy_flow_index p data f).1.tracker.dtp_mtu = p.tracker.dtp_mtu ∧
        (proxy_flow_index p data f).1.tracker.dtp_overhead = p.tracker.dtp_overhead := by
    rw [proxy_flow_index_eq]
    exact ci_flow_index_geometry p.tracker f data
  unfold zmq_proxy_lossy_step
  dsimp only
  split_ifs <;> first | exact ⟨rfl, rfl⟩ | exact hindex _ _ _

theorem proxyRun_geometry (version : Int) (csp_id_strip : ProxyPacket → Option ProxyPacket)
    (rule : CiDropRule) (m o : UInt16) (packet : ProxyPacket) (events : List ProxyEvent) :
    (proxyRun version csp_id_strip (zmq_proxy_lossy_start rule m o packet) events).1.tracker.dtp_mtu = m ∧
      (proxyRun version csp_id_strip (zmq_proxy_lossy_start rule m o packet) events).1.tracker.dtp_overhead =
        o := by
  apply Transducer.run_invariant (fun p : Proxy => p.tracker.dtp_mtu = m ∧ p.tracker.dtp_overhead = o)
  · intro p e hp
    obtain ⟨hmtu, hoverhead⟩ := step_geometry version csp_id_strip p e
    exact ⟨hmtu.trans hp.1, hoverhead.trans hp.2⟩
  · exact ⟨rfl, rfl⟩

theorem proxyIndexes_iff : ProxyIndexes mtu overhead m o ↔ Indexes mtu overhead m o := by
  have hframes (version : Int) (csp_id_strip : ProxyPacket → Option ProxyPacket) (rule : CiDropRule)
      (packet : ProxyPacket) (events : List ProxyEvent) {f : CiFrame} (hf : f.is_rdp = false) :
      let p := (proxyRun version csp_id_strip (zmq_proxy_lossy_start rule m o packet) events).1
      (∀ data, CI_DTP_OFFSET_SIZE ≤ data.length →
        FrameIndexed mtu overhead p.g_dtp_mtu p.g_dtp_overhead data (proxy_flow_index p data f).2.toNat) ↔
        Indexes mtu overhead m o := by
    intro p
    obtain ⟨hmtu, hoverhead⟩ := proxyRun_geometry version csp_id_strip rule m o packet events
    have hm : p.g_dtp_mtu = m := hmtu
    have ho : p.g_dtp_overhead = o := hoverhead
    rw [hm, ho]
    apply frames_indexed_iff
    intro data off hoff
    rw [proxy_flow_index_eq, ci_flow_index_of_dtp hf hoff, hmtu, hoverhead]
  constructor
  · intro hproxy
    exact (hframes 2 (fun _ => none) dropAllRule ⟨droppedCall.packet.id, 0, 0, []⟩ [] (f := ⟨8, 0, false, 0⟩)
      rfl).1 fun data => hproxy _ _ _ _ _ _ data rfl
  · intro hindexes version csp_id_strip rule packet events f data hf
    exact (hframes version csp_id_strip rule packet events hf).2 hindexes data

theorem bridgeIndexes_iff : BridgeIndexes mtu overhead m o ↔ Indexes mtu overhead m o := by
  have hframes {shim : CiDropIface} (hshim : shim.tracker = ci_flow_tracker_init_ovh m o)
      (calls : List NexthopCall) {f : CiFrame} (hf : f.is_rdp = false) :
      let t := (shimRun shim calls).1.tracker
      (∀ data, CI_DTP_OFFSET_SIZE ≤ data.length →
        FrameIndexed mtu overhead t.dtp_mtu t.dtp_overhead data (ci_flow_index t f data).2.toNat) ↔
        Indexes mtu overhead m o := by
    intro t
    obtain ⟨hmtu, hoverhead⟩ := shimRun_geometry shim calls
    have hm : t.dtp_mtu = m := hmtu.trans (by rw [hshim]; rfl)
    have ho : t.dtp_overhead = o := hoverhead.trans (by rw [hshim]; rfl)
    rw [hm, ho]
    apply frames_indexed_iff
    intro data off hoff
    rw [ci_flow_index_of_dtp hf hoff, hm, ho]
  constructor
  · intro hbridge
    have htracker : (ci_inject_bridge_shim dropAllRule m o).tracker = ci_flow_tracker_init_ovh m o := rfl
    exact (hframes htracker [] (f := ⟨8, 0, false, 0⟩) rfl).1 fun data => hbridge _ _ _ data htracker rfl
  · intro hindexes shim calls f data hshim hf
    exact (hframes hshim calls hf).2 hindexes data

theorem monitorIndexes_iff : MonitorIndexes mtu overhead m o ↔ Indexes mtu overhead m o := by
  -- the index the row has
  let given (data : List UInt8) : UInt32 :=
    ((ci_dtp_parse_offset data).bind fun off => ci_dtp_fragment_index_ovh off m o).getD 0
  have hframes : (∀ data, CI_DTP_OFFSET_SIZE ≤ data.length → FrameIndexed mtu overhead m o data (given data).toNat) ↔
      Indexes mtu overhead m o := by
    apply frames_indexed_iff
    intro data off hoff
    simp only [given, hoff, Option.bind_some]
  rw [← hframes]
  constructor
  · intro hmonitor data hlength
    let pk : CspPacket := { id := droppedCall.packet.id, data }
    let cfg : MonConfig :=
      { mon_match_dport := 8, mon_window_ms := 1000, mon_mtu := m, mon_dtp_overhead := o,
        mon_buffer_low_water := 100 }
    obtain ⟨off, frag, hoff, hrow, hindexed⟩ := hmonitor cfg (csp_monitor_start 0 0) 0 pk rfl rfl hlength
    have hfrag : frag = given data := by
      have hlast := List.append_cancel_left hrow
      simp only [List.cons.injEq, CsvRow.dtp.injEq, and_true, true_and] at hlast
      exact hlast.2.symm
    rw [← hfrag]
    exact hindexed
  · intro hgiven cfg st t pk hmtu hoverhead hlength
    obtain ⟨off, hoff⟩ := ci_dtp_parse_offset_isSome hlength
    refine ⟨off, given pk.data, hoff, ?_, ?_⟩
    · unfold drain_dtp
      simp only [hoff, hmtu, hoverhead, given, Option.getD_some]
    · rw [hmtu, hoverhead]
      exact hgiven pk.data hlength

/-- For each front end, arguments that its guard accepts index every data frame right, after any
    frames, exactly when the casts cut the same multiple of `2^16` off both. Given the same
    integers the three work with the same geometry, right or wrong. -/
theorem overhead_guard_indexes_iff (m o : UInt16) :
    (∀ mtu_arg overhead_arg, zmq_proxy_lossy_geometry mtu_arg overhead_arg = some (m, o) →
        (ProxyIndexes mtu_arg.toInt overhead_arg.toInt m o ↔
          mtu_arg.toInt / 65536 = overhead_arg.toInt / 65536)) ∧
      (∀ mtu overhead, csp_monitor_start_cmd_geometry mtu overhead = some (m, o) →
        (MonitorIndexes mtu.toNat overhead.toNat m o ↔
          (mtu.toNat : ℤ) / 65536 = (overhead.toNat : ℤ) / 65536)) ∧
      (∀ mtu overhead, ci_inject_bridge_geometry mtu overhead = some (m, o) →
        (BridgeIndexes mtu.toInt overhead.toInt m o ↔ mtu.toInt / 65536 = overhead.toInt / 65536)) ∧
      ∀ (mtu_arg overhead_arg : Int32) (mtu overhead : UInt32), mtu_arg.toInt = mtu.toNat →
        overhead_arg.toInt = overhead.toNat →
        zmq_proxy_lossy_geometry mtu_arg overhead_arg = csp_monitor_start_cmd_geometry mtu overhead ∧
          ci_inject_bridge_geometry mtu_arg overhead_arg = csp_monitor_start_cmd_geometry mtu overhead := by
  refine ⟨fun _ _ hguard => ?_, fun _ _ hguard => ?_, fun _ _ hguard => ?_,
    fun mtu_arg overhead_arg mtu overhead hmtu hoverhead => ?_⟩
  · exact proxyIndexes_iff.trans (indexes_iff hguard)
  · exact monitorIndexes_iff.trans (indexes_iff hguard)
  · exact bridgeIndexes_iff.trans (indexes_iff hguard)
  · unfold zmq_proxy_lossy_geometry ci_inject_bridge_geometry csp_monitor_start_cmd_geometry
    rw [hmtu, hoverhead]
    exact ⟨rfl, rfl⟩

/-- All three front ends take an MTU of 200 with the overhead 4 of DTP, and index every frame right. -/
theorem overhead_guard_indexes_iff_dtp :
    ProxyIndexes 200 4 200 4 ∧ MonitorIndexes 200 4 200 4 ∧ BridgeIndexes 200 4 200 4 := by
  obtain ⟨hproxy, hmonitor, hbridge, -⟩ := overhead_guard_indexes_iff 200 4
  refine ⟨?_, ?_, ?_⟩
  · apply (hproxy 200 4 rfl).mpr
    rfl
  · apply (hmonitor 200 4 rfl).mpr
    rfl
  · apply (hbridge 200 4 rfl).mpr
    rfl

/-- An MTU of 65736 passes the guard of the proxy and is 200 behind it: the second fragment
    starts at 196. An MTU of 65540 with an overhead of 8 leaves no payload behind the guard. -/
theorem overhead_guard_accepts_misindex :
    zmq_proxy_lossy_geometry 65736 4 = some (200, 4) ∧ ci_dtp_fragment_index_ovh 196 200 4 = some 1 ∧
      (196 : ℤ) / (65736 - 4) = 0 ∧ ¬ ProxyIndexes 65736 4 200 4 ∧
      zmq_proxy_lossy_geometry 65540 8 = some (4, 8) ∧ ci_dtp_fragment_index_ovh 196 4 8 = none := by
  refine ⟨rfl, rfl, rfl, fun hproxy => ?_, rfl, rfl⟩
  have hguard : overhead_guard 65736 4 = some (200, 4) := rfl
  have hupper := (indexes_iff hguard).1 (proxyIndexes_iff.1 hproxy)
  exact absurd hupper (by decide)

end FrontEnds

end csp_intercept.ci_dtp
