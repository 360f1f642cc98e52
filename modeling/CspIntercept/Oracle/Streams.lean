import CspIntercept.Oracle.Bench
import CspIntercept.Proxy.Interchange
import CspIntercept.Rule.Epoch

open csp_intercept.ci_rdp csp_intercept.ci_dtp csp_intercept.ci_rule csp_intercept.ci_drop_iface

namespace csp_intercept.ci_gen

/-- Frame `i` of the generator: an RDP frame with its number. -/
def packet (dport : Int32) (i : ℕ) : CspPacket :=
  let seq := UInt16.ofNat i
  { id := { pri := 2, flags := CI_CSP_FRDP, src := 10, dst := 20, dport := UInt16.ofInt dport.toInt, sport := 40 }
    data := [0xDE, 0xAD, 0xBE, CI_RDP_ACK, (seq >>> 8).toUInt8, (seq &&& 0xFF).toUInt8, 0, 0] }

theorem is_rdp_packet (dport : Int32) (i : ℕ) : csp_monitor_apm.is_rdp (packet dport i) = true := by
  have hflag : CI_CSP_FRDP &&& CI_CSP_FRDP ≠ 0 := by decide
  exact ci_frame_from_fields_is_rdp _ hflag

theorem trailer_packet (dport : Int32) (i : ℕ) :
    ci_rdp_parse_trailer (packet dport i).data = some { flags := 4, seq := UInt16.ofNat i, ack := 0 } := by
  have hlow : (UInt16.ofNat i &&& 0xFF).toUInt8 = (UInt16.ofNat i).toUInt8 := by
    apply UInt8.toNat_inj.mp
    rw [UInt16.toNat_toUInt8, UInt16.toNat_toUInt8, UInt16.toNat_and]
    exact (congrArg (· % 256) (Nat.and_two_pow_sub_one_eq_mod (UInt16.ofNat i).toNat 8)).trans (Nat.mod_mod _ _)
  have hparse := ci_rdp_parse_trailer_append [0xDE, 0xAD, 0xBE] CI_RDP_ACK (UInt16.ofNat i >>> 8).toUInt8
    (UInt16.ofNat i &&& 0xFF).toUInt8 0 0
  rw [hlow, be16_bytes, ← hlow] at hparse
  exact hparse

end csp_intercept.ci_gen

namespace csp_intercept.ci_gen_dtp

/-- Frame `i` of the generator: a data frame at its byte offset. -/
def packet (mtu overhead : Int32) (i : ℕ) : CspPacket :=
  let step := UInt32.ofInt (mtu.toInt - overhead.toInt)
  let off := UInt32.ofNat i * step
  { id := { pri := 2, flags := 0, src := 10, dst := 20, dport := CI_DTP_DATA_PORT, sport := 40 }
    data :=
      [(off &&& 0xFF).toUInt8, ((off >>> 8) &&& 0xFF).toUInt8, ((off >>> 16) &&& 0xFF).toUInt8,
        ((off >>> 24) &&& 0xFF).toUInt8, 0xDE, 0xAD, 0xBE, 0xEF] }

theorem is_rdp_packet (mtu overhead : Int32) (i : ℕ) : csp_monitor_apm.is_rdp (packet mtu overhead i) = false := by
  simp [csp_monitor_apm.is_rdp, ci_frame_from_fields, packet]

end csp_intercept.ci_gen_dtp

namespace csp_intercept.ci_rule

/-- In a stream that only goes forward, without a jump of 32768 numbers or more over a multiple of 65536,
    every key is the position. The induction carries the last position. -/
theorem flow_keys_in_order {p : ℕ} {t : CiFlowTracker} {ps : List ℕ} {frames : List FlowFrame}
    (ht : AtPosition p t) (hcarry : List.Forall₂ CarriesPosition ps frames)
    (hrising : (p :: ps).Pairwise (· < ·)) (hsteps : (p :: ps).IsChain KeepsEpoch) (hlt : ∀ q ∈ ps, q < 2 ^ 48) :
    (flow_keys t frames).map UInt64.toNat = ps := by
  induction hcarry generalizing p t with
  | nil => rfl
  | @cons q frame ps frames hq _ ih =>
    obtain ⟨hfirst, hlaterrise⟩ := List.pairwise_cons.mp hrising
    obtain ⟨hkeeps, hrest⟩ := List.isChain_cons_cons.mp hsteps
    have hle := hfirst q List.mem_cons_self
    obtain ⟨hfits, hlater⟩ := List.forall_mem_cons.mp hlt
    have hnear : q < p + 65536 := by
      rcases hkeeps with hsame | ⟨-, hclose⟩ <;> omega
    have hkey := (ci_flow_index_next_eq_iff hq ht (by omega) hnear).mpr ⟨hkeeps, hfits⟩
    have htail := ih (ci_flow_index_next_at hq ht hkey) hlaterrise hrest hlater
    rw [flow_keys, Transducer.run_cons_outputs, List.map_cons, hkey]
    exact congrArg (q :: ·) htail

end csp_intercept.ci_rule

namespace csp_intercept.zmqproxy

variable {version : Int} {csp_id_strip : ProxyPacket → Option ProxyPacket} {p : Proxy}

/-- A frame and its payload as the tracker gets them. -/
def flow_frame (c : NexthopCall) : FlowFrame := (c.frame, c.packet.data)

/-- What the proxy does to frames in its scope rests on their keys: the log has one row under each key, and
    the frame is dropped or sent as the key says. -/
theorem proxyRun_keys (hdport : 0 ≤ p.g_rule.match_dport) {calls : List NexthopCall} {events : List ProxyEvent}
    (hframes : List.Forall₂ (SameFrame version csp_id_strip) calls events)
    (hscope : ∀ c ∈ calls, inScope p.g_rule c = true) {keys : List UInt64}
    (hkeys : flow_keys p.tracker (calls.map flow_frame) = keys) :
    (proxyRun version csp_id_strip p events).1.g_drop_log.map (·.map DropLogRow.entry) =
        p.g_drop_log.map (fun log => log.map DropLogRow.entry ++
          keys.map fun key => (key.toNat, ci_rule_decide p.g_rule key)) ∧
      (proxyRun version csp_id_strip p events).2 =
        List.zipWith (fun key e => if ci_rule_decide p.g_rule key then .dropped else .sent e.msg) keys events := by
  subst hkeys
  induction hframes generalizing p with
  | nil =>
    refine ⟨?_, rfl⟩
    rw [proxyRun, Transducer.run_nil]
    cases p.g_drop_log with
    | none => rfl
    | some log => exact congrArg some (List.append_nil _).symm
  | @cons c e calls events hc _ ih =>
    obtain ⟨hin, hlater⟩ := List.forall_mem_cons.mp hscope
    obtain ⟨packet, hstep⟩ := step_of_in_scope hc hdport hin rfl
    have hnext := ih (p := (zmq_proxy_lossy_step version csp_id_strip p e).1)
      (by rw [hstep]; exact hdport) (by rw [hstep]; exact hlater)
    obtain ⟨hlog, houtcomes⟩ := hnext
    have htracker : (zmq_proxy_lossy_step version csp_id_strip p e).1.tracker =
        (ci_flow_index p.tracker c.frame c.packet.data).1 := by
      rw [hstep]
      rfl
    have hrule : (zmq_proxy_lossy_step version csp_id_strip p e).1.g_rule = p.g_rule := by
      rw [hstep]
      rfl
    rw [htracker, hrule] at hlog houtcomes
    rw [List.map_cons, flow_keys, Transducer.run_cons_outputs, proxyRun, Transducer.run_cons_state,
      Transducer.run_cons_outputs]
    refine ⟨?_, ?_⟩
    · rw [proxyRun] at hlog
      rw [hlog, hstep]
      cases p.g_drop_log with
      | none => rfl
      | some log => simp [DropLogRow.entry, logRow, flow_keys, flow_frame]
    · rw [proxyRun] at houtcomes
      rw [houtcomes, hstep]
      rfl

end csp_intercept.zmqproxy

namespace csp_intercept.oracle

open csp_intercept.zmqproxy

/-- A packet as the parsers hand it on. -/
def carried (pk : CspPacket) : NexthopCall where
  via := 0
  packet := pk
  from_me := false
  now := 0
  target_rc := 0

/-- A stream of a generator: the numbers of the frames that get to the proxy, which are in their order and
    may be any, and the wire messages that carry them. -/
structure StreamRun (version : Int) (csp_id_strip : ProxyPacket → Option ProxyPacket) (gen : ℕ → CspPacket)
    (count : ℕ) (reached : List ℕ) (events : List ProxyEvent) : Prop where
  in_order : reached.Sublist (List.range count)
  frames : List.Forall₂ (fun i e => SameFrame version csp_id_strip (carried (gen i)) e) reached events

/-- The tracker gives each frame its number. -/
def Numbered (gen : ℕ → CspPacket) (t : CiFlowTracker) (reached : List ℕ) : Prop :=
  (flow_keys t (reached.map fun i => flow_frame (carried (gen i)))).map UInt64.toNat = reached

section Run

variable {version : Int} {csp_id_strip : ProxyPacket → Option ProxyPacket} {gen : ℕ → CspPacket} {count : ℕ}
  {reached : List ℕ} {events : List ProxyEvent} {rule : CiDropRule} {mtu overhead : UInt16}

/-- The drop log of a stream whose frames are all in scope, and what becomes of them. -/
theorem StreamRun.log (h : StreamRun version csp_id_strip gen count reached events) (hdport : 0 ≤ rule.match_dport)
    (hscope : ∀ i, inScope rule (carried (gen i)) = true)
    (hnumbered : Numbered gen (ci_flow_tracker_init_ovh mtu overhead) reached) (packet : ProxyPacket) :
    (∃ rows, (proxyRun version csp_id_strip (zmq_proxy_lossy_start rule mtu overhead packet) events).1.g_drop_log =
        some rows ∧
      rows.map DropLogRow.entry = reached.map fun i => (i, ci_rule_decide rule (UInt64.ofNat i))) ∧
    (proxyRun version csp_id_strip (zmq_proxy_lossy_start rule mtu overhead packet) events).2 =
      List.zipWith (fun i e => if ci_rule_decide rule (UInt64.ofNat i) then .dropped else .sent e.msg)
        reached events := by
  have hframes : List.Forall₂ (SameFrame version csp_id_strip) (reached.map fun i => carried (gen i)) events :=
    List.forall₂_map_left_iff.mpr h.frames
  have hall : ∀ c ∈ reached.map (fun i => carried (gen i)), inScope rule c = true := by
    intro c hc
    obtain ⟨i, -, rfl⟩ := List.mem_map.mp hc
    exact hscope i
  obtain ⟨hlog, houtcomes⟩ := proxyRun_keys (p := zmq_proxy_lossy_start rule mtu overhead packet) hdport hframes hall rfl
  rw [List.map_map] at hlog houtcomes
  unfold Numbered at hnumbered
  generalize hkeys : flow_keys (ci_flow_tracker_init_ovh mtu overhead)
    (reached.map fun i => flow_frame (carried (gen i))) = keys at hnumbered
  have hlogkeys : flow_keys (zmq_proxy_lossy_start rule mtu overhead packet).tracker
      (reached.map (flow_frame ∘ fun i => carried (gen i))) = keys := hkeys
  rw [hlogkeys] at hlog houtcomes
  subst hnumbered
  refine ⟨?_, ?_⟩
  · obtain ⟨rows, hrows, hentries⟩ := Option.map_eq_some_iff.mp hlog
    refine ⟨rows, hrows, hentries.trans ?_⟩
    simp [zmq_proxy_lossy_start, Function.comp_def]
  · rw [houtcomes, List.zipWith_map_left]
    simp only [UInt64.ofNat_toNat]
    rfl

end Run

section Generators

variable {count : ℕ} {reached : List ℕ}

theorem carriesPosition_packet (dport : Int32) (i : ℕ) :
    CarriesPosition i (flow_frame (carried (ci_gen.packet dport i))) :=
  ⟨ci_gen.is_rdp_packet dport i, _, ci_gen.trailer_packet dport i, rfl⟩

/-- The numbered frames that get through have their numbers for keys, if the first of them is one of the
    first 65536 and fewer than 32767 in a row are missing wherever the number wraps. -/
theorem numbered_ci_gen (dport : Int32) (mtu overhead : UInt16) (horder : reached.Sublist (List.range count))
    (hcount : count ≤ 2147483648) (hfirst : ∀ p ∈ reached.head?, p < 65536) (hsteps : reached.IsChain KeepsEpoch) :
    Numbered (ci_gen.packet dport) (ci_flow_tracker_init_ovh mtu overhead) reached := by
  have hlt : ∀ i ∈ reached, i < 2 ^ 48 := by
    intro i hi
    have hrange := List.mem_range.mp (horder.subset hi)
    omega
  have hrising := List.pairwise_lt_range.sublist horder
  have hcarry : List.Forall₂ CarriesPosition reached
      (reached.map fun i => flow_frame (carried (ci_gen.packet dport i))) := by
    rw [List.forall₂_map_right_iff]
    exact List.forall₂_same.mpr fun i _ => carriesPosition_packet dport i
  cases reached with
  | nil => rfl
  | cons p ps =>
    obtain ⟨hp, hrest⟩ := List.forall₂_cons.mp hcarry
    obtain ⟨hkey, hat⟩ := ci_flow_index_first (t := ci_flow_tracker_init_ovh mtu overhead) hp
      (hfirst p rfl) rfl rfl
    have htail := flow_keys_in_order hat hrest hrising hsteps fun q hq => hlt q (List.mem_cons_of_mem p hq)
    rw [Numbered, List.map_cons, flow_keys, Transducer.run_cons_outputs, List.map_cons, hkey]
    exact congrArg (p :: ·) htail

/-- The keys of frames without the RDP bit are their fragments. -/
theorem flow_keys_data {t : CiFlowTracker} {frames : List FlowFrame} (hdata : ∀ f ∈ frames, f.1.is_rdp = false) :
    flow_keys t frames = frames.map fun f => (dataFrag t.dtp_mtu t.dtp_overhead f.2).toUInt64 := by
  induction frames generalizing t with
  | nil => rfl
  | cons f frames ih =>
    obtain ⟨hf, hrest⟩ := List.forall_mem_cons.mp hdata
    have hkey : ci_flow_index t f.1 f.2 = (t, (dataFrag t.dtp_mtu t.dtp_overhead f.2).toUInt64) := by
      rw [ci_flow_index, hf, if_neg Bool.false_ne_true, dataFrag]
      cases ci_dtp_parse_offset f.2 <;> rfl
    rw [flow_keys, Transducer.run_cons_outputs, hkey, List.map_cons]
    exact congrArg (_ :: ·) (ih hrest)

/-- A geometry in which the generator's offsets do not wrap. -/
structure Geometry (mtu overhead : Int32) (count : ℕ) : Prop where
  offset_fits : 4 ≤ overhead.toInt
  payload : overhead.toInt < mtu.toInt
  mtu_fits : mtu.toInt < 65536
  offsets : count * (mtu.toInt.toNat - overhead.toInt.toNat) ≤ 4294967296

/-- Data frame `i` has fragment `i`. -/
theorem Geometry.dataFrag_packet {mtu overhead : Int32} (h : Geometry mtu overhead count) {i : ℕ} (hi : i < count) :
    (dataFrag (UInt16.ofInt mtu.toInt) (UInt16.ofInt overhead.toInt) (ci_gen_dtp.packet mtu overhead i).data).toNat =
      i := by
  obtain ⟨hlow, hpay, hhigh, hoffsets⟩ := h
  have hsmall (n : ℤ) (hlow : 0 ≤ n) (hhigh : n < 65536) : (UInt16.ofInt n).toNat = n.toNat := by
    rw [UInt16.ofInt, UInt16.toNat_ofNat']
    omega
  have hmtu := hsmall mtu.toInt (by omega) hhigh
  have hoverhead := hsmall overhead.toInt (by omega) (by omega)
  have hstep : (UInt32.ofInt (mtu.toInt - overhead.toInt)).toNat = mtu.toInt.toNat - overhead.toInt.toNat := by
    rw [UInt32.ofInt, UInt32.toNat_ofNat']
    omega
  have hproduct : i * (mtu.toInt.toNat - overhead.toInt.toNat) < 4294967296 := by
    have hlt : i * (mtu.toInt.toNat - overhead.toInt.toNat) < count * (mtu.toInt.toNat - overhead.toInt.toNat) :=
      Nat.mul_lt_mul_of_pos_right hi (by omega)
    omega
  have hoff : (UInt32.ofNat i * UInt32.ofInt (mtu.toInt - overhead.toInt)).toNat =
      i * (mtu.toInt.toNat - overhead.toInt.toNat) := by
    rw [UInt32.toNat_mul, hstep, UInt32.toNat_ofNat', Nat.mod_mul_mod]
    exact Nat.mod_eq_of_lt hproduct
  have hgeometry : (UInt16.ofInt overhead.toInt).toNat < (UInt16.ofInt mtu.toInt).toNat := by
    rw [hmtu, hoverhead]
    omega
  obtain ⟨index, hindex⟩ := Option.isSome_iff_exists.mp (ci_dtp_fragment_index_ovh_isSome
    (UInt32.ofNat i * UInt32.ofInt (mtu.toInt - overhead.toInt)) hgeometry)
  have hvalue := (toNat_ci_dtp_fragment_index_ovh hindex).2
  have hdata : (ci_gen_dtp.packet mtu overhead i).data =
      svu_proto.svu_put32 (UInt32.ofNat i * UInt32.ofInt (mtu.toInt - overhead.toInt)) ++ [0xDE, 0xAD, 0xBE, 0xEF] := rfl
  rw [hdata, dataFrag, ci_dtp_parse_offset_put32, Option.bind_some]
  change ((ci_dtp_fragment_index_ovh _ (UInt16.ofInt mtu.toInt) (UInt16.ofInt overhead.toInt)).getD 0).toNat = i
  rw [hindex, Option.getD_some, hvalue, hoff, hmtu, hoverhead]
  exact Nat.mul_div_cancel i (show 0 < mtu.toInt.toNat - overhead.toInt.toNat by omega)

theorem numbered_ci_gen_dtp {mtu overhead : Int32} (h : Geometry mtu overhead count)
    (horder : reached.Sublist (List.range count)) :
    Numbered (ci_gen_dtp.packet mtu overhead)
      (ci_flow_tracker_init_ovh (UInt16.ofInt mtu.toInt) (UInt16.ofInt overhead.toInt)) reached := by
  rw [Numbered, flow_keys_data (List.forall_mem_map.mpr fun i _ => ci_gen_dtp.is_rdp_packet mtu overhead i), List.map_map, List.map_map]
  refine (List.map_congr_left fun i hi => ?_).trans (List.map_id reached)
  have hfrag := h.dataFrag_packet (List.mem_range.mp (horder.subset hi))
  exact (UInt32.toNat_toUInt64 _).trans hfrag

end Generators

end csp_intercept.oracle
