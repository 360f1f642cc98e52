import CspIntercept.Lib.Serial
import CspIntercept.Rule.Flow

open csp_intercept.ci_rdp

namespace csp_intercept.ci_rule

/-- A frame together with its CSP payload, as both injectors hand it to the tracker. -/
abbrev FlowFrame := CiFrame × List UInt8

/-- The keys one tracker computes for a stream of frames. -/
def flow_keys (t : CiFlowTracker) (frames : List FlowFrame) : List UInt64 :=
  (Transducer.run (fun t frame => ci_flow_index t frame.1 frame.2) t frames).2

/-- The frame is an RDP packet whose 16-bit number is the true position `p`
    modulo 65536. -/
def CarriesPosition (p : Nat) (frame : FlowFrame) : Prop :=
  frame.1.is_rdp = true ∧
    ∃ h, ci_rdp_parse_trailer frame.2 = some h ∧ h.seq = UInt16.ofNat p

/-- From the frame before it, a frame neither steps back over a multiple of 65536
    nor passes one by a jump of 32768 or more. -/
def KeepsEpoch (p q : Nat) : Prop :=
  q / 65536 = p / 65536 ∨ (p ≤ q ∧ q < p + 32768)

instance (p q : Nat) : Decidable (KeepsEpoch p q) :=
  inferInstanceAs (Decidable (_ ∨ _))

/-- Every frame's key is its true position, and so is every identity-mode decision
    a function of the position alone. -/
def PacketIntrinsic (ps : List Nat) (keys : List UInt64) : Prop :=
  keys.map UInt64.toNat = ps ∧
    ∀ r, keys.map (ci_rule_decide r) = ps.map (fun p => ci_rule_decide r (UInt64.ofNat p))

/-- Equal keys leave no room for different decisions. -/
theorem packetIntrinsic_iff {ps : List Nat} {keys : List UInt64} :
    PacketIntrinsic ps keys ↔ keys.map UInt64.toNat = ps := by
  refine ⟨fun h => h.1, fun h => ⟨h, fun r => ?_⟩⟩
  subst h
  simp [Function.comp_def]

/-- The tracker after a frame at position `p` whose key was right. -/
structure AtPosition (p : Nat) (t : CiFlowTracker) : Prop where
  have_last_seq : t.have_last_seq = true
  last_seq : t.last_seq = UInt16.ofNat p
  epoch : t.epoch.toNat = p / 65536

/-- The first frame sets the baseline of epoch 0. -/
theorem ci_flow_index_first {p : Nat} {frame : FlowFrame} {t : CiFlowTracker}
    (hcarry : CarriesPosition p frame) (hp : p < 65536) (hfresh : t.have_last_seq = false)
    (hepoch : t.epoch = 0) :
    (ci_flow_index t frame.1 frame.2).2.toNat = p ∧
      AtPosition p (ci_flow_index t frame.1 frame.2).1 := by
  obtain ⟨hrdp, h, hparse, hseq⟩ := hcarry
  rw [ci_flow_index_of_rdp hrdp hparse]
  simp only [hfresh, Bool.false_and, Bool.false_eq_true, if_false, hepoch, ci_flow_index_rdp_toNat, hseq]
  refine ⟨by simp; omega, rfl, rfl, ?_⟩
  simp
  omega

/-- The epoch computed for a frame at `q` after one at `p`, before it wraps at 32 bits. -/
def nextEpoch (p q : Nat) : Nat :=
  p / 65536 + if (65536 - p % 65536 + q % 65536) % 65536 < 32768 ∧ q % 65536 < p % 65536 then 1 else 0

/-- One step from a right key: the next key is the epoch of the step above the
    16-bit number, and the tracker remembers both. -/
theorem ci_flow_index_next {p q : Nat} {frame : FlowFrame} {t : CiFlowTracker}
    (hcarry : CarriesPosition q frame) (ht : AtPosition p t) :
    (ci_flow_index t frame.1 frame.2).2.toNat = nextEpoch p q % 4294967296 * 65536 + q % 65536 ∧
      (ci_flow_index t frame.1 frame.2).1.have_last_seq = true ∧
      (ci_flow_index t frame.1 frame.2).1.last_seq = UInt16.ofNat q ∧
      (ci_flow_index t frame.1 frame.2).1.epoch.toNat = nextEpoch p q % 4294967296 := by
  obtain ⟨hrdp, h, hparse, hseq⟩ := hcarry
  rw [ci_flow_index_of_rdp hrdp hparse]
  have hepoch : (if t.have_last_seq && ci_rdp_seq_is_wrap t.last_seq h.seq then t.epoch + 1
      else t.epoch).toNat = nextEpoch p q % 4294967296 := by
    have hwrap := ci_rdp_seq_is_wrap_iff t.last_seq h.seq
    simp only [ht.last_seq, hseq, UInt16.toNat_ofNat'] at hwrap
    have hlt := t.epoch.toNat_lt
    simp only [ht.have_last_seq, Bool.true_and, ht.last_seq, hseq, nextEpoch]
    by_cases hcross : ci_rdp_seq_is_wrap (UInt16.ofNat p) (UInt16.ofNat q) = true
    · rw [if_pos hcross, if_pos (hwrap.mp hcross), UInt32.toNat_add, ht.epoch]
      rfl
    · rw [if_neg hcross, if_neg (fun h => hcross (hwrap.mpr h)), ← ht.epoch]
      omega
  refine ⟨?_, rfl, hseq, hepoch⟩
  rw [ci_flow_index_rdp_toNat, hepoch, hseq]
  simp

/-- The key of a step is right exactly when the step keeps the epoch and the
    position fits above the 32-bit epoch. -/
theorem ci_flow_index_next_eq_iff {p q : Nat} {frame : FlowFrame} {t : CiFlowTracker}
    (hcarry : CarriesPosition q frame) (ht : AtPosition p t)
    (hback : p ≤ q + 32768) (hahead : q < p + 65536) :
    (ci_flow_index t frame.1 frame.2).2.toNat = q ↔ KeepsEpoch p q ∧ q < 2 ^ 48 := by
  obtain ⟨hkey, -⟩ := ci_flow_index_next hcarry ht
  have hstep : q / 65536 = nextEpoch p q ↔ KeepsEpoch p q :=
    Serial.epoch_step_iff (m := 65536) (by omega) hahead
  have hp : p / 65536 < 4294967296 := ht.epoch ▸ t.epoch.toNat_lt
  have hnext : nextEpoch p q ≤ p / 65536 + 1 := by
    unfold nextEpoch
    split <;> omega
  rw [hkey, ← hstep]
  omega

theorem ci_flow_index_next_at {p q : Nat} {frame : FlowFrame} {t : CiFlowTracker}
    (hcarry : CarriesPosition q frame) (ht : AtPosition p t)
    (hkey : (ci_flow_index t frame.1 frame.2).2.toNat = q) :
    AtPosition q (ci_flow_index t frame.1 frame.2).1 := by
  obtain ⟨hvalue, hhave, hlast, hepoch⟩ := ci_flow_index_next hcarry ht
  refine ⟨hhave, hlast, ?_⟩
  omega

/-- From a right key on, all keys are right exactly when every step keeps the
    epoch. The induction carries the last position and the running maximum. -/
theorem flow_keys_after_iff {p top : Nat} {t : CiFlowTracker} {ps : List Nat}
    {frames : List FlowFrame} (ht : AtPosition p t) (hle : p ≤ top) (hback : top < p + 1001)
    (hcarry : List.Forall₂ CarriesPosition ps frames) (hadm : Serial.Within 1001 32768 top ps) :
    (flow_keys t frames).map UInt64.toNat = ps ↔
      List.IsChain KeepsEpoch (p :: ps) ∧ ∀ q ∈ ps, q < 2 ^ 48 := by
  induction hcarry generalizing p top t with
  | nil => simp [flow_keys]
  | @cons q frame ps frames hq _ ih =>
    obtain ⟨hqback, hqahead, hrest⟩ := hadm
    have hkey := ci_flow_index_next_eq_iff hq ht (by omega) (by omega)
    simp only [flow_keys, Transducer.run_cons_outputs, List.map_cons, List.cons.injEq, hkey,
      List.isChain_cons_cons, List.forall_mem_cons]
    constructor
    · rintro ⟨⟨hkeeps, hlt⟩, htail⟩
      have hat := ci_flow_index_next_at hq ht (hkey.mpr ⟨hkeeps, hlt⟩)
      obtain ⟨hchain, hall⟩ := (ih hat (le_max_right top q) (by omega) hrest).mp htail
      exact ⟨⟨hkeeps, hchain⟩, hlt, hall⟩
    · rintro ⟨⟨hkeeps, hchain⟩, hlt, hall⟩
      have hat := ci_flow_index_next_at hq ht (hkey.mpr ⟨hkeeps, hlt⟩)
      exact ⟨⟨hkeeps, hlt⟩, (ih hat (le_max_right top q) (by omega) hrest).mpr ⟨hchain, hall⟩⟩

/-- Over a stream of one flow whose positions stay within the RDP window of the
    running maximum, the drop key is packet-intrinsic exactly when no frame steps
    back over a multiple of 65536 from the frame before it or passes one by a jump
    of 32768 or more, and no position outgrows the 48 bits of the key. -/
theorem flow_keys_packetIntrinsic_iff (dtp_mtu dtp_overhead : UInt16) {p : Nat} {ps : List Nat}
    {frames : List FlowFrame} (hfirst : p < 65536)
    (hcarry : List.Forall₂ CarriesPosition (p :: ps) frames)
    (hadm : Serial.Within 1001 32768 p ps) :
    PacketIntrinsic (p :: ps) (flow_keys (ci_flow_tracker_init_ovh dtp_mtu dtp_overhead) frames) ↔
      List.IsChain KeepsEpoch (p :: ps) ∧ ∀ q ∈ p :: ps, q < 2 ^ 48 := by
  cases hcarry with
  | @cons _ frame _ frames hp hrest =>
    obtain ⟨hkey, hat⟩ := ci_flow_index_first
      (t := ci_flow_tracker_init_ovh dtp_mtu dtp_overhead) hp hfirst rfl rfl
    have htail := flow_keys_after_iff hat le_rfl (by omega) hrest hadm
    rw [packetIntrinsic_iff]
    simp only [flow_keys, Transducer.run_cons_outputs, List.map_cons, List.cons.injEq, hkey, true_and,
      List.forall_mem_cons] at htail ⊢
    rw [htail]
    have hsmall : p < 2 ^ 48 := by omega
    tauto

/-- An RDP frame with no payload at the given 16-bit number. -/
def bareRdpFrame (seq : UInt16) : FlowFrame :=
  let data : List UInt8 := [0x04, (seq >>> 8).toUInt8, seq.toUInt8, 0, 0]
  (ci_frame_from_fields 13 CI_CSP_FRDP data, data)

theorem bareRdpFrame_carries (p : Nat) : CarriesPosition p (bareRdpFrame (UInt16.ofNat p)) :=
  ⟨ci_frame_from_fields_is_rdp _ (by decide), _, ci_rdp_parse_trailer_append [] _ _ _ _ _, be16_bytes _⟩

/-- Numbers 65535, 65536 and a retransmit of 65535: the retransmit is keyed 131071. -/
theorem flow_keys_retransmit_across_wrap :
    Serial.Within 1001 32768 65535 [65536, 65535] ∧
      flow_keys (ci_flow_tracker_init_ovh 200 4) ([65535, 65536, 65535].map fun p =>
        bareRdpFrame (UInt16.ofNat p)) = [65535, 65536, 131071] ∧
      ¬ PacketIntrinsic [65535, 65536, 65535] (flow_keys (ci_flow_tracker_init_ovh 200 4)
        ([65535, 65536, 65535].map fun p => bareRdpFrame (UInt16.ofNat p))) := by
  refine ⟨by decide, by decide, fun h => ?_⟩
  exact absurd h.1 (by decide)

theorem flow_keys_packetIntrinsic_iff_wrap :
    PacketIntrinsic [65535, 65536] (flow_keys (ci_flow_tracker_init_ovh 200 4)
        ([65535, 65536].map fun p => bareRdpFrame (UInt16.ofNat p))) ↔
      List.IsChain KeepsEpoch [65535, 65536] ∧ ∀ q ∈ [65535, 65536], q < 2 ^ 48 :=
  flow_keys_packetIntrinsic_iff 200 4 (by decide)
    (.cons (bareRdpFrame_carries _) (.cons (bareRdpFrame_carries _) .nil)) (by decide)

end csp_intercept.ci_rule
