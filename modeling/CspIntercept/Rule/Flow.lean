import CspIntercept.Rule.Decide
import CspIntercept.Lib.Transducer

open csp_intercept.ci_rdp csp_intercept.ci_dtp

namespace csp_intercept.ci_rule

/-- The per-flow key of an RDP packet: its number lifted by the wrap epoch. -/
def ci_flow_index_rdp (epoch : UInt32) (rdp_seq : UInt16) : UInt64 :=
  epoch.toUInt64 <<< 16 ||| rdp_seq.toUInt64

/-- Forward progress whose raw value went down. -/
def ci_rdp_seq_is_wrap (prev_seq new_seq : UInt16) : Bool :=
  let fwd := new_seq - prev_seq
  fwd < 0x8000 && new_seq < prev_seq

/-- Wrap epoch and DTP geometry of one flow. -/
structure CiFlowTracker where
  last_seq : UInt16
  have_last_seq : Bool
  epoch : UInt32
  dtp_mtu : UInt16
  dtp_overhead : UInt16
deriving DecidableEq, Repr

def ci_flow_tracker_init_ovh (dtp_mtu dtp_overhead : UInt16) : CiFlowTracker :=
  { last_seq := 0, have_last_seq := false, epoch := 0, dtp_mtu, dtp_overhead }

def ci_flow_tracker_init (dtp_mtu : UInt16) : CiFlowTracker :=
  ci_flow_tracker_init_ovh dtp_mtu CI_DTP_OVERHEAD_DIPP

/-- The drop key of a parsed frame. A trailer or an offset that does not parse
    gives index 0 and leaves the epoch alone. -/
def ci_flow_index (t : CiFlowTracker) (f : CiFrame) (data : List UInt8) : CiFlowTracker × UInt64 :=
  if f.is_rdp then
    match ci_rdp_parse_trailer data with
    | some h =>
      let epoch := if t.have_last_seq && ci_rdp_seq_is_wrap t.last_seq h.seq then t.epoch + 1 else t.epoch
      ({ t with epoch, last_seq := h.seq, have_last_seq := true }, ci_flow_index_rdp epoch h.seq)
    | none => (t, 0)
  else
    match ci_dtp_parse_offset data with
    | some off => (t, ((ci_dtp_fragment_index_ovh off t.dtp_mtu t.dtp_overhead).getD 0).toUInt64)
    | none => (t, 0)

/-- The key of an epoch and a number is their mixed-radix value. -/
theorem ci_flow_index_rdp_toNat (epoch : UInt32) (seq : UInt16) :
    (ci_flow_index_rdp epoch seq).toNat = epoch.toNat * 65536 + seq.toNat := by
  have hepoch := epoch.toNat_lt
  have hseq := seq.toNat_lt
  have hshift : epoch.toNat <<< 16 % 18446744073709551616 = epoch.toNat <<< 16 := by
    rw [Nat.shiftLeft_eq]
    omega
  simp only [ci_flow_index_rdp, UInt64.toNat_or, UInt64.toNat_shiftLeft, UInt32.toNat_toUInt64,
    UInt16.toNat_toUInt64]
  simp only [UInt64.reduceToNat, Nat.reduceMod, Nat.reducePow, hshift]
  rw [← Nat.shiftLeft_add_eq_or_of_lt (by omega), Nat.shiftLeft_eq]

/-- Wrap detection in terms of the numbers: the modular step is below half the
    space and the raw value fell. -/
theorem ci_rdp_seq_is_wrap_iff (prev_seq new_seq : UInt16) :
    ci_rdp_seq_is_wrap prev_seq new_seq = true ↔
      (65536 - prev_seq.toNat + new_seq.toNat) % 65536 < 32768 ∧ new_seq.toNat < prev_seq.toNat := by
  have hprev := prev_seq.toNat_lt
  simp only [ci_rdp_seq_is_wrap, Bool.and_eq_true, decide_eq_true_eq, UInt16.lt_iff_toNat_lt,
    UInt16.toNat_sub]
  simp only [UInt16.reduceToNat, Nat.reducePow]

/-- On an RDP frame with a trailer the tracker remembers the number and bumps the
    epoch exactly on a detected wrap. -/
theorem ci_flow_index_of_rdp {t : CiFlowTracker} {f : CiFrame} {data : List UInt8}
    {h : CiRdpHeader} (hrdp : f.is_rdp = true) (hparse : ci_rdp_parse_trailer data = some h) :
    ci_flow_index t f data =
      let epoch := if t.have_last_seq && ci_rdp_seq_is_wrap t.last_seq h.seq then t.epoch + 1 else t.epoch
      ({ t with epoch, last_seq := h.seq, have_last_seq := true }, ci_flow_index_rdp epoch h.seq) := by
  simp [ci_flow_index, hrdp, hparse]

end csp_intercept.ci_rule
