import Mathlib.Data.List.Range

namespace csp_intercept.ci_meas

def CI_RTT_RING : ℕ := 256

/-- The last `CI_RTT_RING` data packets; `head` counts them and selects the slot. -/
structure CiRttPairing where
  seq : Vector UInt16 CI_RTT_RING
  t_ms : Vector UInt32 CI_RTT_RING
  valid : Vector UInt8 CI_RTT_RING
  head : UInt32

/-- `head % CI_RTT_RING`. -/
def rtt_slot (head : UInt32) : Fin CI_RTT_RING :=
  ⟨head.toNat % CI_RTT_RING, Nat.mod_lt _ (by decide)⟩

def ci_rtt_init : CiRttPairing where
  seq := Vector.replicate CI_RTT_RING 0
  t_ms := Vector.replicate CI_RTT_RING 0
  valid := Vector.replicate CI_RTT_RING 0
  head := 0

def ci_rtt_on_data (p : CiRttPairing) (seq : UInt16) (t_ms : UInt32) : CiRttPairing :=
  let i := rtt_slot p.head
  { seq := p.seq.set i seq
    t_ms := p.t_ms.set i t_ms
    valid := p.valid.set i 1
    head := p.head + 1 }

/-- Search newest first for the packet an acknowledgement names, and consume it. -/
def ci_rtt_on_ack (p : CiRttPairing) (ack_nr : UInt16) (t_ms : UInt32) : CiRttPairing × Option UInt32 :=
  let slot (k : ℕ) := rtt_slot (p.head - 1 - UInt32.ofNat k)
  match (List.range CI_RTT_RING).find? fun k => p.valid[slot k] != 0 && p.seq[slot k] == ack_nr with
  | some k => ({ p with valid := p.valid.set (slot k) 0 }, some (t_ms - p.t_ms[slot k]))
  | none => (p, none)

end csp_intercept.ci_meas
