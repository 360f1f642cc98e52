import Mathlib.Algebra.Order.Ring.Int

namespace csp_intercept.ci_meas

def CI_SUSPECT_CONN_OVF : UInt32 := 0x01
def CI_SUSPECT_BUFFER_OUT : UInt32 := 0x02
def CI_SUSPECT_BUFFER_LOW : UInt32 := 0x04

/-- Set by the monitor when the loss estimate of the window is rejected. -/
def CI_SUSPECT_SPARSE_SEQ : UInt32 := 0x08

/-- What the instrument itself lost in a window, and how full the buffer pool is. -/
structure CiWindowHealth where
  conn_ovf_delta : UInt8
  buffer_out_delta : UInt8
  buffer_remaining : ℤ
  buffer_low_water : ℤ
deriving DecidableEq, Repr

/-- Wraps modulo 256, as the counters do. -/
def ci_u8_delta (prev cur : UInt8) : UInt8 := cur - prev

/-- Whether the window is suspect, and the flags that say why. -/
def ci_measurement_suspect (h : CiWindowHealth) : Bool × UInt32 :=
  let f : UInt32 := 0
  let f := if h.conn_ovf_delta > 0 then f ||| CI_SUSPECT_CONN_OVF else f
  let f := if h.buffer_out_delta > 0 then f ||| CI_SUSPECT_BUFFER_OUT else f
  let f := if h.buffer_remaining < h.buffer_low_water then f ||| CI_SUSPECT_BUFFER_LOW else f
  (f != 0, f)

/-- A window is suspect when the queue overflowed, the pool ran out or it runs low. -/
theorem ci_measurement_suspect_iff (h : CiWindowHealth) : (ci_measurement_suspect h).1 = true ↔
    0 < h.conn_ovf_delta ∨ 0 < h.buffer_out_delta ∨ h.buffer_remaining < h.buffer_low_water := by
  simp only [ci_measurement_suspect, gt_iff_lt]
  by_cases hovf : 0 < h.conn_ovf_delta <;> by_cases hout : 0 < h.buffer_out_delta <;>
    by_cases hlow : h.buffer_remaining < h.buffer_low_water <;>
    simp only [hovf, hout, hlow, if_true, if_false, true_or, or_true, or_self, iff_true, iff_false] <;> decide

end csp_intercept.ci_meas
