import CspIntercept.Rule.Wire
import Mathlib.Data.Rat.Floor

open csp_intercept.ci_rdp

namespace csp_intercept.ci_prng

/-- Canonical splitmix64 on machine words. -/
def ci_splitmix64 (x : UInt64) : UInt64 :=
  let x := x + 0x9E3779B97F4A7C15
  let x := (x ^^^ (x >>> 30)) * 0xBF58476D1CE4E5B9
  let x := (x ^^^ (x >>> 27)) * 0x94D049BB133111EB
  x ^^^ (x >>> 31)

/-- One draw for packet `index` under `seed`. -/
def ci_draw (seed index : UInt64) : UInt64 := ci_splitmix64 (seed ^^^ index)

end csp_intercept.ci_prng

open csp_intercept.ci_prng

namespace csp_intercept.ci_rule

/-- A frame's parsed view; `rdp_flags` is 0 when the trailer is absent or short. -/
structure CiFrame where
  dport : UInt16
  csp_flags : UInt8
  is_rdp : Bool
  rdp_flags : UInt8
deriving DecidableEq, Repr

def ci_frame_from_fields (dport : UInt16) (csp_flags : UInt8) (data : List UInt8) : CiFrame :=
  let is_rdp := csp_flags &&& CI_CSP_FRDP != 0
  { dport, csp_flags, is_rdp
    rdp_flags :=
      if is_rdp then
        match ci_rdp_parse_trailer data with
        | some h => h.flags
        | none => 0
      else 0 }

/-- The drop rule. A finite double denotes a dyadic rational, so the probability is
    kept as the rational it denotes. -/
structure CiDropRule where
  seed : UInt64
  match_dport : Int
  match_rdp_syn : Bool
  drop_probability : ℚ
  replay_vector : Option (List UInt8)
  replay_len : Nat

/-- Scope test, not a drop decision. -/
def ci_rule_match (r : CiDropRule) (f : CiFrame) : Bool :=
  if 0 ≤ r.match_dport ∧ f.dport ≠ UInt16.ofInt r.match_dport then
    false
  else if r.match_rdp_syn then
    if !f.is_rdp then false
    else if f.rdp_flags &&& CI_RDP_SYN == 0 then false
    else true
  else
    true

/-- The conversion `(uint64_t)(p * 2^64)`: scaling a double by a power of two is
    exact, and the cast truncates. -/
def ci_threshold (p : ℚ) : UInt64 := UInt64.ofNat (p * 18446744073709551616).floor.toNat

/-- The identity-keyed decision: replay entry first, else one draw against the
    threshold. -/
def ci_rule_decide (r : CiDropRule) (index : UInt64) : Bool :=
  match r.replay_vector with
  | some vector => if r.replay_len ≤ index.toNat then false else vector.getD index.toNat 0 != 0
  | none =>
    if r.drop_probability ≤ 0 then false
    else if 1 ≤ r.drop_probability then true
    else ci_draw r.seed index < ci_threshold r.drop_probability

theorem ci_frame_from_fields_is_rdp {dport : UInt16} {csp_flags : UInt8} (data : List UInt8)
    (hrdp : csp_flags &&& CI_CSP_FRDP ≠ 0) :
    (ci_frame_from_fields dport csp_flags data).is_rdp = true := by
  simpa [ci_frame_from_fields] using hrdp

/-- The frame's flags are those of the trailer whenever one parses. -/
theorem ci_frame_from_fields_rdp_flags {dport : UInt16} {csp_flags : UInt8} {data : List UInt8}
    {h : CiRdpHeader} (hrdp : csp_flags &&& CI_CSP_FRDP ≠ 0)
    (hparse : ci_rdp_parse_trailer data = some h) :
    (ci_frame_from_fields dport csp_flags data).rdp_flags = h.flags := by
  simp [ci_frame_from_fields, hrdp, hparse]

end csp_intercept.ci_rule
