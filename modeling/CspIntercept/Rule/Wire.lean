import Mathlib.Data.List.Basic
import Mathlib.Tactic.Cases

namespace csp_intercept.ci_rdp

/-- Bytes of the RDP trailer, counted back from the end of the payload. -/
def CI_RDP_HEADER_SIZE : Nat := 5

def CI_RDP_SYN : UInt8 := 0x08
def CI_RDP_ACK : UInt8 := 0x04

/-- The high nibble of the flags byte is libcsp's anti-dedup counter. -/
def CI_RDP_FLAG_MASK : UInt8 := 0x0F

/-- The bit of `id.flags` that marks an RDP packet. -/
def CI_CSP_FRDP : UInt8 := 0x02

/-- A decoded trailer: flags already masked, numbers in host order. -/
structure CiRdpHeader where
  flags : UInt8
  seq : UInt16
  ack : UInt16
deriving DecidableEq, Repr

/-- Two bytes read as a big-endian 16-bit number. -/
def be16 (hi lo : UInt8) : UInt16 := hi.toUInt16 <<< 8 ||| lo.toUInt16

/-- `data` is the payload `[data, len)`; a null pointer is the empty payload, which
    the length guard rejects. -/
def ci_rdp_parse_trailer (data : List UInt8) : Option CiRdpHeader :=
  if data.length < CI_RDP_HEADER_SIZE then
    none
  else
    let t := data.drop (data.length - CI_RDP_HEADER_SIZE)
    some
      { flags := t.getD 0 0 &&& CI_RDP_FLAG_MASK
        seq := be16 (t.getD 1 0) (t.getD 2 0)
        ack := be16 (t.getD 3 0) (t.getD 4 0) }

/-- Splitting a 16-bit number into bytes and reading them back returns it. -/
@[simp] theorem be16_bytes (x : UInt16) : be16 (x >>> 8).toUInt8 x.toUInt8 = x := by
  apply UInt16.toNat_inj.mp
  have hx := x.toNat_lt
  have hhi : x.toNat >>> 8 % 256 = x.toNat / 256 := by
    rw [Nat.shiftRight_eq_div_pow]
    omega
  simp only [be16, UInt16.toNat_or, UInt16.toNat_shiftLeft, UInt8.toNat_toUInt16, UInt16.toNat_toUInt8,
    UInt16.toNat_shiftRight]
  simp only [UInt16.reduceToNat, Nat.reducePow, Nat.reduceMod, hhi]
  have hshift : (x.toNat / 256) <<< 8 % 65536 = (x.toNat / 256) <<< 8 := by
    rw [Nat.shiftLeft_eq]
    omega
  rw [hshift, ← Nat.shiftLeft_add_eq_or_of_lt (by omega), Nat.shiftLeft_eq]
  omega

/-- The trailer is the last five bytes, whatever precedes them. -/
theorem ci_rdp_parse_trailer_append (body : List UInt8) (b₀ b₁ b₂ b₃ b₄ : UInt8) :
    ci_rdp_parse_trailer (body ++ [b₀, b₁, b₂, b₃, b₄]) =
      some { flags := b₀ &&& CI_RDP_FLAG_MASK, seq := be16 b₁ b₂, ack := be16 b₃ b₄ } := by
  simp [ci_rdp_parse_trailer, CI_RDP_HEADER_SIZE]

end csp_intercept.ci_rdp

namespace csp_intercept.ci_dtp

def CI_DTP_DATA_PORT : UInt16 := 8
def CI_DTP_OFFSET_SIZE : Nat := 4
def CI_DTP_OVERHEAD_DIPP : UInt16 := 4

/-- The leading little-endian byte offset of a DTP data packet. -/
def ci_dtp_parse_offset (data : List UInt8) : Option UInt32 :=
  if data.length < CI_DTP_OFFSET_SIZE then
    none
  else
    some ((data.getD 0 0).toUInt32 ||| (data.getD 1 0).toUInt32 <<< 8 |||
      (data.getD 2 0).toUInt32 <<< 16 ||| (data.getD 3 0).toUInt32 <<< 24)

def ci_dtp_fragment_index_ovh (offset : UInt32) (mtu overhead : UInt16) : Option UInt32 :=
  if mtu ≤ overhead then
    none
  else
    some (offset / (mtu - overhead).toUInt32)

end csp_intercept.ci_dtp
