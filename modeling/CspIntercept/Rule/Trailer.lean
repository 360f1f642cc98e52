import CspIntercept.Rule.Flow

open csp_intercept.ci_rdp

namespace csp_intercept.ci_rule

/-- The bit of `id.flags` that asks libcsp for a CRC32 behind the packet. -/
def CSP_FCRC32 : UInt8 := 0x01

/-- The sender's RDP header behind the payload, numbers big-endian. The flags byte
    still carries the counter nibble. -/
def csp_rdp_header_add (payload : List UInt8) (h : CiRdpHeader) : List UInt8 :=
  payload ++ [h.flags, (h.seq >>> 8).toUInt8, h.seq.toUInt8, (h.ack >>> 8).toUInt8, h.ack.toUInt8]

/-- Four big-endian bytes of a checksum. -/
def be32_bytes (x : UInt32) : List UInt8 :=
  [(x >>> 24).toUInt8, (x >>> 16).toUInt8, (x >>> 8).toUInt8, x.toUInt8]

section Link

-- libcsp's checksum, whatever function of the packet it is
variable (crc32 : List UInt8 → UInt32)

/-- What reaches a nexthop, the wire or the promiscuous queue: payload, RDP header,
    and the CRC32 when the id asks for one. -/
def csp_rdp_packet (id_flags : UInt8) (payload : List UInt8) (h : CiRdpHeader) : List UInt8 :=
  let packet := csp_rdp_header_add payload h
  if id_flags &&& CSP_FCRC32 != 0 then packet ++ be32_bytes (crc32 packet) else packet

/-- The sender's header with the counter nibble masked off. -/
def maskedHeader (h : CiRdpHeader) : CiRdpHeader := { h with flags := h.flags &&& CI_RDP_FLAG_MASK }

/-- Every consumer of the trailer sees the sender's header: the parser the monitor's
    trackers are fed from, the frame view, and the drop key. -/
structure DecodesHeader (id_flags : UInt8) (data : List UInt8) (h : CiRdpHeader) : Prop where
  trailer : ci_rdp_parse_trailer data = some (maskedHeader h)
  frame : ∀ dport, (ci_frame_from_fields dport id_flags data).rdp_flags = (maskedHeader h).flags
  key : ∀ t dport, (ci_flow_index t (ci_frame_from_fields dport id_flags data) data).2.toUInt16 = h.seq

theorem ci_flow_index_rdp_toUInt16 (epoch : UInt32) (seq : UInt16) :
    (ci_flow_index_rdp epoch seq).toUInt16 = seq := by
  apply UInt16.toNat_inj.mp
  have hseq := seq.toNat_lt
  rw [UInt64.toNat_toUInt16, ci_flow_index_rdp_toNat]
  omega

/-- The frame view and the drop key follow the parsed trailer. -/
theorem decodesHeader_iff {id_flags : UInt8} {data : List UInt8} {h : CiRdpHeader}
    (hrdp : id_flags &&& CI_CSP_FRDP ≠ 0) :
    DecodesHeader id_flags data h ↔ ci_rdp_parse_trailer data = some (maskedHeader h) := by
  refine ⟨fun hdec => hdec.trailer, fun hparse => ⟨hparse, fun dport => ?_, fun t dport => ?_⟩⟩
  · exact ci_frame_from_fields_rdp_flags hrdp hparse
  · rw [ci_flow_index_of_rdp (ci_frame_from_fields_is_rdp data hrdp) hparse]
    exact ci_flow_index_rdp_toUInt16 _ _

/-- The parser returns the header of a packet that ends with it. -/
theorem parse_header_add (payload : List UInt8) (h : CiRdpHeader) :
    ci_rdp_parse_trailer (csp_rdp_header_add payload h) = some (maskedHeader h) := by
  rw [csp_rdp_header_add, ci_rdp_parse_trailer_append]
  simp only [be16_bytes]
  rfl

/-- The two low bytes of a word are the bytes of its low half. -/
theorem be16_low_half (x : UInt32) : be16 (x >>> 8).toUInt8 x.toUInt8 = x.toUInt16 := by
  rw [← be16_bytes x.toUInt16]
  have hx := x.toNat_lt
  congr 1 <;> apply UInt8.toNat_inj.mp <;>
    simp only [UInt32.toNat_toUInt8, UInt32.toNat_shiftRight, UInt16.toNat_toUInt8,
      UInt16.toNat_shiftRight, UInt32.toNat_toUInt16, UInt32.reduceToNat, UInt16.reduceToNat,
      Nat.reduceMod, Nat.shiftRight_eq_div_pow, Nat.reducePow] <;>
    omega

/-- Behind a checksum the parser reads the low byte of the acknowledgement as the
    flags and the checksum as the two numbers. -/
theorem parse_header_add_crc (payload : List UInt8) (h : CiRdpHeader) (crc : UInt32) :
    ci_rdp_parse_trailer (csp_rdp_header_add payload h ++ be32_bytes crc) =
      some
        { flags := h.ack.toUInt8 &&& CI_RDP_FLAG_MASK
          seq := (crc >>> 16).toUInt16
          ack := crc.toUInt16 } := by
  have hsplit : csp_rdp_header_add payload h ++ be32_bytes crc =
      (payload ++ [h.flags, (h.seq >>> 8).toUInt8, h.seq.toUInt8, (h.ack >>> 8).toUInt8]) ++
        [h.ack.toUInt8, (crc >>> 24).toUInt8, (crc >>> 16).toUInt8, (crc >>> 8).toUInt8, crc.toUInt8] := by
    simp [csp_rdp_header_add, be32_bytes]
  have hhigh := be16_low_half (crc >>> 16)
  have hshift : crc >>> 16 >>> 8 = crc >>> 24 := by
    apply UInt32.toNat_inj.mp
    simp only [UInt32.toNat_shiftRight, UInt32.reduceToNat, Nat.reduceMod, ← Nat.shiftRight_add, Nat.reduceAdd]
  rw [hshift] at hhigh
  rw [hsplit, ci_rdp_parse_trailer_append, hhigh, be16_low_half]

/-- Of every RDP packet the sender's header is decoded exactly when no CRC32 follows
    it, or the CRC32 happens to spell the sequence and acknowledgement numbers while
    the low nibble of the acknowledgement repeats the flags. -/
theorem rdp_header_decoded_iff (id_flags : UInt8) (payload : List UInt8) (h : CiRdpHeader)
    (hrdp : id_flags &&& CI_CSP_FRDP ≠ 0) :
    DecodesHeader id_flags (csp_rdp_packet crc32 id_flags payload h) h ↔
      id_flags &&& CSP_FCRC32 = 0 ∨
        ((crc32 (csp_rdp_header_add payload h) >>> 16).toUInt16 = h.seq ∧
          (crc32 (csp_rdp_header_add payload h)).toUInt16 = h.ack ∧
          h.ack.toUInt8 &&& CI_RDP_FLAG_MASK = h.flags &&& CI_RDP_FLAG_MASK) := by
  rw [decodesHeader_iff hrdp]
  by_cases hcrc : id_flags &&& CSP_FCRC32 = 0
  · simp [csp_rdp_packet, hcrc, parse_header_add]
  · have hset : (id_flags &&& CSP_FCRC32 != 0) = true := by simpa using hcrc
    simp only [csp_rdp_packet, hset, if_true, parse_header_add_crc, maskedHeader, hcrc, false_or,
      Option.some.injEq, CiRdpHeader.mk.injEq]
    tauto

end Link

/-- An ACK numbered 1 with a CRC32 behind it: the parser reports no flags and takes
    both numbers from the checksum. -/
theorem rdp_header_behind_crc :
    ci_rdp_parse_trailer (csp_rdp_packet (fun _ => 0x00765AFB) 0x03 []
        { flags := CI_RDP_ACK, seq := 1, ack := 0 }) =
      some { flags := 0, seq := 0x0076, ack := 0x5AFB } ∧
    ¬ DecodesHeader 0x03 (csp_rdp_packet (fun _ => 0x00765AFB) 0x03 []
        { flags := CI_RDP_ACK, seq := 1, ack := 0 }) { flags := CI_RDP_ACK, seq := 1, ack := 0 } := by
  refine ⟨by decide, fun hdec => absurd hdec.trailer (by decide)⟩

theorem rdp_header_decoded_iff_syn :
    DecodesHeader 0x02 (csp_rdp_packet (fun _ => 0xCD246C88) 0x02 [0xDE, 0xAD]
        { flags := 0x18, seq := 42, ack := 261 }) { flags := 0x18, seq := 42, ack := 261 } ↔
      (0x02 : UInt8) &&& CSP_FCRC32 = 0 ∨
        (((0xCD246C88 : UInt32) >>> 16).toUInt16 = 42 ∧ (0xCD246C88 : UInt32).toUInt16 = 261 ∧
          (261 : UInt16).toUInt8 &&& CI_RDP_FLAG_MASK = 0x18 &&& CI_RDP_FLAG_MASK) :=
  rdp_header_decoded_iff (fun _ => 0xCD246C88) 0x02 [0xDE, 0xAD]
    { flags := 0x18, seq := 42, ack := 261 } (by decide)

end csp_intercept.ci_rule
