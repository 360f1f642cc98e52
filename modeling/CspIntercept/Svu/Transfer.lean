import CspIntercept.Svu.Ranges
import CspIntercept.Svu.Session

open Overlay csp_intercept.ci_svu csp_intercept.svu_proto csp_intercept.svu_serve

namespace csp_intercept.svu_session

/-- The packet carries more than the data header. -/
def HasPayload (pkt : CspPacket) : Prop := pkt.length.toUInt32 > SVU_DATA_HDR

instance (pkt : CspPacket) : Decidable (HasPayload pkt) := inferInstanceAs (Decidable (_ > _))

theorem payload_length_lt {pkt : CspPacket} (hpay : HasPayload pkt) :
    ((pkt.data.drop SVU_DATA_HDR.toNat).take (pkt.length.toUInt32 - SVU_DATA_HDR).toNat).length < 2 ^ 16 := by
  have hlen := pkt.length.toNat_lt
  have hsub : (pkt.length.toUInt32 - SVU_DATA_HDR).toNat = pkt.length.toNat - 8 := by
    rw [UInt32.toNat_sub_of_le _ _ (UInt32.le_of_lt hpay)]
    rfl
  rw [List.length_take, hsub]
  omega

/-- The fragment a packet with a payload delivers. -/
def packet_fragment (pkt : CspPacket) : Option Fragment :=
  if hpay : HasPayload pkt then
    some {
      offset := svu_get32 pkt.data 0
      bytes := (pkt.data.drop SVU_DATA_HDR.toNat).take (pkt.length.toUInt32 - SVU_DATA_HDR).toNat
      length_lt := payload_length_lt hpay }
  else none

/-- Draining a packet is accepting its fragment. -/
theorem drain_packet_eq (recv : CiSvu) (pkt : CspPacket) : drain_packet recv pkt =
    match packet_fragment pkt with
    | some f => (ci_svu_accept recv f.offset f.bytes).1
    | none => recv := by
  by_cases hpay : HasPayload pkt
  · rw [packet_fragment, dif_pos hpay]
    exact if_pos hpay
  · rw [packet_fragment, dif_neg hpay]
    exact if_neg hpay

/-- Draining packets is accepting their fragments. -/
theorem drain_data_eq (recv : CiSvu) (packets : List CspPacket) :
    drain_data recv packets = (accept_all recv (packets.filterMap packet_fragment)).1 := by
  induction packets generalizing recv with
  | nil => rfl
  | cons pkt packets ih =>
    have hstep : drain_data recv (pkt :: packets) = drain_data (drain_packet recv pkt) packets := rfl
    rw [hstep, ih, drain_packet_eq, List.filterMap_cons]
    cases packet_fragment pkt with
    | none => rfl
    | some f => rfl

/-- The packets bring the bytes of `src` to the ranges `R`, to all of these and to
    nothing else. -/
structure Carries (src : List UInt8) (total : UInt32) (R : List (Nat × Nat)) (packets : List CspPacket) :
    Prop where
  sound : ∀ f ∈ packets.filterMap packet_fragment, f.Fits total ∧ ∀ i, f.write.Covers i →
    f.write.itemAt i = src[i]? ∧ ∃ r ∈ R, r.1 ≤ i ∧ i < r.2
  complete : ∀ r ∈ R, ∀ i, r.1 ≤ i → i < r.2 → ∃ f ∈ packets.filterMap packet_fragment, f.write.Covers i

theorem Carries.perm {src : List UInt8} {total : UInt32} {R : List (Nat × Nat)} {packets packets' : List CspPacket}
    (h : Carries src total R packets) (hperm : packets'.Perm packets) : Carries src total R packets' := by
  have hmem (f : Fragment) : f ∈ packets'.filterMap packet_fragment ↔ f ∈ packets.filterMap packet_fragment :=
    (hperm.filterMap _).mem_iff
  refine ⟨fun f hf => h.sound f ((hmem f).mp hf), fun r hr i hlo hhi => ?_⟩
  obtain ⟨f, hf, hcov⟩ := h.complete r hr i hlo hhi
  exact ⟨f, (hmem f).mpr hf, hcov⟩

theorem Carries.nil (src : List UInt8) (total : UInt32) : Carries src total [] [] := by
  constructor <;> simp

theorem Carries.append {src : List UInt8} {total : UInt32} {R R' : List (Nat × Nat)}
    {packets packets' : List CspPacket} (h : Carries src total R packets) (h' : Carries src total R' packets') :
    Carries src total (R ++ R') (packets ++ packets') := by
  constructor
  · intro f hf
    rw [List.filterMap_append] at hf
    rcases List.mem_append.mp hf with hf | hf
    · obtain ⟨hfits, hcov⟩ := h.sound f hf
      refine ⟨hfits, fun i hi => ?_⟩
      obtain ⟨hitem, r, hr, hin⟩ := hcov i hi
      exact ⟨hitem, r, List.mem_append_left _ hr, hin⟩
    · obtain ⟨hfits, hcov⟩ := h'.sound f hf
      refine ⟨hfits, fun i hi => ?_⟩
      obtain ⟨hitem, r, hr, hin⟩ := hcov i hi
      exact ⟨hitem, r, List.mem_append_right _ hr, hin⟩
  · intro r hr i hlo hhi
    rw [List.filterMap_append]
    rcases List.mem_append.mp hr with hr | hr
    · obtain ⟨f, hf, hcov⟩ := h.complete r hr i hlo hhi
      exact ⟨f, List.mem_append_left _ hf, hcov⟩
    · obtain ⟨f, hf, hcov⟩ := h'.complete r hr i hlo hhi
      exact ⟨f, List.mem_append_right _ hf, hcov⟩

/-- The 16-bit length field of a small data packet is faithful. -/
theorem length_data_packet (session : UInt32) (src : List UInt8) (off : UInt32) {len : UInt32}
    (hfit : len.toNat + 8 < 2 ^ 16) : (data_packet session src off len).length.toNat = len.toNat + 8 := by
  simp only [data_packet, UInt32.toNat_toUInt16, UInt32.toNat_add, SVU_DATA_HDR, UInt32.reduceToNat]
  omega

/-- What the receiver reads from a data packet the server built. -/
theorem packet_fragment_data_packet (session : UInt32) (src : List UInt8) (off : UInt32) {len : UInt32}
    (hlen : 0 < len.toNat) (hfit : len.toNat + 8 < 2 ^ 16) :
    ∃ f, packet_fragment (data_packet session src off len) = some f ∧ f.offset = off ∧
      f.bytes = (src.drop off.toNat).take len.toNat := by
  have hfield : (data_packet session src off len).length.toUInt32.toNat = len.toNat + 8 := by
    rw [UInt16.toNat_toUInt32, length_data_packet session src off hfit]
  have hpay : HasPayload (data_packet session src off len) := by
    rw [HasPayload, gt_iff_lt, UInt32.lt_iff_toNat_lt, hfield]
    change 8 < len.toNat + 8
    omega
  have hsub : ((data_packet session src off len).length.toUInt32 - SVU_DATA_HDR).toNat = len.toNat := by
    rw [UInt32.toNat_sub_of_le _ _ (UInt32.le_of_lt hpay), hfield]
    change len.toNat + 8 - 8 = len.toNat
    omega
  refine ⟨_, by rw [packet_fragment, dif_pos hpay], ?_, ?_⟩
  · change svu_get32 (data_packet session src off len).data 0 = off
    rw [data_packet, List.append_assoc]
    exact svu_get32_put32 off _
  · have hdrop : (data_packet session src off len).data.drop SVU_DATA_HDR.toNat =
        (src.drop off.toNat).take len.toNat := rfl
    change ((data_packet session src off len).data.drop SVU_DATA_HDR.toNat).take
      ((data_packet session src off len).length.toUInt32 - SVU_DATA_HDR).toNat = _
    rw [hsub, hdrop, List.take_take, Nat.min_self]

section Blast

variable {src : List UInt8} {total mtu : UInt32}

/-- A stretch of the source is a write of the source's own bytes. -/
theorem itemAt_slice {f : Fragment} {n i : Nat} (hbytes : f.bytes = (src.drop f.offset.toNat).take n)
    (hsrc : f.offset.toNat + n ≤ src.length) :
    (f.write.Covers i ↔ f.offset.toNat ≤ i ∧ i < f.offset.toNat + n) ∧
      (f.write.Covers i → f.write.itemAt i = src[i]?) := by
  have hlen : f.bytes.length = n := by
    rw [hbytes, List.length_take, List.length_drop]
    omega
  have hcov : f.write.Covers i ↔ f.offset.toNat ≤ i ∧ i < f.offset.toNat + n := by
    change _ ∧ i < f.offset.toNat + f.bytes.length ↔ _
    rw [hlen]
    rfl
  refine ⟨hcov, fun h => ?_⟩
  obtain ⟨hlo, hhi⟩ := hcov.mp h
  change (if f.offset.toNat ≤ i then f.bytes[i - f.offset.toNat]? else none) = _
  rw [if_pos hlo, hbytes, List.getElem?_take, if_pos (by omega), List.getElem?_drop]
  congr 1
  omega

/-- Blasting an interval of the file carries exactly that interval. -/
theorem blast_interval_carries (hsrc : src.length = total.toNat) (hmtu : 8 < mtu.toNat)
    (hmtu' : mtu.toNat ≤ 2048) (hroom : total.toNat + mtu.toNat ≤ 2 ^ 32)
    (session start end_ : UInt32) (hend : end_.toNat ≤ total.toNat) :
    ∃ packets, blast_interval session mtu src start end_ = some packets ∧
      Carries src total [(start.toNat, end_.toNat)] packets := by
  have hlt := end_.toNat_lt
  have hpay : mtu > SVU_DATA_HDR := UInt32.lt_iff_toNat_lt.mpr hmtu
  have hsub : (mtu - SVU_DATA_HDR).toNat = mtu.toNat - 8 := by
    rw [UInt32.toNat_sub_of_le _ _ (UInt32.le_of_lt hpay)]
    rfl
  obtain ⟨chunks, hrun, hin, hcover⟩ := chunk_loop_tiles (mtu - SVU_DATA_HDR) end_ (by omega) (by omega)
    (2 ^ 32) start (by omega)
  have hblast : blast_interval session mtu src start end_ =
      some (chunks.map fun c => data_packet session src c.1 c.2) := by
    rw [blast_interval, if_pos hpay, hrun]
    rfl
  refine ⟨_, hblast, ?_, ?_⟩
  · intro f hf
    obtain ⟨pkt, hpkt, hfrag⟩ := List.mem_filterMap.mp hf
    obtain ⟨c, hc, rfl⟩ := List.mem_map.mp hpkt
    obtain ⟨hlo, hhi, hpos, hstep⟩ := hin c hc
    obtain ⟨f', hfrag', hoff, hbytes⟩ := packet_fragment_data_packet session src c.1 hpos (by omega)
    obtain rfl : f' = f := Option.some.inj (hfrag'.symm.trans hfrag)
    rw [← hoff] at hbytes hlo hhi
    have hlen : f'.bytes.length = c.2.toNat := by
      rw [hbytes, List.length_take, List.length_drop]
      omega
    refine ⟨?_, fun i hi => ?_⟩
    · change f'.offset.toNat + f'.bytes.length ≤ total.toNat
      omega
    · obtain ⟨hcov, hitem⟩ := itemAt_slice (i := i) hbytes (by omega)
      have hrange := hcov.mp hi
      refine ⟨hitem hi, _, List.mem_singleton_self _, ?_⟩
      change start.toNat ≤ i ∧ i < end_.toNat
      omega
  · intro r hr i hlo hhi
    rw [List.mem_singleton.mp hr] at hlo hhi
    obtain ⟨c, hc, hmem⟩ := hcover i hlo hhi
    obtain ⟨hlo', hhi', hpos, hstep⟩ := hin c hc
    obtain ⟨f, hfrag, hoff, hbytes⟩ := packet_fragment_data_packet session src c.1 hpos (by omega)
    rw [← hoff] at hbytes hlo' hhi' hmem
    refine ⟨f, List.mem_filterMap.mpr ⟨_, List.mem_map_of_mem hc, hfrag⟩, ?_⟩
    exact (itemAt_slice hbytes (by omega)).1.mpr hmem

/-- Blasting a list of requested ranges carries exactly these. -/
theorem blast_requested_carries (hsrc : src.length = total.toNat) (hmtu : 8 < mtu.toNat)
    (hmtu' : mtu.toNat ≤ 2048) (hroom : total.toNat + mtu.toNat ≤ 2 ^ 32) (session : UInt32)
    {R : List (Nat × Nat)} (hR : ∀ r ∈ R, r.1 < r.2 ∧ r.2 ≤ total.toNat) :
    ∃ packets, blast_requested session mtu src total (R.map interval) = some packets ∧
      Carries src total R packets := by
  induction R with
  | nil => exact ⟨[], rfl, .nil src total⟩
  | cons r R ih =>
    obtain ⟨hlt, hle⟩ := hR r List.mem_cons_self
    obtain ⟨rest, hrest, hcarry⟩ := ih fun r' hr' => hR r' (List.mem_cons_of_mem r hr')
    have htotal := total.toNat_lt
    have hstart : (interval r).start.toNat = r.1 := UInt32.toNat_ofNat_of_lt' (by change r.1 < 2 ^ 32; omega)
    have hend : (interval r).end_.toNat = r.2 := UInt32.toNat_ofNat_of_lt' (by change r.2 < 2 ^ 32; omega)
    have hclip : ¬ (interval r).end_ > total := by
      rw [gt_iff_lt, UInt32.lt_iff_toNat_lt, hend]
      omega
    have hne : (interval r).start < (interval r).end_ := by
      rw [UInt32.lt_iff_toNat_lt, hstart, hend]
      exact hlt
    obtain ⟨first, hfirst, hcarry'⟩ := blast_interval_carries hsrc hmtu hmtu' hroom session
      (interval r).start (interval r).end_ (by omega)
    rw [hstart, hend] at hcarry'
    refine ⟨first ++ rest, ?_, hcarry'.append hcarry⟩
    rw [List.map_cons, blast_requested, hrest]
    simp only [hclip, hne, if_false, if_true, hfirst]

end Blast

section Receive

variable {src : List UInt8} {s₀ s : CiSvu} {ws : List (Write UInt8)} {R : List (Nat × Nat)}
  {packets : List CspPacket}

/-- Some range of the list has the offset. -/
def InRanges (R : List (Nat × Nat)) (i : Nat) : Prop := ∃ r ∈ R, r.1 ≤ i ∧ i < r.2

/-- After the packets of some ranges are drained, the buffer has the source's bytes
    there and its old ones elsewhere. -/
theorem Carries.drain (hcarry : Carries src s₀.total R packets) (h : Reassembles s₀ ws s) :
    ∃ us, Reassembles s₀ (ws ++ us) (drain_data s packets) ∧
      ∀ i, (InRanges R i → lastWrite us i = src[i]?) ∧ (¬ InRanges R i → lastWrite us i = none) := by
  obtain ⟨hrun, -⟩ := h.accept_all (packets.filterMap packet_fragment)
  rw [← drain_data_eq] at hrun
  refine ⟨_, hrun, fun i => ⟨?_, ?_⟩⟩
  · rintro ⟨r, hr, hlo, hhi⟩
    obtain ⟨f, hf, hcov⟩ := hcarry.complete r hr i hlo hhi
    obtain ⟨hfits, hitem⟩ := hcarry.sound f hf
    have hsome : f.write.itemAt i = src[i]? := (hitem i hcov).1
    obtain ⟨b, hb⟩ := Option.isSome_iff_exists.mp (Write.itemAt_isSome_iff.mpr hcov)
    rw [← hsome, hb]
    refine lastWrite_eq_of_forall ⟨f.write, ?_, hcov⟩ ?_
    · exact List.mem_map_of_mem (List.mem_filter.mpr ⟨hf, by simpa using hfits⟩)
    · intro w hw hcov'
      obtain ⟨g, hg, rfl⟩ := List.mem_map.mp hw
      have hgmem := (List.mem_filter.mp hg).1
      rw [((hcarry.sound g hgmem).2 i hcov').1, ← hsome, hb]
  · intro hout
    rw [← Option.not_isSome_iff_eq_none, lastWrite_isSome_iff]
    rintro ⟨w, hw, hcov⟩
    obtain ⟨g, hg, rfl⟩ := List.mem_map.mp hw
    exact hout ((hcarry.sound g (List.mem_filter.mp hg).1).2 i hcov).2

end Receive

end csp_intercept.svu_session
