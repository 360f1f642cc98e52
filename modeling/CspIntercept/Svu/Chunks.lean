import CspIntercept.Svu.Resume

open Overlay csp_intercept.ci_svu csp_intercept.svu_proto csp_intercept.svu_serve

namespace csp_intercept.svu_session

/-- The payload of a full data packet. -/
def pay (mtu : UInt32) : Nat := mtu.toNat - 8

/-- The number of data packets of the whole file. -/
def nof_chunks (total mtu : UInt32) : Nat := (total.toNat + pay mtu - 1) / pay mtu

/-- Data packet `k` of the whole file. -/
def chunk_packet (src : List UInt8) (total mtu : UInt32) (k : Nat) : CspPacket :=
  data_packet 1 src (UInt32.ofNat (k * pay mtu))
    (UInt32.ofNat (Tiling.stop (pay mtu) total.toNat k - k * pay mtu))

/-- The number of a data packet, by its offset. -/
def chunk_of (mtu : UInt32) (pkt : CspPacket) : Nat := (svu_get32 pkt.data 0).toNat / pay mtu

/-- What the client can be sent: the file, its sizes and the packet size. -/
structure Served (src : List UInt8) (total block mtu : UInt32) : Prop where
  length : src.length = total.toNat
  total_pos : 1 ≤ total.toNat
  block_pos : 1 ≤ block.toNat
  sum : total.toNat + block.toNat ≤ 2 ^ 32
  mtu_gt : 8 < mtu.toNat
  mtu_le : mtu.toNat ≤ 2048
  room : total.toNat + mtu.toNat ≤ 2 ^ 32
  manifest : (ci_svu_nblocks total block).toNat * CI_SVU_HASH_LEN + 200 ≤ 2 ^ 32

section Chunk

variable {src : List UInt8} {total block mtu : UInt32}

theorem Served.pay_pos (h : Served src total block mtu) : 0 < pay mtu := by
  have hmtu := h.mtu_gt
  rw [pay]
  omega

/-- The receiver reads from data packet `k` the bytes of the source there. -/
theorem Served.chunk_fragment (h : Served src total block mtu) {k : Nat} (hk : k < nof_chunks total mtu) :
    chunk_of mtu (chunk_packet src total mtu k) = k ∧
      ∃ f, packet_fragment (chunk_packet src total mtu k) = some f ∧ f.Fits total ∧
        ∀ i, (f.write.Covers i ↔ i < total.toNat ∧ i / pay mtu = k) ∧
          (f.write.Covers i → f.write.itemAt i = src[i]?) := by
  have hpay := h.pay_pos
  have hmtu := h.mtu_le
  have hroom := h.room
  have hstart := Tiling.start_lt_total hpay hk
  have hstep : (k + 1) * pay mtu = k * pay mtu + pay mtu := by rw [Nat.add_mul, Nat.one_mul]
  have hstop : Tiling.stop (pay mtu) total.toNat k = min (k * pay mtu + pay mtu) total.toNat := by
    rw [Tiling.stop, hstep]
  have hle : pay mtu ≤ mtu.toNat := Nat.sub_le _ _
  have hoff : (UInt32.ofNat (k * pay mtu)).toNat = k * pay mtu :=
    UInt32.toNat_ofNat_of_lt' (by change _ < 2 ^ 32; omega)
  have hlen : (UInt32.ofNat (Tiling.stop (pay mtu) total.toNat k - k * pay mtu)).toNat =
      Tiling.stop (pay mtu) total.toNat k - k * pay mtu :=
    UInt32.toNat_ofNat_of_lt' (by change _ < 2 ^ 32; omega)
  obtain ⟨f, hfrag, hfoff, hbytes⟩ : ∃ f, packet_fragment (chunk_packet src total mtu k) = some f ∧
      f.offset = UInt32.ofNat (k * pay mtu) ∧ f.bytes = (src.drop (UInt32.ofNat (k * pay mtu)).toNat).take
        (UInt32.ofNat (Tiling.stop (pay mtu) total.toNat k - k * pay mtu)).toNat :=
    packet_fragment_data_packet 1 src _ (by omega) (by omega)
  have hfront : svu_get32 (chunk_packet src total mtu k).data 0 = UInt32.ofNat (k * pay mtu) := by
    rw [chunk_packet, data_packet, List.append_assoc]
    exact svu_get32_put32 _ _
  have hfoff' : f.offset.toNat = k * pay mtu := by rw [hfoff, hoff]
  rw [← hfoff, hlen] at hbytes
  have hsrc := h.length
  refine ⟨by rw [chunk_of, hfront, hoff, Nat.mul_div_cancel k hpay], f, hfrag, ?_, fun i => ?_⟩
  · change f.offset.toNat + f.bytes.length ≤ total.toNat
    rw [hbytes, List.length_take, List.length_drop]
    omega
  · obtain ⟨hcov, hitem⟩ := itemAt_slice (i := i) hbytes (by omega)
    refine ⟨?_, hitem⟩
    have htile : k * pay mtu ≤ i ∧ i < Tiling.stop (pay mtu) total.toNat k ↔ i < total.toNat ∧ k = i / pay mtu :=
      Tiling.mem_span_iff hpay
    rw [hcov, hfoff', eq_comm (b := k), ← htile]
    omega

/-- The pieces of an interval of the loop start at multiples of the step. -/
theorem chunk_loop_aligned (step end_ : UInt32) (hroom : end_.toNat + step.toNat ≤ 2 ^ 32) {n : Nat}
    {off : UInt32} {chunks : List (UInt32 × UInt32)}
    (hrun : chunk_loop step end_ n off = some chunks) : ∀ c ∈ chunks, ∃ j,
      c.1.toNat = off.toNat + j * step.toNat ∧ c.1.toNat < end_.toNat ∧
        c.2.toNat = min step.toNat (end_.toNat - c.1.toNat) := by
  induction n generalizing off chunks with
  | zero =>
    rw [chunk_loop] at hrun
    split_ifs at hrun
    cases hrun
    exact fun c hc => absurd hc List.not_mem_nil
  | succ n ih =>
    by_cases hlt : off < end_
    · rw [chunk_loop, if_pos hlt] at hrun
      obtain ⟨rest, hrest, rfl⟩ := Option.map_eq_some_iff.mp hrun
      have hlt' := UInt32.lt_iff_toNat_lt.mp hlt
      obtain ⟨hnext, hval⟩ := chunk_len_toNat step end_ (by omega) hlt'
      rintro c (_ | ⟨_, hc⟩)
      · refine ⟨0, by simp, hlt', ?_⟩
        rw [← hval]
      · obtain ⟨j, hoff, hin, hlen⟩ := ih hrest c hc
        refine ⟨j + 1, ?_, hin, hlen⟩
        rw [hoff, hnext, Nat.add_mul, Nat.one_mul]
        omega
    · rw [chunk_loop_done step end_ hlt (n + 1)] at hrun
      cases hrun
      exact fun c hc => absurd hc List.not_mem_nil

/-- Blasting an interval that starts and ends with data packets of the whole file sends
    data packets of the whole file. -/
theorem Served.blast_chunks (h : Served src total block mtu) {start end_ : UInt32} {packets : List CspPacket}
    (hstart : pay mtu ∣ start.toNat) (hend : pay mtu ∣ end_.toNat ∨ end_.toNat = total.toNat)
    (hle : end_.toNat ≤ total.toNat) (hblast : blast_interval 1 mtu src start end_ = some packets) :
    ∀ pkt ∈ packets, ∃ k < nof_chunks total mtu, pkt = chunk_packet src total mtu k ∧
      start.toNat ≤ k * pay mtu ∧ k * pay mtu < end_.toNat := by
  have hpay := h.pay_pos
  have hroom := h.room
  have hwide : mtu > SVU_DATA_HDR := UInt32.lt_iff_toNat_lt.mpr h.mtu_gt
  have hsub : (mtu - SVU_DATA_HDR).toNat = pay mtu := UInt32.toNat_sub_of_le _ _ (UInt32.le_of_lt hwide)
  have hpay' : pay mtu ≤ mtu.toNat := Nat.sub_le _ _
  rw [blast_interval, if_pos hwide] at hblast
  obtain ⟨chunks, hrun, rfl⟩ := Option.map_eq_some_iff.mp hblast
  intro pkt hpkt
  obtain ⟨c, hc, rfl⟩ := List.mem_map.mp hpkt
  obtain ⟨j, hoff, hin, hlen⟩ := chunk_loop_aligned _ end_ (by omega) hrun c hc
  rw [hsub] at hoff hlen
  obtain ⟨m, hm⟩ := hstart
  have hmul : c.1.toNat = (m + j) * pay mtu := by rw [hoff, hm, Nat.add_mul, Nat.mul_comm m]
  have hlen' : c.2.toNat = Tiling.stop (pay mtu) total.toNat (m + j) - (m + j) * pay mtu := by
    rw [hlen, hmul]
    exact Tiling.stop_le_of_dvd (by omega) hend hle
  refine ⟨m + j, ?_, ?_, by rw [← hmul, hoff]; omega, by omega⟩
  · have hcount : c.1.toNat / pay mtu < nof_chunks total mtu := Tiling.div_lt_count hpay (by omega)
    rwa [hmul, Nat.mul_div_cancel _ hpay] at hcount
  · have hoff' : c.1 = UInt32.ofNat ((m + j) * pay mtu) := by
      rw [← hmul]
      exact UInt32.ofNat_toNat.symm
    have hlen'' : c.2 = UInt32.ofNat (Tiling.stop (pay mtu) total.toNat (m + j) - (m + j) * pay mtu) := by
      rw [← hlen']
      exact UInt32.ofNat_toNat.symm
    rw [chunk_packet, ← hoff', ← hlen'']

/-- The same for a list of requested intervals. -/
theorem Served.blast_requested_chunks (h : Served src total block mtu) {R : List (Nat × Nat)}
    (hR : ∀ r ∈ R, pay mtu ∣ r.1 ∧ (pay mtu ∣ r.2 ∨ r.2 = total.toNat) ∧ r.1 < r.2 ∧ r.2 ≤ total.toNat)
    {packets : List CspPacket} (hblast : blast_requested 1 mtu src total (R.map interval) = some packets) :
    ∀ pkt ∈ packets, ∃ k < nof_chunks total mtu, pkt = chunk_packet src total mtu k ∧
      ∃ r ∈ R, r.1 ≤ k * pay mtu ∧ k * pay mtu < r.2 := by
  induction R generalizing packets with
  | nil =>
    cases hblast
    exact fun pkt hpkt => absurd hpkt List.not_mem_nil
  | cons r R ih =>
    obtain ⟨hdvd, hend, hlt, hle⟩ := hR r List.mem_cons_self
    have htotal := total.toNat_lt
    have hstart' : (interval r).start.toNat = r.1 := UInt32.toNat_ofNat_of_lt' (by change r.1 < 2 ^ 32; omega)
    have hend' : (interval r).end_.toNat = r.2 := UInt32.toNat_ofNat_of_lt' (by change r.2 < 2 ^ 32; omega)
    have hclip : ¬ (interval r).end_ > total := by
      rw [gt_iff_lt, UInt32.lt_iff_toNat_lt, hend']
      omega
    have hne : (interval r).start < (interval r).end_ := by
      rw [UInt32.lt_iff_toNat_lt, hstart', hend']
      exact hlt
    rw [List.map_cons, blast_requested] at hblast
    simp only [hclip, hne, if_false, if_true] at hblast
    cases hfirst : blast_interval 1 mtu src (interval r).start (interval r).end_ with
    | none =>
      rw [hfirst] at hblast
      cases hblast
    | some first =>
      cases hrest : blast_requested 1 mtu src total (R.map interval) with
      | none =>
        rw [hfirst, hrest] at hblast
        cases hblast
      | some rest =>
        rw [hfirst, hrest] at hblast
        cases hblast
        intro pkt hpkt
        rcases List.mem_append.mp hpkt with hpkt | hpkt
        · obtain ⟨k, hk, heq, hlo, hhi⟩ := h.blast_chunks (by rwa [hstart']) (by rwa [hend']) (by omega) hfirst pkt hpkt
          exact ⟨k, hk, heq, r, List.mem_cons_self, by omega, by omega⟩
        · obtain ⟨k, hk, heq, r', hr', hin⟩ := ih (fun r hr => hR r (List.mem_cons_of_mem _ hr)) hrest pkt hpkt
          exact ⟨k, hk, heq, r', List.mem_cons_of_mem _ hr', hin⟩

end Chunk

/-- The receiver was handed the data packets with the numbers `K`, and no other bytes. -/
structure Collected (src : List UInt8) (mtu : UInt32) (s₀ s : CiSvu) (K : Finset Nat) : Prop where
  reach : ∃ ws, Reassembles s₀ ws s ∧ ∀ w ∈ ws, ∀ i, w.Covers i → w.itemAt i = src[i]?
  uncovered : ∀ i < s₀.total.toNat, (Uncovered s i ↔ i / pay mtu ∉ K)

section Collected

variable {src : List UInt8} {block mtu : UInt32} {s₀ s : CiSvu} {K : Finset Nat}

/-- One data packet of the file. -/
theorem Collected.packet (hserved : Served src s₀.total block mtu) (h : Collected src mtu s₀ s K) {k : Nat}
    (hk : k < nof_chunks s₀.total mtu) :
    Collected src mtu s₀ (drain_packet s (chunk_packet src s₀.total mtu k)) (insert k K) := by
  obtain ⟨-, f, hfrag, hfits, hcov⟩ := hserved.chunk_fragment hk
  obtain ⟨ws, hreach, hcopy⟩ := h.reach
  have hstep := hreach.accept f
  rw [if_pos hfits] at hstep
  have hcopy' : ∀ w ∈ ws ++ [f.write], ∀ i, w.Covers i → w.itemAt i = src[i]? := by
    intro w hw i hi
    rcases List.mem_append.mp hw with hw | hw
    · exact hcopy w hw i hi
    · obtain rfl := List.mem_singleton.mp hw
      exact (hcov i).2 hi
  have heq : drain_packet s (chunk_packet src s₀.total mtu k) = (ci_svu_accept s f.offset f.bytes).1 := by
    rw [drain_packet_eq, hfrag]
  rw [heq]
  refine ⟨⟨_, hstep.2, hcopy'⟩, fun i hi => ?_⟩
  have hmissing : Missing (ws ++ [f.write]) i ↔ Missing ws i ∧ ¬ f.write.Covers i := by
    simp only [Missing, List.forall_mem_append, List.forall_mem_singleton]
  rw [hstep.2.uncovered_iff_missing hi, hmissing, ← hreach.uncovered_iff_missing hi, h.uncovered i hi, (hcov i).1,
    Finset.mem_insert, not_or, and_comm, and_congr_left_iff]
  intro _
  exact not_congr (and_iff_right hi)

/-- Data packets of the file, in any order and as often as they come. -/
theorem Collected.drain (hserved : Served src s₀.total block mtu) (h : Collected src mtu s₀ s K)
    {packets : List CspPacket}
    (hpackets : ∀ pkt ∈ packets, ∃ k < nof_chunks s₀.total mtu, pkt = chunk_packet src s₀.total mtu k) :
    Collected src mtu s₀ (drain_data s packets) (K ∪ (packets.map (chunk_of mtu)).toFinset) := by
  induction packets generalizing s K with
  | nil =>
    rw [List.map_nil, List.toFinset_nil, Finset.union_empty]
    exact h
  | cons pkt packets ih =>
    obtain ⟨k, hk, rfl⟩ := hpackets pkt List.mem_cons_self
    have hrest := ih (h.packet hserved hk) fun pkt hpkt => hpackets pkt (List.mem_cons_of_mem _ hpkt)
    have hset : K ∪ ((chunk_packet src s₀.total mtu k :: packets).map (chunk_of mtu)).toFinset =
        insert k K ∪ (packets.map (chunk_of mtu)).toFinset := by
      rw [List.map_cons, List.toFinset_cons, (hserved.chunk_fragment hk).1, Finset.insert_union, Finset.union_insert]
    rw [hset]
    exact hrest

/-- The buffer holds the source's bytes where a packet came, and zeros elsewhere. -/
theorem Collected.data (hsrc : src.length = s₀.total.toNat) (h : Collected src mtu s₀ s K) :
    s.data = (List.range s₀.total.toNat).map fun i => if i / pay mtu ∈ K then src.getD i 0 else 0 := by
  obtain ⟨ws, hreach, hcopy⟩ := h.reach
  rw [hreach.data, image]
  refine List.map_congr_left fun i hi => ?_
  have hi' := List.mem_range.mp hi
  have hun := h.uncovered i hi'
  rw [hreach.uncovered_iff_missing hi'] at hun
  have hlast := lastWrite_of_copies (i := i) (fun w hw => hcopy w hw i) (by omega)
  rw [hlast, List.getD_eq_getElem?_getD]
  split_ifs with hsome hin hin
  · rfl
  · obtain ⟨w, hw, hcov⟩ := hsome
    exact absurd hcov (hun.mpr hin w hw)
  · refine absurd (hun.mp fun w hw hcov => hsome ⟨w, hw, hcov⟩) (not_not.mpr hin)
  · rfl

/-- With its holes filled the buffer is the source: no block will ever fail. -/
theorem Collected.phase (hm : UnderManifest src s₀) (h : Collected src mtu s₀ s K) :
    ∃ holes, Phase src s₀ s holes [] := by
  obtain ⟨ws, hreach, hcopy⟩ := h.reach
  obtain ⟨holes, hholes, -⟩ := ci_svu_verify_ranges hreach SVU_MAX_INTERVALS
  have hfilled : filled src s = src := by
    rw [filled_eq hreach]
    apply List.ext_getElem?
    intro i
    by_cases hi : i < s.total.toNat
    · have hi' : i < src.length := by
        rw [hm.length, ← hreach.total]
        exact hi
      have hlast := lastWrite_of_copies (i := i) (fun w hw => hcopy w hw i) hi'
      rw [List.getElem?_map, List.getElem?_range hi, Option.map_some, hlast]
      split_ifs <;> simp [hi']
    · rw [List.getElem?_eq_none (by simpa using hi),
        List.getElem?_eq_none (by rw [hm.length, ← hreach.total]; omega)]
  refine ⟨holes, ⟨⟨ws, hreach⟩, hholes, ?_⟩⟩
  rw [failing_when_filled_eq hreach, hfilled, List.filter_eq_nil_iff]
  intro b hb
  simp [Fails, hm.digests b (List.mem_range.mp hb)]

/-- No hole is left exactly when every data packet has come. -/
theorem Collected.holes_eq_nil_iff (hpay : 0 < pay mtu) (h : Collected src mtu s₀ s K) {holes : List (Nat × Nat)}
    {bad : List Nat} (hphase : Phase src s₀ s holes bad) :
    holes = [] ↔ ∀ k < nof_chunks s₀.total mtu, k ∈ K := by
  obtain ⟨ws, hreach⟩ := hphase.reach
  have hholes := hphase.holes
  rw [hreach.total] at hholes
  constructor
  · rintro rfl k hk
    have hlt := Tiling.start_lt_total hpay hk
    have hnot := hholes.gap (Nat.zero_le _) hlt
    rwa [h.uncovered _ hlt, Nat.mul_div_cancel k hpay, not_not] at hnot
  · intro hall
    cases holes with
    | nil => rfl
    | cons r holes =>
      obtain ⟨-, hlt, hle, hun⟩ := hholes.pairwise.2 r List.mem_cons_self
      have hr := hun r.1 le_rfl hlt
      rw [h.uncovered _ (by omega)] at hr
      exact absurd (hall _ (Tiling.div_lt_count hpay (by omega))) hr

/-- A hole starts with a data packet that is missing, and ends with one or with the file. -/
theorem Collected.hole_aligned (h : Collected src mtu s₀ s K) {holes : List (Nat × Nat)} {bad : List Nat}
    (hphase : Phase src s₀ s holes bad) : ∀ r ∈ holes,
      pay mtu ∣ r.1 ∧ (pay mtu ∣ r.2 ∨ r.2 = s₀.total.toNat) ∧ r.1 < r.2 ∧ r.2 ≤ s₀.total.toNat ∧
        ∀ i, r.1 ≤ i → i < r.2 → i / pay mtu ∉ K := by
  obtain ⟨ws, hreach⟩ := hphase.reach
  have hholes := hphase.holes
  rw [hreach.total] at hholes
  intro r hr
  have hmax : Runs.Maximal (Uncovered s) s₀.total.toNat r.1 r.2 := ((hholes.mem_iff (.inl rfl)).mp hr).2
  have hmiss (i : Nat) (hi : i < s₀.total.toNat) : Uncovered s i ↔ i / pay mtu ∉ K := h.uncovered i hi
  have hlt := hmax.lt
  have hle := hmax.le
  refine ⟨?_, ?_, hlt, hle, fun i hlo hhi => (hmiss i (by omega)).mp (hmax.all i hlo hhi)⟩
  · rcases hmax.left with hzero | hcovered
    · rw [hzero]
      exact dvd_zero _
    · rcases Nat.eq_zero_or_pos r.1 with hzero | hpos
      · rw [hzero]
        exact dvd_zero _
      · refine Tiling.dvd_of_change (P := fun i => i / pay mtu ∉ K) (fun i j hij hi => by rwa [← hij]) hpos ?_ ?_
        · exact (hmiss _ (by omega)).mp (hmax.all _ le_rfl hlt)
        · rwa [← hmiss _ (by omega)]
  · rcases Nat.lt_or_ge r.2 s₀.total.toNat with hin | hout
    · refine .inl ?_
      have hcovered := hmax.right.resolve_left (by omega)
      refine Tiling.dvd_of_change (P := fun i => i / pay mtu ∈ K) (fun i j hij hi => by rwa [← hij]) (by omega) ?_ ?_
      · rw [hmiss _ hin, not_not] at hcovered
        exact hcovered
      · exact (hmiss _ (by omega)).mp (hmax.all _ (by omega) (by omega))
    · exact .inr (by omega)

end Collected

end csp_intercept.svu_session
