import CspIntercept.Svu.Served

open csp_intercept.ci_svu csp_intercept.svu_proto csp_intercept.svu_serve

namespace csp_intercept.svu_session

/-- The size of the buffer that `ctrl_exchange` allocates for the manifest, and of the one
    the server sends. -/
def man_bytes (nblocks : UInt32) : UInt32 := nblocks * UInt32.ofNat CI_SVU_HASH_LEN

/-- `memcpy(manifest + got, mp->data, take)`. -/
structure ManifestCopy where
  got : UInt32
  mp : CspPacket
  take : UInt32

/-- The copies of the manifest loop of `ctrl_exchange`. -/
def manifest_copies (man_bytes : UInt32) : UInt32 → List CspPacket → List ManifestCopy
  | _, [] => []
  | got, mp :: reads =>
    if got < man_bytes then
      let take := if got + mp.length.toUInt32 > man_bytes then man_bytes - got else mp.length.toUInt32
      ⟨got, mp, take⟩ :: manifest_copies man_bytes (got + take) reads
    else []

/-- The copies are what the exchange makes its manifest of. -/
theorem read_manifest_eq_copies {man_bytes : UInt32} {reads : List CspPacket} {got : UInt32}
    {acc manifest : List UInt8} (h : read_manifest man_bytes got acc reads = some manifest) :
    manifest = acc ++ (manifest_copies man_bytes got reads).flatMap fun c => c.mp.data.take c.take.toNat := by
  induction reads generalizing got acc with
  | nil =>
    rw [read_manifest] at h
    split_ifs at h
    cases h
    simp [manifest_copies]
  | cons mp reads ih =>
    by_cases hmore : got < man_bytes
    · rw [read_manifest, if_pos hmore] at h
      have hrest := ih h
      rw [manifest_copies, if_pos hmore, List.flatMap_cons, ← List.append_assoc]
      exact hrest
    · rw [read_manifest, if_neg hmore] at h
      cases h
      simp [manifest_copies, hmore]

/-- No copy leaves the packet or the buffer, and every digest byte of `nblocks` blocks lies
    where some copy has put a byte of a packet. -/
structure CopiesWhole (nblocks : UInt32) (copies : List ManifestCopy) : Prop where
  taken : ∀ c ∈ copies, c.take.toNat ≤ c.mp.length.toNat
  written : ∀ c ∈ copies, c.got.toNat + c.take.toNat ≤ (man_bytes nblocks).toNat
  received : ∀ i < nblocks.toNat * CI_SVU_HASH_LEN,
    ∃ c ∈ copies, c.got.toNat ≤ i ∧ i < c.got.toNat + c.take.toNat

/-- The running total of the packet lengths passes 32 bits before the manifest is complete. -/
def Overruns (bytes : Nat) : Nat → List CspPacket → Prop
  | _, [] => False
  | got, mp :: reads => got < bytes ∧
    (4294967296 ≤ got + mp.length.toNat ∨ Overruns bytes (got + mp.length.toNat) reads)

theorem toNat_man_bytes (nblocks : UInt32) :
    (man_bytes nblocks).toNat = nblocks.toNat * CI_SVU_HASH_LEN % 4294967296 := by
  rw [man_bytes, UInt32.toNat_mul]
  rfl

section Loop

variable {bytes : UInt32} {reads : List CspPacket} {got : UInt32}

theorem manifest_copies_done (hdone : ¬ got < bytes) : manifest_copies bytes got reads = [] := by
  cases reads with
  | nil => rfl
  | cons mp reads => rw [manifest_copies, if_neg hdone]

/-- One turn of the loop that does not pass 32 bits takes all of the packet, or all that is
    still missing. -/
theorem copy_take_toNat (hmore : got.toNat < bytes.toNat) {len : UInt16}
    (hroom : got.toNat + len.toNat < 4294967296) :
    (if got + len.toUInt32 > bytes then bytes - got else len.toUInt32).toNat =
      min len.toNat (bytes.toNat - got.toNat) := by
  have hsum : (got + len.toUInt32).toNat = got.toNat + len.toNat := by
    rw [UInt32.toNat_add, UInt16.toNat_toUInt32]
    exact Nat.mod_eq_of_lt hroom
  split_ifs with hover
  · rw [gt_iff_lt, UInt32.lt_iff_toNat_lt, hsum] at hover
    rw [UInt32.toNat_sub_of_le _ _ (UInt32.le_iff_toNat_le.mpr hmore.le)]
    omega
  · rw [gt_iff_lt, UInt32.lt_iff_toNat_lt, hsum] at hover
    rw [UInt16.toNat_toUInt32]
    omega

/-- A loop whose total stays within 32 bits copies the manifest whole. -/
theorem copies_of_not_overruns {acc manifest : List UInt8}
    (hrun : read_manifest bytes got acc reads = some manifest)
    (hsum : ¬ Overruns bytes.toNat got.toNat reads) :
    (∀ c ∈ manifest_copies bytes got reads, c.take.toNat ≤ c.mp.length.toNat ∧
        c.got.toNat + c.take.toNat ≤ bytes.toNat) ∧
      ∀ i, got.toNat ≤ i → i < bytes.toNat →
        ∃ c ∈ manifest_copies bytes got reads, c.got.toNat ≤ i ∧ i < c.got.toNat + c.take.toNat := by
  induction reads generalizing got acc with
  | nil =>
    rw [read_manifest] at hrun
    split_ifs at hrun with hmore
    rw [UInt32.lt_iff_toNat_lt] at hmore
    exact ⟨by simp [manifest_copies], fun i hlo hhi => by omega⟩
  | cons mp reads ih =>
    by_cases hmore : got < bytes
    · have hmore' := UInt32.lt_iff_toNat_lt.mp hmore
      have hbytes := bytes.toNat_lt
      obtain ⟨hroom, hrest⟩ := not_or.mp fun h => hsum ⟨hmore', h⟩
      have htake := copy_take_toNat hmore' (Nat.not_le.mp hroom)
      rw [read_manifest, if_pos hmore] at hrun
      rw [manifest_copies, if_pos hmore]
      generalize (if got + mp.length.toUInt32 > bytes then bytes - got else mp.length.toUInt32) = take
        at htake hrun ⊢
      have hnext : (got + take).toNat = got.toNat + take.toNat := by
        rw [UInt32.toNat_add]
        omega
      have hlater : (∀ c ∈ manifest_copies bytes (got + take) reads, c.take.toNat ≤ c.mp.length.toNat ∧
            c.got.toNat + c.take.toNat ≤ bytes.toNat) ∧
          ∀ i, (got + take).toNat ≤ i → i < bytes.toNat → ∃ c ∈ manifest_copies bytes (got + take) reads,
            c.got.toNat ≤ i ∧ i < c.got.toNat + c.take.toNat := by
        by_cases hall : got.toNat + mp.length.toNat ≤ bytes.toNat
        · have hsame : (got + take).toNat = got.toNat + mp.length.toNat := by omega
          exact ih hrun (by rwa [hsame])
        · -- the packet that completes the manifest
          have hdone : ¬ got + take < bytes := by
            rw [UInt32.lt_iff_toNat_lt]
            omega
          rw [manifest_copies_done hdone]
          exact ⟨by simp, fun i hlo hhi => by omega⟩
      refine ⟨?_, fun i hlo hhi => ?_⟩
      · rintro c (_ | ⟨_, hc⟩)
        · change take.toNat ≤ mp.length.toNat ∧ got.toNat + take.toNat ≤ bytes.toNat
          omega
        · exact hlater.1 c hc
      · by_cases hin : i < got.toNat + take.toNat
        · exact ⟨_, List.mem_cons_self, hlo, hin⟩
        · obtain ⟨c, hc, hcov⟩ := hlater.2 i (by omega) hhi
          exact ⟨c, List.mem_cons_of_mem _ hc, hcov⟩
    · rw [manifest_copies_done hmore]
      rw [UInt32.lt_iff_toNat_lt] at hmore
      exact ⟨by simp, fun i hlo hhi => by omega⟩

/-- A total that passes 32 bits makes the clamp miss, and a copy leave the buffer. -/
theorem copy_outside_of_overruns (got : UInt32) (hsum : Overruns bytes.toNat got.toNat reads) :
    ∃ c ∈ manifest_copies bytes got reads, bytes.toNat < c.got.toNat + c.take.toNat := by
  induction reads generalizing got with
  | nil => exact hsum.elim
  | cons mp reads ih =>
    obtain ⟨hmore, hsum⟩ := hsum
    have hlt := UInt32.lt_iff_toNat_lt.mpr hmore
    have hbytes := bytes.toNat_lt
    have hlen := mp.length.toNat_lt
    rw [manifest_copies, if_pos hlt]
    by_cases hroom : got.toNat + mp.length.toNat < 4294967296
    · have hrest := hsum.resolve_left (Nat.not_le.mpr hroom)
      have htake := copy_take_toNat hmore hroom
      generalize (if got + mp.length.toUInt32 > bytes then bytes - got else mp.length.toUInt32) = take
        at htake ⊢
      have hinside : got.toNat + mp.length.toNat < bytes.toNat := by
        cases reads with
        | nil => exact hrest.elim
        | cons _ _ => exact hrest.1
      have hnext : (got + take).toNat = got.toNat + mp.length.toNat := by
        rw [UInt32.toNat_add]
        omega
      obtain ⟨c, hc, hout⟩ := ih _ (by rwa [hnext])
      exact ⟨c, List.mem_cons_of_mem _ hc, hout⟩
    · refine ⟨_, List.mem_cons_self, ?_⟩
      have hwrap : ¬ got + mp.length.toUInt32 > bytes := by
        rw [gt_iff_lt, UInt32.lt_iff_toNat_lt, UInt32.toNat_add, UInt16.toNat_toUInt32]
        omega
      simp only [if_neg hwrap, UInt16.toNat_toUInt32]
      omega

end Loop

/-- The manifest crosses a loss-free control connection whole: the server's loop ends and
    reads inside its manifest, the client's buffer has the manifest's size, and it receives the
    manifest. -/
structure ManifestCrosses (src : List UInt8) (total block : UInt32) (req : SvuReq) : Prop where
  sent : ∃ chunks, chunk_loop 200 (man_bytes (ci_svu_nblocks total block)) (2 ^ 32) 0 = some chunks ∧
    ∀ c ∈ chunks, c.1.toNat + c.2.toNat ≤ (ci_svu_nblocks total block).toNat * CI_SVU_HASH_LEN
  buffer : (man_bytes (ci_svu_nblocks total block)).toNat =
    (ci_svu_nblocks total block).toNat * CI_SVU_HASH_LEN
  exchanged : ∃ packets, serve_ctrl src total block req = some packets ∧
    ctrl_exchange { connected := true, buffer := true, memory := true, reads := packets } =
      some {
        total
        block
        nblocks := ci_svu_nblocks total block
        manifest := (ci_svu_manifest src total block).2 }

theorem manifest_crosses_iff {src : List UInt8} {total block : UInt32} {req : SvuReq} :
    ManifestCrosses src total block req ↔ (ci_svu_nblocks total block).toNat ≤ 134217725 := by
  have hsize := toNat_man_bytes (ci_svu_nblocks total block)
  constructor
  · rintro ⟨⟨chunks, hchunks, hin⟩, hbuffer, -⟩
    have hun := unwrapped_of_chunks 200 _ (by decide) hchunks fun c hc => by
      have hc' := hin c hc
      omega
    change 0 + ((man_bytes (ci_svu_nblocks total block)).toNat - 0 + 200 - 1) / 200 * 200 < 4294967296 at hun
    simp only [CI_SVU_HASH_LEN] at hbuffer
    omega
  · intro hfew
    have hbuffer : (man_bytes (ci_svu_nblocks total block)).toNat =
        (ci_svu_nblocks total block).toNat * CI_SVU_HASH_LEN := by
      rw [hsize]
      exact Nat.mod_eq_of_lt (by simp only [CI_SVU_HASH_LEN]; omega)
    have hun : Unwrapped 0 ((ci_svu_nblocks total block).toNat * CI_SVU_HASH_LEN) 200 := by
      simp only [Unwrapped, CI_SVU_HASH_LEN]
      omega
    obtain ⟨chunks, hchunks, hpieces, -⟩ := chunk_loop_pieces 200 (man_bytes (ci_svu_nblocks total block))
      (by decide) (2 ^ 32) 0 (Nat.zero_le _) (by rw [hbuffer]; exact hun)
      (by rw [hbuffer]; simp only [CI_SVU_HASH_LEN]; omega)
    refine ⟨⟨chunks, hchunks, fun c hc => ?_⟩, hbuffer, ?_⟩
    · have hin := hpieces.inside (piece c) (List.mem_map_of_mem hc)
      rw [← hbuffer]
      exact hin.2.2
    · exact ctrl_exchange_serve_ctrl src req hun (by simp only [CI_SVU_HASH_LEN]; omega)

/-- What a successful exchange has read: a header, and a manifest from the packets behind it. -/
theorem ctrl_exchange_reads {link : CtrlLink} {reply : CtrlReply} (h : ctrl_exchange link = some reply) :
    read_manifest (man_bytes reply.nblocks) 0 [] link.reads.tail = some reply.manifest := by
  rw [ctrl_exchange] at h
  by_cases hopen : ¬ link.connected ∨ ¬ link.buffer
  · rw [if_pos hopen] at h
    cases h
  rw [if_neg hopen] at h
  cases hreads : link.reads with
  | nil =>
    simp only [hreads] at h
    cases h
  | cons hp reads =>
    simp only [hreads] at h
    split_ifs at h
    split at h
    · cases h
    · rename_i manifest hmanifest
      cases h
      exact hmanifest

/-- Whatever header and packets are received: when the exchange succeeds and the receiver is
    built, the copies are whole exactly when the byte count of the header's blocks and the
    running total of the packets fit 32 bits. -/
theorem copies_whole_iff {link : CtrlLink} {reply : CtrlReply} {s₀ : CiSvu}
    (hreply : ctrl_exchange link = some reply)
    (hnew : ci_svu_new reply.total reply.block reply.manifest reply.nblocks = some s₀) :
    CopiesWhole reply.nblocks (manifest_copies (man_bytes reply.nblocks) 0 link.reads.tail) ↔
      reply.nblocks.toNat < 134217728 ∧ ¬ Overruns (man_bytes reply.nblocks).toNat 0 link.reads.tail := by
  have hread := ctrl_exchange_reads hreply
  obtain ⟨-, -, -, -, hne, -, -⟩ := ci_svu_new_spec hnew
  have hpos : 0 < reply.nblocks.toNat := by
    rw [Nat.pos_iff_ne_zero]
    intro hzero
    exact hne (UInt32.toNat_inj.mp hzero)
  have hsize := toNat_man_bytes reply.nblocks
  simp only [CI_SVU_HASH_LEN] at hsize
  constructor
  · intro hwhole
    refine ⟨?_, fun hover => ?_⟩
    · obtain ⟨c, hc, hlo, hhi⟩ := hwhole.received (reply.nblocks.toNat * 32 - 1)
        (by simp only [CI_SVU_HASH_LEN]; omega)
      have hwritten := hwhole.written c hc
      omega
    · obtain ⟨c, hc, hout⟩ := copy_outside_of_overruns 0 hover
      have hwritten := hwhole.written c hc
      omega
  · rintro ⟨hfew, hsum⟩
    obtain ⟨hcopies, hcover⟩ := copies_of_not_overruns hread hsum
    refine ⟨fun c hc => (hcopies c hc).1, fun c hc => (hcopies c hc).2, fun i hi => ?_⟩
    exact hcover i (Nat.zero_le i) (by simp only [CI_SVU_HASH_LEN] at hi; omega)

/-- The manifest crosses the control channel whole exactly as long as the 32-bit sizes of
    either side do not wrap. -/
theorem manifest_whole_iff (src : List UInt8) (total block : UInt32) (req : SvuReq) (link : CtrlLink)
    (reply : CtrlReply) (s₀ : CiSvu) :
    (0 < (ci_svu_nblocks total block).toNat →
      (ManifestCrosses src total block req ↔ (ci_svu_nblocks total block).toNat ≤ 134217725)) ∧
    (ctrl_exchange link = some reply →
      ci_svu_new reply.total reply.block reply.manifest reply.nblocks = some s₀ →
      s₀.expected = ((manifest_copies (man_bytes reply.nblocks) 0 link.reads.tail).flatMap fun c =>
        c.mp.data.take c.take.toNat).take (reply.nblocks.toNat * CI_SVU_HASH_LEN) ∧
      (CopiesWhole reply.nblocks (manifest_copies (man_bytes reply.nblocks) 0 link.reads.tail) ↔
        reply.nblocks.toNat < 134217728 ∧
          ¬ Overruns (man_bytes reply.nblocks).toNat 0 link.reads.tail)) := by
  refine ⟨fun _ => manifest_crosses_iff, fun hreply hnew => ⟨?_, ?_⟩⟩
  · obtain ⟨-, -, -, -, -, hexpected, -⟩ := ci_svu_new_spec hnew
    have hcopies := read_manifest_eq_copies (ctrl_exchange_reads hreply)
    rw [List.nil_append] at hcopies
    rw [hexpected, ← hcopies]
  · exact copies_whole_iff hreply hnew

/-- A file of 128 MiB in blocks of one byte: both sides compute a manifest of no bytes. -/
theorem manifest_not_whole_one_byte_blocks : ¬ ∀ (src : List UInt8) (total block : UInt32) (req : SvuReq),
    src.length = total.toNat → 0 < (ci_svu_nblocks total block).toNat →
      ManifestCrosses src total block req := by
  intro hall
  have hcrosses := hall (List.replicate 134217728 0) 134217728 1
    { magic := SVU_MAGIC_REQ, session_id := 1, mtu := 256, block_size := 1, nof_intervals := 0, client_addr := 0
      intervals := Vector.replicate SVU_MAX_INTERVALS ⟨0, 0⟩ } List.length_replicate (by decide)
  have hbuffer := hcrosses.buffer
  revert hbuffer
  decide

end csp_intercept.svu_session
