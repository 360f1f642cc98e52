import CspIntercept.Lib.Growth
import CspIntercept.Svu.Chunks
import CspIntercept.Svu.WriteOut

open Overlay csp_intercept.ci_svu csp_intercept.svu_proto csp_intercept.svu_serve

namespace csp_intercept.svu_session

/-- The loop has gone through `r` rounds without a good verdict, and `x` are its variables. -/
inductive Asking (net : Network) (block_size mtu : UInt32) : Nat → Rounds → Prop
  | start : Asking net block_size mtu 0 client_start
  | next {r : Nat} {x y : Rounds} (h : Asking net block_size mtu r x)
      (hround : client_round net block_size mtu (r + 1) x = some y) (hst : y.st ≠ .COMPLETE_VERIFIED) :
      Asking net block_size mtu (r + 1) y

/-- The request on the wire. -/
def request (block_size mtu : UInt32) (x : Rounds) : List UInt8 :=
  svu_req_encode (client_request block_size mtu x)

/-- The data packets the server sends for the request of the round after `x`. -/
def sent (src : List UInt8) (total block block_size mtu : UInt32) (x : Rounds) : List CspPacket :=
  (served src total block).data 0 (request block_size mtu x)

/-- What is left of the server's answer on a connection that loses packets; without the
    answer's header no packet of the manifest passes for one. -/
structure CutAnswer (answer reads : List CspPacket) : Prop where
  part : List.Sublist reads answer
  header : ∀ pkt, reads.head? = some pkt → answer.head? = some pkt ∨ svu_get32 pkt.data 0 ≠ SVU_MAGIC_RESP

/-- A network between the client and the server that loses, repeats, delays and
    reorders. -/
structure LossyNetwork (net : Network) (src : List UInt8) (total block block_size mtu : UInt32) : Prop where
  /-- A control connection may lose any of its packets, -/
  ctrl : ∀ r x, Asking net block_size mtu r x → ∀ attempt,
    CutAnswer ((served src total block).ctrl (r + 1) attempt (request block_size mtu x)).reads
      (net.ctrl (r + 1) attempt (request block_size mtu x)).reads
  /-- and a data packet that arrives was sent in this round or in one before. -/
  data : ∀ r x, Asking net block_size mtu r x → ∀ pkt ∈ net.data (r + 1) (request block_size mtu x),
    ∃ q ≤ r, ∃ y, Asking net block_size mtu q y ∧ pkt ∈ sent src total block block_size mtu y

/-- Data packet `k` of the file has come in one of the first `n` rounds. -/
def Arrived (net : Network) (src : List UInt8) (total block_size mtu : UInt32) (n k : Nat) : Prop :=
  ∃ q < n, ∃ y, Asking net block_size mtu q y ∧
    chunk_packet src total mtu k ∈ net.data (q + 1) (request block_size mtu y)

section Ctrl

/-- A manifest is only read from enough bytes. -/
theorem read_manifest_length {bytes got : UInt32} {acc m : List UInt8} {reads : List CspPacket}
    (hread : read_manifest bytes got acc reads = some m) :
    bytes.toNat ≤ got.toNat + (reads.map fun pkt => pkt.length.toNat).sum := by
  induction reads generalizing got acc with
  | nil =>
    rw [read_manifest] at hread
    split_ifs at hread with hmore
    rw [UInt32.lt_iff_toNat_lt] at hmore
    omega
  | cons pkt reads ih =>
    have hbytes := bytes.toNat_lt
    rw [List.map_cons, List.sum_cons]
    by_cases hmore : got < bytes
    · rw [read_manifest, if_pos hmore] at hread
      have hsum : (got + pkt.length.toUInt32).toNat = (got.toNat + pkt.length.toNat) % 4294967296 := by
        rw [UInt32.toNat_add, UInt16.toNat_toUInt32]
      have hmod := Nat.mod_le (got.toNat + pkt.length.toNat) 4294967296
      simp only at hread
      split_ifs at hread with hover
      · rw [gt_iff_lt, UInt32.lt_iff_toNat_lt, hsum] at hover
        omega
      · have hrest := ih hread
        rw [hsum] at hrest
        omega
    · rw [UInt32.lt_iff_toNat_lt] at hmore
      omega

/-- The server's answer: the header, and the manifest in packets that are as long as it. -/
theorem serve_ctrl_packets (src : List UInt8) {total block : UInt32} (req : SvuReq)
    (hroom : (ci_svu_nblocks total block).toNat * CI_SVU_HASH_LEN + 200 ≤ 2 ^ 32) :
    ∃ resp chunks, serve_ctrl src total block req = some (resp :: chunks) ∧
      svu_get32 resp.data 16 = ci_svu_nblocks total block ∧ (∀ pkt ∈ chunks, 0 < pkt.length.toNat) ∧
      (chunks.map fun pkt => pkt.length.toNat).sum =
        (ci_svu_nblocks total block * UInt32.ofNat CI_SVU_HASH_LEN).toNat := by
  have hbytes : (ci_svu_nblocks total block * UInt32.ofNat CI_SVU_HASH_LEN).toNat =
      (ci_svu_nblocks total block).toNat * CI_SVU_HASH_LEN := by
    have hlen : (UInt32.ofNat CI_SVU_HASH_LEN).toNat = CI_SVU_HASH_LEN := rfl
    rw [UInt32.toNat_mul, hlen, Nat.mod_eq_of_lt (by omega)]
  have hun : Unwrapped 0 (ci_svu_nblocks total block * UInt32.ofNat CI_SVU_HASH_LEN).toNat 200 := by
    rw [hbytes]
    exact unwrapped_of_room (by omega) (by omega) hroom
  obtain ⟨chunks, hchunks, hpieces, hsmall⟩ := chunk_loop_pieces 200
    (ci_svu_nblocks total block * UInt32.ofNat CI_SVU_HASH_LEN) (by decide) (2 ^ 32) 0 (Nat.zero_le _) hun
    (by rw [hbytes]; omega)
  have hfield : ∀ c ∈ chunks, c.2.toUInt16.toNat = c.2.toNat := by
    intro c hc
    have hle : c.2.toNat ≤ 200 := hsmall c hc
    rw [UInt32.toNat_toUInt16]
    omega
  refine ⟨_, _, by rw [serve_ctrl, send_manifest, hchunks]; rfl, ?_, ?_, ?_⟩
  · have hword : svu_get32 ([SVU_MAGIC_RESP, req.session_id, total, block, ci_svu_nblocks total block].flatMap
        svu_put32 ++ []) (4 * 4) = ci_svu_nblocks total block := svu_get32_flatMap rfl []
    rwa [List.append_nil] at hword
  · intro pkt hpkt
    obtain ⟨c, hc, rfl⟩ := List.mem_map.mp hpkt
    have hin := hpieces.inside (piece c) (List.mem_map_of_mem hc)
    change 0 < c.2.toUInt16.toNat
    rw [hfield c hc]
    exact hin.2.1
  · have hsum := hpieces.sum_length
    rw [UInt32.toNat_zero, Nat.zero_add, List.map_map] at hsum
    rw [List.map_map, ← hsum]
    exact congrArg List.sum (List.map_congr_left hfield)

/-- What the client gets to know of the file. -/
def server_reply (src : List UInt8) (total block : UInt32) : CtrlReply where
  total
  block
  nblocks := ci_svu_nblocks total block
  manifest := (ci_svu_manifest src total block).2

theorem ctrl_exchange_served {src : List UInt8} {total block block_size mtu : UInt32} (round attempt : Nat)
    (hserved : Served src total block mtu) (x : Rounds) :
    ctrl_exchange ((served src total block).ctrl round attempt (request block_size mtu x)) =
      some (server_reply src total block) := by
  have hroom := hserved.manifest
  obtain ⟨packets, hpackets, hreply⟩ := ctrl_exchange_serve_ctrl src
    (received (client_request block_size mtu x)) (unwrapped_of_room (by omega) (by omega) hroom) (by omega)
  simp only [served, request, decode_client_request, Option.bind_some, hpackets, Option.getD_some]
  exact hreply

/-- What a control exchange that goes through has met. -/
theorem ctrl_exchange_some {link : CtrlLink} {reply : CtrlReply} (hreply : ctrl_exchange link = some reply) :
    ∃ hp reads manifest, link = { connected := true, buffer := true, memory := true, reads := hp :: reads } ∧
      svu_get32 hp.data 0 = SVU_MAGIC_RESP ∧
      read_manifest (svu_get32 hp.data 16 * UInt32.ofNat CI_SVU_HASH_LEN) 0 [] reads = some manifest := by
  obtain ⟨connected, buffer, memory, reads⟩ := link
  cases reads with
  | nil =>
    simp only [ctrl_exchange] at hreply
    split_ifs at hreply
  | cons hp reads =>
    simp only [ctrl_exchange] at hreply
    cases hman : read_manifest (svu_get32 hp.data 16 * UInt32.ofNat CI_SVU_HASH_LEN) 0 [] reads with
    | none =>
      simp only [hman] at hreply
      split_ifs at hreply
    | some manifest =>
      simp only [hman] at hreply
      split_ifs at hreply with hopen hbad hmem
      rw [not_or, not_not] at hbad
      rw [not_or, not_not, not_not] at hopen
      exact ⟨hp, reads, manifest, by rw [hopen.1, hopen.2, hmem], hbad.2, hman⟩

/-- A control exchange that goes through has read the whole answer. -/
theorem ctrl_exchange_cut {src : List UInt8} {total block block_size mtu : UInt32} {round attempt : Nat}
    (hserved : Served src total block mtu) {x : Rounds} {link : CtrlLink} {reply : CtrlReply}
    (hcut : CutAnswer ((served src total block).ctrl round attempt (request block_size mtu x)).reads link.reads)
    (hreply : ctrl_exchange link = some reply) : reply = server_reply src total block := by
  obtain ⟨resp, chunks, hserve, hnblocks, hpos, hsum⟩ := serve_ctrl_packets src
    (received (client_request block_size mtu x)) hserved.manifest
  have hanswer : ((served src total block).ctrl round attempt (request block_size mtu x)).reads = resp :: chunks := by
    simp only [served, request, decode_client_request, Option.bind_some, hserve, Option.getD_some]
  have hwhole : ctrl_exchange ((served src total block).ctrl round attempt (request block_size mtu x)) =
      some (server_reply src total block) := ctrl_exchange_served round attempt hserved x
  rw [hanswer] at hcut
  obtain ⟨hp, reads, manifest, rfl, hmagic, hread⟩ := ctrl_exchange_some hreply
  rcases hcut.header hp rfl with hhead | hbad
  · obtain rfl : resp = hp := Option.some.inj hhead
    have hpart : List.Sublist reads chunks := List.cons_sublist_cons.mp hcut.part
    have hlength := read_manifest_length hread
    rw [hnblocks, ← hsum, UInt32.toNat_zero, Nat.zero_add] at hlength
    obtain rfl := Tiling.eq_of_sublist_of_sum_le hpart hpos hlength
    have hlink : (served src total block).ctrl round attempt (request block_size mtu x) =
        { connected := true, buffer := true, memory := true, reads := resp :: reads } := by
      rw [← hanswer]
      rfl
    rw [hlink, hreply] at hwhole
    exact Option.some.inj hwhole
  · exact absurd hmagic hbad

/-- For a client's request the serve loop sends the answer and these data packets. -/
theorem sent_of_serve_data {src : List UInt8} {total block block_size mtu : UInt32} {x : Rounds}
    (hserved : Served src total block mtu) {packets : List CspPacket}
    (hdata : serve_data src total (received (client_request block_size mtu x)) = some packets) :
    sent src total block block_size mtu x = packets := by
  obtain ⟨resp, chunks, hctrl, -⟩ := serve_ctrl_packets src (received (client_request block_size mtu x)) hserved.manifest
  have hbody : svu_serve_loop_body src total block (request block_size mtu x) = some (resp :: chunks, packets) := by
    rw [svu_serve_loop_body, request, decode_client_request]
    simp only [hctrl, hdata]
  exact (served_serve_loop_body hbody 0 0).2

/-- The client learns the truth about the file, or nothing. -/
theorem LossyNetwork.ctrl_retry {net : Network} {src : List UInt8} {total block block_size mtu : UInt32} {r : Nat}
    {x : Rounds} (hserved : Served src total block mtu) (hnet : LossyNetwork net src total block block_size mtu)
    (h : Asking net block_size mtu r x) {reply : CtrlReply}
    (hreply : svu_session.ctrl_retry net (r + 1) (request block_size mtu x) = some reply) :
    reply = server_reply src total block := by
  obtain ⟨attempt, -, hexchange⟩ := List.exists_of_findSome?_eq_some hreply
  exact ctrl_exchange_cut hserved (hnet.ctrl r x h attempt) hexchange

end Ctrl

section Run

variable {net : Network} {src : List UInt8} {total block block_size mtu : UInt32} {r : Nat} {x y : Rounds}

theorem Asking.unique (h : Asking net block_size mtu r x) (h' : Asking net block_size mtu r y) : x = y := by
  induction h generalizing y with
  | start =>
    cases h'
    rfl
  | next _ hround _ ih =>
    cases h' with
    | next h' hround' _ =>
      obtain rfl := ih h'
      exact Option.some.inj (hround.symm.trans hround')

/-- What has come after one more round. -/
theorem Asking.arrived_succ_iff (h : Asking net block_size mtu r x) (k : Nat) :
    Arrived net src total block_size mtu (r + 1) k ↔ Arrived net src total block_size mtu r k ∨
      chunk_packet src total mtu k ∈ net.data (r + 1) (request block_size mtu x) := by
  constructor
  · rintro ⟨q, hq, y, hy, hmem⟩
    rcases Nat.lt_or_ge q r with hlt | hge
    · exact .inl ⟨q, hlt, y, hy, hmem⟩
    · obtain rfl : q = r := by omega
      obtain rfl := hy.unique h
      exact .inr hmem
  · rintro (⟨q, hq, y, hy, hmem⟩ | hmem)
    · exact ⟨q, by omega, y, hy, hmem⟩
    · exact ⟨r, Nat.lt_succ_self r, x, h, hmem⟩

theorem not_arrived_zero (k : Nat) : ¬ Arrived net src total block_size mtu 0 k :=
  fun ⟨_, hq, _⟩ => absurd hq (Nat.not_lt_zero _)

theorem Arrived.mono {n m k : Nat} (hle : n ≤ m) (h : Arrived net src total block_size mtu n k) :
    Arrived net src total block_size mtu m k := by
  obtain ⟨q, hq, hrest⟩ := h
  exact ⟨q, hq.trans_le hle, hrest⟩

/-- Where the loop stands after a round: the receiver holds the data packets that came. -/
structure Standing (net : Network) (src : List UInt8) (s₀ : CiSvu) (block_size mtu : UInt32) (n : Nat)
    (x : Rounds) (s : CiSvu) : Prop where
  after : AfterVerify s x
  total : x.total = s₀.total
  collected : ∃ K, Collected src mtu s₀ s K ∧
    ∀ k < nof_chunks s₀.total mtu, (k ∈ K ↔ Arrived net src s₀.total block_size mtu n k)

variable {s₀ s : CiSvu}

/-- Nothing is ever found wrong, and the verdict is good once everything has come. -/
theorem Standing.verdict (hserved : Served src s₀.total block mtu) (hm : UnderManifest src s₀) {n : Nat}
    (h : Standing net src s₀ block_size mtu n x s) :
    (x.st = .COMPLETE_VERIFIED ↔
        ∀ k < nof_chunks s₀.total mtu, Arrived net src s₀.total block_size mtu n k) ∧ x.st ≠ .CORRUPT := by
  obtain ⟨K, hK, hiff⟩ := h.collected
  obtain ⟨holes, hphase⟩ := hK.phase hm
  obtain ⟨hgood, -, -⟩ := hphase.after_verify h.after
  have hnone := hK.holes_eq_nil_iff hserved.pay_pos hphase
  refine ⟨?_, fun hcorrupt => ?_⟩
  · rw [hgood, and_iff_left rfl, hnone]
    exact forall₂_congr hiff
  · obtain ⟨out, -, hst, -⟩ := h.after.verdict
    obtain ⟨ws, hws⟩ := hphase.reach
    obtain ⟨holes', hholes', hincomplete, -⟩ := ci_svu_verify_ranges hws SVU_MAX_INTERVALS
    obtain rfl := hphase.holes.unique hholes'
    have hnil : holes = [] := by
      by_contra hne
      rw [hst, (hincomplete out).mpr hne] at hcorrupt
      cases hcorrupt
    rw [hgood.mpr ⟨hnil, rfl⟩] at hcorrupt
    cases hcorrupt

/-- For a request with ranges the server sends missing data packets, and at least one. -/
theorem Standing.sent_missing (hserved : Served src s₀.total block mtu) (hm : UnderManifest src s₀) {n : Nat}
    (h : Standing net src s₀ block_size mtu n x s) (hst : x.st ≠ .COMPLETE_VERIFIED) :
    sent src s₀.total block block_size mtu x ≠ [] ∧
      ∀ pkt ∈ sent src s₀.total block block_size mtu x, ∃ k < nof_chunks s₀.total mtu,
        pkt = chunk_packet src s₀.total mtu k ∧ ¬ Arrived net src s₀.total block_size mtu n k := by
  obtain ⟨K, hK, hiff⟩ := h.collected
  obtain ⟨holes, hphase⟩ := hK.phase hm
  obtain ⟨hgood, hlen, hrequest⟩ := hphase.after_verify h.after
  obtain ⟨hnreq, hivs⟩ := hrequest hst
  have hne : holes ≠ [] := fun hnil => hst (hgood.mpr ⟨hnil, rfl⟩)
  have haligned := hK.hole_aligned hphase
  rw [wanted, if_pos hne] at hnreq hivs
  have hpos : 0 < x.nreq := by
    rw [hnreq, List.length_take]
    exact Nat.lt_min.mpr ⟨by decide, List.length_pos_of_ne_nil hne⟩
  have hle : x.nreq ≤ SVU_MAX_INTERVALS := by
    rw [hnreq, List.length_take]
    exact Nat.min_le_left _ _
  have hserve : serve_data src s₀.total (received (client_request block_size mtu x)) =
      blast_requested 1 mtu src s₀.total (x.ivs.take x.nreq) :=
    serve_data_received hserved.mtu_gt s₀.total block_size hpos hle hlen
  rw [hivs] at hserve
  obtain ⟨packets, hblast, hcarry⟩ := blast_requested_carries hserved.length hserved.mtu_gt hserved.mtu_le
    hserved.room 1 (R := holes.take SVU_MAX_INTERVALS) fun r hr => by
      obtain ⟨-, -, hlt, hle, -⟩ := haligned r (List.mem_of_mem_take hr)
      exact ⟨hlt, hle⟩
  rw [sent_of_serve_data hserved (hserve.trans hblast)]
  refine ⟨?_, fun pkt hpkt => ?_⟩
  · rintro rfl
    obtain ⟨r, holes, rfl⟩ := List.exists_cons_of_ne_nil hne
    obtain ⟨-, -, hlt, -, -⟩ := haligned r List.mem_cons_self
    obtain ⟨f, hf, -⟩ := hcarry.complete r (List.mem_cons_self) r.1 le_rfl hlt
    exact absurd hf List.not_mem_nil
  · obtain ⟨k, hk, heq, r, hr, hlo, hhi⟩ := hserved.blast_requested_chunks (R := holes.take SVU_MAX_INTERVALS)
      (fun r hr => by
        obtain ⟨hdvd, hend, hlt, hle, -⟩ := haligned r (List.mem_of_mem_take hr)
        exact ⟨hdvd, hend, hlt, hle⟩) hblast pkt hpkt
    obtain ⟨-, -, -, -, hmissing⟩ := haligned r (List.mem_of_mem_take hr)
    have hk' := hmissing _ hlo hhi
    rw [Nat.mul_div_cancel k hserved.pay_pos] at hk'
    exact ⟨k, hk, heq, fun harr => hk' ((hiff k hk).mpr harr)⟩

/-- For the first request the server sends the whole file. -/
theorem sent_start (hserved : Served src total block mtu) (block_size : UInt32) :
    sent src total block block_size mtu client_start ≠ [] ∧
      ∀ pkt ∈ sent src total block block_size mtu client_start, ∃ k < nof_chunks total mtu,
        pkt = chunk_packet src total mtu k := by
  obtain ⟨packets, hblast, hcarry⟩ := blast_interval_carries hserved.length hserved.mtu_gt hserved.mtu_le
    hserved.room 1 0 total le_rfl
  have hmtu : (received (client_request block_size mtu client_start)).mtu > SVU_DATA_HDR :=
    UInt32.lt_iff_toNat_lt.mpr hserved.mtu_gt
  have hserve : serve_data src total (received (client_request block_size mtu client_start)) = some packets := by
    rw [serve_data, if_pos hmtu]
    exact hblast
  rw [sent_of_serve_data hserved hserve]
  refine ⟨?_, fun pkt hpkt => ?_⟩
  · rintro rfl
    obtain ⟨f, hf, -⟩ := hcarry.complete _ (List.mem_singleton_self _) 0 le_rfl hserved.total_pos
    exact absurd hf List.not_mem_nil
  · obtain ⟨k, hk, heq, -⟩ := hserved.blast_chunks (dvd_zero _) (.inr rfl) le_rfl hblast pkt hpkt
    exact ⟨k, hk, heq⟩

/-- The packets of a round add to what the receiver has collected. -/
theorem Collected.round (hserved : Served src s₀.total block mtu) (h : Asking net block_size mtu r x)
    {K : Finset Nat} (hK : Collected src mtu s₀ s K)
    (hiff : ∀ k < nof_chunks s₀.total mtu, (k ∈ K ↔ Arrived net src s₀.total block_size mtu r k))
    (hdata : ∀ pkt ∈ net.data (r + 1) (request block_size mtu x), ∃ k < nof_chunks s₀.total mtu,
      pkt = chunk_packet src s₀.total mtu k) :
    ∃ K', Collected src mtu s₀ (drain_data s (net.data (r + 1) (request block_size mtu x))) K' ∧
      ∀ k < nof_chunks s₀.total mtu, (k ∈ K' ↔ Arrived net src s₀.total block_size mtu (r + 1) k) := by
  refine ⟨_, hK.drain hserved hdata, fun k hk => ?_⟩
  rw [Finset.mem_union, hiff k hk, h.arrived_succ_iff, List.mem_toFinset, List.mem_map]
  refine or_congr_right ⟨?_, fun hmem => ⟨_, hmem, (hserved.chunk_fragment hk).1⟩⟩
  rintro ⟨pkt, hpkt, hnum⟩
  obtain ⟨j, hj, rfl⟩ := hdata pkt hpkt
  rw [(hserved.chunk_fragment hj).1] at hnum
  rwa [← hnum]

/-- What a round that goes through leaves behind. -/
theorem client_round_after {round : Nat} (hround : client_round net block_size mtu round x = some y)
    (hlen : x.ivs.length = SVU_MAX_INTERVALS) :
    ∃ reply recv, ctrl_retry net round (request block_size mtu x) = some reply ∧
      round_receiver net x reply = some (recv, y.total) ∧
        AfterVerify (drain_data recv (net.data round (request block_size mtu x))) y := by
  unfold request
  rw [client_round] at hround
  cases hreply : ctrl_retry net round (svu_req_encode (client_request block_size mtu x)) with
  | none =>
    simp only [hreply] at hround
    cases hround
  | some reply =>
    cases hrecv : round_receiver net x reply with
    | none =>
      simp only [hreply, hrecv] at hround
      cases hround
    | some recv =>
      simp only [hreply, hrecv] at hround
      cases hround
      refine ⟨reply, recv.1, rfl, hrecv, rfl, x.ivs, hlen, rfl, rfl, fun hne => ?_⟩
      simp only [hne, if_false]
      split_ifs <;> omega

/-- A new receiver has collected nothing. -/
theorem Collected.new (hstart : Reassembles s₀ [] s₀) : Collected src mtu s₀ s₀ ∅ := by
  refine ⟨⟨[], hstart, fun w hw => absurd hw List.not_mem_nil⟩, fun i hi => ?_⟩
  rw [hstart.uncovered_iff_missing hi]
  exact iff_of_true (fun w hw => absurd hw List.not_mem_nil) (Finset.notMem_empty _)

/-- One round from where the loop stands; in the first one the receiver is built. -/
theorem client_round_standing (hserved : Served src s₀.total block mtu)
    (hnew : ci_svu_new s₀.total block (ci_svu_manifest src s₀.total block).2
      (ci_svu_manifest src s₀.total block).1 = some s₀)
    (hnet : LossyNetwork net src s₀.total block block_size mtu) (h : Asking net block_size mtu r x)
    (hx : r = 0 ∧ x = client_start ∨ ∃ s, Standing net src s₀ block_size mtu r x s)
    (hdata : ∀ pkt ∈ net.data (r + 1) (request block_size mtu x), ∃ k < nof_chunks s₀.total mtu,
      pkt = chunk_packet src s₀.total mtu k)
    (hround : client_round net block_size mtu (r + 1) x = some y) :
    ∃ s, Standing net src s₀ block_size mtu (r + 1) y s := by
  obtain ⟨-, -, -, -, -, -, hstart⟩ := ci_svu_new_spec hnew
  have hm := under_manifest hserved.length hnew
  rcases hx with ⟨rfl, rfl⟩ | ⟨s, hs⟩
  · obtain ⟨reply, recv, hreply, hrecv, hafter⟩ := client_round_after hround List.length_replicate
    obtain rfl := hnet.ctrl_retry hserved h hreply
    have hnew' : ci_svu_new (server_reply src s₀.total block).total (server_reply src s₀.total block).block
        (server_reply src s₀.total block).manifest (server_reply src s₀.total block).nblocks = some s₀ := hnew
    simp only [round_receiver, client_start, hnew', Option.map_some] at hrecv
    split_ifs at hrecv with hmem
    obtain ⟨rfl, htotal⟩ := Prod.mk.inj (Option.some.inj hrecv)
    refine ⟨_, hafter, htotal.symm, ?_⟩
    refine (Collected.new hstart).round hserved h (fun k _ => ?_) hdata
    exact iff_of_false (Finset.notMem_empty k) (not_arrived_zero k)
  · obtain ⟨K, hK, hiff⟩ := hs.collected
    obtain ⟨holes, hphase⟩ := hK.phase hm
    obtain ⟨-, hlen, -⟩ := hphase.after_verify hs.after
    obtain ⟨reply, recv, -, hrecv, hafter⟩ := client_round_after hround hlen
    simp only [round_receiver, hs.after.recv] at hrecv
    obtain ⟨rfl, htotal⟩ := Prod.mk.inj (Option.some.inj hrecv)
    exact ⟨_, hafter, htotal.symm.trans hs.total, hK.round hserved h hiff hdata⟩

/-- Every state of the loop is a standing one, and what is sent then is missing. -/
theorem Asking.standing (hserved : Served src s₀.total block mtu)
    (hnew : ci_svu_new s₀.total block (ci_svu_manifest src s₀.total block).2
      (ci_svu_manifest src s₀.total block).1 = some s₀)
    (hnet : LossyNetwork net src s₀.total block block_size mtu) (h : Asking net block_size mtu r x) :
    (r = 0 ∧ x = client_start ∨ ∃ s, Standing net src s₀ block_size mtu r x s) ∧
      sent src s₀.total block block_size mtu x ≠ [] ∧
      ∀ pkt ∈ sent src s₀.total block block_size mtu x, ∃ k < nof_chunks s₀.total mtu,
        pkt = chunk_packet src s₀.total mtu k ∧ ¬ Arrived net src s₀.total block_size mtu r k := by
  have hm := under_manifest hserved.length hnew
  -- what arrives in a round was sent in it or before it, so by induction it is of the file
  induction r using Nat.strongRecOn generalizing x with
  | ind r ih =>
    cases h with
    | start =>
      obtain ⟨hne, hsent⟩ := sent_start hserved block_size
      refine ⟨.inl ⟨rfl, rfl⟩, hne, fun pkt hpkt => ?_⟩
      obtain ⟨k, hk, heq⟩ := hsent pkt hpkt
      exact ⟨k, hk, heq, not_arrived_zero k⟩
    | @next r w x h hround hst =>
      have hdata : ∀ pkt ∈ net.data (r + 1) (request block_size mtu w), ∃ k < nof_chunks s₀.total mtu,
          pkt = chunk_packet src s₀.total mtu k := by
        intro pkt hpkt
        obtain ⟨q, hq, v, hv, hsent⟩ := hnet.data r w h pkt hpkt
        obtain ⟨k, hk, heq, -⟩ := (ih q (by omega) hv).2.2 pkt hsent
        exact ⟨k, hk, heq⟩
      obtain ⟨s, hs⟩ := client_round_standing hserved hnew hnet h (ih r (by omega) h).1 hdata hround
      exact ⟨.inr ⟨s, hs⟩, hs.sent_missing hserved hm hst⟩

/-- Every round from there is one, too. -/
theorem Asking.round_standing (hserved : Served src s₀.total block mtu)
    (hnew : ci_svu_new s₀.total block (ci_svu_manifest src s₀.total block).2
      (ci_svu_manifest src s₀.total block).1 = some s₀)
    (hnet : LossyNetwork net src s₀.total block block_size mtu) (h : Asking net block_size mtu r x)
    (hround : client_round net block_size mtu (r + 1) x = some y) :
    ∃ s, Standing net src s₀ block_size mtu (r + 1) y s := by
  refine client_round_standing hserved hnew hnet h (h.standing hserved hnew hnet).1 (fun pkt hpkt => ?_) hround
  obtain ⟨q, hq, v, hv, hsent⟩ := hnet.data r x h pkt hpkt
  obtain ⟨k, hk, heq, -⟩ := (hv.standing hserved hnew hnet).2.2 pkt hsent
  exact ⟨k, hk, heq⟩

end Run

section Outcome

variable {net : Network} {src : List UInt8} {total block block_size mtu : UInt32} {r : Nat} {x y : Rounds}

/-- The loop goes through round `r + 1`, and by then everything has come. -/
def Completes (net : Network) (src : List UInt8) (total block_size mtu : UInt32) (r : Nat) : Prop :=
  ∃ x y, Asking net block_size mtu r x ∧ client_round net block_size mtu (r + 1) x = some y ∧
    ∀ k < nof_chunks total mtu, Arrived net src total block_size mtu (r + 1) k

/-- What a transfer over a lossy network does, in every round of it. -/
structure LossyTransfer (net : Network) (src : List UInt8) (total block block_size mtu : UInt32) : Prop where
  /-- The server is only ever asked for what has not come, and always for something. -/
  asked : ∀ r x, Asking net block_size mtu r x → sent src total block block_size mtu x ≠ [] ∧
    ∀ pkt ∈ sent src total block block_size mtu x, ∃ k < nof_chunks total mtu,
      pkt = chunk_packet src total mtu k ∧ ¬ Arrived net src total block_size mtu r k
  /-- The receiver has the source's bytes where a packet came, and nothing elsewhere. -/
  holds : ∀ r x y, Asking net block_size mtu r x → client_round net block_size mtu (r + 1) x = some y →
    ∃ s, y.recv = some s ∧ s.data.length = total.toNat ∧ ∀ i < total.toNat,
      (Arrived net src total block_size mtu (r + 1) (i / pay mtu) →
        s.covered[i]? = some true ∧ s.data[i]? = src[i]?) ∧
      (¬ Arrived net src total block_size mtu (r + 1) (i / pay mtu) →
        s.covered[i]? = some false ∧ s.data[i]? = some 0)
  /-- It is never found corrupt, and it verifies exactly when every packet has come. -/
  verdict : ∀ r x y, Asking net block_size mtu r x → client_round net block_size mtu (r + 1) x = some y →
    y.st ≠ .CORRUPT ∧
      (y.st = .COMPLETE_VERIFIED ↔ ∀ k < nof_chunks total mtu, Arrived net src total block_size mtu (r + 1) k)
  /-- The run ends with the write-out of the source exactly when everything comes in time. -/
  complete : ∀ file max_rounds, (∃ r < max_rounds.toNat, Completes net src total block_size mtu r) →
    svu_client_run net file block_size mtu max_rounds =
      if file.fopen_ok then (0, some (src.take file.on_disk)) else (-1, none)
  incomplete : ∀ file max_rounds, (¬ ∃ r < max_rounds.toNat, Completes net src total block_size mtu r) →
    svu_client_run net file block_size mtu max_rounds = (-1, none)

/-- The loop goes on to a later round from here. -/
theorem Asking.between {q : Nat} {w : Rounds} (h : Asking net block_size mtu r x)
    (hw : Asking net block_size mtu q w) (hlt : r < q) :
    ∃ z, client_round net block_size mtu (r + 1) x = some z ∧ z.st ≠ .COMPLETE_VERIFIED := by
  induction hw with
  | start => cases hlt
  | @next q v w hv hround hst ih =>
    rcases Nat.lt_or_ge r q with hmore | hlast
    · exact ih hmore
    · obtain rfl : q = r := by omega
      obtain rfl := hv.unique h
      exact ⟨w, hround, hst⟩

/-- The loop stops in the first round whose verdict is good, if it gets there. -/
theorem client_rounds_of_verified {q n : Nat} {w : Rounds} (h : Asking net block_size mtu r x)
    (hw : Asking net block_size mtu q w) (hround : client_round net block_size mtu (q + 1) w = some y)
    (hst : y.st = .COMPLETE_VERIFIED) (hlo : r ≤ q) (hhi : q < r + n) :
    client_rounds net block_size mtu n r x = some (y, q + 1) := by
  induction n generalizing r x with
  | zero => omega
  | succ n ih =>
    rw [client_rounds]
    rcases Nat.eq_or_lt_of_le hlo with rfl | hlt
    · obtain rfl := hw.unique h
      simp only [hround, hst, if_true]
    · obtain ⟨z, hz, hne⟩ := h.between hw hlt
      simp only [hz, hne, if_false]
      exact ih (h.next hz hne) hlt (by omega)

theorem verified_of_client_rounds {n k : Nat} (h : Asking net block_size mtu r x)
    (hrun : client_rounds net block_size mtu n r x = some (y, k)) (hx : x.st ≠ .COMPLETE_VERIFIED)
    (hst : y.st = .COMPLETE_VERIFIED) : ∃ q w, q < r + n ∧ Asking net block_size mtu q w ∧
      client_round net block_size mtu (q + 1) w = some y := by
  induction n generalizing r x with
  | zero =>
    cases hrun
    exact absurd hst hx
  | succ n ih =>
    obtain ⟨z, hz, ⟨-, rfl, -⟩ | ⟨hne, hrest⟩⟩ := client_rounds_cases hrun
    · exact ⟨r, x, by omega, h, hz⟩
    · obtain ⟨q, w, hq, hw, hround⟩ := ih (h.next hz hne) hrest hne
      exact ⟨q, w, by omega, hw, hround⟩

/-- What is in the buffer at an offset. -/
theorem Collected.at {s₀ s : CiSvu} {K : Finset Nat} (hsrc : src.length = s₀.total.toNat)
    (h : Collected src mtu s₀ s K) {i : Nat} (hi : i < s₀.total.toNat) :
    (i / pay mtu ∈ K → s.covered[i]? = some true ∧ s.data[i]? = src[i]?) ∧
      (i / pay mtu ∉ K → s.covered[i]? = some false ∧ s.data[i]? = some 0) := by
  have hdata := h.data hsrc
  have hcovered := h.uncovered i hi
  obtain ⟨ws, hreach, -⟩ := h.reach
  have hi' : i < src.length := by omega
  have hget := hreach.getElem?_covered hi
  rw [Uncovered, hget] at hcovered
  refine ⟨fun hin => ⟨?_, ?_⟩, fun hout => ⟨?_, ?_⟩⟩
  · rw [hget]
    cases hsome : (lastWrite ws i).isSome with
    | true => rfl
    | false => exact absurd hin (hcovered.mp (by rw [hsome]))
  · rw [hdata, List.getElem?_map, List.getElem?_range hi, Option.map_some, if_pos hin, List.getD_eq_getElem _ _ hi',
      List.getElem?_eq_getElem hi']
  · rw [hget]
    exact hcovered.mpr hout
  · rw [hdata, List.getElem?_map, List.getElem?_range hi, Option.map_some, if_neg hout]

/-- The receiver of the file that is served. -/
theorem Served.receiver (hserved : Served src total block mtu) :
    ∃ s₀, s₀.total = total ∧ UnderManifest src s₀ ∧ ci_svu_new s₀.total block (ci_svu_manifest src s₀.total block).2
      (ci_svu_manifest src s₀.total block).1 = some s₀ := by
  obtain ⟨s₀, hnew⟩ := ci_svu_new_manifest src hserved.total_pos hserved.block_pos hserved.sum
  have hm := under_manifest hserved.length hnew
  obtain ⟨rfl, -⟩ := ci_svu_new_spec hnew
  exact ⟨s₀, rfl, hm, hnew⟩

variable (hserved : Served src total block mtu) (hnet : LossyNetwork net src total block block_size mtu)
include hserved hnet

/-- What the server is asked for has not come. -/
theorem Asking.asked (h : Asking net block_size mtu r x) : sent src total block block_size mtu x ≠ [] ∧
    ∀ pkt ∈ sent src total block block_size mtu x, ∃ k < nof_chunks total mtu,
      pkt = chunk_packet src total mtu k ∧ ¬ Arrived net src total block_size mtu r k := by
  obtain ⟨s₀, rfl, -, hnew⟩ := hserved.receiver
  exact (h.standing hserved hnew hnet).2

/-- What a round finds out. -/
theorem Asking.verdict (h : Asking net block_size mtu r x)
    (hround : client_round net block_size mtu (r + 1) x = some y) : y.st ≠ .CORRUPT ∧
      (y.st = .COMPLETE_VERIFIED ↔ ∀ k < nof_chunks total mtu, Arrived net src total block_size mtu (r + 1) k) := by
  obtain ⟨s₀, rfl, hm, hnew⟩ := hserved.receiver
  obtain ⟨s, hs⟩ := h.round_standing hserved hnew hnet hround
  exact (hs.verdict hserved hm).symm

/-- A run in which everything comes in time writes the source. -/
theorem svu_client_run_completes (file : OutFile) (max_rounds : UInt32)
    (hcomplete : ∃ r < max_rounds.toNat, Completes net src total block_size mtu r) :
    svu_client_run net file block_size mtu max_rounds =
      if file.fopen_ok then (0, some (src.take file.on_disk)) else (-1, none) := by
  obtain ⟨s₀, rfl, hm, hnew⟩ := hserved.receiver
  obtain ⟨r, hr, x, y, h, hround, hall⟩ := hcomplete
  have hst := (h.verdict hserved hnet hround).2.mpr hall
  obtain ⟨s, hs⟩ := h.round_standing hserved hnew hnet hround
  obtain ⟨K, hK, hiff⟩ := hs.collected
  have hdata : s.data = src := by
    rw [hK.data hserved.length]
    apply List.ext_getElem?
    intro i
    by_cases hi : i < s₀.total.toNat
    · have hk := Tiling.div_lt_count hserved.pay_pos hi
      have hi' : i < src.length := by rwa [hserved.length]
      rw [List.getElem?_map, List.getElem?_range hi, Option.map_some, if_pos ((hiff _ hk).mpr (hall _ hk)),
        List.getD_eq_getElem _ _ hi', List.getElem?_eq_getElem hi']
    · rw [List.getElem?_eq_none (by simpa using hi), List.getElem?_eq_none (by rw [hserved.length]; omega)]
  have hrun := client_rounds_of_verified (n := max_rounds.toNat) .start h hround hst (Nat.zero_le r) (by omega)
  simp only [svu_client_run, hrun, hst, hs.after.recv, ne_eq, not_true_eq_false, if_false]
  rw [write_out, ci_svu_data, hdata, hs.total, ← hserved.length, List.take_length]

/-- Any other run fails, and opens no file. -/
theorem svu_client_run_gives_up (file : OutFile) (max_rounds : UInt32)
    (hnot : ¬ ∃ r < max_rounds.toNat, Completes net src total block_size mtu r) :
    svu_client_run net file block_size mtu max_rounds = (-1, none) := by
  rcases svu_client_run_cases net file block_size mtu max_rounds with ⟨hrun, -⟩ | ⟨x, s, ⟨⟨k, hrun⟩, hst⟩, -⟩
  · exact hrun
  · obtain ⟨q, w, hq, hw, hround⟩ := verified_of_client_rounds .start hrun (by decide) hst
    exact absurd ⟨q, by omega, w, x, hw, hround, (hw.verdict hserved hnet hround).2.mp hst⟩ hnot

/-- A transfer over a lossy network never goes wrong, and its outcome is decided by what
    has come. -/
theorem svu_client_run_lossy : LossyTransfer net src total block block_size mtu := by
  refine ⟨fun r x h => h.asked hserved hnet, fun r x y h hround => ?_, fun r x y h hround => h.verdict hserved hnet hround,
    svu_client_run_completes hserved hnet, svu_client_run_gives_up hserved hnet⟩
  obtain ⟨s₀, rfl, hm, hnew⟩ := hserved.receiver
  obtain ⟨s, hs⟩ := h.round_standing hserved hnew hnet hround
  obtain ⟨K, hK, hiff⟩ := hs.collected
  refine ⟨s, hs.after.recv, ?_, fun i hi => ?_⟩
  · rw [hK.data hserved.length, List.length_map, List.length_range]
  · rw [← hiff _ (Tiling.div_lt_count hserved.pay_pos hi)]
    exact hK.at hserved.length hi

open Classical in
/-- The data packets that have come in the first `n` rounds. -/
noncomputable def arrivals (net : Network) (src : List UInt8) (total block_size mtu : UInt32) (n : Nat) : Finset Nat :=
  (Finset.range (nof_chunks total mtu)).filter fun k => Arrived net src total block_size mtu n k

omit hserved hnet in
open Classical in
theorem mem_arrivals {n k : Nat} : k ∈ arrivals net src total block_size mtu n ↔
    k < nof_chunks total mtu ∧ Arrived net src total block_size mtu n k := by
  rw [arrivals, Finset.mem_filter, Finset.mem_range]

/-- With a reply and memory a round goes through. -/
theorem client_round_goes_on (hmem : net.memory = true) (h : Asking net block_size mtu r x)
    (hctrl : ∃ reply, ctrl_retry net (r + 1) (request block_size mtu x) = some reply) :
    ∃ y, client_round net block_size mtu (r + 1) x = some y := by
  obtain ⟨s₀, rfl, -, hnew⟩ := hserved.receiver
  obtain ⟨reply, hreply⟩ := hctrl
  obtain rfl := hnet.ctrl_retry hserved h hreply
  have hrecv : ∃ recv, round_receiver net x (server_reply src s₀.total block) = some recv := by
    rcases (h.standing hserved hnew hnet).1 with ⟨-, rfl⟩ | ⟨s, hs⟩
    · have hnew' : ci_svu_new (server_reply src s₀.total block).total (server_reply src s₀.total block).block
          (server_reply src s₀.total block).manifest (server_reply src s₀.total block).nblocks = some s₀ := hnew
      simp only [round_receiver, client_start, hmem, if_true, hnew', Option.map_some]
      exact ⟨_, rfl⟩
    · simp only [round_receiver, hs.after.recv]
      exact ⟨_, rfl⟩
  obtain ⟨recv, hrecv⟩ := hrecv
  unfold request at hreply
  rw [client_round]
  simp only [hreply, hrecv]
  exact ⟨_, rfl⟩

/-- A loop whose rounds go through is in every round until everything has come. -/
theorem asking_of_not_completes (hmem : net.memory = true)
    (hctrl : ∀ r x, Asking net block_size mtu r x →
      ∃ reply, ctrl_retry net (r + 1) (request block_size mtu x) = some reply) {n : Nat}
    (hnot : ¬ ∃ r < n, Completes net src total block_size mtu r) {r : Nat} (hr : r ≤ n) :
    ∃ x, Asking net block_size mtu r x := by
  induction r with
  | zero => exact ⟨client_start, .start⟩
  | succ r ih =>
    obtain ⟨x, h⟩ := ih (by omega)
    obtain ⟨y, hround⟩ := client_round_goes_on hserved hnet hmem h (hctrl r x h)
    exact ⟨y, h.next hround fun hst =>
      hnot ⟨r, by omega, x, y, h, hround, (h.verdict hserved hnet hround).2.mp hst⟩⟩

/-- A transfer gets through as soon as there have been as many rounds in which a packet
    the server sent for that round's request came as there are packets in the file. -/
theorem svu_client_run_lossy_progress (hmem : net.memory = true)
    (hctrl : ∀ r x, Asking net block_size mtu r x →
      ∃ reply, ctrl_retry net (r + 1) (request block_size mtu x) = some reply)
    (max_rounds : UInt32) (P : Finset Nat) (hP : P ⊆ Finset.range max_rounds.toNat)
    (hcard : nof_chunks total mtu ≤ P.card)
    (hprogress : ∀ r ∈ P, ∀ x, Asking net block_size mtu r x →
      ∃ pkt ∈ net.data (r + 1) (request block_size mtu x), pkt ∈ sent src total block block_size mtu x)
    (file : OutFile) : svu_client_run net file block_size mtu max_rounds =
      if file.fopen_ok then (0, some (src.take file.on_disk)) else (-1, none) := by
  refine svu_client_run_completes hserved hnet file max_rounds ?_
  by_contra hnot
  have hasking {r : Nat} (hr : r ≤ max_rounds.toNat) : ∃ x, Asking net block_size mtu r x :=
    asking_of_not_completes hserved hnet hmem hctrl hnot hr
  have hgrow : ∀ r ∈ P, arrivals net src total block_size mtu r ≠ arrivals net src total block_size mtu (r + 1) := by
    intro r hr heq
    obtain ⟨x, h⟩ := hasking (r := r) (Finset.mem_range.mp (hP hr)).le
    obtain ⟨pkt, hpkt, hsent⟩ := hprogress r hr x h
    obtain ⟨k, hk, rfl, hmissing⟩ := (h.asked hserved hnet).2 pkt hsent
    have hcame := mem_arrivals.mpr ⟨hk, (h.arrived_succ_iff k).mpr (.inr hpkt)⟩
    rw [← heq] at hcame
    exact hmissing (mem_arrivals.mp hcame).2
  have hall : arrivals net src total block_size mtu max_rounds.toNat = Finset.range (nof_chunks total mtu) := by
    refine Growth.eq_goal_of_grows (fun r k hk => ?_) (fun k hk => Finset.mem_range.mpr (mem_arrivals.mp hk).1) hP
      hgrow ?_
    · obtain ⟨hk, harrived⟩ := mem_arrivals.mp hk
      exact mem_arrivals.mpr ⟨hk, harrived.mono (Nat.le_succ r)⟩
    · rwa [Finset.card_range]
  -- the first packet has come, so there was a round
  have hfirst : 0 < nof_chunks total mtu := by
    have hdiv := Tiling.div_lt_count hserved.pay_pos hserved.total_pos
    exact Nat.zero_lt_of_lt hdiv
  obtain ⟨m, hm⟩ : ∃ m, max_rounds.toNat = m + 1 := by
    have hone := Finset.card_le_card hP
    rw [Finset.card_range] at hone
    exact ⟨max_rounds.toNat - 1, by omega⟩
  obtain ⟨x, h⟩ := hasking (r := m) (by omega)
  obtain ⟨y, hround⟩ := client_round_goes_on hserved hnet hmem h (hctrl m x h)
  refine hnot ⟨m, by omega, x, y, h, hround, fun k hk => ?_⟩
  rw [hm] at hall
  have hin : k ∈ arrivals net src total block_size mtu (m + 1) := by
    rw [hall]
    exact Finset.mem_range.mpr hk
  exact (mem_arrivals.mp hin).2

end Outcome

section Trickle

/-- A network that lets one data packet through in each round. -/
def trickle (src : List UInt8) (total block : UInt32) : Network :=
  { served src total block with data := fun round request => ((served src total block).data round request).take 1 }

variable {src : List UInt8} {total block block_size mtu : UInt32}

theorem trickle_lossy : LossyNetwork (trickle src total block) src total block block_size mtu where
  ctrl := fun _ _ _ _ => ⟨List.Sublist.refl _, fun _ hhead => .inl hhead⟩
  data := fun r x h _ hpkt => ⟨r, le_rfl, x, h, List.mem_of_mem_take hpkt⟩

/-- Two bytes in packets of one byte each, one of them lost in the first round. -/
theorem svu_client_run_lossy_two :
    LossyTransfer (trickle [7, 8] 2 1) [7, 8] 2 1 4096 9 :=
  svu_client_run_lossy ⟨rfl, by decide, by decide, by decide, by decide, by decide, by decide, by decide⟩
    trickle_lossy

/-- An output file with room for two bytes. -/
def two_bytes : OutFile where
  fopen_ok := true
  stored := 2
  fclose_ok := true
  on_disk := 2
  on_disk_le := le_rfl
  on_disk_eq := fun _ => rfl

/-- The two bytes get through in two rounds. -/
theorem svu_client_run_lossy_progress_two :
    svu_client_run (trickle [7, 8] 2 1) two_bytes 4096 9 2 = (0, some [7, 8]) := by
  have hserved : Served [7, 8] 2 1 9 :=
    ⟨rfl, by decide, by decide, by decide, by decide, by decide, by decide, by decide⟩
  refine svu_client_run_lossy_progress hserved trickle_lossy rfl (fun r x _ => ?_) 2 (Finset.range 2)
    subset_rfl (by decide) (fun r _ x h => ?_) two_bytes
  · exact ⟨_, ctrl_retry_served [7, 8] (by decide) (decode_client_request 4096 9 x) (r + 1)⟩
  · obtain ⟨hne, -⟩ := h.asked hserved trickle_lossy
    obtain ⟨pkt, rest, hsent⟩ := List.exists_cons_of_ne_nil hne
    have htake : (trickle [7, 8] 2 1).data (r + 1) (request 4096 9 x) = [pkt] := by
      change (sent [7, 8] 2 1 4096 9 x).take 1 = [pkt]
      rw [hsent, List.take_succ_cons, List.take_zero]
    exact ⟨pkt, by rw [htake]; exact List.mem_singleton_self pkt, by rw [hsent]; exact List.mem_cons_self⟩

end Trickle

end csp_intercept.svu_session
