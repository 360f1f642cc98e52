import CspIntercept.Svu.Resume

open Overlay csp_intercept.ci_svu csp_intercept.svu_proto csp_intercept.svu_serve

namespace csp_intercept.svu_session

/-- The daemon's reply to the push, unless there is no buffer for it. -/
def svu_daemon_reply (buffer : Bool) (rc : Int) : Option CspPacket :=
  if buffer then some { data := [if rc = 0 then 0 else 1], length := 1 } else none

/-- Whether the pushing side prints VERIFIED, given what it reads as the verdict. -/
def svu_push_ok : Option CspPacket → Bool
  | none => false
  | some rp => rp.length ≥ 1 && rp.data.getD 0 0 == 0

/-- The bytes are as many as the server announced, and each block of them has the
    server's digest. -/
def BlockVerified (reply : CtrlReply) (bytes : List UInt8) : Prop :=
  bytes.length = reply.total.toNat ∧ ∀ b < reply.nblocks.toNat,
    Fips180.sha256 (Tiling.tile reply.block.toNat reply.total.toNat bytes b) = digest reply.manifest b

/-- What the server answers to the first request. -/
def first_reply (net : Network) (block_size mtu : UInt32) : Option CtrlReply :=
  ctrl_retry net 1 (svu_req_encode (client_request block_size mtu client_start))

/-- The file has exactly the block-verified bytes. -/
def FileVerified (net : Network) (block_size mtu : UInt32) (content : Option (List UInt8)) : Prop :=
  ∃ reply bytes, first_reply net block_size mtu = some reply ∧ content = some bytes ∧ BlockVerified reply bytes

/-- Success is only reported over a verified file, and anything else as a failure. -/
structure NeverWrong (net : Network) (file : OutFile) (block_size mtu max_rounds : UInt32) : Prop where
  success : (svu_client_run net file block_size mtu max_rounds).1 = 0 →
    FileVerified net block_size mtu (svu_client_run net file block_size mtu max_rounds).2
  failure : (svu_client_run net file block_size mtu max_rounds).1 ≠ 0 →
    (svu_client_run net file block_size mtu max_rounds).1 = -1 ∧
      ∀ buffer reply, svu_daemon_reply buffer (svu_client_run net file block_size mtu max_rounds).1 = some reply →
        reply.data = [1]
  push : ∀ buffer,
    svu_push_ok (svu_daemon_reply buffer (svu_client_run net file block_size mtu max_rounds).1) = true →
      FileVerified net block_size mtu (svu_client_run net file block_size mtu max_rounds).2

/-- The round loop ends with a good verdict and the loop variables `x`. -/
def LoopVerifies (net : Network) (block_size mtu max_rounds : UInt32) (x : Rounds) : Prop :=
  (∃ round, client_rounds net block_size mtu max_rounds.toNat 0 client_start = some (x, round)) ∧
    x.st = .COMPLETE_VERIFIED

section Session

variable {net : Network} {block_size mtu : UInt32}

/-- The loop variables belong to one transfer: the receiver was built for the server's
    first answer, and a good verdict is one about its buffer. -/
structure SessionInv (net : Network) (block_size mtu : UInt32) (x : Rounds) : Prop where
  receiver : ∃ reply s₀ ws s, first_reply net block_size mtu = some reply ∧
    ci_svu_new reply.total reply.block reply.manifest reply.nblocks = some s₀ ∧ x.recv = some s ∧
    x.total = reply.total ∧ Reassembles s₀ ws s ∧
    (x.st = .COMPLETE_VERIFIED → BlockVerified reply s.data)

/-- What a round that goes through does. -/
theorem client_round_cases {round : Nat} {x y : Rounds}
    (hround : client_round net block_size mtu round x = some y) :
    ∃ reply recv packets, ctrl_retry net round (svu_req_encode (client_request block_size mtu x)) = some reply ∧
      round_receiver net x reply = some (recv, y.total) ∧ y.recv = some (drain_data recv packets) ∧
      y.st = (ci_svu_verify (drain_data recv packets) x.ivs SVU_MAX_INTERVALS).1 := by
  rw [client_round] at hround
  cases hreply : ctrl_retry net round (svu_req_encode (client_request block_size mtu x)) with
  | none =>
    simp only [hreply] at hround
    cases hround
  | some reply =>
    cases hrecv : round_receiver net x reply with
    | none =>
      simp only [hreply, hrecv] at hround
      cases hround
    | some recv =>
      simp only [hreply, hrecv] at hround
      cases hround
      exact ⟨reply, recv.1, _, rfl, hrecv, rfl, rfl⟩

/-- What the loop's next turn does, if the loop gets to its end. -/
theorem client_rounds_cases {n round k : Nat} {x y : Rounds}
    (hrun : client_rounds net block_size mtu (n + 1) round x = some (y, k)) :
    ∃ z, client_round net block_size mtu (round + 1) x = some z ∧
      (z.st = .COMPLETE_VERIFIED ∧ y = z ∧ k = round + 1 ∨
        z.st ≠ .COMPLETE_VERIFIED ∧ client_rounds net block_size mtu n (round + 1) z = some (y, k)) := by
  rw [client_rounds] at hrun
  cases hround : client_round net block_size mtu (round + 1) x with
  | none =>
    rw [hround] at hrun
    cases hrun
  | some z =>
    simp only [hround] at hrun
    refine ⟨z, rfl, ?_⟩
    split_ifs at hrun with hst
    · cases hrun
      exact .inl ⟨hst, rfl, rfl⟩
    · exact .inr ⟨hst, hrun⟩

/-- A round whose receiver was built for the first answer. -/
private theorem drained_inv {reply : CtrlReply} {s₀ s : CiSvu} {ws : List (Write UInt8)} {y : Rounds}
    (hreply : first_reply net block_size mtu = some reply)
    (hnew : ci_svu_new reply.total reply.block reply.manifest reply.nblocks = some s₀)
    (hreach : Reassembles s₀ ws s) (packets : List CspPacket) (out : List CiSvuInterval)
    (htotal : y.total = reply.total) (hrecv : y.recv = some (drain_data s packets))
    (hst : y.st = (ci_svu_verify (drain_data s packets) out SVU_MAX_INTERVALS).1) :
    SessionInv net block_size mtu y := by
  obtain ⟨hrun, -⟩ := hreach.accept_all (packets.filterMap packet_fragment)
  rw [← drain_data_eq] at hrun
  refine ⟨reply, s₀, _, _, hreply, hnew, hrecv, htotal, hrun, fun hverified => ?_⟩
  obtain ⟨htotal, hblock, hn, -, -, hexpected, -⟩ := ci_svu_new_spec hnew
  refine ⟨by rw [hrun.data, length_image, htotal], fun b hb => ?_⟩
  have hgood := hrun.verified_digest (hst.symm.trans hverified) b (by rw [hn]; exact hb)
  rwa [htotal, hblock, hexpected, digest_take hb] at hgood

/-- The first round builds the receiver. -/
theorem client_round_first {y : Rounds} (hround : client_round net block_size mtu 1 client_start = some y) :
    SessionInv net block_size mtu y := by
  obtain ⟨reply, recv, packets, hreply, hreceiver, hrecv, hst⟩ := client_round_cases hround
  simp only [round_receiver, client_start] at hreceiver
  split_ifs at hreceiver with hmem
  obtain ⟨s₀, hnew, heq⟩ := Option.map_eq_some_iff.mp hreceiver
  obtain ⟨rfl, htotal⟩ := Prod.mk.inj heq
  obtain ⟨-, -, -, -, -, -, hstart⟩ := ci_svu_new_spec hnew
  exact drained_inv hreply hnew hstart packets _ htotal.symm hrecv hst

/-- Every later round keeps it. -/
theorem SessionInv.round {x y : Rounds} (h : SessionInv net block_size mtu x) {round : Nat}
    (hround : client_round net block_size mtu round x = some y) : SessionInv net block_size mtu y := by
  obtain ⟨reply, s₀, ws, s, hreply, hnew, hrecv, htotal, hreach, -⟩ := h.receiver
  obtain ⟨again, recv, packets, -, hreceiver, hrecv', hst⟩ := client_round_cases hround
  simp only [round_receiver, hrecv] at hreceiver
  obtain ⟨rfl, htotal'⟩ := Prod.mk.inj (Option.some.inj hreceiver)
  exact drained_inv hreply hnew hreach packets _ (htotal'.symm.trans htotal) hrecv' hst

theorem SessionInv.rounds {x y : Rounds} (h : SessionInv net block_size mtu x) {n round k : Nat}
    (hrun : client_rounds net block_size mtu n round x = some (y, k)) : SessionInv net block_size mtu y := by
  induction n generalizing round x with
  | zero =>
    cases hrun
    exact h
  | succ n ih =>
    obtain ⟨z, hround, ⟨-, rfl, -⟩ | ⟨-, hrest⟩⟩ := client_rounds_cases hrun
    · exact h.round hround
    · exact ih (h.round hround) hrest

/-- After its first round the loop is in a session. -/
theorem client_rounds_inv {n k : Nat} {x : Rounds}
    (hrun : client_rounds net block_size mtu (n + 1) 0 client_start = some (x, k)) :
    SessionInv net block_size mtu x := by
  obtain ⟨z, hround, ⟨-, rfl, -⟩ | ⟨-, hrest⟩⟩ := client_rounds_cases hrun
  · exact client_round_first hround
  · exact (client_round_first hround).rounds hrest

/-- A loop that ends with a good verdict holds a receiver with the verified bytes. -/
theorem LoopVerifies.inv {max_rounds : UInt32} {x : Rounds} (h : LoopVerifies net block_size mtu max_rounds x) :
    SessionInv net block_size mtu x := by
  obtain ⟨⟨round, hrun⟩, hst⟩ := h
  generalize max_rounds.toNat = n at hrun
  cases n with
  | zero =>
    cases hrun
    cases hst
  | succ n => exact client_rounds_inv hrun

end Session

section Outcome

variable {net : Network} {file : OutFile} {block_size mtu max_rounds : UInt32}

/-- A run fails before the write-out, or it ends with it. -/
theorem svu_client_run_cases (net : Network) (file : OutFile) (block_size mtu max_rounds : UInt32) :
    (svu_client_run net file block_size mtu max_rounds = (-1, none) ∧
      ∀ x, ¬ LoopVerifies net block_size mtu max_rounds x) ∨
    ∃ x s, LoopVerifies net block_size mtu max_rounds x ∧ x.recv = some s ∧
      svu_client_run net file block_size mtu max_rounds = write_out file s x.total := by
  cases hrun : client_rounds net block_size mtu max_rounds.toNat 0 client_start with
  | none =>
    refine .inl ⟨by simp only [svu_client_run, hrun], ?_⟩
    rintro x ⟨⟨round, hx⟩, -⟩
    rw [hrun] at hx
    cases hx
  | some r =>
    by_cases hst : r.1.st = .COMPLETE_VERIFIED
    · have hloop : LoopVerifies net block_size mtu max_rounds r.1 := ⟨⟨r.2, hrun⟩, hst⟩
      obtain ⟨-, -, -, s, -, -, hrecv, -⟩ := hloop.inv.receiver
      refine .inr ⟨r.1, s, hloop, hrecv, ?_⟩
      simp only [svu_client_run, hrun, hst, hrecv, ne_eq, not_true_eq_false, if_false]
    · refine .inl ⟨by simp only [svu_client_run, hrun, hst, ne_eq, not_false_eq_true, if_true], ?_⟩
      rintro x ⟨⟨round, hx⟩, hgood⟩
      rw [hrun] at hx
      cases hx
      exact hst hgood

/-- A run that fails says so on both ends. -/
theorem NeverWrong.of_failed (hrun : svu_client_run net file block_size mtu max_rounds = (-1, none)) :
    NeverWrong net file block_size mtu max_rounds := by
  constructor
  · intro hzero
    rw [hrun] at hzero
    cases hzero
  · intro _
    refine ⟨by rw [hrun], fun buffer reply hreply => ?_⟩
    rw [hrun] at hreply
    cases buffer <;> cases hreply
    rfl
  · intro buffer hok
    rw [hrun] at hok
    cases buffer <;> cases hok

/-- A run that succeeds has to have the verified bytes in its file. -/
theorem never_wrong_of_success {content : Option (List UInt8)}
    (hrun : svu_client_run net file block_size mtu max_rounds = (0, content)) :
    NeverWrong net file block_size mtu max_rounds ↔ FileVerified net block_size mtu content := by
  constructor
  · intro h
    have hfile := h.success (by rw [hrun])
    rwa [hrun] at hfile
  · intro hfile
    constructor
    · intro _
      rwa [hrun]
    · intro hne
      exact absurd (by rw [hrun]) hne
    · intro _ _
      rwa [hrun]

/-- Success is never reported over a wrong file exactly when the write-out is not
    reached, the file does not open or all bytes get to the disk. -/
theorem svu_client_run_never_wrong_iff (net : Network) (file : OutFile) (block_size mtu max_rounds : UInt32) :
    NeverWrong net file block_size mtu max_rounds ↔
      ∀ x, LoopVerifies net block_size mtu max_rounds x → file.fopen_ok = true →
        x.total.toNat ≤ file.on_disk := by
  rcases svu_client_run_cases net file block_size mtu max_rounds with ⟨hrun, hnot⟩ | ⟨x, s, hloop, hrecv, hrun⟩
  · exact iff_of_true (.of_failed hrun) fun x hloop => absurd hloop (hnot x)
  have hunique : ∀ y, LoopVerifies net block_size mtu max_rounds y → y = x := by
    rintro y ⟨⟨round, hy⟩, -⟩
    obtain ⟨⟨round', hx⟩, -⟩ := hloop
    rw [hy] at hx
    cases hx
    rfl
  by_cases hopen : file.fopen_ok = true
  · obtain ⟨reply, s₀, ws, s', hreply, hnew, hrecv', htotal, hreach, hverified⟩ := hloop.inv.receiver
    obtain rfl : s = s' := Option.some.inj (hrecv.symm.trans hrecv')
    have hgood := hverified hloop.2
    rw [write_out, if_pos hopen, ci_svu_data, htotal, ← hgood.1, List.take_length] at hrun
    rw [never_wrong_of_success hrun]
    constructor
    · rintro ⟨reply', bytes, hreply', hbytes, hlen, -⟩ y hy -
      obtain rfl : reply = reply' := Option.some.inj (hreply.symm.trans hreply')
      obtain rfl := Option.some.inj hbytes
      rw [hunique y hy, htotal]
      rw [List.length_take, hgood.1] at hlen
      omega
    · intro hdisk
      have hall := hdisk x hloop hopen
      rw [htotal, ← hgood.1] at hall
      exact ⟨reply, s.data, hreply, by rw [List.take_of_length_le hall], hgood⟩
  · rw [write_out, if_neg hopen] at hrun
    exact iff_of_true (.of_failed hrun) fun y _ hopen' => absurd hopen' hopen

end Outcome

section Served

variable {src : List UInt8} {s₀ : CiSvu} {total block mtu : UInt32}

/-- The whole file in one round: no hole is left, and no block fails. -/
theorem Phase.of_whole {packets : List CspPacket} (hm : UnderManifest src s₀) (hstart : Reassembles s₀ [] s₀)
    (hcarry : Carries src s₀.total [(0, s₀.total.toNat)] packets) :
    Phase src s₀ (drain_data s₀ packets) [] [] ∧ (drain_data s₀ packets).data = src := by
  obtain ⟨⟨ws, hws⟩, hun, hfill⟩ := hcarry.drain_filled hm.length ⟨[], hstart⟩
  have hin (i : Nat) (hi : i < s₀.total.toNat) : InRanges [(0, s₀.total.toNat)] i :=
    ⟨_, List.mem_singleton_self _, Nat.zero_le i, hi⟩
  have hfull : ∀ i < (drain_data s₀ packets).total.toNat, ¬ Uncovered (drain_data s₀ packets) i := by
    intro i hi
    rw [hws.total] at hi
    rw [hun i hi]
    exact fun h => h.2 (hin i hi)
  have hsame : filled src (drain_data s₀ packets) = src := by
    apply List.ext_getElem?
    intro i
    by_cases hi : i < s₀.total.toNat
    · exact (hfill i hi).1 (hin i hi)
    · have hlen := hm.length
      rw [List.getElem?_eq_none (by rw [length_filled, hws.total]; omega), List.getElem?_eq_none (by omega)]
  refine ⟨⟨⟨ws, hws⟩, .nil fun j _ hj => hfull j hj, ?_⟩, by rw [← filled_eq_data hws hfull, hsame]⟩
  rw [failing_when_filled_eq hws, hsame, List.filter_eq_nil_iff]
  intro b hb
  simp [Fails, hm.digests b (List.mem_range.mp hb)]

/-- Over the loss-free network the first round is the last: the client asks for the
    whole file and verifies it. -/
theorem client_round_served (hsrc : src.length = total.toNat) (htotal : 1 ≤ total.toNat) (hblock : 1 ≤ block.toNat)
    (hsum : total.toNat + block.toNat ≤ 2 ^ 32) (hmtu : 8 < mtu.toNat) (hmtu' : mtu.toNat ≤ 2048)
    (hroom : total.toNat + mtu.toNat ≤ 2 ^ 32)
    (hmanifest : (ci_svu_nblocks total block).toNat * CI_SVU_HASH_LEN + 200 ≤ 2 ^ 32) (block_size : UInt32) :
    ∃ y s, client_round (served src total block) block_size mtu 1 client_start = some y ∧
      y.st = .COMPLETE_VERIFIED ∧ y.recv = some s ∧ y.total = total ∧ s.data = src := by
  obtain ⟨s₀, hnew⟩ := ci_svu_new_manifest src htotal hblock hsum
  have hm := under_manifest hsrc hnew
  obtain ⟨hsize, -, -, -, -, -, hstart⟩ := ci_svu_new_spec hnew
  have hdecode := decode_client_request block_size mtu client_start
  obtain ⟨packets, hblast, hcarry⟩ := blast_interval_carries hsrc hmtu hmtu' hroom 1 0 total le_rfl
  have hdata : (served src total block).data 1 (svu_req_encode (client_request block_size mtu client_start)) =
      packets := by
    have hmtu'' : (received (client_request block_size mtu client_start)).mtu > SVU_DATA_HDR :=
      UInt32.lt_iff_toNat_lt.mpr hmtu
    have hzero : (received (client_request block_size mtu client_start)).nof_intervals = 0 := rfl
    have hserve : serve_data src total (received (client_request block_size mtu client_start)) = some packets := by
      rw [serve_data, if_pos hmtu'', if_pos hzero]
      exact hblast
    simp only [served, hdecode, Option.bind_some, hserve, Option.getD_some]
  rw [← hsize] at hcarry
  obtain ⟨hphase, hbytes⟩ := Phase.of_whole hm hstart hcarry
  obtain ⟨y, hround, hafter, hy⟩ : ∃ y,
      client_round (served src total block) block_size mtu 1 client_start = some y ∧
        AfterVerify (drain_data s₀ packets) y ∧ y.total = total := by
    have hreceiver : round_receiver (served src total block) client_start
        ⟨total, block, ci_svu_nblocks total block, (ci_svu_manifest src total block).2⟩ = some (s₀, total) := by
      have hnew' : ci_svu_new total block (ci_svu_manifest src total block).2 (ci_svu_nblocks total block) =
          some s₀ := hnew
      simp only [round_receiver, client_start, served, if_true, hnew', Option.map_some]
    simp only [client_round, ctrl_retry_served src hmanifest hdecode, hreceiver, hdata]
    refine ⟨_, rfl, ⟨rfl, client_start.ivs, List.length_replicate, rfl, rfl, fun hne => ?_⟩, rfl⟩
    simp only [hne, if_false]
    split_ifs <;> omega
  exact ⟨y, _, hround, (hphase.after_verify hafter).1.mpr ⟨rfl, rfl⟩, hafter.recv, hy, hbytes⟩

/-- A transfer over the loss-free network ends with the write-out of the source. -/
theorem svu_client_run_served (hsrc : src.length = total.toNat) (htotal : 1 ≤ total.toNat)
    (hblock : 1 ≤ block.toNat) (hsum : total.toNat + block.toNat ≤ 2 ^ 32) (hmtu : 8 < mtu.toNat)
    (hmtu' : mtu.toNat ≤ 2048) (hroom : total.toNat + mtu.toNat ≤ 2 ^ 32)
    (hmanifest : (ci_svu_nblocks total block).toNat * CI_SVU_HASH_LEN + 200 ≤ 2 ^ 32)
    (file : OutFile) (block_size : UInt32) {max_rounds : UInt32} (hrounds : 1 ≤ max_rounds.toNat) :
    svu_client_run (served src total block) file block_size mtu max_rounds =
      if file.fopen_ok then (0, some (src.take file.on_disk)) else (-1, none) := by
  obtain ⟨y, s, hround, hst, hrecv, hy, hbytes⟩ :=
    client_round_served hsrc htotal hblock hsum hmtu hmtu' hroom hmanifest block_size
  have hrun : client_rounds (served src total block) block_size mtu max_rounds.toNat 0 client_start =
      some (y, 1) := by
    obtain ⟨n, hn⟩ : ∃ n, max_rounds.toNat = n + 1 := ⟨max_rounds.toNat - 1, by omega⟩
    rw [hn, client_rounds, Nat.zero_add, hround]
    exact if_pos hst
  simp only [svu_client_run, hrun, hst, hrecv, ne_eq, not_true_eq_false, if_false]
  rw [write_out, ci_svu_data, hbytes, hy, ← hsrc, List.take_length]

end Served

/-- A disk that takes no byte, with `fclose` reporting it. -/
def full_disk : OutFile where
  fopen_ok := true
  stored := 0
  fclose_ok := false
  on_disk := 0
  on_disk_le := le_rfl
  on_disk_eq := fun _ => rfl

/-- A one-byte file is pulled onto a full disk, with the daemon's own parameters: the
    run returns 0 over an empty file. -/
theorem svu_client_run_full_disk :
    svu_client_run (served [7] 1 1) full_disk 4096 256 500 = (0, some []) ∧
      ¬ NeverWrong (served [7] 1 1) full_disk 4096 256 500 := by
  have hrun : svu_client_run (served [7] 1 1) full_disk 4096 256 500 = (0, some []) :=
    svu_client_run_served (by decide) (by decide) (by decide) (by decide) (by decide) (by decide) (by decide)
      (by decide) full_disk 4096 (by decide)
  refine ⟨hrun, fun h => ?_⟩
  obtain ⟨reply, bytes, hreply, hbytes, hlen, -⟩ := (never_wrong_of_success hrun).mp h
  obtain rfl := Option.some.inj hbytes
  rw [first_reply, ctrl_retry_served [7] (by decide) (decode_client_request 4096 256 client_start)] at hreply
  obtain rfl := Option.some.inj hreply
  cases hlen

end csp_intercept.svu_session
