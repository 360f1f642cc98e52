import CspIntercept.Svu.Converge
import CspIntercept.Svu.Served

open csp_intercept.ci_svu csp_intercept.svu_proto csp_intercept.svu_serve

namespace csp_intercept.svu_session

/-- The loop variables after the round that left the receiver in the state `s`. -/
structure AfterVerify (s : CiSvu) (x : Rounds) : Prop where
  recv : x.recv = some s
  verdict : ∃ out : List CiSvuInterval, out.length = SVU_MAX_INTERVALS ∧
    x.st = (ci_svu_verify s out SVU_MAX_INTERVALS).1 ∧
    x.ivs = (ci_svu_verify s out SVU_MAX_INTERVALS).2.1 ∧
    (x.st ≠ .COMPLETE_VERIFIED → x.nreq = min (ci_svu_verify s out SVU_MAX_INTERVALS).2.2 SVU_MAX_INTERVALS)

/-- Every round is clean: the control exchange succeeds, and the data packets the
    server sends for the request are delivered, each of them once, in any order. -/
def CleanNetwork (net : Network) (src : List UInt8) (total : UInt32) : Prop :=
  ∀ round request req, svu_req_decode request = some req →
    (∃ reply, ctrl_retry net round request = some reply) ∧
    ∀ packets, serve_data src total req = some packets → (net.data round request).Perm packets

section Verdict

variable {src : List UInt8} {s₀ s : CiSvu} {holes : List (Nat × Nat)} {bad : List Nat} {x : Rounds}

/-- The verdict and the request list where a transfer stands. -/
theorem Phase.after_verify (h : Phase src s₀ s holes bad) (hx : AfterVerify s x) :
    (x.st = .COMPLETE_VERIFIED ↔ holes = [] ∧ bad = []) ∧ x.ivs.length = SVU_MAX_INTERVALS ∧
      (x.st ≠ .COMPLETE_VERIFIED →
        x.nreq = ((wanted s holes bad).take SVU_MAX_INTERVALS).length ∧
        x.ivs.take x.nreq = ((wanted s holes bad).take SVU_MAX_INTERVALS).map interval) := by
  obtain ⟨ws, hws⟩ := h.reach
  obtain ⟨out, hout, hst, hivs, hnreq⟩ := hx.verdict
  obtain ⟨holes', hholes', -, hverified, hranges⟩ := ci_svu_verify_ranges hws SVU_MAX_INTERVALS
  obtain rfl := h.holes.unique hholes'
  have hbad : holes = [] → failing_blocks s = bad := by
    rintro rfl
    have hfull : ∀ i < s.total.toNat, ¬ Uncovered s i := fun i hi => h.holes.gap (Nat.zero_le i) hi
    rw [← h.bad, failing_when_filled, filled_eq_data hws hfull]
  have hall : (if holes ≠ [] then holes else (failing_blocks s).map (block_range s)) = wanted s holes bad := by
    rw [wanted]
    split_ifs with hne
    · rfl
    · rw [hbad (not_not.mp hne)]
  have hpush := hranges out
  rw [hall, foldl_push_range SVU_MAX_INTERVALS _ out hout.ge (Nat.zero_le _), List.take_zero, List.nil_append,
    Nat.sub_zero, Nat.zero_add, Nat.zero_add] at hpush
  have hlen : (((wanted s holes bad).take SVU_MAX_INTERVALS).map interval).length =
      min (wanted s holes bad).length SVU_MAX_INTERVALS := by
    rw [List.length_map, List.length_take, Nat.min_comm]
  refine ⟨?_, ?_, fun hne => ?_⟩
  · rw [hst, hverified]
    exact and_congr_right fun hnil => by rw [hbad hnil]
  · rw [hivs, hpush, List.length_append, hlen, List.length_drop, hout]
    omega
  · have hn : x.nreq = min (wanted s holes bad).length SVU_MAX_INTERVALS := by
      rw [hnreq hne, hpush]
    refine ⟨by rw [hn, List.length_take, Nat.min_comm], ?_⟩
    rw [hivs, hpush, hn, List.take_left' hlen]

end Verdict

/-- What the server reads of a client's request. -/
theorem decode_client_request (block_size mtu : UInt32) (x : Rounds) :
    svu_req_decode (svu_req_encode (client_request block_size mtu x)) =
      some (received (client_request block_size mtu x)) := by
  have hdecode := svu_req_decode_encode (client_request block_size mtu x) rfl []
  rwa [List.append_nil] at hdecode

/-- The request the server reads has the client's ranges. -/
theorem received_intervals (block_size mtu : UInt32) (x : Rounds) (hn : x.nreq ≤ SVU_MAX_INTERVALS)
    (hivs : x.ivs.length = SVU_MAX_INTERVALS) :
    (received (client_request block_size mtu x)).nof_intervals.toNat = x.nreq ∧
      (received (client_request block_size mtu x)).intervals.toList.take x.nreq = x.ivs.take x.nreq := by
  have hn' : x.nreq ≤ 32 := hn
  have hnof : (UInt32.ofNat x.nreq).toNat = x.nreq :=
    UInt32.toNat_ofNat_of_lt' (by change x.nreq < 2 ^ 32; omega)
  have hcap : (if UInt32.ofNat x.nreq > 32 then 32 else UInt32.ofNat x.nreq).toNat = x.nreq := by
    rw [if_neg, hnof]
    rw [gt_iff_lt, UInt32.lt_iff_toNat_lt, hnof]
    exact Nat.not_lt.mpr hn
  refine ⟨hcap, ?_⟩
  apply List.ext_getElem?
  intro i
  rw [List.getElem?_take, List.getElem?_take]
  split_ifs with hi
  · have hi' : i < SVU_MAX_INTERVALS := Nat.lt_of_lt_of_le hi hn
    rw [List.getElem?_eq_getElem (by simpa using hi'), List.getElem?_eq_getElem (by omega)]
    simp only [received, client_request, Vector.getElem_toList, Vector.getElem_ofFn, Fin.getElem_fin, hi, if_true]
    rw [List.getD_eq_getElem _ _ (by omega)]
    exact congrArg some (if_pos (hi.trans_eq hcap.symm))
  · rfl

section Loop

variable {src : List UInt8} {s₀ s : CiSvu} {holes : List (Nat × Nat)} {bad : List Nat} {x : Rounds}
  {net : Network} {mtu : UInt32}

/-- As long as something is missing or wrong, something is asked for. -/
theorem wanted_ne_nil (hleft : ¬ (holes = [] ∧ bad = [])) : wanted s holes bad ≠ [] := by
  rw [wanted]
  split_ifs with hholes
  · exact hholes
  · intro hnil
    exact hleft ⟨not_not.mp hholes, List.map_eq_nil_iff.mp hnil⟩

/-- A request with ranges is served by blasting them. -/
theorem serve_data_received (hmtu : 8 < mtu.toNat) (total block_size : UInt32) (hpos : 0 < x.nreq)
    (hle : x.nreq ≤ SVU_MAX_INTERVALS) (hlen : x.ivs.length = SVU_MAX_INTERVALS) :
    serve_data src total (received (client_request block_size mtu x)) =
      blast_requested 1 mtu src total (x.ivs.take x.nreq) := by
  obtain ⟨hnof, hlist⟩ := received_intervals block_size mtu x hle hlen
  have hroom : (received (client_request block_size mtu x)).mtu > SVU_DATA_HDR :=
    UInt32.lt_iff_toNat_lt.mpr hmtu
  have hzero : ¬ (received (client_request block_size mtu x)).nof_intervals = 0 := by
    rw [← UInt32.toNat_inj, hnof, UInt32.toNat_zero]
    omega
  rw [serve_data, if_pos hroom, if_neg hzero, hnof, hlist]
  rfl

/-- The rounds that are left get fewer by one. -/
theorem rounds_left_drop (hleft : ¬ (holes = [] ∧ bad = [])) :
    rounds_left (holes.drop 32) (if holes ≠ [] then bad else bad.drop 32) + 1 = rounds_left holes bad := by
  simp only [rounds_left, List.length_drop]
  by_cases hne : holes ≠ []
  · have hpos := List.length_pos_of_ne_nil hne
    rw [if_pos hne]
    omega
  · have hnil := not_not.mp hne
    have hpos : 0 < bad.length := List.length_pos_of_ne_nil fun hbad => hleft ⟨hnil, hbad⟩
    rw [if_neg hne, hnil, List.length_drop, List.length_nil]
    omega

/-- One clean round of the loop. -/
theorem client_round_clean (hm : UnderManifest src s₀) (hmtu : 8 < mtu.toNat) (hmtu' : mtu.toNat ≤ 2048)
    (hroom : s₀.total.toNat + mtu.toNat ≤ 2 ^ 32) (hclean : CleanNetwork net src s₀.total)
    (h : Phase src s₀ s holes bad) (hx : AfterVerify s x) (hleft : ¬ (holes = [] ∧ bad = []))
    (block_size : UInt32) (round : Nat) :
    (client_request block_size mtu x).nof_intervals ≠ 0 ∧
      ∃ y s', client_round net block_size mtu round x = some y ∧ AfterVerify s' y ∧
        Phase src s₀ s' (holes.drop 32) (if holes ≠ [] then bad else bad.drop 32) := by
  obtain ⟨hverified, hlen, hrequest⟩ := h.after_verify hx
  obtain ⟨hnreq, hivs⟩ := hrequest (mt hverified.mp hleft)
  have hle : x.nreq ≤ SVU_MAX_INTERVALS := by
    rw [hnreq, List.length_take]
    exact Nat.min_le_left _ _
  have hsome : 0 < x.nreq := by
    have hpos := List.length_pos_of_ne_nil (wanted_ne_nil (s := s) hleft)
    rw [hnreq, List.length_take]
    exact Nat.lt_min.mpr ⟨by decide, hpos⟩
  obtain ⟨⟨reply, hreply⟩, hdeliver⟩ := hclean round _ _ (decode_client_request block_size mtu x)
  -- the server blasts the requested ranges
  have hR : ∀ r ∈ (wanted s holes bad).take SVU_MAX_INTERVALS, r.1 < r.2 ∧ r.2 ≤ s₀.total.toNat :=
    fun r hr => h.wanted_ranges hm r (List.mem_of_mem_take hr)
  obtain ⟨packets, hblast, hcarry⟩ := blast_requested_carries hm.length hmtu hmtu' hroom 1 hR
  have hserve : serve_data src s₀.total (received (client_request block_size mtu x)) = some packets := by
    rw [serve_data_received hmtu s₀.total block_size hsome hle hlen, hivs]
    exact hblast
  have hcarry' := hcarry.perm (hdeliver packets hserve)
  refine ⟨?_, ?_⟩
  · intro hzero
    have hle' : x.nreq ≤ 32 := hle
    have hnat : (client_request block_size mtu x).nof_intervals.toNat = x.nreq :=
      UInt32.toNat_ofNat_of_lt' (by change x.nreq < 2 ^ 32; omega)
    rw [hzero, UInt32.toNat_zero] at hnat
    omega
  · obtain ⟨y, hy, hafter⟩ : ∃ y, client_round net block_size mtu round x = some y ∧
        AfterVerify (drain_data s (net.data round (svu_req_encode (client_request block_size mtu x)))) y := by
      simp only [client_round, hreply, round_receiver, hx.recv]
      refine ⟨_, rfl, rfl, x.ivs, hlen, rfl, rfl, fun hne => ?_⟩
      simp only [hne, if_false]
      split_ifs <;> omega
    exact ⟨y, _, hy, hafter, h.round hm hcarry'⟩

/-- The loop's rounds, whatever their verdict. -/
def rounds_after (net : Network) (block_size mtu : UInt32) : Nat → Nat → Rounds → Option Rounds
  | 0, _, x => some x
  | k + 1, round, x => (client_round net block_size mtu (round + 1) x).bind
      (rounds_after net block_size mtu k (round + 1))

/-- After `k` clean rounds, as long as there were any left. -/
theorem rounds_after_clean (hm : UnderManifest src s₀) (hmtu : 8 < mtu.toNat) (hmtu' : mtu.toNat ≤ 2048)
    (hroom : s₀.total.toNat + mtu.toNat ≤ 2 ^ 32) (hclean : CleanNetwork net src s₀.total)
    (h : Phase src s₀ s holes bad) (hx : AfterVerify s x) (block_size : UInt32) (round : Nat) {k : Nat}
    (hk : k ≤ rounds_left holes bad) :
    ∃ y s' holes' bad', rounds_after net block_size mtu k round x = some y ∧ AfterVerify s' y ∧
      Phase src s₀ s' holes' bad' ∧ rounds_left holes' bad' + k = rounds_left holes bad := by
  induction k generalizing s x holes bad round with
  | zero => exact ⟨x, s, holes, bad, rfl, hx, h, rfl⟩
  | succ k ih =>
    have hleft : ¬ (holes = [] ∧ bad = []) := by
      rintro ⟨rfl, rfl⟩
      simp [rounds_left] at hk
    obtain ⟨-, y, s', hround, hy, hphase⟩ := client_round_clean hm hmtu hmtu' hroom hclean h hx hleft block_size
      (round + 1)
    have hone := rounds_left_drop hleft
    obtain ⟨z, s'', holes', bad', hrest, hz, hphase', hsum⟩ := ih hphase hy (round + 1) (by omega)
    refine ⟨z, s'', holes', bad', ?_, hz, hphase', by omega⟩
    rw [rounds_after, hround, Option.bind_some, hrest]

/-- The loop stops in the first round whose verdict is good. -/
theorem client_rounds_eq (block_size : UInt32) {k n round : Nat} {y : Rounds}
    (hy : rounds_after net block_size mtu (k + 1) round x = some y) (hst : y.st = .COMPLETE_VERIFIED)
    (hbefore : ∀ j ≤ k, ∀ z, rounds_after net block_size mtu j round x = some z → 0 < j → z.st ≠ .COMPLETE_VERIFIED)
    (hn : k < n) : client_rounds net block_size mtu n round x = some (y, round + (k + 1)) := by
  induction k generalizing n round x with
  | zero =>
    obtain ⟨n, rfl⟩ : ∃ m, n = m + 1 := ⟨n - 1, by omega⟩
    obtain ⟨z, hz, heq⟩ := Option.bind_eq_some_iff.mp hy
    cases heq
    rw [client_rounds, hz]
    exact if_pos hst
  | succ k ih =>
    obtain ⟨n, rfl⟩ : ∃ m, n = m + 1 := ⟨n - 1, by omega⟩
    obtain ⟨z, hz, hrest⟩ := Option.bind_eq_some_iff.mp hy
    have hne : z.st ≠ .COMPLETE_VERIFIED := by
      refine hbefore 1 (by omega) z ?_ (by omega)
      rw [rounds_after, hz]
      rfl
    rw [client_rounds, hz]
    simp only [hne, if_false]
    rw [ih hrest (fun j hj w hw hpos => ?_) (by omega)]
    · congr 2
      omega
    · refine hbefore (j + 1) (by omega) w ?_ (by omega)
      rw [rounds_after, hz]
      exact hw

end Loop

section Start

variable {src : List UInt8} {total block : UInt32} {s₀ : CiSvu}

/-- The server's loss-free network is clean. -/
theorem served_clean (src : List UInt8)
    (hroom : (ci_svu_nblocks total block).toNat * CI_SVU_HASH_LEN + 200 ≤ 2 ^ 32) :
    CleanNetwork (served src total block) src total := by
  intro round request req hreq
  refine ⟨⟨_, ctrl_retry_served src hroom hreq round⟩, fun data hdata => ?_⟩
  simp only [served, hreq, Option.bind_some, hdata, Option.getD_some]
  exact List.Perm.refl data

/-- Where the sum of the sizes does not wrap, a receiver can be built. -/
theorem ci_svu_new_manifest (src : List UInt8) (htotal : 0 < total.toNat) (hblock : 0 < block.toNat)
    (hsum : total.toNat + block.toNat ≤ 2 ^ 32) :
    ∃ s₀, ci_svu_new total block (ci_svu_manifest src total block).2 (ci_svu_manifest src total block).1 =
      some s₀ := by
  have hne := (ci_svu_nblocks_ne_zero_iff htotal hblock).mpr hsum
  refine ⟨_, if_neg ?_⟩
  rintro (hzero | hdiff)
  · exact hne hzero
  · exact hdiff rfl

/-- A receiver built for the manifest of a source. -/
theorem under_manifest (hsrc : src.length = total.toNat)
    (hnew : ci_svu_new total block (ci_svu_manifest src total block).2 (ci_svu_manifest src total block).1 =
      some s₀) : UnderManifest src s₀ := by
  obtain ⟨rfl, rfl, hn, hcount, hne, hexpected, -⟩ := ci_svu_new_spec hnew
  obtain ⟨htotal, hblock, hnblocks⟩ := ci_svu_nblocks_toNat (hcount ▸ hne)
  refine ⟨hsrc, htotal, hblock, by rw [hn, hcount, hnblocks], fun b hb => ?_⟩
  rw [hn] at hb
  rw [hexpected, digest_take hb, digest_manifest src _ _ (hcount ▸ hb)]

/-- Under the manifest of the source a good verdict means the buffer is the source,
    unless some block collides with another. -/
theorem Phase.data_eq {s : CiSvu} (hm : UnderManifest src s₀) (h : Phase src s₀ s [] [])
    (hcoll : NoCollision s.total s.block s.nblocks s.data src) : s.data = src := by
  obtain ⟨ws, hws⟩ := h.reach
  have hfull : ∀ i < s.total.toNat, ¬ Uncovered s i := fun i hi => h.holes.gap (Nat.zero_le i) hi
  have hbad := h.bad
  rw [failing_when_filled_eq hws, filled_eq_data hws hfull, List.filter_eq_nil_iff] at hbad
  rw [hws.total, hws.block, hws.nblocks] at hcoll
  refine Tiling.ext_tile hm.block_pos (by rw [hws.data, Overlay.length_image]) hm.length fun b hb => ?_
  rw [← hm.nblocks] at hb
  have hgood : ¬ Fails s₀ s.data b := by simpa using hbad b (List.mem_range.mpr hb)
  exact hcoll b hb ((not_not.mp hgood).trans (hm.digests b hb))

end Start

/-- The number of maximal uncovered runs. -/
noncomputable def uncovered_runs (s : CiSvu) : Nat :=
  {r : Nat × Nat | Runs.Maximal (Uncovered s) s.total.toNat r.1 r.2}.ncard

/-- What an incomplete verdict counts. -/
theorem uncovered_runs_eq {s₀ s : CiSvu} {ws : List (Overlay.Write UInt8)} (h : Reassembles s₀ ws s)
    {out : List CiSvuInterval} {n : Nat} (hroom : n ≤ out.length)
    (hincomplete : (ci_svu_verify s out n).1 = .INCOMPLETE) :
    uncovered_runs s = (ci_svu_verify s out n).2.2 := by
  obtain ⟨holes, hholes, hstatus, -, hranges⟩ := ci_svu_verify_ranges h n
  rw [uncovered_runs, hholes.ncard, hranges, if_pos ((hstatus out).mp hincomplete),
    foldl_push_range n holes out hroom (Nat.zero_le n)]
  exact (Nat.zero_add _).symm

/-- From the state of `x`, the receiver's being `s`, the loop verifies after exactly
    `k` more rounds. -/
structure VerifiesAfter (net : Network) (block_size mtu : UInt32) (src : List UInt8) (round : Nat) (x : Rounds)
    (k : Nat) : Prop where
  /-- Before that no verdict is good, and every request names a range. -/
  unverified : ∀ j < k, ∃ y, rounds_after net block_size mtu j round x = some y ∧
    y.st ≠ .COMPLETE_VERIFIED ∧ (client_request block_size mtu y).nof_intervals ≠ 0
  verified : ∃ y s, rounds_after net block_size mtu k round x = some y ∧ y.st = .COMPLETE_VERIFIED ∧
    y.recv = some s ∧ (NoCollision s.total s.block s.nblocks s.data src → s.data = src) ∧
    -- what the loop itself returns, for any bound that leaves enough rounds
    (0 < k → ∀ n ≥ k, client_rounds net block_size mtu n round x = some (y, round + k))

/-- The resume loop converges. -/
theorem resume_loop_converges {src : List UInt8} {total block mtu : UInt32} {net : Network}
    (hsrc : src.length = total.toNat) (htotal : 1 ≤ total.toNat) (hblock : 1 ≤ block.toNat)
    (hsum : total.toNat + block.toNat ≤ 2 ^ 32) (hmtu : 8 < mtu.toNat) (hmtu' : mtu.toNat ≤ 2048)
    (hroom : total.toNat + mtu.toNat ≤ 2 ^ 32) (hclean : CleanNetwork net src total) :
    ∃ s₀, ci_svu_new total block (ci_svu_manifest src total block).2 (ci_svu_manifest src total block).1 =
        some s₀ ∧
      ∀ (fs : List Fragment) (block_size : UInt32) (round : Nat) (x : Rounds), AfterVerify (accept_all s₀ fs).1 x →
        VerifiesAfter net block_size mtu src round x
          ((uncovered_runs (accept_all s₀ fs).1 + 31) / 32 +
            ((failing_when_filled src (accept_all s₀ fs).1).length + 31) / 32) := by
  obtain ⟨s₀, hnew⟩ := ci_svu_new_manifest src htotal hblock hsum
  refine ⟨s₀, hnew, fun fs block_size round x hx => ?_⟩
  have hm := under_manifest hsrc hnew
  obtain ⟨hsize, -, -, -, -, -, hstart⟩ := ci_svu_new_spec hnew
  obtain ⟨hreach, -⟩ := hstart.accept_all fs
  rw [← hsize] at hroom hclean
  generalize (accept_all s₀ fs).1 = s at hx hreach ⊢
  -- where the transfer stands
  obtain ⟨holes, hholes, -⟩ := ci_svu_verify_ranges hreach SVU_MAX_INTERVALS
  have hphase : Phase src s₀ s holes (failing_when_filled src s) := ⟨⟨_, hreach⟩, hholes, rfl⟩
  rw [uncovered_runs, hholes.ncard]
  have hleft : (holes.length + 31) / 32 + ((failing_when_filled src s).length + 31) / 32 =
      rounds_left holes (failing_when_filled src s) := rfl
  rw [hleft]
  have hbefore : ∀ j < rounds_left holes (failing_when_filled src s), ∃ y,
      rounds_after net block_size mtu j round x = some y ∧ y.st ≠ .COMPLETE_VERIFIED ∧
        (client_request block_size mtu y).nof_intervals ≠ 0 := by
    intro j hj
    obtain ⟨y, s', holes', bad', hy, hafter, hphase', hk⟩ :=
      rounds_after_clean hm hmtu hmtu' hroom hclean hphase hx block_size round hj.le
    have hleft' : ¬ (holes' = [] ∧ bad' = []) := by
      rintro ⟨rfl, rfl⟩
      simp only [rounds_left, List.length_nil] at hk
      omega
    refine ⟨y, hy, mt (hphase'.after_verify hafter).1.mp hleft', ?_⟩
    exact (client_round_clean hm hmtu hmtu' hroom hclean hphase' hafter hleft' block_size 0).1
  refine ⟨hbefore, ?_⟩
  obtain ⟨y, s', holes', bad', hy, hafter, hphase', hk⟩ :=
    rounds_after_clean hm hmtu hmtu' hroom hclean hphase hx block_size round le_rfl
  have hdone : holes' = [] ∧ bad' = [] := by
    simp only [rounds_left] at hk
    constructor <;> apply List.eq_nil_of_length_eq_zero <;> omega
  obtain ⟨rfl, rfl⟩ := hdone
  have hst := (hphase'.after_verify hafter).1.mpr ⟨rfl, rfl⟩
  refine ⟨y, s', hy, hst, hafter.recv, hphase'.data_eq hm, fun hpos n hn => ?_⟩
  generalize rounds_left holes (failing_when_filled src s) = k at *
  obtain ⟨k, rfl⟩ : ∃ m, k = m + 1 := ⟨k - 1, by omega⟩
  refine client_rounds_eq block_size hy hst (fun j hj z hz _ => ?_) hn
  obtain ⟨z', hz', hne, -⟩ := hbefore j (by omega)
  rw [hz] at hz'
  cases hz'
  exact hne

/-- Nine blocks of eight bytes, the last two bytes short. -/
def striped : List UInt8 := (List.range 70).map UInt8.ofNat

/-- Every other byte of it arrived, the first of them wrong. -/
def stripes : List Fragment :=
  ⟨1, [255], by decide⟩ :: (List.range 34).map fun i => ⟨UInt32.ofNat (2 * i + 3), [UInt8.ofNat (2 * i + 3)], by simp⟩

/-- Only the first block fails once the holes are filled. -/
theorem failing_stripes {s₀ : CiSvu}
    (hnew : ci_svu_new 70 8 (ci_svu_manifest striped 70 8).2 (ci_svu_manifest striped 70 8).1 = some s₀) :
    failing_when_filled striped (accept_all s₀ stripes).1 = [0] := by
  have hm : UnderManifest striped s₀ := under_manifest (by decide) hnew
  have hfilled : (ci_svu_new 70 8 (ci_svu_manifest striped 70 8).2 (ci_svu_manifest striped 70 8).1).map
      (fun s => filled striped (accept_all s stripes).1) = some (striped.set 1 255) := by decide +kernel
  rw [hnew] at hfilled
  have hfilled : filled striped (accept_all s₀ stripes).1 = striped.set 1 255 := Option.some.inj hfilled
  obtain ⟨htotal, hblock, hnblocks, hcount, -, -, hstart⟩ := ci_svu_new_spec hnew
  have hnine : s₀.nblocks.toNat = 9 := by
    rw [hnblocks, hcount]
    decide
  rw [failing_when_filled_eq (hstart.accept_all stripes).1, hfilled, hnine]
  have hfails : ∀ b ∈ List.range 9, Fails s₀ (striped.set 1 255) b ↔ b = 0 := by
    intro b hb
    rw [List.mem_range] at hb
    rw [Fails, hm.digests b (hnine ▸ hb), htotal, hblock]
    by_cases hzero : b = 0
    · subst hzero
      rw [← hash_block_eq, ← hash_block_eq]
      exact iff_of_true (by decide +kernel) rfl
    · have hsame : ∀ b < 9, b ≠ 0 → Tiling.tile 8 70 (striped.set 1 255) b = Tiling.tile 8 70 striped b := by
        decide +kernel
      exact iff_of_false (fun hne => hne (congrArg Fips180.sha256 (hsame b hb hzero))) hzero
  have honly : (List.range 9).filter (fun b => decide (b = 0)) = [0] := by decide
  rw [← honly]
  exact List.filter_congr fun b hb => decide_eq_decide.mpr (hfails b hb)

/-- Two rounds for the 35 holes, and one for the block that fails once they are filled. -/
theorem resume_loop_converges_striped : ∃ s₀,
    ci_svu_new 70 8 (ci_svu_manifest striped 70 8).2 (ci_svu_manifest striped 70 8).1 = some s₀ ∧
      ∀ (block_size : UInt32) (round : Nat) (x : Rounds), AfterVerify (accept_all s₀ stripes).1 x →
        VerifiesAfter (served striped 70 8) block_size 256 striped round x 3 := by
  obtain ⟨s₀, hnew, hconverges⟩ := @resume_loop_converges striped 70 8 256 (served striped 70 8)
    (by decide) (by decide) (by decide) (by decide) (by decide) (by decide) (by decide)
    (served_clean striped (by decide))
  have hcounts : (ci_svu_new 70 8 (ci_svu_manifest striped 70 8).2 (ci_svu_manifest striped 70 8).1).map
      (fun s => ((ci_svu_verify (accept_all s stripes).1 (List.replicate 32 ⟨0, 0⟩) 32).1,
        (ci_svu_verify (accept_all s stripes).1 (List.replicate 32 ⟨0, 0⟩) 32).2.2)) = some (.INCOMPLETE, 35) := by
    decide +kernel
  rw [hnew] at hcounts
  obtain ⟨hstatus, hholes⟩ := Prod.mk.inj (Option.some.inj hcounts)
  obtain ⟨hreach, -⟩ := (ci_svu_new_spec hnew).2.2.2.2.2.2.accept_all stripes
  have hruns := uncovered_runs_eq hreach List.length_replicate.ge hstatus
  refine ⟨s₀, hnew, fun block_size round x hx => ?_⟩
  have hverifies := hconverges stripes block_size round x hx
  rwa [hruns, hholes, failing_stripes hnew] at hverifies

end csp_intercept.svu_session
