import CspIntercept.Lib.IdleDrain
import CspIntercept.Lib.Transducer
import CspIntercept.Svu.WriteOut

open Overlay csp_intercept.ci_svu csp_intercept.svu_proto csp_intercept.svu_serve

namespace csp_intercept.svu_session

/-- A packet that comes to the data socket, the time since the round's drain began (0 when it was there
    before), and whether it was inserted into the run: the session of an inserted one is not that of the
    request in progress. -/
structure Arrival where
  t_ms : Nat
  packet : CspPacket
  inserted : Bool
  foreign : inserted = true → ∀ block_size mtu x,
    svu_get32 packet.data 4 ≠ (client_request block_size mtu x).session_id

/-- The packet as it waits in the socket between two drains. -/
def Arrival.waiting (a : Arrival) : Arrival := { a with t_ms := 0 }

/-- What surrounds a run. The data traffic of a round is what comes to the socket from its request to the
    next one, in the order in which it comes, the inserted packets among the others. -/
structure Surroundings where
  ctrl : (round attempt : Nat) → (request : List UInt8) → CtrlLink
  traffic : (round : Nat) → (request : List UInt8) → List Arrival
  in_order : ∀ round request, (traffic round request).Pairwise fun a b => a.t_ms ≤ b.t_ms
  memory : Bool

def arrived (as : List Arrival) : List CspPacket := as.map Arrival.packet

/-- The packets that were not inserted. -/
def genuine (as : List Arrival) : List Arrival := as.filter fun a => !a.inserted

/-- The surroundings without the inserted packets. -/
def Surroundings.alone (env : Surroundings) : Surroundings where
  ctrl := env.ctrl
  traffic round request := genuine (env.traffic round request)
  in_order round request := (env.in_order round request).filter _
  memory := env.memory

/-- `drain_data` with its timeout: every packet read restarts the two seconds in which another one must come,
    and what comes later stays in the socket. -/
def drained (queue : List Arrival) : List Arrival × List Arrival :=
  IdleDrain.drain Arrival.t_ms 2000 0 queue

/-- The request on the wire. -/
def wire_request (block_size mtu : UInt32) (x : Rounds) : List UInt8 :=
  svu_req_encode (client_request block_size mtu x)

/-- The network in a round that reads these packets. -/
def Surroundings.reading (env : Surroundings) (read : List Arrival) : Network where
  ctrl := env.ctrl
  data _ _ := arrived read
  memory := env.memory

/-- The loop variables, and what is left in the data socket, after `n` rounds. -/
def Surroundings.after (env : Surroundings) (block_size mtu : UInt32) : Nat → Option (Rounds × List Arrival)
  | 0 => some (client_start, [])
  | n + 1 =>
    match env.after block_size mtu n with
    | none => none
    | some (x, unread) =>
      if x.st = .COMPLETE_VERIFIED then none
      else
        let drain := drained (unread ++ env.traffic (n + 1) (wire_request block_size mtu x))
        (client_round (env.reading drain.1) block_size mtu (n + 1) x).map fun y => (y, drain.2.map Arrival.waiting)

/-- What is left in the data socket after `n` rounds. -/
def Surroundings.unread (env : Surroundings) (block_size mtu : UInt32) (n : Nat) : List Arrival :=
  match env.after block_size mtu n with
  | none => []
  | some (_, unread) => unread

/-- The drain of the round after `n` rounds: the packets read, and those left. -/
def Surroundings.drain (env : Surroundings) (block_size mtu : UInt32) (n : Nat) (request : List UInt8) :
    List Arrival × List Arrival :=
  drained (env.unread block_size mtu n ++ env.traffic (n + 1) request)

/-- The network that a run sees. -/
def Surroundings.network (env : Surroundings) (block_size mtu : UInt32) : Network where
  ctrl := env.ctrl
  data round request := arrived (env.drain block_size mtu (round - 1) request).1
  memory := env.memory

/-- The packet changes nothing in the receiver: it has no payload, or the payload is refused,
    or it brings to bytes that are covered what they already are. -/
def Harmless (s : CiSvu) (pkt : CspPacket) : Prop :=
  ∀ f, packet_fragment pkt = some f → f.Fits s.total →
    ∀ i, f.write.Covers i → s.covered[i]? = some true ∧ s.data[i]? = f.write.itemAt i

/-- After `n` rounds with the loop variables `x` the run goes into another one and drains the
    data socket into `recv`. -/
structure Drains (env : Surroundings) (block_size mtu max_rounds : UInt32) (n : Nat) (x : Rounds) (recv : CiSvu) :
    Prop where
  bound : n < max_rounds.toNat
  rounds : client_rounds (env.network block_size mtu) block_size mtu n 0 client_start = some (x, n)
  unverified : x.st ≠ .COMPLETE_VERIFIED
  receiver : ∃ reply total,
    ctrl_retry (env.network block_size mtu) (n + 1) (wire_request block_size mtu x) = some reply ∧
      round_receiver (env.network block_size mtu) x reply = some (recv, total)

/-- The packets read in the round after `n` rounds with the loop variables `x`. -/
def Surroundings.reads (env : Surroundings) (block_size mtu : UInt32) (n : Nat) (x : Rounds) : List Arrival :=
  (env.drain block_size mtu n (wire_request block_size mtu x)).1

/-- The inserted packets leave the run as it is. -/
structure Isolated (env : Surroundings) (block_size mtu max_rounds : UInt32) : Prop where
  /-- At every moment of every drain the buffer and the coverage map are what they are in the run without
      them once it has read as many of the other packets. -/
  moments : ∀ n x recv, Drains env block_size mtu max_rounds n x recv →
    ∀ as, as <+: env.reads block_size mtu n x →
      drain_data recv (arrived as) =
        drain_data recv (arrived ((env.alone.reads block_size mtu n x).take (genuine as).length))
  /-- So are, after any number of rounds, the receiver, the ranges of the next request, the
      verdict and the number of rounds. -/
  rounds : ∀ n ≤ max_rounds.toNat,
    client_rounds (env.network block_size mtu) block_size mtu n 0 client_start =
      client_rounds (env.alone.network block_size mtu) block_size mtu n 0 client_start
  result : ∀ file, svu_client_run (env.network block_size mtu) file block_size mtu max_rounds =
    svu_client_run (env.alone.network block_size mtu) file block_size mtu max_rounds

/-- The second word of the data header is the session. -/
theorem session_data_packet (session : UInt32) (src : List UInt8) (off len : UInt32) :
    svu_get32 (data_packet session src off len).data 4 = session := by
  rw [data_packet, List.append_assoc]
  exact (svu_get32_append (svu_put32 off) _ 0).trans (svu_get32_put32 session _)

section Receiver

variable {s₀ s : CiSvu} {ws : List (Write UInt8)}

/-- The coverage loop sets no flag exactly when all of its range is covered. -/
theorem cover_loop_eq_self_iff {covered : List Bool} {n i : Nat} (hfit : i + n ≤ covered.length) (count : UInt32) :
    (cover_loop covered count i n).1 = covered ↔ ∀ j, i ≤ j ∧ j < i + n → covered[j]? = some true := by
  constructor
  · intro hsame j hin
    have hflag : (cover_loop covered count i n).1[j]? = some true := by
      rw [getElem?_cover_loop n i hfit, if_pos hin]
    rwa [hsame] at hflag
  · intro hall
    apply List.ext_getElem?
    intro j
    rw [getElem?_cover_loop n i hfit]
    split_ifs with hin
    · exact (hall j hin).symm
    · rfl

/-- A fragment that fits changes nothing exactly when it brings covered bytes what they are. -/
theorem accept_eq_self_iff (h : Reassembles s₀ ws s) {f : Fragment} (hfits : f.Fits s.total) :
    (ci_svu_accept s f.offset f.bytes).1 = s ↔
      ∀ i, f.write.Covers i → s.covered[i]? = some true ∧ s.data[i]? = f.write.itemAt i := by
  have htotal := s.total.toNat_lt
  have hcovered : s.covered.length = s.total.toNat := by
    rw [h.covered, List.length_map, List.length_range, h.total]
  have hdata : s.data.length = s.total.toNat := by
    rw [h.data, length_image, h.total]
  have hroom : f.offset.toNat + f.bytes.length ≤ s.covered.length := hcovered.symm ▸ hfits
  have hroom' : f.write.offset + f.write.items.length ≤ s.data.length := hdata.symm ▸ hfits
  have hflags := cover_loop_eq_self_iff hroom s.covered_count
  have hbytes := store_eq_self_iff hroom'
  rw [ci_svu_accept_eq, if_pos hfits]
  constructor
  · intro hsame i hcov
    exact ⟨hflags.mp (congrArg CiSvu.covered hsame) i hcov, hbytes.mp (congrArg CiSvu.data hsame) i hcov⟩
  · intro hall
    have hflags' := hflags.mpr fun i hcov => (hall i hcov).1
    have hbytes' := hbytes.mpr fun i hcov => (hall i hcov).2
    have hcount : (cover_loop s.covered s.covered_count f.offset.toNat f.bytes.length).2 = s.covered_count := by
      apply UInt32.toNat_inj.mp
      rw [count_cover_loop _ _ (by omega) h.covered_count, hflags', h.covered_count]
    rw [hflags', hcount, hbytes']

/-- The packets that leave the receiver as it is are the harmless ones. -/
theorem drain_packet_eq_self_iff (h : Reassembles s₀ ws s) (pkt : CspPacket) :
    drain_packet s pkt = s ↔ Harmless s pkt := by
  rw [drain_packet_eq, Harmless]
  cases hfrag : packet_fragment pkt with
  | none => exact iff_of_true rfl nofun
  | some f =>
    simp only [Option.some.injEq, forall_eq']
    by_cases hfits : f.Fits s.total
    · rw [accept_eq_self_iff h hfits]
      exact ⟨fun hall _ => hall, fun hall => hall hfits⟩
    · rw [ci_svu_accept_eq, if_neg hfits]
      exact iff_of_true rfl fun hfits' => absurd hfits' hfits

end Receiver

section Rounds

variable {net : Network} {block_size mtu : UInt32}

end Rounds

section Socket

variable {env : Surroundings} {block_size mtu max_rounds : UInt32} {n : Nat} {x y : Rounds} {recv : CiSvu}

end Socket

section TwoRuns

variable {env : Surroundings} {block_size mtu max_rounds : UInt32} {n : Nat} {x : Rounds} {recv : CiSvu}

end TwoRuns

section Byte

/-- A packet of another session, with a byte of payload or without. -/
def stray (t_ms : Nat) (payload : List UInt8) : Arrival where
  t_ms
  packet := data_packet 2 payload 0 (UInt32.ofNat payload.length)
  inserted := true
  foreign _ block_size mtu x := by
    rw [session_data_packet]
    change (2 : UInt32) ≠ 1
    decide

/-- The server's packet with the one byte of the file. -/
def byte_sent (t_ms : Nat) : Arrival where
  t_ms
  packet := data_packet 1 [7] 0 1
  inserted := false
  foreign := nofun

/-- A one-byte file is pulled from the server, and the same packets come in every round. -/
def byte_pull (traffic : List Arrival) (in_order : traffic.Pairwise fun a b => a.t_ms ≤ b.t_ms) : Surroundings where
  ctrl := (served [7] 1 1).ctrl
  traffic _ _ := traffic
  in_order _ _ := in_order
  memory := true

variable {traffic : List Arrival} {in_order : traffic.Pairwise fun a b => a.t_ms ≤ b.t_ms} {b : UInt8}

/-- The first drain of the pull is into an empty receiver, in which a packet with a byte counts. -/
theorem first_drain : ∃ recv, Drains (byte_pull traffic in_order) 4096 256 500 0 client_start recv ∧
    ∀ session : UInt32, drain_packet recv (data_packet session [b] 0 1) ≠ recv := by
  obtain ⟨s₀, hnew⟩ := @ci_svu_new_manifest 1 1 [7] (by decide) (by decide) (by decide)
  obtain ⟨htotal, -, -, -, -, -, hstart⟩ := ci_svu_new_spec hnew
  have hreply : ctrl_retry ((byte_pull traffic in_order).network 4096 256) 1 (wire_request 4096 256 client_start) =
      some ⟨1, 1, ci_svu_nblocks 1 1, (ci_svu_manifest [7] 1 1).2⟩ :=
    ctrl_retry_served [7] (by decide) (decode_client_request 4096 256 client_start) 1
  have hreceiver : round_receiver ((byte_pull traffic in_order).network 4096 256) client_start
      ⟨1, 1, ci_svu_nblocks 1 1, (ci_svu_manifest [7] 1 1).2⟩ = some (s₀, 1) :=
    congrArg (Option.map fun recv => (recv, (1 : UInt32))) hnew
  refine ⟨s₀, ⟨by decide, rfl, nofun, _, _, hreply, hreceiver⟩, fun session hsame => ?_⟩
  have hharmless := (drain_packet_eq_self_iff hstart (data_packet session [b] 0 1)).mp hsame
  have hflag := hstart.getElem?_covered (i := 0) (by rw [htotal]; decide)
  obtain ⟨f, hfrag, hoff, hbytes⟩ := @packet_fragment_data_packet session [b] 0 1 (by decide) (by decide)
  have hfits : f.Fits s₀.total := by
    rw [Fragment.Fits, hoff, hbytes, htotal]
    exact Nat.le_refl 1
  have hcov : f.write.Covers 0 := by
    change f.offset.toNat ≤ 0 ∧ 0 < f.offset.toNat + f.bytes.length
    rw [hoff, hbytes]
    exact ⟨Nat.le_refl 0, Nat.zero_lt_one⟩
  rw [(hharmless f hfrag hfits 0 hcov).1] at hflag
  cases hflag

/-- An empty packet of another session keeps the drain waiting for a packet that comes late, which is then
    not asked for again either. -/
theorem empty_packet_prolongs_drain :
    ¬ Isolated (byte_pull [stray 1500 [], byte_sent 3000] (by simp [byte_sent, stray])) 4096 256 500 := by
  intro h
  obtain ⟨recv, hdrains, hcounts⟩ := @first_drain [stray 1500 [], byte_sent 3000] (by simp [byte_sent, stray]) 7
  exact hcounts 1 (h.moments 0 client_start recv hdrains _ (List.prefix_refl _))

end Byte

end csp_intercept.svu_session
