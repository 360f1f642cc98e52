import CspIntercept.Svu.Serve

open csp_intercept.ci_svu csp_intercept.svu_proto csp_intercept.svu_serve

namespace csp_intercept.svu_session

/-- One packet of `drain_data`. -/
def drain_packet (recv : CiSvu) (pkt : CspPacket) : CiSvu :=
  if pkt.length.toUInt32 > SVU_DATA_HDR then
    let off := svu_get32 pkt.data 0
    let len := pkt.length.toUInt32 - SVU_DATA_HDR
    (ci_svu_accept recv off ((pkt.data.drop SVU_DATA_HDR.toNat).take len.toNat)).1
  else recv

def drain_data (recv : CiSvu) (packets : List CspPacket) : CiSvu :=
  packets.foldl drain_packet recv

/-- What one control connection does: whether it opens, whether a packet buffer and
    the manifest's memory are to be had, and the packets read before the timeout. -/
structure CtrlLink where
  connected : Bool
  buffer : Bool
  memory : Bool
  reads : List CspPacket

/-- The manifest loop of `ctrl_exchange`; none when a read times out. -/
def read_manifest (man_bytes : UInt32) : UInt32 → List UInt8 → List CspPacket → Option (List UInt8)
  | got, manifest, [] => if got < man_bytes then none else some manifest
  | got, manifest, mp :: reads =>
    if got < man_bytes then
      let take := if got + mp.length.toUInt32 > man_bytes then man_bytes - got else mp.length.toUInt32
      read_manifest man_bytes (got + take) (manifest ++ mp.data.take take.toNat) reads
    else some manifest

/-- What a control exchange yields. -/
structure CtrlReply where
  total : UInt32
  block : UInt32
  nblocks : UInt32
  manifest : List UInt8

/-- One control round on a connection whose request has been encoded. -/
def ctrl_exchange (link : CtrlLink) : Option CtrlReply :=
  if ¬ link.connected ∨ ¬ link.buffer then none
  else match link.reads with
    | [] => none
    | hp :: reads =>
      if hp.length.toNat < SVU_RESP_HDR ∨ svu_get32 hp.data 0 ≠ SVU_MAGIC_RESP then none
      else
        let nblocks := svu_get32 hp.data 16
        if ¬ link.memory then none
        else match read_manifest (nblocks * UInt32.ofNat CI_SVU_HASH_LEN) 0 [] reads with
          | none => none
          | some manifest =>
            some { total := svu_get32 hp.data 8, block := svu_get32 hp.data 12, nblocks, manifest }

/-- The network the client runs over: what the control connection of each attempt does
    and which packets are drained in a round, both given the request on the wire, and
    whether the receiver's memory is to be had. -/
structure Network where
  ctrl : (round attempt : Nat) → (request : List UInt8) → CtrlLink
  data : (round : Nat) → (request : List UInt8) → List CspPacket
  memory : Bool

/-- The variables of the round loop. -/
structure Rounds where
  recv : Option CiSvu
  total : UInt32
  ivs : List CiSvuInterval
  nreq : Nat
  st : CiSvuStatus

def client_start : Rounds where
  recv := none
  total := 0
  ivs := List.replicate SVU_MAX_INTERVALS ⟨0, 0⟩
  nreq := 0
  st := .INCOMPLETE

/-- The request of the next round. -/
def client_request (block_size mtu : UInt32) (x : Rounds) : SvuReq where
  magic := SVU_MAGIC_REQ
  session_id := 1
  mtu
  block_size
  nof_intervals := UInt32.ofNat x.nreq
  client_addr := 0
  intervals := Vector.ofFn fun i => if i.val < x.nreq then x.ivs.getD i.val ⟨0, 0⟩ else ⟨0, 0⟩

/-- Up to eight attempts of the control exchange. -/
def ctrl_retry (net : Network) (round : Nat) (request : List UInt8) : Option CtrlReply :=
  (List.range 8).findSome? fun attempt => ctrl_exchange (net.ctrl round attempt request)

/-- The receiver of a round: the one there is, or a new one for the server's manifest. -/
def round_receiver (net : Network) (x : Rounds) (reply : CtrlReply) : Option (CiSvu × UInt32) :=
  match x.recv with
  | some recv => some (recv, x.total)
  | none =>
    if net.memory then
      (ci_svu_new reply.total reply.block reply.manifest reply.nblocks).map fun recv => (recv, reply.total)
    else none

/-- The body of the round loop; none is `goto done`. -/
def client_round (net : Network) (block_size mtu : UInt32) (round : Nat) (x : Rounds) : Option Rounds :=
  let request := svu_req_encode (client_request block_size mtu x)
  match ctrl_retry net round request with
  | none => none
  | some reply =>
    match round_receiver net x reply with
    | none => none
    | some (recv, total) =>
      let recv := drain_data recv (net.data round request)
      let verdict := ci_svu_verify recv x.ivs SVU_MAX_INTERVALS
      let nreq :=
        if verdict.1 = .COMPLETE_VERIFIED then x.nreq
        else if verdict.2.2 < SVU_MAX_INTERVALS then verdict.2.2 else SVU_MAX_INTERVALS
      some { recv := some recv, total, ivs := verdict.2.1, nreq, st := verdict.1 }

/-- The round loop with `n` rounds left: the loop variables and the round it stops in. -/
def client_rounds (net : Network) (block_size mtu : UInt32) : Nat → Nat → Rounds → Option (Rounds × Nat)
  | 0, round, x => some (x, round)
  | n + 1, round, x =>
    match client_round net block_size mtu (round + 1) x with
    | none => none
    | some y =>
      if y.st = .COMPLETE_VERIFIED then some (y, round + 1)
      else client_rounds net block_size mtu n (round + 1) y

/-- What the output file does: whether it opens, how many bytes `fwrite` stores, how
    many of these are on the disk in the end and whether `fclose` says so. -/
structure OutFile where
  fopen_ok : Bool
  stored : Nat
  fclose_ok : Bool
  on_disk : Nat
  on_disk_le : on_disk ≤ stored
  on_disk_eq : fclose_ok = true → on_disk = stored

/-- Write-out and result: the return value and what is in the file afterwards. -/
def write_out (file : OutFile) (recv : CiSvu) (total : UInt32) : Int × Option (List UInt8) :=
  if file.fopen_ok then
    -- neither the count `fwrite` returns nor the result of `fclose` is looked at
    (0, some (((ci_svu_data recv).take total.toNat).take file.on_disk))
  else (-1, none)

/-- The return value and the file's content, none when the file is not opened. -/
def svu_client_run (net : Network) (file : OutFile) (block_size mtu max_rounds : UInt32) :
    Int × Option (List UInt8) :=
  match client_rounds net block_size mtu max_rounds.toNat 0 client_start with
  | none => (-1, none)
  | some (x, _) =>
    if x.st ≠ .COMPLETE_VERIFIED then (-1, none)
    else match x.recv with
      | none => (-1, none)
      | some recv => write_out file recv x.total

end csp_intercept.svu_session
