import CspIntercept.Lib.Tiling
import CspIntercept.Svu.Proto

open csp_intercept.ci_svu csp_intercept.svu_proto

namespace csp_intercept.svu_serve

/-- A CSP packet: the bytes of its buffer and its 16-bit length field. -/
structure CspPacket where
  data : List UInt8
  length : UInt16

/-- `for (off = start; off < end; off += step)` with the length of each piece, on
    32-bit offsets. A loop that has not ended after `2 ^ 32` turns never does. -/
def chunk_loop (step end_ : UInt32) : Nat → UInt32 → Option (List (UInt32 × UInt32))
  | 0, off => if off < end_ then none else some []
  | n + 1, off =>
    if off < end_ then
      let len := if off + step ≤ end_ then step else end_ - off
      (chunk_loop step end_ n (off + step)).map fun rest => (off, len) :: rest
    else some []

/-- The manifest in packets of at most 200 bytes. -/
def send_manifest (manifest : List UInt8) (bytes : UInt32) : Option (List CspPacket) :=
  (chunk_loop 200 bytes (2 ^ 32) 0).map fun chunks => chunks.map fun c =>
    { data := (manifest.drop c.1.toNat).take c.2.toNat, length := c.2.toUInt16 }

/-- One fire-and-forget data packet. -/
def data_packet (session : UInt32) (src : List UInt8) (off len : UInt32) : CspPacket where
  data := svu_put32 off ++ svu_put32 session ++ (src.drop off.toNat).take len.toNat
  length := (SVU_DATA_HDR + len).toUInt16

/-- Blast one byte interval; packet buffers are taken to be available. -/
def blast_interval (session mtu : UInt32) (src : List UInt8) (start end_ : UInt32) : Option (List CspPacket) :=
  let pay := if mtu > SVU_DATA_HDR then mtu - SVU_DATA_HDR else 1
  (chunk_loop pay end_ (2 ^ 32) start).map fun chunks => chunks.map fun c => data_packet session src c.1 c.2

/-- Blast the requested intervals, each clipped to the file. -/
def blast_requested (session mtu : UInt32) (src : List UInt8) (total : UInt32) :
    List CiSvuInterval → Option (List CspPacket)
  | [] => some []
  | iv :: ivs =>
    let e := if iv.end_ > total then total else iv.end_
    let first := if iv.start < e then blast_interval session mtu src iv.start e else some []
    match first, blast_requested session mtu src total ivs with
    | some packets, some rest => some (packets ++ rest)
    | _, _ => none

/-- The data packets of one request; no interval means the whole file. -/
def serve_data (src : List UInt8) (total : UInt32) (req : SvuReq) : Option (List CspPacket) :=
  let mtu := if req.mtu > SVU_DATA_HDR then req.mtu else 256
  if req.nof_intervals = 0 then blast_interval req.session_id mtu src 0 total
  else blast_requested req.session_id mtu src total (req.intervals.toList.take req.nof_intervals.toNat)

/-- The response header and the manifest of one request. -/
def serve_ctrl (src : List UInt8) (total block_size : UInt32) (req : SvuReq) : Option (List CspPacket) :=
  let nblocks := ci_svu_nblocks total block_size
  let resp : CspPacket := {
    data := [SVU_MAGIC_RESP, req.session_id, total, block_size, nblocks].flatMap svu_put32
    length := UInt16.ofNat SVU_RESP_HDR }
  (send_manifest (ci_svu_manifest src total block_size).2 (nblocks * UInt32.ofNat CI_SVU_HASH_LEN)).map
    fun chunks => resp :: chunks

/-- One turn of `svu_serve_loop` with the request packet `pkt`: the packets sent on the
    control connection and the data packets. A request that does not parse is ignored;
    none is a loop that does not end. -/
def svu_serve_loop_body (src : List UInt8) (total block_size : UInt32) (pkt : List UInt8) :
    Option (List CspPacket × List CspPacket) :=
  match svu_req_decode pkt with
  | none => some ([], [])
  | some req =>
    match serve_ctrl src total block_size req, serve_data src total req with
    | some ctrl, some data => some (ctrl, data)
    | _, _ => none

section Unwrapped

/-- Counting from `off` in steps, the first value that is not below `end_` fits 32 bits. -/
def Unwrapped (off end_ step : Nat) : Prop := off + (end_ - off + step - 1) / step * step < 4294967296

instance (off end_ step : Nat) : Decidable (Unwrapped off end_ step) := inferInstanceAs (Decidable (_ < _))

variable {off end_ step : Nat}

theorem unwrapped_done (hstep : 0 < step) (hge : end_ ≤ off) :
    Unwrapped off end_ step ↔ off < 4294967296 := by
  have hzero : (end_ - off + step - 1) / step = 0 := Nat.div_eq_of_lt (by omega)
  rw [Unwrapped, hzero, Nat.zero_mul, Nat.add_zero]

theorem unwrapped_next (hstep : 0 < step) (hlt : off < end_) :
    Unwrapped off end_ step ↔ off + step < 4294967296 ∧ Unwrapped (off + step) end_ step := by
  have hturn : (end_ - off + step - 1) / step = (end_ - (off + step) + step - 1) / step + 1 := by
    rcases Nat.lt_or_ge (off + step) end_ with hmore | hlast
    · have hsplit : end_ - off + step - 1 = end_ - (off + step) + step - 1 + step := by omega
      rw [hsplit, Nat.add_div_right _ hstep]
    · have hzero : (end_ - (off + step) + step - 1) / step = 0 := Nat.div_eq_of_lt (by omega)
      rw [hzero, Nat.div_eq_iff hstep]
      omega
  rw [Unwrapped, Unwrapped, hturn, Nat.add_mul, Nat.one_mul]
  omega

theorem unwrapped_of_room (hstep : 0 < step) (hlt : off < 4294967296) (hroom : end_ + step ≤ 4294967296) :
    Unwrapped off end_ step := by
  rcases Nat.lt_or_ge off end_ with hmore | hdone
  · have hmul := Nat.div_mul_le_self (end_ - off + step - 1) step
    rw [Unwrapped]
    omega
  · exact (unwrapped_done hstep hdone).mpr hlt

end Unwrapped

section Chunks

variable (step end_ : UInt32)

theorem chunk_loop_done {off : UInt32} (hdone : ¬ off < end_) (n : Nat) : chunk_loop step end_ n off = some [] := by
  cases n with
  | zero => rw [chunk_loop, if_neg hdone]
  | succ n => rw [chunk_loop, if_neg hdone]

/-- A piece is a full step long, or it reaches to the end. -/
theorem chunk_len_toNat {off : UInt32} (hroom : off.toNat + step.toNat < 4294967296)
    (hlt : off.toNat < end_.toNat) :
    (off + step).toNat = off.toNat + step.toNat ∧
      (if off + step ≤ end_ then step else end_ - off).toNat = min step.toNat (end_.toNat - off.toNat) := by
  have hnext : (off + step).toNat = off.toNat + step.toNat := by
    rw [UInt32.toNat_add]
    omega
  refine ⟨hnext, ?_⟩
  split_ifs with hle
  · rw [UInt32.le_iff_toNat_le] at hle
    omega
  · rw [UInt32.le_iff_toNat_le] at hle
    rw [UInt32.toNat_sub_of_le _ _ (UInt32.le_iff_toNat_le.mpr hlt.le)]
    omega

/-- Offset and length of a piece, without the machine's width. -/
def piece (c : UInt32 × UInt32) : Nat × Nat := (c.1.toNat, c.2.toNat)

/-- A loop that does not wrap ends, and its pieces cut up the interval. -/
theorem chunk_loop_pieces (hstep : 0 < step.toNat) (n : Nat) (off : UInt32) (hle : off.toNat ≤ end_.toNat)
    (hun : Unwrapped off.toNat end_.toNat step.toNat) (hfuel : end_.toNat ≤ off.toNat + n) :
    ∃ chunks, chunk_loop step end_ n off = some chunks ∧
      Tiling.Pieces off.toNat end_.toNat (chunks.map piece) ∧ ∀ c ∈ chunks, c.2.toNat ≤ step.toNat := by
  induction n generalizing off with
  | zero =>
    have hend : ¬ off < end_ := by
      rw [UInt32.lt_iff_toNat_lt]
      omega
    refine ⟨[], chunk_loop_done step end_ hend 0, ?_, by simp⟩
    have hsame : off.toNat = end_.toNat := by omega
    rw [hsame]
    exact .nil _
  | succ n ih =>
    by_cases hlt : off < end_
    · have hlt' := UInt32.lt_iff_toNat_lt.mp hlt
      obtain ⟨hroom, hun'⟩ := (unwrapped_next hstep hlt').mp hun
      obtain ⟨hnext, hval⟩ := chunk_len_toNat step end_ hroom hlt'
      obtain ⟨len, hlen⟩ : ∃ len, (if off + step ≤ end_ then step else end_ - off) = len := ⟨_, rfl⟩
      rw [hlen] at hval
      have hrec : ∃ chunks, chunk_loop step end_ n (off + step) = some chunks ∧
          Tiling.Pieces (off.toNat + len.toNat) end_.toNat (chunks.map piece) ∧
          ∀ c ∈ chunks, c.2.toNat ≤ step.toNat := by
        by_cases hfull : off.toNat + step.toNat ≤ end_.toNat
        · have hsame : off.toNat + len.toNat = (off + step).toNat := by omega
          rw [hsame]
          exact ih (off + step) (by omega) (by rwa [hnext]) (by omega)
        · -- the last, shorter piece
          have hdone : ¬ off + step < end_ := by
            rw [UInt32.lt_iff_toNat_lt]
            omega
          refine ⟨[], chunk_loop_done step end_ hdone n, ?_, by simp⟩
          have hend : off.toNat + len.toNat = end_.toNat := by omega
          rw [hend]
          exact .nil _
      obtain ⟨chunks, hrun, hpieces, hsmall⟩ := hrec
      have hpos : 0 < len.toNat := by omega
      refine ⟨(off, len) :: chunks, ?_, .cons hpos hpieces, ?_⟩
      · rw [chunk_loop, if_pos hlt, hrun]
        simp only [hlen, Option.map_some]
      · rintro c (_ | ⟨_, hc⟩)
        · change len.toNat ≤ step.toNat
          omega
        · exact hsmall c hc
    · refine ⟨[], chunk_loop_done step end_ hlt (n + 1), ?_, by simp⟩
      have hge := mt UInt32.lt_iff_toNat_lt.mpr hlt
      have hend : off.toNat = end_.toNat := by omega
      rw [hend]
      exact .nil _

/-- The pieces of the loop tile the interval: each is not empty, at most a step long
    and inside it, and every offset is in one. -/
theorem chunk_loop_tiles (hstep : 0 < step.toNat) (hroom : end_.toNat + step.toNat ≤ 2 ^ 32) (n : Nat)
    (off : UInt32) (hfuel : end_.toNat ≤ off.toNat + n) :
    ∃ chunks, chunk_loop step end_ n off = some chunks ∧
      (∀ c ∈ chunks, off.toNat ≤ c.1.toNat ∧ c.1.toNat + c.2.toNat ≤ end_.toNat ∧
        0 < c.2.toNat ∧ c.2.toNat ≤ step.toNat) ∧
      ∀ i, off.toNat ≤ i → i < end_.toNat → ∃ c ∈ chunks, c.1.toNat ≤ i ∧ i < c.1.toNat + c.2.toNat := by
  by_cases hle : off.toNat ≤ end_.toNat
  · have hun := unwrapped_of_room hstep off.toNat_lt hroom
    obtain ⟨chunks, hrun, hpieces, hsmall⟩ := chunk_loop_pieces step end_ hstep n off hle hun hfuel
    refine ⟨chunks, hrun, fun c hc => ?_, fun i hlo hhi => ?_⟩
    · obtain ⟨hlo, hpos, hhi⟩ := hpieces.inside (piece c) (List.mem_map_of_mem hc)
      exact ⟨hlo, hhi, hpos, hsmall c hc⟩
    · have hone := hpieces.countP_eq_one hlo hhi
      obtain ⟨p, hp, hin⟩ := List.countP_pos_iff.mp (hone.symm ▸ Nat.one_pos)
      obtain ⟨c, hc, rfl⟩ := List.mem_map.mp hp
      exact ⟨c, hc, of_decide_eq_true hin⟩
  · have hdone : ¬ off < end_ := by
      rw [UInt32.lt_iff_toNat_lt]
      omega
    refine ⟨[], chunk_loop_done step end_ hdone n, by simp, fun i hlo hhi => ?_⟩
    omega

/-- The first piece takes a full step, or all there is. -/
theorem chunk_loop_first {n : Nat} {off : UInt32} {chunks : List (UInt32 × UInt32)}
    (hrun : chunk_loop step end_ n off = some chunks) (hlt : off < end_) :
    ∃ c ∈ chunks, min step.toNat (end_.toNat - off.toNat) ≤ c.2.toNat := by
  cases n with
  | zero =>
    rw [chunk_loop, if_pos hlt] at hrun
    cases hrun
  | succ n =>
    rw [chunk_loop, if_pos hlt] at hrun
    obtain ⟨rest, -, rfl⟩ := Option.map_eq_some_iff.mp hrun
    refine ⟨_, List.mem_cons_self, ?_⟩
    change _ ≤ (if off + step ≤ end_ then step else end_ - off).toNat
    split_ifs
    · exact Nat.min_le_left _ _
    · rw [UInt32.toNat_sub_of_le _ _ (UInt32.le_of_lt hlt)]
      exact Nat.min_le_right _ _

/-- A loop whose pieces all end below 2^32 never wraps: on a wrap a full step is taken
    at an offset without room for it. -/
theorem unwrapped_of_chunks (hstep : 0 < step.toNat) {n : Nat} {off : UInt32}
    {chunks : List (UInt32 × UInt32)} (hrun : chunk_loop step end_ n off = some chunks)
    (hin : ∀ c ∈ chunks, c.1.toNat + c.2.toNat < 4294967296) :
    Unwrapped off.toNat end_.toNat step.toNat := by
  have hdone {off : UInt32} (hge : ¬ off < end_) : Unwrapped off.toNat end_.toNat step.toNat := by
    rw [UInt32.lt_iff_toNat_lt] at hge
    exact (unwrapped_done hstep (by omega)).mpr off.toNat_lt
  induction n generalizing off chunks with
  | zero =>
    rw [chunk_loop] at hrun
    split_ifs at hrun with hlt
    exact hdone hlt
  | succ n ih =>
    by_cases hlt : off < end_
    · rw [chunk_loop, if_pos hlt] at hrun
      obtain ⟨rest, hrest, rfl⟩ := Option.map_eq_some_iff.mp hrun
      have hlt' := UInt32.lt_iff_toNat_lt.mp hlt
      have hoff := off.toNat_lt
      have hstep' := step.toNat_lt
      have hend := end_.toNat_lt
      have hroom : off.toNat + step.toNat < 4294967296 := by
        by_contra hwrap
        have hle : off + step ≤ end_ := by
          rw [UInt32.le_iff_toNat_le, UInt32.toNat_add]
          omega
        have hfirst := hin _ List.mem_cons_self
        simp only [if_pos hle] at hfirst
        omega
      obtain ⟨hnext, -⟩ := chunk_len_toNat step end_ hroom hlt'
      have hrec := ih hrest fun c hc => hin c (List.mem_cons_of_mem _ hc)
      rw [hnext] at hrec
      exact (unwrapped_next hstep hlt').mpr ⟨hroom, hrec⟩
    · exact hdone hlt

end Chunks

end csp_intercept.svu_serve
