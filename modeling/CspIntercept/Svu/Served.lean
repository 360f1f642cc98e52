import CspIntercept.Svu.Receiver
import CspIntercept.Svu.Session

open csp_intercept.ci_svu csp_intercept.svu_proto csp_intercept.svu_serve

namespace csp_intercept.svu_session

/-- The network on which the server answers every request and nothing is lost. -/
def served (src : List UInt8) (total block_size : UInt32) : Network where
  ctrl _ _ request :=
    { connected := true
      buffer := true
      memory := true
      reads := ((svu_req_decode request).bind (serve_ctrl src total block_size)).getD [] }
  data _ request := ((svu_req_decode request).bind (serve_data src total)).getD []
  memory := true

/-- Reading the packets `send_manifest` sends from `off` on gives the rest of the
    manifest. -/
theorem read_manifest_chunks {manifest : List UInt8} {bytes : UInt32} (hlen : manifest.length = bytes.toNat)
    {n : Nat} (off : UInt32) (hun : Unwrapped off.toNat bytes.toNat 200) {chunks : List (UInt32 × UInt32)}
    (hchunks : chunk_loop 200 bytes n off = some chunks) (acc : List UInt8) :
    read_manifest bytes off acc (chunks.map fun c =>
      { data := (manifest.drop c.1.toNat).take c.2.toNat, length := c.2.toUInt16 }) =
        some (acc ++ manifest.drop off.toNat) := by
  have hdone {off : UInt32} (hge : ¬ off < bytes) : manifest.drop off.toNat = [] := by
    rw [UInt32.lt_iff_toNat_lt] at hge
    exact List.drop_eq_nil_of_le (by omega)
  induction n generalizing off acc chunks with
  | zero =>
    rw [chunk_loop] at hchunks
    split_ifs at hchunks with hlt
    cases hchunks
    rw [List.map_nil, read_manifest, if_neg hlt, hdone hlt, List.append_nil]
  | succ n ih =>
    by_cases hlt : off < bytes
    · rw [chunk_loop, if_pos hlt] at hchunks
      obtain ⟨rest, hrest, rfl⟩ := Option.map_eq_some_iff.mp hchunks
      have hlt' := UInt32.lt_iff_toNat_lt.mp hlt
      have hstep : UInt32.toNat 200 = 200 := rfl
      obtain ⟨hroom, hrestun⟩ := (unwrapped_next (by decide) hlt').mp hun
      obtain ⟨hnext, hval⟩ := chunk_len_toNat 200 bytes hroom hlt'
      obtain ⟨len, hdef⟩ : ∃ len, (if off + 200 ≤ bytes then 200 else bytes - off) = len := ⟨_, rfl⟩
      rw [hdef, hstep] at hval
      rw [hstep] at hnext
      have hword : len.toUInt16.toUInt32 = len := by
        apply UInt32.toNat_inj.mp
        rw [UInt16.toNat_toUInt32, UInt32.toNat_toUInt16]
        omega
      have hend : (off + len).toNat = off.toNat + len.toNat := by
        rw [UInt32.toNat_add]
        omega
      have hfits : ¬ off + len > bytes := by
        rw [gt_iff_lt, UInt32.lt_iff_toNat_lt, hend]
        omega
      have hsplit : acc ++ manifest.drop off.toNat =
          acc ++ (manifest.drop off.toNat).take len.toNat ++ manifest.drop (off + len).toNat := by
        rw [hend, List.append_assoc, ← List.drop_drop, List.take_append_drop]
      rw [List.map_cons, read_manifest, if_pos hlt]
      simp only [hdef, hword, hfits, if_false, List.take_take, Nat.min_self]
      rw [hsplit]
      by_cases hle : off + 200 ≤ bytes
      · obtain rfl : 200 = len := by rw [← hdef, if_pos hle]
        exact ih _ (by rwa [hnext]) hrest _
      · -- the last, shorter packet
        have hlast : ¬ off + len < bytes := by
          rw [UInt32.le_iff_toNat_le, hnext] at hle
          rw [UInt32.lt_iff_toNat_lt, hend]
          omega
        have hover : ¬ off + 200 < bytes := by
          intro hgt
          exact hle (UInt32.le_of_lt hgt)
        have hnil : rest = [] := Option.some.inj (hrest.symm.trans (chunk_loop_done 200 bytes hover n))
        rw [hnil, List.map_nil, read_manifest, if_neg hlast, hdone hlast, List.append_nil]
    · rw [chunk_loop, if_neg hlt] at hchunks
      cases hchunks
      rw [List.map_nil, read_manifest, if_neg hlt, hdone hlt, List.append_nil]

section Ctrl

variable {total block : UInt32}

theorem length_manifest (src : List UInt8) (total block : UInt32) :
    (ci_svu_manifest src total block).2.length = (ci_svu_nblocks total block).toNat * CI_SVU_HASH_LEN := by
  have hlen (b : Nat) : (hash_block src total block b).length = CI_SVU_HASH_LEN := by
    rw [hash_block_eq, Fips180.length_sha256]
  simp [ci_svu_manifest, List.length_flatMap, hlen]

/-- The client reads from the server's answer what the server knows of the file. -/
theorem ctrl_exchange_serve_ctrl (src : List UInt8) (req : SvuReq)
    (hun : Unwrapped 0 ((ci_svu_nblocks total block).toNat * CI_SVU_HASH_LEN) 200)
    (hfit : (ci_svu_nblocks total block).toNat * CI_SVU_HASH_LEN < 2 ^ 32) :
    ∃ packets, serve_ctrl src total block req = some packets ∧
      ctrl_exchange { connected := true, buffer := true, memory := true, reads := packets } =
        some {
          total
          block
          nblocks := ci_svu_nblocks total block
          manifest := (ci_svu_manifest src total block).2 } := by
  have hbytes : (ci_svu_nblocks total block * UInt32.ofNat CI_SVU_HASH_LEN).toNat =
      (ci_svu_nblocks total block).toNat * CI_SVU_HASH_LEN := by
    have hlen : (UInt32.ofNat CI_SVU_HASH_LEN).toNat = CI_SVU_HASH_LEN := rfl
    rw [UInt32.toNat_mul, hlen, Nat.mod_eq_of_lt hfit]
  rw [← hbytes] at hun
  obtain ⟨chunks, hchunks, -⟩ := chunk_loop_pieces 200
    (ci_svu_nblocks total block * UInt32.ofNat CI_SVU_HASH_LEN) (by decide) (2 ^ 32) 0 (Nat.zero_le _) hun
    (by rw [hbytes]; omega)
  have hread := read_manifest_chunks ((length_manifest src total block).trans hbytes.symm) 0 hun
    hchunks []
  rw [UInt32.toNat_zero, List.drop_zero, List.nil_append] at hread
  have hword {k : Nat} {w : UInt32} (hw : [SVU_MAGIC_RESP, req.session_id, total, block,
      ci_svu_nblocks total block][k]? = some w) :
      svu_get32 ([SVU_MAGIC_RESP, req.session_id, total, block, ci_svu_nblocks total block].flatMap svu_put32)
        (4 * k) = w := by
    have h := svu_get32_flatMap hw []
    rwa [List.append_nil] at h
  have h0 := hword (k := 0) rfl
  have h8 := hword (k := 2) rfl
  have h12 := hword (k := 3) rfl
  have h16 := hword (k := 4) rfl
  refine ⟨_, by rw [serve_ctrl, send_manifest, hchunks]; rfl, ?_⟩
  simp only [ctrl_exchange, h0, h8, h12, h16, hread]
  rfl

/-- What the network delivers for a request is what the serve loop sends for it. -/
theorem served_serve_loop_body {src : List UInt8} {request : List UInt8} {ctrl data : List CspPacket}
    (hserve : svu_serve_loop_body src total block request = some (ctrl, data)) (round attempt : Nat) :
    ((served src total block).ctrl round attempt request).reads = ctrl ∧
      (served src total block).data round request = data := by
  rw [svu_serve_loop_body] at hserve
  cases hreq : svu_req_decode request with
  | none =>
    simp only [hreq] at hserve
    cases hserve
    simp [served, hreq]
  | some req =>
    simp only [hreq] at hserve
    split at hserve
    · rename_i ctrl' data' hctrl hdata
      cases hserve
      simp [served, hreq, hctrl, hdata]
    · cases hserve

/-- The first attempt of each round gets that answer. -/
theorem ctrl_retry_served (src : List UInt8) {request : List UInt8} {req : SvuReq}
    (hroom : (ci_svu_nblocks total block).toNat * CI_SVU_HASH_LEN + 200 ≤ 2 ^ 32)
    (hreq : svu_req_decode request = some req) (round : Nat) :
    ctrl_retry (served src total block) round request =
      some {
        total
        block
        nblocks := ci_svu_nblocks total block
        manifest := (ci_svu_manifest src total block).2 } := by
  have hun : Unwrapped 0 _ 200 := unwrapped_of_room (by omega) (by omega) hroom
  obtain ⟨packets, hpackets, hreply⟩ := ctrl_exchange_serve_ctrl src req hun (by omega)
  have hlink : ctrl_exchange ((served src total block).ctrl round 0 request) =
      ctrl_exchange { connected := true, buffer := true, memory := true, reads := packets } := by
    simp only [served, hreq, Option.bind_some, hpackets, Option.getD_some]
  rw [ctrl_retry, List.range_succ_eq_map, List.findSome?_cons, hlink, hreply]

end Ctrl

end csp_intercept.svu_session
