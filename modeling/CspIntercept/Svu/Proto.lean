import CspIntercept.Svu.Core
import Mathlib.Data.List.GetD

open csp_intercept.ci_svu

namespace csp_intercept.svu_proto

def SVU_DATA_HDR : UInt32 := 8
def SVU_MAGIC_REQ : UInt32 := 0x51555653
def SVU_MAGIC_RESP : UInt32 := 0x52555653
abbrev SVU_MAX_INTERVALS : ℕ := 32
abbrev SVU_REQ_HDR : ℕ := 24
abbrev SVU_RESP_HDR : ℕ := 20

def svu_put32 (v : UInt32) : List UInt8 :=
  [(v &&& 0xFF).toUInt8, ((v >>> 8) &&& 0xFF).toUInt8, ((v >>> 16) &&& 0xFF).toUInt8,
    ((v >>> 24) &&& 0xFF).toUInt8]

/-- `svu_get32(p + i)`. -/
def svu_get32 (p : List UInt8) (i : Nat) : UInt32 :=
  (p.getD i 0).toUInt32 ||| ((p.getD (i + 1) 0).toUInt32 <<< 8) |||
    ((p.getD (i + 2) 0).toUInt32 <<< 16) ||| ((p.getD (i + 3) 0).toUInt32 <<< 24)

/-- A parsed meta request. -/
structure SvuReq where
  magic : UInt32
  session_id : UInt32
  mtu : UInt32
  block_size : UInt32
  nof_intervals : UInt32
  client_addr : UInt32
  intervals : Vector CiSvuInterval SVU_MAX_INTERVALS

def svu_req_encode (r : SvuReq) : List UInt8 :=
  let n := if r.nof_intervals > 32 then 32 else r.nof_intervals
  let header := [r.magic, r.session_id, r.mtu, r.block_size, n, r.client_addr].flatMap svu_put32
  header ++ (r.intervals.toList.take n.toNat).flatMap fun iv => svu_put32 iv.start ++ svu_put32 iv.end_

/-- Parse a meta request; none is the return value -1. -/
def svu_req_decode (buf : List UInt8) : Option SvuReq :=
  if buf.length < SVU_REQ_HDR then none
  else
    let magic := svu_get32 buf 0
    let nof_intervals := svu_get32 buf 16
    if magic ≠ SVU_MAGIC_REQ ∨ nof_intervals > 32 then none
    else if buf.length < SVU_REQ_HDR + nof_intervals.toNat * 8 then none
    else some {
      magic
      session_id := svu_get32 buf 4
      mtu := svu_get32 buf 8
      block_size := svu_get32 buf 12
      nof_intervals
      client_addr := svu_get32 buf 20
      intervals := Vector.ofFn fun i =>
        if i.val < nof_intervals.toNat then
          ⟨svu_get32 buf (SVU_REQ_HDR + i.val * 8), svu_get32 buf (SVU_REQ_HDR + i.val * 8 + 4)⟩
        else ⟨0, 0⟩ }

@[simp] theorem length_svu_put32 (v : UInt32) : (svu_put32 v).length = 4 := rfl

/-- The bytes of a word. -/
theorem svu_put32_eq (v : UInt32) : svu_put32 v = [UInt8.ofNat v.toNat, UInt8.ofNat (v.toNat / 2 ^ 8),
    UInt8.ofNat (v.toNat / 2 ^ 16), UInt8.ofNat (v.toNat / 2 ^ 24)] := by
  have hbyte (w : UInt32) : (w &&& 0xFF).toUInt8 = UInt8.ofNat w.toNat := by
    apply UInt8.toNat_inj.mp
    have hmask : w.toNat &&& 255 = w.toNat % 256 := Nat.and_two_pow_sub_one_eq_mod _ 8
    rw [UInt32.toNat_toUInt8, UInt32.toNat_and, UInt8.toNat_ofNat']
    simp only [UInt32.reduceToNat, hmask]
    omega
  rw [svu_put32, hbyte, hbyte, hbyte, hbyte]
  simp only [UInt32.toNat_shiftRight, UInt32.reduceToNat, Nat.reduceMod, Nat.shiftRight_eq_div_pow]

/-- The word of four bytes. -/
theorem toNat_svu_get32 (p : List UInt8) (i : Nat) : (svu_get32 p i).toNat =
    (p.getD i 0).toNat + (p.getD (i + 1) 0).toNat * 2 ^ 8 + (p.getD (i + 2) 0).toNat * 2 ^ 16 +
      (p.getD (i + 3) 0).toNat * 2 ^ 24 := by
  have hor (a b k : ℕ) (hb : b < 2 ^ k) : b ||| a <<< k = b + a * 2 ^ k := by
    rw [Nat.or_comm, ← Nat.shiftLeft_add_eq_or_of_lt hb, Nat.shiftLeft_eq, Nat.add_comm]
  have hfit (a k : ℕ) (ha : a < 256) (hk : k ≤ 24) : a <<< k % 2 ^ 32 = a <<< k := by
    rw [Nat.shiftLeft_eq]
    refine Nat.mod_eq_of_lt ?_
    calc a * 2 ^ k < 256 * 2 ^ k := Nat.mul_lt_mul_of_pos_right ha (Nat.two_pow_pos k)
      _ ≤ 256 * 2 ^ 24 := Nat.mul_le_mul_left _ (Nat.pow_le_pow_right (by omega) hk)
      _ = 2 ^ 32 := rfl
  have h0 := (p.getD i 0).toNat_lt
  have h1 := (p.getD (i + 1) 0).toNat_lt
  have h2 := (p.getD (i + 2) 0).toNat_lt
  have h3 := (p.getD (i + 3) 0).toNat_lt
  simp only [svu_get32, UInt32.toNat_or, UInt32.toNat_shiftLeft, UInt8.toNat_toUInt32, UInt32.reduceToNat,
    Nat.reduceMod]
  rw [hfit _ 8 h1 (by omega), hfit _ 16 h2 (by omega), hfit _ 24 h3 (by omega), hor _ _ 8 (by omega),
    hor _ _ 16 (by omega), hor _ _ 24 (by omega)]

/-- Splitting a word into four bytes and reading them back returns it. -/
theorem svu_get32_put32 (v : UInt32) (rest : List UInt8) : svu_get32 (svu_put32 v ++ rest) 0 = v := by
  have hv := v.toNat_lt
  apply UInt32.toNat_inj.mp
  rw [toNat_svu_get32, svu_put32_eq]
  simp only [List.cons_append, List.getD_cons_zero, List.getD_cons_succ, Nat.zero_add, UInt8.toNat_ofNat']
  omega

/-- The other way round: a word that was read is split into the bytes it was read from. -/
theorem svu_put32_get32 {p : List UInt8} {i : Nat} (hroom : i + 4 ≤ p.length) :
    svu_put32 (svu_get32 p i) = (p.drop i).take 4 := by
  have hbytes : (p.drop i).take 4 = [p.getD i 0, p.getD (i + 1) 0, p.getD (i + 2) 0, p.getD (i + 3) 0] := by
    have hget (j : Nat) (hj : j < 4) : ((p.drop i).take 4)[j]? = some (p.getD (i + j) 0) := by
      rw [List.getElem?_take, if_pos hj, List.getElem?_drop, List.getD_eq_getElem _ _ (by omega),
        List.getElem?_eq_getElem]
    apply List.ext_getElem?
    intro j
    rcases Nat.lt_or_ge j 4 with hj | hj
    · rw [hget j hj]
      match j with
      | 0 | 1 | 2 | 3 => rfl
    · rw [List.getElem?_eq_none (by rw [List.length_take]; omega), List.getElem?_eq_none (by exact hj)]
  have h0 := (p.getD i 0).toNat_lt
  have h1 := (p.getD (i + 1) 0).toNat_lt
  have h2 := (p.getD (i + 2) 0).toNat_lt
  have h3 := (p.getD (i + 3) 0).toNat_lt
  have hbyte {n : Nat} {b : UInt8} (h : n % 256 = b.toNat) : UInt8.ofNat n = b := by
    apply UInt8.toNat_inj.mp
    rw [UInt8.toNat_ofNat']
    exact h
  rw [svu_put32_eq, toNat_svu_get32, hbytes, List.cons.injEq, List.cons.injEq, List.cons.injEq,
    List.cons.injEq]
  exact ⟨hbyte (by omega), hbyte (by omega), hbyte (by omega), hbyte (by omega), rfl⟩

/-- Reading a word behind a front part skips that part. -/
theorem svu_get32_append (front rest : List UInt8) (i : Nat) :
    svu_get32 (front ++ rest) (front.length + i) = svu_get32 rest i := by
  have hget (j : Nat) : (front ++ rest).getD (front.length + j) 0 = rest.getD j 0 := by
    rw [List.getD_append_right _ _ _ _ (by omega), Nat.add_sub_cancel_left]
  simp only [svu_get32, Nat.add_assoc, hget]

section Words

private theorem length_flatMap_put32 (ws : List UInt32) : (ws.flatMap svu_put32).length = 4 * ws.length := by
  induction ws with
  | nil => rfl
  | cons w ws ih =>
    rw [List.flatMap_cons, List.length_append, ih, length_svu_put32, List.length_cons]
    omega

/-- Word `k` of a list of encoded words. -/
theorem svu_get32_flatMap {ws : List UInt32} {k : Nat} {w : UInt32} (hw : ws[k]? = some w)
    (rest : List UInt8) : svu_get32 (ws.flatMap svu_put32 ++ rest) (4 * k) = w := by
  induction ws generalizing k with
  | nil => cases hw
  | cons v ws ih =>
    rw [List.flatMap_cons, List.append_assoc]
    cases k with
    | zero =>
      obtain rfl : v = w := by simpa using hw
      exact svu_get32_put32 v _
    | succ k =>
      have hoff : 4 * (k + 1) = (svu_put32 v).length + 4 * k := by
        rw [length_svu_put32]
        omega
      rw [hoff, svu_get32_append]
      exact ih hw

/-- The words of a list of intervals. -/
def interval_words (ivs : List CiSvuInterval) : List UInt32 :=
  ivs.flatMap fun iv => [iv.start, iv.end_]

theorem length_interval_words (ivs : List CiSvuInterval) : (interval_words ivs).length = 2 * ivs.length := by
  induction ivs with
  | nil => rfl
  | cons iv ivs ih =>
    rw [interval_words, List.flatMap_cons, List.length_append, List.length_cons]
    rw [interval_words] at ih
    rw [ih]
    simp only [List.length_cons, List.length_nil]
    omega

theorem getElem?_interval_words {ivs : List CiSvuInterval} {i : Nat} {iv : CiSvuInterval}
    (hi : ivs[i]? = some iv) :
    (interval_words ivs)[2 * i]? = some iv.start ∧ (interval_words ivs)[2 * i + 1]? = some iv.end_ := by
  induction ivs generalizing i with
  | nil => cases hi
  | cons jv ivs ih =>
    cases i with
    | zero =>
      cases hi
      exact ⟨rfl, rfl⟩
    | succ i => exact ih hi

/-- The words a request is encoded as. -/
def request_words (r : SvuReq) : List UInt32 :=
  let n := if r.nof_intervals > 32 then 32 else r.nof_intervals
  [r.magic, r.session_id, r.mtu, r.block_size, n, r.client_addr] ++
    interval_words (r.intervals.toList.take n.toNat)

theorem svu_req_encode_eq (r : SvuReq) : svu_req_encode r = (request_words r).flatMap svu_put32 := by
  simp only [svu_req_encode, request_words, interval_words, List.flatMap_append, List.flatMap_assoc]
  congr 2

end Words

/-- The request the server reads: the client's first intervals, at most 32 of them,
    and zeros in the other slots. -/
def received (r : SvuReq) : SvuReq :=
  let n := if r.nof_intervals > 32 then 32 else r.nof_intervals
  { r with
    nof_intervals := n
    intervals := Vector.ofFn fun i => if i.val < n.toNat then r.intervals[i] else ⟨0, 0⟩ }

section Request

variable {r : SvuReq} {n : UInt32} (hn : (if r.nof_intervals > 32 then 32 else r.nof_intervals) = n)
include hn

theorem nof_intervals_le : n.toNat ≤ 32 := by
  rw [← hn]
  split_ifs with hgt
  · rfl
  · exact UInt32.le_iff_toNat_le.mp (UInt32.not_lt.mp hgt)

theorem request_words_eq : request_words r = [r.magic, r.session_id, r.mtu, r.block_size, n, r.client_addr] ++
    interval_words (r.intervals.toList.take n.toNat) := by
  rw [request_words, hn]

theorem length_svu_req_encode : (svu_req_encode r).length = SVU_REQ_HDR + n.toNat * 8 := by
  have htake : (r.intervals.toList.take n.toNat).length = n.toNat := by
    rw [List.length_take, Vector.length_toList]
    exact Nat.min_eq_left (nof_intervals_le hn)
  rw [svu_req_encode_eq, length_flatMap_put32, request_words_eq hn, List.length_append, length_interval_words, htake]
  simp only [List.length_cons, List.length_nil, SVU_REQ_HDR]
  omega

omit hn in
/-- A word of a request, read in front of other bytes. -/
theorem svu_get32_request {k : Nat} {w : UInt32} (hw : (request_words r)[k]? = some w) (rest : List UInt8) :
    svu_get32 (svu_req_encode r ++ rest) (4 * k) = w := by
  rw [svu_req_encode_eq]
  exact svu_get32_flatMap hw rest

/-- An interval of a request, read in front of other bytes. -/
theorem svu_get32_interval (i : Fin 32) (hi : i.val < n.toNat) (rest : List UInt8) :
    svu_get32 (svu_req_encode r ++ rest) (SVU_REQ_HDR + i.val * 8) = r.intervals[i].start ∧
      svu_get32 (svu_req_encode r ++ rest) (SVU_REQ_HDR + i.val * 8 + 4) = r.intervals[i].end_ := by
  have hslot : (r.intervals.toList.take n.toNat)[i.val]? = some r.intervals[i] := by
    rw [List.getElem?_take, if_pos hi, List.getElem?_eq_getElem (by simp)]
    simp
  obtain ⟨hstart, hend⟩ := getElem?_interval_words hslot
  have hbehind (j : Nat) : (request_words r)[6 + j]? =
      (interval_words (r.intervals.toList.take n.toNat))[j]? := by
    rw [request_words_eq hn, List.getElem?_append_right (by simp), List.length_cons]
    congr 1
    simp only [List.length_cons, List.length_nil]
    omega
  have hs := svu_get32_request ((hbehind _).trans hstart) rest
  have he := svu_get32_request ((hbehind _).trans hend) rest
  have hoff : 4 * (6 + 2 * i.val) = SVU_REQ_HDR + i.val * 8 := by simp only [SVU_REQ_HDR]; omega
  have hoff' : 4 * (6 + (2 * i.val + 1)) = SVU_REQ_HDR + i.val * 8 + 4 := by simp only [SVU_REQ_HDR]; omega
  rw [hoff] at hs
  rw [hoff'] at he
  exact ⟨hs, he⟩

end Request

/-- Decoding an encoded request, also in front of other bytes. -/
theorem svu_req_decode_encode (r : SvuReq) (hmagic : r.magic = SVU_MAGIC_REQ) (rest : List UInt8) :
    svu_req_decode (svu_req_encode r ++ rest) = some (received r) := by
  obtain ⟨n, hn⟩ : ∃ n, (if r.nof_intervals > 32 then 32 else r.nof_intervals) = n := ⟨_, rfl⟩
  have hhead (k : Nat) (hk : k < 6) : (request_words r)[k]? =
      [r.magic, r.session_id, r.mtu, r.block_size, n, r.client_addr][k]? := by
    rw [request_words_eq hn, List.getElem?_append_left (by simpa using hk)]
  have h0 := svu_get32_request (hhead 0 (by omega)) rest
  have h4 := svu_get32_request (hhead 1 (by omega)) rest
  have h8 := svu_get32_request (hhead 2 (by omega)) rest
  have h12 := svu_get32_request (hhead 3 (by omega)) rest
  have h16 := svu_get32_request (hhead 4 (by omega)) rest
  have h20 := svu_get32_request (hhead 5 (by omega)) rest
  simp only [Nat.reduceMul] at h0 h4 h8 h12 h16 h20
  have hgt : ¬ n > 32 := UInt32.not_lt.mpr (UInt32.le_iff_toNat_le.mpr (nof_intervals_le hn))
  have hivs : (Vector.ofFn fun i : Fin 32 => if i.val < n.toNat then
      (⟨svu_get32 (svu_req_encode r ++ rest) (SVU_REQ_HDR + i.val * 8),
        svu_get32 (svu_req_encode r ++ rest) (SVU_REQ_HDR + i.val * 8 + 4)⟩ : CiSvuInterval) else ⟨0, 0⟩) =
      Vector.ofFn fun i : Fin 32 => if i.val < n.toNat then r.intervals[i] else ⟨0, 0⟩ := by
    congr 1
    funext i
    by_cases hi : i.val < n.toNat
    · obtain ⟨hstart, hend⟩ := svu_get32_interval hn i hi rest
      rw [if_pos hi, if_pos hi, hstart, hend]
    · rw [if_neg hi, if_neg hi]
  have hlen := length_svu_req_encode hn
  rw [svu_req_decode, if_neg (by rw [List.length_append, hlen]; omega)]
  simp only [h0, h4, h8, h12, h16, h20, hgt, hmagic, ne_eq, not_true_eq_false, or_self, if_false]
  rw [if_neg (by rw [List.length_append, hlen]; omega), received, hn, hivs, hmagic]

end csp_intercept.svu_proto
