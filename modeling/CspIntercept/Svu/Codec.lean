import CspIntercept.Svu.Proto
import Mathlib.Data.List.Range

open csp_intercept.ci_svu

namespace csp_intercept.svu_proto

section Checked

/-- `svu_get32(buf + i)`; none is a read beyond the buffer. -/
def svu_get32_checked (buf : List UInt8) (i : Nat) : Option UInt32 :=
  if i + 4 ≤ buf.length then some (svu_get32 buf i) else none

/-- The interval loop of the parser, on the zeroed slots of `memset`. -/
def read_intervals_checked (buf : List UInt8) (n : Nat) : Option (Vector CiSvuInterval SVU_MAX_INTERVALS) :=
  (List.range n).foldlM (fun intervals i => do
    let start ← svu_get32_checked buf (SVU_REQ_HDR + i * 8)
    let end_ ← svu_get32_checked buf (SVU_REQ_HDR + i * 8 + 4)
    pure (intervals.setIfInBounds i ⟨start, end_⟩)) (Vector.replicate SVU_MAX_INTERVALS ⟨0, 0⟩)

/-- `svu_req_decode` with each of its reads checked against the length it is given. -/
def svu_req_decode_checked (buf : List UInt8) : Option (Option SvuReq) :=
  if buf.length < SVU_REQ_HDR then some none
  else do
    let magic ← svu_get32_checked buf 0
    let session_id ← svu_get32_checked buf 4
    let mtu ← svu_get32_checked buf 8
    let block_size ← svu_get32_checked buf 12
    let nof_intervals ← svu_get32_checked buf 16
    let client_addr ← svu_get32_checked buf 20
    if magic ≠ SVU_MAGIC_REQ ∨ nof_intervals > 32 then some none
    else if buf.length < SVU_REQ_HDR + nof_intervals.toNat * 8 then some none
    else do
      let intervals ← read_intervals_checked buf nof_intervals.toNat
      pure (some { magic, session_id, mtu, block_size, nof_intervals, client_addr, intervals })

variable {buf : List UInt8}

theorem svu_get32_checked_eq (buf : List UInt8) (i : Nat) (hi : i + 4 ≤ buf.length) :
    svu_get32_checked buf i = some (svu_get32 buf i) := if_pos hi

theorem read_intervals_checked_eq {n : Nat} (hn : n ≤ 32) (hlen : SVU_REQ_HDR + n * 8 ≤ buf.length) :
    read_intervals_checked buf n = some (Vector.ofFn fun i => if i.val < n then
      ⟨svu_get32 buf (SVU_REQ_HDR + i.val * 8), svu_get32 buf (SVU_REQ_HDR + i.val * 8 + 4)⟩ else ⟨0, 0⟩) := by
  unfold read_intervals_checked
  induction n with
  | zero =>
    simp only [List.range_zero, List.foldlM_nil, Nat.not_lt_zero, if_false]
    rfl
  | succ n ih =>
    simp only [SVU_REQ_HDR] at hlen ih ⊢
    rw [List.range_succ, List.foldlM_append, ih (by omega) (by omega)]
    have hstart := svu_get32_checked_eq buf (24 + n * 8) (by omega)
    have hend := svu_get32_checked_eq buf (24 + n * 8 + 4) (by omega)
    simp only [List.foldlM_cons, List.foldlM_nil, hstart, hend, Option.bind_eq_bind, Option.bind_some,
      Option.pure_def]
    refine congrArg some (Vector.ext fun i hi => ?_)
    rw [Vector.getElem_setIfInBounds, Vector.getElem_ofFn, Vector.getElem_ofFn]
    dsimp only
    by_cases hlast : n = i
    · subst hlast
      rw [if_pos rfl, if_pos (Nat.lt_succ_self n)]
    · rw [if_neg hlast]
      split_ifs <;> first | rfl | omega

/-- The parser never reads beyond the length it is given. -/
theorem svu_req_decode_checked_eq (buf : List UInt8) :
    svu_req_decode_checked buf = some (svu_req_decode buf) := by
  unfold svu_req_decode_checked svu_req_decode
  by_cases hlen : buf.length < SVU_REQ_HDR
  · rw [if_pos hlen, if_pos hlen]
  rw [if_neg hlen, if_neg hlen]
  simp only [SVU_REQ_HDR] at hlen
  simp only [svu_get32_checked_eq buf 0 (by omega), svu_get32_checked_eq buf 4 (by omega),
    svu_get32_checked_eq buf 8 (by omega), svu_get32_checked_eq buf 12 (by omega),
    svu_get32_checked_eq buf 16 (by omega), svu_get32_checked_eq buf 20 (by omega),
    Option.bind_eq_bind, Option.bind_some]
  split_ifs with hbad hshort
  · rfl
  · rfl
  · obtain ⟨-, hcount⟩ := not_or.mp hbad
    have hle := UInt32.le_iff_toNat_le.mp (UInt32.not_lt.mp hcount)
    rw [read_intervals_checked_eq hle (Nat.not_lt.mp hshort)]
    rfl

end Checked

section Words

variable {buf : List UInt8}

/-- The first `k` words of a buffer. -/
def buffer_words (buf : List UInt8) (k : Nat) : List UInt32 :=
  (List.range k).map fun j => svu_get32 buf (4 * j)

/-- Encoding the words of a buffer gives its bytes back. -/
theorem flatMap_buffer_words {k : Nat} (hk : 4 * k ≤ buf.length) :
    (buffer_words buf k).flatMap svu_put32 = buf.take (4 * k) := by
  induction k with
  | zero => rfl
  | succ k ih =>
    have hword := svu_put32_get32 (p := buf) (i := 4 * k) (by omega)
    rw [buffer_words, List.range_succ, List.map_append, List.flatMap_append, ← buffer_words, ih (by omega),
      List.map_singleton, List.flatMap_singleton, hword, Nat.mul_succ, List.take_add]

theorem interval_words_range {f : Nat → CiSvuInterval} {g : Nat → UInt32}
    (hfg : ∀ i, (f i).start = g (2 * i) ∧ (f i).end_ = g (2 * i + 1)) (n : Nat) :
    interval_words ((List.range n).map f) = (List.range (2 * n)).map g := by
  induction n with
  | zero => rfl
  | succ n ih =>
    have hstep : interval_words ((List.range (n + 1)).map f) =
        interval_words ((List.range n).map f) ++ [(f n).start, (f n).end_] := by
      rw [List.range_succ, List.map_append, interval_words, interval_words, List.flatMap_append]
      rfl
    have htwo : 2 * (n + 1) = 2 * n + 1 + 1 := by omega
    rw [hstep, ih, (hfg n).1, (hfg n).2, htwo, List.range_succ, List.range_succ, List.map_append,
      List.map_append, List.append_assoc]
    rfl

theorem take_ofFn {α : Type} (f : Nat → α) {m n : Nat} (hn : n ≤ m) :
    (Vector.ofFn fun i : Fin m => f i.val).toList.take n = (List.range n).map f := by
  apply List.ext_getElem?
  intro i
  rw [List.getElem?_take]
  split_ifs with hi
  · rw [List.getElem?_eq_getElem (by rw [Vector.length_toList]; omega), Vector.getElem_toList,
      Vector.getElem_ofFn, List.getElem?_map, List.getElem?_range hi]
    rfl
  · rw [List.getElem?_eq_none (by simpa using hi)]

/-- A parsed request has the words of its buffer. -/
theorem request_words_decode {r : SvuReq} (h : svu_req_decode buf = some r) :
    SVU_REQ_HDR + r.nof_intervals.toNat * 8 ≤ buf.length ∧
      request_words r = buffer_words buf (6 + 2 * r.nof_intervals.toNat) := by
  simp only [svu_req_decode] at h
  split_ifs at h with hhdr hbad hshort
  obtain ⟨-, hcount⟩ := not_or.mp hbad
  have hle : (svu_get32 buf 16).toNat ≤ 32 := UInt32.le_iff_toNat_le.mp (UInt32.not_lt.mp hcount)
  cases h
  refine ⟨Nat.not_lt.mp hshort, ?_⟩
  generalize hn : (svu_get32 buf 16).toNat = n at hle
  have hslots : interval_words ((Vector.ofFn fun i : Fin SVU_MAX_INTERVALS => if i.val < n then
      (⟨svu_get32 buf (SVU_REQ_HDR + i.val * 8), svu_get32 buf (SVU_REQ_HDR + i.val * 8 + 4)⟩ : CiSvuInterval)
      else ⟨0, 0⟩).toList.take n) = (List.range (2 * n)).map fun j => svu_get32 buf (4 * (6 + j)) := by
    rw [take_ofFn (fun i => if i < n then
      (⟨svu_get32 buf (SVU_REQ_HDR + i * 8), svu_get32 buf (SVU_REQ_HDR + i * 8 + 4)⟩ : CiSvuInterval)
      else ⟨0, 0⟩) hle, ← interval_words_range (f := fun i =>
        ⟨svu_get32 buf (SVU_REQ_HDR + i * 8), svu_get32 buf (SVU_REQ_HDR + i * 8 + 4)⟩)]
    · congr 1
      apply List.map_congr_left
      intro i hi
      rw [if_pos (List.mem_range.mp hi)]
    · intro i
      have hstart : SVU_REQ_HDR + i * 8 = 4 * (6 + 2 * i) := by simp only [SVU_REQ_HDR]; omega
      have hend : SVU_REQ_HDR + i * 8 + 4 = 4 * (6 + (2 * i + 1)) := by simp only [SVU_REQ_HDR]; omega
      exact ⟨congrArg (svu_get32 buf) hstart, congrArg (svu_get32 buf) hend⟩
  simp only [request_words, hcount, if_false, hn, hslots]
  rw [buffer_words, List.range_add, List.map_append, List.map_map]
  rfl

end Words

/-- Re-encoding an accepted buffer reproduces its front. -/
theorem svu_req_encode_decode {buf : List UInt8} {r : SvuReq} (h : svu_req_decode buf = some r) :
    svu_req_encode r = buf.take (24 + 8 * r.nof_intervals.toNat) := by
  obtain ⟨hlen, hwords⟩ := request_words_decode h
  simp only [SVU_REQ_HDR] at hlen
  have hbytes : 4 * (6 + 2 * r.nof_intervals.toNat) = 24 + 8 * r.nof_intervals.toNat := by omega
  rw [svu_req_encode_eq, hwords, flatMap_buffer_words (by omega), hbytes]

theorem svu_req_decode_isSome_iff (buf : List UInt8) : (svu_req_decode buf).isSome ↔
    24 ≤ buf.length ∧ svu_get32 buf 0 = SVU_MAGIC_REQ ∧ svu_get32 buf 16 ≤ 32 ∧
      24 + 8 * (svu_get32 buf 16).toNat ≤ buf.length := by
  simp only [svu_req_decode, SVU_REQ_HDR]
  split_ifs with hhdr hbad hshort
  · simp only [Option.isSome_none, Bool.false_eq_true, false_iff]
    omega
  · refine iff_of_false (by simp) ?_
    rintro ⟨-, hmagic, hcount, -⟩
    rcases hbad with hne | hgt
    · exact hne hmagic
    · exact UInt32.not_lt.mpr hcount hgt
  · simp only [Option.isSome_none, Bool.false_eq_true, false_iff]
    omega
  · obtain ⟨hmagic, hcount⟩ := not_or.mp hbad
    refine iff_of_true rfl ⟨by omega, not_not.mp hmagic, UInt32.not_lt.mp hcount, by omega⟩

/-- With at most 32 intervals the request arrives as it is, except that unused slots are zero. -/
theorem received_of_le {r : SvuReq} (h : r.nof_intervals ≤ 32) : received r =
    { r with intervals := Vector.ofFn fun i =>
        if i.val < r.nof_intervals.toNat then r.intervals.get i else ⟨0, 0⟩ } := by
  have hle : ¬ r.nof_intervals > 32 := UInt32.not_lt.mpr h
  simp only [received, hle, if_false]
  rfl

/-- With more it is cut to the first 32. -/
theorem received_of_gt {r : SvuReq} (h : 32 < r.nof_intervals) :
    received r = { r with nof_intervals := 32 } := by
  have hall : (Vector.ofFn fun i : Fin SVU_MAX_INTERVALS => if i.val < UInt32.toNat 32 then r.intervals[i]
      else ⟨0, 0⟩) = r.intervals := by
    apply Vector.ext
    intro i hi
    rw [Vector.getElem_ofFn, if_pos (by exact hi)]
    rfl
  have hgt : r.nof_intervals > 32 := h
  simp only [received, hgt, if_true, hall]

/-- The request codec is a two-sided inverse, accepts exactly the well-formed buffers, and
    never reads beyond them. -/
theorem svu_req_codec :
    (∀ (r : SvuReq) (rest : List UInt8), r.magic = SVU_MAGIC_REQ → r.nof_intervals ≤ 32 →
      svu_req_decode (svu_req_encode r ++ rest) = some
        { r with intervals := Vector.ofFn fun i =>
            if i.val < r.nof_intervals.toNat then r.intervals.get i else ⟨0, 0⟩ }) ∧
    (∀ (r : SvuReq) (rest : List UInt8), r.magic = SVU_MAGIC_REQ → 32 < r.nof_intervals →
      svu_req_decode (svu_req_encode r ++ rest) = some { r with nof_intervals := 32 }) ∧
    (∀ (buf : List UInt8) (r : SvuReq), svu_req_decode buf = some r →
      svu_req_encode r = buf.take (24 + 8 * r.nof_intervals.toNat)) ∧
    (∀ buf : List UInt8, (svu_req_decode buf).isSome ↔
      24 ≤ buf.length ∧ svu_get32 buf 0 = SVU_MAGIC_REQ ∧ svu_get32 buf 16 ≤ 32 ∧
        24 + 8 * (svu_get32 buf 16).toNat ≤ buf.length) ∧
    ∀ buf : List UInt8, svu_req_decode_checked buf = some (svu_req_decode buf) := by
  refine ⟨fun r rest hmagic hle => ?_, fun r rest hmagic hgt => ?_, fun buf r h => svu_req_encode_decode h,
    svu_req_decode_isSome_iff, svu_req_decode_checked_eq⟩
  · rw [svu_req_decode_encode r hmagic rest, received_of_le hle]
  · rw [svu_req_decode_encode r hmagic rest, received_of_gt hgt]

end csp_intercept.svu_proto
