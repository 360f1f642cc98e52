import CspIntercept.Hash.CiSha256
import Mathlib.Data.List.FinRange
import Mathlib.Data.List.GetD

open BlockHash

namespace csp_intercept.ci_sha256

/-- The source's table is the one the standard derives from the primes. -/
theorem K_eq : ∀ t < 64, K.getD t 0 = Fips180.K t := by
  decide +kernel

theorem init_state_eq (c : CiSha256) : (ci_sha256_init c).state = Fips180.H0 := by
  change _ = Fips180.H0
  have h : #v[0x6a09e667, 0xbb67ae85, 0x3c6ef372, 0xa54ff53a, 0x510e527f, 0x9b05688c, 0x1f83d9ab,
      0x5be0cd19] = Fips180.H0 := by decide +kernel
  exact h

section Transform

theorem block_word_eq (p : Vector UInt8 64) (i : Fin 16) :
    block_word p i = Fips180.W p.toList i := by
  have hget (j : ℕ) (hj : j < 64) : p.toList.getD j 0 = p[j] := by
    rw [List.getD_eq_getElem _ _ (by simpa using hj), Vector.getElem_toList]
  rw [Fips180.W, if_pos i.isLt, Fips180.wordAt, hget _ (by omega), hget _ (by omega), hget _ (by omega),
    hget _ (by omega)]
  rfl

/-- The expansion loop computes the message schedule. -/
theorem expand_words_eq (M : List UInt8) (n : ℕ) {i : ℕ} (hi : 16 ≤ i) :
    expand_words ((List.range i).map (Fips180.W M)) n = (List.range (i + n)).map (Fips180.W M) := by
  induction n generalizing i with
  | zero => rfl
  | succ n ih =>
    have hget (k : ℕ) (hk : k < i) : ((List.range i).map (Fips180.W M)).getD k 0 = Fips180.W M k := by
      rw [List.getD_eq_getElem _ _ (by simpa using hk)]
      simp
    have hnext : SIG1 (Fips180.W M (i - 2)) + Fips180.W M (i - 7) + SIG0 (Fips180.W M (i - 15)) +
        Fips180.W M (i - 16) = Fips180.W M i := by
      rw [Fips180.W.eq_def M i, if_neg (by omega)]
      rfl
    rw [expand_words]
    simp only [List.length_map, List.length_range]
    rw [hget _ (by omega), hget _ (by omega), hget _ (by omega), hget _ (by omega), hnext]
    have hgrow : (List.range i).map (Fips180.W M) ++ [Fips180.W M i] =
        (List.range (i + 1)).map (Fips180.W M) := by
      rw [List.range_succ, List.map_append]
      rfl
    rw [hgrow, ih (by omega), Nat.add_right_comm, Nat.add_assoc]

/-- The round variables of the code and of the standard. -/
private def SameRounds (v : Rounds) (w : Fips180.Working) : Prop :=
  v.a = w.a ∧ v.b = w.b ∧ v.cc = w.c ∧ v.d = w.d ∧ v.e = w.e ∧ v.f = w.f ∧ v.g = w.g ∧ v.h = w.h

private theorem sameRounds_fold {m : List UInt32} {M : List UInt8} (ts : List ℕ)
    (hts : ∀ t ∈ ts, t < 64 ∧ m.getD t 0 = Fips180.W M t) {v : Rounds} {w : Fips180.Working}
    (h : SameRounds v w) : SameRounds (ts.foldl (transform_round m) v)
      (ts.foldl (fun w t => Fips180.round w (Fips180.K t) (Fips180.W M t)) w) := by
  induction ts generalizing v w with
  | nil => exact h
  | cons t ts ih =>
    obtain ⟨ht, hm⟩ := hts t List.mem_cons_self
    refine ih (fun t' ht' => hts t' (List.mem_cons_of_mem t ht')) ?_
    obtain ⟨ha, hb, hc, hd, he, hf, hg, hh⟩ := h
    have ht1 : v.h + EP1 v.e + CH v.e v.f v.g + K.getD t 0 + m.getD t 0 =
        w.h + Fips180.bigSigma1 w.e + Fips180.Ch w.e w.f w.g + Fips180.K t + Fips180.W M t := by
      rw [hm, K_eq t ht, he, hf, hg, hh]
      rfl
    have ht2 : EP0 v.a + MAJ v.a v.b v.cc = Fips180.bigSigma0 w.a + Fips180.Maj w.a w.b w.c := by
      rw [ha, hb, hc]
      rfl
    refine ⟨?_, ha, hb, hc, ?_, he, hf, hg⟩
    · simp only [transform_round, Fips180.round, ht1, ht2]
    · simp only [transform_round, Fips180.round, ht1, hd]

/-- The round loops run in step. -/
private theorem transform_rounds_eq (state : Vector UInt32 8) (M : List UInt8) :
    SameRounds (transform_rounds state ((List.range 64).map (Fips180.W M))) (Fips180.rounds state M) := by
  refine sameRounds_fold (List.range 64) (fun t ht => ?_) ⟨rfl, rfl, rfl, rfl, rfl, rfl, rfl, rfl⟩
  have ht' : t < 64 := List.mem_range.mp ht
  refine ⟨ht', ?_⟩
  rw [List.getD_eq_getElem _ _ (by simpa using ht')]
  simp

private theorem add_rounds_eq (state : Vector UInt32 8) {v : Rounds} {w : Fips180.Working}
    (h : SameRounds v w) : add_rounds state v = Fips180.addWorking state w := by
  obtain ⟨ha, hb, hc, hd, he, hf, hg, hh⟩ := h
  rw [add_rounds, Fips180.addWorking, ha, hb, hc, hd, he, hf, hg, hh]
  rfl

/-- The transform is the compression function on the bytes of the buffer. -/
theorem ci_sha256_transform_eq (state : Vector UInt32 8) (p : Vector UInt8 64) :
    ci_sha256_transform state p = Fips180.compress state p.toList := by
  have hwords : (List.finRange 16).map (block_word p) = (List.range 16).map (Fips180.W p.toList) := by
    rw [← List.map_coe_finRange_eq_range, List.map_map]
    exact List.map_congr_left fun i _ => block_word_eq p i
  have hschedule : expand_words ((List.range 16).map (Fips180.W p.toList)) 48 =
      (List.range 64).map (Fips180.W p.toList) := expand_words_eq p.toList 48 (le_refl 16)
  rw [ci_sha256_transform, Fips180.compress, hwords, hschedule]
  exact add_rounds_eq state (transform_rounds_eq state p.toList)

end Transform

/-- Storing bytes overwrites that stretch of the buffer. -/
theorem toList_store_bytes (buf : Vector UInt8 64) (i : ℕ) (bs : List UInt8) (hfit : i + bs.length ≤ 64) :
    (store_bytes buf i bs).toList = buf.toList.take i ++ bs ++ buf.toList.drop (i + bs.length) := by
  induction bs generalizing buf i with
  | nil => simp [store_bytes]
  | cons b bs ih =>
    rw [List.length_cons] at hfit
    have hi : i < buf.toList.length := by
      rw [Vector.length_toList]
      omega
    have hset : (buf.setIfInBounds i b).toList = buf.toList.take i ++ b :: buf.toList.drop (i + 1) := by
      rw [Vector.toList_setIfInBounds, List.set_eq_take_append_cons_drop, if_pos hi]
    rw [store_bytes, ih _ _ (by omega), hset, List.length_cons]
    have hlen : (buf.toList.take i ++ [b]).length = i + 1 := by
      rw [List.length_append, List.length_take, List.length_singleton]
      omega
    have hsplit : buf.toList.take i ++ b :: buf.toList.drop (i + 1) =
        (buf.toList.take i ++ [b]) ++ buf.toList.drop (i + 1) := by
      rw [List.append_assoc, List.singleton_append]
    rw [hsplit, List.take_left' hlen, List.drop_append, hlen, List.drop_eq_nil_of_le (by omega)]
    simp only [List.append_assoc, List.nil_append, List.cons_append, List.drop_drop]
    congr 4
    omega

/-- The context has absorbed the message `m`. -/
structure Holds (m : List UInt8) (c : CiSha256) : Prop where
  absorbed : Absorbed 64 Fips180.compress Fips180.H0 m c.state (c.buf.toList.take c.buflen)
  bitlen : c.bitlen = UInt64.ofNat (512 * (m.length / 64))

theorem Holds.buflen {m : List UInt8} {c : CiSha256} (h : Holds m c) : c.buflen.val = m.length % 64 := by
  have hlen := congrArg List.length h.absorbed.buf
  rw [length_buffered, List.length_take, Vector.length_toList] at hlen
  have hlt := c.buflen.isLt
  omega

theorem holds_init (c : CiSha256) : Holds [] (ci_sha256_init c) := by
  have hbuf : (ci_sha256_init c).buf.toList.take (ci_sha256_init c).buflen = [] := rfl
  refine ⟨?_, rfl⟩
  rw [hbuf, init_state_eq]
  exact .nil

private theorem take_set_succ (buf : Vector UInt8 64) (i : Fin 64) (b : UInt8) :
    (buf.set i b).toList.take (i.val + 1) = buf.toList.take i ++ [b] := by
  have hi : i.val < buf.toList.length := by simp
  have hlen : (buf.toList.take i ++ [b]).length = i.val + 1 := by
    rw [List.length_append, List.length_take, List.length_singleton]
    omega
  rw [Vector.toList_set, List.set_eq_take_append_cons_drop, if_pos hi, ← List.singleton_append,
    ← List.append_assoc, List.take_left' hlen]

/-- One byte of an update. -/
theorem Holds.update_byte {m : List UInt8} {c : CiSha256} (h : Holds m c) (b : UInt8) :
    Holds (m ++ [b]) (update_byte c b) := by
  have hbuflen := h.buflen
  have hlt := c.buflen.isLt
  have htake : (c.buf.toList.take c.buflen).length = c.buflen := by
    rw [List.length_take, Vector.length_toList]
    omega
  have hset := take_set_succ c.buf c.buflen b
  by_cases hlast : c.buflen.val + 1 = 64
  · -- the byte fills the buffer: one block is compressed
    have hstep : ci_sha256.update_byte c b =
        { state := ci_sha256_transform c.state (c.buf.set c.buflen b), bitlen := c.bitlen + 512,
          buf := c.buf.set c.buflen b, buflen := 0 } := by
      rw [ci_sha256.update_byte]
      exact dif_pos hlast
    have hwhole : (c.buf.set c.buflen b).toList = c.buf.toList.take c.buflen ++ [b] := by
      rw [← hset, hlast, List.take_of_length_le (by simp)]
    have hpush := h.absorbed.push_full b (by omega)
    have hdiv : (m ++ [b]).length / 64 = m.length / 64 + 1 := by
      rw [List.length_append, List.length_singleton]
      omega
    rw [hstep]
    refine ⟨?_, ?_⟩
    · rw [ci_sha256_transform_eq, hwhole]
      exact hpush
    · rw [hdiv, h.bitlen, Nat.mul_add, UInt64.ofNat_add]
      rfl
  · have hstep : ci_sha256.update_byte c b =
        { c with buf := c.buf.set c.buflen b, buflen := ⟨c.buflen.val + 1, by omega⟩ } := by
      rw [ci_sha256.update_byte]
      exact dif_neg hlast
    have hdiv : (m ++ [b]).length / 64 = m.length / 64 := by
      rw [List.length_append, List.length_singleton]
      omega
    rw [hstep]
    refine ⟨?_, ?_⟩
    · change Absorbed 64 Fips180.compress Fips180.H0 (m ++ [b]) c.state
        ((c.buf.set c.buflen b).toList.take (c.buflen.val + 1))
      rw [hset]
      exact h.absorbed.push b (by omega)
    · rw [hdiv]
      exact h.bitlen

theorem Holds.update {m : List UInt8} {c : CiSha256} (h : Holds m c) (data : List UInt8) :
    Holds (m ++ data) (ci_sha256_update c data) := by
  induction data generalizing m c with
  | nil => simpa [ci_sha256_update] using h
  | cons b data ih =>
    have hrest := ih (h.update_byte b)
    rwa [List.append_assoc, List.singleton_append] at hrest

/-- The length bytes the code stores are the big-endian bit length. -/
private theorem length_bytes_eq (n : ℕ) : ((List.range 8).map fun j =>
    (UInt64.ofNat n >>> UInt64.ofNat ((7 - j) * 8)).toUInt8) = Fips180.be64 n := by
  refine List.map_congr_left fun j hj => ?_
  have hj8 : j < 8 := List.mem_range.mp hj
  have hshift : (UInt64.ofNat ((7 - j) * 8)).toNat % 64 = 8 * (7 - j) := by
    rw [UInt64.toNat_ofNat']
    omega
  apply UInt8.toNat_inj.mp
  rw [UInt64.toNat_toUInt8, UInt64.toNat_shiftRight, hshift, UInt64.toNat_ofNat', UInt8.toNat_ofNat',
    Nat.shiftRight_eq_div_pow, Nat.shiftRight_eq_div_pow]
  have hpow : 2 ^ 64 = 2 ^ (8 * (7 - j)) * 2 ^ (64 - 8 * (7 - j)) := by
    rw [← Nat.pow_add]
    congr 1
    omega
  rw [hpow, Nat.mod_mul_right_div_self]
  exact Nat.mod_mod_of_dvd _ (Nat.pow_dvd_pow 2 (by omega))

/-- The last block the code builds: what is in the buffer up to `i`, zeros, the length. -/
private theorem last_block_eq (x : Vector UInt8 64) {i : ℕ} (hi : i ≤ 56) {bs : List UInt8}
    (hbs : bs.length = 8) :
    (store_bytes (store_bytes x i (List.replicate (56 - i) 0)) 56 bs).toList =
      x.toList.take i ++ List.replicate (56 - i) 0 ++ bs := by
  have hx : (x.toList.take i).length = i := by
    rw [List.length_take, Vector.length_toList]
    omega
  have hzeros := toList_store_bytes x i (List.replicate (56 - i) 0) (by rw [List.length_replicate]; omega)
  have hpre : (x.toList.take i ++ List.replicate (56 - i) (0 : UInt8)).length = 56 := by
    rw [List.length_append, hx, List.length_replicate]
    omega
  rw [toList_store_bytes _ _ _ (by omega), hzeros, hbs, List.take_left' hpre,
    List.drop_eq_nil_of_le (by simp; omega), List.append_nil]

/-- Finishing a context that holds `m` gives the digest of `m`. -/
theorem Holds.final {m : List UInt8} {c : CiSha256} (h : Holds m c) :
    ci_sha256_final c = Fips180.sha256 m := by
  have hbuflen := h.buflen
  have hlt := c.buflen.isLt
  have hbits : c.bitlen + UInt64.ofNat c.buflen * 8 = UInt64.ofNat (8 * m.length) := by
    have hlen : 8 * m.length = 512 * (m.length / 64) + c.buflen.val * 8 := by omega
    rw [hlen, UInt64.ofNat_add, UInt64.ofNat_mul c.buflen.val 8, h.bitlen]
    rfl
  have hbe : (Fips180.be64 (8 * m.length)).length = 8 := by simp [Fips180.be64]
  have hset := take_set_succ c.buf c.buflen 0x80
  have hbuf : (c.buf.toList.take c.buflen).length = c.buflen := by
    rw [List.length_take, Vector.length_toList]
    omega
  have hblocks := Fips180.length_padded m
  simp only [ci_sha256_final, hbits, length_bytes_eq, ci_sha256_transform_eq, Fips180.sha256, hblocks]
  by_cases hi : c.buflen.val + 1 > 56
  · -- the length does not fit behind the one bit: a block of zeros in between
    have hpad : Fips180.padding m.length = (0x80 :: List.replicate (64 - (c.buflen.val + 1)) 0) ++
        (List.replicate 56 0 ++ Fips180.be64 (8 * m.length)) := by
      have hsplit : (119 - m.length % 64) % 64 = (64 - (c.buflen.val + 1)) + 56 := by omega
      rw [Fips180.padding, hsplit, List.replicate_add]
      simp
    have hfirst : (store_bytes (c.buf.set c.buflen 0x80) (c.buflen.val + 1)
        (List.replicate (64 - (c.buflen.val + 1)) 0)).toList =
        c.buf.toList.take c.buflen ++ (0x80 :: List.replicate (64 - (c.buflen.val + 1)) 0) := by
      rw [toList_store_bytes _ _ _ (by rw [List.length_replicate]; omega), hset,
        List.drop_eq_nil_of_le (by simp; omega), List.append_nil, List.append_assoc, List.singleton_append]
    have hlast := last_block_eq (store_bytes (c.buf.set c.buflen 0x80) (c.buflen.val + 1)
      (List.replicate (64 - (c.buflen.val + 1)) 0)) (Nat.zero_le 56) hbe
    rw [if_pos hi, if_neg (by omega), hpad, h.absorbed.close_two]
    · simp only [hfirst, hlast, List.take_zero, List.nil_append]
      rfl
    · rw [List.length_append, hbuf, List.length_cons, List.length_replicate]
      omega
    · rw [List.length_append, List.length_replicate, hbe]
  · have hpad : Fips180.padding m.length =
        0x80 :: (List.replicate (56 - (c.buflen.val + 1)) 0 ++ Fips180.be64 (8 * m.length)) := by
      have hzeros : (119 - m.length % 64) % 64 = 56 - (c.buflen.val + 1) := by omega
      rw [Fips180.padding, hzeros]
    have hlast := last_block_eq (c.buf.set c.buflen 0x80) (i := c.buflen.val + 1) (by omega) hbe
    rw [if_neg hi, if_pos (by omega), hpad, h.absorbed.close_one]
    · simp only [hlast, hset, List.append_assoc, List.singleton_append]
      rfl
    · rw [List.length_append, hbuf, List.length_cons, List.length_append, List.length_replicate, hbe]
      omega

/-- Hashing in one update call. -/
theorem ci_sha256_digest (c : CiSha256) (m : List UInt8) :
    ci_sha256_final (ci_sha256_update (ci_sha256_init c) m) = Fips180.sha256 m :=
  ((holds_init c).update m).final

/-- One update call for each chunk. -/
theorem Holds.update_chunks {m : List UInt8} {c : CiSha256} (h : Holds m c) (chunks : List (List UInt8)) :
    Holds (m ++ chunks.flatten) (chunks.foldl ci_sha256_update c) := by
  induction chunks generalizing m c with
  | nil => simpa using h
  | cons data chunks ih =>
    have hrest := ih (h.update data)
    rwa [List.append_assoc, ← List.flatten_cons] at hrest

/-- Streaming a message in any chunks gives its standard digest, whatever the context held
    before; so two streams of the same bytes agree. -/
theorem ci_sha256_streaming (c : CiSha256) (chunks : List (List UInt8)) :
    ci_sha256_final (chunks.foldl ci_sha256_update (ci_sha256_init c)) = Fips180.sha256 chunks.flatten ∧
      ∀ (c' : CiSha256) (chunks' : List (List UInt8)), chunks'.flatten = chunks.flatten →
        ci_sha256_final (chunks'.foldl ci_sha256_update (ci_sha256_init c')) =
          ci_sha256_final (chunks.foldl ci_sha256_update (ci_sha256_init c)) := by
  have hdigest (c : CiSha256) (chunks : List (List UInt8)) :
      ci_sha256_final (chunks.foldl ci_sha256_update (ci_sha256_init c)) =
        Fips180.sha256 chunks.flatten := by
    have hholds := (holds_init c).update_chunks chunks
    exact hholds.final
  refine ⟨hdigest c chunks, fun c' chunks' hbytes => ?_⟩
  rw [hdigest, hdigest, hbytes]

end csp_intercept.ci_sha256
