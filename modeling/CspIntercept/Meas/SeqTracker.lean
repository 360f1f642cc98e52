import CspIntercept.Lib.CircularWindow
import Mathlib.Tactic.NormNum

namespace csp_intercept.ci_meas

abbrev CI_SEQ_WIN : ℕ := 2048

/-- The sequence tracker: counters over the unwrapped sequence space and a circular
    bitmap of the `CI_SEQ_WIN` positions up to `max`. -/
structure CiSeqTracker where
  have_ : Bool
  first : Nat
  max : Nat
  n_seen : Nat
  n_distinct : Nat
  n_dup : Nat
  n_reorder : Nat
  n_gap : Nat
  epoch : UInt32
  seen : Vector UInt8 (CI_SEQ_WIN / 8)

/-- `pos % CI_SEQ_WIN`; the window divides `2^64`, so a position below zero has the
    slot of its two's complement word. -/
def seq_slot (pos : ℤ) : Fin CI_SEQ_WIN :=
  ⟨(pos % CI_SEQ_WIN).toNat, by simp only [CI_SEQ_WIN]; omega⟩

/-- `i >> 3`, the byte that holds flag `i`. -/
def seq_byte (i : Fin CI_SEQ_WIN) : Fin (CI_SEQ_WIN / 8) :=
  ⟨i.val >>> 3, by simp only [CI_SEQ_WIN, Nat.shiftRight_eq_div_pow]; omega⟩

def seq_bit_get (seen : Vector UInt8 (CI_SEQ_WIN / 8)) (pos : ℤ) : Bool :=
  let i := seq_slot pos
  (seen[seq_byte i] >>> UInt8.ofNat (i.val &&& 7)) &&& 1 != 0

def seq_bit_set (seen : Vector UInt8 (CI_SEQ_WIN / 8)) (pos : ℤ) (v : Bool) :
    Vector UInt8 (CI_SEQ_WIN / 8) :=
  let i := seq_slot pos
  if v then
    seen.set (seq_byte i) (seen[seq_byte i] ||| (1 <<< UInt8.ofNat (i.val &&& 7)))
  else
    seen.set (seq_byte i) (seen[seq_byte i] &&& ~~~(1 <<< UInt8.ofNat (i.val &&& 7)))

/-- `for (p = clear_from; p < unwrapped; p++) seq_bit_set(t, p, 0)`, counted down. -/
def seq_bits_clear (seen : Vector UInt8 (CI_SEQ_WIN / 8)) (p : ℤ) :
    Nat → Vector UInt8 (CI_SEQ_WIN / 8)
  | 0 => seen
  | n + 1 => seq_bits_clear (seq_bit_set seen p false) (p + 1) n

def ci_seq_tracker_init : CiSeqTracker where
  have_ := false
  first := 0
  max := 0
  n_seen := 0
  n_distinct := 0
  n_dup := 0
  n_reorder := 0
  n_gap := 0
  epoch := 0
  seen := Vector.replicate (CI_SEQ_WIN / 8) 0

/-- Feed one observed number. The answer is 0 in order, 1 forward gap, 2 duplicate,
    3 reorder. -/
def ci_seq_tracker_feed (t : CiSeqTracker) (seq : UInt16) : CiSeqTracker × Nat :=
  let n_seen := t.n_seen + 1
  if t.have_ = false then
    ({ t with
        n_seen
        have_ := true
        first := seq.toNat
        max := seq.toNat
        n_distinct := 1
        seen := seq_bit_set t.seen seq.toNat true
        epoch := UInt32.ofNat (seq.toNat >>> 16) }, 0)
  else
    -- signed 16-bit distance from the current head
    let diff : ℤ := (seq - UInt16.ofNat (t.max &&& 0xFFFF)).toInt16.toInt
    let unwrapped : ℤ := t.max + diff
    if diff > 0 then
      let clear_from : ℤ :=
        if unwrapped - t.max > CI_SEQ_WIN then unwrapped - CI_SEQ_WIN else t.max + 1
      let seen := seq_bits_clear t.seen clear_from (unwrapped - clear_from).toNat
      let t' := { t with
        n_seen
        seen := seq_bit_set seen unwrapped true
        max := unwrapped.toNat
        n_distinct := t.n_distinct + 1
        epoch := UInt32.ofNat (unwrapped.toNat >>> 16) }
      if diff > 1 then
        ({ t' with n_gap := t.n_gap + (diff - 1).toNat }, 1)
      else
        (t', 0)
    else if seq_bit_get t.seen unwrapped then
      ({ t with n_seen, n_dup := t.n_dup + 1 }, 2)
    else
      ({ t with
          n_seen
          seen := seq_bit_set t.seen unwrapped true
          n_distinct := t.n_distinct + 1
          n_reorder := t.n_reorder + 1 }, 3)

/-- Inferred loss so far: expected span minus distinct numbers seen. -/
def ci_seq_tracker_loss (t : CiSeqTracker) : Nat :=
  if t.have_ = false then 0
  else
    let span := t.max - t.first + 1
    if span > t.n_distinct then span - t.n_distinct else 0

/-- The signed distance of a number from the head. -/
def ahead (t : CiSeqTracker) (seq : UInt16) : ℤ :=
  (seq - UInt16.ofNat (t.max &&& 0xFFFF)).toInt16.toInt

/-- Where the clearing loop of a forward feed from `top` to `p` starts. -/
def clear_start (top p : ℤ) : ℤ :=
  if p - top > CI_SEQ_WIN then p - CI_SEQ_WIN else top + 1

section Feed

variable {t : CiSeqTracker} {seq : UInt16}

/-- A number ahead of the head moves it, forgets the flags of the positions passed, and
    counts the positions jumped over as a gap. -/
theorem feed_ahead {d : ℕ} (hhave : t.have_ = true) (hd : ahead t seq = d) (hpos : 0 < d) :
    ci_seq_tracker_feed t seq =
      ({ t with
          n_seen := t.n_seen + 1
          seen := seq_bit_set (seq_bits_clear t.seen (clear_start t.max (t.max + d))
            (t.max + d - clear_start t.max (t.max + d)).toNat) (t.max + d) true
          max := t.max + d
          n_distinct := t.n_distinct + 1
          n_gap := t.n_gap + (d - 1)
          epoch := UInt32.ofNat ((t.max + d) >>> 16) }, if d = 1 then 0 else 1) := by
  unfold ahead at hd
  have hmax : ((t.max : ℤ) + d).toNat = t.max + d := by omega
  have hgap : ((d : ℤ) - 1).toNat = d - 1 := by omega
  have hfwd : (d : ℤ) > 0 := by omega
  simp only [ci_seq_tracker_feed, hhave, hd, hfwd, hmax, hgap, Bool.true_eq_false, if_false, if_true]
  by_cases hone : d = 1
  · subst hone
    rfl
  · have hmore : (d : ℤ) > 1 := by omega
    rw [if_pos hmore, if_neg hone]
    rfl

/-- A number at or behind the head is a duplicate or fills a hole, by its flag. -/
theorem feed_behind (hhave : t.have_ = true) (hd : ¬ 0 < ahead t seq) :
    ci_seq_tracker_feed t seq =
      if seq_bit_get t.seen (t.max + ahead t seq) then
        ({ t with n_seen := t.n_seen + 1, n_dup := t.n_dup + 1 }, 2)
      else
        ({ t with
            n_seen := t.n_seen + 1
            seen := seq_bit_set t.seen (t.max + ahead t seq) true
            n_distinct := t.n_distinct + 1
            n_reorder := t.n_reorder + 1 }, 3) := by
  unfold ahead at hd ⊢
  simp only [ci_seq_tracker_feed, hhave, gt_iff_lt, hd, Bool.true_eq_false, if_false]

end Feed

section Bitmap

variable {seen : Vector UInt8 (CI_SEQ_WIN / 8)} {p q : ℤ}

theorem seq_slot_eq_iff : seq_slot p = seq_slot q ↔ p ≡ q [ZMOD CI_SEQ_WIN] := by
  simp only [seq_slot, Fin.mk.injEq, Int.ModEq, CI_SEQ_WIN]
  omega

/-- The getter's shift and mask extract bit `k`. -/
private theorem byte_bit (b : UInt8) {k : Nat} (hk : k < 8) :
    ((b >>> UInt8.ofNat k) &&& 1 != 0) = b.toNat.testBit k := by
  have hmod : UInt8.toNat (UInt8.ofNat k) % 8 = k := by
    rw [UInt8.toNat_ofNat']
    omega
  have hbit : ((b >>> UInt8.ofNat k) &&& 1).toNat = b.toNat >>> k &&& 1 := by
    rw [UInt8.toNat_and, UInt8.toNat_shiftRight, hmod]
    rfl
  rw [Nat.testBit, Nat.and_comm, ← hbit, Bool.eq_iff_iff, bne_iff_ne, bne_iff_ne, ne_eq, ne_eq,
    ← UInt8.toNat_inj]
  rfl

private theorem one_shiftLeft_toNat {k : Nat} (hk : k < 8) :
    ((1 : UInt8) <<< UInt8.ofNat k).toNat = 2 ^ k := by
  have hmod : UInt8.toNat (UInt8.ofNat k) % 8 = k := by
    rw [UInt8.toNat_ofNat']
    omega
  have hlt : 2 ^ k < 2 ^ 8 := Nat.pow_lt_pow_right (by omega) hk
  rw [UInt8.toNat_shiftLeft, hmod, UInt8.toNat_one, Nat.shiftLeft_eq, Nat.one_mul,
    Nat.mod_eq_of_lt hlt]

/-- Setting bit `j` of a byte, the way the setter does. -/
private theorem byte_bit_set (b : UInt8) {j : Nat} (hj : j < 8) (k : Nat) :
    (b ||| (1 <<< UInt8.ofNat j)).toNat.testBit k = if j = k then true else b.toNat.testBit k := by
  rw [UInt8.toNat_or, one_shiftLeft_toNat hj, Nat.testBit_or, Nat.testBit_two_pow]
  by_cases hjk : j = k <;> simp [hjk]

private theorem byte_bit_clear (b : UInt8) {j k : Nat} (hj : j < 8) (hk : k < 8) :
    (b &&& ~~~(1 <<< UInt8.ofNat j)).toNat.testBit k = if j = k then false else b.toNat.testBit k := by
  have hlt : 2 ^ j < 2 ^ 8 := Nat.pow_lt_pow_right (by omega) hj
  rw [UInt8.toNat_and, UInt8.toNat_not, one_shiftLeft_toNat hj, Nat.testBit_and]
  have hnot : (UInt8.size - 1 - 2 ^ j).testBit k = !decide (j = k) := by
    have h := Nat.testBit_two_pow_sub_succ hlt k
    rw [show UInt8.size - 1 - 2 ^ j = 2 ^ 8 - (2 ^ j + 1) by simp only [UInt8.size]; omega, h,
      Nat.testBit_two_pow]
    simp [hk]
  rw [hnot]
  by_cases hjk : j = k <;> simp [hjk]

theorem seq_bit_get_congr (hslot : p ≡ q [ZMOD CI_SEQ_WIN]) :
    seq_bit_get seen p = seq_bit_get seen q := by
  simp only [seq_bit_get, seq_slot_eq_iff.mpr hslot]

/-- A flag is found by its byte and its bit. -/
private theorem slot_eq_iff (i j : Fin CI_SEQ_WIN) :
    i = j ↔ seq_byte i = seq_byte j ∧ i.val &&& 7 = j.val &&& 7 := by
  have hlow (n : Nat) : n &&& 7 = n % 8 := Nat.and_two_pow_sub_one_eq_mod n 3
  rw [Fin.ext_iff, Fin.ext_iff, hlow, hlow]
  simp only [seq_byte, Nat.shiftRight_eq_div_pow]
  omega

/-- The setter on byte `x` and bit `j`, read back at byte `y` and bit `k`. -/
private theorem flag_get_set (x y : Fin (CI_SEQ_WIN / 8)) {j k : Nat} (hj : j < 8) (hk : k < 8)
    (v : Bool) :
    (if v then seen.set x (seen[x] ||| (1 <<< UInt8.ofNat j))
      else seen.set x (seen[x] &&& ~~~(1 <<< UInt8.ofNat j)))[y].toNat.testBit k =
    if x = y ∧ j = k then v else seen[y].toNat.testBit k := by
  by_cases hxy : x = y
  · subst hxy
    cases v with
    | true =>
      simp only [if_true, Fin.getElem_fin, Vector.getElem_set_self, true_and]
      exact byte_bit_set _ hj k
    | false =>
      simp only [Bool.false_eq_true, if_false, Fin.getElem_fin, Vector.getElem_set_self, true_and]
      exact byte_bit_clear _ hj hk
  · have hne : x.val ≠ y.val := fun h => hxy (Fin.ext h)
    cases v <;> simp [hxy, hne]

/-- Setting one position changes the flag of its slot and of no other. -/
theorem seq_bit_get_set (v : Bool) : seq_bit_get (seq_bit_set seen p v) q =
    if p ≡ q [ZMOD CI_SEQ_WIN] then v else seq_bit_get seen q := by
  have hp : (seq_slot p).val &&& 7 < 8 := Nat.and_lt_two_pow _ (n := 3) (by norm_num)
  have hq : (seq_slot q).val &&& 7 < 8 := Nat.and_lt_two_pow _ (n := 3) (by norm_num)
  simp only [← seq_slot_eq_iff, slot_eq_iff, seq_bit_get, seq_bit_set, byte_bit _ hq]
  exact flag_get_set _ _ hp hq v

end Bitmap

/-- The byte bitmap is a circular array of `CI_SEQ_WIN` flags. -/
def seen_flags : CircularWindow.Flags (Vector UInt8 (CI_SEQ_WIN / 8)) CI_SEQ_WIN where
  get := seq_bit_get
  set := seq_bit_set
  get_congr := seq_bit_get_congr
  get_set _ _ v _ := seq_bit_get_set v

theorem cleared_seq_bits_clear (seen : Vector UInt8 (CI_SEQ_WIN / 8)) (p : ℤ) (n : Nat) :
    CircularWindow.Cleared seen_flags seen (seq_bits_clear seen p n) p (p + n) := by
  induction n generalizing seen p with
  | zero => exact .nil (by simp)
  | succ n ih =>
    refine .cons (by omega) ?_
    have hend : p + (n + 1 : ℕ) = p + 1 + n := by omega
    rw [hend]
    exact ih (seq_bit_set seen p false) (p + 1)

theorem seq_bit_get_init (p : ℤ) : seq_bit_get ci_seq_tracker_init.seen p = false := by
  have hk : (seq_slot p).val &&& 7 < 8 := Nat.and_lt_two_pow _ (n := 3) (by norm_num)
  simp only [seq_bit_get, byte_bit _ hk]
  simp [ci_seq_tracker_init]

end csp_intercept.ci_meas
