import CspIntercept.Lib.Serial
import CspIntercept.Lib.Transducer
import CspIntercept.Meas.SeqTracker
import Mathlib.Data.Finset.Card

open CircularWindow

namespace csp_intercept.ci_meas

/-- The 16-bit number a packet at true position `p` carries. -/
def wire (p : ℤ) : UInt16 := UInt16.ofInt p

/-- The highest position among `p₀` and the positions fed after it. -/
abbrev highest (p₀ : ℤ) (ps : List ℤ) : ℤ := ps.foldl max p₀

/-- How an ideal tracker that remembers every position classifies the next one. -/
def ideal_class (p₀ : ℤ) (ps : List ℤ) (p : ℤ) : Nat :=
  if p ∈ p₀ :: ps then 2
  else if p < highest p₀ ps then 3
  else if p = highest p₀ ps + 1 then 0
  else 1

/-- The tracker agrees with the ideal one after it was fed `p₀` and then `ps`. -/
structure Tracks (p₀ : ℤ) (ps : List ℤ) (t : CiSeqTracker) : Prop where
  have_ : t.have_ = true
  first : (t.first : ℤ) = p₀ % 65536
  max : (t.max : ℤ) - t.first = highest p₀ ps - p₀
  n_seen : t.n_seen = (p₀ :: ps).length
  n_distinct : t.n_distinct = (p₀ :: ps).toFinset.card
  n_dup : t.n_dup = t.n_seen - t.n_distinct
  seen : Represents seen_flags t.seen {p | p ∈ p₀ :: ps} (highest p₀ ps)

/-- The signed 16-bit distance is the balanced residue of the distance. -/
theorem ahead_wire (t : CiSeqTracker) (p : ℤ) : ahead t (wire p) = Int.bmod (p - t.max) 65536 := by
  have hlow : t.max &&& 0xFFFF = t.max % 65536 := Nat.and_two_pow_sub_one_eq_mod t.max 16
  have hnat : (wire p - UInt16.ofNat (t.max % 65536)).toNat = ((p - t.max) % 65536).toNat := by
    simp only [wire, UInt16.toNat_sub, UInt16.ofInt, UInt16.toNat_ofNat']
    omega
  have hint : (wire p - UInt16.ofNat (t.max % 65536)).toInt16.toInt =
      Int.bmod (wire p - UInt16.ofNat (t.max % 65536)).toNat 65536 :=
    BitVec.toInt_eq_toNat_bmod _
  have hpos : 0 ≤ (p - t.max) % 65536 := Int.emod_nonneg _ (by decide)
  rw [ahead, hlow, hint, hnat, Int.toNat_of_nonneg hpos]
  exact Int.emod_bmod ..

/-- Within half the number space the code's distance from the head is the true one. -/
theorem Tracks.ahead {p₀ p : ℤ} {ps : List ℤ} {t : CiSeqTracker} (h : Tracks p₀ ps t)
    (hback : highest p₀ ps < p + 2048) (hahead : p < highest p₀ ps + 32768) :
    ahead t (wire p) = p - highest p₀ ps := by
  have hmax := h.max
  have hfirst := h.first
  have hres : (t.max : ℤ) % 65536 = highest p₀ ps % 65536 := by omega
  rw [ahead_wire]
  exact Serial.bmod_sub_of_emod_eq (by exact_mod_cast hres) (by omega) (by omega)

/-- The unwrapped position of the code has the slot of the true one. -/
theorem Tracks.slot {p₀ : ℤ} {ps : List ℤ} {t : CiSeqTracker} (h : Tracks p₀ ps t) (p : ℤ) :
    (t.max : ℤ) + (p - highest p₀ ps) ≡ p [ZMOD CI_SEQ_WIN] := by
  have hmax := h.max
  have hfirst := h.first
  simp only [Int.ModEq, CI_SEQ_WIN]
  omega

theorem seq_bit_set_congr {seen : Vector UInt8 (CI_SEQ_WIN / 8)} {p q : ℤ} {v : Bool}
    (hslot : p ≡ q [ZMOD CI_SEQ_WIN]) : seq_bit_set seen p v = seq_bit_set seen q v := by
  simp only [seq_bit_set, seq_slot_eq_iff.mpr hslot]

theorem seq_bits_clear_congr {seen : Vector UInt8 (CI_SEQ_WIN / 8)} {p q : ℤ}
    (hslot : p ≡ q [ZMOD CI_SEQ_WIN]) (n : Nat) :
    seq_bits_clear seen p n = seq_bits_clear seen q n := by
  induction n generalizing seen p q with
  | zero => rfl
  | succ n ih =>
    rw [seq_bits_clear, seq_bits_clear, seq_bit_set_congr hslot]
    exact ih (hslot.add_right 1)

/-- A forward feed, in true positions. -/
theorem Tracks.feed_ahead_eq {p₀ p : ℤ} {ps : List ℤ} {t : CiSeqTracker} (h : Tracks p₀ ps t)
    (hahead : p < highest p₀ ps + 32768) (hnew : highest p₀ ps < p) :
    ∃ n_gap epoch, ci_seq_tracker_feed t (wire p) =
      ({ t with
          n_seen := t.n_seen + 1
          seen := seq_bit_set (seq_bits_clear t.seen (clear_start (highest p₀ ps) p)
            (p - clear_start (highest p₀ ps) p).toNat) p true
          max := t.max + (p - highest p₀ ps).toNat
          n_distinct := t.n_distinct + 1
          n_gap := n_gap
          epoch := epoch }, if p = highest p₀ ps + 1 then 0 else 1) := by
  have hdist : ((p - highest p₀ ps).toNat : ℤ) = p - highest p₀ ps := by omega
  have hfeed := feed_ahead h.have_ ((h.ahead (by omega) hahead).trans hdist.symm) (by omega)
  have hstart : clear_start t.max (t.max + (p - highest p₀ ps)) =
      t.max + (clear_start (highest p₀ ps) p - highest p₀ ps) := by
    simp only [clear_start]
    split_ifs <;> omega
  have hcount : (t.max : ℤ) + (p - highest p₀ ps) -
      (t.max + (clear_start (highest p₀ ps) p - highest p₀ ps)) = p - clear_start (highest p₀ ps) p := by
    omega
  have hone : (p - highest p₀ ps).toNat = 1 ↔ p = highest p₀ ps + 1 := by omega
  simp only [hdist, hstart, hcount, hone, seq_bit_set_congr (h.slot p), seq_bits_clear_congr (h.slot _)] at hfeed
  exact ⟨_, _, hfeed⟩

/-- A feed at or behind the head, in true positions. -/
theorem Tracks.feed_behind_eq {p₀ p : ℤ} {ps : List ℤ} {t : CiSeqTracker} (h : Tracks p₀ ps t)
    (hback : highest p₀ ps < p + 2048) (hold : p ≤ highest p₀ ps) :
    ci_seq_tracker_feed t (wire p) =
      if p ∈ p₀ :: ps then ({ t with n_seen := t.n_seen + 1, n_dup := t.n_dup + 1 }, 2)
      else ({ t with
        n_seen := t.n_seen + 1
        seen := seq_bit_set t.seen p true
        n_distinct := t.n_distinct + 1
        n_reorder := t.n_reorder + 1 }, 3) := by
  have hdist := h.ahead hback (by omega)
  have hbit : seq_bit_get t.seen p = true ↔ p ∈ p₀ :: ps :=
    h.seen p (by simp only [CI_SEQ_WIN]; omega) hold
  rw [feed_behind h.have_ (by rw [hdist]; omega), hdist, seq_bit_set_congr (h.slot p),
    seq_bit_get_congr (h.slot p)]
  simp only [hbit]

private theorem highest_concat (p₀ : ℤ) (ps : List ℤ) (p : ℤ) :
    highest p₀ (ps ++ [p]) = Max.max (highest p₀ ps) p := by
  simp [highest, List.foldl_append]

theorem fed_le_highest {p₀ q : ℤ} {ps : List ℤ} (hq : q ∈ p₀ :: ps) : q ≤ highest p₀ ps := by
  cases hq with
  | head => exact Serial.le_foldl_max p₀ ps
  | tail _ hq => exact Serial.mem_le_foldl_max p₀ hq

/-- Appending one position inserts it into the fed set. -/
private theorem fed_concat (p₀ p : ℤ) (ps : List ℤ) :
    (p₀ :: (ps ++ [p])).toFinset = insert p (p₀ :: ps).toFinset := by
  ext q
  simp
  tauto

private theorem card_fed_concat {p₀ p : ℤ} {ps : List ℤ} (hnot : p ∉ p₀ :: ps) :
    (p₀ :: (ps ++ [p])).toFinset.card = (p₀ :: ps).toFinset.card + 1 := by
  rw [fed_concat, Finset.card_insert_of_notMem (by simpa only [List.mem_toFinset] using hnot)]

private theorem length_fed_concat (p₀ p : ℤ) (ps : List ℤ) :
    (p₀ :: (ps ++ [p])).length = (p₀ :: ps).length + 1 := by
  simp

private theorem set_fed_concat (p₀ p : ℤ) (ps : List ℤ) :
    {q | q ∈ p₀ :: (ps ++ [p])} = insert p {q | q ∈ p₀ :: ps} := by
  ext q
  simp
  tauto

theorem Tracks.n_distinct_le {p₀ : ℤ} {ps : List ℤ} {t : CiSeqTracker} (h : Tracks p₀ ps t) :
    t.n_distinct ≤ t.n_seen := by
  rw [h.n_distinct, h.n_seen]
  exact List.toFinset_card_le _

/-- A position ahead of the head, which no feed has had before. -/
theorem Tracks.feed_new {p₀ p : ℤ} {ps : List ℤ} {t : CiSeqTracker} (h : Tracks p₀ ps t)
    (hahead : p < highest p₀ ps + 32768) (hnew : highest p₀ ps < p) :
    Tracks p₀ (ps ++ [p]) (ci_seq_tracker_feed t (wire p)).1 ∧
      (ci_seq_tracker_feed t (wire p)).2 = ideal_class p₀ ps p := by
  obtain ⟨n_gap, epoch, hfeed⟩ := h.feed_ahead_eq hahead hnew
  have hmax := h.max
  have hseen := h.n_seen
  have hdup := h.n_dup
  have hle := h.n_distinct_le
  have hnot : p ∉ p₀ :: ps := fun hmem => absurd (fed_le_highest hmem) (by omega)
  have htop : highest p₀ (ps ++ [p]) = p := by
    rw [highest_concat, max_eq_right (by omega)]
  rw [hfeed]
  refine ⟨⟨h.have_, h.first, ?_, by rw [length_fed_concat, ← hseen],
    by rw [card_fed_concat hnot, ← h.n_distinct], ?_, ?_⟩, ?_⟩
  · rw [htop]
    change ((t.max + (p - highest p₀ ps).toNat : ℕ) : ℤ) - t.first = p - p₀
    omega
  · change t.n_dup = t.n_seen + 1 - (t.n_distinct + 1)
    omega
  · rw [set_fed_concat, htop]
    have hclear := cleared_seq_bits_clear t.seen (clear_start (highest p₀ ps) p)
      (p - clear_start (highest p₀ ps) p).toNat
    have hstart : highest p₀ ps < clear_start (highest p₀ ps) p ∧ clear_start (highest p₀ ps) p ≤ p ∧
        (clear_start (highest p₀ ps) p = highest p₀ ps + 1 ∨
          clear_start (highest p₀ ps) p ≤ p - CI_SEQ_WIN + 1) := by
      simp only [clear_start, CI_SEQ_WIN]
      split_ifs <;> omega
    obtain ⟨hlo, hle', hreach⟩ := hstart
    rw [Int.toNat_of_nonneg (by omega), add_sub_cancel] at hclear
    exact h.seen.advance (fun q hq => fed_le_highest hq) hnew hlo hreach hclear
  · have hfar : ¬ p < highest p₀ ps := by omega
    simp only [ideal_class, hnot, hfar, if_false]

/-- A position that was fed before. -/
theorem Tracks.feed_dup {p₀ p : ℤ} {ps : List ℤ} {t : CiSeqTracker} (h : Tracks p₀ ps t)
    (hback : highest p₀ ps < p + 2048) (hmem : p ∈ p₀ :: ps) :
    Tracks p₀ (ps ++ [p]) (ci_seq_tracker_feed t (wire p)).1 ∧
      (ci_seq_tracker_feed t (wire p)).2 = ideal_class p₀ ps p := by
  have hold := fed_le_highest hmem
  have hfeed := h.feed_behind_eq hback hold
  have hseen := h.n_seen
  have hdup := h.n_dup
  have hle := h.n_distinct_le
  have htop : highest p₀ (ps ++ [p]) = highest p₀ ps := by
    rw [highest_concat, max_eq_left hold]
  have hcard : (p₀ :: (ps ++ [p])).toFinset = (p₀ :: ps).toFinset := by
    rw [fed_concat, Finset.insert_eq_of_mem (by simpa only [List.mem_toFinset] using hmem)]
  have hsame : insert p {q | q ∈ p₀ :: ps} = {q | q ∈ p₀ :: ps} := Set.insert_eq_of_mem hmem
  rw [if_pos hmem] at hfeed
  rw [hfeed]
  refine ⟨⟨h.have_, h.first, by rw [htop]; exact h.max, by rw [length_fed_concat, ← hseen],
    by rw [hcard]; exact h.n_distinct, ?_, ?_⟩, ?_⟩
  · change t.n_dup + 1 = t.n_seen + 1 - t.n_distinct
    omega
  · rw [set_fed_concat, hsame, htop]
    exact h.seen
  · simp only [ideal_class, hmem, if_true]

/-- A position behind the head whose turn was skipped. -/
theorem Tracks.feed_late {p₀ p : ℤ} {ps : List ℤ} {t : CiSeqTracker} (h : Tracks p₀ ps t)
    (hback : highest p₀ ps < p + 2048) (hold : p ≤ highest p₀ ps) (hnot : p ∉ p₀ :: ps) :
    Tracks p₀ (ps ++ [p]) (ci_seq_tracker_feed t (wire p)).1 ∧
      (ci_seq_tracker_feed t (wire p)).2 = ideal_class p₀ ps p := by
  have hfeed := h.feed_behind_eq hback hold
  have hseen := h.n_seen
  have hdup := h.n_dup
  have hle := h.n_distinct_le
  have htop : highest p₀ (ps ++ [p]) = highest p₀ ps := by
    rw [highest_concat, max_eq_left hold]
  have hlt : p < highest p₀ ps := by
    refine lt_of_le_of_ne hold ?_
    rintro rfl
    exact hnot (Serial.foldl_max_mem p₀ ps)
  rw [if_neg hnot] at hfeed
  rw [hfeed]
  refine ⟨⟨h.have_, h.first, by rw [htop]; exact h.max, by rw [length_fed_concat, ← hseen],
    by rw [card_fed_concat hnot, ← h.n_distinct], ?_, ?_⟩, ?_⟩
  · change t.n_dup = t.n_seen + 1 - (t.n_distinct + 1)
    omega
  · rw [set_fed_concat, htop]
    exact h.seen.mark (by simp only [CI_SEQ_WIN]; omega) hold
  · simp only [ideal_class, hnot, hlt, if_false, if_true]

/-- One feed keeps the tracker in step with the ideal one. -/
theorem Tracks.feed {p₀ p : ℤ} {ps : List ℤ} {t : CiSeqTracker} (h : Tracks p₀ ps t)
    (hback : highest p₀ ps < p + 2048) (hahead : p < highest p₀ ps + 32768) :
    Tracks p₀ (ps ++ [p]) (ci_seq_tracker_feed t (wire p)).1 ∧
      (ci_seq_tracker_feed t (wire p)).2 = ideal_class p₀ ps p := by
  by_cases hnew : highest p₀ ps < p
  · exact h.feed_new hahead hnew
  · -- at or behind the head: the bitmap tells a duplicate from a backfill
    by_cases hmem : p ∈ p₀ :: ps
    · exact h.feed_dup hback hmem
    · exact h.feed_late hback (by omega) hmem

/-- The first feed sets the baseline. -/
theorem tracks_first (p₀ : ℤ) : Tracks p₀ [] (ci_seq_tracker_feed ci_seq_tracker_init (wire p₀)).1 := by
  have hwire : ((wire p₀).toNat : ℤ) = p₀ % 65536 := by
    simp only [wire, UInt16.ofInt, UInt16.toNat_ofNat']
    omega
  refine ⟨rfl, hwire, ?_, rfl, by simp [ci_seq_tracker_feed, ci_seq_tracker_init], rfl, ?_⟩
  · simp [ci_seq_tracker_feed, ci_seq_tracker_init]
  · intro p hlo hhi
    have hslot : ((wire p₀).toNat : ℤ) ≡ p₀ [ZMOD CI_SEQ_WIN] := by
      simp only [hwire, Int.ModEq, CI_SEQ_WIN]
      omega
    have hget : seq_bit_get (seq_bit_set ci_seq_tracker_init.seen (wire p₀).toNat true) p = true ↔
        p₀ ≡ p [ZMOD CI_SEQ_WIN] := by
      simp [seq_bit_set_congr hslot, seq_bit_get_set, seq_bit_get_init]
    refine hget.trans ⟨fun h => ?_, ?_⟩
    · have heq : p₀ = p := eq_of_modEq (by simp) le_rfl hlo hhi h
      simp [heq]
    · intro hmem
      obtain rfl : p = p₀ := by simpa using hmem
      rfl

/-- The tracker fed with the numbers of a stream of true positions, and its answers. -/
def feeds (ps : List ℤ) : CiSeqTracker × List Nat :=
  Transducer.run ci_seq_tracker_feed ci_seq_tracker_init (ps.map wire)

theorem feeds_concat (ps : List ℤ) (p : ℤ) : feeds (ps ++ [p]) =
    ((ci_seq_tracker_feed (feeds ps).1 (wire p)).1,
      (feeds ps).2 ++ [(ci_seq_tracker_feed (feeds ps).1 (wire p)).2]) := by
  rw [feeds, List.map_append, Transducer.run_append]
  rfl

/-- Every admissible stream keeps the tracker in step with the ideal one. -/
theorem tracks_feeds {p₀ : ℤ} {ps : List ℤ} (hwin : Serial.Within 2048 32768 p₀ ps) :
    Tracks p₀ ps (feeds (p₀ :: ps)).1 := by
  induction ps using List.reverseRecOn with
  | nil => exact tracks_first p₀
  | append_singleton ps p ih =>
    obtain ⟨hps, hback, hahead, -⟩ := Serial.within_append.mp hwin
    rw [← List.cons_append, feeds_concat]
    exact ((ih hps).feed hback hahead).1

/-- The sequence tracker refines the ideal set-based one: after every prefix its
    span and its counters are those of the set of positions fed, and each answer is
    the ideal classification of the position against the ones before it. -/
theorem seq_tracker_refines_ideal {p₀ : ℤ} {ps : List ℤ} (hwin : Serial.Within 2048 32768 p₀ ps) :
    (∀ qs, qs <+: ps →
      ((feeds (p₀ :: qs)).1.max : ℤ) - (feeds (p₀ :: qs)).1.first = highest p₀ qs - p₀ ∧
      (feeds (p₀ :: qs)).1.n_seen = (p₀ :: qs).length ∧
      (feeds (p₀ :: qs)).1.n_distinct = (p₀ :: qs).toFinset.card ∧
      (feeds (p₀ :: qs)).1.n_dup = (feeds (p₀ :: qs)).1.n_seen - (feeds (p₀ :: qs)).1.n_distinct) ∧
    (feeds (p₀ :: ps)).2[0]? = some 0 ∧
    ∀ qs p, qs ++ [p] <+: ps → (feeds (p₀ :: ps)).2[qs.length + 1]? = some (ideal_class p₀ qs p) := by
  refine ⟨fun qs hqs => ?_, rfl, fun qs p hqs => ?_⟩
  · have h := tracks_feeds (hwin.of_prefix hqs)
    exact ⟨h.max, h.n_seen, h.n_distinct, h.n_dup⟩
  · obtain ⟨hwin', hback, hahead, -⟩ := Serial.within_append.mp (hwin.of_prefix hqs)
    obtain ⟨rest, rfl⟩ := hqs
    have hstep := ((tracks_feeds hwin').feed hback hahead).2
    have hanswer := Transducer.run_output_at ci_seq_tracker_feed ci_seq_tracker_init
      ((p₀ :: qs).map wire) (wire p) (rest.map wire)
    rw [← hstep]
    simpa [feeds] using hanswer

/-- A gap across the 16-bit wrap, a backfill of it and a duplicate. -/
theorem seq_tracker_refines_ideal_wrap :
    (feeds [65534, 65537, 65535, 65537]).1.n_distinct = 3 ∧
    (feeds [65534, 65537, 65535, 65537]).2[1]? = some 1 ∧
    (feeds [65534, 65537, 65535, 65537]).2[2]? = some 3 ∧
    (feeds [65534, 65537, 65535, 65537]).2[3]? = some 2 := by
  have hwin : Serial.Within 2048 32768 (65534 : ℤ) [65537, 65535, 65537] := by decide
  obtain ⟨hcounters, -, hanswers⟩ := seq_tracker_refines_ideal hwin
  exact ⟨(hcounters _ List.prefix_rfl).2.2.1, hanswers [] 65537 (by decide),
    hanswers [65537] 65535 (by decide), hanswers [65537, 65535] 65537 (by decide)⟩

end csp_intercept.ci_meas
