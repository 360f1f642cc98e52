import CspIntercept.Meas.SeqRefine

open Transducer

namespace csp_intercept.ci_meas

def CI_LOSS_MIN_SPAN : ℕ := 64

def CI_LOSS_DENSITY_DIV : ℕ := 8

/-- Positions from the first number fed up to the highest, `max - first + 1`. -/
def CiSeqTracker.span (t : CiSeqTracker) : ℕ := t.max - t.first + 1

/-- 1 if the inferred loss may be read as link loss, 0 if the capture is too sparse. -/
def ci_loss_trustworthy (t : CiSeqTracker) : ℕ :=
  if t.have_ = false then 1
  else
    let span := t.max - t.first + 1
    if span < CI_LOSS_MIN_SPAN then 1
    else if t.n_distinct * CI_LOSS_DENSITY_DIV ≥ span then 1 else 0

/-- The tracker after a stream of 16-bit numbers, whatever they are. -/
def fed (seqs : List UInt16) : CiSeqTracker :=
  (run ci_seq_tracker_feed ci_seq_tracker_init seqs).1

/-- The numbers of a connection of `n` packets, none of them lost. -/
def connection (isn : UInt16) (n : ℕ) : List UInt16 :=
  (List.range n).map fun k => isn + UInt16.ofNat k

/-- What the counters of a tracker that was fed keep, on any stream. -/
structure Conserves (t : CiSeqTracker) : Prop where
  have_ : t.have_ = true
  first_le : t.first ≤ t.max
  distinct_pos : 0 < t.n_distinct
  seen : t.n_seen = t.n_distinct + t.n_dup
  span : t.span + t.n_reorder = t.n_distinct + t.n_gap

theorem conserves_first (seq : UInt16) : Conserves (ci_seq_tracker_feed ci_seq_tracker_init seq).1 :=
  ⟨rfl, le_rfl, Nat.one_pos, rfl, by simp [ci_seq_tracker_feed, ci_seq_tracker_init, CiSeqTracker.span]⟩

/-- One feed of any number keeps the counters balanced. -/
theorem Conserves.feed {t : CiSeqTracker} (h : Conserves t) (seq : UInt16) :
    Conserves (ci_seq_tracker_feed t seq).1 := by
  obtain ⟨hhave, hle, hpos, hseen, hspan⟩ := h
  unfold CiSeqTracker.span at hspan
  by_cases hahead : 0 < ahead t seq
  · obtain ⟨d, hd⟩ := Int.eq_ofNat_of_zero_le hahead.le
    rw [feed_ahead hhave hd (by omega)]
    refine ⟨hhave, ?_, Nat.succ_pos _, ?_, ?_⟩ <;> simp only [CiSeqTracker.span] <;> omega
  · rw [feed_behind hhave hahead]
    split_ifs
    · refine ⟨hhave, hle, hpos, ?_, hspan⟩
      simp only
      omega
    · refine ⟨hhave, hle, Nat.succ_pos _, ?_, ?_⟩ <;> simp only [CiSeqTracker.span] <;> omega

theorem conserves_fed {seqs : List UInt16} (hne : seqs ≠ []) : Conserves (fed seqs) := by
  cases seqs with
  | nil => exact absurd rfl hne
  | cons seq seqs => exact run_invariant Conserves (fun t s h => h.feed s) (conserves_first seq) seqs

theorem feed_n_seen (t : CiSeqTracker) (seq : UInt16) :
    (ci_seq_tracker_feed t seq).1.n_seen = t.n_seen + 1 := by
  simp only [ci_seq_tracker_feed]
  split_ifs <;> rfl

/-- Of the numbers fed no more are counted as distinct. -/
theorem n_distinct_fed_le (seqs : List UInt16) : (fed seqs).n_distinct ≤ seqs.length := by
  cases seqs with
  | nil => exact le_rfl
  | cons seq seqs =>
    have hcount : (fed (seq :: seqs)).n_seen = 0 + (seq :: seqs).length :=
      run_count CiSeqTracker.n_seen feed_n_seen ci_seq_tracker_init (seq :: seqs)
    have hseen := (conserves_fed (List.cons_ne_nil seq seqs)).seen
    omega

theorem Conserves.loss {t : CiSeqTracker} (h : Conserves t) :
    ci_seq_tracker_loss t = t.span - t.n_distinct := by
  simp only [ci_seq_tracker_loss, h.have_, Bool.true_eq_false, if_false, CiSeqTracker.span]
  split_ifs <;> omega

theorem Conserves.trustworthy {t : CiSeqTracker} (h : Conserves t) :
    ci_loss_trustworthy t = if t.span < 64 ∨ t.span ≤ 8 * t.n_distinct then 1 else 0 := by
  unfold ci_loss_trustworthy CI_LOSS_MIN_SPAN CI_LOSS_DENSITY_DIV
  rw [if_neg (by simp [h.have_])]
  change (if t.span < 64 then 1 else if t.n_distinct * 8 ≥ t.span then 1 else 0) = _
  by_cases hsmall : t.span < 64
  · rw [if_pos hsmall, if_pos (.inl hsmall)]
  · rw [if_neg hsmall]
    exact if_congr (by omega) rfl rfl

section BackToBack

variable {t : CiSeqTracker} {isn seq : UInt16} {d n n₁ n₂ : ℕ}

private theorem wire_ofNat (n : ℕ) : wire n = UInt16.ofNat n := by
  rw [wire, ← UInt16.toNat_inj, UInt16.ofInt, UInt16.toNat_ofNat', UInt16.toNat_ofNat']
  omega

private theorem add_ofNat (isn : UInt16) (k : ℕ) : isn + UInt16.ofNat k = UInt16.ofNat (isn.toNat + k) := by
  rw [UInt16.ofNat_add, UInt16.ofNat_toNat]

theorem connection_succ (isn : UInt16) (n : ℕ) :
    connection isn (n + 1) = isn :: connection (isn + 1) n := by
  rw [connection, List.range_succ_eq_map, List.map_cons, List.map_map, connection]
  have hzero : isn + UInt16.ofNat 0 = isn := UInt16.add_zero isn
  have hsucc : (fun k => isn + UInt16.ofNat k) ∘ Nat.succ = fun k => isn + 1 + UInt16.ofNat k := by
    funext k
    rw [Function.comp_apply, Nat.succ_eq_add_one, Nat.add_comm, UInt16.ofNat_add, UInt16.add_assoc]
    rfl
  rw [hzero, hsucc]

/-- Less than half the number space ahead, the distance is the true one. -/
theorem ahead_ofNat (t : CiSeqTracker) (hd : d < 32768) :
    ahead t (UInt16.ofNat (t.max + d)) = d := by
  rw [← wire_ofNat, ahead_wire]
  have hdist : ((t.max + d : ℕ) : ℤ) - t.max = d := by omega
  rw [hdist]
  exact Int.bmod_eq_of_le_mul_two (by omega) (by omega)

/-- A number `d` positions ahead widens the span by `d` and counts as one. -/
theorem feed_ofNat (t : CiSeqTracker) (hhave : t.have_ = true) (hpos : 0 < d) (hd : d < 32768) :
    let t' := (ci_seq_tracker_feed t (UInt16.ofNat (t.max + d))).1
    t'.have_ = true ∧ t'.first = t.first ∧ t'.max = t.max + d ∧ t'.n_distinct = t.n_distinct + 1 := by
  rw [feed_ahead hhave (ahead_ofNat t hd) hpos]
  exact ⟨hhave, rfl, rfl, rfl⟩

/-- A connection that starts `d` positions ahead of the head leaves no hole but the first. -/
theorem run_connection (t : CiSeqTracker) (hhave : t.have_ = true) (hpos : 0 < d) (hd : d < 32768)
    (n : ℕ) :
    let t' := (run ci_seq_tracker_feed t (connection (UInt16.ofNat (t.max + d)) (n + 1))).1
    t'.have_ = true ∧ t'.first = t.first ∧ t'.max = t.max + d + n ∧
      t'.n_distinct = t.n_distinct + 1 + n := by
  have hfeed := feed_ofNat t hhave hpos hd
  rw [connection_succ, run_cons_state]
  generalize hnext : (ci_seq_tracker_feed t (UInt16.ofNat (t.max + d))).1 = next at hfeed
  obtain ⟨hhave', hfirst, hmax, hdistinct⟩ := hfeed
  induction n generalizing t d next with
  | zero => exact ⟨hhave', hfirst, hmax, hdistinct⟩
  | succ n ih =>
    have hseq : UInt16.ofNat (t.max + d) + 1 = UInt16.ofNat (next.max + 1) := by
      rw [hmax]
      exact (UInt16.ofNat_add (t.max + d) 1).symm
    obtain ⟨hh, hf, hm, hn⟩ := feed_ofNat next hhave' Nat.one_pos (by omega)
    rw [hseq, connection_succ, run_cons_state]
    obtain ⟨hlast, hfirst', hmax', hdistinct'⟩ :=
      ih next hhave' Nat.one_pos (by omega) _ rfl hh hf hm hn
    exact ⟨hlast, by rw [hfirst', hfirst], by rw [hmax', hmax]; omega,
      by rw [hdistinct', hdistinct]; omega⟩

theorem fed_connection (isn : UInt16) (n : ℕ) :
    let t := fed (connection isn (n + 1))
    t.have_ = true ∧ t.first = isn.toNat ∧ t.max = isn.toNat + n ∧ t.n_distinct = n + 1 := by
  rw [connection_succ]
  cases n with
  | zero => exact ⟨rfl, rfl, rfl, rfl⟩
  | succ n =>
    have hnext : isn + 1 = UInt16.ofNat (isn.toNat + 1) := add_ofNat isn 1
    obtain ⟨hhave, hfirst, hmax, hdistinct⟩ := run_connection
      (ci_seq_tracker_feed ci_seq_tracker_init isn).1 rfl Nat.one_pos (by omega) n
    rw [fed, run_cons_state, hnext]
    exact ⟨hhave, hfirst, hmax.trans (by rw [Nat.add_assoc, Nat.add_comm 1 n]; rfl),
      hdistinct.trans (Nat.add_comm 2 n)⟩

/-- Two connections one after the other, the second `d` positions after the end of the
    first: the phantom loss is the distance, and the guard weighs it against the packets. -/
theorem back_to_back_phantom (isn : UInt16) (hpos : 0 < d) (hd : d < 32768) (n₁ n₂ : ℕ) :
    let t := fed (connection isn (n₁ + 1) ++ connection (isn + UInt16.ofNat (n₁ + d)) (n₂ + 1))
    ci_seq_tracker_loss t = d - 1 ∧
      (ci_loss_trustworthy t = 1 ↔ n₁ + n₂ + d + 1 < 64 ∨ d - 1 ≤ 7 * (n₁ + n₂ + 2)) := by
  intro t
  obtain ⟨hhave, hfirst, hmax, hdistinct⟩ := fed_connection isn n₁
  have hseq : isn + UInt16.ofNat (n₁ + d) =
      UInt16.ofNat ((fed (connection isn (n₁ + 1))).max + d) := by
    rw [hmax, add_ofNat, Nat.add_assoc]
  have ht : t = (run ci_seq_tracker_feed (fed (connection isn (n₁ + 1)))
      (connection (UInt16.ofNat ((fed (connection isn (n₁ + 1))).max + d)) (n₂ + 1))).1 := by
    rw [← hseq]
    unfold t fed
    rw [run_append]
  have hconserves : Conserves t := conserves_fed (by simp [connection_succ])
  obtain ⟨-, hfirst', hmax', hdistinct'⟩ := run_connection _ hhave hpos hd n₂
  rw [← ht] at hfirst' hmax' hdistinct'
  have hspan : t.span = n₁ + n₂ + d + 1 := by
    unfold CiSeqTracker.span
    omega
  rw [hconserves.loss, hconserves.trustworthy, hspan, hdistinct', hdistinct]
  refine ⟨by omega, ?_⟩
  have hdense : (n₁ + n₂ + d + 1 < 64 ∨ n₁ + n₂ + d + 1 ≤ 8 * (n₁ + 1 + 1 + n₂)) ↔
      n₁ + n₂ + d + 1 < 64 ∨ d - 1 ≤ 7 * (n₁ + n₂ + 2) := by omega
  rw [← hdense, ite_eq_left_iff]
  exact ⟨fun hnot => by_contra fun h => absurd (hnot h) zero_ne_one, fun h hnot => absurd h hnot⟩

end BackToBack

/-- Whatever two connections without loss are mixed into one tracker, a phantom loss that
    the guard endorses stays below its smallest span, or is at most seven times the packets
    fed and seven eighths of the span; what it rejects is more than that. When one connection follows
    the other, the phantom is the distance between them. -/
theorem ci_loss_trustworthy_bounds_phantom {isn₁ isn₂ : UInt16} {n₁ n₂ : ℕ} {seqs : List UInt16}
    (h : Interleaving (connection isn₁ n₁) (connection isn₂ n₂) seqs) :
    (ci_loss_trustworthy (fed seqs) = 1 →
      (fed seqs).span < 64 ∧ ci_seq_tracker_loss (fed seqs) < 63 ∨
      ci_seq_tracker_loss (fed seqs) ≤ 7 * (n₁ + n₂) ∧
        8 * ci_seq_tracker_loss (fed seqs) ≤ 7 * (fed seqs).span) ∧
    (ci_loss_trustworthy (fed seqs) = 0 →
      64 ≤ (fed seqs).span ∧ 7 * (fed seqs).span < 8 * ci_seq_tracker_loss (fed seqs)) ∧
    ∀ d, 0 < d → d < 32768 → 0 < n₁ → 0 < n₂ → isn₂ = isn₁ + UInt16.ofNat (n₁ - 1 + d) →
      seqs = connection isn₁ n₁ ++ connection isn₂ n₂ →
        ci_seq_tracker_loss (fed seqs) = d - 1 ∧
          (ci_loss_trustworthy (fed seqs) = 1 ↔ n₁ + n₂ + d - 1 < 64 ∨ d - 1 ≤ 7 * (n₁ + n₂)) := by
  rw [← and_assoc]
  refine ⟨?_, fun d hpos hd hn₁ hn₂ hisn hseqs => ?_⟩
  · have hlen : seqs.length = n₁ + n₂ := by
      rw [h.length_eq]
      simp [connection]
    have hdistinct := n_distinct_fed_le seqs
    by_cases hne : seqs = []
    · subst hne
      exact ⟨fun _ => .inl ⟨by decide, by decide⟩, fun hzero => absurd hzero (by decide)⟩
    · have hfed := conserves_fed hne
      have hpos := hfed.distinct_pos
      rw [hfed.loss, hfed.trustworthy]
      split_ifs with hdense
      · refine ⟨fun _ => ?_, fun hzero => hzero.elim⟩
        rcases hdense with hsmall | hdense
        · exact .inl ⟨hsmall, by omega⟩
        · exact .inr ⟨by omega, by omega⟩
      · exact ⟨fun hone => hone.elim, fun _ => ⟨by omega, by omega⟩⟩
  · obtain ⟨k₁, rfl⟩ := Nat.exists_eq_add_one.mpr hn₁
    obtain ⟨k₂, rfl⟩ := Nat.exists_eq_add_one.mpr hn₂
    rw [hseqs, hisn]
    obtain ⟨hloss, htrust⟩ := back_to_back_phantom isn₁ hpos hd k₁ k₂
    exact ⟨hloss, htrust.trans (by omega)⟩

theorem ci_loss_trustworthy_bounds_phantom_dense :
    ci_seq_tracker_loss (fed (connection 65000 100 ++ connection 200 100)) = 636 ∧
      8 * ci_seq_tracker_loss (fed (connection 65000 100 ++ connection 200 100)) ≤
        7 * (fed (connection 65000 100 ++ connection 200 100)).span := by
  obtain ⟨htrusted, -, hbehind⟩ :=
    ci_loss_trustworthy_bounds_phantom (.append (connection 65000 100) (connection 200 100))
  obtain ⟨hloss, htrust⟩ := hbehind 637 (by omega) (by omega) (by omega) (by omega) rfl rfl
  rcases htrusted (htrust.mpr (.inr (by omega))) with ⟨-, hsmall⟩ | ⟨-, hbound⟩
  · exact absurd (hloss ▸ hsmall) (by decide)
  · exact ⟨hloss, hbound⟩

/-- Numbers 0 to 9 of one connection and then 20 to 29 of another: the ten numbers
    between them are reported as lost, and the guard trusts the report. -/
theorem phantom_of_two_connections_trusted :
    Interleaving (connection 0 10) (connection 20 10) (connection 0 10 ++ connection 20 10) ∧
    ci_loss_trustworthy (fed (connection 0 10 ++ connection 20 10)) = 1 ∧
    ci_seq_tracker_loss (fed (connection 0 10 ++ connection 20 10)) = 10 := by
  obtain ⟨hloss, htrust⟩ := back_to_back_phantom 0 (d := 11) (by omega) (by omega) 9 9
  exact ⟨.append .., htrust.mpr (.inl (by omega)), hloss⟩

end csp_intercept.ci_meas
