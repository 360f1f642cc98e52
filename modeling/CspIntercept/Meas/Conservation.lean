import CspIntercept.Meas.LossTrust

open Transducer

namespace csp_intercept.ci_meas

/-- The head is zero until the first feed, and the epoch is its upper part. -/
structure CiSeqTracker.Labelled (t : CiSeqTracker) : Prop where
  unfed : t.have_ = false → t.max = 0
  epoch : t.epoch = UInt32.ofNat (t.max / 65536)

theorem labelled_init : ci_seq_tracker_init.Labelled := ⟨fun _ => rfl, rfl⟩

private theorem epoch_of_max (n : ℕ) : UInt32.ofNat (n >>> 16) = UInt32.ofNat (n / 65536) :=
  congrArg UInt32.ofNat (Nat.shiftRight_eq_div_pow n 16)

/-- No feed lowers the head, and every feed relabels it. -/
theorem CiSeqTracker.Labelled.feed {t : CiSeqTracker} (h : t.Labelled) (seq : UInt16) :
    (ci_seq_tracker_feed t seq).1.Labelled ∧ t.max ≤ (ci_seq_tracker_feed t seq).1.max := by
  obtain ⟨hunfed, hepoch⟩ := h
  cases hhave : t.have_ with
  | false =>
    rw [hunfed hhave]
    simp only [ci_seq_tracker_feed, hhave, if_true]
    refine ⟨⟨fun hfalse => ?_, epoch_of_max _⟩, Nat.zero_le _⟩
    cases hfalse
  | true =>
    by_cases hahead : 0 < ahead t seq
    · obtain ⟨d, hd⟩ := Int.eq_ofNat_of_zero_le hahead.le
      rw [feed_ahead hhave hd (by omega)]
      refine ⟨⟨fun hfalse => ?_, epoch_of_max _⟩, Nat.le_add_right _ _⟩
      cases hhave.symm.trans hfalse
    · have hlabel : t.have_ = false → t.max = 0 := hunfed
      rw [feed_behind hhave hahead]
      split_ifs
      · exact ⟨⟨hlabel, hepoch⟩, le_rfl⟩
      · exact ⟨⟨hlabel, hepoch⟩, le_rfl⟩

theorem labelled_fed (seqs : List UInt16) : (fed seqs).Labelled :=
  run_invariant CiSeqTracker.Labelled (fun _ seq h => (h.feed seq).1) labelled_init seqs

/-- The head only moves forward along a stream. -/
theorem fed_max_mono {qs seqs : List UInt16} (hinit : qs <+: seqs) : (fed qs).max ≤ (fed seqs).max := by
  obtain ⟨rest, rfl⟩ := hinit
  have hmono := run_monotone CiSeqTracker.Labelled CiSeqTracker.max (fun _ seq h => (h.feed seq).1)
    (fun _ seq h => (h.feed seq).2) (labelled_fed qs) rest
  unfold fed at hmono ⊢
  rwa [run_append]

/-- Forward gaps less backfills: a backfill before the first number can make it negative. -/
theorem Conserves.loss_eq_gap_sub_reorder {t : CiSeqTracker} (h : Conserves t) :
    (ci_seq_tracker_loss t : ℤ) = max 0 ((t.n_gap : ℤ) - t.n_reorder) := by
  have hspan := h.span
  rw [h.loss]
  omega

/-- The tracker's published totals balance on every stream of numbers, whatever was
    reordered, repeated or jumped over. -/
theorem ci_seq_tracker_conserves {seqs : List UInt16} (hne : seqs ≠ []) :
    (fed seqs).n_seen = (fed seqs).n_distinct + (fed seqs).n_dup ∧
      ((fed seqs).max : ℤ) - (fed seqs).first + 1 + (fed seqs).n_reorder =
        (fed seqs).n_distinct + (fed seqs).n_gap ∧
      (ci_seq_tracker_loss (fed seqs) : ℤ) = max 0 (((fed seqs).n_gap : ℤ) - (fed seqs).n_reorder) ∧
      (∀ qs, qs <+: seqs → (fed qs).max ≤ (fed seqs).max) ∧
      (fed seqs).epoch = UInt32.ofNat ((fed seqs).max / 65536) := by
  have hfed := conserves_fed hne
  have hle := hfed.first_le
  have hspan := hfed.span
  unfold CiSeqTracker.span at hspan
  exact ⟨hfed.seen, by omega, hfed.loss_eq_gap_sub_reorder, fun _ => fed_max_mono,
    (labelled_fed seqs).epoch⟩

/-- A jump ahead, a backfill before the first number and a repetition. -/
theorem ci_seq_tracker_conserves_backfill :
    (fed [10, 13, 9, 13]).n_seen = (fed [10, 13, 9, 13]).n_distinct + (fed [10, 13, 9, 13]).n_dup ∧
      (fed [10]).max ≤ (fed [10, 13, 9, 13]).max := by
  obtain ⟨hseen, -, -, hmono, -⟩ := ci_seq_tracker_conserves (List.cons_ne_nil 10 [13, 9, 13])
  exact ⟨hseen, hmono [10] ⟨[13, 9, 13], rfl⟩⟩

end csp_intercept.ci_meas
