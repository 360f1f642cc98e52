import CspIntercept.Meas.SeqRefine
import Mathlib.Data.Finset.Image

namespace csp_intercept.ci_meas

/-- The positions from the first one observed up to the highest one. -/
def span (p₀ : ℤ) (ps : List ℤ) : Finset ℤ :=
  (Finset.range (highest p₀ ps - p₀ + 1).toNat).image fun k : ℕ => p₀ + k

/-- The positions of the span that were never fed. -/
def missing (p₀ : ℤ) (ps : List ℤ) : Finset ℤ :=
  (span p₀ ps).filter (· ∉ p₀ :: ps)

/-- The fed positions older than the first one observed. -/
def early (p₀ : ℤ) (ps : List ℤ) : Finset ℤ :=
  ps.toFinset.filter (· < p₀)

/-- The loss published for the stream is the number of missing positions. -/
def LossIsMissing (p₀ : ℤ) (ps : List ℤ) : Prop :=
  ci_seq_tracker_loss (feeds (p₀ :: ps)).1 = (missing p₀ ps).card

/-- No position older than the first was fed, or nothing is missing. -/
def NoneEarlyOrComplete (p₀ : ℤ) (ps : List ℤ) : Prop :=
  (∀ p ∈ ps, p₀ ≤ p) ∨ ∀ p, p₀ ≤ p → p ≤ highest p₀ ps → p ∈ p₀ :: ps

theorem mem_span {p₀ p : ℤ} {ps : List ℤ} : p ∈ span p₀ ps ↔ p₀ ≤ p ∧ p ≤ highest p₀ ps := by
  rw [span, Finset.mem_image]
  constructor
  · rintro ⟨k, hk, rfl⟩
    rw [Finset.mem_range] at hk
    omega
  · rintro ⟨hlo, hhi⟩
    exact ⟨(p - p₀).toNat, by rw [Finset.mem_range]; omega, by omega⟩

theorem card_span (p₀ : ℤ) (ps : List ℤ) : (span p₀ ps).card = (highest p₀ ps - p₀ + 1).toNat := by
  rw [span, Finset.card_image_of_injective, Finset.card_range]
  intro j k hjk
  simpa using hjk

/-- The fed positions are the early ones and those of the span that are not missing. -/
theorem card_fed_add_missing (p₀ : ℤ) (ps : List ℤ) :
    (p₀ :: ps).toFinset.card + (missing p₀ ps).card =
      (early p₀ ps).card + (highest p₀ ps - p₀ + 1).toNat := by
  have hearly : (p₀ :: ps).toFinset.filter (· < p₀) = early p₀ ps := by
    ext p
    simp only [early, Finset.mem_filter, List.mem_toFinset, List.mem_cons]
    constructor
    · rintro ⟨rfl | hp, hlt⟩
      · exact absurd hlt (lt_irrefl _)
      · exact ⟨hp, hlt⟩
    · rintro ⟨hp, hlt⟩
      exact ⟨.inr hp, hlt⟩
  have hlate : (p₀ :: ps).toFinset.filter (¬ · < p₀) =
      (span p₀ ps).filter (· ∈ p₀ :: ps) := by
    ext p
    simp only [Finset.mem_filter, List.mem_toFinset, mem_span, not_lt]
    constructor
    · rintro ⟨hp, hle⟩
      exact ⟨⟨hle, fed_le_highest hp⟩, hp⟩
    · rintro ⟨⟨hle, -⟩, hp⟩
      exact ⟨hp, hle⟩
  have hfed := Finset.card_filter_add_card_filter_not (s := (p₀ :: ps).toFinset) (fun p => p < p₀)
  have hall := Finset.card_filter_add_card_filter_not (s := span p₀ ps)
    (fun p => p ∈ p₀ :: ps)
  rw [hearly, hlate] at hfed
  rw [card_span] at hall
  simp only [missing]
  omega

/-- The published loss is short of the real one by the number of early positions. -/
theorem ci_seq_tracker_loss_eq {p₀ : ℤ} {ps : List ℤ} (hwin : Serial.Within 2048 32768 p₀ ps) :
    ci_seq_tracker_loss (feeds (p₀ :: ps)).1 = (missing p₀ ps).card - (early p₀ ps).card := by
  have h := tracks_feeds hwin
  have hcard := card_fed_add_missing p₀ ps
  have hle : p₀ ≤ highest p₀ ps := Serial.le_foldl_max p₀ ps
  have hmax := h.max
  have hdistinct := h.n_distinct
  simp only [ci_seq_tracker_loss, h.have_, Bool.true_eq_false, if_false]
  split_ifs <;> omega

theorem early_eq_empty_iff {p₀ : ℤ} {ps : List ℤ} : early p₀ ps = ∅ ↔ ∀ p ∈ ps, p₀ ≤ p := by
  simp [early, Finset.filter_eq_empty_iff]

theorem missing_eq_empty_iff {p₀ : ℤ} {ps : List ℤ} :
    missing p₀ ps = ∅ ↔ ∀ p, p₀ ≤ p → p ≤ highest p₀ ps → p ∈ p₀ :: ps := by
  simp only [missing, Finset.filter_eq_empty_iff, mem_span, not_not, and_imp]

/-- At one point of a stream the published loss is the real one exactly when no
    early position was fed or nothing is missing. -/
theorem lossIsMissing_iff {p₀ : ℤ} {ps : List ℤ} (hwin : Serial.Within 2048 32768 p₀ ps) :
    LossIsMissing p₀ ps ↔ NoneEarlyOrComplete p₀ ps := by
  have hloss := ci_seq_tracker_loss_eq hwin
  rw [NoneEarlyOrComplete, ← early_eq_empty_iff, ← missing_eq_empty_iff, ← Finset.card_eq_zero,
    ← Finset.card_eq_zero, LossIsMissing]
  omega

/-- The loss is right after every prefix of a stream exactly when no prefix has both
    an early position and a missing one. -/
theorem seq_tracker_loss_is_missing_iff {p₀ : ℤ} {ps : List ℤ}
    (hwin : Serial.Within 2048 32768 p₀ ps) :
    (∀ qs, qs <+: ps → LossIsMissing p₀ qs) ↔ ∀ qs, qs <+: ps → NoneEarlyOrComplete p₀ qs := by
  constructor
  · intro hloss qs hqs
    exact (lossIsMissing_iff (hwin.of_prefix hqs)).mp (hloss qs hqs)
  · intro hcond qs hqs
    exact (lossIsMissing_iff (hwin.of_prefix hqs)).mpr (hcond qs hqs)

/-- A hole and its backfill, with nothing older than the first position. -/
theorem seq_tracker_loss_is_missing_iff_backfill :
    LossIsMissing 10 [] ∧ LossIsMissing 10 [12] ∧ LossIsMissing 10 [12, 11] := by
  have hwin : Serial.Within 2048 32768 (10 : ℤ) [12, 11] := by decide
  have hall := (seq_tracker_loss_is_missing_iff hwin).mpr fun qs hqs => .inl fun p hp => by
    have hmem : p ∈ [12, 11] := hqs.subset hp
    simp only [List.mem_cons, List.not_mem_nil, or_false] at hmem
    omega
  exact ⟨hall [] List.nil_prefix, hall [12] ⟨[11], rfl⟩, hall [12, 11] List.prefix_rfl⟩

/-- Position 9 arrives after the first one observed, 10: the tracker counts it as
    distinct without widening the span, and the missing position 11 goes unreported. -/
theorem seq_tracker_loss_hidden_by_early :
    Serial.Within 2048 32768 (10 : ℤ) [9, 12] ∧
    ci_seq_tracker_loss (feeds [10, 9, 12]).1 = 0 ∧ missing 10 [9, 12] = {11} ∧
    ¬ LossIsMissing 10 [9, 12] := by
  have hwin : Serial.Within 2048 32768 (10 : ℤ) [9, 12] := by decide
  have hmissing : missing 10 [9, 12] = {11} := by decide
  have hloss : ci_seq_tracker_loss (feeds [10, 9, 12]).1 = 0 := by
    rw [ci_seq_tracker_loss_eq hwin, hmissing]
    decide
  refine ⟨hwin, hloss, hmissing, ?_⟩
  rw [LossIsMissing, hloss, hmissing]
  decide

end csp_intercept.ci_meas
