import CspIntercept.Lib.Serial
import Mathlib.Order.Interval.Finset.Nat

namespace Serial

/-- Thinning two related lists by one list of fates. -/
theorem forall₂_filter {α β : Type*} {R : α → β → Prop} {f : α → Bool} {g : β → Bool} {xs : List α} {ys : List β}
    (h : List.Forall₂ R xs ys) (hfate : ys.map g = xs.map f) : List.Forall₂ R (xs.filter f) (ys.filter g) := by
  induction h with
  | nil => exact .nil
  | @cons x y xs ys hxy _ ih =>
    obtain ⟨hhead, htail⟩ := List.cons.inj hfate
    rw [List.filter_cons, List.filter_cons, hhead]
    split_ifs
    · exact .cons hxy (ih htail)
    · exact ih htail

/-- A window may be widened. -/
theorem Within.mono {α : Type*} [LinearOrder α] [Add α] [AddLeftMono α] {back back' ahead ahead' top : α}
    {ps : List α} (h : Within back ahead top ps) (hback : back ≤ back') (hahead : ahead ≤ ahead') :
    Within back' ahead' top ps := by
  induction ps generalizing top with
  | nil => trivial
  | cons p ps ih =>
    exact ⟨h.1.trans_le (add_le_add_right hback p), h.2.1.trans_le (add_le_add_right hahead top), ih h.2.2⟩

/-- A stream of naturals within a window, as one of integers. -/
theorem Within.map_cast {back ahead top : ℕ} {ps : List ℕ} (h : Within back ahead top ps) :
    Within (back : ℤ) ahead top (ps.map Nat.cast) := by
  induction ps generalizing top with
  | nil => trivial
  | cons p ps ih =>
    obtain ⟨hback, hahead, hrest⟩ := h
    have htail := ih hrest
    rw [Nat.cast_max] at htail
    exact ⟨by omega, by omega, htail⟩

theorem foldl_max_map_cast (top : ℕ) (ps : List ℕ) :
    (ps.map Nat.cast).foldl max (top : ℤ) = (ps.foldl max top : ℕ) := by
  induction ps generalizing top with
  | nil => rfl
  | cons p ps ih => rw [List.map_cons, List.foldl_cons, List.foldl_cons, ← Nat.cast_max, ih]

section Thinning

variable {keep : ℕ → Bool} {back ahead p₀ top : ℕ} {ps : List ℕ}

/-- A stream that never skips a position has sent all up to its maximum. -/
theorem Within.mem_of_le_foldl_max (h : Within back 2 top ps) {q : ℕ} (hlow : top < q)
    (hhigh : q ≤ ps.foldl max top) : q ∈ ps := by
  induction ps generalizing top with
  | nil => exact absurd hhigh (by simpa using hlow)
  | cons p ps ih =>
    obtain ⟨-, hnext, hrest⟩ := h
    by_cases hp : q = p
    · exact hp ▸ List.mem_cons_self
    · exact List.mem_cons_of_mem p (ih hrest (by omega) hhigh)

/-- No `ahead - 1` positions in a row are lost. -/
def Gapless (keep : ℕ → Bool) (ahead : ℕ) : Prop := ∀ p, ∃ k, k + 1 < ahead ∧ keep (p + k) = true

/-- Where `t` is the highest kept position so far and all above it were lost, what is kept of the rest
    stays within the same window behind and within the longest gap ahead. -/
theorem Within.filter (hgap : Gapless keep ahead) {t : ℕ} (hle : t ≤ top)
    (hlost : ∀ q, t < q → q ≤ top → keep q = false) (h : Within back 2 top ps) :
    Within back ahead t (ps.filter keep) := by
  induction ps generalizing top t with
  | nil => trivial
  | cons p ps ih =>
    obtain ⟨hback, hnext, hrest⟩ := h
    cases hkeep : keep p with
    | false =>
      rw [List.filter_cons_of_neg (by simp [hkeep])]
      refine ih (by omega) (fun q hlow hhigh => ?_) hrest
      by_cases hq : q ≤ top
      · exact hlost q hlow hq
      · have hqp : q = p := by omega
        exact hqp ▸ hkeep
    | true =>
      rw [List.filter_cons_of_pos hkeep]
      -- a kept position was kept before, or is the next one
      have hnew : p ≤ t ∨ p = top + 1 := by
        by_contra hnot
        rw [hlost p (by omega) (by omega)] at hkeep
        cases hkeep
      have hahead : p < t + ahead := by
        obtain ⟨k, hk, hkept⟩ := hgap (t + 1)
        rcases hnew with hold | rfl
        · omega
        · by_contra hfar
          rw [hlost (t + 1 + k) (by omega) (by omega)] at hkept
          cases hkept
      have hmax : max t p ≤ max top p := max_le_max_right p hle
      refine ⟨by omega, hahead, ih hmax (fun q hlow hhigh => ?_) hrest⟩
      exact hlost q (by omega) (by omega)

/-- What is kept of a stream that never skips a position: it starts where the first positions are no
    longer lost, keeps its window, and lacks exactly the lost positions. -/
structure Thinned (keep : ℕ → Bool) (back ahead p₀ : ℕ) (q₀ : ℕ) (qs : List ℕ) : Prop where
  within : Within back ahead q₀ qs
  first : p₀ ≤ q₀
  leading : ∀ q, p₀ ≤ q → q < q₀ → keep q = false
  kept : ∀ q, q₀ ≤ q → q ≤ qs.foldl max q₀ → (q ∈ q₀ :: qs ↔ keep q = true)
  least : ∀ q ∈ qs, q₀ ≤ q

theorem Thinned.of_kept (hgap : Gapless keep ahead) {q₀ : ℕ} (hkeep : keep q₀ = true) (hfirst : p₀ ≤ q₀)
    (hleading : ∀ q, p₀ ≤ q → q < q₀ → keep q = false) (h : Within back 2 q₀ ps) (hpast : ∀ p ∈ ps, p₀ ≤ p) :
    Thinned keep back ahead p₀ q₀ (ps.filter keep) := by
  refine ⟨h.filter hgap le_rfl (fun q hlow hhigh => by omega), hfirst, hleading, fun q hlow hhigh => ?_, ?_⟩
  · rw [List.mem_cons, List.mem_filter]
    constructor
    · rintro (rfl | ⟨-, hq⟩)
      · exact hkeep
      · exact hq
    · intro hq
      by_cases heq : q = q₀
      · exact .inl heq
      · refine .inr ⟨h.mem_of_le_foldl_max (by omega) (hhigh.trans ?_), hq⟩
        rcases List.mem_cons.mp (foldl_max_mem q₀ (ps.filter keep)) with hhead | htail
        · rw [hhead]
          exact le_foldl_max q₀ ps
        · exact mem_le_foldl_max q₀ (List.mem_filter.mp htail).1
  · intro q hq
    obtain ⟨hmem, hq⟩ := List.mem_filter.mp hq
    by_contra hlt
    rw [hleading q (hpast q hmem) (by omega)] at hq
    cases hq

/-- As long as nothing was kept, the first kept position is the next one. -/
theorem Within.filter_eq_cons (hgap : Gapless keep ahead) (h : Within back 2 top ps)
    (hpast : ∀ p ∈ ps, p₀ ≤ p) (htop : p₀ ≤ top + 1) (hlost : ∀ q, p₀ ≤ q → q ≤ top → keep q = false)
    {q₀ : ℕ} {qs : List ℕ} (hkept : ps.filter keep = q₀ :: qs) : Thinned keep back ahead p₀ q₀ qs := by
  induction ps generalizing top with
  | nil => cases hkept
  | cons p ps ih =>
    obtain ⟨hback, hnext, hrest⟩ := h
    have hp : p₀ ≤ p := hpast p List.mem_cons_self
    have hpast' : ∀ q ∈ ps, p₀ ≤ q := fun q hq => hpast q (List.mem_cons_of_mem p hq)
    cases hkeep : keep p with
    | false =>
      rw [List.filter_cons_of_neg (by simp [hkeep])] at hkept
      refine ih hrest hpast' (by omega) (fun q hlow hhigh => ?_) hkept
      by_cases hq : q ≤ top
      · exact hlost q hlow hq
      · have hqp : q = p := by omega
        exact hqp ▸ hkeep
    | true =>
      rw [List.filter_cons_of_pos hkeep] at hkept
      obtain ⟨rfl, rfl⟩ := List.cons.inj hkept
      have hnew : p = top + 1 := by
        by_contra hnot
        rw [hlost p hp (by omega)] at hkeep
        cases hkeep
      have hmax : max top p = p := by omega
      rw [hmax] at hrest
      exact .of_kept hgap hkeep hp (fun q hlow hhigh => hlost q hlow (by omega)) hrest hpast'

/-- Whatever is kept of a stream from its first position on is thinned out. -/
theorem Within.thinned (hgap : Gapless keep ahead) (h : Within back 2 p₀ ps) (hpast : ∀ p ∈ ps, p₀ ≤ p)
    {q₀ : ℕ} {qs : List ℕ} (hkept : (p₀ :: ps).filter keep = q₀ :: qs) : Thinned keep back ahead p₀ q₀ qs := by
  cases hkeep : keep p₀ with
  | false =>
    rw [List.filter_cons_of_neg (by simp [hkeep])] at hkept
    refine h.filter_eq_cons hgap hpast (by omega) (fun q hlow hhigh => ?_) hkept
    have hq : q = p₀ := by omega
    exact hq ▸ hkeep
  | true =>
    rw [List.filter_cons_of_pos hkeep] at hkept
    obtain ⟨rfl, rfl⟩ := List.cons.inj hkept
    exact .of_kept hgap hkeep le_rfl (fun q hlow hhigh => by omega) h hpast

/-- The positions sent, as a set. -/
theorem Within.toFinset_cons (h : Within back 2 p₀ ps) (hpast : ∀ p ∈ ps, p₀ ≤ p) :
    (p₀ :: ps).toFinset = Finset.Icc p₀ (ps.foldl max p₀) := by
  ext q
  rw [List.mem_toFinset, Finset.mem_Icc]
  constructor
  · intro hq
    rcases List.mem_cons.mp hq with rfl | hq
    · exact ⟨le_rfl, le_foldl_max q ps⟩
    · exact ⟨hpast q hq, mem_le_foldl_max p₀ hq⟩
  · rintro ⟨hlow, hhigh⟩
    by_cases heq : q = p₀
    · exact heq ▸ List.mem_cons_self
    · exact List.mem_cons_of_mem p₀ (h.mem_of_le_foldl_max (by omega) hhigh)

namespace Thinned

variable {q₀ : ℕ} {qs : List ℕ} (h : Thinned keep back ahead p₀ q₀ qs)

include h

/-- The positions kept, as a set. -/
theorem toFinset_cons : (q₀ :: qs).toFinset =
    (Finset.Icc q₀ (qs.foldl max q₀)).filter fun p => keep p = true := by
  ext q
  rw [List.mem_toFinset, Finset.mem_filter, Finset.mem_Icc]
  constructor
  · intro hq
    have hbounds : q₀ ≤ q ∧ q ≤ qs.foldl max q₀ := by
      rcases List.mem_cons.mp hq with rfl | hq
      · exact ⟨le_rfl, le_foldl_max q qs⟩
      · exact ⟨h.least q hq, mem_le_foldl_max q₀ hq⟩
    exact ⟨hbounds, (h.kept q hbounds.1 hbounds.2).mp hq⟩
  · rintro ⟨⟨hlow, hhigh⟩, hq⟩
    exact (h.kept q hlow hhigh).mpr hq

/-- Both ends of the kept positions were kept, so the lost ones lie between them. -/
theorem filter_lost_Icc : ((Finset.Icc q₀ (qs.foldl max q₀)).filter fun p => ¬ keep p = true) =
    (Finset.Ioo q₀ (qs.foldl max q₀)).filter fun p => keep p = false := by
  have hle : q₀ ≤ qs.foldl max q₀ := le_foldl_max q₀ qs
  have hlow : keep q₀ = true := (h.kept q₀ le_rfl hle).mp List.mem_cons_self
  have hhigh : keep (qs.foldl max q₀) = true := (h.kept _ hle le_rfl).mp (foldl_max_mem q₀ qs)
  ext q
  simp only [Finset.mem_filter, Finset.mem_Ioo, Finset.mem_Icc, Bool.not_eq_true]
  refine ⟨fun ⟨hq, hlost⟩ => ⟨⟨?_, ?_⟩, hlost⟩, fun ⟨hq, hlost⟩ => ⟨⟨hq.1.le, hq.2.le⟩, hlost⟩⟩
  · refine lt_of_le_of_ne hq.1 fun heq => ?_
    rw [← heq, hlow] at hlost
    cases hlost
  · refine lt_of_le_of_ne hq.2 fun heq => ?_
    rw [heq, hhigh] at hlost
    cases hlost

end Thinned

/-- Where each position was sent once, those lost are the ones before the first kept, after the highest
    kept and between the two. -/
theorem Within.countP_lost (hgap : Gapless keep ahead) (h : Within back 2 p₀ ps) (hpast : ∀ p ∈ ps, p₀ ≤ p)
    (hnodup : (p₀ :: ps).Nodup) {q₀ : ℕ} {qs : List ℕ} (hkept : (p₀ :: ps).filter keep = q₀ :: qs) :
    (p₀ :: ps).countP (fun p => !keep p) = q₀ - p₀ +
      ((Finset.Ioo q₀ (qs.foldl max q₀)).filter fun p => keep p = false).card +
        (ps.foldl max p₀ - qs.foldl max q₀) := by
  have hthin := h.thinned hgap hpast hkept
  have hbound : qs.foldl max q₀ ≤ ps.foldl max p₀ := by
    have htop : qs.foldl max q₀ ∈ (p₀ :: ps).filter keep := by
      rw [hkept]
      exact foldl_max_mem q₀ qs
    have hsent := List.mem_toFinset.mpr (List.mem_filter.mp htop).1
    rw [h.toFinset_cons hpast, Finset.mem_Icc] at hsent
    exact hsent.2
  have hkeptcard := List.toFinset_card_of_nodup (hkept ▸ hnodup.filter keep)
  have hsentcard := List.toFinset_card_of_nodup hnodup
  have hsplit := Finset.card_filter_add_card_filter_not (s := Finset.Icc q₀ (qs.foldl max q₀)) fun p => keep p = true
  have hcount := List.length_eq_countP_add_countP keep (l := p₀ :: ps)
  have hkeptlength : (q₀ :: qs).length = (p₀ :: ps).countP keep := by
    rw [List.countP_eq_length_filter, hkept]
  have hnot : (p₀ :: ps).countP (fun p => !keep p) = (p₀ :: ps).countP fun p => decide ¬ keep p = true := by
    apply List.countP_congr
    simp
  rw [hthin.toFinset_cons] at hkeptcard
  rw [h.toFinset_cons hpast, Nat.card_Icc] at hsentcard
  rw [hthin.filter_lost_Icc, Nat.card_Icc] at hsplit
  have hfirst := hthin.first
  have hle : q₀ ≤ qs.foldl max q₀ := le_foldl_max q₀ qs
  omega

end Thinning

end Serial
