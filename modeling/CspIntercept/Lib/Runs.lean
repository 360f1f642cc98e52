import Mathlib.Data.Set.Card
import Mathlib.Data.List.Pairwise

namespace Runs

variable {P P' : ℕ → Prop} {n : ℕ}

/-- The positions from `a` up to, but not including, `b` are a maximal run of `P`
    below `n`. -/
structure Maximal (P : ℕ → Prop) (n a b : ℕ) : Prop where
  lt : a < b
  le : b ≤ n
  all : ∀ i, a ≤ i → i < b → P i
  left : a = 0 ∨ ¬ P (a - 1)
  right : b = n ∨ ¬ P b

/-- The list has the maximal runs of `P` from `i` on, in their order. -/
inductive RunsFrom (P : ℕ → Prop) (n : ℕ) : ℕ → List (ℕ × ℕ) → Prop
  | nil {i : ℕ} (hgap : ∀ j, i ≤ j → j < n → ¬ P j) : RunsFrom P n i []
  | cons {i a b : ℕ} {l : List (ℕ × ℕ)} (hle : i ≤ a) (hgap : ∀ j, i ≤ j → j < a → ¬ P j) (hlt : a < b)
      (hend : b ≤ n) (hall : ∀ j, a ≤ j → j < b → P j) (hright : b = n ∨ ¬ P b) (hrest : RunsFrom P n b l) :
      RunsFrom P n i ((a, b) :: l)

/-- With no run, `P` holds nowhere. -/
theorem RunsFrom.gap {i : ℕ} (h : RunsFrom P n i []) {j : ℕ} (hlo : i ≤ j) (hhi : j < n) : ¬ P j := by
  cases h with
  | nil hgap => exact hgap j hlo hhi

/-- Positions without `P` may be put in front. -/
theorem RunsFrom.extend {i i' : ℕ} {l : List (ℕ × ℕ)} (h : RunsFrom P n i' l) (hle : i ≤ i')
    (hgap : ∀ j, i ≤ j → j < i' → ¬ P j) : RunsFrom P n i l := by
  cases h with
  | nil hrest =>
    refine .nil fun j hlo hhi => ?_
    by_cases hj : j < i'
    · exact hgap j hlo hj
    · exact hrest j (by omega) hhi
  | cons hle' hgap' hlt hend hall hright hrest =>
    refine .cons (by omega) (fun j hlo hhi => ?_) hlt hend hall hright hrest
    by_cases hj : j < i'
    · exact hgap j hlo hj
    · exact hgap' j (by omega) hhi

/-- One position without `P` may be put in front. -/
theorem RunsFrom.skip {i : ℕ} {l : List (ℕ × ℕ)} (h : RunsFrom P n (i + 1) l) (hi : ¬ P i) : RunsFrom P n i l := by
  refine h.extend (Nat.le_succ i) fun j hlo hhi => ?_
  obtain rfl : j = i := by omega
  exact hi

/-- A run that reaches `i` ends at `b`, and the list has the runs from there on. -/
structure OpenRun (P : ℕ → Prop) (n i b : ℕ) (l : List (ℕ × ℕ)) : Prop where
  le : i ≤ b
  end_le : b ≤ n
  all : ∀ j, i ≤ j → j < b → P j
  right : b = n ∨ ¬ P b
  rest : RunsFrom P n b l

theorem OpenRun.done : OpenRun P n n n [] where
  le := le_rfl
  end_le := le_rfl
  all := fun _ hlo hhi => absurd hlo hhi.not_ge
  right := .inl rfl
  rest := .nil fun _ hlo hhi => absurd hlo hhi.not_ge

theorem OpenRun.extend {i b : ℕ} {l : List (ℕ × ℕ)} (h : OpenRun P n (i + 1) b l) (hi : P i) :
    OpenRun P n i b l where
  le := (Nat.le_succ i).trans h.le
  end_le := h.end_le
  all := fun j hlo hhi => by
    rcases Nat.eq_or_lt_of_le hlo with rfl | hlt
    · exact hi
    · exact h.all j hlt hhi
  right := h.right
  rest := h.rest

/-- A position without `P` ends the run. -/
theorem RunsFrom.openRun {i : ℕ} {l : List (ℕ × ℕ)} (h : RunsFrom P n (i + 1) l) (hle : i ≤ n) (hi : ¬ P i) :
    OpenRun P n i i l where
  le := le_rfl
  end_le := hle
  all := fun _ hlo hhi => absurd hlo hhi.not_ge
  right := .inr hi
  rest := h.skip hi

/-- A position with `P` opens a run. -/
theorem OpenRun.runsFrom {i b : ℕ} {l : List (ℕ × ℕ)} (h : OpenRun P n (i + 1) b l) (hi : P i) :
    RunsFrom P n i ((i, b) :: l) :=
  .cons le_rfl (fun _ hlo hhi => absurd hlo hhi.not_ge) h.le h.end_le (h.extend hi).all h.right h.rest

theorem RunsFrom.congr {i : ℕ} {l : List (ℕ × ℕ)} (h : RunsFrom P n i l)
    (hiff : ∀ j, i ≤ j → j < n → (P' j ↔ P j)) : RunsFrom P' n i l := by
  induction h with
  | nil hgap => exact .nil fun j hlo hhi hP => hgap j hlo hhi ((hiff j hlo hhi).mp hP)
  | @cons i a b l hle hgap hlt hend hall hright _ ih =>
    have hright' : b = n ∨ ¬ P' b := by
      rcases Nat.lt_or_ge b n with hb | hb
      · refine .inr fun hP => ?_
        rcases hright with heq | hnot
        · omega
        · exact hnot ((hiff b (by omega) hb).mp hP)
      · exact .inl (by omega)
    refine .cons hle (fun j hlo hhi hP => ?_) hlt hend (fun j hlo hhi => ?_) hright' (ih fun j hlo hhi => ?_)
    · exact hgap j hlo hhi ((hiff j hlo (by omega)).mp hP)
    · exact (hiff j (by omega) (by omega)).mpr (hall j hlo hhi)
    · exact hiff j (by omega) hhi

/-- The runs come one after the other, with at least one position between them. -/
theorem RunsFrom.pairwise {i : ℕ} {l : List (ℕ × ℕ)} (h : RunsFrom P n i l) :
    l.Pairwise (fun r s => r.2 < s.1) ∧ ∀ r ∈ l, i ≤ r.1 ∧ r.1 < r.2 ∧ r.2 ≤ n ∧
      ∀ j, r.1 ≤ j → j < r.2 → P j := by
  induction h with
  | nil _ => simp
  | @cons i a b l hle hgap hlt hend hall hright _ ih =>
    obtain ⟨hpair, hmem⟩ := ih
    refine ⟨List.pairwise_cons.mpr ⟨fun s hs => ?_, hpair⟩, ?_⟩
    · obtain ⟨hlo, hpos, hhi, hP⟩ := hmem s hs
      have hne : s.1 ≠ b := by
        intro heq
        rcases hright with hb | hnot
        · omega
        · exact hnot (hP b (by omega) (by omega))
      change b < s.1
      omega
    · rintro r (_ | ⟨_, hr⟩)
      · exact ⟨hle, hlt, hend, hall⟩
      · obtain ⟨hlo, hrest⟩ := hmem r hr
        exact ⟨by omega, hrest⟩

/-- Where `P` holds, there is a run. -/
theorem RunsFrom.exists_mem {i j : ℕ} {l : List (ℕ × ℕ)} (h : RunsFrom P n i l) (hlo : i ≤ j) (hhi : j < n)
    (hP : P j) : ∃ r ∈ l, r.1 ≤ j ∧ j < r.2 := by
  induction h with
  | nil hgap => exact absurd hP (hgap j hlo hhi)
  | @cons i a b l hle hgap hlt hend hall hright hrest ih =>
    rcases Nat.lt_or_ge j a with hja | hja
    · exact absurd hP (hgap j hlo hja)
    · rcases Nat.lt_or_ge j b with hjb | hjb
      · exact ⟨(a, b), List.mem_cons_self, hja, hjb⟩
      · obtain ⟨r, hr, hin⟩ := ih hjb
        exact ⟨r, List.mem_cons_of_mem _ hr, hin⟩

/-- From a position outside any run, the list has all maximal runs and nothing else. -/
theorem RunsFrom.mem_iff {i a' b' : ℕ} {l : List (ℕ × ℕ)} (h : RunsFrom P n i l)
    (hstart : i = 0 ∨ i = n ∨ ¬ P i) : (a', b') ∈ l ↔ i ≤ a' ∧ Maximal P n a' b' := by
  induction h with
  | nil hgap =>
    refine iff_of_false (by simp) ?_
    rintro ⟨hle, hmax⟩
    have hlt := hmax.lt
    have hend := hmax.le
    exact hgap a' hle (by omega) (hmax.all a' (le_refl a') hmax.lt)
  | @cons i a b l hle hgap hlt hend hall hright _ ih =>
    have hleft : a = 0 ∨ ¬ P (a - 1) := by
      rcases Nat.eq_or_lt_of_le hle with heq | hia
      · subst heq
        rcases hstart with hzero | hn | hnot
        · exact .inl hzero
        · omega
        · exact absurd (hall i (le_refl i) hlt) hnot
      · exact .inr (hgap (a - 1) (by omega) (by omega))
    have hrest := ih (.inr hright)
    rw [List.mem_cons, hrest, Prod.mk.injEq]
    constructor
    · rintro (⟨rfl, rfl⟩ | ⟨hba, hmax⟩)
      · exact ⟨hle, hlt, hend, hall, hleft, hright⟩
      · exact ⟨by omega, hmax⟩
    · rintro ⟨hia, hmax⟩
      have hPa := hmax.all a' (le_refl a') hmax.lt
      have hlt' := hmax.lt
      have hend' := hmax.le
      have haa : a ≤ a' := by
        by_contra hlt''
        exact hgap a' hia (by omega) hPa
      rcases Nat.lt_or_ge a' b with hab | hba
      · -- the run starts inside the first one, so it is the first one
        have heq : a' = a := by
          by_contra hne
          rcases hmax.left with hzero | hnot
          · omega
          · exact hnot (hall (a' - 1) (by omega) (by omega))
        subst heq
        refine .inl ⟨rfl, ?_⟩
        by_contra hne
        rcases Nat.lt_or_ge b' b with hbb | hbb
        · rcases hmax.right with hn | hnot
          · omega
          · exact hnot (hall b' (by omega) hbb)
        · rcases hright with hn | hnot
          · omega
          · exact hnot (hmax.all b (by omega) (by omega))
      · exact .inr ⟨hba, hmax⟩

/-- There is one list of maximal runs. -/
theorem RunsFrom.unique {i : ℕ} {l l' : List (ℕ × ℕ)} (h : RunsFrom P n i l) (h' : RunsFrom P n i l') :
    l = l' := by
  induction h generalizing l' with
  | nil hgap =>
    cases h' with
    | nil _ => rfl
    | cons hle' _ hlt' hend' hall' _ _ =>
      exact absurd (hall' _ (le_refl _) hlt') (hgap _ hle' (by omega))
  | @cons i a b l hle hgap hlt hend hall hright _ ih =>
    cases h' with
    | nil hgap' => exact absurd (hall a (le_refl a) hlt) (hgap' a hle (by omega))
    | @cons _ a' b' l' hle' hgap' hlt' hend' hall' hright' hrest' =>
      have ha : a' = a := by
        rcases Nat.lt_trichotomy a' a with hlt'' | heq | hgt
        · exact absurd (hall' a' (le_refl a') hlt') (hgap a' hle' hlt'')
        · exact heq
        · exact absurd (hall a (le_refl a) hlt) (hgap' a hle hgt)
      subst ha
      have hb : b' = b := by
        rcases Nat.lt_trichotomy b' b with hlt'' | heq | hgt
        · refine absurd (hall b' (by omega) hlt'') (hright'.resolve_left (by omega))
        · exact heq
        · refine absurd (hall' b (by omega) hgt) (hright.resolve_left (by omega))
      subst hb
      rw [ih hrest']

/-- The number of maximal runs is the length of the list. -/
theorem RunsFrom.ncard {l : List (ℕ × ℕ)} (h : RunsFrom P n 0 l) :
    {r : ℕ × ℕ | Maximal P n r.1 r.2}.ncard = l.length := by
  have hset : {r : ℕ × ℕ | Maximal P n r.1 r.2} = ↑l.toFinset := by
    ext ⟨a, b⟩
    rw [List.coe_toFinset]
    change Maximal P n a b ↔ (a, b) ∈ l
    rw [h.mem_iff (.inl rfl)]
    simp
  have hnodup : l.Nodup := by
    refine h.pairwise.1.imp_of_mem fun {r s} hr _ hrs heq => ?_
    have hlt := (h.pairwise.2 r hr).2.1
    rw [← heq] at hrs
    omega
  rw [hset, Set.ncard_coe_finset, List.toFinset_card_of_nodup hnodup]

/-- Clearing the first `k` runs leaves the others. -/
theorem RunsFrom.drop {i : ℕ} {l : List (ℕ × ℕ)} (h : RunsFrom P n i l) (k : ℕ)
    (hP' : ∀ j, i ≤ j → j < n → (P' j ↔ P j ∧ ∀ r ∈ l.take k, ¬ (r.1 ≤ j ∧ j < r.2))) :
    RunsFrom P' n i (l.drop k) := by
  induction h generalizing k with
  | nil hgap =>
    rw [List.drop_nil]
    exact .nil fun j hlo hhi hj => hgap j hlo hhi ((hP' j hlo hhi).mp hj).1
  | @cons i a b l hle hgap hlt hend hall hright hrest ih =>
    cases k with
    | zero =>
      rw [List.drop_zero]
      refine (RunsFrom.cons hle hgap hlt hend hall hright hrest).congr fun j hlo hhi => ?_
      rw [hP' j hlo hhi]
      simp
    | succ k =>
      rw [List.drop_succ_cons]
      refine (ih k fun j hlo hhi => ?_).extend (by omega) fun j hlo hhi hj => ?_
      · rw [hP' j (by omega) hhi, List.take_succ_cons]
        refine and_congr_right fun _ => ⟨fun hall' r hr => hall' r (List.mem_cons_of_mem _ hr), ?_⟩
        rintro hall' r (_ | ⟨_, hr⟩)
        · change ¬ (a ≤ j ∧ j < b)
          omega
        · exact hall' r hr
      · obtain ⟨hPj, hout⟩ := (hP' j hlo (by omega)).mp hj
        have hnot := hout (a, b) (by rw [List.take_succ_cons]; exact List.mem_cons_self)
        rcases Nat.lt_or_ge j a with hja | hja
        · exact hgap j hlo hja hPj
        · exact hnot ⟨hja, hhi⟩

end Runs
