import Mathlib.Algebra.Order.Group.Defs
import Mathlib.Data.List.Pairwise
import Mathlib.Data.List.SplitBy
import Mathlib.Order.Basic

namespace Gaps

section Intervals

variable {α : Type*}

/-- The pairs of neighbours of a list. -/
def intervals (l : List α) : List (α × α) := l.zip l.tail

theorem intervals_cons_cons (a b : α) (l : List α) :
    intervals (a :: b :: l) = (a, b) :: intervals (b :: l) := rfl

variable [LinearOrder α] {l : List α}

/-- The neighbours of a non-decreasing list are members of it with no member strictly between. -/
theorem between_of_mem_intervals (hl : l.Pairwise (· ≤ ·)) {i : α × α} (hi : i ∈ intervals l) :
    i.1 ∈ l ∧ i.2 ∈ l ∧ i.1 ≤ i.2 ∧ ∀ t ∈ l, t ≤ i.1 ∨ i.2 ≤ t := by
  induction l with
  | nil => cases hi
  | cons a l ih =>
    cases l with
    | nil => cases hi
    | cons b l =>
      obtain ⟨hle, hrest⟩ := List.pairwise_cons.mp hl
      rw [intervals_cons_cons, List.mem_cons] at hi
      rcases hi with rfl | hi
      · refine ⟨List.mem_cons_self, List.mem_cons_of_mem a List.mem_cons_self, hle b List.mem_cons_self, ?_⟩
        rintro t (_ | ⟨_, ht⟩)
        · exact .inl le_rfl
        · rcases List.mem_cons.mp ht with rfl | ht
          · exact .inr le_rfl
          · exact .inr ((List.pairwise_cons.mp hrest).1 t ht)
      · obtain ⟨hfst, hsnd, hstep, hout⟩ := ih hrest hi
        refine ⟨List.mem_cons_of_mem a hfst, List.mem_cons_of_mem a hsnd, hstep, ?_⟩
        rintro t (_ | ⟨_, ht⟩)
        · exact .inl (hle i.1 hfst)
        · exact hout t ht

/-- Each pair of neighbours starts where the one before it has ended, or later. -/
theorem pairwise_intervals (hl : l.Pairwise (· ≤ ·)) : (intervals l).Pairwise fun i j => i.2 ≤ j.1 := by
  induction l with
  | nil => exact .nil
  | cons a l ih =>
    cases l with
    | nil => exact .nil
    | cons b l =>
      obtain ⟨-, hrest⟩ := List.pairwise_cons.mp hl
      rw [intervals_cons_cons, List.pairwise_cons]
      refine ⟨fun j hj => ?_, ih hrest⟩
      have hmem := (between_of_mem_intervals hrest hj).1
      rcases List.mem_cons.mp hmem with heq | hmem
      · exact heq.ge
      · exact (List.pairwise_cons.mp hrest).1 j.1 hmem

end Intervals

section SplitBy

variable {α : Type*} {r : α → α → Bool} {l : List α} {a : α}

/-- Two different members are related one way or the other. -/
theorem rel_or_rel {R : α → α → Prop} (hl : l.Pairwise R) {a b : α} (ha : a ∈ l) (hb : b ∈ l) (hne : a ≠ b) :
    R a b ∨ R b a := by
  have : Std.Symm fun a b => R a b ∨ R b a := ⟨fun _ _ => Or.symm⟩
  exact (hl.imp (S := fun a b => R a b ∨ R b a) Or.inl).forall ha hb hne

/-- One more item starts a group of its own. -/
theorem splitBy_concat_of_not (hnot : ∀ x ∈ l.getLast?, r x a = false) :
    (l ++ [a]).splitBy r = l.splitBy r ++ [[a]] :=
  List.splitBy_append_cons [] hnot

/-- One more item joins the last group. -/
theorem splitBy_concat {gs : List (List α)} {g : List α} {x : α} (hsplit : l.splitBy r = gs ++ [g])
    (hx : x ∈ l.getLast?) (hr : r x a = true) : (l ++ [a]).splitBy r = gs ++ [g ++ [a]] := by
  obtain ⟨hflat, hnil, hchain, hbreak⟩ := List.splitBy_eq_iff.mp hsplit
  have hg : g ≠ [] := by
    rintro rfl
    simp at hnil
  have hlast : g.getLast hg = x := by
    rw [hflat, List.flatten_append, List.flatten_singleton, List.getLast?_append_of_ne_nil _ hg,
      List.getLast?_eq_getLast_of_ne_nil hg] at hx
    exact Option.some.inj hx
  rw [List.splitBy_eq_iff]
  refine ⟨?_, ?_, ?_, ?_⟩
  · simp [hflat]
  · simp only [List.mem_append, List.mem_singleton, not_or] at hnil ⊢
    exact ⟨hnil.1, by simp⟩
  · intro m hm
    rcases List.mem_append.mp hm with hm | hm
    · exact hchain m (List.mem_append_left _ hm)
    · obtain rfl := List.mem_singleton.mp hm
      rw [List.isChain_append]
      refine ⟨hchain g (List.mem_append_right _ (List.mem_singleton_self g)), List.isChain_singleton a, ?_⟩
      intro y hy b hb
      rw [List.getLast?_eq_getLast_of_ne_nil hg, hlast] at hy
      obtain rfl := Option.some.inj hy
      obtain rfl := Option.some.inj hb
      exact hr
  · rw [List.isChain_append] at hbreak ⊢
    refine ⟨hbreak.1, List.isChain_singleton _, ?_⟩
    intro m hm m' hm'
    obtain rfl := Option.some.inj hm'
    obtain ⟨ha, hb, hfalse⟩ := hbreak.2.2 m hm g rfl
    refine ⟨ha, by simp, ?_⟩
    rwa [List.head_append_of_ne_nil hb]

end SplitBy

section Near

variable {α K : Type*} [AddCommGroup K] [LinearOrder K] [IsOrderedAddMonoid K]

/-- The key of `y` is at most `gap` above that of `x`. -/
def near (f : α → K) (gap : K) (x y : α) : Bool := f y - f x ≤ gap

variable {f : α → K} {gap t : K} {l l' g : List α}

/-- Over a chain of near items no key stays behind by more than the gap. -/
theorem exists_near (hsorted : g.Pairwise (f · ≤ f ·)) (hchain : g.IsChain (near f gap · ·))
    {x y : α} (hx : x ∈ g) (hy : y ∈ g) (hlo : f x ≤ t) (hhi : t < f y) :
    ∃ v ∈ g, t < f v ∧ f v ≤ t + gap := by
  induction g generalizing x with
  | nil => cases hx
  | cons a g ih =>
    obtain ⟨hle, hrest⟩ := List.pairwise_cons.mp hsorted
    have ha : f a ≤ t := by
      rcases List.mem_cons.mp hx with rfl | hx
      · exact hlo
      · exact (hle x hx).trans hlo
    have hy' : y ∈ g := by
      rcases List.mem_cons.mp hy with rfl | hy
      · exact absurd ha hhi.not_ge
      · exact hy
    cases g with
    | nil => cases hy'
    | cons b g =>
      obtain ⟨hab, hchain'⟩ := List.isChain_cons_cons.mp hchain
      rcases lt_or_ge t (f b) with hb | hb
      · have hstep : f b ≤ f a + gap := sub_le_iff_le_add'.mp (of_decide_eq_true hab)
        exact ⟨b, by simp, hb, hstep.trans (add_le_add_left ha gap)⟩
      · obtain ⟨v, hv, hvt⟩ := ih hrest hchain' List.mem_cons_self hy' hb
        exact ⟨v, List.mem_cons_of_mem a hv, hvt⟩

/-- Between two groups there is a key that no other follows within the gap. -/
theorem pairwise_break {gs : List (List α)} (hnil : [] ∉ gs) (hsorted : gs.flatten.Pairwise (f · ≤ f ·))
    (hbreak : gs.IsChain fun g h => ∃ hg hh, near f gap (g.getLast hg) (h.head hh) = false) :
    gs.Pairwise fun g h => ∀ x ∈ g, ∀ y ∈ h, ∃ z ∈ gs.flatten, f x ≤ f z ∧ f z + gap < f y ∧
      ∀ w ∈ gs.flatten, f w ≤ f z ∨ f z + gap < f w := by
  induction gs with
  | nil => exact .nil
  | cons g gs ih =>
    rw [List.flatten_cons, List.pairwise_append] at hsorted
    obtain ⟨hg, hgs, hcross⟩ := hsorted
    have hnil' : [] ∉ gs := fun h => hnil (List.mem_cons_of_mem g h)
    simp only [List.flatten_cons, List.mem_append]
    refine List.pairwise_cons.mpr ⟨?_, ?_⟩
    · intro h hh x hx y hy
      have hne : g ≠ [] := List.ne_nil_of_mem hx
      have hlast : ∀ w ∈ g, f w ≤ f (g.getLast hne) := fun w hw => hg.rel_getLast hw
      have hlater : ∀ w ∈ gs.flatten, f (g.getLast hne) + gap < f w := by
        cases gs with
        | nil => cases hh
        | cons h₀ gs =>
          obtain ⟨⟨hg', hh₀, hfar⟩, -⟩ := List.isChain_cons_cons.mp hbreak
          have hfar' : f (g.getLast hne) + gap < f (h₀.head hh₀) := by
            rw [near, decide_eq_false_iff_not, not_le] at hfar
            exact lt_sub_iff_add_lt'.mp hfar
          intro w hw
          have hhead : (h₀ :: gs).flatten.head (List.ne_nil_of_mem hw) = h₀.head hh₀ := by
            simp [List.head_append_of_ne_nil, hh₀]
          have hle := hgs.rel_head hw
          rw [hhead] at hle
          exact hfar'.trans_le hle
      refine ⟨g.getLast hne, .inl (List.getLast_mem hne), hlast x hx,
        hlater y (List.mem_flatten_of_mem hh hy), ?_⟩
      rintro w (hw | hw)
      · exact .inl (hlast w hw)
      · exact .inr (hlater w hw)
    · refine (ih hnil' hgs hbreak.tail).imp fun {h k} hhk x hx y hy => ?_
      obtain ⟨z, hz, hxz, hzy, hall⟩ := hhk x hx y hy
      refine ⟨z, .inr hz, hxz, hzy, ?_⟩
      rintro w (hw | hw)
      · exact .inl (hcross w hw z hz)
      · exact hall w hw

/-- Later groups have greater keys. -/
theorem pairwise_lt (hgap : 0 ≤ gap) (hsorted : l.Pairwise (f · ≤ f ·)) :
    (l.splitBy (near f gap)).Pairwise fun g h => ∀ x ∈ g, ∀ y ∈ h, f x < f y := by
  obtain ⟨hflat, hnil, -, hbreak⟩ := List.splitBy_eq_iff.mp (Eq.refl (l.splitBy (near f gap)))
  rw [hflat] at hsorted
  refine (pairwise_break hnil hsorted hbreak).imp fun {g h} hgh x hx y hy => ?_
  obtain ⟨z, -, hxz, hzy, -⟩ := hgh x hx y hy
  exact (hxz.trans (le_add_of_nonneg_right hgap)).trans_lt hzy

omit [AddCommGroup K] [IsOrderedAddMonoid K] in
/-- Groups apart are told by their keys. -/
theorem filter_flatten_eq {gs : List (List α)} (hapart : gs.Pairwise fun g h => ∀ x ∈ g, ∀ y ∈ h, f x < f y)
    (hg : g ∈ gs) : gs.flatten.filter (fun x => f x ∈ g.map f) = g := by
  induction gs with
  | nil => cases hg
  | cons h gs ih =>
    obtain ⟨hlt, hrest⟩ := List.pairwise_cons.mp hapart
    rw [List.flatten_cons, List.filter_append]
    rcases List.mem_cons.mp hg with rfl | hg
    · have hself : g.filter (fun x => f x ∈ g.map f) = g := by
        rw [List.filter_eq_self]
        exact fun x hx => decide_eq_true (List.mem_map_of_mem hx)
      have hnone : gs.flatten.filter (fun x => f x ∈ g.map f) = [] := by
        rw [List.filter_eq_nil_iff]
        intro y hy hmem
        obtain ⟨h, hh, hy⟩ := List.mem_flatten.mp hy
        obtain ⟨x, hx, heq⟩ := List.mem_map.mp (of_decide_eq_true hmem)
        exact (hlt h hh x hx y hy).ne heq
      rw [hself, hnone, List.append_nil]
    · have hnone : h.filter (fun x => f x ∈ g.map f) = [] := by
        rw [List.filter_eq_nil_iff]
        intro x hx hmem
        obtain ⟨y, hy, heq⟩ := List.mem_map.mp (of_decide_eq_true hmem)
        exact (hlt g hg x hx y hy).ne' heq
      rw [hnone, List.nil_append, ih hrest hg]

omit [IsOrderedAddMonoid K] in
/-- Splitting looks at the keys only. -/
theorem map_splitBy_near (l : List α) :
    (l.splitBy (near f gap)).map (List.map f) = (l.map f).splitBy (near id gap) := by
  obtain ⟨hflat, hnil, hchain, hbreak⟩ := List.splitBy_eq_iff.mp (Eq.refl (l.splitBy (near f gap)))
  symm
  rw [List.splitBy_eq_iff]
  refine ⟨?_, ?_, ?_, ?_⟩
  · rw [← List.map_flatten, ← hflat]
  · simp
  · intro m hm
    obtain ⟨g, hg, rfl⟩ := List.mem_map.mp hm
    rw [List.isChain_map]
    exact hchain g hg
  · rw [List.isChain_map]
    refine hbreak.imp fun g h => ?_
    rintro ⟨hg, hh, hfalse⟩
    refine ⟨by simpa using hg, by simpa using hh, ?_⟩
    rw [List.getLast_map, List.head_map]
    exact hfalse

/-- Two sorted arrangements of the same items split into the same groups, up to their order. -/
theorem forall₂_perm_splitBy (hgap : 0 ≤ gap) (hperm : l.Perm l') (hsorted : l.Pairwise (f · ≤ f ·))
    (hsorted' : l'.Pairwise (f · ≤ f ·)) :
    List.Forall₂ List.Perm (l.splitBy (near f gap)) (l'.splitBy (near f gap)) := by
  have hkeys : l.map f = l'.map f := by
    refine (hperm.map f).eq_of_pairwise (fun a b _ _ => le_antisymm) ?_ ?_
    · exact List.pairwise_map.mpr hsorted
    · exact List.pairwise_map.mpr hsorted'
  have hgroups : (l.splitBy (near f gap)).map (List.map f) = (l'.splitBy (near f gap)).map (List.map f) := by
    rw [map_splitBy_near, map_splitBy_near, hkeys]
  have hsame : List.Forall₂ (fun g g' => g.map f = g'.map f) (l.splitBy (near f gap)) (l'.splitBy (near f gap)) := by
    rw [← List.forall₂_eq_eq_eq, List.forall₂_map_left_iff, List.forall₂_map_right_iff] at hgroups
    exact hgroups
  obtain ⟨hlen, hzip⟩ := List.forall₂_iff_zip.mp hsame
  rw [List.forall₂_iff_zip]
  refine ⟨hlen, fun {g g'} hgg' => ?_⟩
  obtain ⟨hg, hg'⟩ := List.of_mem_zip hgg'
  have hleft := filter_flatten_eq (pairwise_lt hgap hsorted) hg
  have hright := filter_flatten_eq (pairwise_lt hgap hsorted') hg'
  rw [List.flatten_splitBy] at hleft hright
  rw [← hleft, ← hright, hzip hgg']
  exact hperm.filter _

end Near

end Gaps
