import Mathlib.Algebra.GroupWithZero.Nat
import Mathlib.Algebra.Order.BigOperators.Group.List
import Mathlib.Algebra.Order.Group.Nat
import Mathlib.Data.List.TakeDrop
import Mathlib.Data.Set.Lattice
import Mathlib.Order.CompletePartialOrder
import Mathlib.Order.Interval.Set.Basic
import Mathlib.Order.Nat

namespace Tiling

variable {α : Type*}

/-- Where tile `b` of `total` items cut into tiles of `size` ends. -/
def stop (size total b : ℕ) : ℕ := min ((b + 1) * size) total

/-- Tile `b` of a list of `total` items. -/
def tile (size total : ℕ) (l : List α) (b : ℕ) : List α :=
  (l.drop (b * size)).take (stop size total b - b * size)

variable {size total : ℕ} {l l' : List α}

/-- A position lies in the tile of its quotient. -/
theorem mem_tile_iff {i b : ℕ} (hsize : 0 < size) (hi : i < total) :
    b * size ≤ i ∧ i < stop size total b ↔ b = i / size := by
  rw [stop, Nat.lt_min, eq_comm (b := i / size), Nat.div_eq_iff hsize, Nat.add_mul, Nat.one_mul]
  omega

theorem div_lt_count {i : ℕ} (hsize : 0 < size) (hi : i < total) :
    i / size < (total + size - 1) / size := by
  rw [Nat.lt_iff_add_one_le, Nat.le_div_iff_mul_le hsize, Nat.add_mul, Nat.one_mul]
  have h := Nat.div_mul_le_self i size
  omega

/-- Every tile of the count starts inside the list. -/
theorem start_lt_total {b : ℕ} (hsize : 0 < size) (hb : b < (total + size - 1) / size) :
    b * size < total := by
  rw [Nat.lt_iff_add_one_le, Nat.le_div_iff_mul_le hsize, Nat.add_mul, Nat.one_mul] at hb
  omega

/-- The positions of tile `b`. -/
def span (size total b : ℕ) : Set ℕ := Set.Ico (b * size) (stop size total b)

theorem mem_span_iff {i b : ℕ} (hsize : 0 < size) : i ∈ span size total b ↔ i < total ∧ b = i / size := by
  constructor
  · intro hi
    have hlt : i < total := hi.2.trans_le (Nat.min_le_right _ _)
    exact ⟨hlt, (mem_tile_iff hsize hlt).mp hi⟩
  · rintro ⟨hlt, hb⟩
    exact (mem_tile_iff hsize hlt).mpr hb

theorem span_nonempty {b : ℕ} (hsize : 0 < size) (hb : b < (total + size - 1) / size) :
    (span size total b).Nonempty :=
  ⟨b * size, (mem_span_iff hsize).mpr ⟨start_lt_total hsize hb, (Nat.mul_div_cancel b hsize).symm⟩⟩

theorem disjoint_span {b c : ℕ} (hsize : 0 < size) (hne : b ≠ c) :
    Disjoint (span size total b) (span size total c) := by
  rw [Set.disjoint_left]
  intro i hb hc
  obtain ⟨-, rfl⟩ := (mem_span_iff hsize).mp hb
  obtain ⟨-, rfl⟩ := (mem_span_iff hsize).mp hc
  exact hne rfl

/-- The tiles of the count leave no position out. -/
theorem iUnion_span (hsize : 0 < size) :
    ⋃ b ∈ Set.Iio ((total + size - 1) / size), span size total b = Set.Iio total := by
  ext i
  simp only [Set.mem_iUnion, exists_prop, Set.mem_Iio, mem_span_iff hsize]
  constructor
  · rintro ⟨b, -, hi, -⟩
    exact hi
  · intro hi
    exact ⟨i / size, div_lt_count hsize hi, hi, rfl⟩

/-- An item is found in the tile of its position. -/
theorem getElem?_tile {i : ℕ} (hsize : 0 < size) (hi : i < total) :
    (tile size total l (i / size))[i - i / size * size]? = l[i]? := by
  obtain ⟨hlo, hhi⟩ := (mem_tile_iff hsize hi).mpr rfl
  rw [tile, List.getElem?_take, if_pos (by omega), List.getElem?_drop]
  congr 1
  omega

/-- Two lists with the same tiles are the same. -/
theorem ext_tile (hsize : 0 < size) (hlen : l.length = total) (hlen' : l'.length = total)
    (h : ∀ b < (total + size - 1) / size, tile size total l b = tile size total l' b) : l = l' := by
  apply List.ext_getElem?
  intro i
  by_cases hi : i < total
  · rw [← getElem?_tile hsize hi, ← getElem?_tile hsize hi, h (i / size) (div_lt_count hsize hi)]
  · rw [List.getElem?_eq_none (by omega), List.getElem?_eq_none (by omega)]

/-- A tile only depends on the items of its range. -/
theorem tile_congr {b : ℕ} (h : ∀ i, b * size ≤ i → i < stop size total b → l[i]? = l'[i]?) :
    tile size total l b = tile size total l' b := by
  apply List.ext_getElem?
  intro j
  rw [tile, tile, List.getElem?_take, List.getElem?_take]
  split_ifs with hj
  · rw [List.getElem?_drop, List.getElem?_drop]
    exact h _ (by omega) (by omega)
  · rfl

/-- A property of whole tiles only begins to hold where a tile starts. -/
theorem dvd_of_change {P : ℕ → Prop} (htile : ∀ i j, i / size = j / size → P i → P j) {a : ℕ} (hpos : 0 < a)
    (hat : P a) (hbefore : ¬ P (a - 1)) : size ∣ a := by
  obtain ⟨c, rfl⟩ : ∃ c, a = c + 1 := ⟨a - 1, by omega⟩
  by_contra hnot
  exact hbefore (htile _ _ (Nat.succ_div_of_not_dvd hnot) hat)

/-- A tile that starts before another boundary ends before it, too. -/
theorem stop_le_of_dvd {b e : ℕ} (hlt : b * size < e) (he : size ∣ e ∨ e = total) (hle : e ≤ total) :
    min size (e - b * size) = stop size total b - b * size := by
  have hstep : (b + 1) * size = b * size + size := by rw [Nat.add_mul, Nat.one_mul]
  rw [stop, hstep]
  rcases he with ⟨c, rfl⟩ | rfl
  · have hc : b + 1 ≤ c := by
      by_contra hlt'
      have hmul : size * c ≤ b * size := by
        rw [Nat.mul_comm size c]
        exact Nat.mul_le_mul_right _ (by omega)
      omega
    have hmul : (b + 1) * size ≤ size * c := by
      rw [Nat.mul_comm size c]
      exact Nat.mul_le_mul_right _ hc
    rw [hstep] at hmul
    omega
  · omega

/-- Pieces, by offset and length, that cut up the positions from `a` to `b` in order. -/
inductive Pieces : ℕ → ℕ → List (ℕ × ℕ) → Prop
  | nil (a : ℕ) : Pieces a a []
  | cons {a b n : ℕ} {cs : List (ℕ × ℕ)} (hpos : 0 < n) (hrest : Pieces (a + n) b cs) :
      Pieces a b ((a, n) :: cs)

section Pieces

variable {a b i : ℕ} {cs : List (ℕ × ℕ)}

theorem Pieces.le (h : Pieces a b cs) : a ≤ b := by
  induction h with
  | nil => exact le_rfl
  | cons hpos _ ih => omega

theorem Pieces.inside (h : Pieces a b cs) : ∀ c ∈ cs, a ≤ c.1 ∧ 0 < c.2 ∧ c.1 + c.2 ≤ b := by
  induction h with
  | nil => simp
  | @cons a b n cs hpos hrest ih =>
    rintro c (_ | ⟨_, hc⟩)
    · exact ⟨le_rfl, hpos, hrest.le⟩
    · obtain ⟨hlo, hlen, hhi⟩ := ih c hc
      exact ⟨by omega, hlen, hhi⟩

theorem Pieces.countP_before (h : Pieces a b cs) (hi : i < a) :
    cs.countP (fun c => c.1 ≤ i ∧ i < c.1 + c.2) = 0 := by
  rw [List.countP_eq_zero]
  intro c hc
  have hlo := (h.inside c hc).1
  simp only [decide_eq_true_eq]
  omega

/-- Every position is in exactly one piece. -/
theorem Pieces.countP_eq_one (h : Pieces a b cs) (hlo : a ≤ i) (hhi : i < b) :
    cs.countP (fun c => c.1 ≤ i ∧ i < c.1 + c.2) = 1 := by
  induction h with
  | nil => omega
  | @cons a b n cs hpos hrest ih =>
    rw [List.countP_cons]
    by_cases hin : i < a + n
    · rw [hrest.countP_before hin, if_pos (by simp [hlo, hin])]
    · rw [ih (by omega) hhi, if_neg (by simp [hin])]

/-- The pieces are together as long as what they cut up. -/
theorem Pieces.sum_length (h : Pieces a b cs) : a + (cs.map Prod.snd).sum = b := by
  induction h with
  | nil => rfl
  | @cons a b n cs _ _ ih =>
    rw [List.map_cons, List.sum_cons]
    omega

end Pieces

/-- Leaving items out of a list makes it lighter, unless nothing is left out. -/
theorem eq_of_sublist_of_sum_le {f : α → ℕ} (h : List.Sublist l l') (hpos : ∀ a ∈ l', 0 < f a)
    (hsum : (l'.map f).sum ≤ (l.map f).sum) : l = l' := by
  induction h with
  | slnil => rfl
  | @cons l l' a hrest ih =>
    have ha := hpos a List.mem_cons_self
    have hle : (l.map f).sum ≤ (l'.map f).sum := (hrest.map f).sum_le_sum fun _ _ => Nat.zero_le _
    rw [List.map_cons, List.sum_cons] at hsum
    omega
  | @cons_cons l l' a hrest ih =>
    rw [List.map_cons, List.map_cons, List.sum_cons, List.sum_cons] at hsum
    rw [ih (fun b hb => hpos b (List.mem_cons_of_mem a hb)) (by omega)]

end Tiling
