import Mathlib.Data.List.TakeDrop
import Mathlib.Order.Nat

namespace Overlay

variable {α : Type*}

/-- A run of items written from an offset on. -/
structure Write (α : Type*) where
  offset : ℕ
  items : List α

def Write.Covers (w : Write α) (i : ℕ) : Prop :=
  w.offset ≤ i ∧ i < w.offset + w.items.length

instance (w : Write α) (i : ℕ) : Decidable (w.Covers i) :=
  inferInstanceAs (Decidable (_ ∧ _))

/-- The item a write puts at a position. -/
def Write.itemAt (w : Write α) (i : ℕ) : Option α :=
  if w.offset ≤ i then w.items[i - w.offset]? else none

/-- The item the last of the writes that cover a position put there. -/
def lastWrite (ws : List (Write α)) (i : ℕ) : Option α :=
  ws.reverse.findSome? fun w => w.itemAt i

theorem Write.itemAt_isSome_iff {w : Write α} {i : ℕ} : (w.itemAt i).isSome ↔ w.Covers i := by
  rw [itemAt, Covers]
  by_cases hlo : w.offset ≤ i
  · simp only [hlo, if_true, isSome_getElem?, true_and]
    omega
  · simp [hlo]

@[simp] theorem lastWrite_nil (i : ℕ) : lastWrite ([] : List (Write α)) i = none := rfl

theorem lastWrite_append (ws us : List (Write α)) (i : ℕ) :
    lastWrite (ws ++ us) i = (lastWrite us i).or (lastWrite ws i) := by
  rw [lastWrite, List.reverse_append, List.findSome?_append]
  rfl

theorem lastWrite_concat (ws : List (Write α)) (w : Write α) (i : ℕ) :
    lastWrite (ws ++ [w]) i = (w.itemAt i).or (lastWrite ws i) := by
  have hone : lastWrite [w] i = w.itemAt i := by
    rw [lastWrite, List.reverse_singleton, List.findSome?_singleton]
  rw [lastWrite_append, hone]

/-- A position holds an item exactly when some write covers it. -/
theorem lastWrite_isSome_iff {ws : List (Write α)} {i : ℕ} :
    (lastWrite ws i).isSome ↔ ∃ w ∈ ws, w.Covers i := by
  simp only [lastWrite, List.findSome?_isSome_iff, List.mem_reverse, Write.itemAt_isSome_iff]

/-- When every write that covers a position puts the same item there, so does the last. -/
theorem lastWrite_eq_of_forall {ws : List (Write α)} {i : ℕ} {a : α} (hsome : ∃ w ∈ ws, w.Covers i)
    (hall : ∀ w ∈ ws, w.Covers i → w.itemAt i = some a) : lastWrite ws i = some a := by
  obtain ⟨b, hb⟩ := Option.isSome_iff_exists.mp (lastWrite_isSome_iff.mpr hsome)
  obtain ⟨w, hw, hitem⟩ := List.exists_of_findSome?_eq_some hb
  have hcov : w.Covers i := Write.itemAt_isSome_iff.mp (by rw [hitem]; rfl)
  rw [hb, ← hitem]
  exact hall w (List.mem_reverse.mp hw) hcov

/-- Where the writes are copies of a source, the source's items are found. -/
theorem lastWrite_of_copies {src : List α} {ws : List (Write α)} {i : ℕ}
    (hcopy : ∀ w ∈ ws, w.Covers i → w.itemAt i = src[i]?) (hi : i < src.length) :
    lastWrite ws i = if ∃ w ∈ ws, w.Covers i then src[i]? else none := by
  have hitem : src[i]? = some src[i] := List.getElem?_eq_getElem hi
  split_ifs with hsome
  · rw [hitem]
    exact lastWrite_eq_of_forall hsome fun w hw hcov => (hcopy w hw hcov).trans hitem
  · rwa [← Option.not_isSome_iff_eq_none, lastWrite_isSome_iff]

/-- A buffer after one write into it. -/
def store (buf : List α) (w : Write α) : List α :=
  buf.take w.offset ++ w.items ++ buf.drop (w.offset + w.items.length)

variable {buf : List α} {w : Write α}

theorem length_store (hfit : w.offset + w.items.length ≤ buf.length) :
    (store buf w).length = buf.length := by
  simp only [store, List.length_append, List.length_take, List.length_drop]
  omega

/-- A write from inside a buffer is read back where it covers; the rest is unchanged. -/
theorem getElem?_store (hle : w.offset ≤ buf.length) (i : ℕ) :
    (store buf w)[i]? = (w.itemAt i).or buf[i]? := by
  have htake : (buf.take w.offset).length = w.offset := by
    rw [List.length_take]
    omega
  have hpre : (buf.take w.offset ++ w.items).length = w.offset + w.items.length := by
    rw [List.length_append, htake]
  rw [store, Write.itemAt]
  by_cases hlo : w.offset ≤ i
  · rw [if_pos hlo]
    by_cases hhi : i < w.offset + w.items.length
    · rw [List.getElem?_append_left (by omega), List.getElem?_append_right (by omega), htake,
        List.getElem?_eq_getElem (by omega)]
      rfl
    · rw [List.getElem?_append_right (by omega), hpre, List.getElem?_drop,
        List.getElem?_eq_none (l := w.items) (by omega), Option.none_or]
      congr 1
      omega
  · rw [if_neg hlo, List.append_assoc, List.getElem?_append_left (by omega), List.getElem?_take,
      if_pos (by omega)]
    rfl

theorem le_length_store (hle : w.offset ≤ buf.length) : buf.length ≤ (store buf w).length := by
  simp only [store, List.length_append, List.length_take, List.length_drop]
  omega

/-- After a list of writes a position holds what the last of them put there. -/
theorem getElem?_foldl_store {ws : List (Write α)} (hle : ∀ w ∈ ws, w.offset ≤ buf.length) (i : ℕ) :
    (ws.foldl store buf)[i]? = (lastWrite ws i).or buf[i]? := by
  induction ws generalizing buf with
  | nil => rfl
  | cons w ws ih =>
    obtain ⟨hw, hws⟩ := List.forall_mem_cons.mp hle
    have hone : lastWrite (w :: ws) i = (lastWrite ws i).or (w.itemAt i) := by
      rw [← List.singleton_append, lastWrite_append]
      congr 1
      rw [lastWrite, List.reverse_singleton, List.findSome?_singleton]
    rw [List.foldl_cons, ih fun u hu => (hws u hu).trans (le_length_store hw), getElem?_store hw, hone,
      Option.or_assoc]

/-- A write that fits changes nothing exactly when it brings what is there. -/
theorem store_eq_self_iff (hfit : w.offset + w.items.length ≤ buf.length) :
    store buf w = buf ↔ ∀ i, w.Covers i → buf[i]? = w.itemAt i := by
  have hle : w.offset ≤ buf.length := Nat.le_of_add_right_le hfit
  constructor
  · intro hsame i hcov
    obtain ⟨a, ha⟩ := Option.isSome_iff_exists.mp (Write.itemAt_isSome_iff.mpr hcov)
    have hitem := getElem?_store hle i
    rwa [hsame, ha, Option.some_or, ← ha] at hitem
  · intro hall
    apply List.ext_getElem?
    intro i
    rw [getElem?_store hle]
    by_cases hcov : w.Covers i
    · rw [hall i hcov, Option.or_self]
    · have hnone : w.itemAt i = none := by
        rwa [← Option.not_isSome_iff_eq_none, Write.itemAt_isSome_iff]
      rw [hnone, Option.none_or]

/-- A buffer that holds the outcome of a history of writes, with `d` where there was none. -/
def image (d : α) (n : ℕ) (ws : List (Write α)) : List α :=
  (List.range n).map fun i => (lastWrite ws i).getD d

@[simp] theorem length_image (d : α) (n : ℕ) (ws : List (Write α)) : (image d n ws).length = n := by
  simp [image]

theorem getElem?_image (d : α) {n i : ℕ} (ws : List (Write α)) (hi : i < n) :
    (image d n ws)[i]? = some ((lastWrite ws i).getD d) := by
  simp [image, hi]

/-- Storing a write that fits extends the history by it. -/
theorem store_image (d : α) {n : ℕ} (ws : List (Write α)) (hfit : w.offset + w.items.length ≤ n) :
    store (image d n ws) w = image d n (ws ++ [w]) := by
  have hlen : w.offset + w.items.length ≤ (image d n ws).length := by simpa using hfit
  apply List.ext_getElem?
  intro i
  by_cases hi : i < n
  · rw [getElem?_store (Nat.le_of_add_right_le hlen), getElem?_image d ws hi, getElem?_image d _ hi, lastWrite_concat]
    cases w.itemAt i <;> rfl
  · rw [List.getElem?_eq_none, List.getElem?_eq_none]
    · simpa using hi
    · rw [length_store hlen, length_image]
      omega

end Overlay
