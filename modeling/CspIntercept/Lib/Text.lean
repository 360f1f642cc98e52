import Mathlib.Data.List.Infix

namespace Text

variable {α β : Type*}

/-- Cut a text wherever the piece read so far is full; the last piece need not be. -/
def cut (full : List α → Bool) : List α → List α → List (List α)
  | piece, [] => if piece.isEmpty then [] else [piece]
  | piece, a :: text =>
    if full (piece ++ [a]) then (piece ++ [a]) :: cut full [] text else cut full (piece ++ [a]) text

/-- The pieces make up the text. -/
theorem flatten_cut (full : List α → Bool) (piece text : List α) :
    (cut full piece text).flatten = piece ++ text := by
  induction text generalizing piece with
  | nil =>
    rw [cut]
    split_ifs with hempty
    · rw [List.isEmpty_iff.mp hempty]
      rfl
    · rw [List.flatten_singleton, List.append_nil]
  | cons a text ih =>
    rw [cut]
    split_ifs with hfull
    · rw [List.flatten_cons, ih, List.nil_append, List.append_assoc, List.singleton_append]
    · rw [ih, List.append_assoc, List.singleton_append]

/-- The first occurrence of `needle` in the text has `head` in front of it. -/
def FirstAt (needle head text : List α) : Prop :=
  head ++ needle <+: text ∧ ∀ h, h ++ needle <+: text → head.length ≤ h.length

/-- Where the text does not start with `needle`, the first occurrence is one further on. -/
theorem firstAt_cons_iff {needle head text : List α} {a : α} (hpre : ¬ needle <+: a :: text) :
    FirstAt needle (a :: head) (a :: text) ↔ FirstAt needle head text := by
  constructor
  · rintro ⟨hat, hleast⟩
    refine ⟨(List.prefix_cons_inj a).mp hat, fun h hh => ?_⟩
    have hle := hleast (a :: h) ((List.prefix_cons_inj a).mpr hh)
    exact Nat.le_of_succ_le_succ hle
  · rintro ⟨hat, hleast⟩
    refine ⟨(List.prefix_cons_inj a).mpr hat, fun h hh => ?_⟩
    cases h with
    | nil => exact absurd hh hpre
    | cons b h =>
      rw [List.cons_append, List.cons_prefix_cons] at hh
      exact Nat.succ_le_succ (hleast h hh.2)

section Search

variable [DecidableEq α]

/-- What a text has from the first occurrence of `needle` on. -/
def search (needle : List α) : List α → Option (List α)
  | [] => if needle.isEmpty then some [] else none
  | a :: text => if needle.isPrefixOf (a :: text) then some (a :: text) else search needle text

theorem search_eq_none_iff {needle text : List α} : search needle text = none ↔ ¬ needle <:+: text := by
  induction text with
  | nil => simp [search]
  | cons a text ih =>
    rw [search, List.infix_cons_iff]
    split_ifs with hpre
    · rw [List.isPrefixOf_iff_prefix] at hpre
      exact iff_of_false nofun fun hnot => hnot (.inl hpre)
    · rw [List.isPrefixOf_iff_prefix] at hpre
      rw [ih, or_iff_right hpre]

/-- The search stops at the first occurrence. -/
theorem search_eq_some_iff {needle text rest : List α} :
    search needle text = some rest ↔ ∃ head, FirstAt needle head text ∧ text = head ++ rest := by
  induction text with
  | nil =>
    cases needle with
    | nil =>
      constructor
      · rintro ⟨⟩
        exact ⟨[], ⟨List.nil_prefix, fun h _ => Nat.zero_le _⟩, rfl⟩
      · rintro ⟨head, -, heq⟩
        obtain ⟨-, rfl⟩ := List.append_eq_nil_iff.mp heq.symm
        rfl
    | cons b needle =>
      constructor
      · nofun
      · rintro ⟨head, ⟨hat, -⟩, -⟩
        exact absurd (List.prefix_nil.mp hat) (by simp)
  | cons a text ih =>
    rw [search]
    split_ifs with hpre
    · rw [List.isPrefixOf_iff_prefix] at hpre
      constructor
      · rintro ⟨⟩
        exact ⟨[], ⟨hpre, fun h _ => Nat.zero_le _⟩, rfl⟩
      · rintro ⟨head, ⟨-, hleast⟩, heq⟩
        obtain rfl : head = [] := List.eq_nil_of_length_eq_zero (Nat.le_zero.mp (hleast [] hpre))
        rw [heq, List.nil_append]
    · rw [List.isPrefixOf_iff_prefix] at hpre
      rw [ih]
      constructor
      · rintro ⟨head, hhead, rfl⟩
        exact ⟨a :: head, (firstAt_cons_iff hpre).mpr hhead, rfl⟩
      · rintro ⟨head, hhead, heq⟩
        cases head with
        | nil => exact absurd hhead.1 hpre
        | cons b head =>
          obtain ⟨rfl, rfl⟩ := List.cons.inj heq
          exact ⟨head, (firstAt_cons_iff hpre).mp hhead, rfl⟩

end Search

/-- Where each item may replace the value kept so far, the last one that does decides. -/
theorem foldl_or_eq (f : β → Option α) (init : Option α) (items : List β) :
    items.foldl (fun kept b => (f b).or kept) init = (items.reverse.findSome? f).or init := by
  induction items generalizing init with
  | nil => rfl
  | cons b items ih =>
    rw [List.foldl_cons, ih, List.reverse_cons, List.findSome?_append, List.findSome?_singleton,
      Option.or_assoc]

/-- The last item that has a value, and what comes after it. -/
theorem findSome?_reverse_eq_some_iff {f : β → Option α} {items : List β} {a : α} :
    items.reverse.findSome? f = some a ↔
      ∃ before b after, items = before ++ b :: after ∧ f b = some a ∧ ∀ c ∈ after, f c = none := by
  rw [List.findSome?_eq_some_iff]
  constructor
  · rintro ⟨after, b, before, heq, hb, hafter⟩
    refine ⟨before.reverse, b, after.reverse, ?_, hb, fun c hc => hafter c (List.mem_reverse.mp hc)⟩
    rw [← List.reverse_reverse items, heq]
    simp
  · rintro ⟨before, b, after, rfl, hb, hafter⟩
    exact ⟨after.reverse, b, before.reverse, by simp, hb, fun c hc => hafter c (List.mem_reverse.mp hc)⟩

end Text
