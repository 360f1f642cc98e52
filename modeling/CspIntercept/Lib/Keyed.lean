import Mathlib.Data.List.AList
import Mathlib.Data.List.Induction
import Mathlib.Logic.Function.Basic

namespace Keyed

variable {κ β ε : Type*} [DecidableEq κ]

/-- Change what is stored under the key of an event. -/
def write (key : ε → κ) (step : ε → β → β) (store : κ → β) (e : ε) : κ → β :=
  Function.update store (key e) (step e (store (key e)))

variable {key : ε → κ} {step : ε → β → β}

section AList

variable {α : Type*} {key : α → κ} (value : α → β)

/-- An array of values under keys, filled item by item. -/
def fill (key : α → κ) (value : α → β) (store : AList fun _ : κ => β) (items : List α) : AList fun _ : κ => β :=
  items.foldl (fun store a => store.insert (key a) (value a)) store

theorem mem_fill (store : AList fun _ : κ => β) (items : List α) {k : κ} :
    k ∈ fill key value store items ↔ k ∈ items.map key ∨ k ∈ store := by
  induction items generalizing store with
  | nil => simp [fill]
  | cons a items ih =>
    have hcons : fill key value store (a :: items) = fill key value (store.insert (key a) (value a)) items := rfl
    rw [hcons, ih, AList.mem_insert, List.map_cons, List.mem_cons, or_assoc, or_left_comm]

/-- Where every item has a key of its own, its value is found under that. -/
theorem lookup_fill (hkey : Function.Injective key) (store : AList fun _ : κ => β) {items : List α} {a : α}
    (ha : a ∈ items) : (fill key value store items).lookup (key a) = some (value a) := by
  induction items using List.reverseRecOn with
  | nil => cases ha
  | append_singleton items b ih =>
    rw [fill, List.foldl_append]
    by_cases hab : a = b
    · subst hab
      exact AList.lookup_insert _
    · have hmem : a ∈ items := (List.mem_append.mp ha).resolve_right fun h => hab (List.mem_singleton.mp h)
      exact (AList.lookup_insert_ne fun h => hab (hkey h)).trans (ih hmem)

/-- The keys of distinct items. -/
theorem keys_fill_perm (hkey : Function.Injective key) {items : List α} (hnodup : items.Nodup) :
    (fill key value ∅ items).keys.Perm (items.map key) := by
  rw [List.perm_ext_iff_of_nodup (AList.keys_nodup _) (hnodup.map hkey)]
  intro k
  have hmem : k ∈ fill key value ∅ items ↔ k ∈ items.map key ∨ k ∈ (∅ : AList fun _ : κ => β) := mem_fill value ∅ items
  rw [AList.mem_keys] at hmem
  simpa using hmem

end AList

section Dict

/-- A dictionary that keeps the order in which its keys came: change what is under a key, where
    a new key starts with nothing and goes to the end. -/
def change (k : κ) (f : Option β → β) : List (κ × β) → List (κ × β)
  | [] => [(k, f none)]
  | e :: d => if e.1 = k then (k, f (some e.2)) :: d else e :: change k f d

variable {d : List (κ × β)} {k k' : κ} {b : β}

section Lookup

variable [BEq κ] [LawfulBEq κ]

theorem lookup_cons (k k' : κ) (b : β) (d : List (κ × β)) :
    ((k', b) :: d).lookup k = if k = k' then some b else d.lookup k := by
  by_cases hk : k = k'
  · subst hk
    rw [List.lookup_cons_self, if_pos rfl]
  · rw [List.lookup_cons, beq_false_of_ne hk, if_neg hk]

theorem lookup_change (f : Option β → β) (d : List (κ × β)) (k k' : κ) :
    (change k f d).lookup k' = if k' = k then some (f (d.lookup k)) else d.lookup k' := by
  induction d with
  | nil => exact lookup_cons k' k (f none) []
  | cons e d ih =>
    obtain ⟨k₀, b₀⟩ := e
    by_cases h₀ : k₀ = k
    · subst h₀
      rw [change, if_pos rfl, lookup_cons, lookup_cons, lookup_cons, if_pos rfl]
      split_ifs <;> rfl
    · rw [change, if_neg h₀, lookup_cons, lookup_cons, lookup_cons, ih, if_neg (Ne.symm h₀)]
      by_cases hk : k' = k₀
      · subst hk
        rw [if_pos rfl, if_neg h₀, if_pos rfl]
      · rw [if_neg hk, if_neg hk]

/-- Under distinct keys, an entry is what is found under its key. -/
theorem mem_dict_iff (hnodup : (d.map Prod.fst).Nodup) : (k, b) ∈ d ↔ d.lookup k = some b := by
  induction d with
  | nil => simp
  | cons e d ih =>
    obtain ⟨k₀, b₀⟩ := e
    obtain ⟨hfresh, htail⟩ := List.nodup_cons.mp hnodup
    rw [List.mem_cons, ih htail, lookup_cons]
    by_cases hk : k = k₀
    · subst hk
      have hnone : d.lookup k ≠ some b := fun hsome =>
        hfresh (List.mem_map.mpr ⟨(k, b), (ih htail).mpr hsome, rfl⟩)
      simp [hnone, eq_comm]
    · simp [hk]

end Lookup

theorem mem_keys_change (f : Option β → β) :
    k' ∈ (change k f d).map Prod.fst ↔ k' = k ∨ k' ∈ d.map Prod.fst := by
  induction d with
  | nil => simp [change]
  | cons e d ih =>
    by_cases he : e.1 = k
    · simp [change, he]
    · rw [change, if_neg he, List.map_cons, List.mem_cons, ih, List.map_cons, List.mem_cons, or_left_comm]

theorem nodup_keys_change (f : Option β → β) (hnodup : (d.map Prod.fst).Nodup) :
    ((change k f d).map Prod.fst).Nodup := by
  induction d with
  | nil => exact List.nodup_singleton k
  | cons e d ih =>
    obtain ⟨hfresh, hnodup⟩ := List.nodup_cons.mp hnodup
    by_cases he : e.1 = k
    · rw [change, if_pos he]
      exact List.nodup_cons.mpr ⟨by rwa [he] at hfresh, hnodup⟩
    · rw [change, if_neg he]
      refine List.nodup_cons.mpr ⟨fun hmem => ?_, ih hnodup⟩
      exact ((mem_keys_change f).mp hmem).elim he hfresh

end Dict

end Keyed
