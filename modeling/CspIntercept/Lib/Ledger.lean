import Mathlib.Data.List.Nodup
import Mathlib.Data.Set.Lattice
import Mathlib.Order.CompletePartialOrder

namespace Ledger

variable {ι κ : Type*} {sent : List ι} {key : ι → κ} {lost : ι → Prop}

/-- The keys of the items that were lost. -/
def lostKeys (sent : List ι) (key : ι → κ) (lost : ι → Prop) : Set κ := {k | ∃ a ∈ sent, lost a ∧ key a = k}

/-- The keys of the items that were not. -/
def keptKeys (sent : List ι) (key : ι → κ) (lost : ι → Prop) : Set κ := {k | ∃ a ∈ sent, ¬ lost a ∧ key a = k}

/-- Items of one key meet one fate. -/
def Consistent (sent : List ι) (key : ι → κ) (lost : ι → Prop) : Prop :=
  ∀ a ∈ sent, ∀ b ∈ sent, key a = key b → (lost a ↔ lost b)

/-- A fate is consistent where each key is sent once. -/
theorem Consistent.of_nodup (h : (sent.map key).Nodup) : Consistent sent key lost := by
  intro a ha b hb hkey
  rw [List.inj_on_of_nodup_map h ha hb hkey]

/-- Every key sent was lost or kept. -/
theorem lostKeys_union_keptKeys : lostKeys sent key lost ∪ keptKeys sent key lost = {k | ∃ a ∈ sent, key a = k} := by
  ext k
  constructor
  · rintro (⟨a, ha, -, rfl⟩ | ⟨a, ha, -, rfl⟩)
    · exact ⟨a, ha, rfl⟩
    · exact ⟨a, ha, rfl⟩
  · rintro ⟨a, ha, rfl⟩
    by_cases hlost : lost a
    · exact .inl ⟨a, ha, hlost, rfl⟩
    · exact .inr ⟨a, ha, hlost, rfl⟩

/-- With a consistent fate, none was both. -/
theorem Consistent.disjoint (h : Consistent sent key lost) :
    Disjoint (lostKeys sent key lost) (keptKeys sent key lost) := by
  rw [Set.disjoint_left]
  rintro k ⟨a, ha, hlost, rfl⟩ ⟨b, hb, hkept, hkey⟩
  exact hkept ((h b hb a ha hkey).mpr hlost)

end Ledger
