import Mathlib.Data.List.Basic
import Mathlib.Tactic.Cases

namespace Table

section Columns

variable {α : Type*}

/-- A line: columns with a separator between them. -/
def line (sep : α) (columns : List (List α)) : List α := [sep].intercalate columns

/-- A line starts as its first column does. -/
theorem head?_line {sep a : α} {first : List α} {columns : List (List α)} :
    (line sep ((a :: first) :: columns)).head? = some a := by
  cases columns with
  | nil => rfl
  | cons c columns => rfl

variable [DecidableEq α]

/-- Column `n` of a line, counted from 1; empty where the line does not reach that far. -/
def column (sep : α) (n : ℕ) (line : List α) : List α := (line.splitOn sep).getD (n - 1) []

/-- A column is read back from a line whose columns are free of the separator. -/
theorem column_line {sep : α} {columns : List (List α)} (hfree : ∀ c ∈ columns, sep ∉ c)
    (hne : columns ≠ []) (n : ℕ) : column sep n (line sep columns) = columns.getD (n - 1) [] := by
  rw [column, line, List.splitOn_intercalate sep hfree hne]

end Columns

section Numbers

/-- The digits of a number are digits of its base. -/
theorem exists_of_mem_toDigits {b n : ℕ} (hb : 1 < b) {c : Char} (hc : c ∈ Nat.toDigits b n) :
    ∃ d < b, c = d.digitChar := by
  induction n using Nat.strongRecOn with
  | ind n ih =>
    rw [Nat.toDigits_eq_if hb] at hc
    split_ifs at hc with hlt
    · exact ⟨n, hlt, List.mem_singleton.mp hc⟩
    · rcases List.mem_append.mp hc with hhigh | hlow
      · exact ih (n / b) (Nat.div_lt_self (by omega) hb) hhigh
      · exact ⟨n % b, Nat.mod_lt n (by omega), List.mem_singleton.mp hlow⟩

/-- The value of a text of decimal digits. -/
def number? (text : List Char) : Option ℕ :=
  if text ≠ [] ∧ text.all Char.isDigit then some (Nat.ofDigitChars 10 text 0) else none

@[simp] theorem number?_toDigits (n : ℕ) : number? (Nat.toDigits 10 n) = some n := by
  have hdigits : (Nat.toDigits 10 n).all Char.isDigit := by
    rw [List.all_eq_true]
    exact fun c hc => Nat.isDigit_of_mem_toDigits (by omega) (by omega) hc
  rw [number?, if_pos ⟨Nat.toDigits_ne_nil, hdigits⟩, Nat.ofDigitChars_ten_toDigits]

end Numbers

end Table
