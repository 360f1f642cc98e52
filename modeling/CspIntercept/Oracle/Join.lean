import Mathlib.Data.List.Basic
import Mathlib.Data.Set.Lattice
import Mathlib.Order.CompletePartialOrder
import Mathlib.Order.Interval.Set.Basic

namespace csp_intercept.oracle

def blank (c : Char) : Bool := c == ' ' || c == '\t'

/-- `$1`, the fields being what blanks separate. -/
def field1 (line : List Char) : List Char := (line.dropWhile blank).takeWhile fun c => !blank c

/-- A number used as an index. -/
def decimal (i : Nat) : List Char := Nat.toDigits 10 i

/-- The record counters and the variables; of an array only its indices are read. -/
structure Awk where
  NR : Nat
  FNR : Nat
  dropped : List (List Char)
  nd : Nat
  observed : List (List Char)
  no : Nat

/-- The main rules, on one record. -/
def record (a : Awk) (line : List Char) : Awk :=
  let a := { a with NR := a.NR + 1, FNR := a.FNR + 1 }
  if a.NR = a.FNR then { a with dropped := a.dropped.insert (field1 line), nd := a.nd + 1 }
  else { a with observed := a.observed.insert (field1 line), no := a.no + 1 }

def read_file (a : Awk) (lines : List (List Char)) : Awk := lines.foldl record { a with FNR := 0 }

structure Tally where
  both : Nat
  covered : Nat
  missing : Nat

/-- One turn of the loop over the sent fragments. -/
def tally (a : Awk) (t : Tally) (i : Nat) : Tally :=
  if a.dropped.contains (decimal i) ∧ a.observed.contains (decimal i) then { t with both := t.both + 1 }
  else if a.dropped.contains (decimal i) ∨ a.observed.contains (decimal i) then { t with covered := t.covered + 1 }
  else { t with missing := t.missing + 1 }

/-- The printed figures. -/
structure Printed where
  dropped : Nat
  observed : Nat
  sent : Nat
  overlap : Nat
  covered_exactly_once : Nat
  in_both : Nat
  in_neither : Nat
  perfect : Bool

/-- The `END` block: what is printed, none being the usage error, and the exit status. -/
def finish (total : Nat) (a : Awk) : Option Printed × Nat :=
  if total = 0 then (none, 2)
  else
    let overlap := (a.dropped.filter fun k => a.observed.contains k).length
    let t := (List.range total).foldl (tally a) ⟨0, 0, 0⟩
    let ok : Bool := overlap = 0 ∧ t.covered = total ∧ t.both = 0 ∧ t.missing = 0
    (some ⟨a.nd, a.no, total, overlap, t.covered, t.both, t.missing, ok⟩, if ok then 0 else 1)

def oracle_join (total : Nat) (dropped_idx observed_idx : List (List Char)) : Option Printed × Nat :=
  finish total ([dropped_idx, observed_idx].foldl read_file ⟨0, 0, [], 0, [], 0⟩)

/-- A file with one fragment index a line, and nothing else or other fields behind it. -/
structure IndexFile where
  lines : List (List Char)
  indexed : ∀ line ∈ lines, ∃ i, field1 line = decimal i

/-- The indices in the file. -/
def IndexFile.indices (f : IndexFile) : Set Nat := {i | ∃ line ∈ f.lines, field1 line = decimal i}

/-- The join accepts exactly the partitions, and prints the sizes of its files. -/
structure JoinExact (total : Nat) (d o : IndexFile) : Prop where
  accepts : (oracle_join total d.lines o.lines).2 = 0 ↔
    Disjoint d.indices o.indices ∧ d.indices ∪ o.indices = Set.Iio total
  figures : (oracle_join total d.lines o.lines).1.map (fun p => (p.dropped, p.observed)) =
    some (d.lines.length, o.lines.length)

section Records

/-- The indices of an array after the records of a file. -/
def keys (ks : List (List Char)) (lines : List (List Char)) : List (List Char) :=
  lines.foldl (fun ks line => ks.insert (field1 line)) ks

theorem mem_keys {ks lines : List (List Char)} {k : List Char} :
    k ∈ keys ks lines ↔ k ∈ ks ∨ ∃ line ∈ lines, field1 line = k := by
  induction lines generalizing ks with
  | nil => simp [keys]
  | cons line lines ih =>
    have hcons : keys ks (line :: lines) = keys (ks.insert (field1 line)) lines := rfl
    rw [hcons, ih, List.mem_insert_iff, List.exists_mem_cons_iff, eq_comm (a := k), or_assoc, or_left_comm]

/-- As long as no record came before the file, its records are taken for dropped ones. -/
theorem foldl_record_first {a : Awk} (heq : a.NR = a.FNR) (lines : List (List Char)) :
    lines.foldl record a = { a with NR := a.NR + lines.length, FNR := a.FNR + lines.length
                                    dropped := keys a.dropped lines, nd := a.nd + lines.length } := by
  induction lines generalizing a with
  | nil => rfl
  | cons line lines ih =>
    have hrecord : record a line = { a with NR := a.NR + 1, FNR := a.FNR + 1
                                            dropped := a.dropped.insert (field1 line), nd := a.nd + 1 } := by
      simp [record, heq]
    rw [List.foldl_cons, hrecord, ih (by simp [heq])]
    simp only [List.length_cons, Awk.mk.injEq, and_true]
    exact ⟨by omega, by omega, rfl, by omega⟩

/-- Behind a record of an earlier file they are taken for observed ones. -/
theorem foldl_record_later {a : Awk} (hlt : a.FNR < a.NR) (lines : List (List Char)) :
    lines.foldl record a = { a with NR := a.NR + lines.length, FNR := a.FNR + lines.length
                                    observed := keys a.observed lines, no := a.no + lines.length } := by
  induction lines generalizing a with
  | nil => rfl
  | cons line lines ih =>
    have hrecord : record a line = { a with NR := a.NR + 1, FNR := a.FNR + 1
                                            observed := a.observed.insert (field1 line), no := a.no + 1 } := by
      simp [record, hlt.ne']
    rw [List.foldl_cons, hrecord, ih (by simp only; omega)]
    simp only [List.length_cons, Awk.mk.injEq, true_and]
    exact ⟨by omega, by omega, rfl, by omega⟩

/-- What the rules have collected: with an empty first file the second takes its place. -/
theorem read_files (d o : List (List Char)) : [d, o].foldl read_file ⟨0, 0, [], 0, [], 0⟩ =
    if d = [] then ⟨o.length, o.length, keys [] o, o.length, [], 0⟩
    else ⟨d.length + o.length, o.length, keys [] d, d.length, keys [] o, o.length⟩ := by
  simp only [List.foldl_cons, List.foldl_nil]
  have hfirst : read_file ⟨0, 0, [], 0, [], 0⟩ d = ⟨d.length, d.length, keys [] d, d.length, [], 0⟩ := by
    rw [read_file, foldl_record_first rfl]
    simp
  rw [hfirst]
  split_ifs with hd
  · subst hd
    rw [read_file, foldl_record_first rfl]
    simp [keys]
  · have hpos : 0 < d.length := List.length_pos_of_ne_nil hd
    rw [read_file, foldl_record_later hpos]
    simp

end Records

section Verdict

theorem decimal_injective : Function.Injective decimal := by
  intro i j h
  have hdigits := congrArg (fun cs => Nat.ofDigitChars 10 cs 0) h
  simpa only [decimal, Nat.ofDigitChars_ten_toDigits] using hdigits

/-- The loop counts the fragments by the arrays they are in. -/
theorem foldl_tally (a : Awk) (l : List Nat) (t : Tally) : l.foldl (tally a) t =
    ⟨t.both + l.countP fun i => decimal i ∈ a.dropped ∧ decimal i ∈ a.observed,
      t.covered + l.countP fun i => decimal i ∈ a.dropped ↔ decimal i ∉ a.observed,
      t.missing + l.countP fun i => decimal i ∉ a.dropped ∧ decimal i ∉ a.observed⟩ := by
  induction l generalizing t with
  | nil => rfl
  | cons i l ih =>
    rw [List.foldl_cons, ih, tally]
    by_cases hd : decimal i ∈ a.dropped <;> by_cases ho : decimal i ∈ a.observed
    · simp [hd, ho, Nat.add_assoc, Nat.add_comm 1]
    · simp [hd, ho, Nat.add_assoc, Nat.add_comm 1]
    · simp [hd, ho, Nat.add_assoc, Nat.add_comm 1]
    · simp [hd, ho, Nat.add_assoc, Nat.add_comm 1]

/-- The exit status is 0 exactly when no index is in both arrays and each sent fragment is in one. -/
theorem finish_eq_zero_iff {total : Nat} (htotal : total ≠ 0) (a : Awk) : (finish total a).2 = 0 ↔
    (∀ k ∈ a.dropped, k ∉ a.observed) ∧ ∀ i < total, decimal i ∈ a.dropped ∨ decimal i ∈ a.observed := by
  rw [finish, if_neg htotal]
  simp only [foldl_tally, Nat.zero_add]
  have hok : ∀ ok : Bool, (if ok = true then 0 else 1) = 0 ↔ ok = true := by decide
  rw [hok, decide_eq_true_eq, List.length_eq_zero_iff, List.filter_eq_nil_iff, List.countP_eq_zero, List.countP_eq_zero]
  simp only [decide_eq_true_eq, List.contains_iff_mem, List.mem_range, not_and, not_not]
  refine and_congr_right fun hoverlap => ?_
  constructor
  · rintro ⟨-, -, hmissing⟩ i hi
    exact or_iff_not_imp_left.mpr (hmissing i hi)
  · intro hcover
    refine ⟨?_, fun i _ hd ho => hoverlap _ hd ho, fun i hi hd => (hcover i hi).resolve_left hd⟩
    have hall : (List.range total).countP (fun i => decimal i ∈ a.dropped ↔ decimal i ∉ a.observed) =
        (List.range total).length := by
      rw [List.countP_eq_length]
      intro i hi
      rw [decide_eq_true_eq]
      exact ⟨hoverlap _, fun ho => (hcover i (List.mem_range.mp hi)).resolve_right ho⟩
    rw [hall, List.length_range]

theorem mem_keys_decimal {f : IndexFile} {i : Nat} : decimal i ∈ keys [] f.lines ↔ i ∈ f.indices := by
  rw [mem_keys]
  simp [IndexFile.indices]

/-- The indices of an array that an index file filled are numbers. -/
theorem exists_of_mem_keys {f : IndexFile} {k : List Char} (hk : k ∈ keys [] f.lines) :
    ∃ i ∈ f.indices, k = decimal i := by
  obtain ⟨line, hline, rfl⟩ := (mem_keys.mp hk).resolve_left List.not_mem_nil
  obtain ⟨i, hi⟩ := f.indexed line hline
  exact ⟨i, ⟨line, hline, hi⟩, hi⟩

/-- The join accepts what shares no index and leaves out no sent fragment, whatever else there is. -/
theorem oracle_join_eq_zero_iff {total : Nat} (htotal : total ≠ 0) (d o : IndexFile) :
    (oracle_join total d.lines o.lines).2 = 0 ↔
      Disjoint d.indices o.indices ∧ Set.Iio total ⊆ d.indices ∪ o.indices := by
  rw [oracle_join, read_files]
  split_ifs with hd
  · have hnone : d.indices = ∅ := by
      simp [IndexFile.indices, hd]
    rw [finish_eq_zero_iff htotal, hnone, Set.empty_union]
    simp only [List.not_mem_nil, not_false_eq_true, implies_true, true_and, or_false, mem_keys_decimal,
      Set.empty_disjoint]
    rfl
  · rw [finish_eq_zero_iff htotal, Set.disjoint_left]
    simp only [mem_keys_decimal]
    refine and_congr ⟨fun h i hi ho => ?_, fun h k hk hk' => ?_⟩ Iff.rfl
    · exact h _ (mem_keys_decimal.mpr hi) (mem_keys_decimal.mpr ho)
    · obtain ⟨i, hi, rfl⟩ := exists_of_mem_keys hk
      exact h hi (mem_keys_decimal.mp hk')

/-- The figures are those of the two files unless the first one is empty and the second is not. -/
theorem oracle_join_figures_iff {total : Nat} (htotal : total ≠ 0) (d o : List (List Char)) :
    (oracle_join total d o).1.map (fun p => (p.dropped, p.observed)) = some (d.length, o.length) ↔
      d ≠ [] ∨ o = [] := by
  rw [oracle_join, read_files, finish, if_neg htotal]
  split_ifs with hd
  · subst hd
    simp [eq_comm]
  · simp [hd]

end Verdict

/-- The join is right exactly where the first file is not empty, or both are, and no index lies
    outside the range, unless the files do not agree on the fragments in it anyway. -/
theorem join_exact_iff (total : Nat) (htotal : 1 ≤ total) (d o : IndexFile) : JoinExact total d o ↔
    (d.lines ≠ [] ∨ o.lines = []) ∧ (d.indices ∪ o.indices ⊆ Set.Iio total ∨
      ¬ Disjoint d.indices o.indices ∨ ¬ Set.Iio total ⊆ d.indices ∪ o.indices) := by
  have hne : total ≠ 0 := Nat.one_le_iff_ne_zero.mp htotal
  rw [← oracle_join_figures_iff hne]
  constructor
  · rintro ⟨haccepts, hfigures⟩
    refine ⟨hfigures, ?_⟩
    rw [oracle_join_eq_zero_iff hne] at haccepts
    by_cases hagree : Disjoint d.indices o.indices ∧ Set.Iio total ⊆ d.indices ∪ o.indices
    · exact .inl (haccepts.mp hagree).2.subset
    · exact .inr (not_and_or.mp hagree)
  · rintro ⟨hfigures, hrange⟩
    refine ⟨?_, hfigures⟩
    rw [oracle_join_eq_zero_iff hne]
    constructor
    · rintro ⟨hdisjoint, hcover⟩
      have hinside := hrange.resolve_right (not_or.mpr ⟨not_not.mpr hdisjoint, not_not.mpr hcover⟩)
      exact ⟨hdisjoint, hinside.antisymm hcover⟩
    · exact fun h => ⟨h.1, h.2.superset⟩

/-- The file with one line for an index. -/
def index_file (i : Nat) (hi : field1 (decimal i) = decimal i) : IndexFile where
  lines := [decimal i]
  indexed := fun line hline => ⟨i, by rw [List.mem_singleton.mp hline, hi]⟩

def no_lines : IndexFile := ⟨[], by simp⟩

/-- One fragment dropped and one observed. -/
theorem join_exact_iff_two : JoinExact 2 (index_file 0 rfl) (index_file 1 rfl) := by
  refine (join_exact_iff 2 (by omega) _ _).mpr ⟨.inl (List.cons_ne_nil _ _), .inl ?_⟩
  rintro i (⟨line, hline, hi⟩ | ⟨line, hline, hi⟩)
  · obtain rfl := List.mem_singleton.mp hline
    obtain rfl : 0 = i := decimal_injective hi
    exact Nat.zero_lt_two
  · obtain rfl := List.mem_singleton.mp hline
    obtain rfl : 1 = i := decimal_injective hi
    exact Nat.one_lt_two

/-- Nothing dropped and one fragment observed: the figures are swapped. And an index that was
    never sent is accepted. -/
theorem lossless_run_swapped :
    (oracle_join 1 no_lines.lines (index_file 0 rfl).lines).1.map (fun p => (p.dropped, p.observed)) = some (1, 0) ∧
      (oracle_join 1 (index_file 5 rfl).lines (index_file 0 rfl).lines).2 = 0 ∧
      ¬ ∀ total, 1 ≤ total → ∀ d o, JoinExact total d o := by
  refine ⟨rfl, rfl, fun hall => ?_⟩
  have hfigures := (hall 1 (Nat.le_refl 1) no_lines (index_file 0 rfl)).figures
  have hzero := congrArg (Option.map Prod.fst) hfigures
  exact absurd hzero (by decide)

end csp_intercept.oracle
