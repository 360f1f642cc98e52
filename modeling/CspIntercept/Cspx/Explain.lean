import CspIntercept.Cspx.Adapters

open csp_intercept.csv

namespace csp_intercept.cspx

/-- The variables of `cmd_explain`: the exit status so far, the runs of each verdict, and what
    is printed about each run. -/
structure Explained where
  worst : Nat
  counts : Verdict → Nat
  out : List (List Char × VerdictResult)

/-- One turn of the loop. -/
def explain_run (x : Explained) (obs : RunObservation) : Explained where
  worst := max x.worst (judge obs).exit_code
  counts := fun v => if v = (judge obs).verdict then x.counts v + 1 else x.counts v
  out := x.out ++ [(obs.label, judge obs)]

/-- None where a row does not normalise, which ends the program with exit status 1. -/
def cmd_explain (capture : List Row) : Option Explained :=
  (observations_from_csv capture).map fun rows => rows.foldl explain_run ⟨0, fun _ => 0, []⟩

/-- The verdicts of a capture's rows. -/
def Judged (capture : List Row) (v : Verdict) : Prop :=
  ∃ row ∈ capture, (normalize_row row).map classify = some v

/-- The exit status surfaces the dangerous outcome. -/
structure Surfaces (capture : List Row) : Prop where
  false_complete : Judged capture .FALSE_COMPLETE → (cmd_explain capture).map Explained.worst = some 2
  fail_loud : (cmd_explain capture).map Explained.worst = some 3 ↔
    ¬ Judged capture .FALSE_COMPLETE ∧ Judged capture .FAIL_LOUD
  pass : (cmd_explain capture).map Explained.worst = some 0 ↔
    ∀ row ∈ capture, (normalize_row row).map classify = some .PASS
  order : ∀ capture', capture'.Perm capture →
    (cmd_explain capture').map Explained.worst = (cmd_explain capture).map Explained.worst

section Worst

/-- The status is the greatest code of the runs. -/
theorem worst_le_iff (rows : List RunObservation) (x : Explained) (n : Nat) :
    (rows.foldl explain_run x).worst ≤ n ↔ x.worst ≤ n ∧ ∀ obs ∈ rows, EXIT_CODES (classify obs) ≤ n := by
  induction rows generalizing x with
  | nil => simp
  | cons obs rows ih =>
    rw [List.foldl_cons, ih, List.forall_mem_cons, explain_run, Nat.max_le, and_assoc]
    rfl

/-- Reading a capture ends well exactly when each of its rows does. -/
theorem observations_from_csv_eq_some_iff {capture : List Row} {rows : List RunObservation} :
    observations_from_csv capture = some rows ↔ capture.map normalize_row = rows.map some := by
  rw [observations_from_csv]
  induction capture generalizing rows with
  | nil => cases rows <;> simp
  | cons row capture ih =>
    rw [List.mapM_cons, List.map_cons]
    cases hrow : normalize_row row with
    | none => cases rows <;> simp
    | some obs =>
      cases rows with
      | nil => simp [Option.bind_eq_some_iff]
      | cons obs' rows => simp [← ih, Option.bind_eq_some_iff, and_comm]

theorem observations_isSome_iff {capture : List Row} :
    (observations_from_csv capture).isSome ↔ ∀ row ∈ capture, (normalize_row row).isSome := by
  rw [Option.isSome_iff_exists]
  constructor
  · rintro ⟨rows, hrows⟩ row hrow
    rw [observations_from_csv_eq_some_iff] at hrows
    have hmem : normalize_row row ∈ rows.map some := hrows ▸ List.mem_map_of_mem hrow
    obtain ⟨obs, -, hobs⟩ := List.mem_map.mp hmem
    rw [← hobs]
    rfl
  · intro hall
    refine ⟨capture.filterMap normalize_row, observations_from_csv_eq_some_iff.mpr ?_⟩
    induction capture with
    | nil => rfl
    | cons row capture ih =>
      obtain ⟨hrow, hrest⟩ := List.forall_mem_cons.mp hall
      obtain ⟨obs, hobs⟩ := Option.isSome_iff_exists.mp hrow
      rw [List.filterMap_cons_some hobs, List.map_cons, List.map_cons, hobs, ih hrest]

/-- The exit status is the greatest code of a verdict given. -/
theorem cmd_explain_worst {capture : List Row} (hrows : (observations_from_csv capture).isSome) :
    ∃ w, (cmd_explain capture).map Explained.worst = some w ∧
      ∀ n, w ≤ n ↔ ∀ v, Judged capture v → EXIT_CODES v ≤ n := by
  obtain ⟨rows, hrows⟩ := Option.isSome_iff_exists.mp hrows
  refine ⟨(rows.foldl explain_run ⟨0, fun _ => 0, []⟩).worst, ?_, fun n => ?_⟩
  · rw [cmd_explain, hrows]
    rfl
  · have hjudged (v : Verdict) : Judged capture v ↔ ∃ obs ∈ rows, classify obs = v := by
      rw [observations_from_csv_eq_some_iff] at hrows
      have hmap : Judged capture v ↔ ∃ o ∈ capture.map normalize_row, o.map classify = some v := by
        simp [Judged]
      rw [hmap, hrows]
      simp
    rw [worst_le_iff]
    simp only [hjudged, Nat.zero_le, true_and, forall_exists_index, and_imp]
    exact ⟨fun h v obs hobs hv => hv ▸ h obs hobs, fun h obs hobs => h _ obs hobs rfl⟩

open Classical in
/-- A loud failure decides the exit status, then a false completion. -/
theorem cmd_explain_eq {capture : List Row} (hrows : (observations_from_csv capture).isSome) :
    (cmd_explain capture).map Explained.worst =
      some (if Judged capture .FAIL_LOUD then 3 else if Judged capture .FALSE_COMPLETE then 2 else 0) := by
  obtain ⟨w, hw, hle⟩ := cmd_explain_worst hrows
  have hge {v : Verdict} (hv : Judged capture v) : EXIT_CODES v ≤ w := (hle w).mp (Nat.le_refl w) v hv
  rw [hw]
  congr 1
  split_ifs with hloud hfalse
  · refine Nat.le_antisymm ((hle 3).mpr fun v _ => ?_) (hge hloud)
    cases v <;> simp [EXIT_CODES]
  · refine Nat.le_antisymm ((hle 2).mpr fun v hv => ?_) (hge hfalse)
    cases v with
    | FAIL_LOUD => exact absurd hv hloud
    | PASS => simp [EXIT_CODES]
    | FALSE_COMPLETE => simp [EXIT_CODES]
  · refine Nat.le_zero.mp ((hle 0).mpr fun v hv => ?_)
    cases v with
    | FAIL_LOUD => exact absurd hv hloud
    | PASS => simp [EXIT_CODES]
    | FALSE_COMPLETE => exact absurd hv hfalse

theorem judged_perm {capture capture' : List Row} (hperm : capture'.Perm capture) (v : Verdict) :
    Judged capture' v ↔ Judged capture v := by
  simp only [Judged, hperm.mem_iff]

/-- Every row passes when none is judged otherwise. -/
theorem pass_iff {capture : List Row} (hrows : (observations_from_csv capture).isSome) :
    (∀ row ∈ capture, (normalize_row row).map classify = some .PASS) ↔
      ¬ Judged capture .FAIL_LOUD ∧ ¬ Judged capture .FALSE_COMPLETE := by
  rw [observations_isSome_iff] at hrows
  constructor
  · refine fun hall => ⟨?_, ?_⟩
    · rintro ⟨row, hrow, hloud⟩
      rw [hall row hrow] at hloud
      cases hloud
    · rintro ⟨row, hrow, hfalse⟩
      rw [hall row hrow] at hfalse
      cases hfalse
  · rintro ⟨hloud, hfalse⟩ row hrow
    obtain ⟨obs, hobs⟩ := Option.isSome_iff_exists.mp (hrows row hrow)
    rw [hobs, Option.map_some]
    cases hv : classify obs with
    | PASS => rfl
    | FAIL_LOUD => exact absurd ⟨row, hrow, by rw [hobs, Option.map_some, hv]⟩ hloud
    | FALSE_COMPLETE => exact absurd ⟨row, hrow, by rw [hobs, Option.map_some, hv]⟩ hfalse

end Worst

/-- The exit status surfaces the dangerous outcome exactly where the capture does not mix false
    completions with loud failures: the code of the latter is the greater number. -/
theorem surfaces_iff (capture : List Row) (hrows : (observations_from_csv capture).isSome) :
    Surfaces capture ↔ ¬ (Judged capture .FALSE_COMPLETE ∧ Judged capture .FAIL_LOUD) := by
  constructor
  · rintro hsurfaces ⟨hfalse, hloud⟩
    have hcode := hsurfaces.false_complete hfalse
    rw [cmd_explain_eq hrows, if_pos hloud] at hcode
    simp at hcode
  · intro hmix
    refine ⟨fun hfalse => ?_, ?_, ?_, fun capture' hperm => ?_⟩
    · rw [cmd_explain_eq hrows, if_neg fun hloud => hmix ⟨hfalse, hloud⟩, if_pos hfalse]
    · rw [cmd_explain_eq hrows]
      split_ifs with hloud hfalse
      · have hfalse : ¬ Judged capture .FALSE_COMPLETE := fun hfalse => hmix ⟨hfalse, hloud⟩
        simp [hloud, hfalse]
      · simp [hloud]
      · simp [hloud]
    · rw [cmd_explain_eq hrows, pass_iff hrows]
      split_ifs with hloud hfalse
      · simp [hloud]
      · simp [hfalse]
      · simp [hloud, hfalse]
    · have hrows' : (observations_from_csv capture').isSome := by
        rw [observations_isSome_iff] at hrows ⊢
        exact fun row hrow => hrows row (hperm.mem_iff.mp hrow)
      rw [cmd_explain_eq hrows', cmd_explain_eq hrows, judged_perm hperm, judged_perm hperm]

/-- A run whose check failed, reported as delivered. -/
def delivered_row : Row :=
  [("claimed", some "DELIVERED".toList), ("crc", some "MISMATCH".toList), ("sha", some "MISMATCH".toList)]

/-- A run whose check failed, reported as failed. -/
def failed_row : Row :=
  [("claimed", some "FAILED".toList), ("crc", some "MISMATCH".toList), ("sha", some "MISMATCH".toList)]

theorem surfaces_iff_delivered : Surfaces [delivered_row] := by
  refine (surfaces_iff [delivered_row] (by decide +kernel)).mpr ?_
  rintro ⟨-, row, hrow, hloud⟩
  obtain rfl := List.mem_singleton.mp hrow
  have hverdict : (normalize_row delivered_row).map classify = some .FALSE_COMPLETE := by decide +kernel
  rw [hverdict] at hloud
  cases hloud

/-- One loud failure hides a false completion. -/
theorem loud_hides_false_complete :
    (cmd_explain [delivered_row, failed_row]).map Explained.worst = some 3 ∧
      ¬ ∀ capture, (observations_from_csv capture).isSome → Surfaces capture := by
  have hworst : (cmd_explain [delivered_row, failed_row]).map Explained.worst = some 3 := by decide +kernel
  refine ⟨hworst, fun hall => ?_⟩
  have hcode := (hall [delivered_row, failed_row] (by decide +kernel)).false_complete
    ⟨delivered_row, List.mem_cons_self, by decide +kernel⟩
  rw [hworst] at hcode
  cases hcode

end csp_intercept.cspx
