import CspIntercept.Satguard.Audit

open csp_intercept.csv

namespace csp_intercept.satguard

inductive Mechanism
  | deployed
  | rawdtp
  | smart
  | naive
deriving DecidableEq

/-- The name its verdict carries. -/
def Mechanism.name : Mechanism → String
  | .deployed => "Deployed upload client (fire-and-forget)"
  | .rawdtp => "Raw DTP resume (libdtp native)"
  | .smart => "satDeploy-smart (sha256 verify + retry)  — the remedy"
  | .naive => "satDeploy-naive (recovery off)  — control"

/-- All the rows of a mechanism, whatever their loss and status. -/
def Captures.rows (c : Captures) : Mechanism → List Row
  | .deployed => c.rq3_corruption.getD []
  | .rawdtp => c.rawdtp_sweep.getD []
  | .smart => (c.satdeploy_sweep.getD []).filter fun r => has r "arm" "smart"
  | .naive => (c.satdeploy_sweep.getD []).filter fun r => has r "arm" "naive"

def ReportsSuccess (r : Row) : Prop :=
  token r "corrupt_but_accepted" = "yes".toList ∨
    token r "result" ∈ ["DELIVERED", "DEPLOYED", "VERIFIED"].map String.toList

def FailsCheck (r : Row) : Prop :=
  token r "matches_original" = "no".toList ∨
    ∃ column, "sha".toList <+: column.toList ∧ token r column = "MISMATCH".toList

/-- The row records a reported success together with a failed content check. -/
def SilentCorruption (r : Row) : Prop := ReportsSuccess r ∧ FailsCheck r

/-- The row is one that the verdict on the mechanism holds against it. -/
def counted : Mechanism → Row → Bool
  | .deployed, r => lossy r && has r "corrupt_but_accepted" "yes"
  | .rawdtp, r => has r "status" "ok" && lossy r && has r "result" "DELIVERED" && has r "sha256_verdict" "MISMATCH"
  | .smart, _ => false
  | .naive, r => has r "status" "ok" && lossy r && !done r

/-- The row is one that gets the mechanism a verdict. -/
def audited : Mechanism → Row → Bool
  | .deployed, _ => true
  | .rawdtp, _ => true
  | .smart, r => has r "status" "ok"
  | .naive, r => has r "status" "ok"

def Flagged (c : Captures) (m : Mechanism) : Prop := ∃ r ∈ c.rows m, counted m r = true

def Audited (c : Captures) (m : Mechanism) : Prop := ∃ r ∈ c.rows m, audited m r = true

/-- A clean report means that no silent corruption is on record. -/
structure AuditSound (c : Captures) : Prop where
  overall : (audit c).map Prod.snd = some .PASS → ∀ m, ∀ r ∈ c.rows m, ¬ SilentCorruption r
  mechanism : ∀ report, audit c = some report → ∀ v, (Tag.OK, v) ∈ report.1 → ∀ m, v.name = m.name →
    ∀ r ∈ c.rows m, ¬ SilentCorruption r

/-- Where silent corruption of a mechanism is on record, a row is held against the mechanism, or
    it gets no verdict and the audit does not pass for another reason. -/
def Surfaced (c : Captures) : Prop :=
  ∀ m, (∃ r ∈ c.rows m, SilentCorruption r) →
    Flagged c m ∨ ¬ Audited c m ∧ ((∃ m', Flagged c m') ∨ ∀ m', ¬ Audited c m')

section Verdicts

/-- The verdict on a mechanism, if it gets one. -/
def verdict_of (c : Captures) : Mechanism → Option Verdict
  | .deployed => verdict_deployed c.rq3_corruption
  | .rawdtp => verdict_rawdtp c.rawdtp_sweep
  | .smart => verdict_smart (c.satdeploy_sweep.getD [])
  | .naive => verdict_naive (c.satdeploy_sweep.getD [])

theorem name_injective : Function.Injective Mechanism.name := by
  intro m m' h
  cases m <;> cases m' <;> first | rfl | exact absurd h (by decide)

theorem mem_gather_iff {c : Captures} {v : Verdict} : v ∈ gather c ↔ ∃ m, verdict_of c m = some v := by
  have hsat : v ∈ verdict_satdeploy c.satdeploy_sweep ↔
      verdict_smart (c.satdeploy_sweep.getD []) = some v ∨ verdict_naive (c.satdeploy_sweep.getD []) = some v := by
    rw [verdict_satdeploy]
    split_ifs with hnone
    · rw [List.isEmpty_iff.mp hnone]
      simp [verdict_smart, verdict_naive, arm_rows]
    · simp [List.reduceOption_mem_iff, eq_comm]
  rw [gather, List.mem_append, hsat, List.reduceOption_mem_iff]
  constructor
  · rintro (h | h | h)
    · rcases List.mem_cons.mp h with h | h
      · exact ⟨.deployed, h.symm⟩
      · exact ⟨.rawdtp, (List.mem_singleton.mp h).symm⟩
    · exact ⟨.smart, h⟩
    · exact ⟨.naive, h⟩
  · rintro ⟨m, h⟩
    cases m with
    | deployed => exact .inl (List.mem_cons.mpr (.inl h.symm))
    | rawdtp => exact .inl (List.mem_cons.mpr (.inr (List.mem_singleton.mpr h.symm)))
    | smart => exact .inr (.inl h)
    | naive => exact .inr (.inr h)

theorem ne_nil_iff {rows : List Row} : rows ≠ [] ↔ ∃ r, r ∈ rows := by
  rw [← List.length_pos_iff, List.length_pos_iff_exists_mem]

theorem arm_rows_ne_nil_iff {rows : List Row} {arm : String} :
    arm_rows rows arm ≠ [] ↔ ∃ r ∈ rows.filter fun r => has r "arm" arm, has r "status" "ok" = true := by
  simp [arm_rows, and_assoc]

/-- A verdict is given to the mechanisms with audited rows. -/
theorem isSome_verdict_of (c : Captures) (m : Mechanism) : (verdict_of c m).isSome ↔ Audited c m := by
  cases m with
  | deployed => simp [verdict_of, verdict_deployed, Audited, Captures.rows, audited, ← ne_eq, ne_nil_iff]
  | rawdtp => simp [verdict_of, verdict_rawdtp, Audited, Captures.rows, audited, ← ne_eq, ne_nil_iff]
  | smart => simp [verdict_of, verdict_smart, Audited, Captures.rows, audited, ← ne_eq, arm_rows_ne_nil_iff]
  | naive => simp [verdict_of, verdict_naive, Audited, Captures.rows, audited, ← ne_eq, arm_rows_ne_nil_iff]

/-- A verdict finds vulnerable what has a row held against it. -/
theorem verdict_of_spec {c : Captures} {m : Mechanism} {v : Verdict} (h : verdict_of c m = some v) :
    v.name = m.name ∧ (v.vulnerable = true ↔ Flagged c m) := by
  cases m with
  | deployed =>
    rw [verdict_of, verdict_deployed] at h
    split_ifs at h
    obtain rfl := Option.some.inj h
    refine ⟨rfl, ?_⟩
    simp only [Flagged, Captures.rows, counted, gt_iff_lt, decide_eq_true_eq, List.length_pos_iff_exists_mem,
      List.mem_filter, Bool.and_eq_true, and_assoc]
  | rawdtp =>
    rw [verdict_of, verdict_rawdtp] at h
    split_ifs at h
    obtain rfl := Option.some.inj h
    refine ⟨rfl, ?_⟩
    simp only [Flagged, Captures.rows, counted, gt_iff_lt, decide_eq_true_eq, List.length_pos_iff_exists_mem,
      List.mem_filter, Bool.and_eq_true, and_assoc]
  | smart =>
    rw [verdict_of, verdict_smart] at h
    split_ifs at h
    obtain rfl := Option.some.inj h
    exact ⟨rfl, by simp [Flagged, counted]⟩
  | naive =>
    rw [verdict_of, verdict_naive] at h
    split_ifs at h
    obtain rfl := Option.some.inj h
    refine ⟨rfl, ?_⟩
    simp only [Flagged, Captures.rows, counted, arm_rows, gt_iff_lt, decide_eq_true_eq,
      List.length_pos_iff_exists_mem, List.mem_filter, Bool.and_eq_true, and_assoc]

theorem Flagged.audited {c : Captures} {m : Mechanism} (h : Flagged c m) : Audited c m := by
  obtain ⟨r, hr, hcounted⟩ := h
  refine ⟨r, hr, ?_⟩
  cases m with
  | deployed => rfl
  | rawdtp => rfl
  | smart => exact absurd hcounted Bool.false_ne_true
  | naive =>
    simp only [counted, Bool.and_eq_true] at hcounted
    exact hcounted.1.1

end Verdicts

section Reports

theorem print_summary_pass_iff {verdicts : List Verdict} :
    (print_summary verdicts).2 = .PASS ↔ ¬ ∃ v ∈ verdicts, v.vulnerable = true := by
  rw [print_summary]
  split_ifs with hvuln
  · simpa using hvuln
  · simpa using hvuln

theorem ok_mem_print_summary_iff {verdicts : List Verdict} {v : Verdict} :
    (Tag.OK, v) ∈ (print_summary verdicts).1 ↔ v ∈ verdicts ∧ ¬ v.vulnerable = true := by
  rw [print_summary, List.mem_map]
  constructor
  · rintro ⟨u, hu, htag⟩
    obtain ⟨hok, rfl⟩ := Prod.mk.inj htag
    refine ⟨hu, fun hvulnerable => ?_⟩
    rw [if_pos hvulnerable] at hok
    exact Tag.noConfusion hok
  · rintro ⟨hv, hvulnerable⟩
    exact ⟨v, hv, by rw [if_neg hvulnerable]⟩

theorem audit_eq_some_iff {c : Captures} {report : List (Tag × Verdict) × Overall} :
    audit c = some report ↔ (∃ v, v ∈ gather c) ∧ print_summary (gather c) = report := by
  rw [audit, ← List.isEmpty_eq_false_iff_exists_mem]
  split_ifs with hnone
  · simp [hnone]
  · simp [hnone]

theorem exists_mem_gather_iff {c : Captures} : (∃ v, v ∈ gather c) ↔ ∃ m, Audited c m := by
  constructor
  · rintro ⟨v, hv⟩
    obtain ⟨m, hm⟩ := mem_gather_iff.mp hv
    exact ⟨m, (isSome_verdict_of c m).mp (Option.isSome_of_eq_some hm)⟩
  · rintro ⟨m, hm⟩
    obtain ⟨v, hv⟩ := Option.isSome_iff_exists.mp ((isSome_verdict_of c m).mpr hm)
    exact ⟨v, mem_gather_iff.mpr ⟨m, hv⟩⟩

theorem exists_vulnerable_iff {c : Captures} :
    (∃ v ∈ gather c, v.vulnerable = true) ↔ ∃ m, Flagged c m := by
  constructor
  · rintro ⟨v, hv, hvulnerable⟩
    obtain ⟨m, hm⟩ := mem_gather_iff.mp hv
    exact ⟨m, (verdict_of_spec hm).2.mp hvulnerable⟩
  · rintro ⟨m, hm⟩
    obtain ⟨v, hv⟩ := Option.isSome_iff_exists.mp ((isSome_verdict_of c m).mpr hm.audited)
    exact ⟨v, mem_gather_iff.mpr ⟨m, hv⟩, (verdict_of_spec hv).2.mpr hm⟩

/-- The audit passes if some mechanism has a verdict and none has a row held against it. -/
theorem audit_pass_iff {c : Captures} :
    (audit c).map Prod.snd = some .PASS ↔ (∃ m, Audited c m) ∧ ¬ ∃ m, Flagged c m := by
  rw [← exists_mem_gather_iff, ← exists_vulnerable_iff, ← print_summary_pass_iff, Option.map_eq_some_iff]
  constructor
  · rintro ⟨report, haudit, hpass⟩
    obtain ⟨hsome, rfl⟩ := audit_eq_some_iff.mp haudit
    exact ⟨hsome, hpass⟩
  · rintro ⟨hsome, hpass⟩
    exact ⟨_, audit_eq_some_iff.mpr ⟨hsome, rfl⟩, hpass⟩

/-- A mechanism is reported as OK if it has a verdict and no row is held against it. -/
theorem reported_ok_iff {c : Captures} {m : Mechanism} :
    (∃ report, audit c = some report ∧ ∃ v, (Tag.OK, v) ∈ report.1 ∧ v.name = m.name) ↔
      Audited c m ∧ ¬ Flagged c m := by
  constructor
  · rintro ⟨report, haudit, v, hok, hname⟩
    obtain ⟨-, rfl⟩ := audit_eq_some_iff.mp haudit
    obtain ⟨hv, hvulnerable⟩ := ok_mem_print_summary_iff.mp hok
    obtain ⟨m', hm'⟩ := mem_gather_iff.mp hv
    obtain ⟨hname', hflagged⟩ := verdict_of_spec hm'
    obtain rfl : m' = m := name_injective (hname'.symm.trans hname)
    exact ⟨(isSome_verdict_of c m').mp (Option.isSome_of_eq_some hm'), mt hflagged.mpr hvulnerable⟩
  · rintro ⟨haudited, hflagged⟩
    obtain ⟨v, hv⟩ := Option.isSome_iff_exists.mp ((isSome_verdict_of c m).mpr haudited)
    have hmem : v ∈ gather c := mem_gather_iff.mpr ⟨m, hv⟩
    have hok : ¬ v.vulnerable = true := mt (verdict_of_spec hv).2.mp hflagged
    exact ⟨_, audit_eq_some_iff.mpr ⟨⟨v, hmem⟩, rfl⟩, v, ok_mem_print_summary_iff.mpr ⟨hmem, hok⟩,
      (verdict_of_spec hv).1⟩

end Reports

/-- Clean reports are sound just where the recorded silent corruption is surfaced. -/
theorem audit_sound_iff (c : Captures) : AuditSound c ↔ Surfaced c := by
  constructor
  · intro hsound m hrecorded
    obtain ⟨r, hr, hsilent⟩ := hrecorded
    by_cases hflagged : Flagged c m
    · exact .inl hflagged
    have haudited : ¬ Audited c m := by
      intro haudited
      obtain ⟨report, haudit, v, hok, hname⟩ := reported_ok_iff.mpr ⟨haudited, hflagged⟩
      exact hsound.mechanism report haudit v hok m hname r hr hsilent
    refine .inr ⟨haudited, ?_⟩
    by_contra hother
    obtain ⟨hnone, hsome⟩ := not_or.mp hother
    have hpass := audit_pass_iff.mpr ⟨by simpa using hsome, hnone⟩
    exact hsound.overall hpass m r hr hsilent
  · intro hsurfaced
    constructor
    · intro hpass m r hr hsilent
      obtain ⟨⟨m', haudited⟩, hnone⟩ := audit_pass_iff.mp hpass
      rcases hsurfaced m ⟨r, hr, hsilent⟩ with hflagged | ⟨-, hother | hother⟩
      · exact hnone ⟨m, hflagged⟩
      · exact hnone hother
      · exact hother m' haudited
    · intro report haudit v hok m hname r hr hsilent
      obtain ⟨haudited, hflagged⟩ := reported_ok_iff.mp ⟨report, haudit, v, hok, hname⟩
      rcases hsurfaced m ⟨r, hr, hsilent⟩ with h | ⟨h, -⟩
      · exact hflagged h
      · exact h haudited

/-- One lossy run of the remedy, reported as deployed with a file that does not match. -/
def smart_mismatch : Captures where
  rq3_corruption := none
  rawdtp_sweep := none
  satdeploy_sweep := some [[("arm", some "smart".toList), ("loss", some "0.05".toList),
    ("status", some "ok".toList), ("result", some "DEPLOYED".toList), ("sha256_verdict", some "MISMATCH".toList)]]

theorem smart_mismatch_passes : ¬ AuditSound smart_mismatch := by
  intro hsound
  have hpass : (audit smart_mismatch).map Prod.snd = some .PASS := by decide +kernel
  refine hsound.overall hpass .smart
    [("arm", some "smart".toList), ("loss", some "0.05".toList), ("status", some "ok".toList),
      ("result", some "DEPLOYED".toList), ("sha256_verdict", some "MISMATCH".toList)] ?_ ⟨?_, ?_⟩
  · decide +kernel
  · exact .inr (by decide +kernel)
  · exact .inr ⟨"sha256_verdict", by decide +kernel, by decide +kernel⟩

end csp_intercept.satguard
