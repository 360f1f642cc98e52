import CspIntercept.Lib.Histogram
import CspIntercept.Lib.Keyed
import CspIntercept.Scripts.Rounded
import CspIntercept.Scripts.Rows

open csp_intercept.float csp_intercept.regime_common

namespace csp_intercept.within_pass_blackouts

inductive Third
  | early
  | mid
  | late
deriving DecidableEq, Repr

def third (pos : ℚ) : Third :=
  if pos < fl (1 / 3) then .early else if pos < fl (2 / 3) then .mid else .late

/-- The name of a log; `None` in a short row. -/
abbrev SourceFile := Option (List Char)

/-- What a row does to `by_file`: nothing, an empty set for a new log, or a sample of the log. -/
inductive Reading
  | skipped
  | touched (source_file : SourceFile)
  | sampled (source_file : SourceFile) (epoch_s : ℚ)
deriving DecidableEq

/-- `int(text) / 1000.0`; none is a `ValueError`, and `some none` an `OverflowError`: the number
    would be rounded to `2^1024` or beyond. -/
def epoch (text : List Char) : Option (Option ℚ) :=
  (csp_verify.int text).map fun ms : ℤ =>
    if ms.natAbs < 2 ^ 1024 - 2 ^ 970 then some (fl (fl ms / 1000)) else none

/-- One row of the telemetry; none when an exception ends the program. -/
def read_row (node : List Char) (r : csv.Row) : Option Reading :=
  match r.column "node" with
  | none => none
  | some value =>
    if value ≠ some node then some .skipped
    else match r.column "source_file" with
      | none => some .skipped
      | some source_file =>
        -- the log has its set before the number is read
        match r.column "epoch_ms" with
        | none => some (.touched source_file)
        | some none => none
        | some (some text) =>
          match epoch text with
          | none => some (.touched source_file)
          | some none => none
          | some (some epoch_s) => some (.sampled source_file epoch_s)

/-- The logs in the order in which they came, each with the set of its samples. -/
abbrev ByFile := List (SourceFile × List ℚ)

def add_reading (by_file : ByFile) : Reading → ByFile
  | .skipped => by_file
  | .touched f => Keyed.change f (·.getD []) by_file
  | .sampled f epoch_s => Keyed.change f (fun eps => (eps.getD []).insert epoch_s) by_file

def add_row (node : List Char) (by_file : ByFile) (r : csv.Row) : Option ByFile :=
  (read_row node r).map (add_reading by_file)

/-- A log of three samples or more. -/
def session_of (f : SourceFile × List ℚ) : Option Session :=
  if h : 3 ≤ f.2.length then
    some
      { source_file := String.ofList (csv.str f.1)
        epochs_s := sorted f.2
        nonempty := List.ne_nil_of_length_pos (by rw [sorted, List.length_insertionSort]; omega)
        increasing := List.pairwise_insertionSort _ _ }
  else none

def sessions (by_file : ByFile) : List Session := by_file.filterMap session_of

/-- A pass with blackouts. -/
structure PassReport where
  files : List String
  n_files : ℕ
  n_samples : ℕ
  n_blackouts : ℕ
  onset_thirds : List Third
deriving DecidableEq

/-- One turn of the loop over the passes, on `all_blackouts` and `per_pass`. -/
def add_pass (gap_factor : ℚ) (acc : List Blackout × List PassReport) (p : Pass) : List Blackout × List PassReport :=
  let bo := rounded.blackout_positions fl p.epochs_s gap_factor
  if bo = [] then acc
  else
    (acc.1 ++ bo, acc.2 ++
      [{ files := p.files
         n_files := p.files.length
         n_samples := p.epochs_s.length
         n_blackouts := bo.length
         onset_thirds := bo.map fun b => third b.onset_pos }])

structure Thirds where
  early : ℕ
  mid : ℕ
  late : ℕ
deriving DecidableEq

/-- `thirds[t] += 1`. -/
def Thirds.add (n : Thirds) : Third → Thirds
  | .early => { n with early := n.early + 1 }
  | .mid => { n with mid := n.mid + 1 }
  | .late => { n with late := n.late + 1 }

/-- The decile of an onset. -/
def decile (pos : ℚ) : ℕ := min 9 ⌊fl (pos * 10)⌋.toNat

structure Report where
  node : List Char
  gap_factor : ℚ
  pass_gap_s : ℚ
  n_sessions_raw : ℕ
  n_passes_clustered : ℕ
  n_passes_with_blackouts : ℕ
  n_blackouts_total : ℕ
  onset_thirds : Thirds
  onset_deciles : List ℕ
  onset_pos_p50 : Option ℚ
  per_pass : List PassReport
deriving DecidableEq

def onset_thirds (bs : List Blackout) : Thirds := bs.foldl (fun n b => n.add (third b.onset_pos)) ⟨0, 0, 0⟩

def onset_deciles (bs : List Blackout) : List ℕ :=
  bs.foldl (Histogram.bump fun b => decile b.onset_pos) (List.replicate 10 0)

/-- The report on the passes of so many logs. -/
def report (node : List Char) (gap_factor : ℚ) (n_sessions_raw : ℕ) (passes : List Pass) : Report :=
  let (all_blackouts, per_pass) := passes.foldl (add_pass gap_factor) ([], [])
  { node
    gap_factor
    pass_gap_s := PASS_GAP_S
    n_sessions_raw
    n_passes_clustered := passes.length
    n_passes_with_blackouts := per_pass.length
    n_blackouts_total := all_blackouts.length
    onset_thirds := onset_thirds all_blackouts
    onset_deciles := onset_deciles all_blackouts
    onset_pos_p50 :=
      if all_blackouts = [] then none
      else (rounded.percentile fl (all_blackouts.map Blackout.onset_pos) 50).map (rounded.round fl · 3)
    per_pass }

/-- The report on the rows of a telemetry file. -/
def build (rows : List csv.Row) (node : List Char) (gap_factor : ℚ) : Option Report :=
  (rows.foldlM (add_row node) []).map fun by_file =>
    report node gap_factor (sessions by_file).length (rounded.cluster_passes fl (sessions by_file) PASS_GAP_S)

/-- A row samples a log at a time. -/
def Sampled (node : List Char) (rows : List csv.Row) (f : SourceFile) (t : ℚ) : Prop :=
  ∃ r ∈ rows, read_row node r = some (.sampled f t)

section Read

variable {node : List Char} {rows : List csv.Row} {by_file : ByFile}

/-- What is in the set of a log. -/
def samples_of (by_file : ByFile) (f : SourceFile) : List ℚ := (by_file.lookup f).getD []

theorem samples_of_add_reading (by_file : ByFile) (reading : Reading) (f : SourceFile) :
    samples_of (add_reading by_file reading) f = match reading with
      | .sampled g t => if f = g then (samples_of by_file g).insert t else samples_of by_file f
      | _ => samples_of by_file f := by
  cases reading with
  | skipped => rfl
  | touched g =>
    rw [add_reading, samples_of, Keyed.lookup_change]
    by_cases hf : f = g
    · subst hf
      rw [if_pos rfl]
      rfl
    · rw [if_neg hf]
      rfl
  | sampled g t =>
    rw [add_reading, samples_of, Keyed.lookup_change]
    by_cases hf : f = g
    · simp only [if_pos hf]
      rfl
    · simp only [if_neg hf]
      rfl

/-- The sets are these samples. -/
structure ByFile.Holds (by_file : ByFile) (sampled : SourceFile → ℚ → Prop) : Prop where
  keys : (by_file.map Prod.fst).Nodup
  nodup : ∀ f, (samples_of by_file f).Nodup
  samples : ∀ f t, t ∈ samples_of by_file f ↔ sampled f t

theorem ByFile.Holds.add_reading {sampled : SourceFile → ℚ → Prop} (h : by_file.Holds sampled) (reading : Reading) :
    (add_reading by_file reading).Holds fun f t => sampled f t ∨ reading = .sampled f t := by
  refine ⟨?_, fun f => ?_, fun f t => ?_⟩
  · cases reading with
    | skipped => exact h.keys
    | touched g => exact Keyed.nodup_keys_change _ h.keys
    | sampled g t => exact Keyed.nodup_keys_change _ h.keys
  · rw [samples_of_add_reading]
    cases reading with
    | skipped => exact h.nodup f
    | touched g => exact h.nodup f
    | sampled g t =>
      dsimp only
      split_ifs
      · exact (h.nodup g).insert
      · exact h.nodup f
  · rw [samples_of_add_reading]
    cases reading with
    | skipped => simp [h.samples]
    | touched g => simp [h.samples]
    | sampled g u =>
      dsimp only
      split_ifs with hf
      · subst hf
        simp [h.samples, or_comm, eq_comm]
      · simp [h.samples, Ne.symm hf]

/-- The loop stores the samples of the rows. -/
theorem foldlM_add_row (h : rows.foldlM (add_row node) [] = some by_file) :
    by_file.Holds (Sampled node rows) := by
  induction rows using List.reverseRecOn generalizing by_file with
  | nil =>
    obtain rfl := Option.some.inj h
    exact ⟨List.nodup_nil, fun f => List.nodup_nil, fun f t => by simp [samples_of, Sampled]⟩
  | append_singleton rows r ih =>
    rw [List.foldlM_append] at h
    obtain ⟨before, hbefore, hlast⟩ := Option.bind_eq_some_iff.mp h
    rw [List.foldlM_cons] at hlast
    obtain ⟨after, hrow, hafter⟩ := Option.bind_eq_some_iff.mp hlast
    obtain rfl := Option.some.inj hafter
    obtain ⟨reading, hread, rfl⟩ := Option.map_eq_some_iff.mp hrow
    have hstep := (ih hbefore).add_reading reading
    refine ⟨hstep.keys, hstep.nodup, fun f t => (hstep.samples f t).trans ?_⟩
    simp [Sampled, or_and_right, exists_or, hread]

/-- The program ends in an exception exactly when a row makes it. -/
theorem foldlM_add_row_eq_none_iff (by_file : ByFile) :
    rows.foldlM (add_row node) by_file = none ↔ ∃ r ∈ rows, read_row node r = none := by
  induction rows generalizing by_file with
  | nil => simp
  | cons r rows ih =>
    rw [List.foldlM_cons, add_row]
    cases hread : read_row node r with
    | none => simp [hread]
    | some reading => simpa [hread] using ih (add_reading by_file reading)

end Read

section Logs

variable {by_file : ByFile} {sampled : SourceFile → ℚ → Prop}

/-- The logs that are kept, each with its samples in increasing order. -/
structure Logs (sampled : SourceFile → ℚ → Prop) (logs : List (SourceFile × List ℚ)) : Prop where
  /-- A log is one entry. -/
  keys : (logs.map Prod.fst).Nodup
  /-- An entry has all that the log sampled, and that is three times or more. -/
  entries : ∀ f eps, (f, eps) ∈ logs ↔
    eps.Pairwise (· < ·) ∧ (∀ t, t ∈ eps ↔ sampled f t) ∧ 3 ≤ eps.length

theorem Logs.perm {logs logs' : List (SourceFile × List ℚ)} (h : Logs sampled logs) (h' : Logs sampled logs') :
    logs.Perm logs' := by
  rw [List.perm_ext_iff_of_nodup (.of_map Prod.fst h.keys) (.of_map Prod.fst h'.keys)]
  rintro ⟨f, eps⟩
  rw [h.entries, h'.entries]

def logs (by_file : ByFile) : List (SourceFile × List ℚ) :=
  (by_file.map fun f => (f.1, sorted f.2)).filter fun f => 3 ≤ f.2.length

theorem length_sorted (xs : List ℚ) : (sorted xs).length = xs.length := List.length_insertionSort _ xs

theorem sorted_sorted (xs : List ℚ) : sorted (sorted xs) = sorted xs :=
  (List.pairwise_insertionSort (· ≤ ·) xs).insertionSort_eq

theorem session_of_sorted (f : SourceFile × List ℚ) : session_of (f.1, sorted f.2) = session_of f := by
  simp only [session_of, length_sorted, sorted_sorted]

theorem sessions_eq (by_file : ByFile) : sessions by_file = (logs by_file).filterMap session_of := by
  induction by_file with
  | nil => rfl
  | cons f by_file ih =>
    rw [sessions, List.filterMap_cons, logs, List.map_cons, List.filter_cons]
    by_cases hlen : 3 ≤ f.2.length
    · simp only [length_sorted, hlen, decide_true, if_true, List.filterMap_cons, session_of_sorted]
      rw [session_of, dif_pos hlen]
      exact congrArg _ ih
    · simp only [length_sorted, hlen, decide_false, Bool.false_eq_true, if_false]
      rw [session_of, dif_neg hlen]
      exact ih

theorem mem_logs (hkeys : (by_file.map Prod.fst).Nodup) {f : SourceFile} {eps : List ℚ} :
    (f, eps) ∈ logs by_file ↔ eps = sorted (samples_of by_file f) ∧ 3 ≤ eps.length := by
  rw [logs, List.mem_filter, decide_eq_true_eq, and_congr_left_iff]
  intro hlen
  rw [List.mem_map]
  constructor
  · rintro ⟨⟨g, set⟩, hmem, heq⟩
    obtain ⟨rfl, rfl⟩ := Prod.mk.inj heq
    have hset : by_file.lookup g = some set := (Keyed.mem_dict_iff hkeys).mp hmem
    rw [samples_of, hset]
    rfl
  · intro heq
    cases hset : by_file.lookup f with
    | none =>
      rw [samples_of, hset] at heq
      subst heq
      simp [sorted] at hlen
    | some set =>
      refine ⟨(f, set), (Keyed.mem_dict_iff hkeys).mpr hset, ?_⟩
      rw [heq, samples_of, hset]
      rfl

theorem ByFile.Holds.logs (h : by_file.Holds sampled) : Logs sampled (logs by_file) := by
  have hlt (f : SourceFile) : (sorted (samples_of by_file f)).Pairwise (· < ·) := by
    have hle : (sorted (samples_of by_file f)).Pairwise (· ≤ ·) := List.pairwise_insertionSort _ _
    have hnodup := (List.perm_insertionSort (· ≤ ·) (samples_of by_file f)).nodup_iff.mpr (h.nodup f)
    exact (hle.and hnodup).imp fun h => lt_of_le_of_ne h.1 h.2
  have hmem (f : SourceFile) (t : ℚ) : t ∈ sorted (samples_of by_file f) ↔ sampled f t :=
    (List.mem_insertionSort _).trans (h.samples f t)
  refine ⟨?_, fun f eps => ?_⟩
  · refine h.keys.sublist ?_
    have hkeys : by_file.map Prod.fst = (by_file.map fun f => (f.1, sorted f.2)).map Prod.fst := by
      rw [List.map_map]
      rfl
    rw [hkeys]
    exact List.filter_sublist.map _
  · rw [mem_logs h.keys, ← and_assoc, and_congr_left_iff]
    intro hlen
    constructor
    · rintro rfl
      exact ⟨hlt f, hmem f⟩
    · rintro ⟨hincreasing, hsamples⟩
      exact hincreasing.eq_of_mem_iff (hlt f) fun t => (hsamples t).trans (hmem f t).symm

end Logs

section Passes

variable {gap_factor : ℚ}

/-- The entry of a pass, if it has one. -/
def pass_report (gap_factor : ℚ) (p : Pass) : Option PassReport :=
  ((add_pass gap_factor ([], []) p).2).head?

/-- The blackouts of all passes, in their order. -/
def all_blackouts (gap_factor : ℚ) (passes : List Pass) : List Blackout :=
  passes.flatMap fun p => rounded.blackout_positions fl p.epochs_s gap_factor

theorem all_blackouts_cons (gap_factor : ℚ) (p : Pass) (passes : List Pass) :
    all_blackouts gap_factor (p :: passes) =
      rounded.blackout_positions fl p.epochs_s gap_factor ++ all_blackouts gap_factor passes := List.flatMap_cons

theorem foldl_add_pass (passes : List Pass) (acc : List Blackout × List PassReport) :
    passes.foldl (add_pass gap_factor) acc =
      (acc.1 ++ all_blackouts gap_factor passes, acc.2 ++ passes.filterMap (pass_report gap_factor)) := by
  induction passes generalizing acc with
  | nil => simp [all_blackouts]
  | cons p passes ih =>
    rw [List.foldl_cons, ih, all_blackouts_cons, List.filterMap_cons, pass_report, add_pass, add_pass]
    by_cases hnone : rounded.blackout_positions fl p.epochs_s gap_factor = []
    · simp [hnone]
    · simp [hnone]

/-- The logs in any order make the same passes, the order of the files in them aside. -/
theorem cluster_passes_perm {sessions sessions' : List Session} {gap_s : ℚ} (hgap : 0 ≤ gap_s)
    (hperm : sessions'.Perm sessions) :
    List.Forall₂ (fun p q => p.files.Perm q.files ∧ p.epochs_s = q.epochs_s)
      (cluster_passes sessions' gap_s) (cluster_passes sessions gap_s) := by
  have hstart := ((perm_by_start sessions').trans hperm).trans (perm_by_start sessions).symm
  have hgroups := Gaps.forall₂_perm_splitBy hgap hstart (pairwise_by_start sessions') (pairwise_by_start sessions)
  rw [cluster_passes_eq, cluster_passes_eq, List.forall₂_map_left_iff, List.forall₂_map_right_iff]
  exact hgroups.imp fun _ _ => pass_of_perm

/-- The same entry, the order of its files aside. -/
def SamePass (p q : PassReport) : Prop :=
  p.files.Perm q.files ∧ { p with files := [] } = { q with files := [] }

/-- The same report, the order of the files in a pass aside. -/
structure SameReport (r r' : Report) : Prop where
  figures : { r with per_pass := [] } = { r' with per_pass := [] }
  per_pass : List.Forall₂ SamePass r.per_pass r'.per_pass

theorem same_pass_report {p q : Pass} (hfiles : p.files.Perm q.files) (hepochs : p.epochs_s = q.epochs_s) :
    Option.Rel SamePass (pass_report gap_factor p) (pass_report gap_factor q) := by
  rw [pass_report, pass_report, add_pass, add_pass, hepochs]
  by_cases hnone : rounded.blackout_positions fl q.epochs_s gap_factor = []
  · simp only [if_pos hnone]
    exact .none
  · simp only [if_neg hnone]
    refine .some ⟨hfiles, ?_⟩
    simp [hfiles.length_eq]

theorem same_report (node : List Char) (n : ℕ) {passes passes' : List Pass}
    (hsame : List.Forall₂ (fun p q => p.files.Perm q.files ∧ p.epochs_s = q.epochs_s) passes passes') :
    SameReport (report node gap_factor n passes) (report node gap_factor n passes') := by
  have hall : all_blackouts gap_factor passes = all_blackouts gap_factor passes' := by
    induction hsame with
    | nil => rfl
    | cons h _ ih => rw [all_blackouts_cons, all_blackouts_cons, h.2, ih]
  have hper : List.Forall₂ SamePass (passes.filterMap (pass_report gap_factor))
      (passes'.filterMap (pass_report gap_factor)) :=
    List.rel_filterMap (fun _ _ h => same_pass_report h.1 h.2) hsame
  refine ⟨?_, ?_⟩
  · simp only [report, foldl_add_pass, List.nil_append, hall, hper.length_eq, hsame.length_eq]
  · simpa only [report, foldl_add_pass, List.nil_append] using hper

end Passes

section Counts

variable {gap_factor : ℚ}

/-- The count of a third. -/
def Thirds.of (n : Thirds) : Third → ℕ
  | .early => n.early
  | .mid => n.mid
  | .late => n.late

theorem Thirds.of_add (n : Thirds) (t u : Third) : (n.add u).of t = n.of t + if u = t then 1 else 0 := by
  cases t <;> cases u <;> rfl

/-- Each third counts the onsets in it. -/
theorem of_onset_thirds (bs : List Blackout) (t : Third) :
    (onset_thirds bs).of t = bs.countP (third ·.onset_pos = t) := by
  induction bs using List.reverseRecOn with
  | nil => cases t <;> rfl
  | append_singleton bs b ih =>
    have hstep : onset_thirds (bs ++ [b]) = (onset_thirds bs).add (third b.onset_pos) := by
      rw [onset_thirds, List.foldl_append]
      rfl
    rw [hstep, Thirds.of_add, ih, List.countP_append, List.countP_singleton]
    simp only [decide_eq_true_eq]

theorem third_eq_early_iff {pos : ℚ} : third pos = .early ↔ pos < fl (1 / 3) := by
  rw [third]
  split_ifs with hearly hmid
  · exact iff_of_true rfl hearly
  · exact iff_of_false not_false hearly
  · exact iff_of_false not_false hearly

theorem third_ne_late_iff {pos : ℚ} : third pos ≠ .late ↔ pos < fl (2 / 3) := by
  rw [third]
  split_ifs with hearly hmid
  · exact iff_of_true Third.noConfusion (hearly.trans_le (fl_mono (by norm_num)))
  · exact iff_of_true Third.noConfusion hmid
  · exact iff_of_false (not_not_intro rfl) hmid

/-- The deciles below one of the first nine. -/
theorem decile_lt_iff {pos : ℚ} {n : ℕ} (hpos : 0 < n) (hn : n ≤ 9) : decile pos < n ↔ fl (pos * 10) < n := by
  have hmin : decile pos < n ↔ ⌊fl (pos * 10)⌋.toNat < n := by
    rw [decile]
    omega
  rw [hmin, Int.toNat_lt' (by omega), Int.floor_lt, Int.cast_natCast]

/-- How many gaps the analysis of the regime finds in a pass. -/
def gaps (gap_factor : ℚ) (p : Pass) : ℕ := (rounded.detect_blackouts fl p.epochs_s gap_factor MIN_FLOOR_S).2.length

theorem length_blackout_positions {p : Pass} (hsorted : p.epochs_s.Pairwise (· ≤ ·)) :
    (rounded.blackout_positions fl p.epochs_s gap_factor).length = gaps gap_factor p := by
  rw [gaps, rounded.blackout_intervals_gaps fl_mono fl_zero hsorted, List.length_map, rounded.blackout_positions,
    List.length_map]

theorem length_all_blackouts {passes : List Pass} (hsorted : ∀ p ∈ passes, p.epochs_s.Pairwise (· ≤ ·)) :
    (all_blackouts gap_factor passes).length = (passes.map (gaps gap_factor)).sum := by
  rw [all_blackouts, List.length_flatMap]
  congr 1
  exact List.map_congr_left fun p hp => length_blackout_positions (hsorted p hp)

/-- Exactly the passes with gaps have an entry. -/
theorem n_blackouts_pass_report {passes : List Pass} (hsorted : ∀ p ∈ passes, p.epochs_s.Pairwise (· ≤ ·)) :
    (passes.filterMap (pass_report gap_factor)).map PassReport.n_blackouts =
      (passes.map (gaps gap_factor)).filter (· ≠ 0) := by
  induction passes with
  | nil => rfl
  | cons p passes ih =>
    have hlen : (rounded.blackout_positions fl p.epochs_s gap_factor).length = gaps gap_factor p :=
      length_blackout_positions (hsorted p List.mem_cons_self)
    have hrest := ih fun q hq => hsorted q (List.mem_cons_of_mem p hq)
    rw [List.filterMap_cons, pass_report, add_pass, List.map_cons, List.filter_cons, ← hlen]
    by_cases hnone : rounded.blackout_positions fl p.epochs_s gap_factor = []
    · simpa [hnone] using hrest
    · simpa [hnone] using hrest

/-- The thirds of the entries are the thirds of the blackouts. -/
theorem onset_thirds_pass_report (passes : List Pass) (t : Third) :
    ((passes.filterMap (pass_report gap_factor)).map fun p => p.onset_thirds.count t).sum =
      (all_blackouts gap_factor passes).countP (third ·.onset_pos = t) := by
  induction passes with
  | nil => rfl
  | cons p passes ih =>
    rw [all_blackouts_cons, List.countP_append, ← ih, List.filterMap_cons, pass_report, add_pass]
    by_cases hnone : rounded.blackout_positions fl p.epochs_s gap_factor = []
    · simp [hnone]
    · simp only [if_neg hnone, List.nil_append, List.head?_cons, List.map_cons, List.sum_cons, List.count,
        List.countP_map]
      congr 1

end Counts

/-- What the figures of a report count, over the passes of the logs. -/
structure Accounts (gap_factor : ℚ) (sessions : List Session) (r : Report) : Prop where
  n_sessions_raw : r.n_sessions_raw = sessions.length
  n_passes_clustered : r.n_passes_clustered = (rounded.cluster_passes fl sessions PASS_GAP_S).length
  n_passes_with_blackouts : r.n_passes_with_blackouts = r.per_pass.length
  /-- A blackout is a gap of a pass. -/
  n_blackouts_total : r.n_blackouts_total = ((rounded.cluster_passes fl sessions PASS_GAP_S).map (gaps gap_factor)).sum
  /-- The passes with gaps have an entry, in their order. -/
  per_pass : r.per_pass.map PassReport.n_blackouts =
    ((rounded.cluster_passes fl sessions PASS_GAP_S).map (gaps gap_factor)).filter (· ≠ 0)
  /-- Each blackout is in one third, and in one decile. -/
  thirds : r.onset_thirds.early + r.onset_thirds.mid + r.onset_thirds.late = r.n_blackouts_total
  deciles : r.onset_deciles.length = 10 ∧ r.onset_deciles.sum = r.n_blackouts_total
  /-- The thirds of the entries add up to the thirds of the whole. -/
  third_of : ∀ t, r.onset_thirds.of t = (r.per_pass.map fun p => p.onset_thirds.count t).sum
  /-- The two histograms do not contradict each other. -/
  early : (r.onset_deciles.take 3).sum ≤ r.onset_thirds.early ∧ r.onset_thirds.early ≤ (r.onset_deciles.take 4).sum
  mid : (r.onset_deciles.take 6).sum ≤ r.onset_thirds.early + r.onset_thirds.mid ∧
    r.onset_thirds.early + r.onset_thirds.mid ≤ (r.onset_deciles.take 7).sum

section Report

theorem early_onset_thirds (bs : List Blackout) : (onset_thirds bs).early = bs.countP (·.onset_pos < fl (1 / 3)) := by
  have hearly : (onset_thirds bs).early = bs.countP (third ·.onset_pos = .early) := of_onset_thirds bs .early
  simp only [hearly, third_eq_early_iff]

theorem early_add_mid_onset_thirds (bs : List Blackout) :
    (onset_thirds bs).early + (onset_thirds bs).mid = bs.countP (·.onset_pos < fl (2 / 3)) := by
  have hearly : (onset_thirds bs).early = bs.countP (third ·.onset_pos = .early) := of_onset_thirds bs .early
  have hmid : (onset_thirds bs).mid = bs.countP (third ·.onset_pos = .mid) := of_onset_thirds bs .mid
  rw [hearly, hmid]
  clear hearly hmid
  induction bs with
  | nil => rfl
  | cons b bs ih =>
    have hlate : b.onset_pos < fl (2 / 3) ↔ third b.onset_pos ≠ .late := third_ne_late_iff.symm
    simp only [List.countP_cons, hlate]
    cases third b.onset_pos <;> simp <;> omega

theorem sum_onset_thirds (bs : List Blackout) :
    (onset_thirds bs).early + (onset_thirds bs).mid + (onset_thirds bs).late = bs.length := by
  have hlate : (onset_thirds bs).late = bs.countP (third ·.onset_pos = .late) := of_onset_thirds bs .late
  have hnot : bs.countP (·.onset_pos < fl (2 / 3)) = bs.countP (third ·.onset_pos ≠ .late) := by
    simp only [third_ne_late_iff]
  have hsplit := List.length_eq_countP_add_countP (l := bs) fun b => decide (third b.onset_pos = .late)
  simp only [decide_eq_true_eq] at hsplit
  rw [early_add_mid_onset_thirds, hlate, hnot, Nat.add_comm]
  exact hsplit.symm

/-- The first deciles hold the onsets in them. -/
theorem sum_take_onset_deciles (bs : List Blackout) (k : ℕ) :
    ((onset_deciles bs).take k).sum = bs.countP (decile ·.onset_pos < k) := by
  have hbin : ∀ b ∈ bs, decile b.onset_pos < (List.replicate 10 0).length := by
    intro b _
    rw [List.length_replicate, decile]
    omega
  rw [onset_deciles, Histogram.sum_take_foldl_bump hbin, List.take_replicate, List.sum_replicate_nat, Nat.mul_zero,
    Nat.zero_add]

theorem length_onset_deciles (bs : List Blackout) : (onset_deciles bs).length = 10 :=
  (Histogram.length_foldl_bump _ bs).trans List.length_replicate

theorem sum_onset_deciles (bs : List Blackout) : (onset_deciles bs).sum = bs.length := by
  have hall : bs.countP (decile ·.onset_pos < 10) = bs.length := by
    rw [List.countP_eq_length]
    intro b _
    rw [decide_eq_true_eq, decile]
    omega
  rw [← hall, ← sum_take_onset_deciles, List.take_of_length_le (length_onset_deciles bs).le]

/-- The onsets of the first deciles are below what is not below the end of them. -/
theorem sum_take_onset_deciles_le (bs : List Blackout) {p : ℚ} {n : ℕ} (hpos : 0 < n) (hn : n ≤ 9)
    (hend : n ≤ fl (p * 10)) : ((onset_deciles bs).take n).sum ≤ bs.countP (·.onset_pos < p) := by
  rw [sum_take_onset_deciles]
  apply List.countP_mono_left
  intro b _ hb
  have hlt : fl (b.onset_pos * 10) < n := (decile_lt_iff hpos hn).mp (of_decide_eq_true hb)
  apply decide_eq_true
  by_contra hover
  have hle : fl (p * 10) ≤ fl (b.onset_pos * 10) :=
    fl_mono (mul_le_mul_of_nonneg_right (not_lt.mp hover) (by norm_num))
  linarith

theorem le_sum_take_onset_deciles (bs : List Blackout) {p : ℚ} {n : ℕ} (hpos : 0 < n) (hn : n ≤ 9)
    (hend : fl (p * 10) < n) : bs.countP (·.onset_pos < p) ≤ ((onset_deciles bs).take n).sum := by
  rw [sum_take_onset_deciles]
  apply List.countP_mono_left
  intro b _ hb
  have hlt : b.onset_pos < p := of_decide_eq_true hb
  have hle : fl (b.onset_pos * 10) ≤ fl (p * 10) := fl_mono (mul_le_mul_of_nonneg_right hlt.le (by norm_num))
  exact decide_eq_true ((decile_lt_iff hpos hn).mpr (hle.trans_lt hend))

/-- The doubles next to the thirds lie inside the fourth and the seventh decile. -/
theorem third_ends : 3 ≤ fl (fl (1 / 3) * 10) ∧ fl (fl (1 / 3) * 10) < 4 ∧ 6 ≤ fl (fl (2 / 3) * 10) ∧
    fl (fl (2 / 3) * 10) < 7 := by decide +kernel

theorem pairwise_cluster_passes {sessions : List Session} {p : Pass}
    (hp : p ∈ rounded.cluster_passes fl sessions PASS_GAP_S) : p.epochs_s.Pairwise (· ≤ ·) := by
  rw [rounded.cluster_passes_eq fl_le_pass_gap_iff, cluster_passes_eq] at hp
  obtain ⟨g, -, rfl⟩ := List.mem_map.mp hp
  exact (pairwise_pass_of g).imp le_of_lt

theorem report_accounts (node : List Char) (gap_factor : ℚ) (sessions : List Session) :
    Accounts gap_factor sessions
      (report node gap_factor sessions.length (rounded.cluster_passes fl sessions PASS_GAP_S)) := by
  have hsorted : ∀ p ∈ rounded.cluster_passes fl sessions PASS_GAP_S, p.epochs_s.Pairwise (· ≤ ·) :=
    fun p => pairwise_cluster_passes
  generalize hpasses : rounded.cluster_passes fl sessions PASS_GAP_S = passes at hsorted
  generalize hbs : all_blackouts gap_factor passes = bs
  refine ⟨rfl, ?_, ?_, ?_, ?_, ?_, ⟨?_, ?_⟩, fun t => ?_, ⟨?_, ?_⟩, ⟨?_, ?_⟩⟩ <;>
    simp only [report, foldl_add_pass, List.nil_append, hpasses, hbs]
  · exact hbs ▸ length_all_blackouts hsorted
  · exact n_blackouts_pass_report hsorted
  · exact sum_onset_thirds bs
  · exact length_onset_deciles bs
  · exact sum_onset_deciles bs
  · rw [of_onset_thirds, onset_thirds_pass_report, hbs]
  · rw [early_onset_thirds]
    exact sum_take_onset_deciles_le bs (by omega) (by omega) third_ends.1
  · rw [early_onset_thirds]
    exact le_sum_take_onset_deciles bs (by omega) (by omega) third_ends.2.1
  · rw [early_add_mid_onset_thirds]
    exact sum_take_onset_deciles_le bs (by omega) (by omega) third_ends.2.2.1
  · rw [early_add_mid_onset_thirds]
    exact le_sum_take_onset_deciles bs (by omega) (by omega) third_ends.2.2.2

end Report

/-- No row ends the program, and the logs sampled at the same times. -/
def SameSamples (node : List Char) (rows rows' : List csv.Row) : Prop :=
  (∀ row ∈ rows', read_row node row ≠ none) ∧ ∀ f t, Sampled node rows' f t ↔ Sampled node rows f t

/-- The report is about the set of samples: its figures account for the gaps of the passes that the
    logs make, and other rows with the same samples, in any order and any number, make the same
    report. -/
theorem report_of_samples {rows : List csv.Row} {node : List Char} {gap_factor : ℚ} {r : Report}
    (hbuild : build rows node gap_factor = some r) :
    (∃ logs, Logs (Sampled node rows) logs ∧ Accounts gap_factor (logs.filterMap session_of) r) ∧
      ∀ rows', SameSamples node rows rows' → ∃ r', build rows' node gap_factor = some r' ∧ SameReport r' r := by
  obtain ⟨by_file, hrows, rfl⟩ := Option.map_eq_some_iff.mp hbuild
  have hlogs := (foldlM_add_row hrows).logs
  refine ⟨⟨logs by_file, hlogs, ?_⟩, fun rows' hsame => ?_⟩
  · rw [← sessions_eq]
    exact report_accounts node gap_factor (sessions by_file)
  · cases hrows' : rows'.foldlM (add_row node) [] with
    | none =>
      obtain ⟨row, hrow, hnone⟩ := (foldlM_add_row_eq_none_iff []).mp hrows'
      exact absurd hnone (hsame.1 row hrow)
    | some by_file' =>
      have hsampled : Sampled node rows' = Sampled node rows := by
        funext f t
        exact propext (hsame.2 f t)
      have hlogs' : Logs (Sampled node rows) (logs by_file') := hsampled ▸ (foldlM_add_row hrows').logs
      have hperm : (sessions by_file').Perm (sessions by_file) := by
        rw [sessions_eq, sessions_eq]
        exact (hlogs'.perm hlogs).filterMap _
      refine ⟨_, congrArg _ hrows', ?_⟩
      dsimp only
      rw [hperm.length_eq]
      rw [rounded.cluster_passes_eq fl_le_pass_gap_iff, rounded.cluster_passes_eq fl_le_pass_gap_iff]
      exact same_report node _ (cluster_passes_perm (by norm_num [PASS_GAP_S]) hperm)

/-- A row of the telemetry of node 7. -/
def telemetry_row (source_file epoch_ms : String) : csv.Row :=
  [("source_file", some source_file.toList), ("epoch_ms", some epoch_ms.toList), ("node", some ['7'])]

/-- Two logs of one pass. The last interval is five times the median one, and longer than the threshold
    as doubles. -/
def telemetry : List csv.Row :=
  [telemetry_row "logX" "1700000012302", telemetry_row "logX" "1700000014701", telemetry_row "logX" "1700000017100",
    telemetry_row "logX" "1700000029095", telemetry_row "logY" "1700000012302", telemetry_row "logY" "1700000017100",
    telemetry_row "logY" "1700000014701"]

theorem report_of_samples_two_logs :
    ∃ r, build telemetry ['7'] 5 = some r ∧ r.n_blackouts_total = 1 ∧ r.onset_thirds = ⟨1, 0, 0⟩ ∧
      ∃ r', build telemetry.reverse ['7'] 5 = some r' ∧ SameReport r' r := by
  have hread : ∀ row ∈ telemetry.reverse, read_row ['7'] row ≠ none := by decide +kernel
  obtain ⟨r, hr⟩ := Option.isSome_iff_exists.mp (by decide +kernel : (build telemetry ['7'] 5).isSome)
  have htotal : (build telemetry ['7'] 5).map Report.n_blackouts_total = some 1 := by decide +kernel
  have hthirds : (build telemetry ['7'] 5).map Report.onset_thirds = some ⟨1, 0, 0⟩ := by decide +kernel
  rw [hr] at htotal hthirds
  refine ⟨r, hr, Option.some.inj htotal, Option.some.inj hthirds, ?_⟩
  refine (report_of_samples hr).2 telemetry.reverse ⟨hread, fun f t => ?_⟩
  simp only [Sampled, List.mem_reverse]

end csp_intercept.within_pass_blackouts
