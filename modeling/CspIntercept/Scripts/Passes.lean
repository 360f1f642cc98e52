import CspIntercept.Scripts.Blackouts

open Gaps csp_intercept.regime_common

namespace csp_intercept.within_pass_blackouts

/-- One log: its file and the times it sampled at. -/
structure Session where
  source_file : String
  epochs_s : List ℚ
  nonempty : epochs_s ≠ []
  increasing : epochs_s.Pairwise (· ≤ ·)

def Session.start (s : Session) : ℚ := s.epochs_s.head s.nonempty

def Session.finish (s : Session) : ℚ := s.epochs_s.getLast s.nonempty

/-- A start this much after the one before it opens a new pass. -/
def PASS_GAP_S : ℚ := 1200

/-- A pass under construction; the epochs are a set. -/
structure Cluster where
  files : List String
  epochs : List ℚ

structure Pass where
  files : List String
  epochs_s : List ℚ
deriving DecidableEq

def by_start (sessions : List Session) : List Session :=
  sessions.insertionSort fun s t => s.start ≤ t.start

/-- One turn of the loop, on the clusters and `last_start`. -/
def add_session (gap_s : ℚ) (acc : List Cluster × Option ℚ) (s : Session) : List Cluster × Option ℚ :=
  let opened := acc.1 ++ [⟨[s.source_file], s.epochs_s ∪ []⟩]
  let clusters := match acc.1.getLast?, acc.2 with
    | some c, some last_start =>
      if s.start - last_start ≤ gap_s then
        acc.1.dropLast ++ [⟨c.files ++ [s.source_file], s.epochs_s ∪ c.epochs⟩]
      else opened
    | _, _ => opened
  (clusters, some s.start)

def cluster_passes (sessions : List Session) (gap_s : ℚ) : List Pass :=
  ((by_start sessions).foldl (add_session gap_s) ([], none)).1.map fun c => ⟨c.files, sorted c.epochs⟩

/-- The sessions of each pass. -/
def groups (sessions : List Session) (gap_s : ℚ) : List (List Session) :=
  (by_start sessions).splitBy (near Session.start gap_s)

/-- There is a time within both spans. -/
def Overlap (s t : Session) : Prop := s.start ≤ t.finish ∧ t.start ≤ s.finish

/-- Concurrent logs are one pass. -/
structure MergedFirst (sessions : List Session) (gap_s : ℚ) : Prop where
  /-- Every session is in exactly one pass. -/
  once : (groups sessions gap_s).flatten.Perm sessions
  /-- A pass has the files of its sessions, and exactly their samples, in increasing order. -/
  samples : List.Forall₂ (fun p g => p.files = g.map Session.source_file ∧ p.epochs_s.Pairwise (· < ·) ∧
    ∀ t, t ∈ p.epochs_s ↔ ∃ s ∈ g, t ∈ s.epochs_s) (cluster_passes sessions gap_s) (groups sessions gap_s)
  /-- No two sessions of different passes overlap. -/
  together : (groups sessions gap_s).Pairwise fun g h => ∀ s ∈ g, ∀ t ∈ h, ¬ Overlap s t
  /-- Nobody sampled during a blackout. -/
  conservative : ∀ p ∈ cluster_passes sessions gap_s, ∀ gap_factor, ∀ i ∈ blackout_intervals p.epochs_s gap_factor,
    ∀ s ∈ sessions, ∀ t ∈ s.epochs_s, ¬ (i.1 < t ∧ t < i.2)
  /-- The order of the sessions only shows in the order of the files of a pass. -/
  order : ∀ sessions', sessions'.Perm sessions → List.Forall₂ (fun p q => p.files.Perm q.files ∧
    p.epochs_s = q.epochs_s) (cluster_passes sessions' gap_s) (cluster_passes sessions gap_s)

/-- From the start of a session to any start before its end, the starts follow one another
    within the gap. -/
def StartsFollow (sessions : List Session) (gap_s : ℚ) : Prop :=
  ∀ s ∈ sessions, ∀ t ∈ sessions, s.start ≤ t.start → t.start ≤ s.finish →
    ∀ u ∈ sessions, s.start ≤ u.start → u.start < t.start →
      ∃ v ∈ sessions, u.start < v.start ∧ v.start ≤ u.start + gap_s

section Sessions

variable {s : Session}

theorem Session.start_le {t : ℚ} (ht : t ∈ s.epochs_s) : s.start ≤ t := s.increasing.rel_head ht

theorem Session.le_finish {t : ℚ} (ht : t ∈ s.epochs_s) : t ≤ s.finish := s.increasing.rel_getLast ht

theorem Session.start_le_finish (s : Session) : s.start ≤ s.finish := s.start_le (List.getLast_mem s.nonempty)

theorem perm_by_start (sessions : List Session) : (by_start sessions).Perm sessions :=
  List.perm_insertionSort _ sessions

theorem pairwise_by_start (sessions : List Session) : (by_start sessions).Pairwise (·.start ≤ ·.start) := by
  have : Std.Total fun s t : Session => s.start ≤ t.start := ⟨fun s t => le_total s.start t.start⟩
  have : IsTrans Session fun s t => s.start ≤ t.start := ⟨fun _ _ _ => le_trans⟩
  exact List.pairwise_insertionSort _ sessions

end Sessions

section Clusters

/-- The cluster of a group of sessions. -/
def cluster_of (g : List Session) : Cluster where
  files := g.map Session.source_file
  epochs := g.foldl (fun epochs s => s.epochs_s ∪ epochs) []

theorem cluster_of_concat (g : List Session) (s : Session) : cluster_of (g ++ [s]) =
    ⟨(cluster_of g).files ++ [s.source_file], s.epochs_s ∪ (cluster_of g).epochs⟩ := by
  simp [cluster_of]

theorem mem_cluster_of {g : List Session} {t : ℚ} :
    t ∈ (cluster_of g).epochs ↔ ∃ s ∈ g, t ∈ s.epochs_s := by
  induction g using List.reverseRecOn with
  | nil => simp [cluster_of]
  | append_singleton g s ih =>
    rw [cluster_of_concat, List.mem_union_iff, ih]
    simp only [List.mem_append, List.mem_singleton, or_and_right, exists_or, exists_eq_left]
    exact or_comm

theorem nodup_cluster_of (g : List Session) : (cluster_of g).epochs.Nodup := by
  induction g using List.reverseRecOn with
  | nil => exact .nil
  | append_singleton g s ih =>
    rw [cluster_of_concat]
    exact ih.union s.epochs_s

/-- The loop splits at the gaps. -/
theorem foldl_add_session (gap_s : ℚ) (items : List Session) :
    items.foldl (add_session gap_s) ([], none) =
      ((items.splitBy (near Session.start gap_s)).map cluster_of, items.getLast?.map Session.start) := by
  induction items using List.reverseRecOn with
  | nil => rfl
  | append_singleton items s ih =>
    rw [List.foldl_append, ih, List.foldl_cons, List.foldl_nil, add_session, List.getLast?_concat]
    refine Prod.ext ?_ rfl
    have hopen : cluster_of [s] = ⟨[s.source_file], s.epochs_s ∪ []⟩ := rfl
    cases hlast : items.getLast? with
    | none =>
      rw [List.getLast?_eq_none_iff.mp hlast]
      rfl
    | some last =>
      have hne : items.splitBy (near Session.start gap_s) ≠ [] := by
        rw [ne_eq, List.splitBy_eq_nil]
        rintro rfl
        cases hlast
      obtain ⟨gs, g, hgs⟩ := (List.eq_nil_or_concat' _).resolve_left hne
      simp only [hgs, List.map_append, List.map_cons, List.map_nil, List.getLast?_concat, Option.map_some,
        List.dropLast_concat]
      split_ifs with hnear
      · rw [splitBy_concat hgs hlast (decide_eq_true hnear)]
        simp [cluster_of_concat]
      · rw [splitBy_concat_of_not fun x hx => ?_, hgs]
        · simp [hopen]
        · obtain rfl := Option.some.inj (hlast.symm.trans hx)
          exact decide_eq_false hnear

/-- The pass of a group of sessions. -/
def pass_of (g : List Session) : Pass := ⟨(cluster_of g).files, sorted (cluster_of g).epochs⟩

theorem cluster_passes_eq (sessions : List Session) (gap_s : ℚ) :
    cluster_passes sessions gap_s = (groups sessions gap_s).map pass_of := by
  rw [cluster_passes, foldl_add_session, List.map_map]
  rfl

theorem mem_pass_of {g : List Session} {t : ℚ} : t ∈ (pass_of g).epochs_s ↔ ∃ s ∈ g, t ∈ s.epochs_s := by
  rw [← mem_cluster_of]
  exact List.mem_insertionSort _

theorem pairwise_pass_of (g : List Session) : (pass_of g).epochs_s.Pairwise (· < ·) := by
  have hle : (pass_of g).epochs_s.Pairwise (· ≤ ·) := List.pairwise_insertionSort _ _
  have hnodup : (pass_of g).epochs_s.Nodup := (List.perm_insertionSort _ _).nodup_iff.mpr (nodup_cluster_of g)
  exact (hle.and hnodup).imp fun h => lt_of_le_of_ne h.1 h.2

/-- A pass does not depend on the order of its sessions, the order of its files aside. -/
theorem pass_of_perm {g g' : List Session} (hperm : g.Perm g') :
    (pass_of g).files.Perm (pass_of g').files ∧ (pass_of g).epochs_s = (pass_of g').epochs_s := by
  refine ⟨hperm.map _, (pairwise_pass_of g).eq_of_mem_iff (pairwise_pass_of g') fun t => ?_⟩
  rw [mem_pass_of, mem_pass_of]
  simp only [hperm.mem_iff]

end Clusters

section Overlaps

variable {sessions : List Session} {gap_s : ℚ}

theorem Overlap.symm {s t : Session} (h : Overlap s t) : Overlap t s := And.symm h

theorem mem_groups {g : List Session} {s : Session} (hg : g ∈ groups sessions gap_s) (hs : s ∈ g) :
    s ∈ sessions := by
  have hmem : s ∈ (groups sessions gap_s).flatten := List.mem_flatten_of_mem hg hs
  rw [groups, List.flatten_splitBy] at hmem
  exact (perm_by_start sessions).mem_iff.mp hmem

theorem exists_group (gap_s : ℚ) {s : Session} (hs : s ∈ sessions) : ∃ g ∈ groups sessions gap_s, s ∈ g := by
  rw [← List.mem_flatten, groups, List.flatten_splitBy]
  exact (perm_by_start sessions).mem_iff.mpr hs

/-- The sessions of a group start in order, each within the gap of the one before it. -/
theorem group_starts {g : List Session} (hg : g ∈ groups sessions gap_s) :
    g.Pairwise (·.start ≤ ·.start) ∧ g.IsChain (near Session.start gap_s · ·) := by
  have hsorted := pairwise_by_start sessions
  rw [← List.flatten_splitBy (near Session.start gap_s) (by_start sessions)] at hsorted
  exact ⟨(List.pairwise_flatten.mp hsorted).1 g hg, List.isChain_of_mem_splitBy hg⟩

/-- Passes do not overlap exactly when the starts within a session follow one another. -/
theorem together_iff (hgap : 0 ≤ gap_s) :
    ((groups sessions gap_s).Pairwise fun g h => ∀ s ∈ g, ∀ t ∈ h, ¬ Overlap s t) ↔
      StartsFollow sessions gap_s := by
  constructor
  · intro htogether s hs t ht hst hend u hu hsu hut
    obtain ⟨g, hg, hsg⟩ := exists_group gap_s hs
    obtain ⟨h, hh, hth⟩ := exists_group gap_s ht
    have hover : Overlap s t := ⟨hst.trans t.start_le_finish, hend⟩
    have hsame : g = h := by
      by_contra hne
      rcases rel_or_rel htogether hg hh hne with hnot | hnot
      · exact hnot s hsg t hth hover
      · exact hnot t hth s hsg hover.symm
    subst hsame
    obtain ⟨hsorted, hchain⟩ := group_starts hg
    obtain ⟨v, hv, hlt, hle⟩ := exists_near hsorted hchain hsg hth hsu hut
    exact ⟨v, mem_groups hg hv, hlt, hle⟩
  · intro hfollow
    obtain ⟨hflat, hnil, -, hbreak⟩ :=
      List.splitBy_eq_iff.mp (Eq.refl ((by_start sessions).splitBy (near Session.start gap_s)))
    have hsorted := pairwise_by_start sessions
    rw [hflat] at hsorted
    refine (pairwise_break hnil hsorted hbreak).imp_of_mem fun {g h} hg hh hgh s hs t ht hover => ?_
    obtain ⟨z, hz, hsz, hzt, hall⟩ := hgh s hs t ht
    rw [← hflat] at hz hall
    have hzt' : z.start < t.start := (le_add_of_nonneg_right hgap).trans_lt hzt
    obtain ⟨v, hv, hlt, hle⟩ := hfollow s (mem_groups hg hs) t (mem_groups hh ht) (hsz.trans hzt'.le) hover.2
      z ((perm_by_start sessions).mem_iff.mp hz) hsz hzt'
    rcases hall v ((perm_by_start sessions).mem_iff.mpr hv) with hbefore | hafter
    · exact hlt.not_ge hbefore
    · exact hafter.not_ge hle

/-- A sample strictly between two neighbours of a pass comes from a session that overlaps one
    of the pass's own. -/
theorem no_sample_between (hgap : 0 ≤ gap_s)
    (htogether : (groups sessions gap_s).Pairwise fun g h => ∀ s ∈ g, ∀ t ∈ h, ¬ Overlap s t)
    {g : List Session} (hg : g ∈ groups sessions gap_s) {i : ℚ × ℚ} (hi : i ∈ intervals (pass_of g).epochs_s)
    {s : Session} (hs : s ∈ sessions) {t : ℚ} (ht : t ∈ s.epochs_s) : ¬ (i.1 < t ∧ t < i.2) := by
  rintro ⟨hlo, hhi⟩
  have hsorted : (pass_of g).epochs_s.Pairwise (· ≤ ·) := (pairwise_pass_of g).imp le_of_lt
  obtain ⟨hfst, hsnd, -, hout⟩ := between_of_mem_intervals hsorted hi
  obtain ⟨h, hh, hsh⟩ := exists_group gap_s hs
  by_cases hsame : g = h
  · subst hsame
    rcases hout t (mem_pass_of.mpr ⟨s, hsh, ht⟩) with hle | hle
    · exact hlo.not_ge hle
    · exact hhi.not_ge hle
  · have hapart := htogether.and (pairwise_lt hgap (pairwise_by_start sessions))
    rcases rel_or_rel hapart hg hh hsame with ⟨hnot, hbefore⟩ | ⟨hnot, hafter⟩
    · -- the session starts after all of the pass: it overlaps the one that samples at the end of the gap
      obtain ⟨y, hy, hyt⟩ := mem_pass_of.mp hsnd
      have hlt := hbefore y hy s hsh
      refine hnot y hy s hsh ⟨hlt.le.trans s.start_le_finish, ?_⟩
      exact ((s.start_le ht).trans hhi.le).trans (y.le_finish hyt)
    · -- it starts before all of the pass: it overlaps the one that samples at the onset
      obtain ⟨x, hx, hxt⟩ := mem_pass_of.mp hfst
      have hlt := hafter s hsh x hx
      refine hnot s hsh x hx ⟨hlt.le.trans x.start_le_finish, ?_⟩
      exact ((x.start_le hxt).trans hlo.le).trans (s.le_finish ht)

end Overlaps

/-- Concurrent logs are merged exactly when the starts within a session follow one another. -/
theorem merged_first_iff (sessions : List Session) (gap_s : ℚ) (hgap : 0 ≤ gap_s) :
    MergedFirst sessions gap_s ↔ StartsFollow sessions gap_s := by
  rw [← together_iff hgap]
  refine ⟨fun h => h.together, fun htogether => ⟨?_, ?_, htogether, ?_, ?_⟩⟩
  · rw [groups, List.flatten_splitBy]
    exact perm_by_start sessions
  · rw [cluster_passes_eq, List.forall₂_map_left_iff, List.forall₂_same]
    exact fun g _ => ⟨rfl, pairwise_pass_of g, fun t => mem_pass_of⟩
  · intro p hp gap_factor i hi s hs t ht
    rw [cluster_passes_eq] at hp
    obtain ⟨g, hg, rfl⟩ := List.mem_map.mp hp
    exact no_sample_between hgap htogether hg (mem_blackout_intervals hi).1 hs ht
  · intro sessions' hperm
    have hsame : (by_start sessions').Perm (by_start sessions) :=
      ((perm_by_start sessions').trans hperm).trans (perm_by_start sessions).symm
    rw [cluster_passes_eq, cluster_passes_eq, List.forall₂_map_left_iff, List.forall₂_map_right_iff]
    exact (forall₂_perm_splitBy hgap hsame (pairwise_by_start sessions') (pairwise_by_start sessions)).imp
      fun _ _ => pass_of_perm

/-- A log of more than 20 minutes. -/
def log_a : Session := ⟨"logA", [0, 1, 2, 3, 2000], by simp, by norm_num⟩

/-- The log of an operator who comes in before the 20 minutes are over. -/
def log_b : Session := ⟨"logB", [1000, 1001], by simp, by norm_num⟩

/-- And of one who comes in after them. -/
def log_c : Session := ⟨"logC", [1500, 1501], by simp, by norm_num⟩

theorem merged_first_iff_two_logs : MergedFirst [log_a, log_b] PASS_GAP_S := by
  refine (merged_first_iff [log_a, log_b] PASS_GAP_S (by norm_num [PASS_GAP_S])).mpr ?_
  rw [StartsFollow]
  decide +kernel

/-- The two logs overlap and are two passes, and the first of them has a blackout during which
    the other sampled. -/
theorem long_log_split :
    cluster_passes [log_a, log_c] PASS_GAP_S = [⟨["logA"], [0, 1, 2, 3, 2000]⟩, ⟨["logC"], [1500, 1501]⟩] ∧
      blackout_intervals [0, 1, 2, 3, 2000] 5 = [(3, 2000)] ∧
      ¬ ∀ sessions, MergedFirst sessions PASS_GAP_S := by
  have hpasses : cluster_passes [log_a, log_c] PASS_GAP_S =
      [⟨["logA"], [0, 1, 2, 3, 2000]⟩, ⟨["logC"], [1500, 1501]⟩] := by decide +kernel
  have hblackout : blackout_intervals [0, 1, 2, 3, 2000] 5 = [(3, 2000)] := by decide +kernel
  refine ⟨hpasses, hblackout, fun hall => ?_⟩
  have hconservative := (hall [log_a, log_c]).conservative
  rw [hpasses] at hconservative
  refine hconservative _ List.mem_cons_self 5 (3, 2000) ?_ log_c (by simp) 1500 (by simp [log_c]) (by norm_num)
  rw [hblackout]
  exact List.mem_cons_self

end csp_intercept.within_pass_blackouts
