import CspIntercept.Lib.Ledger
import CspIntercept.Oracle.Csv
import Mathlib.Data.List.TakeWhile

open csp_intercept.ci_rule csp_intercept.ci_dtp csp_intercept.ci_drop_iface csp_intercept.csp_monitor_apm

namespace csp_intercept.oracle

section Join

/-- A line that is its own first field. -/
def bare (line : List Char) : Prop := field1 line = line

theorem bare_of_no_blank {line : List Char} (h : ∀ c ∈ line, blank c = false) : bare line := by
  have hdrop : line.dropWhile blank = line := by
    rw [List.dropWhile_eq_self_iff]
    intro hlength
    rw [h _ (List.getElem_mem hlength)]
    exact Bool.false_ne_true
  rw [bare, field1, hdrop, List.takeWhile_eq_self_iff]
  intro c hc
  rw [h c hc]
  rfl

theorem bare_decimal (i : ℕ) : bare (decimal i) := by
  apply bare_of_no_blank
  intro c hc
  have hdigit := Nat.isDigit_of_mem_toDigits (by omega) (by omega) hc
  by_contra hblank
  rw [Bool.not_eq_false, blank, Bool.or_eq_true, beq_iff_eq, beq_iff_eq] at hblank
  rcases hblank with rfl | rfl
  · exact absurd hdigit (by decide)
  · exact absurd hdigit (by decide)

theorem mem_keys_of_bare {lines : List (List Char)} (hbare : ∀ line ∈ lines, bare line) {k : List Char} :
    k ∈ keys [] lines ↔ k ∈ lines := by
  rw [mem_keys]
  constructor
  · rintro (hnil | ⟨line, hline, rfl⟩)
    · exact absurd hnil List.not_mem_nil
    · rw [hbare line hline]
      exact hline
  · exact fun hk => .inr ⟨k, hk, hbare k hk⟩

variable {total : ℕ} {dropped observed : List (List Char)}

/-- The exit status of the join on files of single fields. -/
theorem oracle_join_status (htotal : total ≠ 0) (hdropped : ∀ line ∈ dropped, bare line)
    (hobserved : ∀ line ∈ observed, bare line) : (oracle_join total dropped observed).2 = 0 ↔
      (∀ k ∈ dropped, k ∉ observed) ∧ ∀ i < total, decimal i ∈ dropped ∨ decimal i ∈ observed := by
  rw [oracle_join, read_files]
  split_ifs with hd
  · rw [finish_eq_zero_iff htotal, hd]
    simp only [mem_keys_of_bare hobserved, List.not_mem_nil, not_false_eq_true, implies_true, true_and,
      or_false, false_or, IsEmpty.forall_iff]
  · rw [finish_eq_zero_iff htotal]
    simp only [mem_keys_of_bare hdropped, mem_keys_of_bare hobserved]

/-- The join reports no dropped fragment as observed where no line is in both files. -/
theorem oracle_join_overlap (hdropped : ∀ line ∈ dropped, bare line)
    (hobserved : ∀ line ∈ observed, bare line) (hdisjoint : ∀ k ∈ dropped, k ∉ observed) :
    ∀ p ∈ (oracle_join total dropped observed).1, p.overlap = 0 := by
  intro p hp
  rw [oracle_join, read_files] at hp
  split_ifs at hp with hd
  · unfold finish at hp
    split_ifs at hp with htotal
    · cases hp
    · obtain rfl := Option.some.inj hp
      simp
  · unfold finish at hp
    split_ifs at hp with htotal
    · cases hp
    · obtain rfl := Option.some.inj hp
      rw [List.length_eq_zero_iff, List.filter_eq_nil_iff]
      intro k hk
      rw [List.contains_iff_mem, mem_keys_of_bare hobserved]
      exact hdisjoint k ((mem_keys_of_bare hdropped).mp hk)

end Join

/-- A data frame of the bulk path. -/
def data_frame (pk : CspPacket) : Prop := pk.id.dport = CI_DTP_DATA_PORT ∧ is_rdp pk = false

instance (pk : CspPacket) : Decidable (data_frame pk) := inferInstanceAs (Decidable (_ ∧ _))

section Sent

variable (s : CiDropIface) (calls : List NexthopCall)

/-- The fragment of a packet in the shim's geometry. -/
def frag (pk : CspPacket) : ℕ := (dataFrag s.tracker.dtp_mtu s.tracker.dtp_overhead pk.data).toNat

/-- The data frames handed to the shim, each with what became of it. -/
def sent : List (NexthopCall × NexthopResult) :=
  (calls.zip (shimRun s calls).2).filter fun call => data_frame call.1.packet

/-- The fragments handed to the shim. -/
def sent_frags : Set ℕ := {i | ∃ c ∈ calls, data_frame c.packet ∧ frag s c.packet = i}

/-- The fragments of the frames it freed, and of those it forwarded. -/
def lost_frags : Set ℕ :=
  Ledger.lostKeys (sent s calls) (fun call => frag s call.1.packet) fun call => freed call = true

def kept_frags : Set ℕ :=
  Ledger.keptKeys (sent s calls) (fun call => frag s call.1.packet) fun call => freed call = true

variable {s calls}

theorem map_fst_zip_shimRun (s : CiDropIface) (calls : List NexthopCall) :
    (calls.zip (shimRun s calls).2).map Prod.fst = calls := by
  apply List.map_fst_zip
  rw [shimRun, Transducer.length_run_outputs]

theorem map_sent : (sent s calls).map (fun call => call.1) = calls.filter fun c => data_frame c.packet := by
  conv_rhs => rw [← map_fst_zip_shimRun s calls, List.filter_map]
  rfl

theorem sent_frags_eq : sent_frags s calls = {i | ∃ call ∈ sent s calls, frag s call.1.packet = i} := by
  ext i
  constructor
  · rintro ⟨c, hc, hdata, rfl⟩
    have hmem : c ∈ (sent s calls).map fun call => call.1 := by
      rw [map_sent, List.mem_filter]
      exact ⟨hc, decide_eq_true hdata⟩
    obtain ⟨call, hcall, rfl⟩ := List.mem_map.mp hmem
    exact ⟨call, hcall, rfl⟩
  · rintro ⟨call, hcall, rfl⟩
    have hmem : call.1 ∈ calls.filter fun c => data_frame c.packet := by
      rw [← map_sent (s := s)]
      exact List.mem_map_of_mem hcall
    obtain ⟨hc, hdata⟩ := List.mem_filter.mp hmem
    exact ⟨call.1, hc, of_decide_eq_true hdata, rfl⟩

/-- The rule has all data frames in its scope, or none. -/
theorem inScope_data_frame {rule : CiDropRule} {c d : NexthopCall} (hc : data_frame c.packet)
    (hd : data_frame d.packet) : inScope rule c = inScope rule d := by
  have hport (e : NexthopCall) (he : data_frame e.packet) : e.frame.dport = CI_DTP_DATA_PORT := he.1
  have hrdp (e : NexthopCall) (he : data_frame e.packet) : e.frame.is_rdp = false := he.2
  simp only [inScope, ci_rule_match, hport c hc, hport d hd, hrdp c hc, hrdp d hd, Bool.not_false, if_true]

/-- Frames of one fragment meet one fate: by their index, or because there are no two of them. -/
theorem consistent_sent (hmode : s.per_attempt = false ∨
      ((calls.filter fun c => data_frame c.packet).map fun c => frag s c.packet).Nodup) :
    Ledger.Consistent (sent s calls) (fun call => frag s call.1.packet) fun call => freed call = true := by
  rcases hmode with hidentity | hnodup
  · have hfate (call : NexthopCall × NexthopResult) (hcall : call ∈ sent s calls)
        (hscope : inScope s.rule call.1 = true) :
        freed call = ci_rule_decide s.rule (UInt64.ofNat (frag s call.1.packet)) := by
      obtain ⟨hmem, hdata⟩ := List.mem_filter.mp hcall
      obtain ⟨before, after, -, hdecide⟩ := freed_eq_decide hidentity hmem hscope
      rw [hdecide, flowIndex_data s before (of_decide_eq_true hdata).2, frag]
      congr 1
      apply UInt64.toNat_inj.mp
      have hlt := (dataFrag s.tracker.dtp_mtu s.tracker.dtp_overhead call.1.packet.data).toNat_lt
      rw [UInt32.toNat_toUInt64, UInt64.toNat_ofNat']
      omega
    intro a ha b hb hkey
    dsimp only at hkey ⊢
    cases hscope : inScope s.rule a.1 with
    | true =>
      have hscope' : inScope s.rule b.1 = true := by
        rw [← hscope]
        exact inScope_data_frame (of_decide_eq_true (List.mem_filter.mp hb).2)
          (of_decide_eq_true (List.mem_filter.mp ha).2)
      rw [hfate a ha hscope, hfate b hb hscope', hkey]
    | false =>
      have hkept (e : NexthopCall × NexthopResult) (he : e ∈ sent s calls) : ¬ freed e = true := by
        intro hfreed
        have hin := inScope_of_freed (List.mem_filter.mp he).1 hfreed
        rw [inScope_data_frame (of_decide_eq_true (List.mem_filter.mp he).2)
          (of_decide_eq_true (List.mem_filter.mp ha).2), hscope] at hin
        cases hin
      exact iff_of_false (hkept a ha) (hkept b hb)
  · apply Ledger.Consistent.of_nodup
    rw [← map_sent (s := s), List.map_map] at hnodup
    exact hnodup

end Sent

/-- A bulk transfer whose data frames pass the shim and then the monitor. -/
structure DtpSession (s : CiDropIface) (calls : List NexthopCall) (cfg : MonConfig) (m : Monitor)
    (es : List Event) : Prop where
  /-- Both files are new. -/
  drop_log : s.drop_log = some []
  mon_csv : m.mon_csv = []
  /-- The rule is for the bulk path. -/
  scope : ∀ c ∈ calls, inScope s.rule c = true → data_frame c.packet
  /-- Whether a frame is dropped depends on its index, or each fragment is sent once. -/
  mode : s.per_attempt = false ∨
    ((calls.filter fun c => data_frame c.packet).map fun c => frag s c.packet).Nodup
  /-- Both sides were started with the same geometry, the monitor on the port or on any. -/
  mon_mtu : cfg.mon_mtu = s.tracker.dtp_mtu
  mon_dtp_overhead : cfg.mon_dtp_overhead = s.tracker.dtp_overhead
  mon_match_dport : cfg.mon_match_dport < 0 ∨ cfg.mon_match_dport = 8
  /-- The data frames that reach the monitor are among those the shim forwarded. -/
  link : ∀ f ∈ stream cfg m es, data_frame f.2 → ∃ call ∈ sent s calls, freed call = false ∧ call.1.packet = f.2

section Session

variable {s : CiDropIface} {calls : List NexthopCall} {cfg : MonConfig} {m : Monitor} {es : List Event}

/-- The fragments of the data frames handled by the monitor. -/
def seen_frags (s : CiDropIface) (cfg : MonConfig) (m : Monitor) (es : List Event) : Set ℕ :=
  {i | ∃ f ∈ stream cfg m es, data_frame f.2 ∧ frag s f.2 = i}

/-- The drop log of the run. -/
def drop_log_rows (s : CiDropIface) (calls : List NexthopCall) : List DropLogRow :=
  (shimRun s calls).1.drop_log.getD []

namespace DtpSession

variable (h : DtpSession s calls cfg m es)

include h

theorem consistent : Ledger.Consistent (sent s calls) (fun call => frag s call.1.packet) fun call => freed call = true :=
  consistent_sent h.mode

theorem frag_eq : (fun pk => (dataFrag cfg.mon_mtu cfg.mon_dtp_overhead pk.data).toNat) = frag s := by
  rw [h.mon_mtu, h.mon_dtp_overhead]
  rfl

theorem seen_frags_subset : seen_frags s cfg m es ⊆ kept_frags s calls := by
  rintro i ⟨f, hf, hdata, rfl⟩
  obtain ⟨call, hcall, hkept, hpacket⟩ := h.link f hf hdata
  exact ⟨call, hcall, by simp [hkept], congrArg (frag s) hpacket⟩

/-- The drop log of the run has the fragments of the frames in scope. -/
theorem entries : (drop_log_rows s calls).map DropLogRow.entry =
    (scopedResults s.rule calls (shimRun s calls).2).map fun call => (frag s call.1.packet, freed call) := by
  have hindex : ∀ before c after, calls = before ++ c :: after → inScope s.rule c = true →
      (flowIndex (shimRun s before).1 c).toNat = frag s c.packet := by
    intro before c after hcalls hscope
    have hdata := h.scope c (by rw [hcalls]; simp) hscope
    rw [flowIndex_data s before hdata.2, UInt32.toNat_toUInt64]
    rfl
  obtain ⟨rows, hlog, hentries⟩ := shimRun_entries h.drop_log hindex
  rw [drop_log_rows, hlog]
  exact hentries

/-- The first index file has the fragments the shim dropped. -/
theorem mem_dropped_idx_iff {k : List Char} : k ∈ dropped_idx (drop_csv (drop_log_rows s calls)) ↔
    ∃ i ∈ lost_frags s calls, k = decimal i := by
  have hrow (k : List Char) : k ∈ dropped_idx (drop_csv (drop_log_rows s calls)) ↔
      ∃ e ∈ (drop_log_rows s calls).map DropLogRow.entry, e.2 = true ∧ decimal e.1 = k := by
    rw [dropped_idx_drop_csv]
    simp only [List.mem_map, List.mem_filter, exists_exists_and_eq_and, and_assoc]
    rfl
  rw [hrow, h.entries]
  simp only [List.mem_map, exists_exists_and_eq_and]
  constructor
  · rintro ⟨call, hcall, hfreed, rfl⟩
    obtain ⟨hmem, hscope⟩ := List.mem_filter.mp hcall
    have hdata := h.scope call.1 (List.of_mem_zip hmem).1 hscope
    exact ⟨_, ⟨call, List.mem_filter.mpr ⟨hmem, decide_eq_true hdata⟩, hfreed, rfl⟩, rfl⟩
  · rintro ⟨i, ⟨call, hcall, hfreed, rfl⟩, rfl⟩
    obtain ⟨hmem, -⟩ := List.mem_filter.mp hcall
    exact ⟨call, List.mem_filter.mpr ⟨hmem, inScope_of_freed hmem hfreed⟩, hfreed, rfl⟩

/-- The second one has the fragments the monitor saw. -/
theorem decimal_mem_observed_idx_iff {i : ℕ} :
    decimal i ∈ observed_idx (apm_csv (run cfg m es).mon_csv) ↔ i ∈ seen_frags s cfg m es := by
  obtain ⟨rows, hrows, hframes⟩ := run_rows cfg m es
  rw [h.mon_csv, List.nil_append] at hrows
  rw [hrows, observed_idx_apm_csv hframes, List.mem_map, seen_frags, ← h.frag_eq]
  constructor
  · rintro ⟨f, hf, hline⟩
    obtain ⟨hstream, hwritten⟩ := List.mem_filter.mp hf
    cases hrdp : is_rdp f.2 with
    | true =>
      rw [hrdp, if_pos rfl] at hline
      exact absurd hline.symm Nat.toDigits_ne_nil
    | false =>
      rw [hrdp, if_neg Bool.false_ne_true] at hline
      have hport := (of_decide_eq_true hwritten).2.resolve_left (by rw [hrdp]; exact Bool.false_ne_true)
      exact ⟨f, hstream, ⟨hport, hrdp⟩, decimal_injective hline⟩
  · rintro ⟨f, hf, hdata, rfl⟩
    have hmatched : matched cfg f.2 := by
      rcases h.mon_match_dport with hany | hport
      · exact .inl hany
      · exact .inr (by rw [hport]; exact hdata.1)
    refine ⟨f, List.mem_filter.mpr ⟨hf, decide_eq_true ⟨hmatched, .inr hdata.1⟩⟩, ?_⟩
    rw [hdata.2, if_neg Bool.false_ne_true]

theorem bare_dropped_idx : ∀ line ∈ dropped_idx (drop_csv (drop_log_rows s calls)), bare line := by
  intro line hline
  obtain ⟨i, -, rfl⟩ := h.mem_dropped_idx_iff.mp hline
  exact bare_decimal i

theorem bare_observed_idx : ∀ line ∈ observed_idx (apm_csv (run cfg m es).mon_csv), bare line := by
  obtain ⟨rows, hrows, hframes⟩ := run_rows cfg m es
  rw [h.mon_csv, List.nil_append] at hrows
  intro line hline
  rw [hrows, observed_idx_apm_csv hframes, List.mem_map] at hline
  obtain ⟨f, -, rfl⟩ := hline
  split_ifs
  · exact bare_of_no_blank nofun
  · exact bare_decimal _

end DtpSession

/-- The two oracles of a bulk transfer agree exactly when every fragment went out and every one that the
    shim forwarded was seen by the monitor, whatever was repeated, reordered or mixed in; and in no case
    is a dropped fragment reported as observed. -/
theorem oracle_join_run (h : DtpSession s calls cfg m es) {total : ℕ} (htotal : total ≠ 0) :
    ((oracle_join total (dropped_idx (drop_csv (drop_log_rows s calls)))
        (observed_idx (apm_csv (run cfg m es).mon_csv))).2 = 0 ↔
      Set.Iio total ⊆ sent_frags s calls ∧ Set.Iio total ∩ kept_frags s calls ⊆ seen_frags s cfg m es) ∧
    ∀ p ∈ (oracle_join total (dropped_idx (drop_csv (drop_log_rows s calls)))
        (observed_idx (apm_csv (run cfg m es).mon_csv))).1, p.overlap = 0 := by
  have hdisjoint : ∀ k ∈ dropped_idx (drop_csv (drop_log_rows s calls)),
      k ∉ observed_idx (apm_csv (run cfg m es).mon_csv) := by
    intro k hk hseen
    obtain ⟨i, hlost, rfl⟩ := h.mem_dropped_idx_iff.mp hk
    have hkept := h.seen_frags_subset (h.decimal_mem_observed_idx_iff.mp hseen)
    exact Set.disjoint_left.mp h.consistent.disjoint hlost hkept
  refine ⟨?_, oracle_join_overlap h.bare_dropped_idx h.bare_observed_idx hdisjoint⟩
  rw [oracle_join_status htotal h.bare_dropped_idx h.bare_observed_idx, and_iff_right hdisjoint]
  have hsent : sent_frags s calls = lost_frags s calls ∪ kept_frags s calls := by
    rw [sent_frags_eq]
    exact Ledger.lostKeys_union_keptKeys.symm
  have hlost (i : ℕ) : decimal i ∈ dropped_idx (drop_csv (drop_log_rows s calls)) ↔ i ∈ lost_frags s calls := by
    rw [h.mem_dropped_idx_iff]
    constructor
    · rintro ⟨j, hj, heq⟩
      rw [decimal_injective heq]
      exact hj
    · exact fun hi => ⟨i, hi, rfl⟩
  simp only [hlost, h.decimal_mem_observed_idx_iff, hsent]
  constructor
  · intro hcover
    refine ⟨fun i hi => (hcover i hi).imp_right fun hseen => h.seen_frags_subset hseen, ?_⟩
    rintro i ⟨hi, hkept⟩
    exact (hcover i hi).resolve_left fun hlost => Set.disjoint_left.mp h.consistent.disjoint hlost hkept
  · rintro ⟨hcover, hseen⟩ i hi
    exact (hcover hi).imp_right fun hkept => hseen ⟨hi, hkept⟩

end Session

section Example

/-- The data frame of a fragment below 256, at its byte offset. -/
def fragment_call (i : UInt8) : NexthopCall where
  via := 20
  packet :=
    { id := { pri := 2, flags := 0, src := 10, dst := 20, dport := 8, sport := 40 }
      data := [i * 196, ((i.toUInt16 * (196 : UInt16)) >>> 8).toUInt8, 0, 0, 0xDE] }
  from_me := true
  now := 0
  target_rc := 0

/-- A shim that drops fragments 0 and 3. -/
def two_dropped : CiDropIface :=
  ci_drop_iface_init
    { seed := 1
      match_dport := 8
      match_rdp_syn := false
      drop_probability := 0
      replay_vector := some [1, 0, 0, 1]
      replay_len := 4 } 200 (some [])

/-- A monitor on the same port with the same geometry. -/
def mon_config : MonConfig where
  mon_match_dport := 8
  mon_window_ms := 1000
  mon_mtu := 200
  mon_dtp_overhead := 4
  mon_buffer_low_water := 2

/-- Six fragments, two of them sent again, out of order. -/
def six_fragments : List NexthopCall := [0, 2, 1, 2, 3, 0, 5, 4].map fragment_call

/-- The monitor gets what is forwarded out of order, and one frame twice. -/
def six_observed : List Event := observe ([5, 1, 2, 2, 4, 1].map fun i => (fragment_call i).packet)

theorem six_observed_stream : stream mon_config (csp_monitor_start 0 0) six_observed =
    ([5, 1, 2, 2, 4, 1].map fun i => (fragment_call i).packet).map fun pk => (0, pk) := by
  apply stream_observe
  decide

/-- Of six fragments two are dropped and four are seen, and the join passes. -/
theorem oracle_join_run_six :
    (oracle_join 6 (dropped_idx (drop_csv (drop_log_rows two_dropped six_fragments)))
        (observed_idx (apm_csv (run mon_config (csp_monitor_start 0 0) six_observed).mon_csv))).2 = 0 := by
  have hsession : DtpSession two_dropped six_fragments mon_config (csp_monitor_start 0 0) six_observed :=
    { drop_log := rfl
      mon_csv := rfl
      scope := by decide
      mode := .inl rfl
      mon_mtu := rfl
      mon_dtp_overhead := rfl
      mon_match_dport := .inr rfl
      link := by
        rw [six_observed_stream]
        decide +kernel }
  refine ((oracle_join_run hsession (by omega)).1).mpr ⟨fun i hi => ?_, ?_⟩
  · have hsent : ∀ i < 6, ∃ c ∈ six_fragments, data_frame c.packet ∧ frag two_dropped c.packet = i := by decide +kernel
    exact hsent i hi
  · rintro i ⟨-, call, hcall, hkept, rfl⟩
    have hseen : ∀ call ∈ sent two_dropped six_fragments, ¬ freed call = true →
        ∃ j ∈ [5, 1, 2, 2, 4, 1], data_frame (fragment_call j).packet ∧
          frag two_dropped (fragment_call j).packet = frag two_dropped call.1.packet := by decide +kernel
    obtain ⟨j, hj, hdata, hfrag⟩ := hseen call hcall hkept
    refine ⟨(0, (fragment_call j).packet), ?_, hdata, hfrag⟩
    rw [six_observed_stream]
    exact List.mem_map_of_mem (List.mem_map_of_mem hj)

end Example

end csp_intercept.oracle
