import CspIntercept.Oracle.Determinism

open csp_intercept.ci_rule csp_intercept.ci_dtp csp_intercept.ci_drop_iface csp_intercept.csp_monitor_apm
open csp_intercept.zmqproxy

namespace csp_intercept.oracle

section Awk

/-- The exit status of the `awk` that looks for dropped frames among the observed ones. -/
def agreement (dropped_idx observed_idx : List (List Char)) : ℕ :=
  let a := [dropped_idx, observed_idx].foldl read_file ⟨0, 0, [], 0, [], 0⟩
  if a.nd = 0 then 1
  else if a.no = 0 then 1
  else
    let overlap := (a.dropped.filter fun k => a.observed.contains k).length
    if 0 < overlap then 1 else 0

/-- The join and the verdict of a two-oracle loop: its exit status. -/
def two_oracle (drop observed_idx : List (List Char)) : ℕ :=
  if agreement (dropped_idx drop) observed_idx ≠ 0 then 1
  else
    let comm_kept_obs := awk_found (kept_idx drop) observed_idx
    let kept := (kept_idx drop).length
    if kept < 100 then 1
    else if comm_kept_obs < kept * 90 / 100 then 1
    else 0

end Awk

/-- The loop of `two_oracle.sh` on a port, and that of `two_oracle_dtp.sh` in a geometry. -/
inductive Loop
  | rdp (dport : Int32)
  | dtp (mtu overhead : Int32)

namespace Loop

/-- What the generator of the loop sends. -/
def packet : Loop → ℕ → CspPacket
  | rdp dport => ci_gen.packet dport
  | dtp mtu overhead => ci_gen_dtp.packet mtu overhead

/-- The port that proxy and monitor are started on. -/
def dport : Loop → Int
  | rdp dport => dport.toInt
  | dtp _ _ => 8

/-- The geometry that the proxy is started with: its defaults, or the one of the loop. -/
def mtu : Loop → UInt16
  | rdp _ => 200
  | dtp mtu _ => UInt16.ofInt mtu.toInt

def overhead : Loop → UInt16
  | rdp _ => CI_DTP_OVERHEAD_DIPP
  | dtp _ overhead => UInt16.ofInt overhead.toInt

/-- The column of the monitor's file that the loop looks at. -/
def observed_idx : Loop → List (List Char) → List (List Char)
  | rdp _, apm => awk_print (fun field => field_eq (field 6) 1) 8 (apm.filter fun line => !comment line)
  | dtp _ _, apm => awk_print (fun field => field_eq (field 6) 0) 11 (apm.filter fun line => !comment line)

/-- Each frame has an index of its own in either log. -/
def Fits (count : ℕ) : Loop → Prop
  | rdp dport => 0 ≤ dport.toInt ∧ count ≤ 65536
  | dtp mtu overhead => Geometry mtu overhead count

/-- The kind of the frames that the loop counts. -/
def is_rdp : Loop → Bool
  | rdp _ => true
  | dtp _ _ => false

/-- A row of the monitor's file that the loop counts. -/
def Counts (cfg : MonConfig) (loop : Loop) (pk : CspPacket) : Prop :=
  written cfg pk ∧ csp_monitor_apm.is_rdp pk = loop.is_rdp

instance (cfg : MonConfig) (loop : Loop) (pk : CspPacket) : Decidable (Counts cfg loop pk) :=
  inferInstanceAs (Decidable (_ ∧ _))

/-- The index that the monitor writes down. -/
def index (cfg : MonConfig) : Loop → CspPacket → ℕ
  | rdp _, pk => (trailer_seq pk).toNat
  | dtp _ _, pk => (dataFrag cfg.mon_mtu cfg.mon_dtp_overhead pk.data).toNat

end Loop

section Verdict

variable {drop observed_idx : List (List Char)} {lost kept seen : List ℕ}

theorem agreement_of_lists (hdisjoint : ∀ i ∈ seen, i ∉ lost) :
    agreement (lost.map decimal) (seen.map decimal) = 0 ↔ lost ≠ [] ∧ seen ≠ [] := by
  rw [agreement, read_files]
  by_cases hlost : lost = []
  · subst hlost
    simp
  · have hmap : lost.map decimal ≠ [] := by simpa using hlost
    have hoverlap : ((keys [] (lost.map decimal)).filter fun k => (keys [] (seen.map decimal)).contains k) = [] := by
      rw [List.filter_eq_nil_iff]
      intro k hk hboth
      rw [mem_keys_of_bare (bare_map_decimal lost)] at hk
      rw [List.contains_iff_mem, mem_keys_of_bare (bare_map_decimal seen)] at hboth
      obtain ⟨i, hi, rfl⟩ := List.mem_map.mp hk
      exact hdisjoint i ((List.mem_map_of_injective decimal_injective).mp hboth) hi
    rw [if_neg hmap]
    simp only [hoverlap]
    simp [hlost]

/-- Where only kept frames were seen, the verdict is about the counts. -/
theorem two_oracle_of_counts (hlost : dropped_idx drop = lost.map decimal) (hkept : kept_idx drop = kept.map decimal)
    (hseen : observed_idx = seen.map decimal) (hdisjoint : ∀ i ∈ seen, i ∉ lost) (hsubset : ∀ i ∈ seen, i ∈ kept) :
    two_oracle drop observed_idx = 0 ↔
      lost ≠ [] ∧ 100 ≤ kept.length ∧ kept.length * 90 / 100 ≤ seen.length := by
  have hagreement := agreement_of_lists hdisjoint
  rw [two_oracle, hlost, hkept, hseen]
  dsimp only
  rw [List.length_map]
  by_cases hagree : agreement (lost.map decimal) (seen.map decimal) = 0
  · obtain ⟨hdrops, hsome⟩ := hagreement.mp hagree
    rw [if_neg (not_not.mpr hagree)]
    by_cases hhundred : kept.length < 100
    · rw [if_pos hhundred]
      omega
    · have hne : kept ≠ [] := by
        rintro rfl
        exact hhundred (by simp)
      have hall : awk_found (kept.map decimal) (seen.map decimal) = seen.length := by
        rw [awk_found_map_decimal hne, List.countP_eq_length]
        intro i hi
        rw [decide_eq_true_eq]
        exact hsubset i hi
      rw [if_neg hhundred, hall]
      split_ifs with hfew
      · exact iff_of_false not_false fun h => by omega
      · exact iff_of_true rfl ⟨hdrops, by omega, by omega⟩
  · rw [if_pos hagree]
    refine iff_of_false Nat.one_ne_zero ?_
    rintro ⟨hdrops, hhundred, hmany⟩
    refine hagree (hagreement.mpr ⟨hdrops, ?_⟩)
    rintro rfl
    simp only [List.length_nil] at hmany
    omega

end Verdict

/-- A run of a loop: the frames of the generator that get to the proxy, and a monitor that is brought only what
    the proxy sent on. The loop gives the monitor its port and its overhead but never an MTU, so that its
    default has to be that of the loop. -/
structure TwoOracleRun (version : Int) (csp_id_strip : ProxyPacket → Option ProxyPacket) (rule : CiDropRule)
    (packet : ProxyPacket) (loop : Loop) (count : ℕ) (reached : List ℕ) (events : List ProxyEvent) (cfg : MonConfig)
    (m : Monitor) (es : List Event) : Prop
    extends StreamRun version csp_id_strip loop.packet count reached events where
  fits : loop.Fits count
  match_dport : rule.match_dport = loop.dport
  match_rdp_syn : rule.match_rdp_syn = false
  mon_csv : m.mon_csv = []
  mon_match_dport : cfg.mon_match_dport = loop.dport
  mon_mtu : cfg.mon_mtu = 200
  loop_mtu : loop.mtu = 200
  mon_dtp_overhead : cfg.mon_dtp_overhead = loop.overhead
  bus : ∀ f ∈ stream cfg m es, loop.Counts cfg f.2 →
    ∃ i msg, (i, .sent msg) ∈ reached.zip (proxyRun version csp_id_strip
      (zmq_proxy_lossy_start rule loop.mtu loop.overhead packet) events).2 ∧ loop.packet i = f.2

section Run

variable {version : Int} {csp_id_strip : ProxyPacket → Option ProxyPacket} {rule : CiDropRule} {packet : ProxyPacket}
  {loop : Loop} {count : ℕ} {reached : List ℕ} {events : List ProxyEvent} {cfg : MonConfig} {m : Monitor}
  {es : List Event}

/-- Either generator's frames get their numbers for keys. -/
theorem Loop.Fits.numbered (hfits : loop.Fits count) (horder : reached.Sublist (List.range count)) :
    Numbered loop.packet (ci_flow_tracker_init_ovh loop.mtu loop.overhead) reached := by
  cases loop with
  | rdp dport =>
    have hlt : ∀ i ∈ reached, i < 65536 := fun i hi =>
      (List.mem_range.mp (horder.subset hi)).trans_le hfits.2
    refine numbered_ci_gen dport _ _ horder (hfits.2.trans (by omega)) (fun p hp => hlt p (List.mem_of_mem_head? hp))
      (List.Pairwise.isChain (List.pairwise_of_forall_mem_list fun p hp q hq => .inl ?_))
    rw [Nat.div_eq_of_lt (hlt p hp), Nat.div_eq_of_lt (hlt q hq)]
  | dtp mtu overhead => exact numbered_ci_gen_dtp hfits horder

theorem Loop.Fits.index_packet (hfits : loop.Fits count) (hmtu : cfg.mon_mtu = loop.mtu)
    (hoverhead : cfg.mon_dtp_overhead = loop.overhead) {i : ℕ} (hi : i < count) :
    loop.index cfg (loop.packet i) = i := by
  cases loop with
  | rdp dport =>
    have hseq : trailer_seq (ci_gen.packet dport i) = UInt16.ofNat i := by
      rw [trailer_seq, ci_gen.trailer_packet]
      rfl
    obtain ⟨-, hcount⟩ := hfits
    change (trailer_seq (ci_gen.packet dport i)).toNat = i
    rw [hseq, UInt16.toNat_ofNat']
    omega
  | dtp mtu overhead =>
    rw [Loop.index, hmtu, hoverhead]
    exact Geometry.dataFrag_packet hfits hi

theorem Loop.Fits.dport (hfits : loop.Fits count) : 0 ≤ loop.dport := by
  cases loop with
  | rdp dport => exact hfits.1
  | dtp mtu overhead => exact Int.natCast_nonneg 8

theorem Loop.inScope_packet (hdport : rule.match_dport = loop.dport) (hsyn : rule.match_rdp_syn = false) (i : ℕ) :
    inScope rule (carried (loop.packet i)) = true := by
  cases loop with
  | rdp dport => exact inScope_ci_gen hdport hsyn i
  | dtp mtu overhead =>
    have hport : (carried (ci_gen_dtp.packet mtu overhead i)).frame.dport = UInt16.ofInt 8 := by
      change CI_DTP_DATA_PORT = _
      decide
    rw [inScope, ci_rule_match]
    simp [Loop.packet, Loop.dport, hport, hdport, hsyn]

theorem exists_of_mem_zip_zipWith {α β γ : Type} {f : α → β → γ} {l : List α} {m : List β} {a : α} {c : γ}
    (h : (a, c) ∈ l.zip (List.zipWith f l m)) : ∃ b, c = f a b := by
  induction l generalizing m with
  | nil => simp at h
  | cons x l ih =>
    cases m with
    | nil => simp at h
    | cons y m =>
      rw [List.zipWith_cons_cons, List.zip_cons_cons, List.mem_cons] at h
      rcases h with heq | hrest
      · obtain ⟨rfl, rfl⟩ := Prod.mk.inj heq
        exact ⟨y, rfl⟩
      · exact ih hrest

namespace TwoOracleRun

variable (h : TwoOracleRun version csp_id_strip rule packet loop count reached events cfg m es)

include h

/-- Every frame that the loop counts was let through by the proxy. -/
theorem seen_kept {f : UInt32 × CspPacket} (hf : f ∈ stream cfg m es) (hcounts : loop.Counts cfg f.2) :
    loop.index cfg f.2 ∈ reached ∧ ci_rule_decide rule (UInt64.ofNat (loop.index cfg f.2)) = false := by
  obtain ⟨i, msg, hsent, hpacket⟩ := h.bus f hf hcounts
  have hi : i ∈ reached := (List.of_mem_zip hsent).1
  have hindex : loop.index cfg f.2 = i := by
    rw [← hpacket]
    exact h.fits.index_packet (h.mon_mtu.trans h.loop_mtu.symm) h.mon_dtp_overhead
      (List.mem_range.mp (h.in_order.subset hi))
  have houtcomes := (h.log (h.match_dport ▸ h.fits.dport) (Loop.inScope_packet h.match_dport h.match_rdp_syn)
    (h.fits.numbered h.in_order) packet).2
  rw [houtcomes] at hsent
  obtain ⟨e, hfate⟩ := exists_of_mem_zip_zipWith hsent
  rw [hindex]
  refine ⟨hi, ?_⟩
  by_contra hdrop
  rw [Bool.not_eq_false] at hdrop
  rw [if_pos hdrop] at hfate
  cases hfate

/-- The column of the monitor's file has the indices of the frames that the loop counts. -/
theorem observed_idx_eq : loop.observed_idx (apm_csv (run cfg m es).mon_csv) =
    (((stream cfg m es).filter fun f => loop.Counts cfg f.2).map fun f => loop.index cfg f.2).map decimal := by
  obtain ⟨rows, hrows, hframes⟩ := run_rows cfg m es
  rw [h.mon_csv, List.nil_append] at hrows
  have hbits : field_eq ['0'] 0 = true ∧ field_eq ['1'] 0 = false ∧ field_eq ['0'] 1 = false ∧
      field_eq ['1'] 1 = true := by decide
  have hselect : (((stream cfg m es).filter fun f => written cfg f.2).filter fun f =>
      csp_monitor_apm.is_rdp f.2 == loop.is_rdp) = (stream cfg m es).filter fun f => loop.Counts cfg f.2 := by
    rw [List.filter_filter]
    apply List.filter_congr
    intro f _
    rw [Bool.eq_iff_iff, Bool.and_eq_true, decide_eq_true_eq, decide_eq_true_eq, beq_iff_eq]
    exact and_comm
  rw [hrows, List.map_map, ← hselect]
  cases loop with
  | rdp dport =>
    rw [Loop.observed_idx]
    apply awk_print_apm_csv hframes
    · intro f row hrow
      cases hrow <;> simp_all [csv_fields, Loop.is_rdp]
    · intro f row hrow hsel
      cases hrow with
      | rdp hrdp => simp [csv_fields, Loop.index]
      | dtp hrdp => simp [hrdp, Loop.is_rdp] at hsel
  | dtp mtu overhead =>
    rw [Loop.observed_idx]
    apply awk_print_apm_csv hframes
    · intro f row hrow
      cases hrow <;> simp_all [csv_fields, Loop.is_rdp]
    · intro f row hrow hsel
      cases hrow with
      | rdp hrdp => simp [hrdp, Loop.is_rdp] at hsel
      | dtp hrdp => simp [csv_fields, Loop.index]

end TwoOracleRun

/-- Either loop passes exactly when the proxy dropped a frame and let a hundred through, and the monitor
    wrote down nine tenths as many: that the oracles disagree is never the reason of a failure. -/
theorem two_oracle_run (h : TwoOracleRun version csp_id_strip rule packet loop count reached events cfg m es) :
    two_oracle (drop_csv (proxy_log_rows version csp_id_strip
        (zmq_proxy_lossy_start rule loop.mtu loop.overhead packet) events))
        (loop.observed_idx (apm_csv (run cfg m es).mon_csv)) = 0 ↔
      (∃ i ∈ reached, ci_rule_decide rule (UInt64.ofNat i) = true) ∧
        100 ≤ reached.countP (fun i => !ci_rule_decide rule (UInt64.ofNat i)) ∧
        reached.countP (fun i => !ci_rule_decide rule (UInt64.ofNat i)) * 90 / 100 ≤
          ((stream cfg m es).filter fun f => loop.Counts cfg f.2).length := by
  obtain ⟨⟨rows, hlog, hentries⟩, -⟩ := h.log (h.match_dport ▸ h.fits.dport)
    (Loop.inScope_packet h.match_dport h.match_rdp_syn) (h.fits.numbered h.in_order) packet
  have hlost : dropped_idx (drop_csv rows) =
      (reached.filter fun i => ci_rule_decide rule (UInt64.ofNat i)).map decimal := by
    rw [dropped_idx_entries, hentries, List.filter_map, List.map_map, List.map_map]
    rfl
  have hkept : kept_idx (drop_csv rows) =
      (reached.filter fun i => !ci_rule_decide rule (UInt64.ofNat i)).map decimal := by
    rw [kept_idx_entries, hentries, List.filter_map, List.map_map, List.map_map]
    rfl
  rw [proxy_log_rows, hlog, Option.getD_some, two_oracle_of_counts hlost hkept h.observed_idx_eq]
  · simp only [List.length_map, List.countP_eq_length_filter, ne_eq, List.filter_eq_nil_iff, not_forall, not_not,
      exists_prop]
  · intro k hk hdropped
    obtain ⟨f, hf, rfl⟩ := List.mem_map.mp hk
    obtain ⟨hstream, hcounts⟩ := List.mem_filter.mp hf
    obtain ⟨-, hsent⟩ := h.seen_kept hstream (of_decide_eq_true hcounts)
    rw [List.mem_filter, hsent] at hdropped
    exact Bool.false_ne_true hdropped.2
  · intro k hk
    obtain ⟨f, hf, rfl⟩ := List.mem_map.mp hk
    obtain ⟨hstream, hcounts⟩ := List.mem_filter.mp hf
    obtain ⟨hmem, hsent⟩ := h.seen_kept hstream (of_decide_eq_true hcounts)
    rw [List.mem_filter, hsent]
    exact ⟨hmem, rfl⟩

end Run

section Example

/-- The monitor of `two_oracle.sh`. -/
def mon_config_13 : MonConfig :=
  { mon_config with mon_match_dport := 13 }

/-- The proxy of `two_oracle.sh`. -/
def proxy_13 : Proxy :=
  zmq_proxy_lossy_start drop_three_in_ten (Loop.mtu (.rdp 13)) (Loop.overhead (.rdp 13)) parse_buffer

/-- The frames of 200 that the proxy lets through, all of which the monitor handles. -/
def let_through : List ℕ := (List.range 200).filter fun i => !ci_rule_decide drop_three_in_ten (UInt64.ofNat i)

def let_through_observed : List Event := observe (let_through.map (ci_gen.packet 13))

theorem let_through_sent {i : ℕ} (hi : i ∈ let_through) :
    (i, .sent (gen_event i).msg) ∈ (List.range 200).zip (proxyRun 2 strip_gen proxy_13
      ((List.range 200).map gen_event)).2 := by
  have hrun := gen_run (List.Sublist.refl (List.range 200)) (by omega)
  obtain ⟨hmem, hkept⟩ := List.mem_filter.mp hi
  have houtcomes := (hrun.log (show 0 ≤ drop_three_in_ten.match_dport by decide) (inScope_ci_gen (by decide) rfl)
    (hrun.numbered (Loop.mtu (.rdp 13)) (Loop.overhead (.rdp 13))) parse_buffer).2
  rw [Bool.not_eq_true'] at hkept
  rw [proxy_13, houtcomes, List.zipWith_map_right, List.zipWith_self, List.zip_eq_zipWith, List.zipWith_map_right,
    List.zipWith_self, List.mem_map]
  exact ⟨i, hmem, by rw [hkept, if_neg Bool.false_ne_true]⟩

/-- Of 200 frames 53 are dropped and the monitor handles the others: the loop passes. -/
theorem two_oracle_run_passes :
    two_oracle (drop_csv (proxy_log_rows 2 strip_gen proxy_13 ((List.range 200).map gen_event)))
        (Loop.observed_idx (.rdp 13) (apm_csv (run mon_config_13 (csp_monitor_start 0 0) let_through_observed).mon_csv)) =
      0 := by
  have hstream : stream mon_config_13 (csp_monitor_start 0 0) let_through_observed =
      (let_through.map (ci_gen.packet 13)).map fun pk => (0, pk) := by
    apply stream_observe
    decide
  have hrun : TwoOracleRun 2 strip_gen drop_three_in_ten parse_buffer (.rdp 13) 200 (List.range 200)
      ((List.range 200).map gen_event) mon_config_13 (csp_monitor_start 0 0) let_through_observed :=
    { (gen_run (List.Sublist.refl (List.range 200)) (by omega)).toStreamRun with
      fits := ⟨by decide, by decide⟩
      match_dport := by decide
      match_rdp_syn := rfl
      mon_csv := rfl
      mon_match_dport := by decide
      mon_mtu := rfl
      loop_mtu := rfl
      mon_dtp_overhead := rfl
      bus := by
        rintro f hf -
        rw [hstream, List.map_map] at hf
        obtain ⟨i, hi, rfl⟩ := List.mem_map.mp hf
        exact ⟨i, (gen_event i).msg, let_through_sent hi, rfl⟩ }
  have hdropped : ∃ i ∈ List.range 200, ci_rule_decide drop_three_in_ten (UInt64.ofNat i) = true := by decide +kernel
  have hkept : 100 ≤ (List.range 200).countP fun i => !ci_rule_decide drop_three_in_ten (UInt64.ofNat i) := by
    decide +kernel
  refine (two_oracle_run hrun).mpr ⟨hdropped, hkept, ?_⟩
  -- every frame that was let through is counted
  rw [hstream]
  decide +kernel

end Example

end csp_intercept.oracle
