import CspIntercept.Inject.Replay

open csp_intercept.ci_rdp csp_intercept.ci_dtp csp_intercept.ci_rule

namespace csp_intercept.ci_drop_iface

/-- What a row says of its frame: the index, and whether it was dropped. -/
def DropLogRow.entry (row : DropLogRow) : ℕ × Bool := (row.index.toNat, row.dropped)

/-- The index a frame meets in the flow state it comes upon. -/
def flowIndex (s : CiDropIface) (c : NexthopCall) : UInt64 := (ci_flow_index s.tracker c.frame c.packet.data).2

section Entries

variable {s : CiDropIface} {key : NexthopCall → ℕ}

/-- The frames in scope of a run are those of its first step and those of the rest. -/
theorem scopedResults_cons (s : CiDropIface) (c : NexthopCall) (calls : List NexthopCall) :
    scopedResults s.rule (c :: calls) (shimRun s (c :: calls)).2 =
      (if inScope s.rule c then [(c, (ci_drop_iface_nexthop s c).2)] else []) ++
        scopedResults s.rule calls (shimRun (ci_drop_iface_nexthop s c).1 calls).2 := by
  unfold scopedResults shimRun
  rw [Transducer.run_cons_outputs, List.zip_cons_cons, List.filter_cons]
  split_ifs <;> rfl

/-- The counters of the frames in scope, which the front ends print, are those of the fates. -/
theorem shimRun_counters (s : CiDropIface) (calls : List NexthopCall) :
    (shimRun s calls).1.injected_drops =
        s.injected_drops + (scopedResults s.rule calls (shimRun s calls).2).countP freed ∧
      (shimRun s calls).1.forwarded =
        s.forwarded + (scopedResults s.rule calls (shimRun s calls).2).countP fun call => !freed call := by
  induction calls generalizing s with
  | nil => exact ⟨rfl, rfl⟩
  | cons c calls ih =>
    obtain ⟨hdrops, hforwarded⟩ := ih (ci_drop_iface_nexthop s c).1
    rw [(nexthop_frame s c).1] at hdrops hforwarded
    have hstate : (shimRun s (c :: calls)).1 = (shimRun (ci_drop_iface_nexthop s c).1 calls).1 := rfl
    rw [hstate, hdrops, hforwarded, scopedResults_cons, List.countP_append, List.countP_append]
    cases hscope : inScope s.rule c with
    | false =>
      rw [nexthop_of_out_of_scope hscope]
      exact ⟨by simp, by simp⟩
    | true =>
      rw [nexthop_of_in_scope hscope]
      cases hdrop : (decideFrame s c).2 with
      | false =>
        have hkept : freed (c, c.delegate) = false := freed_delegate c
        simp [hkept]
        omega
      | true =>
        have hlost : freed (c, c.free) = true := freed_ite c true
        simp [hlost]
        omega

/-- In a run whose in-scope frames meet the indices of `key`, the log has one row for each of
    them, with its key and its fate. -/
theorem shimRun_entries {log : List DropLogRow} (hopen : s.drop_log = some log) {calls : List NexthopCall}
    (hkey : ∀ before c after, calls = before ++ c :: after → inScope s.rule c = true →
      (flowIndex (shimRun s before).1 c).toNat = key c) :
    ∃ rows, (shimRun s calls).1.drop_log = some (log ++ rows) ∧
      rows.map DropLogRow.entry = (scopedResults s.rule calls (shimRun s calls).2).map
        fun call => (key call.1, freed call) := by
  induction calls generalizing s log with
  | nil => exact ⟨[], by simpa [shimRun] using hopen, rfl⟩
  | cons c calls ih =>
    have hrest (rows : List DropLogRow) (hrows : (ci_drop_iface_nexthop s c).1.drop_log = some rows) :=
      ih hrows fun before d after heq hscope => by
        rw [(nexthop_frame s c).1] at hscope
        exact hkey (c :: before) d after (by rw [heq, List.cons_append]) hscope
    have hstate : (shimRun s (c :: calls)).1 = (shimRun (ci_drop_iface_nexthop s c).1 calls).1 := rfl
    rw [scopedResults_cons, hstate]
    cases hscope : inScope s.rule c with
    | false =>
      obtain ⟨rows, hlog, hentries⟩ := hrest log (by rw [nexthop_of_out_of_scope hscope]; exact hopen)
      rw [(nexthop_frame s c).1] at hentries
      exact ⟨rows, hlog, hentries⟩
    | true =>
      have hindex : (flowIndex s c).toNat = key c := hkey [] c calls rfl hscope
      have happend : (ci_drop_iface_nexthop s c).1.drop_log =
          some (log ++ [logRow s.tracker c (decideFrame s c).2]) := by
        rw [nexthop_of_in_scope hscope, hopen]
        rfl
      have hfreed : freed (c, (ci_drop_iface_nexthop s c).2) = (decideFrame s c).2 := by
        rw [nexthop_of_in_scope hscope]
        exact freed_ite c _
      obtain ⟨rows, hlog, hentries⟩ := hrest _ happend
      rw [(nexthop_frame s c).1] at hentries
      refine ⟨logRow s.tracker c (decideFrame s c).2 :: rows, by rw [hlog, List.append_assoc]; rfl, ?_⟩
      rw [List.map_cons, hentries, if_pos rfl, List.singleton_append, List.map_cons, hfreed, ← hindex]
      rfl

/-- Only a frame in scope is freed. -/
theorem inScope_of_freed {calls : List NexthopCall} {call : NexthopCall × NexthopResult}
    (hcall : call ∈ calls.zip (shimRun s calls).2) (hfreed : freed call = true) :
    inScope s.rule call.1 = true := by
  obtain ⟨c, result⟩ := call
  obtain ⟨before, after, -, rfl⟩ := Transducer.exists_of_mem_zip_run hcall
  by_contra hout
  rw [Bool.not_eq_true, ← (shimRun_sameSetup s before).rule] at hout
  change freed (c, (ci_drop_iface_nexthop (shimRun s before).1 c).2) = true at hfreed
  rw [nexthop_of_out_of_scope hout, freed_delegate] at hfreed
  cases hfreed

/-- In identity mode a frame in scope is freed exactly when its index says so. -/
theorem freed_eq_decide (hmode : s.per_attempt = false) {calls : List NexthopCall}
    {call : NexthopCall × NexthopResult} (hcall : call ∈ calls.zip (shimRun s calls).2)
    (hscope : inScope s.rule call.1 = true) : ∃ before after, calls = before ++ call.1 :: after ∧
      freed call = ci_rule_decide s.rule (flowIndex (shimRun s before).1 call.1) := by
  obtain ⟨c, result⟩ := call
  obtain ⟨before, after, hcalls, rfl⟩ := Transducer.exists_of_mem_zip_run hcall
  refine ⟨before, after, hcalls, ?_⟩
  have hsetup := shimRun_sameSetup s before
  rw [← hsetup.rule] at hscope
  change freed (c, (ci_drop_iface_nexthop (shimRun s before).1 c).2) = _
  rw [nexthop_of_in_scope hscope, freed_ite, decideFrame, hsetup.per_attempt, hmode, hsetup.rule]
  rfl

end Entries

section Data

/-- The fragment of a data frame, 0 where there is none. -/
def dataFrag (mtu overhead : UInt16) (data : List UInt8) : UInt32 :=
  ((ci_dtp_parse_offset data).bind fun off => ci_dtp_fragment_index_ovh off mtu overhead).getD 0

theorem ci_flow_index_geometry (t : CiFlowTracker) (f : CiFrame) (data : List UInt8) :
    (ci_flow_index t f data).1.dtp_mtu = t.dtp_mtu ∧ (ci_flow_index t f data).1.dtp_overhead = t.dtp_overhead := by
  unfold ci_flow_index
  split
  · split <;> exact ⟨rfl, rfl⟩
  · split <;> exact ⟨rfl, rfl⟩

theorem nexthop_geometry (s : CiDropIface) (c : NexthopCall) :
    (ci_drop_iface_nexthop s c).1.tracker.dtp_mtu = s.tracker.dtp_mtu ∧
      (ci_drop_iface_nexthop s c).1.tracker.dtp_overhead = s.tracker.dtp_overhead := by
  cases hscope : inScope s.rule c with
  | false =>
    rw [nexthop_of_out_of_scope hscope]
    exact ⟨rfl, rfl⟩
  | true =>
    rw [nexthop_of_in_scope hscope]
    exact ci_flow_index_geometry s.tracker c.frame c.packet.data

/-- A data frame meets its fragment, whatever came before it. -/
theorem flowIndex_data (s : CiDropIface) (before : List NexthopCall) {c : NexthopCall}
    (hdata : c.frame.is_rdp = false) : flowIndex (shimRun s before).1 c =
      (dataFrag s.tracker.dtp_mtu s.tracker.dtp_overhead c.packet.data).toUInt64 := by
  obtain ⟨hmtu, hoverhead⟩ : (shimRun s before).1.tracker.dtp_mtu = s.tracker.dtp_mtu ∧
      (shimRun s before).1.tracker.dtp_overhead = s.tracker.dtp_overhead := by
    refine Transducer.run_invariant (fun t : CiDropIface => t.tracker.dtp_mtu = s.tracker.dtp_mtu ∧
      t.tracker.dtp_overhead = s.tracker.dtp_overhead) (fun t c h => ?_) ⟨rfl, rfl⟩ before
    obtain ⟨hmtu, hoverhead⟩ := nexthop_geometry t c
    exact ⟨hmtu.trans h.1, hoverhead.trans h.2⟩
  rw [flowIndex, ci_flow_index, hdata, if_neg Bool.false_ne_true, dataFrag, hmtu, hoverhead]
  cases ci_dtp_parse_offset c.packet.data <;> rfl

end Data

section Numbered

/-- The number an RDP frame carries. -/
def trailerSeq (c : NexthopCall) : Option UInt16 :=
  if c.frame.is_rdp then (ci_rdp_parse_trailer c.packet.data).map CiRdpHeader.seq else none

/-- No number is more than half the space below one that was sent before it. -/
def Unwrapped (calls : List NexthopCall) : Prop :=
  calls.Pairwise fun a b => ∀ m ∈ trailerSeq a, ∀ n ∈ trailerSeq b, m.toNat ≤ n.toNat + 32768

/-- The flow state after frames of the first epoch. -/
structure FirstEpoch (before : List NexthopCall) (t : CiFlowTracker) : Prop where
  epoch : t.epoch = 0
  last_seq : t.have_last_seq = true → ∃ c ∈ before, t.last_seq ∈ trailerSeq c

/-- A frame that is not far below its predecessors starts no epoch. -/
theorem FirstEpoch.ci_flow_index {before : List NexthopCall} {t : CiFlowTracker} (h : FirstEpoch before t)
    {c : NexthopCall} (hnear : ∀ a ∈ before, ∀ m ∈ trailerSeq a, ∀ n ∈ trailerSeq c, m.toNat ≤ n.toNat + 32768) :
    FirstEpoch (before ++ [c]) (ci_flow_index t c.frame c.packet.data).1 ∧
      ∀ n ∈ trailerSeq c, (ci_flow_index t c.frame c.packet.data).2.toNat = n.toNat := by
  have hmore {x : UInt16} (hlast : ∃ a ∈ before, x ∈ trailerSeq a) : ∃ a ∈ before ++ [c], x ∈ trailerSeq a := by
    obtain ⟨a, ha, hx⟩ := hlast
    exact ⟨a, List.mem_append_left _ ha, hx⟩
  cases hrdp : c.frame.is_rdp with
  | false =>
    have hnone : trailerSeq c = none := if_neg (by simp [hrdp])
    have hstate : (ci_rule.ci_flow_index t c.frame c.packet.data).1 = t := by
      unfold ci_rule.ci_flow_index
      rw [hrdp, if_neg Bool.false_ne_true]
      split <;> rfl
    rw [hstate, hnone]
    exact ⟨⟨h.epoch, fun hhave => hmore (h.last_seq hhave)⟩, nofun⟩
  | true =>
    cases hparse : ci_rdp_parse_trailer c.packet.data with
    | none =>
      have hnone : trailerSeq c = none := by rw [trailerSeq, if_pos hrdp, hparse]; rfl
      have hstate : (ci_rule.ci_flow_index t c.frame c.packet.data).1 = t := by
        simp [ci_rule.ci_flow_index, hrdp, hparse]
      rw [hstate, hnone]
      exact ⟨⟨h.epoch, fun hhave => hmore (h.last_seq hhave)⟩, nofun⟩
    | some header =>
      have hseq : trailerSeq c = some header.seq := by rw [trailerSeq, if_pos hrdp, hparse]; rfl
      have hwrap : (t.have_last_seq && ci_rdp_seq_is_wrap t.last_seq header.seq) = false := by
        rw [Bool.and_eq_false_iff]
        by_contra hboth
        rw [not_or, Bool.not_eq_false, Bool.not_eq_false, ci_rdp_seq_is_wrap_iff] at hboth
        obtain ⟨hhave, hforward, hbelow⟩ := hboth
        obtain ⟨a, ha, hm⟩ := h.last_seq hhave
        have hclose := hnear a ha t.last_seq hm header.seq hseq
        have hlt := t.last_seq.toNat_lt
        omega
      rw [ci_flow_index_of_rdp hrdp hparse, hwrap, hseq]
      refine ⟨⟨h.epoch, fun _ => ⟨c, by simp, hseq⟩⟩, ?_⟩
      rintro n ⟨⟩
      simp only [Bool.false_eq_true, if_false, ci_flow_index_rdp_toNat, h.epoch, UInt32.toNat_zero]
      omega

/-- Without a wrap, a numbered frame meets its number. -/
theorem flowIndex_numbered {s : CiDropIface} (hfresh : s.tracker.epoch = 0)
    (hnone : s.tracker.have_last_seq = false) {calls : List NexthopCall} (horder : Unwrapped calls)
    {before after : List NexthopCall} {c : NexthopCall} (hcalls : calls = before ++ c :: after)
    {n : UInt16} (hn : n ∈ trailerSeq c) : (flowIndex (shimRun s before).1 c).toNat = n.toNat := by
  have hstep (t : CiDropIface) (past : List NexthopCall) (d : NexthopCall) (h : FirstEpoch past t.tracker)
      (hnear : ∀ a ∈ past, ∀ m ∈ trailerSeq a, ∀ n ∈ trailerSeq d, m.toNat ≤ n.toNat + 32768) :
      FirstEpoch (past ++ [d]) (ci_drop_iface_nexthop t d).1.tracker := by
    cases hscope : inScope t.rule d with
    | false =>
      rw [nexthop_of_out_of_scope hscope]
      refine ⟨h.epoch, fun hhave => ?_⟩
      obtain ⟨a, ha, hseq⟩ := h.last_seq hhave
      exact ⟨a, List.mem_append_left _ ha, hseq⟩
    | true =>
      rw [nexthop_of_in_scope hscope]
      exact (h.ci_flow_index hnear).1
  have hstate (past : List NexthopCall) (hpast : Unwrapped past) : FirstEpoch past (shimRun s past).1.tracker := by
    induction past using List.reverseRecOn with
    | nil => exact ⟨hfresh, fun h => by rw [shimRun, Transducer.run_nil, hnone] at h; cases h⟩
    | append_singleton past d ih =>
      rw [Unwrapped, List.pairwise_append] at hpast
      obtain ⟨hpairs, -, hlast⟩ := hpast
      rw [shimRun, Transducer.run_append]
      exact hstep _ past d (ih hpairs) fun a ha => hlast a ha d (List.mem_singleton_self d)
  rw [hcalls, Unwrapped, List.pairwise_append] at horder
  obtain ⟨hpairs, -, hlast⟩ := horder
  exact ((hstate before hpairs).ci_flow_index fun a ha => hlast a ha c List.mem_cons_self).2 n hn

end Numbered

end csp_intercept.ci_drop_iface
