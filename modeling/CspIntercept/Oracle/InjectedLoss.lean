import CspIntercept.Apm.DataLoss
import CspIntercept.Inject.LogKeys
import CspIntercept.Lib.Thinning
import CspIntercept.Rule.Epoch

open csp_intercept.ci_rdp csp_intercept.ci_rule csp_intercept.ci_meas
open csp_intercept.ci_drop_iface csp_intercept.csp_monitor_apm

namespace csp_intercept.oracle

/-- The packet of a call is at a position of its flow. -/
def AtCall (p : ℕ) (c : NexthopCall) : Prop := CarriesPosition p (c.frame, c.packet.data)

/-- The injector lets a position through. -/
def passes (rule : CiDropRule) (p : ℕ) : Bool := !ci_rule_decide rule (UInt64.ofNat p)

section Shim

variable {s : CiDropIface} {p top : ℕ} {ps : List ℕ} {calls : List NexthopCall}

theorem decideFrame_of_index (hmode : s.per_attempt = false) {c : NexthopCall}
    (hindex : (ci_flow_index s.tracker c.frame c.packet.data).2.toNat = p) :
    (decideFrame s c).2 = !passes s.rule p := by
  rw [decideFrame, hmode, if_neg Bool.false_ne_true, passes, Bool.not_not, ← hindex, UInt64.ofNat_toNat]

/-- From a right key on, every frame meets the fate of its position. -/
theorem freed_positions_after (hmode : s.per_attempt = false) (hat : AtPosition p s.tracker) (hle : p ≤ top)
    (hback : top < p + 1001) (hcarry : List.Forall₂ AtCall ps calls)
    (hscope : ∀ c ∈ calls, inScope s.rule c = true) (hadm : Serial.Within 1001 32768 top ps)
    (hchain : List.IsChain KeepsEpoch (p :: ps)) (hsmall : ∀ q ∈ ps, q < 2 ^ 48) :
    (calls.zip (shimRun s calls).2).map freed = ps.map fun q => !passes s.rule q := by
  induction hcarry generalizing s p top with
  | nil => rfl
  | @cons q c ps calls hq hrest ih =>
    obtain ⟨hqback, hqahead, hwithin⟩ := hadm
    obtain ⟨hkeeps, hchain⟩ := List.isChain_cons_cons.mp hchain
    have hin : inScope s.rule c = true := hscope c List.mem_cons_self
    have hkey : (ci_flow_index s.tracker c.frame c.packet.data).2.toNat = q :=
      (ci_flow_index_next_eq_iff hq hat (by omega) (by omega)).mpr ⟨hkeeps, hsmall q List.mem_cons_self⟩
    have hnext := ci_flow_index_next_at hq hat hkey
    obtain ⟨hrule, hattempt, -⟩ := nexthop_frame s c
    have htracker : (ci_drop_iface_nexthop s c).1.tracker = (ci_flow_index s.tracker c.frame c.packet.data).1 := by
      rw [nexthop_of_in_scope hin]
    have hfreed : freed (c, (ci_drop_iface_nexthop s c).2) = !passes s.rule q := by
      rw [nexthop_of_in_scope hin, freed_ite, decideFrame_of_index hmode hkey]
    have htail := ih (s := (ci_drop_iface_nexthop s c).1) (hattempt.trans hmode) (htracker ▸ hnext)
      (le_max_right top q) (by omega) (fun d hd => hrule ▸ hscope d (List.mem_cons_of_mem c hd)) hwithin hchain
      fun r hr => hsmall r (List.mem_cons_of_mem q hr)
    rw [hrule] at htail
    rw [List.map_cons, ← htail, ← hfreed]
    rfl

/-- So does every frame of a flow that a fresh tracker follows. -/
theorem freed_positions (hmode : s.per_attempt = false) (hnone : s.tracker.have_last_seq = false)
    (hepoch : s.tracker.epoch = 0) (hfirst : p < 65536) (hcarry : List.Forall₂ AtCall (p :: ps) calls)
    (hscope : ∀ c ∈ calls, inScope s.rule c = true) (hadm : Serial.Within 1001 32768 p ps)
    (hchain : List.IsChain KeepsEpoch (p :: ps)) (hsmall : ∀ q ∈ ps, q < 2 ^ 48) :
    (calls.zip (shimRun s calls).2).map freed = (p :: ps).map fun q => !passes s.rule q := by
  cases hcarry with
  | @cons _ c _ calls hp hrest =>
    obtain ⟨hkey, hat⟩ := ci_flow_index_first (t := s.tracker) hp hfirst hnone hepoch
    have hin : inScope s.rule c = true := hscope c List.mem_cons_self
    obtain ⟨hrule, hattempt, -⟩ := nexthop_frame s c
    have htracker : (ci_drop_iface_nexthop s c).1.tracker = (ci_flow_index s.tracker c.frame c.packet.data).1 := by
      rw [nexthop_of_in_scope hin]
    have hfreed : freed (c, (ci_drop_iface_nexthop s c).2) = !passes s.rule p := by
      rw [nexthop_of_in_scope hin, freed_ite, decideFrame_of_index hmode hkey]
    have htail := freed_positions_after (s := (ci_drop_iface_nexthop s c).1) (hattempt.trans hmode) (htracker ▸ hat)
      le_rfl (by omega) hrest (fun d hd => hrule ▸ hscope d (List.mem_cons_of_mem c hd)) hadm hchain hsmall
    rw [hrule] at htail
    rw [List.map_cons, ← htail, ← hfreed]
    rfl

end Shim

/-- One RDP flow over the shim and then past the monitor. -/
structure RdpSession (s : CiDropIface) (calls : List NexthopCall) (p₀ : ℕ) (ps : List ℕ) (cfg : MonConfig)
    (conn_ovf buffer_out : UInt8) (es : List Event) : Prop where
  /-- The shim drops by identity, and this is its first flow. -/
  mode : s.per_attempt = false
  have_last_seq : s.tracker.have_last_seq = false
  epoch : s.tracker.epoch = 0
  scope : ∀ c ∈ calls, inScope s.rule c = true
  /-- The sender takes the next number or sends an earlier one again, within its window and not back over a
      multiple of 65536. -/
  carry : List.Forall₂ AtCall (p₀ :: ps) calls
  first : p₀ < 65536
  past : ∀ p ∈ ps, p₀ ≤ p
  window : Serial.Within 1001 2 p₀ ps
  keeps : List.IsChain KeepsEpoch (p₀ :: ps)
  small : ∀ q ∈ ps, q < 2 ^ 48
  /-- The rule does not drop half the number space in a row. -/
  gap : Serial.Gapless (passes s.rule) 32768
  /-- The monitor measures the frames the shim forwarded, in their order. -/
  link : ((stream cfg (csp_monitor_start conn_ovf buffer_out) es).map Prod.snd).filter
      (fun pk => (rdp_header cfg pk).isSome) =
    ((calls.zip (shimRun s calls).2).filter fun call => !freed call).map fun call => call.1.packet

section Session

variable {s : CiDropIface} {calls : List NexthopCall} {p₀ : ℕ} {ps : List ℕ} {cfg : MonConfig}
  {conn_ovf buffer_out : UInt8} {es : List Event}

/-- The measured number of a packet at a position. -/
theorem seq_of_header {p : ℕ} {c : NexthopCall} (hat : AtCall p c) {h : CiRdpHeader}
    (hheader : rdp_header cfg c.packet = some h) : h.seq = wire p := by
  obtain ⟨-, h', hparse, hseq⟩ := hat
  unfold rdp_header at hheader
  split_ifs at hheader
  rw [hparse] at hheader
  obtain rfl := Option.some.inj hheader
  rw [hseq]
  apply UInt16.toNat_inj.mp
  rw [UInt16.toNat_ofNat', wire, UInt16.ofInt, UInt16.toNat_ofNat']
  omega

/-- Measured packets at known positions feed these to the tracker. -/
theorem filterMap_header {qs : List ℕ} {fwd : List NexthopCall} (hat : List.Forall₂ AtCall qs fwd)
    (hmeasured : ∀ c ∈ fwd, (rdp_header cfg c.packet).isSome = true) :
    (fwd.map fun c => c.packet).filterMap (fun pk => (rdp_header cfg pk).map CiRdpHeader.seq) =
      (qs.map Nat.cast).map wire := by
  induction hat with
  | nil => rfl
  | @cons q c qs fwd hq _ ih =>
    obtain ⟨h, hheader⟩ := Option.isSome_iff_exists.mp (hmeasured c List.mem_cons_self)
    have hrest := ih fun d hd => hmeasured d (List.mem_cons_of_mem c hd)
    rw [List.map_cons, List.filterMap_cons, hheader, Option.map_some, seq_of_header hq hheader, hrest]
    rfl

namespace RdpSession

variable (h : RdpSession s calls p₀ ps cfg conn_ovf buffer_out es)

include h

theorem freed_eq : (calls.zip (shimRun s calls).2).map freed = (p₀ :: ps).map fun q => !passes s.rule q := by
  exact freed_positions h.mode h.have_last_seq h.epoch h.first h.carry h.scope
    (h.window.mono le_rfl (by omega)) h.keeps h.small

/-- The frames the shim forwarded, at the positions it lets through. -/
theorem forwarded_at : List.Forall₂ AtCall ((p₀ :: ps).filter (passes s.rule))
    (((calls.zip (shimRun s calls).2).filter fun call => !freed call).map Prod.fst) := by
  rw [List.forall₂_map_right_iff]
  apply Serial.forall₂_filter
  · rw [← List.forall₂_map_right_iff, List.map_fst_zip (by rw [shimRun, Transducer.length_run_outputs])]
    exact h.carry
  · have hnot := congrArg (List.map not) h.freed_eq
    rw [List.map_map, List.map_map] at hnot
    simpa [Function.comp_def] using hnot

/-- What the tracker has been fed at the end. -/
theorem mon_seq_eq : (run cfg (csp_monitor_start conn_ovf buffer_out) es).mon_seq =
    (feeds (((p₀ :: ps).filter (passes s.rule)).map Nat.cast)).1 := by
  have hfed : fed_seqs cfg (stream cfg (csp_monitor_start conn_ovf buffer_out) es) =
      (((p₀ :: ps).filter (passes s.rule)).map Nat.cast).map wire := by
    have hsame (frames : List (UInt32 × CspPacket)) : fed_seqs cfg frames =
        ((frames.map Prod.snd).filter fun pk => (rdp_header cfg pk).isSome).filterMap
          fun pk => (rdp_header cfg pk).map CiRdpHeader.seq := by
      rw [List.filterMap_filter, List.filterMap_map, fed_seqs]
      congr 1
      funext f
      cases hheader : rdp_header cfg f.2 <;> simp [hheader]
    rw [hsame, h.link]
    have hmap : ((calls.zip (shimRun s calls).2).filter fun call => !freed call).map (fun call => call.1.packet) =
        (((calls.zip (shimRun s calls).2).filter fun call => !freed call).map Prod.fst).map fun c => c.packet := by
      rw [List.map_map]
      rfl
    rw [hmap]
    apply filterMap_header h.forwarded_at
    intro c hc
    have hmem : c.packet ∈ ((calls.zip (shimRun s calls).2).filter fun call => !freed call).map
        fun call => call.1.packet := by
      rw [hmap]
      exact List.mem_map_of_mem hc
    rw [← h.link] at hmem
    exact (List.mem_filter.mp hmem).2
  rw [run_start_mon_seq, hfed]
  rfl

/-- The shim's own count of its drops. -/
theorem injected_drops_eq : (shimRun s calls).1.injected_drops =
    s.injected_drops + (p₀ :: ps).countP fun p => !passes s.rule p := by
  have hall : scopedResults s.rule calls (shimRun s calls).2 = calls.zip (shimRun s calls).2 := by
    rw [scopedResults, List.filter_eq_self]
    exact fun call hcall => h.scope call.1 (List.of_mem_zip hcall).1
  have hcount := congrArg (List.countP id) h.freed_eq
  rw [List.countP_map, List.countP_map] at hcount
  rw [(shimRun_counters s calls).1, hall]
  exact congrArg (s.injected_drops + ·) hcount

end RdpSession

/-- The holes of a thinned stream are the lost positions between its ends. -/
theorem card_missing_thinned {keep : ℕ → Bool} {back ahead q₀ : ℕ} {qs : List ℕ}
    (h : Serial.Thinned keep back ahead p₀ q₀ qs) : (missing q₀ (qs.map Nat.cast)).card =
      ((Finset.Ioo q₀ (qs.foldl max q₀)).filter fun p => keep p = false).card := by
  have hmissing : missing q₀ (qs.map Nat.cast) =
      ((Finset.Icc q₀ (qs.foldl max q₀)).filter fun p => ¬ keep p = true).image Nat.cast := by
    ext z
    rw [missing, Finset.mem_filter, mem_span, highest, Serial.foldl_max_map_cast, Finset.mem_image]
    constructor
    · rintro ⟨⟨hlow, hhigh⟩, hnot⟩
      obtain ⟨n, rfl⟩ := Int.eq_ofNat_of_zero_le (by omega : 0 ≤ z)
      have hn : q₀ ≤ n ∧ n ≤ qs.foldl max q₀ := by omega
      refine ⟨n, Finset.mem_filter.mpr ⟨Finset.mem_Icc.mpr hn, fun hkeep => hnot ?_⟩, rfl⟩
      have hmem := List.mem_map_of_mem (f := (Nat.cast : ℕ → ℤ)) ((h.kept n hn.1 hn.2).mpr hkeep)
      exact hmem
    · rintro ⟨n, hn, rfl⟩
      obtain ⟨hbounds, hlost⟩ := Finset.mem_filter.mp hn
      obtain ⟨hlow, hhigh⟩ := Finset.mem_Icc.mp hbounds
      refine ⟨⟨by omega, by omega⟩, fun hmem => hlost ?_⟩
      rw [← List.map_cons] at hmem
      obtain ⟨m, hm, heq⟩ := List.mem_map.mp hmem
      have hmn : m = n := by exact_mod_cast heq
      exact (h.kept n hlow hhigh).mp (hmn ▸ hm)
  rw [hmissing, Finset.card_image_of_injective _ Nat.cast_injective, h.filter_lost_Icc]

/-- What the monitor infers at the end of the flow, in terms of what the shim did. -/
structure InferredIsInjected (s : CiDropIface) (calls : List NexthopCall) (p₀ : ℕ) (ps : List ℕ) (loss : ℕ) :
    Prop where
  /-- Nothing let through, nothing inferred. -/
  silent : (p₀ :: ps).filter (passes s.rule) = [] → loss = 0
  /-- Otherwise the dropped positions between the first and the highest one let through. -/
  inferred : ∀ q₀ qs, (p₀ :: ps).filter (passes s.rule) = q₀ :: qs →
    loss = ((Finset.Ioo q₀ (qs.foldl max q₀)).filter fun p => passes s.rule p = false).card
  /-- Without retransmissions that is the shim's count but for the drops at both ends of the flow. -/
  balance : (p₀ :: ps).Nodup → ∀ q₀ qs, (p₀ :: ps).filter (passes s.rule) = q₀ :: qs →
    (shimRun s calls).1.injected_drops =
      s.injected_drops + (q₀ - p₀) + loss + (ps.foldl max p₀ - qs.foldl max q₀)

/-- The loss the monitor infers is the loss the shim injects, across wraps of the number and however
    often the sender repeats itself, up to drops before the first and behind the last frame let through. -/
theorem inferred_is_injected (h : RdpSession s calls p₀ ps cfg conn_ovf buffer_out es) :
    InferredIsInjected s calls p₀ ps
      (ci_seq_tracker_loss (run cfg (csp_monitor_start conn_ovf buffer_out) es).mon_seq) := by
  have hinferred : ∀ q₀ qs, (p₀ :: ps).filter (passes s.rule) = q₀ :: qs →
      ci_seq_tracker_loss (run cfg (csp_monitor_start conn_ovf buffer_out) es).mon_seq =
        ((Finset.Ioo q₀ (qs.foldl max q₀)).filter fun p => passes s.rule p = false).card := by
    intro q₀ qs hkept
    have hthin := h.window.thinned h.gap h.past hkept
    have hwide : Serial.Within 2048 32768 (q₀ : ℤ) (qs.map Nat.cast) :=
      hthin.within.map_cast.mono (by norm_num) (by norm_num)
    have hloss : LossIsMissing q₀ (qs.map Nat.cast) := by
      refine (lossIsMissing_iff hwide).mpr (.inl fun p hp => ?_)
      obtain ⟨q, hq, rfl⟩ := List.mem_map.mp hp
      exact_mod_cast hthin.least q hq
    rw [h.mon_seq_eq, hkept, List.map_cons, ← card_missing_thinned hthin]
    exact hloss
  refine ⟨fun hkept => ?_, hinferred, fun hnodup q₀ qs hkept => ?_⟩
  · rw [h.mon_seq_eq, hkept]
    rfl
  · rw [h.injected_drops_eq, h.window.countP_lost h.gap h.past hnodup hkept, hinferred q₀ qs hkept]
    omega

end Session

section Example

/-- A shim that drops position 1. -/
def second_dropped : CiDropIface :=
  ci_drop_iface_init
    { seed := 1
      match_dport := 13
      match_rdp_syn := false
      drop_probability := 0
      replay_vector := some [0, 1, 0]
      replay_len := 3 } 200 (some [])

/-- A data frame with a number below 256. -/
def number_call (seq : UInt8) : NexthopCall where
  via := 2
  packet := rdp_frame [1] seq
  from_me := true
  now := 0
  target_rc := 0

theorem number_call_at (seq : UInt8) : AtCall seq.toNat (number_call seq) := by
  have hflag : (2 : UInt8) &&& CI_CSP_FRDP ≠ 0 := by decide
  refine ⟨ci_frame_from_fields_is_rdp _ hflag, _, ci_rdp_parse_trailer_append [1] 4 0 seq 0 0, ?_⟩
  apply UInt16.toNat_inj.mp
  have hlt := seq.toNat_lt
  rw [UInt16.toNat_ofNat']
  change (be16 0 seq).toNat = _
  simp [be16]

theorem second_dropped_gapless : Serial.Gapless (passes second_dropped.rule) 32768 := by
  have hpass {p : ℕ} (hp : (UInt64.ofNat p).toNat ≠ 1) : passes second_dropped.rule p = true := by
    change (!if 3 ≤ (UInt64.ofNat p).toNat then false else ([0, 1, 0] : List UInt8).getD (UInt64.ofNat p).toNat 0 != 0) = true
    split_ifs with hlong
    · rfl
    · obtain hidx | hidx : (UInt64.ofNat p).toNat = 0 ∨ (UInt64.ofNat p).toNat = 2 := by omega
      · rw [hidx]
        rfl
      · rw [hidx]
        rfl
  intro p
  by_cases hp : (UInt64.ofNat p).toNat = 1
  · refine ⟨1, by omega, hpass ?_⟩
    rw [UInt64.toNat_ofNat'] at hp ⊢
    omega
  · exact ⟨0, by omega, hpass hp⟩

/-- Of three numbers the middle one is dropped, and the monitor infers a loss. -/
theorem inferred_is_injected_three : InferredIsInjected second_dropped [number_call 0, number_call 1, number_call 2]
    0 [1, 2] (ci_seq_tracker_loss (run dipp_monitor (csp_monitor_start 0 0)
      (observe [rdp_frame [1] 0, rdp_frame [1] 2])).mon_seq) :=
  inferred_is_injected
    { mode := rfl
      have_last_seq := rfl
      epoch := rfl
      scope := by decide
      carry := .cons (number_call_at 0) (.cons (number_call_at 1) (.cons (number_call_at 2) .nil))
      first := by omega
      past := by simp
      window := by decide
      keeps := by decide
      small := by decide
      gap := second_dropped_gapless
      link := by decide }

end Example

end csp_intercept.oracle
