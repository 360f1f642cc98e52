import CspIntercept.Apm.Stream

open csp_intercept.ci_rdp csp_intercept.ci_meas
open csp_intercept.ci_drop_iface (CspPacket)

namespace csp_intercept.csp_monitor_apm

/-- The frames recorded in the pairing ring, in order. -/
def recorders (cfg : MonConfig) (frames : List (UInt32 × CspPacket)) : List CspPacket :=
  (frames.filter fun f => (rdp_header cfg f.2).isSome && carries_payload f.2).map Prod.snd

/-- What the pairing ring holds after frames. -/
def ring_history (cfg : MonConfig) (frames : List (UInt32 × CspPacket)) : RttHistory :=
  rtt_history (frames.flatMap (rtt_calls cfg))

/-- The ring entry that a frame consumes, handled after others. -/
def paired_entry (cfg : MonConfig) (before : List (UInt32 × CspPacket)) (f : UInt32 × CspPacket) :
    Option RttEvent :=
  (rdp_header cfg f.2).bind fun h =>
    ((rtt_history (before.flatMap (rtt_calls cfg) ++ data_call f.1 f.2 h)).on_ack h.ack).2

/-- The two frames travel in opposite directions. -/
def Opposite (g pk : CspPacket) : Prop := g.id.src = pk.id.dst ∧ g.id.dst = pk.id.src

/-- The entry was recorded by one of the frames before, in the opposite direction. -/
def RecordedOpposite (cfg : MonConfig) (before : List (UInt32 × CspPacket)) (pk : CspPacket)
    (e : RttEvent) : Prop :=
  ∃ g, (recorders cfg before)[e.number]? = some g ∧ Opposite g pk

/-- If the frame's row reports a pairing, its entry is that of an earlier opposite frame. -/
def PairsOpposite (cfg : MonConfig) (m : Monitor) (before : List (UInt32 × CspPacket)) (t : UInt32)
    (pk : CspPacket) : Prop :=
  ∀ src dst dport csp_flags rdp_flags rdp_seq rdp_ack rtt_ms,
    (drain_packet cfg m t (some pk)).mon_csv =
      m.mon_csv ++ [.rdp t src dst dport csp_flags rdp_flags rdp_seq rdp_ack true rtt_ms] →
    ∃ e, paired_entry cfg before (t, pk) = some e ∧ RecordedOpposite cfg before pk e

/-- The frame carries data under a number. -/
def sends (cfg : MonConfig) (n : UInt16) (f : UInt32 × CspPacket) : Bool :=
  (rdp_header cfg f.2).map CiRdpHeader.seq == some n && carries_payload f.2

/-- The frame acknowledges a number. -/
def acknowledges (cfg : MonConfig) (n : UInt16) (f : UInt32 × CspPacket) : Bool :=
  (rdp_header cfg f.2).map CiRdpHeader.ack == some n

/-- After the frames since, the frame's data still awaits its acknowledgement, behind that of
    `depth` newer frames under the same number. -/
structure Awaits (cfg : MonConfig) (n : UInt16) (depth : ℕ) (g : UInt32 × CspPacket)
    (since : List (UInt32 × CspPacket)) : Prop where
  data : sends cfg n g = true
  other : acknowledges cfg n g = false
  /-- At no time have more acknowledgements than data come under the number, -/
  never : ∀ s, s <+: since → s.countP (acknowledges cfg n) ≤ s.countP (sends cfg n)
  /-- and in all there have been so many fewer. -/
  total : since.countP (sends cfg n) = since.countP (acknowledges cfg n) + depth

/-- The frame does not acknowledge a number it carries data under, and the last frame whose data
    awaits this acknowledgement, unless 256 data frames have followed it, came the other way. -/
def AcksOpposite (cfg : MonConfig) (before : List (UInt32 × CspPacket)) (pk : CspPacket) : Prop :=
  ∀ h, rdp_header cfg pk = some h →
    (carries_payload pk = true → h.seq ≠ h.ack) ∧
      ∀ older g since, before = older ++ g :: since → Awaits cfg h.ack 0 g since →
        (recorders cfg since).length + (carries_payload pk).toNat < 256 → Opposite g.2 pk

variable {cfg : MonConfig} {before : List (UInt32 × CspPacket)} {pk : CspPacket} {t : UInt32}

/-- Each frame recorded is one data packet of the ring. -/
theorem length_recorders (cfg : MonConfig) (frames : List (UInt32 × CspPacket)) :
    (rtt_packets (frames.flatMap (rtt_calls cfg))).length = (recorders cfg frames).length := by
  induction frames with
  | nil => rfl
  | cons f frames ih =>
    have happend : rtt_packets ((f :: frames).flatMap (rtt_calls cfg)) =
        rtt_packets (rtt_calls cfg f) ++ rtt_packets (frames.flatMap (rtt_calls cfg)) := by
      rw [List.flatMap_cons]
      exact List.filterMap_append
    rw [happend, List.length_append, ih, recorders, recorders, List.length_map, List.length_map,
      List.filter_cons]
    unfold rtt_calls data_call
    cases hpk : rdp_header cfg f.2 with
    | none => simp [rtt_packets]
    | some h =>
      cases hdata : carries_payload f.2
      · simp [rtt_packets]
      · simp [rtt_packets]
        omega

theorem recorders_append (cfg : MonConfig) (xs ys : List (UInt32 × CspPacket)) :
    recorders cfg (xs ++ ys) = recorders cfg xs ++ recorders cfg ys := by
  rw [recorders, List.filter_append, List.map_append, ← recorders, ← recorders]

/-- A frame is recorded if it is measured and carries data. -/
theorem recorders_singleton {f : UInt32 × CspPacket} {h : CiRdpHeader} (hheader : rdp_header cfg f.2 = some h) :
    recorders cfg [f] = if carries_payload f.2 then [f.2] else [] := by
  rw [recorders, List.filter_cons, hheader]
  cases carries_payload f.2 <;> rfl

theorem Awaits.recorded {n : UInt16} {depth : ℕ} {g : UInt32 × CspPacket} {since : List (UInt32 × CspPacket)}
    (h : Awaits cfg n depth g since) : recorders cfg [g] = [g.2] := by
  have hdata := h.data
  rw [sends, Bool.and_eq_true, beq_iff_eq, Option.map_eq_some_iff] at hdata
  obtain ⟨⟨header, hheader, -⟩, hpayload⟩ := hdata
  rw [recorders_singleton hheader, if_pos hpayload]

theorem Awaits.length_recorders {n : UInt16} {depth : ℕ} {g : UInt32 × CspPacket}
    {since : List (UInt32 × CspPacket)} (h : Awaits cfg n depth g since) (older : List (UInt32 × CspPacket)) :
    (recorders cfg (older ++ g :: since)).length =
      (recorders cfg older).length + (recorders cfg since).length + 1 := by
  rw [List.append_cons, recorders_append, recorders_append, h.recorded, List.length_append, List.length_append,
    List.length_singleton]
  omega

theorem ring_history_count (cfg : MonConfig) (frames : List (UInt32 × CspPacket)) :
    (ring_history cfg frames).count = (recorders cfg frames).length :=
  (recorded_rtt_history _).count.trans (length_recorders cfg frames)

/-- A frame that is not measured leaves the ring. -/
theorem ring_history_concat_none {f : UInt32 × CspPacket} (hheader : rdp_header cfg f.2 = none) :
    ring_history cfg (before ++ [f]) = ring_history cfg before := by
  rw [ring_history, List.flatMap_append, List.flatMap_singleton, rtt_calls, hheader, List.append_nil, ring_history]

/-- A frame that is measured is recorded first if it carries data, and then looked up. -/
theorem ring_history_concat_some {f : UInt32 × CspPacket} {h : CiRdpHeader} (hheader : rdp_header cfg f.2 = some h) :
    ring_history cfg (before ++ [f]) =
      ((if carries_payload f.2 then (ring_history cfg before).on_data h.seq f.1
        else ring_history cfg before).on_ack h.ack).1 := by
  have hcalls : rtt_calls cfg f = data_call f.1 f.2 h ++ [.ack h.ack f.1] := by
    unfold rtt_calls
    rw [hheader]
  rw [ring_history, List.flatMap_append, List.flatMap_singleton, hcalls, ← List.append_assoc, rtt_history_concat,
    data_call]
  cases carries_payload f.2 with
  | false => rw [if_neg Bool.false_ne_true, if_neg Bool.false_ne_true, List.append_nil]; rfl
  | true => rw [if_pos rfl, if_pos rfl, rtt_history_concat]; rfl

/-- One more frame: what is open under a number after it was open before, or is the frame's own data. -/
theorem getElem?_open_concat {n : UInt16} {f : UInt32 × CspPacket} {d : ℕ} {e : RttEvent} :
    ((ring_history cfg (before ++ [f])).open_under n)[d]? = some e ↔
      (sends cfg n f = true ∧ d + (acknowledges cfg n f).toNat = 0 ∧
          e = ⟨(recorders cfg before).length, n, f.1, false⟩) ∨
        ∃ j, d + (acknowledges cfg n f).toNat = j + (sends cfg n f).toNat ∧
          ((ring_history cfg before).open_under n)[j]? = some e ∧
            (recorders cfg (before ++ [f])).length ≤ e.number + 256 := by
  have hkept {j : ℕ} (hj : ((ring_history cfg before).open_under n)[j]? = some e) :
      (recorders cfg before).length ≤ e.number + 256 := by
    rw [← ring_history_count]
    exact (RttHistory.number_lt (List.mem_of_mem_filter (List.mem_of_getElem? hj))).2
  rw [recorders_append, List.length_append]
  cases hheader : rdp_header cfg f.2 with
  | none =>
    have hunrecorded : recorders cfg [f] = [] := by
      rw [recorders, List.filter_singleton, hheader]
      rfl
    rw [ring_history_concat_none hheader, hunrecorded]
    simp only [sends, acknowledges, hheader, Option.map_none]
    simpa using hkept
  | some h =>
    have hack : (acknowledges cfg n f).toNat = (h.ack == n).toNat := by
      rw [acknowledges, hheader]
      rfl
    have hsend : sends cfg n f = (h.seq == n && carries_payload f.2) := by
      rw [sends, hheader]
      rfl
    -- the acknowledgement takes the newest entry that is open once the frame is recorded
    have htake (r : RttHistory) : ((r.on_ack h.ack).1.open_under n)[d]? =
        (r.open_under n)[d + (h.ack == n).toNat]? := by
      by_cases heq : h.ack = n
      · rw [heq, RttHistory.open_on_ack_self, List.getElem?_tail, beq_self_eq_true]
        rfl
      · rw [RttHistory.open_on_ack_of_ne heq, beq_false_of_ne heq]
        rfl
    rw [ring_history_concat_some hheader, recorders_singleton hheader, htake, hack, hsend]
    cases carries_payload f.2 with
    | false =>
      simpa using hkept
    | true =>
      rw [if_pos rfl, if_pos rfl, RttHistory.getElem?_open_on_data, ring_history_count, Bool.and_true, beq_iff_eq,
        List.length_singleton]
      refine or_congr (and_congr_right fun hseq => ?_) Iff.rfl
      rw [hseq]

/-- One more frame: whether data still awaits its acknowledgement. -/
theorem awaits_concat {n : UInt16} {depth : ℕ} {g f : UInt32 × CspPacket} {since : List (UInt32 × CspPacket)} :
    Awaits cfg n depth g (since ++ [f]) ↔
      ∃ j, depth + (acknowledges cfg n f).toNat = j + (sends cfg n f).toNat ∧ Awaits cfg n j g since := by
  have hcount (p : UInt32 × CspPacket → Bool) : (since ++ [f]).countP p = since.countP p + (p f).toNat := by
    rw [List.countP_append, List.countP_singleton]
    cases p f <;> rfl
  constructor
  · rintro ⟨hdata, hother, hnever, htotal⟩
    have hsince := hnever since (List.prefix_append since [f])
    rw [hcount, hcount] at htotal
    refine ⟨since.countP (sends cfg n) - since.countP (acknowledges cfg n), by omega, hdata, hother,
      fun s hs => hnever s (hs.trans (List.prefix_append since [f])), by omega⟩
  · rintro ⟨j, hj, hdata, hother, hnever, htotal⟩
    refine ⟨hdata, hother, fun s hs => ?_, by rw [hcount, hcount]; omega⟩
    rcases List.prefix_concat_iff.mp hs with rfl | hs
    · rw [hcount, hcount]
      omega
    · exact hnever s hs

/-- The entries open under a number are the data frames that await their acknowledgement, as far as
    the ring still has them. -/
theorem getElem?_open {n : UInt16} {d : ℕ} {e : RttEvent} :
    ((ring_history cfg before).open_under n)[d]? = some e ↔
      ∃ older g since, before = older ++ g :: since ∧ Awaits cfg n d g since ∧
        (recorders cfg since).length < 256 ∧ e = ⟨(recorders cfg older).length, n, g.1, false⟩ := by
  induction before using List.reverseRecOn generalizing d with
  | nil =>
    refine iff_of_false (by nofun) ?_
    rintro ⟨older, g, since, hsplit, -⟩
    exact absurd (congrArg List.length hsplit) (by simp)
  | append_singleton frames f ih =>
    rw [getElem?_open_concat]
    constructor
    · rintro (⟨hsend, hzero, rfl⟩ | ⟨j, hj, hopen, hkept⟩)
      · refine ⟨frames, f, [], rfl, ⟨hsend, ?_, fun s hs => ?_, ?_⟩, Nat.zero_lt_succ 255, rfl⟩
        · rw [← Bool.not_eq_true]
          intro hack
          rw [hack, Bool.toNat_true] at hzero
          omega
        · rw [List.prefix_nil.mp hs]
          rfl
        · rw [List.countP_nil, List.countP_nil]
          omega
      · obtain ⟨older, g, since, rfl, hawaits, -, rfl⟩ := ih.mp hopen
        have hawaits' := awaits_concat.mpr ⟨j, hj, hawaits⟩
        refine ⟨older, g, since ++ [f], by simp, hawaits', ?_, rfl⟩
        rw [List.append_assoc, List.cons_append, hawaits'.length_recorders] at hkept
        change _ ≤ (recorders cfg older).length + 256 at hkept
        omega
    · rintro ⟨older, g, since, hsplit, hawaits, hkept, rfl⟩
      induction since using List.reverseRecOn with
      | nil =>
        obtain ⟨rfl, hlast⟩ := List.append_inj' hsplit rfl
        obtain rfl := List.cons.inj hlast |>.1
        have htotal := hawaits.total
        rw [List.countP_nil, List.countP_nil] at htotal
        refine .inl ⟨hawaits.data, ?_, rfl⟩
        rw [hawaits.other, Bool.toNat_false]
        omega
      | append_singleton since f' _ =>
        rw [← List.cons_append, ← List.append_assoc] at hsplit
        obtain ⟨rfl, hlast⟩ := List.append_inj' hsplit rfl
        obtain rfl := List.cons.inj hlast |>.1
        obtain ⟨j, hj, hawaits'⟩ := awaits_concat.mp hawaits
        have hsince : (recorders cfg since).length < 256 := by
          rw [recorders_append, List.length_append] at hkept
          omega
        refine .inr ⟨j, hj, ih.mpr ⟨older, g, since, rfl, hawaits', hsince, rfl⟩, ?_⟩
        rw [List.append_assoc, List.cons_append, hawaits.length_recorders]
        change _ ≤ (recorders cfg older).length + 256
        omega

/-- A frame that measures nothing reports no pairing. -/
theorem not_paired_of_unmeasured (hpk : rdp_header cfg pk = none) (m : Monitor) :
    PairsOpposite cfg m before t pk := by
  intro src dst dport csp_flags rdp_flags rdp_seq rdp_ack rtt_ms hrow
  exfalso
  unfold rdp_header at hpk
  simp only [drain_packet] at hrow
  split_ifs at hrow with hmatch hrdp hdtp
  · rw [if_pos ⟨hmatch, hrdp⟩] at hpk
    simp [drain_rdp, hpk] at hrow
  · simp [drain_dtp] at hrow
  · simp at hrow
  · simp at hrow

/-- A frame's row reports a pairing exactly when the frame consumes an entry. -/
theorem pairsOpposite_iff_entry {h : CiRdpHeader} (hpk : rdp_header cfg pk = some h) {m : Monitor}
    (hring : m.mon_rtt = rtt_ring (before.flatMap (rtt_calls cfg))) :
    PairsOpposite cfg m before t pk ↔
      ∀ e, paired_entry cfg before (t, pk) = some e → RecordedOpposite cfg before pk e := by
  have hentry : paired_entry cfg before (t, pk) =
      ((rtt_history (before.flatMap (rtt_calls cfg) ++ data_call t pk h)).on_ack h.ack).2 := by
    unfold paired_entry
    rw [hpk]
    rfl
  have hmid : (Transducer.run rtt_step m.mon_rtt (data_call t pk h)).1 =
      rtt_ring (before.flatMap (rtt_calls cfg) ++ data_call t pk h) := by
    rw [hring, rtt_ring, rtt_ring, Transducer.run_append]
  have hpaired := ((rtt_ring_refines (before.flatMap (rtt_calls cfg) ++ data_call t pk h)).1.on_ack
    h.ack t).2
  obtain ⟨-, -, hrow⟩ := drain_packet_measured hpk m t
  rw [hmid, hpaired, ← hentry] at hrow
  unfold PairsOpposite
  rw [hrow]
  constructor
  · intro hopposite e he
    rw [he] at hopposite
    obtain ⟨e', he', hrecorded⟩ := hopposite _ _ _ _ _ _ _ _ rfl
    rwa [Option.some.inj he']
  · intro hopposite src dst dport csp_flags rdp_flags rdp_seq rdp_ack rtt_ms heq
    cases he : paired_entry cfg before (t, pk) with
    | none =>
      rw [he] at heq
      simp at heq
    | some e => exact ⟨e, rfl, hopposite e he⟩

/-- A frame consumes its own entry if it acknowledges its own number, and else the newest open
    one that the ring has kept. -/
theorem paired_entry_eq_some {h : CiRdpHeader} (hpk : rdp_header cfg pk = some h) {e : RttEvent} :
    paired_entry cfg before (t, pk) = some e ↔
      (carries_payload pk = true ∧ h.seq = h.ack ∧ e = ⟨(recorders cfg before).length, h.seq, t, false⟩) ∨
        ¬ (carries_payload pk = true ∧ h.seq = h.ack) ∧ ((ring_history cfg before).open_under h.ack)[0]? = some e ∧
          (recorders cfg before).length + (carries_payload pk).toNat ≤ e.number + 256 := by
  unfold paired_entry data_call
  rw [hpk, Option.bind_some, RttHistory.on_ack_head]
  cases hdata : carries_payload pk with
  | false =>
    have hkept (hopen : ((ring_history cfg before).open_under h.ack)[0]? = some e) :
        (recorders cfg before).length ≤ e.number + 256 := by
      rw [← ring_history_count]
      exact (RttHistory.number_lt (List.mem_of_mem_filter (List.mem_of_getElem? hopen))).2
    rw [if_neg (by simp), List.append_nil, ← ring_history]
    simpa using hkept
  | true =>
    rw [if_pos rfl, rtt_history_concat]
    change (((ring_history cfg before).on_data h.seq t).open_under h.ack)[0]? = some e ↔ _
    rw [RttHistory.getElem?_open_on_data, ring_history_count]
    by_cases hself : h.seq = h.ack
    · simp [hself]
    · rw [beq_false_of_ne hself, CI_RTT_RING]
      simp [hself]

/-- What a data frame recorded before is, by its place among those recorded. -/
theorem recordedOpposite_iff {older since : List (UInt32 × CspPacket)} {g : UInt32 × CspPacket} {n : UInt16}
    {depth : ℕ} (h : Awaits cfg n depth g since) {e : RttEvent} (he : e.number = (recorders cfg older).length) :
    RecordedOpposite cfg (older ++ g :: since) pk e ↔ Opposite g.2 pk := by
  have hat : (recorders cfg (older ++ g :: since))[e.number]? = some g.2 := by
    rw [List.append_cons, recorders_append, recorders_append, h.recorded, he, List.append_assoc,
      List.singleton_append, List.getElem?_append_right le_rfl, Nat.sub_self, List.getElem?_cons_zero]
  rw [RecordedOpposite, hat]
  simp

/-- One frame: its row is right exactly when it acknowledges what came the other way. -/
theorem pairsOpposite_iff {m : Monitor} (hring : m.mon_rtt = rtt_ring (before.flatMap (rtt_calls cfg))) :
    PairsOpposite cfg m before t pk ↔ AcksOpposite cfg before pk := by
  cases hpk : rdp_header cfg pk with
  | none => exact iff_of_true (not_paired_of_unmeasured hpk m) fun h hh => absurd (hpk.symm.trans hh) (by nofun)
  | some h =>
    rw [pairsOpposite_iff_entry hpk hring]
    simp only [paired_entry_eq_some hpk]
    constructor
    · intro hopposite h' hh'
      obtain rfl : h = h' := Option.some.inj (hpk.symm.trans hh')
      have hself : ¬ (carries_payload pk = true ∧ h.seq = h.ack) := by
        rintro ⟨hdata, heq⟩
        obtain ⟨g, hg, -⟩ := hopposite _ (.inl ⟨hdata, heq, rfl⟩)
        simp at hg
      refine ⟨fun hdata heq => hself ⟨hdata, heq⟩, fun older g since hsplit hawaits hkept => ?_⟩
      subst hsplit
      have hopen := getElem?_open.mpr ⟨older, g, since, rfl, hawaits, by omega, rfl⟩
      refine (recordedOpposite_iff hawaits rfl).mp (hopposite _ (.inr ⟨hself, hopen, ?_⟩))
      rw [hawaits.length_recorders]
      change _ ≤ (recorders cfg older).length + 256
      omega
    · rintro hacks e (⟨hdata, heq, -⟩ | ⟨-, hopen, hkept⟩)
      · exact absurd heq ((hacks h hpk).1 hdata)
      · obtain ⟨older, g, since, rfl, hawaits, -, rfl⟩ := getElem?_open.mp hopen
        rw [hawaits.length_recorders] at hkept
        change _ ≤ (recorders cfg older).length + 256 at hkept
        exact (recordedOpposite_iff hawaits rfl).mpr ((hacks h hpk).2 older g since rfl hawaits (by omega))

/-- In a run, every reported pairing is with an earlier frame of the opposite direction exactly
    when every frame handled acknowledges what came the other way. -/
theorem rtt_rows_pair_opposite_iff (cfg : MonConfig) (conn_ovf buffer_out : UInt8) (es : List Event) :
    let m₀ := csp_monitor_start conn_ovf buffer_out
    (∀ past a rest pk, past ++ .drain a :: rest = es →
        handled (run cfg m₀ past) (.drain a) = some (a.t, pk) →
        PairsOpposite cfg (run cfg m₀ past) (stream cfg m₀ past) a.t pk) ↔
      ∀ past a rest pk, past ++ .drain a :: rest = es →
        handled (run cfg m₀ past) (.drain a) = some (a.t, pk) →
        AcksOpposite cfg (stream cfg m₀ past) pk := by
  intro m₀
  have hstep (past : List Event) (t : UInt32) (pk : CspPacket) :
      PairsOpposite cfg (run cfg m₀ past) (stream cfg m₀ past) t pk ↔
        AcksOpposite cfg (stream cfg m₀ past) pk :=
    pairsOpposite_iff (run_start_mon_rtt cfg conn_ovf buffer_out past)
  constructor
  · intro hrows past a rest pk hes hhandled
    exact (hstep past a.t pk).1 (hrows past a rest pk hes hhandled)
  · intro hacks past a rest pk hes hhandled
    exact (hstep past a.t pk).2 (hacks past a rest pk hes hhandled)

/-- A frame with payload whose number and acknowledgement coincide. -/
def self_acknowledging : CspPacket where
  id := { pri := 2, flags := 2, src := 1, dst := 2, dport := 13, sport := 20 }
  data := [0xAA, 4, 0, 7, 0, 7]

/-- The first frame a monitor on any port handles, number 7 acknowledging 7: its row reports the
    frame paired with itself. -/
theorem rtt_row_pairs_frame_with_itself :
    let cfg : MonConfig :=
      { mon_match_dport := -1, mon_window_ms := 1000, mon_mtu := 200, mon_dtp_overhead := 4,
        mon_buffer_low_water := 100 }
    let a : Answers := { t := 100, now := 100, packet := some self_acknowledging, csp_buffer_remaining := 200 }
    let m := run cfg (csp_monitor_start 0 0) [.drain a, .drain a, .drain a]
    handled m (.drain a) = some (100, self_acknowledging) ∧
      (drain_packet cfg m 100 (some self_acknowledging)).mon_csv = [.rdp 100 1 2 13 2 4 7 7 true 0] ∧
      ¬ PairsOpposite cfg m [] 100 self_acknowledging := by
  intro cfg a m
  have hpk : rdp_header cfg self_acknowledging = some ⟨4, 7, 7⟩ := rfl
  have hring : m.mon_rtt = rtt_ring (([] : List (UInt32 × CspPacket)).flatMap (rtt_calls cfg)) := rfl
  obtain ⟨-, -, hrow⟩ := drain_packet_measured hpk m 100
  have hpaired := ((rtt_ring_refines [.data 7 100]).1.on_ack 7 100).2
  refine ⟨rfl, ?_, fun hopposite => ?_⟩
  · change _ = [] ++ [CsvRow.rdp 100 1 2 13 2 4 7 7 (ci_rtt_on_ack (rtt_ring [.data 7 100]) 7 100).2.isSome
      ((ci_rtt_on_ack (rtt_ring [.data 7 100]) 7 100).2.getD 0)] at hrow
    rw [hrow, hpaired]
    rfl
  · exact (((pairsOpposite_iff hring).1 hopposite) _ hpk).1 rfl rfl

end csp_intercept.csp_monitor_apm
