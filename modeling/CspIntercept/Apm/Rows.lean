import CspIntercept.Apm.Stream
import CspIntercept.Inject.LogKeys

open csp_intercept.ci_rdp csp_intercept.ci_dtp csp_intercept.ci_rule csp_intercept.ci_meas
open csp_intercept.ci_drop_iface (CspPacket dataFrag)

namespace csp_intercept.csp_monitor_apm

/-- A window row. -/
def CsvRow.is_window : CsvRow → Bool
  | .window _ => true
  | _ => false

/-- A frame on the port the monitor was started for. -/
def matched (cfg : MonConfig) (pk : CspPacket) : Prop :=
  cfg.mon_match_dport < 0 ∨ pk.id.dport = UInt16.ofInt cfg.mon_match_dport

instance (cfg : MonConfig) (pk : CspPacket) : Decidable (matched cfg pk) :=
  inferInstanceAs (Decidable (_ ∨ _))

/-- A frame whose identifier has the RDP bit. -/
def is_rdp (pk : CspPacket) : Bool := (ci_frame_from_fields pk.id.dport pk.id.flags pk.data).is_rdp

/-- A frame that gets a row. -/
def written (cfg : MonConfig) (pk : CspPacket) : Prop :=
  matched cfg pk ∧ (is_rdp pk = true ∨ pk.id.dport = CI_DTP_DATA_PORT)

instance (cfg : MonConfig) (pk : CspPacket) : Decidable (written cfg pk) :=
  inferInstanceAs (Decidable (_ ∧ _))

/-- The number of a frame, 0 where its trailer does not parse. -/
def trailer_seq (pk : CspPacket) : UInt16 := ((ci_rdp_parse_trailer pk.data).map CiRdpHeader.seq).getD 0

/-- The row of a frame: its identifier, and its number or its fragment. -/
inductive Describes (cfg : MonConfig) (f : UInt32 × CspPacket) : CsvRow → Prop
  | rdp {rdp_flags : UInt8} {rdp_ack : UInt16} {rtt_paired : Bool} {rtt_ms : UInt32} (hrdp : is_rdp f.2 = true) :
    Describes cfg f (.rdp f.1 f.2.id.src f.2.id.dst f.2.id.dport f.2.id.flags rdp_flags (trailer_seq f.2) rdp_ack
      rtt_paired rtt_ms)
  | dtp {dtp_offset : UInt32} (hrdp : is_rdp f.2 = false) (hport : f.2.id.dport = CI_DTP_DATA_PORT) :
    Describes cfg f (.dtp f.1 f.2.id.src f.2.id.dst f.2.id.dport f.2.id.flags dtp_offset
      (dataFrag cfg.mon_mtu cfg.mon_dtp_overhead f.2.data))

section Run

variable (cfg : MonConfig)

theorem drain_rdp_row (m : Monitor) (t : UInt32) {pk : CspPacket} (hrdp : is_rdp pk = true) :
    ∃ row, (drain_rdp m t pk).mon_csv = m.mon_csv ++ [row] ∧ Describes cfg (t, pk) row := by
  unfold drain_rdp
  cases hparse : ci_rdp_parse_trailer pk.data with
  | none =>
    have hseq : trailer_seq pk = 0 := by rw [trailer_seq, hparse]; rfl
    refine ⟨_, rfl, ?_⟩
    rw [← hseq]
    exact .rdp hrdp
  | some h =>
    have hseq : trailer_seq pk = h.seq := by rw [trailer_seq, hparse]; rfl
    refine ⟨_, rfl, ?_⟩
    rw [← hseq]
    exact .rdp hrdp

/-- A frame adds its row where it gets one, and nothing elsewhere. -/
theorem drain_packet_row (m : Monitor) (t : UInt32) (pk : CspPacket) :
    (written cfg pk → ∃ row, (drain_packet cfg m t (some pk)).mon_csv = m.mon_csv ++ [row] ∧
      Describes cfg (t, pk) row) ∧
    (¬ written cfg pk → (drain_packet cfg m t (some pk)).mon_csv = m.mon_csv) := by
  by_cases hmatch : matched cfg pk
  · cases hrdp : is_rdp pk with
    | true =>
      have hdrain : drain_packet cfg m t (some pk) = drain_rdp m t pk := (if_pos hmatch).trans (if_pos hrdp)
      rw [hdrain]
      exact ⟨fun _ => drain_rdp_row cfg m t hrdp, fun hnot => absurd ⟨hmatch, .inl hrdp⟩ hnot⟩
    | false =>
      have hnot : ¬ (ci_frame_from_fields pk.id.dport pk.id.flags pk.data).is_rdp = true := by
        rw [← is_rdp, hrdp]
        exact Bool.false_ne_true
      by_cases hport : pk.id.dport = CI_DTP_DATA_PORT
      · have hdrain : drain_packet cfg m t (some pk) = drain_dtp cfg m t pk :=
          (if_pos hmatch).trans ((if_neg hnot).trans (if_pos hport))
        rw [hdrain]
        exact ⟨fun _ => ⟨_, rfl, .dtp hrdp hport⟩, fun h => absurd ⟨hmatch, .inr hport⟩ h⟩
      · have hdrain : drain_packet cfg m t (some pk) = m :=
          (if_pos hmatch).trans ((if_neg hnot).trans (if_neg hport))
        rw [hdrain]
        refine ⟨fun h => ?_, fun _ => rfl⟩
        rcases h.2 with hrdp' | hport'
        · exact absurd hrdp' (by rw [hrdp]; exact Bool.false_ne_true)
        · exact absurd hport' hport
  · have hdrain : drain_packet cfg m t (some pk) = m := if_neg hmatch
    rw [hdrain]
    exact ⟨fun h => absurd h.1 hmatch, fun _ => rfl⟩

/-- An event adds the row of the frame handled on it. -/
theorem step_rows (m : Monitor) (e : Event) :
    ∃ rows, (step cfg m e).mon_csv = m.mon_csv ++ rows ∧
      List.Forall₂ (Describes cfg) ((handled m e).toList.filter fun f => written cfg f.2)
        (rows.filter fun row => !row.is_window) := by
  have hnone (h : (step cfg m e).mon_csv = m.mon_csv) (hframe : handled m e = none) :
      ∃ rows, (step cfg m e).mon_csv = m.mon_csv ++ rows ∧
        List.Forall₂ (Describes cfg) ((handled m e).toList.filter fun f => written cfg f.2)
          (rows.filter fun row => !row.is_window) := by
    rw [h, hframe]
    exact ⟨[], (List.append_nil _).symm, .nil⟩
  cases e with
  | loss c => exact hnone (by cases c <;> rfl) rfl
  | stop => exact hnone rfl rfl
  | drain a =>
    cases hat : m.drainer with
    | promisc_read =>
      simp only [step, mon_drainer, hat, handled, if_true]
      cases a.packet with
      | none => exact ⟨[], (List.append_nil _).symm, .nil⟩
      | some pk =>
        obtain ⟨hrow, hskip⟩ := drain_packet_row cfg m a.t pk
        by_cases hwritten : written cfg pk
        · obtain ⟨row, happend, hdescribes⟩ := hrow hwritten
          have hwindow : row.is_window = false := by cases hdescribes <;> rfl
          refine ⟨[row], happend, ?_⟩
          simpa [hwritten, hwindow] using hdescribes
        · exact ⟨[], (hskip hwritten).trans (List.append_nil _).symm, by simp [hwritten]⟩
    | write_window =>
      simp only [step, mon_drainer, hat, handled]
      exact ⟨_, rfl, .nil⟩
    | _ => exact hnone (by simp [step, mon_drainer, hat]) (by simp [handled, hat])

/-- The packet rows of a run are those of the frames handled in it, in order. -/
theorem run_rows (m : Monitor) (es : List Event) :
    ∃ rows, (run cfg m es).mon_csv = m.mon_csv ++ rows ∧
      List.Forall₂ (Describes cfg) ((stream cfg m es).filter fun f => written cfg f.2)
        (rows.filter fun row => !row.is_window) := by
  induction es generalizing m with
  | nil => exact ⟨[], (List.append_nil _).symm, .nil⟩
  | cons e es ih =>
    obtain ⟨first, hfirst, hframe⟩ := step_rows cfg m e
    obtain ⟨rest, hrest, hframes⟩ := ih (step cfg m e)
    refine ⟨first ++ rest, ?_, ?_⟩
    · rw [run, List.foldl_cons, ← run, hrest, hfirst, List.append_assoc]
    · rw [stream, List.filter_append, List.filter_append]
      exact List.rel_append hframe hframes

end Run

end csp_intercept.csp_monitor_apm
