import CspIntercept.Inject.GeParams
import CspIntercept.Oracle.Agreement
import CspIntercept.Oracle.FragmentIndex

open csp_intercept.ci_rdp csp_intercept.ci_rule csp_intercept.ci_dtp csp_intercept.ci_ge
open csp_intercept.ci_drop_iface csp_intercept.csp_monitor_apm csp_intercept.svu_proto

namespace csp_intercept.ci_inject_can

/-- The arguments of the generator. -/
structure Args where
  addr : UInt16
  dst : UInt16
  dport : Int32
  count : ℕ
  mtu : Int32
  loss : ℚ
  seed : UInt64
  burst : ℚ

/-- The frame of turn `i`: a data frame at its byte offset, or an RDP frame with its number. -/
def packet (a : Args) (i : ℕ) : CspPacket :=
  let step := UInt32.ofInt (a.mtu.toInt - 4)
  if a.dport.toInt = CI_DTP_DATA_PORT.toNat then
    let off := UInt32.ofNat i * step
    { id := { pri := 2, flags := 0, src := a.addr, dst := a.dst, dport := UInt16.ofInt a.dport.toInt, sport := 40 }
      data :=
        [(off &&& 0xFF).toUInt8, ((off >>> 8) &&& 0xFF).toUInt8, ((off >>> 16) &&& 0xFF).toUInt8,
          ((off >>> 24) &&& 0xFF).toUInt8, 0xDE, 0xAD, 0xBE, 0xEF] }
  else
    let seq := UInt16.ofNat i
    { id :=
        { pri := 2, flags := CI_CSP_FRDP, src := a.addr, dst := a.dst, dport := UInt16.ofInt a.dport.toInt
          sport := 40 }
      data := [0xDE, 0xAD, 0xBE, CI_RDP_ACK, (seq >>> 8).toUInt8, (seq &&& 0xFF).toUInt8, 0, 0] }

/-- The shim around the CAN interface. -/
def shim (a : Args) : CiDropIface :=
  let rule : CiDropRule :=
    { seed := a.seed, match_dport := a.dport.toInt, match_rdp_syn := false, drop_probability := a.loss
      replay_vector := none, replay_len := 0 }
  let s := ci_drop_iface_init rule (UInt16.ofInt a.mtu.toInt) (some [])
  if 0 < a.burst then
    let p := ci_ge_params a.loss a.burst
    ci_drop_iface_enable_ge s p.1 p.2
  else s

/-- The transmissions, with the clock and the return code of the interface at each of them. -/
def transmissions (a : Args) (env : ℕ → UInt32 × Int) : List NexthopCall :=
  (List.range a.count).map fun i =>
    { via := a.dst, packet := packet a i, from_me := true, now := (env i).1, target_rc := (env i).2 }

end csp_intercept.ci_inject_can

namespace csp_intercept.oracle

section Awk

/-- The variables of an `awk` that counts the records of a second file found in a first one. -/
structure Found where
  NR : ℕ
  FNR : ℕ
  a : List (List Char)
  c : ℕ

/-- `FNR==NR{a[$1]=1;next} ($1 in a){c++}`. -/
def found_record (v : Found) (line : List Char) : Found :=
  let v := { v with NR := v.NR + 1, FNR := v.FNR + 1 }
  if v.FNR = v.NR then { v with a := v.a.insert (field1 line) }
  else if v.a.contains (field1 line) then { v with c := v.c + 1 } else v

def found_file (v : Found) (lines : List (List Char)) : Found := lines.foldl found_record { v with FNR := 0 }

/-- `END{print c+0}`. -/
def awk_found (first second : List (List Char)) : ℕ := ([first, second].foldl found_file ⟨0, 0, [], 0⟩).c

/-- `grep -c .`. -/
def grep_count (lines : List (List Char)) : ℕ := lines.countP fun line => !line.isEmpty

/-- The columns of the monitor's file that belong to the test flow. -/
def can0_obs (dport src : ℕ) (apm : List (List Char)) : List (List Char) :=
  if dport = 8 then
    awk_print (fun field => field_eq (field 6) 0 && field_eq (field 4) 8 && field_eq (field 2) src) 11
      (apm.filter fun line => !comment line)
  else
    awk_print (fun field => field_eq (field 6) 1 && field_eq (field 2) src) 8
      (apm.filter fun line => !comment line)

/-- The join and the verdict of the bench: its exit status. -/
def can0_bench (dport src : ℕ) (drop apm : List (List Char)) : ℕ :=
  let obs := can0_obs dport src apm
  let drp := dropped_idx drop
  let kpt := kept_idx drop
  let dropped := grep_count drp
  let kept := grep_count kpt
  let observed := grep_count obs
  let overlap := awk_found drp obs
  let kept_obs := awk_found kpt obs
  if dropped < 10 then 1
  else if observed = 0 then 1
  else if overlap = 0 ∧ 100 ≤ kept ∧ kept * 80 / 100 ≤ kept_obs then 0
  else 1

end Awk

section Found

theorem foldl_found_record_first {v : Found} (heq : v.FNR = v.NR) (lines : List (List Char)) :
    lines.foldl found_record v =
      ⟨v.NR + lines.length, v.FNR + lines.length, keys v.a lines, v.c⟩ := by
  induction lines generalizing v with
  | nil => rfl
  | cons line lines ih =>
    have hrecord : found_record v line = ⟨v.NR + 1, v.FNR + 1, v.a.insert (field1 line), v.c⟩ := by
      simp [found_record, heq]
    rw [List.foldl_cons, hrecord, ih (by simp [heq]), List.length_cons]
    simp only [Found.mk.injEq, and_true]
    exact ⟨by omega, by omega, rfl⟩

theorem foldl_found_record_later {v : Found} (hlt : v.FNR < v.NR) (lines : List (List Char)) :
    (lines.foldl found_record v).c = v.c + lines.countP fun line => v.a.contains (field1 line) := by
  induction lines generalizing v with
  | nil => rfl
  | cons line lines ih =>
    have hrecord : found_record v line =
        ⟨v.NR + 1, v.FNR + 1, v.a, v.c + if v.a.contains (field1 line) then 1 else 0⟩ := by
      rw [found_record]
      dsimp only
      rw [if_neg (by omega)]
      split_ifs <;> rfl
    rw [List.foldl_cons, hrecord, ih (by simp only; omega), List.countP_cons]
    dsimp only
    omega

/-- The lines of the second file found in the first; none where the first file is empty. -/
theorem awk_found_of_bare {first second : List (List Char)} (hfirst : ∀ line ∈ first, bare line)
    (hsecond : ∀ line ∈ second, bare line) :
    awk_found first second = if first = [] then 0 else second.countP fun line => decide (line ∈ first) := by
  have hread : found_file ⟨0, 0, [], 0⟩ first = ⟨first.length, first.length, keys [] first, 0⟩ := by
    rw [found_file, foldl_found_record_first rfl]
    simp
  rw [awk_found, List.foldl_cons, List.foldl_cons, List.foldl_nil, hread]
  split_ifs with hempty
  · subst hempty
    rw [found_file, foldl_found_record_first rfl]
  · rw [found_file, foldl_found_record_later (List.length_pos_of_ne_nil hempty), Nat.zero_add]
    apply List.countP_congr
    intro line hline
    rw [List.contains_iff_mem, decide_eq_true_eq, mem_keys_of_bare hfirst, hsecond line hline]

end Found

section Verdict

theorem bare_map_decimal (l : List ℕ) : ∀ line ∈ l.map decimal, bare line := by
  intro line hline
  obtain ⟨i, -, rfl⟩ := List.mem_map.mp hline
  exact bare_decimal i

theorem grep_count_map_decimal (l : List ℕ) : grep_count (l.map decimal) = l.length := by
  rw [grep_count, List.countP_map, List.countP_eq_length]
  intro i _
  rw [Function.comp_apply, Bool.not_eq_true', List.isEmpty_eq_false_iff]
  exact Nat.toDigits_ne_nil

theorem awk_found_map_decimal {l m : List ℕ} (hne : l ≠ []) :
    awk_found (l.map decimal) (m.map decimal) = m.countP fun i => decide (i ∈ l) := by
  rw [awk_found_of_bare (bare_map_decimal l) (bare_map_decimal m), if_neg (by simpa using hne), List.countP_map]
  apply List.countP_congr
  intro i _
  rw [Function.comp_apply, decide_eq_true_eq, decide_eq_true_eq, List.mem_map_of_injective decimal_injective]

/-- Where only kept frames were seen, the verdict is about the three counts. -/
theorem can0_bench_of_counts {dport src : ℕ} {drop apm : List (List Char)} {lost kept seen : List ℕ}
    (hlost : dropped_idx drop = lost.map decimal) (hkept : kept_idx drop = kept.map decimal)
    (hseen : can0_obs dport src apm = seen.map decimal) (hdisjoint : ∀ i ∈ seen, i ∉ lost)
    (hsubset : ∀ i ∈ seen, i ∈ kept) : can0_bench dport src drop apm = 0 ↔
      10 ≤ lost.length ∧ 100 ≤ kept.length ∧ kept.length * 80 / 100 ≤ seen.length := by
  simp only [can0_bench, hlost, hkept, hseen, grep_count_map_decimal]
  by_cases hten : lost.length < 10
  · rw [if_pos hten]
    omega
  · have hlostne : lost ≠ [] := by
      rintro rfl
      exact hten (by simp)
    have hoverlap : awk_found (lost.map decimal) (seen.map decimal) = 0 := by
      rw [awk_found_map_decimal hlostne, List.countP_eq_zero]
      intro i hi
      rw [decide_eq_true_eq]
      exact hdisjoint i hi
    rw [if_neg hten, hoverlap]
    by_cases hhundred : 100 ≤ kept.length
    · have hkeptne : kept ≠ [] := by
        rintro rfl
        exact absurd hhundred (by simp)
      have hall : awk_found (kept.map decimal) (seen.map decimal) = seen.length := by
        rw [awk_found_map_decimal hkeptne, List.countP_eq_length]
        intro i hi
        rw [decide_eq_true_eq]
        exact hsubset i hi
      rw [hall]
      split_ifs with hnone hpass
      · exact iff_of_false not_false fun h => by omega
      · exact iff_of_true rfl ⟨Nat.le_of_not_lt hten, hpass.2⟩
      · exact iff_of_false not_false fun h => hpass ⟨rfl, h.2⟩
    · have hnot : ¬ (10 ≤ lost.length ∧ 100 ≤ kept.length ∧ kept.length * 80 / 100 ≤ seen.length) :=
        fun h => hhundred h.2.1
      split_ifs with hnone hpass
      · exact iff_of_false not_false hnot
      · exact absurd hpass.2.1 hhundred
      · exact iff_of_false not_false hnot

end Verdict

section Flow

open csp_intercept.ci_inject_can

/-- The index of a frame as the monitor writes it down. -/
def flow_key (s : CiDropIface) (pk : CspPacket) : ℕ := if is_rdp pk then (trailer_seq pk).toNat else frag s pk

/-- The arguments give every frame an index of its own: numbers and offsets do not wrap. -/
structure Fits (a : Args) : Prop where
  dport : 0 ≤ a.dport.toInt
  numbers : a.dport.toInt ≠ 8 → a.count ≤ 65536
  mtu : a.dport.toInt = 8 → 4 < a.mtu.toInt ∧ a.mtu.toInt < 65536
  offsets : a.dport.toInt = 8 → a.count * (a.mtu.toInt.toNat - 4) ≤ 4294967296

/-- A frame of the test flow. -/
def test_flow (a : Args) (pk : CspPacket) : Prop :=
  pk.id.src = a.addr ∧ pk.id.dport = UInt16.ofInt a.dport.toInt ∧ (is_rdp pk = true ↔ a.dport.toInt ≠ 8)

instance (a : Args) (pk : CspPacket) : Decidable (test_flow a pk) := inferInstanceAs (Decidable (_ ∧ _ ∧ _))

variable {a : Args}

theorem packet_of_dtp (hdtp : a.dport.toInt = 8) (i : ℕ) : packet a i =
    { id := { pri := 2, flags := 0, src := a.addr, dst := a.dst, dport := UInt16.ofInt a.dport.toInt, sport := 40 }
      data := svu_put32 (UInt32.ofNat i * UInt32.ofInt (a.mtu.toInt - 4)) ++ [0xDE, 0xAD, 0xBE, 0xEF] } :=
  if_pos hdtp

theorem packet_of_rdp (hrdp : a.dport.toInt ≠ 8) (i : ℕ) : packet a i =
    { id :=
        { pri := 2, flags := CI_CSP_FRDP, src := a.addr, dst := a.dst, dport := UInt16.ofInt a.dport.toInt
          sport := 40 }
      data := ([0xDE, 0xAD, 0xBE] : List UInt8) ++ [CI_RDP_ACK, (UInt16.ofNat i >>> 8).toUInt8,
        (UInt16.ofNat i &&& 0xFF).toUInt8, 0, 0] } :=
  if_neg hrdp

theorem is_rdp_packet (a : Args) (i : ℕ) : is_rdp (packet a i) = true ↔ a.dport.toInt ≠ 8 := by
  by_cases hdtp : a.dport.toInt = 8
  · rw [packet_of_dtp hdtp]
    simp [is_rdp, ci_frame_from_fields, hdtp]
  · rw [packet_of_rdp hdtp]
    simp [is_rdp, ci_frame_from_fields, hdtp, CI_CSP_FRDP]

theorem trailer_packet (hrdp : a.dport.toInt ≠ 8) (i : ℕ) :
    ci_rdp_parse_trailer (packet a i).data = some { flags := 4, seq := UInt16.ofNat i, ack := 0 } := by
  have hlow : (UInt16.ofNat i &&& 0xFF).toUInt8 = (UInt16.ofNat i).toUInt8 := by
    apply UInt8.toNat_inj.mp
    rw [UInt16.toNat_toUInt8, UInt16.toNat_toUInt8, UInt16.toNat_and]
    exact (congrArg (· % 256) (Nat.and_two_pow_sub_one_eq_mod (UInt16.ofNat i).toNat 8)).trans (Nat.mod_mod _ _)
  rw [packet_of_rdp hrdp, ci_rdp_parse_trailer_append, hlow, be16_bytes]
  rfl

theorem shim_tracker (a : Args) : (shim a).tracker = ci_flow_tracker_init (UInt16.ofInt a.mtu.toInt) := by
  unfold shim
  dsimp only
  split_ifs <;> rfl

/-- Frame `i` has index `i`. -/
theorem flow_key_packet (hfits : Fits a) {i : ℕ} (hi : i < a.count) : flow_key (shim a) (packet a i) = i := by
  by_cases hdtp : a.dport.toInt = 8
  · obtain ⟨hlow, hhigh⟩ := hfits.mtu hdtp
    have hoffsets := hfits.offsets hdtp
    have hmtu : (UInt16.ofInt a.mtu.toInt).toNat = a.mtu.toInt.toNat := by
      rw [UInt16.ofInt, UInt16.toNat_ofNat']
      omega
    have hstep : (UInt32.ofInt (a.mtu.toInt - 4)).toNat = a.mtu.toInt.toNat - 4 := by
      rw [UInt32.ofInt, UInt32.toNat_ofNat']
      omega
    have hproduct : i * (a.mtu.toInt.toNat - 4) < 4294967296 := by
      have hlt : i * (a.mtu.toInt.toNat - 4) < a.count * (a.mtu.toInt.toNat - 4) :=
        Nat.mul_lt_mul_of_pos_right hi (by omega)
      omega
    have hoff : (UInt32.ofNat i * UInt32.ofInt (a.mtu.toInt - 4)).toNat = i * (a.mtu.toInt.toNat - 4) := by
      rw [UInt32.toNat_mul, hstep, UInt32.toNat_ofNat', Nat.mod_mul_mod]
      exact Nat.mod_eq_of_lt hproduct
    have hgeometry : CI_DTP_OVERHEAD_DIPP.toNat < (UInt16.ofInt a.mtu.toInt).toNat := by
      rw [hmtu]
      change 4 < a.mtu.toInt.toNat
      omega
    obtain ⟨index, hindex⟩ := Option.isSome_iff_exists.mp (ci_dtp_fragment_index_ovh_isSome
      (UInt32.ofNat i * UInt32.ofInt (a.mtu.toInt - 4)) hgeometry)
    have hvalue := (toNat_ci_dtp_fragment_index_ovh hindex).2
    rw [flow_key, if_neg (by rw [is_rdp_packet]; exact not_not.mpr hdtp), frag, shim_tracker, packet_of_dtp hdtp,
      dataFrag, ci_dtp_parse_offset_put32, Option.bind_some]
    change ((ci_dtp_fragment_index_ovh _ (UInt16.ofInt a.mtu.toInt) CI_DTP_OVERHEAD_DIPP).getD 0).toNat = i
    rw [hindex, Option.getD_some, hvalue, hoff, hmtu]
    exact Nat.mul_div_cancel i (show 0 < a.mtu.toInt.toNat - 4 by omega)
  · have hcount := hfits.numbers hdtp
    rw [flow_key, if_pos ((is_rdp_packet a i).mpr hdtp), trailer_seq, trailer_packet hdtp]
    change (UInt16.ofNat i).toNat = i
    rw [UInt16.toNat_ofNat']
    exact Nat.mod_eq_of_lt (by omega)

variable {env : ℕ → UInt32 × Int}

theorem shim_rule (a : Args) : (shim a).rule =
    { seed := a.seed, match_dport := a.dport.toInt, match_rdp_syn := false, drop_probability := a.loss
      replay_vector := none, replay_len := 0 } := by
  unfold shim
  dsimp only
  split_ifs <;> rfl

theorem shim_fresh (a : Args) : (shim a).drop_log = some [] ∧ (shim a).injected_drops = 0 ∧ (shim a).forwarded = 0 := by
  unfold shim
  dsimp only
  split_ifs <;> exact ⟨rfl, rfl, rfl⟩

/-- The turn a transmission belongs to. -/
theorem exists_of_mem_transmissions {c : NexthopCall} (hc : c ∈ transmissions a env) :
    ∃ i < a.count, c.packet = packet a i := by
  obtain ⟨i, hi, rfl⟩ := List.mem_map.mp hc
  exact ⟨i, List.mem_range.mp hi, rfl⟩

theorem packet_dport (a : Args) (i : ℕ) : (packet a i).id.dport = UInt16.ofInt a.dport.toInt := by
  unfold packet
  dsimp only
  split_ifs <;> rfl

theorem inScope_transmission {c : NexthopCall} (hc : c ∈ transmissions a env) : inScope (shim a).rule c = true := by
  obtain ⟨i, -, hpacket⟩ := exists_of_mem_transmissions hc
  have hport : c.frame.dport = UInt16.ofInt a.dport.toInt := by
    change c.packet.id.dport = _
    rw [hpacket, packet_dport]
  rw [inScope, shim_rule, ci_rule_match]
  simp [hport]

/-- The numbers of the frames only rise. -/
theorem unwrapped_transmissions (hfits : Fits a) : Unwrapped (transmissions a env) := by
  rw [Unwrapped, transmissions, List.pairwise_map]
  refine List.Pairwise.imp_of_mem (fun {i j} hi hj hlt m hm n hn => ?_) List.pairwise_lt_range
  by_cases hdtp : a.dport.toInt = 8
  · have hnot : is_rdp (packet a i) = false := by
      rw [← Bool.not_eq_true, is_rdp_packet]
      exact not_not.mpr hdtp
    have hnone : trailerSeq { via := a.dst, packet := packet a i, from_me := true, now := (env i).1
                              target_rc := (env i).2 } = none := if_neg (by rw [Bool.not_eq_true]; exact hnot)
    rw [hnone] at hm
    cases hm
  · have hseq (k : ℕ) : trailerSeq { via := a.dst, packet := packet a k, from_me := true, now := (env k).1
                                     target_rc := (env k).2 } = some (UInt16.ofNat k) := by
      refine (if_pos ((is_rdp_packet a k).mpr hdtp)).trans ?_
      rw [trailer_packet hdtp]
      rfl
    have hcount := hfits.numbers hdtp
    rw [hseq] at hm hn
    obtain rfl := Option.some.inj hm
    obtain rfl := Option.some.inj hn
    have hi := List.mem_range.mp hi
    have hj := List.mem_range.mp hj
    rw [UInt16.toNat_ofNat', UInt16.toNat_ofNat']
    omega

/-- Every frame meets its index in the shim. -/
theorem flowIndex_transmission (hfits : Fits a) {before after : List NexthopCall} {c : NexthopCall}
    (hcalls : transmissions a env = before ++ c :: after) :
    (flowIndex (shimRun (shim a) before).1 c).toNat = flow_key (shim a) c.packet := by
  obtain ⟨i, hi, hpacket⟩ := exists_of_mem_transmissions (show c ∈ transmissions a env by rw [hcalls]; simp)
  cases hrdp : c.frame.is_rdp with
  | false =>
    have hnot : is_rdp c.packet = false := hrdp
    rw [flowIndex_data (shim a) before hrdp, flow_key, hnot, if_neg Bool.false_ne_true, UInt32.toNat_toUInt64]
    rfl
  | true =>
    have hyes : is_rdp c.packet = true := hrdp
    have hdtp : a.dport.toInt ≠ 8 := by
      rw [hpacket] at hyes
      exact (is_rdp_packet a i).mp hyes
    have hseq : trailerSeq c = some (trailer_seq c.packet) := by
      rw [trailerSeq, if_pos hrdp, trailer_seq, hpacket, trailer_packet hdtp]
      rfl
    rw [flow_key, if_pos hyes]
    exact flowIndex_numbered (by rw [shim_tracker]; rfl) (by rw [shim_tracker]; rfl)
      (unwrapped_transmissions hfits) hcalls hseq

/-- The bench: a monitor on the port of the test flow with the default overhead, and a bus that brings it
    of this flow only what the shim let through. -/
structure BenchRun (a : Args) (env : ℕ → UInt32 × Int) (cfg : MonConfig) (m : Monitor) (es : List Event) :
    Prop where
  fits : Fits a
  mon_csv : m.mon_csv = []
  mon_match_dport : cfg.mon_match_dport = a.dport.toInt
  mon_mtu : cfg.mon_mtu = UInt16.ofInt a.mtu.toInt
  mon_dtp_overhead : cfg.mon_dtp_overhead = CI_DTP_OVERHEAD_DIPP
  bus : ∀ f ∈ stream cfg m es, test_flow a f.2 →
    ∃ call ∈ (transmissions a env).zip (shimRun (shim a) (transmissions a env)).2,
      freed call = false ∧ call.1.packet = f.2

section BenchRun

variable {cfg : MonConfig} {m : Monitor} {es : List Event}

theorem scopedResults_transmissions (a : Args) (env : ℕ → UInt32 × Int) :
    scopedResults (shim a).rule (transmissions a env) (shimRun (shim a) (transmissions a env)).2 =
      (transmissions a env).zip (shimRun (shim a) (transmissions a env)).2 := by
  rw [scopedResults, List.filter_eq_self]
  intro call hcall
  exact inScope_transmission (List.of_mem_zip hcall).1

/-- The log has every frame of the run under its index. -/
theorem entries_transmissions (env : ℕ → UInt32 × Int) (hfits : Fits a) :
    (drop_log_rows (shim a) (transmissions a env)).map DropLogRow.entry =
      ((transmissions a env).zip (shimRun (shim a) (transmissions a env)).2).map fun call =>
        (flow_key (shim a) call.1.packet, freed call) := by
  have hindex : ∀ before c after, transmissions a env = before ++ c :: after → inScope (shim a).rule c = true →
      (flowIndex (shimRun (shim a) before).1 c).toNat = flow_key (shim a) c.packet :=
    fun before c after hcalls _ => flowIndex_transmission hfits hcalls
  obtain ⟨rows, hlog, hentries⟩ := shimRun_entries (shim_fresh a).1 hindex
  rw [drop_log_rows, hlog, ← scopedResults_transmissions]
  exact hentries

/-- No two frames have one index. -/
theorem consistent_transmissions (env : ℕ → UInt32 × Int) (hfits : Fits a) :
    Ledger.Consistent ((transmissions a env).zip (shimRun (shim a) (transmissions a env)).2)
      (fun call => flow_key (shim a) call.1.packet) fun call => freed call = true := by
  apply Ledger.Consistent.of_nodup
  have hkeys : ((transmissions a env).zip (shimRun (shim a) (transmissions a env)).2).map
      (fun call => flow_key (shim a) call.1.packet) = List.range a.count := by
    have hsplit : (fun call : NexthopCall × NexthopResult => flow_key (shim a) call.1.packet) =
        (fun c => flow_key (shim a) c.packet) ∘ Prod.fst := rfl
    rw [hsplit, ← List.map_map, map_fst_zip_shimRun, transmissions, List.map_map]
    exact (List.map_congr_left fun i hi => flow_key_packet hfits (List.mem_range.mp hi)).trans (List.map_id _)
  rw [hkeys]
  exact List.nodup_range

/-- The third file has the indices of the frames of the test flow that the monitor handled. -/
theorem can0_obs_run (h : BenchRun a env cfg m es) :
    can0_obs a.dport.toInt.toNat a.addr.toNat (apm_csv (run cfg m es).mon_csv) =
      (((stream cfg m es).filter fun f => test_flow a f.2).map fun f => flow_key (shim a) f.2).map decimal := by
  obtain ⟨rows, hrows, hframes⟩ := run_rows cfg m es
  rw [h.mon_csv, List.nil_append] at hrows
  have hmatched (pk : CspPacket) : matched cfg pk ↔ pk.id.dport = UInt16.ofInt a.dport.toInt := by
    rw [matched, h.mon_match_dport]
    exact or_iff_right (not_lt.mpr h.fits.dport)
  have hfrag (pk : CspPacket) : frag (shim a) pk = (dataFrag cfg.mon_mtu cfg.mon_dtp_overhead pk.data).toNat := by
    rw [frag, shim_tracker, h.mon_mtu, h.mon_dtp_overhead]
    rfl
  have hdport : a.dport.toInt.toNat = 8 ↔ a.dport.toInt = 8 := by omega
  have hbits : field_eq ['0'] 0 = true ∧ field_eq ['1'] 0 = false ∧ field_eq ['0'] 1 = false ∧
      field_eq ['1'] 1 = true := by decide
  have hmine {sel : UInt32 × CspPacket → Bool}
      (hsel : ∀ f : UInt32 × CspPacket, (sel f = true ∧ written cfg f.2) ↔ test_flow a f.2) :
      ((stream cfg m es).filter fun f => written cfg f.2).filter sel =
        (stream cfg m es).filter fun f => test_flow a f.2 := by
    rw [List.filter_filter]
    apply List.filter_congr
    intro f _
    rw [Bool.eq_iff_iff, Bool.and_eq_true, decide_eq_true_eq, decide_eq_true_eq]
    exact hsel f
  have hsrc (f : UInt32 × CspPacket) : f.2.id.src.toNat = a.addr.toNat ↔ f.2.id.src = a.addr := UInt16.toNat_inj
  rw [hrows, can0_obs, List.map_map]
  by_cases hdtp : a.dport.toInt = 8
  · rw [if_pos (hdport.mpr hdtp), awk_print_apm_csv hframes
      (fun f => !is_rdp f.2 && f.2.id.dport.toNat == 8 && f.2.id.src.toNat == a.addr.toNat)
      (fun f => decimal (flow_key (shim a) f.2)), hmine]
    · rfl
    · intro f
      have hport : f.2.id.dport.toNat = 8 ↔ f.2.id.dport = CI_DTP_DATA_PORT := UInt16.toNat_inj (b := 8)
      have hsame : UInt16.ofInt 8 = CI_DTP_DATA_PORT := by decide
      rw [test_flow, written, hmatched, hdtp]
      cases hrdp : is_rdp f.2 with
      | false => simp [hport, hsrc, hsame, and_comm]
      | true => simp
    · intro f row hrow
      cases hrow <;> simp_all [csv_fields]
    · intro f row hrow hsel
      cases hrow with
      | rdp hrdp => simp [hrdp] at hsel
      | dtp hrdp => simp [csv_fields, flow_key, hrdp, hfrag]
  · rw [if_neg fun h => hdtp (hdport.mp h), awk_print_apm_csv hframes
      (fun f => is_rdp f.2 && f.2.id.src.toNat == a.addr.toNat)
      (fun f => decimal (flow_key (shim a) f.2)), hmine]
    · rfl
    · intro f
      rw [test_flow, written, hmatched]
      cases hrdp : is_rdp f.2 with
      | false => simp [hdtp]
      | true => simp [hsrc, hdtp]
    · intro f row hrow
      cases hrow <;> simp_all [csv_fields]
    · intro f row hrow hsel
      cases hrow with
      | rdp hrdp => simp [csv_fields, flow_key, hrdp]
      | dtp hrdp => simp [hrdp] at hsel

/-- The bench passes exactly when the shim dropped ten frames and forwarded a hundred, and the monitor
    handled four fifths as many of the test flow: for no run is the reason of a failure that the oracles
    disagree. Frames heard twice count twice. -/
theorem can0_bench_run (h : BenchRun a env cfg m es) :
    can0_bench a.dport.toInt.toNat a.addr.toNat (drop_csv (drop_log_rows (shim a) (transmissions a env)))
        (apm_csv (run cfg m es).mon_csv) = 0 ↔
      10 ≤ (shimRun (shim a) (transmissions a env)).1.injected_drops ∧
        100 ≤ (shimRun (shim a) (transmissions a env)).1.forwarded ∧
        (shimRun (shim a) (transmissions a env)).1.forwarded * 80 / 100 ≤
          ((stream cfg m es).filter fun f => test_flow a f.2).length := by
  obtain ⟨hdrops, hforwarded⟩ := shimRun_counters (shim a) (transmissions a env)
  obtain ⟨-, hnodrops, hnoforwarded⟩ := shim_fresh a
  rw [hnodrops, Nat.zero_add, scopedResults_transmissions] at hdrops
  rw [hnoforwarded, Nat.zero_add, scopedResults_transmissions] at hforwarded
  have hentries := entries_transmissions env h.fits
  have hconsistent := (consistent_transmissions env h.fits).disjoint
  have hlost : dropped_idx (drop_csv (drop_log_rows (shim a) (transmissions a env))) =
      ((((transmissions a env).zip (shimRun (shim a) (transmissions a env)).2).filter freed).map
        fun call => flow_key (shim a) call.1.packet).map decimal := by
    rw [dropped_idx_entries, hentries, List.filter_map, List.map_map, List.map_map, List.map_map]
    rfl
  have hkept : kept_idx (drop_csv (drop_log_rows (shim a) (transmissions a env))) =
      ((((transmissions a env).zip (shimRun (shim a) (transmissions a env)).2).filter
        fun call => !freed call).map fun call => flow_key (shim a) call.1.packet).map decimal := by
    rw [kept_idx_entries, hentries, List.filter_map, List.map_map, List.map_map, List.map_map]
    rfl
  rw [can0_bench_of_counts hlost hkept (can0_obs_run h), hdrops, hforwarded]
  · simp only [List.length_map, List.countP_eq_length_filter]
  · intro i hi hi'
    obtain ⟨f, hf, rfl⟩ := List.mem_map.mp hi
    obtain ⟨call, hcall, hfreed, hpacket⟩ :=
      h.bus f (List.mem_filter.mp hf).1 (of_decide_eq_true (List.mem_filter.mp hf).2)
    obtain ⟨other, hother, hkey⟩ := List.mem_map.mp hi'
    obtain ⟨hmem, hlostother⟩ := List.mem_filter.mp hother
    refine Set.disjoint_left.mp hconsistent ⟨other, hmem, hlostother, hkey⟩ ⟨call, hcall, by simp [hfreed], ?_⟩
    exact congrArg (flow_key (shim a)) hpacket
  · intro i hi
    obtain ⟨f, hf, rfl⟩ := List.mem_map.mp hi
    obtain ⟨call, hcall, hfreed, hpacket⟩ :=
      h.bus f (List.mem_filter.mp hf).1 (of_decide_eq_true (List.mem_filter.mp hf).2)
    refine List.mem_map.mpr ⟨call, List.mem_filter.mpr ⟨hcall, by simp [hfreed]⟩, ?_⟩
    exact congrArg (flow_key (shim a)) hpacket

end BenchRun

section Example

/-- Two hundred RDP frames over a shim that drops three in ten. -/
def rdp_bench : Args where
  addr := 10
  dst := 20
  dport := 13
  count := 200
  mtu := 200
  loss := 3 / 10
  seed := 1
  burst := 0

/-- The calls of the bench, with the answers of the shim. -/
def rdp_bench_calls : List (NexthopCall × NexthopResult) :=
  (transmissions rdp_bench fun _ => (0, 0)).zip (shimRun (shim rdp_bench) (transmissions rdp_bench fun _ => (0, 0))).2

/-- The monitor handles all that is forwarded. -/
def rdp_bench_observed : List Event :=
  observe ((rdp_bench_calls.filter fun call => !freed call).map fun call => call.1.packet)

/-- The shim drops enough and forwards enough, and the bench passes. -/
theorem can0_bench_run_passes :
    can0_bench 13 10 (drop_csv (drop_log_rows (shim rdp_bench) (transmissions rdp_bench fun _ => (0, 0))))
        (apm_csv (run { mon_config with mon_match_dport := 13 } (csp_monitor_start 0 0) rdp_bench_observed).mon_csv) =
      0 := by
  have hstream : stream { mon_config with mon_match_dport := 13 } (csp_monitor_start 0 0) rdp_bench_observed =
      ((rdp_bench_calls.filter fun call => !freed call).map fun call => call.1.packet).map fun pk => (0, pk) := by
    apply stream_observe
    decide
  have hbench : BenchRun rdp_bench (fun _ => (0, 0)) { mon_config with mon_match_dport := 13 } (csp_monitor_start 0 0)
      rdp_bench_observed :=
    { fits := ⟨by decide, fun _ => by decide, fun h => absurd h (by decide), fun h => absurd h (by decide)⟩
      mon_csv := rfl
      mon_match_dport := rfl
      mon_mtu := by decide
      mon_dtp_overhead := rfl
      bus := by
        rintro f hf -
        rw [hstream, List.map_map] at hf
        obtain ⟨call, hcall, rfl⟩ := List.mem_map.mp hf
        obtain ⟨hmem, hkept⟩ := List.mem_filter.mp hcall
        exact ⟨call, hmem, by simpa using hkept, rfl⟩ }
  have hcounters : 10 ≤ (shimRun (shim rdp_bench) (transmissions rdp_bench fun _ => (0, 0))).1.injected_drops ∧
      100 ≤ (shimRun (shim rdp_bench) (transmissions rdp_bench fun _ => (0, 0))).1.forwarded := by decide +kernel
  refine (can0_bench_run hbench).mpr ⟨hcounters.1, hcounters.2, ?_⟩
  -- every frame that was forwarded is one of the test flow
  rw [hstream]
  decide +kernel

end Example

end Flow

end csp_intercept.oracle
