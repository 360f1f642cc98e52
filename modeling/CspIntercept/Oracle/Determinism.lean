import CspIntercept.Lib.Keyed
import CspIntercept.Oracle.Streams

open csp_intercept.ci_rule csp_intercept.ci_drop_iface csp_intercept.zmqproxy

namespace csp_intercept.oracle

section Awk

/-- `[[:space:]]`. -/
def space (c : Char) : Bool := c == ' ' || '\t' ≤ c && c ≤ '\r'

/-- `/^#/ || /^[[:space:]]*$/`. -/
def skipped (line : List Char) : Bool := comment line || line.all space

/-- The record counters, and the decisions of either log under their indices. -/
structure Decisions where
  NR : ℕ
  FNR : ℕ
  a : AList fun _ : List Char => List Char
  b : AList fun _ : List Char => List Char

/-- The main rules of `determinism.sh`, on one record. -/
def decision_record (v : Decisions) (line : List Char) : Decisions :=
  let v := { v with NR := v.NR + 1, FNR := v.FNR + 1 }
  if skipped line then v
  else if v.FNR = v.NR then { v with a := v.a.insert (Table.column ',' 6 line) (Table.column ',' 8 line) }
  else { v with b := v.b.insert (Table.column ',' 6 line) (Table.column ',' 8 line) }

def decision_file (v : Decisions) (lines : List (List Char)) : Decisions :=
  lines.foldl decision_record { v with FNR := 0 }

/-- `x != y`: numbers are compared as numbers, other texts as texts. -/
def field_ne (x y : List Char) : Bool :=
  match Table.number? x, Table.number? y with
  | some m, some n => m != n
  | _, _ => x != y

/-- The figures of the `END` block. -/
structure Compared where
  common : ℕ
  mism : ℕ
  drops : ℕ
deriving DecidableEq, Repr

/-- One turn of the loop over the indices of the first log. -/
def compared (v : Decisions) (t : Compared) (i : List Char) : Compared :=
  match v.a.lookup i, v.b.lookup i with
  | some x, some y =>
    { common := t.common + 1
      mism := t.mism + if field_ne x y then 1 else 0
      drops := t.drops + (Table.number? x).getD 0 }
  | _, _ => t

/-- The comparison of two drop logs: the figures and the exit status. -/
def determinism (log1 log2 : List (List Char)) : Compared × ℕ :=
  let v := [log1, log2].foldl decision_file ⟨0, 0, ∅, ∅⟩
  let t := v.a.keys.foldl (compared v) ⟨0, 0, 0⟩
  (t, if t.common < 200 then 1 else if 0 < t.mism then 1 else 0)

end Awk

section Read

theorem not_skipped_row (row : DropLogRow) : skipped (Table.line ',' (drop_fields row)) = false := by
  obtain ⟨c, rest, hdigits⟩ := List.exists_cons_of_ne_nil (Nat.toDigits_ne_nil (n := row.t_ms.toNat) (b := 10))
  have hdigit : c.isDigit := by
    apply Nat.isDigit_of_mem_toDigits (b := 10) (n := row.t_ms.toNat) (by omega) (by omega)
    rw [hdigits]
    exact List.mem_cons_self
  have hhead : (Table.line ',' (drop_fields row)).head? = some c := by
    rw [drop_fields, decimal, hdigits, Table.head?_line]
  have hbounds : 48 ≤ c.val ∧ c.val ≤ 57 := by simpa [Char.isDigit] using hdigit
  rw [skipped, Bool.or_eq_false_iff]
  refine ⟨?_, ?_⟩
  · rw [comment, hhead, beq_eq_false_iff_ne]
    rintro ⟨⟩
    exact absurd hdigit (by decide)
  · rw [List.all_eq_false]
    refine ⟨c, List.mem_of_mem_head? hhead, ?_⟩
    intro hspace
    rw [space, Bool.or_eq_true, beq_iff_eq, Bool.and_eq_true, decide_eq_true_eq, decide_eq_true_eq] at hspace
    rcases hspace with rfl | ⟨-, hlow⟩
    · exact absurd hdigit (by decide)
    · have hlow : c.val ≤ 13 := hlow
      exact absurd (UInt32.le_trans hbounds.1 hlow) (by decide)

/-- The array of a log: the decisions on these entries under their indices. -/
def decisions (store : AList fun _ : List Char => List Char) (entries : List (ℕ × Bool)) :
    AList fun _ : List Char => List Char :=
  entries.foldl (fun store e => store.insert (decimal e.1) (flag e.2)) store

theorem decision_record_row (v : Decisions) (row : DropLogRow) :
    decision_record v (Table.line ',' (drop_fields row)) =
      if v.FNR = v.NR then
        { v with NR := v.NR + 1, FNR := v.FNR + 1
                 a := v.a.insert (decimal row.index.toNat) (flag row.dropped) }
      else
        { v with NR := v.NR + 1, FNR := v.FNR + 1
                 b := v.b.insert (decimal row.index.toNat) (flag row.dropped) } := by
  have hindex : Table.column ',' 6 (Table.line ',' (drop_fields row)) = decimal row.index.toNat := by
    rw [column_drop_fields]
    rfl
  have hdecision : Table.column ',' 8 (Table.line ',' (drop_fields row)) = flag row.dropped := by
    rw [column_drop_fields]
    rfl
  rw [decision_record, not_skipped_row, hindex, hdecision]
  simp only [Bool.false_eq_true, if_false, Nat.add_right_cancel_iff]

theorem foldl_decision_first {v : Decisions} (heq : v.FNR = v.NR) (rows : List DropLogRow) :
    (rows.map fun row => Table.line ',' (drop_fields row)).foldl decision_record v =
      ⟨v.NR + rows.length, v.FNR + rows.length, decisions v.a (rows.map DropLogRow.entry), v.b⟩ := by
  induction rows generalizing v with
  | nil => rfl
  | cons row rows ih =>
    rw [List.map_cons, List.foldl_cons, decision_record_row, if_pos heq, ih (congrArg (· + 1) heq), List.length_cons]
    simp only [Decisions.mk.injEq, and_true]
    exact ⟨by omega, by omega, rfl⟩

theorem foldl_decision_later {v : Decisions} (hlt : v.FNR < v.NR) (rows : List DropLogRow) :
    (rows.map fun row => Table.line ',' (drop_fields row)).foldl decision_record v =
      ⟨v.NR + rows.length, v.FNR + rows.length, v.a, decisions v.b (rows.map DropLogRow.entry)⟩ := by
  induction rows generalizing v with
  | nil => rfl
  | cons row rows ih =>
    rw [List.map_cons, List.foldl_cons, decision_record_row, if_neg hlt.ne, ih (Nat.add_lt_add_right hlt 1),
      List.length_cons]
    simp only [Decisions.mk.injEq, true_and]
    exact ⟨by omega, by omega, rfl⟩

/-- Both arrays after the logs are read. Each log has its header line, so the second never passes for the
    first. -/
theorem read_logs (rows₁ rows₂ : List DropLogRow) :
    ∃ NR FNR, [drop_csv rows₁, drop_csv rows₂].foldl decision_file ⟨0, 0, ∅, ∅⟩ =
      ⟨NR, FNR, decisions ∅ (rows₁.map DropLogRow.entry), decisions ∅ (rows₂.map DropLogRow.entry)⟩ := by
  have hheader (v : Decisions) :
      decision_record v "# t_ms,src,dport,csp_flags,is_rdp,index,epoch,dropped".toList =
        { v with NR := v.NR + 1, FNR := v.FNR + 1 } := by
    have hcomment : skipped "# t_ms,src,dport,csp_flags,is_rdp,index,epoch,dropped".toList = true := by rfl
    rw [decision_record, if_pos hcomment]
  have hfirst : decision_file ⟨0, 0, ∅, ∅⟩ (drop_csv rows₁) =
      ⟨1 + rows₁.length, 1 + rows₁.length, decisions ∅ (rows₁.map DropLogRow.entry), ∅⟩ := by
    rw [decision_file, drop_csv, List.foldl_cons, hheader, foldl_decision_first rfl]
  refine ⟨1 + rows₁.length + 1 + rows₂.length, 0 + 1 + rows₂.length, ?_⟩
  rw [List.foldl_cons, List.foldl_cons, List.foldl_nil, hfirst, decision_file, drop_csv, List.foldl_cons, hheader,
    foldl_decision_later (by simp only; omega)]

end Read

section Compare

theorem field_ne_flag (b : Bool) : field_ne (flag b) (flag b) = false := by
  cases b <;> rfl

theorem number?_flag (b : Bool) : (Table.number? (flag b)).getD 0 = b.toNat := by
  rw [flag, decimal, Table.number?_toDigits, Option.getD_some]

variable {v : Decisions} {fate : ℕ → Bool}

/-- In whatever order the loop takes the indices. -/
instance : RightCommutative (compared v) where
  right_comm t i j := by
    unfold compared
    rcases v.a.lookup i with _ | x <;> rcases v.b.lookup i with _ | y <;>
      rcases v.a.lookup j with _ | x' <;> rcases v.b.lookup j with _ | y' <;> try rfl
    simp only [Compared.mk.injEq, true_and]
    omega

/-- Where both arrays have the same decision under every index, the loop counts the indices they share and
    the drops among them. -/
theorem foldl_compared (shared fate : ℕ → Bool) (keys : List ℕ)
    (ha : ∀ i ∈ keys, v.a.lookup (decimal i) = some (flag (fate i)))
    (hb : ∀ i ∈ keys, v.b.lookup (decimal i) = if shared i then some (flag (fate i)) else none) (t : Compared) :
    (keys.map decimal).foldl (compared v) t =
      ⟨t.common + keys.countP shared, t.mism, t.drops + keys.countP fun i => shared i && fate i⟩ := by
  induction keys generalizing t with
  | nil => rfl
  | cons i keys ih =>
    obtain ⟨hai, ha⟩ := List.forall_mem_cons.mp ha
    obtain ⟨hbi, hb⟩ := List.forall_mem_cons.mp hb
    have hturn : compared v t (decimal i) =
        if shared i then ⟨t.common + 1, t.mism, t.drops + (fate i).toNat⟩ else t := by
      rw [compared, hai, hbi]
      cases shared i with
      | true => simp [field_ne_flag, number?_flag]
      | false => rfl
    rw [List.map_cons, List.foldl_cons, hturn, ih ha hb, List.countP_cons, List.countP_cons]
    cases shared i with
    | false => simp
    | true =>
      cases fate i with
      | false => simp; omega
      | true => simp; omega

theorem decisions_eq_fill (reached : List ℕ) : decisions ∅ (reached.map fun i => (i, fate i)) =
    Keyed.fill decimal (fun i => flag (fate i)) ∅ reached := by
  rw [decisions, List.foldl_map]
  rfl

/-- What the comparison prints of two logs with one fate for each number. -/
theorem determinism_of_entries {rows₁ rows₂ : List DropLogRow} {reached₁ reached₂ : List ℕ}
    (hnodup : reached₁.Nodup) (hrows₁ : rows₁.map DropLogRow.entry = reached₁.map fun i => (i, fate i))
    (hrows₂ : rows₂.map DropLogRow.entry = reached₂.map fun i => (i, fate i)) :
    determinism (drop_csv rows₁) (drop_csv rows₂) =
      (⟨reached₁.countP (decide <| · ∈ reached₂), 0, reached₁.countP fun i => decide (i ∈ reached₂) && fate i⟩,
        if reached₁.countP (decide <| · ∈ reached₂) < 200 then 1 else 0) := by
  have hinj : Function.Injective decimal := fun _ _ h => decimal_injective h
  obtain ⟨NR, FNR, hread⟩ := read_logs rows₁ rows₂
  rw [hrows₁, hrows₂, decisions_eq_fill, decisions_eq_fill] at hread
  have hloop : (Keyed.fill decimal (fun i => flag (fate i)) ∅ reached₁).keys.foldl
      (compared ⟨NR, FNR, Keyed.fill decimal (fun i => flag (fate i)) ∅ reached₁,
        Keyed.fill decimal (fun i => flag (fate i)) ∅ reached₂⟩) ⟨0, 0, 0⟩ =
      ⟨reached₁.countP (decide <| · ∈ reached₂), 0, reached₁.countP fun i => decide (i ∈ reached₂) && fate i⟩ := by
    rw [(Keyed.keys_fill_perm _ hinj hnodup).foldl_eq, foldl_compared (fun i => decide (i ∈ reached₂)) fate]
    · simp
    · exact fun i hi => Keyed.lookup_fill (fun i => flag (fate i)) hinj ∅ hi
    · intro i _
      by_cases hi : i ∈ reached₂
      · rw [if_pos (decide_eq_true hi)]
        exact Keyed.lookup_fill (fun i => flag (fate i)) hinj ∅ hi
      · rw [if_neg (by simpa using hi), AList.lookup_eq_none, Keyed.mem_fill]
        simpa [hinj.eq_iff] using hi
  simp only [determinism, hread, hloop]
  simp

end Compare

section Run

variable {version : Int} {csp_id_strip : ProxyPacket → Option ProxyPacket} {rule : CiDropRule} {dport : Int32}
  {count : ℕ} {reached₁ reached₂ : List ℕ} {events₁ events₂ : List ProxyEvent} {mtu overhead : UInt16}

/-- The drop log of a run of the proxy. -/
def proxy_log_rows (version : Int) (csp_id_strip : ProxyPacket → Option ProxyPacket) (p : Proxy)
    (events : List ProxyEvent) : List DropLogRow :=
  (proxyRun version csp_id_strip p events).1.g_drop_log.getD []

/-- A stream of the numbered generator, whose count is an `int`: the first frame that gets through is one of
    the first 65536, and fewer than 32767 in a row are missing wherever the number wraps. -/
structure GenRun (version : Int) (csp_id_strip : ProxyPacket → Option ProxyPacket) (dport : Int32) (count : ℕ)
    (reached : List ℕ) (events : List ProxyEvent) : Prop
    extends StreamRun version csp_id_strip (ci_gen.packet dport) count reached events where
  int_count : count < 2147483648
  first : ∀ p ∈ reached.head?, p < 65536
  steps : reached.IsChain KeepsEpoch

theorem GenRun.numbered (h : GenRun version csp_id_strip dport count reached₁ events₁) (mtu overhead : UInt16) :
    Numbered (ci_gen.packet dport) (ci_flow_tracker_init_ovh mtu overhead) reached₁ :=
  numbered_ci_gen dport mtu overhead h.in_order h.int_count.le h.first h.steps

theorem inScope_ci_gen (hdport : rule.match_dport = dport.toInt) (hsyn : rule.match_rdp_syn = false) (i : ℕ) :
    inScope rule (carried (ci_gen.packet dport i)) = true := by
  have hport : (carried (ci_gen.packet dport i)).frame.dport = UInt16.ofInt dport.toInt := rfl
  rw [inScope, ci_rule_match]
  simp [hport, hdport, hsyn]

/-- Over any two runs of the script, whatever frames either loses on the way to the proxy: the decisions
    never differ, the common indices are the frames that got through in both, and it fails only where these
    are too few. -/
theorem determinism_run (hdport : rule.match_dport = dport.toInt) (hport : 0 ≤ dport.toInt)
    (hsyn : rule.match_rdp_syn = false) (h₁ : GenRun version csp_id_strip dport count reached₁ events₁)
    (h₂ : GenRun version csp_id_strip dport count reached₂ events₂) (packet₁ packet₂ : ProxyPacket) :
    determinism
        (drop_csv (proxy_log_rows version csp_id_strip (zmq_proxy_lossy_start rule mtu overhead packet₁) events₁))
        (drop_csv (proxy_log_rows version csp_id_strip (zmq_proxy_lossy_start rule mtu overhead packet₂) events₂)) =
      (⟨reached₁.countP (decide <| · ∈ reached₂), 0,
          reached₁.countP fun i => decide (i ∈ reached₂) && ci_rule_decide rule (UInt64.ofNat i)⟩,
        if reached₁.countP (decide <| · ∈ reached₂) < 200 then 1 else 0) := by
  have hscope := inScope_ci_gen hdport hsyn
  rw [← hdport] at hport
  obtain ⟨⟨rows₁, hlog₁, hentries₁⟩, -⟩ := h₁.log hport hscope (h₁.numbered mtu overhead) packet₁
  obtain ⟨⟨rows₂, hlog₂, hentries₂⟩, -⟩ := h₂.log hport hscope (h₂.numbered mtu overhead) packet₂
  rw [proxy_log_rows, proxy_log_rows, hlog₁, hlog₂]
  exact determinism_of_entries (List.nodup_range.sublist h₁.in_order) hentries₁ hentries₂

end Run

section Example

/-- The rule of the script: three frames in ten of port 13. -/
def drop_three_in_ten : CiDropRule where
  seed := 1
  match_dport := 13
  match_rdp_syn := false
  drop_probability := 3 / 10
  replay_vector := none
  replay_len := 0

/-- Header parsing as it comes out for the generator's frames. -/
def strip_gen (buf : ProxyPacket) : Option ProxyPacket :=
  if buf.frame_length < 6 then none
  else some { buf with id := (ci_gen.packet 13 0).id, length := buf.frame_length - 6 }

/-- The wire frame `i` of the generator. -/
def gen_event (i : ℕ) : ProxyEvent :=
  { msg := [0x80, 0x14, 0x00, 0x28, 0xDA, 0x02] ++ (ci_gen.packet 13 i).data, now := 0, legacy_drop := false }

theorem sameFrame_gen_event (i : ℕ) : SameFrame 2 strip_gen (carried (ci_gen.packet 13 i)) (gen_event i) := by
  have hdata : (ci_gen.packet 13 i).data.length = 8 := rfl
  have hlength : (gen_event i).msg.length = 14 := by
    rw [gen_event, List.length_append, hdata]
    rfl
  have hdatalen : datalen (gen_event i).msg = 14 :=
    (congrArg (fun n : ℕ => Int.bmod n 4294967296) hlength).trans
      (Int.bmod_eq_of_le_mul_two (by omega) (by omega))
  refine ⟨by rw [hlength]; decide, fun buf => ?_⟩
  have hreceive : buf.receive (gen_event i).msg =
      { buf with mem := (gen_event i).msg ++ buf.mem.drop 14, frame_length := 14 } := by
    rw [ProxyPacket.receive, hdatalen]
    rfl
  rw [hreceive]
  exact ⟨_, rfl, rfl, rfl⟩

/-- Any of up to 65536 frames may get through. -/
theorem gen_run {count : ℕ} {reached : List ℕ} (horder : reached.Sublist (List.range count)) (hcount : count ≤ 65536) :
    GenRun 2 strip_gen 13 count reached (reached.map gen_event) where
  in_order := horder
  frames := by
    rw [List.forall₂_map_right_iff]
    exact List.forall₂_same.mpr fun i _ => sameFrame_gen_event i
  int_count := by omega
  first p hp := (List.mem_range.mp (horder.subset (List.mem_of_mem_head? hp))).trans_le hcount
  steps := by
    have hlt : ∀ i ∈ reached, i / 65536 = 0 := fun i hi =>
      Nat.div_eq_of_lt ((List.mem_range.mp (horder.subset hi)).trans_le hcount)
    exact List.Pairwise.isChain
      (List.pairwise_of_forall_mem_list fun p hp q hq => .inl ((hlt q hq).trans (hlt p hp).symm))

/-- The packet that the proxy parses into. -/
def parse_buffer : ProxyPacket := ⟨droppedCall.packet.id, 0, 0, []⟩

/-- Two runs of 250 frames, of which either loses some on the way: 236 are common, and the script passes. -/
theorem determinism_run_passes :
    determinism
        (drop_csv (proxy_log_rows 2 strip_gen (zmq_proxy_lossy_start drop_three_in_ten 200 4 parse_buffer)
          (((List.range 250).drop 4).map gen_event)))
        (drop_csv (proxy_log_rows 2 strip_gen (zmq_proxy_lossy_start drop_three_in_ten 200 4 parse_buffer)
          (((List.range 250).take 240).map gen_event))) =
      (⟨236, 0, 62⟩, 0) := by
  have hfirst := gen_run (List.drop_sublist 4 (List.range 250)) (by omega)
  have hsecond := gen_run (List.take_sublist 240 (List.range 250)) (by omega)
  rw [determinism_run (by decide) (by decide) rfl hfirst hsecond parse_buffer parse_buffer]
  decide +kernel

end Example

end csp_intercept.oracle
