import CspIntercept.Apm.Rows
import CspIntercept.Lib.Table
import CspIntercept.Oracle.Join

open csp_intercept.ci_drop_iface (CspPacket DropLogRow dataFrag)
open csp_intercept.csp_monitor_apm

namespace csp_intercept.oracle

section Printf

/-- `%d`. -/
def signed (i : ℤ) : List Char := if i < 0 then '-' :: decimal i.natAbs else decimal i.natAbs

/-- `%d` of a truth value. -/
def flag (b : Bool) : List Char := decimal b.toNat

/-- `%X`. -/
def hex (n : ℕ) : List Char := (Nat.toDigits 16 n).map Char.toUpper

/-- `%02X`. -/
def hex_byte (b : UInt8) : List Char := List.replicate (2 - (hex b.toNat).length) '0' ++ hex b.toNat

/-- The columns of a line of the drop log. -/
def drop_fields (row : DropLogRow) : List (List Char) :=
  [decimal row.t_ms.toNat, decimal row.src.toNat, decimal row.dport.toNat,
    '0' :: 'x' :: hex_byte row.csp_flags, flag row.is_rdp, decimal row.index.toNat,
    decimal row.epoch.toNat, flag row.dropped]

/-- The drop log that was written from its opening on. -/
def drop_csv (rows : List DropLogRow) : List (List Char) :=
  "# t_ms,src,dport,csp_flags,is_rdp,index,epoch,dropped".toList ::
    rows.map fun row => Table.line ',' (drop_fields row)

/-- The columns of a line of the monitor's file. -/
def csv_fields : CsvRow → List (List Char)
  | .rdp t_ms src dst dport csp_flags rdp_flags rdp_seq rdp_ack rtt_paired rtt_ms =>
    [decimal t_ms.toNat, decimal src.toNat, decimal dst.toNat, decimal dport.toNat,
      '0' :: 'x' :: hex_byte csp_flags, ['1'], '0' :: 'x' :: hex_byte rdp_flags, decimal rdp_seq.toNat,
      decimal rdp_ack.toNat, [], [], flag rtt_paired, decimal rtt_ms.toNat]
  | .dtp t_ms src dst dport csp_flags dtp_offset dtp_frag =>
    [decimal t_ms.toNat, decimal src.toNat, decimal dst.toNat, decimal dport.toNat,
      '0' :: 'x' :: hex_byte csp_flags, ['0'], [], [], [], decimal dtp_offset.toNat, decimal dtp_frag.toNat,
      [], []]
  | .window row =>
    ["#WINDOW".toList, decimal row.t_ms.toNat, decimal row.conn_ovf_delta.toNat,
      decimal row.buffer_out_delta.toNat, signed row.buffer_remaining, decimal row.inferred_loss,
      decimal row.dups, decimal row.reorders, flag row.suspect, '0' :: 'x' :: hex row.suspect_flags.toNat]

/-- `mon_write_header`. -/
def mon_write_header : List (List Char) :=
  ['#' :: " per-packet: t_ms,src,dst,dport,csp_flags,is_rdp,rdp_flags,rdp_seq,rdp_ack,dtp_offset,dtp_frag,rtt_paired,rtt_ms".toList,
    '#' :: " window: #WINDOW,t_ms,conn_ovf_delta,buffer_out_delta,buffer_remaining,inferred_loss,dups,reorders,suspect,suspect_flags".toList,
    '#' :: "   note: *_delta are per-window; inferred_loss/dups/reorders are cumulative run totals".toList]

/-- The monitor's file. -/
def apm_csv (rows : List CsvRow) : List (List Char) :=
  mon_write_header ++ rows.map fun row => Table.line ',' (csv_fields row)

end Printf

section Awk

/-- `$n == k`, where the field is a number without sign, fraction or exponent or no number at all. -/
def field_eq (field : List Char) (k : ℕ) : Bool := Table.number? field == some k

/-- `awk -F, 'guard {print $n}'`. -/
def awk_print (guard : (ℕ → List Char) → Bool) (n : ℕ) (lines : List (List Char)) : List (List Char) :=
  (lines.filter fun line => guard (Table.column ',' · line)).map (Table.column ',' n)

/-- `/^#/`. -/
def comment (line : List Char) : Bool := line.head? == some '#'

/-- `awk -F, '$8==1{print $6}'` on the drop log. -/
def dropped_idx (drop : List (List Char)) : List (List Char) :=
  awk_print (fun field => field_eq (field 8) 1) 6 drop

/-- `awk -F, '$8==0{print $6}'` on the drop log. -/
def kept_idx (drop : List (List Char)) : List (List Char) :=
  awk_print (fun field => field_eq (field 8) 0) 6 drop

/-- `grep -av '^#' | awk -F, '{print $11}'` on the monitor's file. -/
def observed_idx (apm : List (List Char)) : List (List Char) :=
  awk_print (fun _ => true) 11 (apm.filter fun line => !comment line)

end Awk

section Columns

theorem comma_not_mem_decimal (i : ℕ) : ',' ∉ decimal i := by
  intro hmem
  have hdigit := Nat.isDigit_of_mem_toDigits (by omega) (by omega) hmem
  exact absurd hdigit (by decide)

theorem comma_not_mem_hex (n : ℕ) : ',' ∉ hex n := by
  intro hmem
  obtain ⟨c, hc, hupper⟩ := List.mem_map.mp hmem
  obtain ⟨d, hd, rfl⟩ := Table.exists_of_mem_toDigits (by omega) hc
  have hall : ∀ d < 16, (Nat.digitChar d).toUpper ≠ ',' := by decide
  exact hall d hd hupper

theorem comma_not_mem_hex_byte (b : UInt8) : ',' ∉ hex_byte b := by
  rw [hex_byte, List.mem_append, not_or]
  refine ⟨fun hmem => ?_, comma_not_mem_hex b.toNat⟩
  exact absurd (List.eq_of_mem_replicate hmem) (by decide)

theorem comma_not_mem_flag (b : Bool) : ',' ∉ flag b := comma_not_mem_decimal b.toNat

theorem comma_not_mem_signed (i : ℤ) : ',' ∉ signed i := by
  unfold signed
  split_ifs
  · rw [List.mem_cons, not_or]
    exact ⟨by decide, comma_not_mem_decimal i.natAbs⟩
  · exact comma_not_mem_decimal i.natAbs

theorem comma_not_mem_drop_fields (row : DropLogRow) : ∀ c ∈ drop_fields row, ',' ∉ c := by
  simp [drop_fields, comma_not_mem_decimal, comma_not_mem_flag, comma_not_mem_hex_byte]

theorem comma_not_mem_csv_fields (row : CsvRow) : ∀ c ∈ csv_fields row, ',' ∉ c := by
  cases row <;>
    simp [csv_fields, comma_not_mem_decimal, comma_not_mem_flag, comma_not_mem_hex_byte, comma_not_mem_signed,
      comma_not_mem_hex]

theorem column_drop_fields (row : DropLogRow) (n : ℕ) :
    Table.column ',' n (Table.line ',' (drop_fields row)) = (drop_fields row).getD (n - 1) [] :=
  Table.column_line (comma_not_mem_drop_fields row) (by simp [drop_fields]) n

theorem column_csv_fields (row : CsvRow) (n : ℕ) :
    Table.column ',' n (Table.line ',' (csv_fields row)) = (csv_fields row).getD (n - 1) [] :=
  Table.column_line (comma_not_mem_csv_fields row) (by cases row <;> simp [csv_fields]) n

@[simp] theorem field_eq_decimal (i k : ℕ) : field_eq (decimal i) k = (i == k) := by
  rw [field_eq, decimal, Table.number?_toDigits]
  rfl

end Columns

section Extraction

/-- What an `awk` on the drop log that looks at the decision prints: the header line has none. -/
theorem awk_print_drop_csv (rows : List DropLogRow) (k : ℕ) :
    awk_print (fun field => field_eq (field 8) k) 6 (drop_csv rows) =
      (rows.filter fun row => row.dropped.toNat == k).map fun row => decimal row.index.toNat := by
  have hheader : field_eq (Table.column ',' 8
      "# t_ms,src,dport,csp_flags,is_rdp,index,epoch,dropped".toList) k = false := by
    have hcolumn : Table.column ',' 8 "# t_ms,src,dport,csp_flags,is_rdp,index,epoch,dropped".toList =
        "dropped".toList := by decide
    rw [hcolumn]
    rfl
  have hguard (row : DropLogRow) :
      field_eq (Table.column ',' 8 (Table.line ',' (drop_fields row))) k = (row.dropped.toNat == k) := by
    rw [column_drop_fields]
    exact field_eq_decimal row.dropped.toNat k
  have hindex (row : DropLogRow) :
      Table.column ',' 6 (Table.line ',' (drop_fields row)) = decimal row.index.toNat := by
    rw [column_drop_fields]
    rfl
  rw [awk_print, drop_csv, List.filter_cons_of_neg (by rw [hheader]; exact Bool.false_ne_true), List.filter_map, List.map_map]
  simp only [Function.comp_def, hguard, hindex]

theorem dropped_idx_drop_csv (rows : List DropLogRow) : dropped_idx (drop_csv rows) =
    (rows.filter fun row => row.dropped).map fun row => decimal row.index.toNat := by
  have hone (b : Bool) : (b.toNat == 1) = b := by cases b <;> rfl
  rw [dropped_idx, awk_print_drop_csv]
  simp only [hone]

theorem kept_idx_drop_csv (rows : List DropLogRow) : kept_idx (drop_csv rows) =
    (rows.filter fun row => !row.dropped).map fun row => decimal row.index.toNat := by
  have hzero (b : Bool) : (b.toNat == 0) = !b := by cases b <;> rfl
  rw [kept_idx, awk_print_drop_csv]
  simp only [hzero]

/-- The index files of a log, from what its rows say of their frames. -/
theorem dropped_idx_entries (rows : List DropLogRow) : dropped_idx (drop_csv rows) =
    (((rows.map DropLogRow.entry).filter fun e => e.2).map fun e => e.1).map decimal := by
  rw [dropped_idx_drop_csv, List.filter_map, List.map_map, List.map_map]
  rfl

theorem kept_idx_entries (rows : List DropLogRow) : kept_idx (drop_csv rows) =
    (((rows.map DropLogRow.entry).filter fun e => !e.2).map fun e => e.1).map decimal := by
  rw [kept_idx_drop_csv, List.filter_map, List.map_map, List.map_map]
  rfl

theorem comment_csv_fields (row : CsvRow) : comment (Table.line ',' (csv_fields row)) = row.is_window := by
  have hdecimal (i : ℕ) (columns : List (List Char)) :
      comment (Table.line ',' (decimal i :: columns)) = false := by
    obtain ⟨c, rest, hdigits⟩ := List.exists_cons_of_ne_nil (Nat.toDigits_ne_nil (n := i) (b := 10))
    have hdigit : c.isDigit := by
      apply Nat.isDigit_of_mem_toDigits (b := 10) (n := i) (by omega) (by omega)
      rw [hdigits]
      exact List.mem_cons_self
    rw [decimal, hdigits, comment, Table.head?_line, beq_eq_false_iff_ne]
    rintro ⟨⟩
    exact absurd hdigit (by decide)
  cases row with
  | rdp t_ms => exact hdecimal t_ms.toNat _
  | dtp t_ms => exact hdecimal t_ms.toNat _
  | window row => rfl

/-- Without the lines that start with `#`, packet rows remain. -/
theorem filter_comment_apm_csv (rows : List CsvRow) :
    ((apm_csv rows).filter fun line => !comment line) =
      (rows.filter fun row => !row.is_window).map fun row => Table.line ',' (csv_fields row) := by
  have hheader : mon_write_header.filter (fun line => !comment line) = [] := rfl
  rw [apm_csv, List.filter_append, hheader, List.nil_append, List.filter_map]
  simp only [Function.comp_def, comment_csv_fields]

/-- What an `awk` on the packet rows prints, in terms of the frames they describe. -/
theorem awk_print_apm_csv {cfg : MonConfig} {frames : List (UInt32 × CspPacket)} {rows : List CsvRow}
    (h : List.Forall₂ (Describes cfg) frames (rows.filter fun row => !row.is_window))
    {guard : (ℕ → List Char) → Bool} {n : ℕ} (sel : UInt32 × CspPacket → Bool)
    (text : UInt32 × CspPacket → List Char)
    (hguard : ∀ f row, Describes cfg f row → guard (fun i => (csv_fields row).getD (i - 1) []) = sel f)
    (htext : ∀ f row, Describes cfg f row → sel f = true → (csv_fields row).getD (n - 1) [] = text f) :
    awk_print guard n ((apm_csv rows).filter fun line => !comment line) = (frames.filter sel).map text := by
  rw [filter_comment_apm_csv, awk_print, List.filter_map, List.map_map]
  simp only [Function.comp_def, column_csv_fields]
  generalize rows.filter (fun row => !row.is_window) = rows at h
  induction h with
  | nil => rfl
  | @cons f row frames rows hrow _ ih =>
    rw [List.filter_cons, List.filter_cons, hguard f row hrow]
    split_ifs with hsel
    · rw [List.map_cons, List.map_cons, htext f row hrow hsel, ih]
    · exact ih

/-- The column of fragments has those of the data frames, and is empty for the others. -/
theorem observed_idx_apm_csv {cfg : MonConfig} {frames : List (UInt32 × CspPacket)} {rows : List CsvRow}
    (h : List.Forall₂ (Describes cfg) frames (rows.filter fun row => !row.is_window)) :
    observed_idx (apm_csv rows) = frames.map fun f =>
      if is_rdp f.2 then [] else decimal (dataFrag cfg.mon_mtu cfg.mon_dtp_overhead f.2.data).toNat := by
  rw [observed_idx, awk_print_apm_csv h (fun _ => true) _ (fun _ _ _ => rfl), List.filter_true]
  intro f row hrow _
  cases hrow with
  | rdp hrdp =>
    rw [if_pos hrdp]
    rfl
  | dtp hrdp =>
    rw [if_neg (by rw [hrdp]; exact Bool.false_ne_true)]
    rfl

end Extraction

end csp_intercept.oracle
