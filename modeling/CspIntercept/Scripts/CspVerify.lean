import CspIntercept.Hash.File
import Mathlib.Data.List.DropRight

open csp_intercept.ci_sha256

namespace csp_intercept.csp_verify

/-- The text of a file's bytes; none is a `UnicodeDecodeError`. -/
def decode (text : List UInt8) : Option (List Char) := text.toByteArray.utf8Decode?.map Array.toList

/-- `\r\n` and `\r` are read as `\n`. -/
def universal_newlines : List Char → List Char
  | [] => []
  | [c] => [if c = '\r' then '\n' else c]
  | c :: n :: cs =>
    if c = '\r' ∧ n = '\n' then '\n' :: universal_newlines cs
    else (if c = '\r' then '\n' else c) :: universal_newlines (n :: cs)

/-- What `for line in f` goes through. -/
def file_lines (cs : List Char) : List (List Char) :=
  Text.cut (fun line => line.getLast? == some '\n') [] (universal_newlines cs)

/-- `str.isspace`. -/
def isspace (c : Char) : Bool :=
  let n := c.toNat
  (9 ≤ n && n ≤ 13) || (28 ≤ n && n ≤ 32) || n == 0x85 || n == 0xA0 || n == 0x1680 ||
    (0x2000 ≤ n && n ≤ 0x200A) || n == 0x2028 || n == 0x2029 || n == 0x202F || n == 0x205F || n == 0x3000

def strip (s : List Char) : List Char := (s.dropWhile isspace).rdropWhile isspace

/-- The code points of the digits 0; the other nine of a script follow. -/
def decimal_zeros : List Nat :=
  [0x30, 0x660, 0x6f0, 0x7c0, 0x966, 0x9e6, 0xa66, 0xae6, 0xb66, 0xbe6, 0xc66, 0xce6, 0xd66, 0xde6, 0xe50, 0xed0,
    0xf20, 0x1040, 0x1090, 0x17e0, 0x1810, 0x1946, 0x19d0, 0x1a80, 0x1a90, 0x1b50, 0x1bb0, 0x1c40, 0x1c50, 0xa620,
    0xa8d0, 0xa900, 0xa9d0, 0xa9f0, 0xaa50, 0xabf0, 0xff10, 0x104a0, 0x10d30, 0x11066, 0x110f0, 0x11136, 0x111d0,
    0x112f0, 0x11450, 0x114d0, 0x11650, 0x116c0, 0x11730, 0x118e0, 0x11950, 0x11c50, 0x11d50, 0x11da0, 0x16a60,
    0x16ac0, 0x16b50, 0x1d7ce, 0x1d7d8, 0x1d7e2, 0x1d7ec, 0x1d7f6, 0x1e140, 0x1e2f0, 0x1e950, 0x1fbf0]

def decimal (c : Char) : Option Nat :=
  decimal_zeros.findSome? fun z => if z ≤ c.toNat ∧ c.toNat < z + 10 then some (c.toNat - z) else none

/-- Digits with single underscores between them. -/
def int_digits : List Char → Option (List Nat)
  | [] => none
  | [c] => (decimal c).map fun d => [d]
  | c :: u :: cs =>
    match decimal c with
    | none => none
    | some d =>
      if u = '_' then (int_digits cs).map fun ds => d :: ds
      else (int_digits (u :: cs)).map fun ds => d :: ds

/-- `int(s)`; none is a `ValueError`, which more than 4300 digits are too. -/
def int (s : List Char) : Option Int :=
  let signed : Bool × List Char := match strip s with
    | [] => (false, [])
    | c :: cs => if c = '-' then (true, cs) else if c = '+' then (false, cs) else (false, c :: cs)
  match int_digits signed.2 with
  | none => none
  | some ds =>
    let value : Int := ds.foldl (fun n d => 10 * n + d) 0
    if ds.length > 4300 then none else some (if signed.1 then -value else value)

/-- `"sha256:"` and `"bytes:"`. -/
def sha256_tag : List Char := ['s', 'h', 'a', '2', '5', '6', ':']
def bytes_tag : List Char := ['b', 'y', 't', 'e', 's', ':']

/-- `line.split(":", 1)[1]` of a line with a colon. -/
def after_colon (line : List Char) : List Char := (line.dropWhile fun c => c != ':').drop 1

/-- The variables of `read_manifest`. -/
structure Wants where
  want_sha : Option (List Char)
  want_bytes : Option Int

/-- One turn of its loop; none when an exception ends the program. -/
def read_line (w : Wants) (line : List Char) : Option Wants :=
  let line := strip line
  if sha256_tag.isPrefixOf line then some { w with want_sha := some (strip (after_colon line)) }
  else if bytes_tag.isPrefixOf line then
    (int (strip (after_colon line))).map fun n => { w with want_bytes := some n }
  else some w

/-- The digest and the byte count of a manifest file; none when the program ends in it, with
    exit status 1. -/
def read_manifest (file : Option (List UInt8)) : Option (List Char × Option Int) :=
  match file.bind decode with
  | none => none
  | some cs =>
    match (file_lines cs).foldlM read_line ⟨none, none⟩ with
    | none => none
    | some w =>
      match w.want_sha with
      | none => none
      | some want_sha => if want_sha.isEmpty then none else some (want_sha, w.want_bytes)

/-- `hashlib.sha256` of a content, as lower-case hex digits. -/
def sha256_file (content : List UInt8) : List Char := (sha256_hex content).map Char.ofUInt8

structure Args where
  manifest : String
  file : String

/-- The exit status, over the contents of the files that can be read. After a mismatch it is 1
    whatever else is printed or written. -/
def main (files : String → Option (List UInt8)) (args : Args) : Nat :=
  match files args.file with
  | none => 1
  | some content =>
    match read_manifest (files args.manifest) with
    | none => 1
    | some (want_sha, _) => if sha256_file content = want_sha then 0 else 1

/-- The last line that starts with `sha256:`, white space in front aside, has `d` after it,
    white space on both sides aside. -/
def LastDigest (text : List UInt8) (d : List Char) : Prop :=
  ∃ cs before line after rest, decode text = some cs ∧ file_lines cs = before ++ line :: after ∧
    (∀ l ∈ after, ¬ sha256_tag <+: strip l) ∧ strip line = sha256_tag ++ rest ∧ strip rest = d

section Reader

/-- What a line has for a digest. -/
def line_sha (line : List Char) : Option (List Char) :=
  if sha256_tag.isPrefixOf (strip line) then some (strip (after_colon (strip line))) else none

theorem line_sha_eq_some_iff {line d : List Char} :
    line_sha line = some d ↔ ∃ rest, strip line = sha256_tag ++ rest ∧ strip rest = d := by
  rw [line_sha, Option.ite_none_right_eq_some, List.isPrefixOf_iff_prefix, Option.some.injEq]
  constructor
  · rintro ⟨⟨rest, hrest⟩, hd⟩
    refine ⟨rest, hrest.symm, ?_⟩
    rw [← hrest] at hd
    exact hd
  · rintro ⟨rest, hrest, hd⟩
    rw [hrest]
    exact ⟨⟨rest, rfl⟩, hd⟩

theorem line_sha_eq_none_iff {line : List Char} : line_sha line = none ↔ ¬ sha256_tag <+: strip line := by
  rw [line_sha, ite_eq_right_iff, List.isPrefixOf_iff_prefix]
  constructor
  · exact fun h hpre => Option.some_ne_none _ (h hpre)
  · exact fun hnot hpre => absurd hpre hnot

theorem read_line_want_sha {w w' : Wants} {line : List Char} (hline : read_line w line = some w') :
    w'.want_sha = (line_sha line).or w.want_sha := by
  simp only [read_line] at hline
  rw [line_sha]
  split_ifs at hline ⊢ with htag hbytes
  · cases hline
    rfl
  · obtain ⟨n, -, rfl⟩ := Option.map_eq_some_iff.mp hline
    rfl
  · cases hline
    rfl

/-- The last line with a digest decides. -/
theorem read_lines_want_sha {lines : List (List Char)} {w w' : Wants}
    (hrun : lines.foldlM read_line w = some w') :
    w'.want_sha = (lines.reverse.findSome? line_sha).or w.want_sha := by
  rw [← Text.foldl_or_eq]
  induction lines generalizing w with
  | nil =>
    cases hrun
    rfl
  | cons line lines ih =>
    rw [List.foldlM_cons] at hrun
    obtain ⟨v, hv, hrest⟩ := Option.bind_eq_some_iff.mp hrun
    rw [List.foldl_cons, ih hrest, read_line_want_sha hv]

/-- The reader finds exactly the last digest. -/
theorem read_manifest_last {text : List UInt8} {want_sha : List Char} {want_bytes : Option Int}
    (hread : read_manifest (some text) = some (want_sha, want_bytes)) (d : List Char) :
    LastDigest text d ↔ d = want_sha := by
  simp only [read_manifest, Option.bind_some] at hread
  cases hdecode : decode text with
  | none =>
    rw [hdecode] at hread
    cases hread
  | some cs =>
    simp only [hdecode] at hread
    cases hrun : (file_lines cs).foldlM read_line ⟨none, none⟩ with
    | none =>
      rw [hrun] at hread
      cases hread
    | some w =>
      simp only [hrun] at hread
      have hlast := read_lines_want_sha hrun
      rw [Option.or_none] at hlast
      cases hsha : w.want_sha with
      | none =>
        rw [hsha] at hread
        cases hread
      | some sha =>
        simp only [hsha] at hread
        split_ifs at hread
        cases hread
        have hfound : LastDigest text d ↔ (file_lines cs).reverse.findSome? line_sha = some d := by
          rw [Text.findSome?_reverse_eq_some_iff]
          simp only [line_sha_eq_some_iff, line_sha_eq_none_iff, LastDigest, hdecode, Option.some.injEq]
          constructor
          · rintro ⟨cs', before, line, after, rest, rfl, hlines, hafter, hline, hd⟩
            exact ⟨before, line, after, hlines, ⟨rest, hline, hd⟩, hafter⟩
          · rintro ⟨before, line, after, hlines, ⟨rest, hline, hd⟩, hafter⟩
            exact ⟨cs, before, line, after, rest, rfl, hlines, hafter, hline, hd⟩
        rw [hfound, ← hlast, hsha, Option.some.injEq, eq_comm]

end Reader

/-- The exit status is 0 exactly when the last digest is the file's hash. -/
theorem main_eq_zero_iff {files : String → Option (List UInt8)} {manifest file : String}
    {text content : List UInt8} (htext : files manifest = some text) (hcontent : files file = some content)
    (hfound : (read_manifest (some text)).isSome) :
    main files ⟨manifest, file⟩ = 0 ↔ LastDigest text (sha256_file content) := by
  obtain ⟨⟨want_sha, want_bytes⟩, hread⟩ := Option.isSome_iff_exists.mp hfound
  rw [read_manifest_last hread]
  simp only [main, hcontent, htext, hread]
  split_ifs with hsame
  · exact iff_of_true rfl hsame
  · exact iff_of_false nofun hsame

end csp_intercept.csp_verify
