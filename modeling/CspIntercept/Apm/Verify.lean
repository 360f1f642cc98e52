import CspIntercept.Hash.File
import Mathlib.Data.List.TakeWhile

open csp_intercept.ci_sha256

namespace csp_intercept.csp_monitor_apm

/-- `"sha256:"`. -/
def sha256_tag : List UInt8 := [115, 104, 97, 50, 53, 54, 58]

/-- What successive calls of `fgets` put into a buffer of `size` bytes: a line, or as much
    of it as there is room for before the NUL. -/
def fgets_lines (size : Nat) (text : List UInt8) : List (List UInt8) :=
  Text.cut (fun line => line.getLast? == some 10 || line.length + 1 == size) [] text

/-- The string in a buffer, up to its NUL. -/
def c_str (buf : List UInt8) : List UInt8 := buf.takeWhile fun c => c != 0

def strstr (haystack needle : List UInt8) : Option (List UInt8) := Text.search needle haystack

def is_blank (c : UInt8) : Bool := c == 32 || c == 9

def is_hex (c : UInt8) : Bool := (48 ≤ c && c ≤ 57) || (97 ≤ c && c ≤ 102) || (65 ≤ c && c ≤ 70)

/-- The loop that copies hex digits, with room for `n` more. -/
def copy_hex : Nat → List UInt8 → List UInt8
  | 0, _ => []
  | _ + 1, [] => []
  | n + 1, c :: s => if is_hex c then c :: copy_hex n s else []

/-- The digest of a manifest file; none is the return value -1. -/
def verify_read_manifest_sha (file : Option (List UInt8)) : Option (List UInt8) :=
  match file with
  | none => none
  | some text =>
    -- the first line with the tag ends the loop, whatever follows the tag
    let want := match (fgets_lines 512 text).findSome? fun line => strstr (c_str line) sha256_tag with
      | some s => copy_hex 64 ((s.drop 7).dropWhile is_blank)
      | none => []
    if want.length = 64 then some want else none

def tolower (c : UInt8) : UInt8 := if 65 ≤ c ∧ c ≤ 90 then c + 32 else c

/-- `strcasecmp` in the C locale, of strings without their NULs. -/
def strcasecmp : List UInt8 → List UInt8 → Int
  | [], [] => 0
  | [], b :: _ => -(tolower b).toNat
  | a :: _, [] => (tolower a).toNat
  | a :: as, b :: bs => if tolower a = tolower b then strcasecmp as bs else (tolower a).toNat - (tolower b).toNat

inductive SlashStatus
  | SLASH_SUCCESS
  | SLASH_EINVAL
  | SLASH_EIO
deriving DecidableEq

/-- The first line `verify` prints, one constructor for each `printf`. -/
inductive VerifyLine
  | missing_file
  | no_sha256
  | need_digest
  | cannot_read
  | ok
  | failed
deriving DecidableEq

/-- The options of a command line that parses, and its FILE. `-r` and `-v` only add to what
    is printed. -/
structure VerifyArgs where
  manifest : Option String
  expected : Option (List UInt8)
  file : Option String

open SlashStatus

/-- The digest to compare with, or how the command ends. -/
def verify_want (files : String → Option (List UInt8)) (args : VerifyArgs) :
    Except (SlashStatus × VerifyLine) (List UInt8) :=
  match args.expected, args.manifest with
  | some expected, _ => .ok ((c_str expected).take 64)
  | none, some manifest =>
    match verify_read_manifest_sha (files manifest) with
    | some want => .ok want
    | none => .error (SLASH_EINVAL, .no_sha256)
  | none, none => .error (SLASH_EINVAL, .need_digest)

/-- The command, over the contents of the files that can be read. -/
def verify_cmd (stack : CiSha256) (files : String → Option (List UInt8)) (args : VerifyArgs) :
    SlashStatus × VerifyLine :=
  match args.file with
  | none => (SLASH_EINVAL, .missing_file)
  | some file =>
    match verify_want files args with
    | .error e => e
    | .ok want =>
      match ci_sha256_file stack (files file) with
      | none => ( SLASH_EIO, .cannot_read)
      | some (got, _) =>
        if strcasecmp got want = 0 then (SLASH_SUCCESS, .ok) else (SLASH_SUCCESS, .failed)

/-- The first of the lines `fgets` reads that mentions `sha256:` has, after its first mention
    and blanks, the hex digits `d`. -/
def FirstDigest (text d : List UInt8) : Prop :=
  ∃ before line after head blanks tail,
    fgets_lines 512 text = before ++ line :: after ∧ (∀ l ∈ before, ¬ sha256_tag <:+: c_str l) ∧
      Text.FirstAt sha256_tag head (c_str line) ∧
      c_str line = head ++ (sha256_tag ++ (blanks ++ (d ++ tail))) ∧
      (∀ c ∈ blanks, is_blank c) ∧ d.length = 64 ∧ ∀ c ∈ d, is_hex c

section Digits

/-- The loop copies as many digits as it has room for when there are that many. -/
theorem copy_hex_eq_iff {n : Nat} {s d : List UInt8} :
    copy_hex n s = d ∧ d.length = n ↔ (∃ tail, s = d ++ tail) ∧ d.length = n ∧ ∀ c ∈ d, is_hex c := by
  induction n generalizing s d with
  | zero =>
    rw [copy_hex]
    constructor
    · rintro ⟨rfl, -⟩
      exact ⟨⟨s, rfl⟩, rfl, nofun⟩
    · rintro ⟨-, hlen, -⟩
      exact ⟨(List.eq_nil_of_length_eq_zero hlen).symm, hlen⟩
  | succ n ih =>
    cases d with
    | nil => simp
    | cons c d =>
      cases s with
      | nil => simp [copy_hex]
      | cons a s =>
        have hrec := ih (s := s) (d := d)
        rw [copy_hex]
        by_cases hhex : is_hex a
        · rw [if_pos hhex, List.cons.injEq, List.length_cons, Nat.add_right_cancel_iff, and_assoc, hrec]
          constructor
          · rintro ⟨rfl, ⟨tail, rfl⟩, hlen, hall⟩
            refine ⟨⟨tail, rfl⟩, hlen, fun x hx => ?_⟩
            rcases List.mem_cons.mp hx with rfl | hx
            · exact hhex
            · exact hall x hx
          · rintro ⟨⟨tail, heq⟩, hlen, hall⟩
            obtain ⟨rfl, rfl⟩ := List.cons.inj heq
            exact ⟨rfl, ⟨tail, rfl⟩, hlen, fun x hx => hall x (List.mem_cons_of_mem _ hx)⟩
        · rw [if_neg hhex]
          constructor
          · rintro ⟨h, -⟩
            cases h
          · rintro ⟨⟨tail, heq⟩, -, hall⟩
            obtain ⟨rfl, -⟩ := List.cons.inj heq
            exact absurd (hall a List.mem_cons_self) hhex

theorem not_is_blank_of_is_hex {c : UInt8} (hhex : is_hex c) : is_blank c = false := by
  simp only [is_hex, is_blank, Bool.or_eq_true, Bool.and_eq_true, decide_eq_true_eq, UInt8.le_iff_toNat_le,
    Bool.or_eq_false_iff, beq_eq_false_iff_ne, ne_eq, ← UInt8.toNat_inj, UInt8.reduceToNat] at hhex ⊢
  omega

/-- The digits after blanks. -/
theorem digits_after_blanks_iff {s d : List UInt8} :
    copy_hex 64 (s.dropWhile is_blank) = d ∧ d.length = 64 ↔
      ∃ blanks tail, s = blanks ++ (d ++ tail) ∧ (∀ c ∈ blanks, is_blank c) ∧ d.length = 64 ∧
        ∀ c ∈ d, is_hex c := by
  rw [copy_hex_eq_iff]
  constructor
  · rintro ⟨⟨tail, htail⟩, hlen, hall⟩
    refine ⟨s.takeWhile is_blank, tail, ?_, fun c => List.mem_takeWhile_imp, hlen, hall⟩
    rw [← htail, List.takeWhile_append_dropWhile]
  · rintro ⟨blanks, tail, rfl, hblanks, hlen, hall⟩
    refine ⟨⟨tail, ?_⟩, hlen, hall⟩
    rw [List.dropWhile_append_of_pos hblanks]
    cases d with
    | nil => cases hlen
    | cons c d =>
      rw [List.cons_append, List.dropWhile_cons_of_neg]
      rw [not_is_blank_of_is_hex (hall c List.mem_cons_self)]
      nofun

end Digits

/-- The reader finds exactly the first digest. -/
theorem verify_read_manifest_sha_eq_some_iff {text d : List UInt8} :
    verify_read_manifest_sha (some text) = some d ↔ FirstDigest text d := by
  have hread : verify_read_manifest_sha (some text) = some d ↔
      ∃ s, ((fgets_lines 512 text).findSome? fun line => strstr (c_str line) sha256_tag) = some s ∧
        copy_hex 64 ((s.drop 7).dropWhile is_blank) = d ∧ d.length = 64 := by
    simp only [verify_read_manifest_sha]
    cases (fgets_lines 512 text).findSome? fun line => strstr (c_str line) sha256_tag with
    | none => simp
    | some s =>
      simp only [Option.ite_none_right_eq_some, Option.some.injEq]
      constructor
      · rintro ⟨hlen, rfl⟩
        exact ⟨s, rfl, rfl, hlen⟩
      · rintro ⟨s', rfl, rfl, hlen⟩
        exact ⟨hlen, rfl⟩
  rw [hread]
  simp only [List.findSome?_eq_some_iff, strstr, Text.search_eq_none_iff, digits_after_blanks_iff, FirstDigest]
  constructor
  · rintro ⟨s, ⟨before, line, after, hlines, hfound, hbefore⟩, blanks, tail, hs, hblanks, hlen, hhex⟩
    obtain ⟨head, hfirst, hline⟩ := Text.search_eq_some_iff.mp hfound
    refine ⟨before, line, after, head, blanks, tail, hlines, hbefore, hfirst, ?_, hblanks, hlen, hhex⟩
    have htag : sha256_tag <+: s := by
      have hat := hfirst.1
      rwa [hline, List.prefix_append_right_inj] at hat
    obtain ⟨rest, rfl⟩ := htag
    have hrest : rest = blanks ++ (d ++ tail) := hs
    rw [hline, hrest]
  · rintro ⟨before, line, after, head, blanks, tail, hlines, hbefore, hfirst, hline, hblanks, hlen, hhex⟩
    refine ⟨sha256_tag ++ (blanks ++ (d ++ tail)), ⟨before, line, after, hlines, ?_, hbefore⟩,
      blanks, tail, rfl, hblanks, hlen, hhex⟩
    exact Text.search_eq_some_iff.mpr ⟨head, hfirst, hline⟩

section Compare

theorem tolower_ne_zero {c : UInt8} (hc : c ≠ 0) : tolower c ≠ 0 := by
  rw [tolower]
  split_ifs with hupper
  · rw [UInt8.le_iff_toNat_le, UInt8.le_iff_toNat_le] at hupper
    rw [ne_eq, ← UInt8.toNat_inj, UInt8.toNat_add]
    simp only [UInt8.reduceToNat] at hupper ⊢
    omega
  · exact hc

/-- The comparison looks past the case of letters and at nothing else. -/
theorem strcasecmp_eq_zero_iff {as bs : List UInt8} (ha : ∀ c ∈ as, c ≠ 0) (hb : ∀ c ∈ bs, c ≠ 0) :
    strcasecmp as bs = 0 ↔ as.map tolower = bs.map tolower := by
  have hpos {c : UInt8} (hc : c ≠ 0) : (tolower c).toNat ≠ 0 :=
    fun hzero => tolower_ne_zero hc (UInt8.toNat_inj.mp hzero)
  induction as generalizing bs with
  | nil =>
    cases bs with
    | nil => exact iff_of_true rfl rfl
    | cons b bs =>
      have hne := hpos (hb b List.mem_cons_self)
      refine iff_of_false (fun h => ?_) nofun
      rw [strcasecmp] at h
      omega
  | cons a as ih =>
    cases bs with
    | nil =>
      have hne := hpos (ha a List.mem_cons_self)
      refine iff_of_false (fun h => ?_) nofun
      rw [strcasecmp] at h
      omega
    | cons b bs =>
      rw [strcasecmp, List.map_cons, List.map_cons, List.cons.injEq]
      split_ifs with hsame
      · have hrec := ih (fun c hc => ha c (List.mem_cons_of_mem a hc)) fun c hc => hb c (List.mem_cons_of_mem b hc)
        exact hrec.trans (and_iff_right hsame).symm
      · refine iff_of_false (fun h => hsame ?_) fun h => hsame h.1
        apply UInt8.toNat_inj.mp
        omega

theorem hex_ne_zero {d : List UInt8} (hhex : ∀ c ∈ d, is_hex c) : ∀ c ∈ d, c ≠ 0 := by
  rintro c hc rfl
  exact absurd (hhex 0 hc) nofun

/-- The digits of a hash are no capitals. -/
theorem map_tolower_sha256_hex (content : List UInt8) :
    (sha256_hex content).map tolower = sha256_hex content ∧ ∀ c ∈ sha256_hex content, c ≠ 0 := by
  have hdigit (c : UInt8) (hc : c ∈ sha256_hex content) : tolower c = c ∧ c ≠ 0 := by
    have hrange := mem_sha256_hex hc
    simp only [UInt8.le_iff_toNat_le, UInt8.reduceToNat] at hrange
    constructor
    · rw [tolower, if_neg]
      simp only [UInt8.le_iff_toNat_le, UInt8.reduceToNat]
      omega
    · rw [ne_eq, ← UInt8.toNat_inj]
      change c.toNat ≠ 0
      omega
  refine ⟨?_, fun c hc => (hdigit c hc).2⟩
  rw [List.map_congr_left fun c hc => (hdigit c hc).1, List.map_id']

end Compare

/-- With a manifest `verify` prints OK exactly when the digest of the manifest is, letter case
    aside, the hash of the file. -/
theorem verify_cmd_ok_iff (stack : CiSha256) {files : String → Option (List UInt8)} {manifest file : String}
    {text content d : List UInt8} (htext : files manifest = some text) (hcontent : files file = some content)
    (hd : FirstDigest text d) :
    (verify_cmd stack files ⟨some manifest, none, some file⟩).2 = .ok ↔
      d.map tolower = sha256_hex content := by
  obtain ⟨hlower, hne⟩ := map_tolower_sha256_hex content
  have hwant := verify_read_manifest_sha_eq_some_iff.mpr hd
  obtain ⟨-, -, -, -, -, -, -, -, -, -, -, -, hhex⟩ := hd
  have hcmp := strcasecmp_eq_zero_iff hne (hex_ne_zero hhex)
  rw [hlower] at hcmp
  simp only [verify_cmd, verify_want, htext, hwant, hcontent, ci_sha256_file_eq]
  split_ifs with hzero
  · exact iff_of_true rfl (hcmp.mp hzero).symm
  · exact iff_of_false nofun fun h => hzero (hcmp.mpr h.symm)

end csp_intercept.csp_monitor_apm
