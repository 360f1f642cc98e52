import CspIntercept.Apm.Verify
import CspIntercept.Scripts.CspVerify
import CspIntercept.Svu.Core

open csp_intercept.ci_sha256 csp_intercept.csp_monitor_apm
open csp_intercept.ci_svu (stack_ctx)

namespace csp_intercept.csp_verify

/-- The two commands are one verdict on a file. -/
def SameVerdict (stack : CiSha256) (files : String → Option (List UInt8)) (manifest file : String) : Prop :=
  (verify_cmd stack files ⟨some manifest, none, some file⟩).2 = .ok ↔ main files ⟨manifest, file⟩ = 0

/-- The last line that starts with `sha256:` has nothing else after it than the digits that
    follow the first `sha256:` of the text, and these in lower case. -/
def SameDigest (text : List UInt8) : Prop :=
  ∃ d, FirstDigest text d ∧ LastDigest text ((d.map tolower).map Char.ofUInt8)

/-- The file's hash is neither the first digest, letter case aside, nor the last. -/
def NamesNeither (text content : List UInt8) : Prop :=
  (∀ d, FirstDigest text d → d.map tolower ≠ sha256_hex content) ∧ ¬ LastDigest text (sha256_file content)

theorem ofUInt8_injective : Function.Injective Char.ofUInt8 := by
  intro a b h
  apply UInt8.toNat_inj.mp
  exact congrArg Char.toNat h

theorem firstDigest_unique {text d d' : List UInt8} (h : FirstDigest text d) (h' : FirstDigest text d') :
    d = d' := by
  rw [← verify_read_manifest_sha_eq_some_iff] at h h'
  exact Option.some.inj (h.symm.trans h')

/-- Where both commands find a digest, they agree on a file exactly when the manifest gives both
    the same digest, or gives neither of them the file's. -/
theorem same_verdict_iff (stack : CiSha256) {files : String → Option (List UInt8)} {manifest file : String}
    {text content : List UInt8} (htext : files manifest = some text) (hcontent : files file = some content)
    (hcsh : (verify_read_manifest_sha (some text)).isSome) (hhost : (read_manifest (some text)).isSome) :
    SameVerdict stack files manifest file ↔ SameDigest text ∨ NamesNeither text content := by
  obtain ⟨d, hd⟩ := Option.isSome_iff_exists.mp hcsh
  rw [verify_read_manifest_sha_eq_some_iff] at hd
  obtain ⟨⟨want_sha, want_bytes⟩, hread⟩ := Option.isSome_iff_exists.mp hhost
  have hlast := read_manifest_last hread
  rw [SameVerdict, verify_cmd_ok_iff stack htext hcontent hd, main_eq_zero_iff htext hcontent hhost, hlast]
  have hsame : SameDigest text ↔ (d.map tolower).map Char.ofUInt8 = want_sha := by
    constructor
    · rintro ⟨d', hd', hboth⟩
      rw [firstDigest_unique hd hd']
      exact (hlast _).mp hboth
    · exact fun heq => ⟨d, hd, (hlast _).mpr heq⟩
  have hneither : NamesNeither text content ↔
      d.map tolower ≠ sha256_hex content ∧ sha256_file content ≠ want_sha := by
    rw [NamesNeither, hlast]
    apply and_congr_left
    intro _
    constructor
    · exact fun h => h d hd
    · intro h d' hd'
      rwa [← firstDigest_unique hd hd']
  have hchars : d.map tolower = sha256_hex content ↔ (d.map tolower).map Char.ofUInt8 = sha256_file content :=
    (List.map_injective_iff.mpr ofUInt8_injective).eq_iff.symm
  rw [hsame, hneither, ne_eq, hchars]
  constructor
  · intro hiff
    by_cases hfirst : (d.map tolower).map Char.ofUInt8 = sha256_file content
    · exact .inl (hfirst.trans (hiff.mp hfirst))
    · exact .inr ⟨hfirst, fun h => hfirst (hiff.mpr h)⟩
  · rintro (heq | ⟨hfirst, hwant⟩)
    · rw [heq, eq_comm]
    · exact iff_of_false hfirst hwant

section Manifests

/-- An ASCII text is decoded byte by byte. -/
theorem decode_ascii {text : List UInt8} (hascii : ∀ b ∈ text, b < 128) :
    decode text = some (text.map Char.ofUInt8) := by
  have hchar (b : UInt8) (hb : b < 128) : String.utf8EncodeChar (Char.ofUInt8 b) = [b] := by
    have hval : (Char.ofUInt8 b).val.toNat = b.toNat := rfl
    rw [UInt8.lt_iff_toNat_lt] at hb
    have hle : b.toNat ≤ 0x7f := Nat.le_of_lt_succ hb
    rw [String.utf8EncodeChar, hval, if_pos hle, UInt8.ofNat_toNat]
  have hencode : (text.map Char.ofUInt8).flatMap String.utf8EncodeChar = text := by
    induction text with
    | nil => rfl
    | cons b text ih =>
      rw [List.map_cons, List.flatMap_cons, hchar b (hascii b List.mem_cons_self),
        ih fun c hc => hascii c (List.mem_cons_of_mem b hc)]
      rfl
  have hdecode := List.utf8Decode?_utf8Encode (l := text.map Char.ofUInt8)
  rw [List.utf8Encode, hencode] at hdecode
  rw [decode, hdecode]
  rfl

/-- The hash of no bytes at all. -/
def empty_sha256 : List UInt8 :=
  [101, 51, 98, 48, 99, 52, 52, 50, 57, 56, 102, 99, 49, 99, 49, 52, 57, 97, 102, 98, 102, 52, 99, 56, 57,
    57, 54, 102, 98, 57, 50, 52, 50, 55, 97, 101, 52, 49, 101, 52, 54, 52, 57, 98, 57, 51, 52, 99, 97, 52,
    57, 53, 57, 57, 49, 98, 55, 56, 53, 50, 98, 56, 53, 53]

/-- The same in capitals. -/
def empty_sha256_capitals : List UInt8 :=
  [69, 51, 66, 48, 67, 52, 52, 50, 57, 56, 70, 67, 49, 67, 49, 52, 57, 65, 70, 66, 70, 52, 67, 56, 57, 57,
    54, 70, 66, 57, 50, 52, 50, 55, 65, 69, 52, 49, 69, 52, 54, 52, 57, 66, 57, 51, 52, 67, 65, 52, 57, 53,
    57, 57, 49, 66, 55, 56, 53, 50, 66, 56, 53, 53]

/-- A comment, a byte count and a digest. -/
def manifest_text (digest : List UInt8) : List UInt8 :=
  [35, 32, 97, 10] ++ [98, 121, 116, 101, 115, 58, 32, 48, 10] ++
    csp_monitor_apm.sha256_tag ++ [32] ++ digest ++ [10]

/-- A manifest, and an empty file. -/
def manifest_files (text : List UInt8) (path : String) : Option (List UInt8) :=
  if path = "a.manifest" then some text else some []

theorem sha256_hex_nil : sha256_hex [] = empty_sha256 := by
  have hrun : ci_sha256_file stack_ctx (some []) = some (empty_sha256, 0) := by decide +kernel
  rw [ci_sha256_file_eq] at hrun
  exact congrArg Prod.fst (Option.some.inj hrun)

/-- What the host reads in such a manifest. -/
theorem read_manifest_text :
    read_manifest (some (manifest_text empty_sha256)) = some (empty_sha256.map Char.ofUInt8, some 0) ∧
      read_manifest (some (manifest_text empty_sha256_capitals)) =
        some (empty_sha256_capitals.map Char.ofUInt8, some 0) := by
  constructor
  · rw [read_manifest, Option.bind_some, decode_ascii (by decide +kernel)]
    decide +kernel
  · rw [read_manifest, Option.bind_some, decode_ascii (by decide +kernel)]
    decide +kernel

/-- The digest of the file in small letters: one verdict. -/
theorem same_verdict_iff_small_letters :
    SameVerdict stack_ctx (manifest_files (manifest_text empty_sha256)) "a.manifest" "a.bin" := by
  have hcsh : verify_read_manifest_sha (some (manifest_text empty_sha256)) = some empty_sha256 := by decide +kernel
  have hhost := read_manifest_text.1
  refine (same_verdict_iff stack_ctx rfl rfl (by rw [hcsh]; rfl) (by rw [hhost]; rfl)).mpr (.inl ?_)
  refine ⟨empty_sha256, verify_read_manifest_sha_eq_some_iff.mp hcsh, (read_manifest_last hhost _).mpr ?_⟩
  decide +kernel

/-- The digest of the file in capitals: csh prints OK and the host exits with 1. -/
theorem capital_digest_two_verdicts :
    verify_cmd stack_ctx (manifest_files (manifest_text empty_sha256_capitals))
        ⟨some "a.manifest", none, some "a.bin"⟩ = (.SLASH_SUCCESS, .ok) ∧
      main (manifest_files (manifest_text empty_sha256_capitals)) ⟨"a.manifest", "a.bin"⟩ = 1 ∧
      ¬ SameVerdict stack_ctx (manifest_files (manifest_text empty_sha256_capitals)) "a.manifest" "a.bin" := by
  have hcsh : verify_cmd stack_ctx (manifest_files (manifest_text empty_sha256_capitals))
      ⟨some "a.manifest", none, some "a.bin"⟩ = (.SLASH_SUCCESS, .ok) := by decide +kernel
  have htext : manifest_files (manifest_text empty_sha256_capitals) "a.manifest" =
      some (manifest_text empty_sha256_capitals) := rfl
  have hcontent : manifest_files (manifest_text empty_sha256_capitals) "a.bin" = some [] := rfl
  have hdiffer : sha256_file [] ≠ empty_sha256_capitals.map Char.ofUInt8 := by
    rw [sha256_file, sha256_hex_nil]
    decide +kernel
  have hhost : main (manifest_files (manifest_text empty_sha256_capitals)) ⟨"a.manifest", "a.bin"⟩ = 1 := by
    simp only [main, hcontent, htext, read_manifest_text.2]
    exact if_neg hdiffer
  refine ⟨hcsh, hhost, fun hsame => ?_⟩
  have hzero := hsame.mp (congrArg Prod.snd hcsh)
  rw [hhost] at hzero
  cases hzero

end Manifests

end csp_intercept.csp_verify
