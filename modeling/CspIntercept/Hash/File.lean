import CspIntercept.Hash.Streaming
import CspIntercept.Lib.Text

namespace csp_intercept.ci_sha256

/-- `"0123456789abcdef"`. -/
def hx : List UInt8 := [48, 49, 50, 51, 52, 53, 54, 55, 56, 57, 97, 98, 99, 100, 101, 102]

/-- The two hex digits of a byte. -/
def hex_byte (d : UInt8) : List UInt8 := [hx.getD (d >>> 4).toNat 0, hx.getD (d &&& 0x0f).toNat 0]

/-- The hex digits of a file's hash and its byte count; none is the return value -1. The
    context is on the stack, `c` being what that held. -/
def ci_sha256_file (c : CiSha256) (file : Option (List UInt8)) : Option (List UInt8 × UInt64) :=
  file.map fun content =>
    -- each `fread` fills the buffer, the last one as far as the file goes
    let reads := Text.cut (fun piece => piece.length == 65536) [] content
    let digest := ci_sha256_final (reads.foldl ci_sha256_update (ci_sha256_init c))
    (digest.flatMap hex_byte, UInt64.ofNat content.length)

/-- The hex digits of a content's standard hash. -/
def sha256_hex (content : List UInt8) : List UInt8 := (Fips180.sha256 content).flatMap hex_byte

/-- The hash is that of the content, however it is read. -/
theorem ci_sha256_file_eq (c : CiSha256) (content : List UInt8) :
    ci_sha256_file c (some content) = some (sha256_hex content, UInt64.ofNat content.length) := by
  have hstream := (ci_sha256_streaming c (Text.cut (fun piece => piece.length == 65536) [] content)).1
  rw [Text.flatten_cut, List.nil_append] at hstream
  simp only [ci_sha256_file, Option.map_some, hstream, sha256_hex]

/-- They are decimal digits and small letters. -/
theorem mem_sha256_hex {content : List UInt8} {h : UInt8} (hh : h ∈ sha256_hex content) :
    (48 ≤ h ∧ h ≤ 57) ∨ (97 ≤ h ∧ h ≤ 102) := by
  have hdigit : ∀ i < 16, (48 ≤ hx.getD i 0 ∧ hx.getD i 0 ≤ 57) ∨ (97 ≤ hx.getD i 0 ∧ hx.getD i 0 ≤ 102) := by
    decide
  obtain ⟨d, -, hmem⟩ := List.mem_flatMap.mp hh
  have hd := d.toNat_lt
  rcases List.mem_cons.mp hmem with rfl | hlow
  · apply hdigit
    have hshift : (d >>> 4).toNat = d.toNat / 2 ^ 4 := by
      rw [UInt8.toNat_shiftRight]
      exact Nat.shiftRight_eq_div_pow _ _
    omega
  · rw [List.mem_singleton.mp hlow]
    apply hdigit
    have hmask : (d &&& 0x0f).toNat = d.toNat % 2 ^ 4 := by
      rw [UInt8.toNat_and]
      exact Nat.and_two_pow_sub_one_eq_mod _ 4
    omega

end csp_intercept.ci_sha256
