import CspIntercept.Lib.BlockHash
import Mathlib.Algebra.Group.Nat.Defs

namespace Fips180

/-- The first `bits` bits, above the binary point included, of the `k`-th root of `x`. -/
def root (k x : ℕ) : ℕ → ℕ → ℕ
  | 0, r => r
  | bits + 1, r => root k x bits (if (r + 2 ^ bits) ^ k ≤ x then r + 2 ^ bits else r)

def primes : List ℕ :=
  [2, 3, 5, 7, 11, 13, 17, 19, 23, 29, 31, 37, 41, 43, 47, 53, 59, 61, 67, 71, 73, 79, 83, 89, 97, 101, 103,
    107, 109, 113, 127, 131, 137, 139, 149, 151, 157, 163, 167, 173, 179, 181, 191, 193, 197, 199, 211, 223,
    227, 229, 233, 239, 241, 251, 257, 263, 269, 271, 277, 281, 283, 293, 307, 311]

/-- The round constants: the first 32 bits of the fractional parts of the cube roots
    of the first 64 primes. -/
def K (t : ℕ) : UInt32 :=
  UInt32.ofNat (root 3 (primes.getD t 0 * 2 ^ 96) 35 0)

/-- The eight words of a hash value. -/
abbrev HashValue := Vector UInt32 8

/-- The initial hash value: the first 32 bits of the fractional parts of the square
    roots of the first eight primes. -/
def H0 : HashValue :=
  Vector.ofFn fun i => UInt32.ofNat (root 2 (primes.getD i 0 * 2 ^ 64) 37 0)

def ROTR (x : UInt32) (n : UInt32) : UInt32 := (x >>> n) ||| (x <<< (32 - n))

def Ch (x y z : UInt32) : UInt32 := (x &&& y) ^^^ (~~~x &&& z)

def Maj (x y z : UInt32) : UInt32 := (x &&& y) ^^^ (x &&& z) ^^^ (y &&& z)

def bigSigma0 (x : UInt32) : UInt32 := ROTR x 2 ^^^ ROTR x 13 ^^^ ROTR x 22

def bigSigma1 (x : UInt32) : UInt32 := ROTR x 6 ^^^ ROTR x 11 ^^^ ROTR x 25

def smallSigma0 (x : UInt32) : UInt32 := ROTR x 7 ^^^ ROTR x 18 ^^^ (x >>> 3)

def smallSigma1 (x : UInt32) : UInt32 := ROTR x 17 ^^^ ROTR x 19 ^^^ (x >>> 10)

/-- The four bytes of a block from `i` on as a big-endian word. -/
def wordAt (M : List UInt8) (i : ℕ) : UInt32 :=
  ((M.getD i 0).toUInt32 <<< 24) ||| ((M.getD (i + 1) 0).toUInt32 <<< 16) |||
    ((M.getD (i + 2) 0).toUInt32 <<< 8) ||| (M.getD (i + 3) 0).toUInt32

/-- The message schedule of a block. -/
def W (M : List UInt8) (t : ℕ) : UInt32 :=
  if t < 16 then wordAt M (4 * t)
  else smallSigma1 (W M (t - 2)) + W M (t - 7) + smallSigma0 (W M (t - 15)) + W M (t - 16)
termination_by t
decreasing_by all_goals omega

/-- The working variables. -/
structure Working where
  a : UInt32
  b : UInt32
  c : UInt32
  d : UInt32
  e : UInt32
  f : UInt32
  g : UInt32
  h : UInt32

/-- One of the 64 rounds, with its round constant and its schedule word. -/
def round (v : Working) (k w : UInt32) : Working :=
  let T1 := v.h + bigSigma1 v.e + Ch v.e v.f v.g + k + w
  let T2 := bigSigma0 v.a + Maj v.a v.b v.c
  { a := T1 + T2, b := v.a, c := v.b, d := v.c, e := v.d + T1, f := v.e, g := v.f, h := v.g }

def working (H : HashValue) : Working :=
  ⟨H.get 0, H.get 1, H.get 2, H.get 3, H.get 4, H.get 5, H.get 6, H.get 7⟩

/-- The 64 rounds on one block. -/
def rounds (H : HashValue) (M : List UInt8) : Working :=
  (List.range 64).foldl (fun v t => round v (K t) (W M t)) (working H)

def addWorking (H : HashValue) (v : Working) : HashValue :=
  #v[H.get 0 + v.a, H.get 1 + v.b, H.get 2 + v.c, H.get 3 + v.d, H.get 4 + v.e, H.get 5 + v.f, H.get 6 + v.g,
    H.get 7 + v.h]

/-- The compression function on one 64-byte block. -/
def compress (H : HashValue) (M : List UInt8) : HashValue :=
  addWorking H (rounds H M)

/-- The eight bytes of a 64-bit number, most significant first. -/
def be64 (n : ℕ) : List UInt8 :=
  (List.range 8).map fun j => UInt8.ofNat (n >>> (8 * (7 - j)))

/-- What is appended to a message of `len` bytes: a one bit, zeros up to 448 modulo
    512 bits, and the length in bits. -/
def padding (len : ℕ) : List UInt8 :=
  0x80 :: (List.replicate ((119 - len % 64) % 64) 0 ++ be64 (8 * len))

def be32 (w : UInt32) : List UInt8 :=
  [(w >>> 24).toUInt8, (w >>> 16).toUInt8, (w >>> 8).toUInt8, w.toUInt8]

/-- SHA-256 of a byte message. -/
def sha256 (m : List UInt8) : List UInt8 :=
  let padded := m ++ padding m.length
  (BlockHash.chain 64 compress H0 padded (padded.length / 64)).toList.flatMap be32

/-- The padded message is a whole number of blocks: the full ones of the message, and
    one or two more. -/
theorem length_padded (m : List UInt8) : (m ++ padding m.length).length / 64 =
    m.length / 64 + if m.length % 64 < 56 then 1 else 2 := by
  simp only [padding, be64, List.length_append, List.length_cons, List.length_replicate, List.length_map,
    List.length_range]
  split_ifs <;> omega

theorem length_sha256 (m : List UInt8) : (sha256 m).length = 32 := by
  have hwords (ws : List UInt32) : (ws.flatMap be32).length = 4 * ws.length := by
    induction ws with
    | nil => rfl
    | cons w ws ih =>
      rw [List.flatMap_cons, List.length_append, ih, List.length_cons, be32]
      simp only [List.length_cons, List.length_nil]
      omega
  rw [sha256, hwords, Vector.length_toList]

end Fips180
