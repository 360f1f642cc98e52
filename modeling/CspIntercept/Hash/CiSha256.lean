import CspIntercept.Lib.Fips180

namespace csp_intercept.ci_sha256

def K : List UInt32 :=
  [0x428a2f98, 0x71374491, 0xb5c0fbcf, 0xe9b5dba5, 0x3956c25b, 0x59f111f1,
   0x923f82a4, 0xab1c5ed5, 0xd807aa98, 0x12835b01, 0x243185be, 0x550c7dc3,
   0x72be5d74, 0x80deb1fe, 0x9bdc06a7, 0xc19bf174, 0xe49b69c1, 0xefbe4786,
   0x0fc19dc6, 0x240ca1cc, 0x2de92c6f, 0x4a7484aa, 0x5cb0a9dc, 0x76f988da,
   0x983e5152, 0xa831c66d, 0xb00327c8, 0xbf597fc7, 0xc6e00bf3, 0xd5a79147,
   0x06ca6351, 0x14292967, 0x27b70a85, 0x2e1b2138, 0x4d2c6dfc, 0x53380d13,
   0x650a7354, 0x766a0abb, 0x81c2c92e, 0x92722c85, 0xa2bfe8a1, 0xa81a664b,
   0xc24b8b70, 0xc76c51a3, 0xd192e819, 0xd6990624, 0xf40e3585, 0x106aa070,
   0x19a4c116, 0x1e376c08, 0x2748774c, 0x34b0bcb5, 0x391c0cb3, 0x4ed8aa4a,
   0x5b9cca4f, 0x682e6ff3, 0x748f82ee, 0x78a5636f, 0x84c87814, 0x8cc70208,
   0x90befffa, 0xa4506ceb, 0xbef9a3f7, 0xc67178f2]

def ROTR (x : UInt32) (n : UInt32) : UInt32 := (x >>> n) ||| (x <<< (32 - n))
def CH (x y z : UInt32) : UInt32 := (x &&& y) ^^^ (~~~x &&& z)
def MAJ (x y z : UInt32) : UInt32 := (x &&& y) ^^^ (x &&& z) ^^^ (y &&& z)
def EP0 (x : UInt32) : UInt32 := ROTR x 2 ^^^ ROTR x 13 ^^^ ROTR x 22
def EP1 (x : UInt32) : UInt32 := ROTR x 6 ^^^ ROTR x 11 ^^^ ROTR x 25
def SIG0 (x : UInt32) : UInt32 := ROTR x 7 ^^^ ROTR x 18 ^^^ (x >>> 3)
def SIG1 (x : UInt32) : UInt32 := ROTR x 17 ^^^ ROTR x 19 ^^^ (x >>> 10)

/-- The context; a full buffer is transformed at once, so `buflen` stays below 64. -/
structure CiSha256 where
  state : Vector UInt32 8
  bitlen : UInt64
  buf : Vector UInt8 64
  buflen : Fin 64

/-- Word `i` of a block, `p[4i] << 24 | p[4i+1] << 16 | p[4i+2] << 8 | p[4i+3]`. -/
def block_word (p : Vector UInt8 64) (i : Fin 16) : UInt32 :=
  (p[4 * i.val].toUInt32 <<< 24) ||| (p[4 * i.val + 1].toUInt32 <<< 16) |||
    (p[4 * i.val + 2].toUInt32 <<< 8) ||| p[4 * i.val + 3].toUInt32

/-- `m[i] = SIG1(m[i-2]) + m[i-7] + SIG0(m[i-15]) + m[i-16]` for the next `n` words. -/
def expand_words (m : List UInt32) : Nat → List UInt32
  | 0 => m
  | n + 1 =>
    let i := m.length
    expand_words
      (m ++ [SIG1 (m.getD (i - 2) 0) + m.getD (i - 7) 0 + SIG0 (m.getD (i - 15) 0) + m.getD (i - 16) 0]) n

/-- The local variables of the round loop. -/
structure Rounds where
  a : UInt32
  b : UInt32
  cc : UInt32
  d : UInt32
  e : UInt32
  f : UInt32
  g : UInt32
  h : UInt32

def transform_round (m : List UInt32) (v : Rounds) (i : Nat) : Rounds :=
  let t1 := v.h + EP1 v.e + CH v.e v.f v.g + K.getD i 0 + m.getD i 0
  let t2 := EP0 v.a + MAJ v.a v.b v.cc
  { h := v.g, g := v.f, f := v.e, e := v.d + t1, d := v.cc, cc := v.b, b := v.a, a := t1 + t2 }

/-- The round loop over the message words. -/
def transform_rounds (state : Vector UInt32 8) (m : List UInt32) : Rounds :=
  (List.range 64).foldl (transform_round m)
    ⟨state[0], state[1], state[2], state[3], state[4], state[5], state[6], state[7]⟩

/-- `c->state[0] += a; …; c->state[7] += h`. -/
def add_rounds (state : Vector UInt32 8) (v : Rounds) : Vector UInt32 8 :=
  #v[state[0] + v.a, state[1] + v.b, state[2] + v.cc, state[3] + v.d,
    state[4] + v.e, state[5] + v.f, state[6] + v.g, state[7] + v.h]

def ci_sha256_transform (state : Vector UInt32 8) (p : Vector UInt8 64) : Vector UInt32 8 :=
  let m := expand_words ((List.finRange 16).map (block_word p)) 48
  add_rounds state (transform_rounds state m)

/-- Initialise a context; its buffer keeps whatever the memory held. -/
def ci_sha256_init (c : CiSha256) : CiSha256 where
  state := #v[0x6a09e667, 0xbb67ae85, 0x3c6ef372, 0xa54ff53a, 0x510e527f, 0x9b05688c, 0x1f83d9ab, 0x5be0cd19]
  bitlen := 0
  buf := c.buf
  buflen := 0

/-- One byte of `ci_sha256_update`. -/
def update_byte (c : CiSha256) (b : UInt8) : CiSha256 :=
  let buf := c.buf.set c.buflen b
  if hlast : c.buflen.val + 1 = 64 then
    { state := ci_sha256_transform c.state buf, bitlen := c.bitlen + 512, buf, buflen := 0 }
  else
    { c with buf, buflen := ⟨c.buflen.val + 1, by omega⟩ }

def ci_sha256_update (c : CiSha256) (data : List UInt8) : CiSha256 :=
  data.foldl update_byte c

/-- `c->buf[i++] = b` for each byte in turn. -/
def store_bytes (buf : Vector UInt8 64) (i : Nat) : List UInt8 → Vector UInt8 64
  | [] => buf
  | b :: bs => store_bytes (buf.setIfInBounds i b) (i + 1) bs

def ci_sha256_final (c : CiSha256) : List UInt8 :=
  let bitlen := c.bitlen + UInt64.ofNat c.buflen * 8
  let i := c.buflen.val + 1
  let buf := c.buf.set c.buflen 0x80
  let length_bytes := (List.range 8).map fun j => (bitlen >>> UInt64.ofNat ((7 - j) * 8)).toUInt8
  let (state, buf, i) :=
    if i > 56 then
      (ci_sha256_transform c.state (store_bytes buf i (List.replicate (64 - i) 0)),
        store_bytes buf i (List.replicate (64 - i) 0), 0)
    else (c.state, buf, i)
  let buf := store_bytes buf i (List.replicate (56 - i) 0)
  let buf := store_bytes buf 56 length_bytes
  (ci_sha256_transform state buf).toList.flatMap fun w : UInt32 =>
    [(w >>> 24).toUInt8, (w >>> 16).toUInt8, (w >>> 8).toUInt8, w.toUInt8]

end csp_intercept.ci_sha256
