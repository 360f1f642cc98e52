import CspIntercept.Hash.CiSha256
import CspIntercept.Lib.Overlay

open csp_intercept.ci_sha256

namespace csp_intercept.ci_svu

abbrev CI_SVU_HASH_LEN : ℕ := 32

inductive CiSvuStatus
  | INCOMPLETE
  | COMPLETE_VERIFIED
  | CORRUPT
deriving DecidableEq, Repr

structure CiSvuInterval where
  start : UInt32
  end_ : UInt32
deriving DecidableEq, Repr

/-- The receiver: a reassembly buffer, one coverage flag for each of its bytes, and
    the sender's digests. -/
structure CiSvu where
  total : UInt32
  block : UInt32
  nblocks : UInt32
  covered_count : UInt32
  data : List UInt8
  covered : List Bool
  expected : List UInt8

def ci_svu_nblocks (total_size block_size : UInt32) : UInt32 :=
  if total_size = 0 ∨ block_size = 0 then 0
  else (total_size + block_size - 1) / block_size

/-- A hash context on the stack, before it is initialised: some values or other. -/
def stack_ctx : CiSha256 where
  state := Vector.replicate 8 0
  bitlen := 0
  buf := Vector.replicate 64 0
  buflen := Fin.last 63

def hash_block (src : List UInt8) (total block : UInt32) (b : Nat) : List UInt8 :=
  let start := b * block.toNat
  let end_ := if start + block.toNat > total.toNat then total.toNat else start + block.toNat
  ci_sha256_final (ci_sha256_update (ci_sha256_init stack_ctx) ((src.drop start).take (end_ - start)))

/-- The number of blocks and their digests, one after the other. -/
def ci_svu_manifest (src : List UInt8) (total_size block_size : UInt32) : UInt32 × List UInt8 :=
  let nblk := ci_svu_nblocks total_size block_size
  (nblk, (List.range nblk.toNat).flatMap fun b => hash_block src total_size block_size b)

/-- A fresh receiver, or none for a bad size; memory is taken to be available. -/
def ci_svu_new (total_size block_size : UInt32) (expected : List UInt8) (nblocks : UInt32) :
    Option CiSvu :=
  let nblk := ci_svu_nblocks total_size block_size
  if nblk = 0 ∨ nblk ≠ nblocks then none
  else some {
    total := total_size
    block := block_size
    nblocks := nblk
    covered_count := 0
    data := List.replicate total_size.toNat 0
    covered := List.replicate total_size.toNat false
    expected := expected.take (nblk.toNat * CI_SVU_HASH_LEN) }

/-- The coverage loop over the next `n` bytes from `i` on. -/
def cover_loop (covered : List Bool) (covered_count : UInt32) (i : Nat) : Nat → List Bool × UInt32
  | 0 => (covered, covered_count)
  | n + 1 =>
    if covered[i]? = some false then cover_loop (covered.set i true) (covered_count + 1) (i + 1) n
    else cover_loop covered covered_count (i + 1) n

/-- Deliver a fragment; 0 when it was taken and -1 when it runs past the payload. -/
def ci_svu_accept (s : CiSvu) (offset : UInt32) (buf : List UInt8) : CiSvu × Int :=
  let end_ := (offset.toNat + buf.length) % 2 ^ 64
  if end_ > s.total.toNat then (s, -1)
  else
    let cover := cover_loop s.covered s.covered_count offset.toNat (end_ - offset.toNat)
    let data := if buf.length > 0 then Overlay.store s.data ⟨offset.toNat, buf⟩ else s.data
    ({ s with covered := cover.1, covered_count := cover.2, data }, 0)

def ci_svu_covered (s : CiSvu) : UInt32 := s.covered_count

def ci_svu_data (s : CiSvu) : List UInt8 := s.data

/-- Write an interval if there is room; always count it. -/
def push_interval (max : Nat) (acc : List CiSvuInterval × Nat) (start end_ : Nat) :
    List CiSvuInterval × Nat :=
  let out := if acc.2 < max then acc.1.set acc.2 ⟨UInt32.ofNat start, UInt32.ofNat end_⟩ else acc.1
  (out, acc.2 + 1)

/-- The inner loop of the hole scan: where the uncovered run that reaches `run` ends. -/
def run_end (covered : List Bool) (total : Nat) : Nat → Nat → Nat
  | 0, run => run
  | n + 1, run => if run < total ∧ covered[run]? = some false then run_end covered total n (run + 1) else run

/-- The outer loop of the hole scan; each turn moves `i` on, so `total` turns are enough. -/
def scan_holes (covered : List Bool) (total max : Nat) :
    Nat → Nat → List CiSvuInterval × Nat → List CiSvuInterval × Nat
  | 0, _, acc => acc
  | n + 1, i, acc =>
    if i < total then
      if covered[i]? = some false then
        let run := run_end covered total (total - i) i
        scan_holes covered total max n run (push_interval max acc i run)
      else scan_holes covered total max n (i + 1) acc
    else acc

/-- The expected digest of block `b`. -/
def digest (expected : List UInt8) (b : Nat) : List UInt8 :=
  (expected.drop (b * CI_SVU_HASH_LEN)).take CI_SVU_HASH_LEN

/-- One turn of the block loop. -/
def check_block (s : CiSvu) (max : Nat) (acc : CiSvuStatus × List CiSvuInterval × Nat) (b : Nat) :
    CiSvuStatus × List CiSvuInterval × Nat :=
  if hash_block s.data s.total s.block b ≠ digest s.expected b then
    let start := b * s.block.toNat
    let end_ := if start + s.block.toNat > s.total.toNat then s.total.toNat else start + s.block.toNat
    (.CORRUPT, push_interval max acc.2 start end_)
  else acc

/-- The verdict, the caller's interval array after it, and the number of intervals
    found. `out = NULL` is a `max` of 0. -/
def ci_svu_verify (s : CiSvu) (out : List CiSvuInterval) (max : Nat) :
    CiSvuStatus × List CiSvuInterval × Nat :=
  if s.covered_count < s.total then
    (.INCOMPLETE, scan_holes s.covered s.total.toNat max s.total.toNat 0 (out, 0))
  else
    (List.range s.nblocks.toNat).foldl (check_block s max) (.COMPLETE_VERIFIED, out, 0)

end csp_intercept.ci_svu
