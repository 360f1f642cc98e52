import CspIntercept.Scripts.Rows
import Mathlib.Algebra.Order.Field.Rat
import Mathlib.Data.List.ReduceOption

open csp_intercept.csv csp_intercept.csp_verify

namespace csp_intercept.satguard

/-- A float, as far as it is compared with 0: a finite one is kept as it was written. -/
inductive Float
  | finite (q : ℚ)
  | infinity (negative : Bool)
  | nan

def Float.is_zero : Float → Bool
  | .finite q => q = 0
  | _ => false

def signed (s : List Char) : Bool × List Char :=
  match s with
  | [] => (false, [])
  | c :: cs => if c = '-' then (true, cs) else if c = '+' then (false, cs) else (false, c :: cs)

/-- Digits, or nothing at all. -/
def digits (s : List Char) : Option (List Nat) := if s.isEmpty then some [] else int_digits s

/-- The exponent behind an `e`. -/
def exponent (s : List Char) : Option Int :=
  match s with
  | [] => some 0
  | _ :: cs =>
    (int_digits (signed cs).2).map fun ds =>
      let e : Int := ds.foldl (fun n d => 10 * n + d) 0
      if (signed cs).1 then -e else e

/-- `float(s)`; none is a `ValueError`. What lies within half of the smallest positive float of
    0 is rounded to it. -/
def float (s : List Char) : Option Float :=
  let (negative, body) := signed (strip s)
  if (["inf", "infinity"].map String.toList).contains (lower body) then some (.infinity negative)
  else if lower body = "nan".toList then some .nan
  else
    let is_e (c : Char) : Bool := c == 'e' || c == 'E'
    let mantissa := body.takeWhile fun c => !is_e c
    let whole := mantissa.takeWhile fun c => c != '.'
    let frac := (mantissa.dropWhile fun c => c != '.').drop 1
    match digits whole, digits frac, exponent (body.dropWhile fun c => !is_e c) with
    | some ws, some fs, some e =>
      if (ws ++ fs).isEmpty then none
      else
        let n : Nat := (ws ++ fs).foldl (fun n d => 10 * n + d) 0
        let q : ℚ := n * 10 ^ (e - fs.length)
        some (.finite (if q ≤ 1 / 2 ^ 1075 then 0 else if negative then -q else q))
    | _, _, _ => none

def f (v : Option (List Char)) : Option Float := float (strip (str v))

/-- `str(r.get(name)).strip()`. -/
def token (r : Row) (name : String) : List Char := strip (str (r.get name))

/-- `_f(r.get("loss")) not in (None, 0)`, and `_f(r.get("loss")) == 0`. -/
def lossy (r : Row) : Bool := (f (r.get "loss")).any fun x => !x.is_zero
def clean (r : Row) : Bool := (f (r.get "loss")).any fun x => x.is_zero

def has (r : Row) (name value : String) : Bool := token r name == value.toList

/-- The verdict on a mechanism. -/
structure Verdict where
  name : String
  vulnerable : Bool
  headline : String
  rate : Option ℚ
  control : String
  detail : String

def ratio (n total : Nat) : ℚ := if total = 0 then 0 else (n : ℚ) / total

/-- A file that does not exist and one without rows give no verdict. -/
def verdict_deployed (file : Option (List Row)) : Option Verdict :=
  let rows := file.getD []
  if rows.isEmpty then none
  else
    let lossy_rows := rows.filter lossy
    let clean_rows := rows.filter clean
    let silent := lossy_rows.filter fun r => has r "corrupt_but_accepted" "yes"
    let correct := clean_rows.filter fun r => has r "matches_original" "yes"
    let (n_silent, n_lossy, n_correct, n_clean) :=
      (silent.length, lossy_rows.length, correct.length, clean_rows.length)
    some
      { name := "Deployed upload client (fire-and-forget)"
        vulnerable := n_silent > 0
        headline := s!"{n_silent}/{n_lossy} lossy uploads delivered a corrupt file accepted as success"
        rate := some (ratio n_silent n_lossy)
        control := s!"Clean control: {n_correct}/{n_clean} zero-loss uploads correct"
        detail := "Reports 'File uploaded.' on every transfer. No end-to-end integrity check; " ++
          "dropped fragments remain as zero-holes in a right-size file." }

def verdict_rawdtp (file : Option (List Row)) : Option Verdict :=
  let rows := file.getD []
  if rows.isEmpty then none
  else
    let ok := rows.filter fun r => has r "status" "ok"
    let lossy_rows := ok.filter lossy
    let clean_rows := ok.filter clean
    let false_c := lossy_rows.filter fun r => has r "result" "DELIVERED" && has r "sha256_verdict" "MISMATCH"
    let verified := clean_rows.filter fun r => has r "sha256_verdict" "MATCH"
    let (n_false, n_lossy, n_verified, n_clean) :=
      (false_c.length, lossy_rows.length, verified.length, clean_rows.length)
    some
      { name := "Raw DTP resume (libdtp native)"
        vulnerable := n_false > 0
        headline := s!"{n_false}/{n_lossy} lossy transfers reported DELIVERED but failed checksum"
        rate := some (ratio n_false n_lossy)
        control := s!"Clean control: {n_verified}/{n_clean} zero-loss transfers verified"
        detail := "On resume the session total is set from an uninitialised field, truncating the " ++
          "session and abandoning high-index gaps, then declaring Missing=0." }

/-- The rows of an arm that ended well. -/
def arm_rows (rows : List Row) (arm : String) : List Row :=
  rows.filter fun r => has r "arm" arm && has r "status" "ok"

def done (r : Row) : Bool := (["DEPLOYED", "DELIVERED", "VERIFIED"].map String.toList).contains (token r "result")

/-- The remedy: its verdict does not depend on its rows. -/
def verdict_smart (rows : List Row) : Option Verdict :=
  let a := arm_rows rows "smart"
  if a.isEmpty then none
  else
    let lossy_rows := a.filter lossy
    let (n_done, n_lossy) := ((lossy_rows.filter done).length, lossy_rows.length)
    some
      { name := "satDeploy-smart (sha256 verify + retry)  — the remedy"
        vulnerable := false
        headline := s!"completes under loss with end-to-end verification ({n_done}/{n_lossy} lossy runs delivered)"
        rate := some 0
        control := "Verified-retry turns reported completion into verified completion."
        detail := "Uses the same libdtp resume that false-completes above, but a SHA-256 check " ++
          "catches the lie and re-requests until the file matches." }

/-- The control arm: vulnerable is what does not complete. -/
def verdict_naive (rows : List Row) : Option Verdict :=
  let a := arm_rows rows "naive"
  if a.isEmpty then none
  else
    let lossy_rows := a.filter lossy
    let (n_incomplete, n_lossy) := ((lossy_rows.filter fun r => !done r).length, lossy_rows.length)
    some
      { name := "satDeploy-naive (recovery off)  — control"
        vulnerable := n_incomplete > 0
        headline := s!"{n_incomplete}/{n_lossy} lossy runs never complete (recovery disabled)"
        rate := none
        control := "Control arm: shows what 'no recovery' costs."
        detail := "Recovery off. Re-pushes the whole file, never fills gaps." }

def verdict_satdeploy (file : Option (List Row)) : List Verdict :=
  let rows := file.getD []
  if rows.isEmpty then [] else [verdict_smart rows, verdict_naive rows].reduceOption

/-- The captures directory; none is a file that is not there. -/
structure Captures where
  rq3_corruption : Option (List Row)
  rawdtp_sweep : Option (List Row)
  satdeploy_sweep : Option (List Row)

def gather (captures : Captures) : List Verdict :=
  [verdict_deployed captures.rq3_corruption, verdict_rawdtp captures.rawdtp_sweep].reduceOption ++
    verdict_satdeploy captures.satdeploy_sweep

/-- What a mechanism is reported as; the report's VERIFIED is the summary's OK. -/
inductive Tag
  | VULNERABLE
  | OK
deriving DecidableEq

inductive Overall
  | VULNERABLE (vuln total : Nat)
  | PASS
deriving DecidableEq

def print_summary (verdicts : List Verdict) : List (Tag × Verdict) × Overall :=
  let vuln := verdicts.filter fun v => v.vulnerable
  (verdicts.map fun v => (if v.vulnerable then .VULNERABLE else .OK, v),
    if vuln.isEmpty then .PASS else .VULNERABLE vuln.length verdicts.length)

/-- The audit of a captures directory; none where it ends for want of evidence. -/
def audit (captures : Captures) : Option (List (Tag × Verdict) × Overall) :=
  if (gather captures).isEmpty then none else some (print_summary (gather captures))

end csp_intercept.satguard
