import CspIntercept.Cspx.Verdict
import CspIntercept.Scripts.Rows

open csp_intercept.csv csp_intercept.csp_verify

namespace csp_intercept.cspx

/-- Tokens that report success, and that report failure. -/
def CLAIM_SUCCESS : List (List Char) :=
  ["delivered", "verified", "complete", "completed", "success", "ok", "yes"].map String.toList
def CLAIM_FAIL : List (List Char) :=
  ["failed", "fail", "timeout", "aborted", "abort", "error", "no"].map String.toList

/-- Transports that complete without a content check. -/
def NO_INTEGRITY : List (List Char) := ["dtp-push", "rawdtp", "dtp", "csp", "csp_sw"].map String.toList

/-- None is a `ValueError`. -/
def truthy_success (token : List Char) : Option Bool :=
  let t := lower (strip token)
  if CLAIM_SUCCESS.contains t then some true else if CLAIM_FAIL.contains t then some false else none

/-- The value of the first of the columns that is there and not the empty text. -/
def first (row : Row) : List String → Option (List Char)
  | [] => none
  | n :: names =>
    match row.column n with
    | none => first row names
    | some value => if value ≠ some [] then value else first row names

def int_or_none (v : Option (List Char)) : Option Int :=
  match v with
  | none => none
  | some s => if s.isEmpty then none else int s

/-- The transport of a row, as far as its columns tell. -/
def row_arm (row : Row) (label : List Char) : List Char :=
  let arm := lower (strip ((first row ["arm"]).getD []))
  if arm.isEmpty then
    if (row.column "client_reported_success").isSome ∨ "csp_sw".toList.isPrefixOf label then "dtp-push".toList
    else if (row.column "crc").isSome then "rdp".toList
    else if (row.column "rounds").isSome then "svu".toList
    else arm
  else arm

/-- One capture row as an observation; none is a `ValueError`. -/
def normalize_row (row : Row) : Option RunObservation :=
  match first row ["client_reported_success", "claimed", "result", "status"] with
  | none => none
  | some claim_tok =>
    match truthy_success claim_tok with
    | none => none
    | some claimed_success =>
      match first row ["matches_original", "sha256_verdict", "sha", "sha256"] with
      | none => none
      | some check_tok =>
        let t := lower (strip check_tok)
        let label := (first row ["label"]).getD []
        let arm := row_arm row label
        let transport := if arm.isEmpty then "unknown".toList else arm
        let passes := int_or_none (first row ["passes", "rounds"])
        some
          { claimed_success
            check_passed := (["match", "yes", "ok", "pass"].map String.toList).contains t
            transport := if NO_INTEGRITY.contains transport then "dtp-push".toList else transport
            has_integrity :=
              if NO_INTEGRITY.contains transport then some false
              else if (["rdp", "svu"].map String.toList).contains transport then some true
              else none
            resumed := passes.any fun n => n > 1
            readback_matches := none
            injected := int_or_none (first row ["injected", "total_injected"])
            dropped := int_or_none (first row ["dropped", "total_dropped"])
            label }

/-- The rows of a capture file, comments aside. -/
def observations_from_csv (capture : List Row) : Option (List RunObservation) := capture.mapM normalize_row

end csp_intercept.cspx
