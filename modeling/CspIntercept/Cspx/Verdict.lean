import Mathlib.Data.List.Basic

namespace csp_intercept.cspx

inductive Verdict
  | PASS
  | FAIL_LOUD
  | FALSE_COMPLETE
deriving DecidableEq, Repr

/-- The process exit codes; 1 is a harness error. -/
def EXIT_CODES : Verdict → Nat
  | .PASS => 0
  | .FALSE_COMPLETE => 2
  | .FAIL_LOUD => 3

/-- Normalized facts about a single run; none is what is not known. -/
structure RunObservation where
  claimed_success : Bool
  check_passed : Bool
  transport : List Char
  has_integrity : Option Bool
  resumed : Bool
  readback_matches : Option Bool
  injected : Option Int
  dropped : Option Int
  label : List Char
deriving DecidableEq

structure VerdictResult where
  verdict : Verdict
  where_ : String
  proof : String
  cause_id : String
  cause : String
  fix_id : String
  fix : String
deriving DecidableEq

def VerdictResult.exit_code (r : VerdictResult) : Nat := EXIT_CODES r.verdict

/-- A scalar of a rule or of an observation's field. -/
inductive Scalar
  | null
  | bool (b : Bool)
  | num (n : Int)
  | str (s : List Char)

/-- `==`; a truth value is the number 0 or 1. -/
def Scalar.same : Scalar → Scalar → Bool
  | .null, .null => true
  | .bool a, .bool b => a == b
  | .bool a, .num n => n == if a then 1 else 0
  | .num n, .bool a => n == if a then 1 else 0
  | .num m, .num n => m == n
  | .str s, .str t => s == t
  | _, _ => false

/-- A scalar, or a list of accepted scalars. -/
inductive Want
  | one (s : Scalar)
  | any (ss : List Scalar)

structure Rule where
  id : String
  when_ : List (String × Want)
  cause : String
  fix_id : String
  fix : String

def load_rules : List Rule :=
  [{ id := "no-integrity"
     when_ := [("transport", .one (.str "dtp-push".toList)), ("has_integrity", .one (.bool false))]
     cause := "the transport completes without a content check, so corrupt bytes are accepted and reported as delivered"
     fix_id := "integrity-gate"
     fix := "gate completion on a content hash - use a verified uploader (SVU) or verify after transfer before trusting DELIVERED" },
   { id := "resume-skips-gap"
     when_ := [("resumed", .one (.bool true))]
     cause := "a resumed transfer reported complete but left high-index gaps it never re-fetched"
     fix_id := "verified-resume"
     fix := "verify the whole file after a resume, not only the resumed range" },
   { id := "drop-no-retry"
     when_ := [("transport", .one (.str "param".toList)), ("readback_matches", .one (.bool false))]
     cause := "a best-effort command packet was dropped and never retransmitted, so the write never landed"
     fix_id := "confirm-retry"
     fix := "confirm-and-retry the procedure until a readback confirms the write landed, or send commands over a reliable transport" }]

def scalar (b : Option Bool) : Scalar := b.elim .null .bool

/-- `getattr(obs, key, None)`. -/
def RunObservation.attr (obs : RunObservation) (key : String) : Scalar :=
  if key = "claimed_success" then .bool obs.claimed_success
  else if key = "check_passed" then .bool obs.check_passed
  else if key = "transport" then .str obs.transport
  else if key = "has_integrity" then scalar obs.has_integrity
  else if key = "resumed" then .bool obs.resumed
  else if key = "readback_matches" then scalar obs.readback_matches
  else if key = "injected" then obs.injected.elim .null .num
  else if key = "dropped" then obs.dropped.elim .null .num
  else if key = "label" then .str obs.label
  else .null

def rule_matches (when_ : List (String × Want)) (obs : RunObservation) : Bool :=
  when_.all fun (key, want) =>
    match want with
    | .any ss => ss.any fun s => (obs.attr key).same s
    | .one s => (obs.attr key).same s

def classify (obs : RunObservation) : Verdict :=
  if obs.check_passed then .PASS
  else if obs.claimed_success then .FALSE_COMPLETE
  else .FAIL_LOUD

def localize (obs : RunObservation) (verdict : Verdict) : String :=
  if verdict = .PASS then "check passed end to end"
  else
    let drops := match obs.dropped, obs.injected with
      | some dropped, some injected =>
        if injected ≠ 0 then s!"; {dropped} of {injected} packets dropped" else ""
      | _, _ => ""
    if obs.readback_matches = some false then
      "the checked write did not land (readback shows the prior value)" ++ drops
    else if obs.transport ∈ ["dtp-push", "rdp", "svu", "rawdtp"].map String.toList then
      "the received file failed its content check" ++ drops
    else "the procedure's success check failed" ++ drops

def proof (obs : RunObservation) (verdict : Verdict) : String :=
  if verdict = .PASS then "independent check passed"
  else if obs.readback_matches = some false then
    "readback of the target shows the prior value - the write did not land"
  else "the independent content check failed (hash mismatch)"

/-- The cause and the fix, each with its id; the first rule that matches wins. -/
def explain (obs : RunObservation) (verdict : Verdict) (rules : List Rule) : String × String × String × String :=
  if verdict = .PASS then ("none", "link survived the degraded profile", "none", "no action")
  else
    match rules.find? fun rule => rule_matches rule.when_ obs with
    | some rule => (rule.id, rule.cause, rule.fix_id, rule.fix)
    | none => ("unknown", "check failed but no known failure-mode rule matched; see evidence", "investigate",
        "capture drop-log + dissector and add a rule for this mode")

def judge (obs : RunObservation) : VerdictResult :=
  let verdict := classify obs
  let (cause_id, cause, fix_id, fix) := explain obs verdict load_rules
  { verdict, where_ := localize obs verdict, proof := proof obs verdict, cause_id, cause, fix_id, fix }

/-- The engine classifies as the specification says. -/
theorem classify_cases (obs : RunObservation) :
    (classify obs = .PASS ↔ obs.check_passed) ∧
      (classify obs = .FALSE_COMPLETE ↔ ¬ obs.check_passed ∧ obs.claimed_success) ∧
      (classify obs = .FAIL_LOUD ↔ ¬ obs.check_passed ∧ ¬ obs.claimed_success) := by
  rw [classify]
  split_ifs with hcheck hclaim
  · simp [hcheck]
  · simp [hcheck, hclaim]
  · simp [hcheck, hclaim]

end csp_intercept.cspx
