import CspIntercept.Rule.Decide
import CspIntercept.Lib.Transducer

open csp_intercept.ci_prng csp_intercept.ci_rule

namespace csp_intercept.ci_ge

/-- A probability as a splitmix64 threshold; at 1 or more it saturates. -/
def ci_ge_threshold (p : ℚ) : UInt64 :=
  if p ≤ 0 then 0
  else if 1 ≤ p then 0xFFFFFFFFFFFFFFFF
  else ci_threshold p

/-- The body of the index-axis loop from entry `i` on, `n` entries to go. -/
def ci_ge_fill_loop (s t_g2b t_b2g : UInt64) : (n i : Nat) → (bad : Bool) → List UInt8
  | 0, _, _ => []
  | n + 1, i, bad =>
    let d := ci_draw s (UInt64.ofNat i)
    let next := if !bad then (if d < t_g2b then true else bad) else (if d < t_b2g then false else bad)
    (if bad then 1 else 0) :: ci_ge_fill_loop s t_g2b t_b2g n (i + 1) next

/-- The drop vector along the packet index, from the mixed seed and GOOD. -/
def ci_ge_fill (seed : UInt64) (p_g2b p_b2g : ℚ) (n : Nat) : List UInt8 :=
  ci_ge_fill_loop (ci_splitmix64 seed) (ci_ge_threshold p_g2b) (ci_ge_threshold p_b2g) n 0 false

/-- The per-attempt chain: `seed` is the mixed seed, `step` the transmission counter. -/
structure CiGeState where
  seed : UInt64
  step : UInt64
  t_g2b : UInt64
  t_b2g : UInt64
  bad : Bool
deriving DecidableEq, Repr

def ci_ge_state_init (seed : UInt64) (p_g2b p_b2g : ℚ) : CiGeState :=
  { seed := ci_splitmix64 seed
    step := 0
    t_g2b := ci_ge_threshold p_g2b
    t_b2g := ci_ge_threshold p_b2g
    bad := false }

/-- Emit the current state, then transition with one draw on the counter. -/
def ci_ge_state_step (st : CiGeState) : CiGeState × Bool :=
  let drop := st.bad
  let d := ci_draw st.seed st.step
  let st := { st with step := st.step + 1 }
  if !st.bad then
    if d < st.t_g2b then ({ st with bad := true }, drop) else (st, drop)
  else
    if d < st.t_b2g then ({ st with bad := false }, drop) else (st, drop)

/-- The decisions of `n` transmissions. -/
def ci_ge_decisions (st : CiGeState) (n : Nat) : List Bool :=
  (Transducer.run (fun st (_ : Unit) => ci_ge_state_step st) st (List.replicate n ())).2

theorem ci_ge_decisions_succ (st : CiGeState) (n : Nat) :
    ci_ge_decisions st (n + 1) =
      (ci_ge_state_step st).2 :: ci_ge_decisions (ci_ge_state_step st).1 n := rfl

@[simp] theorem length_ci_ge_decisions (st : CiGeState) (n : Nat) :
    (ci_ge_decisions st n).length = n := by
  simp [ci_ge_decisions]

/-- Deciding for longer only adds decisions at the end. -/
theorem ci_ge_decisions_add (st : CiGeState) (n m : Nat) :
    ∃ later, ci_ge_decisions st (n + m) = ci_ge_decisions st n ++ later := by
  rw [ci_ge_decisions, List.replicate_add, Transducer.run_append]
  exact ⟨_, rfl⟩

/-- A decision as the byte of a drop vector. -/
def dropByte (drop : Bool) : UInt8 := if drop then 1 else 0

/-- The two copies of the chain agree from any entry of the index axis on. -/
theorem ci_ge_decisions_eq_fill_loop (st : CiGeState) (n i : Nat) (hstep : st.step = UInt64.ofNat i) :
    (ci_ge_decisions st n).map dropByte =
      ci_ge_fill_loop st.seed st.t_g2b st.t_b2g n i st.bad := by
  induction n generalizing st i with
  | zero => rfl
  | succ n ih =>
    have hnext : UInt64.ofNat i + 1 = UInt64.ofNat (i + 1) := by
      rw [UInt64.ofNat_add]
      rfl
    rw [ci_ge_decisions_succ, List.map_cons, ci_ge_fill_loop]
    cases hbad : st.bad <;>
      simp only [ci_ge_state_step, hbad, hstep, hnext, Bool.not_false, Bool.not_true, if_true,
        Bool.false_eq_true, if_false] <;>
      split <;>
      · rw [ih _ (i + 1) (by rfl)]
        simp [dropByte]

/-- The transmission axis replays the index axis: after initialisation the first
    `n` decisions are the drop vector of length `n`. -/
theorem ci_ge_decisions_eq_fill (seed : UInt64) (p_g2b p_b2g : ℚ) (n : Nat) :
    (ci_ge_decisions (ci_ge_state_init seed p_g2b p_b2g) n).map dropByte =
      ci_ge_fill seed p_g2b p_b2g n :=
  ci_ge_decisions_eq_fill_loop (ci_ge_state_init seed p_g2b p_b2g) n 0 rfl

end csp_intercept.ci_ge
