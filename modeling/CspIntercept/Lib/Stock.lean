import CspIntercept.Lib.Transducer
import Mathlib.Data.List.Perm.Basic

namespace Transducer

variable {σ ι ω α : Type*} {step : σ → ι → σ × ω} {s : σ}

/-- The conservation rule: when every step lets things into a stock and out of it and keeps the
    balance, what a run starts with and takes in is what it gives out and ends with. -/
theorem run_conserves (Inv : σ → Prop) (stock : σ → List α) (inflow outflow : ω → List α)
    (hinv : ∀ s i, Inv s → Inv (step s i).1)
    (hstep : ∀ s i, Inv s → (stock s ++ inflow (step s i).2).Perm
      (outflow (step s i).2 ++ stock (step s i).1)) (hs : Inv s) (is : List ι) :
    (stock s ++ (run step s is).2.flatMap inflow).Perm
      ((run step s is).2.flatMap outflow ++ stock (run step s is).1) := by
  induction is generalizing s with
  | nil => simp
  | cons i is ih =>
    rw [run_cons_outputs, run_cons_state, List.flatMap_cons, List.flatMap_cons, ← List.append_assoc,
      List.append_assoc (outflow _)]
    refine ((hstep s i hs).append_right _).trans ?_
    rw [List.append_assoc]
    exact (ih (hinv s i hs)).append_left _

/-- The queue rule: when a step from a state that is ready for its input takes from the front of a stock
    what it lets in at the back, a run whose steps are all ready gives things out in the order it took
    them in. -/
theorem run_queues (Inv : σ → Prop) (stock : σ → List α) (inflow outflow : ω → List α)
    (Ready : σ → ι → Prop) (hinv : ∀ s i, Inv s → Inv (step s i).1)
    (hstep : ∀ s i, Inv s → Ready s i →
      stock s ++ inflow (step s i).2 = outflow (step s i).2 ++ stock (step s i).1) (hs : Inv s) {is : List ι}
    (hready : ∀ n (hn : n < is.length), Ready (run step s (is.take n)).1 is[n]) :
    stock s ++ (run step s is).2.flatMap inflow =
      (run step s is).2.flatMap outflow ++ stock (run step s is).1 := by
  induction is generalizing s with
  | nil => simp
  | cons i is ih =>
    have hhead := hstep s i hs (hready 0 (Nat.zero_lt_succ _))
    have htail := ih (hinv s i hs) fun n hn => by
      have hnext := hready (n + 1) (Nat.succ_lt_succ hn)
      rwa [List.take_succ_cons, run_cons_state] at hnext
    rw [run_cons_outputs, run_cons_state, List.flatMap_cons, ← List.append_assoc, hhead, List.append_assoc,
      htail, List.flatMap_cons, List.append_assoc]

/-- The tally rule: a quantity that a step raises by one exactly for a selected answer counts the
    selected answers of a run. -/
theorem run_tally (Inv : σ → Prop) (count : σ → Nat) (sel : ω → Bool)
    (hinv : ∀ s i, Inv s → Inv (step s i).1)
    (hstep : ∀ s i, Inv s → count (step s i).1 = count s + if sel (step s i).2 then 1 else 0) (hs : Inv s)
    (is : List ι) : count (run step s is).1 = count s + (run step s is).2.countP sel := by
  induction is generalizing s with
  | nil => rfl
  | cons i is ih =>
    rw [run_cons_state, run_cons_outputs, ih (hinv s i hs), hstep s i hs, List.countP_cons]
    omega

/-- The progress rule: when a selected input brings a run nearer to its goal and no other one
    takes it further away, more selected inputs than the distance reach the goal. -/
theorem run_reaches (Inv : σ → Prop) (sel : ι → Bool) (goal : ω → Prop) (distance : σ → Nat) {is : List ι}
    (hstep : ∀ s, ∀ i ∈ is, Inv s → goal (step s i).2 ∨ Inv (step s i).1 ∧
      distance (step s i).1 + (if sel i then 1 else 0) ≤ distance s) (hs : Inv s)
    (henough : distance s < is.countP sel) : ∃ o ∈ (run step s is).2, goal o := by
  induction is generalizing s with
  | nil => simp at henough
  | cons i is ih =>
    rcases hstep s i (.head is) hs with hgoal | ⟨hinv, hnear⟩
    · exact ⟨(step s i).2, .head _, hgoal⟩
    · rw [List.countP_cons] at henough
      obtain ⟨o, ho, hgoal⟩ := ih (fun s' j hj => hstep s' j (.tail i hj)) hinv (by omega)
      exact ⟨o, .tail _ ho, hgoal⟩

end Transducer
