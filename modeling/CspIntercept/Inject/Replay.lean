import CspIntercept.Inject.Accounting

open csp_intercept.ci_rule csp_intercept.ci_ge

namespace csp_intercept.ci_drop_iface

/-- Whether the packet of a call was freed by the shim. -/
def freed (call : NexthopCall × NexthopResult) : Bool := call.2 == call.1.free

theorem freed_delegate (c : NexthopCall) : freed (c, c.delegate) = false := by
  simp [freed, delegate_ne_free]

@[simp] theorem freed_ite (c : NexthopCall) (drop : Bool) :
    freed (c, if drop then c.free else c.delegate) = drop := by
  cases drop with
  | false => exact freed_delegate c
  | true => simp [freed]

/-- In per-attempt mode the in-scope frames of a run consume one decision of the
    chain each, whatever lies between them and whatever they carry. -/
theorem scopedResults_freed_eq_decisions {s : CiDropIface} (hmode : s.per_attempt = true)
    (calls : List NexthopCall) :
    (scopedResults s.rule calls (shimRun s calls).2).map freed =
      ci_ge_decisions s.ge (scopedResults s.rule calls (shimRun s calls).2).length := by
  induction calls generalizing s with
  | nil => rfl
  | cons c calls ih =>
    obtain ⟨hrule, hattempt, -⟩ := nexthop_frame s c
    have hrest := ih (hattempt.trans hmode)
    rw [hrule] at hrest
    simp only [shimRun, scopedResults, Transducer.run_cons_outputs, List.zip_cons_cons] at hrest ⊢
    cases hscope : inScope s.rule c with
    | false =>
      rw [List.filter_cons_of_neg (by simp [hscope]), hrest]
      rw [nexthop_of_out_of_scope hscope]
    | true =>
      rw [List.filter_cons_of_pos (by simpa using hscope), List.map_cons, List.length_cons,
        ci_ge_decisions_succ, hrest]
      rw [nexthop_of_in_scope hscope]
      simp only [freed_ite, decideFrame, hmode, if_true]

/-- Once per-attempt mode is on, the `k`-th in-scope frame is dropped exactly when
    entry `k` of the drop vector of the seed says so, for every vector that reaches
    it; and the stepped chain itself is that vector. -/
theorem per_attempt_replays_fill (s : CiDropIface) (p_g2b p_b2g : ℚ) (calls : List NexthopCall) :
    (∀ k n call, k < n →
      (scopedResults s.rule calls (shimRun (ci_drop_iface_enable_ge s p_g2b p_b2g) calls).2)[k]? =
        some call →
      (freed call = true ↔ (ci_ge_fill s.rule.seed p_g2b p_b2g n)[k]? = some 1)) ∧
    ∀ n, (ci_ge_decisions (ci_ge_state_init s.rule.seed p_g2b p_b2g) n).map dropByte =
      ci_ge_fill s.rule.seed p_g2b p_b2g n := by
  refine ⟨?_, ci_ge_decisions_eq_fill s.rule.seed p_g2b p_b2g⟩
  intro k n call hk hcall
  have hchain := scopedResults_freed_eq_decisions
    (s := ci_drop_iface_enable_ge s p_g2b p_b2g) rfl calls
  change (scopedResults s.rule calls _).map freed = ci_ge_decisions
    (ci_ge_state_init s.rule.seed p_g2b p_b2g) (scopedResults s.rule calls _).length at hchain
  generalize scopedResults s.rule calls (shimRun (ci_drop_iface_enable_ge s p_g2b p_b2g) calls).2 =
    sent at hchain hcall
  have hlt := (List.getElem?_eq_some_iff.mp hcall).1
  have hdecided : (ci_ge_decisions (ci_ge_state_init s.rule.seed p_g2b p_b2g) sent.length)[k]? =
      some (freed call) := by
    rw [← hchain, List.getElem?_map, hcall]
    rfl
  have hentry : (ci_ge_decisions (ci_ge_state_init s.rule.seed p_g2b p_b2g) n)[k]? =
      some (freed call) := by
    obtain ⟨later, hlater⟩ :=
      ci_ge_decisions_add (ci_ge_state_init s.rule.seed p_g2b p_b2g) sent.length n
    obtain ⟨more, hmore⟩ :=
      ci_ge_decisions_add (ci_ge_state_init s.rule.seed p_g2b p_b2g) n sent.length
    rw [Nat.add_comm, hlater] at hmore
    have hsame := congrArg (·[k]?) hmore
    simp only [List.getElem?_append_left (show k < (ci_ge_decisions _ sent.length).length by simpa),
      List.getElem?_append_left (show k < (ci_ge_decisions _ n).length by simpa)] at hsame
    exact hsame.symm.trans hdecided
  rw [← ci_ge_decisions_eq_fill, List.getElem?_map, hentry]
  cases freed call <;> simp [dropByte]

end csp_intercept.ci_drop_iface
