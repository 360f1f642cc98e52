import CspIntercept.Inject.DropIface

open csp_intercept.ci_rule csp_intercept.ci_dtp csp_intercept.ci_ge

namespace csp_intercept.ci_drop_iface

/-- A finite run of the shim over the frames handed to it. -/
def shimRun (s : CiDropIface) (calls : List NexthopCall) : CiDropIface × List NexthopResult :=
  Transducer.run ci_drop_iface_nexthop s calls

/-- The in-scope calls of a run, each with what became of it. -/
def scopedResults (rule : CiDropRule) (calls : List NexthopCall) (results : List NexthopResult) :
    List (NexthopCall × NexthopResult) :=
  (calls.zip results).filter fun call => inScope rule call.1

/-- Exactly one effect: delegated unmodified with the downstream return code passed
    on, or freed with success reported. -/
def DisposedOnce (c : NexthopCall) (result : NexthopResult) : Prop :=
  result = c.delegate ∨ result = c.free

/-- The row describes the call and says whether its packet was freed. -/
structure LogsCall (call : NexthopCall × NexthopResult) (row : DropLogRow) : Prop where
  t_ms : row.t_ms = call.1.now
  src : row.src = call.1.packet.id.src
  dport : row.dport = call.1.packet.id.dport
  csp_flags : row.csp_flags = call.1.packet.id.flags
  is_rdp : row.is_rdp = call.1.frame.is_rdp
  dropped : row.dropped = true ↔ call.2 = call.1.free

theorem delegate_ne_free (c : NexthopCall) : c.delegate ≠ c.free := by
  simp [NexthopCall.delegate, NexthopCall.free]

/-- Rule, mode and the presence of a log are fixed along a run. -/
structure SameSetup (s t : CiDropIface) : Prop where
  rule : t.rule = s.rule
  per_attempt : t.per_attempt = s.per_attempt
  drop_log : t.drop_log.isSome = s.drop_log.isSome

theorem SameSetup.refl (s : CiDropIface) : SameSetup s s := ⟨rfl, rfl, rfl⟩

theorem SameSetup.nexthop {s t : CiDropIface} (h : SameSetup s t) (c : NexthopCall) :
    SameSetup s (ci_drop_iface_nexthop t c).1 := by
  obtain ⟨hrule, hmode, hlog⟩ := nexthop_frame t c
  exact ⟨hrule.trans h.rule, hmode.trans h.per_attempt, hlog.trans h.drop_log⟩

theorem nexthop_disposedOnce (s : CiDropIface) (c : NexthopCall) :
    DisposedOnce c (ci_drop_iface_nexthop s c).2 := by
  cases hscope : inScope s.rule c with
  | false => exact .inl (by rw [nexthop_of_out_of_scope hscope])
  | true =>
    rw [nexthop_of_in_scope hscope]
    cases (decideFrame s c).2 with
    | false => exact .inl rfl
    | true => exact .inr rfl

theorem nexthop_counts_once (s : CiDropIface) (c : NexthopCall) :
    (ci_drop_iface_nexthop s c).1.passthrough + (ci_drop_iface_nexthop s c).1.forwarded +
        (ci_drop_iface_nexthop s c).1.injected_drops =
      s.passthrough + s.forwarded + s.injected_drops + 1 := by
  cases hscope : inScope s.rule c with
  | false =>
    rw [nexthop_of_out_of_scope hscope]
    dsimp only
    omega
  | true =>
    rw [nexthop_of_in_scope hscope]
    cases (decideFrame s c).2 <;> simp <;> omega

/-- One in-scope step appends the row of its frame; in identity mode the logged
    decision is that of the logged index. -/
theorem nexthop_logs_once {s : CiDropIface} {c : NexthopCall} (hopen : s.drop_log.isSome = true)
    (hscope : inScope s.rule c = true) :
    ∃ row, (ci_drop_iface_nexthop s c).1.drop_log.getD [] = s.drop_log.getD [] ++ [row] ∧
      LogsCall (c, (ci_drop_iface_nexthop s c).2) row ∧
      (s.per_attempt = false → row.dropped = ci_rule_decide s.rule row.index) := by
  obtain ⟨log, hlog⟩ := Option.isSome_iff_exists.mp hopen
  rw [nexthop_of_in_scope hscope]
  refine ⟨logRow s.tracker c (decideFrame s c).2, by simp [hlog], ⟨rfl, rfl, rfl, rfl, rfl, ?_⟩, ?_⟩
  · have hne := delegate_ne_free c
    cases hdrop : (decideFrame s c).2 <;> simp [logRow, hne]
  · intro hmode
    simp [decideFrame, hmode, logRow]

/-- What a run of the shim, in either mode, does with its frames. -/
structure Accounted (s : CiDropIface) (log : List DropLogRow) (calls : List NexthopCall) : Prop where
  disposed : List.Forall₂ DisposedOnce calls (shimRun s calls).2
  counted : (shimRun s calls).1.passthrough + (shimRun s calls).1.forwarded +
      (shimRun s calls).1.injected_drops =
    s.passthrough + s.forwarded + s.injected_drops + calls.length
  logged : ∃ rows, (shimRun s calls).1.drop_log = some (log ++ rows) ∧
    List.Forall₂ LogsCall (scopedResults s.rule calls (shimRun s calls).2) rows ∧
    (s.per_attempt = false → ∀ row₁ ∈ rows, ∀ row₂ ∈ rows, row₁.index = row₂.index →
      row₁.dropped = row₂.dropped)
  passed : ∀ before c after, calls = before ++ c :: after → inScope s.rule c = false →
    (ci_drop_iface_nexthop (shimRun s before).1 c).2 = c.delegate ∧
      (ci_drop_iface_nexthop (shimRun s before).1 c).1.tracker = (shimRun s before).1.tracker ∧
      (ci_drop_iface_nexthop (shimRun s before).1 c).1.ge = (shimRun s before).1.ge

theorem shimRun_sameSetup (s : CiDropIface) (calls : List NexthopCall) :
    SameSetup s (shimRun s calls).1 :=
  Transducer.run_invariant (SameSetup s) (fun _ c h => h.nexthop c) (.refl s) calls

/-- Every frame through the shim is delegated once or freed once, counted once, and
    logged once when it is in scope; whatever is out of scope leaves the tracker and
    the chain alone. In identity mode no index is logged both dropped and forwarded. -/
theorem drop_iface_accounted (s : CiDropIface) (log : List DropLogRow)
    (hopen : s.drop_log = some log) (calls : List NexthopCall) : Accounted s log calls := by
  refine ⟨?_, ?_, ?_, ?_⟩
  · exact Transducer.run_forall₂ (fun _ => True) (fun _ _ _ => trivial)
      (fun t c _ => nexthop_disposedOnce t c) trivial calls
  · exact Transducer.run_count (fun t => t.passthrough + t.forwarded + t.injected_drops)
      nexthop_counts_once s calls
  · obtain ⟨rows, hrows, hlogs⟩ := Transducer.run_log (SameSetup s)
      (fun t => t.drop_log.getD []) (inScope s.rule)
      (fun call row => LogsCall call row ∧
        (s.per_attempt = false → row.dropped = ci_rule_decide s.rule row.index))
      (fun _ c h => h.nexthop c)
      (by
        intro t c ht hskip
        rw [← ht.rule] at hskip
        rw [nexthop_of_out_of_scope hskip])
      (by
        intro t c ht hsel
        rw [← ht.rule] at hsel
        obtain ⟨row, happend, hrow, hkey⟩ :=
          nexthop_logs_once (ht.drop_log.trans (by simp [hopen])) hsel
        refine ⟨row, happend, hrow, fun hmode => ?_⟩
        rw [← ht.rule]
        exact hkey (ht.per_attempt.trans hmode))
      (.refl s) calls
    change (shimRun s calls).1.drop_log.getD [] = s.drop_log.getD [] ++ rows at hrows
    have hsome := (shimRun_sameSetup s calls).drop_log
    refine ⟨rows, ?_, hlogs.imp fun _ _ h => h.1, ?_⟩
    · obtain ⟨final, hfinal⟩ := Option.isSome_iff_exists.mp (hsome.trans (by simp [hopen]))
      have hvalue : final = log ++ rows := by simpa [hopen, hfinal] using hrows
      rw [hfinal, hvalue]
    · intro hmode row₁ h₁ row₂ h₂ hindex
      have hkey : ∀ row ∈ rows, row.dropped = ci_rule_decide s.rule row.index :=
        Transducer.forall_mem_of_forall₂ (hlogs.imp fun _ _ h => h.2 hmode)
      rw [hkey row₁ h₁, hkey row₂ h₂, hindex]
  · intro before c after _ hout
    rw [← (shimRun_sameSetup s before).rule] at hout
    rw [nexthop_of_out_of_scope hout]
    exact ⟨rfl, rfl, rfl⟩

/-- An in-scope RDP frame under a rule that drops everything. -/
def droppedCall : NexthopCall :=
  { via := 20
    packet :=
      { id := { pri := 2, flags := 0x02, src := 10, dst := 20, dport := 13, sport := 40 }
        data := [0x04, 0, 7, 0, 0] }
    from_me := true
    now := 0
    target_rc := 0 }

/-- The rule of `droppedCall`. -/
def dropAllRule : CiDropRule :=
  { seed := 1
    match_dport := 13
    match_rdp_syn := false
    drop_probability := 1
    replay_vector := none
    replay_len := 0 }

theorem drop_iface_accounted_dropped :
    Accounted (ci_drop_iface_init dropAllRule 200 (some [])) [] [droppedCall, droppedCall] :=
  drop_iface_accounted (ci_drop_iface_init dropAllRule 200 (some [])) [] rfl [droppedCall, droppedCall]

/-- A retransmit is dropped again, and the log shows both attempts. -/
example : (shimRun (ci_drop_iface_init dropAllRule 200 (some [])) [droppedCall, droppedCall]).2 =
    [droppedCall.free, droppedCall.free] := by decide

end csp_intercept.ci_drop_iface
