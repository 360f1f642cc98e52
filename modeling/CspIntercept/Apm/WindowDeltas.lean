import CspIntercept.Apm.Monitor
import CspIntercept.Lib.Odometer

open Odometer csp_intercept.ci_meas
open csp_intercept.ci_drop_iface (CspPacket)

namespace csp_intercept.csp_monitor_apm

/-- What the drainer's next step does to a counter. -/
def DrainerAt.access : Counter → DrainerAt → Option Access
  | .conn_ovf, d =>
    match d with
    | .sample_conn_ovf => some .start
    | .delta_conn_ovf _ => some .read
    | .rearm_conn_ovf _ => some .restart
    | _ => none
  | .buffer_out, d =>
    match d with
    | .sample_buffer_out => some .start
    | .delta_buffer_out _ _ => some .read
    | .rearm_buffer_out _ => some .restart
    | _ => none

/-- What an event does to a counter. A loss after the drainer has returned is no longer
    the monitor's. -/
def access (c : Counter) (m : Monitor) : Event → Option Access
  | .loss c' => if c' = c ∧ m.drainer ≠ .returned then some .tick else none
  | .stop => none
  | .drain _ => m.drainer.access c

/-- The history of a counter in a run, up to the drainer's return. -/
def accesses (cfg : MonConfig) (c : Counter) : Monitor → List Event → List Access
  | _, [] => []
  | m, e :: es => (access c m e).toList ++ accesses cfg c (step cfg m e) es

/-- Which of its turns on a counter the drainer stands in. -/
def DrainerAt.phase : Counter → DrainerAt → Phase
  | .conn_ovf, d =>
    match d with
    | .sample_conn_ovf => .idle
    | .delta_buffer_out _ _ | .write_window _ _ _ | .rearm_conn_ovf _ => .done
    | _ => .armed
  | .buffer_out, d =>
    match d with
    | .sample_conn_ovf | .sample_buffer_out => .idle
    | .write_window _ _ _ | .rearm_conn_ovf _ | .rearm_buffer_out _ => .done
    | _ => .armed

/-- The counter as libcsp has it. -/
def Monitor.count (m : Monitor) : Counter → UInt8
  | .conn_ovf => m.csp_dbg_conn_ovf
  | .buffer_out => m.csp_dbg_buffer_out

/-- The value the drainer measures the next delta against. -/
def Monitor.prev (m : Monitor) : Counter → UInt8
  | .conn_ovf => m.prev_ovf
  | .buffer_out => m.prev_bout

/-- The `#WINDOW` rows written so far. -/
def Monitor.windows (m : Monitor) : List WindowRow :=
  m.mon_csv.filterMap fun row =>
    match row with
    | .window w => some w
    | _ => none

def WindowRow.delta (w : WindowRow) : Counter → UInt8
  | .conn_ovf => w.conn_ovf_delta
  | .buffer_out => w.buffer_out_delta

/-- The sum of a counter's deltas over the rows written so far. -/
def Monitor.reported (m : Monitor) (c : Counter) : ℕ :=
  (m.windows.map fun w => (w.delta c).toNat).sum

/-- The delta that was read and is not in a row yet. -/
def DrainerAt.held : Counter → DrainerAt → ℕ
  | .conn_ovf, d =>
    match d with
    | .delta_buffer_out _ delta => delta.toNat
    | .write_window _ delta _ => delta.toNat
    | _ => 0
  | .buffer_out, d =>
    match d with
    | .write_window _ _ delta => delta.toNat
    | _ => 0

variable {cfg : MonConfig} {c : Counter} {m : Monitor}

/-- Nothing the accounting of the counters reads has changed. -/
structure SameCounters (m m' : Monitor) : Prop where
  count : ∀ c, m'.count c = m.count c
  prev : ∀ c, m'.prev c = m.prev c
  windows : m'.windows = m.windows

theorem SameCounters.reported {m m' : Monitor} (h : SameCounters m m') (c : Counter) :
    m'.reported c = m.reported c := by
  rw [Monitor.reported, h.windows]
  rfl

/-- Packets do not concern the counters, and their rows are no window rows. -/
theorem drain_packet_same (cfg : MonConfig) (m : Monitor) (t : UInt32) (packet : Option CspPacket) :
    SameCounters m (drain_packet cfg m t packet) := by
  have hrefl : SameCounters m m := ⟨fun _ => rfl, fun _ => rfl, rfl⟩
  cases packet with
  | none => exact hrefl
  | some pk =>
    simp only [drain_packet]
    split_ifs
    · unfold drain_rdp
      split <;> exact ⟨fun c => by cases c <;> rfl, fun c => by cases c <;> rfl, by simp [Monitor.windows]⟩
    · exact ⟨fun c => by cases c <;> rfl, fun c => by cases c <;> rfl, by simp [Monitor.windows, drain_dtp]⟩
    · exact hrefl
    · exact hrefl

/-- The drainer keeps to its turns on each counter. -/
theorem phase_step (cfg : MonConfig) (c : Counter) (m : Monitor) (e : Event) :
    match access c m e with
    | none => (step cfg m e).drainer.phase c = m.drainer.phase c
    | some a => (m.drainer.phase c).after a = some ((step cfg m e).drainer.phase c) := by
  cases e with
  | loss c' =>
    have hsame : (step cfg m (.loss c')).drainer = m.drainer := by cases c' <;> rfl
    rw [hsame, access]
    split_ifs <;> rfl
  | stop => rfl
  | drain a =>
    simp only [access, step, mon_drainer]
    cases hat : m.drainer <;> cases c <;> simp only [DrainerAt.access]
    all_goals first | rfl | (split_ifs <;> rfl) | rw [hat]

theorem follows_accesses (cfg : MonConfig) (c : Counter) (m : Monitor) (es : List Event) :
    Follows (m.drainer.phase c) (accesses cfg c m es) ((run cfg m es).drainer.phase c) := by
  induction es generalizing m with
  | nil => rfl
  | cons e es ih =>
    have hstep := phase_step cfg c m e
    have hrest := ih (step cfg m e)
    rw [accesses]
    cases hacc : access c m e with
    | none =>
      rw [hacc] at hstep
      rw [← hstep]
      exact hrest
    | some a =>
      rw [hacc] at hstep
      exact ⟨_, hstep, hrest⟩

/-- While the drainer is armed, the counter is `n` ticks past the value it measures against. -/
def Pending (c : Counter) (m : Monitor) (n : ℕ) : Prop :=
  m.drainer ≠ .returned → m.drainer.phase c = .armed → m.count c = m.prev c + UInt8.ofNat n

/-- What is reported of a counter, the delta read last included. -/
def Monitor.recorded (m : Monitor) (c : Counter) : ℕ := m.reported c + m.drainer.held c

theorem Pending.congr {m m' : Monitor} {n : ℕ} (h : Pending c m n) (hcount : m'.count c = m.count c)
    (hprev : m'.prev c = m.prev c) (hphase : m'.drainer.phase c = m.drainer.phase c)
    (hreturned : m.drainer = .returned → m'.drainer = .returned) : Pending c m' n := by
  intro hnot harmed
  rw [hcount, hprev]
  exact h (fun hret => hnot (hreturned hret)) (hphase ▸ harmed)

/-- A step of the drainer that leaves the counter alone. -/
theorem drain_none (cfg : MonConfig) (a : Answers) (hacc : m.drainer.access c = none) :
    (mon_drainer cfg m a).count c = m.count c ∧ (mon_drainer cfg m a).prev c = m.prev c ∧
      (mon_drainer cfg m a).recorded c = m.recorded c := by
  cases hat : m.drainer with
  | loop_head =>
    have hheld : DrainerAt.held c (if m.mon_running then .promisc_read else .returned) = 0 := by
      split_ifs <;> cases c <;> rfl
    simp only [mon_drainer, hat, Monitor.recorded, hheld]
    exact ⟨by cases c <;> rfl, by cases c <;> rfl, by cases c <;> rfl⟩
  | promisc_read =>
    have hsame := drain_packet_same cfg m a.t a.packet
    have hheld (due : Prop) [Decidable due] :
        DrainerAt.held c (if due then .delta_conn_ovf a.now else .loop_head) = 0 := by
      split_ifs <;> cases c <;> rfl
    simp only [mon_drainer, hat, Monitor.recorded, hheld]
    exact ⟨hsame.count c, hsame.prev c, (hsame.reported c).trans (by cases c <;> rfl)⟩
  | write_window now d₁ d₂ =>
    -- the delta moves from the drainer into the row
    simp only [mon_drainer, hat, Monitor.recorded]
    refine ⟨by cases c <;> rfl, by cases c <;> rfl, ?_⟩
    cases c <;> simp [Monitor.reported, Monitor.windows, DrainerAt.held, WindowRow.delta, window_row]
  | returned => simp only [mon_drainer, hat, and_self]
  | _ =>
    -- a read of the other counter
    cases c <;> simp only [hat, DrainerAt.access, reduceCtorEq] at hacc
    simp only [mon_drainer, hat, Monitor.recorded]
    exact ⟨rfl, rfl, rfl⟩

/-- A loss after the return or of the other counter, a stop, and a step of the drainer
    that leaves the counter alone. -/
theorem step_none (cfg : MonConfig) {e : Event} {n : ℕ} (hacc : access c m e = none) (h : Pending c m n) :
    Pending c (step cfg m e) n ∧ (step cfg m e).recorded c = m.recorded c := by
  have hphase := phase_step cfg c m e
  rw [hacc] at hphase
  cases e with
  | loss c' =>
    by_cases hret : m.drainer = .returned
    · have hret' : (step cfg m (.loss c')).drainer = .returned := by cases c' <;> exact hret
      exact ⟨fun hnot => absurd hret' hnot, by cases c' <;> rfl⟩
    · have hne : c' ≠ c := by simpa [access, hret] using hacc
      cases c <;> cases c' <;> first | exact absurd rfl hne | exact ⟨h, rfl⟩
  | stop => exact ⟨h, rfl⟩
  | drain a =>
    obtain ⟨hcount, hprev, hrecorded⟩ := drain_none cfg a hacc
    refine ⟨h.congr hcount hprev hphase fun hret => ?_, hrecorded⟩
    simp only [step, mon_drainer, hret]

/-- A tick is a loss of the counter while the drainer runs; every other access is the
    drainer's. -/
theorem access_eq_some {e : Event} {b : Access} (hacc : access c m e = some b) :
    (b = .tick ∧ e = .loss c ∧ m.drainer ≠ .returned) ∨
      (b ≠ .tick ∧ ∃ a, e = .drain a ∧ m.drainer.access c = some b) := by
  cases e with
  | loss c' =>
    simp only [access] at hacc
    split_ifs at hacc with hloss
    obtain ⟨rfl, hrun⟩ := hloss
    exact .inl ⟨(Option.some.inj hacc).symm, rfl, hrun⟩
  | stop => cases hacc
  | drain a =>
    refine .inr ⟨?_, a, rfl, hacc⟩
    rintro rfl
    cases hat : m.drainer <;> cases c <;> simp only [access, hat, DrainerAt.access, reduceCtorEq,
      Option.some.injEq] at hacc

/-- A loss while the drainer runs is one more tick pending. -/
theorem step_tick (cfg : MonConfig) {e : Event} {n : ℕ} (hacc : access c m e = some .tick)
    (h : Pending c m n) :
    Pending c (step cfg m e) (n + 1) ∧ (step cfg m e).recorded c = m.recorded c := by
  obtain ⟨-, rfl, hrun⟩ := (access_eq_some hacc).resolve_right fun hother => hother.1 rfl
  have hnext {x p : UInt8} (hx : x = p + UInt8.ofNat n) : x + 1 = p + UInt8.ofNat (n + 1) := by
    rw [hx, UInt8.add_assoc, UInt8.ofNat_add]
    rfl
  cases c with
  | conn_ovf => exact ⟨fun _ harmed => hnext (h hrun harmed), rfl⟩
  | buffer_out => exact ⟨fun _ harmed => hnext (h hrun harmed), rfl⟩

/-- Sampling and re-arming measure the next delta against the value just read. -/
theorem step_start (cfg : MonConfig) {e : Event} {b : Access} (hacc : access c m e = some b)
    (hb : b = .start ∨ b = .restart) :
    Pending c (step cfg m e) 0 ∧ (step cfg m e).recorded c = m.recorded c := by
  have hne : b ≠ .tick := by rintro rfl; simp at hb
  obtain ⟨-, a, rfl, hat⟩ := (access_eq_some hacc).resolve_left fun htick => hne htick.1
  have hzero (x : UInt8) : x = x + UInt8.ofNat 0 := (UInt8.add_zero x).symm
  cases hd : m.drainer <;> rw [hd] at hat <;> cases c <;>
    simp only [DrainerAt.access, reduceCtorEq, Option.some.injEq] at hat <;>
    subst hat <;> simp only [reduceCtorEq, or_self] at hb
  all_goals
    simp only [step, mon_drainer, hd, Monitor.recorded]
    exact ⟨fun _ _ => hzero _, rfl⟩

/-- The delta is the number of ticks pending, modulo the wrap. -/
theorem step_read (cfg : MonConfig) {e : Event} {n : ℕ} (hacc : access c m e = some .read)
    (h : Pending c m n) :
    Pending c (step cfg m e) n ∧ (step cfg m e).recorded c = m.recorded c + n % 256 := by
  obtain ⟨-, a, rfl, hat⟩ := (access_eq_some hacc).resolve_left fun htick => nomatch htick.1
  have hdelta {x p : UInt8} (hx : x = p + UInt8.ofNat n) : (ci_u8_delta p x).toNat = n % 256 := by
    rw [ci_u8_delta, hx, UInt8.add_comm, UInt8.add_sub_cancel, UInt8.toNat_ofNat']
  cases hd : m.drainer <;> rw [hd] at hat <;> cases c <;>
    simp only [DrainerAt.access, reduceCtorEq, Option.some.injEq] at hat
  all_goals
    have hcur := h (by simp [hd]) (by rw [hd]; rfl)
    simp only [step, mon_drainer, hd, Monitor.recorded]
    refine ⟨fun _ hdone => absurd hdone (by simp [DrainerAt.phase]), ?_⟩
    exact congrArg (m.reported _ + ·) (hdelta hcur)

/-- The rows report the readings of the counter's history. -/
theorem recorded_run (cfg : MonConfig) {n : ℕ} (es : List Event) (h : Pending c m n) :
    (run cfg m es).recorded c = m.recorded c + (readings 256 n (accesses cfg c m es)).sum := by
  induction es generalizing m n with
  | nil => rfl
  | cons e es ih =>
    rw [accesses]
    change (run cfg (step cfg m e) es).recorded c = _
    cases hacc : access c m e with
    | none =>
      obtain ⟨hpending, hrecorded⟩ := step_none cfg hacc h
      rw [ih hpending, hrecorded]
      rfl
    | some a =>
      cases a with
      | tick =>
        obtain ⟨hpending, hrecorded⟩ := step_tick cfg hacc h
        rw [ih hpending, hrecorded]
        rfl
      | start =>
        obtain ⟨hpending, hrecorded⟩ := step_start cfg hacc (.inl rfl)
        rw [ih hpending, hrecorded]
        rfl
      | read =>
        obtain ⟨hpending, hrecorded⟩ := step_read cfg hacc h
        rw [ih hpending, hrecorded, Nat.add_assoc]
        rfl
      | restart =>
        obtain ⟨hpending, hrecorded⟩ := step_start cfg hacc (.inr rfl)
        rw [ih hpending, hrecorded]
        rfl

/-- The rows written so far, and at most the one the step writes. -/
theorem windows_step (cfg : MonConfig) (m : Monitor) (e : Event) :
    (step cfg m e).windows = m.windows ∨ ∃ now d₁ d₂ remaining,
      (step cfg m e).windows = m.windows ++ [window_row cfg m now d₁ d₂ remaining] := by
  cases e with
  | loss c => cases c <;> exact .inl rfl
  | stop => exact .inl rfl
  | drain a =>
    cases hat : m.drainer with
    | promisc_read =>
      simp only [step, mon_drainer, hat]
      exact .inl (drain_packet_same cfg m a.t a.packet).windows
    | write_window now d₁ d₂ =>
      refine .inr ⟨now, d₁, d₂, a.csp_buffer_remaining, ?_⟩
      simp [step, mon_drainer, hat, Monitor.windows]
    | returned => exact .inl (by simp only [step, mon_drainer, hat])
    | _ =>
      refine .inl ?_
      simp only [step, mon_drainer, hat]
      rfl

/-- A row with a delta above zero is suspect. -/
theorem suspect_window_row (cfg : MonConfig) (m : Monitor) (now : UInt32) (d₁ d₂ : UInt8) (remaining : ℤ)
    (hpos : 0 < ((window_row cfg m now d₁ d₂ remaining).delta c).toNat) :
    (window_row cfg m now d₁ d₂ remaining).suspect = true := by
  rw [window_row, Bool.or_eq_true, ci_measurement_suspect_iff]
  cases c with
  | conn_ovf => exact .inl (.inl hpos)
  | buffer_out => exact .inl (.inr (.inl hpos))

theorem suspect_run (cfg : MonConfig) (es : List Event)
    (h : ∀ w ∈ m.windows, 0 < (w.delta c).toNat → w.suspect = true) :
    ∀ w ∈ (run cfg m es).windows, 0 < (w.delta c).toNat → w.suspect = true := by
  induction es generalizing m with
  | nil => exact h
  | cons e es ih =>
    refine ih fun w hw => ?_
    obtain hsame | ⟨now, d₁, d₂, remaining, happend⟩ := windows_step cfg m e
    · rw [hsame] at hw
      exact h w hw
    · rw [happend, List.mem_append, List.mem_singleton] at hw
      rcases hw with hw | rfl
      · exact h w hw
      · exact suspect_window_row cfg m now d₁ d₂ remaining

/-- The losses of a run between the drainer's first sample of the counter and its return. -/
def losses (cfg : MonConfig) (c : Counter) (m : Monitor) (es : List Event) : ℕ :=
  ticks (accesses cfg c m es)

/-- The `#WINDOW` rows of a run account for every loss, and one of them is suspect if
    there was any. -/
def AccountsFor (cfg : MonConfig) (c : Counter) (m : Monitor) (es : List Event) : Prop :=
  (run cfg m es).reported c = losses cfg c m es ∧
    (0 < losses cfg c m es → ∃ w ∈ (run cfg m es).windows, w.suspect = true)

/-- The rows of a stopped monitor account for the losses exactly when after each loss the
    drainer's next look at the counter is the first sample or a delta: no loss falls
    between a delta and its re-arming, or after the last re-arming. -/
theorem window_deltas_account_iff (cfg : MonConfig) (c : Counter) (conn_ovf buffer_out : UInt8)
    {es : List Event} (hreturned : (run cfg (csp_monitor_start conn_ovf buffer_out) es).drainer = .returned)
    (hfew : (accesses cfg c (csp_monitor_start conn_ovf buffer_out) es).count .tick < 256) :
    AccountsFor cfg c (csp_monitor_start conn_ovf buffer_out) es ↔
      ∀ f ∈ fates (accesses cfg c (csp_monitor_start conn_ovf buffer_out) es),
        f = some .start ∨ f = some .read := by
  generalize hm : csp_monitor_start conn_ovf buffer_out = m at *
  have hidle : m.drainer.phase c = .idle := by subst hm; cases c <;> rfl
  have hempty : m.windows = [] := by subst hm; rfl
  have hfollows := follows_accesses cfg c m es
  have hend : (run cfg m es).drainer.phase c = .armed := by rw [hreturned]; cases c <;> rfl
  rw [hidle, hend] at hfollows
  have hreported : (run cfg m es).reported c = (readings 256 0 (accesses cfg c m es)).sum := by
    have hpending : Pending c m 0 := fun _ harmed => absurd (hidle.symm.trans harmed) nofun
    have hrecorded := recorded_run cfg es hpending
    have hheld : (run cfg m es).drainer.held c = 0 := by rw [hreturned]; cases c <;> rfl
    have hstart : m.recorded c = 0 := by subst hm; cases c <;> rfl
    rw [Monitor.recorded, hheld, hstart, Nat.add_zero, Nat.zero_add] at hrecorded
    exact hrecorded
  have hiff := sum_readings_eq_iff hfollows nofun hfew
  rw [← hreported] at hiff
  rw [← hiff, AccountsFor, losses]
  refine ⟨fun h => h.1, fun hsum => ⟨hsum, fun hpos => ?_⟩⟩
  rw [← hsum, Monitor.reported] at hpos
  obtain ⟨d, hd, hdpos⟩ := List.exists_mem_ne_zero_of_sum_ne_zero (Nat.pos_iff_ne_zero.mp hpos)
  obtain ⟨w, hw, rfl⟩ := List.mem_map.mp hd
  exact ⟨w, hw, suspect_run cfg es (by simp [hempty]) w hw (Nat.pos_of_ne_zero hdpos)⟩

section Runs

/-- The monitor on port 13 with one-second windows. -/
def port13 : MonConfig where
  mon_match_dport := 13
  mon_window_ms := 1000
  mon_mtu := 200
  mon_dtp_overhead := 4
  mon_buffer_low_water := 100

/-- A step of the drainer at a time without traffic. -/
def quiet (now : UInt32) : Event :=
  .drain { t := now, now, packet := none, csp_buffer_remaining := 400 }

/-- One overflow before the delta is read, and the monitor is stopped after the window. -/
theorem window_deltas_account_iff_one_window :
    AccountsFor port13 .conn_ovf (csp_monitor_start 7 0)
      [quiet 0, quiet 0, quiet 0, .loss .conn_ovf, quiet 1000, quiet 1000, quiet 1000, quiet 1000,
        quiet 1000, quiet 1000, .stop, quiet 1000] :=
  (window_deltas_account_iff port13 .conn_ovf 7 0 (by decide) (by decide)).mpr (by decide)

/-- One overflow after the delta of the window is read and before the counter is read
    again. -/
def overflow_between_reads : List Event :=
  [quiet 0, quiet 0, quiet 0, quiet 1000, quiet 1000, .loss .conn_ovf, quiet 1000, quiet 1000,
    quiet 1000, quiet 1000, .stop, quiet 1000]

/-- The row written reports none and is not suspect, and no later row can report it. -/
theorem overflow_between_reads_unreported :
    (run port13 (csp_monitor_start 7 0) overflow_between_reads).drainer = .returned ∧
    losses port13 .conn_ovf (csp_monitor_start 7 0) overflow_between_reads = 1 ∧
    (∀ w ∈ (run port13 (csp_monitor_start 7 0) overflow_between_reads).windows, w.suspect = false) ∧
    ¬ AccountsFor port13 .conn_ovf (csp_monitor_start 7 0) overflow_between_reads := by
  have hlosses : losses port13 .conn_ovf (csp_monitor_start 7 0) overflow_between_reads = 1 := by decide
  refine ⟨by decide, hlosses, by decide, fun h => ?_⟩
  have hreported := h.1
  rw [hlosses] at hreported
  exact absurd hreported (by decide)

end Runs

end csp_intercept.csp_monitor_apm
