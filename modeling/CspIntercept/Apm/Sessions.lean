import CspIntercept.Apm.Lifecycle
import CspIntercept.Apm.Stream
import CspIntercept.Lib.Stock

open csp_intercept.ci_drop_iface (CspPacket)

namespace csp_intercept.csp_monitor_apm

namespace ApmEffect

/-- The clone that the router puts into the queue. -/
def cloned : ApmEffect → List CspPacket
  | .added pk => [pk]
  | _ => []

/-- The clone that the drainer handles. -/
def handled : ApmEffect → List CspPacket
  | .ingested pk => [pk]
  | _ => []

/-- The clone that the monitor frees. -/
def freed : ApmEffect → List CspPacket
  | .ingested pk => [pk]
  | .drained pk => [pk]
  | _ => []

/-- A start that gave up after it had enabled promiscuous mode. -/
def gave_up : ApmEffect → Bool
  | .returned SlashRc.SLASH_EIO => true
  | .returned .SLASH_ENOMEM => true
  | _ => false

end ApmEffect

/-- The effects after promiscuous mode was enabled last. -/
def sessionEffects : List ApmEffect → List ApmEffect :=
  List.foldl (fun since effect => if effect = .enabled then [] else since ++ [effect]) []

@[simp] theorem sessionEffects_append (effects : List ApmEffect) (effect : ApmEffect) :
    sessionEffects (effects ++ [effect]) =
      if effect = .enabled then [] else sessionEffects effects ++ [effect] := by
  unfold sessionEffects
  rw [List.foldl_append]
  rfl

section Monitor

variable (cfg : MonConfig)

theorem run_concat (m : Monitor) (events : List Event) (e : Event) :
    run cfg m (events ++ [e]) = step cfg (run cfg m events) e := by
  unfold run
  rw [List.foldl_append]
  rfl

theorem stream_concat (m : Monitor) (events : List Event) (e : Event) :
    stream cfg m (events ++ [e]) = stream cfg m events ++ (csp_monitor_apm.handled (run cfg m events) e).toList := by
  induction events generalizing m with
  | nil => simp [stream, run]
  | cons i events ih =>
    rw [List.cons_append, stream, ih, stream, List.append_assoc]
    rfl

theorem drain_packet_mon_running (m : Monitor) (t : UInt32) (packet : Option CspPacket) :
    (drain_packet cfg m t packet).mon_running = m.mon_running := by
  cases packet with
  | none => rfl
  | some pk =>
    simp only [drain_packet]
    split_ifs
    · unfold drain_rdp
      split <;> rfl
    all_goals rfl

/-- Only a stop changes whether the monitor runs. -/
theorem mon_drainer_mon_running (m : Monitor) (a : Answers) :
    (mon_drainer cfg m a).mon_running = m.mon_running := by
  unfold mon_drainer
  cases m.drainer
  case promisc_read => exact drain_packet_mon_running cfg m a.t a.packet
  all_goals rfl

theorem mon_drainer_returned {m : Monitor} (h : m.drainer = .returned) (a : Answers) :
    mon_drainer cfg m a = m := by
  unfold mon_drainer
  rw [h]

end Monitor

section Promisc

variable {P : Type} (lib : Promisc P)

/-- What an event can do to the APM. -/
inductive Moves (s : Apm P) : Apm P × ApmEffect → Prop
  /-- A command that is refused, or has nothing to do. -/
  | refuses {rc : SlashRc} (hrc : (ApmEffect.returned rc).gave_up = false) : Moves s (s, .returned rc)
  | waits : Moves s (s, .none)
  | not_enabled {cfg : MonConfig} {path : List UInt8} {promisc : P} (hslash : s.slash = .prompt)
      (hrunning : s.monitor.mon_running = false) (hqueue : lib.queue promisc = lib.queue s.promisc)
      (henabled : lib.enabled promisc = lib.enabled s.promisc) :
      Moves s ({ s with cfg, mon_csv_path := path, promisc }, .returned .SLASH_EINVAL)
  | enables {cfg : MonConfig} {path : List UInt8} {promisc : P} (hslash : s.slash = .prompt)
      (hrunning : s.monitor.mon_running = false) (hqueue : lib.queue promisc = lib.queue s.promisc)
      (hon : lib.enabled promisc = true) :
      Moves s ({ s with cfg, mon_csv_path := path, promisc, slash := .opening }, .enabled)
  | opens (hslash : s.slash = .opening) :
      Moves s ({ s with
          mon_csv_open := true
          monitor := { s.monitor with mon_csv := [], mon_running := true }
          slash := .creating }, .none)
  | opens_not (hslash : s.slash = .opening) :
      Moves s ({ s with mon_csv_open := false, slash := .prompt }, .returned SlashRc.SLASH_EIO)
  | creates (hslash : s.slash = .creating) :
      Moves s ({ s with
          monitor := csp_monitor_start s.monitor.csp_dbg_conn_ovf s.monitor.csp_dbg_buffer_out
          slash := .prompt }, .returned .SLASH_SUCCESS)
  | creates_not (hslash : s.slash = .creating) :
      Moves s ({ s with
          monitor := { s.monitor with mon_running := false }
          promisc := lib.csp_promisc_disable s.promisc
          mon_csv_open := false
          slash := .prompt }, .returned .SLASH_ENOMEM)
  | stops (hslash : s.slash = .prompt) (hrunning : s.monitor.mon_running = true) :
      Moves s ({ s with monitor := step s.cfg s.monitor .stop, slash := .joining }, .none)
  | joins (hslash : s.slash = .joining) (hreturned : s.monitor.drainer = .returned) :
      Moves s ({ s with promisc := lib.csp_promisc_disable s.promisc, slash := .draining }, .none)
  | drains {promisc : P} {stale : CspPacket} (hslash : s.slash = .draining)
      (hqueue : lib.queue s.promisc = stale :: lib.queue promisc)
      (henabled : lib.enabled promisc = lib.enabled s.promisc) : Moves s ({ s with promisc }, .drained stale)
  | closes {promisc : P} (hslash : s.slash = .draining) (hempty : lib.queue s.promisc = [])
      (hqueue : lib.queue promisc = []) (henabled : lib.enabled promisc = lib.enabled s.promisc) :
      Moves s ({ s with promisc, mon_csv_open := false, slash := .prompt }, .returned .SLASH_SUCCESS)
  | passes {promisc : P} (hqueue : lib.queue promisc = lib.queue s.promisc)
      (henabled : lib.enabled promisc = lib.enabled s.promisc) : Moves s ({ s with promisc }, .none)
  | clones {promisc : P} {pk : CspPacket} (hon : lib.enabled s.promisc = true)
      (hqueue : lib.queue promisc = lib.queue s.promisc ++ [pk])
      (henabled : lib.enabled promisc = lib.enabled s.promisc) : Moves s ({ s with promisc }, .added pk)
  | counts (c : Counter) : Moves s ({ s with monitor := step s.cfg s.monitor (.loss c) }, .none)
  | works {promisc : P} {a : Answers} (hhandled : handled s.monitor (.drain a) = none)
      (hqueue : lib.queue promisc = lib.queue s.promisc)
      (henabled : lib.enabled promisc = lib.enabled s.promisc) :
      Moves s ({ s with promisc, monitor := step s.cfg s.monitor (.drain a) }, .none)
  | ingests {promisc : P} {a : Answers} {pk : CspPacket}
      (hhandled : handled s.monitor (.drain a) = some (a.t, pk))
      (hqueue : lib.queue s.promisc = pk :: lib.queue promisc)
      (henabled : lib.enabled promisc = lib.enabled s.promisc) :
      Moves s ({ s with promisc, monitor := step s.cfg s.monitor (.drain a) }, .ingested pk)

variable {lib} {s : Apm P}

theorem start_moves (hslash : s.slash = .prompt) (options : Option StartOptions) :
    Moves lib s (csp_monitor_start_cmd lib s options) := by
  unfold csp_monitor_start_cmd
  cases hrunning : s.monitor.mon_running with
  | true => exact .refuses rfl
  | false =>
    rw [if_neg (by simp)]
    cases options with
    | none => exact .refuses rfl
    | some o =>
      have hqueue := lib.enable_queue s.promisc
      have henabled := lib.enable_enabled s.promisc
      dsimp only
      split
      · exact .refuses rfl
      · split
        · next promisc henable =>
          rw [henable] at hqueue henabled
          exact .not_enabled hslash hrunning hqueue (by simpa using henabled)
        · next promisc rc hrc henable =>
          rw [henable] at hqueue henabled
          have hok : (rc != .failed) = true := bne_iff_ne.mpr hrc
          rw [hok, Bool.or_true] at henabled
          exact .enables hslash hrunning hqueue henabled

theorem stop_moves (hslash : s.slash = .prompt) : Moves lib s (csp_monitor_stop_cmd s) := by
  unfold csp_monitor_stop_cmd
  cases hrunning : s.monitor.mon_running with
  | true => exact .stops hslash hrunning
  | false => exact .refuses rfl

/-- A read that gives a packet gives the front of the queue. -/
theorem read_some {p promisc : P} {pk : CspPacket} (h : lib.csp_promisc_read p = (promisc, some pk)) :
    lib.queue p = pk :: lib.queue promisc ∧ lib.enabled promisc = lib.enabled p := by
  have hqueue := lib.read_queue p
  have henabled := lib.read_enabled p
  rw [h] at hqueue henabled
  exact ⟨hqueue, henabled⟩

/-- A read that gives none has found the queue empty. -/
theorem read_empty {p promisc : P} (h : lib.csp_promisc_read p = (promisc, none)) :
    lib.queue p = [] ∧ lib.queue promisc = [] ∧ lib.enabled promisc = lib.enabled p := by
  have hqueue := lib.read_queue p
  have henabled := lib.read_enabled p
  have hempty := lib.read_none p (by rw [h])
  rw [h] at hqueue henabled
  exact ⟨hempty, hqueue.symm.trans hempty, henabled⟩

theorem proceed_moves (ok : Bool) : Moves lib s (slash_proceed lib s ok) := by
  unfold slash_proceed
  cases hslash : s.slash with
  | prompt => exact .waits
  | opening =>
    cases ok with
    | true => exact .opens hslash
    | false => exact .opens_not hslash
  | creating =>
    cases ok with
    | true => exact .creates hslash
    | false => exact .creates_not hslash
  | joining =>
    dsimp only
    split_ifs with hreturned
    · exact .joins hslash hreturned
    · exact .waits
  | draining =>
    dsimp only
    split
    · next promisc stale hread =>
      obtain ⟨hqueue, henabled⟩ := read_some hread
      rw [← hslash]
      exact .drains hslash hqueue henabled
    · next promisc hread =>
      obtain ⟨hempty, hqueue, henabled⟩ := read_empty hread
      exact .closes hslash hempty hqueue henabled

theorem drainer_moves (a : Answers) : Moves lib s (drainer_step lib s a) := by
  unfold drainer_step
  split_ifs with hread
  · split
    · next promisc pk hpk =>
      obtain ⟨hqueue, henabled⟩ := read_some hpk
      exact .ingests (a := { a with packet := some pk }) (by simp [handled, hread]) hqueue henabled
    · next promisc hnone =>
      obtain ⟨hempty, hqueue, henabled⟩ := read_empty hnone
      exact .works (a := { a with packet := none }) (by simp [handled]) (hqueue.trans hempty.symm) henabled
  · exact .works (by simp [handled, hread]) rfl rfl

theorem apmStep_moves (s : Apm P) (e : ApmEvent) : Moves lib s (apmStep lib s e) := by
  cases e with
  | command c =>
    unfold apmStep
    dsimp only
    split_ifs with hslash
    · cases c with
      | start options => exact start_moves hslash options
      | stop => exact stop_moves hslash
    · exact .waits
  | proceed ok => exact proceed_moves ok
  | route pk =>
    have henabled := lib.add_enabled s.promisc pk
    change Moves lib s (promisc_hook lib s pk)
    unfold promisc_hook
    dsimp only
    rcases lib.add_queue s.promisc pk with hsame | ⟨hon, hadded⟩
    · rw [if_pos (by rw [hsame])]
      exact .passes hsame henabled
    · rw [if_neg (by rw [hadded]; simp)]
      exact .clones hon hadded henabled
  | loss c => exact .counts c
  | drain a => exact drainer_moves a

variable (lib) in
/-- Where the command in progress stands, the rest of the state is in keeping with it. -/
def AtStep (s : Apm P) : Prop :=
  match s.slash with
  | .prompt =>
    s.mon_csv_open = s.monitor.mon_running ∧ (s.monitor.mon_running = false → s.monitor.drainer = .returned)
  | .opening => s.monitor.mon_running = false ∧ s.mon_csv_open = false ∧ s.monitor.drainer = .returned ∧
      lib.enabled s.promisc = true
  | .creating => s.monitor.mon_running = true ∧ s.mon_csv_open = true ∧ s.monitor.drainer = .returned
  | .joining => s.monitor.mon_running = false ∧ s.mon_csv_open = true
  | .draining => s.monitor.mon_running = false ∧ s.mon_csv_open = true ∧ s.monitor.drainer = .returned ∧
      lib.enabled s.promisc = false

/-- A thread has been created for the open file. -/
def Apm.in_session (s : Apm P) : Prop := s.mon_csv_open = true ∧ s.slash ≠ .creating

/-- No session and no command in progress. -/
def Apm.at_rest (s : Apm P) : Prop := s.slash = .prompt ∧ s.monitor.mon_running = false

/-- The monitor is where a run of its own takes it, which handled these clones. -/
def RunOf (cfg : MonConfig) (m : Monitor) (clones : List CspPacket) : Prop :=
  ∃ conn_ovf buffer_out events, m = run cfg (csp_monitor_start conn_ovf buffer_out) events ∧
    (stream cfg (csp_monitor_start conn_ovf buffer_out) events).map Prod.snd = clones

theorem RunOf.step {cfg : MonConfig} {m : Monitor} {clones : List CspPacket} (h : RunOf cfg m clones)
    (e : Event) :
    RunOf cfg (step cfg m e) (clones ++ ((csp_monitor_apm.handled m e).map Prod.snd).toList) := by
  obtain ⟨conn_ovf, buffer_out, events, rfl, rfl⟩ := h
  refine ⟨conn_ovf, buffer_out, events ++ [e], (run_concat cfg _ events e).symm, ?_⟩
  rw [stream_concat, List.map_append]
  cases csp_monitor_apm.handled (run cfg (csp_monitor_start conn_ovf buffer_out) events) e <;> rfl

variable (lib) in
/-- What holds of the APM and of all that it and the router did so far. -/
structure Lifecycle (s : Apm P) (effects : List ApmEffect) : Prop where
  at_step : AtStep lib s
  freed_once : effects.flatMap ApmEffect.cloned = effects.flatMap ApmEffect.freed ++ lib.queue s.promisc
  session : s.in_session → RunOf s.cfg s.monitor ((sessionEffects effects).flatMap ApmEffect.handled)
  starting : s.slash = .opening ∨ s.slash = .creating →
    (sessionEffects effects).flatMap ApmEffect.handled = []
  rested : effects.any ApmEffect.gave_up = false → s.at_rest →
    lib.queue s.promisc = [] ∧ lib.enabled s.promisc = false
  fresh : effects.any ApmEffect.gave_up = false → ¬ s.at_rest →
    (sessionEffects effects).flatMap ApmEffect.cloned =
      (sessionEffects effects).flatMap ApmEffect.freed ++ lib.queue s.promisc
  left_on : effects.getLast? = some (.returned SlashRc.SLASH_EIO) → s.at_rest ∧ lib.enabled s.promisc = true

/-- What a move that is none of a command's leaves alone. -/
structure Carries (lib : Promisc P) (s s' : Apm P) : Prop where
  slash : s'.slash = s.slash
  mon_csv_open : s'.mon_csv_open = s.mon_csv_open
  mon_running : s'.monitor.mon_running = s.monitor.mon_running
  returned : s.monitor.drainer = .returned → s'.monitor.drainer = .returned
  enabled : lib.enabled s'.promisc = lib.enabled s.promisc

theorem Carries.at_step {s' : Apm P} (h : Carries lib s s') (hat : AtStep lib s) : AtStep lib s' := by
  obtain ⟨hslash, hopen, hrunning, hreturned, henabled⟩ := h
  unfold AtStep at hat ⊢
  rw [hslash, hopen, hrunning, henabled]
  cases hat' : s.slash <;> simp only [hat'] at hat ⊢
  · exact ⟨hat.1, fun hstopped => hreturned (hat.2 hstopped)⟩
  · exact ⟨hat.1, hat.2.1, hreturned hat.2.2.1, hat.2.2.2⟩
  · exact ⟨hat.1, hat.2.1, hreturned hat.2.2⟩
  · exact hat
  · exact ⟨hat.1, hat.2.1, hreturned hat.2.2.1, hat.2.2.2⟩

/-- The drainer's steps and the router's losses are none of a command's. -/
theorem carries_step {promisc : P} {e : Event} (he : e ≠ .stop)
    (henabled : lib.enabled promisc = lib.enabled s.promisc) :
    Carries lib s { s with promisc, monitor := step s.cfg s.monitor e } := by
  refine ⟨rfl, rfl, ?_, fun hreturned => ?_, henabled⟩ <;> cases e with
  | loss c => cases c <;> first | rfl | exact hreturned
  | stop => exact absurd rfl he
  | drain a => first
    | exact mon_drainer_mon_running s.cfg s.monitor a
    | exact (congrArg Monitor.drainer (mon_drainer_returned s.cfg hreturned a)).trans hreturned

theorem Moves.at_step {after : Apm P × ApmEffect} (h : Moves lib s after) (hat : AtStep lib s) :
    AtStep lib after.1 := by
  have hcommand := hat
  unfold AtStep at hcommand ⊢
  cases h with
  | refuses hrc => exact hat
  | waits => exact hat
  | not_enabled hslash hrunning hqueue henabled =>
    exact Carries.at_step (s := s) ⟨rfl, rfl, rfl, id, henabled⟩ hat
  | enables hslash hrunning hqueue hon =>
    rw [hslash] at hcommand
    exact ⟨hrunning, hcommand.1.trans hrunning, hcommand.2 hrunning, hon⟩
  | opens hslash =>
    rw [hslash] at hcommand
    exact ⟨rfl, rfl, hcommand.2.2.1⟩
  | opens_not hslash =>
    rw [hslash] at hcommand
    exact ⟨hcommand.1.symm, fun _ => hcommand.2.2.1⟩
  | creates hslash =>
    rw [hslash] at hcommand
    exact ⟨hcommand.2.1, nofun⟩
  | creates_not hslash =>
    rw [hslash] at hcommand
    exact ⟨rfl, fun _ => hcommand.2.2⟩
  | stops hslash hrunning =>
    rw [hslash] at hcommand
    exact ⟨rfl, hcommand.1.trans hrunning⟩
  | joins hslash hreturned =>
    rw [hslash] at hcommand
    exact ⟨hcommand.1, hcommand.2, hreturned, lib.disable_enabled _⟩
  | drains hslash hqueue henabled => exact Carries.at_step (s := s) ⟨rfl, rfl, rfl, id, henabled⟩ hat
  | closes hslash hempty hqueue henabled =>
    rw [hslash] at hcommand
    exact ⟨hcommand.1.symm, fun _ => hcommand.2.2.1⟩
  | passes hqueue henabled => exact Carries.at_step (s := s) ⟨rfl, rfl, rfl, id, henabled⟩ hat
  | clones hon hqueue henabled => exact Carries.at_step (s := s) ⟨rfl, rfl, rfl, id, henabled⟩ hat
  | counts c => exact (carries_step (e := .loss c) nofun rfl).at_step hat
  | works hhandled hqueue henabled => exact (carries_step (e := .drain _) nofun henabled).at_step hat
  | ingests hhandled hqueue henabled => exact (carries_step (e := .drain _) nofun henabled).at_step hat

/-- A clone goes to the back of the queue, and what is freed is its front. -/
theorem Moves.queues {after : Apm P × ApmEffect} (h : Moves lib s after) :
    lib.queue s.promisc ++ after.2.cloned = after.2.freed ++ lib.queue after.1.promisc := by
  cases h with
  | clones hon hqueue henabled => exact hqueue.symm
  | drains hslash hqueue henabled => simpa [ApmEffect.cloned, ApmEffect.freed] using hqueue
  | ingests hhandled hqueue henabled => simpa [ApmEffect.cloned, ApmEffect.freed] using hqueue
  | closes hslash hempty hqueue henabled => simp [ApmEffect.cloned, ApmEffect.freed, hempty, hqueue]
  | creates_not hslash => simp [ApmEffect.cloned, ApmEffect.freed, lib.disable_queue]
  | joins hslash hreturned => simp [ApmEffect.cloned, ApmEffect.freed, lib.disable_queue]
  | not_enabled hslash hrunning hqueue henabled => simp [ApmEffect.cloned, ApmEffect.freed, hqueue]
  | enables hslash hrunning hqueue => simp [ApmEffect.cloned, ApmEffect.freed, hqueue]
  | passes hqueue henabled => simp [ApmEffect.cloned, ApmEffect.freed, hqueue]
  | works hhandled hqueue henabled => simp [ApmEffect.cloned, ApmEffect.freed, hqueue]
  | _ => simp [ApmEffect.cloned, ApmEffect.freed]

/-- Only an accepted start leaves the prompt without a session. -/
theorem Moves.leaves_rest {after : Apm P × ApmEffect} (h : Moves lib s after) (hrest : s.at_rest) :
    after.1.at_rest ∨ after.2 = .enabled := by
  obtain ⟨hprompt, hstopped⟩ := hrest
  cases h with
  | enables => exact .inr rfl
  | refuses => exact .inl ⟨hprompt, hstopped⟩
  | waits => exact .inl ⟨hprompt, hstopped⟩
  | not_enabled => exact .inl ⟨hprompt, hstopped⟩
  | passes => exact .inl ⟨hprompt, hstopped⟩
  | clones => exact .inl ⟨hprompt, hstopped⟩
  | counts c => exact .inl ⟨hprompt, by cases c <;> exact hstopped⟩
  | works => exact .inl ⟨hprompt, (mon_drainer_mon_running _ _ _).trans hstopped⟩
  | ingests => exact .inl ⟨hprompt, (mon_drainer_mon_running _ _ _).trans hstopped⟩
  | stops hslash hrunning =>
    rw [hstopped] at hrunning
    cases hrunning
  | opens hslash =>
    rw [hprompt] at hslash
    cases hslash
  | opens_not hslash =>
    rw [hprompt] at hslash
    cases hslash
  | creates hslash =>
    rw [hprompt] at hslash
    cases hslash
  | creates_not hslash =>
    rw [hprompt] at hslash
    cases hslash
  | joins hslash =>
    rw [hprompt] at hslash
    cases hslash
  | drains hslash =>
    rw [hprompt] at hslash
    cases hslash
  | closes hslash =>
    rw [hprompt] at hslash
    cases hslash

/-- Unless a start gives up, the monitor comes to rest with an empty queue that takes no clones, and
    stays so. -/
theorem Moves.rested {after : Apm P × ApmEffect} (h : Moves lib s after) (hat : AtStep lib s)
    (hkept : after.2.gave_up = false) (hrest : after.1.at_rest)
    (hrested : s.at_rest → lib.queue s.promisc = [] ∧ lib.enabled s.promisc = false) :
    lib.queue after.1.promisc = [] ∧ lib.enabled after.1.promisc = false := by
  obtain ⟨hprompt, hstopped⟩ := hrest
  cases h with
  | refuses => exact hrested ⟨hprompt, hstopped⟩
  | waits => exact hrested ⟨hprompt, hstopped⟩
  | not_enabled hslash hrunning hqueue henabled =>
    obtain ⟨hempty, hoff⟩ := hrested ⟨hslash, hrunning⟩
    exact ⟨hqueue.trans hempty, henabled.trans hoff⟩
  | passes hqueue henabled =>
    obtain ⟨hempty, hoff⟩ := hrested ⟨hprompt, hstopped⟩
    exact ⟨hqueue.trans hempty, henabled.trans hoff⟩
  | clones hon hqueue henabled =>
    obtain ⟨-, hoff⟩ := hrested ⟨hprompt, hstopped⟩
    rw [hon] at hoff
    cases hoff
  | counts c => exact hrested ⟨hprompt, by cases c <;> exact hstopped⟩
  | works hhandled hqueue henabled =>
    obtain ⟨hempty, hoff⟩ := hrested ⟨hprompt, (mon_drainer_mon_running _ _ _).symm.trans hstopped⟩
    exact ⟨hqueue.trans hempty, henabled.trans hoff⟩
  | ingests hhandled hqueue henabled =>
    obtain ⟨hempty, -⟩ := hrested ⟨hprompt, (mon_drainer_mon_running _ _ _).symm.trans hstopped⟩
    rw [hempty] at hqueue
    cases hqueue
  | closes hslash hempty hqueue henabled =>
    unfold AtStep at hat
    rw [hslash] at hat
    exact ⟨hqueue, henabled.trans hat.2.2.2⟩
  | opens_not => cases hkept
  | creates_not => cases hkept
  | enables => cases hprompt
  | opens => cases hprompt
  | creates => cases hstopped
  | stops => cases hprompt
  | joins => cases hprompt
  | drains hslash =>
    rw [show s.slash = .prompt from hprompt] at hslash
    cases hslash

/-- A move in a session is a step of its monitor's run, or none. -/
theorem Moves.session {after : Apm P × ApmEffect} (h : Moves lib s after) (hat : AtStep lib s)
    {clones : List CspPacket} (hstart : s.slash = .creating → clones = [])
    (hsession : s.in_session → RunOf s.cfg s.monitor clones) (hafter : after.1.in_session) :
    RunOf after.1.cfg after.1.monitor (clones ++ after.2.handled) := by
  obtain ⟨hopen, hcreated⟩ := hafter
  have hcommand := hat
  unfold AtStep at hcommand
  -- the steps of a session that are none of a command's
  have hstep (e : Event) (h : s.in_session) {effect : ApmEffect}
      (heffect : ((csp_monitor_apm.handled s.monitor e).map Prod.snd).toList = effect.handled) :
      RunOf s.cfg (step s.cfg s.monitor e) (clones ++ effect.handled) :=
    heffect ▸ (hsession h).step e
  have hsame (h : s.in_session) : RunOf s.cfg s.monitor (clones ++ []) := by
    rw [List.append_nil]
    exact hsession h
  cases h with
  | refuses => exact hsame ⟨hopen, hcreated⟩
  | waits => exact hsame ⟨hopen, hcreated⟩
  | passes => exact hsame ⟨hopen, hcreated⟩
  | clones => exact hsame ⟨hopen, hcreated⟩
  | drains => exact hsame ⟨hopen, hcreated⟩
  | joins hslash => exact hsame ⟨hopen, by rw [hslash]; nofun⟩
  | stops hslash hrunning =>
    rw [hslash] at hcommand
    exact hstep .stop ⟨hcommand.1.trans hrunning, by rw [hslash]; nofun⟩ rfl
  | counts c => exact hstep (.loss c) ⟨hopen, hcreated⟩ rfl
  | works hhandled => exact hstep (.drain _) ⟨hopen, hcreated⟩ (by rw [hhandled]; rfl)
  | ingests hhandled => exact hstep (.drain _) ⟨hopen, hcreated⟩ (by rw [hhandled]; rfl)
  | creates hslash =>
    rw [hstart hslash]
    exact ⟨_, _, [], rfl, rfl⟩
  | not_enabled hslash hrunning =>
    rw [hslash] at hcommand
    rw [show s.mon_csv_open = true from hopen, hrunning] at hcommand
    cases hcommand.1
  | enables hslash hrunning =>
    rw [hslash] at hcommand
    rw [show s.mon_csv_open = true from hopen, hrunning] at hcommand
    cases hcommand.1
  | opens => exact absurd rfl hcreated
  | opens_not => cases hopen
  | creates_not => cases hopen
  | closes => cases hopen

theorem enabled_quiet {after : Apm P × ApmEffect} (h : Moves lib s after) (heffect : after.2 = .enabled) :
    s.at_rest ∧ after.1.slash = .opening ∧ lib.queue after.1.promisc = lib.queue s.promisc := by
  cases h with
  | enables hslash hrunning hqueue => exact ⟨⟨hslash, hrunning⟩, rfl, hqueue⟩
  | refuses => cases heffect
  | _ => cases heffect

theorem Moves.starting {after : Apm P × ApmEffect} (h : Moves lib s after) (hat : AtStep lib s)
    (hstarting : after.1.slash = .opening ∨ after.1.slash = .creating) (heffect : after.2 ≠ .enabled) :
    (s.slash = .opening ∨ s.slash = .creating) ∧ after.2.handled = [] := by
  cases h with
  | enables => exact absurd rfl heffect
  | opens hslash => exact ⟨.inl hslash, rfl⟩
  | ingests hhandled =>
    -- no thread handles anything yet
    have hreturned : s.monitor.drainer = .returned := by
      unfold AtStep at hat
      rcases hstarting with hslash | hslash <;> rw [show s.slash = _ from hslash] at hat
      · exact hat.2.2.1
      · exact hat.2.2
    simp [csp_monitor_apm.handled, hreturned] at hhandled
  | opens_not => simp at hstarting
  | creates => simp at hstarting
  | creates_not => simp at hstarting
  | stops => simp at hstarting
  | joins => simp at hstarting
  | closes => simp at hstarting
  | _ => exact ⟨hstarting, rfl⟩

/-- A start that cannot open its file leaves the router cloning, and no one to read the clones. -/
theorem Moves.left_on {after : Apm P × ApmEffect} (h : Moves lib s after) (hat : AtStep lib s)
    (heffect : after.2 = .returned SlashRc.SLASH_EIO) : after.1.at_rest ∧ lib.enabled after.1.promisc = true := by
  cases h with
  | opens_not hslash =>
    unfold AtStep at hat
    rw [hslash] at hat
    exact ⟨⟨rfl, hat.1⟩, hat.2.2.2⟩
  | refuses hrc =>
    obtain rfl := ApmEffect.returned.inj heffect
    cases hrc
  | _ => cases heffect

theorem Lifecycle.step {effects : List ApmEffect} {after : Apm P × ApmEffect} (h : Moves lib s after)
    (hlife : Lifecycle lib s effects) : Lifecycle lib after.1 (effects ++ [after.2]) := by
  obtain ⟨hat, hfreed, hsession, hstarting, hrested, hfresh, -⟩ := hlife
  have hqueues := h.queues
  refine ⟨h.at_step hat, ?_, ?_, ?_, ?_, ?_, fun hlast => ?_⟩
  · rw [List.flatMap_append, List.flatMap_append, hfreed, List.append_assoc, List.append_assoc]
    simpa using hqueues
  · intro hafter
    rw [sessionEffects_append]
    split_ifs with heffect
    · obtain ⟨-, hopening, -⟩ := enabled_quiet h heffect
      have hclosed := h.at_step hat
      unfold AtStep at hclosed
      rw [hopening] at hclosed
      have hopen := hafter.1
      rw [hclosed.2.1] at hopen
      cases hopen
    · rw [List.flatMap_append, List.flatMap_singleton]
      exact h.session hat (fun hslash => hstarting (.inr hslash)) hsession hafter
  · intro hslash
    rw [sessionEffects_append]
    split_ifs with heffect
    · rfl
    · obtain ⟨hbefore, hnone⟩ := h.starting hat hslash heffect
      rw [List.flatMap_append, List.flatMap_singleton, hstarting hbefore, hnone]
      rfl
  · intro hkept hrest
    rw [List.any_append, Bool.or_eq_false_iff] at hkept
    have hlast : after.2.gave_up = false := by simpa using hkept.2
    exact h.rested hat hlast hrest (hrested hkept.1)
  · intro hkept hbusy
    rw [List.any_append, Bool.or_eq_false_iff] at hkept
    rw [sessionEffects_append]
    split_ifs with heffect
    · obtain ⟨hrest, -, hqueue⟩ := enabled_quiet h heffect
      rw [hqueue, (hrested hkept.1 hrest).1]
      rfl
    · have hbefore : ¬ s.at_rest := fun hrest => (h.leaves_rest hrest).elim hbusy heffect
      rw [List.flatMap_append, List.flatMap_append, hfresh hkept.1 hbefore, List.append_assoc,
        List.append_assoc, List.flatMap_singleton, List.flatMap_singleton, hqueues]
  · rw [List.getLast?_concat, Option.some.injEq] at hlast
    exact h.left_on hat hlast

theorem apmRun_lifecycle {promisc : P} (hempty : lib.queue promisc = []) (hoff : lib.enabled promisc = false)
    (conn_ovf buffer_out : UInt8) (events : List ApmEvent) :
    Lifecycle lib (apmRun lib (apm_init promisc conn_ovf buffer_out) events).1
      (apmRun lib (apm_init promisc conn_ovf buffer_out) events).2 := by
  apply Transducer.run_history (Lifecycle lib) fun s effects e h => h.step (apmStep_moves s e)
  refine ⟨⟨rfl, fun _ => rfl⟩, hempty.symm, ?_, fun _ => rfl, fun _ _ => ⟨hempty, hoff⟩, ?_, nofun⟩
  · rintro ⟨hopen, -⟩
    cases hopen
  · exact fun _ hbusy => absurd ⟨rfl, rfl⟩ hbusy

/-- What the operator can rely on over all commands and sessions so far. -/
structure SessionsApart (lib : Promisc P) (s : Apm P) (effects : List ApmEffect) : Prop where
  file_open : s.monitor.drainer ≠ .returned → s.mon_csv_open = true
  freed_once : effects.flatMap ApmEffect.cloned = effects.flatMap ApmEffect.freed ++ lib.queue s.promisc
  session : s.in_session → RunOf s.cfg s.monitor ((sessionEffects effects).flatMap ApmEffect.handled)
  at_rest : effects.any ApmEffect.gave_up = false → s.at_rest →
    s.mon_csv_open = false ∧ lib.enabled s.promisc = false ∧
      effects.flatMap ApmEffect.cloned = effects.flatMap ApmEffect.freed
  fresh : effects.any ApmEffect.gave_up = false → s.in_session →
    (sessionEffects effects).flatMap ApmEffect.cloned =
      (sessionEffects effects).flatMap ApmEffect.freed ++ lib.queue s.promisc
  left_on : effects.getLast? = some (.returned SlashRc.SLASH_EIO) → s.at_rest ∧ lib.enabled s.promisc = true

/-- However prompt, drainer and router interleave, and however many sessions there are: the drainer
    writes only while its file is open; each clone is freed at most once, in the order of the queue, and
    between sessions all of them are; a session is a run of the monitor on its own, and what it handles
    is what was cloned since its start. Those about all clones of a session need that no start gave up
    after it had enabled promiscuous mode: one that cannot open its file leaves it on. -/
theorem sessions_apart {promisc : P} (hempty : lib.queue promisc = []) (hoff : lib.enabled promisc = false)
    (conn_ovf buffer_out : UInt8) (events : List ApmEvent) :
    SessionsApart lib (apmRun lib (apm_init promisc conn_ovf buffer_out) events).1
      (apmRun lib (apm_init promisc conn_ovf buffer_out) events).2 := by
  obtain ⟨hat, hfreed, hsession, -, hrested, hfresh, hleft⟩ :=
    apmRun_lifecycle hempty hoff conn_ovf buffer_out events
  generalize apmRun lib (apm_init promisc conn_ovf buffer_out) events = after at *
  refine ⟨fun hbusy => ?_, hfreed, hsession, fun hkept hrest => ?_, fun hkept hin => hfresh hkept fun hrest => ?_,
    hleft⟩
  · unfold AtStep at hat
    cases hslash : after.1.slash <;> simp only [hslash] at hat
    · rw [hat.1, ← Bool.not_eq_false]
      exact fun hstopped => hbusy (hat.2 hstopped)
    · exact absurd hat.2.2.1 hbusy
    · exact hat.2.1
    · exact hat.2
    · exact hat.2.1
  · obtain ⟨hnone, hdisabled⟩ := hrested hkept hrest
    unfold AtStep at hat
    rw [hrest.1] at hat
    refine ⟨hat.1.trans hrest.2, hdisabled, ?_⟩
    rw [hfreed, hnone, List.append_nil]
  · unfold AtStep at hat
    rw [hrest.1] at hat
    have hopen := hin.1
    rw [hat.1, hrest.2] at hopen
    cases hopen

end Promisc

/-- A queue of this length: its flag and what it holds. -/
def boundedPromisc (length : ℕ) : Promisc (Bool × List CspPacket) where
  csp_promisc_enable p := ((true, p.2), .CSP_ERR_NONE)
  csp_promisc_disable p := (false, p.2)
  csp_promisc_add p pk := if p.1 ∧ p.2.length < length then (p.1, p.2 ++ [pk]) else p
  csp_promisc_read p :=
    match p.2 with
    | [] => (p, none)
    | pk :: rest => ((p.1, rest), some pk)
  queue := Prod.snd
  enabled := Prod.fst
  enable_queue _ := rfl
  enable_enabled p := by simp
  disable_queue _ := rfl
  disable_enabled _ := rfl
  add_queue p pk := by
    split_ifs with hroom
    · exact .inr ⟨hroom.1, rfl⟩
    · exact .inl rfl
  add_enabled p pk := by split_ifs <;> rfl
  read_queue p := by
    rcases p with ⟨on, _ | ⟨pk, rest⟩⟩ <;> rfl
  read_none p h := by
    rcases p with ⟨on, _ | ⟨pk, rest⟩⟩
    · rfl
    · cases h
  read_enabled p := by
    rcases p with ⟨on, _ | ⟨pk, rest⟩⟩ <;> rfl

/-- An RDP frame of a flow with this sequence number. -/
def rdpClone (seq : UInt8) : CspPacket := ⟨⟨2, 2, 10, 20, 13, 40⟩, [4, 0, seq, 0, 0]⟩

/-- A session in which the drainer handles a clone, and the stop finds another one in the queue. -/
def fullSession (handled drained : CspPacket) : List ApmEvent :=
  let drain := ApmEvent.drain ⟨0, 0, none, 500⟩
  [.command (.start (some ⟨none, none, none, none, none⟩)), .proceed true, .proceed true, drain, drain, drain,
    .route handled, .route drained, drain, .command .stop, drain, .proceed true, .proceed true, .proceed true]

/-- Two sessions, one after the other. -/
def twoSessions : List ApmEvent :=
  fullSession (rdpClone 1) (rdpClone 2) ++ fullSession (rdpClone 3) (rdpClone 4)

theorem sessions_apart_two :
    let after := apmRun (boundedPromisc 1000) (apm_init (false, []) 0 0) twoSessions
    SessionsApart (boundedPromisc 1000) after.1 after.2 ∧ after.1.mon_csv_open = false ∧
      after.2.flatMap ApmEffect.handled = [rdpClone 1, rdpClone 3] ∧
      after.2.flatMap ApmEffect.freed = [rdpClone 1, rdpClone 2, rdpClone 3, rdpClone 4] := by
  have hapart := @sessions_apart _ (boundedPromisc 1000) (false, []) rfl rfl 0 0 twoSessions
  have hkept : (apmRun (boundedPromisc 1000) (apm_init (false, []) 0 0) twoSessions).2.any ApmEffect.gave_up =
      false := by decide +kernel
  have hrest : (apmRun (boundedPromisc 1000) (apm_init (false, []) 0 0) twoSessions).1.at_rest := by
    constructor <;> decide +kernel
  obtain ⟨hclosed, -, hfreed⟩ := hapart.at_rest hkept hrest
  refine ⟨hapart, hclosed, ?_, hfreed.symm.trans ?_⟩ <;> decide +kernel

end csp_intercept.csp_monitor_apm
