import CspIntercept.Oracle.FragmentIndex

open csp_intercept.ci_dtp
open csp_intercept.ci_drop_iface (CspPacket)

namespace csp_intercept.csp_monitor_apm

/-- What `csp_promisc_enable` answers. -/
inductive EnableRc
  | CSP_ERR_NONE
  | CSP_ERR_USED
  | failed
deriving DecidableEq, Repr

/-- What the monitor relies on of libcsp's promiscuous queue. Disabling only flips a flag, the router
    adds clones while the flag is set and there is room, and reading takes them in order. -/
structure Promisc (P : Type) where
  csp_promisc_enable : P → P × EnableRc
  csp_promisc_disable : P → P
  csp_promisc_add : P → CspPacket → P
  csp_promisc_read : P → P × Option CspPacket
  queue : P → List CspPacket
  enabled : P → Bool
  enable_queue : ∀ p, queue (csp_promisc_enable p).1 = queue p
  enable_enabled : ∀ p, enabled (csp_promisc_enable p).1 =
    (enabled p || (csp_promisc_enable p).2 != .failed)
  disable_queue : ∀ p, queue (csp_promisc_disable p) = queue p
  disable_enabled : ∀ p, enabled (csp_promisc_disable p) = false
  add_queue : ∀ p pk, queue (csp_promisc_add p pk) = queue p ∨
    enabled p = true ∧ queue (csp_promisc_add p pk) = queue p ++ [pk]
  add_enabled : ∀ p pk, enabled (csp_promisc_add p pk) = enabled p
  read_queue : ∀ p, queue p = (csp_promisc_read p).2.toList ++ queue (csp_promisc_read p).1
  read_none : ∀ p, (csp_promisc_read p).2 = none → queue p = []
  read_enabled : ∀ p, enabled (csp_promisc_read p).1 = enabled p

/-- Where the thread of the prompt is: at the prompt, before it opens the file or creates the thread
    for a start, or before it joins the thread or frees the next clone for a stop. -/
inductive SlashAt
  | prompt
  | opening
  | creating
  | joining
  | draining
deriving DecidableEq, Repr

inductive SlashRc
  | SLASH_SUCCESS
  | SLASH_EINVAL
  | SLASH_EIO
  | SLASH_ENOMEM
deriving DecidableEq, Repr

/-- The monitor as the loaded APM holds it: its settings, whether its file is open, the drainer's
    state, and libcsp's queue. -/
structure Apm (P : Type) where
  cfg : MonConfig
  mon_csv_path : List UInt8
  mon_csv_open : Bool
  monitor : Monitor
  promisc : P
  slash : SlashAt

/-- The options of a start that are given. -/
structure StartOptions where
  out : Option (List UInt8)
  dport : Option Int
  window : Option UInt32
  mtu : Option UInt32
  overhead : Option UInt32

/-- A command line; `none` for options that do not parse. -/
inductive Command
  | start (options : Option StartOptions)
  | stop

/-- A command is typed, the prompt's thread goes on with the answer of the call it is at, the router
    sees a packet or counts a loss, or the drainer goes on. -/
inductive ApmEvent
  | command (c : Command)
  | proceed (ok : Bool)
  | route (pk : CspPacket)
  | loss (c : Counter)
  | drain (answers : Answers)

/-- What an event shows: a command's return code, promiscuous mode on for a new session, a clone in
    the queue, or a clone that the drainer or a stop has freed. -/
inductive ApmEffect
  | none
  | returned (rc : SlashRc)
  | enabled
  | added (pk : CspPacket)
  | ingested (pk : CspPacket)
  | drained (pk : CspPacket)
deriving DecidableEq, Repr

section Promisc

variable {P : Type} (lib : Promisc P)

/-- `csp_monitor start` up to its first call that can fail. -/
def csp_monitor_start_cmd (s : Apm P) (options : Option StartOptions) : Apm P × ApmEffect :=
  if s.monitor.mon_running then (s, .returned .SLASH_SUCCESS)
  else
    match options with
    | none => (s, .returned .SLASH_EINVAL)
    | some o =>
      let dport := o.dport.getD s.cfg.mon_match_dport
      let window := o.window.getD s.cfg.mon_window_ms
      let mtu := o.mtu.getD s.cfg.mon_mtu.toUInt32
      let overhead := o.overhead.getD s.cfg.mon_dtp_overhead.toUInt32
      match csp_monitor_start_cmd_geometry mtu overhead with
      | none => (s, .returned .SLASH_EINVAL)
      | some (mon_mtu, mon_dtp_overhead) =>
        let s :=
          { s with
            mon_csv_path := (o.out.map (List.take 255)).getD s.mon_csv_path
            cfg :=
              { s.cfg with mon_match_dport := dport, mon_window_ms := window, mon_mtu, mon_dtp_overhead } }
        match lib.csp_promisc_enable s.promisc with
        | (promisc, .failed) => ({ s with promisc }, .returned .SLASH_EINVAL)
        | (promisc, _) => ({ s with promisc, slash := .opening }, .enabled)

/-- `csp_monitor stop` up to the join. -/
def csp_monitor_stop_cmd (s : Apm P) : Apm P × ApmEffect :=
  if !s.monitor.mon_running then (s, .returned .SLASH_SUCCESS)
  else ({ s with monitor := { s.monitor with mon_running := false }, slash := .joining }, .none)

/-- A command in progress, by one of its calls. -/
def slash_proceed (s : Apm P) (ok : Bool) : Apm P × ApmEffect :=
  match s.slash with
  | .prompt => (s, .none)
  | .opening =>
    if ok then
      ({ s with
          mon_csv_open := true
          monitor := { s.monitor with mon_csv := [], mon_running := true }
          slash := .creating }, .none)
    else ({ s with mon_csv_open := false, slash := .prompt }, .returned SlashRc.SLASH_EIO)
  | .creating =>
    if ok then
      ({ s with
          monitor := csp_monitor_start s.monitor.csp_dbg_conn_ovf s.monitor.csp_dbg_buffer_out
          slash := .prompt }, .returned .SLASH_SUCCESS)
    else
      ({ s with
          monitor := { s.monitor with mon_running := false }
          promisc := lib.csp_promisc_disable s.promisc
          mon_csv_open := false
          slash := .prompt }, .returned .SLASH_ENOMEM)
  -- `pthread_join` waits for the drainer
  | .joining =>
    if s.monitor.drainer = .returned then
      ({ s with promisc := lib.csp_promisc_disable s.promisc, slash := .draining }, .none)
    else (s, .none)
  -- one turn of `mon_drain_residual`
  | .draining =>
    match lib.csp_promisc_read s.promisc with
    | (promisc, some stale) => ({ s with promisc }, .drained stale)
    | (promisc, none) => ({ s with promisc, mon_csv_open := false, slash := .prompt }, .returned .SLASH_SUCCESS)

/-- The drainer's next step; what it reads is what the queue holds. -/
def drainer_step (s : Apm P) (a : Answers) : Apm P × ApmEffect :=
  if s.monitor.drainer = .promisc_read then
    match lib.csp_promisc_read s.promisc with
    | (promisc, some pk) =>
      ({ s with promisc, monitor := mon_drainer s.cfg s.monitor { a with packet := some pk } }, .ingested pk)
    | (promisc, none) =>
      ({ s with promisc, monitor := mon_drainer s.cfg s.monitor { a with packet := none } }, .none)
  else ({ s with monitor := mon_drainer s.cfg s.monitor a }, .none)

/-- The router's hook: it shows whether the clone got into the queue. -/
def promisc_hook (s : Apm P) (pk : CspPacket) : Apm P × ApmEffect :=
  let promisc := lib.csp_promisc_add s.promisc pk
  ({ s with promisc },
    if (lib.queue promisc).length = (lib.queue s.promisc).length then .none else .added pk)

def apmStep (s : Apm P) : ApmEvent → Apm P × ApmEffect
  | .command c =>
    -- the prompt takes a command when the one before it is done
    if s.slash = .prompt then
      match c with
      | .start options => csp_monitor_start_cmd lib s options
      | .stop => csp_monitor_stop_cmd s
    else (s, .none)
  | .proceed ok => slash_proceed lib s ok
  | .route pk => promisc_hook lib s pk
  | .loss c => ({ s with monitor := step s.cfg s.monitor (.loss c) }, .none)
  | .drain a => drainer_step lib s a

/-- Prompt, drainer and router in any interleaving. -/
def apmRun (s : Apm P) (events : List ApmEvent) : Apm P × List ApmEffect :=
  Transducer.run (apmStep lib) s events

/-- The APM as it is loaded. -/
def apm_init (promisc : P) (csp_dbg_conn_ovf csp_dbg_buffer_out : UInt8) : Apm P :=
  { cfg :=
      { mon_match_dport := 13, mon_window_ms := 1000, mon_mtu := 200, mon_dtp_overhead := 4
        mon_buffer_low_water := 100 }
    mon_csv_path := "csp-intercept.csv".toUTF8.toList
    mon_csv_open := false
    monitor :=
      { csp_monitor_start csp_dbg_conn_ovf csp_dbg_buffer_out with mon_running := false, drainer := .returned }
    promisc
    slash := .prompt }

end Promisc

end csp_intercept.csp_monitor_apm
