import CspIntercept.Lib.Stock
import CspIntercept.Proxy.Lossy

open csp_intercept.ci_rule
open csp_intercept.ci_drop_iface (DropLogRow)

namespace csp_intercept.zmqproxy

/-- The modes beside the drop rule. A probability is only compared with zero here: the comparison
    of `rand()` with it is part of the event. -/
structure ProxyModes where
  hdx_node : Int
  hdx_powerup_delay : Int
  hdx_powerdown_delay : Int
  corr_prob : ℚ
  delay_prob : ℚ
  delay_ms : Int

structure DelayedMsg where
  msg : List UInt8
  timestamp_tx : UInt32
  hdx : Bool
deriving DecidableEq, Repr

/-- What libcsp's queue answers, as far as the proxy tells the answers apart. -/
inductive QueueRc
  | CSP_QUEUE_OK
  | refused
deriving DecidableEq, Repr

/-- What the proxy relies on of libcsp's queue: messages go in at the back and come out at the front,
    a call that is refused changes nothing, and one that takes finds a message if there is one. When
    the queue refuses a message is left open. -/
structure CspQueue (Q : Type) where
  csp_queue_create_static : Nat → Q
  csp_queue_size : Q → Nat
  csp_queue_enqueue : Q → DelayedMsg → Q × QueueRc
  csp_queue_dequeue : Q → Q × Option DelayedMsg
  queue : Q → List DelayedMsg
  create_queue : ∀ length, queue (csp_queue_create_static length) = []
  size_queue : ∀ q, csp_queue_size q = (queue q).length
  enqueue_queue : ∀ q dmsg, queue (csp_queue_enqueue q dmsg).1 =
    if (csp_queue_enqueue q dmsg).2 = .CSP_QUEUE_OK then queue q ++ [dmsg] else queue q
  dequeue_queue : ∀ q, queue q = (csp_queue_dequeue q).2.toList ++ queue (csp_queue_dequeue q).1
  dequeue_none : ∀ q, (csp_queue_dequeue q).2 = none → queue q = []

namespace CspQueue

variable {Q : Type} {lib : CspQueue Q} {q q' : Q} {dmsg : DelayedMsg}

theorem queue_of_taken (h : lib.csp_queue_enqueue q dmsg = (q', .CSP_QUEUE_OK)) :
    lib.queue q' = lib.queue q ++ [dmsg] := by
  have hqueue := lib.enqueue_queue q dmsg
  rwa [h, if_pos rfl] at hqueue

theorem queue_of_refused (h : lib.csp_queue_enqueue q dmsg = (q', .refused)) : lib.queue q' = lib.queue q := by
  have hqueue := lib.enqueue_queue q dmsg
  rwa [h, if_neg nofun] at hqueue

theorem queue_of_dequeued (h : lib.csp_queue_dequeue q = (q', some dmsg)) :
    lib.queue q = dmsg :: lib.queue q' := by
  have hqueue := lib.dequeue_queue q
  rwa [h] at hqueue

theorem queue_of_starved (h : lib.csp_queue_dequeue q = (q', none)) : lib.queue q = [] :=
  lib.dequeue_none q (by rw [h])

end CspQueue

/-- Where the delay worker is between two accesses to the queue: about to take its size, with
    so many messages of the scan left, or with a message in hand. -/
inductive DelayWorker
  | front
  | scan (left : Nat)
  | holding (left : Nat) (dmsg : DelayedMsg)
deriving DecidableEq, Repr

/-- The globals of both threads, with libcsp's queue, and the delay worker's position. -/
structure LossyProxy (Q : Type) extends Proxy where
  hdx_powerup_start_ms : UInt32
  hdx_last_tx_ms : UInt32
  delay_handle : Q
  g_delay_drops : Nat
  worker : DelayWorker

/-- One frontend message with everything the iteration asks for: the clock at each place that
    reads it, what the `rand()` comparisons come out as, and the byte and bit to flip. -/
structure LossyEvent extends ProxyEvent where
  gap_ms : UInt32
  start_ms : UInt32
  tx_ms : UInt32
  rx_ms : UInt32
  send_ms : UInt32
  corrupts : Bool
  rand_byte : Nat
  rand_bit : Nat
  delays : Bool

/-- A turn of one of the two threads: an iteration of the main loop on a frontend message, or the
    delay worker's way to its next access to the queue. -/
inductive ProxyTurn
  | frontend (e : LossyEvent)
  | delay_send (now tx_ms : UInt32)

/-- What a turn does with a message. -/
inductive ProxyEffect
  | malformed (msg : List UInt8)
  | hdx_rx_drop (msg : List UInt8)
  | dropped (msg : List UInt8)
  | delayed (dmsg : DelayedMsg)
  | delay_drop (dmsg : DelayedMsg)
  | sent (msg : List UInt8)
  | idle
  | dequeued (dmsg : DelayedMsg)
  | starved
  | delayed_sent (dmsg : DelayedMsg)
  | requeued (dmsg : DelayedMsg)
  | lost (dmsg : DelayedMsg)
deriving DecidableEq, Repr

/-- The length `delay_handle` is created with. -/
def DELAY_QUEUE_LEN : Nat := 1024

/-- The message after the corruption stage. -/
def corrupt (modes : ProxyModes) (e : LossyEvent) : List UInt8 :=
  if 0 < modes.corr_prob && e.corrupts then
    let size := e.msg.length % 4294967296
    if 0 < size then
      e.msg.modify (e.rand_byte % size) (· ^^^ (1 <<< UInt8.ofNat (e.rand_bit % 8)))
    else e.msg
  else e.msg

section Frames

variable {Q : Type} (lib : CspQueue Q) (version : Int) (csp_id_strip : ProxyPacket → Option ProxyPacket)
  (modes : ProxyModes)

/-- Hand a message to the delay worker; a refusal is counted. -/
def LossyProxy.delay (p : LossyProxy Q) (dmsg : DelayedMsg) : LossyProxy Q × ProxyEffect :=
  match lib.csp_queue_enqueue p.delay_handle dmsg with
  | (delay_handle, .CSP_QUEUE_OK) => ({ p with delay_handle }, .delayed dmsg)
  | (delay_handle, .refused) =>
    ({ p with delay_handle, g_delay_drops := p.g_delay_drops + 1 }, .delay_drop dmsg)

/-- Half duplex on the target node: what ends the iteration here, or `none`. -/
def hdx_gate (p : LossyProxy Q) (e : LossyEvent) : LossyProxy Q × Option ProxyEffect :=
  if modes.hdx_node = 0 then (p, none)
  else if !proxy_frame_fits version (datalen e.msg) then
    ({ p with g_malformed_frames := p.g_malformed_frames + 1 }, some (.malformed e.msg))
  else
    let received := p.packet.receive e.msg
    let packet := (csp_id_strip received).getD received
    let p := { p with packet }
    let powerdown_delay := UInt32.ofInt modes.hdx_powerdown_delay
    let from_node := packet.id.src.toNat = modes.hdx_node
    if from_node ∧ e.gap_ms > p.hdx_last_tx_ms + powerdown_delay then
      let p := if p.hdx_powerup_start_ms = 0 then { p with hdx_powerup_start_ms := e.start_ms } else p
      let (p, effect) := p.delay lib
        { msg := e.msg
          timestamp_tx := p.hdx_powerup_start_ms + UInt32.ofInt modes.hdx_powerup_delay
          hdx := true }
      (p, some effect)
    else
      let p := if from_node then { p with hdx_last_tx_ms := e.tx_ms } else p
      if packet.id.dst.toNat = modes.hdx_node ∧ p.hdx_last_tx_ms + powerdown_delay > e.rx_ms then
        (p, some (.hdx_rx_drop e.msg))
      else (p, none)

/-- The drop decision on a message, `none` for one that does not fit. -/
def drop_decision (p : Proxy) (e : ProxyEvent) : Proxy × Option Bool :=
  if 0 ≤ p.g_rule.match_dport then
    if !proxy_frame_fits version (datalen e.msg) then
      ({ p with g_malformed_frames := p.g_malformed_frames + 1 }, none)
    else
      let received := p.packet.receive e.msg
      let packet := (csp_id_strip received).getD received
      let p := { p with packet }
      let data := packet.data version
      let f := ci_frame_from_fields packet.id.dport packet.id.flags data
      if ci_rule_match p.g_rule f then
        let (p, idx) := proxy_flow_index p data f
        let drop := ci_rule_decide p.g_rule idx
        let row : DropLogRow :=
          { t_ms := e.now, src := packet.id.src, dport := packet.id.dport, csp_flags := packet.id.flags
            is_rdp := f.is_rdp, index := idx, epoch := p.g_epoch, dropped := drop }
        ({ p with g_drop_log := p.g_drop_log.map (· ++ [row]) }, some drop)
      else (p, some false)
  else (p, some e.legacy_drop)

/-- One frontend message through the loop, with every stage. -/
def zmq_proxy_lossy_frontend (p : LossyProxy Q) (e : LossyEvent) : LossyProxy Q × ProxyEffect :=
  match hdx_gate lib version csp_id_strip modes p e with
  | (p, some effect) => (p, effect)
  | (p, none) =>
    let msg := corrupt modes e
    match drop_decision version csp_id_strip p.toProxy { e.toProxyEvent with msg } with
    | (q, none) => ({ p with toProxy := q }, .malformed msg)
    | (q, some true) => ({ p with toProxy := { q with g_drops := q.g_drops + 1 } }, .dropped msg)
    | (q, some false) =>
      if 0 < modes.delay_prob && e.delays then
        { p with toProxy := q }.delay lib
          { msg, timestamp_tx := e.send_ms + UInt32.ofInt modes.delay_ms, hdx := false }
      else ({ p with toProxy := { q with g_kept := q.g_kept + 1 } }, .sent msg)

/-- The delay worker up to and including its next access to the queue. Its second answer from
    the clock is only read after a half-duplex message. -/
def task_delay_send (p : LossyProxy Q) (now tx_ms : UInt32) : LossyProxy Q × ProxyEffect :=
  match p.worker with
  | .front => ({ p with worker := .scan (lib.csp_queue_size p.delay_handle) }, .idle)
  | .scan 0 => ({ p with worker := .front }, .idle)
  | .scan (left + 1) =>
    match lib.csp_queue_dequeue p.delay_handle with
    -- nothing was written to `dmsg`
    | (delay_handle, none) => ({ p with delay_handle }, .starved)
    | (delay_handle, some dmsg) => ({ p with delay_handle, worker := .holding left dmsg }, .dequeued dmsg)
  | .holding left dmsg =>
    if now > dmsg.timestamp_tx then
      let p := { p with worker := .front }
      if dmsg.hdx then ({ p with hdx_last_tx_ms := tx_ms, hdx_powerup_start_ms := 0 }, .delayed_sent dmsg)
      else (p, .delayed_sent dmsg)
    else
      match lib.csp_queue_enqueue p.delay_handle dmsg with
      | (delay_handle, .CSP_QUEUE_OK) => ({ p with delay_handle, worker := .scan left }, .requeued dmsg)
      -- the answer of the queue is not looked at
      | (delay_handle, .refused) => ({ p with delay_handle, worker := .scan left }, .lost dmsg)

/-- The worker is only started in a mode that delays. -/
def ProxyModes.spawns_worker : Bool :=
  0 < modes.delay_prob || 0 < modes.delay_ms || modes.hdx_node ≠ 0

def zmq_proxy_lossy_turn (p : LossyProxy Q) : ProxyTurn → LossyProxy Q × ProxyEffect
  | .frontend e => zmq_proxy_lossy_frontend lib version csp_id_strip modes p e
  | .delay_send now tx_ms =>
    if modes.spawns_worker then task_delay_send lib p now tx_ms else (p, .idle)

/-- Both threads, in any interleaving of their turns. -/
def lossyRun (p : LossyProxy Q) (turns : List ProxyTurn) : LossyProxy Q × List ProxyEffect :=
  Transducer.run (zmq_proxy_lossy_turn lib version csp_id_strip modes) p turns

/-- The state before the first turn. -/
def zmq_proxy_lossy_init (rule : CiDropRule) (mtu overhead : UInt16) (packet : ProxyPacket) : LossyProxy Q :=
  { zmq_proxy_lossy_start rule mtu overhead packet with
    hdx_powerup_start_ms := 0
    hdx_last_tx_ms := 0
    delay_handle := lib.csp_queue_create_static DELAY_QUEUE_LEN
    g_delay_drops := 0
    worker := .front }

end Frames

/-- A queue with room for so many messages. -/
def boundedQueue : CspQueue (Nat × List DelayedMsg) where
  csp_queue_create_static length := (length, [])
  csp_queue_size q := q.2.length
  csp_queue_enqueue q dmsg :=
    if q.2.length < q.1 then ((q.1, q.2 ++ [dmsg]), .CSP_QUEUE_OK) else (q, .refused)
  csp_queue_dequeue q := ((q.1, q.2.tail), q.2.head?)
  queue := Prod.snd
  create_queue _ := rfl
  size_queue _ := rfl
  enqueue_queue q dmsg := by split_ifs <;> simp_all
  dequeue_queue q := by rcases q with ⟨length, _ | ⟨dmsg, queue⟩⟩ <;> simp
  dequeue_none q h := List.head?_eq_none_iff.mp h

/-- With the other modes off, the loop counts the decision and acts on it. -/
theorem zmq_proxy_lossy_step_eq (version : Int) (csp_id_strip : ProxyPacket → Option ProxyPacket) (p : Proxy)
    (e : ProxyEvent) :
    zmq_proxy_lossy_step version csp_id_strip p e =
      match drop_decision version csp_id_strip p e with
      | (q, none) => (q, .malformed)
      | (q, some true) => ({ q with g_drops := q.g_drops + 1 }, .dropped)
      | (q, some false) => ({ q with g_kept := q.g_kept + 1 }, .sent e.msg) := by
  unfold zmq_proxy_lossy_step drop_decision
  split_ifs with hdport hfits
  · rfl
  · dsimp only
    split_ifs with hmatch hdrop
    · simp only [hdrop]
    · rw [Bool.not_eq_true] at hdrop
      simp only [hdrop]
    · rfl
  · next hlegacy => simp only [hlegacy]
  · next hlegacy =>
    rw [Bool.not_eq_true] at hlegacy
    simp only [hlegacy]

end csp_intercept.zmqproxy
