import CspIntercept.Proxy.InFlight
import CspIntercept.Proxy.Interchange

open csp_intercept.ci_rule csp_intercept.ci_drop_iface

namespace csp_intercept.zmqproxy

def ProxyTurn.is_delay_send : ProxyTurn → Bool
  | .frontend _ => false
  | .delay_send _ _ => true

/-- The message in the worker's hand, if any, is due when the worker looks at the clock. -/
def FindsDue (worker : DelayWorker) : ProxyTurn → Prop
  | .frontend _ => True
  | .delay_send now _ => ∀ dmsg ∈ worker.held, dmsg.timestamp_tx < now

/-- The message the main loop hands to the worker. -/
def ProxyEffect.taken_over : ProxyEffect → List DelayedMsg
  | .delayed dmsg => [dmsg]
  | _ => []

/-- The message the worker sends. -/
def ProxyEffect.given_out : ProxyEffect → List DelayedMsg
  | .delayed_sent dmsg => [dmsg]
  | _ => []

instance (worker : DelayWorker) : (t : ProxyTurn) → Decidable (FindsDue worker t)
  | .frontend _ => .isTrue trivial
  | .delay_send now _ => inferInstanceAs (Decidable (∀ dmsg ∈ worker.held, dmsg.timestamp_tx < now))

/-- How far the worker's position is from taking the front of the queue, or from being able to. -/
def DelayWorker.phase : DelayWorker → Nat
  | .scan (_ + 1) => 1
  | .front => 2
  | .scan 0 => 3
  | .holding _ _ => 4

/-- How many turns of the worker can pass before it has the message in hand. -/
def Books.distance (dmsg : DelayedMsg) (b : Books) : Nat :=
  if b.worker.held = [dmsg] then 0 else 4 * b.queue.idxOf dmsg + b.worker.phase

section Books

variable {modes : ProxyModes} {b : Books} {dmsg : DelayedMsg} {after : Books × ProxyEffect}

/-- The message waits for the worker. -/
structure Waits (dmsg : DelayedMsg) (b : Books) : Prop where
  sound : b.Sound
  mem : dmsg ∈ b.in_flight

theorem waits_iff (hsound : b.Sound) : Waits dmsg b ↔ b.worker.held = [dmsg] ∨ dmsg ∈ b.queue := by
  constructor
  · rintro ⟨-, hmem⟩
    rcases List.mem_append.mp hmem with hheld | hqueue
    · cases hworker : b.worker <;> simp_all [DelayWorker.held]
    · exact .inr hqueue
  · intro h
    refine ⟨hsound, List.mem_append.mpr (h.imp (fun hheld => ?_) id)⟩
    rw [hheld]
    exact List.mem_singleton_self dmsg

theorem distance_le (h : Waits dmsg b) : b.distance dmsg ≤ 4 * b.queue.length := by
  unfold Books.distance
  rcases (waits_iff h.sound).mp h with hheld | hqueue
  · rw [if_pos hheld]
    exact Nat.zero_le _
  · have hlt := List.idxOf_lt_length_of_mem hqueue
    have hphase : b.worker.phase ≤ 4 := by
      rcases b.worker with _ | _ | _ <;> simp [DelayWorker.phase]
      split <;> simp
    split_ifs <;> omega

/-- An iteration of the main loop puts nothing in front of the message. -/
theorem Handles.waits {e : LossyEvent} (h : Handles modes e b after) (hwaits : Waits dmsg b) :
    Waits dmsg after.1 ∧ after.1.distance dmsg ≤ b.distance dmsg := by
  have hworker : after.1.worker = b.worker := by
    rw [h.books]
    cases after.2 <;> rfl
  have hgrows : b.queue <+: after.1.queue := by
    rw [h.books]
    cases after.2
    case delayed => exact List.prefix_append _ _
    all_goals exact List.prefix_refl _
  have hsound := h.sound hwaits.sound
  obtain ⟨back, hback⟩ := hgrows
  have hin := (waits_iff hwaits.sound).mp hwaits
  refine ⟨(waits_iff hsound).mpr ?_, ?_⟩
  · rw [hworker]
    exact hin.imp id fun hmem => hback ▸ List.mem_append_left _ hmem
  · unfold Books.distance
    rw [hworker]
    split_ifs with hheld
    · exact le_rfl
    · rw [← hback, List.idxOf_append_of_mem (hin.resolve_left hheld)]

theorem distance_of_held (h : b.worker.held = [dmsg]) : b.distance dmsg = 0 := if_pos h

theorem distance_of_queued (h : b.worker.held ≠ [dmsg]) :
    b.distance dmsg = 4 * b.queue.idxOf dmsg + b.worker.phase := if_neg h

theorem held_ne {left : Nat} {other : DelayedMsg} (hne : other ≠ dmsg) :
    (DelayWorker.holding left other).held ≠ [dmsg] := by
  intro hheld
  exact hne (List.singleton_injective hheld)

theorem phase_scan_le (left : Nat) : (DelayWorker.scan left).phase ≤ 3 := by
  cases left <;> simp [DelayWorker.phase]

/-- A turn of the worker brings it nearer to the message, or sends it when it is due. -/
theorem Works.nearer {now : UInt32} (h : Works b now after) (hwaits : Waits dmsg b)
    (hdue : dmsg.timestamp_tx < now) :
    after.2 = .delayed_sent dmsg ∨ Waits dmsg after.1 ∧ after.1.distance dmsg + 1 ≤ b.distance dmsg := by
  have hin := (waits_iff hwaits.sound).mp hwaits
  have hsound := h.sound hwaits.sound
  cases h with
  | sizes hworker =>
    have hmem := hin.resolve_left (by simp [hworker, DelayWorker.held])
    refine .inr ⟨(waits_iff hsound).mpr (.inr hmem), ?_⟩
    obtain ⟨n, hlength⟩ := Nat.exists_eq_add_one.mpr (List.length_pos_of_mem hmem)
    rw [distance_of_queued (by simp [DelayWorker.held]), distance_of_queued (by simp [hworker, DelayWorker.held]),
      hworker, hlength]
    simp only [DelayWorker.phase]
    omega
  | sleeps hworker =>
    have hmem := hin.resolve_left (by simp [hworker, DelayWorker.held])
    refine .inr ⟨(waits_iff hsound).mpr (.inr hmem), ?_⟩
    rw [distance_of_queued (by simp [DelayWorker.held]), distance_of_queued (by simp [hworker, DelayWorker.held]),
      hworker]
    simp only [DelayWorker.phase]
    omega
  | @takes left front queue hworker hqueue =>
    have hmem := hin.resolve_left (by simp [hworker, DelayWorker.held])
    have hbefore : b.distance dmsg = 4 * b.queue.idxOf dmsg + 1 := by
      rw [distance_of_queued (by simp [hworker, DelayWorker.held]), hworker]
      rfl
    right
    by_cases hfront : front = dmsg
    · subst hfront
      refine ⟨(waits_iff hsound).mpr (.inl rfl), ?_⟩
      rw [distance_of_held rfl, hbefore]
      omega
    · rw [hqueue] at hmem hbefore
      have hrest := List.mem_of_ne_of_mem (Ne.symm hfront) hmem
      refine ⟨(waits_iff hsound).mpr (.inr hrest), ?_⟩
      rw [distance_of_queued (held_ne hfront), hbefore, List.idxOf_cons_ne queue hfront]
      simp only [DelayWorker.phase]
      omega
  | @sends left sent hworker hmsg =>
    by_cases hsent : sent = dmsg
    · exact .inl (congrArg ProxyEffect.delayed_sent hsent)
    · have hmem := hin.resolve_left (hworker ▸ held_ne hsent)
      refine .inr ⟨(waits_iff hsound).mpr (.inr hmem), ?_⟩
      rw [distance_of_queued (by simp [DelayWorker.held]), distance_of_queued (hworker ▸ held_ne hsent), hworker]
      simp only [DelayWorker.phase]
      omega
  | @requeues left other hworker hundue =>
    have hne : other ≠ dmsg := fun heq => hundue (heq ▸ hdue)
    have hmem := hin.resolve_left (hworker ▸ held_ne hne)
    refine .inr ⟨(waits_iff hsound).mpr (.inr (List.mem_append_left _ hmem)), ?_⟩
    have hphase := phase_scan_le left
    rw [distance_of_queued (by simp [DelayWorker.held]), distance_of_queued (hworker ▸ held_ne hne), hworker,
      List.idxOf_append_of_mem hmem]
    simp only [DelayWorker.phase] at hphase ⊢
    omega
  | @loses left other hworker hundue =>
    have hne : other ≠ dmsg := fun heq => hundue (heq ▸ hdue)
    have hmem := hin.resolve_left (hworker ▸ held_ne hne)
    refine .inr ⟨(waits_iff hsound).mpr (.inr hmem), ?_⟩
    have hphase := phase_scan_le left
    rw [distance_of_queued (by simp [DelayWorker.held]), distance_of_queued (hworker ▸ held_ne hne), hworker]
    simp only [DelayWorker.phase] at hphase ⊢
    omega

theorem Turns.nearer {t : ProxyTurn} (h : Turns modes b t after) (hspawns : modes.spawns_worker = true)
    (hwaits : Waits dmsg b) (hdue : ∀ now tx_ms, t = .delay_send now tx_ms → dmsg.timestamp_tx < now) :
    after.2 = .delayed_sent dmsg ∨ Waits dmsg after.1 ∧
      after.1.distance dmsg + (if t.is_delay_send then 1 else 0) ≤ b.distance dmsg := by
  cases h with
  | handles h => exact .inr (h.waits hwaits)
  | @works now tx_ms after h => exact h.nearer hwaits (hdue now tx_ms rfl)
  | unspawned h =>
    rw [hspawns] at h
    cases h

/-- A turn at which the message in hand is due takes from the front what it lets in at the back. -/
theorem Turns.queues {t : ProxyTurn} (h : Turns modes b t after) (hdue : FindsDue b.worker t) :
    b.in_flight ++ after.2.taken_over = after.2.given_out ++ after.1.in_flight := by
  cases h with
  | handles h =>
    obtain ⟨b', effect⟩ := after
    have harrived := h.arrived
    have hbooks : b' = b.enter effect := h.books
    subst hbooks
    cases effect
    case delayed => exact List.append_assoc _ _ _
    case delayed_sent => simp [ProxyEffect.arrived] at harrived
    all_goals exact List.append_nil _
  | @works now tx_ms after h =>
    unfold Books.in_flight
    cases h with
    | sizes hworker => simp [hworker, DelayWorker.held, ProxyEffect.taken_over, ProxyEffect.given_out]
    | sleeps hworker => simp [hworker, DelayWorker.held, ProxyEffect.taken_over, ProxyEffect.given_out]
    | takes hworker hqueue =>
      simp [hworker, hqueue, DelayWorker.held, ProxyEffect.taken_over, ProxyEffect.given_out]
    | sends hworker hmsg => simp [hworker, DelayWorker.held, ProxyEffect.taken_over, ProxyEffect.given_out]
    | @requeues left dmsg hworker hundue =>
      exact absurd (hdue dmsg (by simp [hworker, DelayWorker.held])) hundue
    | @loses left dmsg hworker hundue =>
      exact absurd (hdue dmsg (by simp [hworker, DelayWorker.held])) hundue
  | unspawned => exact List.append_nil _

end Books

section Progress

variable {Q : Type} (lib : CspQueue Q) (version : Int) (csp_id_strip : ProxyPacket → Option ProxyPacket)
  (modes : ProxyModes)

/-- A message that waits and is due goes out within four turns of the worker for each message in the
    queue, and one more, whatever the main loop does meanwhile and whatever else waits. -/
theorem due_message_sent (hspawns : modes.spawns_worker = true) (rule : CiDropRule) (mtu overhead : UInt16)
    (packet : ProxyPacket) {before turns : List ProxyTurn} {p : LossyProxy Q} {dmsg : DelayedMsg}
    (hbefore : (lossyRun lib version csp_id_strip modes
      (zmq_proxy_lossy_init lib rule mtu overhead packet) before).1 = p)
    (hwaits : dmsg ∈ (p.books lib).in_flight)
    (hdue : ∀ now tx_ms, ProxyTurn.delay_send now tx_ms ∈ turns → dmsg.timestamp_tx < now)
    (hturns : 4 * lib.csp_queue_size p.delay_handle < turns.countP ProxyTurn.is_delay_send) :
    .delayed_sent dmsg ∈ (lossyRun lib version csp_id_strip modes p turns).2 := by
  have hinit := sound_init lib rule mtu overhead packet
  have hstart : Waits dmsg (p.books lib) := ⟨hbefore ▸ run_sound version csp_id_strip modes hinit before, hwaits⟩
  have hstep (q : LossyProxy Q) (t : ProxyTurn) (ht : t ∈ turns) (hq : Waits dmsg (q.books lib)) :=
    (turn_turns version csp_id_strip modes hq.sound t).nearer hspawns hq fun now tx_ms heq =>
      hdue now tx_ms (heq ▸ ht)
  rw [lib.size_queue] at hturns
  obtain ⟨effect, hmem, heffect⟩ := Transducer.run_reaches (fun q : LossyProxy Q => Waits dmsg (q.books lib))
    ProxyTurn.is_delay_send (fun effect => effect = ProxyEffect.delayed_sent dmsg)
    (fun q : LossyProxy Q => (q.books lib).distance dmsg) hstep hstart ((distance_le hstart).trans_lt hturns)
  exact heffect ▸ hmem

/-- While the message in the worker's hand is due whenever the worker looks at the clock, the worker is
    a channel that keeps the order: what waited and what was handed over since is what it sent and what
    still waits. -/
theorem due_messages_in_order (rule : CiDropRule) (mtu overhead : UInt16) (packet : ProxyPacket)
    {before turns : List ProxyTurn} {p : LossyProxy Q} {after : LossyProxy Q × List ProxyEffect}
    (hbefore : (lossyRun lib version csp_id_strip modes
      (zmq_proxy_lossy_init lib rule mtu overhead packet) before).1 = p)
    (hafter : lossyRun lib version csp_id_strip modes p turns = after)
    (hdue : ∀ n (hn : n < turns.length),
      FindsDue (lossyRun lib version csp_id_strip modes p (turns.take n)).1.worker turns[n]) :
    (p.books lib).in_flight ++ after.2.flatMap ProxyEffect.taken_over =
      after.2.flatMap ProxyEffect.given_out ++ (after.1.books lib).in_flight := by
  have hinit := sound_init lib rule mtu overhead packet
  have hsound : (p.books lib).Sound := hbefore ▸ run_sound version csp_id_strip modes hinit before
  subst hafter
  exact Transducer.run_queues (fun q : LossyProxy Q => (q.books lib).Sound)
    (fun q => (q.books lib).in_flight) ProxyEffect.taken_over ProxyEffect.given_out
    (fun q t => FindsDue q.worker t)
    (fun q t hq => (turn_turns version csp_id_strip modes hq t).sound hq)
    (fun q t hq hready => (turn_turns version csp_id_strip modes hq t).queues hready) hsound hdue

end Progress

/-- Every message is delayed by 5 ms. -/
def delayModes : ProxyModes :=
  { hdx_node := 0, hdx_powerup_delay := 30, hdx_powerdown_delay := 100, corr_prob := 0, delay_prob := 1
    delay_ms := 5 }

/-- A message that comes in 10 ms after start-up. -/
def delayedEvent : LossyEvent :=
  { droppedEvent with
    gap_ms := 10, start_ms := 10, tx_ms := 10, rx_ms := 10, send_ms := 10
    corrupts := false, rand_byte := 0, rand_bit := 0, delays := true }

/-- The proxy without a port to match. -/
def delayingProxy : LossyProxy (Nat × List DelayedMsg) :=
  zmq_proxy_lossy_init boundedQueue { dropAllRule with match_dport := -1 } 200 4
    ⟨droppedCall.packet.id, 0, 0, []⟩

/-- A message that is not due for long is in the worker's hand, one that is due soon behind it. -/
def delayingTurns : List ProxyTurn :=
  [.frontend { delayedEvent with send_ms := 100 }, .frontend delayedEvent, .delay_send 20 20, .delay_send 20 20]

theorem due_message_sent_five :
    .delayed_sent ⟨delayedEvent.msg, 15, false⟩ ∈
      (lossyRun boundedQueue 2 stripDropped delayModes
        (lossyRun boundedQueue 2 stripDropped delayModes delayingProxy delayingTurns).1
        (List.replicate 5 (.delay_send 20 20))).2 := by
  apply due_message_sent boundedQueue 2 stripDropped delayModes (by decide) { dropAllRule with match_dport := -1 }
    200 4 ⟨droppedCall.packet.id, 0, 0, []⟩ rfl
  · decide
  · intro now tx_ms hmem
    obtain ⟨rfl, -⟩ := ProxyTurn.delay_send.inj (List.eq_of_mem_replicate hmem)
    decide
  · decide

/-- The second message comes in when the first has gone out. -/
theorem due_messages_in_order_two :
    let p := (lossyRun boundedQueue 2 stripDropped delayModes delayingProxy [.frontend delayedEvent]).1
    let later : LossyEvent := { delayedEvent with send_ms := 30 }
    let turns := List.replicate 3 (.delay_send 20 20) ++ .frontend later :: List.replicate 3 (.delay_send 40 40)
    let after := lossyRun boundedQueue 2 stripDropped delayModes p turns
    (p.books boundedQueue).in_flight ++ after.2.flatMap ProxyEffect.taken_over =
      after.2.flatMap ProxyEffect.given_out ++ (after.1.books boundedQueue).in_flight := by
  apply due_messages_in_order boundedQueue 2 stripDropped delayModes { dropAllRule with match_dport := -1 }
    200 4 ⟨droppedCall.packet.id, 0, 0, []⟩ rfl rfl
  decide

end csp_intercept.zmqproxy
