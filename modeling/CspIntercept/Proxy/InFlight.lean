import CspIntercept.Proxy.Delay

open csp_intercept.ci_rule

namespace csp_intercept.zmqproxy

/-- How many messages of its scan the worker has not looked at. -/
def DelayWorker.left : DelayWorker → Nat
  | .front => 0
  | .scan left => left
  | .holding left _ => left

/-- The message in the worker's hand. -/
def DelayWorker.held : DelayWorker → List DelayedMsg
  | .holding _ dmsg => [dmsg]
  | _ => []

namespace ProxyEffect

/-- The message that came in, of an effect on a frontend message. -/
def arrived : ProxyEffect → List (List UInt8)
  | .malformed msg => [msg]
  | .hdx_rx_drop msg => [msg]
  | .dropped msg => [msg]
  | .delayed dmsg => [dmsg.msg]
  | .delay_drop dmsg => [dmsg.msg]
  | .sent msg => [msg]
  | _ => []

/-- What goes out on the backend. -/
def published : ProxyEffect → List (List UInt8)
  | .sent msg => [msg]
  | .delayed_sent dmsg => [dmsg.msg]
  | _ => []

/-- What is given up. -/
def discarded : ProxyEffect → List (List UInt8)
  | .malformed msg => [msg]
  | .hdx_rx_drop msg => [msg]
  | .dropped msg => [msg]
  | .delay_drop dmsg => [dmsg.msg]
  | .lost dmsg => [dmsg.msg]
  | _ => []

def is_malformed : ProxyEffect → Bool
  | .malformed _ => true
  | _ => false

def is_dropped : ProxyEffect → Bool
  | .dropped _ => true
  | _ => false

def is_delay_drop : ProxyEffect → Bool
  | .delay_drop _ => true
  | _ => false

def is_sent : ProxyEffect → Bool
  | .sent _ => true
  | _ => false

/-- A frontend message that no counter of the summary shows. -/
def is_uncounted : ProxyEffect → Bool
  | .hdx_rx_drop _ => true
  | .delayed _ => true
  | _ => false

end ProxyEffect

/-- What both threads do with the messages, without how: the counters of the summary, the messages in
    the queue and the worker's position. -/
structure Books where
  g_malformed_frames : Nat
  g_drops : Nat
  g_delay_drops : Nat
  g_kept : Nat
  queue : List DelayedMsg
  worker : DelayWorker

namespace Books

/-- What an effect on a frontend message enters into the books. -/
def enter (b : Books) : ProxyEffect → Books
  | .malformed _ => { b with g_malformed_frames := b.g_malformed_frames + 1 }
  | .dropped _ => { b with g_drops := b.g_drops + 1 }
  | .delayed dmsg => { b with queue := b.queue ++ [dmsg] }
  | .delay_drop _ => { b with g_delay_drops := b.g_delay_drops + 1 }
  | .sent _ => { b with g_kept := b.g_kept + 1 }
  | _ => b

/-- The messages that wait for their time, the one in the worker's hand first. -/
def in_flight (b : Books) : List DelayedMsg := b.worker.held ++ b.queue

/-- The messages that wait, as they came in. -/
def waiting (b : Books) : List (List UInt8) := b.in_flight.map DelayedMsg.msg

/-- The queue holds what the worker's scan still expects. -/
def Sound (b : Books) : Prop := b.worker.left ≤ b.queue.length

end Books

/-- What an iteration of the main loop can do: it handles the message it received, as it came in
    or with a bit flipped, and enters what became of it into the books. -/
structure Handles (modes : ProxyModes) (e : LossyEvent) (b : Books) (after : Books × ProxyEffect) : Prop where
  arrived : after.2.arrived = [e.msg] ∨ after.2.arrived = [corrupt modes e]
  books : after.1 = b.enter after.2

/-- What a turn of the delay worker can do: start a scan, end one, take the front of the queue, or be
    done with the message in hand, which goes out when it is due and otherwise back to the queue, which
    may refuse it. -/
inductive Works (b : Books) (now : UInt32) : Books × ProxyEffect → Prop
  | sizes (hworker : b.worker = .front) : Works b now ({ b with worker := .scan b.queue.length }, .idle)
  | sleeps (hworker : b.worker = .scan 0) : Works b now ({ b with worker := .front }, .idle)
  | takes {left : Nat} {dmsg : DelayedMsg} {queue : List DelayedMsg} (hworker : b.worker = .scan (left + 1))
      (hqueue : b.queue = dmsg :: queue) :
      Works b now ({ b with queue, worker := .holding left dmsg }, .dequeued dmsg)
  | sends {left : Nat} {dmsg : DelayedMsg} (hworker : b.worker = .holding left dmsg)
      (hdue : dmsg.timestamp_tx < now) : Works b now ({ b with worker := .front }, .delayed_sent dmsg)
  | requeues {left : Nat} {dmsg : DelayedMsg} (hworker : b.worker = .holding left dmsg)
      (hundue : ¬ dmsg.timestamp_tx < now) :
      Works b now ({ b with queue := b.queue ++ [dmsg], worker := .scan left }, .requeued dmsg)
  | loses {left : Nat} {dmsg : DelayedMsg} (hworker : b.worker = .holding left dmsg)
      (hundue : ¬ dmsg.timestamp_tx < now) : Works b now ({ b with worker := .scan left }, .lost dmsg)

/-- What a turn of either thread can do. -/
inductive Turns (modes : ProxyModes) (b : Books) : ProxyTurn → Books × ProxyEffect → Prop
  | handles {e : LossyEvent} {after : Books × ProxyEffect} (h : Handles modes e b after) :
      Turns modes b (.frontend e) after
  | works {now tx_ms : UInt32} {after : Books × ProxyEffect} (h : Works b now after) :
      Turns modes b (.delay_send now tx_ms) after
  | unspawned {now tx_ms : UInt32} (h : modes.spawns_worker = false) :
      Turns modes b (.delay_send now tx_ms) (b, .idle)

section Books

variable {modes : ProxyModes} {e : LossyEvent} {b : Books} {t : ProxyTurn} {after : Books × ProxyEffect}

theorem Handles.sound (h : Handles modes e b after) (hsound : b.Sound) : after.1.Sound := by
  have hcovered : b.worker.left ≤ b.queue.length := hsound
  rw [h.books]
  cases after.2
  case delayed dmsg =>
    change b.worker.left ≤ (b.queue ++ [dmsg]).length
    rw [List.length_append]
    omega
  all_goals exact hcovered

theorem Works.sound {now : UInt32} (h : Works b now after) (hsound : b.Sound) : after.1.Sound := by
  unfold Books.Sound at hsound ⊢
  cases h with
  | sizes hworker => exact le_rfl
  | sleeps hworker => exact Nat.zero_le _
  | takes hworker hqueue =>
    rw [hworker, hqueue, List.length_cons, DelayWorker.left] at hsound
    exact Nat.le_of_succ_le_succ hsound
  | sends hworker hdue => exact Nat.zero_le _
  | requeues hworker hundue =>
    rw [hworker] at hsound
    dsimp only [DelayWorker.left] at hsound ⊢
    rw [List.length_append]
    omega
  | loses hworker hundue =>
    rw [hworker] at hsound
    exact hsound

theorem Turns.sound (h : Turns modes b t after) (hsound : b.Sound) : after.1.Sound := by
  cases h with
  | handles h => exact h.sound hsound
  | works h => exact h.sound hsound
  | unspawned => exact hsound

/-- A turn takes a message in, gives one out or up, or leaves all of them where they are. -/
theorem Turns.conserves (h : Turns modes b t after) :
    (b.waiting ++ after.2.arrived).Perm ((after.2.published ++ after.2.discarded) ++ after.1.waiting) := by
  cases h with
  | handles h =>
    obtain ⟨b', effect⟩ := after
    have harrived := h.arrived
    have hbooks : b' = b.enter effect := h.books
    subst hbooks
    cases effect
    case delayed dmsg =>
      simp only [Books.waiting, Books.in_flight, Books.enter, ProxyEffect.arrived, ProxyEffect.published,
        ProxyEffect.discarded, List.map_append, List.map_cons, List.map_nil, List.nil_append,
        List.append_assoc]
      exact List.Perm.refl _
    case delayed_sent => simp [ProxyEffect.arrived] at harrived
    case lost => simp [ProxyEffect.arrived] at harrived
    all_goals exact List.perm_append_comm
  | works h =>
    -- a turn of the worker takes nothing in
    suffices hmoves : b.waiting.Perm ((after.2.published ++ after.2.discarded) ++ after.1.waiting) by
      cases h <;> simpa [ProxyEffect.arrived] using hmoves
    unfold Books.waiting Books.in_flight
    cases h with
    | sizes hworker => simp [hworker, DelayWorker.held, ProxyEffect.published, ProxyEffect.discarded]
    | sleeps hworker => simp [hworker, DelayWorker.held, ProxyEffect.published, ProxyEffect.discarded]
    | takes hworker hqueue =>
      simp [hworker, hqueue, DelayWorker.held, ProxyEffect.published, ProxyEffect.discarded]
    | sends hworker hdue => simp [hworker, DelayWorker.held, ProxyEffect.published, ProxyEffect.discarded]
    | @requeues left dmsg hworker hundue =>
      have hrotates : ([dmsg.msg] ++ b.queue.map DelayedMsg.msg).Perm
          (b.queue.map DelayedMsg.msg ++ [dmsg.msg]) := List.perm_append_comm
      simpa [hworker, DelayWorker.held, ProxyEffect.published, ProxyEffect.discarded] using hrotates
    | loses hworker hundue => simp [hworker, DelayWorker.held, ProxyEffect.published, ProxyEffect.discarded]
  | unspawned => simp [ProxyEffect.arrived, ProxyEffect.published, ProxyEffect.discarded]

/-- The counters of the summary, and what it leaves out. -/
theorem Turns.counts (h : Turns modes b t after) :
    after.1.g_kept = b.g_kept + (if after.2.is_sent then 1 else 0) ∧
      after.1.g_drops = b.g_drops + (if after.2.is_dropped then 1 else 0) ∧
      after.1.g_delay_drops = b.g_delay_drops + (if after.2.is_delay_drop then 1 else 0) ∧
      after.1.g_malformed_frames = b.g_malformed_frames + (if after.2.is_malformed then 1 else 0) := by
  cases h with
  | handles h =>
    rw [h.books]
    cases after.2 <;> exact ⟨rfl, rfl, rfl, rfl⟩
  | works h => cases h <;> exact ⟨rfl, rfl, rfl, rfl⟩
  | unspawned => exact ⟨rfl, rfl, rfl, rfl⟩

/-- A main-loop iteration takes in the message it received, at most with a bit flipped; the worker
    takes in none. -/
def Receives (modes : ProxyModes) : ProxyTurn → ProxyEffect → Prop
  | .frontend e, effect => effect.arrived = [e.msg] ∨ effect.arrived = [corrupt modes e]
  | .delay_send _ _, effect => effect.arrived = []

def ProxyTurn.is_frontend : ProxyTurn → Bool
  | .frontend _ => true
  | .delay_send _ _ => false

theorem Turns.receives (h : Turns modes b t after) : Receives modes t after.2 := by
  cases h with
  | handles h => exact h.arrived
  | works h => cases h <;> rfl
  | unspawned => rfl

theorem Turns.not_starved (h : Turns modes b t after) : after.2 ≠ .starved := by
  cases h with
  | handles h =>
    intro hstarved
    have harrived := h.arrived
    rw [hstarved] at harrived
    simp [ProxyEffect.arrived] at harrived
  | works h => cases h <;> nofun
  | unspawned => nofun

/-- The iterations of the main loop are as many as the messages that came in. -/
theorem countP_is_frontend {turns : List ProxyTurn} {effects : List ProxyEffect}
    (h : List.Forall₂ (Receives modes) turns effects) :
    turns.countP ProxyTurn.is_frontend = (effects.flatMap ProxyEffect.arrived).length := by
  induction h with
  | nil => rfl
  | @cons t effect turns effects hreceives _ ih =>
    rw [List.countP_cons, List.flatMap_cons, List.length_append, ih]
    cases t with
    | frontend e =>
      have hlength : effect.arrived.length = 1 := by
        rcases hreceives with hreceives | hreceives <;> rw [hreceives] <;> rfl
      rw [hlength, ProxyTurn.is_frontend, if_pos rfl]
      omega
    | delay_send now tx_ms =>
      have hnone : effect.arrived = [] := hreceives
      rw [hnone, ProxyTurn.is_frontend, if_neg (by simp)]
      simp

/-- Each message that comes in is counted under one heading. -/
theorem length_arrived (effects : List ProxyEffect) :
    (effects.flatMap ProxyEffect.arrived).length =
      effects.countP ProxyEffect.is_sent + effects.countP ProxyEffect.is_dropped +
        effects.countP ProxyEffect.is_delay_drop + effects.countP ProxyEffect.is_malformed +
        effects.countP ProxyEffect.is_uncounted := by
  induction effects with
  | nil => rfl
  | cons effect effects ih =>
    rw [List.flatMap_cons, List.length_append, ih]
    simp only [List.countP_cons]
    cases effect <;>
      simp [ProxyEffect.arrived, ProxyEffect.is_sent, ProxyEffect.is_dropped, ProxyEffect.is_delay_drop,
        ProxyEffect.is_malformed, ProxyEffect.is_uncounted] <;> omega

end Books

section Frames

variable {Q : Type} (lib : CspQueue Q)

/-- The part of the state a message is accounted for in. -/
def LossyProxy.books (p : LossyProxy Q) : Books :=
  { g_malformed_frames := p.g_malformed_frames, g_drops := p.g_drops, g_delay_drops := p.g_delay_drops
    g_kept := p.g_kept, queue := lib.queue p.delay_handle, worker := p.worker }

variable (version : Int) (csp_id_strip : ProxyPacket → Option ProxyPacket) (modes : ProxyModes)

variable {lib modes} in
theorem delay_handles {e : LossyEvent} {b : Books} {p : LossyProxy Q} {dmsg : DelayedMsg}
    (hbooks : p.books lib = b) (hmsg : dmsg.msg = e.msg ∨ dmsg.msg = corrupt modes e) :
    Handles modes e b ((p.delay lib dmsg).1.books lib, (p.delay lib dmsg).2) := by
  have harrived : [dmsg.msg] = [e.msg] ∨ [dmsg.msg] = [corrupt modes e] :=
    hmsg.imp (congrArg (fun m => [m])) (congrArg (fun m => [m]))
  subst hbooks
  unfold LossyProxy.delay
  split
  · next delay_handle henqueue =>
    refine ⟨harrived, ?_⟩
    dsimp only [LossyProxy.books, Books.enter]
    rw [CspQueue.queue_of_taken henqueue]
  · next delay_handle henqueue =>
    refine ⟨harrived, ?_⟩
    dsimp only [LossyProxy.books, Books.enter]
    rw [CspQueue.queue_of_refused henqueue]

/-- The decision itself counts malformed frames only. -/
theorem drop_decision_counts (p : Proxy) (e : ProxyEvent) :
    (drop_decision version csp_id_strip p e).1.g_kept = p.g_kept ∧
      (drop_decision version csp_id_strip p e).1.g_drops = p.g_drops ∧
      (drop_decision version csp_id_strip p e).1.g_malformed_frames =
        p.g_malformed_frames + (drop_decision version csp_id_strip p e).2.elim 1 fun _ => 0 := by
  unfold drop_decision
  simp only [proxy_flow_index_eq]
  split_ifs <;> exact ⟨rfl, rfl, rfl⟩

/-- What the half-duplex gate leaves to the later stages has entered nothing into the books. -/
theorem hdx_gate_handles (p : LossyProxy Q) (e : LossyEvent) :
    let gate := hdx_gate lib version csp_id_strip modes p e
    gate.2.elim (gate.1.books lib = p.books lib)
      fun effect => Handles modes e (p.books lib) (gate.1.books lib, effect) := by
  unfold hdx_gate
  by_cases hoff : modes.hdx_node = 0
  · rw [if_pos hoff]
    rfl
  rw [if_neg hoff]
  cases proxy_frame_fits version (datalen e.msg) with
  | false => exact ⟨.inl rfl, rfl⟩
  | true =>
    rw [if_neg (by simp)]
    dsimp only
    generalize (csp_id_strip (p.packet.receive e.msg)).getD (p.packet.receive e.msg) = packet
    split_ifs
    · apply delay_handles
      · rfl
      · exact .inl rfl
    · apply delay_handles
      · rfl
      · exact .inl rfl
    · exact ⟨.inl rfl, rfl⟩
    · rfl
    · exact ⟨.inl rfl, rfl⟩
    · rfl

theorem frontend_handles (p : LossyProxy Q) (e : LossyEvent) :
    let after := zmq_proxy_lossy_frontend lib version csp_id_strip modes p e
    Handles modes e (p.books lib) (after.1.books lib, after.2) := by
  have hgate := hdx_gate_handles lib version csp_id_strip modes p e
  unfold zmq_proxy_lossy_frontend
  generalize hdx_gate lib version csp_id_strip modes p e = gate at hgate ⊢
  obtain ⟨q, _ | effect⟩ := gate
  · have hq : q.books lib = p.books lib := hgate
    have hcounts := drop_decision_counts version csp_id_strip q.toProxy
      { e.toProxyEvent with msg := corrupt modes e }
    dsimp only
    generalize drop_decision version csp_id_strip q.toProxy { e.toProxyEvent with msg := corrupt modes e } =
      decision at hcounts ⊢
    rw [← hq]
    obtain ⟨r, _ | _ | _⟩ := decision <;> obtain ⟨hkept, hdrops, hmalformed⟩ := hcounts
    · exact ⟨.inr rfl, by simp_all [LossyProxy.books, Books.enter]⟩
    · dsimp only
      split_ifs
      · apply delay_handles
        · simp_all [LossyProxy.books]
        · exact .inr rfl
      · exact ⟨.inr rfl, by simp_all [LossyProxy.books, Books.enter]⟩
    · exact ⟨.inr rfl, by simp_all [LossyProxy.books, Books.enter]⟩
  · exact hgate

variable {lib} in
theorem task_delay_send_works {p : LossyProxy Q} (hsound : (p.books lib).Sound) (now tx_ms : UInt32) :
    Works (p.books lib) now
      ((task_delay_send lib p now tx_ms).1.books lib, (task_delay_send lib p now tx_ms).2) := by
  unfold task_delay_send
  rcases hworker : p.worker with _ | left | ⟨left, dmsg⟩
  · dsimp only [LossyProxy.books]
    rw [lib.size_queue]
    exact .sizes hworker
  · cases left with
    | zero => exact .sleeps hworker
    | succ left =>
      have hcovered : p.worker.left ≤ (lib.queue p.delay_handle).length := hsound
      rw [hworker, DelayWorker.left] at hcovered
      dsimp only
      split
      · next delay_handle hdequeue =>
        rw [CspQueue.queue_of_starved hdequeue] at hcovered
        exact absurd hcovered (Nat.not_succ_le_zero left)
      · next delay_handle dmsg hdequeue => exact .takes hworker (CspQueue.queue_of_dequeued hdequeue)
  · dsimp only
    by_cases hdue : dmsg.timestamp_tx < now
    · rw [if_pos hdue]
      split_ifs
      · exact .sends hworker hdue
      · exact .sends hworker hdue
    · rw [if_neg hdue]
      split
      · next delay_handle henqueue =>
        dsimp only [LossyProxy.books]
        rw [CspQueue.queue_of_taken henqueue]
        exact .requeues hworker hdue
      · next delay_handle henqueue =>
        dsimp only [LossyProxy.books]
        rw [CspQueue.queue_of_refused henqueue]
        exact .loses hworker hdue

variable {lib} in
/-- Both threads keep to the books. -/
theorem turn_turns {p : LossyProxy Q} (hsound : (p.books lib).Sound) (t : ProxyTurn) :
    Turns modes (p.books lib) t
      ((zmq_proxy_lossy_turn lib version csp_id_strip modes p t).1.books lib,
        (zmq_proxy_lossy_turn lib version csp_id_strip modes p t).2) := by
  cases t with
  | frontend e => exact .handles (frontend_handles lib version csp_id_strip modes p e)
  | delay_send now tx_ms =>
    unfold zmq_proxy_lossy_turn
    cases hspawns : modes.spawns_worker with
    | true => exact .works (task_delay_send_works hsound now tx_ms)
    | false => exact .unspawned hspawns

theorem sound_init (rule : CiDropRule) (mtu overhead : UInt16) (packet : ProxyPacket) :
    ((zmq_proxy_lossy_init lib rule mtu overhead packet).books lib).Sound := Nat.zero_le _

variable {lib} in
theorem run_sound {p : LossyProxy Q} (hsound : (p.books lib).Sound) (turns : List ProxyTurn) :
    ((lossyRun lib version csp_id_strip modes p turns).1.books lib).Sound :=
  Transducer.run_invariant (fun q : LossyProxy Q => (q.books lib).Sound)
    (fun _ t h => (turn_turns version csp_id_strip modes h t).sound h) hsound turns

/-- The worker loses a message only when the queue refuses to take it back. -/
theorem lost_refused {p : LossyProxy Q} {t : ProxyTurn} {dmsg : DelayedMsg}
    (hlost : (zmq_proxy_lossy_turn lib version csp_id_strip modes p t).2 = .lost dmsg) :
    (lib.csp_queue_enqueue p.delay_handle dmsg).2 = .refused := by
  cases t with
  | frontend e =>
    have harrived := (frontend_handles lib version csp_id_strip modes p e).arrived
    change (zmq_proxy_lossy_frontend lib version csp_id_strip modes p e).2 = .lost dmsg at hlost
    rw [hlost] at harrived
    simp [ProxyEffect.arrived] at harrived
  | delay_send now tx_ms =>
    unfold zmq_proxy_lossy_turn at hlost
    dsimp only at hlost
    split_ifs at hlost
    unfold task_delay_send at hlost
    split at hlost
    · cases hlost
    · cases hlost
    · split at hlost <;> cases hlost
    · split_ifs at hlost
      split at hlost
      · cases hlost
      · next delay_handle henqueue =>
        cases hlost
        rw [henqueue]

/-- The books of both threads after some turns. -/
structure Accounted (p : LossyProxy Q) (turns : List ProxyTurn) : Prop where
  received : List.Forall₂ (Receives modes) turns (lossyRun lib version csp_id_strip modes p turns).2
  conserved : let after := lossyRun lib version csp_id_strip modes p turns
    (after.2.flatMap ProxyEffect.arrived).Perm
      ((after.2.flatMap ProxyEffect.published ++ after.2.flatMap ProxyEffect.discarded) ++
        (after.1.books lib).waiting)
  summary : let (q, effects) := lossyRun lib version csp_id_strip modes p turns
    turns.countP ProxyTurn.is_frontend = q.g_kept + q.g_drops + q.g_delay_drops + q.g_malformed_frames +
      effects.countP ProxyEffect.is_uncounted
  never_starved : .starved ∉ (lossyRun lib version csp_id_strip modes p turns).2
  lost_refused : ∀ before t after, before ++ t :: after = turns → ∀ dmsg,
    let q := (lossyRun lib version csp_id_strip modes p before).1
    (zmq_proxy_lossy_turn lib version csp_id_strip modes q t).2 = .lost dmsg →
      (lib.csp_queue_enqueue q.delay_handle dmsg).2 = .refused

/-- In every interleaving of the main loop and the delay worker, each message that came in is
    published once, given up once or still waits, and each is counted once or is one of those the
    half-duplex gate swallows or the worker takes over. The worker never takes from an empty queue,
    and gives a message up only when the queue refuses to take it back. -/
theorem lossyRun_accounted (rule : CiDropRule) (mtu overhead : UInt16) (packet : ProxyPacket)
    (turns : List ProxyTurn) :
    Accounted lib version csp_id_strip modes (zmq_proxy_lossy_init lib rule mtu overhead packet) turns := by
  have hinit := sound_init lib rule mtu overhead packet
  have hturn (p : LossyProxy Q) (t : ProxyTurn) (hp : (p.books lib).Sound) :=
    turn_turns version csp_id_strip modes hp t
  have hsound (p : LossyProxy Q) (t : ProxyTurn) (hp : (p.books lib).Sound) := (hturn p t hp).sound hp
  have htally (count : LossyProxy Q → Nat) (sel : ProxyEffect → Bool) (hcount) :=
    Transducer.run_tally (fun p => (p.books lib).Sound) count sel hsound hcount hinit turns
  have hreceived : List.Forall₂ (Receives modes) turns (lossyRun lib version csp_id_strip modes _ turns).2 :=
    Transducer.run_forall₂ (fun p => (p.books lib).Sound) hsound (fun p t hp => (hturn p t hp).receives)
      hinit turns
  refine ⟨hreceived, ?_, ?_, fun hmem => ?_, ?_⟩
  · have hconserved := Transducer.run_conserves (fun p => (p.books lib).Sound)
      (fun p => (p.books lib).waiting) ProxyEffect.arrived
      (fun effect => effect.published ++ effect.discarded) hsound
      (fun p t hp => (hturn p t hp).conserves) hinit turns
    have hempty : ((zmq_proxy_lossy_init lib rule mtu overhead packet).books lib).waiting = [] :=
      congrArg (List.map DelayedMsg.msg) (lib.create_queue DELAY_QUEUE_LEN)
    rw [hempty] at hconserved
    exact hconserved.trans ((List.flatMap_append_perm _ _ _).symm.append_right _)
  · have hkept := htally (·.g_kept) ProxyEffect.is_sent fun p t hp => (hturn p t hp).counts.1
    have hdrops := htally (·.g_drops) ProxyEffect.is_dropped fun p t hp => (hturn p t hp).counts.2.1
    have hdelay := htally (·.g_delay_drops) ProxyEffect.is_delay_drop
      fun p t hp => (hturn p t hp).counts.2.2.1
    have hmalformed := htally (·.g_malformed_frames) ProxyEffect.is_malformed
      fun p t hp => (hturn p t hp).counts.2.2.2
    have hall := length_arrived (lossyRun lib version csp_id_strip modes
      (zmq_proxy_lossy_init lib rule mtu overhead packet) turns).2
    rw [← countP_is_frontend hreceived] at hall
    simp only [zmq_proxy_lossy_init, zmq_proxy_lossy_start, Nat.zero_add] at hkept hdrops hdelay hmalformed
    change turns.countP ProxyTurn.is_frontend = _
    simp only [lossyRun, zmq_proxy_lossy_init, zmq_proxy_lossy_start] at hall ⊢
    rw [hall, hkept, hdrops, hdelay, hmalformed]
  · have hnone : List.Forall₂ (fun _ effect => effect ≠ ProxyEffect.starved) turns
        (lossyRun lib version csp_id_strip modes _ turns).2 :=
      Transducer.run_forall₂ (fun p => (p.books lib).Sound) hsound
        (fun p t hp => (hturn p t hp).not_starved) hinit turns
    exact Transducer.forall_mem_of_forall₂ hnone _ hmem rfl
  · intro before t _ _ dmsg q hlost
    exact lost_refused lib version csp_id_strip modes hlost

end Frames

end csp_intercept.zmqproxy
