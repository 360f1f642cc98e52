import CspIntercept.Lib.Transducer
import CspIntercept.Meas.RttPairing
import Mathlib.Data.List.Nodup

open Transducer

namespace csp_intercept.ci_meas

/-- A call on the pairing ring. -/
inductive RttCall where
  | data (seq : UInt16) (t_ms : UInt32)
  | ack (ack_nr : UInt16) (t_ms : UInt32)
deriving DecidableEq, Repr

def rtt_step (p : CiRttPairing) : RttCall → CiRttPairing × Option UInt32
  | .data seq t_ms => (ci_rtt_on_data p seq t_ms, none)
  | .ack ack_nr t_ms => ci_rtt_on_ack p ack_nr t_ms

/-- A recorded data packet: its number among all of them, and whether it has been consumed. -/
structure RttEvent where
  number : ℕ
  seq : UInt16
  t_ms : UInt32
  consumed : Bool
deriving DecidableEq, Repr

/-- An acknowledgement may pair with this event. -/
def RttEvent.answers (e : RttEvent) (ack_nr : UInt16) : Bool := !e.consumed && e.seq == ack_nr

/-- The event, consumed if it has this number. -/
def RttEvent.consume (number : ℕ) (e : RttEvent) : RttEvent :=
  if e.number = number then { e with consumed := true } else e

@[simp] theorem RttEvent.consume_number (number : ℕ) (e : RttEvent) :
    (e.consume number).number = e.number := by
  unfold consume
  split_ifs <;> rfl

@[simp] theorem RttEvent.consume_seq (number : ℕ) (e : RttEvent) : (e.consume number).seq = e.seq := by
  unfold consume
  split_ifs <;> rfl

@[simp] theorem RttEvent.consume_t_ms (number : ℕ) (e : RttEvent) :
    (e.consume number).t_ms = e.t_ms := by
  unfold consume
  split_ifs <;> rfl

/-- The ideal pairing: the last data packets, newest first, of the `count` recorded. -/
structure RttHistory where
  recent : List RttEvent
  count : ℕ
  length_le : recent.length ≤ CI_RTT_RING
  numbered : ∀ k e, recent[k]? = some e → e.number + k + 1 = count

namespace RttHistory

def empty : RttHistory where
  recent := []
  count := 0
  length_le := Nat.zero_le _
  numbered := nofun

private theorem numbered_record (h : RttHistory) (seq : UInt16) (t_ms : UInt32) (k : ℕ) (e : RttEvent)
    (hk : ((⟨h.count, seq, t_ms, false⟩ :: h.recent).take CI_RTT_RING)[k]? = some e) :
    e.number + k + 1 = h.count + 1 := by
  rw [List.getElem?_take] at hk
  split_ifs at hk
  cases k with
  | zero =>
    obtain rfl : (⟨h.count, seq, t_ms, false⟩ : RttEvent) = e := by simpa using hk
    rfl
  | succ k =>
    have hnumber := h.numbered k e (by simpa using hk)
    omega

def on_data (h : RttHistory) (seq : UInt16) (t_ms : UInt32) : RttHistory where
  recent := (⟨h.count, seq, t_ms, false⟩ :: h.recent).take CI_RTT_RING
  count := h.count + 1
  length_le := List.length_take_le _ _
  numbered := numbered_record h seq t_ms

private theorem numbered_consume (h : RttHistory) (number k : ℕ) (e : RttEvent)
    (hk : (h.recent.map (RttEvent.consume number))[k]? = some e) : e.number + k + 1 = h.count := by
  rw [List.getElem?_map, Option.map_eq_some_iff] at hk
  obtain ⟨e, he, rfl⟩ := hk
  rw [RttEvent.consume_number]
  exact h.numbered k e he

/-- The event of this number is consumed, the others are as they were. -/
def consume (h : RttHistory) (number : ℕ) : RttHistory where
  recent := h.recent.map (RttEvent.consume number)
  count := h.count
  length_le := (List.length_map _).trans_le h.length_le
  numbered := numbered_consume h number

/-- Consume the most recent event that the acknowledgement may pair with. -/
def on_ack (h : RttHistory) (ack_nr : UInt16) : RttHistory × Option RttEvent :=
  match h.recent.find? (·.answers ack_nr) with
  | some e => (h.consume e.number, some e)
  | none => (h, none)

/-- One call; an acknowledgement that pairs answers the event and the time passed since. -/
def step (h : RttHistory) : RttCall → RttHistory × Option (RttEvent × UInt32)
  | .data seq t_ms => (h.on_data seq t_ms, none)
  | .ack ack_nr t_ms => ((h.on_ack ack_nr).1, (h.on_ack ack_nr).2.map fun e => (e, t_ms - e.t_ms))

end RttHistory

section Slots

variable (p : CiRttPairing)

/-- The slot of the `k`-th most recent data packet. -/
def rtt_back (k : ℕ) : Fin CI_RTT_RING := rtt_slot (p.head - 1 - UInt32.ofNat k)

theorem rtt_back_inj {j k : ℕ} (hj : j < CI_RTT_RING) (hk : k < CI_RTT_RING) :
    rtt_back p j = rtt_back p k ↔ j = k := by
  unfold CI_RTT_RING at hj hk
  simp only [rtt_back, rtt_slot, Fin.mk.injEq, CI_RTT_RING, UInt32.toNat_sub, UInt32.toNat_ofNat']
  omega

/-- The cursor stands on the slot of the oldest packet. -/
theorem rtt_slot_head : rtt_slot p.head = rtt_back p 255 := by
  simp only [rtt_back, rtt_slot, Fin.mk.injEq, CI_RTT_RING, UInt32.toNat_sub, UInt32.toNat_ofNat']
  have hone : (1 : UInt32).toNat = 1 := rfl
  omega

theorem rtt_back_on_data_zero (seq : UInt16) (t_ms : UInt32) :
    rtt_back (ci_rtt_on_data p seq t_ms) 0 = rtt_slot p.head := by
  unfold rtt_back ci_rtt_on_data
  simp

theorem rtt_back_on_data_succ (seq : UInt16) (t_ms : UInt32) (k : ℕ) :
    rtt_back (ci_rtt_on_data p seq t_ms) (k + 1) = rtt_back p k := by
  have hone : (1 : UInt32).toNat = 1 := rfl
  simp only [rtt_back, rtt_slot, ci_rtt_on_data, Fin.mk.injEq, CI_RTT_RING, UInt32.toNat_sub,
    UInt32.toNat_add, UInt32.toNat_ofNat']
  omega

end Slots

/-- The ring holds the events of an ideal list, each `k`-th most recent one in its slot, and
    the slots that were never written are free. -/
structure Holds (p : CiRttPairing) (h : List RttEvent) : Prop where
  held : ∀ k e, h[k]? = some e → p.seq.get (rtt_back p k) = e.seq ∧ p.t_ms.get (rtt_back p k) = e.t_ms ∧
    (p.valid.get (rtt_back p k) != 0) = !e.consumed
  free : ∀ k, h.length ≤ k → k < CI_RTT_RING → p.valid.get (rtt_back p k) = 0

theorem holds_init : Holds ci_rtt_init [] where
  held := nofun
  free := by simp [ci_rtt_init, Vector.get]

private theorem get_set {α : Type} (v : Vector α CI_RTT_RING) (i j : Fin CI_RTT_RING) (x : α) :
    (v.set i x).get j = if i = j then x else v.get j := by
  change (v.set i x)[j.val] = if i = j then x else v[j.val]
  rw [Vector.getElem_set]
  exact if_congr Fin.ext_iff.symm rfl rfl

/-- Recording overwrites the slot of the oldest packet, which thereby leaves the list. -/
theorem Holds.on_data {p : CiRttPairing} {h : RttHistory} (hp : Holds p h.recent) (seq : UInt16)
    (t_ms : UInt32) : Holds (ci_rtt_on_data p seq t_ms) (h.on_data seq t_ms).recent := by
  have hlength := h.length_le
  have hother {k : ℕ} (hk : k + 1 < CI_RTT_RING) : rtt_slot p.head ≠ rtt_back p k := by
    rw [rtt_slot_head, ne_eq, rtt_back_inj p (by decide) (by omega)]
    unfold CI_RTT_RING at hk
    omega
  constructor
  · intro k e hk
    simp only [RttHistory.on_data, List.getElem?_take] at hk
    split_ifs at hk with hlt
    cases k with
    | zero =>
      obtain rfl : (⟨h.count, seq, t_ms, false⟩ : RttEvent) = e := by simpa using hk
      rw [rtt_back_on_data_zero]
      simp [ci_rtt_on_data, get_set]
    | succ k =>
      rw [rtt_back_on_data_succ]
      simp only [ci_rtt_on_data, get_set, if_neg (hother hlt)]
      exact hp.held k e (by simpa using hk)
  · intro k hk hlt
    simp only [RttHistory.on_data, List.length_take, List.length_cons] at hk
    cases k with
    | zero =>
      unfold CI_RTT_RING at hk
      omega
    | succ k =>
      rw [rtt_back_on_data_succ]
      simp only [ci_rtt_on_data, get_set, if_neg (hother hlt)]
      exact hp.free k (by omega) (by omega)

/-- Freeing the slot of an event is consuming the event. -/
theorem Holds.consume {p : CiRttPairing} {h : RttHistory} (hp : Holds p h.recent) {k : ℕ} {e : RttEvent}
    (hk : h.recent[k]? = some e) :
    Holds { p with valid := p.valid.set (rtt_back p k) 0 } (h.consume e.number).recent := by
  have hlt {j : ℕ} {e' : RttEvent} (hj : h.recent[j]? = some e') : j < CI_RTT_RING :=
    (List.getElem?_eq_some_iff.1 hj).1.trans_le h.length_le
  constructor
  · intro j e' hj
    simp only [RttHistory.consume, List.getElem?_map, Option.map_eq_some_iff] at hj
    obtain ⟨e', hj, rfl⟩ := hj
    obtain ⟨hseq, htime, hvalid⟩ := hp.held j e' hj
    have hnumber := h.numbered k e hk
    have hnumber' := h.numbered j e' hj
    have hslot := rtt_back_inj p (hlt hk) (hlt hj)
    change _ ∧ _ ∧ ((p.valid.set (rtt_back p k) 0).get (rtt_back p j) != 0) = _
    rw [RttEvent.consume_seq, RttEvent.consume_t_ms, get_set]
    refine ⟨hseq, htime, ?_⟩
    unfold RttEvent.consume
    by_cases hjk : k = j
    · rw [if_pos (hslot.2 hjk), if_pos (by omega)]
      rfl
    · rw [if_neg (fun heq => hjk (hslot.1 heq)), if_neg (by omega)]
      exact hvalid
  · intro j hj hring
    have hfree := hp.free j ((List.length_map _).symm.trans_le hj) hring
    change (p.valid.set (rtt_back p k) 0).get (rtt_back p j) = 0
    rw [get_set, hfree]
    exact ite_self 0

/-- The code's test of a slot is the test of the event in it. -/
theorem Holds.test {p : CiRttPairing} {h : List RttEvent} (hp : Holds p h) (ack_nr : UInt16) {k : ℕ}
    (hk : k < CI_RTT_RING) :
    (p.valid.get (rtt_back p k) != 0 && p.seq.get (rtt_back p k) == ack_nr) =
      h[k]?.any (·.answers ack_nr) := by
  cases he : h[k]? with
  | none =>
    rw [hp.free k (List.getElem?_eq_none_iff.1 he) hk]
    rfl
  | some e =>
    obtain ⟨hseq, -, hvalid⟩ := hp.held k e he
    rw [hvalid, hseq]
    rfl

/-- The search of `ci_rtt_on_ack`: how far back the slot found is. -/
def rtt_find (p : CiRttPairing) (ack_nr : UInt16) : Option ℕ :=
  (List.range CI_RTT_RING).find? fun k =>
    p.valid.get (rtt_back p k) != 0 && p.seq.get (rtt_back p k) == ack_nr

theorem ci_rtt_on_ack_find (p : CiRttPairing) (ack_nr : UInt16) :
    ((List.range CI_RTT_RING).find? fun k =>
      p.valid[rtt_slot (p.head - 1 - UInt32.ofNat k)] != 0 &&
        p.seq[rtt_slot (p.head - 1 - UInt32.ofNat k)] == ack_nr) = rtt_find p ack_nr := rfl

theorem ci_rtt_on_ack_of_none {p : CiRttPairing} {ack_nr : UInt16} (hfind : rtt_find p ack_nr = none)
    (t_ms : UInt32) : ci_rtt_on_ack p ack_nr t_ms = (p, none) := by
  simp only [ci_rtt_on_ack, ci_rtt_on_ack_find, hfind]

theorem ci_rtt_on_ack_of_some {p : CiRttPairing} {ack_nr : UInt16} {k : ℕ}
    (hfind : rtt_find p ack_nr = some k) (t_ms : UInt32) :
    ci_rtt_on_ack p ack_nr t_ms =
      ({ p with valid := p.valid.set (rtt_back p k) 0 }, some (t_ms - p.t_ms.get (rtt_back p k))) := by
  simp only [ci_rtt_on_ack, ci_rtt_on_ack_find, hfind]
  rfl

/-- The search finds no slot if no event of the list answers. -/
theorem Holds.find_none {p : CiRttPairing} {h : List RttEvent} (hp : Holds p h) {ack_nr : UInt16}
    (hfind : h.find? (·.answers ack_nr) = none) : rtt_find p ack_nr = none := by
  rw [List.find?_eq_none] at hfind
  rw [rtt_find, List.find?_range_eq_none]
  intro k hk
  rw [hp.test ack_nr hk]
  cases he : h[k]? with
  | none => rfl
  | some e => simpa using hfind e (List.mem_of_getElem? he)

/-- Otherwise it finds the slot of the most recent one. -/
theorem Holds.find_some {p : CiRttPairing} {h : RttHistory} (hp : Holds p h.recent) {ack_nr : UInt16}
    {e : RttEvent} (hfind : h.recent.find? (·.answers ack_nr) = some e) :
    ∃ k, rtt_find p ack_nr = some k ∧ h.recent[k]? = some e := by
  obtain ⟨hanswers, k, hk, rfl, hfirst⟩ := List.find?_eq_some_iff_getElem.1 hfind
  have hring : k < CI_RTT_RING := hk.trans_le h.length_le
  refine ⟨k, ?_, List.getElem?_eq_getElem hk⟩
  rw [rtt_find, List.find?_range_eq_some]
  refine ⟨?_, List.mem_range.2 hring, fun j hj => ?_⟩
  · rw [hp.test ack_nr hring, List.getElem?_eq_getElem hk]
    exact hanswers
  · rw [hp.test ack_nr (by omega), List.getElem?_eq_getElem (by omega)]
    exact hfirst j hj

/-- An acknowledgement keeps the ring in step with the ideal list, and pairs as it does. -/
theorem Holds.on_ack {p : CiRttPairing} {h : RttHistory} (hp : Holds p h.recent) (ack_nr : UInt16)
    (t_ms : UInt32) :
    Holds (ci_rtt_on_ack p ack_nr t_ms).1 (h.on_ack ack_nr).1.recent ∧
      (ci_rtt_on_ack p ack_nr t_ms).2 = (h.on_ack ack_nr).2.map fun e => t_ms - e.t_ms := by
  unfold RttHistory.on_ack
  cases hfind : h.recent.find? (·.answers ack_nr) with
  | none =>
    rw [ci_rtt_on_ack_of_none (hp.find_none hfind)]
    exact ⟨hp, rfl⟩
  | some e =>
    obtain ⟨k, hloop, he⟩ := hp.find_some hfind
    rw [ci_rtt_on_ack_of_some hloop, (hp.held k e he).2.1]
    exact ⟨hp.consume he, rfl⟩

/-- A call keeps the ring in step with the ideal list, and is answered as it answers. -/
theorem Holds.step {p : CiRttPairing} {h : RttHistory} (hp : Holds p h.recent) (call : RttCall) :
    Holds (rtt_step p call).1 (h.step call).1.recent ∧
      (rtt_step p call).2 = (h.step call).2.map Prod.snd := by
  cases call with
  | data seq t_ms => exact ⟨hp.on_data seq t_ms, rfl⟩
  | ack ack_nr t_ms =>
    obtain ⟨hholds, hpaired⟩ := hp.on_ack ack_nr t_ms
    refine ⟨hholds, hpaired.trans ?_⟩
    rw [RttHistory.step, Option.map_map]
    rfl

/-- The data packets among the calls, in order. -/
def rtt_packets (calls : List RttCall) : List (UInt16 × UInt32) :=
  calls.filterMap fun
    | .data seq t_ms => some (seq, t_ms)
    | .ack _ _ => none

/-- The ideal list after calls. -/
def rtt_history (calls : List RttCall) : RttHistory := (run RttHistory.step .empty calls).1

/-- The ring after calls. -/
def rtt_ring (calls : List RttCall) : CiRttPairing := (run rtt_step ci_rtt_init calls).1

/-- The numbers of the data packets that the calls paired, in order. -/
def rtt_paired (calls : List RttCall) : List ℕ :=
  (run RttHistory.step .empty calls).2.filterMap fun o => o.map fun pair => pair.1.number

theorem rtt_history_concat (calls : List RttCall) (call : RttCall) :
    rtt_history (calls ++ [call]) = ((rtt_history calls).step call).1 := by
  unfold rtt_history
  rw [run_append]
  rfl

theorem rtt_paired_concat (calls : List RttCall) (call : RttCall) :
    rtt_paired (calls ++ [call]) =
      rtt_paired calls ++ (((rtt_history calls).step call).2.map fun pair => pair.1.number).toList := by
  unfold rtt_paired rtt_history
  rw [run_append, List.filterMap_append, run_cons_outputs, run_nil, List.filterMap_cons]
  cases (RttHistory.step (run RttHistory.step .empty calls).1 call).2 <;> rfl

/-- The ring holds the ideal list after any calls, and has answered them as it did. -/
theorem rtt_ring_refines (calls : List RttCall) :
    Holds (rtt_ring calls) (rtt_history calls).recent ∧
      (run rtt_step ci_rtt_init calls).2 =
        (run RttHistory.step .empty calls).2.map (Option.map Prod.snd) :=
  run_refines (fun p (h : RttHistory) => Holds p h.recent) (Option.map Prod.snd)
    (fun _ _ call hp => hp.step call) holds_init calls

/-- An acknowledgement pairs an unconsumed event of its number, and consumes that one only. -/
theorem RttHistory.on_ack_some {h : RttHistory} {ack_nr : UInt16} {e : RttEvent}
    (hack : (h.on_ack ack_nr).2 = some e) :
    e ∈ h.recent ∧ e.consumed = false ∧ e.seq = ack_nr ∧ (h.on_ack ack_nr).1 = h.consume e.number := by
  unfold RttHistory.on_ack at hack ⊢
  cases hfind : h.recent.find? (·.answers ack_nr) with
  | none =>
    rw [hfind] at hack
    cases hack
  | some e' =>
    rw [hfind] at hack
    obtain rfl : e' = e := Option.some.inj hack
    have hanswers := List.find?_some hfind
    simp only [RttEvent.answers, Bool.and_eq_true, Bool.not_eq_true', beq_iff_eq] at hanswers
    exact ⟨List.mem_of_find?_eq_some hfind, hanswers.1, hanswers.2, rfl⟩

theorem RttHistory.on_ack_none {h : RttHistory} {ack_nr : UInt16} (hack : (h.on_ack ack_nr).2 = none) :
    (h.on_ack ack_nr).1 = h := by
  unfold RttHistory.on_ack at hack ⊢
  cases hfind : h.recent.find? (·.answers ack_nr) with
  | none => rfl
  | some e =>
    rw [hfind] at hack
    cases hack

theorem RttHistory.on_ack_eq_find (h : RttHistory) (ack_nr : UInt16) :
    (h.on_ack ack_nr).2 = h.recent.find? (·.answers ack_nr) := by
  unfold RttHistory.on_ack
  cases h.recent.find? (·.answers ack_nr) <;> rfl

/-- It pairs exactly when the list has such an event. -/
theorem RttHistory.on_ack_isSome {h : RttHistory} {ack_nr : UInt16} :
    (h.on_ack ack_nr).2.isSome ↔ ∃ e ∈ h.recent, e.consumed = false ∧ e.seq = ack_nr := by
  rw [h.on_ack_eq_find, List.find?_isSome]
  simp [RttEvent.answers]

section Open

variable {h : RttHistory} {n : UInt16}

/-- The events an acknowledgement may pair with, newest first. -/
def RttHistory.open_under (h : RttHistory) (n : UInt16) : List RttEvent := h.recent.filter (·.answers n)

theorem RttHistory.on_ack_head (h : RttHistory) (n : UInt16) : (h.on_ack n).2 = (h.open_under n)[0]? := by
  rw [h.on_ack_eq_find, open_under, ← List.head?_eq_getElem?, List.head?_filter]

theorem RttHistory.nodup_numbers (h : RttHistory) : (h.recent.map RttEvent.number).Nodup := by
  rw [List.nodup_iff_getElem?_ne_getElem?]
  intro i j hij hj heq
  rw [List.length_map] at hj
  rw [List.getElem?_map, List.getElem?_map, List.getElem?_eq_getElem hj,
    List.getElem?_eq_getElem (hij.trans hj), Option.map_some, Option.map_some, Option.some.injEq] at heq
  have hi := h.numbered i _ (List.getElem?_eq_getElem (hij.trans hj))
  have hj := h.numbered j _ (List.getElem?_eq_getElem hj)
  omega

/-- An acknowledgement that pairs marks one event and leaves the rest of the list as it is. -/
theorem RttHistory.on_ack_split {e : RttEvent} (hack : (h.on_ack n).2 = some e) :
    ∃ newer older, h.recent = newer ++ e :: older ∧ e.answers n = true ∧ (∀ e' ∈ newer, e'.answers n = false) ∧
      (h.on_ack n).1.recent = newer ++ { e with consumed := true } :: older := by
  have hstate := (on_ack_some hack).2.2.2
  rw [on_ack_eq_find, List.find?_eq_some_iff_append] at hack
  obtain ⟨hanswers, newer, older, hsplit, hnewer⟩ := hack
  have hnodup := h.nodup_numbers
  rw [hsplit, List.map_append, List.map_cons, List.nodup_middle, List.nodup_cons, ← List.map_append] at hnodup
  have hother {l : List RttEvent} (hl : ∀ e' ∈ l, e' ∈ newer ++ older) : l.map (RttEvent.consume e.number) = l := by
    refine (List.map_congr_left fun e' he' => ?_).trans l.map_id
    exact if_neg fun heq => hnodup.1 (List.mem_map.mpr ⟨e', hl e' he', heq⟩)
  refine ⟨newer, older, hsplit, hanswers, fun e' he' => by simpa using hnewer e' he', ?_⟩
  rw [hstate]
  change h.recent.map (RttEvent.consume e.number) = _
  rw [hsplit, List.map_append, List.map_cons,
    hother fun e' he' => List.mem_append_left _ he', hother fun e' he' => List.mem_append_right _ he', RttEvent.consume,
    if_pos rfl]

/-- An acknowledgement takes the newest open event under its number, -/
theorem RttHistory.open_on_ack_self (h : RttHistory) (n : UInt16) :
    (h.on_ack n).1.open_under n = (h.open_under n).tail := by
  cases hack : (h.on_ack n).2 with
  | none =>
    have hempty : h.open_under n = [] := by
      rw [on_ack_eq_find, List.find?_eq_none] at hack
      exact List.filter_eq_nil_iff.mpr hack
    rw [on_ack_none hack, hempty, List.tail_nil]
  | some e =>
    obtain ⟨newer, older, hsplit, hanswers, hnewer, hstate⟩ := on_ack_split hack
    have hnone : newer.filter (·.answers n) = [] :=
      List.filter_eq_nil_iff.mpr fun e' he' => Bool.eq_false_iff.mp (hnewer e' he')
    have hopen : (e :: older).filter (·.answers n) = e :: older.filter (·.answers n) :=
      List.filter_cons_of_pos hanswers
    rw [open_under, open_under, hsplit, hstate, List.filter_append, List.filter_append, hnone, hopen,
      List.filter_cons_of_neg (by simp [RttEvent.answers])]
    rfl

/-- and leaves those under other numbers. -/
theorem RttHistory.open_on_ack_of_ne {ack_nr : UInt16} (hne : ack_nr ≠ n) :
    (h.on_ack ack_nr).1.open_under n = h.open_under n := by
  cases hack : (h.on_ack ack_nr).2 with
  | none => rw [on_ack_none hack]
  | some e =>
    obtain ⟨newer, older, hsplit, hanswers, -, hstate⟩ := on_ack_split hack
    have hseq := (on_ack_some hack).2.2.1
    rw [open_under, open_under, hsplit, hstate, List.filter_append, List.filter_append,
      List.filter_cons_of_neg (by simp [RttEvent.answers]),
      List.filter_cons_of_neg (by simp [RttEvent.answers, hseq, hne])]

/-- What is left of a filtered history when only so many newest events are kept. -/
theorem RttHistory.getElem?_filter_take {p : RttEvent → Bool} {m k : ℕ} {e : RttEvent} :
    ((h.recent.take m).filter p)[k]? = some e ↔ (h.recent.filter p)[k]? = some e ∧ h.count ≤ e.number + m := by
  have hnumber {k : ℕ} {e : RttEvent} (hk : h.recent[k]? = some e) := h.numbered k e hk
  have hsplit : h.recent.filter p = (h.recent.take m).filter p ++ (h.recent.drop m).filter p := by
    rw [← List.filter_append, List.take_append_drop]
  rw [hsplit, List.getElem?_append]
  constructor
  · intro hk
    rw [if_pos (List.getElem?_eq_some_iff.mp hk).1]
    obtain ⟨j, hj⟩ := List.mem_iff_getElem?.mp (List.mem_of_mem_filter (List.mem_of_getElem? hk))
    rw [List.getElem?_take] at hj
    split_ifs at hj with hlt
    have hj := hnumber hj
    exact ⟨hk, by omega⟩
  · rintro ⟨hk, hkept⟩
    split_ifs at hk with hlt
    · exact hk
    · obtain ⟨j, hj⟩ := List.mem_iff_getElem?.mp (List.mem_of_mem_filter (List.mem_of_getElem? hk))
      rw [List.getElem?_drop] at hj
      have hj := hnumber hj
      omega

/-- Recording puts an event on top of those open under its number; the ones that the ring still keeps
    stay below. -/
theorem RttHistory.getElem?_open_on_data {seq : UInt16} {t_ms : UInt32} {k : ℕ} {e : RttEvent} :
    ((h.on_data seq t_ms).open_under n)[k]? = some e ↔
      (seq = n ∧ k = 0 ∧ e = ⟨h.count, seq, t_ms, false⟩) ∨
        ∃ j, k = j + (seq == n).toNat ∧ (h.open_under n)[j]? = some e ∧ h.count + 1 ≤ e.number + CI_RTT_RING := by
  have hopen : (h.on_data seq t_ms).open_under n =
      if seq = n then ⟨h.count, seq, t_ms, false⟩ :: (h.recent.take 255).filter (·.answers n)
      else (h.recent.take 255).filter (·.answers n) := by
    change ((⟨h.count, seq, t_ms, false⟩ :: h.recent).take 256).filter _ = _
    rw [List.take_succ_cons, List.filter_cons]
    simp [RttEvent.answers]
  have hkept : h.count + 1 ≤ e.number + CI_RTT_RING ↔ h.count ≤ e.number + 255 := by
    unfold CI_RTT_RING
    omega
  rw [hopen, hkept]
  split_ifs with hseq
  · subst hseq
    cases k with
    | zero => simp [eq_comm]
    | succ k =>
      rw [List.getElem?_cons_succ, getElem?_filter_take]
      simp [open_under]
  · rw [getElem?_filter_take, beq_false_of_ne hseq]
    simp [open_under, hseq]

end Open

/-- The list is of packets that were recorded, under the numbers they were recorded under. -/
structure Recorded (calls : List RttCall) (h : RttHistory) : Prop where
  count : h.count = (rtt_packets calls).length
  packet : ∀ e ∈ h.recent, (rtt_packets calls)[e.number]? = some (e.seq, e.t_ms)
  spent : ∀ n ∈ rtt_paired calls, n < h.count ∧ ∀ e ∈ h.recent, e.number = n → e.consumed = true

theorem RttHistory.mem_consume {h : RttHistory} {number : ℕ} {e : RttEvent} :
    e ∈ (h.consume number).recent ↔ ∃ e' ∈ h.recent, e'.consume number = e := List.mem_map

theorem RttHistory.number_lt {h : RttHistory} {e : RttEvent} (he : e ∈ h.recent) :
    e.number < h.count ∧ h.count ≤ e.number + CI_RTT_RING := by
  obtain ⟨k, hk⟩ := List.mem_iff_getElem?.1 he
  have hnumber := h.numbered k e hk
  have hlt := (List.getElem?_eq_some_iff.1 hk).1
  have hlength := h.length_le
  omega

theorem recorded_nil : Recorded [] .empty := ⟨rfl, nofun, nofun⟩

theorem Recorded.data {calls : List RttCall} (hr : Recorded calls (rtt_history calls)) (seq : UInt16)
    (t_ms : UInt32) :
    Recorded (calls ++ [.data seq t_ms]) ((rtt_history calls).on_data seq t_ms) := by
  have hpackets : rtt_packets (calls ++ [.data seq t_ms]) = rtt_packets calls ++ [(seq, t_ms)] := by
    simp [rtt_packets]
  have hpaired : rtt_paired (calls ++ [.data seq t_ms]) = rtt_paired calls :=
    (rtt_paired_concat calls (.data seq t_ms)).trans (List.append_nil _)
  have hmem {e : RttEvent} (he : e ∈ ((rtt_history calls).on_data seq t_ms).recent) :
      e = ⟨(rtt_history calls).count, seq, t_ms, false⟩ ∨ e ∈ (rtt_history calls).recent := by
    simpa using List.mem_of_mem_take he
  refine ⟨?_, ?_, ?_⟩
  · rw [hpackets, List.length_append, ← hr.count]
    rfl
  · intro e he
    rw [hpackets]
    obtain rfl | he := hmem he
    · rw [hr.count, List.getElem?_concat_length]
    · rw [List.getElem?_append_left (hr.count ▸ (RttHistory.number_lt he).1)]
      exact hr.packet e he
  · intro n hn
    obtain ⟨hlt, hspent⟩ := hr.spent n (hpaired ▸ hn)
    refine ⟨Nat.lt_succ_of_lt hlt, fun e he hnumber => ?_⟩
    obtain rfl | he := hmem he
    · exact absurd hnumber hlt.ne'
    · exact hspent e he hnumber

theorem Recorded.ack {calls : List RttCall} (hr : Recorded calls (rtt_history calls)) (ack_nr : UInt16)
    (t_ms : UInt32) :
    Recorded (calls ++ [.ack ack_nr t_ms]) ((rtt_history calls).on_ack ack_nr).1 := by
  have hpackets : rtt_packets (calls ++ [.ack ack_nr t_ms]) = rtt_packets calls := by
    simp [rtt_packets]
  have hpaired := rtt_paired_concat calls (.ack ack_nr t_ms)
  simp only [RttHistory.step, Option.map_map] at hpaired
  cases hack : ((rtt_history calls).on_ack ack_nr).2 with
  | none =>
    rw [hack, Option.map_none, Option.toList_none, List.append_nil] at hpaired
    rw [RttHistory.on_ack_none hack]
    exact ⟨hpackets ▸ hr.count, hpackets ▸ hr.packet, hpaired ▸ hr.spent⟩
  | some e =>
    obtain ⟨hmem, -, -, hstate⟩ := RttHistory.on_ack_some hack
    rw [hack] at hpaired
    rw [hstate]
    refine ⟨hpackets ▸ hr.count, fun e' he' => ?_, fun n hn => ?_⟩
    · obtain ⟨e₀, he₀, rfl⟩ := RttHistory.mem_consume.1 he'
      rw [hpackets, RttEvent.consume_number, RttEvent.consume_seq, RttEvent.consume_t_ms]
      exact hr.packet e₀ he₀
    · -- the packets paired before stay consumed, and now this one is
      have hn : n ∈ rtt_paired calls ∨ n = e.number := by simpa [hpaired] using hn
      have hlt : n < (rtt_history calls).count := by
        obtain hn | rfl := hn
        · exact (hr.spent n hn).1
        · exact (RttHistory.number_lt hmem).1
      refine ⟨hlt, fun e' he' hnumber => ?_⟩
      obtain ⟨e₀, he₀, rfl⟩ := RttHistory.mem_consume.1 he'
      rw [RttEvent.consume_number] at hnumber
      unfold RttEvent.consume
      split_ifs with hsame
      · rfl
      · obtain hn | rfl := hn
        · exact (hr.spent n hn).2 e₀ he₀ hnumber
        · exact absurd hnumber hsame

theorem recorded_rtt_history (calls : List RttCall) : Recorded calls (rtt_history calls) := by
  induction calls using List.reverseRecOn with
  | nil => exact recorded_nil
  | append_singleton calls call ih =>
    rw [rtt_history_concat]
    cases call with
    | data seq t_ms => exact ih.data seq t_ms
    | ack ack_nr t_ms => exact ih.ack ack_nr t_ms

/-- The number and time of a packet, as the ring stores them. -/
def RttEvent.packet (e : RttEvent) : UInt16 × UInt32 := (e.seq, e.t_ms)

theorem RttHistory.on_ack_packets (h : RttHistory) (ack_nr : UInt16) :
    (h.on_ack ack_nr).1.recent.map RttEvent.packet = h.recent.map RttEvent.packet := by
  cases hack : (h.on_ack ack_nr).2 with
  | none => rw [RttHistory.on_ack_none hack]
  | some e =>
    rw [(RttHistory.on_ack_some hack).2.2.2, RttHistory.consume, List.map_map]
    apply List.map_congr_left
    intro e' _
    rw [Function.comp_apply, RttEvent.packet, RttEvent.consume_seq, RttEvent.consume_t_ms, RttEvent.packet]

/-- The ideal list is that of the last 256 packets recorded. -/
theorem rtt_history_recent (calls : List RttCall) :
    (rtt_history calls).recent.map RttEvent.packet = (rtt_packets calls).reverse.take 256 := by
  induction calls using List.reverseRecOn with
  | nil => rfl
  | append_singleton calls call ih =>
    rw [rtt_history_concat]
    cases call with
    | data seq t_ms =>
      have hpackets : rtt_packets (calls ++ [.data seq t_ms]) = rtt_packets calls ++ [(seq, t_ms)] := by
        simp [rtt_packets]
      rw [hpackets, List.reverse_append, List.reverse_singleton, List.singleton_append]
      change (((⟨_, seq, t_ms, false⟩ : RttEvent) :: (rtt_history calls).recent).take 256).map _ = _
      rw [List.map_take, List.map_cons, ih, List.take_succ_cons, List.take_succ_cons, List.take_take]
      rfl
    | ack ack_nr t_ms =>
      have hpackets : rtt_packets (calls ++ [.ack ack_nr t_ms]) = rtt_packets calls := by
        simp [rtt_packets]
      rw [hpackets, ← ih]
      exact (rtt_history calls).on_ack_packets ack_nr

/-- No packet is paired twice. -/
theorem nodup_rtt_paired (calls : List RttCall) : (rtt_paired calls).Nodup := by
  induction calls using List.reverseRecOn with
  | nil => exact List.nodup_nil
  | append_singleton calls call ih =>
    rw [rtt_paired_concat]
    cases call with
    | data seq t_ms => simpa [RttHistory.step] using ih
    | ack ack_nr t_ms =>
      simp only [RttHistory.step, Option.map_map]
      cases hack : ((rtt_history calls).on_ack ack_nr).2 with
      | none => simpa using ih
      | some e =>
        obtain ⟨hmem, hunconsumed, -, -⟩ := RttHistory.on_ack_some hack
        have hnew : e.number ∉ rtt_paired calls := by
          intro hspent
          have hconsumed := ((recorded_rtt_history calls).spent e.number hspent).2 e hmem rfl
          exact absurd (hunconsumed.symm.trans hconsumed) (by nofun)
        rw [Option.map_some, Option.toList_some, List.nodup_append]
        refine ⟨ih, by simp, fun n hn m hm heq => ?_⟩
        rw [List.mem_singleton] at hm
        rw [heq, hm] at hn
        exact hnew hn

/-- The pairing ring refines the list of the last data packets: it answers every sequence of
    calls as the list does, however often its cursor has wrapped. An acknowledgement pairs exactly
    when an unconsumed packet of the list has its number, and then the most recent one; so no
    packet is paired twice, or once 256 newer ones have been recorded. -/
theorem ci_rtt_refines_history (calls : List RttCall) :
    (run rtt_step ci_rtt_init calls).2 =
        (run RttHistory.step .empty calls).2.map (Option.map Prod.snd) ∧
      (rtt_paired calls).Nodup ∧
      ∀ before ack_nr t_ms after, before ++ .ack ack_nr t_ms :: after = calls →
        (rtt_history before).recent.map RttEvent.packet = (rtt_packets before).reverse.take 256 ∧
        ((ci_rtt_on_ack (rtt_ring before) ack_nr t_ms).2.isSome ↔
          ∃ e ∈ (rtt_history before).recent, e.consumed = false ∧ e.seq = ack_nr) ∧
        ∀ e, ((rtt_history before).on_ack ack_nr).2 = some e →
          (ci_rtt_on_ack (rtt_ring before) ack_nr t_ms).2 = some (t_ms - e.t_ms) ∧
          ((rtt_history before).on_ack ack_nr).1 = (rtt_history before).consume e.number ∧
          (rtt_packets before)[e.number]? = some (e.seq, e.t_ms) ∧
          (rtt_packets before).length ≤ e.number + 256 := by
  refine ⟨(rtt_ring_refines calls).2, nodup_rtt_paired calls, fun before ack_nr t_ms after _ => ?_⟩
  have hpaired := ((rtt_ring_refines before).1.on_ack ack_nr t_ms).2
  rw [hpaired, Option.isSome_map, RttHistory.on_ack_isSome]
  refine ⟨rtt_history_recent before, Iff.rfl, fun e hack => ?_⟩
  obtain ⟨hmem, -, -, hstate⟩ := RttHistory.on_ack_some hack
  have hr := recorded_rtt_history before
  exact ⟨by rw [hack]; rfl, hstate, hr.packet e hmem, hr.count ▸ (RttHistory.number_lt hmem).2⟩

end csp_intercept.ci_meas
