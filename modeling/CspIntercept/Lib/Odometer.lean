import Mathlib.Algebra.GroupWithZero.Nat
import Mathlib.Data.List.Basic

namespace Odometer

/-- What happens to a counter: it ticks, or its reader starts from its value, takes a
    reading against the value it started from, or starts over. -/
inductive Access where
  | tick
  | start
  | read
  | restart
deriving DecidableEq, Repr

/-- Where the reader stands between its accesses. -/
inductive Phase where
  | idle
  | armed
  | done
deriving DecidableEq, Repr

/-- A reader starts once and then takes a reading and starts over, in turns. -/
def Phase.after : Phase → Access → Option Phase
  | p, .tick => some p
  | .idle, .start => some .armed
  | .armed, .read => some .done
  | .done, .restart => some .armed
  | _, _ => none

/-- The accesses take such a reader from one phase to another, with ticks at any moment. -/
def Follows : Phase → List Access → Phase → Prop
  | p, [], q => p = q
  | p, a :: as, q => ∃ p', p.after a = some p' ∧ Follows p' as q

/-- The reader's next access, if it makes one. -/
def next : List Access → Option Access
  | [] => none
  | .tick :: as => next as
  | .start :: _ => some .start
  | .read :: _ => some .read
  | .restart :: _ => some .restart

/-- The reader's next access after each tick, in the order of the ticks. -/
def fates : List Access → List (Option Access)
  | [] => []
  | .tick :: as => next as :: fates as
  | .start :: as => fates as
  | .read :: as => fates as
  | .restart :: as => fates as

/-- The ticks since the reader first started. -/
def ticks : List Access → ℕ
  | [] => 0
  | .start :: as => as.count .tick
  | .tick :: as => ticks as
  | .read :: as => ticks as
  | .restart :: as => ticks as

/-- The readings of a counter that wraps at `m`, `n` ticks after the reader last started. -/
def readings (m : ℕ) : ℕ → List Access → List ℕ
  | _, [] => []
  | n, .tick :: as => readings m (n + 1) as
  | _, .start :: as => readings m 0 as
  | n, .read :: as => n % m :: readings m n as
  | _, .restart :: as => readings m 0 as

variable {as : List Access} {p q : Phase} {m n : ℕ}

@[simp] theorem length_fates (as : List Access) : (fates as).length = as.count .tick := by
  induction as with
  | nil => rfl
  | cons a as ih => cases a <;> simp [fates, ih]

/-- Only a reader that has started, and has not read since, reads next. -/
theorem next_ne_read (h : Follows p as q) (hp : p ≠ .armed) : next as ≠ some .read := by
  induction as generalizing p with
  | nil => simp [next]
  | cons a as ih =>
    obtain ⟨p', hafter, hrest⟩ := h
    cases a with
    | tick =>
      obtain rfl : p = p' := by simpa [Phase.after] using hafter
      exact ih hrest hp
    | read => cases p <;> simp_all [Phase.after]
    | start => simp [next]
    | restart => simp [next]

/-- With room before the wrap, the readings sum to the ticks that are read next and to
    those already pending. -/
theorem sum_readings_from (h : Follows p as q)
    (hroom : (if p = .armed then n else 0) + as.count .tick < m) :
    (readings m n as).sum =
      (fates as).count (some .read) + if next as = some .read then n else 0 := by
  induction as generalizing p n with
  | nil => simp [readings, fates, next]
  | cons a as ih =>
    obtain ⟨p', hafter, hrest⟩ := h
    cases a with
    | tick =>
      obtain rfl : p = p' := by simpa [Phase.after] using hafter
      rw [List.count_cons_self] at hroom
      rw [readings, fates, next, List.count_cons, ih hrest (by split_ifs at hroom ⊢ <;> omega)]
      by_cases hread : next as = some .read
      · rw [if_pos hread, if_pos hread, hread]
        simp only [BEq.rfl, if_true]
        omega
      · rw [if_neg hread, if_neg hread, if_neg (by simpa using hread)]
    | start =>
      rw [List.count_cons_of_ne (by decide)] at hroom
      rw [readings, fates, next, ih (n := 0) hrest (by split_ifs <;> omega)]
      simp
    | read =>
      -- the phase is armed, so nothing pending has been read yet and nothing will be again
      obtain ⟨rfl, rfl⟩ : p = .armed ∧ p' = .done := by cases p <;> simp_all [Phase.after]
      rw [if_pos rfl, List.count_cons_of_ne (by decide)] at hroom
      have hnext := next_ne_read hrest nofun
      have hsum := ih (n := n) hrest (by rw [if_neg nofun]; omega)
      rw [readings, fates, next, List.sum_cons, hsum, if_neg hnext, if_pos rfl, Nat.mod_eq_of_lt (by omega)]
      omega
    | restart =>
      rw [List.count_cons_of_ne (by decide)] at hroom
      rw [readings, fates, next, ih (n := 0) hrest (by split_ifs <;> omega)]
      simp

/-- A counter that ticks fewer than `m` times has as many ticks read as it has ticks
    whose reader reads next. -/
theorem sum_readings (h : Follows .idle as q) (hroom : as.count .tick < m) :
    (readings m 0 as).sum = (fates as).count (some .read) := by
  have hsum := sum_readings_from (n := 0) h (by simpa using hroom)
  simpa using hsum

/-- A reader starts once. -/
theorem start_notMem_fates (h : Follows p as q) (hp : p ≠ .idle) :
    next as ≠ some .start ∧ some .start ∉ fates as := by
  induction as generalizing p with
  | nil => simp [next, fates]
  | cons a as ih =>
    obtain ⟨p', hafter, hrest⟩ := h
    cases a with
    | tick =>
      obtain rfl : p = p' := by simpa [Phase.after] using hafter
      obtain ⟨hnext, hmem⟩ := ih hrest hp
      exact ⟨hnext, by simpa [fates] using ⟨hnext.symm, hmem⟩⟩
    | start => cases p <;> simp_all [Phase.after]
    | read =>
      obtain rfl : p' = .done := by cases p <;> simp_all [Phase.after]
      exact ⟨by simp [next], (ih hrest nofun).2⟩
    | restart =>
      obtain rfl : p' = .armed := by cases p <;> simp_all [Phase.after]
      exact ⟨by simp [next], (ih hrest nofun).2⟩

/-- The ticks before the start are those the reader starts after. -/
theorem ticks_eq (h : Follows .idle as q) (hq : q ≠ .idle) :
    next as = some .start ∧ ticks as = (fates as).countP (· ≠ some .start) := by
  induction as with
  | nil => exact absurd h.symm hq
  | cons a as ih =>
    obtain ⟨p', hafter, hrest⟩ := h
    cases a with
    | tick =>
      obtain rfl : Phase.idle = p' := by simpa [Phase.after] using hafter
      obtain ⟨hnext, hticks⟩ := ih hrest
      exact ⟨hnext, by simp [ticks, fates, hnext, hticks]⟩
    | start =>
      obtain rfl : Phase.armed = p' := by simpa [Phase.after] using hafter
      have hmem := (start_notMem_fates hrest nofun).2
      refine ⟨rfl, ?_⟩
      rw [ticks, fates, ← length_fates, eq_comm, List.countP_eq_length]
      intro f hf
      have hne : f ≠ some .start := fun heq => hmem (heq ▸ hf)
      simpa using hne
    | read => simp [Phase.after] at hafter
    | restart => simp [Phase.after] at hafter

/-- The readings account for the ticks since the start exactly when after each of them
    the reader reads next. -/
theorem sum_readings_eq_iff (h : Follows .idle as q) (hq : q ≠ .idle) (hroom : as.count .tick < m) :
    (readings m 0 as).sum = ticks as ↔ ∀ f ∈ fates as, f = some .start ∨ f = some .read := by
  have hcount : (fates as).count (some .read) =
      ((fates as).filter (· ≠ some .start)).count (some .read) := by
    rw [List.count_filter rfl]
  rw [sum_readings h hroom, (ticks_eq h hq).2, hcount, List.countP_eq_length_filter, List.count_eq_length]
  constructor
  · intro hall f hf
    by_cases hstart : f = some .start
    · exact .inl hstart
    · exact .inr (hall f (List.mem_filter.mpr ⟨hf, by simpa using hstart⟩)).symm
  · intro hall f hf
    obtain ⟨hmem, hstart⟩ := List.mem_filter.mp hf
    exact ((hall f hmem).resolve_left (by simpa using hstart)).symm

end Odometer
