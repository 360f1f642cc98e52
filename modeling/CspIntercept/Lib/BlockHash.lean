import Mathlib.Data.List.TakeDrop
import Mathlib.Order.Nat

namespace BlockHash

variable {β σ : Type*}

/-- Block `i` of a message cut into blocks of `n` items. -/
def block (n : ℕ) (m : List β) (i : ℕ) : List β :=
  (m.drop (n * i)).take n

/-- The chaining value after the first blocks of a message. -/
def chain (n : ℕ) (compress : σ → List β → σ) (h : σ) (m : List β) : ℕ → σ
  | 0 => h
  | i + 1 => compress (chain n compress h m i) (block n m i)

/-- The items of a message that do not fill a block. -/
def buffered (n : ℕ) (m : List β) : List β :=
  m.drop (n * (m.length / n))

variable {n : ℕ} {compress : σ → List β → σ} {h : σ} {m : List β}

theorem length_buffered : (buffered n m).length = m.length % n := by
  have hdiv := Nat.div_add_mod m.length n
  rw [buffered, List.length_drop]
  omega

/-- A block that lies within the message does not see what follows it. -/
theorem block_append (x : List β) {i : ℕ} (hi : n * (i + 1) ≤ m.length) :
    block n (m ++ x) i = block n m i := by
  have hexp : n * (i + 1) = n * i + n := Nat.mul_succ n i
  rw [block, block, List.drop_append_of_le_length (by omega), List.take_append_of_le_length]
  rw [List.length_drop]
  omega

theorem chain_append (x : List β) {i : ℕ} (hi : n * i ≤ m.length) :
    chain n compress h (m ++ x) i = chain n compress h m i := by
  induction i with
  | zero => rfl
  | succ i ih =>
    have hexp : n * (i + 1) = n * i + n := Nat.mul_succ n i
    rw [chain, chain, ih (by omega), block_append x hi]

/-- The blocks after the first `i` are those of the rest of the message. -/
theorem chain_add (i j : ℕ) :
    chain n compress h m (i + j) = chain n compress (chain n compress h m i) (m.drop (n * i)) j := by
  induction j with
  | zero => rfl
  | succ j ih =>
    have hblock : block n m (i + j) = block n (m.drop (n * i)) j := by
      rw [block, block, List.drop_drop, ← Nat.mul_add]
    rw [← Nat.add_assoc, chain, chain, ih, hblock]

/-- Appending a tail to a message costs only the blocks of the buffered items and
    the tail. -/
theorem chain_append_tail (t : List β) (j : ℕ) :
    chain n compress h (m ++ t) (m.length / n + j) =
      chain n compress (chain n compress h m (m.length / n)) (buffered n m ++ t) j := by
  have hle : n * (m.length / n) ≤ m.length := Nat.mul_div_le m.length n
  rw [chain_add, chain_append t hle, List.drop_append_of_le_length hle, buffered]

/-- A streaming hash has absorbed a message: it holds the chaining value of the
    full blocks and the items after them. -/
structure Absorbed (n : ℕ) (compress : σ → List β → σ) (h : σ) (m : List β) (state : σ)
    (buf : List β) : Prop where
  state : state = chain n compress h m (m.length / n)
  buf : buf = buffered n m

theorem Absorbed.nil : Absorbed n compress h [] h [] := by
  constructor <;> simp [chain, buffered]

section Push

variable {state : σ} {buf : List β}

/-- One more item that does not fill the buffer. -/
theorem Absorbed.push (habs : Absorbed n compress h m state buf) (b : β)
    (hroom : buf.length + 1 < n) : Absorbed n compress h (m ++ [b]) state (buf ++ [b]) := by
  have hlen : m.length % n + 1 < n := by rw [← length_buffered, ← habs.buf]; exact hroom
  have hdiv : (m ++ [b]).length / n = m.length / n := by
    rw [List.length_append, List.length_singleton]
    refine Nat.div_eq_of_lt_le ?_ ?_
    · rw [Nat.mul_comm]
      exact (Nat.mul_div_le m.length n).trans (Nat.le_succ _)
    · have hmod := Nat.div_add_mod m.length n
      rw [Nat.succ_mul, Nat.mul_comm]
      omega
  have hle : n * (m.length / n) ≤ m.length := Nat.mul_div_le m.length n
  constructor
  · rw [hdiv, chain_append [b] hle]
    exact habs.state
  · rw [habs.buf, buffered, buffered, hdiv, List.drop_append_of_le_length hle]

/-- The item that fills the buffer completes a block. -/
theorem Absorbed.push_full (habs : Absorbed n compress h m state buf) (b : β)
    (hfull : buf.length + 1 = n) :
    Absorbed n compress h (m ++ [b]) (compress state (buf ++ [b])) [] := by
  have hlen : m.length % n + 1 = n := by rw [← length_buffered, ← habs.buf]; exact hfull
  have hn : 0 < n := by omega
  have hmod := Nat.div_add_mod m.length n
  have htotal : (m ++ [b]).length = n * (m.length / n + 1) := by
    rw [List.length_append, List.length_singleton, Nat.mul_succ]
    omega
  have hdiv : (m ++ [b]).length / n = m.length / n + 1 := by
    rw [htotal]
    exact Nat.mul_div_cancel_left _ hn
  constructor
  · have hfit : (buffered n m ++ [b]).length = n := by
      rw [List.length_append, length_buffered]
      exact hlen
    rw [hdiv, chain_append_tail]
    simp only [chain, block, Nat.mul_zero, List.drop_zero, habs.state, habs.buf]
    rw [List.take_of_length_le hfit.le]
  · rw [buffered, hdiv, ← htotal, List.drop_length]

end Push

/-- Closing a message with a tail that fills the last block. -/
theorem Absorbed.close_one {state : σ} {buf t : List β} (habs : Absorbed n compress h m state buf)
    (ht : (buf ++ t).length = n) :
    chain n compress h (m ++ t) (m.length / n + 1) = compress state (buf ++ t) := by
  rw [chain_append_tail, ← habs.state, ← habs.buf]
  simp only [chain, block, Nat.mul_zero, List.drop_zero]
  rw [List.take_of_length_le ht.le]

/-- Closing a message with a tail that needs one block more. -/
theorem Absorbed.close_two {state : σ} {buf t u : List β} (habs : Absorbed n compress h m state buf)
    (ht : (buf ++ t).length = n) (hu : u.length = n) :
    chain n compress h (m ++ (t ++ u)) (m.length / n + 2) = compress (compress state (buf ++ t)) u := by
  rw [chain_append_tail, ← habs.state, ← habs.buf, ← List.append_assoc]
  simp only [chain, block, Nat.mul_zero, List.drop_zero, Nat.mul_one]
  rw [List.take_append_of_le_length ht.ge, List.take_of_length_le ht.le, ← ht, List.drop_left, ht,
    List.take_of_length_le hu.le]

end BlockHash
