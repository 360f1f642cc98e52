import Mathlib.Data.List.Infix

namespace IdleDrain

variable {α : Type*} (time : α → ℕ) (idle : ℕ)

/-- Read a queue until nothing comes for `idle` after the last item read: the items read, and the
    ones left. An item that has come already is read at once. -/
def drain : ℕ → List α → List α × List α
  | _, [] => ([], [])
  | now, a :: as =>
    if time a < now + idle then
      let rest := drain (max now (time a)) as
      (a :: rest.1, rest.2)
    else ([], a :: as)

variable {time : α → ℕ} {idle : ℕ}

variable {sel : α → Bool}

end IdleDrain
