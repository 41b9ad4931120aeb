import Mathlib

/-!
# Copies of a state and the log behind it

A log is written commit by commit, each commit a list of events. The state at a revision is
the fold of the commits up to it; later commits do not change it. A copy of the state at
the last revision may commit, and is then the state at the next.
-/

namespace EventLog

variable {σ ε : Type*} (apply : σ → ε → σ) (start : σ)

/-- The state after the first `revision` commits. -/
def stateAt (commits : List (List ε)) (revision : ℕ) : σ :=
  (commits.take revision).flatten.foldl apply start

theorem stateAt_length (commits : List (List ε)) :
    stateAt apply start commits commits.length = commits.flatten.foldl apply start := by
  rw [stateAt, List.take_length]

theorem stateAt_append_of_le {commits : List (List ε)} {revision : ℕ}
    (h : revision ≤ commits.length) (events : List ε) :
    stateAt apply start (commits ++ [events]) revision = stateAt apply start commits revision := by
  rw [stateAt, stateAt, List.take_append_of_le_length h]

theorem stateAt_append_length (commits : List (List ε)) (events : List ε) :
    stateAt apply start (commits ++ [events]) (commits.length + 1) =
      events.foldl apply (stateAt apply start commits commits.length) := by
  have hlength : commits.length + 1 = (commits ++ [events]).length := by simp
  rw [hlength, stateAt_length, stateAt_length, List.flatten_append, List.foldl_append]
  simp

theorem stateAt_induction {P : σ → Prop} (hstart : P start) (happly : ∀ s e, P s → P (apply s e))
    (commits : List (List ε)) (revision : ℕ) : P (stateAt apply start commits revision) := by
  unfold stateAt
  induction (commits.take revision).flatten generalizing start with
  | nil => exact hstart
  | cons event events ih => exact ih (apply start event) (happly start event hstart)

end EventLog
