import Fabushi.Library.Interleaving
import Fabushi.Library.Result
import Fabushi.Library.Table

/-!
# Statements and batches of the database

A batch runs its statements in order and as one transaction: a violated constraint
rolls back all of them. Integer columns are unbounded here; the constraints of the
schema keep the ones the proofs are about within their 64 bits.
-/

namespace Fabushi.Worker

open Result

inductive SqlError where
  | check (table : String)
  | unique (table : String)
  | foreignKey (table : String)
  deriving DecidableEq, Repr

variable {δ α β : Type}

def atomically (batch : δ → Except SqlError (δ × β)) (db : δ) : δ × Except SqlError β :=
  match batch db with
  | .ok (db', answer) => (db', .ok answer)
  | .error e => (db, .error e)

theorem atomically_cases (batch : δ → Except SqlError (δ × β)) (db : δ) :
    (∃ db' answer, batch db = .ok (db', answer) ∧ atomically batch db = (db', .ok answer)) ∨
      ∃ e, batch db = .error e ∧ atomically batch db = (db, .error e) := by
  unfold atomically
  cases h : batch db with
  | error e => exact .inr ⟨e, rfl, rfl⟩
  | ok result => exact .inl ⟨result.1, result.2, rfl, rfl⟩

def updateChecked (table : String) (check : α → Bool) (selects : α → Bool) (set : α → α)
    (rows : List α) : Except SqlError (List α) := do
  ensure (rows.all fun row ↦ !selects row || check (set row)) (.check table)
  return Table.update selects set rows

theorem updateChecked_eq_ok {table : String} {check selects : α → Bool} {set : α → α}
    {rows rows' : List α} (h : updateChecked table check selects set rows = .ok rows') :
    rows' = Table.update selects set rows ∧
      ∀ row ∈ rows, selects row = true → check (set row) = true := by
  simp only [updateChecked, bind_eq_ok, ensure_eq_ok, List.all_eq_true] at h
  obtain ⟨_, hcheck, hrows⟩ := h
  refine ⟨(Except.ok.inj hrows).symm, ?_⟩
  intro row hrow hselects
  simpa [hselects] using hcheck row hrow

end Fabushi.Worker
