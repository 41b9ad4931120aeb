import Mathlib

/-!
# Pieces that tile a range

Pieces that are appended one after the other, each where the last one ended, cover every
position of the range exactly once.
-/

namespace Tiling

/-- The pieces, each an offset and a length, cover the range from `a` to `b` in their order. -/
def Tiles : ℕ → List (ℕ × ℕ) → ℕ → Prop
  | a, [], b => a = b
  | a, (offset, length) :: pieces, b =>
      offset = a ∧ 0 < length ∧ Tiles (offset + length) pieces b

def Covers (position : ℕ) (piece : ℕ × ℕ) : Prop :=
  piece.1 ≤ position ∧ position < piece.1 + piece.2

instance (position : ℕ) (piece : ℕ × ℕ) : Decidable (Covers position piece) := by
  unfold Covers
  infer_instance

variable {a b : ℕ} {pieces : List (ℕ × ℕ)}

theorem Tiles.le (h : Tiles a pieces b) : a ≤ b := by
  induction pieces generalizing a with
  | nil => exact Nat.le_of_eq h
  | cons piece pieces ih =>
      obtain ⟨rfl, -, hrest⟩ := h
      exact (Nat.le_add_right _ _).trans (ih hrest)

theorem Tiles.append_singleton (h : Tiles a pieces b) {length : ℕ} (hlength : 0 < length) :
    Tiles a (pieces ++ [(b, length)]) (b + length) := by
  induction pieces generalizing a with
  | nil => exact ⟨Eq.symm h, hlength, rfl⟩
  | cons piece pieces ih =>
      obtain ⟨hoffset, hpositive, hrest⟩ := h
      exact ⟨hoffset, hpositive, ih hrest⟩

/-- No position of the range is left out or covered twice. -/
theorem Tiles.countP_covers (h : Tiles a pieces b) (position : ℕ) :
    pieces.countP (fun piece ↦ Covers position piece) =
      if a ≤ position ∧ position < b then 1 else 0 := by
  induction pieces generalizing a with
  | nil =>
      obtain rfl : a = b := h
      rw [List.countP_nil, if_neg (by omega)]
  | cons piece pieces ih =>
      obtain ⟨rfl, hpositive, hrest⟩ := h
      have hle := hrest.le
      rw [List.countP_cons, ih hrest]
      by_cases hcovers : Covers position piece
      · obtain ⟨hfrom, hbefore⟩ := hcovers
        rw [if_neg (by omega), if_pos (decide_eq_true ⟨hfrom, hbefore⟩), if_pos (by omega)]
      · rw [if_neg (c := _ = true) (by simpa using hcovers)]
        unfold Covers at hcovers
        simp only [Nat.add_zero]
        congr 1
        exact propext (by omega)

end Tiling
