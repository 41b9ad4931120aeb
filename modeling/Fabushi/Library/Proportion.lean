import Mathlib

/-!
# Rounded shares of an amount

`share num den x` is the part `num / den` of `x`, rounded down, and `rest` is what
it leaves. Both are monotone when the ratio is at most one, so that an amount and
what is taken from it later can be split by cumulative differences.
-/

namespace Proportion

variable {num den x y : ℤ}

def share (num den x : ℤ) : ℤ :=
  x * num / den

def rest (num den x : ℤ) : ℤ :=
  x - share num den x

@[simp] theorem share_zero : share num den 0 = 0 := by
  simp [share]

@[simp] theorem rest_zero : rest num den 0 = 0 := by
  simp [rest]

theorem share_add_rest (num den x : ℤ) : share num den x + rest num den x = x := by
  rw [rest]
  ring

theorem share_mono (hden : 0 < den) (hnum : 0 ≤ num) (h : x ≤ y) :
    share num den x ≤ share num den y :=
  Int.ediv_le_ediv hden (Int.mul_le_mul_of_nonneg_right h hnum)

theorem rest_mono (hden : 0 < den) (hle : num ≤ den) (h : x ≤ y) :
    rest num den x ≤ rest num den y := by
  have hprod : y * num ≤ x * num + (y - x) * den := by nlinarith
  have hshare : share num den y ≤ share num den x + (y - x) := by
    calc
      y * num / den ≤ (x * num + (y - x) * den) / den := Int.ediv_le_ediv hden hprod
      _ = x * num / den + (y - x) := Int.add_mul_ediv_right _ _ hden.ne'
  unfold rest
  omega

theorem share_nonneg (hden : 0 < den) (hnum : 0 ≤ num) (hx : 0 ≤ x) : 0 ≤ share num den x := by
  simpa using share_mono hden hnum hx

theorem rest_nonneg (hden : 0 < den) (hle : num ≤ den) (hx : 0 ≤ x) : 0 ≤ rest num den x := by
  simpa using rest_mono hden hle hx

end Proportion
