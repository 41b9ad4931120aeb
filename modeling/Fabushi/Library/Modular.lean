import Mathlib

/-!
# Modular exponentiation

Repeated squaring, and the laws of exponents it inherits from the powers it computes.
-/

namespace Modular

/-- `accumulator * base ^ exponent`, bit by bit from the lowest one. -/
def powLoop (modulus : ℕ) : ℕ → ℕ → ℕ → ℕ → ℕ
  | 0, _, _, accumulator => accumulator
  | bits + 1, base, exponent, accumulator =>
      powLoop modulus bits (base * base % modulus) (exponent / 2)
        (if exponent % 2 = 1 then accumulator * base % modulus else accumulator)

def modpow (base exponent modulus : ℕ) : ℕ :=
  powLoop modulus (exponent.log2 + 1) (base % modulus) exponent (1 % modulus)

theorem powLoop_modEq {modulus bits base exponent accumulator : ℕ} (h : exponent < 2 ^ bits) :
    powLoop modulus bits base exponent accumulator ≡ accumulator * base ^ exponent
      [MOD modulus] := by
  induction bits generalizing base exponent accumulator with
  | zero =>
      obtain rfl : exponent = 0 := by omega
      rw [powLoop, Nat.pow_zero, Nat.mul_one]
  | succ bits ih =>
      have hhalf : exponent / 2 < 2 ^ bits := by omega
      have hsquare : (base * base % modulus) ^ (exponent / 2) ≡ base ^ (2 * (exponent / 2))
          [MOD modulus] := by
        rw [Nat.pow_mul, Nat.pow_two]
        exact (Nat.mod_modEq _ _).pow _
      have hexponent := Nat.div_add_mod exponent 2
      rw [powLoop]
      refine (ih hhalf).trans ?_
      split
      · rename_i hodd
        rw [hodd] at hexponent
        calc accumulator * base % modulus * (base * base % modulus) ^ (exponent / 2)
            ≡ accumulator * base * base ^ (2 * (exponent / 2)) [MOD modulus] :=
              (Nat.mod_modEq _ _).mul hsquare
          _ = accumulator * base ^ exponent := by
              rw [Nat.mul_assoc, ← Nat.pow_succ', Nat.succ_eq_add_one, hexponent]
      · rename_i heven
        have hzero : exponent % 2 = 0 := by omega
        rw [hzero, Nat.add_zero] at hexponent
        calc accumulator * (base * base % modulus) ^ (exponent / 2)
            ≡ accumulator * base ^ (2 * (exponent / 2)) [MOD modulus] := hsquare.mul_left _
          _ = accumulator * base ^ exponent := by rw [hexponent]

theorem powLoop_lt {modulus bits base exponent accumulator : ℕ} (h : accumulator < modulus) :
    powLoop modulus bits base exponent accumulator < modulus := by
  induction bits generalizing base exponent accumulator with
  | zero => exact h
  | succ bits ih =>
      rw [powLoop]
      apply ih
      split
      · exact Nat.mod_lt _ (Nat.zero_lt_of_lt h)
      · exact h

variable {modulus : ℕ}

theorem modpow_lt (hmodulus : 0 < modulus) (base exponent : ℕ) :
    modpow base exponent modulus < modulus :=
  powLoop_lt (Nat.mod_lt _ hmodulus)

theorem modpow_eq (hmodulus : 0 < modulus) (base exponent : ℕ) :
    modpow base exponent modulus = base ^ exponent % modulus := by
  have hloop : modpow base exponent modulus ≡ 1 % modulus * (base % modulus) ^ exponent
      [MOD modulus] := powLoop_modEq Nat.lt_log2_self
  have hpower : 1 % modulus * (base % modulus) ^ exponent ≡ base ^ exponent [MOD modulus] := by
    have h := (Nat.mod_modEq 1 modulus).mul ((Nat.mod_modEq base modulus).pow exponent)
    rwa [Nat.one_mul] at h
  have h := hloop.trans hpower
  rwa [Nat.ModEq, Nat.mod_eq_of_lt (modpow_lt hmodulus base exponent)] at h

theorem modpow_modpow (hmodulus : 0 < modulus) (base m n : ℕ) :
    modpow (modpow base m modulus) n modulus = modpow base (m * n) modulus := by
  rw [modpow_eq hmodulus, modpow_eq hmodulus, modpow_eq hmodulus, Nat.pow_mul]
  exact (Nat.mod_modEq _ _).pow n

theorem modpow_congr (hmodulus : 0 < modulus) {a b : ℕ} (h : a ≡ b [MOD modulus]) (n : ℕ) :
    modpow a n modulus = modpow b n modulus := by
  rw [modpow_eq hmodulus, modpow_eq hmodulus]
  exact h.pow n

theorem sub_modEq {a b c : ℕ} (hmodulus : 0 < modulus) (h : a ≡ b + c [MOD modulus]) :
    a + modulus - b % modulus ≡ c [MOD modulus] := by
  have hlt := Nat.mod_lt b hmodulus
  have hsum : a + modulus - b % modulus + b % modulus = a + modulus := by omega
  apply Nat.ModEq.add_right_cancel' (b % modulus)
  calc a + modulus - b % modulus + b % modulus = a + modulus := hsum
    _ ≡ a [MOD modulus] := Nat.add_modEq_right
    _ ≡ b + c [MOD modulus] := h
    _ ≡ c + b % modulus [MOD modulus] := by
        rw [Nat.add_comm]
        exact (Nat.mod_modEq b modulus).symm.add_left c

end Modular
