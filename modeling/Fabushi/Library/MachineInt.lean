import Mathlib

/-!
# Checked and saturating machine arithmetic

Signed 64-bit values are `Int64`; their meaning is `Int64.toInt`. Every operation
below is specified by the integer it stands for, so callers reason in `ℤ` and
never unfold the representation.
-/

/-- The order of the standard library, as a linear order. -/
instance instLinearOrderUInt64 : LinearOrder UInt64 where
  le_refl := UInt64.le_refl
  le_trans _ _ _ := UInt64.le_trans
  lt_iff_le_not_ge a b := by
    simp only [UInt64.lt_iff_toNat_lt, UInt64.le_iff_toNat_le]
    omega
  le_antisymm _ _ := UInt64.le_antisymm
  le_total := UInt64.le_total
  toDecidableLE := inferInstance
  toDecidableEq := inferInstance
  toDecidableLT := inferInstance
  min_def _ _ := rfl
  max_def _ _ := rfl
  compare_eq_compareOfLessAndEq _ _ := rfl

namespace MachineInt

def InRange (x : ℤ) : Prop :=
  -2 ^ 63 ≤ x ∧ x < 2 ^ 63

instance (x : ℤ) : Decidable (InRange x) :=
  inferInstanceAs (Decidable (_ ∧ _))

def tryFrom (x : ℤ) : Option Int64 :=
  if InRange x then some (Int64.ofInt x) else none

def clamp (x : ℤ) : Int64 :=
  if x < -2 ^ 63 then Int64.minValue
  else if 2 ^ 63 ≤ x then Int64.maxValue
  else Int64.ofInt x

/-- A count stored in an unsigned 32-bit field, saturating at its maximum. -/
def saturatingU32 (n : ℕ) : UInt32 :=
  if n < 2 ^ 32 then UInt32.ofNat n else 0xFFFFFFFF

/-- `u64::saturating_add` of a count. -/
def saturatingU64 (a : UInt64) (n : ℕ) : UInt64 :=
  if a.toNat + n < 2 ^ 64 then UInt64.ofNat (a.toNat + n) else 0xFFFFFFFFFFFFFFFF

def checkedAdd (a b : Int64) : Option Int64 :=
  tryFrom (a.toInt + b.toInt)

def checkedSub (a b : Int64) : Option Int64 :=
  tryFrom (a.toInt - b.toInt)

def checkedMul (a b : Int64) : Option Int64 :=
  tryFrom (a.toInt * b.toInt)

def saturatingAdd (a b : Int64) : Int64 :=
  clamp (a.toInt + b.toInt)

def saturatingSub (a b : Int64) : Int64 :=
  clamp (a.toInt - b.toInt)

def saturatingMul (a b : Int64) : Int64 :=
  clamp (a.toInt * b.toInt)

theorem inRange_toInt (a : Int64) : InRange a.toInt :=
  ⟨a.le_toInt, a.toInt_lt⟩

theorem inRange_of_le {x : ℤ} {a : Int64} (hx : 0 ≤ x) (hle : x ≤ a.toInt) : InRange x := by
  have ha := inRange_toInt a
  unfold InRange at *
  omega

theorem toInt_ofInt {x : ℤ} (h : InRange x) : (Int64.ofInt x).toInt = x :=
  Int64.toInt_ofInt_of_le h.1 h.2

theorem tryFrom_eq_some {x : ℤ} {c : Int64} :
    tryFrom x = some c ↔ c.toInt = x := by
  constructor
  · intro h
    by_cases hx : InRange x
    · simp only [tryFrom, if_pos hx, Option.some.injEq] at h
      rw [← h, toInt_ofInt hx]
    · simp [tryFrom, hx] at h
  · intro h
    have hx : InRange x := h ▸ inRange_toInt c
    simp only [tryFrom, if_pos hx, Option.some.injEq]
    exact Int64.toInt_inj.mp ((toInt_ofInt hx).trans h.symm)

theorem tryFrom_eq_none {x : ℤ} : tryFrom x = none ↔ ¬ InRange x := by
  unfold tryFrom
  split <;> simp_all

theorem checkedAdd_eq_some {a b c : Int64} :
    checkedAdd a b = some c ↔ c.toInt = a.toInt + b.toInt :=
  tryFrom_eq_some

theorem checkedSub_eq_some {a b c : Int64} :
    checkedSub a b = some c ↔ c.toInt = a.toInt - b.toInt :=
  tryFrom_eq_some

theorem toInt_clamp {x : ℤ} (h : InRange x) : (clamp x).toInt = x := by
  have h₁ : ¬ x < -2 ^ 63 := not_lt.mpr h.1
  have h₂ : ¬ 2 ^ 63 ≤ x := not_le.mpr h.2
  rw [clamp, if_neg h₁, if_neg h₂, toInt_ofInt h]

theorem toInt_saturatingAdd {a b : Int64} (h : InRange (a.toInt + b.toInt)) :
    (saturatingAdd a b).toInt = a.toInt + b.toInt :=
  toInt_clamp h

theorem toInt_saturatingSub {a b : Int64} (h : InRange (a.toInt - b.toInt)) :
    (saturatingSub a b).toInt = a.toInt - b.toInt :=
  toInt_clamp h

theorem toNat_saturatingU32 {n : ℕ} (h : n < 2 ^ 32) : (saturatingU32 n).toNat = n := by
  rw [saturatingU32, if_pos h, UInt32.toNat_ofNat_of_lt' h]

theorem saturatingU32_mono {m n : ℕ} (h : m ≤ n) : saturatingU32 m ≤ saturatingU32 n := by
  unfold saturatingU32
  rw [UInt32.le_iff_toNat_le]
  split
  · rename_i hm
    rw [UInt32.toNat_ofNat_of_lt' hm]
    split
    · rename_i hn
      rwa [UInt32.toNat_ofNat_of_lt' hn]
    · change m ≤ 4294967295
      omega
  · rw [if_neg (by omega)]

end MachineInt
