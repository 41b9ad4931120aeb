import Mathlib

/-!
# Numbers as bytes

Little-endian words of a fixed width, and big-endian numbers of the width they need or
of a width they are padded to.
-/

namespace Radix

def toLe : ℕ → ℕ → List UInt8
  | 0, _ => []
  | width + 1, n => UInt8.ofNat n :: toLe width (n / 256)

def ofLe : List UInt8 → ℕ
  | [] => 0
  | byte :: bytes => byte.toNat + 256 * ofLe bytes

def ofBe (bytes : List UInt8) : ℕ :=
  ofLe bytes.reverse

def byteLength (n : ℕ) : ℕ :=
  n.log2 / 8 + 1

def toBe (n : ℕ) : List UInt8 :=
  (toLe (byteLength n) n).reverse

def padBe (width n : ℕ) : List UInt8 :=
  (toLe width n).reverse

/-! ## Little-endian words -/

@[simp] theorem length_toLe (width n : ℕ) : (toLe width n).length = width := by
  induction width generalizing n with
  | zero => rfl
  | succ width ih => rw [toLe, List.length_cons, ih]

theorem ofLe_toLe (width n : ℕ) : ofLe (toLe width n) = n % 256 ^ width := by
  induction width generalizing n with
  | zero => rw [toLe, ofLe, pow_zero, Nat.mod_one]
  | succ width ih =>
      rw [toLe, ofLe, ih, pow_succ', Nat.mod_mul, UInt8.toNat_ofNat']

theorem ofLe_toLe_of_lt {width n : ℕ} (h : n < 256 ^ width) : ofLe (toLe width n) = n := by
  rw [ofLe_toLe, Nat.mod_eq_of_lt h]

theorem ofLe_lt (bytes : List UInt8) : ofLe bytes < 256 ^ bytes.length := by
  induction bytes with
  | nil => exact Nat.one_pos
  | cons byte bytes ih =>
      have hbyte := byte.toNat_lt
      rw [ofLe, List.length_cons, pow_succ']
      omega

theorem toLe_ofLe (bytes : List UInt8) : toLe bytes.length (ofLe bytes) = bytes := by
  induction bytes with
  | nil => rfl
  | cons byte bytes ih =>
      have hbyte := byte.toNat_lt
      have hhead : UInt8.ofNat (byte.toNat + 256 * ofLe bytes) = byte := by
        apply UInt8.toNat_inj.mp
        rw [UInt8.toNat_ofNat']
        omega
      have htail : (byte.toNat + 256 * ofLe bytes) / 256 = ofLe bytes := by omega
      rw [ofLe, List.length_cons, toLe, hhead, htail, ih]

theorem ofLe_append (low high : List UInt8) :
    ofLe (low ++ high) = ofLe low + 256 ^ low.length * ofLe high := by
  induction low with
  | nil => simp [ofLe]
  | cons byte low ih =>
      rw [List.cons_append, ofLe, ih, ofLe, List.length_cons, pow_succ']
      ring

theorem ofLe_replicate_zero (count : ℕ) : ofLe (List.replicate count 0) = 0 := by
  induction count with
  | zero => rfl
  | succ count ih =>
      rw [List.replicate_succ, ofLe, ih]
      rfl

/-! ## Big-endian numbers -/

theorem lt_pow_byteLength (n : ℕ) : n < 256 ^ byteLength n := by
  have hbits : n < 2 ^ (n.log2 + 1) := Nat.lt_log2_self
  have hwidth : n.log2 + 1 ≤ 8 * byteLength n := by
    unfold byteLength
    omega
  calc n < 2 ^ (n.log2 + 1) := hbits
    _ ≤ 2 ^ (8 * byteLength n) := Nat.pow_le_pow_right (by decide) hwidth
    _ = 256 ^ byteLength n := by rw [pow_mul]; rfl

theorem byteLength_le {width n : ℕ} (hwidth : 0 < width) (h : n < 256 ^ width) :
    byteLength n ≤ width := by
  have hpow : n < 2 ^ (8 * width) := by rwa [pow_mul]
  unfold byteLength
  by_cases hn : n = 0
  · rw [hn, Nat.log2_zero]
    omega
  · have hlog := (Nat.log2_lt hn).mpr hpow
    omega

@[simp] theorem length_toBe (n : ℕ) : (toBe n).length = byteLength n := by
  rw [toBe, List.length_reverse, length_toLe]

@[simp] theorem length_padBe (width n : ℕ) : (padBe width n).length = width := by
  rw [padBe, List.length_reverse, length_toLe]

theorem ofBe_padBe {width n : ℕ} (h : n < 256 ^ width) : ofBe (padBe width n) = n := by
  rw [ofBe, padBe, List.reverse_reverse, ofLe_toLe_of_lt h]

theorem ofBe_lt (bytes : List UInt8) : ofBe bytes < 256 ^ bytes.length := by
  have h := ofLe_lt bytes.reverse
  rwa [List.length_reverse] at h

theorem replicate_append_toBe {width n : ℕ} (h : byteLength n ≤ width) :
    List.replicate (width - byteLength n) 0 ++ toBe n = padBe width n := by
  have hvalue : ofLe (toLe (byteLength n) n ++ List.replicate (width - byteLength n) 0) = n := by
    rw [ofLe_append, ofLe_replicate_zero, mul_zero, add_zero,
      ofLe_toLe_of_lt (lt_pow_byteLength n)]
  have hback := toLe_ofLe (toLe (byteLength n) n ++ List.replicate (width - byteLength n) 0)
  have hlength : (toLe (byteLength n) n ++ List.replicate (width - byteLength n) 0).length =
      width := by
    rw [List.length_append, length_toLe, List.length_replicate]
    omega
  rw [hvalue, hlength] at hback
  rw [toBe, padBe, hback, List.reverse_append, List.reverse_replicate]

/-! ## Machine words -/

theorem u32_ofLe_toLe (x : UInt32) : UInt32.ofNat (ofLe (toLe 4 x.toNat)) = x := by
  rw [ofLe_toLe_of_lt x.toNat_lt, UInt32.ofNat_toNat]

theorem u64_ofLe_toLe (x : UInt64) : UInt64.ofNat (ofLe (toLe 8 x.toNat)) = x := by
  rw [ofLe_toLe_of_lt x.toNat_lt, UInt64.ofNat_toNat]

theorem toLe_three (length : ℕ) :
    [UInt8.ofNat (length &&& 0xff), UInt8.ofNat ((length >>> 8) &&& 0xff),
      UInt8.ofNat ((length >>> 16) &&& 0xff)] = toLe 3 length := by
  have hlow : ∀ n : ℕ, UInt8.ofNat (n &&& 0xff) = UInt8.ofNat n := by
    intro n
    apply UInt8.toNat_inj.mp
    rw [UInt8.toNat_ofNat', UInt8.toNat_ofNat', Nat.and_two_pow_sub_one_eq_mod n 8]
    omega
  rw [hlow, hlow, hlow, Nat.shiftRight_eq_div_pow, Nat.shiftRight_eq_div_pow]
  simp [toLe, Nat.div_div_eq_div_mul]

theorem and_two_pow_eq_zero_iff {n i : ℕ} (h : n < 2 ^ (i + 1)) : n &&& 2 ^ i = 0 ↔ n < 2 ^ i := by
  constructor
  · intro hzero
    by_contra hge
    have hbit := Nat.testBit_of_two_pow_le_and_two_pow_add_one_gt (Nat.le_of_not_lt hge) h
    have hclear := congrArg (fun m : ℕ ↦ m.testBit i) hzero
    simp [hbit] at hclear
  · intro hlt
    apply Nat.eq_of_testBit_eq
    intro j
    rw [Nat.testBit_and, Nat.testBit_two_pow, Nat.zero_testBit]
    by_cases hj : i = j
    · rw [← hj, Nat.testBit_lt_two_pow hlt, Bool.false_and]
    · rw [decide_eq_false hj, Bool.and_false]

end Radix
