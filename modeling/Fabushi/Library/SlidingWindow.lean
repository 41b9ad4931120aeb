import Mathlib

/-!
# A bitmap over the numbers below the highest one

A window keeps the highest of the numbers it has taken and one bit for each of the
`width` numbers at and below it. `Records` says that the bits tell exactly which of
these were taken. Taking a number further up shifts the bits, whatever the gap.
-/

namespace SlidingWindow

variable {width highest : ℕ} {bitmap : BitVec width} {taken : List ℕ}

def top (taken : List ℕ) : ℕ :=
  taken.foldr max 0

theorem le_top {n : ℕ} (h : n ∈ taken) : n ≤ top taken := by
  induction taken with
  | nil => cases h
  | cons m taken ih =>
      rcases List.mem_cons.mp h with rfl | h
      · exact le_max_left _ _
      · exact (ih h).trans (le_max_right _ _)

/-- The bits tell which numbers at and below the highest one were taken. -/
structure Records (highest : ℕ) (bitmap : BitVec width) (taken : List ℕ) : Prop where
  highest_eq : highest = top taken
  bit_iff : ∀ d < width, bitmap.getLsbD d = true ↔ ∃ n ∈ taken, n + d = highest

theorem records_nil : Records 0 (0 : BitVec width) [] := by
  refine ⟨rfl, fun d _ ↦ ?_⟩
  simp

theorem getLsbD_single {d e : ℕ} (he : e < width) :
    (BitVec.ofNat width 1 <<< d).getLsbD e = true ↔ e = d := by
  rw [BitVec.getLsbD_shiftLeft, BitVec.getLsbD_ofNat]
  simp only [Bool.and_eq_true, Bool.not_eq_true', decide_eq_true_eq, decide_eq_false_iff_not,
    Nat.not_lt, Nat.testBit_one_eq_true_iff_self_eq_zero]
  omega

theorem Records.advance (h : Records highest bitmap taken) {n : ℕ} (hn : highest < n) :
    Records n (bitmap <<< (n - highest) ||| BitVec.ofNat width 1) (n :: taken) := by
  have htop : top taken ≤ n := by
    rw [← h.highest_eq]
    exact hn.le
  refine ⟨(max_eq_left htop).symm, fun d hd ↦ ?_⟩
  rw [BitVec.getLsbD_or, BitVec.getLsbD_shiftLeft, Bool.or_eq_true]
  have hone : (BitVec.ofNat width 1).getLsbD d = true ↔ d = 0 := by
    rw [BitVec.getLsbD_ofNat, Bool.and_eq_true, Nat.testBit_one_eq_true_iff_self_eq_zero]
    simp [hd]
  rw [hone]
  constructor
  · rintro (hshifted | rfl)
    · simp only [Bool.and_eq_true, Bool.not_eq_true', decide_eq_true_eq, decide_eq_false_iff_not,
        Nat.not_lt] at hshifted
      obtain ⟨⟨-, hle⟩, hbit⟩ := hshifted
      obtain ⟨m, hm, heq⟩ := (h.bit_iff (d - (n - highest)) (by omega)).mp hbit
      exact ⟨m, List.mem_cons_of_mem n hm, by omega⟩
    · exact ⟨n, List.mem_cons_self, rfl⟩
  · rintro ⟨m, hm, heq⟩
    rcases List.mem_cons.mp hm with rfl | hm
    · exact .inr (by omega)
    · have hle : m ≤ highest := by
        rw [h.highest_eq]
        exact le_top hm
      have hbit := (h.bit_iff (d - (n - highest)) (by omega)).mpr ⟨m, hm, by omega⟩
      left
      rw [hbit]
      simp only [Bool.and_eq_true, Bool.not_eq_true', decide_eq_true_eq, decide_eq_false_iff_not,
        Nat.not_lt, and_true]
      exact ⟨hd, by omega⟩

theorem Records.fill (h : Records highest bitmap taken) {n d : ℕ} (hd : d < width)
    (hn : n + d = highest) :
    Records highest (bitmap ||| BitVec.ofNat width 1 <<< d) (n :: taken) := by
  have htop : n ≤ top taken := by
    rw [← h.highest_eq]
    omega
  refine ⟨h.highest_eq.trans (max_eq_right htop).symm, fun e he ↦ ?_⟩
  rw [BitVec.getLsbD_or, Bool.or_eq_true, h.bit_iff e he]
  rw [getLsbD_single he]
  constructor
  · rintro (⟨m, hm, heq⟩ | rfl)
    · exact ⟨m, List.mem_cons_of_mem n hm, heq⟩
    · exact ⟨n, List.mem_cons_self, hn⟩
  · rintro ⟨m, hm, heq⟩
    rcases List.mem_cons.mp hm with rfl | hm
    · exact .inr (by omega)
    · exact .inl ⟨m, hm, heq⟩

theorem Records.and_eq_zero_iff (h : Records highest bitmap taken) {n d : ℕ} (hd : d < width)
    (hn : n + d = highest) :
    bitmap &&& BitVec.ofNat width 1 <<< d = 0 ↔ n ∉ taken := by
  have hbit : bitmap.getLsbD d = true ↔ n ∈ taken := by
    rw [h.bit_iff d hd]
    constructor
    · rintro ⟨m, hm, heq⟩
      obtain rfl : m = n := by omega
      exact hm
    · intro hmem
      exact ⟨n, hmem, hn⟩
  rw [← hbit]
  constructor
  · intro hzero hset
    have hlow := congrArg (fun bits : BitVec width ↦ bits.getLsbD d) hzero
    rw [BitVec.getLsbD_and, hset, (getLsbD_single hd).mpr rfl] at hlow
    simp at hlow
  · intro hclear
    apply BitVec.eq_of_getLsbD_eq
    intro e he
    have hzero : (0 : BitVec width).getLsbD e = false := BitVec.getLsbD_zero
    rw [BitVec.getLsbD_and, hzero, Bool.and_eq_false_iff]
    by_cases hed : e = d
    · rw [hed]
      exact .inl (Bool.eq_false_iff.mpr hclear)
    · exact .inr (Bool.eq_false_iff.mpr fun hset ↦ hed ((getLsbD_single he).mp hset))

end SlidingWindow
