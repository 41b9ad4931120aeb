import Fabushi.Telegram.Handshake

/-!
# The factors of the server's number

Every product is exact: it fits 128 bits before it is reduced. A divisor that the search
finds is a greatest common divisor with the number, so what is reported multiplies up to it,
and the bytes of either factor are read back as the factor.
-/

namespace Fabushi.Telegram

open Radix Result

theorem mapError_eq_ok {ε ε' α : Type} {x : Except ε α} {wrap : ε → ε'} {a : α} :
    x.mapError wrap = .ok a ↔ x = .ok a := by
  cases x <;> simp [Except.mapError]

/-! ## Exact arithmetic -/

theorem wrap128_of_lt {n : ℕ} (h : n < 2 ^ 128) : wrap128 n = n :=
  Nat.mod_eq_of_lt h

theorem toNat_pos {a : UInt64} (h : a ≠ 0) : 0 < a.toNat :=
  Nat.pos_of_ne_zero fun hzero ↦ h (UInt64.toNat_inj.mp hzero)

theorem toNat_ofNat_mod (n : ℕ) {modulus : UInt64} (h : modulus ≠ 0) :
    (UInt64.ofNat (n % modulus.toNat)).toNat = n % modulus.toNat :=
  UInt64.toNat_ofNat_of_lt' ((Nat.mod_lt n (toNat_pos h)).trans modulus.toNat_lt)

theorem toNat_multiplyMod (a b : UInt64) {modulus : UInt64} (h : modulus ≠ 0) :
    (multiplyMod a b modulus).toNat = a.toNat * b.toNat % modulus.toNat := by
  have hproduct : a.toNat * b.toNat < 2 ^ 128 := by
    calc
      a.toNat * b.toNat < 2 ^ 64 * 2 ^ 64 := Nat.mul_lt_mul'' a.toNat_lt b.toNat_lt
      _ = 2 ^ 128 := by norm_num
  rw [multiplyMod, wrap128_of_lt hproduct, toNat_ofNat_mod _ h]

theorem toNat_rhoStep (value constant : UInt64) {modulus : UInt64} (h : modulus ≠ 0) :
    (rhoStep value constant modulus).toNat =
      (value.toNat ^ 2 + constant.toNat) % modulus.toNat := by
  have hsquare := toNat_multiplyMod value value h
  have hsum : (multiplyMod value value modulus).toNat + constant.toNat < 2 ^ 128 := by
    have hleft := (multiplyMod value value modulus).toNat_lt
    have hright := constant.toNat_lt
    omega
  rw [rhoStep, wrap128_of_lt hsum, toNat_ofNat_mod _ h, hsquare, Nat.mod_add_mod, sq]

theorem toNat_greatestCommonDivisor (a b : UInt64) :
    (greatestCommonDivisor a b).toNat = Nat.gcd a.toNat b.toNat := by
  fun_induction greatestCommonDivisor a b with
  | case1 a => exact (Nat.gcd_zero_right a.toNat).symm
  | case2 a b hb ih =>
      rw [ih, UInt64.toNat_mod, Nat.gcd_comm, ← Nat.gcd_rec, Nat.gcd_comm]

theorem toNat_half (exponent : UInt64) : (exponent >>> 1).toNat = exponent.toNat / 2 := by
  rw [UInt64.toNat_shiftRight]
  exact Nat.shiftRight_eq_div_pow _ 1

theorem odd_iff (exponent : UInt64) : exponent &&& 1 = 1 ↔ exponent.toNat % 2 = 1 := by
  rw [← UInt64.toNat_inj, UInt64.toNat_and]
  have hone : (1 : UInt64).toNat = 1 := rfl
  rw [hone, Nat.and_one_is_mod]

theorem powerModLoop_modEq {modulus : UInt64} (h : modulus ≠ 0) (base exponent result : UInt64) :
    (powerModLoop modulus base exponent result).toNat ≡
      result.toNat * base.toNat ^ exponent.toNat [MOD modulus.toNat] := by
  fun_induction powerModLoop modulus base exponent result with
  | case1 base exponent result hpos ih =>
      have hbase : (multiplyMod base base modulus).toNat ≡ base.toNat ^ 2
          [MOD modulus.toNat] := by
        rw [toNat_multiplyMod base base h, sq]
        exact Nat.mod_modEq _ _
      have hpower : base.toNat ^ exponent.toNat =
          base.toNat ^ (exponent.toNat % 2) * (base.toNat ^ 2) ^ (exponent.toNat / 2) := by
        rw [← pow_mul, ← pow_add, Nat.mod_add_div]
      have hresult : (if exponent &&& 1 = 1 then multiplyMod result base modulus
          else result).toNat ≡ result.toNat * base.toNat ^ (exponent.toNat % 2)
            [MOD modulus.toNat] := by
        split_ifs with hodd
        · rw [(odd_iff exponent).mp hodd, pow_one, toNat_multiplyMod result base h]
          exact Nat.mod_modEq _ _
        · have heven : exponent.toNat % 2 = 0 := by
            have hnot := (odd_iff exponent).not.mp hodd
            omega
          rw [heven, pow_zero, mul_one]
      rw [toNat_half] at ih
      calc
        _ ≡ _ [MOD modulus.toNat] := ih
        _ ≡ result.toNat * base.toNat ^ (exponent.toNat % 2) *
            (base.toNat ^ 2) ^ (exponent.toNat / 2) [MOD modulus.toNat] :=
          hresult.mul (hbase.pow _)
        _ = result.toNat * base.toNat ^ exponent.toNat := by rw [hpower, mul_assoc]
  | case2 base exponent result hpos =>
      have hzero : exponent.toNat = 0 := by
        have hnot : ¬ 0 < exponent.toNat := fun hlt ↦ hpos (UInt64.lt_iff_toNat_lt.mpr hlt)
        omega
      rw [hzero, pow_zero, mul_one]

theorem powerModLoop_lt {modulus : UInt64} (h : modulus ≠ 0) (base exponent result : UInt64)
    (hresult : result.toNat < modulus.toNat) :
    (powerModLoop modulus base exponent result).toNat < modulus.toNat := by
  fun_induction powerModLoop modulus base exponent result with
  | case1 base exponent result hpos ih =>
      apply ih
      split_ifs with hodd
      · rw [toNat_multiplyMod result base h]
        exact Nat.mod_lt _ (toNat_pos h)
      · exact hresult
  | case2 => exact hresult

theorem toNat_powerMod (base exponent : UInt64) {modulus : UInt64} (h : 1 < modulus.toNat) :
    (powerMod base exponent modulus).toNat = base.toNat ^ exponent.toNat % modulus.toNat := by
  have hmodulus : modulus ≠ 0 := by
    rintro rfl
    exact absurd h (by decide)
  have hlt := powerModLoop_lt hmodulus (base % modulus) exponent 1 h
  have hpower := powerModLoop_modEq hmodulus (base % modulus) exponent 1
  have hone : (1 : UInt64).toNat = 1 := rfl
  rw [hone, one_mul, UInt64.toNat_mod] at hpower
  calc
    _ = (powerMod base exponent modulus).toNat % modulus.toNat := (Nat.mod_eq_of_lt hlt).symm
    _ = (base.toNat % modulus.toNat) ^ exponent.toNat % modulus.toNat := hpower
    _ = base.toNat ^ exponent.toNat % modulus.toNat := (Nat.pow_mod _ _ _).symm

/-! ## The divisor -/

theorem rhoLoop_dvd {value constant factor : UInt64} {steps : ℕ} {x y : UInt64}
    (h : rhoLoop value constant steps x y = some factor) : factor.toNat ∣ value.toNat := by
  induction steps generalizing x y with
  | zero => cases h
  | succ steps ih =>
      rw [rhoLoop] at h
      split_ifs at h with hone hvalue
      · exact ih h
      · rw [← Option.some.inj h, toNat_greatestCommonDivisor]
        exact Nat.gcd_dvd_right _ _

theorem pollardRhoFactor_dvd {value factor : UInt64} (h : pollardRhoFactor value = some factor) :
    factor.toNat ∣ value.toNat := by
  unfold pollardRhoFactor at h
  split_ifs at h with htwo hthree
  · rw [← Option.some.inj h]
    have hzero := congrArg UInt64.toNat htwo
    rw [UInt64.toNat_mod] at hzero
    exact Nat.dvd_of_mod_eq_zero hzero
  · rw [← Option.some.inj h]
    have hzero := congrArg UInt64.toNat hthree
    rw [UInt64.toNat_mod] at hzero
    exact Nat.dvd_of_mod_eq_zero hzero
  · obtain ⟨constant, -, hloop⟩ := List.exists_of_findSome?_eq_some h
    exact rhoLoop_dvd hloop

/-! ## The bytes of a factor -/

theorem ofBe_append_singleton (bytes : List UInt8) (byte : UInt8) :
    ofBe (bytes ++ [byte]) = ofBe bytes * 256 + byte.toNat := by
  rw [ofBe, List.reverse_append, List.reverse_singleton, List.singleton_append, ofLe, ofBe]
  omega

theorem ofBe_zero_cons (bytes : List UInt8) : ofBe (0 :: bytes) = ofBe bytes := by
  have hlast : ofLe [0] = 0 := rfl
  rw [ofBe, List.reverse_cons, ofLe_append, hlast, mul_zero, add_zero, ofBe]

theorem toNat_shift_or {value : UInt64} (byte : UInt8) (h : value.toNat < 2 ^ 56) :
    ((value <<< 8) ||| byte.toUInt64).toNat = value.toNat * 256 + byte.toNat := by
  have hbyte : byte.toNat < 2 ^ 8 := byte.toNat_lt
  have hshift : (value <<< 8).toNat = value.toNat <<< 8 := by
    rw [UInt64.toNat_shiftLeft]
    have height : (8 : UInt64).toNat % 64 = 8 := rfl
    rw [height, Nat.shiftLeft_eq]
    omega
  rw [UInt64.toNat_or, hshift, UInt8.toNat_toUInt64, ← Nat.shiftLeft_add_eq_or_of_lt hbyte,
    Nat.shiftLeft_eq]

theorem toNat_foldl_bytes {bytes : List UInt8} (h : bytes.length ≤ 8) :
    (bytes.foldl (fun (value : UInt64) byte ↦ (value <<< 8) ||| byte.toUInt64) 0).toNat =
      ofBe bytes := by
  induction bytes using List.reverseRecOn with
  | nil => rfl
  | append_singleton bytes byte ih =>
      rw [List.length_append, List.length_singleton] at h
      have hprevious := ih (by omega)
      have hlt : ofBe bytes < 2 ^ 56 := by
        calc
          ofBe bytes < 256 ^ bytes.length := ofBe_lt bytes
          _ ≤ 256 ^ 7 := Nat.pow_le_pow_right (by norm_num) (by omega)
          _ = 2 ^ 56 := by norm_num
      rw [List.foldl_append, List.foldl_cons, List.foldl_nil, toNat_shift_or byte (by omega),
        hprevious, ofBe_append_singleton]

theorem decodeUnsignedBe_eq_ok {bytes : List UInt8} {value : UInt64} :
    decodeUnsignedBe bytes = .ok value ↔
      bytes ≠ [] ∧ bytes.length ≤ 8 ∧ value.toNat = ofBe bytes := by
  unfold decodeUnsignedBe
  split_ifs with h
  · simp only [false_iff, not_and]
    intro hne hle
    exact absurd (h.resolve_left hne) (by omega)
  · rw [not_or, not_lt] at h
    rw [Except.ok.injEq, ← UInt64.toNat_inj, toNat_foldl_bytes h.2, eq_comm]
    simp [h.1, h.2]

theorem ofBe_dropZeros {bytes : List UInt8} (hne : bytes ≠ []) :
    let first := (bytes.findIdx? fun byte ↦ byte ≠ 0).getD (bytes.length - 1)
    ofBe (bytes.drop first) = ofBe bytes ∧ bytes.drop first ≠ [] ∧
      (0 < ofBe bytes → ∀ byte ∈ (bytes.drop first).head?, byte ≠ 0) := by
  induction bytes with
  | nil => exact absurd rfl hne
  | cons byte bytes ih =>
      by_cases hbyte : byte = 0
      · subst hbyte
        cases bytes with
        | nil =>
            refine ⟨rfl, by simp, fun hpos ↦ absurd hpos (by decide)⟩
        | cons next bytes =>
            have hfirst : ((0 :: next :: bytes).findIdx? fun byte ↦ byte ≠ 0).getD
                ((0 :: next :: bytes).length - 1) =
                  ((next :: bytes).findIdx? fun byte ↦ byte ≠ 0).getD
                    ((next :: bytes).length - 1) + 1 := by
              rw [List.findIdx?_cons]
              cases (next :: bytes).findIdx? fun byte ↦ byte ≠ 0 <;> simp
            have hrest := ih (List.cons_ne_nil next bytes)
            dsimp only at hrest ⊢
            rw [hfirst, List.drop_succ_cons, ofBe_zero_cons]
            exact hrest
      · have hfirst : ((byte :: bytes).findIdx? fun byte ↦ byte ≠ 0).getD
            ((byte :: bytes).length - 1) = 0 := by
          rw [List.findIdx?_cons]
          simp [hbyte]
        dsimp only
        rw [hfirst, List.drop_zero]
        refine ⟨rfl, List.cons_ne_nil _ _, fun _ first hhead ↦ ?_⟩
        rw [List.head?_cons, Option.mem_some_iff] at hhead
        exact hhead ▸ hbyte

theorem decodeUnsignedBe_unsignedBeBytes (value : UInt64) :
    decodeUnsignedBe (unsignedBeBytes value) = .ok value ∧
      (value ≠ 0 → ∀ byte ∈ (unsignedBeBytes value).head?, byte ≠ 0) := by
  have hne : padBe 8 value.toNat ≠ [] := by
    apply List.ne_nil_of_length_pos
    rw [length_padBe]
    norm_num
  have hvalue : ofBe (padBe 8 value.toNat) = value.toNat :=
    ofBe_padBe (value.toNat_lt.trans_eq (by norm_num))
  obtain ⟨hsame, hrest, hhead⟩ := ofBe_dropZeros hne
  rw [decodeUnsignedBe_eq_ok]
  refine ⟨⟨hrest, ?_, hvalue.symm.trans hsame.symm⟩, fun hpos ↦ hhead ?_⟩
  · rw [unsignedBeBytes, List.length_drop, length_padBe]
    omega
  · rw [hvalue]
    exact toNat_pos hpos

/-! ## The factors -/

structure Factors (response : ResPq) (factors : FactoredPq) : Prop where
  pq_eq : decodeUnsignedBe response.pq = .ok factors.pq
  one_lt : 1 < factors.p.toNat
  le : factors.p.toNat ≤ factors.q.toNat
  mul_eq : factors.p.toNat * factors.q.toNat = factors.pq.toNat
  pBytes_eq : decodeUnsignedBe factors.pBytes = .ok factors.p
  qBytes_eq : decodeUnsignedBe factors.qBytes = .ok factors.q
  minimal : ∀ byte ∈ factors.pBytes.head?.toList ++ factors.qBytes.head?.toList, byte ≠ 0

theorem mul_eq_of_dvd {factor pq : UInt64} (h : factor.toNat ∣ pq.toNat) :
    factor.toNat * (pq / factor).toNat = pq.toNat := by
  rw [UInt64.toNat_div]
  exact Nat.mul_div_cancel' h

theorem Factors.of_mul {response : ResPq} {pq p q : UInt64}
    (hpq : decodeUnsignedBe response.pq = .ok pq) (hp : p ≠ 1) (hq : q ≠ 1) (hpos : pq ≠ 0)
    (hle : p.toNat ≤ q.toNat) (hmul : p.toNat * q.toNat = pq.toNat) :
    Factors response { pq, p, q } := by
  have hzero : p ≠ 0 ∧ q ≠ 0 := by
    constructor
    · rintro rfl
      exact hpos (UInt64.toNat_inj.mp (by rw [← hmul]; exact zero_mul _))
    · rintro rfl
      exact hpos (UInt64.toNat_inj.mp (by rw [← hmul]; exact mul_zero _))
  have hone : p.toNat ≠ 1 := fun h ↦ hp (UInt64.toNat_inj.mp h)
  have hpbytes := decodeUnsignedBe_unsignedBeBytes p
  have hqbytes := decodeUnsignedBe_unsignedBeBytes q
  refine ⟨hpq, ?_, hle, hmul, hpbytes.1, hqbytes.1, ?_⟩
  · have hp0 := toNat_pos hzero.1
    dsimp only
    omega
  · intro byte hbyte
    rw [List.mem_append, Option.mem_toList, Option.mem_toList] at hbyte
    rcases hbyte with hbyte | hbyte
    · exact hpbytes.2 hzero.1 byte hbyte
    · exact hqbytes.2 hzero.2 byte hbyte

theorem factors_of_factorResPq {response : ResPq} {factors : FactoredPq}
    (h : factorResPq response = .ok factors) : Factors response factors := by
  simp only [factorResPq, bind_eq_ok, ensure_eq_ok, okOr_eq_ok] at h
  obtain ⟨pq, hpq, -, hlarge, factor, hfactor, -, hchecks, -, -, hpure⟩ := h
  rw [mapError_eq_ok] at hpq
  simp only [not_or, not_not] at hlarge hchecks
  obtain ⟨hfactorOne, hotherOne, -⟩ := hchecks
  have hmul := mul_eq_of_dvd (pollardRhoFactor_dvd hfactor)
  have hpos : pq ≠ 0 := by
    rintro rfl
    exact hlarge.1 (by decide)
  rw [← Except.ok.inj hpure]
  split_ifs with hlt
  · exact Factors.of_mul hpq hfactorOne hotherOne hpos (UInt64.lt_iff_toNat_lt.mp hlt).le hmul
  · apply Factors.of_mul hpq hotherOne hfactorOne hpos
    · exact Nat.le_of_not_lt fun hlt' ↦ hlt (UInt64.lt_iff_toNat_lt.mpr hlt')
    · rw [mul_comm, hmul]

/-- The factors that the handshake takes multiply up to the number, neither is trivial, and
they are read back from their bytes. No product of the arithmetic behind them wraps around,
whatever the words are, and the loops compute what they stand for. -/
theorem factorResPq_exact :
    (∀ response factors, factorResPq response = .ok factors → Factors response factors) ∧
      (∀ a b modulus : UInt64, modulus ≠ 0 →
        (multiplyMod a b modulus).toNat = a.toNat * b.toNat % modulus.toNat) ∧
      (∀ value constant modulus : UInt64, modulus ≠ 0 →
        (rhoStep value constant modulus).toNat =
          (value.toNat ^ 2 + constant.toNat) % modulus.toNat) ∧
      (∀ base exponent modulus : UInt64, 1 < modulus.toNat →
        (powerMod base exponent modulus).toNat =
          base.toNat ^ exponent.toNat % modulus.toNat) ∧
      ∀ a b, (greatestCommonDivisor a b).toNat = Nat.gcd a.toNat b.toNat :=
  ⟨fun _ _ h ↦ factors_of_factorResPq h, fun a b _ h ↦ toNat_multiplyMod a b h,
    fun value constant _ h ↦ toNat_rhoStep value constant h,
    fun base exponent _ h ↦ toNat_powerMod base exponent h, toNat_greatestCommonDivisor⟩

theorem factorResPq_exact_demo :
    Factors ⟨Vector.replicate 16 0, Vector.replicate 16 0, [15], []⟩
      { pq := 15, p := 3, q := 5 } :=
  factorResPq_exact.1 _ _ (by decide +kernel)

end Fabushi.Telegram
