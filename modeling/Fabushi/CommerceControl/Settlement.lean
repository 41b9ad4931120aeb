import Fabushi.Library.MachineInt
import Fabushi.Library.Result

/-!
# The settlement waterfall

What a sale brought in goes to the tax, the provider, the refunds and the chargebacks first.
The platform fee is a share of what is left, the reserve a share of what is left after it,
and the developer is paid the rest. The deductions are added with saturation.
-/

namespace Fabushi.CommerceControl

open MachineInt Result

structure SettlementWaterfallInput where
  grossAmount : Int64
  taxAmount : Int64
  providerFeeAmount : Int64
  refundAmount : Int64
  chargebackAmount : Int64
  platformFeeBps : UInt16
  reserveBps : UInt16
  deriving DecidableEq, Repr

structure SettlementWaterfall where
  grossAmount : Int64
  taxAmount : Int64
  providerFeeAmount : Int64
  refundAmount : Int64
  chargebackAmount : Int64
  netReceipts : Int64
  platformFeeAmount : Int64
  reserveAmount : Int64
  developerPayableAmount : Int64
  deriving DecidableEq, Repr

inductive PayoutPolicyError
  | negativeAmount
  | deductionsExceedGross
  | invalidBasisPoints
  | noEligibleProvider
  deriving DecidableEq, Repr

def proportional (amount : Int64) (bps : UInt16) : Int64 :=
  Int64.ofInt ((amount.toInt * bps.toNat).tdiv 10000)

namespace SettlementWaterfallInput

def amounts (input : SettlementWaterfallInput) : List Int64 :=
  [input.grossAmount, input.taxAmount, input.providerFeeAmount, input.refundAmount,
    input.chargebackAmount]

def deductions (input : SettlementWaterfallInput) : Int64 :=
  saturatingAdd (saturatingAdd (saturatingAdd input.taxAmount input.providerFeeAmount)
    input.refundAmount) input.chargebackAmount

end SettlementWaterfallInput

def settlementWaterfall (input : SettlementWaterfallInput) :
    Except PayoutPolicyError SettlementWaterfall := do
  ensure (¬ ∃ amount ∈ input.amounts, amount < 0) .negativeAmount
  ensure (¬ (10000 < input.platformFeeBps ∨ 10000 < input.reserveBps)) .invalidBasisPoints
  let deductions := input.deductions
  ensure (¬ input.grossAmount < deductions) .deductionsExceedGross
  let netReceipts := input.grossAmount - deductions
  let platformFeeAmount := proportional netReceipts input.platformFeeBps
  let afterPlatformFee := netReceipts - platformFeeAmount
  let reserveAmount := proportional afterPlatformFee input.reserveBps
  let developerPayableAmount := afterPlatformFee - reserveAmount
  return {
    grossAmount := input.grossAmount
    taxAmount := input.taxAmount
    providerFeeAmount := input.providerFeeAmount
    refundAmount := input.refundAmount
    chargebackAmount := input.chargebackAmount
    netReceipts
    platformFeeAmount
    reserveAmount
    developerPayableAmount }

/-! ## Amounts that fit -/

theorem toInt_saturatingAdd_eq_min {a b : Int64} (ha : 0 ≤ a.toInt) (hb : 0 ≤ b.toInt) :
    (saturatingAdd a b).toInt = min (a.toInt + b.toInt) (2 ^ 63 - 1) := by
  by_cases hrange : InRange (a.toInt + b.toInt)
  · rw [toInt_saturatingAdd hrange]
    obtain ⟨-, hlt⟩ := hrange
    omega
  · have hge : 2 ^ 63 ≤ a.toInt + b.toInt := by
      by_contra hlt
      exact hrange ⟨by omega, by omega⟩
    rw [saturatingAdd, clamp, if_neg (by omega), if_pos hge]
    have hmax : Int64.maxValue.toInt = 2 ^ 63 - 1 := by decide
    rw [hmax]
    omega

theorem toInt_sub_of_le {a b : Int64} (hb : 0 ≤ b.toInt) (hle : b.toInt ≤ a.toInt) :
    (a - b).toInt = a.toInt - b.toInt := by
  obtain ⟨-, hlt⟩ := inRange_toInt a
  rw [Int64.toInt_sub]
  exact Int.bmod_eq_of_le (by omega) (by omega)

theorem toInt_proportional {amount : Int64} {bps : UInt16} (hamount : 0 ≤ amount.toInt)
    (hbps : bps.toNat ≤ 10000) :
    0 ≤ (proportional amount bps).toInt ∧ (proportional amount bps).toInt ≤ amount.toInt := by
  have hnonneg : 0 ≤ amount.toInt * bps.toNat := by positivity
  have hle : amount.toInt * bps.toNat / 10000 ≤ amount.toInt := by
    apply Int.ediv_le_of_le_mul (by norm_num)
    have hrate : (bps.toNat : ℤ) ≤ 10000 := by exact_mod_cast hbps
    exact Int.mul_le_mul_of_nonneg_left hrate hamount
  have hquotient : 0 ≤ amount.toInt * bps.toNat / 10000 := Int.ediv_nonneg hnonneg (by norm_num)
  obtain ⟨-, hlt⟩ := inRange_toInt amount
  rw [proportional, Int.tdiv_eq_ediv_of_nonneg hnonneg, toInt_ofInt ⟨by omega, by omega⟩]
  exact ⟨hquotient, hle⟩

/-! ## Conservation -/

structure Conserves (input : SettlementWaterfallInput) (waterfall : SettlementWaterfall) :
    Prop where
  gross_eq : waterfall.grossAmount = input.grossAmount
  tax_eq : waterfall.taxAmount = input.taxAmount
  providerFee_eq : waterfall.providerFeeAmount = input.providerFeeAmount
  refund_eq : waterfall.refundAmount = input.refundAmount
  chargeback_eq : waterfall.chargebackAmount = input.chargebackAmount
  nonneg : ∀ amount ∈ [waterfall.grossAmount, waterfall.taxAmount, waterfall.providerFeeAmount,
    waterfall.refundAmount, waterfall.chargebackAmount, waterfall.netReceipts,
    waterfall.platformFeeAmount, waterfall.reserveAmount, waterfall.developerPayableAmount],
      0 ≤ amount.toInt
  sum_eq : waterfall.grossAmount.toInt = waterfall.taxAmount.toInt +
    waterfall.providerFeeAmount.toInt + waterfall.refundAmount.toInt +
      waterfall.chargebackAmount.toInt + waterfall.platformFeeAmount.toInt +
        waterfall.reserveAmount.toInt + waterfall.developerPayableAmount.toInt

namespace SettlementWaterfallInput

def exactDeductions (input : SettlementWaterfallInput) : ℤ :=
  input.taxAmount.toInt + input.providerFeeAmount.toInt + input.refundAmount.toInt +
    input.chargebackAmount.toInt

structure Admitted (input : SettlementWaterfallInput) : Prop where
  nonneg : ∀ amount ∈ input.amounts, 0 ≤ amount.toInt
  platformFee_le : input.platformFeeBps.toNat ≤ 10000
  reserve_le : input.reserveBps.toNat ≤ 10000

structure Saturates (input : SettlementWaterfallInput) : Prop where
  admitted : input.Admitted
  gross_eq : input.grossAmount = Int64.maxValue
  deductions_gt : 2 ^ 63 - 1 < input.exactDeductions

theorem deductions_eq_min {input : SettlementWaterfallInput} (h : input.Admitted) :
    input.deductions.toInt = min input.exactDeductions (2 ^ 63 - 1) := by
  have hamounts := h.nonneg
  simp only [amounts, List.forall_mem_cons, List.not_mem_nil, false_imp_iff,
    implies_true, and_true] at hamounts
  obtain ⟨-, htax, hfee, hrefund, hchargeback⟩ := hamounts
  have hfirst := toInt_saturatingAdd_eq_min htax hfee
  have hsecond := toInt_saturatingAdd_eq_min (a := saturatingAdd input.taxAmount
    input.providerFeeAmount) (by omega) hrefund
  rw [deductions, toInt_saturatingAdd_eq_min (by omega) hchargeback, exactDeductions]
  omega

theorem admitted_iff {input : SettlementWaterfallInput} :
    input.Admitted ↔ (¬ ∃ amount ∈ input.amounts, amount < 0) ∧
      ¬ (10000 < input.platformFeeBps ∨ 10000 < input.reserveBps) := by
  have hrate : ∀ bps : UInt16, ¬ 10000 < bps ↔ bps.toNat ≤ 10000 := by
    intro bps
    rw [UInt16.lt_iff_toNat_lt, not_lt]
    rfl
  have hsign : ∀ amount : Int64, ¬ amount < 0 ↔ 0 ≤ amount.toInt := by
    intro amount
    rw [Int64.lt_iff_toInt_lt, not_lt]
    rfl
  rw [not_or, hrate, hrate]
  simp only [not_exists, not_and, hsign]
  exact ⟨fun h ↦ ⟨h.nonneg, h.platformFee_le, h.reserve_le⟩, fun h ↦ ⟨h.1, h.2.1, h.2.2⟩⟩

end SettlementWaterfallInput

theorem settlementWaterfall_eq_ok {input : SettlementWaterfallInput}
    {waterfall : SettlementWaterfall} :
    settlementWaterfall input = .ok waterfall ↔
      input.Admitted ∧ input.deductions.toInt ≤ input.grossAmount.toInt ∧
        let netReceipts := input.grossAmount - input.deductions
        let platformFeeAmount := proportional netReceipts input.platformFeeBps
        let afterPlatformFee := netReceipts - platformFeeAmount
        let reserveAmount := proportional afterPlatformFee input.reserveBps
        waterfall = ⟨input.grossAmount, input.taxAmount, input.providerFeeAmount,
          input.refundAmount, input.chargebackAmount, netReceipts, platformFeeAmount,
          reserveAmount, afterPlatformFee - reserveAmount⟩ := by
  rw [SettlementWaterfallInput.admitted_iff, ← not_lt (a := input.grossAmount.toInt),
    ← Int64.lt_iff_toInt_lt]
  simp only [settlementWaterfall, bind_eq_ok, ensure_eq_ok, exists_const, pure, Except.pure,
    Except.ok.injEq, and_assoc]
  exact and_congr_right fun _ ↦ and_congr_right fun _ ↦ and_congr_right fun _ ↦ eq_comm

theorem SettlementWaterfallInput.Admitted.exactDeductions_nonneg
    {input : SettlementWaterfallInput} (h : input.Admitted) : 0 ≤ input.exactDeductions := by
  have hamounts := h.nonneg
  simp only [SettlementWaterfallInput.amounts, List.forall_mem_cons] at hamounts
  unfold SettlementWaterfallInput.exactDeductions
  omega

theorem conserves_iff_of_ok {input : SettlementWaterfallInput} {waterfall : SettlementWaterfall}
    (h : settlementWaterfall input = .ok waterfall) :
    Conserves input waterfall ↔ input.exactDeductions = input.deductions.toInt := by
  obtain ⟨hadmitted, hle, rfl⟩ := settlementWaterfall_eq_ok.mp h
  have hexact := hadmitted.exactDeductions_nonneg
  have hdeductions := SettlementWaterfallInput.deductions_eq_min hadmitted
  have hamounts := hadmitted.nonneg
  simp only [SettlementWaterfallInput.amounts, List.forall_mem_cons] at hamounts
  have hnet := toInt_sub_of_le (by omega) hle
  have hnetNonneg : 0 ≤ (input.grossAmount - input.deductions).toInt := by omega
  obtain ⟨hfee, hfeeLe⟩ := toInt_proportional hnetNonneg hadmitted.platformFee_le
  have hafter := toInt_sub_of_le hfee hfeeLe
  have hafterNonneg : 0 ≤ (input.grossAmount - input.deductions -
      proportional (input.grossAmount - input.deductions) input.platformFeeBps).toInt := by
    omega
  obtain ⟨hreserve, hreserveLe⟩ := toInt_proportional hafterNonneg hadmitted.reserve_le
  have hpayable := toInt_sub_of_le hreserve hreserveLe
  constructor
  · intro hconserves
    have hsum := hconserves.sum_eq
    dsimp only at hsum
    unfold SettlementWaterfallInput.exactDeductions
    omega
  · intro heq
    refine ⟨rfl, rfl, rfl, rfl, rfl, ?_, ?_⟩
    · simp only [List.forall_mem_cons, List.not_mem_nil, false_imp_iff, implies_true, and_true]
      omega
    · unfold SettlementWaterfallInput.exactDeductions at heq
      dsimp only
      omega

/-- The waterfall of an input conserves the gross amount exactly when the deductions do not
saturate at a gross amount that is the greatest there is. -/
theorem settlementWaterfall_conserves_iff (input : SettlementWaterfallInput) :
    (∀ waterfall, settlementWaterfall input = .ok waterfall → Conserves input waterfall) ↔
      ¬ input.Saturates := by
  have hmax : Int64.maxValue.toInt = 2 ^ 63 - 1 := by decide
  constructor
  · rintro hall ⟨hadmitted, hgross, hmore⟩
    have hdeductions := SettlementWaterfallInput.deductions_eq_min hadmitted
    have hle : input.deductions.toInt ≤ input.grossAmount.toInt := by
      rw [hgross, hmax]
      omega
    have hok := settlementWaterfall_eq_ok.mpr ⟨hadmitted, hle, rfl⟩
    have hexact := (conserves_iff_of_ok hok).mp (hall _ hok)
    omega
  · intro hnot waterfall hok
    obtain ⟨hadmitted, hle, -⟩ := settlementWaterfall_eq_ok.mp hok
    have hdeductions := SettlementWaterfallInput.deductions_eq_min hadmitted
    rw [conserves_iff_of_ok hok]
    by_contra hne
    obtain ⟨-, hlt⟩ := inRange_toInt input.grossAmount
    refine hnot ⟨hadmitted, ?_, by omega⟩
    apply Int64.toInt_inj.mp
    omega

/-- The greatest gross amount, of which tax and provider fee each take all. -/
theorem settlementWaterfall_saturates :
    ¬ ∀ (input : SettlementWaterfallInput) (waterfall : SettlementWaterfall),
      settlementWaterfall input = .ok waterfall → Conserves input waterfall := by
  intro h
  have hconserves := h ⟨Int64.maxValue, Int64.maxValue, Int64.maxValue, 0, 0, 500, 0⟩
    ⟨Int64.maxValue, Int64.maxValue, Int64.maxValue, 0, 0, 0, 0, 0, 0⟩ (by decide +kernel)
  exact absurd hconserves.sum_eq (by decide +kernel)

end Fabushi.CommerceControl
