import Fabushi.Pay.Engine

/-!
# Balanced entries and exact amounts

An entry passes its validation exactly when it has two lines or more, none of them
zero, and every currency sums to zero. The amounts a payment computes with
saturating machine arithmetic are the exact ones as long as its counters are within
the payment.
-/

namespace Fabushi.Pay

open MachineInt Result Std

def lineSum (select : PaymentLedgerLine → Bool) (lines : List PaymentLedgerLine) : ℤ :=
  (lines.map fun line ↦ if select line then line.amount.toInt else 0).sum

def currencySum (currency : String) : List PaymentLedgerLine → ℤ :=
  lineSum fun line ↦ line.currency = currency

def accountSum (accountId : String) : List PaymentLedgerLine → ℤ :=
  lineSum fun line ↦ line.accountId = accountId

section LineSum

variable (select : PaymentLedgerLine → Bool)

@[simp] theorem lineSum_nil : lineSum select [] = 0 := rfl

@[simp] theorem lineSum_cons (line : PaymentLedgerLine) (lines : List PaymentLedgerLine) :
    lineSum select (line :: lines) =
      (if select line then line.amount.toInt else 0) + lineSum select lines := by
  simp [lineSum]

@[simp] theorem lineSum_append (xs ys : List PaymentLedgerLine) :
    lineSum select (xs ++ ys) = lineSum select xs + lineSum select ys := by
  simp [lineSum]

theorem lineSum_filter_nonzero (lines : List PaymentLedgerLine) :
    lineSum select (lines.filter fun line ↦ line.amount ≠ 0) = lineSum select lines := by
  induction lines with
  | nil => rfl
  | cons line lines ih =>
      by_cases hzero : line.amount = 0
      · rw [List.filter_cons_of_neg (by simp [hzero]), ih, lineSum_cons, hzero]
        simp
      · rw [List.filter_cons_of_pos (by simp [hzero]), lineSum_cons, lineSum_cons, ih]

end LineSum

theorem sumLines_ok {lines : List PaymentLedgerLine} (h : ∀ line ∈ lines, line.amount ≠ 0)
    (totals : BTreeMap String ℤ) :
    ∃ totals' : BTreeMap String ℤ, sumLines lines totals = .ok totals' ∧
      ∀ k : String, totals'[k]?.getD 0 = totals[k]?.getD 0 + currencySum k lines := by
  induction lines generalizing totals with
  | nil => exact ⟨totals, rfl, by simp [currencySum]⟩
  | cons line lines ih =>
      obtain ⟨totals', hsum, htotals⟩ := ih (fun l hl ↦ h l (by simp [hl]))
        (BTreeMap.upsert totals line.currency 0 fun total ↦ total + line.amount.toInt)
      refine ⟨totals', ?_, ?_⟩
      · rw [sumLines, if_neg (h line (by simp)), hsum]
      · intro k
        rw [htotals, BTreeMap.upsert, BTreeMap.get_insert]
        by_cases hk : line.currency = k
        · subst hk
          simp [currencySum]
          ring
        · simp [currencySum, hk]

theorem sumLines_error {lines : List PaymentLedgerLine} {line : PaymentLedgerLine}
    (hline : line ∈ lines) (hzero : line.amount = 0) (totals : BTreeMap String ℤ) :
    sumLines lines totals = .error .zeroLedgerLine := by
  induction lines generalizing totals with
  | nil => cases hline
  | cons head lines ih =>
      rw [sumLines]
      split
      · rfl
      · rename_i hhead
        refine ih ?_ _
        rcases List.mem_cons.mp hline with rfl | hmem
        · exact absurd hzero hhead
        · exact hmem

theorem PaymentLedgerEntry.validate_eq_ok {entry : PaymentLedgerEntry} :
    entry.validate = .ok () ↔ 2 ≤ entry.lines.length ∧ (∀ line ∈ entry.lines, line.amount ≠ 0) ∧
      ∀ currency, currencySum currency entry.lines = 0 := by
  constructor
  · intro h
    simp only [validate, bind_eq_ok, ensure_eq_ok, Nat.not_lt] at h
    obtain ⟨_, hlength, totals, htotals, hfind⟩ := h
    have hnonzero : ∀ line ∈ entry.lines, line.amount ≠ 0 := by
      intro line hline hzero
      rw [sumLines_error hline hzero] at htotals
      cases htotals
    refine ⟨hlength, hnonzero, ?_⟩
    intro currency
    obtain ⟨totals', hok, hsums⟩ := sumLines_ok hnonzero ∅
    obtain rfl := Except.ok.inj (htotals.symm.trans hok)
    have hsum := hsums currency
    simp only [ExtTreeMap.getElem?_empty, Option.getD_none, zero_add] at hsum
    rw [← hsum]
    cases hget : totals[currency]? with
    | none => rfl
    | some total =>
        split at hfind
        · cases hfind
        · rename_i hnone
          have hmem := ExtTreeMap.mem_toList_iff_getElem?_eq_some.mpr hget
          simpa using List.find?_eq_none.mp hnone _ hmem
  · rintro ⟨hlength, hnonzero, hbalanced⟩
    obtain ⟨totals, hok, hsums⟩ := sumLines_ok hnonzero ∅
    simp only [validate, bind_eq_ok, ensure_eq_ok, Nat.not_lt]
    refine ⟨(), hlength, totals, hok, ?_⟩
    have hnone : totals.toList.find? (fun total ↦ total.2 ≠ 0) = none := by
      rw [List.find?_eq_none]
      rintro ⟨currency, total⟩ hmem
      have hget := ExtTreeMap.mem_toList_iff_getElem?_eq_some.mp hmem
      have hsum := hsums currency
      rw [hget, hbalanced currency] at hsum
      simpa using hsum
    rw [hnone]

theorem balancedEntry_ok {sha256 : List UInt8 → List UInt8}
    {referenceType referenceId eventKey : String} {createdAtMs : Int64}
    {lines : List PaymentLedgerLine} {entry : PaymentLedgerEntry}
    (h : balancedEntry sha256 referenceType referenceId eventKey createdAtMs lines = .ok entry) :
    entry.validate = .ok () ∧ entry.referenceType = referenceType ∧
      entry.referenceId = referenceId ∧ ∀ accountId, accountSum accountId entry.lines =
        accountSum accountId lines := by
  simp only [balancedEntry, bind_eq_ok] at h
  obtain ⟨_, hvalid, hentry⟩ := h
  cases hentry
  refine ⟨hvalid, rfl, rfl, ?_⟩
  intro accountId
  exact lineSum_filter_nonzero _ lines

/-! ## Exact amounts -/

theorem toInt_proportional {amount : Int64} {bps : UInt16} (hamount : 0 ≤ amount.toInt)
    (hbps : bps.toNat ≤ 10000) :
    InRange ((amount.toInt * bps.toNat).tdiv 10000) ∧
      (proportional amount bps).toInt = Proportion.share bps.toNat 10000 amount.toInt := by
  have hdiv : (amount.toInt * bps.toNat).tdiv 10000 = Proportion.share bps.toNat 10000 amount.toInt :=
    Int.tdiv_eq_ediv_of_nonneg (by positivity)
  have hnonneg : 0 ≤ Proportion.share bps.toNat 10000 amount.toInt :=
    Proportion.share_nonneg (by norm_num) (by positivity) hamount
  have hrest : 0 ≤ Proportion.rest bps.toNat 10000 amount.toInt :=
    Proportion.rest_nonneg (by norm_num) (by exact_mod_cast hbps) hamount
  have hin : InRange (Proportion.share bps.toNat 10000 amount.toInt) := by
    have hsum := Proportion.share_add_rest bps.toNat 10000 amount.toInt
    exact inRange_of_le (a := amount) hnonneg (by omega)
  rw [proportional, hdiv, tryFrom, if_pos hin]
  exact ⟨hin, toInt_ofInt hin⟩

namespace PaymentIntent

def fee (payment : PaymentIntent) (gross : ℤ) : ℤ :=
  Proportion.share payment.platformFeeBps.toNat 10000 gross

def net (payment : PaymentIntent) (gross : ℤ) : ℤ :=
  Proportion.rest payment.platformFeeBps.toNat 10000 gross

structure Valid (payment : PaymentIntent) : Prop where
  amount_pos : 0 < payment.amount.amount.toInt
  bps_le : payment.platformFeeBps.toNat ≤ 10000
  refunded_nonneg : 0 ≤ payment.refundedAmount.toInt
  refunded_le : payment.refundedAmount.toInt ≤ payment.amount.amount.toInt
  released_nonneg : 0 ≤ payment.releasedDeveloperAmount.toInt
  released_le : payment.releasedDeveloperAmount.toInt ≤
    payment.net payment.amount.amount.toInt - payment.net payment.refundedAmount.toInt

variable {payment : PaymentIntent} {x y : ℤ}

theorem fee_add_net (payment : PaymentIntent) (x : ℤ) : payment.fee x + payment.net x = x :=
  Proportion.share_add_rest _ _ _

theorem Valid.fee_mono (_ : payment.Valid) (hxy : x ≤ y) : payment.fee x ≤ payment.fee y :=
  Proportion.share_mono (by norm_num) (by positivity) hxy

theorem Valid.net_mono (h : payment.Valid) (hxy : x ≤ y) : payment.net x ≤ payment.net y :=
  Proportion.rest_mono (by norm_num) (by exact_mod_cast h.bps_le) hxy

@[simp] theorem fee_zero : payment.fee 0 = 0 :=
  Proportion.share_zero

@[simp] theorem net_zero : payment.net 0 = 0 :=
  Proportion.rest_zero

theorem Valid.fee_nonneg (h : payment.Valid) (hx : 0 ≤ x) : 0 ≤ payment.fee x := by
  simpa using h.fee_mono hx

theorem Valid.net_nonneg (h : payment.Valid) (hx : 0 ≤ x) : 0 ≤ payment.net x := by
  simpa using h.net_mono hx

theorem Valid.toInt_feeFor (h : payment.Valid) {gross : Int64} (hgross : 0 ≤ gross.toInt) :
    (payment.feeFor gross).toInt = payment.fee gross.toInt :=
  (toInt_proportional hgross h.bps_le).2

theorem Valid.toInt_platformFee (h : payment.Valid) :
    payment.platformFee.toInt = payment.fee payment.amount.amount.toInt :=
  h.toInt_feeFor h.amount_pos.le

theorem Valid.net_bounds (h : payment.Valid) :
    0 ≤ payment.net payment.refundedAmount.toInt ∧
      payment.net payment.refundedAmount.toInt ≤ payment.net payment.amount.amount.toInt ∧
      payment.net payment.amount.amount.toInt ≤ payment.amount.amount.toInt := by
  have hfee := h.fee_nonneg h.amount_pos.le
  have hsum := payment.fee_add_net payment.amount.amount.toInt
  exact ⟨h.net_nonneg h.refunded_nonneg, h.net_mono h.refunded_le, by omega⟩

def accessorResults (payment : PaymentIntent) : List ℤ :=
  [(payment.amount.amount.toInt * payment.platformFeeBps.toNat).tdiv 10000,
    (payment.refundedAmount.toInt * payment.platformFeeBps.toNat).tdiv 10000,
    payment.amount.amount.toInt - payment.platformFee.toInt,
    payment.amount.amount.toInt - payment.refundedAmount.toInt,
    payment.refundedAmount.toInt - (payment.feeFor payment.refundedAmount).toInt,
    payment.developerNet.toInt - payment.refundedDeveloperNet.toInt,
    payment.developerNetAfterRefunds.toInt - payment.releasedDeveloperAmount.toInt]

theorem Valid.toInt_developerNet (h : payment.Valid) :
    payment.developerNet.toInt = payment.net payment.amount.amount.toInt := by
  have hbounds := h.net_bounds
  have hsum := payment.fee_add_net payment.amount.amount.toInt
  rw [developerNet, toInt_saturatingSub, h.toInt_platformFee]
  · omega
  · rw [h.toInt_platformFee]
    exact inRange_of_le (a := payment.amount.amount) (by omega) (by omega)

theorem Valid.toInt_refundableAmount (h : payment.Valid) :
    payment.refundableAmount.toInt =
      payment.amount.amount.toInt - payment.refundedAmount.toInt := by
  have hnonneg := h.refunded_nonneg
  have hle := h.refunded_le
  exact toInt_saturatingSub (inRange_of_le (a := payment.amount.amount) (by omega) (by omega))

theorem Valid.toInt_refundedDeveloperNet (h : payment.Valid) :
    payment.refundedDeveloperNet.toInt = payment.net payment.refundedAmount.toInt := by
  have hbounds := h.net_bounds
  have hsum := payment.fee_add_net payment.refundedAmount.toInt
  have hfee := h.toInt_feeFor h.refunded_nonneg
  rw [refundedDeveloperNet, toInt_saturatingSub, hfee]
  · omega
  · rw [hfee]
    exact inRange_of_le (a := payment.amount.amount) (by omega) (by omega)

theorem Valid.toInt_developerNetAfterRefunds (h : payment.Valid) :
    payment.developerNetAfterRefunds.toInt =
      payment.net payment.amount.amount.toInt - payment.net payment.refundedAmount.toInt := by
  have hbounds := h.net_bounds
  rw [developerNetAfterRefunds, toInt_saturatingSub, h.toInt_developerNet,
    h.toInt_refundedDeveloperNet]
  rw [h.toInt_developerNet, h.toInt_refundedDeveloperNet]
  exact inRange_of_le (a := payment.amount.amount) (by omega) (by omega)

theorem Valid.toInt_pendingDeveloperAmount (h : payment.Valid) :
    payment.pendingDeveloperAmount.toInt =
      payment.net payment.amount.amount.toInt - payment.net payment.refundedAmount.toInt -
        payment.releasedDeveloperAmount.toInt := by
  have hbounds := h.net_bounds
  have hreleased := h.released_le
  have hnonneg := h.released_nonneg
  rw [pendingDeveloperAmount, toInt_saturatingSub, h.toInt_developerNetAfterRefunds]
  rw [h.toInt_developerNetAfterRefunds]
  exact inRange_of_le (a := payment.amount.amount) (by omega) (by omega)

theorem Valid.accessors_exact (h : payment.Valid) :
    ∀ x ∈ payment.accessorResults, InRange x := by
  have hbounds := h.net_bounds
  have hrefunded := h.refunded_nonneg
  have hle := h.refunded_le
  have hreleased := h.released_nonneg
  have hreleasedLe := h.released_le
  have hsum := payment.fee_add_net payment.amount.amount.toInt
  have hsum' := payment.fee_add_net payment.refundedAmount.toInt
  have hwithin : ∀ x : ℤ, 0 ≤ x → x ≤ payment.amount.amount.toInt → InRange x :=
    fun _ ↦ inRange_of_le
  simp only [accessorResults, List.forall_mem_cons, List.not_mem_nil, false_implies,
    implies_true, and_true, h.toInt_platformFee, h.toInt_feeFor h.refunded_nonneg,
    h.toInt_developerNet, h.toInt_refundedDeveloperNet, h.toInt_developerNetAfterRefunds]
  refine ⟨(toInt_proportional h.amount_pos.le h.bps_le).1,
    (toInt_proportional hrefunded h.bps_le).1, ?_, ?_, ?_, ?_, ?_⟩
  all_goals exact hwithin _ (by omega) (by omega)

end PaymentIntent

end Fabushi.Pay
