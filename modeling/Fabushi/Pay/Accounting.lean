import Fabushi.Pay.Entries

/-!
# What the operations do to a payment's accounts

Integer specifications of capture, refund and release: the split of a refund adds
up, the guard against over-debiting released revenue never fires, and the lines
posted move the accounts of the payment from one balance to the next.
-/

namespace Fabushi.Pay

open MachineInt Result

theorem toInt_min (a b : Int64) : (min a b).toInt = min a.toInt b.toInt := by
  change (if a ≤ b then a else b).toInt = _
  by_cases h : a ≤ b
  · rw [if_pos h, min_eq_left (Int64.le_iff_toInt_le.mp h)]
  · rw [if_neg h, min_eq_right]
    rw [Int64.le_iff_toInt_le] at h
    omega

theorem toInt_neg {a : Int64} (h : 0 ≤ a.toInt) : (-a).toInt = -a.toInt := by
  have ha := inRange_toInt a
  unfold InRange at ha
  rw [Int64.toInt_neg]
  exact Int.bmod_eq_of_le (by omega) (by omega)

theorem ne_zero_of_pos {a : Int64} (h : 0 < a.toInt) : a ≠ 0 := by
  rintro rfl
  exact absurd h (by decide)

theorem neg_ne_zero {a : Int64} (h : 0 < a.toInt) : -a ≠ 0 := by
  intro hzero
  have hneg := toInt_neg h.le
  rw [hzero, Int64.toInt_zero] at hneg
  omega

theorem two_le_length {lines : List PaymentLedgerLine} {line : PaymentLedgerLine}
    (hline : line ∈ lines) (hne : line.amount ≠ 0) (hsum : currencySum line.currency lines = 0) :
    2 ≤ lines.length := by
  match lines with
  | [] => cases hline
  | [only] =>
      obtain rfl := List.mem_singleton.mp hline
      simp only [currencySum, lineSum_cons, lineSum_nil, decide_true, if_true, add_zero] at hsum
      exact absurd (Int64.toInt_inj.mp (hsum.trans Int64.toInt_zero.symm)) hne
  | _ :: _ :: _ => simp

theorem currencySum_eq_zero {lines : List PaymentLedgerLine} {k : String}
    (h : ∀ line ∈ lines, line.currency ≠ k) : currencySum k lines = 0 := by
  induction lines with
  | nil => rfl
  | cons line lines ih =>
      have hrest := ih fun l hl ↦ h l (List.mem_cons_of_mem line hl)
      simp only [currencySum] at hrest
      simp [currencySum, h line List.mem_cons_self, hrest]

theorem balancedEntry_isOk (sha256 : List UInt8 → List UInt8)
    (referenceType referenceId eventKey : String) (createdAtMs : Int64)
    (currency : String) {lines : List PaymentLedgerLine}
    (hcurrency : ∀ line ∈ lines, line.currency = currency)
    (hsum : currencySum currency lines = 0) (hnonzero : ∃ line ∈ lines, line.amount ≠ 0) :
    ∃ entry, balancedEntry sha256 referenceType referenceId eventKey createdAtMs lines =
      .ok entry := by
  obtain ⟨line, hline, hne⟩ := hnonzero
  have hbalanced : ∀ k, currencySum k (lines.filter fun line ↦ line.amount ≠ 0) = 0 := by
    intro k
    have hdrop : currencySum k (lines.filter fun line ↦ line.amount ≠ 0) = currencySum k lines :=
      lineSum_filter_nonzero _ lines
    rw [hdrop]
    by_cases hk : k = currency
    · rw [hk, hsum]
    · refine currencySum_eq_zero ?_
      intro l hl hcontra
      exact hk (hcontra.symm.trans (hcurrency l hl))
  have hkept : line ∈ lines.filter fun line ↦ line.amount ≠ 0 :=
    List.mem_filter.mpr ⟨hline, by simpa using hne⟩
  have hvalid : PaymentLedgerEntry.validate
      { entryId := stableId sha256 ["ledger", referenceType, referenceId, eventKey]
        referenceType, referenceId, createdAtMs
        lines := lines.filter fun line ↦ line.amount ≠ 0 } = .ok () := by
    refine PaymentLedgerEntry.validate_eq_ok.mpr ⟨?_, ?_, hbalanced⟩
    · exact two_le_length hkept hne (hbalanced _)
    · intro l hl
      simpa using List.of_mem_filter hl
  refine ⟨_, bind_eq_ok.mpr ⟨(), hvalid, rfl⟩⟩

namespace PaymentIntent

open PayEngine

variable {payment : PaymentIntent} {amount : Int64}

structure SplitExact (payment : PaymentIntent) (amount : Int64) (split : RefundSplit) : Prop where
  newRefunded : split.newRefunded.toInt = payment.refundedAmount.toInt + amount.toInt
  fee : split.feeRefund.toInt = payment.fee split.newRefunded.toInt -
    payment.fee payment.refundedAmount.toInt
  developer : split.developerRefund.toInt = payment.net split.newRefunded.toInt -
    payment.net payment.refundedAmount.toInt
  pending : split.pendingDebit.toInt =
    min split.developerRefund.toInt payment.pendingDeveloperAmount.toInt
  available : split.availableDebit.toInt = split.developerRefund.toInt - split.pendingDebit.toInt

def refundResults (payment : PaymentIntent) (amount : Int64) : List ℤ :=
  let split := refundSplit payment amount
  [payment.refundedAmount.toInt + amount.toInt,
    (split.newRefunded.toInt * payment.platformFeeBps.toNat).tdiv 10000,
    (payment.feeFor split.newRefunded).toInt - (payment.feeFor payment.refundedAmount).toInt,
    amount.toInt - split.feeRefund.toInt,
    split.developerRefund.toInt - split.pendingDebit.toInt,
    payment.releasedDeveloperAmount.toInt - split.availableDebit.toInt]

def releaseResults (payment : PaymentIntent) : List ℤ :=
  [payment.releasedDeveloperAmount.toInt + payment.pendingDeveloperAmount.toInt]

theorem Valid.splitExact (h : payment.Valid) (hpos : 0 < amount.toInt)
    (hle : payment.refundedAmount.toInt + amount.toInt ≤ payment.amount.amount.toInt) :
    payment.SplitExact amount (refundSplit payment amount) ∧
      (∀ x ∈ payment.refundResults amount, InRange x) := by
  have hrefunded := h.refunded_nonneg
  have hreleased := h.released_nonneg
  have hreleasedLe := h.released_le
  have hbounds := h.net_bounds
  have hwithin : ∀ x : ℤ, 0 ≤ x → x ≤ payment.amount.amount.toInt → InRange x :=
    fun _ ↦ inRange_of_le
  set split := refundSplit payment amount with hsplit
  have hnew : split.newRefunded.toInt = payment.refundedAmount.toInt + amount.toInt :=
    toInt_saturatingAdd (hwithin _ (by omega) hle)
  have hnonneg : 0 ≤ split.newRefunded.toInt := by omega
  have hfeeNew := h.toInt_feeFor hnonneg
  have hfeeOld := h.toInt_feeFor hrefunded
  have hfeeMono : payment.fee payment.refundedAmount.toInt ≤ payment.fee split.newRefunded.toInt :=
    h.fee_mono (by omega)
  have hnetMono : payment.net payment.refundedAmount.toInt ≤ payment.net split.newRefunded.toInt :=
    h.net_mono (by omega)
  have hnetMax : payment.net split.newRefunded.toInt ≤ payment.net payment.amount.amount.toInt :=
    h.net_mono (by omega)
  have hsumOld := payment.fee_add_net payment.refundedAmount.toInt
  have hsumNew := payment.fee_add_net split.newRefunded.toInt
  have hfeeRange : InRange ((payment.feeFor split.newRefunded).toInt -
      (payment.feeFor payment.refundedAmount).toInt) := by
    rw [hfeeNew, hfeeOld]
    exact hwithin _ (by omega) (by omega)
  have hfee : split.feeRefund.toInt = payment.fee split.newRefunded.toInt -
      payment.fee payment.refundedAmount.toInt := by
    rw [← hfeeNew, ← hfeeOld]
    exact toInt_saturatingSub hfeeRange
  have hdeveloperRange : InRange (amount.toInt - split.feeRefund.toInt) :=
    hwithin _ (by omega) (by omega)
  have hdeveloper : split.developerRefund.toInt = payment.net split.newRefunded.toInt -
      payment.net payment.refundedAmount.toInt := by
    have hsub : split.developerRefund.toInt = amount.toInt - split.feeRefund.toInt :=
      toInt_saturatingSub hdeveloperRange
    omega
  have hpending : split.pendingDebit.toInt =
      min split.developerRefund.toInt payment.pendingDeveloperAmount.toInt :=
    toInt_min _ _
  have hpendingAmount := h.toInt_pendingDeveloperAmount
  have havailableRange : InRange (split.developerRefund.toInt - split.pendingDebit.toInt) :=
    hwithin _ (by omega) (by omega)
  have havailable : split.availableDebit.toInt =
      split.developerRefund.toInt - split.pendingDebit.toInt :=
    toInt_saturatingSub havailableRange
  refine ⟨⟨hnew, hfee, hdeveloper, hpending, havailable⟩, ?_⟩
  simp only [refundResults, List.forall_mem_cons, List.not_mem_nil, false_implies, implies_true,
    and_true, ← hsplit]
  exact ⟨hwithin _ (by omega) hle, (toInt_proportional hnonneg h.bps_le).1, hfeeRange,
    hdeveloperRange, havailableRange, hwithin _ (by omega) (by omega)⟩

/-! ## The accounts of a payment -/

inductive Account where
  | provider | platform | pending | available
  deriving DecidableEq, Repr

def accountId (payment : PaymentIntent) : Account → String
  | .provider => providerAccount payment.amount.currency
  | .platform => platformRevenue
  | .pending => developerPending payment.developerId
  | .available => developerAvailable payment.developerId

def balance (payment : PaymentIntent) : Account → ℤ
  | .provider => -(payment.amount.amount.toInt - payment.refundedAmount.toInt)
  | .platform => (payment.feeFor payment.amount.amount).toInt -
      (payment.feeFor payment.refundedAmount).toInt
  | .pending => payment.pendingDeveloperAmount.toInt
  | .available => payment.releasedDeveloperAmount.toInt

theorem take_append {start rest : String} {n : ℕ} (h : n ≤ start.toList.length) :
    (start ++ rest).toList.take n = start.toList.take n := by
  rw [String.toList_append, List.take_append_of_le_length h]

def Account.tag : Account → List Char
  | .provider => "provider-cl".toList
  | .platform => "platform-re".toList
  | .pending => "developer-p".toList
  | .available => "developer-a".toList

theorem take_accountId (payment : PaymentIntent) (account : Account) :
    (payment.accountId account).toList.take 11 = account.tag := by
  cases account with
  | provider => exact (take_append (by decide +kernel)).trans (by decide +kernel)
  | platform => exact (by decide +kernel : platformRevenue.toList.take 11 = Account.platform.tag)
  | pending => exact (take_append (by decide +kernel)).trans (by decide +kernel)
  | available => exact (take_append (by decide +kernel)).trans (by decide +kernel)

theorem accountId_injective (payment : PaymentIntent) : Function.Injective payment.accountId := by
  intro a b h
  have htags := congrArg (fun s : String ↦ s.toList.take 11) h
  simp only [take_accountId] at htags
  cases a <;> cases b <;> first | rfl | exact absurd htags (by decide +kernel)

theorem accountSum_line (payment : PaymentIntent) (a b : Account) (currency : String)
    (x : Int64) (lines : List PaymentLedgerLine) :
    accountSum (payment.accountId a) (line (payment.accountId b) currency x :: lines) =
      (if b = a then x.toInt else 0) + accountSum (payment.accountId a) lines := by
  simp [accountSum, line, payment.accountId_injective.eq_iff]

theorem lineSum_debit (select : PaymentLedgerLine → Bool) (accountId currency : String)
    {x : Int64} (hx : 0 ≤ x.toInt) :
    lineSum select (if 0 < x then [line accountId currency (-x)] else []) =
      if select (line accountId currency (-x)) then -x.toInt else 0 := by
  by_cases hpos : 0 < x
  · simp only [if_pos hpos, lineSum_cons, lineSum_nil, add_zero]
    rw [show (line accountId currency (-x)).amount = -x from rfl, toInt_neg hx]
  · have hzero : x.toInt = 0 := by
      have hle : ¬ 0 < x.toInt := fun h ↦ hpos (Int64.lt_iff_toInt_lt.mpr h)
      omega
    simp [hpos, hzero]

/-! ## Capture, refund and release -/

theorem Valid.capture_sums (h : payment.Valid) (hrefunded : payment.refundedAmount = 0)
    (hreleased : payment.releasedDeveloperAmount = 0) (account : Account) :
    accountSum (payment.accountId account) (captureLines payment) = payment.balance account := by
  change accountSum (payment.accountId account)
    [line (payment.accountId .provider) payment.amount.currency (-payment.amount.amount),
      line (payment.accountId .pending) payment.amount.currency payment.developerNet,
      line (payment.accountId .platform) payment.amount.currency payment.platformFee] = _
  have hpending := h.toInt_pendingDeveloperAmount
  have hnet := h.toInt_developerNet
  have hfee := h.toInt_feeFor h.refunded_nonneg
  simp only [hrefunded, hreleased, Int64.toInt_zero, net_zero, fee_zero] at hpending hfee
  cases account <;>
    simp [accountSum_line, balance, hrefunded, hreleased, toInt_neg h.amount_pos.le, platformFee,
      hpending, hnet, hfee, show accountSum _ [] = 0 from rfl]

theorem Valid.capture_isOk (h : payment.Valid) (sha256 : List UInt8 → List UInt8)
    (eventKey : String) (createdAtMs : Int64) :
    ∃ entry, balancedEntry sha256 "payment" payment.paymentId eventKey createdAtMs
      (captureLines payment) = .ok entry := by
  refine balancedEntry_isOk sha256 "payment" payment.paymentId eventKey createdAtMs
    payment.amount.currency ?_ ?_ ?_
  · simp [captureLines, line]
  · have hsum := payment.fee_add_net payment.amount.amount.toInt
    simp only [captureLines, line, currencySum, lineSum_cons, lineSum_nil, decide_true, if_true,
      toInt_neg h.amount_pos.le, h.toInt_developerNet, h.toInt_platformFee]
    omega
  · exact ⟨_, List.mem_cons_self, neg_ne_zero h.amount_pos⟩

structure SplitBounds (payment : PaymentIntent) (split : RefundSplit) : Prop where
  fee_nonneg : 0 ≤ split.feeRefund.toInt
  pending_nonneg : 0 ≤ split.pendingDebit.toInt
  available_nonneg : 0 ≤ split.availableDebit.toInt
  available_le : split.availableDebit.toInt ≤ payment.releasedDeveloperAmount.toInt
  pending_le : split.pendingDebit.toInt ≤ payment.pendingDeveloperAmount.toInt

theorem Valid.splitBounds (h : payment.Valid) (hpos : 0 < amount.toInt)
    (hle : payment.refundedAmount.toInt + amount.toInt ≤ payment.amount.amount.toInt) :
    payment.SplitBounds (refundSplit payment amount) := by
  have hsplit := (h.splitExact hpos hle).1
  have hnew := hsplit.newRefunded
  have hfee := hsplit.fee
  have hdeveloper := hsplit.developer
  have hpending := hsplit.pending
  have havailable := hsplit.available
  have hpendingAmount := h.toInt_pendingDeveloperAmount
  have hreleased := h.released_nonneg
  have hreleasedLe := h.released_le
  have hfeeMono : payment.fee payment.refundedAmount.toInt ≤
      payment.fee (refundSplit payment amount).newRefunded.toInt := h.fee_mono (by omega)
  have hnetMono : payment.net payment.refundedAmount.toInt ≤
      payment.net (refundSplit payment amount).newRefunded.toInt := h.net_mono (by omega)
  have hnetMax : payment.net (refundSplit payment amount).newRefunded.toInt ≤
      payment.net payment.amount.amount.toInt := h.net_mono (by omega)
  constructor <;> omega

theorem Valid.toInt_released_refunded (h : payment.Valid) (hpos : 0 < amount.toInt)
    (hle : payment.refundedAmount.toInt + amount.toInt ≤ payment.amount.amount.toInt)
    (occurredAtMs : Int64) :
    (refundedPayment payment (refundSplit payment amount)
      occurredAtMs).releasedDeveloperAmount.toInt =
        payment.releasedDeveloperAmount.toInt - (refundSplit payment amount).availableDebit.toInt := by
  have hbounds := h.splitBounds hpos hle
  have havailable := hbounds.available_nonneg
  have havailableLe := hbounds.available_le
  exact toInt_saturatingSub (inRange_of_le (a := payment.releasedDeveloperAmount) (by omega)
    (by omega))

theorem Valid.refunded (h : payment.Valid) (hpos : 0 < amount.toInt)
    (hle : payment.refundedAmount.toInt + amount.toInt ≤ payment.amount.amount.toInt)
    (occurredAtMs : Int64) :
    (refundedPayment payment (refundSplit payment amount) occurredAtMs).Valid := by
  have hsplit := (h.splitExact hpos hle).1
  have hbounds := h.splitBounds hpos hle
  have hreleased := h.toInt_released_refunded hpos hle occurredAtMs
  have hrefunded := h.refunded_nonneg
  have hreleasedLe := h.released_le
  have hnew := hsplit.newRefunded
  have hdeveloper := hsplit.developer
  have hpending := hsplit.pending
  have havailable := hsplit.available
  have havailableLe := hbounds.available_le
  have hpendingAmount := h.toInt_pendingDeveloperAmount
  have hnetMax : payment.net (refundSplit payment amount).newRefunded.toInt ≤
      payment.net payment.amount.amount.toInt := h.net_mono (by omega)
  refine ⟨h.amount_pos, h.bps_le, ?_, ?_, ?_, ?_⟩
  · change 0 ≤ (refundSplit payment amount).newRefunded.toInt
    omega
  · change (refundSplit payment amount).newRefunded.toInt ≤ payment.amount.amount.toInt
    omega
  · omega
  · change _ ≤ payment.net payment.amount.amount.toInt -
      payment.net (refundSplit payment amount).newRefunded.toInt
    omega

theorem SplitBounds.refundLines_sum {split : RefundSplit} (h : payment.SplitBounds split)
    (account : Account) :
    accountSum (payment.accountId account) (refundLines payment amount split) =
      (if .pending = account then -split.pendingDebit.toInt else 0) +
      (if .available = account then -split.availableDebit.toInt else 0) +
      (if .platform = account then -split.feeRefund.toInt else 0) +
      (if .provider = account then amount.toInt else 0) := by
  have hdebit : ∀ (other : Account) {x : Int64}, 0 ≤ x.toInt →
      accountSum (payment.accountId account) (if 0 < x then
        [line (payment.accountId other) payment.amount.currency (-x)] else []) =
          if other = account then -x.toInt else 0 := by
    intro other x hx
    rw [accountSum, lineSum_debit _ _ _ hx]
    simp [line, payment.accountId_injective.eq_iff]
  change accountSum (payment.accountId account)
    ((if 0 < split.pendingDebit then
      [line (payment.accountId .pending) payment.amount.currency (-split.pendingDebit)] else []) ++
    (if 0 < split.availableDebit then
      [line (payment.accountId .available) payment.amount.currency (-split.availableDebit)]
      else []) ++
    (if 0 < split.feeRefund then
      [line (payment.accountId .platform) payment.amount.currency (-split.feeRefund)] else []) ++
    [line (payment.accountId .provider) payment.amount.currency amount]) = _
  have happend : ∀ xs ys, accountSum (payment.accountId account) (xs ++ ys) =
      accountSum (payment.accountId account) xs + accountSum (payment.accountId account) ys :=
    lineSum_append _
  rw [happend, happend, happend, hdebit .pending h.pending_nonneg,
    hdebit .available h.available_nonneg, hdebit .platform h.fee_nonneg, accountSum_line]
  simp [accountSum]

theorem Valid.refund_sums (h : payment.Valid) (hpos : 0 < amount.toInt)
    (hle : payment.refundedAmount.toInt + amount.toInt ≤ payment.amount.amount.toInt)
    (occurredAtMs : Int64) (account : Account) :
    payment.balance account + accountSum (payment.accountId account)
      (refundLines payment amount (refundSplit payment amount)) =
        (refundedPayment payment (refundSplit payment amount) occurredAtMs).balance account := by
  have hafter := h.refunded hpos hle occurredAtMs
  have hsplit := (h.splitExact hpos hle).1
  have hreleased := h.toInt_released_refunded hpos hle occurredAtMs
  rw [(h.splitBounds hpos hle).refundLines_sum]
  cases account with
  | provider =>
      have hnew := hsplit.newRefunded
      simp only [balance, refundedPayment, reduceCtorEq, if_false, if_true]
      omega
  | platform =>
      have hfee := hsplit.fee
      have hfeeOld := h.toInt_feeFor h.refunded_nonneg
      have hfeeNew : (payment.feeFor (refundSplit payment amount).newRefunded).toInt =
          payment.fee (refundSplit payment amount).newRefunded.toInt :=
        h.toInt_feeFor hafter.refunded_nonneg
      simp only [balance, reduceCtorEq, if_false, if_true]
      change _ = (payment.feeFor payment.amount.amount).toInt -
        (payment.feeFor (refundSplit payment amount).newRefunded).toInt
      omega
  | pending =>
      have hdeveloper := hsplit.developer
      have havailable := hsplit.available
      have hpendingOld := h.toInt_pendingDeveloperAmount
      have hpendingNew := hafter.toInt_pendingDeveloperAmount
      simp only [balance, reduceCtorEq, if_false, if_true]
      rw [hpendingOld, hpendingNew, hreleased]
      change _ = payment.net payment.amount.amount.toInt -
        payment.net (refundSplit payment amount).newRefunded.toInt - _
      omega
  | available =>
      simp only [balance, reduceCtorEq, if_false, if_true]
      omega

theorem Valid.refund_isOk (h : payment.Valid) (hpos : 0 < amount.toInt)
    (hle : payment.refundedAmount.toInt + amount.toInt ≤ payment.amount.amount.toInt)
    (sha256 : List UInt8 → List UInt8) (eventKey : String) (createdAtMs : Int64) :
    ∃ entry, balancedEntry sha256 "refund" payment.paymentId eventKey createdAtMs
      (refundLines payment amount (refundSplit payment amount)) = .ok entry := by
  have hsplit := (h.splitExact hpos hle).1
  have hbounds := h.splitBounds hpos hle
  refine balancedEntry_isOk sha256 "refund" payment.paymentId eventKey createdAtMs
    payment.amount.currency ?_ ?_ ?_
  · intro l hl
    simp only [refundLines, List.mem_append, List.mem_ite_nil_right, List.mem_singleton] at hl
    rcases hl with ((⟨_, rfl⟩ | ⟨_, rfl⟩) | ⟨_, rfl⟩) | rfl <;> rfl
  · have hfee := hsplit.fee
    have hdeveloper := hsplit.developer
    have havailable := hsplit.available
    have hnew := hsplit.newRefunded
    have hsumOld := payment.fee_add_net payment.refundedAmount.toInt
    have hsumNew := payment.fee_add_net (refundSplit payment amount).newRefunded.toInt
    rw [refundLines, currencySum, lineSum_append, lineSum_append, lineSum_append,
      lineSum_debit _ _ _ hbounds.pending_nonneg, lineSum_debit _ _ _ hbounds.available_nonneg,
      lineSum_debit _ _ _ hbounds.fee_nonneg]
    simp only [line, lineSum_cons, lineSum_nil, decide_true, if_true]
    omega
  · exact ⟨line (providerAccount payment.amount.currency) payment.amount.currency amount,
      by simp [refundLines], ne_zero_of_pos hpos⟩

theorem Valid.released (h : payment.Valid) (hpos : 0 < payment.pendingDeveloperAmount.toInt)
    (occurredAtMs : Int64) :
    (releasedPayment payment payment.pendingDeveloperAmount occurredAtMs).Valid ∧
      (∀ x ∈ payment.releaseResults, InRange x) := by
  have hpendingAmount := h.toInt_pendingDeveloperAmount
  have hbounds := h.net_bounds
  have hreleased := h.released_nonneg
  have hrange : InRange
      (payment.releasedDeveloperAmount.toInt + payment.pendingDeveloperAmount.toInt) :=
    inRange_of_le (a := payment.amount.amount) (by omega) (by omega)
  have hnew : (saturatingAdd payment.releasedDeveloperAmount payment.pendingDeveloperAmount).toInt =
      payment.releasedDeveloperAmount.toInt + payment.pendingDeveloperAmount.toInt :=
    toInt_saturatingAdd hrange
  refine ⟨⟨h.amount_pos, h.bps_le, h.refunded_nonneg, h.refunded_le, ?_, ?_⟩, by
    simpa [releaseResults] using hrange⟩
  · change 0 ≤ (saturatingAdd _ _).toInt
    omega
  · change (saturatingAdd _ _).toInt ≤ payment.net payment.amount.amount.toInt -
      payment.net payment.refundedAmount.toInt
    omega

theorem Valid.release_sums (h : payment.Valid) (hpos : 0 < payment.pendingDeveloperAmount.toInt)
    (occurredAtMs : Int64) (account : Account) :
    payment.balance account + accountSum (payment.accountId account)
      (releaseLines payment payment.pendingDeveloperAmount) =
        (releasedPayment payment payment.pendingDeveloperAmount occurredAtMs).balance account := by
  have hafter := (h.released hpos occurredAtMs).1
  have hpendingOld := h.toInt_pendingDeveloperAmount
  have hpendingNew := hafter.toInt_pendingDeveloperAmount
  have hreleased : (releasedPayment payment payment.pendingDeveloperAmount
      occurredAtMs).releasedDeveloperAmount.toInt =
        payment.releasedDeveloperAmount.toInt + payment.pendingDeveloperAmount.toInt :=
    toInt_saturatingAdd (by simpa [releaseResults] using (h.released hpos occurredAtMs).2)
  have hsums : accountSum (payment.accountId account)
      (releaseLines payment payment.pendingDeveloperAmount) =
        (if .pending = account then -payment.pendingDeveloperAmount.toInt else 0) +
        (if .available = account then payment.pendingDeveloperAmount.toInt else 0) := by
    change accountSum (payment.accountId account)
      [line (payment.accountId .pending) payment.amount.currency (-payment.pendingDeveloperAmount),
        line (payment.accountId .available) payment.amount.currency payment.pendingDeveloperAmount]
      = _
    rw [accountSum_line, accountSum_line, toInt_neg hpos.le]
    simp [accountSum]
  rw [hsums]
  cases account with
  | provider | platform =>
      simp only [reduceCtorEq, if_false, add_zero]
      rfl
  | pending =>
      simp only [balance, reduceCtorEq, if_false, if_true]
      rw [hpendingNew, hreleased]
      change _ = payment.net payment.amount.amount.toInt -
        payment.net payment.refundedAmount.toInt - _
      omega
  | available =>
      simp only [balance, reduceCtorEq, if_false, if_true]
      omega

theorem release_isOk (hpos : 0 < payment.pendingDeveloperAmount.toInt)
    (sha256 : List UInt8 → List UInt8) (eventKey : String) (createdAtMs : Int64) :
    ∃ entry, balancedEntry sha256 "settlement-release" payment.paymentId eventKey createdAtMs
      (releaseLines payment payment.pendingDeveloperAmount) = .ok entry := by
  refine balancedEntry_isOk sha256 "settlement-release" payment.paymentId eventKey createdAtMs
    payment.amount.currency ?_ ?_ ?_
  · simp [releaseLines, line]
  · simp only [releaseLines, line, currencySum, lineSum_cons, lineSum_nil, decide_true, if_true,
      toInt_neg hpos.le]
    omega
  · exact ⟨_, List.mem_cons_self, neg_ne_zero hpos⟩

end PaymentIntent

end Fabushi.Pay
