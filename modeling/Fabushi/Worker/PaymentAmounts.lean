import Fabushi.Library.Proportion
import Fabushi.Worker.PaymentHandlers

/-!
# Amounts and lines of payments

Within the constraints of its table a payment's numbers never leave 64 bits, so the
saturating arithmetic of the handlers is exact: a fee is a share rounded down, a refund
gives back differences of cumulative shares, and the lines of an entry cancel.
-/

namespace Fabushi.Worker

open Proportion

theorem saturate_eq {x : ℤ} (hlow : -i64Max ≤ x) (hhigh : x ≤ i64Max) : saturate x = x := by
  unfold saturate
  omega

theorem proportional_eq {x bps : ℤ} (hx : 0 ≤ x) (hmax : x ≤ i64Max) (hbps : 0 ≤ bps)
    (hle : bps ≤ 10000) : proportional x bps = share bps 10000 x := by
  have hdiv : Int.tdiv (x * bps) 10000 = share bps 10000 x :=
    Int.tdiv_eq_ediv_of_nonneg (Int.mul_nonneg hx hbps)
  have hlow : 0 ≤ share bps 10000 x := share_nonneg (by norm_num) hbps hx
  have hrest : 0 ≤ rest bps 10000 x := rest_nonneg (by norm_num) hle hx
  have hsum := share_add_rest bps 10000 x
  have hi64 : (0 : ℤ) ≤ i64Max := by decide
  unfold proportional
  rw [hdiv, if_pos]
  omega

theorem basisPoints_eq {bps : ℤ} (hbps : 0 ≤ bps) (hle : bps ≤ 10000) : basisPoints bps = bps := by
  unfold basisPoints
  rw [if_pos]
  omega

namespace PaymentRow

structure Valid (p : PaymentRow) : Prop where
  positive : 0 < p.amount
  bounded : p.amount ≤ i64Max
  bps_nonneg : 0 ≤ p.platformFeeBps
  bps_le : p.platformFeeBps ≤ 10000
  refunded_nonneg : 0 ≤ p.refundedAmount
  refunded_le : p.refundedAmount ≤ p.amount
  released_nonneg : 0 ≤ p.releasedDeveloperAmount

def fee (p : PaymentRow) (x : ℤ) : ℤ :=
  share p.platformFeeBps 10000 x

def net (p : PaymentRow) (x : ℤ) : ℤ :=
  rest p.platformFeeBps 10000 x

theorem fee_add_net (p : PaymentRow) (x : ℤ) : p.fee x + p.net x = x :=
  share_add_rest _ _ _

namespace Valid

variable {p : PaymentRow} (h : p.Valid)

include h

theorem platformFee_eq {x : ℤ} (hx : 0 ≤ x) (hmax : x ≤ p.amount) : p.platformFee x = p.fee x := by
  rw [platformFee, basisPoints_eq h.bps_nonneg h.bps_le]
  exact proportional_eq hx (hmax.trans h.bounded) h.bps_nonneg h.bps_le

theorem fee_mono {x y : ℤ} (hxy : x ≤ y) : p.fee x ≤ p.fee y :=
  share_mono (by norm_num) h.bps_nonneg hxy

theorem net_mono {x y : ℤ} (hxy : x ≤ y) : p.net x ≤ p.net y :=
  rest_mono (by norm_num) h.bps_le hxy

theorem fee_nonneg {x : ℤ} (hx : 0 ≤ x) : 0 ≤ p.fee x :=
  share_nonneg (by norm_num) h.bps_nonneg hx

theorem net_nonneg {x : ℤ} (hx : 0 ≤ x) : 0 ≤ p.net x :=
  rest_nonneg (by norm_num) h.bps_le hx

/-! ### Refunds -/

section Refund

variable {amount : ℤ} (hpos : 0 < amount) (hle : amount ≤ p.amount - p.refundedAmount)

include hpos hle

theorem newRefunded_eq : p.newRefunded amount = p.refundedAmount + amount := by
  have hmax := h.bounded
  have hnonneg := h.refunded_nonneg
  exact saturate_eq (by omega) (by omega)

theorem feeRefund_eq :
    p.feeRefund amount = p.fee (p.refundedAmount + amount) - p.fee p.refundedAmount := by
  have hnonneg := h.refunded_nonneg
  have hmax := h.bounded
  have hmono : p.fee p.refundedAmount ≤ p.fee (p.refundedAmount + amount) :=
    h.fee_mono (by omega)
  have hnew := h.fee_nonneg h.refunded_nonneg
  have hsum := p.fee_add_net (p.refundedAmount + amount)
  have hnet : 0 ≤ p.net (p.refundedAmount + amount) := h.net_nonneg (by omega)
  unfold feeRefund
  rw [h.newRefunded_eq hpos hle, h.platformFee_eq (by omega) (by omega),
    h.platformFee_eq h.refunded_nonneg h.refunded_le]
  exact saturate_eq (by omega) (by omega)

theorem feeRefund_nonneg : 0 ≤ p.feeRefund amount := by
  have hmono : p.fee p.refundedAmount ≤ p.fee (p.refundedAmount + amount) :=
    h.fee_mono (by omega)
  rw [h.feeRefund_eq hpos hle]
  omega

theorem developerRefund_eq :
    p.developerRefund amount = p.net (p.refundedAmount + amount) - p.net p.refundedAmount := by
  have hnonneg := h.refunded_nonneg
  have hmax := h.bounded
  have hmono : p.fee p.refundedAmount ≤ p.fee (p.refundedAmount + amount) :=
    h.fee_mono (by omega)
  have hnet : p.net p.refundedAmount ≤ p.net (p.refundedAmount + amount) :=
    h.net_mono (by omega)
  have hsum := p.fee_add_net (p.refundedAmount + amount)
  have hsum' := p.fee_add_net p.refundedAmount
  unfold developerRefund
  rw [h.feeRefund_eq hpos hle, saturate_eq (by omega) (by omega)]
  omega

theorem developerRefund_nonneg : 0 ≤ p.developerRefund amount := by
  have hnet : p.net p.refundedAmount ≤ p.net (p.refundedAmount + amount) :=
    h.net_mono (by omega)
  rw [h.developerRefund_eq hpos hle]
  omega

theorem developerRefund_add_feeRefund : p.developerRefund amount + p.feeRefund amount = amount := by
  have hsum := p.fee_add_net (p.refundedAmount + amount)
  have hsum' := p.fee_add_net p.refundedAmount
  rw [h.developerRefund_eq hpos hle, h.feeRefund_eq hpos hle]
  omega

theorem pendingDebit_nonneg : 0 ≤ p.pendingDebit amount :=
  le_min (h.developerRefund_nonneg hpos hle) (le_max_right _ _)

theorem availableDebit_eq :
    p.availableDebit amount = p.developerRefund amount - p.pendingDebit amount := by
  have hrefund := h.developerRefund_nonneg hpos hle
  have hfee := h.feeRefund_nonneg hpos hle
  have hsum := h.developerRefund_add_feeRefund hpos hle
  have hdebit := h.pendingDebit_nonneg hpos hle
  have hle' : p.pendingDebit amount ≤ p.developerRefund amount := min_le_left _ _
  have hmax := h.bounded
  have hnonneg := h.refunded_nonneg
  exact saturate_eq (by omega) (by omega)

theorem availableDebit_nonneg : 0 ≤ p.availableDebit amount := by
  have hle' : p.pendingDebit amount ≤ p.developerRefund amount := min_le_left _ _
  rw [h.availableDebit_eq hpos hle]
  omega

end Refund

end Valid

/-! ## Lines -/

theorem lineOn_line (p : PaymentRow) (entryId : EntryId) (tag account : String) (amount : ℤ)
    (accountId currency : String) :
    Journal.lineOn accountId currency (p.line entryId tag account amount) =
      if account = accountId ∧ p.currency = currency then amount else 0 := rfl

section Lines

variable (p : PaymentRow) (entryId : EntryId) (tag accountId : String) (sign amount : ℤ)

theorem mem_lineIfPositive {l : JournalLineRow} :
    l ∈ p.lineIfPositive entryId tag accountId sign amount ↔
      0 < amount ∧ l = p.line entryId tag accountId (sign * amount) := by
  unfold lineIfPositive
  split <;> simp_all

theorem lineIfPositive_sublist : (p.lineIfPositive entryId tag accountId sign amount).Sublist
    [p.line entryId tag accountId (sign * amount)] := by
  unfold lineIfPositive
  split
  · exact List.Sublist.refl _
  · exact List.nil_sublist _

@[simp] theorem total_lineIfPositive (f : JournalLineRow → ℤ) :
    Table.total f (p.lineIfPositive entryId tag accountId sign amount) =
      if 0 < amount then f (p.line entryId tag accountId (sign * amount)) else 0 := by
  unfold lineIfPositive
  split <;> simp

theorem distinct_lines {rows : List (String × String × ℤ)} (htags : (rows.map (·.1)).Nodup)
    (haccounts : (rows.map (·.2.1)).Nodup) :
    (rows.map fun r ↦ p.line entryId r.1 r.2.1 r.2.2).Pairwise
      fun l l' ↦ l.conflicts l' = false := by
  rw [List.pairwise_map]
  rw [List.Nodup, List.pairwise_map] at htags haccounts
  refine (htags.and haccounts).imp ?_
  rintro r r' ⟨htag, haccount⟩
  simp [JournalLineRow.conflicts, line, htag, haccount]

theorem entryLines {lines : List JournalLineRow} {rows : List (String × String × ℤ)}
    (hsub : lines.Sublist (rows.map fun r ↦ p.line entryId r.1 r.2.1 r.2.2))
    (htags : (rows.map (·.1)).Nodup) (haccounts : (rows.map (·.2.1)).Nodup)
    (hne : ∀ l ∈ lines, l.amount ≠ 0) : Journal.EntryLines entryId lines where
  own l hl := by
    obtain ⟨r, -, rfl⟩ := List.mem_map.mp (hsub.subset hl)
    rfl
  distinct := (p.distinct_lines entryId htags haccounts).sublist hsub
  nonzero := hne

theorem currency_of_mem {lines : List JournalLineRow} {rows : List (String × String × ℤ)}
    (hsub : lines.Sublist (rows.map fun r ↦ p.line entryId r.1 r.2.1 r.2.2)) :
    ∀ l ∈ lines, l.currency = p.currency := by
  intro l hl
  obtain ⟨r, -, rfl⟩ := List.mem_map.mp (hsub.subset hl)
  rfl

end Lines

/-! ## Heads of the accounts -/

section Heads

variable (p : PaymentRow)

def sourceHead (user : Bool) : String :=
  if user then "user:" else "provider-clearing:"

theorem headed_source (provider : String) (user : Bool) :
    Headed (sourceHead user) (p.sourceAccount provider user) := by
  cases user with
  | true => exact (((headed_append _ _).append _).append _)
  | false => exact (((headed_append _ _).append _).append _)

theorem headed_pending : Headed "developer-pending:" p.pendingAccount :=
  ((headed_append _ _).append _).append _

theorem headed_available : Headed "developer-available:" p.availableAccount :=
  ((headed_append _ _).append _).append _

theorem headed_reserved : Headed "developer-reserved:" p.reservedAccount :=
  ((headed_append _ _).append _).append _

theorem headed_paid : Headed "developer-paid:" p.paidAccount :=
  ((headed_append _ _).append _).append _

theorem headed_platform : Headed "platform:payment-revenue:" p.platformAccount :=
  headed_append _ _

end Heads

/-! ## The lines of a capture -/

section Capture

variable (p : PaymentRow) (provider : String) (user : Bool)

def captureRows : List (String × String × ℤ) :=
  [("source", p.sourceAccount provider user, -p.amount),
    ("developer", p.pendingAccount, 1 * saturate (p.amount - p.platformFee p.amount)),
    ("platform", p.platformAccount, 1 * p.platformFee p.amount)]

theorem captureLines_sublist : (p.captureLines provider user).Sublist
    ((p.captureRows provider user).map fun r ↦ p.line (.capture p.paymentId) r.1 r.2.1 r.2.2) :=
  ((List.Sublist.refl [_]).append (p.lineIfPositive_sublist _ _ _ _ _)).append
    (p.lineIfPositive_sublist _ _ _ _ _)

theorem capture_accounts : ((p.captureRows provider user).map (·.2.1)).Nodup := by
  have hheads : [sourceHead user, "developer-pending:", "platform:payment-revenue:"].Pairwise
      Incomparable := by
    cases user <;> decide
  refine nodup_of_heads hheads rfl ?_
  simp [captureRows, p.headed_source, p.headed_pending, p.headed_platform]

theorem captureLines_ok (hpos : 0 < p.amount) :
    Journal.EntryLines (.capture p.paymentId) (p.captureLines provider user) := by
  refine p.entryLines _ (p.captureLines_sublist provider user) ?_ (p.capture_accounts provider user)
    ?_
  · change ["source", "developer", "platform"].Nodup
    decide
  · intro l hl
    simp only [captureLines, List.mem_append, List.mem_singleton, mem_lineIfPositive] at hl
    rcases hl with (rfl | ⟨hnet, rfl⟩) | ⟨hfee, rfl⟩ <;> simp only [line] <;> omega

theorem Valid.captureLines_balanced {p : PaymentRow} (h : p.Valid) :
    Journal.isBalanced (p.captureLines provider user) = true := by
  have hfee := h.platformFee_eq h.positive.le le_rfl
  have hsum := p.fee_add_net p.amount
  have hfee_nonneg := h.fee_nonneg h.positive.le
  have hnet_nonneg := h.net_nonneg h.positive.le
  have hmax := h.bounded
  have hpos := h.positive
  have hnet : saturate (p.amount - p.fee p.amount) = p.net p.amount := by
    rw [saturate_eq (by omega) (by omega)]
    omega
  refine Journal.isBalanced_of_total
    (p.currency_of_mem _ (p.captureLines_sublist provider user)) ?_ ?_
  · simp only [captureLines, hfee, hnet, lineIfPositive]
    by_cases hf : 0 < p.fee p.amount
    · simp [hf]
    · simp [show 0 < p.net p.amount by omega]
  · simp only [captureLines, hfee, hnet, Table.total_append, Table.total_cons, Table.total_nil,
      total_lineIfPositive, line]
    split <;> split <;> omega

end Capture

/-! ## The lines of refunds and releases -/

section Refund

variable (p : PaymentRow) (provider refundId : String) (amount : ℤ)

theorem refundLines_sublist : (p.refundLines provider refundId amount).Sublist
    ([("pending", p.pendingAccount, -1 * p.pendingDebit amount),
      ("available", p.availableAccount, -1 * p.availableDebit amount),
      ("platform", p.platformAccount, -1 * p.feeRefund amount),
      ("source", p.sourceAccount provider (p.rail = .credits), amount)].map
        fun r ↦ p.line (.refund refundId) r.1 r.2.1 r.2.2) :=
  (((p.lineIfPositive_sublist _ _ _ _ _).append (p.lineIfPositive_sublist _ _ _ _ _)).append
    (p.lineIfPositive_sublist _ _ _ _ _)).append (List.Sublist.refl [_])

theorem refundLines_ok (hpos : 0 < amount) :
    Journal.EntryLines (.refund refundId) (p.refundLines provider refundId amount) := by
  have hheads : ["developer-pending:", "developer-available:", "platform:payment-revenue:",
      sourceHead (p.rail = .credits)].Pairwise Incomparable := by
    cases decide (p.rail = .credits) <;> decide
  refine p.entryLines _ (p.refundLines_sublist provider refundId amount) ?_ ?_ ?_
  · change ["pending", "available", "platform", "source"].Nodup
    decide
  · refine nodup_of_heads hheads rfl ?_
    simp [p.headed_source, p.headed_pending, p.headed_available, p.headed_platform]
  · intro l hl
    simp only [refundLines, List.mem_append, List.mem_singleton, mem_lineIfPositive] at hl
    rcases hl with ((⟨h, rfl⟩ | ⟨h, rfl⟩) | ⟨h, rfl⟩) | rfl <;> simp only [line] <;> omega

theorem Valid.refundLines_balanced {p : PaymentRow} (h : p.Valid) {amount : ℤ} (hpos : 0 < amount)
    (hle : amount ≤ p.amount - p.refundedAmount) :
    Journal.isBalanced (p.refundLines provider refundId amount) = true := by
  have hsum := h.developerRefund_add_feeRefund hpos hle
  have havailable := h.availableDebit_eq hpos hle
  have hpending := h.pendingDebit_nonneg hpos hle
  have hnonneg := h.availableDebit_nonneg hpos hle
  have hfee := h.feeRefund_nonneg hpos hle
  refine Journal.isBalanced_of_total
    (p.currency_of_mem _ (p.refundLines_sublist provider refundId amount)) ?_ ?_
  · simp only [refundLines, lineIfPositive]
    by_cases h₁ : 0 < p.pendingDebit amount
    · simp only [h₁, if_true, List.length_append, List.length_singleton]
      omega
    · by_cases h₂ : 0 < p.availableDebit amount
      · simp [h₁, h₂]
      · simp [h₁, h₂, show 0 < p.feeRefund amount by omega]
  · simp only [refundLines, Table.total_append, Table.total_cons, Table.total_nil,
      total_lineIfPositive, line]
    split <;> split <;> split <;> omega

end Refund

theorem pair_ok (p : PaymentRow) {entryId : EntryId} {tag tag' account account' : String}
    {amount : ℤ} (htag : tag ≠ tag') (haccount : account ≠ account') (hne : amount ≠ 0) :
    Journal.EntryLines entryId [p.line entryId tag account (-amount),
        p.line entryId tag' account' amount] ∧
      Journal.isBalanced [p.line entryId tag account (-amount),
        p.line entryId tag' account' amount] = true := by
  refine ⟨⟨by simp [line], by simp [JournalLineRow.conflicts, line, htag, haccount], ?_⟩,
    Journal.isBalanced_pair rfl (by simp [line])⟩
  intro l hl
  rcases List.mem_pair.mp hl with rfl | rfl <;> simp [line, hne]

theorem pending_ne_available (p : PaymentRow) : p.pendingAccount ≠ p.availableAccount :=
  p.headed_pending.ne p.headed_available (by decide)

theorem releaseLines_ok (p : PaymentRow) (releaseId : String) {amount : ℤ} (hpos : 0 < amount) :
    Journal.EntryLines (.settlement releaseId) (p.releaseLines releaseId amount) ∧
      Journal.isBalanced (p.releaseLines releaseId amount) = true :=
  p.pair_ok (by decide) p.pending_ne_available hpos.ne'

/-! ## The lines of a reconciliation -/

section Reconciliation

variable (p : PaymentRow) (reconciliationId : String)

theorem reserveLines_ok {amount : ℤ} (hpos : 0 < amount) :
    Journal.EntryLines (.reserve reconciliationId) (p.reserveLines reconciliationId amount) ∧
      Journal.isBalanced (p.reserveLines reconciliationId amount) = true :=
  p.pair_ok (by decide) (p.headed_pending.ne p.headed_reserved (by decide)) hpos.ne'

theorem payableLines_ok (split : Bool) {amount : ℤ} (hpos : 0 < amount) :
    Journal.EntryLines (.reconciliation reconciliationId)
        (p.payableLines reconciliationId split amount) ∧
      Journal.isBalanced (p.payableLines reconciliationId split amount) = true := by
  cases split with
  | true =>
      exact p.pair_ok (by decide) (p.headed_pending.ne p.headed_paid (by decide)) hpos.ne'
  | false => exact p.pair_ok (by decide) p.pending_ne_available hpos.ne'

theorem adjustmentLines_sublist (input : ReconcileRequest) :
    (p.adjustmentLines input reconciliationId).Sublist
      ([("developer", p.pendingAccount, -1 * input.developerAdjustment p),
        ("platform", p.platformAccount, -1 * input.platformFeeReduction p),
        ("provider", p.providerCostAccount, 1 * input.providerFeeAmount.toInt),
        ("tax", p.taxAccount, 1 * input.taxAmount.toInt),
        ("chargeback", p.chargebackAccount, 1 * input.chargebackAmount.toInt)].map
          fun r ↦ p.line (.developerAdjustment reconciliationId) r.1 r.2.1 r.2.2) :=
  ((((p.lineIfPositive_sublist _ _ _ _ _).append (p.lineIfPositive_sublist _ _ _ _ _)).append
    (p.lineIfPositive_sublist _ _ _ _ _)).append (p.lineIfPositive_sublist _ _ _ _ _)).append
      (p.lineIfPositive_sublist _ _ _ _ _)

theorem adjustmentLines_ok (input : ReconcileRequest) :
    Journal.EntryLines (.developerAdjustment reconciliationId)
      (p.adjustmentLines input reconciliationId) := by
  have hheads : ["developer-pending:", "platform:payment-revenue:", "platform:provider-cost:",
      "platform:tax-liability:", "platform:chargeback-cost:"].Pairwise Incomparable := by
    decide
  refine p.entryLines _ (p.adjustmentLines_sublist reconciliationId input) ?_ ?_ ?_
  · change ["developer", "platform", "provider", "tax", "chargeback"].Nodup
    decide
  · refine nodup_of_heads hheads rfl ?_
    simp only [List.map_cons, List.map_nil, List.zip_cons_cons, List.zip_nil_right,
      List.forall_mem_cons]
    exact ⟨p.headed_pending, p.headed_platform, headed_append _ _, headed_append _ _,
      headed_append _ _, by simp⟩
  · intro l hl
    simp only [adjustmentLines, List.mem_append, mem_lineIfPositive] at hl
    rcases hl with (((⟨h, rfl⟩ | ⟨h, rfl⟩) | ⟨h, rfl⟩) | ⟨h, rfl⟩) | ⟨h, rfl⟩ <;>
      simp only [line] <;> omega

variable (r : ReconciliationRow) (provider refundId : String) (amount : ℤ)

theorem reconciledRefundLines_sublist : (r.refundLines p amount provider refundId).Sublist
    ([("reserved", p.reservedAccount, -1 * r.reserveDebit p amount),
      ("available", p.availableAccount, -1 * r.availableDebit p amount),
      ("platform", p.platformAccount, -1 * r.platformDebit p amount),
      ("refund-loss", p.refundLossAccount, -1 * r.refundLoss p amount),
      ("source", p.sourceAccount provider (p.rail = .credits), amount)].map
        fun row ↦ p.line (.refund refundId) row.1 row.2.1 row.2.2) :=
  ((((p.lineIfPositive_sublist _ _ _ _ _).append (p.lineIfPositive_sublist _ _ _ _ _)).append
    (p.lineIfPositive_sublist _ _ _ _ _)).append (p.lineIfPositive_sublist _ _ _ _ _)).append
      (List.Sublist.refl [_])

theorem reconciledRefundLines_ok (hpos : 0 < amount) :
    Journal.EntryLines (.refund refundId) (r.refundLines p amount provider refundId) := by
  have hheads : ["developer-reserved:", "developer-available:", "platform:payment-revenue:",
      "platform:refund-loss:", sourceHead (p.rail = .credits)].Pairwise Incomparable := by
    cases decide (p.rail = .credits) <;> decide
  refine p.entryLines _ (p.reconciledRefundLines_sublist r provider refundId amount) ?_ ?_ ?_
  · change ["reserved", "available", "platform", "refund-loss", "source"].Nodup
    decide
  · refine nodup_of_heads hheads rfl ?_
    simp only [List.map_cons, List.map_nil, List.zip_cons_cons, List.zip_nil_right,
      List.forall_mem_cons]
    exact ⟨p.headed_reserved, p.headed_available, p.headed_platform, headed_append _ _,
      p.headed_source _ _, by simp⟩
  · intro l hl
    simp only [ReconciliationRow.refundLines, List.mem_append, List.mem_singleton,
      mem_lineIfPositive] at hl
    rcases hl with (((⟨h, rfl⟩ | ⟨h, rfl⟩) | ⟨h, rfl⟩) | ⟨h, rfl⟩) | rfl <;>
      simp only [line] <;> omega

end Reconciliation

end PaymentRow

theorem ReconciliationRow.releaseLines_ok (r : ReconciliationRow) (hpos : 0 < r.reserveAmount) :
    Journal.EntryLines (.reserveRelease r.reconciliationId) r.releaseLines ∧
      Journal.isBalanced r.releaseLines = true := by
  have hreserved : Headed "developer-reserved:" r.reservedAccount :=
    ((headed_append _ _).append _).append _
  have havailable : Headed "developer-available:" r.availableAccount :=
    ((headed_append _ _).append _).append _
  have hne : r.reservedAccount ≠ r.availableAccount := hreserved.ne havailable (by decide)
  refine ⟨⟨by simp [releaseLines], ?_, ?_⟩, Journal.isBalanced_pair rfl (by simp)⟩
  · simp [releaseLines, JournalLineRow.conflicts, hne]
  · intro l hl
    rcases List.mem_pair.mp hl with rfl | rfl <;> simp <;> omega

theorem Purchase.lines_ok (c : Purchase) (entryId : EntryId) :
    Journal.EntryLines entryId (c.lines entryId) ∧ Journal.isBalanced (c.lines entryId) = true := by
  have huser : Headed "user:" c.userAccount := ((headed_append _ _).append _).append _
  have hplatform : Headed "platform:content:" c.platformAccount := headed_append _ _
  have hne : c.userAccount ≠ c.platformAccount := huser.ne hplatform (by decide)
  have hpos := c.price.positive
  refine ⟨⟨by simp [lines], ?_, ?_⟩, Journal.isBalanced_pair rfl (by simp)⟩
  · simp [lines, JournalLineRow.conflicts, hne]
  · intro l hl
    rcases List.mem_pair.mp hl with rfl | rfl <;> simp <;> omega

end Fabushi.Worker
