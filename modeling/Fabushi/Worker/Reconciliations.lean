import Fabushi.Worker.Payments

/-!
# Reconciled settlements

The waterfall of `admin_reconcile_settlement`, the refund of a reconciled payment and
the release of its reserve, as batches on the payment tables. The split of an original
order is made by the provider before the batch; here it is only known whether there
was one.
-/

namespace Fabushi.Worker

open Result

structure ReconcileRequest where
  paymentId : String
  idempotencyKey : String
  regionCode : String
  settlementSource : String
  taxAmount : Int64
  providerFeeAmount : Int64
  chargebackAmount : Int64
  reserveBps : UInt16
  reserveHoldSeconds : Int64
  providerSettlementReference : Option String
  deriving DecidableEq, Repr

namespace ReconcileRequest

def deductions (input : ReconcileRequest) : ℤ :=
  saturate (saturate (input.taxAmount.toInt + input.providerFeeAmount.toInt) +
    input.chargebackAmount.toInt)

def holdSeconds (input : ReconcileRequest) : ℤ :=
  if 0 < input.reserveBps ∧ input.reserveHoldSeconds = 0 then 604800
  else input.reserveHoldSeconds.toInt

def splitsOrder (input : ReconcileRequest) : Bool :=
  input.settlementSource = "wechat_order" || input.settlementSource = "alipay_order"

/-! ## The waterfall -/

section

variable (input : ReconcileRequest) (p : PaymentRow)

def grossAfterRefunds : ℤ :=
  saturate (p.amount - p.refundedAmount)

def netReceipts : ℤ :=
  grossAfterRefunds p - input.deductions

def desiredPlatformFee : ℤ :=
  proportional (input.netReceipts p) (basisPoints p.platformFeeBps)

def currentPlatformFee : ℤ :=
  saturate (p.platformFee p.amount - p.platformFee p.refundedAmount)

def platformFeeReduction : ℤ :=
  saturate (currentPlatformFee p - input.desiredPlatformFee p)

def developerBeforeReserve : ℤ :=
  saturate (input.netReceipts p - input.desiredPlatformFee p)

def developerAdjustment : ℤ :=
  saturate (p.developerNetAfterRefunds - input.developerBeforeReserve p)

/-- What the handler checks last before it writes. -/
def isWaterfallBalanced : Bool :=
  saturate (input.developerAdjustment p + input.platformFeeReduction p) = input.deductions

def reserveAmount : ℤ :=
  proportional (input.developerBeforeReserve p) input.reserveBps.toNat

def developerPayable : ℤ :=
  saturate (input.developerBeforeReserve p - input.reserveAmount p)

end

end ReconcileRequest

namespace PaymentRow

variable (p : PaymentRow)

def reservedAccount : String :=
  developerReservedAccount p.developerId p.currency

def paidAccount : String :=
  developerPaidAccount p.developerId p.currency

def providerCostAccount : String :=
  "platform:provider-cost:" ++ p.currency

def taxAccount : String :=
  "platform:tax-liability:" ++ p.currency

def chargebackAccount : String :=
  "platform:chargeback-cost:" ++ p.currency

def refundLossAccount : String :=
  "platform:refund-loss:" ++ p.currency

def openReserved (j : Journal) : Journal :=
  j.walletAccount p.reservedAccount "developer" (p.developerId ++ ":reserved") p.currency

def openReconciliation (split : Bool) (j : Journal) : Journal :=
  let j := p.openPlatform (p.openReserved (p.openAvailable (p.openPending j)))
  let j := j.walletAccount p.providerCostAccount "platform" "provider-cost" p.currency
  let j := j.walletAccount p.taxAccount "platform" "tax-liability" p.currency
  let j := j.walletAccount p.chargebackAccount "platform" "chargeback-cost" p.currency
  if split then j.walletAccount p.paidAccount "developer" (p.developerId ++ ":paid") p.currency
  else j

def adjustmentLines (input : ReconcileRequest) (reconciliationId : String) :
    List JournalLineRow :=
  let entry := EntryId.developerAdjustment reconciliationId
  p.lineIfPositive entry "developer" p.pendingAccount (-1) (input.developerAdjustment p) ++
    p.lineIfPositive entry "platform" p.platformAccount (-1) (input.platformFeeReduction p) ++
    p.lineIfPositive entry "provider" p.providerCostAccount 1 input.providerFeeAmount.toInt ++
    p.lineIfPositive entry "tax" p.taxAccount 1 input.taxAmount.toInt ++
    p.lineIfPositive entry "chargeback" p.chargebackAccount 1 input.chargebackAmount.toInt

def reserveLines (reconciliationId : String) (amount : ℤ) : List JournalLineRow :=
  [p.line (.reserve reconciliationId) "pending" p.pendingAccount (-amount),
    p.line (.reserve reconciliationId) "reserved" p.reservedAccount amount]

def payableLines (reconciliationId : String) (split : Bool) (amount : ℤ) : List JournalLineRow :=
  [p.line (.reconciliation reconciliationId) "pending" p.pendingAccount (-amount),
    if split then p.line (.reconciliation reconciliationId) "paid" p.paidAccount amount
    else p.line (.reconciliation reconciliationId) "available" p.availableAccount amount]

end PaymentRow

namespace ReconciliationRow

def check (r : ReconciliationRow) : Bool :=
  0 ≤ r.grossAmount && 0 ≤ r.taxAmount && 0 ≤ r.providerFeeAmount && 0 ≤ r.refundAmount &&
    0 ≤ r.chargebackAmount && 0 ≤ r.netReceipts && 0 ≤ r.platformFeeBps &&
    r.platformFeeBps ≤ 10000 && 0 ≤ r.platformFeeAmount && 0 ≤ r.reserveBps &&
    r.reserveBps ≤ 10000 && 0 ≤ r.reserveAmount && 0 ≤ r.developerPayableAmount

def conflicts (old new : ReconciliationRow) : Bool :=
  old.reconciliationId = new.reconciliationId || old.idempotencyKey = new.idempotencyKey ||
    (old.paymentId = new.paymentId && new.providerSettlementReference.isSome &&
      old.providerSettlementReference = new.providerSettlementReference)

/-! ## A refund after the reconciliation -/

section

variable (r : ReconciliationRow) (p : PaymentRow) (amount : ℤ)

def fixedDeductions : ℤ :=
  saturate (saturate (r.taxAmount + r.providerFeeAmount) + r.chargebackAmount)

def newNetReceipts : ℤ :=
  saturate (saturate (p.amount - p.newRefunded amount) - r.fixedDeductions)

def newPlatformFee : ℤ :=
  proportional (r.newNetReceipts p amount) (basisPoints r.platformFeeBps)

def newAfterPlatform : ℤ :=
  saturate (r.newNetReceipts p amount - r.newPlatformFee p amount)

def newReserve : ℤ :=
  proportional (r.newAfterPlatform p amount) (basisPoints r.reserveBps)

def newPayable : ℤ :=
  saturate (r.newAfterPlatform p amount - r.newReserve p amount)

def platformDebit : ℤ :=
  saturate (r.platformFeeAmount - r.newPlatformFee p amount)

def reserveDebit : ℤ :=
  saturate (r.reserveAmount - r.newReserve p amount)

def availableDebit : ℤ :=
  saturate (r.developerPayableAmount - r.newPayable p amount)

def refundLoss : ℤ :=
  saturate (amount - saturate (saturate (r.platformDebit p amount + r.reserveDebit p amount) +
    r.availableDebit p amount))

def refundLines (provider refundId : String) : List JournalLineRow :=
  let entry := EntryId.refund refundId
  p.lineIfPositive entry "reserved" p.reservedAccount (-1) (r.reserveDebit p amount) ++
    p.lineIfPositive entry "available" p.availableAccount (-1) (r.availableDebit p amount) ++
    p.lineIfPositive entry "platform" p.platformAccount (-1) (r.platformDebit p amount) ++
    p.lineIfPositive entry "refund-loss" p.refundLossAccount (-1) (r.refundLoss p amount) ++
    [p.line entry "source" (p.sourceAccount provider (p.rail = .credits)) amount]

def refunded (q : ReconciliationRow) : ReconciliationRow :=
  { q with
    refundAmount := p.newRefunded amount
    netReceipts := r.newNetReceipts p amount
    platformFeeAmount := r.newPlatformFee p amount
    reserveAmount := r.newReserve p amount
    developerPayableAmount := r.newPayable p amount }

end

/-! ## The release of the reserve -/

def releaseId (r : ReconciliationRow) : String :=
  "reserve-release:" ++ r.reconciliationId

def reservedAccount (r : ReconciliationRow) : String :=
  developerReservedAccount r.developerId r.currency

def availableAccount (r : ReconciliationRow) : String :=
  developerAvailableAccount r.developerId r.currency

def releaseLines (r : ReconciliationRow) : List JournalLineRow :=
  let entryId := EntryId.reserveRelease r.reconciliationId
  [⟨entryId, "reserved", r.reservedAccount, r.currency, -r.reserveAmount⟩,
    ⟨entryId, "available", r.availableAccount, r.currency, r.reserveAmount⟩]

def releaseRow (r : ReconciliationRow) : ReleaseRow where
  releaseId := r.releaseId
  paymentId := r.paymentId
  idempotencyKey := "reserve:" ++ r.reconciliationId
  amount := r.reserveAmount

def released (r : ReconciliationRow) (now : ℤ) : ReconciliationRow :=
  { r with
    developerPayableAmount := r.developerPayableAmount + r.reserveAmount
    reserveAmount := 0
    reserveReleasedAt := some now }

end ReconciliationRow

namespace PaymentDb

/-! ## Reads -/

def reconciliationByKey (db : PaymentDb) (key : String) : Option ReconciliationRow :=
  db.reconciliations.find? fun r ↦ r.idempotencyKey = key

def reconciledRefundRow (db : PaymentDb) (paymentId : String) : Option ReconciliationRow :=
  (db.reconciliations.filter fun r ↦ r.paymentId = paymentId && r.status = .released).foldl
    (fun latest r ↦
      match latest with
      | some s => if s.createdAt < r.createdAt then some r else some s
      | none => some r) none

def dueReserve (db : PaymentDb) (reconciliationId : String) (now : ℤ) : Option ReconciliationRow :=
  db.reconciliations.find? fun r ↦ r.reconciliationId = reconciliationId &&
    r.status = .released && r.reserveReleasedAt.isNone && r.reserveReleaseAfter ≤ now

/-! ## The batch of a reconciliation -/

def reconciliationRow (p : PaymentRow) (input : ReconcileRequest) (reconciliationId : String)
    (now : ℤ) : ReconciliationRow where
  reconciliationId
  paymentId := p.paymentId
  idempotencyKey := input.idempotencyKey
  developerId := p.developerId
  regionCode := input.regionCode
  settlementSource := input.settlementSource
  currency := p.currency
  grossAmount := p.amount
  taxAmount := input.taxAmount.toInt
  providerFeeAmount := input.providerFeeAmount.toInt
  refundAmount := p.refundedAmount
  chargebackAmount := input.chargebackAmount.toInt
  netReceipts := input.netReceipts p
  platformFeeBps := basisPoints p.platformFeeBps
  platformFeeAmount := input.desiredPlatformFee p
  reserveBps := input.reserveBps.toNat
  reserveAmount := input.reserveAmount p
  reserveReleaseAfter := saturate (now + input.holdSeconds)
  reserveReleasedAt := none
  developerPayableAmount := input.developerPayable p
  providerSettlementReference := input.providerSettlementReference
  status := .reconciled
  createdAt := now

def insertReconciliation (r : ReconciliationRow) (db : PaymentDb) : Except SqlError PaymentDb := do
  ensure (¬ db.reconciliations.any fun old ↦ old.conflicts r)
    (.unique "developer_settlement_reconciliations")
  ensure r.check (.check "developer_settlement_reconciliations")
  return { db with reconciliations := db.reconciliations ++ [r] }

def insertRelease (r : ReleaseRow) (db : PaymentDb) : Except SqlError PaymentDb := do
  ensure (¬ db.releases.any fun old ↦ old.conflicts r) (.unique "developer_settlement_releases")
  ensure (0 < r.amount) (.check "developer_settlement_releases")
  return { db with releases := db.releases ++ [r] }

def bookNew (entryId : EntryId) (referenceType referenceId : String) (lines : List JournalLineRow)
    (db : PaymentDb) : Except SqlError PaymentDb := do
  ensure (¬ db.journal.entries.any fun e ↦
    e.conflicts ⟨entryId, referenceType, referenceId, .draft⟩) (.unique "journal_entries")
  let journal ← db.journal.book true entryId referenceType referenceId lines
  return { db with journal }

/-- Deductions are taken from what the capture gave to the developer and the platform. -/
def bookAdjustment (p : PaymentRow) (input : ReconcileRequest) (reconciliationId : String)
    (db : PaymentDb) : Except SqlError PaymentDb :=
  if 0 < input.deductions then
    db.bookNew (.developerAdjustment reconciliationId) "settlement_reconciliation" reconciliationId
      (p.adjustmentLines input reconciliationId)
  else .ok db

def bookReserve (p : PaymentRow) (input : ReconcileRequest) (reconciliationId : String)
    (db : PaymentDb) : Except SqlError PaymentDb :=
  if 0 < input.reserveAmount p then
    db.bookNew (.reserve reconciliationId) "settlement_reserve" reconciliationId
      (p.reserveLines reconciliationId (input.reserveAmount p))
  else .ok db

def bookPayable (p : PaymentRow) (input : ReconcileRequest) (reconciliationId : String)
    (split : Bool) (db : PaymentDb) : Except SqlError PaymentDb :=
  let releaseId := "reconciliation-release:" ++ reconciliationId
  let row : ReleaseRow := {
    releaseId
    paymentId := p.paymentId
    idempotencyKey := "release:" ++ input.idempotencyKey
    amount := input.developerPayable p }
  let referenceType := if split then "settlement_original_order_split" else "settlement_release"
  if 0 < input.developerPayable p then do
    let db ← db.insertRelease row
    db.bookNew (.reconciliation reconciliationId) referenceType releaseId
      (p.payableLines reconciliationId split (input.developerPayable p))
  else .ok db

def reconcile (p : PaymentRow) (input : ReconcileRequest) (reconciliationId : String)
    (split : Bool) (now : ℤ) (db : PaymentDb) : Except SqlError (PaymentDb × Unit) := do
  let db := { db with journal := p.openReconciliation split db.journal }
  let db ← db.insertReconciliation (reconciliationRow p input reconciliationId now)
  let db ← db.bookAdjustment p input reconciliationId
  let db ← db.bookReserve p input reconciliationId
  let db ← db.bookPayable p input reconciliationId split
  let db ← db.updatePayments (fun q ↦ q.paymentId = p.paymentId)
    (fun q ↦ { q with releasedDeveloperAmount := input.developerBeforeReserve p })
  let release (r : ReconciliationRow) : ReconciliationRow := { r with status := .released }
  let reconciliations :=
    Table.update (fun r ↦ r.reconciliationId = reconciliationId) release db.reconciliations
  return ({ db with reconciliations }, ())

/-! ## The other batches -/

def updateReconciliations (selects : ReconciliationRow → Bool)
    (set : ReconciliationRow → ReconciliationRow) (db : PaymentDb) :
    Except SqlError PaymentDb := do
  let reconciliations ← updateChecked "developer_settlement_reconciliations"
    ReconciliationRow.check selects set db.reconciliations
  return { db with reconciliations }

def applyReconciledRefund (p : PaymentRow) (r : ReconciliationRow)
    (provider reference eventId refundId : String) (amount : ℤ) (db : PaymentDb) :
    Except SqlError (PaymentDb × Unit) := do
  let journal := p.openPlatform (p.openReserved (p.openAvailable
    (p.openSource provider (p.rail = .credits) db.journal)))
  let journal := journal.walletAccount p.refundLossAccount "platform" "refund-loss" p.currency
  let db := { db with journal }.insertRefund p reference eventId refundId amount
  let journal ← db.journal.book (db.hasRefund refundId) (.refund refundId) "payment_refund"
    refundId (r.refundLines p amount provider refundId)
  let posted := journal.isPosted (.refund refundId)
  let full : Bool := p.newRefunded amount = p.amount
  let db ← { db with journal }.updateReconciliations
    (fun q ↦ q.reconciliationId = r.reconciliationId && posted) (r.refunded p amount)
  let db ← db.updatePayments (fun q ↦ q.paymentId = p.paymentId && posted)
    (fun q ↦ { q with
      refundedAmount := p.newRefunded amount
      releasedDeveloperAmount := r.newAfterPlatform p amount
      status := if full then .refunded else .partiallyRefunded })
  return (db.takeBack p full, ())

def reserveReleases (r : ReconciliationRow) (db : PaymentDb) : List ReleaseRow :=
  match db.reconciliations.find? fun q ↦ q.reconciliationId = r.reconciliationId &&
      q.reserveReleasedAt.isNone && 0 < q.reserveAmount with
  | some q => Table.insertOrIgnore ReleaseRow.conflicts q.releaseRow db.releases
  | none => db.releases

def releaseReserve (r : ReconciliationRow) (now : ℤ) (db : PaymentDb) :
    Except SqlError (PaymentDb × Unit) := do
  let journal := (db.journal.walletAccount r.reservedAccount "developer"
    (r.developerId ++ ":reserved") r.currency).walletAccount r.availableAccount "developer"
      (r.developerId ++ ":available") r.currency
  let db := { db with journal, releases := db.reserveReleases r }
  let journal ← db.journal.book (db.hasRelease r.releaseId) (.reserveRelease r.reconciliationId)
    "settlement_reserve_release" r.releaseId r.releaseLines
  let posted := journal.isPosted (.reserveRelease r.reconciliationId)
  let db ← { db with journal }.updateReconciliations (fun q ↦
    q.reconciliationId = r.reconciliationId && q.reserveReleasedAt.isNone && posted)
    fun q ↦ q.released now
  return (db, ())

def markReserveReleased (reconciliationId : String) (now : ℤ) (db : PaymentDb) : PaymentDb :=
  let selects (r : ReconciliationRow) : Bool :=
    r.reconciliationId = reconciliationId && r.reserveReleasedAt.isNone
  let mark (r : ReconciliationRow) : ReconciliationRow := { r with reserveReleasedAt := some now }
  { db with reconciliations := Table.update selects mark db.reconciliations }

end PaymentDb

end Fabushi.Worker
