import Fabushi.Worker.Payouts
import Fabushi.Worker.Purchases
import Fabushi.Worker.Reconciliations

/-!
# Payment handlers

The handlers of `payment_api.rs`, `payout_orchestration.rs`, `reserve_release.rs` and
`commerce.rs` that work on the payment tables, as programs of reads and batches. A call
carries what its handler reads besides the tables: the time, the generated identifiers
and the answers of the catalogue and the provider.
-/

namespace Fabushi.Worker

open Interleaving Result

/-! ## Operations -/

inductive PaymentOp where
  | paymentById (paymentId : String)
  /-- The same read after the batch of `confirm_credits`. -/
  | paymentCaptured (paymentId : String)
  | walletBalance (accountId : String)
  | postSuccess (row : PaymentRow) (provider reference : String) (debitUser : Bool)
  | endPayment (paymentId : String) (status : PaymentStatus) (reference : Option String)
  | reconciledRefundRow (paymentId : String)
  | applyRefund (row : PaymentRow) (provider reference eventId refundId : String) (amount : ℤ)
  | applyReconciledRefund (row : PaymentRow) (reconciliation : ReconciliationRow)
      (provider reference eventId refundId : String) (amount : ℤ)
  | openDispute (row : DisputeRow)
  | closeDispute (provider reference : String) (status : DisputeStatus)
  | releaseSettlement (row : PaymentRow) (idempotencyKey releaseId : String) (amount : ℤ)
  | orderByIdempotency (userId key : String)
  /-- The same read after the batch of `commerce_purchase`. -/
  | orderPurchased (purchase : Purchase)
  | entitlementForOrder (orderId : String)
  | purchase (purchase : Purchase)
  | reconciliationByKey (key : String)
  | reconcile (row : PaymentRow) (input : ReconcileRequest) (reconciliationId : String)
      (split : Bool) (now : ℤ)
  | dueReserve (reconciliationId : String) (now : ℤ)
  | releaseReserve (row : ReconciliationRow) (now : ℤ)
  | markReserveReleased (reconciliationId : String) (now : ℤ)
  deriving DecidableEq

@[reducible] def PaymentOp.Answer : PaymentOp → Type
  | .paymentById _ | .paymentCaptured _ => Option PaymentRow
  | .walletBalance _ => ℤ
  | .reconciledRefundRow _ | .reconciliationByKey _ | .dueReserve .. => Option ReconciliationRow
  | .orderByIdempotency .. | .orderPurchased _ => Option OrderRow
  | .entitlementForOrder _ => Option EntitlementRow
  | .postSuccess .. | .endPayment .. | .applyRefund .. | .applyReconciledRefund ..
  | .releaseSettlement .. | .purchase _ | .reconcile .. | .releaseReserve .. =>
      Except SqlError Unit
  | .openDispute _ | .closeDispute .. | .markReserveReleased .. => Unit

def DisputeRow.conflicts (old new : DisputeRow) : Bool :=
  old.disputeId = new.disputeId ||
    (old.provider = new.provider && old.providerReference = new.providerReference)

namespace PaymentDb

def openDispute (row : DisputeRow) (db : PaymentDb) : PaymentDb :=
  { db with disputes := Table.insertOrIgnore DisputeRow.conflicts row db.disputes }

/-- A dispute is won only while it is open; it is lost in any state. -/
def closeDispute (provider reference : String) (status : DisputeStatus) (db : PaymentDb) :
    PaymentDb :=
  let selects (d : DisputeRow) : Bool := d.provider = provider &&
    d.providerReference = reference && (status ≠ .won || d.status = .open)
  { db with disputes := Table.update selects (fun d ↦ { d with status }) db.disputes }

end PaymentDb

def PaymentOp.exec : (op : PaymentOp) → PaymentDb → PaymentDb × op.Answer
  | .paymentById paymentId, db | .paymentCaptured paymentId, db => (db, db.paymentById paymentId)
  | .walletBalance accountId, db => (db, db.journal.walletBalance accountId)
  | .postSuccess row provider reference debitUser, db =>
      atomically (PaymentDb.postSuccess row provider reference debitUser) db
  | .endPayment paymentId status reference, db =>
      atomically (PaymentDb.endPayment paymentId status reference) db
  | .reconciledRefundRow paymentId, db => (db, db.reconciledRefundRow paymentId)
  | .applyRefund row provider reference eventId refundId amount, db =>
      atomically (PaymentDb.applyRefund row provider reference eventId refundId amount) db
  | .applyReconciledRefund row reconciliation provider reference eventId refundId amount, db =>
      atomically (PaymentDb.applyReconciledRefund row reconciliation provider reference eventId
        refundId amount) db
  | .openDispute row, db => (db.openDispute row, ())
  | .closeDispute provider reference status, db => (db.closeDispute provider reference status, ())
  | .releaseSettlement row idempotencyKey releaseId amount, db =>
      atomically (PaymentDb.releaseSettlement row idempotencyKey releaseId amount) db
  | .orderByIdempotency userId key, db => (db, db.orderByIdempotency userId key)
  | .orderPurchased c, db => (db, db.orderByIdempotency c.userId c.idempotencyKey)
  | .entitlementForOrder orderId, db => (db, db.entitlementForOrder orderId)
  | .purchase c, db => atomically (PaymentDb.purchase c) db
  | .reconciliationByKey key, db => (db, db.reconciliationByKey key)
  | .reconcile row input reconciliationId split now, db =>
      atomically (PaymentDb.reconcile row input reconciliationId split now) db
  | .dueReserve reconciliationId now, db => (db, db.dueReserve reconciliationId now)
  | .releaseReserve row now, db => atomically (PaymentDb.releaseReserve row now) db
  | .markReserveReleased reconciliationId now, db =>
      (db.markReserveReleased reconciliationId now, ())

def PaymentOp.run (op : PaymentOp) : Prog PaymentOp PaymentOp.Answer op.Answer :=
  .perform op

/-! ## Provider events -/

inductive PaymentReply where
  /-- The event is accepted, for this payment. -/
  | accepted (paymentId : Option String)
  | payment (row : PaymentRow)
  | settled (releaseId paymentId : String) (amount : ℤ)
  | purchased (orderId : String) (entitlement : Option EntitlementRow)
  | reconciled (reconciliation : ReconciliationRow) (duplicate : Bool)
  | reserveReleased (reconciliationId : String) (released : Bool)
  | refused (status : ℕ) (code message : String)
  | failed (message : String)
  deriving DecidableEq, Repr

abbrev PaymentProg := Prog PaymentOp PaymentOp.Answer PaymentReply

def thenBatch (batch : Except SqlError Unit) (next : PaymentProg) : PaymentProg :=
  match batch with
  | .ok _ => next
  | .error _ => .ret (.failed "D1_ERROR")

def postSuccess (p : PaymentRow) (provider reference : String) (debitUser : Bool)
    (next : PaymentProg) : PaymentProg :=
  if isCaptured p.status then
    if p.providerReference = some reference then next
    else .ret (.failed "provider reference conflicts with successful payment")
  else if !isOpenPayment p.status then .ret (.failed "payment is not capturable")
  else do
    let batch ← PaymentOp.run (.postSuccess p provider reference debitUser)
    thenBatch batch next

def bookRefund (p : PaymentRow) (provider reference eventId refundId : String) (amount : ℤ)
    (reconciliation : Option ReconciliationRow) (next : PaymentProg) : PaymentProg :=
  match reconciliation with
  | some r => do
      let batch ← PaymentOp.run
        (.applyReconciledRefund p r provider reference eventId refundId amount)
      thenBatch batch next
  | none =>
      if p.releasedDeveloperAmount < p.availableDebit amount then
        .ret (.failed "refund accounting invariant was violated")
      else do
        let batch ← PaymentOp.run (.applyRefund p provider reference eventId refundId amount)
        thenBatch batch next

def applyRefund (p : PaymentRow) (provider reference eventId refundId : String) (amount : ℤ)
    (next : PaymentProg) : PaymentProg :=
  if amount ≤ 0 ∨ saturate (p.amount - p.refundedAmount) < amount then
    .ret (.failed "refund exceeds remaining refundable amount")
  else if !(p.status = .succeeded || p.status = .partiallyRefunded) then
    .ret (.failed "payment is not refundable")
  else do
    let reconciliation ← PaymentOp.run (.reconciledRefundRow p.paymentId)
    bookRefund p provider reference eventId refundId amount reconciliation next

inductive PaymentEventType where
  | paymentSucceeded | paymentFailed | paymentCancelled | refundSucceeded | chargebackOpened
  | chargebackWon | chargebackLost
  deriving DecidableEq, Repr

/-- `NormalizedProviderWebhook`, as far as payments read it. -/
structure ProviderEvent where
  eventId : String
  eventType : PaymentEventType
  paymentId : Option String := none
  providerReference : Option String := none
  refundReference : Option String := none
  disputeReference : Option String := none
  amount : Option Int64 := none
  deriving DecidableEq, Repr

def required (value : Option String) (field : String) (next : String → PaymentProg) :
    PaymentProg :=
  match value with
  | none => .ret (.failed ("provider event is missing " ++ field))
  | some value =>
      if isIdentifier value then next value else .ret (.failed "invalid payment identifier")

def readPayment (paymentId message : String) (next : PaymentRow → PaymentProg) : PaymentProg := do
  match ← PaymentOp.run (.paymentById paymentId) with
  | none => return .failed message
  | some p => next p

def expectedRail (provider : String) : Rail :=
  if provider = "merchant" then .merchantProvider else .webProvider

def accept (paymentId : Option String) : PaymentProg :=
  .ret (.accepted paymentId)

def paymentSucceededEvent (provider : String) (event : ProviderEvent) : PaymentProg :=
  required event.paymentId "paymentId" fun paymentId ↦
    required event.providerReference "providerReference" fun reference ↦
      readPayment paymentId "webhook payment not found" fun p ↦
        if p.rail ≠ expectedRail provider then
          .ret (.failed "provider rail does not match payment intent")
        else postSuccess p provider reference false (accept (some paymentId))

def paymentEndedEvent (status : PaymentStatus) (event : ProviderEvent) : PaymentProg :=
  required event.paymentId "paymentId" fun paymentId ↦ do
    let batch ← PaymentOp.run (.endPayment paymentId status event.providerReference)
    thenBatch batch (accept (some paymentId))

def refundSucceededEvent (provider : String) (event : ProviderEvent) (refundId : String) :
    PaymentProg :=
  required event.paymentId "paymentId" fun paymentId ↦
    required event.refundReference "refundReference" fun reference ↦
      match event.amount with
      | none => .ret (.failed "refund amount is required")
      | some amount =>
          readPayment paymentId "refund payment not found" fun p ↦
            applyRefund p provider reference event.eventId refundId amount.toInt
              (accept (some paymentId))

def chargebackOpenedEvent (provider : String) (event : ProviderEvent) (disputeId : String) :
    PaymentProg :=
  required event.paymentId "paymentId" fun paymentId ↦
    required event.disputeReference "disputeReference" fun reference ↦
      match event.amount with
      | none => .ret (.failed "dispute amount is required")
      | some amount =>
          readPayment paymentId "dispute payment not found" fun p ↦
            if amount.toInt ≤ 0 ∨ saturate (p.amount - p.refundedAmount) < amount.toInt then
              .ret (.failed "invalid dispute amount")
            else do
              let _ ← PaymentOp.run (.openDispute ⟨disputeId, paymentId, provider, reference,
                p.currency, amount.toInt, .open⟩)
              accept (some paymentId)

def chargebackWonEvent (provider : String) (event : ProviderEvent) : PaymentProg :=
  required event.disputeReference "disputeReference" fun reference ↦ do
    let _ ← PaymentOp.run (.closeDispute provider reference .won)
    accept event.paymentId

def chargebackLostEvent (provider : String) (event : ProviderEvent) (refundId : String) :
    PaymentProg :=
  required event.paymentId "paymentId" fun paymentId ↦
    required event.disputeReference "disputeReference" fun reference ↦
      readPayment paymentId "dispute payment not found" fun p ↦
        let amount := match event.amount with
          | some amount => amount.toInt
          | none => saturate (p.amount - p.refundedAmount)
        applyRefund p provider ("chargeback:" ++ reference) event.eventId refundId amount do
          let _ ← PaymentOp.run (.closeDispute provider reference .lost)
          accept (some paymentId)

def processNormalizedEvent (provider : String) (event : ProviderEvent) (newId : String) :
    PaymentProg :=
  match event.eventType with
  | .paymentSucceeded => paymentSucceededEvent provider event
  | .paymentFailed => paymentEndedEvent .failed event
  | .paymentCancelled => paymentEndedEvent .cancelled event
  | .refundSucceeded => refundSucceededEvent provider event newId
  | .chargebackOpened => chargebackOpenedEvent provider event newId
  | .chargebackWon => chargebackWonEvent provider event
  | .chargebackLost => chargebackLostEvent provider event newId

/-! ## Credits -/

def paymentNotFound : PaymentReply :=
  .refused 404 "payment_not_found" "payment intent was not found"

def answerConfirmed (p : PaymentRow) : PaymentProg := do
  match ← PaymentOp.run (.paymentCaptured p.paymentId) with
  | none => return .failed "payment disappeared after credits capture"
  | some updated =>
      if updated.status ≠ .succeeded then do
        let balance ← PaymentOp.run (.walletBalance p.userAccount)
        if balance < p.amount then
          return .refused 402 "insufficient_credits" "insufficient FBC credits balance"
        else
          return .refused 500 "ledger_invariant_violation"
            "credits payment could not be posted atomically"
      else return .payment updated

def confirmCredits (userId paymentId : String) : PaymentProg := do
  match ← PaymentOp.run (.paymentById paymentId) with
  | none => return paymentNotFound
  | some p =>
      if p.userId ≠ userId then return paymentNotFound
      else if p.rail ≠ .credits || p.currency ≠ creditsCurrency then
        return .refused 409 "invalid_payment_rail" "payment is not an FBC credits purchase"
      else if isCaptured p.status then return .payment p
      else if !isOpenPayment p.status then
        return .refused 409 "invalid_payment_state" "payment can no longer be confirmed"
      else postSuccess p "credits" ("credits:" ++ p.paymentId) true (answerConfirmed p)

/-! ## Settlement -/

structure SettlementRequest where
  paymentId : String
  idempotencyKey : String
  reserveBps : Option UInt16
  holdPeriodSeconds : Option Int64
  deriving DecidableEq, Repr

namespace SettlementRequest

def reserve (input : SettlementRequest) : ℤ :=
  (input.reserveBps.getD 0).toNat

def hold (input : SettlementRequest) : ℤ :=
  max (input.holdPeriodSeconds.getD 604800).toInt 0

end SettlementRequest

def settle (input : SettlementRequest) (releaseId : String) (now : ℤ) : PaymentProg := do
  match ← PaymentOp.run (.paymentById input.paymentId) with
  | none => return paymentNotFound
  | some p =>
      if !(p.status = .succeeded || p.status = .partiallyRefunded) then
        return .refused 409 "settlement_not_allowed" "payment is not settlement eligible"
      else if now < saturate (p.createdAt + input.hold) then
        return .refused 409 "settlement_hold" "payment is still inside the settlement hold period"
      else if p.releaseAmount input.reserve ≤ 0 then
        return .refused 409 "nothing_to_settle" "no additional developer revenue is releasable"
      else do
        let amount := p.releaseAmount input.reserve
        let batch ← PaymentOp.run (.releaseSettlement p input.idempotencyKey releaseId amount)
        thenBatch batch (.ret (.settled releaseId p.paymentId amount))

def checkSettlement (input : SettlementRequest) (releaseId : String) (now : ℤ)
    (payment : Option PaymentRow) : PaymentProg :=
  if payment.any fun p ↦ p.currency ≠ creditsCurrency then
    .ret (.refused 409 "reconciliation_required"
      "fiat developer settlement must use the reconciliation waterfall")
  else if !(isIdentifier input.idempotencyKey) then .ret (.failed "invalid payment identifier")
  else if 10000 < input.reserve then
    .ret (.refused 400 "invalid_reserve" "reserve basis points must be between 0 and 10000")
  else settle input releaseId now

def adminReleaseSettlement (input : SettlementRequest) (releaseId : String) (now : ℤ) :
    PaymentProg :=
  if !(isIdentifier input.paymentId) then .ret (.failed "invalid payment identifier")
  else do
    let payment ← PaymentOp.run (.paymentById input.paymentId)
    checkSettlement input releaseId now payment

/-! ## Purchases -/

def answerPurchased (o : OrderRow) : PaymentProg := do
  let entitlement ← PaymentOp.run (.entitlementForOrder o.orderId)
  return .purchased o.orderId entitlement

def buy (c : Purchase) : PaymentProg := do
  let batch ← PaymentOp.run (.purchase c)
  thenBatch batch do
    match ← PaymentOp.run (.orderPurchased c) with
    | none => return .refused 402 "insufficient_balance" "insufficient Mahayana bean balance"
    | some o =>
        if o.pluginId ≠ c.price.pluginId || o.sku ≠ c.price.sku then
          return .refused 409 "idempotency_conflict"
            "idempotency key was already used for a different product"
        else if o.status ≠ .fulfilled then
          return .refused 500 "ledger_invariant_violation"
            "order could not be posted as a balanced journal entry"
        else answerPurchased o

def OrderRow.differs (o : OrderRow) (price : PriceRow) : Bool :=
  o.pluginId ≠ price.pluginId || o.sku ≠ price.sku || o.currency ≠ price.currency ||
    o.amount ≠ price.amount

def commercePurchase (c : Purchase) : PaymentProg := do
  match ← PaymentOp.run (.orderByIdempotency c.userId c.idempotencyKey) with
  | some existing =>
      if existing.differs c.price then
        return .refused 409 "idempotency_conflict"
          "idempotency key was already used for a different product or price"
      else if existing.status = .fulfilled then answerPurchased existing
      else buy c
  | none => buy c

/-! ## Reconciliations and reserves -/

namespace ReconcileRequest

def refusal (input : ReconcileRequest) : Option PaymentReply :=
  if !(isIdentifier input.paymentId) || !(isIdentifier input.idempotencyKey) then
    some (.failed "invalid payment identifier")
  else if !(["CN", "GLOBAL"].contains input.regionCode) then
    some (.refused 400 "invalid_region" "regionCode must be CN or GLOBAL")
  else if !(["wechat_order", "alipay_order", "apple_store_proceeds", "google_store_proceeds",
      "web_marketplace", "other_external_proceeds"].contains input.settlementSource) then
    some (.refused 400 "invalid_settlement_source" "unsupported settlement source")
  else if input.taxAmount < 0 || input.providerFeeAmount < 0 || input.chargebackAmount < 0 then
    some (.refused 400 "invalid_settlement_amount" "settlement deductions must be non-negative")
  else if input.holdSeconds < 0 || 7776000 < input.holdSeconds then
    some (.refused 400 "invalid_reserve_hold" "reserveHoldSeconds must be between 0 and 90 days")
  else if 10000 < input.reserveBps.toNat then
    some (.refused 400 "invalid_reserve" "reserve basis points must be between 0 and 10000")
  else if !(input.providerSettlementReference.all isIdentifier) then
    some (.failed "invalid payment identifier")
  else none

def refusalFor (input : ReconcileRequest) (p : PaymentRow) : Option PaymentReply :=
  if !(p.status = .succeeded || p.status = .partiallyRefunded) then
    some (.refused 409 "settlement_not_allowed" "payment is not settlement eligible")
  else if p.releasedDeveloperAmount ≠ 0 then
    some (.refused 409 "settlement_already_released"
      "fiat settlement must be reconciled before any developer release")
  else if grossAfterRefunds p < input.deductions then
    some (.refused 400 "settlement_deductions_exceed_receipts"
      "tax/provider/chargeback deductions exceed remaining gross receipts")
  else if !(input.isWaterfallBalanced p) then
    some (.refused 500 "settlement_invariant_violation" "settlement waterfall is not balanced")
  else none

def originalSplit (input : ReconcileRequest) (p : PaymentRow) (provider : Bool) :
    Option Bool :=
  if input.splitsOrder && 0 < input.developerPayable p then
    if input.regionCode = "CN" && input.reserveBps = 0 &&
        p.providerReference.any (fun reference ↦ Text.trim reference ≠ "") && provider then
      some true
    else none
  else some false

end ReconcileRequest

def reconcilePayment (input : ReconcileRequest) (p : PaymentRow) (reconciliationId : String)
    (provider : Bool) (now : ℤ) : PaymentProg :=
  match input.refusalFor p with
  | some refusal => .ret refusal
  | none =>
      match input.originalSplit p provider with
      | none => .ret (.failed "original-order split failed")
      | some split => do
          let batch ← PaymentOp.run (.reconcile p input reconciliationId split now)
          thenBatch batch (.ret (.reconciled
            (PaymentDb.reconciliationRow p input reconciliationId now) false))

def adminReconcileSettlement (input : ReconcileRequest) (reconciliationId : String)
    (provider : Bool) (now : ℤ) : PaymentProg :=
  match input.refusal with
  | some refusal => .ret refusal
  | none => do
      match ← PaymentOp.run (.reconciliationByKey input.idempotencyKey) with
      | some existing => return .reconciled existing true
      | none =>
          match ← PaymentOp.run (.paymentById input.paymentId) with
          | none => return paymentNotFound
          | some p => reconcilePayment input p reconciliationId provider now

def releaseOneReserve (r : ReconciliationRow) (now : ℤ) : PaymentProg :=
  if r.reserveAmount ≤ 0 then do
    let _ ← PaymentOp.run (.markReserveReleased r.reconciliationId now)
    return .reserveReleased r.reconciliationId false
  else do
    let batch ← PaymentOp.run (.releaseReserve r now)
    thenBatch batch (.ret (.reserveReleased r.reconciliationId true))

def adminReleaseReserve (reconciliationId : String) (now : ℤ) : PaymentProg := do
  match ← PaymentOp.run (.dueReserve reconciliationId now) with
  | none =>
      return .refused 409 "reserve_not_releasable"
        "reserve is missing, already released, or still inside its hold window"
  | some r => releaseOneReserve r now

/-! ## Calls -/

inductive PaymentCall where
  | event (provider : String) (input : ProviderEvent) (newId : String)
  | credits (userId paymentId : String)
  | settlement (input : SettlementRequest) (releaseId : String) (now : ℤ)
  | purchase (c : Purchase)
  | reconciliation (input : ReconcileRequest) (reconciliationId : String) (provider : Bool) (now : ℤ)
  | reserve (reconciliationId : String) (now : ℤ)
  deriving DecidableEq

def PaymentCall.handle : PaymentCall → PaymentProg
  | .event provider input newId => processNormalizedEvent provider input newId
  | .credits userId paymentId => confirmCredits userId paymentId
  | .settlement input releaseId now => adminReleaseSettlement input releaseId now
  | .purchase c => commercePurchase c
  | .reconciliation input reconciliationId provider now =>
      adminReconcileSettlement input reconciliationId provider now
  | .reserve reconciliationId now => adminReleaseReserve reconciliationId now

end Fabushi.Worker
