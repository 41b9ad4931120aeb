import Fabushi.Pay.Payment
import Fabushi.Library.Effects

/-!
# The payment engine

`PayEngine` with its three maps and its public operations. The hash maps of the
source are only looked up and inserted into, so their order is immaterial.
-/

namespace Fabushi.Pay

open Effects MachineInt Result

structure ProviderOutcome where
  providerReference : String
  occurredAtMs : Int64
  deriving DecidableEq, Repr

structure RefundRequest where
  idempotencyKey : String
  paymentId : String
  amount : Int64
  occurredAtMs : Int64
  deriving DecidableEq, Repr

structure SettlementRelease where
  idempotencyKey : String
  paymentId : String
  occurredAtMs : Int64
  deriving DecidableEq, Repr

structure PaymentMutation where
  payment : PaymentIntent
  ledgerEntry : Option PaymentLedgerEntry
  deriving DecidableEq, Repr

inductive Operation where
  | refund | settlementRelease
  deriving DecidableEq, Repr

def Operation.referenceType : Operation → String
  | .refund => "refund"
  | .settlementRelease => "settlement-release"

structure MutationRecord where
  operation : Operation
  paymentId : String
  entry : PaymentLedgerEntry
  deriving DecidableEq, Repr

structure PayEngine where
  payments : BTreeMap String PaymentIntent := ∅
  paymentByIdempotency : BTreeMap String String := ∅
  mutationResults : BTreeMap String MutationRecord := ∅

abbrev PayM := Eff PayError PayEngine

variable (sha256 : List UInt8 → List UInt8)

def CreatePaymentIntent.idParts (request : CreatePaymentIntent) : List String :=
  ["payment", request.idempotencyKey, request.userId, request.miniAppId, request.sku]

def CreatePaymentIntent.toPayment (request : CreatePaymentIntent) : PaymentIntent where
  paymentId := stableId sha256 request.idParts
  idempotencyKey := request.idempotencyKey
  userId := request.userId
  miniAppId := request.miniAppId
  developerId := request.developerId
  sku := request.sku
  productKind := request.productKind
  rail := request.rail
  amount := request.amount
  platformFeeBps := request.platformFeeBps
  status := .created
  providerReference := none
  refundedAmount := 0
  releasedDeveloperAmount := 0
  createdAtMs := request.createdAtMs
  updatedAtMs := request.createdAtMs

namespace PayEngine

def insertPayment (payment : PaymentIntent) : PayM PUnit :=
  modify fun engine ↦
    { engine with payments := engine.payments.insert payment.paymentId payment }

def recordMutation (key : String) (operation : Operation) (paymentId : String)
    (entry : PaymentLedgerEntry) : PayM PUnit :=
  modify fun engine ↦
    { engine with
      mutationResults := engine.mutationResults.insert key { operation, paymentId, entry } }

def payment (engine : PayEngine) (paymentId : String) : Except PayError PaymentIntent :=
  okOr engine.payments[paymentId]? (.paymentNotFound paymentId)

def ensureKey (key : String) : Except PayError Unit :=
  ensure (¬ Text.isBlank key) .missingStableId

def replayMutation (engine : PayEngine) (key : String) (operation : Operation)
    (paymentId : String) : Except PayError (Option PaymentLedgerEntry) :=
  match engine.mutationResults[key]? with
  | none => .ok none
  | some record =>
      if record.operation ≠ operation ∨ record.paymentId ≠ paymentId then
        .error (.idempotencyConflict key)
      else .ok (some record.entry)

/-! ## Creation and transitions -/

def createPayment (request : CreatePaymentIntent) : PayM PaymentIntent := do
  orThrow id request.validate
  let engine ← get
  match engine.paymentByIdempotency[request.idempotencyKey]? with
  | some paymentId =>
      let existing ← orThrow id (okOr engine.payments[paymentId]?
        (.corruptIdempotencyIndex request.idempotencyKey))
      orThrow id (ensure (existing.matchesCreate request)
        (.idempotencyConflict request.idempotencyKey))
      return existing
  | none =>
      let payment := request.toPayment sha256
      modify fun engine ↦ { engine with
        paymentByIdempotency :=
          engine.paymentByIdempotency.insert request.idempotencyKey payment.paymentId }
      insertPayment payment
      return payment

def transitionAllowed : PaymentStatus → PaymentStatus → Bool
  | .created, .requiresAction | .created, .processing | .created, .failed | .created, .cancelled
  | .requiresAction, .processing | .requiresAction, .failed | .requiresAction, .cancelled
  | .processing, .failed => true
  | _, _ => false

def transition (paymentId : String) (next : PaymentStatus) (nowMs : Int64) :
    PayM PaymentIntent := do
  let engine ← get
  let payment ← orThrow id (engine.payment paymentId)
  orThrow id (ensure (transitionAllowed payment.status next)
    (.invalidTransition payment.status next))
  let updated := { payment with status := next, updatedAtMs := nowMs }
  modify fun engine ↦ { engine with payments := engine.payments.insert paymentId updated }
  return updated

def markRequiresAction (paymentId : String) (nowMs : Int64) : PayM PaymentIntent :=
  transition paymentId .requiresAction nowMs

def markProcessing (paymentId : String) (nowMs : Int64) : PayM PaymentIntent :=
  transition paymentId .processing nowMs

def fail (paymentId : String) (nowMs : Int64) : PayM PaymentIntent :=
  transition paymentId .failed nowMs

def cancel (paymentId : String) (nowMs : Int64) : PayM PaymentIntent :=
  transition paymentId .cancelled nowMs

/-! ## Capture -/

def captureLines (payment : PaymentIntent) : List PaymentLedgerLine :=
  [line (providerAccount payment.amount.currency) payment.amount.currency (-payment.amount.amount),
    line (developerPending payment.developerId) payment.amount.currency payment.developerNet,
    line platformRevenue payment.amount.currency payment.platformFee]

def succeed (paymentId : String) (outcome : ProviderOutcome) : PayM PaymentMutation := do
  let engine ← get
  let payment ← orThrow id (engine.payment paymentId)
  if payment.status.hasSucceeded then
    orThrow id (ensure (payment.providerReference = some outcome.providerReference)
      .providerReferenceConflict)
    return { payment, ledgerEntry := none }
  else
    orThrow id (ensure (¬ payment.status.blocksFirstSuccess)
      (.invalidTransition payment.status .succeeded))
    orThrow id (ensure (¬ Text.isBlank outcome.providerReference) .missingStableId)
    let updated := { payment with
      status := .succeeded
      providerReference := some outcome.providerReference
      updatedAtMs := outcome.occurredAtMs }
    let entry ← orThrow id (balancedEntry sha256 "payment" payment.paymentId
      outcome.providerReference outcome.occurredAtMs (captureLines payment))
    insertPayment updated
    return { payment := updated, ledgerEntry := some entry }

/-! ## Refunds and releases -/

structure RefundSplit where
  newRefunded : Int64
  feeRefund : Int64
  developerRefund : Int64
  pendingDebit : Int64
  availableDebit : Int64

def refundSplit (payment : PaymentIntent) (amount : Int64) : RefundSplit :=
  let newRefunded := saturatingAdd payment.refundedAmount amount
  -- cumulative differences: a full refund reverses exactly the original fee
  let feeRefund := saturatingSub (payment.feeFor newRefunded) (payment.feeFor payment.refundedAmount)
  let developerRefund := saturatingSub amount feeRefund
  let pendingDebit := min developerRefund payment.pendingDeveloperAmount
  let availableDebit := saturatingSub developerRefund pendingDebit
  { newRefunded, feeRefund, developerRefund, pendingDebit, availableDebit }

def refundLines (payment : PaymentIntent) (amount : Int64) (split : RefundSplit) :
    List PaymentLedgerLine :=
  (if 0 < split.pendingDebit then
    [line (developerPending payment.developerId) payment.amount.currency (-split.pendingDebit)]
    else []) ++
  (if 0 < split.availableDebit then
    [line (developerAvailable payment.developerId) payment.amount.currency (-split.availableDebit)]
    else []) ++
  (if 0 < split.feeRefund then
    [line platformRevenue payment.amount.currency (-split.feeRefund)] else []) ++
  [line (providerAccount payment.amount.currency) payment.amount.currency amount]

def isRefundable : PaymentStatus → Bool
  | .succeeded | .partiallyRefunded => true
  | _ => false

def refundedPayment (payment : PaymentIntent) (split : RefundSplit) (occurredAtMs : Int64) :
    PaymentIntent :=
  { payment with
    refundedAmount := split.newRefunded
    releasedDeveloperAmount :=
      saturatingSub payment.releasedDeveloperAmount split.availableDebit
    status := if split.newRefunded = payment.amount.amount then .refunded else .partiallyRefunded
    updatedAtMs := occurredAtMs }

def refundNew (request : RefundRequest) : PayM PaymentMutation := do
  let engine ← get
  orThrow id (ensure (¬ request.amount ≤ 0) (.invalidAmount request.amount))
  let payment ← orThrow id (engine.payment request.paymentId)
  orThrow id (ensure (isRefundable payment.status) (.refundNotAllowed payment.status))
  orThrow id (ensure (¬ payment.refundableAmount < request.amount)
    (.refundExceedsPayment request.amount payment.refundableAmount))
  let split := refundSplit payment request.amount
  orThrow id (ensure (¬ payment.releasedDeveloperAmount < split.availableDebit)
    .refundAccountingInvariant)
  let entry ← orThrow id (balancedEntry sha256 "refund" payment.paymentId request.idempotencyKey
    request.occurredAtMs (refundLines payment request.amount split))
  let updated := refundedPayment payment split request.occurredAtMs
  insertPayment updated
  recordMutation request.idempotencyKey .refund payment.paymentId entry
  return { payment := updated, ledgerEntry := some entry }

def refund (request : RefundRequest) : PayM PaymentMutation := do
  orThrow id (ensureKey request.idempotencyKey)
  let engine ← get
  match ← orThrow id (engine.replayMutation request.idempotencyKey .refund request.paymentId) with
  | some entry =>
      let payment ← orThrow id (engine.payment request.paymentId)
      return { payment, ledgerEntry := some entry }
  | none => refundNew sha256 request

def releaseLines (payment : PaymentIntent) (releasable : Int64) : List PaymentLedgerLine :=
  [line (developerPending payment.developerId) payment.amount.currency (-releasable),
    line (developerAvailable payment.developerId) payment.amount.currency releasable]

def releasedPayment (payment : PaymentIntent) (releasable occurredAtMs : Int64) : PaymentIntent :=
  { payment with
    releasedDeveloperAmount := saturatingAdd payment.releasedDeveloperAmount releasable
    updatedAtMs := occurredAtMs }

def releaseNew (request : SettlementRelease) : PayM PaymentLedgerEntry := do
  let engine ← get
  let payment ← orThrow id (engine.payment request.paymentId)
  orThrow id (ensure (isRefundable payment.status) (.settlementNotAllowed payment.status))
  let releasable := payment.pendingDeveloperAmount
  orThrow id (ensure (¬ releasable ≤ 0) .nothingToSettle)
  let entry ← orThrow id (balancedEntry sha256 "settlement-release" payment.paymentId
    request.idempotencyKey request.occurredAtMs (releaseLines payment releasable))
  insertPayment (releasedPayment payment releasable request.occurredAtMs)
  recordMutation request.idempotencyKey .settlementRelease payment.paymentId entry
  return entry

def releaseSettlement (request : SettlementRelease) : PayM PaymentLedgerEntry := do
  orThrow id (ensureKey request.idempotencyKey)
  let engine ← get
  match ← orThrow id (engine.replayMutation request.idempotencyKey .settlementRelease
      request.paymentId) with
  | some entry => return entry
  | none => releaseNew sha256 request

end PayEngine

end Fabushi.Pay
