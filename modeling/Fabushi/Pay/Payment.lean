import Fabushi.Library.Bytes
import Fabushi.Library.MachineInt
import Fabushi.Library.OrderedMap
import Fabushi.Library.Proportion
import Fabushi.Library.Result

/-!
# Payments and balanced ledger entries

The records of the payment core (`payment.rs` of the platform core), the fee
arithmetic of a payment and the validation of ledger entries.
-/

namespace Fabushi.Pay

open MachineInt Result

structure Money where
  currency : String
  amount : Int64
  deriving DecidableEq, Repr

inductive ProductKind where
  | digitalConsumable | digitalDurable | subscription | physical | service
  deriving DecidableEq, Repr

inductive PaymentRail where
  | credits | appleInAppPurchase | googlePlayBilling | webProvider | merchantProvider
  deriving DecidableEq, Repr

inductive PaymentStatus where
  | created | requiresAction | processing | succeeded | failed | cancelled | partiallyRefunded
  | refunded
  deriving DecidableEq, Repr

def PaymentStatus.blocksFirstSuccess : PaymentStatus → Bool
  | .failed | .cancelled => true
  | _ => false

def PaymentStatus.hasSucceeded : PaymentStatus → Bool
  | .succeeded | .partiallyRefunded | .refunded => true
  | _ => false

inductive PayError where
  | invalidAmount (amount : Int64)
  | missingStableId
  | invalidFeeBps (bps : UInt16)
  | notEnoughLedgerLines
  | zeroLedgerLine
  | unbalancedLedger (currency : String) (amount : ℤ)
  | paymentNotFound (paymentId : String)
  | invalidTransition (source target : PaymentStatus)
  | providerReferenceConflict
  | idempotencyConflict (key : String)
  | refundNotAllowed (status : PaymentStatus)
  | refundExceedsPayment (requested remaining : Int64)
  | refundAccountingInvariant
  | settlementNotAllowed (status : PaymentStatus)
  | nothingToSettle
  | corruptIdempotencyIndex (key : String)
  deriving DecidableEq, Repr

/-! ## Ledger entries -/

structure PaymentLedgerLine where
  accountId : String
  currency : String
  amount : Int64
  deriving DecidableEq, Repr

structure PaymentLedgerEntry where
  entryId : String
  referenceType : String
  referenceId : String
  createdAtMs : Int64
  lines : List PaymentLedgerLine
  deriving DecidableEq, Repr

def sumLines : List PaymentLedgerLine → BTreeMap String ℤ → Except PayError (BTreeMap String ℤ)
  | [], totals => .ok totals
  | line :: lines, totals =>
      if line.amount = 0 then .error .zeroLedgerLine
      else sumLines lines
        (BTreeMap.upsert totals line.currency 0 fun total ↦ total + line.amount.toInt)

def PaymentLedgerEntry.validate (entry : PaymentLedgerEntry) : Except PayError Unit := do
  ensure (¬ entry.lines.length < 2) .notEnoughLedgerLines
  let totals ← sumLines entry.lines ∅
  match totals.toList.find? fun total ↦ total.2 ≠ 0 with
  | some (currency, amount) => .error (.unbalancedLedger currency amount)
  | none => .ok ()

def line (accountId currency : String) (amount : Int64) : PaymentLedgerLine :=
  { accountId, currency, amount }

def providerAccount (currency : String) : String :=
  "provider-clearing:" ++ currency

def developerPending (developerId : String) : String :=
  "developer-pending:" ++ developerId

def developerAvailable (developerId : String) : String :=
  "developer-available:" ++ developerId

def platformRevenue : String :=
  "platform-revenue"

/-! ## Payments -/

structure CreatePaymentIntent where
  idempotencyKey : String
  userId : String
  miniAppId : String
  developerId : String
  sku : String
  productKind : ProductKind
  rail : PaymentRail
  amount : Money
  platformFeeBps : UInt16
  createdAtMs : Int64
  deriving DecidableEq, Repr

def CreatePaymentIntent.validate (request : CreatePaymentIntent) : Except PayError Unit := do
  ensure (¬ [request.idempotencyKey, request.userId, request.miniAppId, request.developerId,
    request.sku].any Text.isBlank) .missingStableId
  ensure (¬ request.amount.amount ≤ 0) (.invalidAmount request.amount.amount)
  ensure (¬ 10000 < request.platformFeeBps) (.invalidFeeBps request.platformFeeBps)

structure PaymentIntent where
  paymentId : String
  idempotencyKey : String
  userId : String
  miniAppId : String
  developerId : String
  sku : String
  productKind : ProductKind
  rail : PaymentRail
  amount : Money
  platformFeeBps : UInt16
  status : PaymentStatus
  providerReference : Option String
  refundedAmount : Int64
  releasedDeveloperAmount : Int64
  createdAtMs : Int64
  updatedAtMs : Int64
  deriving DecidableEq, Repr

def proportional (amount : Int64) (bps : UInt16) : Int64 :=
  (tryFrom ((amount.toInt * bps.toNat).tdiv 10000)).getD Int64.maxValue

namespace PaymentIntent

def feeFor (payment : PaymentIntent) (gross : Int64) : Int64 :=
  proportional gross payment.platformFeeBps

def platformFee (payment : PaymentIntent) : Int64 :=
  payment.feeFor payment.amount.amount

def developerNet (payment : PaymentIntent) : Int64 :=
  saturatingSub payment.amount.amount payment.platformFee

def refundableAmount (payment : PaymentIntent) : Int64 :=
  saturatingSub payment.amount.amount payment.refundedAmount

def refundedDeveloperNet (payment : PaymentIntent) : Int64 :=
  saturatingSub payment.refundedAmount (payment.feeFor payment.refundedAmount)

def developerNetAfterRefunds (payment : PaymentIntent) : Int64 :=
  saturatingSub payment.developerNet payment.refundedDeveloperNet

def pendingDeveloperAmount (payment : PaymentIntent) : Int64 :=
  saturatingSub payment.developerNetAfterRefunds payment.releasedDeveloperAmount

def matchesCreate (payment : PaymentIntent) (request : CreatePaymentIntent) : Bool :=
  payment.userId = request.userId && payment.miniAppId = request.miniAppId &&
    payment.developerId = request.developerId && payment.sku = request.sku &&
    payment.productKind = request.productKind && payment.rail = request.rail &&
    payment.amount = request.amount && payment.platformFeeBps = request.platformFeeBps

end PaymentIntent

/-! ## Stable identifiers -/

def stableId (sha256 : List UInt8 → List UInt8) (parts : List String) : String :=
  Bytes.encodeHex (sha256 (Bytes.lengthPrefixed parts))

def balancedEntry (sha256 : List UInt8 → List UInt8) (referenceType referenceId eventKey : String)
    (createdAtMs : Int64) (lines : List PaymentLedgerLine) :
    Except PayError PaymentLedgerEntry := do
  let entry : PaymentLedgerEntry :=
    { entryId := stableId sha256 ["ledger", referenceType, referenceId, eventKey]
      referenceType, referenceId, createdAtMs
      lines := lines.filter fun line ↦ line.amount ≠ 0 }
  entry.validate
  return entry

end Fabushi.Pay
