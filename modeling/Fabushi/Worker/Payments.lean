import Fabushi.Worker.Ledger

/-!
# Payments and orders

The tables of `payment_api.rs` and the batches that capture, end, refund and release
payments. A batch takes the row that its handler has read before. Products and prices
are never deleted, so references to them always hold.
-/

namespace Fabushi.Worker

open Result

inductive PaymentStatus where
  | created | requiresAction | processing | succeeded | failed | cancelled | partiallyRefunded
  | refunded
  deriving DecidableEq, Repr

inductive Rail where
  | credits | appleInAppPurchase | googlePlayBilling | webProvider | merchantProvider
  deriving DecidableEq, Repr

structure PaymentRow where
  paymentId : String
  idempotencyKey : String
  userId : String
  miniAppId : String
  developerId : String
  productId : String
  priceId : String
  entitlementCapability : String
  sku : String
  rail : Rail
  currency : String
  amount : ℤ
  platformFeeBps : ℤ
  status : PaymentStatus
  providerReference : Option String
  refundedAmount : ℤ
  releasedDeveloperAmount : ℤ
  createdAt : ℤ
  deriving DecidableEq, Repr

inductive OrderStatus where
  | pending | paid | fulfilled | failed | refunded
  deriving DecidableEq, Repr

structure OrderRow where
  orderId : String
  buyerUserId : String
  pluginId : String
  productId : String
  priceId : String
  sku : String
  currency : String
  amount : ℤ
  status : OrderStatus
  idempotencyKey : String
  deriving DecidableEq, Repr

inductive EntitlementStatus where
  | active | revoked | expired
  deriving DecidableEq, Repr

structure EntitlementRow where
  entitlementId : String
  userId : String
  pluginId : String
  productId : String
  orderId : String
  capability : String
  status : EntitlementStatus
  deriving DecidableEq, Repr

structure RefundRow where
  refundId : String
  paymentId : String
  idempotencyKey : String
  providerRefundId : String
  currency : String
  amount : ℤ
  deriving DecidableEq, Repr

structure ReleaseRow where
  releaseId : String
  paymentId : String
  idempotencyKey : String
  amount : ℤ
  deriving DecidableEq, Repr

inductive DisputeStatus where
  | open | won | lost
  deriving DecidableEq, Repr

structure DisputeRow where
  disputeId : String
  paymentId : String
  provider : String
  providerReference : String
  currency : String
  amount : ℤ
  status : DisputeStatus
  deriving DecidableEq, Repr

inductive ReconciliationStatus where
  | reconciled | released | reversed
  deriving DecidableEq, Repr

structure ReconciliationRow where
  reconciliationId : String
  paymentId : String
  idempotencyKey : String
  developerId : String
  regionCode : String
  settlementSource : String
  currency : String
  grossAmount : ℤ
  taxAmount : ℤ
  providerFeeAmount : ℤ
  refundAmount : ℤ
  chargebackAmount : ℤ
  netReceipts : ℤ
  platformFeeBps : ℤ
  platformFeeAmount : ℤ
  reserveBps : ℤ
  reserveAmount : ℤ
  reserveReleaseAfter : ℤ
  reserveReleasedAt : Option ℤ
  developerPayableAmount : ℤ
  providerSettlementReference : Option String
  status : ReconciliationStatus
  createdAt : ℤ
  deriving DecidableEq, Repr

structure PaymentDb where
  journal : Journal := {}
  payments : List PaymentRow := []
  orders : List OrderRow := []
  entitlements : List EntitlementRow := []
  refunds : List RefundRow := []
  releases : List ReleaseRow := []
  disputes : List DisputeRow := []
  reconciliations : List ReconciliationRow := []
  deriving DecidableEq, Repr

/-! ## Amounts -/

def i64Max : ℤ := 9223372036854775807

def saturate (x : ℤ) : ℤ :=
  max (-i64Max - 1) (min x i64Max)

def basisPoints (bps : ℤ) : ℤ :=
  if 0 ≤ bps ∧ bps ≤ 65535 then bps else 10000

/-- `i128` division truncates, and a result outside `i64` becomes the largest one. -/
def proportional (amount bps : ℤ) : ℤ :=
  let value := Int.tdiv (amount * bps) 10000
  if -i64Max - 1 ≤ value ∧ value ≤ i64Max then value else i64Max

def isOpenPayment (status : PaymentStatus) : Bool :=
  status = .created || status = .requiresAction || status = .processing

def isCaptured (status : PaymentStatus) : Bool :=
  status = .succeeded || status = .partiallyRefunded || status = .refunded

def creditsCurrency : String := "FBC"

namespace PaymentRow

def platformFee (p : PaymentRow) (gross : ℤ) : ℤ :=
  proportional gross (basisPoints p.platformFeeBps)

def developerNetAfterRefunds (p : PaymentRow) : ℤ :=
  saturate (saturate (p.amount - p.platformFee p.amount) -
    saturate (p.refundedAmount - p.platformFee p.refundedAmount))

/-! ## Accounts -/

def userAccount (p : PaymentRow) : String :=
  "user:" ++ p.userId ++ ":" ++ p.currency

def clearingAccount (p : PaymentRow) (provider : String) : String :=
  "provider-clearing:" ++ provider ++ ":" ++ p.currency

def pendingAccount (p : PaymentRow) : String :=
  developerPendingAccount p.developerId p.currency

def availableAccount (p : PaymentRow) : String :=
  developerAvailableAccount p.developerId p.currency

def platformAccount (p : PaymentRow) : String :=
  "platform:payment-revenue:" ++ p.currency

def sourceAccount (p : PaymentRow) (provider : String) (user : Bool) : String :=
  if user then p.userAccount else p.clearingAccount provider

def openSource (p : PaymentRow) (provider : String) (user : Bool) (j : Journal) : Journal :=
  if user then j.walletAccount p.userAccount "user" p.userId p.currency
  else j.walletAccount (p.clearingAccount provider) "platform" ("provider-clearing:" ++ provider)
    p.currency

def openPending (p : PaymentRow) (j : Journal) : Journal :=
  j.walletAccount p.pendingAccount "developer" (p.developerId ++ ":pending") p.currency

def openAvailable (p : PaymentRow) (j : Journal) : Journal :=
  j.walletAccount p.availableAccount "developer" (p.developerId ++ ":available") p.currency

def openPlatform (p : PaymentRow) (j : Journal) : Journal :=
  j.walletAccount p.platformAccount "platform" "payment-revenue" p.currency

def line (p : PaymentRow) (entryId : EntryId) (tag accountId : String) (amount : ℤ) :
    JournalLineRow :=
  { entryId, tag, accountId, currency := p.currency, amount }

def lineIfPositive (p : PaymentRow) (entryId : EntryId) (tag accountId : String)
    (sign amount : ℤ) : List JournalLineRow :=
  if 0 < amount then [p.line entryId tag accountId (sign * amount)] else []

/-! ## What a capture books -/

def captureLines (p : PaymentRow) (provider : String) (debitUser : Bool) : List JournalLineRow :=
  let fee := p.platformFee p.amount
  let developerNet := saturate (p.amount - fee)
  let entry := EntryId.capture p.paymentId
  [p.line entry "source" (p.sourceAccount provider debitUser) (-p.amount)] ++
    p.lineIfPositive entry "developer" p.pendingAccount 1 developerNet ++
    p.lineIfPositive entry "platform" p.platformAccount 1 fee

def order (p : PaymentRow) : OrderRow where
  orderId := p.paymentId
  buyerUserId := p.userId
  pluginId := p.miniAppId
  productId := p.productId
  priceId := p.priceId
  sku := p.sku
  currency := p.currency
  amount := p.amount
  status := .pending
  idempotencyKey := p.idempotencyKey

def entitlement (p : PaymentRow) : EntitlementRow where
  entitlementId := "payment-entitlement:" ++ p.paymentId
  userId := p.userId
  pluginId := p.miniAppId
  productId := p.productId
  orderId := p.paymentId
  capability := p.entitlementCapability
  status := .active

/-! ## What a refund books -/

def newRefunded (p : PaymentRow) (amount : ℤ) : ℤ :=
  saturate (p.refundedAmount + amount)

def feeRefund (p : PaymentRow) (amount : ℤ) : ℤ :=
  saturate (p.platformFee (p.newRefunded amount) - p.platformFee p.refundedAmount)

def developerRefund (p : PaymentRow) (amount : ℤ) : ℤ :=
  saturate (amount - p.feeRefund amount)

def pendingBefore (p : PaymentRow) : ℤ :=
  max (saturate (p.developerNetAfterRefunds - p.releasedDeveloperAmount)) 0

def pendingDebit (p : PaymentRow) (amount : ℤ) : ℤ :=
  min (p.developerRefund amount) p.pendingBefore

def availableDebit (p : PaymentRow) (amount : ℤ) : ℤ :=
  saturate (p.developerRefund amount - p.pendingDebit amount)

def refundLines (p : PaymentRow) (provider refundId : String) (amount : ℤ) :
    List JournalLineRow :=
  let entry := EntryId.refund refundId
  p.lineIfPositive entry "pending" p.pendingAccount (-1) (p.pendingDebit amount) ++
    p.lineIfPositive entry "available" p.availableAccount (-1) (p.availableDebit amount) ++
    p.lineIfPositive entry "platform" p.platformAccount (-1) (p.feeRefund amount) ++
    [p.line entry "source" (p.sourceAccount provider (p.rail = .credits)) amount]

/-! ## What a release books -/

def releaseAmount (p : PaymentRow) (reserveBps : ℤ) : ℤ :=
  saturate (proportional p.developerNetAfterRefunds (10000 - reserveBps) -
    p.releasedDeveloperAmount)

def releaseLines (p : PaymentRow) (releaseId : String) (amount : ℤ) : List JournalLineRow :=
  let entry := EntryId.settlement releaseId
  [p.line entry "pending" p.pendingAccount (-amount),
    p.line entry "available" p.availableAccount amount]

def check (p : PaymentRow) : Bool :=
  0 ≤ p.refundedAmount && 0 ≤ p.releasedDeveloperAmount && p.refundedAmount ≤ p.amount

def sharesReference (p q : PaymentRow) : Bool :=
  p.paymentId ≠ q.paymentId && p.rail = q.rail && p.providerReference.isSome &&
    p.providerReference = q.providerReference

end PaymentRow

def EntitlementRow.conflicts (old new : EntitlementRow) : Bool :=
  old.entitlementId = new.entitlementId ||
    (old.orderId = new.orderId && old.capability = new.capability)

def RefundRow.conflicts (old new : RefundRow) : Bool :=
  old.refundId = new.refundId || old.idempotencyKey = new.idempotencyKey ||
    old.providerRefundId = new.providerRefundId

def ReleaseRow.conflicts (old new : ReleaseRow) : Bool :=
  old.releaseId = new.releaseId || old.idempotencyKey = new.idempotencyKey

namespace PaymentDb

/-! ## Reads -/

def paymentById (db : PaymentDb) (paymentId : String) : Option PaymentRow :=
  db.payments.find? fun p ↦ p.paymentId = paymentId

def hasOrder (db : PaymentDb) (orderId : String) : Bool :=
  db.orders.any fun o ↦ o.orderId = orderId

/-! ## Statements -/

/-- `INSERT INTO orders … ON CONFLICT(buyer_user_id, idempotency_key) DO NOTHING`. -/
def insertOrder (o : OrderRow) (db : PaymentDb) : Except SqlError PaymentDb :=
  if db.orders.any fun old ↦ old.buyerUserId = o.buyerUserId &&
      old.idempotencyKey = o.idempotencyKey then .ok db
  else do
    ensure (¬ db.hasOrder o.orderId) (.unique "orders")
    ensure (0 < o.amount) (.check "orders")
    return { db with orders := db.orders ++ [o] }

def updatePayments (selects : PaymentRow → Bool) (set : PaymentRow → PaymentRow)
    (db : PaymentDb) : Except SqlError PaymentDb := do
  let payments ← updateChecked "payment_intents" PaymentRow.check selects set db.payments
  return { db with payments }

def ensureReferences (db : PaymentDb) : Except SqlError Unit :=
  ensure (db.payments.all fun p ↦ db.payments.all fun q ↦ !p.sharesReference q)
    (.unique "payment_intents")

def updateOrders (selects : OrderRow → Bool) (status : OrderStatus) (db : PaymentDb) : PaymentDb :=
  { db with orders := Table.update selects (fun o ↦ { o with status }) db.orders }

def revokeEntitlements (orderId : String) (db : PaymentDb) : PaymentDb :=
  let selects (e : EntitlementRow) : Bool := e.orderId = orderId && e.status = .active
  let revoke (e : EntitlementRow) : EntitlementRow := { e with status := .revoked }
  { db with entitlements := Table.update selects revoke db.entitlements }

/-- `INSERT OR IGNORE INTO entitlements`; the order of an inserted one has to exist. -/
def insertEntitlement (e : EntitlementRow) (db : PaymentDb) : Except SqlError PaymentDb :=
  if db.entitlements.any fun old ↦ old.conflicts e then .ok db
  else do
    ensure (db.hasOrder e.orderId) (.foreignKey "entitlements")
    return { db with entitlements := db.entitlements ++ [e] }

/-! ## Batches -/

/-- The order of a capture, if the payment still is open and, for credits, covered. -/
def orderOfPayment (p : PaymentRow) (provider : String) (debitUser : Bool) (db : PaymentDb) :
    Except SqlError PaymentDb :=
  if (db.payments.any fun q ↦ q.paymentId = p.paymentId && isOpenPayment q.status) &&
      (!debitUser ||
        p.amount ≤ db.journal.walletBalance (p.sourceAccount provider debitUser)) then
    db.insertOrder p.order
  else .ok db

def succeed (p : PaymentRow) (reference : String) (db : PaymentDb) :
    Except SqlError PaymentDb := do
  let posted := db.journal.isPosted (.capture p.paymentId)
  let db ← db.updatePayments
    (fun q ↦ q.paymentId = p.paymentId && isOpenPayment q.status && posted)
    (fun q ↦ { q with status := .succeeded, providerReference := some reference })
  db.ensureReferences
  let succeeded := db.payments.any fun q ↦ q.paymentId = p.paymentId && q.status = .succeeded
  let db := db.updateOrders (fun o ↦ o.orderId = p.paymentId && succeeded) .fulfilled
  if succeeded then db.insertEntitlement p.entitlement else return db

def postSuccess (p : PaymentRow) (provider reference : String) (debitUser : Bool)
    (db : PaymentDb) : Except SqlError (PaymentDb × Unit) := do
  let journal := p.openPlatform (p.openPending (p.openSource provider debitUser db.journal))
  let db ← { db with journal }.orderOfPayment p provider debitUser
  let journal ← db.journal.book (db.hasOrder p.paymentId) (.capture p.paymentId) "payment"
    p.paymentId (p.captureLines provider debitUser)
  let db ← { db with journal }.succeed p reference
  return (db, ())

def endPayment (paymentId : String) (status : PaymentStatus) (reference : Option String)
    (db : PaymentDb) : Except SqlError (PaymentDb × Unit) := do
  let db ← db.updatePayments (fun q ↦ q.paymentId = paymentId && isOpenPayment q.status)
    (fun q ↦ { q with status, providerReference := reference.orElse fun _ ↦ q.providerReference })
  db.ensureReferences
  return (db, ())

/-- A full refund takes the order and its entitlements back, whether it was booked or not. -/
def takeBack (p : PaymentRow) (full : Bool) (db : PaymentDb) : PaymentDb :=
  if full then
    (db.revokeEntitlements p.paymentId).updateOrders (fun o ↦ o.orderId = p.paymentId) .refunded
  else db

def insertRefund (p : PaymentRow) (reference eventId refundId : String) (amount : ℤ)
    (db : PaymentDb) : PaymentDb :=
  let row : RefundRow := {
    refundId
    paymentId := p.paymentId
    idempotencyKey := eventId
    providerRefundId := reference
    currency := p.currency
    amount }
  { db with refunds := Table.insertOrIgnore RefundRow.conflicts row db.refunds }

def hasRefund (db : PaymentDb) (refundId : String) : Bool :=
  db.refunds.any fun r ↦ r.refundId = refundId

def applyRefund (p : PaymentRow) (provider reference eventId refundId : String) (amount : ℤ)
    (db : PaymentDb) : Except SqlError (PaymentDb × Unit) := do
  let journal := p.openPlatform (p.openAvailable (p.openPending
    (p.openSource provider (p.rail = .credits) db.journal)))
  let db := { db with journal }.insertRefund p reference eventId refundId amount
  let journal ← db.journal.book (db.hasRefund refundId) (.refund refundId) "payment_refund"
    refundId (p.refundLines provider refundId amount)
  let posted := journal.isPosted (.refund refundId)
  let full : Bool := p.newRefunded amount = p.amount
  let db ← { db with journal }.updatePayments (fun q ↦ q.paymentId = p.paymentId && posted)
    (fun q ↦ { q with
      refundedAmount := p.newRefunded amount
      releasedDeveloperAmount := q.releasedDeveloperAmount - p.availableDebit amount
      status := if full then .refunded else .partiallyRefunded })
  return (db.takeBack p full, ())

def hasRelease (db : PaymentDb) (releaseId : String) : Bool :=
  db.releases.any fun r ↦ r.releaseId = releaseId

def releaseSettlement (p : PaymentRow) (idempotencyKey releaseId : String) (amount : ℤ)
    (db : PaymentDb) : Except SqlError (PaymentDb × Unit) := do
  let journal := p.openAvailable (p.openPending db.journal)
  let row : ReleaseRow := { releaseId, paymentId := p.paymentId, idempotencyKey, amount }
  let releases := Table.insertOrIgnore ReleaseRow.conflicts row db.releases
  let db := { db with journal, releases }
  let journal ← db.journal.book (db.hasRelease releaseId) (.settlement releaseId)
    "settlement_release" releaseId (p.releaseLines releaseId amount)
  let posted := journal.isPosted (.settlement releaseId)
  let db ← { db with journal }.updatePayments (fun q ↦ q.paymentId = p.paymentId && posted)
    (fun q ↦ { q with releasedDeveloperAmount := q.releasedDeveloperAmount + amount })
  return (db, ())

end PaymentDb

end Fabushi.Worker
