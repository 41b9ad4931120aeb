import Fabushi.Worker.Payments

/-!
# Bean purchases

The batch of `commerce_purchase` on the tables that payments share with it. A purchase
carries the identifiers it generates and the price the catalogue answers with.
-/

namespace Fabushi.Worker

open Result

structure PriceRow where
  productId : String
  priceId : String
  pluginId : String
  sku : String
  capability : String
  currency : String
  amount : ℤ
  positive : 0 < amount := by decide
  deriving DecidableEq, Repr

structure Purchase where
  userId : String
  idempotencyKey : String
  price : PriceRow
  orderId : String
  entryId : String
  entitlementId : String
  deriving DecidableEq, Repr

namespace Purchase

def userAccount (c : Purchase) : String :=
  "user:" ++ c.userId ++ ":" ++ c.price.currency

def platformAccount (c : Purchase) : String :=
  "platform:content:" ++ c.price.currency

def order (c : Purchase) : OrderRow where
  orderId := c.orderId
  buyerUserId := c.userId
  pluginId := c.price.pluginId
  productId := c.price.productId
  priceId := c.price.priceId
  sku := c.price.sku
  currency := c.price.currency
  amount := c.price.amount
  status := .pending
  idempotencyKey := c.idempotencyKey

def lines (c : Purchase) (entryId : EntryId) : List JournalLineRow :=
  [⟨entryId, "user", c.userAccount, c.price.currency, -c.price.amount⟩,
    ⟨entryId, "platform", c.platformAccount, c.price.currency, c.price.amount⟩]

def entitlement (c : Purchase) (o : OrderRow) : EntitlementRow where
  entitlementId := c.entitlementId
  userId := c.userId
  pluginId := o.pluginId
  productId := o.productId
  orderId := o.orderId
  capability := c.price.capability
  status := .active

end Purchase

namespace PaymentDb

/-! ## Reads -/

def orderByIdempotency (db : PaymentDb) (userId key : String) : Option OrderRow :=
  db.orders.find? fun o ↦ o.buyerUserId = userId && o.idempotencyKey = key

def entitlementForOrder (db : PaymentDb) (orderId : String) : Option EntitlementRow :=
  db.entitlements.find? fun e ↦ e.orderId = orderId && e.status = .active

/-! ## The batch -/

def draftOfOrder (j : Journal) (orderId : String) : Option JournalEntryRow :=
  j.entries.find? fun e ↦ e.referenceType = "order" && e.referenceId = orderId && e.state = .draft

def bookOrder (c : Purchase) (o : OrderRow) (j : Journal) : Except SqlError Journal :=
  let j := j.draftEntry (.order c.entryId) "order" o.orderId
  match draftOfOrder j o.orderId with
  | some e => j.postLines e.entryId (c.lines e.entryId)
  | none => .ok j

def orderPosted (j : Journal) (orderId : String) : Bool :=
  j.entries.any fun e ↦
    e.referenceType = "order" && e.referenceId = orderId && e.state = .posted

def grantOrder (c : Purchase) (o : OrderRow) (db : PaymentDb) : Except SqlError PaymentDb :=
  if orderPosted db.journal o.orderId then db.insertEntitlement (c.entitlement o) else .ok db

def fulfilOrder (c : Purchase) (o : OrderRow) (db : PaymentDb) : Except SqlError PaymentDb := do
  let journal ← bookOrder c o db.journal
  let db ← { db with journal }.grantOrder c o
  let granted := db.entitlements.any fun e ↦ e.orderId = o.orderId && e.status = .active
  return db.updateOrders (fun o' ↦ o'.orderId = o.orderId && o'.status = .pending && granted)
    .fulfilled

def createOrder (c : Purchase) (db : PaymentDb) : Except SqlError PaymentDb :=
  if c.price.amount ≤ db.journal.walletBalance c.userAccount then db.insertOrder c.order else .ok db

def fulfilFound (c : Purchase) (db : PaymentDb) : Except SqlError PaymentDb :=
  match db.orderByIdempotency c.userId c.idempotencyKey with
  | some o => db.fulfilOrder c o
  | none => .ok db

def purchase (c : Purchase) (db : PaymentDb) : Except SqlError (PaymentDb × Unit) := do
  let journal := (db.journal.walletAccount c.userAccount "user" c.userId
    c.price.currency).walletAccount c.platformAccount "platform" "digital-content" c.price.currency
  let db ← { db with journal }.createOrder c
  let db ← db.fulfilFound c
  return (db, ())

end PaymentDb

end Fabushi.Worker
