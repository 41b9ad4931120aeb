import Fabushi.Library.MachineInt
import Fabushi.Worker.Ledger

/-!
# Developer payouts

The handlers of `payment_api.rs`, `payout_orchestration.rs` and `payout_finalize.rs`
that reserve, dispatch, pay and reverse developer payouts, as programs over the payout
tables and the journal. A call carries what it reads besides the tables: the time, the
generated identifiers, the configuration and the answer of the provider.
-/

namespace Fabushi.Worker

open Interleaving Result

inductive PayoutStatus where
  | created | requiresIdentity | pending | processing | paid | failed | cancelled
  deriving DecidableEq, Repr

structure PayoutRow where
  payoutId : String
  idempotencyKey : String
  developerId : String
  payoutAccountId : String
  currency : String
  amount : ℤ
  status : PayoutStatus
  deriving DecidableEq, Repr

inductive AttemptState where
  | created | configurationRequired | submitted | processing | paid | failed | cancelled
  deriving DecidableEq, Repr

structure PayoutAttemptRow where
  attemptId : String
  payoutId : String
  provider : String
  idempotencyKey : String
  state : AttemptState
  createdAt : ℤ
  deriving DecidableEq, Repr

/-- A row of `developer_payout_accounts`; the two JSON columns as they parse. -/
structure PayoutAccountRow where
  payoutAccountId : String
  developerId : String
  provider : String
  countryCode : String
  state : String
  onboardingState : String
  kycStatus : String
  payoutsEnabled : ℤ
  currencies : Option (List String)
  purposes : Option (List String)
  deriving DecidableEq, Repr

structure PayoutRouteRow where
  regionCode : String
  purpose : String
  provider : String
  state : String
  deriving DecidableEq, Repr

structure PayoutDb where
  journal : Journal := {}
  payouts : List PayoutRow := []
  attempts : List PayoutAttemptRow := []
  payoutAccounts : List PayoutAccountRow := []
  routes : List PayoutRouteRow := []
  deriving DecidableEq, Repr

/-! ## Accounts and lines -/

def payoutClearingAccount (payoutAccountId currency : String) : String :=
  "payout-clearing:" ++ payoutAccountId ++ ":" ++ currency

def externalPayoutAccount (provider currency : String) : String :=
  "external-payout:" ++ provider ++ ":" ++ currency

namespace PayoutRow

def availableAccount (p : PayoutRow) : String :=
  developerAvailableAccount p.developerId p.currency

def clearingAccount (p : PayoutRow) : String :=
  payoutClearingAccount p.payoutAccountId p.currency

def line (p : PayoutRow) (entryId : EntryId) (tag accountId : String) (amount : ℤ) :
    JournalLineRow :=
  { entryId, tag, accountId, currency := p.currency, amount }

def reservationLines (p : PayoutRow) : List JournalLineRow :=
  [p.line (.payout p.payoutId) "developer" p.availableAccount (-p.amount),
    p.line (.payout p.payoutId) "clearing" p.clearingAccount p.amount]

def paidLines (p : PayoutRow) (provider : String) : List JournalLineRow :=
  [p.line (.payoutPaid p.payoutId) "clearing" p.clearingAccount (-p.amount),
    p.line (.payoutPaid p.payoutId) "external" (externalPayoutAccount provider p.currency)
      p.amount]

def reversalLines (p : PayoutRow) : List JournalLineRow :=
  [p.line (.payoutReversal p.payoutId) "clearing" p.clearingAccount (-p.amount),
    p.line (.payoutReversal p.payoutId) "developer" p.availableAccount p.amount]

end PayoutRow

def isOpen (status : PayoutStatus) : Bool :=
  status = .pending || status = .processing

def payoutProviders : List String :=
  ["stripe_connect", "adyen_platform", "paypal_multiparty", "paypal_payouts", "wechat_platform",
    "alipay_platform", "lianlian_account_plus", "huifu_dougong"]

namespace PayoutDb

/-! ## Reads -/

def payoutByIdempotency (db : PayoutDb) (key : String) : Option PayoutRow :=
  db.payouts.find? fun p ↦ p.idempotencyKey = key

def payoutById (db : PayoutDb) (payoutId : String) : Option PayoutRow :=
  db.payouts.find? fun p ↦ p.payoutId = payoutId

def payoutWithProvider (db : PayoutDb) (payoutId : String) : Option (PayoutRow × String) := do
  let p ← db.payoutById payoutId
  let a ← db.payoutAccounts.find? fun a ↦ a.payoutAccountId = p.payoutAccountId
  return (p, a.provider)

def payoutAccount (db : PayoutDb) (payoutAccountId developerId : String) :
    Option PayoutAccountRow :=
  db.payoutAccounts.find? fun a ↦
    a.payoutAccountId = payoutAccountId && a.developerId = developerId

def activeRoute (db : PayoutDb) (regionCode provider : String) : Bool :=
  db.routes.any fun r ↦ r.regionCode = regionCode && r.purpose = "marketplace_payout" &&
    r.provider = provider && r.state = "active"

def latestAttempt (db : PayoutDb) (payoutId : String) : Option PayoutAttemptRow :=
  (db.attempts.filter fun a ↦ a.payoutId = payoutId).foldl (fun latest a ↦
    match latest with
    | some b => if b.createdAt < a.createdAt then some a else some b
    | none => some a) none

/-! ## Batches -/

def openAccounts (p : PayoutRow) (j : Journal) : Journal :=
  (j.walletAccount p.availableAccount "developer" (p.developerId ++ ":available")
    p.currency).walletAccount p.clearingAccount "platform"
      ("payout-clearing:" ++ p.payoutAccountId) p.currency

/-- A payout of another key; the two versions differ in what a used key means. -/
def insertPayout (p : PayoutRow) (onConflict : Except SqlError PayoutDb) (db : PayoutDb) :
    Except SqlError PayoutDb :=
  if db.journal.walletBalance p.availableAccount < p.amount then .ok db
  else if db.payouts.any fun old ↦ old.idempotencyKey = p.idempotencyKey then onConflict
  else do
    ensure (¬ db.payouts.any fun old ↦ old.payoutId = p.payoutId) (.unique "developer_payouts")
    ensure (0 < p.amount) (.check "developer_payouts")
    ensure (db.payoutAccounts.any fun a ↦ a.payoutAccountId = p.payoutAccountId)
      (.foreignKey "developer_payouts")
    return { db with payouts := db.payouts ++ [p] }

def bookPayout (p : PayoutRow) (db : PayoutDb) : Except SqlError PayoutDb := do
  let journal := if db.payouts.any fun old ↦ old.payoutId = p.payoutId then
    db.journal.draftEntry (.payout p.payoutId) "developer_payout" p.payoutId else db.journal
  let journal ← journal.postLines (.payout p.payoutId) p.reservationLines
  return { db with journal }

def createPayout (p : PayoutRow) (db : PayoutDb) : Except SqlError (PayoutDb × Unit) := do
  let db := { db with journal := openAccounts p db.journal }
  let db ← db.insertPayout p (.ok db)
  let db ← db.bookPayout p
  return (db, ())

def createPayoutV2 (p : PayoutRow) (attempt : PayoutAttemptRow) (db : PayoutDb) :
    Except SqlError (PayoutDb × Unit) := do
  let db := { db with journal := openAccounts p db.journal }
  let db ← db.insertPayout p (.error (.unique "developer_payouts"))
  let db ← db.bookPayout p
  if db.payouts.any fun old ↦ old.payoutId = p.payoutId then do
    ensure (¬ db.attempts.any fun old ↦ old.attemptId = attempt.attemptId ||
      old.idempotencyKey = attempt.idempotencyKey) (.unique "developer_payout_attempts")
    ensure (payoutProviders.contains attempt.provider) (.check "developer_payout_attempts")
    return ({ db with attempts := db.attempts ++ [attempt] }, ())
  else return (db, ())

def updateAttempts (selects : PayoutAttemptRow → Bool) (state : AttemptState) (db : PayoutDb) :
    PayoutDb :=
  { db with attempts := Table.update selects (fun a ↦ { a with state }) db.attempts }

def updatePayouts (selects : PayoutRow → Bool) (status : PayoutStatus) (db : PayoutDb) : PayoutDb :=
  { db with payouts := Table.update selects (fun p ↦ { p with status }) db.payouts }

def finalizePaid (p : PayoutRow) (provider : String) (db : PayoutDb) :
    Except SqlError (PayoutDb × Unit) := do
  let journal := (db.journal.walletAccount p.clearingAccount "platform"
    ("payout-clearing:" ++ p.payoutAccountId) p.currency).walletAccount
      (externalPayoutAccount provider p.currency) "platform" ("external-payout:" ++ provider)
      p.currency
  let journal := if db.payouts.any fun q ↦ q.payoutId = p.payoutId && isOpen q.status then
    journal.draftEntry (.payoutPaid p.payoutId) "developer_payout_paid" p.payoutId else journal
  let journal ← journal.postLines (.payoutPaid p.payoutId) (p.paidLines provider)
  let posted := journal.isPosted (.payoutPaid p.payoutId)
  let db := { db with journal }
  let db := db.updatePayouts (fun q ↦ q.payoutId = p.payoutId && isOpen q.status && posted) .paid
  let db := db.updateAttempts (fun a ↦ a.payoutId = p.payoutId &&
    [AttemptState.created, .submitted, .processing].contains a.state && posted) .paid
  return (db, ())

def reverseFailed (p : PayoutRow) (db : PayoutDb) : Except SqlError (PayoutDb × Unit) := do
  let journal := (openAccounts p db.journal).draftEntry (.payoutReversal p.payoutId)
    "payout_reversal" p.payoutId
  let journal ← journal.postLines (.payoutReversal p.payoutId) p.reversalLines
  let posted := journal.isPosted (.payoutReversal p.payoutId)
  let db := { db with journal }
  let db := db.updatePayouts (fun q ↦ q.payoutId = p.payoutId && posted) .failed
  return (db, ())

end PayoutDb

/-! ## Operations -/

inductive PayoutOp where
  | payoutByIdempotency (key : String)
  /-- The same read after the batch. -/
  | payoutReserved (key : String)
  | payoutAccount (payoutAccountId developerId : String)
  | activeRoute (regionCode provider : String)
  | walletBalance (accountId : String)
  | createPayout (row : PayoutRow)
  | createPayoutV2 (row : PayoutRow) (attempt : PayoutAttemptRow)
  | payoutById (payoutId : String)
  | payoutWithProvider (payoutId : String)
  | latestAttempt (payoutId : String)
  | setAttempt (attemptId : String) (state : AttemptState)
  | markProcessing (payoutId : String)
  | finalizePaid (row : PayoutRow) (provider : String)
  | attemptsPaid (payoutId : String)
  | reverseFailed (row : PayoutRow)
  | attemptsFailed (payoutId : String)
  deriving DecidableEq

@[reducible] def PayoutOp.Answer : PayoutOp → Type
  | .payoutByIdempotency _ | .payoutReserved _ | .payoutById _ => Option PayoutRow
  | .payoutAccount .. => Option PayoutAccountRow
  | .activeRoute .. => Bool
  | .walletBalance _ => ℤ
  | .payoutWithProvider _ => Option (PayoutRow × String)
  | .latestAttempt _ => Option PayoutAttemptRow
  | .createPayout _ | .createPayoutV2 .. | .finalizePaid .. | .reverseFailed _ =>
      Except SqlError Unit
  | .setAttempt .. | .markProcessing _ | .attemptsPaid _ | .attemptsFailed _ => Unit

def PayoutOp.exec : (op : PayoutOp) → PayoutDb → PayoutDb × op.Answer
  | .payoutByIdempotency key, db => (db, db.payoutByIdempotency key)
  | .payoutReserved key, db => (db, db.payoutByIdempotency key)
  | .payoutAccount payoutAccountId developerId, db =>
      (db, db.payoutAccount payoutAccountId developerId)
  | .activeRoute regionCode provider, db => (db, db.activeRoute regionCode provider)
  | .walletBalance accountId, db => (db, db.journal.walletBalance accountId)
  | .createPayout row, db => atomically (PayoutDb.createPayout row) db
  | .createPayoutV2 row attempt, db => atomically (PayoutDb.createPayoutV2 row attempt) db
  | .payoutById payoutId, db => (db, db.payoutById payoutId)
  | .payoutWithProvider payoutId, db => (db, db.payoutWithProvider payoutId)
  | .latestAttempt payoutId, db => (db, db.latestAttempt payoutId)
  | .setAttempt attemptId state, db =>
      (db.updateAttempts (fun a ↦ a.attemptId = attemptId) state, ())
  | .markProcessing payoutId, db =>
      (db.updatePayouts (fun p ↦ p.payoutId = payoutId && p.status = .pending) .processing, ())
  | .finalizePaid row provider, db => atomically (PayoutDb.finalizePaid row provider) db
  | .attemptsPaid payoutId, db => (db.updateAttempts (fun a ↦ a.payoutId = payoutId &&
      [AttemptState.created, .submitted, .processing, .paid].contains a.state) .paid, ())
  | .reverseFailed row, db => atomically (PayoutDb.reverseFailed row) db
  | .attemptsFailed payoutId, db => (db.updateAttempts (fun a ↦ a.payoutId = payoutId &&
      !([AttemptState.paid, .cancelled].contains a.state)) .failed, ())

def PayoutOp.run (op : PayoutOp) : Prog PayoutOp PayoutOp.Answer op.Answer :=
  .perform op

/-! ## Handlers -/

inductive PayoutReply where
  | payout (row : PayoutRow)
  | dispatched (payoutId : String) (state : String)
  | done
  | refused (status : ℕ) (code message : String)
  | failed (message : String)
  deriving DecidableEq, Repr

abbrev PayoutProg := Prog PayoutOp PayoutOp.Answer PayoutReply

structure AdminPayoutRequest where
  idempotencyKey : String
  developerId : String
  payoutAccountId : String
  currency : String
  amount : Int64
  deriving DecidableEq, Repr

def isIdentifier (value : String) : Bool :=
  Text.trim value ≠ "" && Text.len (Text.trim value) ≤ 512

def validIsoCurrency (value : String) : Bool :=
  Text.len value = 3 && value.toList.all Text.isAsciiUppercase

namespace AdminPayoutRequest

def identifiers (input : AdminPayoutRequest) : List String :=
  [input.idempotencyKey, input.developerId, input.payoutAccountId, input.currency]

def row (input : AdminPayoutRequest) (payoutId : String) : PayoutRow where
  payoutId
  idempotencyKey := input.idempotencyKey
  developerId := input.developerId
  payoutAccountId := input.payoutAccountId
  currency := input.currency
  amount := input.amount.toInt
  status := .pending

def availableAccount (input : AdminPayoutRequest) : String :=
  developerAvailableAccount input.developerId input.currency

end AdminPayoutRequest

def idempotencyConflict : PayoutReply :=
  .refused 409 "idempotency_conflict" "payout idempotency key was reused with different semantics"

def insufficientBalance (message : String) : PayoutReply :=
  .refused 409 "insufficient_developer_balance" message

def invalidIdentifier : PayoutReply :=
  .failed "invalid payment identifier"

def answerReserved (key message : String) (batch : Except SqlError Unit) : PayoutProg :=
  match batch with
  | .error _ => .ret (.failed "D1_ERROR")
  | .ok _ => do
      match ← PayoutOp.run (.payoutReserved key) with
      | some payout => return .payout payout
      | none => return insufficientBalance message

def reservePayout (input : AdminPayoutRequest) (payoutId : String) : PayoutProg := do
  let account ← PayoutOp.run (.payoutAccount input.payoutAccountId input.developerId)
  if !(account.any fun a ↦ a.state = "active") then
    return .refused 409 "payout_account_unavailable" "developer payout account is not active"
  let balance ← PayoutOp.run (.walletBalance input.availableAccount)
  if balance < input.amount.toInt then
    return insufficientBalance "developer available balance is insufficient"
  let batch ← PayoutOp.run (.createPayout (input.row payoutId))
  answerReserved input.idempotencyKey
    "developer available balance changed before payout reservation" batch

def adminCreatePayout (input : AdminPayoutRequest) (payoutId : String) : PayoutProg :=
  if !(input.identifiers.all isIdentifier) then .ret invalidIdentifier
  else if input.amount ≤ 0 then
    .ret (.refused 400 "invalid_amount" "payout amount must be positive")
  else do
    match ← PayoutOp.run (.payoutByIdempotency input.idempotencyKey) with
    | some existing =>
        -- the payout account is not compared
        if existing.developerId ≠ input.developerId || existing.currency ≠ input.currency ||
            existing.amount ≠ input.amount.toInt then return idempotencyConflict
        else return .payout existing
    | none => reservePayout input payoutId

def PayoutAccountRow.accepts (a : PayoutAccountRow) (currency : String)
    (currencies purposes : List String) : Bool :=
  a.state = "active" && a.onboardingState = "verified" && a.kycStatus = "verified" &&
    a.payoutsEnabled = 1 && currencies.contains currency && purposes.contains "marketplace_payout"

def PayoutAccountRow.region (a : PayoutAccountRow) : String :=
  if a.countryCode = "CN" then "CN" else "GLOBAL"

def reservePayoutV2 (input : AdminPayoutRequest) (payoutId attemptId : String) (now : ℤ)
    (account : PayoutAccountRow) : PayoutProg := do
  let route ← PayoutOp.run (.activeRoute account.region account.provider)
  if !route then
    return .refused 503 "payout_route_unavailable" "provider route is not active for this region"
  let balance ← PayoutOp.run (.walletBalance input.availableAccount)
  if balance < input.amount.toInt then
    return insufficientBalance "developer available balance is insufficient"
  let batch ← PayoutOp.run (.createPayoutV2 (input.row payoutId)
    { attemptId, payoutId, provider := account.provider, state := .created, createdAt := now
      idempotencyKey := "dispatch:" ++ input.idempotencyKey })
  answerReserved input.idempotencyKey "developer balance changed before payout reservation" batch

def acceptAccount (input : AdminPayoutRequest) (payoutId attemptId : String) (now : ℤ)
    (account : PayoutAccountRow) : PayoutProg :=
  match account.currencies, account.purposes with
  | none, _ => .ret (.failed "invalid payout currency capabilities")
  | some _, none => .ret (.failed "invalid payout purpose capabilities")
  | some currencies, some purposes =>
      if !account.accepts input.currency currencies purposes then
        .ret (.refused 409 "payout_account_unavailable"
          "payout account is not verified/enabled for this currency and purpose")
      else reservePayoutV2 input payoutId attemptId now account

def acceptPayoutV2 (input : AdminPayoutRequest) (payoutId attemptId : String) (now : ℤ) :
    PayoutProg := do
  match ← PayoutOp.run (.payoutAccount input.payoutAccountId input.developerId) with
  | none => return .failed "payout account was not found"
  | some account => acceptAccount input payoutId attemptId now account

def adminCreatePayoutV2 (input : AdminPayoutRequest) (payoutId attemptId : String) (now : ℤ) :
    PayoutProg :=
  if !(input.identifiers.all isIdentifier) then .ret invalidIdentifier
  else if input.amount ≤ 0 || !validIsoCurrency input.currency then
    .ret (.refused 400 "invalid_payout" "positive amount and ISO currency are required")
  else do
    match ← PayoutOp.run (.payoutByIdempotency input.idempotencyKey) with
    | some existing =>
        if existing.developerId ≠ input.developerId ||
            existing.payoutAccountId ≠ input.payoutAccountId ||
            existing.currency ≠ input.currency || existing.amount ≠ input.amount.toInt then
          return idempotencyConflict
        else return .payout existing
    | none => acceptPayoutV2 input payoutId attemptId now

def finalizePaidPayout (payoutId : String) : PayoutProg := do
  match ← PayoutOp.run (.payoutWithProvider payoutId) with
  | none => return .failed "payout not found"
  | some (payout, provider) =>
      if payout.status = .paid then do
        let _ ← PayoutOp.run (.attemptsPaid payoutId)
        return .done
      else if !isOpen payout.status then
        return .failed "payout is not eligible for paid finalization"
      else do
        match ← PayoutOp.run (.finalizePaid payout provider) with
        | .ok _ => return .done
        | .error _ => return .failed "D1_ERROR"

def reverseFailedPayout (payoutId : String) (next : PayoutProg) : PayoutProg := do
  match ← PayoutOp.run (.payoutById payoutId) with
  | none => return .failed "payout not found"
  | some payout =>
      if payout.status = .failed then next
      else if !isOpen payout.status then
        return .failed "payout cannot be failed from its current state"
      else do
        match ← PayoutOp.run (.reverseFailed payout) with
        | .ok _ => next
        | .error _ => return .failed "D1_ERROR"

def requiredEventValue (value : Option String) (field : String)
    (next : String → PayoutProg) : PayoutProg :=
  match value with
  | none => .ret (.failed ("provider event is missing " ++ field))
  | some value => if isIdentifier value then next value else .ret invalidIdentifier

def payoutPaidEvent (payoutId : Option String) : PayoutProg :=
  requiredEventValue payoutId "payoutId" finalizePaidPayout

def payoutFailedEvent (payoutId : Option String) : PayoutProg :=
  requiredEventValue payoutId "payoutId" fun payoutId ↦ reverseFailedPayout payoutId do
    let _ ← PayoutOp.run (.attemptsFailed payoutId)
    return .done

structure DispatchEnv where
  /-- The executor of the provider, if it is configured. -/
  executorUrl : Option String
  /-- The status the executor answers with, unless the call itself fails. -/
  response : Option ℕ
  deriving DecidableEq, Repr

def isHttps (url : String) : Bool :=
  (Text.stripPrefix "https://" url).isSome && !(url.toList.any Text.isWhitespace)

def settleDispatch (env : DispatchEnv) (payoutId : String) (attempt : PayoutAttemptRow) :
    PayoutProg :=
  match env.response with
  | none => .ret (.failed "fetch failed")
  | some status =>
      if !(200 ≤ status && status < 300) then do
        let _ ← PayoutOp.run (.setAttempt attempt.attemptId .failed)
        reverseFailedPayout payoutId
          (.ret (.refused 502 "payout_dispatch_failed" "provider executor rejected payout"))
      else do
        let _ ← PayoutOp.run (.setAttempt attempt.attemptId .submitted)
        let _ ← PayoutOp.run (.markProcessing payoutId)
        return .dispatched payoutId "processing"

def dispatchAttempt (env : DispatchEnv) (payoutId provider : String) (attempt : PayoutAttemptRow) :
    PayoutProg :=
  if [AttemptState.submitted, .processing, .paid].contains attempt.state then
    .ret (.dispatched payoutId "duplicate")
  else if !(payoutProviders.contains provider) then .ret (.failed "unsupported payout provider")
  else match env.executorUrl with
    | none => do
        let _ ← PayoutOp.run (.setAttempt attempt.attemptId .configurationRequired)
        return .refused 503 "payout_provider_not_configured"
          "payout provider executor is not configured"
    | some url =>
        if !isHttps url then do
          let _ ← PayoutOp.run (.setAttempt attempt.attemptId .configurationRequired)
          reverseFailedPayout payoutId
            (.ret (.refused 500 "invalid_executor_url" "payout executor URL must be HTTPS"))
        else settleDispatch env payoutId attempt

def adminDispatchPayout (env : DispatchEnv) (payoutId : String) : PayoutProg := do
  match ← PayoutOp.run (.payoutWithProvider payoutId) with
  | none => return .failed "payout not found"
  | some (payout, provider) =>
      if !isOpen payout.status then
        return .refused 409 "payout_not_dispatchable" "payout is not dispatchable"
      else do
        match ← PayoutOp.run (.latestAttempt payoutId) with
        | none => return .failed "payout attempt not found"
        | some attempt => dispatchAttempt env payoutId provider attempt

/-- A request or an event of a provider. -/
inductive PayoutCall where
  | create (input : AdminPayoutRequest) (payoutId : String)
  | createV2 (input : AdminPayoutRequest) (payoutId attemptId : String) (now : ℤ)
  | dispatch (env : DispatchEnv) (payoutId : String)
  | payoutPaid (payoutId : Option String)
  | payoutFailed (payoutId : Option String)
  deriving DecidableEq

def PayoutCall.handle : PayoutCall → PayoutProg
  | .create input payoutId => adminCreatePayout input payoutId
  | .createV2 input payoutId attemptId now => adminCreatePayoutV2 input payoutId attemptId now
  | .dispatch env payoutId => adminDispatchPayout env payoutId
  | .payoutPaid payoutId => payoutPaidEvent payoutId
  | .payoutFailed payoutId => payoutFailedEvent payoutId

end Fabushi.Worker
