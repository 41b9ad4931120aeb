import Fabushi.Library.MachineInt
import Fabushi.Library.Text
import Fabushi.Worker.Sql

/-!
# Token budgets of the model gateway

The handlers of `ai_usage.rs` as programs over the three usage tables. Every
statement or batch is one operation; what a handler computes in between is pure.
Requests come authenticated, with the time and the generated identifier they use.
-/

namespace Fabushi.Worker

open Interleaving MachineInt Result

structure UsageBudgetRow where
  userId : String
  windowStart : ℤ
  windowEnd : ℤ
  tokenLimit : ℤ
  usedTokens : ℤ
  reservedTokens : ℤ
  deriving DecidableEq, Repr

inductive ReservationState where
  | reserved | captured | released | expired
  deriving DecidableEq, Repr

structure UsageReservationRow where
  reservationId : String
  userId : String
  windowStart : ℤ
  requestId : String
  inputTokenBudget : ℤ
  outputTokenBudget : ℤ
  reservedTokens : ℤ
  state : ReservationState
  expiresAt : ℤ
  deriving DecidableEq, Repr

structure UsageEventRow where
  eventId : String
  reservationId : String
  providerResponseId : String
  totalTokens : ℤ
  deriving DecidableEq, Repr

structure UsageDb where
  budgets : List UsageBudgetRow := []
  reservations : List UsageReservationRow := []
  events : List UsageEventRow := []
  deriving DecidableEq, Repr

def UsageBudgetRow.check (row : UsageBudgetRow) : Bool :=
  0 ≤ row.tokenLimit && 0 ≤ row.usedTokens && 0 ≤ row.reservedTokens &&
    row.windowStart < row.windowEnd && row.usedTokens + row.reservedTokens ≤ row.tokenLimit

def UsageReservationRow.check (row : UsageReservationRow) : Bool :=
  0 ≤ row.inputTokenBudget && 0 ≤ row.outputTokenBudget && 0 < row.reservedTokens

namespace UsageDb

def budgetExists (db : UsageDb) (userId : String) (windowStart : ℤ) : Bool :=
  db.budgets.any fun b ↦ b.userId = userId && b.windowStart = windowStart

def usageReservationByRequest (db : UsageDb) (userId requestId : String) :
    Option UsageReservationRow :=
  db.reservations.find? fun r ↦ r.userId = userId && r.requestId = requestId

def usageReservationById (db : UsageDb) (userId reservationId : String) :
    Option UsageReservationRow :=
  db.reservations.find? fun r ↦ r.userId = userId && r.reservationId = reservationId

def usageEventByResponse (db : UsageDb) (providerResponseId : String) : Option UsageEventRow :=
  db.events.find? fun e ↦ e.providerResponseId = providerResponseId

def usageBudgetByWindow (db : UsageDb) (userId : String) (windowStart : ℤ) :
    Option UsageBudgetRow :=
  db.budgets.find? fun b ↦ b.userId = userId && b.windowStart = windowStart

def isExpired (userId : String) (now : ℤ) (r : UsageReservationRow) : Bool :=
  r.userId = userId && r.state = .reserved && r.expiresAt ≤ now

def updateBudgets (selects : UsageBudgetRow → Bool) (set : UsageBudgetRow → UsageBudgetRow)
    (db : UsageDb) : Except SqlError UsageDb := do
  let budgets ← updateChecked "ai_usage_budgets" UsageBudgetRow.check selects set db.budgets
  return { db with budgets }

def updateReservations (selects : UsageReservationRow → Bool) (state : ReservationState)
    (db : UsageDb) : UsageDb :=
  { db with reservations := Table.update selects (fun r ↦ { r with state }) db.reservations }

def expiredTokens (db : UsageDb) (userId : String) (now windowStart : ℤ) : ℤ :=
  Table.total (fun r ↦ if isExpired userId now r && r.windowStart = windowStart then
    r.reservedTokens else 0) db.reservations

def expireUsageReservations (userId : String) (now : ℤ) (db : UsageDb) :
    Except SqlError (UsageDb × Unit) := do
  let db ← db.updateBudgets
    (fun b ↦ b.userId = userId &&
      db.reservations.any fun r ↦ isExpired userId now r && r.windowStart = b.windowStart)
    (fun b ↦ { b with
      reservedTokens := b.reservedTokens - db.expiredTokens userId now b.windowStart })
  let db := db.updateReservations
    (fun r ↦ isExpired userId now r && db.budgetExists userId r.windowStart) .expired
  return (db, ())

def raiseTokenLimit (userId : String) (windowStart tokenLimit : ℤ) (db : UsageDb) :
    Except SqlError (UsageDb × Unit) := do
  let db ← db.updateBudgets (fun b ↦ b.userId = userId && b.windowStart = windowStart)
    (fun b ↦ { b with tokenLimit })
  return (db, ())

/-- A row that violates a check is skipped like one that is already there. -/
def openBudget (userId : String) (windowStart windowEnd tokenLimit : ℤ) (db : UsageDb) :
    Except SqlError (UsageDb × Unit) :=
  let row : UsageBudgetRow :=
    { userId, windowStart, windowEnd, tokenLimit, usedTokens := 0, reservedTokens := 0 }
  let budgets := if row.check then
    Table.insertOrIgnore (fun old new ↦ old.userId = new.userId &&
      old.windowStart = new.windowStart) row db.budgets else db.budgets
  .ok ({ db with budgets }, ())

def conflicts (old new : UsageReservationRow) : Bool :=
  old.reservationId = new.reservationId ||
    (old.userId = new.userId && old.requestId = new.requestId)

def hasRoom (db : UsageDb) (row : UsageReservationRow) : Bool :=
  db.budgets.any fun b ↦ b.userId = row.userId && b.windowStart = row.windowStart &&
    row.reservedTokens ≤ b.tokenLimit - b.usedTokens - b.reservedTokens

def reserve (row : UsageReservationRow) (db : UsageDb) : Except SqlError (UsageDb × ℕ) := do
  let reservations : List UsageReservationRow := if row.check && db.hasRoom row then
    Table.insertOrIgnore conflicts row db.reservations else db.reservations
  let changes := reservations.length - db.reservations.length
  let db ← { db with reservations }.updateBudgets
    (fun b ↦ b.userId = row.userId && b.windowStart = row.windowStart &&
      reservations.any fun r ↦ r.reservationId = row.reservationId && r.userId = row.userId &&
        r.windowStart = row.windowStart && r.state = ReservationState.reserved)
    (fun b ↦ { b with reservedTokens := b.reservedTokens + row.reservedTokens })
  return (db, changes)

def covers (db : UsageDb) (userId : String) (event : UsageEventRow) : Bool :=
  db.reservations.any fun r ↦ r.reservationId = event.reservationId && r.userId = userId &&
    r.state = .reserved && event.totalTokens ≤ r.reservedTokens &&
    db.budgetExists r.userId r.windowStart

def updateWindowOf (reservation : Option UsageReservationRow) (userId : String)
    (set : UsageReservationRow → UsageBudgetRow → UsageBudgetRow) (db : UsageDb) :
    Except SqlError UsageDb :=
  match reservation with
  | none => .ok db
  | some r =>
      db.updateBudgets (fun b ↦ b.userId = userId && b.windowStart = r.windowStart) (set r)

def capture (userId : String) (event : UsageEventRow) (db : UsageDb) :
    Except SqlError (UsageDb × ℕ) := do
  let inserts := db.covers userId event
  ensure (¬ (inserts && db.events.any fun e ↦ e.eventId = event.eventId ||
    e.providerResponseId = event.providerResponseId)) (.unique "ai_usage_events")
  let db := { db with events := if inserts then db.events ++ [event] else db.events }
  let posted := db.events.any fun e ↦ e.eventId = event.eventId
  let reservation := if posted then db.usageReservationById userId event.reservationId else none
  let db ← db.updateWindowOf reservation userId fun r b ↦ { b with
    reservedTokens := b.reservedTokens - r.reservedTokens
    usedTokens := b.usedTokens + event.totalTokens }
  let db := db.updateReservations (fun r ↦ r.reservationId = event.reservationId &&
    r.userId = userId && r.state = .reserved && posted) .captured
  return (db, if inserts then 1 else 0)

def isHeld (userId reservationId : String) (r : UsageReservationRow) : Bool :=
  r.reservationId = reservationId && r.userId = userId && r.state = .reserved

def release (userId reservationId : String) (db : UsageDb) : Except SqlError (UsageDb × Unit) := do
  let reservation := db.reservations.find? (isHeld userId reservationId)
  let db ← db.updateWindowOf reservation userId fun r b ↦ { b with
    reservedTokens := b.reservedTokens - r.reservedTokens }
  let db := db.updateReservations
    (fun r ↦ isHeld userId reservationId r && db.budgetExists userId r.windowStart) .released
  return (db, ())

end UsageDb

/-! ## Operations -/

inductive UsageOp where
  | expire (userId : String) (now : ℤ)
  | reservationByRequest (userId requestId : String)
  | raiseTokenLimit (userId : String) (windowStart tokenLimit : ℤ)
  | openBudget (userId : String) (windowStart windowEnd tokenLimit : ℤ)
  | reserve (row : UsageReservationRow)
  | eventByResponse (providerResponseId : String)
  | reservationById (userId reservationId : String)
  | capture (userId : String) (event : UsageEventRow)
  | release (userId reservationId : String)
  | budgetByWindow (userId : String) (windowStart : ℤ)
  deriving DecidableEq

@[reducible] def UsageOp.Answer : UsageOp → Type
  | .expire .. | .raiseTokenLimit .. | .openBudget .. | .release .. => Except SqlError Unit
  | .reserve _ | .capture .. => Except SqlError ℕ
  | .reservationByRequest .. | .reservationById .. => Option UsageReservationRow
  | .eventByResponse _ => Option UsageEventRow
  | .budgetByWindow .. => Option UsageBudgetRow

def UsageOp.exec : (op : UsageOp) → UsageDb → UsageDb × op.Answer
  | .expire userId now, db => atomically (UsageDb.expireUsageReservations userId now) db
  | .reservationByRequest userId requestId, db =>
      (db, db.usageReservationByRequest userId requestId)
  | .raiseTokenLimit userId windowStart tokenLimit, db =>
      atomically (UsageDb.raiseTokenLimit userId windowStart tokenLimit) db
  | .openBudget userId windowStart windowEnd tokenLimit, db =>
      atomically (UsageDb.openBudget userId windowStart windowEnd tokenLimit) db
  | .reserve row, db => atomically (UsageDb.reserve row) db
  | .eventByResponse providerResponseId, db => (db, db.usageEventByResponse providerResponseId)
  | .reservationById userId reservationId, db =>
      (db, db.usageReservationById userId reservationId)
  | .capture userId event, db => atomically (UsageDb.capture userId event) db
  | .release userId reservationId, db => atomically (UsageDb.release userId reservationId) db
  | .budgetByWindow userId windowStart, db => (db, db.usageBudgetByWindow userId windowStart)

def UsageOp.run (op : UsageOp) : Prog UsageOp UsageOp.Answer op.Answer :=
  .perform op

@[simp] theorem UsageOp.run_bind {ρ : Type} (op : UsageOp)
    (f : op.Answer → Prog UsageOp UsageOp.Answer ρ) : (op.run >>= f) = .call op f := rfl

/-! ## Handlers -/

def usageWindowSeconds : ℤ := 30 * 24 * 60 * 60

def usageReservationSeconds : ℤ := 10 * 60

def maxTokensPerReservation : ℤ := 2000000

def unlimitedAiTokenLimit : ℤ := 9007199254740991

def isOpaqueId (value : String) : Bool :=
  value ≠ "" && Text.len value ≤ 160 && (Text.bytes value).all fun byte ↦
    0x21 ≤ byte && byte ≤ 0x7e && !(byte = 0x22 || byte = 0x27 || byte = 0x5c)

def isBuiltinUnlimitedAccountId (userId : String) : Bool :=
  ["22", "197915874789377"].contains (Text.trim userId)

structure UsageEnv where
  superAdminAccountIds : Option String
  adminAccountIds : Option String
  /-- The default limit as it was parsed. -/
  defaultAiTokenLimit : Option Int64
  deriving DecidableEq

namespace UsageEnv

def defaultUsageLimit (env : UsageEnv) : Option ℤ :=
  (env.defaultAiTokenLimit.filter fun limit ↦ 0 ≤ limit).map Int64.toInt

def accountUsageLimit (env : UsageEnv) (userId : String) : Option (ℤ × Bool) :=
  let configured := [env.superAdminAccountIds, env.adminAccountIds].reduceOption.any fun value ↦
    (value.splitOn ",").any fun candidate ↦ Text.trim candidate = Text.trim userId
  if isBuiltinUnlimitedAccountId userId || configured then some (unlimitedAiTokenLimit, true)
  else env.defaultUsageLimit.map fun limit ↦ (limit, false)

end UsageEnv

structure AccountUsageStatus where
  windowStart : ℤ
  windowEnd : ℤ
  tokenLimit : ℤ
  usedTokens : ℤ
  reservedTokens : ℤ
  remainingTokens : ℤ
  unlimited : Bool
  deriving DecidableEq, Repr

inductive UsageReply where
  | reservation (reservationId requestId : String) (reservedTokens expiresAt : ℤ)
  | usage (status : AccountUsageStatus)
  | limitReached (status : AccountUsageStatus)
  | refused (status : ℕ) (code message : String)
  | failed (message : String)
  deriving DecidableEq, Repr

abbrev UsageProg := Prog UsageOp UsageOp.Answer UsageReply

/-- Go on unless the statement failed. -/
def orFail {α : Type} (result : Except SqlError α) (next : α → UsageProg) : UsageProg :=
  match result with
  | .ok answer => next answer
  | .error _ => .ret (.failed "D1_ERROR")

structure UsageReservationRequest where
  requestId : String
  inputTokenBudget : Int64
  outputTokenBudget : Int64
  deriving DecidableEq, Repr

structure UsageCaptureRequest where
  providerResponseId : String
  inputTokens : Int64
  cachedInputTokens : Int64
  outputTokens : Int64
  reasoningOutputTokens : Int64
  totalTokens : Int64
  deriving DecidableEq, Repr

def UsageReservationRow.reply (row : UsageReservationRow) : UsageReply :=
  .reservation row.reservationId row.requestId row.reservedTokens row.expiresAt

def usageWindowStart (now : ℤ) : ℤ :=
  now - now % usageWindowSeconds

variable (env : UsageEnv)

def currentUsageStatus (userId : String) (now : ℤ) (reply : AccountUsageStatus → UsageReply) :
    UsageProg :=
  match env.accountUsageLimit userId with
  | none => .ret (.failed "DEFAULT_AI_TOKEN_LIMIT is invalid")
  | some (entitledLimit, unlimited) => do
      let windowStart := usageWindowStart now
      let row ← UsageOp.run (.budgetByWindow userId windowStart)
      let (tokenLimit, usedTokens, reservedTokens) := match row with
        | some row => (if unlimited then entitledLimit else row.tokenLimit, row.usedTokens,
            row.reservedTokens)
        | none => (entitledLimit, 0, 0)
      return reply {
        windowStart
        windowEnd := windowStart + usageWindowSeconds
        tokenLimit, usedTokens, reservedTokens
        remainingTokens := tokenLimit - usedTokens - reservedTokens
        unlimited }

def UsageReservationRequest.reservedTokens (request : UsageReservationRequest) : Option ℤ :=
  ((checkedAdd request.inputTokenBudget request.outputTokenBudget).map Int64.toInt).filter
    fun tokens ↦ 0 < tokens && tokens ≤ maxTokensPerReservation

def UsageReservationRequest.row (request : UsageReservationRequest) (userId reservationId : String)
    (tokens now : ℤ) : UsageReservationRow where
  reservationId
  userId
  windowStart := usageWindowStart now
  requestId := request.requestId
  inputTokenBudget := request.inputTokenBudget.toInt
  outputTokenBudget := request.outputTokenBudget.toInt
  reservedTokens := tokens
  state := .reserved
  expiresAt := now + usageReservationSeconds

def answerUninserted (userId requestId : String) (now : ℤ) : UsageProg := do
  match ← UsageOp.run (.reservationByRequest userId requestId) with
  | some existing => return existing.reply
  | none => currentUsageStatus env userId now .limitReached

def insertReservation (userId : String) (row : UsageReservationRow) (now : ℤ) : UsageProg := do
  let inserted ← UsageOp.run (.reserve row)
  orFail inserted fun changes ↦
    if changes = 0 then answerUninserted env userId row.requestId now else .ret row.reply

def openAndReserve (userId : String) (row : UsageReservationRow) (tokenLimit now : ℤ) :
    UsageProg := do
  let opened ← UsageOp.run (.openBudget userId row.windowStart
    (row.windowStart + usageWindowSeconds) tokenLimit)
  orFail opened fun _ ↦ insertReservation env userId row now

def aiUsageReserve (userId : String) (request : UsageReservationRequest) (reservationId : String)
    (now : ℤ) : UsageProg :=
  if !isOpaqueId request.requestId || request.inputTokenBudget < 0 ||
      request.outputTokenBudget < 0 then
    .ret (.refused 400 "invalid_usage_reservation" "invalid usage reservation")
  else match request.reservedTokens with
    | none => .ret (.failed "invalid token reservation size")
    | some tokens => do
        let expired ← UsageOp.run (.expire userId now)
        orFail expired fun _ ↦ do
          match ← UsageOp.run (.reservationByRequest userId request.requestId) with
          | some existing => return existing.reply
          | none =>
              match env.accountUsageLimit userId with
              | none => return .failed "DEFAULT_AI_TOKEN_LIMIT is invalid"
              | some (tokenLimit, unlimited) =>
                  let row := request.row userId reservationId tokens now
                  if unlimited then do
                    let raised ← UsageOp.run
                      (.raiseTokenLimit userId row.windowStart tokenLimit)
                    orFail raised fun _ ↦ openAndReserve env userId row tokenLimit now
                  else openAndReserve env userId row tokenLimit now

def UsageCaptureRequest.isInvalid (capture : UsageCaptureRequest) : Bool :=
  !isOpaqueId capture.providerResponseId ||
    [capture.inputTokens, capture.cachedInputTokens, capture.outputTokens,
      capture.reasoningOutputTokens, capture.totalTokens].any (· < 0) ||
    capture.inputTokens < capture.cachedInputTokens ||
    capture.outputTokens < capture.reasoningOutputTokens ||
    capture.totalTokens ≠ saturatingAdd capture.inputTokens capture.outputTokens

def responseConflict : UsageReply :=
  .refused 409 "usage_response_conflict" "provider response was already captured"

def reservationTerminal : UsageReply :=
  .refused 409 "usage_reservation_terminal" "usage reservation is already terminal"

def answerCaptured (userId reservationId : String) (existing : UsageEventRow) (now : ℤ) :
    UsageProg :=
  if existing.reservationId ≠ reservationId then .ret responseConflict
  else currentUsageStatus env userId now .usage

def aiUsageCapture (userId reservationId : String) (capture : UsageCaptureRequest)
    (eventId : String) (now : ℤ) : UsageProg :=
  if capture.isInvalid then
    .ret (.refused 400 "invalid_usage_capture" "invalid provider usage breakdown")
  else do
    match ← UsageOp.run (.eventByResponse capture.providerResponseId) with
    | some existing => answerCaptured env userId reservationId existing now
    | none =>
        match ← UsageOp.run (.reservationById userId reservationId) with
        | none => return .refused 404 "usage_reservation_not_found" "usage reservation was not found"
        | some reservation =>
            if reservation.state ≠ .reserved then return reservationTerminal
            else if reservation.reservedTokens < capture.totalTokens.toInt then
              return .refused 409 "usage_capture_exceeds_reservation"
                "provider usage exceeds reservation"
            else do
              let inserted ← UsageOp.run (.capture userId
                { eventId, reservationId, providerResponseId := capture.providerResponseId
                  totalTokens := capture.totalTokens.toInt })
              orFail inserted fun changes ↦
                if changes = 0 then do
                  match ← UsageOp.run (.eventByResponse capture.providerResponseId) with
                  | some existing => answerCaptured env userId reservationId existing now
                  | none => return reservationTerminal
                else currentUsageStatus env userId now .usage

def aiUsageRelease (userId reservationId : String) (now : ℤ) : UsageProg := do
  let released ← UsageOp.run (.release userId reservationId)
  orFail released fun _ ↦ currentUsageStatus env userId now .usage

inductive UsageCall where
  | reserve (env : UsageEnv) (userId : String) (request : UsageReservationRequest)
      (reservationId : String) (now : ℤ)
  | capture (env : UsageEnv) (userId reservationId : String) (request : UsageCaptureRequest)
      (eventId : String) (now : ℤ)
  | release (env : UsageEnv) (userId reservationId : String) (now : ℤ)
  | status (env : UsageEnv) (userId : String) (now : ℤ)
  deriving DecidableEq

def UsageCall.handle : UsageCall → UsageProg
  | .reserve env userId request reservationId now =>
      aiUsageReserve env userId request reservationId now
  | .capture env userId reservationId request eventId now =>
      aiUsageCapture env userId reservationId request eventId now
  | .release env userId reservationId now => aiUsageRelease env userId reservationId now
  | .status env userId now => currentUsageStatus env userId now .usage

end Fabushi.Worker
