import Fabushi.Telegram.Crypto
import Fabushi.Telegram.MessageIds

/-!
# Scanning the body of a server message

`scan_rpc_body`: a body is a service message or a container, whose messages are scanned in turn,
with their ids checked and those with an odd sequence number collected for acknowledgement.
Every other constructor than the ones below is passed over. The scan reads the clock anew for
each message of a container.
-/

namespace Fabushi.TelegramNetwork

open Effects Radix Result Telegram Wire

def newSessionCreatedConstructor : UInt32 := 0x9ec20908
def messageContainerConstructor : UInt32 := 0x73f1f8dc
def badServerSaltConstructor : UInt32 := 0xedab447b
def badMsgNotificationConstructor : UInt32 := 0xa7eff811
def rpcResultConstructor : UInt32 := 0xf35c6d01
def futureSaltsConstructor : UInt32 := 0xae500895

inductive NetworkError where
  | messageId (error : MessageIdError)
  | invalidSystemClock
  | invalidServiceMessage
  | badServerMessage (messageId : Int64) (code : Int32)
  deriving DecidableEq

structure RpcResult where
  requestMessageId : Int64
  responseMessageId : Int64
  body : List UInt8
  deriving DecidableEq

/-- `RpcOutcome`; the third one is `Continue`. -/
inductive RpcOutcome where
  | result (result : RpcResult)
  | newSalt
  | proceed
  deriving DecidableEq

structure ScanState where
  serverSalt : Int64
  messageIds : MessageIdGuard
  acknowledgements : List Int64
  clockReadings : ℕ

/-! ## Reading words -/

def readLeAt (width : ℕ) (input : List UInt8) (offset : ℕ) : Except NetworkError ℕ := do
  let bytes ← okOr (slice input offset (offset + width)) .invalidServiceMessage
  return ofLe bytes

def readU32At (input : List UInt8) (offset : ℕ) : Except NetworkError UInt32 := do
  return UInt32.ofNat (← readLeAt 4 input offset)

def readI32At (input : List UInt8) (offset : ℕ) : Except NetworkError Int32 := do
  return (UInt32.ofNat (← readLeAt 4 input offset)).toInt32

def readI64At (input : List UInt8) (offset : ℕ) : Except NetworkError Int64 := do
  return (UInt64.ofNat (← readLeAt 8 input offset)).toInt64

/-! ## Service messages -/

def readService (requestMessageId responseMessageId : Int64) (constructor : UInt32)
    (body : List UInt8) : Except NetworkError (RpcOutcome × Option Int64) :=
  if constructor = rpcResultConstructor then do
    let requestId ← readI64At body 4
    if requestId ≠ requestMessageId then return (.proceed, none)
    let resultBody ← okOr ((slice body 12 body.length).filter (· ≠ [])) .invalidServiceMessage
    return (.result { requestMessageId, responseMessageId, body := resultBody }, none)
  else if constructor = futureSaltsConstructor then do
    let requestId ← readI64At body 4
    if requestId ≠ requestMessageId then return (.proceed, none)
    return (.result { requestMessageId, responseMessageId, body }, none)
  else if constructor = newSessionCreatedConstructor then do
    let serverSalt ← readI64At body 20
    return (.proceed, some serverSalt)
  else if constructor = badServerSaltConstructor then do
    let messageId ← readI64At body 4
    let errorCode ← readI32At body 16
    ensure (messageId = requestMessageId) (.badServerMessage messageId errorCode)
    let serverSalt ← readI64At body 20
    return (.newSalt, some serverSalt)
  else if constructor = badMsgNotificationConstructor then do
    let messageId ← readI64At body 4
    let code ← readI32At body 16
    .error (.badServerMessage messageId code)
  else return (.proceed, none)

/-! ## The scan -/

variable (clock : ℕ → Option Int64)

def unixTime : Eff NetworkError ScanState Int64 := do
  let state ← get
  modify fun state ↦ { state with clockReadings := state.clockReadings + 1 }
  orThrow id (okOr (clock state.clockReadings) .invalidSystemClock)

def receiveMessage (messageId : Int64) (sequenceNumber : Int32) :
    Eff NetworkError ScanState PUnit := do
  let now ← unixTime clock
  let state ← get
  let messageIds ← orThrow .messageId (state.messageIds.validateServerMessageId messageId now)
  modify fun state ↦ { state with messageIds }
  if sequenceNumber.toInt % 2 = 1 then
    modify fun state ↦ { state with acknowledgements := state.acknowledgements ++ [messageId] }

def scanService (requestMessageId responseMessageId : Int64) (constructor : UInt32)
    (body : List UInt8) : Eff NetworkError ScanState RpcOutcome := do
  let (outcome, serverSalt) ←
    orThrow id (readService requestMessageId responseMessageId constructor body)
  modify fun state ↦ { state with serverSalt := serverSalt.getD state.serverSalt }
  return outcome

def RpcOutcome.followed (outcome inner : RpcOutcome) : RpcOutcome :=
  if inner = .proceed then outcome else inner

theorem length_lt_of_slice {body inner : List UInt8} {offset bodyEnd : ℕ}
    (h : slice body (offset + 16) bodyEnd = some inner) (hend : offset + 16 ≤ bodyEnd) :
    inner.length < body.length := by
  have hlength := length_of_slice h
  have hle := le_length_of_slice h
  omega

mutual

def scanRpcBody (requestMessageId responseMessageId : Int64) (body : List UInt8) :
    Eff NetworkError ScanState RpcOutcome := do
  let constructor ← orThrow id (readU32At body 0)
  if constructor = messageContainerConstructor then do
    let count ← orThrow id (readI32At body 4)
    orThrow id (ensure (0 ≤ count.toInt ∧ count.toInt ≤ 1024) .invalidServiceMessage)
    scanMessages requestMessageId body count.toInt.toNat 8 .proceed
  else scanService requestMessageId responseMessageId constructor body
termination_by (body.length, 1, 0)

def scanMessages (requestMessageId : Int64) (body : List UInt8) (count offset : ℕ)
    (outcome : RpcOutcome) : Eff NetworkError ScanState RpcOutcome :=
  match count with
  | 0 => do
      orThrow id (ensure (offset = body.length) .invalidServiceMessage)
      return outcome
  | count + 1 => do
      let messageId ← orThrow id (readI64At body offset)
      let sequenceNumber ← orThrow id (readI32At body (offset + 8))
      let bodyLength ← orThrow id (readI32At body (offset + 12))
      orThrow id (ensure (0 ≤ bodyLength.toInt) .invalidServiceMessage)
      match hinner : slice body (offset + 16) (offset + 16 + bodyLength.toInt.toNat) with
      | none => throw .invalidServiceMessage
      | some inner => do
          receiveMessage clock messageId sequenceNumber
          have := length_lt_of_slice hinner (Nat.le_add_right _ _)
          let innerOutcome ← scanRpcBody requestMessageId messageId inner
          scanMessages requestMessageId body count (offset + 16 + bodyLength.toInt.toNat)
            (outcome.followed innerOutcome)
termination_by (body.length, 0, count)

end

/-! ## Padding -/

def nextMultipleOf (n divisor : ℕ) : ℕ :=
  if n % divisor = 0 then n else n + (divisor - n % divisor)

def encryptedPaddingLength (bodyLength : ℕ) : ℕ :=
  let unpadded := 32 + bodyLength
  let minimum := unpadded + 12
  nextMultipleOf minimum 16 - unpadded

end Fabushi.TelegramNetwork
