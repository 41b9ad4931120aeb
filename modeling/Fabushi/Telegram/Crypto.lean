import Fabushi.Library.Ige
import Fabushi.Library.Result
import Fabushi.Library.Wire

/-!
# Encrypted messages

A message is laid out behind a header of 32 bytes and followed by padding. Its key is
the middle of a digest of the plaintext, and from it and the authorization key come the
AES key and the two blocks before the first one. The direction chooses the parts of
the authorization key that take part.
-/

namespace Fabushi.Telegram

open Radix Result Wire

def aesBlockLength : ℕ := 16
def minPaddingLength : ℕ := 12
def maxPaddingLength : ℕ := 1024
def internalHeaderLength : ℕ := 32

/-- The hash functions and the block cipher. -/
structure Primitives where
  sha1 : List UInt8 → Vector UInt8 20
  sha256 : List UInt8 → Vector UInt8 32
  aes256 : Vector UInt8 32 → Equiv.Perm (Vector UInt8 16)

abbrev AuthKey := Vector UInt8 256

inductive CryptoDirection where
  | clientToServer | serverToClient
  deriving DecidableEq

def CryptoDirection.x : CryptoDirection → ℕ
  | .clientToServer => 0
  | .serverToClient => 8

structure PlainMessage where
  serverSalt : Int64
  sessionId : Int64
  messageId : Int64
  sequenceNumber : Int32
  body : List UInt8
  padding : List UInt8
  deriving DecidableEq

structure EncryptedEnvelope where
  authKeyId : UInt64
  messageKey : Vector UInt8 16
  encryptedData : List UInt8
  deriving DecidableEq

inductive CryptoError where
  | invalidAuthKeyLength (length : ℕ)
  | invalidEnvelope
  | invalidPlaintext
  | authenticationFailed
  | sessionMismatch
  | invalidMessageId
  deriving DecidableEq

variable (prims : Primitives)

def AuthKey.id (authKey : AuthKey) : UInt64 :=
  UInt64.ofNat (ofLe ((prims.sha1 authKey.toList).toList.drop 12))

/-! ## Keys -/

def deriveAesKeyIv (authKey : AuthKey) (messageKey : Vector UInt8 16)
    (direction : CryptoDirection) : Vector UInt8 32 × Vector UInt8 32 :=
  let x := direction.x
  let sha256A := prims.sha256 (messageKey.toList ++ (authKey.toList.drop x).take 36)
  let sha256B := prims.sha256 ((authKey.toList.drop (40 + x)).take 36 ++ messageKey.toList)
  let aesKey := sha256A.extract 0 8 ++ sha256B.extract 8 24 ++ sha256A.extract 24 32
  let aesIv := sha256B.extract 0 8 ++ sha256A.extract 8 24 ++ sha256B.extract 24 32
  (aesKey, aesIv)

def computeMessageKeyLarge (authKey : AuthKey) (direction : CryptoDirection)
    (plaintext : List UInt8) : Vector UInt8 32 :=
  prims.sha256 ((authKey.toList.drop (88 + direction.x)).take 32 ++ plaintext)

def computeMessageKey (authKey : AuthKey) (direction : CryptoDirection)
    (plaintext : List UInt8) : Vector UInt8 16 :=
  (computeMessageKeyLarge prims authKey direction plaintext).extract 8 24

/-! ## The layout of a message -/

/-- `validate_plain_message`; without a direction the message id is not looked at, and
without a session neither is the session. -/
def validatePlainMessage (message : PlainMessage) (direction : Option CryptoDirection)
    (expectedSessionId : Option Int64) : Except CryptoError Unit := do
  ensure (¬ (message.body = [] ∨ ¬ message.body.length % 4 = 0 ∨
    ¬ (minPaddingLength ≤ message.padding.length ∧ message.padding.length ≤ maxPaddingLength) ∨
    ¬ (internalHeaderLength + message.body.length + message.padding.length) % aesBlockLength = 0))
    .invalidPlaintext
  ensure (¬ expectedSessionId.any fun expected ↦ message.sessionId ≠ expected) .sessionMismatch
  match direction with
  | none => return ()
  | some .clientToServer => ensure (message.messageId.toInt % 4 = 0) .invalidMessageId
  | some .serverToClient => ensure (message.messageId.toInt % 2 = 1) .invalidMessageId

def PlainMessage.encode (message : PlainMessage) : Except CryptoError (List UInt8) := do
  validatePlainMessage message none none
  ensure (message.body.length < 2 ^ 31) .invalidPlaintext
  let bodyLength := Int32.ofNat message.body.length
  return toLe 8 message.serverSalt.toUInt64.toNat ++ toLe 8 message.sessionId.toUInt64.toNat ++
    toLe 8 message.messageId.toUInt64.toNat ++ toLe 4 message.sequenceNumber.toUInt32.toNat ++
    toLe 4 bodyLength.toUInt32.toNat ++ message.body ++ message.padding

def readI64 (value : List UInt8) (offset : ℕ) : Except CryptoError Int64 := do
  let bytes ← okOr (slice value offset (offset + 8)) .invalidPlaintext
  return (UInt64.ofNat (ofLe bytes)).toInt64

def readI32 (value : List UInt8) (offset : ℕ) : Except CryptoError Int32 := do
  let bytes ← okOr (slice value offset (offset + 4)) .invalidPlaintext
  return (UInt32.ofNat (ofLe bytes)).toInt32

def decodePlainMessage (plaintext : List UInt8) : Except CryptoError PlainMessage := do
  ensure (¬ plaintext.length < internalHeaderLength + minPaddingLength) .invalidPlaintext
  let serverSalt ← readI64 plaintext 0
  let sessionId ← readI64 plaintext 8
  let messageId ← readI64 plaintext 16
  let sequenceNumber ← readI32 plaintext 24
  let bodyLength ← readI32 plaintext 28
  ensure (¬ (bodyLength < 0 ∨ ¬ bodyLength.toInt % 4 = 0)) .invalidPlaintext
  let bodyEnd := internalHeaderLength + bodyLength.toInt.toNat
  let body ← okOr (slice plaintext internalHeaderLength bodyEnd) .invalidPlaintext
  let padding ← okOr (slice plaintext bodyEnd plaintext.length) .invalidPlaintext
  return { serverSalt, sessionId, messageId, sequenceNumber, body, padding }

/-! ## Encryption -/

def aesIgeEncrypt (plaintext : List UInt8) (key iv : Vector UInt8 32) :
    Except CryptoError (List UInt8) := do
  ensure (¬ (plaintext = [] ∨ ¬ plaintext.length % aesBlockLength = 0)) .invalidPlaintext
  let blocks := Ige.blocks 16 (plaintext.length / aesBlockLength) plaintext
  return Ige.bytes (Ige.encrypt (prims.aes256 key) (iv.extract 0 16) (iv.extract 16 32) blocks)

def aesIgeDecrypt (ciphertext : List UInt8) (key iv : Vector UInt8 32) :
    Except CryptoError (List UInt8) := do
  ensure (¬ (ciphertext = [] ∨ ¬ ciphertext.length % aesBlockLength = 0)) .invalidEnvelope
  let blocks := Ige.blocks 16 (ciphertext.length / aesBlockLength) ciphertext
  return Ige.bytes (Ige.decrypt (prims.aes256 key) (iv.extract 0 16) (iv.extract 16 32) blocks)

def encryptMessage (authKey : AuthKey) (direction : CryptoDirection) (message : PlainMessage) :
    Except CryptoError EncryptedEnvelope := do
  let plaintext ← message.encode
  let messageKey := computeMessageKey prims authKey direction plaintext
  let (aesKey, aesIv) := deriveAesKeyIv prims authKey messageKey direction
  let encryptedData ← aesIgeEncrypt prims plaintext aesKey aesIv
  return { authKeyId := authKey.id prims, messageKey, encryptedData }

def decryptMessage (authKey : AuthKey) (direction : CryptoDirection) (envelope : EncryptedEnvelope)
    (expectedSessionId : Int64) : Except CryptoError PlainMessage := do
  ensure (¬ (envelope.authKeyId ≠ authKey.id prims ∨ envelope.encryptedData = [] ∨
    ¬ envelope.encryptedData.length % aesBlockLength = 0)) .authenticationFailed
  let (aesKey, aesIv) := deriveAesKeyIv prims authKey envelope.messageKey direction
  let plaintext ← (aesIgeDecrypt prims envelope.encryptedData aesKey aesIv).mapError
    fun _ ↦ .authenticationFailed
  let actualMessageKey := computeMessageKey prims authKey direction plaintext
  ensure (actualMessageKey = envelope.messageKey) .authenticationFailed
  let message ← decodePlainMessage plaintext
  validatePlainMessage message (some direction) (some expectedSessionId)
  return message

end Fabushi.Telegram
