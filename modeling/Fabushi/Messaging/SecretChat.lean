import Fabushi.Library.Wire
import Fabushi.Messaging.Conversation

/-!
# Secret chat sessions

A session holds the key of one epoch between two actors and a window of the message
counters it has accepted in it. The key is derived from the shared secret of two X25519
keys, salted with the conversation and bound to the two actors and the epoch; a message
is authenticated together with its identities, its epoch and its counter.
-/

namespace Fabushi.Messaging

open Effects Result Wire

def secretChatVersion : UInt16 := 1
def secretChatAlgorithm : String := "X25519+HKDF-SHA256+XChaCha20Poly1305"
def replayWindowBits : ℕ := 128

/-- The library functions a session calls: URL-safe base64, X25519, HKDF-SHA256 with
32 bytes of output and XChaCha20-Poly1305. -/
structure SecretCrypto where
  encodeBase64Url : List UInt8 → String
  decodeBase64Url : String → Option (List UInt8)
  diffieHellman : Vector UInt8 32 → Vector UInt8 32 → Vector UInt8 32
  hkdfExpand : List UInt8 → Vector UInt8 32 → List UInt8 → Option (Vector UInt8 32)
  cipherEncrypt : Vector UInt8 32 → Vector UInt8 24 → List UInt8 → List UInt8 → Option (List UInt8)
  cipherDecrypt : Vector UInt8 32 → Vector UInt8 24 → List UInt8 → List UInt8 → Option (List UInt8)

inductive SecretChatError where
  | invalidIdentity
  | invalidPeerKey
  | emptyPlaintext
  | counterOverflow
  | kdfFailed
  | encryptionFailed
  | authenticationFailed
  | identityMismatch
  | invalidCounter
  | replayDetected
  | staleMessage
  | epochMismatch (expected actual : UInt64)
  | nonMonotonicEpoch (current requested : UInt64)
  | unsupportedVersion (version : UInt16)
  | unsupportedAlgorithm (algorithm : String)
  | invalidEncoding (label : String)
  | random (error : String)
  deriving DecidableEq

structure SecretPublicKey where
  algorithm : String
  keyBase64 : String

variable (crypto : SecretCrypto)

def decodeArray (length : ℕ) (value label : String) :
    Except SecretChatError (Vector UInt8 length) := do
  let bytes ← okOr (crypto.decodeBase64Url value) (.invalidEncoding label)
  okOr (toVector length bytes) (.invalidEncoding label)

def SecretPublicKey.toBytes (key : SecretPublicKey) :
    Except SecretChatError (Vector UInt8 32) := do
  ensure (key.algorithm = "X25519") (.unsupportedAlgorithm key.algorithm)
  decodeArray crypto 32 key.keyBase64 "public key"

/-! ## The replay window -/

structure ReplayWindow where
  highest : UInt64 := 0
  bitmap : BitVec 128 := 0
  deriving DecidableEq

namespace ReplayWindow

def check (window : ReplayWindow) (counter : UInt64) : Except SecretChatError Unit :=
  if counter = 0 then .error .invalidCounter
  else if window.highest = 0 ∨ window.highest < counter then .ok ()
  else
    let distance := (window.highest - counter).toNat
    if replayWindowBits ≤ distance then .error .staleMessage
    else if window.bitmap &&& 1#128 <<< distance ≠ 0 then .error .replayDetected
    else .ok ()

def mark (window : ReplayWindow) (counter : UInt64) : ReplayWindow :=
  if window.highest = 0 then { highest := counter, bitmap := 1 }
  else if window.highest < counter then
    let shift := (counter - window.highest).toNat
    { highest := counter
      bitmap := if replayWindowBits ≤ shift then 1 else window.bitmap <<< shift ||| 1#128 }
  else
    let distance := (window.highest - counter).toNat
    if distance < replayWindowBits then
      { window with bitmap := window.bitmap ||| 1#128 <<< distance }
    else window

end ReplayWindow

/-! ## Keys and associated data -/

def orderedActors (localActorId peerActorId : ActorId) : String × String :=
  if localActorId.value ≤ peerActorId.value then (localActorId.value, peerActorId.value)
  else (peerActorId.value, localActorId.value)

def rootKeySalt (conversationId : ConversationId) : List UInt8 :=
  Text.bytes conversationId.value

def rootKeyInfo (conversationId : ConversationId) (localActorId peerActorId : ActorId)
    (epoch : UInt64) : String :=
  let (firstActor, secondActor) := orderedActors localActorId peerActorId
  "fabushi-secret-chat-v1|" ++ conversationId.value ++ "|" ++ firstActor ++ "|" ++ secondActor ++
    "|" ++ toString epoch.toNat

def sharedSecret (localPrivateKey : Vector UInt8 32) (peerPublicKey : SecretPublicKey) :
    Except SecretChatError (Vector UInt8 32) := do
  let peerPublic ← peerPublicKey.toBytes crypto
  let shared := crypto.diffieHellman localPrivateKey peerPublic
  ensure (¬ shared.toList.all fun byte ↦ byte == 0) .invalidPeerKey
  return shared

def deriveRootKey (conversationId : ConversationId) (localActorId peerActorId : ActorId)
    (localPrivateKey : Vector UInt8 32) (peerPublicKey : SecretPublicKey) (epoch : UInt64) :
    Except SecretChatError (Vector UInt8 32) := do
  let shared ← sharedSecret crypto localPrivateKey peerPublicKey
  let info := rootKeyInfo conversationId localActorId peerActorId epoch
  okOr (crypto.hkdfExpand (rootKeySalt conversationId) shared (Text.bytes info)) .kdfFailed

def validateIdentity (conversationId : ConversationId) (localActorId peerActorId : ActorId)
    (epoch : UInt64) : Except SecretChatError Unit :=
  ensure (¬ (¬ conversationId.isValid ∨ ¬ localActorId.isValid ∨ ¬ peerActorId.isValid ∨
    localActorId = peerActorId ∨ epoch = 0)) .invalidIdentity

def messageAad (conversationId : ConversationId) (epoch : UInt64) (senderId recipientId : ActorId)
    (counter : UInt64) : String :=
  "fabushi-secret-chat-v1|" ++ conversationId.value ++ "|" ++ toString epoch.toNat ++ "|" ++
    senderId.value ++ "|" ++ recipientId.value ++ "|" ++ toString counter.toNat

/-! ## Sessions -/

structure SecretChatSession where
  conversationId : ConversationId
  localActorId : ActorId
  peerActorId : ActorId
  epoch : UInt64
  rootKey : Vector UInt8 32
  sendCounter : UInt64 := 0
  replay : ReplayWindow := {}

namespace SecretChatSession

def establish (conversationId : ConversationId) (localActorId peerActorId : ActorId)
    (localPrivateKey : Vector UInt8 32) (peerPublicKey : SecretPublicKey) (epoch : UInt64) :
    Except SecretChatError SecretChatSession := do
  validateIdentity conversationId localActorId peerActorId epoch
  let rootKey ← deriveRootKey crypto conversationId localActorId peerActorId localPrivateKey
    peerPublicKey epoch
  return { conversationId, localActorId, peerActorId, epoch, rootKey }

abbrev SecretM := Eff SecretChatError SecretChatSession

def rotate (localPrivateKey : Vector UInt8 32) (peerPublicKey : SecretPublicKey)
    (nextEpoch : UInt64) : SecretM PUnit := do
  let session ← get
  orThrow id (ensure (¬ nextEpoch ≤ session.epoch) (.nonMonotonicEpoch session.epoch nextEpoch))
  let rootKey ← orThrow id (deriveRootKey crypto session.conversationId session.localActorId
    session.peerActorId localPrivateKey peerPublicKey nextEpoch)
  modify fun session ↦ { session with
    rootKey := rootKey, epoch := nextEpoch, sendCounter := 0, replay := {} }

/-- The nonce, or the error of the random source, is an input. The counter has moved even
if a later step fails. -/
def encrypt (nonce : Except String (Vector UInt8 24)) (plaintext : List UInt8) :
    SecretM EncryptedSecretMessage := do
  orThrow id (ensure (plaintext ≠ []) .emptyPlaintext)
  let session ← get
  orThrow id (ensure (session.sendCounter.toNat + 1 < 2 ^ 64) .counterOverflow)
  let counter := session.sendCounter + 1
  modify fun session ↦ { session with sendCounter := counter }
  let nonce ← orThrow .random nonce
  let aad := messageAad session.conversationId session.epoch session.localActorId
    session.peerActorId counter
  let ciphertext ← orThrow id (okOr
    (crypto.cipherEncrypt session.rootKey nonce plaintext (Text.bytes aad)) .encryptionFailed)
  return {
    version := secretChatVersion
    algorithm := secretChatAlgorithm
    conversationId := session.conversationId
    epoch := session.epoch
    senderId := session.localActorId
    recipientId := session.peerActorId
    counter := counter
    nonceBase64 := crypto.encodeBase64Url nonce.toList
    ciphertextBase64 := crypto.encodeBase64Url ciphertext }

def checkEnvelope (session : SecretChatSession) (envelope : EncryptedSecretMessage) :
    Except SecretChatError Unit := do
  ensure (envelope.version = secretChatVersion) (.unsupportedVersion envelope.version)
  ensure (envelope.algorithm = secretChatAlgorithm) (.unsupportedAlgorithm envelope.algorithm)
  ensure (¬ (envelope.conversationId ≠ session.conversationId ∨
    envelope.senderId ≠ session.peerActorId ∨ envelope.recipientId ≠ session.localActorId))
    .identityMismatch
  ensure (envelope.epoch = session.epoch) (.epochMismatch session.epoch envelope.epoch)

def openEnvelope (session : SecretChatSession) (envelope : EncryptedSecretMessage) :
    Except SecretChatError (List UInt8) := do
  let nonce ← decodeArray crypto 24 envelope.nonceBase64 "message nonce"
  let ciphertext ← okOr (crypto.decodeBase64Url envelope.ciphertextBase64)
    (.invalidEncoding "ciphertext")
  let aad := messageAad session.conversationId session.epoch envelope.senderId
    envelope.recipientId envelope.counter
  okOr (crypto.cipherDecrypt session.rootKey nonce ciphertext (Text.bytes aad)) .authenticationFailed

def decrypt (envelope : EncryptedSecretMessage) : SecretM (List UInt8) := do
  let session ← get
  orThrow id (session.checkEnvelope envelope)
  orThrow id (session.replay.check envelope.counter)
  let plaintext ← orThrow id (session.openEnvelope crypto envelope)
  modify fun session ↦ { session with replay := session.replay.mark envelope.counter }
  return plaintext

end SecretChatSession

end Fabushi.Messaging
