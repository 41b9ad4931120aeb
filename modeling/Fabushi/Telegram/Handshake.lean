import Fabushi.Library.MachineInt
import Fabushi.Telegram.Crypto
import Fabushi.Telegram.Dh
import Fabushi.Telegram.Factoring
import Fabushi.Telegram.Tl

/-!
# The key exchange

A client sends a nonce, factors the number that the server answers with, encrypts a
second nonce for the server and agrees with it on a Diffie–Hellman secret. Everything
from the server is parsed, compared with the nonces of this exchange, authenticated and
checked for its range before anything is stored.
-/

namespace Fabushi.Telegram

open Effects Modular Radix Result Wire

def reqPqMultiConstructor : UInt32 := 0xbe7e8ef1
def resPqConstructor : UInt32 := 0x05162463
def pQInnerDataDcConstructor : UInt32 := 0xa9f55f95
def reqDhParamsConstructor : UInt32 := 0xd712e4be
def serverDhParamsOkConstructor : UInt32 := 0xd0e8075c
def serverDhParamsFailConstructor : UInt32 := 0x79cb045d
def serverDhInnerDataConstructor : UInt32 := 0xb5890dba
def clientDhInnerDataConstructor : UInt32 := 0x6643b654
def setClientDhParamsConstructor : UInt32 := 0xf5045f1f
def dhGenOkConstructor : UInt32 := 0x3bcbf734
def dhGenRetryConstructor : UInt32 := 0x46dc1fb9
def dhGenFailConstructor : UInt32 := 0xa69dae02

def telegramMainRsaModulusHex : ℕ :=
  0xE8BB3305C0B52C6CF2AFDF7637313489E63E05268E5BADB601AF417786472E5F93B85438968E20E6729A301C0AFC121BF7151F834436F7FDA680847A66BF64ACCEC78EE21C0B316F0EDAFE2F41908DA7BD1F4A5107638EEB67040ACE472A14F90D9F7C2B7DEF99688BA3073ADB5750BB02964902A359FE745D8170E36876D4FD8A5D41B2A76CBFF9A13267EB9580B2D06D10357448D20D9DA2191CB5D8C93982961CDFDEDA629E37F1FB09A0722027696032FE61ED663DB7A37F6F263D370F69DB53A0DC0A1748BDAAFF6209D5645485E6E001D1953255757E4B8E42813347B11DA6AB500FD0ACE7E6DFA3736199CCAF9397ED0745A427DCFA6CD67BCB1ACFF3

def telegramTestRsaModulusHex : ℕ :=
  0xC8C11D635691FAC091DD9489AEDCED2932AA8A0BCEFEF05FA800892D9B52ED03200865C9E97211CB2EE6C7AE96D3FB0E15AEFFD66019B44A08A240CFDD2868A85E1F54D6FA5DEAA041F6941DDF302690D61DC476385C2FA655142353CB4E4B59F6E5B6584DB76FE8B1370263246C010C93D011014113EBDF987D093F9D37C2BE48352D69A1683F8F6E6C2167983C761E3AB169FDE5DAAA12123FA1BEAB621E4DA5935E9C198F82F35EAE583A99386D8110EA6BD1ABB0F568759F62694419EA5F69847C43462ABEF858B4CB5EDC84E7B9226CD7BD7E183AA974A712C079DDE85B9DC063B8A5C08E8F859C0EE5DCD824C7807F20153361A7F63CFD2A433A1BE7F5

def defaultMaxPlaintextBody : ℕ := 16 * 1024 * 1024

abbrev Nonce := Vector UInt8 16

inductive HandshakeError where
  | invalidState (reason : String)
  | missingHandshakeData
  | unexpectedConstructor (constructor : UInt32)
  | nonceMismatch
  | serverNonceMismatch
  | emptyPq
  | missingServerKeyFingerprint
  | invalidPqEncoding (length : ℕ)
  | pqFactorizationFailed (pq : UInt64)
  | pqNotSemiprime (pq : UInt64)
  | pqFactorsDoNotMatch
  | noTrustedServerKey
  | emptyEncryptedInnerData
  | invalidRsaModulusLength (length : ℕ)
  | invalidRsaExponent
  | invalidRsaKey
  | rsaPadDataTooLong (length : ℕ)
  | randomnessUnavailable
  | rsaPadRetryLimit
  | invalidRsaResult
  | unexpectedServerDhConstructor (constructor : UInt32)
  | unexpectedServerDhInnerConstructor (constructor : UInt32)
  | invalidServerDhCiphertext
  | invalidServerDhAnswer
  | invalidServerDhPadding (length : ℕ)
  | serverDhHashMismatch
  | serverDhRejected
  | invalidServerDhParameters
  | untrustedDhPrime
  | invalidDhGenerator
  | invalidDhPublicValue
  | unexpectedDhGenConstructor (constructor : UInt32)
  | dhGenHashMismatch
  | dhGenRejected
  | trailingBodyBytes (remaining : ℕ)
  | tl (error : TlError)
  | crypto (error : CryptoError)
  deriving DecidableEq

abbrev FillRandom := ℕ → (length : ℕ) → Except HandshakeError (Vector UInt8 length)

structure PlaintextEnvelope where
  messageId : Int64
  body : List UInt8
  deriving DecidableEq

structure ResPq where
  nonce : Nonce
  serverNonce : Nonce
  pq : List UInt8
  serverPublicKeyFingerprints : List UInt64
  deriving DecidableEq

structure RsaPublicKey where
  modulus : Vector UInt8 256
  exponent : List UInt8

inductive ServerDhParams where
  | ok (encryptedAnswer : List UInt8)
  | fail (newNonceHash : Vector UInt8 16)

structure ServerDhInnerData where
  nonce : Nonce
  serverNonce : Nonce
  generator : Int32
  dhPrime : List UInt8
  gA : List UInt8
  serverTime : Int32
  deriving DecidableEq

structure PreparedClientDh where
  requestBody : List UInt8
  authKey : AuthKey
  authKeyAuxHash : UInt64
  serverSalt : Int64
  deriving DecidableEq

structure EstablishedAuthKey where
  authKey : AuthKey
  serverSalt : Int64
  serverTime : Int32
  deriving DecidableEq

inductive DhGenAction where
  | established (key : EstablishedAuthKey)
  | retry (envelope : PlaintextEnvelope)
  deriving DecidableEq

inductive DhGenResult where
  | ok | retry | fail
  deriving DecidableEq

/-! ## Bodies -/

def intoBytes (writer : TlWriter PUnit) : Except HandshakeError (List UInt8) := do
  (result writer []).mapError .tl
  return after writer []

def readTl {α : Type} (read : TlReader α) : Reader HandshakeError TlLimits α :=
  ExceptT.adapt .tl read

def ensureFinished : Reader HandshakeError TlLimits Unit := do
  let reader ← get
  orThrow id (ensure (TlReader.isFinished reader = true)
    (.trailingBodyBytes (TlReader.remaining reader)))

def validateNoncePair (nonce serverNonce expectedNonce expectedServerNonce : Nonce) :
    Except HandshakeError Unit := do
  ensure (nonce = expectedNonce) .nonceMismatch
  ensure (serverNonce = expectedServerNonce) .serverNonceMismatch

def parseResPq (input : List UInt8) : Except HandshakeError ResPq :=
  let read : Reader HandshakeError TlLimits ResPq := do
    let constructor ← readTl TlReader.readU32
    orThrow id (ensure (constructor = resPqConstructor) (.unexpectedConstructor constructor))
    let nonce ← readTl TlReader.readI128Bytes
    let serverNonce ← readTl TlReader.readI128Bytes
    let pq ← readTl TlReader.readBytes
    let fingerprintCount ← readTl TlReader.readVectorLength
    let serverPublicKeyFingerprints ←
      (List.replicate fingerprintCount ()).mapM fun _ ↦ readTl TlReader.readU64
    ensureFinished
    return { nonce, serverNonce, pq, serverPublicKeyFingerprints }
  result read (TlReader.withLimits input 1024 64)

/-! ## The factors -/

def factorResPq (response : ResPq) : Except HandshakeError FactoredPq := do
  let pq ← (decodeUnsignedBe response.pq).mapError .invalidPqEncoding
  ensure (¬ (pq < 4 ∨ isPrime pq = true)) (.pqNotSemiprime pq)
  let factor ← okOr (pollardRhoFactor pq) (.pqFactorizationFailed pq)
  let other := pq / factor
  ensure (¬ (factor = 1 ∨ other = 1 ∨ saturatingMul64 factor other ≠ pq))
    (.pqFactorizationFailed pq)
  ensure (¬ (isPrime factor = false ∨ isPrime other = false)) (.pqNotSemiprime pq)
  return if factor < other then { pq, p := factor, q := other }
    else { pq, p := other, q := factor }

def buildPQInnerDataDc (response : ResPq) (factors : FactoredPq) (newNonce : Vector UInt8 32)
    (dcId : Int32) : Except HandshakeError (List UInt8) := do
  let pq ← (decodeUnsignedBe response.pq).mapError .invalidPqEncoding
  ensure (¬ (pq ≠ factors.pq ∨ saturatingMul64 factors.p factors.q ≠ factors.pq))
    .pqFactorsDoNotMatch
  intoBytes do
    TlWriter.writeU32 pQInnerDataDcConstructor
    TlWriter.writeBytes response.pq
    TlWriter.writeBytes factors.pBytes
    TlWriter.writeBytes factors.qBytes
    TlWriter.writeI128Bytes response.nonce
    TlWriter.writeI128Bytes response.serverNonce
    TlWriter.writeI256Bytes newNonce
    TlWriter.writeI32 dcId

def buildReqDhParams (response : ResPq) (factors : FactoredPq) (publicKeyFingerprint : UInt64)
    (encryptedInnerData : List UInt8) : Except HandshakeError (List UInt8) := do
  ensure (publicKeyFingerprint ∈ response.serverPublicKeyFingerprints) .noTrustedServerKey
  ensure (encryptedInnerData ≠ []) .emptyEncryptedInnerData
  intoBytes do
    TlWriter.writeU32 reqDhParamsConstructor
    TlWriter.writeI128Bytes response.nonce
    TlWriter.writeI128Bytes response.serverNonce
    TlWriter.writeBytes factors.pBytes
    TlWriter.writeBytes factors.qBytes
    TlWriter.writeU64 publicKeyFingerprint
    TlWriter.writeBytes encryptedInnerData

variable (prims : Primitives)

/-! ## The public key of the server -/

def RsaPublicKey.fromComponents (modulus exponent : List UInt8) :
    Except HandshakeError RsaPublicKey := do
  let modulus' ← okOr (toVector 256 modulus) (.invalidRsaModulusLength modulus.length)
  ensure (¬ (exponent = [] ∨ ∀ byte ∈ exponent, byte = 0)) .invalidRsaExponent
  return { modulus := modulus', exponent }

def RsaPublicKey.fingerprint (key : RsaPublicKey) : Except HandshakeError UInt64 := do
  let bytes ← intoBytes do
    TlWriter.writeBytes key.modulus.toList
    TlWriter.writeBytes key.exponent
  return UInt64.ofNat (ofLe ((prims.sha1 bytes).toList.drop 12))

/-- The 256 bytes that the digits stand for, with the exponent 65537. -/
def telegramServerRsaKey (testEnvironment : Bool) : Except HandshakeError RsaPublicKey :=
  RsaPublicKey.fromComponents
    (padBe 256 (if testEnvironment then telegramTestRsaModulusHex else telegramMainRsaModulusHex))
    [0x01, 0x00, 0x01]

/-- The tries of `rsa_pad_with_random`; each takes two buffers from the random source, and
ends in an encryption unless its value is not below the modulus. -/
def rsaPadTries (data : List UInt8) (modulus exponent : ℕ) (fillRandom : FillRandom) :
    ℕ → ℕ → Except HandshakeError (List UInt8)
  | 0, _ => .error .rsaPadRetryLimit
  | tries + 1, call => do
      let padding ← fillRandom call (192 - data.length)
      let dataWithPadding := data ++ padding.toList
      let tempKey ← fillRandom (call + 1) 32
      let digest := prims.sha256 (tempKey.toList ++ dataWithPadding)
      let dataPadReversed := dataWithPadding.reverse ++ digest.toList
      let aesEncrypted ←
        (aesIgeEncrypt prims dataPadReversed tempKey (.replicate 32 0)).mapError .crypto
      let encryptedHash := prims.sha256 aesEncrypted
      let keyAesEncrypted := (Vector.zipWith (· ^^^ ·) tempKey encryptedHash).toList ++ aesEncrypted
      let padded := ofBe keyAesEncrypted
      if modulus ≤ padded then rsaPadTries data modulus exponent fillRandom tries (call + 2)
      else do
        let encrypted := modpow padded exponent modulus
        let encoded := toBe encrypted
        ensure (¬ 256 < encoded.length) .invalidRsaResult
        return List.replicate (256 - encoded.length) 0 ++ encoded

def rsaPadWithRandom (data : List UInt8) (key : RsaPublicKey) (fillRandom : FillRandom) :
    Except HandshakeError (List UInt8) := do
  ensure (¬ 144 < data.length) (.rsaPadDataTooLong data.length)
  let modulus := ofBe key.modulus.toList
  let exponent := ofBe key.exponent
  ensure (¬ (exponent < 3 ∨ ¬ exponent % 2 = 1 ∨ ¬ (2 ^ 2047 ≤ modulus ∧ modulus < 2 ^ 2048)))
    .invalidRsaKey
  rsaPadTries prims data modulus exponent fillRandom 128 0

/-! ## The parameters of the server -/

def readServerDhParams (constructor : UInt32) : Reader HandshakeError TlLimits ServerDhParams :=
  if constructor = serverDhParamsOkConstructor then .ok <$> readTl TlReader.readBytes
  else if constructor = serverDhParamsFailConstructor then
    .fail <$> readTl TlReader.readI128Bytes
  else throw (.unexpectedServerDhConstructor constructor)

def parseServerDhParams (input : List UInt8) (expectedNonce expectedServerNonce : Nonce) :
    Except HandshakeError ServerDhParams :=
  let read : Reader HandshakeError TlLimits ServerDhParams := do
    let constructor ← readTl TlReader.readU32
    let nonce ← readTl TlReader.readI128Bytes
    let serverNonce ← readTl TlReader.readI128Bytes
    orThrow id (validateNoncePair nonce serverNonce expectedNonce expectedServerNonce)
    let response ← readServerDhParams constructor
    ensureFinished
    return response
  result read (TlReader.withLimits input defaultMaxPlaintextBody 64)

def deriveTmpAesKeyIv (newNonce : Vector UInt8 32) (serverNonce : Nonce) :
    Vector UInt8 32 × Vector UInt8 32 :=
  let newServer := prims.sha1 (newNonce.toList ++ serverNonce.toList)
  let serverNew := prims.sha1 (serverNonce.toList ++ newNonce.toList)
  let newNew := prims.sha1 (newNonce.toList ++ newNonce.toList)
  let key := newServer ++ serverNew.extract 0 12
  let iv := serverNew.extract 12 20 ++ newNew ++ newNonce.extract 0 4
  (key, iv)

def validateDhPublicValue (prime value : ℕ) : Except HandshakeError Unit :=
  let lowerBound := 2 ^ (2048 - 64)
  let upperBound := prime - lowerBound
  ensure (¬ (value < lowerBound ∨ upperBound < value)) .invalidDhPublicValue

def primeResidue (prime modulus : ℕ) : ℕ :=
  let bytes := toBe (prime % modulus)
  (bytes.foldl (fun (value : UInt32) byte ↦ (value <<< 8) ||| byte.toUInt32) 0).toNat

def validateServerDhParameters (data : ServerDhInnerData) : Except HandshakeError Unit := do
  ensure (data.dhPrime.length = 256) .invalidServerDhParameters
  let prime := ofBe data.dhPrime
  ensure (2 ^ 2047 ≤ prime ∧ prime < 2 ^ 2048) .invalidServerDhParameters
  ensure (data.dhPrime = knownDhPrime) .untrustedDhPrime
  ensure (generatorIsValid (primeResidue prime) data.generator) .invalidDhGenerator
  validateDhPublicValue prime (ofBe data.gA)

def decryptServerDhInnerData (encryptedAnswer : List UInt8) (newNonce : Vector UInt8 32)
    (expectedNonce expectedServerNonce : Nonce) : Except HandshakeError ServerDhInnerData := do
  ensure (¬ (encryptedAnswer = [] ∨ ¬ encryptedAnswer.length % 16 = 0)) .invalidServerDhCiphertext
  let (key, iv) := deriveTmpAesKeyIv prims newNonce expectedServerNonce
  let plaintext ← (aesIgeDecrypt prims encryptedAnswer key iv).mapError .crypto
  ensure (¬ plaintext.length < 20 + 4 + 16 + 16 + 4 + 4 + 4 + 4) .invalidServerDhAnswer
  let expectedHash ← okOr (toVector 20 (plaintext.take 20)) .invalidServerDhAnswer
  let answer := plaintext.drop 20
  let read : Reader HandshakeError TlLimits ServerDhInnerData := do
    let constructor ← readTl TlReader.readU32
    orThrow id (ensure (constructor = serverDhInnerDataConstructor)
      (.unexpectedServerDhInnerConstructor constructor))
    let nonce ← readTl TlReader.readI128Bytes
    let serverNonce ← readTl TlReader.readI128Bytes
    orThrow id (validateNoncePair nonce serverNonce expectedNonce expectedServerNonce)
    let generator ← readTl TlReader.readI32
    let dhPrime ← readTl TlReader.readBytes
    let gA ← readTl TlReader.readBytes
    let serverTime ← readTl TlReader.readI32
    let reader ← get
    let answerLength := reader.offset
    let paddingLength := answer.length - answerLength
    orThrow id (ensure (¬ 15 < paddingLength) (.invalidServerDhPadding paddingLength))
    let actualHash := prims.sha1 (answer.take answerLength)
    orThrow id (ensure (expectedHash = actualHash) .serverDhHashMismatch)
    orThrow id (ensure (¬ (¬ (2 ≤ generator.toInt ∧ generator.toInt ≤ 7) ∨ dhPrime.length ≠ 256 ∨
      gA = [] ∨ 256 < gA.length)) .invalidServerDhParameters)
    return { nonce, serverNonce, generator, dhPrime, gA, serverTime }
  let data ← result read (TlReader.withLimits answer (1024 * 1024) 64)
  validateServerDhParameters data
  return data

/-! ## The value of the client -/

def clientExponent (exponentBytes : Vector UInt8 256) : ℕ :=
  let exponent := ofBe exponentBytes.toList
  if exponent = 0 then 2 else exponent

def biguintToMinimalBe (value : ℕ) : List UInt8 :=
  let bytes := toBe value
  if bytes = [] then [0] else bytes

def biguintToFixed256 (value : ℕ) : Except HandshakeError (List UInt8) := do
  let bytes := toBe value
  ensure (¬ 256 < bytes.length) .invalidDhPublicValue
  return List.replicate (256 - bytes.length) 0 ++ bytes

def AuthKey.fromSlice (value : List UInt8) : Except CryptoError AuthKey :=
  okOr (toVector 256 value) (.invalidAuthKeyLength value.length)

def serverSaltOf (newNonce : Vector UInt8 32) (serverNonce : Nonce) : Int64 :=
  (UInt64.ofNat (ofLe (List.zipWith (· ^^^ ·) (newNonce.toList.take 8)
    (serverNonce.toList.take 8)))).toInt64

def fillPadding (fillRandom : FillRandom) (length : ℕ) :
    Except HandshakeError (Vector UInt8 length) :=
  if 0 < length then fillRandom 1 length else .ok (.replicate length 0)

def prepareClientDh (data : ServerDhInnerData) (newNonce : Vector UInt8 32) (retryId : UInt64)
    (fillRandom : FillRandom) : Except HandshakeError PreparedClientDh := do
  validateServerDhParameters data
  let prime := ofBe data.dhPrime
  let gA := ofBe data.gA
  let exponentBytes ← fillRandom 0 256
  let exponent := clientExponent exponentBytes
  let generator := data.generator.toUInt32.toNat
  let gB := modpow generator exponent prime
  validateDhPublicValue prime gB
  let authKeyNumber := modpow gA exponent prime
  let authKeyBytes ← biguintToFixed256 authKeyNumber
  let authKey ← (AuthKey.fromSlice authKeyBytes).mapError .crypto
  let authKeyDigest := prims.sha1 authKeyBytes
  let authKeyAuxHash := UInt64.ofNat (ofLe (authKeyDigest.toList.take 8))
  let serverSalt := serverSaltOf newNonce data.serverNonce
  let inner ← intoBytes do
    TlWriter.writeU32 clientDhInnerDataConstructor
    TlWriter.writeI128Bytes data.nonce
    TlWriter.writeI128Bytes data.serverNonce
    TlWriter.writeU64 retryId
    TlWriter.writeBytes (biguintToMinimalBe gB)
  let answerWithHash := (prims.sha1 inner).toList ++ inner
  let paddingLength := (16 - answerWithHash.length % 16) % 16
  let padding ← fillPadding fillRandom paddingLength
  let (key, iv) := deriveTmpAesKeyIv prims newNonce data.serverNonce
  let encryptedData ← (aesIgeEncrypt prims (answerWithHash ++ padding.toList) key iv).mapError .crypto
  let requestBody ← intoBytes do
    TlWriter.writeU32 setClientDhParamsConstructor
    TlWriter.writeI128Bytes data.nonce
    TlWriter.writeI128Bytes data.serverNonce
    TlWriter.writeBytes encryptedData
  return { requestBody, authKey, authKeyAuxHash, serverSalt }

/-! ## The last answer -/

def dhGenResultOf (constructor : UInt32) : Except HandshakeError (DhGenResult × UInt8) :=
  if constructor = dhGenOkConstructor then .ok (.ok, 1)
  else if constructor = dhGenRetryConstructor then .ok (.retry, 2)
  else if constructor = dhGenFailConstructor then .ok (.fail, 3)
  else .error (.unexpectedDhGenConstructor constructor)

def parseDhGenResult (input : List UInt8) (expectedNonce expectedServerNonce : Nonce)
    (newNonce : Vector UInt8 32) (authKeyAuxHash : UInt64) :
    Except HandshakeError DhGenResult :=
  let read : Reader HandshakeError TlLimits DhGenResult := do
    let constructor ← readTl TlReader.readU32
    let nonce ← readTl TlReader.readI128Bytes
    let serverNonce ← readTl TlReader.readI128Bytes
    orThrow id (validateNoncePair nonce serverNonce expectedNonce expectedServerNonce)
    let actualHash ← readTl TlReader.readI128Bytes
    ensureFinished
    let (dhGenResult, tag) ← orThrow id (dhGenResultOf constructor)
    let material := newNonce.toList ++ [tag] ++ toLe 8 authKeyAuxHash.toNat
    let digest := prims.sha1 material
    let expectedHash : Vector UInt8 16 := digest.extract 4 20
    orThrow id (ensure (actualHash = expectedHash) .dhGenHashMismatch)
    return dhGenResult
  result read (TlReader.new input)

/-! ## The machine -/

inductive AuthKeyHandshakeState where
  | ready
  | awaitingResPq
  | resPqReceived (response : ResPq)
  | awaitingServerDh
  | awaitingDhGen
  | complete
  deriving DecidableEq

structure AuthKeyHandshake where
  nonce : Nonce
  state : AuthKeyHandshakeState
  serverNonce : Option Nonce
  newNonce : Option (Vector UInt8 32)
  serverDh : Option ServerDhInnerData
  preparedClientDh : Option PreparedClientDh
  deriving DecidableEq

namespace AuthKeyHandshake

def new (nonce : Nonce) : AuthKeyHandshake where
  nonce := nonce
  state := .ready
  serverNonce := none
  newNonce := none
  serverDh := none
  preparedClientDh := none

def expectState (state : AuthKeyHandshakeState) (reason : String) :
    Eff HandshakeError AuthKeyHandshake Unit := do
  let self ← get
  orThrow id (ensure (self.state = state) (.invalidState reason))

def expectData {α : Type} (data : AuthKeyHandshake → Option α) :
    Eff HandshakeError AuthKeyHandshake α := do
  let self ← get
  orThrow id (okOr (data self) .missingHandshakeData)

def begin (messageId : Int64) : Eff HandshakeError AuthKeyHandshake PlaintextEnvelope := do
  expectState .ready "req_pq_multi already sent"
  let self ← get
  let body ← orThrow id (intoBytes do
    TlWriter.writeU32 reqPqMultiConstructor
    TlWriter.writeI128Bytes self.nonce)
  modify fun self ↦ { self with state := .awaitingResPq }
  return { messageId, body }

def receiveResPq (envelope : PlaintextEnvelope) : Eff HandshakeError AuthKeyHandshake ResPq := do
  expectState .awaitingResPq "not awaiting resPQ"
  let self ← get
  let response ← orThrow id (parseResPq envelope.body)
  orThrow id (ensure (response.nonce = self.nonce) .nonceMismatch)
  orThrow id (ensure (response.pq ≠ []) .emptyPq)
  orThrow id (ensure (response.serverPublicKeyFingerprints ≠ []) .missingServerKeyFingerprint)
  modify fun self ↦
    { self with serverNonce := some response.serverNonce, state := .resPqReceived response }
  return response

def prepareReqDhParamsWithRandom (messageId : Int64) (dcId : Int32) (testEnvironment : Bool)
    (fillRandom : FillRandom) : Eff HandshakeError AuthKeyHandshake PlaintextEnvelope := do
  let self ← get
  match self.state with
  | .resPqReceived response => do
      let factors ← orThrow id (factorResPq response)
      let key ← orThrow id (telegramServerRsaKey testEnvironment)
      let fingerprint ← orThrow id (key.fingerprint prims)
      orThrow id (ensure (fingerprint ∈ response.serverPublicKeyFingerprints) .noTrustedServerKey)
      let newNonce ← orThrow id (fillRandom 0 32)
      let inner ← orThrow id (buildPQInnerDataDc response factors newNonce dcId)
      let encrypted ← orThrow id (rsaPadWithRandom prims inner key fun call ↦ fillRandom (call + 1))
      let body ← orThrow id (buildReqDhParams response factors fingerprint encrypted)
      modify fun self ↦ { self with newNonce := some newNonce, state := .awaitingServerDh }
      return { messageId, body }
  | _ => throw (.invalidState "resPQ is not available")

def receiveServerDhWithRandom (envelope : PlaintextEnvelope) (clientMessageId : Int64)
    (fillRandom : FillRandom) : Eff HandshakeError AuthKeyHandshake PlaintextEnvelope := do
  expectState .awaitingServerDh "not awaiting server_DH_params"
  let self ← get
  let newNonce ← expectData newNonce
  let serverNonce ← expectData serverNonce
  let response ← orThrow id (parseServerDhParams envelope.body self.nonce serverNonce)
  match response with
  | .ok encryptedAnswer => do
      let serverDh ← orThrow id
        (decryptServerDhInnerData prims encryptedAnswer newNonce self.nonce serverNonce)
      let prepared ← orThrow id (prepareClientDh prims serverDh newNonce 0 fillRandom)
      modify fun self ↦
        { self with
          serverDh := some serverDh
          preparedClientDh := some prepared
          state := .awaitingDhGen }
      return { messageId := clientMessageId, body := prepared.requestBody }
  | .fail newNonceHash => do
      let digest := prims.sha1 newNonce.toList
      let expected : Vector UInt8 16 := digest.extract 4 20
      orThrow id (ensure (newNonceHash = expected) .serverDhHashMismatch)
      throw .serverDhRejected

/-- The prepared value is taken out of the machine before the answer is put together. -/
def receiveDhGen (envelope : PlaintextEnvelope) (retryMessageId : Int64)
    (secureRandomFill : FillRandom) : Eff HandshakeError AuthKeyHandshake DhGenAction := do
  expectState .awaitingDhGen "not awaiting dh_gen result"
  let self ← get
  let newNonce ← expectData newNonce
  let pending ← expectData preparedClientDh
  let authKeyAuxHash := pending.authKeyAuxHash
  let serverNonce ← expectData serverNonce
  let dhGenResult ← orThrow id
    (parseDhGenResult prims envelope.body self.nonce serverNonce newNonce authKeyAuxHash)
  match dhGenResult with
  | .ok => do
      let prepared ← expectData preparedClientDh
      modify fun self ↦ { self with preparedClientDh := none }
      let serverDh ← expectData serverDh
      modify fun self ↦ { self with state := .complete }
      return .established {
        authKey := prepared.authKey
        serverSalt := prepared.serverSalt
        serverTime := serverDh.serverTime }
  | .retry => do
      let serverDh ← expectData serverDh
      let next ← orThrow id (prepareClientDh prims serverDh newNonce authKeyAuxHash secureRandomFill)
      modify fun self ↦ { self with preparedClientDh := some next }
      return .retry { messageId := retryMessageId, body := next.requestBody }
  | .fail => throw .dhGenRejected

end AuthKeyHandshake

end Fabushi.Telegram
