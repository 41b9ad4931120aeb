import Fabushi.Library.Sha256
import Fabushi.Telegram.Crypto

/-!
# Encrypted messages are read back

The layout of a message determines it, and the block cipher mode is undone, so an encrypted
message is decrypted to itself. Whatever else is decrypted is refused unless it is the
layout of a well-formed message under its own message key.
-/

namespace Fabushi.Telegram

open Radix Result Wire

section

/-! ## Well-formed messages -/

structure PlainMessage.WellFormed (message : PlainMessage) : Prop where
  body_ne_nil : message.body ≠ []
  body_aligned : message.body.length % 4 = 0
  le_padding : minPaddingLength ≤ message.padding.length
  padding_le : message.padding.length ≤ maxPaddingLength
  aligned : (internalHeaderLength + message.body.length + message.padding.length) %
    aesBlockLength = 0

def HasParity : CryptoDirection → Int64 → Prop
  | .clientToServer, messageId => messageId.toInt % 4 = 0
  | .serverToClient, messageId => messageId.toInt % 2 = 1

instance (direction : CryptoDirection) (messageId : Int64) :
    Decidable (HasParity direction messageId) := by
  cases direction
  · exact inferInstanceAs (Decidable (_ = _))
  · exact inferInstanceAs (Decidable (_ = _))

variable {message : PlainMessage} {direction : CryptoDirection} {sessionId : Int64}
  {plaintext : List UInt8}

theorem wellFormed_iff :
    ¬ (message.body = [] ∨ ¬ message.body.length % 4 = 0 ∨
      ¬ (minPaddingLength ≤ message.padding.length ∧ message.padding.length ≤ maxPaddingLength) ∨
      ¬ (internalHeaderLength + message.body.length + message.padding.length) %
        aesBlockLength = 0) ↔ message.WellFormed := by
  simp only [not_or, not_not]
  constructor
  · rintro ⟨hne, hbody, ⟨hmin, hmax⟩, haligned⟩
    exact ⟨hne, hbody, hmin, hmax, haligned⟩
  · intro h
    exact ⟨h.body_ne_nil, h.body_aligned, ⟨h.le_padding, h.padding_le⟩, h.aligned⟩

theorem validatePlainMessage_none_iff :
    validatePlainMessage message none none = .ok () ↔ message.WellFormed := by
  unfold validatePlainMessage
  rw [bind_eq_ok, ← wellFormed_iff]
  constructor
  · rintro ⟨_, hformed, -⟩
    exact ensure_eq_ok.mp hformed
  · intro hformed
    exact ⟨(), ensure_eq_ok.mpr hformed, rfl⟩

theorem validatePlainMessage_iff :
    validatePlainMessage message (some direction) (some sessionId) = .ok () ↔
      message.WellFormed ∧ message.sessionId = sessionId ∧
        HasParity direction message.messageId := by
  unfold validatePlainMessage
  rw [bind_eq_ok, ← wellFormed_iff]
  have hsession : (¬ (some sessionId).any fun expected ↦ message.sessionId ≠ expected) ↔
      message.sessionId = sessionId := by
    simp
  constructor
  · rintro ⟨_, hformed, h⟩
    obtain ⟨_, hequal, h⟩ := bind_eq_ok.mp h
    refine ⟨ensure_eq_ok.mp hformed, hsession.mp (ensure_eq_ok.mp hequal), ?_⟩
    cases direction with
    | clientToServer => exact ensure_eq_ok.mp h
    | serverToClient => exact ensure_eq_ok.mp h
  · rintro ⟨hformed, hequal, hparity⟩
    refine ⟨(), ensure_eq_ok.mpr hformed, bind_eq_ok.mpr ?_⟩
    refine ⟨(), ensure_eq_ok.mpr (hsession.mpr hequal), ?_⟩
    cases direction with
    | clientToServer => exact ensure_eq_ok.mpr hparity
    | serverToClient => exact ensure_eq_ok.mpr hparity

/-! ## The layout -/

def PlainMessage.layout (message : PlainMessage) : List UInt8 :=
  toLe 8 message.serverSalt.toUInt64.toNat ++ toLe 8 message.sessionId.toUInt64.toNat ++
    toLe 8 message.messageId.toUInt64.toNat ++ toLe 4 message.sequenceNumber.toUInt32.toNat ++
    toLe 4 (Int32.ofNat message.body.length).toUInt32.toNat ++ message.body ++ message.padding

theorem length_layout (message : PlainMessage) :
    message.layout.length = internalHeaderLength + message.body.length + message.padding.length := by
  simp only [PlainMessage.layout, List.length_append, length_toLe, internalHeaderLength]

theorem encode_iff :
    message.encode = .ok plaintext ↔
      message.WellFormed ∧ message.body.length < 2 ^ 31 ∧ plaintext = message.layout := by
  rw [PlainMessage.encode, bind_eq_ok]
  constructor
  · rintro ⟨_, hformed, h⟩
    obtain ⟨_, hlength, h⟩ := bind_eq_ok.mp h
    exact ⟨validatePlainMessage_none_iff.mp hformed, ensure_eq_ok.mp hlength,
      (Except.ok.inj h).symm⟩
  · rintro ⟨hformed, hlength, rfl⟩
    refine ⟨(), validatePlainMessage_none_iff.mpr hformed, bind_eq_ok.mpr ?_⟩
    exact ⟨(), ensure_eq_ok.mpr hlength, rfl⟩

theorem readI64_iff {value : List UInt8} {offset : ℕ} {n : Int64} :
    readI64 value offset = .ok n ↔
      slice value offset (offset + 8) = some (toLe 8 n.toUInt64.toNat) := by
  rw [readI64, bind_eq_ok]
  constructor
  · rintro ⟨bytes, hslice, h⟩
    rw [okOr_eq_ok] at hslice
    obtain rfl := Except.ok.inj h
    have hlength : bytes.length = 8 := by
      rw [length_of_slice hslice]
      omega
    have hlt := ofLe_lt bytes
    rw [hlength] at hlt
    have hword : (UInt64.ofNat (ofLe bytes)).toInt64.toUInt64.toNat = ofLe bytes := by
      rw [UInt64.toUInt64_toInt64, UInt64.toNat_ofNat', Nat.mod_eq_of_lt (by omega)]
    rw [hword, ← hlength, toLe_ofLe, hlength, hslice]
  · intro hslice
    refine ⟨_, okOr_eq_ok.mpr hslice, ?_⟩
    rw [u64_ofLe_toLe]
    rfl

theorem readI32_iff {value : List UInt8} {offset : ℕ} {n : Int32} :
    readI32 value offset = .ok n ↔
      slice value offset (offset + 4) = some (toLe 4 n.toUInt32.toNat) := by
  rw [readI32, bind_eq_ok]
  constructor
  · rintro ⟨bytes, hslice, h⟩
    rw [okOr_eq_ok] at hslice
    obtain rfl := Except.ok.inj h
    have hlength : bytes.length = 4 := by
      rw [length_of_slice hslice]
      omega
    have hlt := ofLe_lt bytes
    rw [hlength] at hlt
    have hword : (UInt32.ofNat (ofLe bytes)).toInt32.toUInt32.toNat = ofLe bytes := by
      rw [UInt32.toUInt32_toInt32, UInt32.toNat_ofNat', Nat.mod_eq_of_lt (by omega)]
    rw [hword, ← hlength, toLe_ofLe, hlength, hslice]
  · intro hslice
    refine ⟨_, okOr_eq_ok.mpr hslice, ?_⟩
    rw [u32_ofLe_toLe]
    rfl

theorem toInt_ofNat_length (h : message.body.length < 2 ^ 31) :
    (Int32.ofNat message.body.length).toInt = message.body.length :=
  Int32.toInt_ofNat_of_lt h

structure PlainMessage.Laid (message : PlainMessage) (plaintext : List UInt8) : Prop where
  serverSalt : slice plaintext 0 8 = some (toLe 8 message.serverSalt.toUInt64.toNat)
  sessionId : slice plaintext 8 16 = some (toLe 8 message.sessionId.toUInt64.toNat)
  messageId : slice plaintext 16 24 = some (toLe 8 message.messageId.toUInt64.toNat)
  sequenceNumber : slice plaintext 24 28 = some (toLe 4 message.sequenceNumber.toUInt32.toNat)
  bodyLength : slice plaintext 28 32 =
    some (toLe 4 (Int32.ofNat message.body.length).toUInt32.toNat)
  body : slice plaintext 32 (32 + message.body.length) = some message.body
  padding : slice plaintext (32 + message.body.length) plaintext.length = some message.padding

def PlainMessage.header (message : PlainMessage) : List UInt8 :=
  toLe 8 message.serverSalt.toUInt64.toNat ++ (toLe 8 message.sessionId.toUInt64.toNat ++
    (toLe 8 message.messageId.toUInt64.toNat ++ (toLe 4 message.sequenceNumber.toUInt32.toNat ++
      toLe 4 (Int32.ofNat message.body.length).toUInt32.toNat)))

theorem laid_layout (message : PlainMessage) : message.Laid message.layout := by
  have hlayout : message.layout = message.header ++ (message.body ++ message.padding) := by
    simp only [PlainMessage.layout, PlainMessage.header, List.append_assoc]
  have hheader : message.header.length = 32 := by
    simp only [PlainMessage.header, List.length_append, length_toLe]
  have hfront : ∀ {start stop : ℕ} {part : List UInt8},
      slice message.header start stop = some part → slice message.layout start stop = some part := by
    intro start stop part h
    rw [hlayout]
    exact slice_append h _
  constructor
  · exact hfront (slice_head (length_toLe 8 _) _)
  · refine hfront ((slice_skip (length_toLe 8 _) 0 8).trans ?_)
    exact slice_head (length_toLe 8 _) _
  · refine hfront ((slice_skip (length_toLe 8 _) 8 16).trans ?_)
    refine (slice_skip (length_toLe 8 _) 0 8).trans ?_
    exact slice_head (length_toLe 8 _) _
  · refine hfront ((slice_skip (length_toLe 8 _) 16 20).trans ?_)
    refine (slice_skip (length_toLe 8 _) 8 12).trans ?_
    refine (slice_skip (length_toLe 8 _) 0 4).trans ?_
    exact slice_head (length_toLe 4 _) _
  · refine hfront ((slice_skip (length_toLe 8 _) 20 24).trans ?_)
    refine (slice_skip (length_toLe 8 _) 12 16).trans ?_
    refine (slice_skip (length_toLe 8 _) 4 8).trans ?_
    refine (slice_skip (length_toLe 4 _) 0 4).trans ?_
    have hwhole := slice_front (toLe 4 (Int32.ofNat message.body.length).toUInt32.toNat) []
    rwa [List.append_nil, length_toLe] at hwhole
  · rw [hlayout]
    exact (slice_skip hheader 0 message.body.length).trans (slice_head rfl _)
  · have hbody : (message.header ++ message.body).length = 32 + message.body.length := by
      rw [List.length_append, hheader]
    have hlength : message.layout.length = 32 + message.body.length + message.padding.length :=
      length_layout message
    have hpadding := slice_front message.padding []
    rw [List.append_nil] at hpadding
    rw [hlength, hlayout, ← List.append_assoc]
    exact (slice_skip hbody 0 message.padding.length).trans hpadding

theorem laid_iff : message.Laid plaintext ↔ plaintext = message.layout := by
  constructor
  · intro h
    have hend := le_length_of_slice h.body
    have htake := take_of_slice hend h.padding
    have h32 := take_of_slice (by decide) h.bodyLength
    have h28 := take_of_slice (by decide) h.sequenceNumber
    have h24 := take_of_slice (by decide) h.messageId
    have h16 := take_of_slice (by decide) h.sessionId
    have h8 := take_of_slice (by decide) h.serverSalt
    rw [List.take_zero, List.nil_append] at h8
    rw [List.take_length, take_of_slice (by omega) h.body, h32, h28, h24, h16, h8] at htake
    exact htake
  · rintro rfl
    exact laid_layout message

theorem decodePlainMessage_iff (hpadding : minPaddingLength ≤ message.padding.length)
    (hbody : message.body.length % 4 = 0) :
    decodePlainMessage plaintext = .ok message ↔
      message.body.length < 2 ^ 31 ∧ plaintext = message.layout := by
  rw [decodePlainMessage, ← laid_iff]
  constructor
  · intro h
    obtain ⟨_, -, h⟩ := bind_eq_ok.mp h
    obtain ⟨serverSalt, hserverSalt, h⟩ := bind_eq_ok.mp h
    obtain ⟨sessionId, hsessionId, h⟩ := bind_eq_ok.mp h
    obtain ⟨messageId, hmessageId, h⟩ := bind_eq_ok.mp h
    obtain ⟨sequenceNumber, hsequenceNumber, h⟩ := bind_eq_ok.mp h
    obtain ⟨bodyLength, hbodyLength, h⟩ := bind_eq_ok.mp h
    obtain ⟨_, hsign, h⟩ := bind_eq_ok.mp h
    obtain ⟨body, hbodySlice, h⟩ := bind_eq_ok.mp h
    obtain ⟨padding, hpaddingSlice, h⟩ := bind_eq_ok.mp h
    obtain rfl := Except.ok.inj h
    rw [ensure_eq_ok, not_or, not_not] at hsign
    rw [okOr_eq_ok] at hbodySlice hpaddingSlice
    have hnonneg : 0 ≤ bodyLength.toInt := by
      rw [Int32.lt_iff_toInt_lt] at hsign
      exact Int.not_lt.mp hsign.1
    have hsize : body.length = bodyLength.toInt.toNat := by
      rw [length_of_slice hbodySlice]
      omega
    have hmax := Int32.toInt_lt bodyLength
    have hword : Int32.ofNat body.length = bodyLength := by
      apply Int32.toInt_inj.mp
      rw [Int32.toInt_ofNat_of_lt (by omega), hsize]
      omega
    rw [← hsize] at hbodySlice hpaddingSlice
    rw [← hword] at hbodyLength
    exact ⟨by dsimp only; omega, readI64_iff.mp hserverSalt, readI64_iff.mp hsessionId,
      readI64_iff.mp hmessageId, readI32_iff.mp hsequenceNumber, readI32_iff.mp hbodyLength,
      hbodySlice, hpaddingSlice⟩
  · rintro ⟨hlength, hlaid⟩
    have hbodyInt := toInt_ofNat_length hlength
    have hsign : ¬ (Int32.ofNat message.body.length < 0 ∨
        ¬ (Int32.ofNat message.body.length).toInt % 4 = 0) := by
      rw [Int32.lt_iff_toInt_lt, hbodyInt, not_or, not_not]
      exact ⟨Int.not_lt.mpr (Int.natCast_nonneg _), by omega⟩
    have htotal : internalHeaderLength + minPaddingLength ≤ plaintext.length := by
      have hpart := length_of_slice hlaid.padding
      have hend := le_length_of_slice hlaid.body
      unfold internalHeaderLength
      omega
    refine bind_eq_ok.mpr ⟨(), ensure_eq_ok.mpr (Nat.not_lt.mpr htotal), ?_⟩
    refine bind_eq_ok.mpr ⟨_, readI64_iff.mpr hlaid.serverSalt, ?_⟩
    refine bind_eq_ok.mpr ⟨_, readI64_iff.mpr hlaid.sessionId, ?_⟩
    refine bind_eq_ok.mpr ⟨_, readI64_iff.mpr hlaid.messageId, ?_⟩
    refine bind_eq_ok.mpr ⟨_, readI32_iff.mpr hlaid.sequenceNumber, ?_⟩
    refine bind_eq_ok.mpr ⟨_, readI32_iff.mpr hlaid.bodyLength, ?_⟩
    refine bind_eq_ok.mpr ⟨(), ensure_eq_ok.mpr hsign, ?_⟩
    rw [hbodyInt, Int.toNat_natCast]
    refine bind_eq_ok.mpr ⟨_, okOr_eq_ok.mpr hlaid.body, ?_⟩
    exact bind_eq_ok.mpr ⟨_, okOr_eq_ok.mpr hlaid.padding, rfl⟩

/-! ## The cipher -/

section Cipher

variable {prims : Primitives} {bytes : List UInt8} {key iv : Vector UInt8 32}

theorem aesIge_of_aligned (h : ¬ (bytes = [] ∨ ¬ bytes.length % aesBlockLength = 0)) :
    let cipher := prims.aes256 key
    let blocks := Ige.blocks 16 (bytes.length / aesBlockLength) bytes
    aesIgeEncrypt prims bytes key iv =
        .ok (Ige.bytes (Ige.encrypt cipher (iv.extract 0 16) (iv.extract 16 32) blocks)) ∧
      aesIgeDecrypt prims bytes key iv =
        .ok (Ige.bytes (Ige.decrypt cipher (iv.extract 0 16) (iv.extract 16 32) blocks)) :=
  ⟨bind_eq_ok.mpr ⟨(), ensure_eq_ok.mpr h, rfl⟩, bind_eq_ok.mpr ⟨(), ensure_eq_ok.mpr h, rfl⟩⟩

theorem aligned_of_length {other : List UInt8}
    (h : ¬ (bytes = [] ∨ ¬ bytes.length % aesBlockLength = 0))
    (hlength : other.length = bytes.length) :
    ¬ (other = [] ∨ ¬ other.length % aesBlockLength = 0) := by
  rwa [← List.length_eq_zero_iff, hlength, List.length_eq_zero_iff]

/-- The directions undo each other on every text of full blocks, and take no other text. -/
theorem aesIge_inverse (prims : Primitives) (bytes : List UInt8) (key iv : Vector UInt8 32) :
    (bytes ≠ [] ∧ bytes.length % aesBlockLength = 0 →
      (∃ ciphertext, aesIgeEncrypt prims bytes key iv = .ok ciphertext ∧
        ciphertext.length = bytes.length ∧ aesIgeDecrypt prims ciphertext key iv = .ok bytes) ∧
      ∃ plaintext, aesIgeDecrypt prims bytes key iv = .ok plaintext ∧
        plaintext.length = bytes.length ∧ aesIgeEncrypt prims plaintext key iv = .ok bytes) ∧
    (bytes = [] ∨ bytes.length % aesBlockLength ≠ 0 →
      aesIgeEncrypt prims bytes key iv = .error .invalidPlaintext ∧
        aesIgeDecrypt prims bytes key iv = .error .invalidEnvelope) := by
  constructor
  · rintro ⟨hne, haligned⟩
    have h := not_or.mpr ⟨hne, not_not.mpr haligned⟩
    have hblocks : bytes.length = 16 * (bytes.length / aesBlockLength) := by
      unfold aesBlockLength at *
      omega
    obtain ⟨hencrypt, hdecrypt⟩ := @aesIge_of_aligned prims bytes key iv h
    constructor
    · refine ⟨_, hencrypt, ?_⟩
      have hlength := (Ige.length_bytes_encrypt (prims.aes256 key) (iv.extract 0 16)
        (iv.extract 16 32) (bytes.length / aesBlockLength) bytes).trans hblocks.symm
      refine ⟨hlength, (aesIge_of_aligned (aligned_of_length h hlength)).2.trans ?_⟩
      rw [hlength, Ige.bytes_decrypt_encrypt _ _ _ hblocks]
    · refine ⟨_, hdecrypt, ?_⟩
      have hlength := (Ige.length_bytes_encrypt (prims.aes256 key).symm (iv.extract 16 32)
        (iv.extract 0 16) (bytes.length / aesBlockLength) bytes).trans hblocks.symm
      rw [← Ige.decrypt_eq_encrypt_symm] at hlength
      refine ⟨hlength, (aesIge_of_aligned (aligned_of_length h hlength)).1.trans ?_⟩
      rw [hlength, Ige.bytes_encrypt_decrypt _ _ _ hblocks]
  · intro h
    have hrefused : ∀ e : CryptoError, ensure
        (¬ (bytes = [] ∨ ¬ bytes.length % aesBlockLength = 0)) e = .error e :=
      fun e ↦ ensure_eq_error.mpr ⟨not_not.mpr h, rfl⟩
    rw [aesIgeEncrypt, aesIgeDecrypt, hrefused, hrefused]
    exact ⟨rfl, rfl⟩

/-- A text of no blocks is a text of full blocks, and is refused. -/
theorem aesIge_empty_refused :
    ¬ ∀ (prims : Primitives) (bytes : List UInt8) (key iv : Vector UInt8 32),
      bytes.length % aesBlockLength = 0 →
        (aesIgeEncrypt prims bytes key iv).bind (aesIgeDecrypt prims · key iv) = .ok bytes ∧
          (aesIgeDecrypt prims bytes key iv).bind (aesIgeEncrypt prims · key iv) = .ok bytes := by
  intro h
  let prims : Primitives := ⟨fun _ ↦ .replicate 20 0, fun _ ↦ .replicate 32 0, fun _ ↦ .refl _⟩
  cases (h prims [] (.replicate 32 0) (.replicate 32 0) rfl).1

end Cipher

/-! ## Envelopes -/

def openedPlaintext (prims : Primitives) (authKey : AuthKey) (direction : CryptoDirection)
    (envelope : EncryptedEnvelope) : List UInt8 :=
  let (aesKey, aesIv) := deriveAesKeyIv prims authKey envelope.messageKey direction
  Ige.bytes (Ige.decrypt (prims.aes256 aesKey) (aesIv.extract 0 16) (aesIv.extract 16 32)
    (Ige.blocks 16 (envelope.encryptedData.length / aesBlockLength) envelope.encryptedData))

/-- The envelope opens to the layout of a well-formed message of the session, under the
message key of this layout. -/
structure Authentic (prims : Primitives) (authKey : AuthKey) (direction : CryptoDirection)
    (envelope : EncryptedEnvelope) (sessionId : Int64) (message : PlainMessage) : Prop where
  authKeyId : envelope.authKeyId = authKey.id prims
  data_ne_nil : envelope.encryptedData ≠ []
  data_aligned : envelope.encryptedData.length % aesBlockLength = 0
  messageKey : computeMessageKey prims authKey direction
    (openedPlaintext prims authKey direction envelope) = envelope.messageKey
  layout : openedPlaintext prims authKey direction envelope = message.layout
  body_lt : message.body.length < 2 ^ 31
  wellFormed : message.WellFormed
  session : message.sessionId = sessionId
  parity : HasParity direction message.messageId

variable {prims : Primitives} {authKey : AuthKey} {envelope : EncryptedEnvelope}

theorem decryptMessage_iff :
    decryptMessage prims authKey direction envelope sessionId = .ok message ↔
      Authentic prims authKey direction envelope sessionId message := by
  have hopen : ∀ h : ¬ (envelope.encryptedData = [] ∨
      ¬ envelope.encryptedData.length % aesBlockLength = 0),
      aesIgeDecrypt prims envelope.encryptedData
        (deriveAesKeyIv prims authKey envelope.messageKey direction).1
        (deriveAesKeyIv prims authKey envelope.messageKey direction).2 =
      .ok (openedPlaintext prims authKey direction envelope) := by
    intro h
    exact (aesIge_of_aligned h).2
  rw [decryptMessage]
  constructor
  · intro h
    obtain ⟨_, hframe, h⟩ := bind_eq_ok.mp h
    obtain ⟨plaintext, hplaintext, h⟩ := bind_eq_ok.mp h
    obtain ⟨_, hkey, h⟩ := bind_eq_ok.mp h
    obtain ⟨message', hdecoded, h⟩ := bind_eq_ok.mp h
    obtain ⟨_, hvalid, h⟩ := bind_eq_ok.mp h
    obtain rfl := Except.ok.inj h
    rw [ensure_eq_ok, not_or, not_ne_iff] at hframe
    change (aesIgeDecrypt prims envelope.encryptedData
      (deriveAesKeyIv prims authKey envelope.messageKey direction).1
      (deriveAesKeyIv prims authKey envelope.messageKey direction).2).mapError _ = _ at hplaintext
    rw [hopen hframe.2] at hplaintext
    obtain rfl := Except.ok.inj hplaintext
    obtain ⟨hformed, hsession, hparity⟩ := validatePlainMessage_iff.mp hvalid
    obtain ⟨hlength, hlayout⟩ :=
      (decodePlainMessage_iff hformed.le_padding hformed.body_aligned).mp hdecoded
    have hdata := not_or.mp hframe.2
    exact ⟨hframe.1, hdata.1, not_not.mp hdata.2, ensure_eq_ok.mp hkey, hlayout, hlength, hformed,
      hsession, hparity⟩
  · intro h
    have hdata : ¬ (envelope.encryptedData = [] ∨
        ¬ envelope.encryptedData.length % aesBlockLength = 0) :=
      not_or.mpr ⟨h.data_ne_nil, not_not.mpr h.data_aligned⟩
    refine bind_eq_ok.mpr ⟨(), ensure_eq_ok.mpr (not_or.mpr ⟨not_ne_iff.mpr h.authKeyId, hdata⟩), ?_⟩
    refine bind_eq_ok.mpr ⟨openedPlaintext prims authKey direction envelope, ?_, ?_⟩
    · change (aesIgeDecrypt prims envelope.encryptedData
        (deriveAesKeyIv prims authKey envelope.messageKey direction).1
        (deriveAesKeyIv prims authKey envelope.messageKey direction).2).mapError _ = _
      rw [hopen hdata]
      rfl
    refine bind_eq_ok.mpr ⟨(), ensure_eq_ok.mpr h.messageKey, ?_⟩
    refine bind_eq_ok.mpr ⟨message, ?_, ?_⟩
    · exact (decodePlainMessage_iff h.wellFormed.le_padding h.wellFormed.body_aligned).mpr
        ⟨h.body_lt, h.layout⟩
    exact bind_eq_ok.mpr
      ⟨(), validatePlainMessage_iff.mpr ⟨h.wellFormed, h.session, h.parity⟩, rfl⟩

theorem encryptMessage_ok (h : encryptMessage prims authKey direction message = .ok envelope) :
    message.WellFormed ∧ message.body.length < 2 ^ 31 ∧
      envelope.authKeyId = authKey.id prims ∧
      envelope.messageKey = computeMessageKey prims authKey direction message.layout ∧
      envelope.encryptedData.length = message.layout.length ∧
      openedPlaintext prims authKey direction envelope = message.layout := by
  obtain ⟨plaintext, hencode, h⟩ := bind_eq_ok.mp h
  obtain ⟨encryptedData, hencrypted, h⟩ := bind_eq_ok.mp h
  obtain rfl := Except.ok.inj h
  obtain ⟨hformed, hlength, rfl⟩ := encode_iff.mp hencode
  obtain ⟨_, -, hencrypted⟩ := bind_eq_ok.mp hencrypted
  obtain rfl := Except.ok.inj hencrypted
  have hblocks : message.layout.length = 16 * (message.layout.length / aesBlockLength) := by
    have haligned := hformed.aligned
    rw [← length_layout] at haligned
    unfold aesBlockLength at haligned ⊢
    omega
  have hdata : ∀ cipher c p, (Ige.bytes (Ige.encrypt cipher c p (Ige.blocks 16
      (message.layout.length / aesBlockLength) message.layout))).length = message.layout.length := by
    intro cipher c p
    rw [Ige.length_bytes_encrypt, ← hblocks]
  refine ⟨hformed, hlength, rfl, rfl, hdata _ _ _, ?_⟩
  rw [openedPlaintext]
  dsimp only
  rw [hdata]
  exact Ige.bytes_decrypt_encrypt _ _ _ hblocks

/-- An encrypted message is decrypted to itself, and only authentic envelopes are
decrypted at all. -/
theorem message_round_trip
    (hencrypted : encryptMessage prims authKey direction message = .ok envelope)
    (hparity : HasParity direction message.messageId) :
    decryptMessage prims authKey direction envelope message.sessionId = .ok message ∧
      ∀ envelope' sessionId' message',
        decryptMessage prims authKey direction envelope' sessionId' = .ok message' ↔
          Authentic prims authKey direction envelope' sessionId' message' := by
  refine ⟨decryptMessage_iff.mpr ?_, fun _ _ _ ↦ decryptMessage_iff⟩
  obtain ⟨hformed, hlength, hid, hkey, hdata, hopened⟩ := encryptMessage_ok hencrypted
  have htotal := length_layout message
  refine ⟨hid, fun hnil ↦ ?_, ?_, ?_, hopened, hlength, hformed, rfl, hparity⟩
  · rw [hnil, htotal] at hdata
    unfold internalHeaderLength at hdata
    rw [List.length_nil] at hdata
    omega
  · rw [hdata, htotal]
    exact hformed.aligned
  · rw [hopened, hkey]

end

namespace Courier

def prims : Primitives where
  sha1 _ := #v[179, 118, 136, 90, 200, 69, 43, 108, 191, 156, 237, 129, 177, 8, 11, 253, 87, 13, 155,
    145]
  sha256 bytes := Vector.ofFn fun i : Fin 32 ↦ (Sha256.digest bytes).getD i 0
  aes256 _ :=
    Equiv.swap #v[255, 148, 130, 196, 111, 198, 224, 39, 210, 126, 11, 89, 90, 136, 235, 163]
        #v[123, 108, 214, 118, 46, 207, 23, 197, 8, 47, 149, 61, 55, 126, 142, 167] *
      Equiv.swap #v[159, 149, 19, 34, 182, 132, 10, 40, 35, 33, 189, 13, 25, 233, 170, 252]
        #v[113, 159, 108, 6, 33, 18, 17, 62, 61, 140, 33, 116, 196, 95, 165, 168] *
      Equiv.swap #v[112, 157, 111, 2, 33, 18, 17, 62, 60, 140, 33, 116, 196, 95, 165, 168]
        #v[30, 96, 33, 161, 58, 83, 40, 218, 198, 215, 89, 65, 251, 108, 63, 29]

def authKey : AuthKey :=
  .replicate 256 0

def message : PlainMessage where
  serverSalt := 0
  sessionId := 1
  messageId := 4
  sequenceNumber := 1
  body := [1, 2, 3, 4]
  padding := List.replicate 12 0

def envelope : EncryptedEnvelope where
  authKeyId := 10491994428448377009
  messageKey := #v[6, 178, 112, 55, 148, 174, 1, 242, 114, 165, 250, 36, 200, 75, 220, 138]
  encryptedData := [155, 149, 19, 34, 182, 132, 10, 40, 34, 33, 189, 13, 29, 233, 170, 252, 113, 159,
    108, 6, 33, 18, 17, 62, 60, 140, 33, 116, 196, 95, 165, 168, 26, 96, 33, 161, 58, 83, 40, 218,
    199, 215, 89, 65, 255, 108, 63, 29]

theorem encrypted : encryptMessage prims authKey .clientToServer message = .ok envelope := by
  have h : (encryptMessage prims authKey .clientToServer message).toOption = some envelope := by
    decide +kernel
  cases hmessage : encryptMessage prims authKey .clientToServer message with
  | error e =>
      rw [hmessage] at h
      cases h
  | ok envelope' =>
      rw [hmessage] at h
      rw [Option.some.inj h]

end Courier

theorem message_round_trip_courier :
    decryptMessage Courier.prims Courier.authKey .clientToServer Courier.envelope
        Courier.message.sessionId = .ok Courier.message ∧
      ∀ envelope' sessionId' message',
        decryptMessage Courier.prims Courier.authKey .clientToServer envelope' sessionId' =
            .ok message' ↔
          Authentic Courier.prims Courier.authKey .clientToServer envelope' sessionId' message' :=
  message_round_trip Courier.encrypted (by decide)

end Fabushi.Telegram
