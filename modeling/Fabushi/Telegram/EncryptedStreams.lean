import Fabushi.Telegram.Envelopes
import Fabushi.Telegram.TransportRoundTrip

/-!
# Encrypted messages over a connection

Every message is encrypted, its envelope is laid out in bytes and framed, and the frames are
sent one after another. The other side takes what has come for frames, reads the envelopes
and decrypts them. However the bytes arrive, and wherever the connection breaks off, it gets
an initial part of the messages, and all of them when all bytes have come.
-/

namespace Fabushi.Telegram

open Effects Incremental Radix Result Wire

/-! ## Envelopes in bytes -/

namespace EncryptedEnvelope

def toBytes (envelope : EncryptedEnvelope) : List UInt8 :=
  toLe 8 envelope.authKeyId.toNat ++ envelope.messageKey.toList ++ envelope.encryptedData

def fromBytes (value : List UInt8) : Except CryptoError EncryptedEnvelope :=
  if h : value.length < 24 ∨ ¬ (value.length - 24) % aesBlockLength = 0 then
    .error .invalidEnvelope
  else .ok {
    authKeyId := UInt64.ofNat (ofLe (value.take 8))
    messageKey := ⟨((value.drop 8).take 16).toArray, by
      rw [List.size_toArray, List.length_take, List.length_drop]
      omega⟩
    encryptedData := value.drop 24 }

theorem length_toBytes (envelope : EncryptedEnvelope) :
    envelope.toBytes.length = 24 + envelope.encryptedData.length := by
  simp only [toBytes, List.length_append, length_toLe, Vector.length_toList]

theorem fromBytes_toBytes {envelope : EncryptedEnvelope}
    (h : envelope.encryptedData.length % aesBlockLength = 0) :
    fromBytes envelope.toBytes = .ok envelope := by
  have hlength := length_toBytes envelope
  have hid : envelope.toBytes.take 8 = toLe 8 envelope.authKeyId.toNat := by
    rw [toBytes, List.append_assoc, List.take_left' (length_toLe 8 _)]
  have hkey : (envelope.toBytes.drop 8).take 16 = envelope.messageKey.toList := by
    rw [toBytes, List.append_assoc, List.drop_left' (length_toLe 8 _),
      List.take_left' Vector.length_toList]
  have hdata : envelope.toBytes.drop 24 = envelope.encryptedData := by
    refine List.drop_left' ?_
    rw [List.length_append, length_toLe, Vector.length_toList]
  unfold fromBytes
  rw [dif_neg (by rw [hlength, Nat.add_sub_cancel_left]; omega)]
  simp only [hid, hkey, hdata, u64_ofLe_toLe]
  rfl

end EncryptedEnvelope

/-! ## Frames that break off -/

namespace TransportFrameCodec

variable {crc32 : List UInt8 → UInt32}

theorem decode_nil (codec : TransportFrameCodec) : codec.decode crc32 [] = .ok none := by
  unfold decode
  cases codec.mode <;> rfl

/-- The frames that are there in full are decoded, and those behind them are waited for. -/
theorem exists_drains_front {codec : TransportFrameCodec}
    {sent : List (List UInt8 × List UInt8)} {front back : List UInt8}
    (h : codec.DecodesAs crc32 (front ++ back) sent) :
    ∃ k frames rest,
      Drains (codec.decode crc32) DecodedFrame.consumedBytes front frames (.ok rest) ∧
        payloads frames = (sent.take k).map Prod.fst ∧ (back = [] → k = sent.length) := by
  have hstable := stable_decode crc32 codec
  induction sent generalizing front with
  | nil =>
      obtain ⟨rfl, -⟩ := List.append_eq_nil_iff.mp h
      exact ⟨0, [], [], .waits (decode_nil codec), rfl, fun _ ↦ rfl⟩
  | cons part sent ih =>
      obtain ⟨decoded, hdecoded, hcarries, hrest⟩ := h
      by_cases hwaits : codec.decode crc32 front = .ok none
      · refine ⟨0, [], front, .waits hwaits, rfl, fun hback ↦ ?_⟩
        rw [hback, List.append_nil, hwaits] at hdecoded
        cases hdecoded
      · rw [hstable.settled front hwaits back] at hdecoded
        have hsized := hstable.size_le front decoded hdecoded
        rw [List.drop_append_of_le_length hsized] at hrest
        obtain ⟨k, frames, rest, hdrains, hpayloads, hall⟩ := ih hrest
        refine ⟨k + 1, decoded :: frames, rest, .takes hdecoded hdrains, ?_, fun hback ↦ ?_⟩
        · rw [payloads, List.filter_cons_of_pos (by rw [hcarries.quickAckToken]; rfl),
            List.map_cons, hcarries.payload, List.take_succ_cons, List.map_cons, ← hpayloads]
          rfl
        · rw [hall hback, List.length_cons]

theorem length_le_of_encode {codec codec' : TransportFrameCodec} {payload frame : List UInt8}
    (h : Yields (encode crc32 payload) codec (.ok frame) codec') :
    payload.length ≤ codec.maxFrameBytes := by
  rw [encode, encodeInternal, yields_get_bind] at h
  rcases yields_orThrow_bind.mp h with ⟨_, hcheck, -⟩ | ⟨e, -, h, -⟩
  · exact (checkPayload_ok hcheck).2.1
  · cases h

theorem lengths_of_encode {codec codec' : TransportFrameCodec} {sent frames : List (List UInt8)}
    (h : Yields (sent.mapM (encode crc32)) codec (.ok frames) codec') :
    frames.length = sent.length ∧ ∀ payload ∈ sent, payload.length ≤ codec.maxFrameBytes := by
  induction sent generalizing codec codec' frames with
  | nil =>
      rw [List.mapM_nil] at h
      obtain rfl := Except.ok.inj (yields_pure.mp h).1
      exact ⟨rfl, List.forall_mem_nil _⟩
  | cons payload sent ih =>
      rw [List.mapM_cons] at h
      obtain ⟨frame, codec₁, hframe, h⟩ := exists_of_yields_bind h
      obtain ⟨frames, codec₂, hframes, h⟩ := exists_of_yields_bind h
      obtain rfl := Except.ok.inj (yields_pure.mp h).1
      have hpadded : Yields (encodeWithPadding crc32 payload []) codec (.ok frame) codec₁ := hframe
      obtain ⟨-, hmax, -⟩ := decode_of_encode hpadded rfl rfl []
      obtain ⟨hlength, hrest⟩ := ih hframes
      rw [hmax] at hrest
      exact ⟨congrArg (· + 1) hlength, List.forall_mem_cons.mpr ⟨length_le_of_encode hframe, hrest⟩⟩

end TransportFrameCodec

/-! ## Messages -/

section

variable {crc32 : List UInt8 → UInt32} {prims : Primitives} {authKey : AuthKey}
  {direction : CryptoDirection} {sessionId : Int64}

/-- What the receiver does with a payload. -/
def openPayload (prims : Primitives) (authKey : AuthKey) (direction : CryptoDirection)
    (sessionId : Int64) (payload : List UInt8) : Except CryptoError PlainMessage := do
  let envelope ← EncryptedEnvelope.fromBytes payload
  decryptMessage prims authKey direction envelope sessionId

theorem openPayload_of_encrypted {message : PlainMessage} {envelope : EncryptedEnvelope}
    (h : encryptMessage prims authKey direction message = .ok envelope)
    (hparity : HasParity direction message.messageId) :
    16 < envelope.toBytes.length ∧
      openPayload prims authKey direction message.sessionId envelope.toBytes = .ok message := by
  obtain ⟨hformed, hlength, hid, hkey, hdata, hopened⟩ := encryptMessage_ok h
  have htotal := length_layout message
  have haligned : envelope.encryptedData.length % aesBlockLength = 0 := by
    rw [hdata, htotal]
    exact hformed.aligned
  refine ⟨by rw [EncryptedEnvelope.length_toBytes]; omega, bind_eq_ok.mpr ⟨envelope, ?_, ?_⟩⟩
  · exact EncryptedEnvelope.fromBytes_toBytes haligned
  · refine decryptMessage_iff.mpr ⟨hid, fun hnil ↦ ?_, haligned, by rw [hopened, hkey], hopened,
      hlength, hformed, rfl, hparity⟩
    rw [hnil, htotal] at hdata
    unfold internalHeaderLength at hdata
    rw [List.length_nil] at hdata
    omega

theorem openPayloads_of_encrypted {messages : List PlainMessage} {envelopes : List EncryptedEnvelope}
    (h : messages.mapM (encryptMessage prims authKey direction) = .ok envelopes)
    (hmessages : ∀ message ∈ messages, message.sessionId = sessionId ∧
      HasParity direction message.messageId) :
    envelopes.length = messages.length ∧
      (∀ payload ∈ envelopes.map EncryptedEnvelope.toBytes, 16 < payload.length) ∧
      ∀ k, ((envelopes.map EncryptedEnvelope.toBytes).take k).mapM
        (openPayload prims authKey direction sessionId) = .ok (messages.take k) := by
  induction messages generalizing envelopes with
  | nil =>
      rw [List.mapM_nil] at h
      obtain rfl := Except.ok.inj h
      refine ⟨rfl, List.forall_mem_nil _, fun k ↦ ?_⟩
      rw [List.map_nil, List.take_nil, List.take_nil]
      rfl
  | cons message messages ih =>
      rw [List.mapM_cons] at h
      obtain ⟨envelope, hsealed, h⟩ := bind_eq_ok.mp h
      obtain ⟨envelopes, hrest, h⟩ := bind_eq_ok.mp h
      obtain rfl := Except.ok.inj h
      obtain ⟨⟨rfl, hparity⟩, hothers⟩ := List.forall_mem_cons.mp hmessages
      obtain ⟨hlong, hopen⟩ := openPayload_of_encrypted hsealed hparity
      obtain ⟨hlength, hlongs, hopens⟩ := ih hrest hothers
      refine ⟨congrArg (· + 1) hlength, List.forall_mem_cons.mpr ⟨hlong, hlongs⟩, fun k ↦ ?_⟩
      cases k with
      | zero => rfl
      | succ k =>
          rw [List.map_cons, List.take_succ_cons, List.mapM_cons]
          exact bind_eq_ok.mpr
            ⟨message, hopen, bind_eq_ok.mpr ⟨messages.take k, hopens k, rfl⟩⟩

/-- Whatever has come of the frames of encrypted messages, and however it was cut into reads,
what is received opens to the first of the messages, in their order and unchanged; and to
all of them when all has come. -/
theorem encrypted_stream {mode : TransportMode} {messages : List PlainMessage}
    {envelopes : List EncryptedEnvelope} {frames : List (List UInt8)}
    {codec' : TransportFrameCodec}
    (hsealed : messages.mapM (encryptMessage prims authKey direction) = .ok envelopes)
    (hmessages : ∀ message ∈ messages, message.sessionId = sessionId ∧
      HasParity direction message.messageId)
    (hframed : Yields ((envelopes.map EncryptedEnvelope.toBytes).mapM
      (TransportFrameCodec.encode crc32)) (.new mode) (.ok frames) codec')
    {reads : List (List UInt8)} (hreads : ∀ chunk ∈ reads, chunk ≠ [])
    (hfront : reads.flatten <+: frames.flatten) :
    ∃ k received,
      TcpTransport.Receives crc32 { codec := .new mode, reads } received .connectionClosed ∧
        received.mapM (openPayload prims authKey direction sessionId) = .ok (messages.take k) ∧
        (reads.flatten = frames.flatten → k = messages.length) := by
  obtain ⟨hcount, hlong, hopens⟩ := openPayloads_of_encrypted hsealed hmessages
  obtain ⟨hlength, hbound⟩ := TransportFrameCodec.lengths_of_encode hframed
  let sent : List Outgoing := (envelopes.map EncryptedEnvelope.toBytes).map fun payload ↦ { payload }
  have hcontent : sent.map Outgoing.content = envelopes.map EncryptedEnvelope.toBytes := by
    simp [sent, Outgoing.content]
  have hencoded : Yields (sent.mapM (TransportFrameCodec.encodeOutgoing crc32)) (.new mode)
      (.ok frames) codec' := by
    rwa [List.mapM_map]
  have hdecodes := (TransportFrameCodec.decodesAs_iff hencoded rfl rfl).mpr (by
    intro outgoing houtgoing
    have hmem : outgoing.content ∈ envelopes.map EncryptedEnvelope.toBytes := by
      rw [← hcontent]
      exact List.mem_map_of_mem houtgoing
    have hlow := hlong _ hmem
    have hhigh : outgoing.content.length < 2 ^ 31 := by
      have hle : outgoing.content.length ≤ defaultMaxFrameBytes := hbound _ hmem
      unfold defaultMaxFrameBytes at hle
      omega
    cases mode with
    | full => trivial
    | abridged => trivial
    | intermediate => exact hhigh
    | paddedIntermediate => exact ⟨hhigh, fun h ↦ absurd h.2.1 (Nat.not_le.mpr hlow)⟩)
  obtain ⟨back, hback⟩ := hfront
  rw [hcontent, ← hback] at hdecodes
  obtain ⟨k, taken, rest, hdrains, hpayloads, hall⟩ :=
    TransportFrameCodec.exists_drains_front hdecodes
  rw [List.map_take, List.map_fst_zip hlength.ge] at hpayloads
  have hreceives : TcpTransport.Receives crc32 { codec := .new mode, reads } (payloads taken)
      (ending (.ok rest)) := TcpTransport.receives_of_drains hreads hdrains
  refine ⟨k, payloads taken, hreceives, ?_, fun hwhole ↦ ?_⟩
  · rw [hpayloads]
    exact hopens k
  · rw [hall (List.append_right_eq_self.mp (hback.trans hwhole.symm)), List.length_zip, hlength,
      Nat.min_self, List.length_map, hcount]

end

/-- A frame that comes in two reads. -/
theorem encrypted_stream_courier :
    ∃ received,
      TcpTransport.Receives Crc.hash
        { codec := .new .abridged
          reads := [(18 :: Courier.envelope.toBytes).take 30,
            (18 :: Courier.envelope.toBytes).drop 30] } received .connectionClosed ∧
      received.mapM (openPayload Courier.prims Courier.authKey .clientToServer 1) =
        .ok [Courier.message] := by
  have hflatten : [(18 :: Courier.envelope.toBytes).take 30,
      (18 :: Courier.envelope.toBytes).drop 30].flatten = [18 :: Courier.envelope.toBytes].flatten := by
    simp
  have hsealed : [Courier.message].mapM
      (encryptMessage Courier.prims Courier.authKey .clientToServer) = .ok [Courier.envelope] := by
    rw [List.mapM_cons, Courier.encrypted]
    rfl
  have hreads : ∀ chunk ∈ [(18 :: Courier.envelope.toBytes).take 30,
      (18 :: Courier.envelope.toBytes).drop 30], chunk ≠ [] := by
    decide
  obtain ⟨k, received, hreceives, hopens, hall⟩ :=
    @encrypted_stream Crc.hash _ _ _ 1 .abridged _ _ [18 :: Courier.envelope.toBytes] _ hsealed
      (by decide) rfl _ hreads (by rw [hflatten])
  rw [hall hflatten] at hopens
  exact ⟨received, hreceives, hopens⟩

end Fabushi.Telegram
