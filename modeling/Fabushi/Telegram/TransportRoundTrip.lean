import Fabushi.Library.Text
import Fabushi.Telegram.TransportStreams

/-!
# What is framed is decoded

A frame that was encoded is decoded to its payload with the padding behind it, wherever it
stands in a stream. An intermediate frame is the exception: a length with its highest bit
set, or a padded content of 8 to 16 bytes that starts with four bytes of ones, is taken
for a quick acknowledgement.
-/

namespace Fabushi.Telegram

open Effects Radix Result Wire

variable {crc32 : List UInt8 → UInt32}

/-- A content of 8 to 16 bytes that starts with four bytes of ones. -/
def LooksAcknowledged (content : List UInt8) : Prop :=
  8 ≤ content.length ∧ content.length ≤ 16 ∧ content.take 4 = List.replicate 4 0xff

instance (content : List UInt8) : Decidable (LooksAcknowledged content) :=
  inferInstanceAs (Decidable (_ ∧ _ ∧ _))

/-- The contents that a decoder does not take for a quick acknowledgement. -/
def Plain : TransportMode → List UInt8 → Prop
  | .full, _ => True
  | .abridged, _ => True
  | .intermediate, content => content.length < 2 ^ 31
  | .paddedIntermediate, content => content.length < 2 ^ 31 ∧ ¬ LooksAcknowledged content

structure Carries (decoded : DecodedFrame) (content frame : List UInt8) : Prop where
  payload : decoded.payload = content
  quickAckToken : decoded.quickAckToken = none
  consumedBytes : decoded.consumedBytes = frame.length

namespace TransportFrameCodec

variable {codec : TransportFrameCodec} {payload frame : List UInt8}

theorem validateFrameLength_ok {length : ℕ} (hne : length ≠ 0)
    (hle : length ≤ codec.maxFrameBytes) :
    codec.validateFrameLength length = .ok () := by
  have hfits : ¬ codec.maxFrameBytes < length := Nat.not_lt.mpr hle
  simp [validateFrameLength, ensure, hne, hfits, bind, Except.bind]

/-! ## Full frames -/

theorem encodeFull_ok {codec' : TransportFrameCodec}
    (h : Yields (encodeFull crc32 payload) codec (.ok frame) codec') :
    codec'.mode = codec.mode ∧ codec'.maxFrameBytes = codec.maxFrameBytes ∧
      payload.length + fullFrameOverhead < 2 ^ 32 ∧
      frame = toLe 4 (payload.length + fullFrameOverhead) ++
        toLe 4 codec.nextSequenceNumber.toNat ++ payload ++ toLe 4 (crc32 (toLe 4 (payload.length + fullFrameOverhead) ++
          toLe 4 codec.nextSequenceNumber.toNat ++ payload)).toNat := by
  rw [encodeFull, yields_get_bind] at h
  rcases yields_orThrow_bind.mp h with ⟨frameLength, hlength, h⟩ | ⟨e, -, h, -⟩
  · rcases yields_orThrow_bind.mp h with ⟨_, hbound, h⟩ | ⟨e, -, h, -⟩
    · rcases yields_orThrow_bind.mp h with ⟨_, -, h⟩ | ⟨e, -, h, -⟩
      · rw [yields_modify_bind] at h
        obtain ⟨hframe, rfl⟩ := yields_pure.mp h
        have hsum : frameLength = payload.length + fullFrameOverhead := by
          rw [okOr_eq_ok, checkedAddUsize] at hlength
          split at hlength
          · exact (Option.some.inj hlength).symm
          · cases hlength
        rw [← hsum]
        exact ⟨rfl, rfl, ensure_eq_ok.mp hbound, Except.ok.inj hframe⟩
      · cases h
    · cases h
  · cases h

theorem decodeFull_frame (sequenceNumber : UInt32) (hne : payload ≠ [])
    (hle : payload.length ≤ codec.maxFrameBytes)
    (hlength : payload.length + fullFrameOverhead < 2 ^ 32) (back : List UInt8) :
    let front := toLe 4 (payload.length + fullFrameOverhead) ++ toLe 4 sequenceNumber.toNat ++
      payload
    let frame := front ++ toLe 4 (crc32 front).toNat
    ∃ decoded, codec.decodeFull crc32 (frame ++ back) = .ok (some decoded) ∧
      Carries decoded payload frame := by
  intro front frame
  have hfront : front.length = payload.length + 8 := by
    simp only [front, List.length_append, length_toLe]
    omega
  have hframe : frame.length = payload.length + fullFrameOverhead := by
    simp only [frame, List.length_append, length_toLe, hfront, fullFrameOverhead]
  have hhead : slice (frame ++ back) 0 4 = some (toLe 4 (payload.length + fullFrameOverhead)) := by
    have h := slice_front (toLe 4 (payload.length + fullFrameOverhead))
      (toLe 4 sequenceNumber.toNat ++ payload ++ toLe 4 (crc32 front).toNat ++ back)
    rw [length_toLe] at h
    simpa only [frame, front, List.append_assoc] using h
  have hwhole : slice (frame ++ back) 0 (payload.length + fullFrameOverhead) = some frame := by
    rw [← hframe]
    exact slice_front frame back
  have hread : ofLe (toLe 4 (payload.length + fullFrameOverhead)) =
      payload.length + fullFrameOverhead := ofLe_toLe_of_lt hlength
  have hpayload : payload.length ≠ 0 := by
    rwa [Ne, List.length_eq_zero_iff]
  have hsplit : frame.length - 4 = front.length := by
    rw [hframe, hfront, fullFrameOverhead]
    rfl
  have htake : frame.take (frame.length - 4) = front := by
    rw [hsplit, List.take_left]
  have hdrop : frame.drop (frame.length - 4) = toLe 4 (crc32 front).toNat := by
    rw [hsplit, List.drop_left]
  have hpayloadBack : front.drop 8 = payload := by
    have height : (toLe 4 (payload.length + fullFrameOverhead) ++
        toLe 4 sequenceNumber.toNat).length = 8 := by
      rw [List.length_append, length_toLe, length_toLe]
    rw [← height]
    exact List.drop_left
  obtain ⟨decoded, hopen, hcarries⟩ :
      ∃ decoded, openFull crc32 frame = .ok decoded ∧ Carries decoded payload frame := by
    refine ⟨{ payload := payload
              sequenceNumber := some (UInt32.ofNat (ofLe ((frame.drop 4).take 4)))
              quickAckToken := none
              consumedBytes := frame.length }, ?_, ⟨rfl, rfl, rfl⟩⟩
    simp only [openFull, htake, hdrop, u32_ofLe_toLe, ensure, if_true, hpayloadBack]
    rfl
  refine ⟨decoded, ?_, hcarries⟩
  have hoverhead : ¬ payload.length + fullFrameOverhead < fullFrameOverhead :=
    Nat.not_lt.mpr (Nat.le_add_left _ _)
  rw [decodeFull, hhead]
  dsimp only
  rw [hread, hwhole, Nat.add_sub_cancel, validateFrameLength_ok hpayload hle]
  simp only [ensure, if_pos hoverhead, hopen]
  rfl

/-! ## Abridged frames -/

theorem abridgedPayload_frame {words : ℕ} (header : List UInt8)
    (hwords : payload.length = words * 4) (hne : payload ≠ [])
    (hle : payload.length ≤ codec.maxFrameBytes)
    (hfits : header.length + payload.length < 2 ^ 64) (back : List UInt8) :
    ∃ decoded, codec.abridgedPayload (header ++ (payload ++ back)) words header.length =
      .ok (some decoded) ∧ Carries decoded payload (header ++ payload) := by
  have hpayload : payload.length ≠ 0 := by
    rwa [Ne, List.length_eq_zero_iff]
  refine ⟨{ payload, sequenceNumber := none, quickAckToken := none,
            consumedBytes := header.length + payload.length }, ?_, ⟨rfl, rfl, ?_⟩⟩
  · rw [abridgedPayload, ← hwords, validateFrameLength_ok hpayload hle]
    simp only [checkedAddUsize, if_pos hfits, okOr, bind, Except.bind]
    rw [slice_middle header payload back]
    rfl
  · rw [List.length_append]

theorem and_flag_eq_zero {byte : UInt8} (h : byte.toNat < 128) : byte &&& 0x80 = 0 := by
  apply UInt8.toNat_inj.mp
  rw [UInt8.toNat_and]
  exact (and_two_pow_eq_zero_iff (i := 7) (by omega)).mpr h

theorem decodeAbridged_eq {input : List UInt8} {first : UInt8}
    (hhead : slice input 0 1 = some [first]) (hflag : first &&& 0x80 = 0) :
    codec.decodeAbridged input =
      if first < 0x7f then codec.abridgedPayload input first.toNat 1
      else
        match slice input 1 4 with
        | none => .ok none
        | some lengthBytes => codec.abridgedPayload input (ofLe lengthBytes) 4 := by
  simp only [decodeAbridged, hhead, List.headD_cons, hflag, ne_eq, not_true_eq_false, if_false]
  rfl

theorem decodeAbridged_frame (h : encodeAbridged payload false = .ok frame) (hne : payload ≠ [])
    (hle : payload.length ≤ codec.maxFrameBytes) (back : List UInt8) :
    ∃ decoded, codec.decodeAbridged (frame ++ back) = .ok (some decoded) ∧
      Carries decoded payload frame := by
  obtain ⟨_, haligned, h⟩ := bind_eq_ok.mp h
  obtain ⟨_, hbound, h⟩ := bind_eq_ok.mp h
  rw [ensure_eq_ok] at haligned hbound
  have hwords : payload.length = payload.length / 4 * 4 := by omega
  split at h
  · rename_i hshort
    obtain rfl := Except.ok.inj h
    have hzero : (UInt8.ofNat (payload.length / 4) ||| if false then 0x80 else 0) =
        UInt8.ofNat (payload.length / 4) := UInt8.or_zero
    rw [hzero]
    have hfirst : (UInt8.ofNat (payload.length / 4)).toNat = payload.length / 4 := by
      rw [UInt8.toNat_ofNat']
      omega
    have hlow : UInt8.ofNat (payload.length / 4) < 0x7f := by
      rw [UInt8.lt_iff_toNat_lt, hfirst]
      exact hshort
    obtain ⟨decoded, hdecoded, hcarries⟩ := abridgedPayload_frame
      [UInt8.ofNat (payload.length / 4)] hwords hne hle
      (by rw [List.length_singleton]; omega) back
    refine ⟨decoded, ?_, hcarries⟩
    have hhead := slice_front [UInt8.ofNat (payload.length / 4)] (payload ++ back)
    rw [List.length_singleton] at hhead
    rw [List.cons_append, ← List.singleton_append,
      decodeAbridged_eq hhead (and_flag_eq_zero (by omega)), if_pos hlow, hfirst]
    exact hdecoded
  · rename_i hlong
    obtain rfl := Except.ok.inj h
    have hlength : ofLe (toLe 3 (payload.length / 4)) = payload.length / 4 :=
      ofLe_toLe_of_lt (by omega)
    have hfour : (0x7f :: toLe 3 (payload.length / 4) : List UInt8).length = 4 := by
      rw [List.length_cons, length_toLe]
    obtain ⟨decoded, hdecoded, hcarries⟩ := abridgedPayload_frame
      (0x7f :: toLe 3 (payload.length / 4)) hwords hne hle (by omega) back
    have hframe : ((if false then 0xff else 0x7f) :: UInt8.ofNat (payload.length / 4 &&& 0xff) ::
        UInt8.ofNat (((payload.length / 4) >>> 8) &&& 0xff) ::
        UInt8.ofNat (((payload.length / 4) >>> 16) &&& 0xff) :: payload : List UInt8) =
        0x7f :: toLe 3 (payload.length / 4) ++ payload := by
      rw [← toLe_three]
      rfl
    rw [hframe]
    refine ⟨decoded, ?_, hcarries⟩
    have hhead := slice_front [0x7f] (toLe 3 (payload.length / 4) ++ (payload ++ back))
    have hmiddle := slice_middle [0x7f] (toLe 3 (payload.length / 4)) (payload ++ back)
    rw [length_toLe] at hmiddle
    rw [List.length_singleton] at hhead hmiddle
    rw [List.append_assoc, List.cons_append, ← List.singleton_append,
      decodeAbridged_eq hhead (by decide), if_neg (by decide), hmiddle]
    dsimp only
    rw [hlength]
    rw [hfour] at hdecoded
    exact hdecoded

/-! ## Intermediate frames -/

theorem and_quickAckFlag_iff {length : ℕ} (h : length < 2 ^ 32) :
    UInt32.ofNat length &&& quickAckFlag ≠ 0 ↔ 2 ^ 31 ≤ length := by
  have hlength : (UInt32.ofNat length).toNat = length := by
    rw [UInt32.toNat_ofNat']
    omega
  rw [Ne, ← UInt32.toNat_inj, UInt32.toNat_and, hlength]
  change ¬ length &&& 2 ^ 31 = 0 ↔ _
  rw [and_two_pow_eq_zero_iff h, Nat.not_lt]

theorem openIntermediate_of_not {mode : TransportMode} {content : List UInt8}
    (h : mode = .paddedIntermediate → ¬ LooksAcknowledged content) :
    openIntermediate mode content = {
      payload := content
      sequenceNumber := none
      quickAckToken := none
      consumedBytes := 4 + content.length } := by
  rw [openIntermediate, if_neg]
  rintro ⟨hmode, hacknowledged⟩
  exact h hmode hacknowledged

theorem decodeIntermediate_frame {content : List UInt8}
    (hmode : codec.mode = .intermediate ∨ codec.mode = .paddedIntermediate) (hne : content ≠ [])
    (hle : content.length ≤ codec.maxFrameBytes) (hlength : content.length < 2 ^ 32)
    (back : List UInt8) :
    ∃ decoded, codec.decodeIntermediate (toLe 4 content.length ++ content ++ back) =
        .ok (some decoded) ∧
      (Plain codec.mode content → Carries decoded content (toLe 4 content.length ++ content)) ∧
      (¬ Plain codec.mode content → decoded.quickAckToken ≠ none) := by
  have hcontent : content.length ≠ 0 := by
    rwa [Ne, List.length_eq_zero_iff]
  have hhead := slice_front (toLe 4 content.length) (content ++ back)
  have hmiddle := slice_middle (toLe 4 content.length) content back
  have hread : ofLe (toLe 4 content.length) = content.length := ofLe_toLe_of_lt hlength
  have hword : (UInt32.ofNat content.length).toNat = content.length := by
    rw [UInt32.toNat_ofNat']
    omega
  have hplain : Plain codec.mode content ↔ content.length < 2 ^ 31 ∧
      (codec.mode = .paddedIntermediate → ¬ LooksAcknowledged content) := by
    rcases hmode with hmode | hmode <;> simp [hmode, Plain]
  rw [length_toLe] at hhead hmiddle
  rw [decodeIntermediate, List.append_assoc, hhead, hplain]
  dsimp only
  rw [hread]
  by_cases hflag : 2 ^ 31 ≤ content.length
  · rw [if_pos ((and_quickAckFlag_iff hlength).mpr hflag)]
    refine ⟨_, rfl, fun h ↦ ?_, fun _ ↦ Option.some_ne_none _⟩
    exact absurd h.1 (Nat.not_lt.mpr hflag)
  · rw [if_neg (mt (and_quickAckFlag_iff hlength).mp hflag), hword,
      validateFrameLength_ok hcontent hle]
    have hfits : 4 + content.length < 2 ^ 64 := by omega
    refine ⟨openIntermediate codec.mode content, ?_, fun h ↦ ?_, fun h ↦ ?_⟩
    · simp only [checkedAddUsize, if_pos hfits, okOr, bind, Except.bind]
      rw [hmiddle]
      rfl
    · rw [openIntermediate_of_not h.2]
      refine ⟨rfl, rfl, ?_⟩
      rw [List.length_append, length_toLe]
    · obtain ⟨hpadded, hlow, hhigh, hones⟩ :
          codec.mode = .paddedIntermediate ∧ LooksAcknowledged content := by
        by_contra hnot
        exact h ⟨Nat.lt_of_not_le hflag, fun hpadded hlooks ↦ hnot ⟨hpadded, hlooks⟩⟩
      rw [openIntermediate, if_pos ⟨hpadded, hlow, hhigh, hones⟩]
      exact Option.some_ne_none _

/-! ## Every mode -/

theorem checkPayload_ok {padding : List UInt8} (h : codec.checkPayload payload padding = .ok ()) :
    payload ≠ [] ∧ payload.length + padding.length ≤ codec.maxFrameBytes ∧
      (codec.mode ≠ .paddedIntermediate → padding = []) := by
  obtain ⟨_, hne, h⟩ := bind_eq_ok.mp h
  obtain ⟨total, htotal, h⟩ := bind_eq_ok.mp h
  obtain ⟨_, hle, h⟩ := bind_eq_ok.mp h
  obtain ⟨_, hpadding, -⟩ := bind_eq_ok.mp h
  rw [ensure_eq_ok] at hne hle hpadding
  have hsum : total = payload.length + padding.length := by
    rw [okOr_eq_ok, checkedAddUsize] at htotal
    split at htotal
    · exact (Option.some.inj htotal).symm
    · cases htotal
  rw [hsum] at hle
  refine ⟨hne, Nat.le_of_not_lt hle, fun hmode ↦ ?_⟩
  by_contra hsome
  exact hpadding ⟨hmode, hsome⟩

theorem encodeIntermediate_ok {padding : List UInt8}
    (h : encodeIntermediate payload padding false = .ok frame) :
    (payload ++ padding).length < 2 ^ 32 ∧
      frame = toLe 4 (payload ++ padding).length ++ (payload ++ padding) := by
  obtain ⟨_, hlength, h⟩ := bind_eq_ok.mp h
  rw [ensure_eq_ok] at hlength
  have hword : (UInt32.ofNat (payload.length + padding.length)).toNat =
      payload.length + padding.length := by
    rw [UInt32.toNat_ofNat']
    omega
  obtain rfl := Except.ok.inj h
  rw [List.length_append]
  refine ⟨hlength, ?_⟩
  rw [if_neg Bool.false_ne_true, hword, List.append_assoc]

theorem decode_of_encode {receiver codec' : TransportFrameCodec} {padding : List UInt8}
    (h : Yields (encodeWithPadding crc32 payload padding) codec (.ok frame) codec')
    (hmode : receiver.mode = codec.mode) (hmax : receiver.maxFrameBytes = codec.maxFrameBytes)
    (back : List UInt8) :
    codec'.mode = codec.mode ∧ codec'.maxFrameBytes = codec.maxFrameBytes ∧
    ∃ decoded, receiver.decode crc32 (frame ++ back) = .ok (some decoded) ∧
      (Plain codec.mode (payload ++ padding) → Carries decoded (payload ++ padding) frame) ∧
      (¬ Plain codec.mode (payload ++ padding) → decoded.quickAckToken ≠ none) := by
  rw [encodeWithPadding, encodeInternal, yields_get_bind] at h
  rcases yields_orThrow_bind.mp h with ⟨_, hcheck, h⟩ | ⟨e, -, h, -⟩
  · obtain ⟨hne, hle, hpadding⟩ := checkPayload_ok hcheck
    rw [← hmax] at hle
    have hintermediate : codec.mode = .intermediate ∨ codec.mode = .paddedIntermediate →
        Yields (orThrow id (encodeIntermediate payload padding false)) codec (.ok frame) codec' →
        codec'.mode = codec.mode ∧ codec'.maxFrameBytes = codec.maxFrameBytes ∧
        ∃ decoded, receiver.decodeIntermediate (frame ++ back) = .ok (some decoded) ∧
          (Plain codec.mode (payload ++ padding) → Carries decoded (payload ++ padding) frame) ∧
          (¬ Plain codec.mode (payload ++ padding) → decoded.quickAckToken ≠ none) := by
      intro hmodes h
      obtain ⟨hencode, rfl⟩ := yields_orThrow_ok.mp h
      obtain ⟨hlength, rfl⟩ := encodeIntermediate_ok hencode
      refine ⟨rfl, rfl, ?_⟩
      rw [← hmode] at hmodes ⊢
      refine decodeIntermediate_frame hmodes (List.append_ne_nil_of_left_ne_nil hne _) ?_
        hlength back
      rwa [List.length_append]
    unfold decode
    rw [hmode]
    cases hcodec : codec.mode with
    | full =>
        rw [hcodec] at h
        obtain rfl := hpadding (by rw [hcodec]; exact nofun)
        obtain ⟨hmode', hmax', hlength, rfl⟩ := encodeFull_ok h
        rw [List.length_nil, Nat.add_zero] at hle
        rw [List.append_nil]
        obtain ⟨decoded, hdecoded, hcarries⟩ :=
          decodeFull_frame codec.nextSequenceNumber hne hle hlength back
        exact ⟨hmode'.trans hcodec, hmax', decoded, hdecoded, fun _ ↦ hcarries,
          fun h ↦ absurd trivial h⟩
    | abridged =>
        rw [hcodec] at h
        obtain rfl := hpadding (by rw [hcodec]; exact nofun)
        obtain ⟨hencode, rfl⟩ := yields_orThrow_ok.mp h
        rw [List.length_nil, Nat.add_zero] at hle
        rw [List.append_nil]
        obtain ⟨decoded, hdecoded, hcarries⟩ := decodeAbridged_frame hencode hne hle back
        exact ⟨hcodec, rfl, decoded, hdecoded, fun _ ↦ hcarries, fun h ↦ absurd trivial h⟩
    | intermediate =>
        rw [hcodec] at h hintermediate
        exact hintermediate (.inl rfl) h
    | paddedIntermediate =>
        rw [hcodec] at h hintermediate
        exact hintermediate (.inr rfl) h
  · cases h

end TransportFrameCodec

/-! ## Sequences of frames -/

structure Outgoing where
  payload : List UInt8
  padding : List UInt8 := []

def Outgoing.content (outgoing : Outgoing) : List UInt8 :=
  outgoing.payload ++ outgoing.padding

namespace TransportFrameCodec

variable (crc32)

def encodeOutgoing (outgoing : Outgoing) : CodecM (List UInt8) :=
  encodeWithPadding crc32 outgoing.payload outgoing.padding

def DecodesAs (codec : TransportFrameCodec) : List UInt8 → List (List UInt8 × List UInt8) → Prop
  | input, [] => input = []
  | input, (content, frame) :: rest =>
      ∃ decoded, codec.decode crc32 input = .ok (some decoded) ∧ Carries decoded content frame ∧
        codec.DecodesAs (input.drop decoded.consumedBytes) rest

variable {crc32}

theorem decodesAs_iff {receiver codec codec' : TransportFrameCodec} {sent : List Outgoing}
    {frames : List (List UInt8)}
    (h : Yields (sent.mapM (encodeOutgoing crc32)) codec (.ok frames) codec')
    (hmode : receiver.mode = codec.mode) (hmax : receiver.maxFrameBytes = codec.maxFrameBytes) :
    receiver.DecodesAs crc32 frames.flatten ((sent.map Outgoing.content).zip frames) ↔
      ∀ outgoing ∈ sent, Plain codec.mode outgoing.content := by
  induction sent generalizing codec codec' frames with
  | nil =>
      rw [List.mapM_nil] at h
      obtain rfl := Except.ok.inj (yields_pure.mp h).1
      exact iff_of_true rfl (List.forall_mem_nil _)
  | cons outgoing sent ih =>
      rw [List.mapM_cons] at h
      obtain ⟨frame, codec₁, hframe, h⟩ := exists_of_yields_bind h
      obtain ⟨frames, codec₂, hframes, h⟩ := exists_of_yields_bind h
      obtain rfl := Except.ok.inj (yields_pure.mp h).1
      obtain ⟨hmode₁, hmax₁, decoded, hdecoded, hplain, hacknowledged⟩ :=
        decode_of_encode hframe hmode hmax frames.flatten
      have hrest := ih hframes (hmode.trans hmode₁.symm) (hmax.trans hmax₁.symm)
      rw [hmode₁] at hrest
      rw [List.forall_mem_cons, ← hrest, List.flatten_cons]
      constructor
      · rintro ⟨decoded', hdecoded', hcarries, hnext⟩
        obtain rfl := Option.some.inj (Except.ok.inj (hdecoded.symm.trans hdecoded'))
        refine ⟨?_, ?_⟩
        · by_contra hnot
          exact hacknowledged hnot hcarries.quickAckToken
        · rwa [hcarries.consumedBytes, List.drop_left] at hnext
      · rintro ⟨hcontent, hnext⟩
        have hcarries := hplain hcontent
        refine ⟨decoded, hdecoded, hcarries, ?_⟩
        rwa [hcarries.consumedBytes, List.drop_left]

/-- What was framed is decoded one after another exactly when every content is plain. -/
theorem transport_round_trip_iff (crc32 : List UInt8 → UInt32) (mode : TransportMode)
    (maxFrameBytes : ℕ) (sent : List Outgoing) {frames : List (List UInt8)}
    {codec' : TransportFrameCodec}
    (h : Yields (sent.mapM (encodeOutgoing crc32)) (withMaxFrameBytes mode maxFrameBytes)
      (.ok frames) codec') :
    (withMaxFrameBytes mode maxFrameBytes).DecodesAs crc32 frames.flatten
        ((sent.map Outgoing.content).zip frames) ↔
      ∀ outgoing ∈ sent, Plain mode outgoing.content :=
  decodesAs_iff h rfl rfl

end TransportFrameCodec

namespace Crc

def shift (crc : UInt32) : UInt32 :=
  if crc &&& 1 = 1 then crc >>> 1 ^^^ 0xedb88320 else crc >>> 1

def hash (bytes : List UInt8) : UInt32 :=
  bytes.foldl (fun crc byte ↦ Nat.iterate shift 8 (crc ^^^ byte.toUInt32)) 0xffffffff ^^^ 0xffffffff

example : hash (Text.bytes "123456789") = 0xcbf43926 := by
  decide +kernel

end Crc

set_option maxRecDepth 4000 in
theorem TransportFrameCodec.transport_round_trip_iff_full :
    (withMaxFrameBytes .full defaultMaxFrameBytes).DecodesAs Crc.hash
        [[16, 0, 0, 0, 0, 0, 0, 0, 1, 2, 3, 4, 66, 15, 181, 224],
          [13, 0, 0, 0, 1, 0, 0, 0, 5, 198, 46, 76, 90]].flatten
        (([⟨[1, 2, 3, 4], []⟩, ⟨[5], []⟩] : List Outgoing).map Outgoing.content |>.zip
          [[16, 0, 0, 0, 0, 0, 0, 0, 1, 2, 3, 4, 66, 15, 181, 224],
            [13, 0, 0, 0, 1, 0, 0, 0, 5, 198, 46, 76, 90]]) ↔
      ∀ outgoing ∈ ([⟨[1, 2, 3, 4], []⟩, ⟨[5], []⟩] : List Outgoing),
        Plain .full outgoing.content :=
  transport_round_trip_iff Crc.hash .full defaultMaxFrameBytes
    [⟨[1, 2, 3, 4], []⟩, ⟨[5], []⟩] rfl

/-- Four bytes of ones in front of four others, without padding. -/
theorem TransportFrameCodec.padded_payload_acknowledged :
    ¬ ∀ (crc32 : List UInt8 → UInt32) (mode : TransportMode) (maxFrameBytes : ℕ)
      (sent : List Outgoing) (frames : List (List UInt8)) (codec' : TransportFrameCodec),
      Yields (sent.mapM (encodeOutgoing crc32)) (withMaxFrameBytes mode maxFrameBytes)
        (.ok frames) codec' →
      (withMaxFrameBytes mode maxFrameBytes).DecodesAs crc32 frames.flatten
        ((sent.map Outgoing.content).zip frames) := by
  intro h
  have hencoded : Yields ([⟨[255, 255, 255, 255, 1, 2, 3, 4], []⟩].mapM (encodeOutgoing Crc.hash))
      (withMaxFrameBytes .paddedIntermediate defaultMaxFrameBytes)
      (.ok [[8, 0, 0, 0, 255, 255, 255, 255, 1, 2, 3, 4]])
      (withMaxFrameBytes .paddedIntermediate defaultMaxFrameBytes) := rfl
  have hplain := (decodesAs_iff hencoded rfl rfl).mp (h _ _ _ _ _ _ hencoded) _ List.mem_cons_self
  exact hplain.2 (by decide)

end Fabushi.Telegram
