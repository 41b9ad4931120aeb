import Fabushi.Library.Result
import Fabushi.Library.Wire

/-!
# Transport framing

A payload travels in a frame of one of four forms. A full frame carries its length, a
sequence number and a checksum, an abridged one its length in words, an intermediate one
its length in bytes. A decoder is shown what has come of a stream so far; it answers with
the first frame, with nothing if it needs more bytes, or with an error.
-/

namespace Fabushi.Telegram

open Effects Radix Result Wire

def defaultMaxFrameBytes : ℕ := 64 * 1024 * 1024
def fullFrameOverhead : ℕ := 12

def quickAckFlag : UInt32 := (1 : UInt32) <<< 31

inductive TransportMode where
  | full | abridged | intermediate | paddedIntermediate
  deriving DecidableEq

def TransportMode.initialHeader : TransportMode → List UInt8
  | .full => []
  | .abridged => [0xef]
  | .intermediate => [0xee, 0xee, 0xee, 0xee]
  | .paddedIntermediate => [0xdd, 0xdd, 0xdd, 0xdd]

structure DecodedFrame where
  payload : List UInt8
  sequenceNumber : Option UInt32
  quickAckToken : Option UInt32
  consumedBytes : ℕ
  deriving DecidableEq

inductive TransportError where
  | emptyPayload
  | abridgedPayloadAlignment (length : ℕ)
  | frameLengthLimit (length maximum : ℕ)
  | invalidFrameLength (length : ℕ)
  | sequenceExhausted
  | crcMismatch (expected actual : UInt32)
  | lengthOutOfRange
  | quickAckUnsupported
  | invalidPaddingLength
  deriving DecidableEq

structure TransportFrameCodec where
  mode : TransportMode
  nextSequenceNumber : UInt32
  maxFrameBytes : ℕ

def checkedAddUsize (a b : ℕ) : Option ℕ :=
  if a + b < 2 ^ 64 then some (a + b) else none

variable (crc32 : List UInt8 → UInt32)

namespace TransportFrameCodec

def withMaxFrameBytes (mode : TransportMode) (maxFrameBytes : ℕ) : TransportFrameCodec where
  mode := mode
  nextSequenceNumber := 0
  maxFrameBytes := maxFrameBytes

def new (mode : TransportMode) : TransportFrameCodec :=
  withMaxFrameBytes mode defaultMaxFrameBytes

abbrev CodecM := Eff TransportError TransportFrameCodec

/-! ## Encoding -/

def encodeFull (payload : List UInt8) : CodecM (List UInt8) := do
  let codec ← get
  let frameLength ← orThrow id
    (okOr (checkedAddUsize payload.length fullFrameOverhead) .lengthOutOfRange)
  orThrow id (ensure (frameLength < 2 ^ 32) .lengthOutOfRange)
  let sequenceNumber := codec.nextSequenceNumber
  orThrow id (ensure (sequenceNumber.toNat + 1 < 2 ^ 32) .sequenceExhausted)
  modify fun codec ↦ { codec with nextSequenceNumber := sequenceNumber + 1 }
  let frame := toLe 4 frameLength ++ toLe 4 sequenceNumber.toNat ++ payload
  return frame ++ toLe 4 (crc32 frame).toNat

def encodeAbridged (payload : List UInt8) (quickAck : Bool) :
    Except TransportError (List UInt8) := do
  ensure (payload.length % 4 = 0) (.abridgedPayloadAlignment payload.length)
  let words := payload.length / 4
  ensure (¬ 2 ^ 24 ≤ words) .lengthOutOfRange
  if words < 127 then
    return (UInt8.ofNat words ||| if quickAck then 0x80 else 0) :: payload
  else
    return (if quickAck then 0xff else 0x7f) :: UInt8.ofNat (words &&& 0xff) ::
      UInt8.ofNat ((words >>> 8) &&& 0xff) :: UInt8.ofNat ((words >>> 16) &&& 0xff) :: payload

def encodeIntermediate (payload padding : List UInt8) (quickAck : Bool) :
    Except TransportError (List UInt8) := do
  let totalPayloadLength := payload.length + padding.length
  ensure (totalPayloadLength < 2 ^ 32) .lengthOutOfRange
  let length := UInt32.ofNat totalPayloadLength
  let length := if quickAck then length ||| quickAckFlag else length
  return toLe 4 length.toNat ++ payload ++ padding

def checkPayload (codec : TransportFrameCodec) (payload padding : List UInt8) :
    Except TransportError Unit := do
  ensure (payload ≠ []) .emptyPayload
  let totalPayloadLength ← okOr (checkedAddUsize payload.length padding.length) .lengthOutOfRange
  ensure (¬ codec.maxFrameBytes < totalPayloadLength)
    (.frameLengthLimit totalPayloadLength codec.maxFrameBytes)
  ensure (¬ (codec.mode ≠ .paddedIntermediate ∧ padding ≠ []))
    (.invalidFrameLength totalPayloadLength)
  ensure (¬ (codec.mode = .paddedIntermediate ∧ 15 < padding.length)) .invalidPaddingLength

def encodeInternal (payload padding : List UInt8) (quickAck : Bool) : CodecM (List UInt8) := do
  let codec ← get
  orThrow id (codec.checkPayload payload padding)
  match codec.mode with
  | .full => if quickAck then throw .quickAckUnsupported else encodeFull crc32 payload
  | .abridged => orThrow id (encodeAbridged payload quickAck)
  | .intermediate => orThrow id (encodeIntermediate payload padding quickAck)
  | .paddedIntermediate => orThrow id (encodeIntermediate payload padding quickAck)

def encode (payload : List UInt8) : CodecM (List UInt8) :=
  encodeInternal crc32 payload [] false

def encodeWithPadding (payload padding : List UInt8) : CodecM (List UInt8) :=
  encodeInternal crc32 payload padding false

def encodeRequestingQuickAck (payload padding : List UInt8) : CodecM (List UInt8) :=
  encodeInternal crc32 payload padding true

/-! ## Decoding -/

def validateFrameLength (codec : TransportFrameCodec) (payloadLength : ℕ) :
    Except TransportError Unit := do
  ensure (payloadLength ≠ 0) .emptyPayload
  ensure (¬ codec.maxFrameBytes < payloadLength)
    (.frameLengthLimit payloadLength codec.maxFrameBytes)

def openFull (frame : List UInt8) : Except TransportError DecodedFrame := do
  let crcOffset := frame.length - 4
  let actualCrc := UInt32.ofNat (ofLe (frame.drop crcOffset))
  let expectedCrc := crc32 (frame.take crcOffset)
  ensure (actualCrc = expectedCrc) (.crcMismatch expectedCrc actualCrc)
  return {
    payload := (frame.take crcOffset).drop 8
    sequenceNumber := some (UInt32.ofNat (ofLe ((frame.drop 4).take 4)))
    quickAckToken := none
    consumedBytes := frame.length }

def decodeFull (codec : TransportFrameCodec) (input : List UInt8) :
    Except TransportError (Option DecodedFrame) :=
  match slice input 0 4 with
  | none => .ok none
  | some lengthBytes => do
      let frameLength := ofLe lengthBytes
      ensure (¬ frameLength < fullFrameOverhead) (.invalidFrameLength frameLength)
      codec.validateFrameLength (frameLength - fullFrameOverhead)
      match slice input 0 frameLength with
      | none => return none
      | some frame => return some (← openFull crc32 frame)

def abridgedPayload (codec : TransportFrameCodec) (input : List UInt8) (words headerLength : ℕ) :
    Except TransportError (Option DecodedFrame) := do
  let payloadLength := words * 4
  codec.validateFrameLength payloadLength
  let consumedBytes ← okOr (checkedAddUsize headerLength payloadLength) .lengthOutOfRange
  match slice input headerLength consumedBytes with
  | none => return none
  | some payload =>
      return some { payload, sequenceNumber := none, quickAckToken := none, consumedBytes }

def decodeAbridged (codec : TransportFrameCodec) (input : List UInt8) :
    Except TransportError (Option DecodedFrame) :=
  match slice input 0 1 with
  | none => .ok none
  | some head =>
      let first := head.headD 0
      if first &&& 0x80 ≠ 0 then
        match slice input 0 4 with
        | none => .ok none
        | some tokenBytes => .ok (some {
            payload := []
            sequenceNumber := none
            quickAckToken := some (UInt32.ofNat (ofBe tokenBytes))
            consumedBytes := 4 })
      else if first < 0x7f then codec.abridgedPayload input first.toNat 1
      else
        match slice input 1 4 with
        | none => .ok none
        | some lengthBytes => codec.abridgedPayload input (ofLe lengthBytes) 4

def openIntermediate (mode : TransportMode) (payload : List UInt8) : DecodedFrame :=
  if mode = .paddedIntermediate ∧ 8 ≤ payload.length ∧ payload.length ≤ 16 ∧
      payload.take 4 = List.replicate 4 0xff then
    { payload := []
      sequenceNumber := none
      quickAckToken := some (UInt32.ofNat (ofLe ((payload.drop 4).take 4)))
      consumedBytes := 4 + payload.length }
  else
    { payload, sequenceNumber := none, quickAckToken := none, consumedBytes := 4 + payload.length }

def decodeIntermediate (codec : TransportFrameCodec) (input : List UInt8) :
    Except TransportError (Option DecodedFrame) :=
  match slice input 0 4 with
  | none => .ok none
  | some lengthBytes =>
      let encodedLength := UInt32.ofNat (ofLe lengthBytes)
      if encodedLength &&& quickAckFlag ≠ 0 then
        .ok (some {
          payload := []
          sequenceNumber := none
          quickAckToken := some encodedLength
          consumedBytes := 4 })
      else do
        let payloadLength := encodedLength.toNat
        codec.validateFrameLength payloadLength
        let consumedBytes ← okOr (checkedAddUsize 4 payloadLength) .lengthOutOfRange
        match slice input 4 consumedBytes with
        | none => return none
        | some payload => return some (openIntermediate codec.mode payload)

def decode (codec : TransportFrameCodec) (input : List UInt8) :
    Except TransportError (Option DecodedFrame) :=
  match codec.mode with
  | .full => codec.decodeFull crc32 input
  | .abridged => codec.decodeAbridged input
  | .intermediate => codec.decodeIntermediate input
  | .paddedIntermediate => codec.decodeIntermediate input

end TransportFrameCodec

end Fabushi.Telegram
