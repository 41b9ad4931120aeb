import Fabushi.Library.Result
import Fabushi.Library.Text
import Fabushi.Library.Wire

/-!
# The TL codec

Every element is a little-endian word, an array of fixed length or a byte string behind
its length, padded to a multiple of four bytes. A short byte string has its length in
one byte, a longer one in the three bytes behind 254.
-/

namespace Fabushi.Telegram

open Effects Radix Result Wire

def vectorConstructor : UInt32 := 0x1cb5c415
def boolTrueConstructor : UInt32 := 0x997275b5
def boolFalseConstructor : UInt32 := 0xbc799737

def shortBytesLimit : ℕ := 254
def defaultMaxBytes : ℕ := 64 * 1024 * 1024
def defaultMaxVectorLength : ℕ := 1000000

inductive TlError where
  | unexpectedEof (offset needed : ℕ)
  | invalidBytesPrefix
  | bytesLengthLimit (length maximum : ℕ)
  | vectorLengthLimit (length maximum : ℕ)
  | negativeVectorLength (length : Int32)
  | unexpectedConstructor (expected actual : UInt32)
  | invalidBoolConstructor (actual : UInt32)
  | lengthOutOfRange
  | invalidUtf8 (offset : ℕ)
  deriving DecidableEq

structure TlLimits where
  maxBytes : ℕ := defaultMaxBytes
  maxVectorLength : ℕ := defaultMaxVectorLength

abbrev TlWriter := Wire.Writer TlError

/-- An input with its offset and the limits of its reader. -/
abbrev TlReader := Wire.Reader TlError TlLimits

def paddingLength (length : ℕ) : ℕ :=
  (4 - length % 4) % 4

/-! ## Writing -/

namespace TlWriter

def writeI32 (value : Int32) : TlWriter PUnit :=
  push (toLe 4 value.toUInt32.toNat)

def writeU32 (value : UInt32) : TlWriter PUnit :=
  push (toLe 4 value.toNat)

def writeI64 (value : Int64) : TlWriter PUnit :=
  push (toLe 8 value.toUInt64.toNat)

def writeU64 (value : UInt64) : TlWriter PUnit :=
  push (toLe 8 value.toNat)

def writeF64 (bits : UInt64) : TlWriter PUnit :=
  push (toLe 8 bits.toNat)

def writeI128Bytes (value : Vector UInt8 16) : TlWriter PUnit :=
  push value.toList

def writeI256Bytes (value : Vector UInt8 32) : TlWriter PUnit :=
  push value.toList

def writeBool (value : Bool) : TlWriter PUnit :=
  writeU32 (if value then boolTrueConstructor else boolFalseConstructor)

def writeBytesHeader (length : ℕ) : TlWriter ℕ :=
  if length < shortBytesLimit then do
    push [UInt8.ofNat length]
    return 1
  else if 0x00ffffff < length then throw .lengthOutOfRange
  else do
    push [254]
    push [UInt8.ofNat (length &&& 0xff)]
    push [UInt8.ofNat ((length >>> 8) &&& 0xff)]
    push [UInt8.ofNat ((length >>> 16) &&& 0xff)]
    return 4

def writeBytes (value : List UInt8) : TlWriter PUnit := do
  let headerLength ← writeBytesHeader value.length
  push value
  push (List.replicate (paddingLength (headerLength + value.length)) 0)

def writeString (value : String) : TlWriter PUnit :=
  writeBytes (Text.bytes value)

def writeVectorLength (length : ℕ) : TlWriter PUnit :=
  if length < 2 ^ 31 then do
    writeU32 vectorConstructor
    writeI32 (Int32.ofNat length)
  else throw .lengthOutOfRange

end TlWriter

/-! ## Reading -/

namespace TlReader

def withLimits (input : List UInt8) (maxBytes maxVectorLength : ℕ) : Input TlLimits where
  bytes := input
  limits := { maxBytes, maxVectorLength }

def new (input : List UInt8) : Input TlLimits :=
  withLimits input defaultMaxBytes defaultMaxVectorLength

def take (length : ℕ) : TlReader (List UInt8) :=
  Wire.take .unexpectedEof length

def takeArray (length : ℕ) : TlReader (Vector UInt8 length) := do
  let bytes ← take length
  let reader ← get
  orThrow id (okOr (toVector length bytes) (.unexpectedEof reader.offset length))

def readI32 : TlReader Int32 := do
  let bytes ← takeArray 4
  return (UInt32.ofNat (ofLe bytes.toList)).toInt32

def readU32 : TlReader UInt32 := do
  let bytes ← takeArray 4
  return UInt32.ofNat (ofLe bytes.toList)

def readI64 : TlReader Int64 := do
  let bytes ← takeArray 8
  return (UInt64.ofNat (ofLe bytes.toList)).toInt64

def readU64 : TlReader UInt64 := do
  let bytes ← takeArray 8
  return UInt64.ofNat (ofLe bytes.toList)

def readF64 : TlReader UInt64 := do
  let bytes ← takeArray 8
  return UInt64.ofNat (ofLe bytes.toList)

def readI128Bytes : TlReader (Vector UInt8 16) :=
  takeArray 16

def readI256Bytes : TlReader (Vector UInt8 32) :=
  takeArray 32

def readBool : TlReader Bool := do
  let actual ← readU32
  if actual = boolTrueConstructor then return true
  else if actual = boolFalseConstructor then return false
  else throw (.invalidBoolConstructor actual)

/-- The length in front of a byte string, and how many bytes it takes. -/
def readBytesHeader : TlReader (ℕ × ℕ) := do
  let first ← take 1
  let first := first.headD 0
  if first = 255 then throw .invalidBytesPrefix
  else if first = 254 then do
    let lengthBytes ← take 3
    return (ofLe lengthBytes, 4)
  else return (first.toNat, 1)

def readBytes : TlReader (List UInt8) := do
  let (length, headerLength) ← readBytesHeader
  let reader ← get
  if reader.limits.maxBytes < length then
    throw (.bytesLengthLimit length reader.limits.maxBytes)
  else do
    let value ← take length
    let _ ← take (paddingLength (headerLength + length))
    return value

def readString : TlReader String := do
  let reader ← get
  let bytes ← readBytes
  orThrow id (okOr (Text.fromUtf8 bytes) (.invalidUtf8 reader.offset))

def readVectorLength : TlReader ℕ := do
  let actual ← readU32
  if actual ≠ vectorConstructor then throw (.unexpectedConstructor vectorConstructor actual)
  else do
    let length ← readI32
    if length < 0 then throw (.negativeVectorLength length)
    else do
      let length := length.toInt.toNat
      let reader ← get
      if reader.limits.maxVectorLength < length then
        throw (.vectorLengthLimit length reader.limits.maxVectorLength)
      else return length

def remaining (reader : Input TlLimits) : ℕ :=
  reader.bytes.length - reader.offset

def isFinished (reader : Input TlLimits) : Bool :=
  remaining reader == 0

end TlReader

/-! ## Elements -/

/-- The elements that are written and read. -/
inductive TlValue where
  | i32 (value : Int32)
  | u32 (value : UInt32)
  | i64 (value : Int64)
  | u64 (value : UInt64)
  | f64 (bits : UInt64)
  | bool (value : Bool)
  | bytes (value : List UInt8)
  | string (value : String)
  | i128 (value : Vector UInt8 16)
  | i256 (value : Vector UInt8 32)
  | vectorLength (length : ℕ)

inductive TlType where
  | i32 | u32 | i64 | u64 | f64 | bool | bytes | string | i128 | i256 | vectorLength

namespace TlValue

def type : TlValue → TlType
  | .i32 _ => .i32
  | .u32 _ => .u32
  | .i64 _ => .i64
  | .u64 _ => .u64
  | .f64 _ => .f64
  | .bool _ => .bool
  | .bytes _ => .bytes
  | .string _ => .string
  | .i128 _ => .i128
  | .i256 _ => .i256
  | .vectorLength _ => .vectorLength

def write : TlValue → TlWriter PUnit
  | .i32 value => TlWriter.writeI32 value
  | .u32 value => TlWriter.writeU32 value
  | .i64 value => TlWriter.writeI64 value
  | .u64 value => TlWriter.writeU64 value
  | .f64 bits => TlWriter.writeF64 bits
  | .bool value => TlWriter.writeBool value
  | .bytes value => TlWriter.writeBytes value
  | .string value => TlWriter.writeString value
  | .i128 value => TlWriter.writeI128Bytes value
  | .i256 value => TlWriter.writeI256Bytes value
  | .vectorLength length => TlWriter.writeVectorLength length

end TlValue

def TlType.read : TlType → TlReader TlValue
  | .i32 => TlValue.i32 <$> TlReader.readI32
  | .u32 => TlValue.u32 <$> TlReader.readU32
  | .i64 => TlValue.i64 <$> TlReader.readI64
  | .u64 => TlValue.u64 <$> TlReader.readU64
  | .f64 => TlValue.f64 <$> TlReader.readF64
  | .bool => TlValue.bool <$> TlReader.readBool
  | .bytes => TlValue.bytes <$> TlReader.readBytes
  | .string => TlValue.string <$> TlReader.readString
  | .i128 => TlValue.i128 <$> TlReader.readI128Bytes
  | .i256 => TlValue.i256 <$> TlReader.readI256Bytes
  | .vectorLength => TlValue.vectorLength <$> TlReader.readVectorLength

end Fabushi.Telegram
