import Fabushi.Library.Runs
import Fabushi.Telegram.Tl

/-!
# What is written is read back

Every element is written as bytes of a number that four divides, and read back from them
wherever they stand. A writer that refuses an element has not touched its buffer.
-/

namespace Fabushi.Telegram

open Effects Radix Result Wire

variable {limits : TlLimits}

/-! ## Byte strings -/

def bytesHeader (length : ℕ) : List UInt8 :=
  if length < shortBytesLimit then [UInt8.ofNat length] else 254 :: toLe 3 length

def encodeBytes (value : List UInt8) : List UInt8 :=
  bytesHeader value.length ++ (value ++
    List.replicate (paddingLength ((bytesHeader value.length).length + value.length)) 0)

theorem length_add_paddingLength (length : ℕ) : (length + paddingLength length) % 4 = 0 := by
  unfold paddingLength
  omega

theorem length_encodeBytes (value : List UInt8) : (encodeBytes value).length % 4 = 0 := by
  rw [encodeBytes, List.length_append, List.length_append, List.length_replicate, ← Nat.add_assoc]
  exact length_add_paddingLength _

theorem appends_writeBytesHeader {length : ℕ} (h : length ≤ 0xffffff) :
    Appends (TlWriter.writeBytesHeader length) (bytesHeader length)
      (bytesHeader length).length := by
  unfold TlWriter.writeBytesHeader bytesHeader
  by_cases hshort : length < shortBytesLimit
  · rw [if_pos hshort, if_pos hshort]
    exact (appends_push _).bind (appends_pure _)
  · rw [if_neg hshort, if_neg (Nat.not_lt.mpr h), if_neg hshort, ← toLe_three]
    refine (appends_push [254]).bind ?_
    refine (appends_push [_]).bind ?_
    refine (appends_push [_]).bind ?_
    exact (appends_push [_]).bind (appends_pure _)

theorem appends_writeBytes {value : List UInt8} (h : value.length ≤ 0xffffff) :
    Appends (TlWriter.writeBytes value) (encodeBytes value) ⟨⟩ := by
  refine (appends_writeBytesHeader h).bind ?_
  exact (appends_push value).bind (appends_push _)

theorem consumes_take (limits : TlLimits) (bytes : List UInt8) :
    Consumes (TlReader.take bytes.length) limits bytes bytes :=
  Wire.consumes_take _ _ bytes

theorem consumes_readBytesHeader {length : ℕ} (h : length ≤ 0xffffff) :
    Consumes TlReader.readBytesHeader limits (bytesHeader length)
      (length, (bytesHeader length).length) := by
  unfold TlReader.readBytesHeader bytesHeader
  by_cases hshort : length < shortBytesLimit
  · rw [if_pos hshort]
    have hlength : (UInt8.ofNat length).toNat = length := by
      rw [UInt8.toNat_ofNat']
      unfold shortBytesLimit at hshort
      omega
    have hne : ∀ bound : UInt8, 254 ≤ bound.toNat → UInt8.ofNat length ≠ bound := by
      rintro bound hbound rfl
      unfold shortBytesLimit at hshort
      omega
    refine (consumes_take limits [UInt8.ofNat length]).bind_nil ?_
    rw [List.headD_cons, if_neg (hne 255 (by decide)), if_neg (hne 254 (by decide)), hlength]
    exact consumes_pure _ _
  · rw [if_neg hshort]
    refine (consumes_take limits [254]).bind ?_
    rw [List.headD_cons, if_neg (by decide), if_pos rfl]
    have hback : ofLe (toLe 3 length) = length := ofLe_toLe_of_lt (by omega)
    have hread := consumes_take limits (toLe 3 length)
    rw [length_toLe] at hread
    refine hread.bind_nil ?_
    rw [hback]
    exact consumes_pure _ _

theorem consumes_readBytes {value : List UInt8} (h : value.length ≤ 0xffffff)
    (hlimit : value.length ≤ limits.maxBytes) :
    Consumes TlReader.readBytes limits (encodeBytes value) value := by
  refine (consumes_readBytesHeader h).bind ?_
  refine Consumes.get_bind fun reader hreader ↦ ?_
  rw [hreader, if_neg (Nat.not_lt.mpr hlimit)]
  refine (consumes_take limits value).bind ?_
  have hpadding := consumes_take limits (List.replicate
    (paddingLength ((bytesHeader value.length).length + value.length)) 0)
  rw [List.length_replicate] at hpadding
  exact hpadding.bind_nil (consumes_pure _ _)

/-! ## Words and arrays -/

theorem consumes_takeArray {length : ℕ} (bytes : Vector UInt8 length) :
    Consumes (TlReader.takeArray length) limits bytes.toList bytes := by
  have htake := consumes_take limits bytes.toList
  rw [Vector.length_toList] at htake
  refine htake.bind_nil (Consumes.get_bind fun _ _ ↦ ?_)
  rw [toVector_toList]
  exact consumes_pure _ _

theorem consumes_word {α : Type} (limits : TlLimits) (width n : ℕ) (f : List UInt8 → α) :
    Consumes (do
      let bytes ← TlReader.takeArray width
      return f bytes.toList) limits (toLe width n) (f (toLe width n)) := by
  have hword : (⟨(toLe width n).toArray, length_toLe width n⟩ : Vector UInt8 width).toList =
      toLe width n := rfl
  have hread : Consumes (TlReader.takeArray width) limits _
      (⟨(toLe width n).toArray, length_toLe width n⟩ : Vector UInt8 width) := consumes_takeArray _
  rw [hword] at hread
  refine hread.bind_nil ?_
  rw [hword]
  exact consumes_pure _ _

theorem consumes_readU32 (value : UInt32) :
    Consumes TlReader.readU32 limits (toLe 4 value.toNat) value := by
  have h := consumes_word limits 4 value.toNat fun bytes ↦
    UInt32.ofNat (ofLe bytes)
  rwa [u32_ofLe_toLe] at h

theorem consumes_readI32 (value : Int32) :
    Consumes TlReader.readI32 limits (toLe 4 value.toUInt32.toNat) value := by
  have h := consumes_word limits 4 value.toUInt32.toNat fun bytes ↦
    (UInt32.ofNat (ofLe bytes)).toInt32
  rwa [u32_ofLe_toLe] at h

theorem consumes_readU64 (value : UInt64) :
    Consumes TlReader.readU64 limits (toLe 8 value.toNat) value := by
  have h := consumes_word limits 8 value.toNat fun bytes ↦
    UInt64.ofNat (ofLe bytes)
  rwa [u64_ofLe_toLe] at h

theorem consumes_readI64 (value : Int64) :
    Consumes TlReader.readI64 limits (toLe 8 value.toUInt64.toNat) value := by
  have h := consumes_word limits 8 value.toUInt64.toNat fun bytes ↦
    (UInt64.ofNat (ofLe bytes)).toInt64
  rwa [u64_ofLe_toLe] at h

theorem consumes_readF64 (bits : UInt64) :
    Consumes TlReader.readF64 limits (toLe 8 bits.toNat) bits :=
  consumes_readU64 bits

/-! ## Elements with a check -/

theorem consumes_readBool (value : Bool) :
    Consumes TlReader.readBool limits
      (toLe 4 (if value then boolTrueConstructor else boolFalseConstructor).toNat) value := by
  refine (consumes_readU32 _).bind_nil ?_
  cases value with
  | true => exact consumes_pure _ _
  | false => exact consumes_pure _ _

theorem consumes_readString {value : String} (h : (Text.bytes value).length ≤ 0xffffff)
    (hlimit : (Text.bytes value).length ≤ limits.maxBytes) :
    Consumes TlReader.readString limits (encodeBytes (Text.bytes value)) value := by
  refine Consumes.get_bind fun _ _ ↦ (consumes_readBytes h hlimit).bind_nil ?_
  rw [Text.fromUtf8_bytes]
  exact consumes_pure _ _

theorem toInt_ofNat_of_lt {length : ℕ} (h : length < 2 ^ 31) :
    (Int32.ofNat length).toInt = length :=
  Int32.toInt_ofNat_of_lt h

theorem consumes_readVectorLength {length : ℕ} (h : length < 2 ^ 31)
    (hlimit : length ≤ limits.maxVectorLength) :
    Consumes TlReader.readVectorLength limits
      (toLe 4 vectorConstructor.toNat ++ toLe 4 (Int32.ofNat length).toUInt32.toNat) length := by
  have hlength := toInt_ofNat_of_lt h
  have hnonneg : ¬ Int32.ofNat length < 0 := by
    rw [Int32.lt_iff_toInt_lt, hlength]
    exact Int.not_lt.mpr (Int.natCast_nonneg length)
  refine (consumes_readU32 vectorConstructor).bind ?_
  rw [if_neg (not_not.mpr rfl)]
  refine (consumes_readI32 (Int32.ofNat length)).bind_nil ?_
  rw [if_neg hnonneg]
  dsimp only
  rw [hlength, Int.toNat_natCast]
  refine Consumes.get_bind fun reader hreader ↦ ?_
  rw [hreader, if_neg (Nat.not_lt.mpr hlimit)]
  exact consumes_pure _ _

/-! ## All elements -/

namespace TlValue

def Writable : TlValue → Prop
  | .bytes value => value.length ≤ 0xffffff
  | .string value => (Text.bytes value).length ≤ 0xffffff
  | .vectorLength length => length < 2 ^ 31
  | _ => True

def Readable (limits : TlLimits) : TlValue → Prop
  | .bytes value => value.length ≤ limits.maxBytes
  | .string value => (Text.bytes value).length ≤ limits.maxBytes
  | .vectorLength length => length ≤ limits.maxVectorLength
  | _ => True

def encode : TlValue → List UInt8
  | .i32 value => toLe 4 value.toUInt32.toNat
  | .u32 value => toLe 4 value.toNat
  | .i64 value => toLe 8 value.toUInt64.toNat
  | .u64 value => toLe 8 value.toNat
  | .f64 bits => toLe 8 bits.toNat
  | .bool value => toLe 4 (if value then boolTrueConstructor else boolFalseConstructor).toNat
  | .bytes value => encodeBytes value
  | .string value => encodeBytes (Text.bytes value)
  | .i128 value => value.toList
  | .i256 value => value.toList
  | .vectorLength length =>
      toLe 4 vectorConstructor.toNat ++ toLe 4 (Int32.ofNat length).toUInt32.toNat

variable {value : TlValue}

theorem appends_write (h : value.Writable) : Appends value.write value.encode ⟨⟩ := by
  cases value with
  | bytes value => exact appends_writeBytes h
  | string value => exact appends_writeBytes h
  | vectorLength length =>
      have hlength : length < 2 ^ 31 := h
      rw [write, TlWriter.writeVectorLength, if_pos hlength]
      exact (appends_push _).bind (appends_push _)
  | _ => exact appends_push _

theorem write_refused (h : ¬ value.Writable) (buffer : List UInt8) :
    Yields value.write buffer (.error .lengthOutOfRange) buffer := by
  have hbytes : ∀ bytes : List UInt8, ¬ bytes.length ≤ 0xffffff →
      Yields (TlWriter.writeBytes bytes) buffer (.error .lengthOutOfRange) buffer := by
    intro bytes hlong
    have hheader : TlWriter.writeBytesHeader bytes.length = throw .lengthOutOfRange := by
      unfold TlWriter.writeBytesHeader shortBytesLimit
      rw [if_neg (by omega), if_pos (Nat.lt_of_not_le hlong)]
    rw [TlWriter.writeBytes, hheader]
    rfl
  cases value with
  | bytes value => exact hbytes value h
  | string value => exact hbytes (Text.bytes value) h
  | vectorLength length =>
      have hlength : ¬ length < 2 ^ 31 := h
      rw [write, TlWriter.writeVectorLength, if_neg hlength]
      rfl
  | _ => exact absurd trivial h

theorem consumes_read {limits : TlLimits} (hwritable : value.Writable)
    (hreadable : value.Readable limits) :
    Consumes value.type.read limits value.encode value := by
  have hmap : ∀ {α : Type} {read : TlReader α} {bytes : List UInt8} {a : α} (f : α → TlValue),
      Consumes read limits bytes a → Consumes (f <$> read) limits bytes (f a) := by
    intro α read bytes a f hread
    rw [map_eq_pure_bind]
    exact hread.bind_nil (consumes_pure _ _)
  cases value with
  | i32 value => exact hmap _ (consumes_readI32 value)
  | u32 value => exact hmap _ (consumes_readU32 value)
  | i64 value => exact hmap _ (consumes_readI64 value)
  | u64 value => exact hmap _ (consumes_readU64 value)
  | f64 bits => exact hmap _ (consumes_readF64 bits)
  | bool value => exact hmap _ (consumes_readBool value)
  | bytes value => exact hmap _ (consumes_readBytes hwritable hreadable)
  | string value => exact hmap _ (consumes_readString hwritable hreadable)
  | i128 value => exact hmap _ (consumes_takeArray value)
  | i256 value => exact hmap _ (consumes_takeArray value)
  | vectorLength length => exact hmap _ (consumes_readVectorLength hwritable hreadable)

theorem length_encode (value : TlValue) : value.encode.length % 4 = 0 := by
  cases value with
  | bytes value => exact length_encodeBytes value
  | string value => exact length_encodeBytes _
  | i128 value => exact congrArg (· % 4) (Vector.length_toList)
  | i256 value => exact congrArg (· % 4) (Vector.length_toList)
  | vectorLength length =>
      rw [encode, List.length_append, length_toLe, length_toLe]
  | _ => exact congrArg (· % 4) (length_toLe _ _)

end TlValue

def written (buffer : List UInt8) (values : List TlValue) : List UInt8 :=
  Runs.run (fun buffer value ↦ after value.write buffer) buffer values

theorem length_written (values : List TlValue) : (written [] values).length % 4 = 0 := by
  refine Runs.invariant (I := fun buffer : List UInt8 ↦ buffer.length % 4 = 0) ?_ rfl values
  intro buffer value h
  by_cases hwritable : value.Writable
  · rw [(TlValue.appends_write hwritable buffer).eq.2, List.length_append]
    have := value.length_encode
    omega
  · rwa [(TlValue.write_refused hwritable buffer).eq.2]

/-- Elements within the limits are written and read back, and the reader is at its end
then. Four divides the length of every buffer, and a refused element does not change it. -/
theorem tl_round_trip {limits : TlLimits} {values : List TlValue}
    (hwritable : ∀ value ∈ values, value.Writable)
    (hreadable : ∀ value ∈ values, value.Readable limits) :
    (∃ buffer reader, Yields (values.forM TlValue.write) [] (.ok ⟨⟩) buffer ∧
      Yields ((values.map TlValue.type).mapM TlType.read)
        (TlReader.withLimits buffer limits.maxBytes limits.maxVectorLength) (.ok values) reader ∧
      reader.offset = buffer.length ∧ TlReader.isFinished reader = true) ∧
    (∀ elements : List TlValue, (written [] elements).length % 4 = 0) ∧
    ∀ (value : TlValue) (buffer : List UInt8) (e : TlError),
      result value.write buffer = .error e → after value.write buffer = buffer := by
  refine ⟨?_, length_written, fun value buffer e herror ↦ ?_⟩
  · have hwrite := appends_forM fun value hvalue ↦ TlValue.appends_write (hwritable value hvalue)
    have hread := consumes_mapM fun value hvalue ↦
      TlValue.consumes_read (hwritable value hvalue) (hreadable value hvalue)
    refine ⟨values.flatMap TlValue.encode, _, hwrite [], hread.whole, rfl, ?_⟩
    simp [TlReader.isFinished, TlReader.remaining]
  · by_cases hvalue : value.Writable
    · cases herror.symm.trans (TlValue.appends_write hvalue buffer).eq.1
    · exact (TlValue.write_refused hvalue buffer).eq.2

theorem tl_round_trip_mixed :
    (∃ buffer reader, Yields ([TlValue.u32 7, .bytes [1, 2], .string "fabushi",
        .vectorLength 3].forM TlValue.write) [] (.ok ⟨⟩) buffer ∧
      Yields (([TlValue.u32 7, .bytes [1, 2], .string "fabushi",
        .vectorLength 3].map TlValue.type).mapM TlType.read)
        (TlReader.withLimits buffer defaultMaxBytes defaultMaxVectorLength)
        (.ok [.u32 7, .bytes [1, 2], .string "fabushi", .vectorLength 3]) reader ∧
      reader.offset = buffer.length ∧ TlReader.isFinished reader = true) ∧
    (∀ elements : List TlValue, (written [] elements).length % 4 = 0) ∧
    ∀ (value : TlValue) (buffer : List UInt8) (e : TlError),
      result value.write buffer = .error e → after value.write buffer = buffer := by
  have hall : ∀ value ∈ [TlValue.u32 7, .bytes [1, 2], .string "fabushi", .vectorLength 3],
      value.Writable ∧ value.Readable {} := by
    simp only [List.forall_mem_cons, TlValue.Writable, TlValue.Readable]
    refine ⟨⟨trivial, trivial⟩, ?_, ?_, ?_, List.forall_mem_nil _⟩ <;> decide
  exact @tl_round_trip {} _ (fun value h ↦ (hall value h).1) fun value h ↦ (hall value h).2

end Fabushi.Telegram
