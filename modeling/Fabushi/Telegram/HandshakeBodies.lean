import Fabushi.Library.Transactions
import Fabushi.Telegram.Handshake
import Fabushi.Telegram.TlRoundTrip

/-!
# The bodies of the key exchange

An accepted body of the server starts with its constructor and both nonces of the exchange;
an accepted last answer is determined byte by byte. The body of the client carries its
Diffie–Hellman value and the id of the retry, and everything it was computed from has
passed the checks.
-/

namespace Fabushi.Telegram

open Effects Modular Radix Result Transactions Wire

section

/-! ## Reading -/

variable {α : Type} {input input' : Input TlLimits}

theorem yields_take_ok {length : ℕ} {bytes : List UInt8}
    (h : Yields (TlReader.take length) input (.ok bytes) input') :
    slice input.bytes input.offset (input.offset + length) = some bytes ∧
      input' = { input with offset := input.offset + length } := by
  unfold TlReader.take Wire.take at h
  rw [yields_get_bind] at h
  dsimp only at h
  split at h
  · rename_i hfits
    rw [yields_modify_bind, yields_pure] at h
    obtain ⟨hbytes, rfl⟩ := h
    refine ⟨?_, rfl⟩
    rw [slice, if_pos hfits, Except.ok.inj hbytes, ← List.take_drop]
  · exact absurd h not_yields_throw_ok

theorem yields_takeArray_ok {length : ℕ} {bytes : Vector UInt8 length}
    (h : Yields (TlReader.takeArray length) input (.ok bytes) input') :
    slice input.bytes input.offset (input.offset + length) = some bytes.toList ∧
      input' = { input with offset := input.offset + length } := by
  obtain ⟨taken, middle, htake, h⟩ := exists_of_yields_bind h
  obtain ⟨hslice, rfl⟩ := yields_take_ok htake
  rw [yields_get_bind, yields_orThrow_ok, okOr_eq_ok] at h
  obtain ⟨hvector, rfl⟩ := h
  rw [toList_of_toVector hvector]
  exact ⟨hslice, rfl⟩

theorem yields_readU32_ok {value : UInt32}
    (h : Yields TlReader.readU32 input (.ok value) input') :
    slice input.bytes input.offset (input.offset + 4) = some (toLe 4 value.toNat) ∧
      input' = { input with offset := input.offset + 4 } := by
  obtain ⟨taken, middle, htake, h⟩ := exists_of_yields_bind h
  obtain ⟨hslice, rfl⟩ := yields_takeArray_ok htake
  obtain ⟨hvalue, rfl⟩ := yields_pure.mp h
  obtain rfl := Except.ok.inj hvalue
  refine ⟨?_, rfl⟩
  have hlength : taken.toList.length = 4 := Vector.length_toList
  have hlt := ofLe_lt taken.toList
  have hback := toLe_ofLe taken.toList
  rw [hlength] at hlt hback
  rw [UInt32.toNat_ofNat', Nat.mod_eq_of_lt (by omega), hback]
  exact hslice

theorem yields_readTl_u32 {body : List UInt8} {offset : ℕ} {limits : TlLimits} {a : α}
    {f : UInt32 → Reader HandshakeError TlLimits α}
    (h : Yields (readTl TlReader.readU32 >>= f) ⟨body, offset, limits⟩ (.ok a) input') :
    ∃ word, slice body offset (offset + 4) = some (toLe 4 word.toNat) ∧
      Yields (f word) ⟨body, offset + 4, limits⟩ (.ok a) input' := by
  obtain ⟨word, _, hread, h⟩ := exists_of_yields_bind h
  obtain ⟨hslice, rfl⟩ := yields_readU32_ok (yields_adapt_ok.mp hread)
  exact ⟨word, hslice, h⟩

theorem yields_readTl_i128 {body : List UInt8} {offset : ℕ} {limits : TlLimits} {a : α}
    {f : Nonce → Reader HandshakeError TlLimits α}
    (h : Yields (readTl TlReader.readI128Bytes >>= f) ⟨body, offset, limits⟩ (.ok a) input') :
    ∃ bytes : Nonce, slice body offset (offset + 16) = some bytes.toList ∧
      Yields (f bytes) ⟨body, offset + 16, limits⟩ (.ok a) input' := by
  obtain ⟨bytes, _, hread, h⟩ := exists_of_yields_bind h
  obtain ⟨hslice, rfl⟩ := yields_takeArray_ok (yields_adapt_ok.mp hread)
  exact ⟨bytes, hslice, h⟩

theorem yields_of_result {m : Reader HandshakeError TlLimits α} {a : α}
    (h : result m input = .ok a) : Yields m input (.ok a) (after m input) := by
  rw [← h]
  exact yields_self m input

def Opens (body : List UInt8) (constructor : UInt32) (nonce serverNonce : Nonce) : Prop :=
  body.take 36 = toLe 4 constructor.toNat ++ nonce.toList ++ serverNonce.toList

theorem opens_of_slices {body : List UInt8} {constructor : UInt32} {nonce serverNonce : Nonce}
    (hconstructor : slice body 0 4 = some (toLe 4 constructor.toNat))
    (hnonce : slice body 4 20 = some nonce.toList)
    (hserverNonce : slice body 20 36 = some serverNonce.toList) :
    Opens body constructor nonce serverNonce := by
  have hfirst := take_of_slice (by decide) hconstructor
  rw [List.take_zero, List.nil_append] at hfirst
  rw [Opens, take_of_slice (by decide) hserverNonce, take_of_slice (by decide) hnonce, hfirst]

theorem validateNoncePair_ok {nonce serverNonce expectedNonce expectedServerNonce : Nonce}
    {u : Unit} :
    validateNoncePair nonce serverNonce expectedNonce expectedServerNonce = .ok u ↔
      nonce = expectedNonce ∧ serverNonce = expectedServerNonce := by
  rw [validateNoncePair, bind_eq_ok]
  constructor
  · rintro ⟨_, hnonce, hserverNonce⟩
    exact ⟨ensure_eq_ok.mp hnonce, ensure_eq_ok.mp hserverNonce⟩
  · rintro ⟨hnonce, hserverNonce⟩
    exact ⟨(), ensure_eq_ok.mpr hnonce, ensure_eq_ok.mpr hserverNonce⟩

theorem parseResPq_ok {body : List UInt8} {response : ResPq} (h : parseResPq body = .ok response) :
    Opens body resPqConstructor response.nonce response.serverNonce := by
  obtain ⟨constructor, hconstructor, h⟩ := yields_readTl_u32 (yields_of_result h)
  obtain ⟨rfl, h⟩ := yields_ensure_bind_ok.mp h
  obtain ⟨nonce, hnonce, h⟩ := yields_readTl_i128 h
  obtain ⟨serverNonce, hserverNonce, h⟩ := yields_readTl_i128 h
  obtain ⟨pq, _, -, h⟩ := exists_of_yields_bind h
  obtain ⟨fingerprintCount, _, -, h⟩ := exists_of_yields_bind h
  obtain ⟨fingerprints, _, -, h⟩ := exists_of_yields_bind h
  obtain ⟨_, _, -, h⟩ := exists_of_yields_bind h
  obtain rfl := Except.ok.inj (yields_pure.mp h).1
  exact opens_of_slices hconstructor hnonce hserverNonce

theorem parseServerDhParams_ok {body encryptedAnswer : List UInt8} {nonce serverNonce : Nonce}
    (h : parseServerDhParams body nonce serverNonce = .ok (.ok encryptedAnswer)) :
    Opens body serverDhParamsOkConstructor nonce serverNonce := by
  obtain ⟨constructor, hconstructor, h⟩ := yields_readTl_u32 (yields_of_result h)
  obtain ⟨nonce', hnonce, h⟩ := yields_readTl_i128 h
  obtain ⟨serverNonce', hserverNonce, h⟩ := yields_readTl_i128 h
  obtain ⟨_, hpair, h⟩ := yields_orThrow_bind_ok.mp h
  obtain ⟨rfl, rfl⟩ := validateNoncePair_ok.mp hpair
  obtain ⟨response, _, hresponse, h⟩ := exists_of_yields_bind h
  obtain ⟨_, _, -, h⟩ := exists_of_yields_bind h
  obtain rfl := Except.ok.inj (yields_pure.mp h).1
  unfold readServerDhParams at hresponse
  split at hresponse
  · rename_i hok
    rw [hok] at hconstructor
    exact opens_of_slices hconstructor hnonce hserverNonce
  · split at hresponse
    · obtain ⟨_, -, hfail⟩ := yields_map_ok.mp hresponse
      cases hfail
    · exact absurd hresponse not_yields_throw_ok

theorem yields_ensureFinished_bind {body : List UInt8} {offset : ℕ} {limits : TlLimits} {a : α}
    {f : Unit → Reader HandshakeError TlLimits α}
    (h : Yields (ensureFinished >>= f) ⟨body, offset, limits⟩ (.ok a) input') :
    body.length ≤ offset ∧ Yields (f ()) ⟨body, offset, limits⟩ (.ok a) input' := by
  obtain ⟨hfinished, h⟩ := yields_ensure_bind_ok.mp h
  rw [TlReader.isFinished, beq_iff_eq] at hfinished
  exact ⟨Nat.le_of_sub_eq_zero hfinished, h⟩

namespace DhGenResult

def constructor : DhGenResult → UInt32
  | .ok => dhGenOkConstructor
  | .retry => dhGenRetryConstructor
  | .fail => dhGenFailConstructor

def tag : DhGenResult → UInt8
  | .ok => 1
  | .retry => 2
  | .fail => 3

end DhGenResult

theorem dhGenResultOf_ok {constructor : UInt32} {dhGenResult : DhGenResult} {tag : UInt8}
    (h : dhGenResultOf constructor = .ok (dhGenResult, tag)) :
    constructor = dhGenResult.constructor ∧ tag = dhGenResult.tag := by
  unfold dhGenResultOf at h
  split at h
  · obtain ⟨rfl, rfl⟩ := Prod.mk.inj (Except.ok.inj h)
    exact ⟨‹_›, rfl⟩
  split at h
  · obtain ⟨rfl, rfl⟩ := Prod.mk.inj (Except.ok.inj h)
    exact ⟨‹_›, rfl⟩
  split at h
  · obtain ⟨rfl, rfl⟩ := Prod.mk.inj (Except.ok.inj h)
    exact ⟨‹_›, rfl⟩
  · cases h

variable (prims : Primitives)

/-- The only last answer with this result that is accepted for a prepared value. -/
def dhGenBody (dhGenResult : DhGenResult) (nonce serverNonce : Nonce)
    (newNonce : Vector UInt8 32) (authKeyAuxHash : UInt64) : List UInt8 :=
  let digest := prims.sha1 (newNonce.toList ++ [dhGenResult.tag] ++ toLe 8 authKeyAuxHash.toNat)
  let newNonceHash : Vector UInt8 16 := digest.extract 4 20
  toLe 4 dhGenResult.constructor.toNat ++ nonce.toList ++ serverNonce.toList ++ newNonceHash.toList

variable {prims} {nonce serverNonce : Nonce} {newNonce : Vector UInt8 32}

theorem parseDhGenResult_ok {body : List UInt8} {authKeyAuxHash : UInt64}
    {dhGenResult : DhGenResult}
    (h : parseDhGenResult prims body nonce serverNonce newNonce authKeyAuxHash = .ok dhGenResult) :
    body = dhGenBody prims dhGenResult nonce serverNonce newNonce authKeyAuxHash := by
  obtain ⟨constructor, hconstructor, h⟩ := yields_readTl_u32 (yields_of_result h)
  obtain ⟨nonce', hnonce, h⟩ := yields_readTl_i128 h
  obtain ⟨serverNonce', hserverNonce, h⟩ := yields_readTl_i128 h
  obtain ⟨_, hpair, h⟩ := yields_orThrow_bind_ok.mp h
  obtain ⟨rfl, rfl⟩ := validateNoncePair_ok.mp hpair
  obtain ⟨actualHash, hhash, h⟩ := yields_readTl_i128 h
  obtain ⟨hfinished, h⟩ := yields_ensureFinished_bind h
  obtain ⟨⟨dhGenResult', tag⟩, hresult, h⟩ := yields_orThrow_bind_ok.mp h
  obtain ⟨hequal, h⟩ := yields_ensure_bind_ok.mp h
  obtain rfl := Except.ok.inj (yields_pure.mp h).1
  obtain ⟨rfl, rfl⟩ := dhGenResultOf_ok hresult
  have hopens := opens_of_slices hconstructor hnonce hserverNonce
  have hwhole := take_of_slice (by decide) hhash
  rw [List.take_of_length_le hfinished, hequal] at hwhole
  rw [hwhole]
  exact congrArg (· ++ _) hopens

/-! ## The parameters of the server -/

def SafeValue (value : ℕ) : Prop :=
  2 ^ (2048 - 64) ≤ value ∧ value ≤ knownDhPrimeHex - 2 ^ (2048 - 64)

/-- The parameters are of the pinned group. -/
structure TrustedGroup (data : ServerDhInnerData) : Prop where
  prime : data.dhPrime = knownDhPrime
  generator : generatorIsValid (knownDhPrimeHex % ·) data.generator = true
  gA : SafeValue (ofBe data.gA)

theorem toBe_of_lt {n : ℕ} (h : n < 256) : toBe n = [UInt8.ofNat n] := by
  have hlength : byteLength n = 1 :=
    Nat.le_antisymm (byteLength_le Nat.one_pos (h.trans_eq (Nat.pow_one 256).symm))
      (Nat.le_add_left 1 _)
  rw [toBe, hlength]
  rfl

theorem primeResidue_eq (prime : ℕ) {modulus : ℕ} (hpos : 0 < modulus) (hle : modulus ≤ 256) :
    primeResidue prime modulus = prime % modulus := by
  have hlt := (Nat.mod_lt prime hpos).trans_le hle
  rw [primeResidue, toBe_of_lt hlt]
  change (((0 : UInt32) <<< (8 : UInt32)) ||| (UInt8.ofNat (prime % modulus)).toUInt32).toNat = _
  rw [UInt32.toNat_or, UInt8.toNat_toUInt32, UInt8.toNat_ofNat', Nat.mod_eq_of_lt hlt]
  exact Nat.zero_or _

theorem generatorIsValid_primeResidue (prime : ℕ) (generator : Int32) :
    generatorIsValid (primeResidue prime) generator = generatorIsValid (prime % ·) generator := by
  have hresidue : ∀ modulus ∈ [3, 5, 7, 8, 24], primeResidue prime modulus = prime % modulus := by
    intro modulus hmem
    apply primeResidue_eq
    · revert modulus
      decide
    · revert modulus
      decide
  simp only [List.forall_mem_cons, List.not_mem_nil, false_implies, implies_true, and_true]
    at hresidue
  obtain ⟨h3, h5, h7, h8, h24⟩ := hresidue
  unfold generatorIsValid
  rw [h3, h5, h7, h8, h24]

theorem validateDhPublicValue_ok {value : ℕ} {u : Unit}
    (h : validateDhPublicValue knownDhPrimeHex value = .ok u) : SafeValue value := by
  have hrange := ensure_eq_ok.mp h
  rw [not_or, Nat.not_lt, Nat.not_lt] at hrange
  exact hrange

theorem validateServerDhParameters_ok {data : ServerDhInnerData} {u : Unit}
    (h : validateServerDhParameters data = .ok u) : TrustedGroup data := by
  obtain ⟨_, -, h⟩ := bind_eq_ok.mp h
  obtain ⟨_, -, h⟩ := bind_eq_ok.mp h
  obtain ⟨_, hprime, h⟩ := bind_eq_ok.mp h
  obtain ⟨_, hgenerator, h⟩ := bind_eq_ok.mp h
  rw [ensure_eq_ok] at hprime hgenerator
  rw [hprime, ofBe_knownDhPrime] at h hgenerator
  rw [generatorIsValid_primeResidue] at hgenerator
  exact ⟨hprime, hgenerator, validateDhPublicValue_ok h⟩

theorem decryptServerDhInnerData_ok {encryptedAnswer : List UInt8} {data : ServerDhInnerData}
    (h : decryptServerDhInnerData prims encryptedAnswer newNonce nonce serverNonce = .ok data) :
    data.nonce = nonce ∧ data.serverNonce = serverNonce ∧ TrustedGroup data := by
  obtain ⟨_, -, h⟩ := bind_eq_ok.mp h
  obtain ⟨plaintext, -, h⟩ := bind_eq_ok.mp h
  obtain ⟨_, -, h⟩ := bind_eq_ok.mp h
  obtain ⟨expectedHash, -, h⟩ := bind_eq_ok.mp h
  obtain ⟨data', hread, h⟩ := bind_eq_ok.mp h
  obtain ⟨_, hvalid, h⟩ := bind_eq_ok.mp h
  obtain rfl := Except.ok.inj h
  obtain ⟨constructor, -, hread⟩ := yields_readTl_u32 (yields_of_result hread)
  obtain ⟨-, hread⟩ := yields_ensure_bind_ok.mp hread
  obtain ⟨nonce', -, hread⟩ := yields_readTl_i128 hread
  obtain ⟨serverNonce', -, hread⟩ := yields_readTl_i128 hread
  obtain ⟨_, hpair, hread⟩ := yields_orThrow_bind_ok.mp hread
  obtain ⟨rfl, rfl⟩ := validateNoncePair_ok.mp hpair
  obtain ⟨generator, _, -, hread⟩ := exists_of_yields_bind hread
  obtain ⟨dhPrime, _, -, hread⟩ := exists_of_yields_bind hread
  obtain ⟨gA, _, -, hread⟩ := exists_of_yields_bind hread
  obtain ⟨serverTime, _, -, hread⟩ := exists_of_yields_bind hread
  rw [yields_get_bind] at hread
  obtain ⟨-, hread⟩ := yields_ensure_bind_ok.mp hread
  obtain ⟨-, hread⟩ := yields_ensure_bind_ok.mp hread
  obtain ⟨-, hread⟩ := yields_ensure_bind_ok.mp hread
  obtain rfl := Except.ok.inj (yields_pure.mp hread).1
  exact ⟨rfl, rfl, validateServerDhParameters_ok hvalid⟩

/-! ## The value of the client -/

theorem intoBytes_ok {writer : TlWriter PUnit} {bytes : List UInt8}
    (h : intoBytes writer = .ok bytes) : Yields writer [] (.ok ⟨⟩) bytes := by
  obtain ⟨u, hresult, h⟩ := bind_eq_ok.mp h
  obtain rfl := Except.ok.inj h
  have hself := yields_self writer []
  cases hrun : result writer [] with
  | error e =>
      rw [hrun] at hresult
      cases hresult
  | ok u' => rwa [hrun] at hself

theorem yields_write_ok (value : TlValue) {buffer buffer' : List UInt8}
    (h : Yields value.write buffer (.ok ⟨⟩) buffer') : buffer' = buffer ++ value.encode := by
  by_cases hwritable : value.Writable
  · have happends := (TlValue.appends_write hwritable buffer).eq.2
    rw [h.eq.2] at happends
    exact happends
  · have hrefused := (TlValue.write_refused hwritable buffer).eq.1
    rw [h.eq.1] at hrefused
    cases hrefused

theorem yields_write_bind_ok (value : TlValue) {rest : PUnit → TlWriter PUnit}
    {buffer buffer' : List UInt8}
    (h : Yields (value.write >>= rest) buffer (.ok ⟨⟩) buffer') :
    Yields (rest ⟨⟩) (buffer ++ value.encode) (.ok ⟨⟩) buffer' := by
  obtain ⟨_, middle, hwrite, h⟩ := exists_of_yields_bind h
  obtain rfl := yields_write_ok value hwrite
  exact h

variable (prims)

def clientDhInner (data : ServerDhInnerData) (retryId : UInt64) (gB : ℕ) : List UInt8 :=
  toLe 4 clientDhInnerDataConstructor.toNat ++ data.nonce.toList ++ data.serverNonce.toList ++
    toLe 8 retryId.toNat ++ encodeBytes (toBe gB)

def CarriesClientDh (newNonce : Vector UInt8 32) (data : ServerDhInnerData) (retryId : UInt64)
    (gB : ℕ) (body : List UInt8) : Prop :=
  let inner := clientDhInner data retryId gB
  let (key, iv) := deriveTmpAesKeyIv prims newNonce data.serverNonce
  ∃ padding encrypted,
    aesIgeEncrypt prims ((prims.sha1 inner).toList ++ inner ++ padding) key iv = .ok encrypted ∧
      body = toLe 4 setClientDhParamsConstructor.toNat ++ data.nonce.toList ++
        data.serverNonce.toList ++ encodeBytes encrypted

structure Computed (newNonce : Vector UInt8 32) (data : ServerDhInnerData) (retryId : UInt64)
    (b : ℕ) (prepared : PreparedClientDh) : Prop where
  gB_safe : SafeValue (data.generator.toUInt32.toNat ^ b % knownDhPrimeHex)
  sent : CarriesClientDh prims newNonce data retryId
    (data.generator.toUInt32.toNat ^ b % knownDhPrimeHex) prepared.requestBody
  authKey : ofBe prepared.authKey.toList = ofBe data.gA ^ b % knownDhPrimeHex
  authKeyAuxHash : prepared.authKeyAuxHash =
    UInt64.ofNat (ofLe ((prims.sha1 prepared.authKey.toList).toList.take 8))

variable {prims} {data : ServerDhInnerData} {retryId : UInt64} {fillRandom : FillRandom}
  {prepared : PreparedClientDh}

theorem written_clientDhInner {gB : ℕ} {bytes : List UInt8}
    (h : Yields (do
      TlWriter.writeU32 clientDhInnerDataConstructor
      TlWriter.writeI128Bytes data.nonce
      TlWriter.writeI128Bytes data.serverNonce
      TlWriter.writeU64 retryId
      TlWriter.writeBytes (toBe gB)) [] (.ok ⟨⟩) bytes) :
    bytes = clientDhInner data retryId gB := by
  have h := yields_write_bind_ok (.u32 clientDhInnerDataConstructor) h
  have h := yields_write_bind_ok (.i128 data.nonce) h
  have h := yields_write_bind_ok (.i128 data.serverNonce) h
  have h := yields_write_bind_ok (.u64 retryId) h
  exact yields_write_ok (.bytes (toBe gB)) h

theorem written_setClientDhParams {encrypted bytes : List UInt8}
    (h : Yields (do
      TlWriter.writeU32 setClientDhParamsConstructor
      TlWriter.writeI128Bytes data.nonce
      TlWriter.writeI128Bytes data.serverNonce
      TlWriter.writeBytes encrypted) [] (.ok ⟨⟩) bytes) :
    bytes = toLe 4 setClientDhParamsConstructor.toNat ++ data.nonce.toList ++
      data.serverNonce.toList ++ encodeBytes encrypted := by
  have h := yields_write_bind_ok (.u32 setClientDhParamsConstructor) h
  have h := yields_write_bind_ok (.i128 data.nonce) h
  have h := yields_write_bind_ok (.i128 data.serverNonce) h
  exact yields_write_ok (.bytes encrypted) h

theorem biguintToMinimalBe_eq (value : ℕ) : biguintToMinimalBe value = toBe value := by
  unfold biguintToMinimalBe
  apply if_neg
  intro hnil
  have hlength := congrArg List.length hnil
  rw [length_toBe, List.length_nil, byteLength] at hlength
  omega

theorem biguintToFixed256_ok {value : ℕ} {bytes : List UInt8}
    (h : biguintToFixed256 value = .ok bytes) : ofBe bytes = value := by
  obtain ⟨_, hfits, h⟩ := bind_eq_ok.mp h
  obtain rfl := Except.ok.inj h
  rw [ensure_eq_ok, Nat.not_lt, length_toBe] at hfits
  have hvalue : value < 256 ^ 256 :=
    (lt_pow_byteLength value).trans_le (Nat.pow_le_pow_right (by decide) hfits)
  rw [length_toBe, replicate_append_toBe hfits, ofBe_padBe hvalue]

theorem prepareClientDh_ok
    (h : prepareClientDh prims data newNonce retryId fillRandom = .ok prepared) :
    TrustedGroup data ∧ ∃ exponentBytes, fillRandom 0 256 = .ok exponentBytes ∧
      Computed prims newNonce data retryId (clientExponent exponentBytes) prepared := by
  obtain ⟨_, hvalid, h⟩ := bind_eq_ok.mp h
  obtain ⟨exponentBytes, hrandom, h⟩ := bind_eq_ok.mp h
  obtain ⟨_, hrange, h⟩ := bind_eq_ok.mp h
  obtain ⟨authKeyBytes, hbytes, h⟩ := bind_eq_ok.mp h
  obtain ⟨authKey, hkey, h⟩ := bind_eq_ok.mp h
  obtain ⟨inner, hinner, h⟩ := bind_eq_ok.mp h
  obtain ⟨padding, -, h⟩ := bind_eq_ok.mp h
  obtain ⟨encryptedData, hencrypted, h⟩ := bind_eq_ok.mp h
  obtain ⟨requestBody, hrequest, h⟩ := bind_eq_ok.mp h
  obtain rfl := Except.ok.inj h
  have htrusted := validateServerDhParameters_ok hvalid
  have hpositive := knownDhPrime_pos
  rw [htrusted.prime, modpow_eq hpositive, ofBe_knownDhPrime] at hrange hbytes
  rw [htrusted.prime, modpow_eq hpositive, ofBe_knownDhPrime, biguintToMinimalBe_eq] at hinner
  have hauthKey : authKey.toList = authKeyBytes :=
    toList_of_toVector (okOr_eq_ok.mp (mapError_eq_ok.mp hkey))
  refine ⟨htrusted, exponentBytes, hrandom, validateDhPublicValue_ok hrange, ?_, ?_, ?_⟩
  · refine ⟨padding.toList, encryptedData, ?_, ?_⟩
    · rw [← written_clientDhInner (intoBytes_ok hinner)]
      exact mapError_eq_ok.mp hencrypted
    · exact written_setClientDhParams (intoBytes_ok hrequest)
  · rw [hauthKey]
    exact biguintToFixed256_ok hbytes
  · rw [hauthKey]

end

end Fabushi.Telegram
