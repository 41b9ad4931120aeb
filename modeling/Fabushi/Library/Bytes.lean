import Fabushi.Library.Text

/-!
# Injective byte encodings

Hexadecimal digits, big-endian counters and length-prefixed concatenation. Joining
parts behind their lengths loses nothing, in contrast to joining them with a
separator that may occur in a part.
-/

namespace Bytes

def hexDigit (n : UInt8) : Char :=
  if n < 10 then Char.ofNat (48 + n.toNat) else Char.ofNat (87 + n.toNat)

def encodeHex (bytes : List UInt8) : String :=
  String.ofList (bytes.flatMap fun byte ↦ [hexDigit (byte / 16), hexDigit (byte % 16)])

def toBeBytes (n : UInt64) : List UInt8 :=
  [56, 48, 40, 32, 24, 16, 8, 0].map fun shift ↦ UInt8.ofNat (n.toNat / 2 ^ shift)

def lengthPrefixed (parts : List String) : List UInt8 :=
  parts.flatMap fun part ↦ toBeBytes (UInt64.ofNat (Text.len part)) ++ Text.bytes part

/-- The alphabet of `URL_SAFE_NO_PAD`. -/
def base64UrlDigit (n : ℕ) : Char :=
  "ABCDEFGHIJKLMNOPQRSTUVWXYZabcdefghijklmnopqrstuvwxyz0123456789-_".toList.getD n 'A'

/-- Three bytes are four digits; a shorter end is written without padding. -/
def base64UrlDigits : List UInt8 → List Char
  | a :: b :: c :: rest =>
      let n := (a.toNat * 256 + b.toNat) * 256 + c.toNat
      base64UrlDigit (n / 262144) :: base64UrlDigit (n / 4096 % 64) ::
        base64UrlDigit (n / 64 % 64) :: base64UrlDigit (n % 64) :: base64UrlDigits rest
  | [a, b] =>
      let n := (a.toNat * 256 + b.toNat) * 4
      [base64UrlDigit (n / 4096), base64UrlDigit (n / 64 % 64), base64UrlDigit (n % 64)]
  | [a] => [base64UrlDigit (a.toNat / 4), base64UrlDigit (a.toNat % 4 * 16)]
  | [] => []

def encodeBase64UrlNoPad (bytes : List UInt8) : String :=
  String.ofList (base64UrlDigits bytes)

theorem length_le_length_base64UrlDigits (bytes : List UInt8) :
    bytes.length ≤ (base64UrlDigits bytes).length := by
  fun_induction base64UrlDigits bytes with
  | case1 a b c rest n ih =>
      simp only [List.length_cons]
      omega
  | case2 => simp
  | case3 => simp
  | case4 => simp

/-! ## Nothing is lost -/

theorem toNat_hexDigit {n : UInt8} (h : n.toNat < 16) :
    (hexDigit n).toNat = if n.toNat < 10 then 48 + n.toNat else 87 + n.toNat := by
  have hvalid : ∀ k < 128, (Char.ofNat k).toNat = k := by
    intro k hk
    rw [Char.toNat_ofNat, if_pos (Or.inl (by omega))]
  unfold hexDigit
  simp only [UInt8.lt_iff_toNat_lt, show (10 : UInt8).toNat = 10 from rfl]
  split
  · exact hvalid _ (by omega)
  · exact hvalid _ (by omega)

theorem hexDigits_injective {a b : UInt8} (hhigh : hexDigit (a / 16) = hexDigit (b / 16))
    (hlow : hexDigit (a % 16) = hexDigit (b % 16)) : a = b := by
  have ha := a.toNat_lt
  have hb := b.toNat_lt
  have hdigit : ∀ m n : UInt8, m.toNat < 16 → n.toNat < 16 → hexDigit m = hexDigit n →
      m.toNat = n.toNat := by
    intro m n hm hn h
    have hnat := congrArg Char.toNat h
    rw [toNat_hexDigit hm, toNat_hexDigit hn] at hnat
    split at hnat <;> split at hnat <;> omega
  have hdiv := hdigit (a / 16) (b / 16) (by simp; omega) (by simp; omega) hhigh
  have hmod := hdigit (a % 16) (b % 16) (by simp; omega) (by simp; omega) hlow
  simp only [UInt8.toNat_div, UInt8.toNat_mod, show (16 : UInt8).toNat = 16 from rfl] at hdiv hmod
  exact UInt8.toNat_inj.mp (by omega)

theorem encodeHex_injective : Function.Injective encodeHex := by
  intro xs ys h
  have hlist := String.ofList_injective h
  clear h
  induction xs generalizing ys with
  | nil =>
      cases ys with
      | nil => rfl
      | cons y ys => simp at hlist
  | cons x xs ih =>
      cases ys with
      | nil => simp at hlist
      | cons y ys =>
          simp only [List.flatMap_cons, List.cons_append, List.nil_append, List.cons.injEq] at hlist
          rw [hexDigits_injective hlist.1 hlist.2.1, ih hlist.2.2]

theorem length_toBeBytes (n : UInt64) : (toBeBytes n).length = 8 := rfl

theorem toBeBytes_injective : Function.Injective toBeBytes := by
  intro a b h
  have hbyte : ∀ m n : ℕ, UInt8.ofNat m = UInt8.ofNat n → m % 256 = n % 256 := by
    intro m n hmn
    simpa using congrArg UInt8.toNat hmn
  simp only [toBeBytes, List.map_cons, List.map_nil, List.cons.injEq, and_true] at h
  obtain ⟨h7, h6, h5, h4, h3, h2, h1, h0⟩ := h
  have ha := a.toNat_lt
  have hb := b.toNat_lt
  have e7 := hbyte _ _ h7
  have e6 := hbyte _ _ h6
  have e5 := hbyte _ _ h5
  have e4 := hbyte _ _ h4
  have e3 := hbyte _ _ h3
  have e2 := hbyte _ _ h2
  have e1 := hbyte _ _ h1
  have e0 := hbyte _ _ h0
  exact UInt64.toNat_inj.mp (by omega)

theorem length_bytes (s : String) : (Text.bytes s).length = Text.len s := rfl

theorem bytes_injective : Function.Injective Text.bytes := by
  intro s t h
  have hdata : s.toUTF8.data = t.toUTF8.data := Array.toList_inj.mp h
  exact String.toByteArray_inj.mp (ByteArray.ext hdata)

/-- Strings of a length that fits the prefix are recovered from the joined bytes. -/
theorem lengthPrefixed_injective {ps qs : List String} (hps : ∀ p ∈ ps, Text.len p < 2 ^ 64)
    (hqs : ∀ q ∈ qs, Text.len q < 2 ^ 64) (h : lengthPrefixed ps = lengthPrefixed qs) :
    ps = qs := by
  induction ps generalizing qs with
  | nil =>
      cases qs with
      | nil => rfl
      | cons q qs => simp [lengthPrefixed, toBeBytes] at h
  | cons p ps ih =>
      cases qs with
      | nil => simp [lengthPrefixed, toBeBytes] at h
      | cons q qs =>
          simp only [lengthPrefixed, List.flatMap_cons, List.append_assoc] at h
          obtain ⟨hlength, htail⟩ := List.append_inj h (by simp [length_toBeBytes])
          have hlen : Text.len p = Text.len q := by
            have hnat := congrArg UInt64.toNat (toBeBytes_injective hlength)
            have hp := hps p (by simp)
            have hq := hqs q (by simp)
            rwa [UInt64.toNat_ofNat_of_lt' hp, UInt64.toNat_ofNat_of_lt' hq] at hnat
          obtain ⟨hbytes, hrest⟩ := List.append_inj htail (by simpa [length_bytes] using hlen)
          rw [bytes_injective hbytes, ih (fun p hp ↦ hps p (by simp [hp]))
            (fun q hq ↦ hqs q (by simp [hq])) hrest]

end Bytes
