import Mathlib

/-!
# String operations with Rust's meaning

`str::len` counts UTF-8 bytes, `str::trim` strips the Unicode `White_Space`
characters at both ends and `to_ascii_uppercase` touches ASCII letters only.
-/

namespace Text

/-- The Unicode `White_Space` property, as in `char::is_whitespace`. -/
def isWhitespace (c : Char) : Bool :=
  let n := c.toNat
  (0x09 ≤ n && n ≤ 0x0D) || n == 0x20 || n == 0x85 || n == 0xA0 || n == 0x1680 ||
    (0x2000 ≤ n && n ≤ 0x200A) || n == 0x2028 || n == 0x2029 || n == 0x202F ||
    n == 0x205F || n == 0x3000

def trimList (p : Char → Bool) (cs : List Char) : List Char :=
  ((cs.dropWhile p).reverse.dropWhile p).reverse

def trim (s : String) : String :=
  String.ofList (trimList isWhitespace s.toList)

/-- `str::as_bytes`: the UTF-8 encoding. -/
def bytes (s : String) : List UInt8 :=
  s.toUTF8.data.toList

def fromUtf8 (bytes : List UInt8) : Option String :=
  String.fromUTF8? ⟨bytes.toArray⟩

theorem fromUtf8_bytes (s : String) : fromUtf8 (bytes s) = some s := by
  have harray : ByteArray.mk (bytes s).toArray = s.toByteArray := by
    apply ByteArray.ext
    exact Array.toArray_toList
  rw [fromUtf8, harray, String.fromUTF8?, dif_pos]
  rfl

def len (s : String) : ℕ :=
  s.utf8ByteSize

def isBlank (s : String) : Bool :=
  trim s == ""

def asciiUpper (c : Char) : Char :=
  if 97 ≤ c.toNat ∧ c.toNat ≤ 122 then Char.ofNat (c.toNat - 32) else c

def toAsciiUppercase (s : String) : String :=
  String.ofList (s.toList.map asciiUpper)

def isAsciiUppercase (c : Char) : Bool :=
  'A' ≤ c && c ≤ 'Z'

def isAsciiLowercase (c : Char) : Bool :=
  'a' ≤ c && c ≤ 'z'

def isAsciiDigit (c : Char) : Bool :=
  '0' ≤ c && c ≤ '9'

def isAsciiAlphanumeric (c : Char) : Bool :=
  isAsciiUppercase c || isAsciiLowercase c || isAsciiDigit c

def stripPrefix (pre s : String) : Option String :=
  if pre.toList.isPrefixOf s.toList then
    some (String.ofList (s.toList.drop pre.toList.length))
  else none

/-- `str::parse::<u64>`: an optional plus sign and decimal digits, within range. -/
def parseU64 (text : String) : Option UInt64 :=
  let digits := match text.toList with
    | '+' :: rest => rest
    | cs => cs
  if digits.isEmpty ∨ ¬ digits.all isAsciiDigit then none
  else
    let n := digits.foldl (fun n c ↦ 10 * n + (c.toNat - 48)) 0
    if n < 2 ^ 64 then some (UInt64.ofNat n) else none

theorem length_le_len (cs : List Char) : cs.length ≤ len (String.ofList cs) := by
  induction cs with
  | nil => exact Nat.zero_le _
  | cons c cs ih =>
      have hsplit : String.ofList (c :: cs) = String.singleton c ++ String.ofList cs := by
        rw [← List.singleton_append, String.ofList_append]
        rfl
      have hpos := Char.utf8Size_pos c
      unfold len at ih ⊢
      rw [hsplit, String.utf8ByteSize_append, String.utf8ByteSize_singleton, List.length_cons]
      omega

/-! ## Trimming and case folding -/

theorem toNat_asciiUpper {c : Char} (h : 97 ≤ c.toNat ∧ c.toNat ≤ 122) :
    (asciiUpper c).toNat = c.toNat - 32 := by
  have hvalid : (c.toNat - 32).isValidChar := Or.inl (by omega)
  rw [asciiUpper, if_pos h, Char.toNat_ofNat, if_pos hvalid]

theorem isWhitespace_asciiUpper (c : Char) :
    isWhitespace (asciiUpper c) = isWhitespace c := by
  by_cases h : 97 ≤ c.toNat ∧ c.toNat ≤ 122
  · have hto := toNat_asciiUpper h
    simp only [isWhitespace, hto]
    grind
  · rw [asciiUpper, if_neg h]

theorem trimList_eq_self {p : Char → Bool} {cs : List Char}
    (hhead : ∀ c ∈ cs.head?, p c = false) (hlast : ∀ c ∈ cs.getLast?, p c = false) :
    trimList p cs = cs := by
  have hdrop : ∀ ds : List Char, (∀ c ∈ ds.head?, p c = false) → ds.dropWhile p = ds := by
    intro ds hds
    cases ds with
    | nil => rfl
    | cons d ds => simp [hds d (by simp)]
  rw [trimList, hdrop cs hhead, hdrop cs.reverse (by simpa using hlast), List.reverse_reverse]

theorem head?_dropWhile_not {p : Char → Bool} (cs : List Char) :
    ∀ c ∈ (cs.dropWhile p).head?, p c = false := by
  induction cs with
  | nil => simp
  | cons d ds ih =>
      intro c hc
      by_cases hd : p d = true
      · exact ih c (by simpa [List.dropWhile_cons, hd] using hc)
      · have : d = c := by simpa [List.dropWhile_cons, hd] using hc
        simpa [this] using hd

theorem head?_trimList {p : Char → Bool} (cs : List Char) :
    ∀ c ∈ (trimList p cs).head?, p c = false := by
  intro c hc
  -- the trimmed list is a prefix of the left-trimmed one
  have hpre : trimList p cs <+: cs.dropWhile p := by
    have := List.dropWhile_suffix p (l := (cs.dropWhile p).reverse)
    simpa [trimList] using List.reverse_prefix.mpr this
  obtain ⟨tail, htail⟩ := hpre
  refine head?_dropWhile_not cs c ?_
  rw [← htail]
  cases h : trimList p cs with
  | nil => simp [h] at hc
  | cons d ds => simpa [h] using hc

theorem getLast?_trimList {p : Char → Bool} (cs : List Char) :
    ∀ c ∈ (trimList p cs).getLast?, p c = false := by
  intro c hc
  refine head?_dropWhile_not (cs.dropWhile p).reverse c ?_
  simpa [trimList, List.getLast?_reverse] using hc

theorem trim_trim (s : String) : trim (trim s) = trim s := by
  simp only [trim, String.toList_ofList]
  rw [trimList_eq_self (head?_trimList _) (getLast?_trimList _)]

theorem trim_eq_self {s : String} (h : ∀ c ∈ s.toList, isWhitespace c = false) : trim s = s := by
  rw [trim, trimList_eq_self (fun c hc ↦ h c (List.mem_of_mem_head? hc))
    (fun c hc ↦ h c (List.mem_of_mem_getLast? hc)), String.ofList_toList]

theorem isBlank_eq_false {s : String} {c : Char} (hc : c ∈ s.toList)
    (hvisible : isWhitespace c = false) : isBlank s = false := by
  by_contra hblank
  have hempty : trimList isWhitespace s.toList = [] := by
    simp only [isBlank, beq_iff_eq, Bool.not_eq_false, trim] at hblank
    simpa using congrArg String.toList hblank
  have hdropped : ∀ x ∈ s.toList.dropWhile isWhitespace, isWhitespace x = true := by
    simpa [trimList, List.dropWhile_eq_nil_iff] using hempty
  rw [← List.takeWhile_append_dropWhile (p := isWhitespace) (l := s.toList), List.mem_append] at hc
  have hspace : isWhitespace c = true := hc.elim List.mem_takeWhile_imp (hdropped c)
  rw [hvisible] at hspace
  cases hspace

theorem trimList_map {p : Char → Bool} {f : Char → Char} (hf : ∀ c, p (f c) = p c)
    (cs : List Char) : trimList p (cs.map f) = (trimList p cs).map f := by
  have hcomp : p ∘ f = p := funext hf
  simp only [trimList, List.dropWhile_map, hcomp, ← List.map_reverse]

theorem trim_toAsciiUppercase (s : String) :
    trim (toAsciiUppercase s) = toAsciiUppercase (trim s) := by
  simp only [trim, toAsciiUppercase, String.toList_ofList, trimList_map isWhitespace_asciiUpper]

theorem asciiUpper_asciiUpper (c : Char) : asciiUpper (asciiUpper c) = asciiUpper c := by
  by_cases h : 97 ≤ c.toNat ∧ c.toNat ≤ 122
  · have hto := toNat_asciiUpper h
    have hnot : ¬ (97 ≤ (asciiUpper c).toNat ∧ (asciiUpper c).toNat ≤ 122) := by omega
    rw [asciiUpper, if_neg hnot]
  · simp only [asciiUpper, if_neg h]

theorem toAsciiUppercase_idem (s : String) :
    toAsciiUppercase (toAsciiUppercase s) = toAsciiUppercase s := by
  simp [toAsciiUppercase, Function.comp_def, asciiUpper_asciiUpper]

theorem asciiUpper_of_isAsciiUppercase {c : Char} (h : isAsciiUppercase c = true) :
    asciiUpper c = c := by
  have hle : c ≤ 'Z' := by
    simp only [isAsciiUppercase, Bool.and_eq_true, decide_eq_true_eq] at h
    exact h.2
  have hnat : c.toNat ≤ 90 := hle
  rw [asciiUpper, if_neg (by omega)]

theorem isWhitespace_of_isAsciiUppercase {c : Char} (h : isAsciiUppercase c = true) :
    isWhitespace c = false := by
  simp only [isAsciiUppercase, Bool.and_eq_true, decide_eq_true_eq] at h
  have hlow : 65 ≤ c.toNat := h.1
  have hhigh : c.toNat ≤ 90 := h.2
  simp only [isWhitespace]
  grind

theorem toAsciiUppercase_eq_self {s : String} (h : ∀ c ∈ s.toList, isAsciiUppercase c = true) :
    toAsciiUppercase s = s := by
  rw [toAsciiUppercase, List.map_congr_left fun c hc ↦ asciiUpper_of_isAsciiUppercase (h c hc),
    List.map_id', String.ofList_toList]

end Text

/-!
## ASCII texts

The classes of ASCII characters as ranges of their numbers. A text of ASCII characters has
as many bytes as characters.
-/

namespace Ascii

open Text

theorem isAsciiDigit_iff {c : Char} : isAsciiDigit c = true ↔ 48 ≤ c.toNat ∧ c.toNat ≤ 57 := by
  rw [isAsciiDigit, Bool.and_eq_true, decide_eq_true_eq, decide_eq_true_eq]
  exact Iff.rfl

theorem isAsciiLowercase_iff {c : Char} :
    isAsciiLowercase c = true ↔ 97 ≤ c.toNat ∧ c.toNat ≤ 122 := by
  rw [isAsciiLowercase, Bool.and_eq_true, decide_eq_true_eq, decide_eq_true_eq]
  exact Iff.rfl

theorem isAsciiUppercase_iff {c : Char} :
    isAsciiUppercase c = true ↔ 65 ≤ c.toNat ∧ c.toNat ≤ 90 := by
  rw [isAsciiUppercase, Bool.and_eq_true, decide_eq_true_eq, decide_eq_true_eq]
  exact Iff.rfl

theorem isAsciiAlphanumeric_iff {c : Char} : isAsciiAlphanumeric c = true ↔
    (65 ≤ c.toNat ∧ c.toNat ≤ 90) ∨ (97 ≤ c.toNat ∧ c.toNat ≤ 122) ∨
      (48 ≤ c.toNat ∧ c.toNat ≤ 57) := by
  rw [isAsciiAlphanumeric, Bool.or_eq_true, Bool.or_eq_true, isAsciiUppercase_iff,
    isAsciiLowercase_iff, isAsciiDigit_iff, or_assoc]

theorem isWhitespace_of_graphic {c : Char} (h : 33 ≤ c.toNat ∧ c.toNat < 127) :
    isWhitespace c = false := by
  simp only [isWhitespace]
  grind

theorem utf8Size_of_lt {c : Char} (h : c.toNat < 128) : c.utf8Size = 1 := by
  have hle : c.val ≤ 0x7f := by
    rw [UInt32.le_iff_toNat_le]
    exact Nat.le_of_lt_succ h
  rw [Char.utf8Size]
  exact if_pos hle

theorem len_eq_length {s : String} (h : ∀ c ∈ s.toList, c.toNat < 128) :
    len s = s.toList.length := by
  obtain ⟨cs, rfl⟩ : ∃ cs, s = String.ofList cs := ⟨s.toList, (String.ofList_toList).symm⟩
  rw [String.toList_ofList] at h ⊢
  induction cs with
  | nil => rfl
  | cons c cs ih =>
      have hsplit : String.ofList (c :: cs) = String.singleton c ++ String.ofList cs := by
        rw [← List.singleton_append, String.ofList_append]
        rfl
      have hrest := ih fun d hd ↦ h d (List.mem_cons_of_mem c hd)
      unfold len at hrest ⊢
      rw [hsplit, String.utf8ByteSize_append, String.utf8ByteSize_singleton, List.length_cons,
        utf8Size_of_lt (h c List.mem_cons_self), hrest, Nat.add_comm]

end Ascii
