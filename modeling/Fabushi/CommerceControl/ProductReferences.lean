import Fabushi.CommerceControl.Catalog

/-!
# References of products

A reference joins two identifiers with a point, which an identifier may hold itself. The store
does not tell large letters from small ones, nor `-` and `:` from `_`; and what does not fit is
cut and completed by a hash. Two products share a reference exactly in these cases.
-/

namespace Fabushi.CommerceControl

open Result

structure Product where
  miniAppId : String
  sku : String
  miniAppId_valid : isIdentifier miniAppId = true
  sku_valid : isIdentifier sku = true
  deriving DecidableEq

namespace Product

def joined (p : Product) : List Char :=
  p.miniAppId.toList ++ '.' :: p.sku.toList

def googleId (p : Product) : String :=
  googleProductId p.miniAppId p.sku

def webRef (p : Product) : String :=
  webReference p.miniAppId p.sku

def merchantRef (p : Product) : String :=
  merchantReference p.miniAppId p.sku

end Product

/-! ## Characters -/

def IdentifierChar (c : Char) : Prop :=
  Text.isAsciiAlphanumeric c = true ∨ c = '-' ∨ c = '_' ∨ c = '.' ∨ c = ':'

instance (c : Char) : Decidable (IdentifierChar c) :=
  inferInstanceAs (Decidable (_ ∨ _))

/-- What stands for the character in the store: the number of the small letter, that of `_`
for a mark that is no point, else its own. -/
def storeNumber (c : Char) : ℕ :=
  if 65 ≤ c.toNat ∧ c.toNat ≤ 90 then c.toNat + 32
  else if c.toNat = 45 ∨ c.toNat = 58 then 95
  else c.toNat

def Alike (c d : Char) : Prop :=
  c = d ∨ (Text.isAsciiUppercase c = true ∧ d.toNat = c.toNat + 32) ∨
    (Text.isAsciiUppercase d = true ∧ c.toNat = d.toNat + 32) ∨
      (c ∈ ['-', ':', '_'] ∧ d ∈ ['-', ':', '_'])

theorem IdentifierChar.toNat {c : Char} (h : IdentifierChar c) :
    (65 ≤ c.toNat ∧ c.toNat ≤ 90) ∨ (97 ≤ c.toNat ∧ c.toNat ≤ 122) ∨
      (48 ≤ c.toNat ∧ c.toNat ≤ 57) ∨ c.toNat = 45 ∨ c.toNat = 95 ∨ c.toNat = 46 ∨
        c.toNat = 58 := by
  rcases h with h | rfl | rfl | rfl | rfl
  · rcases Ascii.isAsciiAlphanumeric_iff.mp h with h | h | h
    · exact Or.inl h
    · exact Or.inr (Or.inl h)
    · exact Or.inr (Or.inr (Or.inl h))
  all_goals decide

theorem IdentifierChar.lt {c : Char} (h : IdentifierChar c) : c.toNat < 128 := by
  have hrange := h.toNat
  omega

theorem toNat_storeChar {c : Char} (h : IdentifierChar c) :
    (storeChar c).toNat = storeNumber c := by
  have hall : ∀ n < 128, IdentifierChar (Char.ofNat n) →
      (storeChar (Char.ofNat n)).toNat = storeNumber (Char.ofNat n) := by
    decide +kernel
  have hc := hall c.toNat h.lt
  rw [Char.ofNat_toNat] at hc
  exact hc h

theorem mem_marks_iff {c : Char} :
    c ∈ ['-', ':', '_'] ↔ c.toNat = 45 ∨ c.toNat = 58 ∨ c.toNat = 95 := by
  simp only [List.mem_cons, List.not_mem_nil, or_false, ← Char.toNat_inj]
  exact Iff.rfl

theorem storeChar_eq_iff {c d : Char} (hc : IdentifierChar c) (hd : IdentifierChar d) :
    storeChar c = storeChar d ↔ Alike c d := by
  have hcrange := hc.toNat
  have hdrange := hd.toNat
  rw [← Char.toNat_inj, toNat_storeChar hc, toNat_storeChar hd, Alike, ← Char.toNat_inj,
    Ascii.isAsciiUppercase_iff, Ascii.isAsciiUppercase_iff, mem_marks_iff, mem_marks_iff]
  unfold storeNumber
  split_ifs <;> omega

theorem map_storeChar_eq_iff {xs ys : List Char} (hxs : ∀ c ∈ xs, IdentifierChar c)
    (hys : ∀ c ∈ ys, IdentifierChar c) :
    xs.map storeChar = ys.map storeChar ↔ List.Forall₂ Alike xs ys := by
  induction xs generalizing ys with
  | nil => cases ys <;> simp
  | cons x xs ih =>
      cases ys with
      | nil => simp
      | cons y ys =>
          rw [List.map_cons, List.map_cons, List.cons.injEq, List.forall₂_cons,
            storeChar_eq_iff (hxs x List.mem_cons_self) (hys y List.mem_cons_self),
            ih (fun c hc ↦ hxs c (List.mem_cons_of_mem x hc))
              (fun c hc ↦ hys c (List.mem_cons_of_mem y hc))]

theorem identifierChar_of_valid {value : String} (h : isIdentifier value = true) :
    ∀ c ∈ value.toList, IdentifierChar c := by
  intro c hc
  simp only [isIdentifier, Bool.and_eq_true, List.all_eq_true, Bool.or_eq_true,
    decide_eq_true_eq] at h
  have hchar := h.2 c hc
  unfold IdentifierChar
  tauto

namespace Product

theorem identifierChar_joined (p : Product) : ∀ c ∈ p.joined, IdentifierChar c := by
  intro c hc
  rw [joined, List.mem_append, List.mem_cons] at hc
  rcases hc with hc | rfl | hc
  · exact identifierChar_of_valid p.miniAppId_valid c hc
  · decide
  · exact identifierChar_of_valid p.sku_valid c hc

/-! ## The hash -/

def hashNumber (cs : List Char) : ℕ :=
  cs.foldl (fun n c ↦ n * 0x100000001b3 + storeNumber c) 0xcbf29ce484222325

theorem toNat_hashStep (state : UInt64) {c : Char} (h : IdentifierChar c) :
    (hashStep state (storeChar c)).toNat =
      (state.toNat * 0x100000001b3 + storeNumber c) % 2 ^ 64 := by
  have hlt : storeNumber c < 2 ^ 64 := by
    have hrange := h.lt
    unfold storeNumber
    split_ifs <;> omega
  rw [hashStep, toNat_storeChar h, UInt64.toNat_add, UInt64.toNat_mul,
    UInt64.toNat_ofNat_of_lt' hlt]
  have hbase : (0x100000001b3 : UInt64).toNat = 0x100000001b3 := rfl
  rw [hbase]
  exact Nat.mod_add_mod _ _ _

theorem toNat_foldl_hashStep {cs : List Char} (h : ∀ c ∈ cs, IdentifierChar c) (state : UInt64)
    (n : ℕ) (hstate : state.toNat = n % 2 ^ 64) :
    ((cs.map storeChar).foldl hashStep state).toNat =
      cs.foldl (fun n c ↦ n * 0x100000001b3 + storeNumber c) n % 2 ^ 64 := by
  induction cs generalizing state n with
  | nil => exact hstate
  | cons c cs ih =>
      rw [List.map_cons, List.foldl_cons, List.foldl_cons]
      apply ih (fun d hd ↦ h d (List.mem_cons_of_mem c hd))
      rw [toNat_hashStep state (h c List.mem_cons_self), hstate]
      omega

theorem foldl_hashStep_eq (p : Product) :
    (p.joined.map storeChar).foldl hashStep 0xcbf29ce484222325 =
      UInt64.ofNat (hashNumber p.joined) := by
  apply UInt64.toNat_inj.mp
  rw [toNat_foldl_hashStep p.identifierChar_joined _ 0xcbf29ce484222325 (by decide), hashNumber,
    UInt64.toNat_ofNat']

/-! ## The text behind an id -/

def Compacted (p : Product) : Prop :=
  40 < p.joined.length ∨ ¬ ∃ c ∈ p.joined.head?, Text.isAsciiAlphanumeric c = true

instance (p : Product) : Decidable p.Compacted :=
  inferInstanceAs (Decidable (_ ∨ _))

def compactText (p : Product) : List Char :=
  ['g', '_'] ++ p.joined.take 21 ++ '_' :: hex16 (UInt64.ofNat (hashNumber p.joined))

theorem length_hex16 (hash : UInt64) : (hex16 hash).length = 16 := by
  rw [hex16, Bytes.encodeHex, String.toList_ofList]
  simp [Bytes.toBeBytes]

theorem hex16_spec (hash : UInt64) :
    ∀ c ∈ hex16 hash, IdentifierChar c ∧ storeChar c = c := by
  have hdigit : ∀ n : UInt8, n.toNat < 16 →
      IdentifierChar (Bytes.hexDigit n) ∧ storeChar (Bytes.hexDigit n) = Bytes.hexDigit n := by
    intro n hn
    have hnumber := Bytes.toNat_hexDigit hn
    have halnum : IdentifierChar (Bytes.hexDigit n) := by
      apply Or.inl
      rw [Ascii.isAsciiAlphanumeric_iff, hnumber]
      split_ifs <;> omega
    refine ⟨halnum, ?_⟩
    rw [← Char.toNat_inj, toNat_storeChar halnum, storeNumber, hnumber]
    split_ifs <;> omega
  intro c hc
  rw [hex16, Bytes.encodeHex, String.toList_ofList, List.mem_flatMap] at hc
  obtain ⟨byte, -, hc⟩ := hc
  have hbyte := byte.toNat_lt
  rw [List.mem_cons, List.mem_singleton] at hc
  rcases hc with rfl | rfl
  · apply hdigit
    rw [UInt8.toNat_div]
    exact Nat.div_lt_of_lt_mul hbyte
  · apply hdigit
    rw [UInt8.toNat_mod]
    exact Nat.mod_lt _ (by decide)

theorem hex16_injective : Function.Injective hex16 := by
  intro a b h
  exact Bytes.toBeBytes_injective (Bytes.encodeHex_injective (String.toList_inj.mp h))

theorem identifierChar_compactText (p : Product) : ∀ c ∈ p.compactText, IdentifierChar c := by
  have hstart : ∀ c ∈ ['g', '_'], IdentifierChar c := by
    intro c hc
    rcases List.mem_cons.mp hc with rfl | hc
    · exact Or.inl (by decide)
    · exact Or.inr (Or.inr (Or.inl (List.mem_singleton.mp hc)))
  intro c hc
  rcases List.mem_append.mp hc with hc | hc
  · rcases List.mem_append.mp hc with hc | hc
    · exact hstart c hc
    · exact p.identifierChar_joined c (List.mem_of_mem_take hc)
  · rcases List.mem_cons.mp hc with rfl | hc
    · exact hstart '_' (by simp)
    · exact (hex16_spec _ c hc).1

theorem map_storeChar_compactText (p : Product) :
    p.compactText.map storeChar = ['g', '_'] ++ (p.joined.map storeChar).take 21 ++
      '_' :: hex16 (UInt64.ofNat (hashNumber p.joined)) := by
  have hhex : (hex16 (UInt64.ofNat (hashNumber p.joined))).map storeChar =
      hex16 (UInt64.ofNat (hashNumber p.joined)) := by
    rw [List.map_congr_left fun c hc ↦ (hex16_spec _ c hc).2]
    exact List.map_id _
  have hstart : ['g', '_'].map storeChar = ['g', '_'] := by decide
  have hmark : storeChar '_' = '_' := by decide
  rw [compactText, List.map_append, List.map_append, hstart, List.map_cons, hhex, hmark,
    List.map_take]

theorem head_storeChar (p : Product) :
    ((p.joined.map storeChar).head?.any fun c ↦
        Text.isAsciiLowercase c || Text.isAsciiDigit c) = true ↔
      ∃ c ∈ p.joined.head?, Text.isAsciiAlphanumeric c = true := by
  have hchar : ∀ n < 128, IdentifierChar (Char.ofNat n) →
      ((Text.isAsciiLowercase (storeChar (Char.ofNat n)) ||
          Text.isAsciiDigit (storeChar (Char.ofNat n))) = true ↔
        Text.isAsciiAlphanumeric (Char.ofNat n) = true) := by
    decide +kernel
  cases hjoined : p.joined with
  | nil => simp
  | cons c cs =>
      have hmem : c ∈ p.joined := by
        rw [hjoined]
        exact List.mem_cons_self
      have hc := p.identifierChar_joined c hmem
      have hiff := hchar c.toNat hc.lt
      rw [Char.ofNat_toNat] at hiff
      simp [hiff hc]

theorem readable_iff (p : Product) : ((p.joined.map storeChar).length ≤ 40 ∧
    (p.joined.map storeChar).head?.any fun c ↦
      Text.isAsciiLowercase c || Text.isAsciiDigit c) ↔ ¬ p.Compacted := by
  rw [List.length_map, head_storeChar, Compacted, not_or, not_lt, not_not]

theorem googleId_of_compacted {p : Product} (h : p.Compacted) :
    p.googleId = String.ofList (p.compactText.map storeChar) := by
  have hnot := (readable_iff p).not.mpr (not_not.mpr h)
  rw [map_storeChar_compactText, ← foldl_hashStep_eq]
  exact if_neg hnot

theorem googleId_of_not_compacted {p : Product} (h : ¬ p.Compacted) :
    p.googleId = String.ofList (p.joined.map storeChar) :=
  if_pos ((readable_iff p).mpr h)

end Product

/-! ## References that are shared -/

/-- How two products come to share an id: identifiers that join to texts which the store does
not tell apart, compacted ones with the same beginning and hash, or one whose text is the
compacted form of the other one's. -/
inductive Collide (p q : Product) : Prop
  | alike (h : List.Forall₂ Alike p.joined q.joined)
  | digest (hp : p.Compacted) (hq : q.Compacted)
      (start : List.Forall₂ Alike (p.joined.take 21) (q.joined.take 21))
      (hash : Product.hashNumber p.joined ≡ Product.hashNumber q.joined [MOD 2 ^ 64])
  | mimics (hp : ¬ p.Compacted) (hq : q.Compacted)
      (h : List.Forall₂ Alike p.joined q.compactText)
  | mimicked (hp : p.Compacted) (hq : ¬ q.Compacted)
      (h : List.Forall₂ Alike p.compactText q.joined)

theorem compactText_eq_iff (p q : Product) :
    p.compactText.map storeChar = q.compactText.map storeChar ↔
      List.Forall₂ Alike (p.joined.take 21) (q.joined.take 21) ∧
        Product.hashNumber p.joined ≡ Product.hashNumber q.joined [MOD 2 ^ 64] := by
  have hstart : (p.joined.map storeChar).take 21 = (q.joined.map storeChar).take 21 ↔
      List.Forall₂ Alike (p.joined.take 21) (q.joined.take 21) := by
    rw [← List.map_take, ← List.map_take]
    exact map_storeChar_eq_iff (fun c hc ↦ p.identifierChar_joined c (List.mem_of_mem_take hc))
      (fun c hc ↦ q.identifierChar_joined c (List.mem_of_mem_take hc))
  have hhash : hex16 (UInt64.ofNat (Product.hashNumber p.joined)) =
      hex16 (UInt64.ofNat (Product.hashNumber q.joined)) ↔
        Product.hashNumber p.joined ≡ Product.hashNumber q.joined [MOD 2 ^ 64] := by
    rw [Product.hex16_injective.eq_iff, ← UInt64.toNat_inj, UInt64.toNat_ofNat',
      UInt64.toNat_ofNat']
    exact Iff.rfl
  rw [Product.map_storeChar_compactText, Product.map_storeChar_compactText, ← hstart, ← hhash]
  constructor
  · intro heq
    obtain ⟨hfront, hback⟩ := List.append_inj' heq (by
      rw [List.length_cons, List.length_cons, Product.length_hex16, Product.length_hex16])
    exact ⟨List.append_cancel_left hfront, (List.cons.inj hback).2⟩
  · rintro ⟨hfront, hback⟩
    rw [hfront, hback]

theorem compacted_iff_of_alike {p q : Product}
    (h : p.joined.map storeChar = q.joined.map storeChar) : p.Compacted ↔ q.Compacted := by
  rw [← not_iff_not, ← Product.readable_iff, ← Product.readable_iff, h]

theorem googleId_eq_iff (p q : Product) : p.googleId = q.googleId ↔ Collide p q := by
  have hpchar := p.identifierChar_joined
  have hqchar := q.identifierChar_joined
  have halike := map_storeChar_eq_iff hpchar hqchar
  by_cases hp : p.Compacted <;> by_cases hq : q.Compacted
  · rw [Product.googleId_of_compacted hp, Product.googleId_of_compacted hq,
      String.ofList_inj, compactText_eq_iff]
    constructor
    · rintro ⟨hstart, hhash⟩
      exact .digest hp hq hstart hhash
    · rintro (halike' | ⟨-, -, hstart, hhash⟩ | ⟨hp', -, -⟩ | ⟨-, hq', -⟩)
      · rw [← compactText_eq_iff, Product.map_storeChar_compactText,
          Product.map_storeChar_compactText, ← Product.foldl_hashStep_eq,
          ← Product.foldl_hashStep_eq, halike.mpr halike']
      · exact ⟨hstart, hhash⟩
      · exact absurd hp hp'
      · exact absurd hq hq'
  · rw [Product.googleId_of_compacted hp, Product.googleId_of_not_compacted hq,
      String.ofList_inj,
      map_storeChar_eq_iff p.identifierChar_compactText hqchar]
    constructor
    · exact .mimicked hp hq
    · rintro (halike' | ⟨-, hq', -, -⟩ | ⟨hp', -, -⟩ | ⟨-, -, h⟩)
      · exact absurd ((compacted_iff_of_alike (halike.mpr halike')).mp hp) hq
      · exact absurd hq' hq
      · exact absurd hp hp'
      · exact h
  · rw [Product.googleId_of_not_compacted hp, Product.googleId_of_compacted hq,
      String.ofList_inj,
      map_storeChar_eq_iff hpchar q.identifierChar_compactText]
    constructor
    · exact .mimics hp hq
    · rintro (halike' | ⟨hp', -, -, -⟩ | ⟨-, -, h⟩ | ⟨hp', -, -⟩)
      · exact absurd ((compacted_iff_of_alike (halike.mpr halike')).mpr hq) hp
      · exact absurd hp' hp
      · exact h
      · exact absurd hp' hp
  · rw [Product.googleId_of_not_compacted hp, Product.googleId_of_not_compacted hq,
      String.ofList_inj, halike]
    constructor
    · exact .alike
    · rintro (halike' | ⟨hp', -, -, -⟩ | ⟨-, hq', -⟩ | ⟨hp', -, -⟩)
      · exact halike'
      · exact absurd hp' hp
      · exact absurd hq' hq
      · exact absurd hp' hp

/-! ## Legal ids -/

/-- At most forty characters: small letters, digits, `_` and `.`, no mark in front. -/
structure StoreLegal (id : String) : Prop where
  length_le : id.toList.length ≤ 40
  chars : ∀ c ∈ id.toList, Text.isAsciiLowercase c = true ∨ Text.isAsciiDigit c = true ∨
    c = '_' ∨ c = '.'
  head : ∃ c ∈ id.toList.head?, Text.isAsciiLowercase c = true ∨ Text.isAsciiDigit c = true

theorem storeChar_legal {c : Char} (h : IdentifierChar c) :
    Text.isAsciiLowercase (storeChar c) = true ∨ Text.isAsciiDigit (storeChar c) = true ∨
      storeChar c = '_' ∨ storeChar c = '.' := by
  have hrange := h.toNat
  rw [Ascii.isAsciiLowercase_iff, Ascii.isAsciiDigit_iff, ← Char.toNat_inj, ← Char.toNat_inj,
    toNat_storeChar h]
  have hmark : '_'.toNat = 95 := rfl
  have hpoint : '.'.toNat = 46 := rfl
  rw [hmark, hpoint]
  unfold storeNumber
  split_ifs <;> omega

theorem storeLegal_googleId (p : Product) : StoreLegal p.googleId := by
  have hchars : ∀ cs : List Char, (∀ c ∈ cs, IdentifierChar c) → ∀ c ∈ cs.map storeChar,
      Text.isAsciiLowercase c = true ∨ Text.isAsciiDigit c = true ∨ c = '_' ∨ c = '.' := by
    intro cs hcs c hc
    obtain ⟨d, hd, rfl⟩ := List.mem_map.mp hc
    exact storeChar_legal (hcs d hd)
  by_cases hp : p.Compacted
  · rw [Product.googleId_of_compacted hp]
    refine ⟨?_, ?_, ?_⟩
    · rw [String.toList_ofList, List.length_map, Product.compactText]
      simp only [List.length_append, List.length_cons, List.length_nil, List.length_take,
        Product.length_hex16]
      omega
    · rw [String.toList_ofList]
      exact hchars _ p.identifierChar_compactText
    · rw [String.toList_ofList, Product.map_storeChar_compactText]
      exact ⟨'g', rfl, Or.inl (by decide)⟩
  · have hreadable := (Product.readable_iff p).mpr hp
    rw [Product.googleId_of_not_compacted hp]
    refine ⟨?_, ?_, ?_⟩
    · rw [String.toList_ofList]
      exact hreadable.1
    · rw [String.toList_ofList]
      exact hchars _ p.identifierChar_joined
    · rw [String.toList_ofList]
      have hhead := hreadable.2
      cases hfirst : (p.joined.map storeChar).head? with
      | none =>
          rw [hfirst] at hhead
          cases hhead
      | some c =>
          rw [hfirst, Option.any_some, Bool.or_eq_true] at hhead
          exact ⟨c, rfl, hhead⟩

/-! ## Distinct references -/

theorem toList_reference (start miniAppId sku : String) :
    (start ++ miniAppId ++ "." ++ sku).toList =
      start.toList ++ (miniAppId.toList ++ '.' :: sku.toList) := by
  have hpoint : ".".toList = ['.'] := rfl
  rw [String.toList_append, String.toList_append, String.toList_append, hpoint,
    List.append_assoc, List.append_assoc, List.singleton_append]

theorem reference_eq_iff (start : String) (p q : Product) :
    start ++ p.miniAppId ++ "." ++ p.sku = start ++ q.miniAppId ++ "." ++ q.sku ↔
      p.joined = q.joined := by
  rw [← String.toList_inj, toList_reference, toList_reference, List.append_cancel_left_eq]
  exact Iff.rfl

theorem webRef_eq_iff (p q : Product) : p.webRef = q.webRef ↔ p.joined = q.joined :=
  reference_eq_iff "fabushi." p q

theorem merchantRef_eq_iff (p q : Product) :
    p.merchantRef = q.merchantRef ↔ p.joined = q.joined :=
  reference_eq_iff "fabushi.merchant." p q

structure DistinctReferences (p q : Product) : Prop where
  legal : StoreLegal p.googleId ∧ StoreLegal q.googleId
  google : p.googleId ≠ q.googleId
  web : p.webRef ≠ q.webRef
  merchant : p.merchantRef ≠ q.merchantRef

/-- Two products have references of their own unless they collide in the store. -/
theorem distinctReferences_iff (p q : Product) :
    (p ≠ q → DistinctReferences p q) ↔ ¬ (p ≠ q ∧ Collide p q) := by
  rw [← googleId_eq_iff, not_and]
  constructor
  · intro h hne
    exact (h hne).google
  · intro h hne
    have hgoogle := h hne
    have hjoined : p.joined ≠ q.joined := by
      intro heq
      apply hgoogle
      rw [googleId_eq_iff]
      exact .alike (heq ▸ (map_storeChar_eq_iff p.identifierChar_joined
        p.identifierChar_joined).mp rfl)
    exact ⟨⟨storeLegal_googleId p, storeLegal_googleId q⟩, hgoogle,
      (webRef_eq_iff p q).not.mpr hjoined, (merchantRef_eq_iff p q).not.mpr hjoined⟩

/-- The point between the identifiers may as well be one of theirs. -/
theorem references_shared :
    ¬ ∀ p q : Product, p ≠ q → DistinctReferences p q := by
  intro h
  have hweb := (h ⟨"a.b", "c", by decide +kernel, by decide +kernel⟩
    ⟨"a", "b.c", by decide +kernel, by decide +kernel⟩ (by decide +kernel)).web
  exact hweb (by decide +kernel)

theorem reference_of_plan {miniAppId : String} {input : DeveloperProductDraft}
    {configuration : ProviderConfiguration} {plans : List ProviderBindingPlan}
    (h : planProviderBindings miniAppId input configuration = .ok plans) :
    ∃ p : Product, p.miniAppId = miniAppId ∧ p.sku = input.sku ∧ ∀ plan ∈ plans,
      (plan.provider = "google_play" → plan.externalProductRef = some p.googleId) ∧
        (plan.provider = "web_provider" → plan.externalProductRef = some p.webRef) ∧
          (plan.provider = "merchant_provider" →
            plan.externalProductRef = some p.merchantRef) := by
  obtain ⟨_, hdraft, h⟩ := bind_eq_ok.mp h
  obtain ⟨_, hminiAppId, h⟩ := bind_eq_ok.mp h
  obtain ⟨rails, -, hplans⟩ := bind_eq_ok.mp h
  have hsku : isIdentifier input.sku = true := by
    obtain ⟨_, hidentifiers, -⟩ := bind_eq_ok.mp hdraft
    exact (ensure_eq_ok.mp hidentifiers).1
  refine ⟨⟨miniAppId, input.sku, ensure_eq_ok.mp hminiAppId, hsku⟩, rfl, rfl, fun plan hplan ↦ ?_⟩
  obtain ⟨rail, -, hrail⟩ := exists_of_mem_right (mapM_eq_ok_iff.mp hplans) hplan
  unfold bindingOf at hrail
  split at hrail
  · cases hrail
    simp
  · cases hrail
    simp [Product.googleId]
  · cases hrail
    simp [Product.webRef]
  · cases hrail
    simp [Product.merchantRef]
  · cases hrail
    simp
  · cases hrail

end Fabushi.CommerceControl
