import Fabushi.Library.JsonText

/-!
# Written texts are read back

Behind a value stands nothing that a number could go on with: the end of the text, a comma or a
closing bracket. So the reader stops where the writer did, at every depth.
-/

namespace Json

open Result

/-! ## Values that have a text -/

/-- Every number is one, and no object has a key twice. -/
inductive WellFormed : Json → Prop
  | null : WellFormed .null
  | bool (b : Bool) : WellFormed (.bool b)
  | number {literal : String} (h : isNumber literal.toList = true) :
      WellFormed (.number literal)
  | string (text : String) : WellFormed (.string text)
  | array {items : List Json} (h : ∀ item ∈ items, WellFormed item) : WellFormed (.array items)
  | object {members : List (String × Json)} (keys : (members.map Prod.fst).Nodup)
      (h : ∀ member ∈ members, WellFormed member.2) : WellFormed (.object members)

def fits (depth : Option ℕ) (value : Json) : Bool :=
  depth.all fun levels ↦ nesting value ≤ levels

/-! ## Numbers -/

theorem isNumberChar_of_isDigit {c : Char} (h : isDigit c = true) : isNumberChar c = true := by
  simp [isNumberChar, h]

theorem all_isNumberChar_of_dropWhile {cs : List Char}
    (h : ∀ c ∈ cs.dropWhile isDigit, isNumberChar c = true) : ∀ c ∈ cs, isNumberChar c = true := by
  intro c hc
  rw [← List.takeWhile_append_dropWhile (p := isDigit) (l := cs), List.mem_append] at hc
  rcases hc with hc | hc
  · exact isNumberChar_of_isDigit (List.mem_takeWhile_imp hc)
  · exact h c hc

theorem isNumberChar_of_isExponentDigits {cs : List Char} (h : isExponentDigits cs = true) :
    ∀ c ∈ cs, isNumberChar c = true := by
  cases cs with
  | nil => cases h
  | cons c cs =>
      rw [isExponentDigits, Bool.and_eq_true, List.all_eq_true] at h
      rw [List.forall_mem_cons]
      exact ⟨isNumberChar_of_isDigit h.1, fun d hd ↦ isNumberChar_of_isDigit (h.2 d hd)⟩

theorem isNumberChar_of_isExponent {cs : List Char} (h : isExponent cs = true) :
    ∀ c ∈ cs, isNumberChar c = true := by
  have hmark : ∀ {e : Char}, (e = 'e' || e = 'E') = true → isNumberChar e = true := by
    intro e he
    rw [Bool.or_eq_true, decide_eq_true_eq, decide_eq_true_eq] at he
    rcases he with rfl | rfl <;> decide
  unfold isExponent at h
  split at h
  · nofun
  · rw [Bool.and_eq_true] at h
    simp only [List.forall_mem_cons]
    exact ⟨hmark h.1, by decide, isNumberChar_of_isExponentDigits h.2⟩
  · rw [Bool.and_eq_true] at h
    simp only [List.forall_mem_cons]
    exact ⟨hmark h.1, by decide, isNumberChar_of_isExponentDigits h.2⟩
  · rw [Bool.and_eq_true] at h
    rw [List.forall_mem_cons]
    exact ⟨hmark h.1, isNumberChar_of_isExponentDigits h.2⟩

theorem isNumberChar_of_isFraction {cs : List Char} (h : isFraction cs = true) :
    ∀ c ∈ cs, isNumberChar c = true := by
  unfold isFraction at h
  split at h
  · rw [Bool.and_eq_true] at h
    simp only [List.forall_mem_cons]
    exact ⟨by decide, isNumberChar_of_isDigit h.1,
      all_isNumberChar_of_dropWhile (isNumberChar_of_isExponent h.2)⟩
  · exact isNumberChar_of_isExponent h

theorem isNumberChar_of_isUnsigned {cs : List Char} (h : isUnsigned cs = true) :
    ∀ c ∈ cs, isNumberChar c = true := by
  unfold isUnsigned at h
  split at h
  · cases h
  · rw [List.forall_mem_cons]
    exact ⟨by decide, isNumberChar_of_isFraction h⟩
  · rw [Bool.and_eq_true] at h
    rw [List.forall_mem_cons]
    exact ⟨isNumberChar_of_isDigit h.1,
      all_isNumberChar_of_dropWhile (isNumberChar_of_isFraction h.2)⟩

theorem isNumberChar_of_isNumber {cs : List Char} (h : isNumber cs = true) :
    ∀ c ∈ cs, isNumberChar c = true := by
  unfold isNumber at h
  split at h
  · rw [List.forall_mem_cons]
    exact ⟨by decide, isNumberChar_of_isUnsigned h⟩
  · exact isNumberChar_of_isUnsigned h

/-- The text cannot go on with a number. -/
def Delimited (rest : List Char) : Prop :=
  ∀ c ∈ rest.head?, isNumberChar c = false

theorem readNumber_append {literal rest : List Char} (h : isNumber literal = true)
    (hrest : Delimited rest) :
    readNumber (literal ++ rest) = .ok (.number (String.ofList literal), rest) := by
  have hall := isNumberChar_of_isNumber h
  have htake : (literal ++ rest).takeWhile isNumberChar = literal := by
    rw [List.takeWhile_append_of_pos hall]
    cases rest with
    | nil => simp
    | cons c rest => simp [hrest c rfl]
  have hdrop : (literal ++ rest).dropWhile isNumberChar = rest := by
    rw [List.dropWhile_append_of_pos hall]
    cases rest with
    | nil => rfl
    | cons c rest => rw [List.dropWhile_cons_of_neg (by simp [hrest c rfl])]
  rw [readNumber, htake, hdrop]
  exact if_pos h

/-! ## Strings -/

theorem hexNumber_control : ∀ n < 32, hexNumber
    ['0', '0', Nat.digitChar (n / 16), Nat.digitChar (n % 16)] = .ok n := by
  decide

/-- The text of a character starts with a character other than the closing mark and is read back
as the character. -/
theorem readChar_escape (c : Char) (rest : List Char) : ∃ d ds, escape c = d :: ds ∧ d ≠ '"' ∧
    readChar d (ds ++ rest) = .ok (c, rest) := by
  unfold escape
  split_ifs with hquote hback hb ht hn hf hr hcontrol
  · exact ⟨_, _, rfl, by decide, by rw [hquote]; rfl⟩
  · exact ⟨_, _, rfl, by decide, by rw [hback]; rfl⟩
  · exact ⟨_, _, rfl, by decide, by rw [← Char.ofNat_toNat c, hb]; rfl⟩
  · exact ⟨_, _, rfl, by decide, by rw [← Char.ofNat_toNat c, ht]; rfl⟩
  · exact ⟨_, _, rfl, by decide, by rw [← Char.ofNat_toNat c, hn]; rfl⟩
  · exact ⟨_, _, rfl, by decide, by rw [← Char.ofNat_toNat c, hf]; rfl⟩
  · exact ⟨_, _, rfl, by decide, by rw [← Char.ofNat_toNat c, hr]; rfl⟩
  · refine ⟨_, _, rfl, by decide, ?_⟩
    have hunicode : readChar '\\' (['u', '0', '0', Nat.digitChar (c.toNat / 16),
        Nat.digitChar (c.toNat % 16)] ++ rest) =
          readUnicode ('0' :: '0' :: Nat.digitChar (c.toNat / 16) ::
            Nat.digitChar (c.toNat % 16) :: rest) := rfl
    rw [hunicode, readUnicode, hexNumber_control c.toNat hcontrol]
    have hplain : ¬ (0xD800 ≤ c.toNat ∧ c.toNat ≤ 0xDFFF) := by omega
    change (if _ then _ else _) = _
    rw [if_neg hplain, Char.ofNat_toNat]
  · refine ⟨_, _, rfl, hquote, ?_⟩
    unfold readChar
    rw [if_neg hback, if_neg hcontrol]
    rfl

theorem readChars_escape {text rest : List Char} {fuel : ℕ} (h : text.length < fuel) :
    readChars fuel (text.flatMap escape ++ '"' :: rest) = .ok (text, rest) := by
  induction text generalizing fuel with
  | nil =>
      cases fuel with
      | zero => cases h
      | succ fuel => rfl
  | cons c text ih =>
      cases fuel with
      | zero => cases h
      | succ fuel =>
          obtain ⟨d, ds, hescape, hquote, hread⟩ :=
            readChar_escape c (text.flatMap escape ++ '"' :: rest)
          rw [List.flatMap_cons, hescape, List.append_assoc, List.cons_append, readChars,
            if_neg hquote, hread]
          have hlt : text.length < fuel := Nat.lt_of_succ_lt_succ h
          change (readChars fuel (text.flatMap escape ++ '"' :: rest) >>= _) = _
          rw [ih hlt]
          rfl

theorem length_le_length_flatMap_escape (text : List Char) :
    text.length ≤ (text.flatMap escape).length := by
  induction text with
  | nil => exact le_rfl
  | cons c text ih =>
      obtain ⟨d, ds, hescape, -, -⟩ := readChar_escape c []
      rw [List.flatMap_cons, hescape, List.length_append, List.length_cons, List.length_cons]
      omega

theorem readString_writeString (text : String) (rest : List Char) :
    readString (writeString text ++ rest) = .ok (text, rest) := by
  have htail : writeString text ++ rest =
      '"' :: (text.toList.flatMap escape ++ '"' :: rest) := by
    rw [writeString, List.cons_append, List.append_assoc]
    rfl
  have hfuel : text.toList.length <
      (text.toList.flatMap escape ++ '"' :: rest).length + 1 := by
    have hle := length_le_length_flatMap_escape text.toList
    rw [List.length_append]
    omega
  rw [htail, readString, readChars_escape hfuel]
  change Except.ok (String.ofList text.toList, rest) = _
  rw [String.ofList_toList]

/-! ## Between the elements -/

theorem skipSpace_cons {c : Char} {cs : List Char} (h : isSpace c = false) :
    skipSpace (c :: cs) = c :: cs :=
  List.dropWhile_cons_of_neg (by simp [h])

/-- The first character of a value is no white space and does not end an array or object. -/
theorem write_eq_cons {value : Json} (h : WellFormed value) :
    ∃ c cs, write value = c :: cs ∧ isSpace c = false ∧ c ≠ ']' ∧ c ≠ '\x7d' := by
  cases h with
  | null => exact ⟨_, _, rfl, by decide⟩
  | bool b => cases b <;> exact ⟨_, _, rfl, by decide⟩
  | @number literal hnumber =>
      cases hliteral : literal.toList with
      | nil =>
          rw [hliteral] at hnumber
          cases hnumber
      | cons c cs =>
          refine ⟨c, cs, by rw [write, hliteral], ?_⟩
          have hc := isNumberChar_of_isNumber hnumber c (hliteral ▸ List.mem_cons_self)
          refine ⟨?_, ?_, ?_⟩
          · rw [← Bool.not_eq_true]
            intro hspace
            simp only [isSpace, Bool.or_eq_true, decide_eq_true_eq, or_assoc] at hspace
            rcases hspace with rfl | rfl | rfl | rfl <;> revert hc <;> decide
          · rintro rfl
            revert hc
            decide
          · rintro rfl
            revert hc
            decide
  | string text => exact ⟨_, _, rfl, by decide⟩
  | array hitems => exact ⟨_, _, rfl, by decide⟩
  | object hkeys hmembers => exact ⟨_, _, rfl, by decide⟩

theorem nextElement_close {close : Char} (hspace : isSpace close = false) (first : Bool)
    (rest : List Char) : nextElement close first (close :: rest) = .ok (.close rest) := by
  rw [nextElement, skipSpace_cons hspace]
  exact if_pos rfl

theorem nextElement_comma {close c : Char} {cs : List Char} (hclose : close ≠ ',')
    (hspace : isSpace c = false) (hne : c ≠ close) (first : Bool) :
    nextElement close first (comma first ++ c :: cs) = .ok (.element (c :: cs)) := by
  cases first with
  | true =>
      change nextElement close true (c :: cs) = _
      rw [nextElement, skipSpace_cons hspace]
      change (if _ then _ else _) = _
      rw [if_neg hne]
      rfl
  | false =>
      change nextElement close false (',' :: c :: cs) = _
      rw [nextElement, skipSpace_cons (by decide)]
      change (if _ then _ else _) = _
      rw [if_neg (Ne.symm hclose)]
      rfl

theorem delimited_cons {c : Char} (h : isNumberChar c = false) (cs : List Char) :
    Delimited (c :: cs) := by
  intro d hd
  cases hd
  exact h

/-! ## Values -/

/-- The value is read from its text at every depth that it fits in, and refused at others. -/
def Reads (value : Json) : Prop :=
  ∀ (fuel : ℕ) (depth : Option ℕ) (rest : List Char),
    2 * (write value ++ rest).length + 1 ≤ fuel → Delimited rest →
      readValue fuel depth (write value ++ rest) =
        if fits depth value then .ok (value, rest) else .error .recursionLimitExceeded

theorem delimited_writeItems (items : List Json) (rest : List Char) :
    Delimited (writeItems false items ++ ']' :: rest) := by
  cases items with
  | nil => exact delimited_cons (by decide) rest
  | cons item items =>
      rw [writeItems]
      exact delimited_cons (by decide) _

theorem delimited_writeMembers (members : List (String × Json)) (rest : List Char) :
    Delimited (writeMembers false members ++ '\x7d' :: rest) := by
  cases members with
  | nil => exact delimited_cons (by decide) rest
  | cons member members =>
      rw [writeMembers]
      exact delimited_cons (by decide) _

theorem readItems_writeItems {items : List Json} (hwell : ∀ item ∈ items, WellFormed item)
    (hreads : ∀ item ∈ items, Reads item) {fuel : ℕ} {depth : Option ℕ} {first : Bool}
    {rest : List Char} (hfuel : 2 * (writeItems first items ++ ']' :: rest).length + 2 ≤ fuel) :
    readItems fuel depth first (writeItems first items ++ ']' :: rest) =
      if items.all (fits depth) then .ok (items, rest)
      else .error .recursionLimitExceeded := by
  induction items generalizing fuel first with
  | nil =>
      cases fuel with
      | zero => omega
      | succ fuel =>
          change readItems (fuel + 1) depth first (']' :: rest) = _
          rw [readItems, nextElement_close (by decide)]
          rfl
  | cons item items ih =>
      cases fuel with
      | zero => omega
      | succ fuel =>
          rw [List.forall_mem_cons] at hwell hreads
          obtain ⟨c, cs, hwrite, hspace, hclose, -⟩ := write_eq_cons hwell.1
          have htext : writeItems first (item :: items) ++ ']' :: rest =
              comma first ++ (write item ++ (writeItems false items ++ ']' :: rest)) := by
            rw [writeItems, List.append_assoc, List.append_assoc]
          have hnext : nextElement ']' first
              (comma first ++ (write item ++ (writeItems false items ++ ']' :: rest))) =
                .ok (.element (write item ++ (writeItems false items ++ ']' :: rest))) := by
            rw [hwrite, List.cons_append]
            exact nextElement_comma (by decide) hspace hclose first
          rw [htext, List.length_append] at hfuel
          have hitem := hreads.1 fuel depth (writeItems false items ++ ']' :: rest) (by omega)
            (delimited_writeItems items rest)
          have hrest := @ih hwell.2 hreads.2 fuel false (by
            rw [List.length_append, hwrite, List.length_cons] at hfuel
            omega)
          rw [htext, readItems, hnext]
          change (readValue fuel depth _ >>= _) = _
          rw [hitem, List.all_cons]
          cases fits depth item with
          | false => rfl
          | true =>
              change (readItems fuel depth false _ >>= _) = _
              rw [hrest, Bool.true_and]
              cases items.all (fits depth) <;> rfl

theorem readMembers_writeMembers {members : List (String × Json)}
    (hwell : ∀ member ∈ members, WellFormed member.2)
    (hreads : ∀ member ∈ members, Reads member.2) {fuel : ℕ} {depth : Option ℕ} {first : Bool}
    {rest : List Char}
    (hfuel : 2 * (writeMembers first members ++ '\x7d' :: rest).length + 2 ≤ fuel) :
    readMembers fuel depth first (writeMembers first members ++ '\x7d' :: rest) =
      if members.all (fun member ↦ fits depth member.2) then .ok (members, rest)
      else .error .recursionLimitExceeded := by
  induction members generalizing fuel first with
  | nil =>
      cases fuel with
      | zero => omega
      | succ fuel =>
          change readMembers (fuel + 1) depth first ('\x7d' :: rest) = _
          rw [readMembers, nextElement_close (by decide)]
          rfl
  | cons member members ih =>
      obtain ⟨key, value⟩ := member
      cases fuel with
      | zero => omega
      | succ fuel =>
          rw [List.forall_mem_cons] at hwell hreads
          set behind := writeMembers false members ++ '\x7d' :: rest with hbehind
          have htext : writeMembers first ((key, value) :: members) ++ '\x7d' :: rest =
              comma first ++ (writeString key ++ ':' :: (write value ++ behind)) := by
            rw [writeMembers, List.append_assoc, List.append_assoc, List.cons_append,
              List.append_assoc]
          have hkey : ∃ cs, writeString key ++ ':' :: (write value ++ behind) = '"' :: cs :=
            ⟨_, rfl⟩
          have hskip : skipSpace (writeString key ++ ':' :: (write value ++ behind)) =
              writeString key ++ ':' :: (write value ++ behind) := by
            obtain ⟨cs, hcs⟩ := hkey
            rw [hcs, skipSpace_cons (by decide)]
          have hnext : nextElement '\x7d' first
              (comma first ++ (writeString key ++ ':' :: (write value ++ behind))) =
                .ok (.element (writeString key ++ ':' :: (write value ++ behind))) := by
            obtain ⟨cs, hcs⟩ := hkey
            rw [hcs]
            exact nextElement_comma (by decide) (by decide) (by decide) first
          rw [htext, List.length_append, List.length_append, List.length_cons] at hfuel
          have hreads_value : Reads value := hreads.1
          have hvalue := hreads_value fuel depth behind (by omega)
            (delimited_writeMembers members rest)
          have hrest := @ih hwell.2 hreads.2 fuel false (by
            rw [← hbehind]
            rw [List.length_append] at hfuel
            omega)
          rw [htext, readMembers, hnext]
          change (readString (skipSpace _) >>= _) = _
          rw [hskip, readString_writeString]
          change (readValue fuel depth (write value ++ behind) >>= _) = _
          rw [hvalue, List.all_cons]
          cases fits depth value with
          | false => rfl
          | true =>
              change (readMembers fuel depth false behind >>= _) = _
              rw [hrest, Bool.true_and]
              cases members.all (fun member ↦ fits depth member.2) <;> rfl

theorem setMember_of_notMem {name : String} {members : List (String × Json)}
    (h : name ∉ members.map Prod.fst) (value : Json) :
    setMember name value members = members ++ [(name, value)] := by
  induction members with
  | nil => rfl
  | cons member members ih =>
      rw [List.map_cons, List.mem_cons, not_or] at h
      rw [setMember, if_neg (Ne.symm h.1), ih h.2, List.cons_append]

theorem insertAll_of_nodup {members : List (String × Json)}
    (h : (members.map Prod.fst).Nodup) : insertAll members = members := by
  have hfold : ∀ inserted : List (String × Json),
      ((inserted ++ members).map Prod.fst).Nodup →
        members.foldl (fun inserted member ↦ setMember member.1 member.2 inserted) inserted =
          inserted ++ members := by
    clear h
    induction members with
    | nil =>
        intro inserted _
        exact (List.append_nil inserted).symm
    | cons member members ih =>
        intro inserted hnodup
        have hnot : member.1 ∉ inserted.map Prod.fst := by
          rw [List.map_append, List.map_cons, List.nodup_append] at hnodup
          intro hmem
          exact hnodup.2.2 member.1 hmem member.1 List.mem_cons_self rfl
        rw [List.foldl_cons, setMember_of_notMem hnot, ih, List.append_assoc,
          List.singleton_append]
        rwa [List.append_assoc, List.singleton_append]
  exact hfold [] h

theorem fits_some {levels : ℕ} {value : Json} :
    fits (some levels) value = true ↔ nesting value ≤ levels :=
  decide_eq_true_iff

theorem fits_array {depth deeper : Option ℕ} (h : enter depth = .ok deeper)
    (items : List Json) : fits depth (.array items) = items.all (fits deeper) := by
  cases depth with
  | none =>
      cases h
      exact (List.all_eq_true.mpr fun _ _ ↦ rfl).symm
  | some levels =>
      cases levels with
      | zero => cases h
      | succ levels =>
          cases h
          rw [Bool.eq_iff_iff, List.all_eq_true, fits_some, nesting, Nat.succ_le_succ_iff,
            nestingItems_le_iff]
          simp only [fits_some]

theorem fits_object {depth deeper : Option ℕ} (h : enter depth = .ok deeper)
    (members : List (String × Json)) :
    fits depth (.object members) = members.all fun member ↦ fits deeper member.2 := by
  cases depth with
  | none =>
      cases h
      exact (List.all_eq_true.mpr fun _ _ ↦ rfl).symm
  | some levels =>
      cases levels with
      | zero => cases h
      | succ levels =>
          cases h
          rw [Bool.eq_iff_iff, List.all_eq_true, fits_some, nesting, Nat.succ_le_succ_iff,
            nestingMembers_le_iff]
          simp only [fits_some]

theorem fits_of_nesting_eq_zero {value : Json} (h : nesting value = 0) (depth : Option ℕ) :
    fits depth value = true := by
  cases depth with
  | none => rfl
  | some levels =>
      rw [fits_some, h]
      exact Nat.zero_le levels

theorem enter_eq (depth : Option ℕ) :
    (∃ deeper, enter depth = .ok deeper) ∨
      enter depth = .error .recursionLimitExceeded ∧ depth = some 0 := by
  match depth with
  | none => exact Or.inl ⟨none, rfl⟩
  | some 0 => exact Or.inr ⟨rfl, rfl⟩
  | some (levels + 1) => exact Or.inl ⟨some levels, rfl⟩

theorem isNumber_head {c : Char} {cs : List Char} (h : isNumber (c :: cs) = true) :
    c = '-' ∨ isDigit c = true := by
  by_cases hminus : c = '-'
  · exact Or.inl hminus
  · have hunsigned : isUnsigned (c :: cs) = true := by
      unfold isNumber at h
      split at h
      · rename_i heq
        exact absurd (List.cons.inj heq).1 hminus
      · exact h
    unfold isUnsigned at hunsigned
    split at hunsigned
    · cases hunsigned
    · rename_i heq
      exact Or.inr (by rw [(List.cons.inj heq).1]; decide)
    · rename_i heq
      rw [Bool.and_eq_true] at hunsigned
      exact Or.inr (by rw [(List.cons.inj heq).1]; exact hunsigned.1)

/-- A first character that starts a number leads to the reader of numbers. -/
theorem readValue_number {c : Char} (h : c = '-' ∨ isDigit c = true) (steps : ℕ)
    (depth : Option ℕ) (cs : List Char) :
    readValue (steps + 1) depth (c :: cs) = readNumber (c :: cs) := by
  have hne : ∀ d, d ≠ '-' → isDigit d = false → c ≠ d := by
    rintro d hminus hdigit rfl
    rcases h with h | h
    · exact hminus h
    · rw [hdigit] at h
      cases h
  have hspace : isSpace c = false := by
    simp only [isSpace, Bool.or_eq_false_iff, decide_eq_false_iff_not]
    exact ⟨⟨⟨hne ' ' (by decide) (by decide), hne '\n' (by decide) (by decide)⟩,
      hne '\t' (by decide) (by decide)⟩, hne '\r' (by decide) (by decide)⟩
  rw [readValue, skipSpace_cons hspace]
  change (if _ then _ else _) = _
  rw [if_neg (hne '[' (by decide) (by decide)), if_neg (hne '\x7b' (by decide) (by decide)),
    if_neg (hne '"' (by decide) (by decide)), if_neg (hne 'n' (by decide) (by decide)),
    if_neg (hne 't' (by decide) (by decide)), if_neg (hne 'f' (by decide) (by decide))]

theorem reads_of_wellFormed {value : Json} (h : WellFormed value) : Reads value := by
  induction value using inductionOn with
  | null =>
      intro fuel depth rest hfuel _
      obtain ⟨steps, rfl⟩ := Nat.exists_eq_add_of_lt (Nat.lt_of_lt_of_le (Nat.succ_pos _) hfuel)
      rw [Nat.zero_add] at hfuel ⊢
      rw [fits_of_nesting_eq_zero rfl]
      rfl
  | bool b =>
      intro fuel depth rest hfuel _
      obtain ⟨steps, rfl⟩ := Nat.exists_eq_add_of_lt (Nat.lt_of_lt_of_le (Nat.succ_pos _) hfuel)
      rw [Nat.zero_add] at hfuel ⊢
      rw [fits_of_nesting_eq_zero rfl]
      cases b <;> rfl
  | number literal =>
      intro fuel depth rest hfuel hrest
      obtain ⟨steps, rfl⟩ := Nat.exists_eq_add_of_lt (Nat.lt_of_lt_of_le (Nat.succ_pos _) hfuel)
      rw [Nat.zero_add] at hfuel ⊢
      rw [fits_of_nesting_eq_zero rfl]
      cases h with
      | number hnumber =>
          have hread := readNumber_append hnumber hrest
          rw [String.ofList_toList] at hread
          rw [write]
          cases hliteral : literal.toList with
          | nil =>
              rw [hliteral] at hnumber
              cases hnumber
          | cons c cs =>
              rw [hliteral] at hnumber hread
              rw [List.cons_append, readValue_number (isNumber_head hnumber)]
              exact hread
  | string text =>
      intro fuel depth rest hfuel _
      obtain ⟨steps, rfl⟩ := Nat.exists_eq_add_of_lt (Nat.lt_of_lt_of_le (Nat.succ_pos _) hfuel)
      rw [Nat.zero_add] at hfuel ⊢
      rw [fits_of_nesting_eq_zero rfl]
      change (readString (writeString text ++ rest) >>= _) = _
      rw [readString_writeString]
      rfl
  | array items ih =>
      intro fuel depth rest hfuel _
      obtain ⟨steps, rfl⟩ := Nat.exists_eq_add_of_lt (Nat.lt_of_lt_of_le (Nat.succ_pos _) hfuel)
      rw [Nat.zero_add] at hfuel ⊢
      cases h with
      | array hwell =>
          have htext : write (.array items) ++ rest =
              '[' :: (writeItems true items ++ ']' :: rest) := by
            rw [write, List.cons_append, List.append_assoc]
            rfl
          rw [htext, List.length_cons] at hfuel
          rw [htext]
          change (enter depth >>= fun deeper ↦ readItems steps deeper true
            (writeItems true items ++ ']' :: rest) >>= _) = _
          rcases enter_eq depth with ⟨deeper, henter⟩ | ⟨henter, rfl⟩
          · rw [fits_array henter, henter]
            change (readItems steps deeper true (writeItems true items ++ ']' :: rest) >>= _) = _
            rw [readItems_writeItems hwell (fun item hitem ↦ ih item hitem (hwell item hitem))
              (by omega)]
            cases items.all (fits deeper) <;> rfl
          · rw [henter]
            rfl
  | object members ih =>
      intro fuel depth rest hfuel _
      obtain ⟨steps, rfl⟩ := Nat.exists_eq_add_of_lt (Nat.lt_of_lt_of_le (Nat.succ_pos _) hfuel)
      rw [Nat.zero_add] at hfuel ⊢
      cases h with
      | object hkeys hwell =>
          have htext : write (.object members) ++ rest =
              '\x7b' :: (writeMembers true members ++ '\x7d' :: rest) := by
            rw [write, List.cons_append, List.append_assoc]
            rfl
          rw [htext, List.length_cons] at hfuel
          rw [htext]
          change (enter depth >>= fun deeper ↦ readMembers steps deeper true
            (writeMembers true members ++ '\x7d' :: rest) >>= _) = _
          rcases enter_eq depth with ⟨deeper, henter⟩ | ⟨henter, rfl⟩
          · rw [fits_object henter, henter]
            change (readMembers steps deeper true
              (writeMembers true members ++ '\x7d' :: rest) >>= _) = _
            rw [readMembers_writeMembers hwell
              (fun member hmember ↦ ih member hmember (hwell member hmember)) (by omega)]
            cases members.all (fun member ↦ fits deeper member.2)
            · rfl
            · change Except.ok (Json.object (insertAll members), rest) = _
              rw [insertAll_of_nodup hkeys]
              rfl
          · rw [henter]
            rfl

theorem readDocument_write {value : Json} (h : WellFormed value) (depth : Option ℕ) :
    readDocument depth (write value) =
      if fits depth value then .ok value else .error .recursionLimitExceeded := by
  have hread := reads_of_wellFormed h (2 * (write value).length + 1) depth [] (by simp) nofun
  rw [List.append_nil] at hread
  rw [readDocument, hread]
  cases fits depth value <;> rfl

theorem write_injective {a b : Json} (ha : WellFormed a) (hb : WellFormed b)
    (h : write a = write b) : a = b := by
  have hread := (readDocument_write ha none).symm.trans (h ▸ readDocument_write hb none)
  exact Except.ok.inj hread

end Json
