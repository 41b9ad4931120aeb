import Fabushi.Library.Json
import Fabushi.Library.Result
import Fabushi.Library.Text

/-!
# JSON texts

Values written without white space, members in the order they have, and read back. The reader
counts the arrays and objects that it may still enter, as parsers with a recursion limit do; it
reads every value that was written and nests no deeper than that.
-/

namespace Json

open Result

/-! ## Trees -/

@[elab_as_elim]
theorem inductionOn {motive : Json → Prop} (value : Json) (null : motive .null)
    (bool : ∀ b, motive (.bool b)) (number : ∀ literal, motive (.number literal))
    (string : ∀ text, motive (.string text))
    (array : ∀ items, (∀ item ∈ items, motive item) → motive (.array items))
    (object : ∀ members, (∀ member ∈ members, motive member.2) → motive (.object members)) :
    motive value := by
  refine @Json.rec motive (fun items ↦ ∀ item ∈ items, motive item)
    (fun members ↦ ∀ member ∈ members, motive member.2) (fun member ↦ motive member.2) null bool
    number string array object nofun ?_ nofun ?_ (fun _ _ h ↦ h) value
  · intro item items hitem hitems
    exact List.forall_mem_cons.mpr ⟨hitem, hitems⟩
  · intro member members hmember hmembers
    exact List.forall_mem_cons.mpr ⟨hmember, hmembers⟩

mutual

def nesting : Json → ℕ
  | .array items => nestingItems items + 1
  | .object members => nestingMembers members + 1
  | .null | .bool _ | .number _ | .string _ => 0

def nestingItems : List Json → ℕ
  | [] => 0
  | item :: items => max (nesting item) (nestingItems items)

def nestingMembers : List (String × Json) → ℕ
  | [] => 0
  | (_, value) :: members => max (nesting value) (nestingMembers members)

end

theorem nestingItems_le_iff {items : List Json} {n : ℕ} :
    nestingItems items ≤ n ↔ ∀ item ∈ items, nesting item ≤ n := by
  induction items with
  | nil => simp [nestingItems]
  | cons item items ih => rw [nestingItems, max_le_iff, ih, List.forall_mem_cons]

theorem nestingMembers_le_iff {members : List (String × Json)} {n : ℕ} :
    nestingMembers members ≤ n ↔ ∀ member ∈ members, nesting member.2 ≤ n := by
  induction members with
  | nil => simp [nestingMembers]
  | cons member members ih => rw [nestingMembers, max_le_iff, ih, List.forall_mem_cons]

/-! ## Numbers -/

def isDigit (c : Char) : Bool :=
  '0' ≤ c && c ≤ '9'

def isNumberChar (c : Char) : Bool :=
  isDigit c || c = '-' || c = '+' || c = '.' || c = 'e' || c = 'E'

def isExponentDigits : List Char → Bool
  | [] => false
  | c :: cs => isDigit c && cs.all isDigit

def isExponent : List Char → Bool
  | [] => true
  | e :: '-' :: cs | e :: '+' :: cs => (e = 'e' || e = 'E') && isExponentDigits cs
  | e :: cs => (e = 'e' || e = 'E') && isExponentDigits cs

def isFraction : List Char → Bool
  | '.' :: c :: cs => isDigit c && isExponent (cs.dropWhile isDigit)
  | cs => isExponent cs

def isUnsigned : List Char → Bool
  | [] => false
  | '0' :: cs => isFraction cs
  | c :: cs => isDigit c && isFraction (cs.dropWhile isDigit)

/-- An optional minus sign, digits without a needless zero in front, and optionally a fraction
and an exponent. -/
def isNumber : List Char → Bool
  | '-' :: cs => isUnsigned cs
  | cs => isUnsigned cs

/-! ## Writing -/

def escape (c : Char) : List Char :=
  if c = '"' then ['\\', '"']
  else if c = '\\' then ['\\', '\\']
  else if c.toNat = 8 then ['\\', 'b']
  else if c.toNat = 9 then ['\\', 't']
  else if c.toNat = 10 then ['\\', 'n']
  else if c.toNat = 12 then ['\\', 'f']
  else if c.toNat = 13 then ['\\', 'r']
  else if c.toNat < 32 then
    ['\\', 'u', '0', '0', Nat.digitChar (c.toNat / 16), Nat.digitChar (c.toNat % 16)]
  else [c]

def writeString (text : String) : List Char :=
  '"' :: (text.toList.flatMap escape ++ ['"'])

/-- No comma in front of the first element. -/
def comma (first : Bool) : List Char :=
  if first then [] else [',']

mutual

def write : Json → List Char
  | .null => ['n', 'u', 'l', 'l']
  | .bool true => ['t', 'r', 'u', 'e']
  | .bool false => ['f', 'a', 'l', 's', 'e']
  | .number literal => literal.toList
  | .string text => writeString text
  | .array items => '[' :: (writeItems true items ++ [']'])
  | .object members => '\x7b' :: (writeMembers true members ++ ['\x7d'])

def writeItems (first : Bool) : List Json → List Char
  | [] => []
  | item :: items => comma first ++ (write item ++ writeItems false items)

def writeMembers (first : Bool) : List (String × Json) → List Char
  | [] => []
  | (key, value) :: members =>
      comma first ++ (writeString key ++ ':' :: (write value ++ writeMembers false members))

end

/-! ## Reading -/

inductive ReadError where
  | malformed
  | invalidUnicode
  | recursionLimitExceeded
  | trailingCharacters
  deriving DecidableEq, Repr

def isSpace (c : Char) : Bool :=
  c = ' ' || c = '\n' || c = '\t' || c = '\r'

def skipSpace (cs : List Char) : List Char :=
  cs.dropWhile isSpace

def hexValue (c : Char) : Option ℕ :=
  if '0' ≤ c ∧ c ≤ '9' then some (c.toNat - 48)
  else if 'a' ≤ c ∧ c ≤ 'f' then some (c.toNat - 87)
  else if 'A' ≤ c ∧ c ≤ 'F' then some (c.toNat - 55)
  else none

def hexNumber (digits : List Char) : Except ReadError ℕ :=
  match digits.mapM hexValue with
  | some values => .ok (values.foldl (fun n digit ↦ 16 * n + digit) 0)
  | none => .error .malformed

def readLowSurrogate (high : ℕ) : List Char → Except ReadError (Char × List Char)
  | '\\' :: 'u' :: a :: b :: c :: d :: cs => do
      let low ← hexNumber [a, b, c, d]
      ensure (high < 0xDC00 ∧ 0xDC00 ≤ low ∧ low ≤ 0xDFFF) .malformed
      .ok (Char.ofNat (0x10000 + (high - 0xD800) * 0x400 + (low - 0xDC00)), cs)
  | _ => .error .malformed

def readUnicode : List Char → Except ReadError (Char × List Char)
  | a :: b :: c :: d :: cs => do
      let n ← hexNumber [a, b, c, d]
      if 0xD800 ≤ n ∧ n ≤ 0xDFFF then readLowSurrogate n cs else .ok (Char.ofNat n, cs)
  | _ => .error .malformed

def readEscape (c : Char) (cs : List Char) : Except ReadError (Char × List Char) :=
  if c = '"' ∨ c = '\\' ∨ c = '/' then .ok (c, cs)
  else if c = 'b' then .ok (Char.ofNat 8, cs)
  else if c = 't' then .ok (Char.ofNat 9, cs)
  else if c = 'n' then .ok (Char.ofNat 10, cs)
  else if c = 'f' then .ok (Char.ofNat 12, cs)
  else if c = 'r' then .ok (Char.ofNat 13, cs)
  else if c = 'u' then readUnicode cs
  else .error .malformed

def readChar (c : Char) (cs : List Char) : Except ReadError (Char × List Char) :=
  if c = '\\' then
    match cs with
    | [] => .error .malformed
    | d :: cs => readEscape d cs
  else if c.toNat < 32 then .error .malformed
  else .ok (c, cs)

/-- The characters up to the closing quotation mark; the first number bounds how many. -/
def readChars : ℕ → List Char → Except ReadError (List Char × List Char)
  | 0, _ | _ + 1, [] => .error .malformed
  | fuel + 1, c :: cs =>
      if c = '"' then .ok ([], cs)
      else do
        let (d, cs) ← readChar c cs
        let (text, cs) ← readChars fuel cs
        .ok (d :: text, cs)

def readString : List Char → Except ReadError (String × List Char)
  | '"' :: cs => do
      let (text, cs) ← readChars (cs.length + 1) cs
      .ok (String.ofList text, cs)
  | _ => .error .malformed

def readWord (word : List Char) (value : Json) (cs : List Char) :
    Except ReadError (Json × List Char) :=
  if word.isPrefixOf cs then .ok (value, cs.drop word.length) else .error .malformed

def readNumber (cs : List Char) : Except ReadError (Json × List Char) :=
  let literal := cs.takeWhile isNumberChar
  if isNumber literal then .ok (.number (String.ofList literal), cs.dropWhile isNumberChar)
  else .error .malformed

/-- One level less to enter, where levels are counted. -/
def enter : Option ℕ → Except ReadError (Option ℕ)
  | none => .ok none
  | some 0 => .error .recursionLimitExceeded
  | some (depth + 1) => .ok (some depth)

/-- What stands between the elements of an array or an object, with the text behind it. -/
inductive Next where
  | close (rest : List Char)
  | element (rest : List Char)

def nextElement (close : Char) (first : Bool) (cs : List Char) : Except ReadError Next :=
  match skipSpace cs with
  | [] => .error .malformed
  | c :: cs =>
      if c = close then .ok (.close cs)
      else if first then .ok (.element (c :: cs))
      else if c = ',' then .ok (.element cs)
      else .error .malformed

def expectColon (cs : List Char) : Except ReadError (List Char) :=
  match skipSpace cs with
  | ':' :: cs => .ok cs
  | _ => .error .malformed

/-- `Map::insert` for each member in turn: the last one of a key counts. -/
def insertAll (members : List (String × Json)) : List (String × Json) :=
  members.foldl (fun inserted member ↦ setMember member.1 member.2 inserted) []

mutual

/-- A value at the beginning of a text. The first number bounds the steps, `depth` the arrays
and objects that may be entered. -/
def readValue : ℕ → Option ℕ → List Char → Except ReadError (Json × List Char)
  | 0, _, _ => .error .malformed
  | fuel + 1, depth, cs =>
      match skipSpace cs with
      | [] => .error .malformed
      | c :: cs =>
          if c = '[' then do
            let depth ← enter depth
            let (items, cs) ← readItems fuel depth true cs
            .ok (.array items, cs)
          else if c = '\x7b' then do
            let depth ← enter depth
            let (members, cs) ← readMembers fuel depth true cs
            .ok (.object (insertAll members), cs)
          else if c = '"' then do
            let (text, cs) ← readString (c :: cs)
            .ok (.string text, cs)
          else if c = 'n' then readWord ['u', 'l', 'l'] .null cs
          else if c = 't' then readWord ['r', 'u', 'e'] (.bool true) cs
          else if c = 'f' then readWord ['a', 'l', 's', 'e'] (.bool false) cs
          else readNumber (c :: cs)

def readItems : ℕ → Option ℕ → Bool → List Char → Except ReadError (List Json × List Char)
  | 0, _, _, _ => .error .malformed
  | fuel + 1, depth, first, cs => do
      match ← nextElement ']' first cs with
      | .close cs => .ok ([], cs)
      | .element cs =>
          let (item, cs) ← readValue fuel depth cs
          let (items, cs) ← readItems fuel depth false cs
          .ok (item :: items, cs)

def readMembers : ℕ → Option ℕ → Bool → List Char →
    Except ReadError (List (String × Json) × List Char)
  | 0, _, _, _ => .error .malformed
  | fuel + 1, depth, first, cs => do
      match ← nextElement '\x7d' first cs with
      | .close cs => .ok ([], cs)
      | .element cs =>
          let (key, cs) ← readString (skipSpace cs)
          let cs ← expectColon cs
          let (value, cs) ← readValue fuel depth cs
          let (members, cs) ← readMembers fuel depth false cs
          .ok ((key, value) :: members, cs)

end

def readDocument (depth : Option ℕ) (cs : List Char) : Except ReadError Json := do
  let (value, rest) ← readValue (2 * cs.length + 1) depth cs
  ensure (skipSpace rest = []) .trailingCharacters
  .ok value

end Json
