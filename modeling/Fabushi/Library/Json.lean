import Mathlib

/-!
# JSON values

Values as a JSON library hands them out. Numbers are kept as they are written; an object
is the list of its members, the first one of a name counts.
-/

inductive Json where
  | null
  | bool (value : Bool)
  | number (literal : String)
  | string (value : String)
  | array (items : List Json)
  | object (members : List (String × Json))

namespace Json

def isNull : Json → Bool
  | .null => true
  | _ => false

def isObject : Json → Bool
  | .object _ => true
  | _ => false

def asStr : Json → Option String
  | .string value => some value
  | _ => none

def asObject : Json → Option (List (String × Json))
  | .object members => some members
  | _ => none

/-- The number with these decimal digits; a sign or a point is no digit. -/
def readDigits (digits : List Char) : Option ℕ :=
  if digits ≠ [] ∧ digits.all Char.isDigit then
    some (digits.foldl (fun n digit ↦ 10 * n + (digit.toNat - '0'.toNat)) 0)
  else none

def asU64 : Json → Option ℕ
  | .number literal => (readDigits literal.toList).filter fun n ↦ n < 2 ^ 64
  | _ => none

/-- `Value::get`: the member of an object, nothing on any other value. -/
def get (value : Json) (name : String) : Option Json :=
  match value with
  | .object members => (members.find? fun member ↦ member.1 = name).map Prod.snd
  | _ => none

def setMember (name : String) (value : Json) : List (String × Json) → List (String × Json)
  | [] => [(name, value)]
  | member :: members =>
      if member.1 = name then (name, value) :: members else member :: setMember name value members

/-- `Map::insert` on an object. -/
def insert (target : Json) (name : String) (value : Json) : Json :=
  match target with
  | .object members => .object (setMember name value members)
  | other => other

theorem find_setMember (name other : String) (value : Json) (members : List (String × Json)) :
    ((setMember name value members).find? fun member ↦ member.1 = other).map Prod.snd =
      if name = other then some value
      else (members.find? fun member ↦ member.1 = other).map Prod.snd := by
  induction members with
  | nil =>
      by_cases h : name = other <;> simp [setMember, h]
  | cons member members ih =>
      by_cases hmember : member.1 = name
      · by_cases h : name = other
        · simp [setMember, hmember, h]
        · simp [setMember, hmember, h]
      · by_cases h : member.1 = other
        · have hne : name ≠ other := fun heq ↦ hmember (h.trans heq.symm)
          rw [setMember, if_neg hmember, if_neg hne, List.find?_cons_of_pos (by simpa using h),
            List.find?_cons_of_pos (by simpa using h)]
        · simp only [setMember, if_neg hmember]
          rw [List.find?_cons_of_neg (by simpa using h), ih,
            List.find?_cons_of_neg (by simpa using h)]

@[simp] theorem get_insert (name other : String) (value : Json) (members : List (String × Json)) :
    (insert (.object members) name value).get other =
      if name = other then some value else (object members).get other :=
  find_setMember name other value members

end Json
