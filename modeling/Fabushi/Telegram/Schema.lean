import Fabushi.Library.Result
import Fabushi.Library.Joined
import Fabushi.Library.Text

/-!
# Schemas

A schema is a text of declarations, each ended by a semicolon. One reader makes a catalog of
them and refuses a text that it cannot read; the other one only counts. Texts are lists of
characters.
-/

namespace Fabushi.Telegram

open Result
open Text (isWhitespace trimList)

/-! ## Pieces of a text -/

/-- `str::lines`: a line feed ends a line, together with a carriage return in front of it; an
empty piece behind the last line feed is no line. -/
def schemaLines (text : List Char) : List (List Char) :=
  let pieces := text.splitOn '\n'
  let ended := pieces.dropLast.map fun line ↦
    if line.getLast? = some '\r' then line.dropLast else line
  let last := pieces.getLastD []
  ended ++ if last = [] then [] else [last]

def codeOf : List Char → List Char
  | '/' :: '/' :: _ => []
  | c :: text => c :: codeOf text
  | [] => []

def trimStart (text : List Char) : List Char :=
  text.dropWhile isWhitespace

def firstWord (text : List Char) : Option (List Char) :=
  match trimStart text with
  | [] => none
  | c :: rest => some ((c :: rest).takeWhile fun c ↦ !isWhitespace c)

def hexDigit (c : Char) : Option ℕ :=
  if '0' ≤ c ∧ c ≤ '9' then some (c.toNat - '0'.toNat)
  else if 'a' ≤ c ∧ c ≤ 'f' then some (c.toNat - 'a'.toNat + 10)
  else if 'A' ≤ c ∧ c ≤ 'F' then some (c.toNat - 'A'.toNat + 10)
  else none

/-- `u32::from_str_radix(_, 16)`: a plus sign may come first, and nothing may overflow. -/
def fromStrRadix16 (value : List Char) : Option UInt32 := do
  let digits := match value with
    | '+' :: rest => rest
    | value => value
  guard (digits ≠ [])
  let number ← digits.foldlM (fun n c ↦ (hexDigit c).bind fun digit ↦
    if 16 * n + digit < 2 ^ 32 then some (16 * n + digit) else none) 0
  return UInt32.ofNat number

def stripSuffix (suffix text : List Char) : Option (List Char) :=
  if suffix <:+ text then some (text.take (text.length - suffix.length)) else none

/-! ## The catalog -/

inductive DeclarationKind
  | type
  | function
  deriving DecidableEq, Repr

structure SchemaDeclaration where
  name : List Char
  constructorId : Option UInt32
  resultType : List Char
  kind : DeclarationKind
  raw : List Char
  deriving DecidableEq, Repr

structure SchemaCatalog where
  types : List SchemaDeclaration
  functions : List SchemaDeclaration
  deriving DecidableEq, Repr

structure SchemaStats where
  types : ℕ
  functions : ℕ
  deriving DecidableEq, Repr

inductive SchemaParseError
  | missingResultType (raw : List Char)
  | missingName (raw : List Char)
  | invalidConstructorId (name value : List Char)
  | duplicateConstructorId (id : UInt32) (first second : List Char)
  deriving DecidableEq, Repr

namespace SchemaCatalog

def stats (catalog : SchemaCatalog) : SchemaStats where
  types := catalog.types.length
  functions := catalog.functions.length

def push (catalog : SchemaCatalog) (declaration : SchemaDeclaration) : SchemaCatalog :=
  match declaration.kind with
  | .type => { catalog with types := catalog.types ++ [declaration] }
  | .function => { catalog with functions := catalog.functions ++ [declaration] }

end SchemaCatalog

def IsPrefixAlias (first second : List Char) : Prop :=
  stripSuffix "Prefix".toList first = some second ∨
    stripSuffix "Prefix".toList second = some first

instance (first second : List Char) : Decidable (IsPrefixAlias first second) :=
  inferInstanceAs (Decidable (_ ∨ _))

def readName (nameToken : List Char) : Except SchemaParseError (List Char × Option UInt32) :=
  match Splits.once '#' nameToken with
  | some (name, value) => do
      let id ← okOr (fromStrRadix16 value) (.invalidConstructorId name value)
      return (name, some id)
  | none => .ok (nameToken, none)

def readDeclaration (kind : DeclarationKind) (raw : List Char) :
    Except SchemaParseError SchemaDeclaration := do
  let (left, resultType) ← okOr (Splits.lastOnce '=' raw) (.missingResultType raw)
  let nameToken ← okOr (firstWord left) (.missingName raw)
  let (name, constructorId) ← readName nameToken
  ensure (name ≠ []) (.missingName raw)
  return { name, constructorId, resultType := trimList isWhitespace resultType, kind, raw }

/-- The catalog so far, and the first name of every constructor id. -/
structure CatalogParser where
  catalog : SchemaCatalog
  constructorIds : List (UInt32 × List Char)

namespace CatalogParser

/-- An id that is there already is left to the name that it has. -/
def claimId (constructorIds : List (UInt32 × List Char)) (declaration : SchemaDeclaration) :
    Except SchemaParseError (List (UInt32 × List Char)) :=
  match declaration.constructorId with
  | none => .ok constructorIds
  | some id =>
      match constructorIds.lookup id with
      | some first =>
          if IsPrefixAlias first declaration.name then .ok constructorIds
          else .error (.duplicateConstructorId id first declaration.name)
      | none => .ok ((id, declaration.name) :: constructorIds)

def add (kind : DeclarationKind) (parser : CatalogParser) (raw : List Char) :
    Except SchemaParseError CatalogParser := do
  let declaration ← readDeclaration kind raw
  let constructorIds ← claimId parser.constructorIds declaration
  return { catalog := parser.catalog.push declaration, constructorIds }

def drain (kind : DeclarationKind) (buffer : List Char) (parser : CatalogParser) :
    Except SchemaParseError (List Char × CatalogParser) :=
  match _hcut : Splits.once ';' buffer with
  | none => .ok (buffer, parser)
  | some (before, after) => do
      let raw := trimList isWhitespace before
      let parser ← if raw = [] then .ok parser else parser.add kind raw
      drain kind (trimStart after) parser
termination_by buffer.length
decreasing_by
  have hlength := Splits.length_of_once _hcut
  have htrim := (List.dropWhile_sublist (p := isWhitespace) (l := after)).length_le
  unfold trimStart
  omega

def line (state : DeclarationKind × List Char × CatalogParser) (rawLine : List Char) :
    Except SchemaParseError (DeclarationKind × List Char × CatalogParser) :=
  let (kind, buffer, parser) := state
  let line := trimList isWhitespace rawLine
  if line = "---types---".toList then .ok (.type, [], parser)
  else if line = "---functions---".toList then .ok (.function, [], parser)
  else if line = [] ∨ "//".toList <+: line then .ok state
  else
    let withoutComment := trimList isWhitespace (codeOf line)
    if withoutComment = [] then .ok state
    else do
      let buffer := if buffer = [] then withoutComment else buffer ++ [' '] ++ withoutComment
      let (buffer, parser) ← drain kind buffer parser
      return (kind, buffer, parser)

end CatalogParser

def parseSchemaCatalog (schema : List Char) : Except SchemaParseError SchemaCatalog := do
  let (_, _, parser) ← (schemaLines schema).foldlM CatalogParser.line
    (.type, [], { catalog := ⟨[], []⟩, constructorIds := [] })
  return parser.catalog

/-! ## The statistics -/

inductive SchemaSection
  | types
  | functions
  deriving DecidableEq, Repr

namespace SchemaStats

def count (stats : SchemaStats) : SchemaSection → SchemaStats
  | .types => { stats with types := stats.types + 1 }
  | .functions => { stats with functions := stats.functions + 1 }

def drain (current : SchemaSection) (buffer : List Char) (stats : SchemaStats) :
    List Char × SchemaStats :=
  match _hcut : Splits.once ';' buffer with
  | none => (buffer, stats)
  | some (before, after) =>
      let declaration := trimList isWhitespace before
      let stats := if '=' ∈ declaration ∧ ¬ ['#'] <+: declaration then stats.count current
        else stats
      drain current (trimStart after) stats
termination_by buffer.length
decreasing_by
  have hlength := Splits.length_of_once _hcut
  have htrim := (List.dropWhile_sublist (p := isWhitespace) (l := after)).length_le
  unfold trimStart
  omega

def line (state : SchemaSection × List Char × SchemaStats) (rawLine : List Char) :
    SchemaSection × List Char × SchemaStats :=
  let (current, buffer, stats) := state
  let line := trimList isWhitespace rawLine
  if line = "---types---".toList then (.types, [], stats)
  else if line = "---functions---".toList then (.functions, [], stats)
  else if line = [] ∨ "//".toList <+: line then state
  else
    let withoutComment := trimList isWhitespace (codeOf line)
    if withoutComment = [] then state
    else
      let buffer := if buffer = [] then withoutComment else buffer ++ [' '] ++ withoutComment
      let (buffer, stats) := drain current buffer stats
      (current, buffer, stats)

end SchemaStats

def parseTdApiSchema (schema : List Char) : SchemaStats :=
  ((schemaLines schema).foldl SchemaStats.line (.types, [], ⟨0, 0⟩)).2.2

end Fabushi.Telegram
