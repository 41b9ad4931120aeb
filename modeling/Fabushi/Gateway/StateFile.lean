import Fabushi.Library.Json
import Fabushi.Library.Runs
import Fabushi.Library.Crashes

/-!
# The state file

A document is written to a temporary file, which then takes the place of the state file; the
old one is kept as a backup in between. A reader takes the backup where there is no state
file.
-/

namespace Fabushi.Gateway.StateFile

open Crashes

abbrev Bytes := List UInt8

def STATE_SCHEMA_VERSION : ℕ := 1

def checkDocument (document : Json) : Except String Json :=
  if document.isObject then
    match (document.get "schemaVersion").bind Json.asU64 with
    | some version =>
        if version ≠ STATE_SCHEMA_VERSION then
          .error
            s!"unsupported gateway state schema version {version}; expected {STATE_SCHEMA_VERSION}"
        else .ok document
    | none => .ok document
  else .error "gateway state root must be an object"

structure StateDocument where
  document : Json
  accepted : checkDocument document = .ok document

structure JsonCodec where
  toVecPretty : Json → Except String Bytes
  fromSlice : Bytes → Except String Json

def JsonCodec.RoundTrips (codec : JsonCodec) : Prop :=
  ∀ document bytes, codec.toVecPretty document = .ok bytes →
    codec.fromSlice (bytes ++ [10]) = .ok document

/-! ## Files -/

inductive FileName where
  | state
  | backup
  | temporary (id : String)
deriving DecidableEq

def FileName.display (path : String) : FileName → String
  | .state => path
  | .backup => path ++ ".bak"
  | .temporary id => path ++ ".tmp-" ++ id

abbrev Disk := FileName → Option Bytes

def hasFile (file : FileName) (disk : Disk) : Bool :=
  (disk file).isSome

inductive FileOp where
  | createDirAll
  | restrictDirectory
  | createNew (file : FileName)
  | writeAll (file : FileName) (bytes : Bytes)
  | syncAll (file : FileName)
  | restrictFile (file : FileName)
  | removeFile (file : FileName)
  | rename (source target : FileName)

/-- How an operation goes; a write that fails may have written some bytes. -/
inductive Outcome where
  | done
  | fails (error : String) (written : ℕ)
deriving DecidableEq

def exec (op : FileOp) (outcome : Outcome) (disk : Disk) : Disk × Except String Unit :=
  match outcome, op with
  | .fails error written, .writeAll file bytes =>
      (Function.update disk file ((disk file).map (· ++ bytes.take written)), .error error)
  | .fails error _, _ => (disk, .error error)
  | .done, .createNew file =>
      if hasFile file disk then (disk, .error "File exists")
      else (Function.update disk file (some []), .ok ())
  | .done, .writeAll file bytes =>
      (Function.update disk file ((disk file).map (· ++ bytes)), .ok ())
  | .done, .removeFile file =>
      if hasFile file disk then (Function.update disk file none, .ok ())
      else (disk, .error "No such file or directory")
  | .done, .rename source target =>
      if hasFile source disk then
        (Function.update (Function.update disk source none) target (disk source), .ok ())
      else (disk, .error "No such file or directory")
  | .done, _ => (disk, .ok ())

/-! ## Reading and writing -/

variable (codec : JsonCodec) (path : String)

def parseDocument (source : FileName) (bytes : Bytes) : Except String Json :=
  match codec.fromSlice bytes with
  | .error error => .error s!"failed to parse gateway state {source.display path}: {error}"
  | .ok document => checkDocument document

def readStateDocumentUnlocked (disk : Disk) : Except String Json :=
  match disk .state, disk .backup with
  | some bytes, _ => parseDocument codec path .state bytes
  | none, some bytes => parseDocument codec path .backup bytes
  | none, none => .ok (.object [])

abbrev Writer := Prog Disk FileOp String (Except String Unit)

def ensureParent (next : Writer) : Writer :=
  .attempt .createDirAll (fun error ↦ s!"failed to create gateway state directory: {error}") <|
  .attempt .restrictDirectory
    (fun error ↦ s!"failed to restrict gateway state directory: {error}") next

def prepare (temporary : FileName) (bytes : Bytes) (next : Writer) : Writer :=
  .attempt (.createNew temporary)
    (fun error ↦ s!"failed to create gateway state temp file: {error}") <|
  .attempt (.writeAll temporary bytes)
    (fun error ↦ s!"failed to flush gateway state: {error}") <|
  .attempt (.writeAll temporary [10])
    (fun error ↦ s!"failed to flush gateway state: {error}") <|
  .attempt (.syncAll temporary) (fun error ↦ s!"failed to flush gateway state: {error}") <|
  .attempt (.restrictFile temporary)
    (fun error ↦ s!"failed to restrict gateway state permissions: {error}") next

/-- The state file becomes the backup; an older backup goes first. -/
def stage (next : Writer) : Writer :=
  .onlyIf (hasFile .backup) (.attempt (.removeFile .backup)
    fun error ↦ s!"failed to remove stale gateway state backup: {error}") <|
  .onlyIf (hasFile .state) (.attempt (.rename .state .backup)
    fun error ↦ s!"failed to stage gateway state backup: {error}") next

def install (temporary : FileName) : Writer :=
  .act (.rename temporary .state) fun answer ↦ match answer with
    | .error error =>
        .onlyIf (fun disk ↦ hasFile .backup disk && !hasFile .state disk)
          (.ignore (.rename .backup .state)) <|
        .ignore (.removeFile temporary) <|
        .ret (.error s!"failed to install gateway state: {error}")
    | .ok _ =>
        .onlyIf (hasFile .backup) (.ignore (.removeFile .backup)) <| .ret (.ok ())

/-- `id` is the process id and the random part of the temporary file's name. -/
def writeStateDocumentUnlocked (id : String) (document : Json) : Writer :=
  ensureParent <|
    match codec.toVecPretty document with
    | .error error => .ret (.error s!"failed to encode gateway state: {error}")
    | .ok bytes => prepare (.temporary id) bytes (stage (install (.temporary id)))

def updatedDocument (name : String) (value document : Json) : Json :=
  (document.insert "schemaVersion" (.number "1")).insert name value

def updateSection (id name : String) (value : Json) : Writer :=
  .look fun disk ↦ match readStateDocumentUnlocked codec path disk with
    | .error error => .ret (.error error)
    | .ok document =>
        if document.isObject then
          writeStateDocumentUnlocked codec id (updatedDocument name value document)
        else .ret (.error "gateway state root must be an object")

end Fabushi.Gateway.StateFile
