import Fabushi.Library.Bytes
import Fabushi.Library.Effects
import Fabushi.Library.FileTree
import Fabushi.Library.Result
import Fabushi.Library.Sha256

/-!
# Checkpoints of a workspace

`create_checkpoint` copies every managed file below the workspace root into the state
directory and lists the copies in a manifest; `restore_checkpoint` validates the copies, removes
the files the manifest does not list, copies the others back and removes the directories that
are left empty. The managed files are those reached without entering an excluded directory.

The workspace is a tree of files and directories. The state directory is excluded, so
that the copies and the manifest of a checkpoint are kept apart from the workspace here; what a
restore reads of them is a `Checkpoint`. Without symbolic links the checks against them pass.
-/

namespace Fabushi.WorkspaceEngine

open Std Effects Result

/-- A name in a directory is any sequence of bytes the operating system allows. It is shown as
text by replacing what is no valid Unicode, and every text is the name that is shown as it. -/
class OsString (Name : Type) where
  toStringLossy : Name → String
  ofString : String → Name
  toStringLossy_ofString (s : String) : toStringLossy (ofString s) = s

instance : OsString String where
  toStringLossy := id
  ofString := id
  toStringLossy_ofString _ := rfl

structure WorkspaceOptions where
  excludedDirectories : List String
  stateDirectory : ".mahayana" ∈ excludedDirectories

def WorkspaceOptions.default : WorkspaceOptions where
  excludedDirectories := [".git", ".mahayana", "target", "node_modules", "dist", "build"]
  stateDirectory := by decide

inductive WorkspaceError where
  | checkpointCorrupt (message : String)
  | unsafeRelativePath (path : String)
  | io (error : FileError)
  deriving DecidableEq

structure FileSnapshot where
  path : String
  size : ℕ
  sha256 : String
  deriving DecidableEq

structure CheckpointManifest where
  id : String
  label : Option String
  createdAtMs : ℤ
  files : List FileSnapshot
  deriving DecidableEq

abbrev Workspace (Name : Type) [Ord Name] [TransOrd Name] := FileTree Name (List UInt8)

abbrev SourceFile (Name : Type) := List Name × List UInt8

structure Checkpoint (Name : Type) [Ord Name] where
  manifest : CheckpointManifest
  files : BTreeMap (List Name) (List UInt8)

variable {Name : Type} [Ord Name] [TransOrd Name] [LawfulEqOrd Name] [DecidableEq Name]
  [OsString Name]

/-! ## Paths as text -/

def normalizeSeparator (c : Char) : Char :=
  if c = '\\' then '/' else c

def pathString (path : List Name) : String :=
  String.ofList ((List.intercalate ['/']
    (path.reverse.map fun name ↦ (OsString.toStringLossy name).toList)).map normalizeSeparator)

/-- Append one component; `.` and what is between two separators in a row are skipped. -/
def pushComponent (path : String) (safe : List Name) (component : List Char) :
    Except WorkspaceError (List Name) :=
  if component = [] ∨ component = ['.'] then .ok safe
  else if component = ['.', '.'] then .error (.unsafeRelativePath path)
  else .ok (OsString.ofString (String.ofList component) :: safe)

def safeRelative (path : String) : Except WorkspaceError (List Name) :=
  if path.toList.head? = some '/' then .error (.unsafeRelativePath path)
  else (path.toList.splitOn '/').foldlM (pushComponent path) []

/-! ## Walking the workspace -/

def isExcluded (options : WorkspaceOptions) (name : Name) : Bool :=
  options.excludedDirectories.contains (OsString.toStringLossy name)

/-- The first argument bounds how many directories the walk enters one below the other. -/
def walkDirectory (options : WorkspaceOptions) (workspace : Workspace Name) :
    ℕ → List Name → List (SourceFile Name)
  | 0, _ => []
  | depth + 1, directory =>
      (workspace.readDir directory).flatMap fun (name, entry) ↦
        match entry with
        | .directory =>
            if isExcluded options name then []
            else walkDirectory options workspace depth (name :: directory)
        | .file content => [(name :: directory, content)]

def comesBefore (left right : SourceFile Name) : Prop :=
  (compare left.1.reverse right.1.reverse).isLE

instance : DecidableRel (@comesBefore Name _) := fun _ _ ↦ instDecidableEqBool _ _

def collectFiles (options : WorkspaceOptions) (workspace : Workspace Name) :
    List (SourceFile Name) :=
  (walkDirectory options workspace (workspace.depth + 1) []).insertionSort comesBefore

/-! ## Creating a checkpoint -/

def sha256File (content : List UInt8) : String :=
  Bytes.encodeHex (Sha256.digest content)

def fileSnapshot (file : SourceFile Name) : FileSnapshot where
  path := pathString file.1
  size := file.2.length
  sha256 := sha256File file.2

def createCheckpoint (options : WorkspaceOptions) (workspace : Workspace Name) (id : String)
    (label : Option String) (now : ℤ) : Checkpoint Name :=
  let files := collectFiles options workspace
  { manifest :=
      { id
        label
        createdAtMs := now
        files := (files.map fileSnapshot).insertionSort fun left right ↦ left.path ≤ right.path }
    files := files.foldl (fun copies file ↦ copies.insert file.1 file.2) ∅ }

/-! ## Restoring a checkpoint -/

def validateSnapshot (checkpoint : Checkpoint Name) (snapshot : FileSnapshot) :
    Except WorkspaceError (SourceFile Name) := do
  let relative ← safeRelative snapshot.path
  let content ← okOr checkpoint.files[relative]?
    (.checkpointCorrupt ("missing checkpoint file: " ++ snapshot.path))
  ensure (content.length = snapshot.size ∧ sha256File content = snapshot.sha256)
    (.checkpointCorrupt ("checkpoint file failed size/hash validation: " ++ snapshot.path))
  return (relative, content)

def validateCheckpoint (checkpoint : Checkpoint Name) :
    Except WorkspaceError (List (SourceFile Name)) := do
  let files := checkpoint.manifest.files
  ensure ((files.map FileSnapshot.path).dedup.length = files.length)
    (.checkpointCorrupt "checkpoint manifest contains duplicate file paths")
  files.mapM (validateSnapshot checkpoint)

def removals (options : WorkspaceOptions) (manifest : CheckpointManifest)
    (workspace : Workspace Name) : List (SourceFile Name) :=
  (collectFiles options workspace).filter fun file ↦
    pathString file.1 ∉ manifest.files.map FileSnapshot.path

def removeSource (file : SourceFile Name) : Eff WorkspaceError (Workspace Name) PUnit :=
  change .io fun workspace ↦ workspace.removeFile file.1

def copyBack (file : SourceFile Name) : Eff WorkspaceError (Workspace Name) PUnit := do
  change .io fun workspace ↦ workspace.createDirAll file.1.tail
  change .io fun workspace ↦ workspace.writeFile file.1 file.2

/-- One entry of a directory; `recurse` goes through the entries of a directory below. -/
def removeEmptyChild (options : WorkspaceOptions)
    (recurse : List Name → Eff WorkspaceError (Workspace Name) Bool) (directory : List Name)
    (empty : Bool) (child : Name × FileEntry (List UInt8)) :
    Eff WorkspaceError (Workspace Name) Bool :=
  match child.2 with
  | .file _ => pure false
  | .directory =>
      if isExcluded options child.1 then pure false
      else do
        let childEmpty ← recurse (child.1 :: directory)
        if childEmpty then do
          change .io fun workspace ↦ workspace.removeDir child.1 directory
          pure empty
        else pure false

def removeEmptyManagedDirectories (options : WorkspaceOptions) :
    ℕ → List Name → Eff WorkspaceError (Workspace Name) Bool
  | 0, _ => pure false
  | depth + 1, directory => do
      let workspace ← get
      let empty ← (workspace.readDir directory).foldlM
        (removeEmptyChild options (removeEmptyManagedDirectories options depth) directory) true
      pure (empty && directory ≠ [])

def restoreCheckpoint (options : WorkspaceOptions) (checkpoint : Checkpoint Name) :
    Eff WorkspaceError (Workspace Name) CheckpointManifest := do
  let validated ← orThrow id (validateCheckpoint checkpoint)
  let workspace ← get
  (removals options checkpoint.manifest workspace).forM removeSource
  validated.forM copyBack
  let workspace ← get
  let _ ← removeEmptyManagedDirectories options (workspace.depth + 1) []
  return checkpoint.manifest

end Fabushi.WorkspaceEngine
