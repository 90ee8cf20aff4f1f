/-
# `Bluestone.Gateway.Namespace` — `Filesystem.rename`

`rename` of `internal/vfs/filesystem.go` with what it calls: the re-keying of a
dirty file, the discarding of what is staged at a destination, the rename in the
bucket, and the rename of a directory with staged files below it.

What the bucket answers is an input (`BucketFaults`), and so is every local
operation that may fail.  `known` are the paths the gateway has in its indexes;
`GetDirtyFiles` and `GetConflicts` go through them.
-/
import Bluestone.Gateway.Rename
import Mathlib.Data.List.Sort

namespace Bluestone

open Cuts
open Function (update)

/-! ## Names -/

/-- `ha.LeaseObjectKey`. -/
def leaseObjectKey : String := ".nfs-gateway.lease"

def isReservedPath (fullPath : String) : Bool := fullPath == "/" ++ leaseObjectKey

/-- `strings.HasPrefix`. -/
def hasPrefix (s pre : String) : Bool := pre.toList.isPrefixOf s.toList

theorem hasPrefix_iff {s pre : String} : hasPrefix s pre ↔ pre.toList <+: s.toList := by
  rw [hasPrefix, List.isPrefixOf_iff_prefix]

/-- `strings.TrimPrefix`. -/
def trimPrefix (s pre : String) : String :=
  if hasPrefix s pre then String.ofList (s.toList.drop pre.toList.length) else s

/-- The prefix of what is below a directory. -/
def listPrefix (dir : String) : String := if dir = "/" then dir else dir ++ "/"

/-- `IsDescendant` of normalized paths. -/
def isDescendant (parent child : String) : Bool := hasPrefix child (listPrefix parent)

/-- Where a path below `old` goes when `old` becomes `new`. -/
def renameTarget (old new child : String) : String := new ++ trimPrefix child old

section
variable {old path : String}

theorem isDescendant_iff (hroot : old ≠ "/") :
    isDescendant old path ↔ ∃ rest, path.toList = old.toList ++ '/' :: rest := by
  simp only [isDescendant, hasPrefix, listPrefix, if_neg hroot, List.isPrefixOf_iff_prefix,
    String.toList_append]
  constructor
  · rintro ⟨rest, h⟩
    exact ⟨rest, by rw [← h]; simp⟩
  · rintro ⟨rest, h⟩
    exact ⟨rest, by rw [h]; simp⟩

theorem renameTarget_toList {rest : List Char} (new : String) (h : path.toList = old.toList ++ rest) :
    (renameTarget old new path).toList = new.toList ++ rest := by
  have hpre : hasPrefix path old := by
    rw [hasPrefix, h, List.isPrefixOf_iff_prefix]
    exact List.prefix_append ..
  simp [renameTarget, trimPrefix, hpre, h]

end

/-! ## The bucket -/

/-- What `OperationsHandler.Stat` answers about a name. -/
inductive BucketStat
  | missing
  | file
  | directory
  | unreachable
  deriving DecidableEq, Repr

/-- `Stat` answers for the root by itself. -/
def statAnswer (path : String) (answer : BucketStat) : BucketStat :=
  if path = "/" then .directory else answer

/-- What `Filesystem.rename` returns when it does not return nil. -/
inductive VfsError
  | permission
  | conflicted
  | busy
  | notDir
  /-- `os.IsNotExist`. -/
  | notExist
  | staged (e : RenameError)
  | rootDirectory
  | ownSubtree
  | existing
  | backend
  deriving DecidableEq, Repr

/-- How the bucket answers `RenameFile`. -/
structure BucketFaults where
  source : BucketStat := .directory
  destination : BucketStat := .missing
  /-- The listing of a directory comes back empty. -/
  listsNothing : Bool := false
  copy : Bool := false
  delete : Bool := false
  /-- The bucket after the copies of a directory, and after its deletes. -/
  copied : String → Option Object := fun _ => none
  deleted : String → Option Object := fun _ => none

/-- `renameDirectory`. -/
def renameDirectory (w : BucketFaults) (old new : String) : Program Gateway VfsError Unit :=
  if old = "/" then .fail .rootDirectory
  else if isDescendant old new then .fail .ownSubtree
  else match statAnswer new w.destination with
    | .file | .directory => .fail .existing
    | .unreachable => .fail .backend
    | .missing =>
      if w.listsNothing then .fail .notExist
      else do
        .step fun g => { g with object := w.copied }
        if w.copy then .fail .backend
        else do
          .step fun g => { g with object := w.deleted }
          if w.delete then .fail .backend else .done ⟨⟩

/-- The copy and the delete of one object. -/
def renameObject (w : BucketFaults) (old new : String) : Program Gateway VfsError Unit :=
  if w.copy then .fail .backend
  else do
    .step fun g => { g with object := update g.object new (g.object old) }
    if w.delete then .fail .backend
    else .step fun g => { g with object := update g.object old none }

/-- `RenameFile`. -/
def renameFile (w : BucketFaults) (old new : String) : Program Gateway VfsError Unit :=
  if old = new then .done ⟨⟩
  else match statAnswer old w.source with
    | .missing => .fail .notExist
    | .unreachable => .fail .backend
    | .directory => renameDirectory w old new
    | .file => renameObject w old new

/-! ## Files -/

namespace Gateway

/-- `LockFile` when it succeeds. -/
def lockFile (g : Gateway) (path : String) : Gateway :=
  { g with syncing := update g.syncing path true }

/-- `UnlockFile`. -/
def unlockFile (g : Gateway) (path : String) : Gateway :=
  { g with syncing := update g.syncing path false }

/-- `CleanupSession` with `deleteStagingFile`. -/
def cleanupSession (g : Gateway) (path : String) : Gateway :=
  match g.listed path with
  | none => g
  | some sid => g.on path fun s => s.removeSession.closeSession sid

/-- `DeleteFile`. -/
def deleteFile (g : Gateway) (path : String) : Gateway :=
  { g with object := update g.object path none }

end Gateway

/-- What goes wrong in a rename of a file. -/
structure FileFaults where
  staged : RenameFaults := {}
  /-- `CancelPendingDelete` of the destination fails. -/
  cancel : Bool := false
  /-- `DeleteFile` of the source fails. -/
  delete : Bool := false
  /-- `ResolvePendingDelete` of the source fails. -/
  resolve : Bool := false
  bucket : BucketFaults := {}

/-- The staged bytes of a dirty destination go, unless they are being synced. -/
def discardDirty (path : String) : Program Gateway VfsError Unit :=
  .read fun g =>
    if (g.dirty path).isNone then .done ⟨⟩
    else if g.syncing path then .fail .busy
    else do
      .step (·.lockFile path)
      .step (·.on path State.dropDirtyEntry)
      .step (·.cleanupSession path)
      .step (·.unlockFile path)

/-- `discardStagedDestination`. -/
def discardStagedDestination (w : FileFaults) (path : String) : Program Gateway VfsError Unit := do
  discardDirty path
  .step (·.cancelPendingDelete path w.cancel)

/-- The delete of a rename's source, when no upload of it is in flight. -/
def deleteSource (w : FileFaults) (path : String) : Program Gateway VfsError Unit :=
  .read fun g =>
    if g.syncing path then .done ⟨⟩
    else if w.delete then do
      .step (·.lockFile path)
      .step (·.unlockFile path)
    else do
      .step (·.lockFile path)
      .step (·.deleteFile path)
      .step (·.cancelPendingDelete path w.resolve)
      .step (·.unlockFile path)

/-- `renameDirtyStagedFile`. -/
def renameDirtyStagedFile (w : FileFaults) (old new : String) : Program Gateway VfsError Unit := do
  match ← (renameStagedPath w.staged old new).attempt with
  | .ok _ => deleteSource w old
  | .error .notExist => do
      discardStagedDestination w new
      renameFile w.bucket old new
  | .error e => .fail (.staged e)

/-! ## Directories -/

/-- What goes wrong in a rename of a directory with staged files, by file. -/
structure DirectoryFaults where
  /-- What `Stat` answers about the new name. -/
  destination : BucketStat := .missing
  move : String → RenameFaults := fun _ => {}
  back : String → RenameFaults := fun _ => {}
  bucket : BucketFaults := {}
  /-- `CreateDirectory` of the new name fails. -/
  create : Bool := false

/-- What a rename of a directory has done: the files moved and the claims it
holds, newest first. -/
structure Progress where
  moved : List String := []
  claimed : List String := []

/-- `release`. -/
def release : List String → Program Gateway VfsError Unit
  | [] => .done ⟨⟩
  | path :: rest => do
      release rest
      .step (·.unlockFile path)

/-- The moves back of `undo`, the last file first; one that fails is left. -/
def moveBack (w : DirectoryFaults) (old new : String) : List String → Program Gateway VfsError Unit
  | [] => .done ⟨⟩
  | child :: rest => do
      let _ ← (renameStagedPath (w.back child) (renameTarget old new child) child).attempt
      moveBack w old new rest

/-- `undo`. -/
def undo (w : DirectoryFaults) (old new : String) (p : Progress) : Program Gateway VfsError Unit := do
  moveBack w old new p.moved
  release p.claimed

/-- A claim is given up if it was taken. -/
def giveUp (holdsClaim : Bool) (path : String) : Program Gateway VfsError Unit :=
  if holdsClaim then .step (·.unlockFile path) else .done ⟨⟩

/-- The staged files move, each under the sync claim of its new name. -/
def moveChildren (w : DirectoryFaults) (old new : String) :
    List String → Progress → Program Gateway VfsError Progress
  | [], p => .done p
  | child :: rest, p =>
    .read fun g => do
      let holdsClaim := !g.syncing (renameTarget old new child)
      .step (·.lockFile (renameTarget old new child))
      match ← (renameStagedPath (w.move child) child (renameTarget old new child)).attempt with
      | .ok _ =>
        moveChildren w old new rest
          ⟨child :: p.moved, if holdsClaim then renameTarget old new child :: p.claimed else p.claimed⟩
      | .error .notExist => do
          giveUp holdsClaim (renameTarget old new child)
          moveChildren w old new rest p
      | .error e => do
          giveUp holdsClaim (renameTarget old new child)
          undo w old new p
          .fail (.staged e)

/-- The bucket rename, and what its answer asks for. -/
def renameInBucket (w : DirectoryFaults) (old new : String) (p : Progress) :
    Program Gateway VfsError Unit := do
  match ← (renameFile w.bucket old new).attempt with
  | .ok _ => release p.claimed
  | .error e =>
    if e = .notExist ∧ p.moved ≠ [] then do
      .step fun g => if w.create then g
        else { g with object := update g.object (listPrefix new) (some ⟨[], .default⟩) }
      release p.claimed
    else do
      undo w old new p
      .fail e

/-- `renameDirectoryWithStagedFiles`. -/
def renameDirectoryWithStagedFiles (w : DirectoryFaults) (old new : String) (children : List String) :
    Program Gateway VfsError Unit :=
  .read fun g =>
    if (g.dirty new).isSome then .fail .notDir
    else match statAnswer new w.destination with
      | .file | .directory => renameFile w.bucket old new
      | .unreachable => .fail .backend
      | .missing => do
          let p ← moveChildren w old new (children.insertionSort (· ≤ ·)) {}
          renameInBucket w old new p

/-! ## `rename` -/

/-- `dirtyStagedChildren`: `DirtyPathsUnder` leaves out paths with a pending
delete. -/
def Gateway.dirtyStagedChildren (g : Gateway) (known : List String) (path : String) : List String :=
  known.filter fun p =>
    (g.dirty p).isSome && !g.tombstone p && isDescendant path p && p != path

theorem mem_dirtyStagedChildren {g : Gateway} {known : List String} {old path : String} :
    path ∈ g.dirtyStagedChildren known old ↔ path ∈ known ∧ (g.dirty path).isSome ∧
    g.tombstone path = false ∧ isDescendant old path ∧ path ≠ old := by
  simp [Gateway.dirtyStagedChildren, and_assoc]

/-- `conflictedPathUnder`. -/
def Gateway.conflictedUnder (g : Gateway) (known : List String) (path : String) : Bool :=
  known.any fun p => g.conflicted p && isDescendant path p

/-- `Filesystem.rename`. -/
def rename (known : List String) (wf : FileFaults) (wd : DirectoryFaults) (old new : String) :
    Program Gateway VfsError Unit :=
  if isReservedPath old || isReservedPath new then .fail .permission
  else .read fun g =>
    if g.conflicted old || g.conflicted new || g.conflictedUnder known old then .fail .conflicted
    else if !(g.dirtyStagedChildren known new).isEmpty then .fail .busy
    else if !(g.dirtyStagedChildren known old).isEmpty then
      renameDirectoryWithStagedFiles wd old new (g.dirtyStagedChildren known old)
    else if g.tombstone old then .fail .notExist
    else if (g.dirty old).isSome then renameDirtyStagedFile wf old new
    else do
      discardStagedDestination wf new
      renameFile wf.bucket old new

end Bluestone
