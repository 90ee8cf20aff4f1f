/-
# `Bluestone.Gateway.Rename` — `RenameStagedPath`, one operation at a time

`renameStagedPath` is `internal/staging/rename.go` on the two paths it works on,
with every operation that can fail: `RenameFaults` says which of them do.  The
order of the operations is the source's, and a crash finds the disk between any
two of them.

`Move.vanished` is the byte move that finds no file: a sync of the source
finished between the check at the start and the move, and left the object it
uploaded.
-/
import Bluestone.Library.Cut
import Bluestone.Gateway.State

namespace Bluestone

open Cuts
open Function (update update_eq_self)

/-- How the byte move goes. -/
inductive Move
  | moved
  | vanished (uploaded : Object)
  | failed
  deriving DecidableEq, Repr

/-- What goes wrong in one call.  Failures that are only logged are here too. -/
structure RenameFaults where
  /-- `os.Stat` of the source fails for another reason than a missing file. -/
  stat : Bool := false
  /-- The tombstone's file of the destination cannot be removed. -/
  cancel : Bool := false
  /-- The source's sidecar cannot be read. -/
  readSource : Bool := false
  /-- The sidecar about to be replaced cannot be read. -/
  readReplaced : Bool := false
  /-- The destination's sidecar cannot be written. -/
  sidecar : Bool := false
  move : Move := .moved
  /-- Taking the intent back fails: the sidecar it replaced cannot be written, or
  the intent cannot be removed. -/
  takeBack : Bool := false
  /-- Writing the destination's sidecar again from memory fails. -/
  record : Bool := false
  tombstone : Bool := false
  removeSidecar : Bool := false

/-- What `RenameStagedPath` returns when it does not return nil. -/
inductive RenameError
  | conflicted
  | stat
  /-- `os.IsNotExist`: the source has no staged bytes. -/
  | notExist
  | sidecar
  | move
  deriving DecidableEq, Repr

namespace Gateway

/-- `CancelPendingDelete`. -/
def cancelPendingDelete (g : Gateway) (path : String) (fails : Bool) : Gateway :=
  if fails then g else { g with tombstone := update g.tombstone path false }

/-- `addTombstone`. -/
def addTombstone (g : Gateway) (path : String) (fails : Bool) : Gateway :=
  if fails then g else { g with tombstone := update g.tombstone path true }

/-- `sessionAttributesIfSet` of the session of `path`. -/
def sessionAttributes (g : Gateway) (path : String) : Option StagedAttributes :=
  (g.listed path).bind fun sid => (g.session sid).attributesIfSet

/-- `renamedAttributes`: the session's if set, otherwise those in the sidecar. -/
def renamedAttributes (g : Gateway) (path : String) : Option StagedAttributes :=
  match g.sessionAttributes path with
  | some attrs => some attrs
  | none => (g.sidecar path).bind (·.attributes)

/-- The sidecar of `path` says that its bytes were committed. -/
def committedAt (g : Gateway) (path : String) : Bool :=
  match g.sidecar path with
  | some state => state.committed
  | none => false

/-- What the call finds of them: nothing in a sidecar it cannot read. -/
def intendedAttributes (g : Gateway) (w : RenameFaults) (path : String) : Option StagedAttributes :=
  if w.readSource then g.sessionAttributes path else g.renamedAttributes path

/-- The sidecar that describes the moved bytes. -/
def intent (g : Gateway) (w : RenameFaults) (old new : String) : PathMetadataState :=
  ⟨new, g.intendedAttributes w old, !w.readSource && g.committedAt old⟩

/-- `writePathMetadataState` of the sidecar of `path`. -/
def writeSidecar (g : Gateway) (path : String) (state : PathMetadataState) : Gateway :=
  g.on path fun s => s.setDisk (s.disk.writePathMetadataState state)

/-- The sidecar of `path` is removed. -/
def removeSidecar (g : Gateway) (path : String) (fails : Bool) : Gateway :=
  if fails then g else { g with sidecar := update g.sidecar path none }

/-- `recordDirtyPathLocked` for `path`. -/
def recordDirtyPath (g : Gateway) (path : String) (attrs : Option StagedAttributes) : Gateway :=
  g.on path fun s => s.setDisk (s.disk.recordDirtyPath path attrs)

/-- `metadataChanged` on the session of `path`, if it has one. -/
def metadataChanged (g : Gateway) (path : String) : Gateway :=
  g.on path fun s => s.metadataChanged s.listed

/-- `moveStagingFile`: the file takes the new name, and the session of the old
one, if there is one, is pointed there. -/
def moveStagingFile (g : Gateway) (old new : String) : Gateway :=
  { g with
    dataFile := update (update g.dataFile old none) new (g.dataFile old)
    session := match g.listed old with
      | none => g.session
      | some sid => update g.session sid (g.session sid).metadataChanged
    stagingOf := match g.listed old with
      | none => g.stagingOf
      | some sid => update g.stagingOf sid new }

/-- The session of a replaced destination is dropped and closed. -/
def closeReplaced (g : Gateway) (new : String) : Gateway :=
  match g.listed new with
  | none => g
  | some sid =>
    { g with
      listed := update g.listed new none
      session := update g.session sid
        { g.session sid with dirty := false, file := none } }

/-- `WriteSession.Rekey` of the session of the old name. -/
def rekeySession (g : Gateway) (old new : String) : Gateway :=
  match g.listed old with
  | none => g
  | some sid =>
    { g with
      listed := update (update g.listed old none) new (some sid)
      session := update g.session sid (g.session sid).metadataChanged
      stagingOf := update g.stagingOf sid new }

/-- `DirtyFileIndex.Rekey`. -/
def rekeyEntry (g : Gateway) (old new : String) : Gateway :=
  { g with
    dirty := update (update g.dirty old none) new (some ⟨g.generation + 1, true⟩)
    generation := g.generation + 1 }

/-- `MarkUnrecorded`. -/
def markUnrecorded (g : Gateway) (path : String) : Gateway :=
  { g with dirty := update g.dirty path ((g.dirty path).map ({ · with recorded := false })) }

/-- A sync of `path` finishes and cleans up after itself. -/
def syncedAway (g : Gateway) (path : String) (uploaded : Object) : Gateway :=
  g.on path fun s => { s.markClean.cleanupSynced with object := some uploaded }

end Gateway

/-- The intent is taken back: what it replaced is written again, or it goes. -/
def takeBack (w : RenameFaults) (path : String) (replaced : Option PathMetadataState) :
    Program Gateway RenameError Unit :=
  if w.takeBack then .done ⟨⟩
  else match replaced with
    | some state => .step (·.writeSidecar path state)
    | none => .step (·.removeSidecar path false)

/-- A dirty path that would be left with nothing gets a sidecar from memory. -/
def recordAgain (w : RenameFaults) (path : String) (replaced : Option PathMetadataState) :
    Program Gateway RenameError Unit :=
  .read fun g =>
    if (replaced.isNone || w.takeBack) && (g.dirty path).isSome then
      if w.record then .step (·.markUnrecorded path)
      else .step fun g => g.recordDirtyPath path (g.sessionAttributes path)
    else .done ⟨⟩

/-- `restorePathMetadata`. -/
def restorePathMetadata (w : RenameFaults) (path : String) (replaced : Option PathMetadataState) :
    Program Gateway RenameError Unit := do
  takeBack w path replaced
  recordAgain w path replaced
  .step (·.metadataChanged path)

/-- The intent is written; what it replaced is returned. -/
def writeIntent (w : RenameFaults) (old new : String) :
    Program Gateway RenameError (Option PathMetadataState) :=
  .read fun g => do
    let state := g.intent w old new
    .step (·.on new State.invalidate)
    .read fun g =>
      if w.sidecar then .fail .sidecar
      else do
        .step (·.writeSidecar new state)
        .done (if w.readReplaced then none else g.sidecar new)

/-- What happens to the destination before the move: its pending delete no longer
applies, and the intent is written. -/
def prepareDestination (w : RenameFaults) (old new : String) :
    Program Gateway RenameError (Option PathMetadataState) := do
  .step (·.cancelPendingDelete new w.cancel)
  writeIntent w old new

/-- The byte move, and what takes the intent back when it does not happen. -/
def moveStagedData (w : RenameFaults) (old new : String) (replaced : Option PathMetadataState) :
    Program Gateway RenameError Unit :=
  match w.move with
  | .moved => .step (·.moveStagingFile old new)
  | .vanished uploaded => do
      .step (·.syncedAway old uploaded)
      restorePathMetadata w new replaced
      .step (·.on old State.dropEntryWithoutStagedBytes)
      .fail .notExist
  | .failed => do
      restorePathMetadata w new replaced
      .fail .move

/-- What follows the move.  Nothing here makes the rename fail. -/
def finishRename (w : RenameFaults) (old new : String) : Program Gateway RenameError Unit := do
  .step (·.addTombstone old w.tombstone)
  .step (·.removeSidecar old w.removeSidecar)
  .step fun g => (g.closeReplaced new).rekeySession old new
  .step (·.rekeyEntry old new)

/-- `RenameStagedPath`. -/
def renameStagedPath (w : RenameFaults) (old new : String) : Program Gateway RenameError Unit :=
  .read fun g =>
    if g.conflicted old || g.conflicted new then .fail .conflicted
    else if w.stat then .fail .stat
    else match g.dataFile old with
      | none => do
          .step (·.on old State.dropEntryWithoutStagedBytes)
          .fail .notExist
      | some _ => do
          let replaced ← prepareDestination w old new
          moveStagedData w old new replaced
          finishRename w old new

/-! ## The operations as updates -/

namespace Gateway

section
variable (g : Gateway) (path : String)

theorem writeSidecar_eq (state : PathMetadataState) :
    g.writeSidecar path state = { g with
      sidecar := update g.sidecar path
        (some { state with committed := state.committed || g.committedAt path }) } := by
  cases h : g.sidecar path <;>
    simp [writeSidecar, on, put, slice, State.setDisk, Disk.writePathMetadataState, disk, committedAt, h]

theorem invalidate_eq :
    g.on path State.invalidate = match g.dirty path with
      | none => g
      | some entry => { g with
          dirty := update g.dirty path (some { entry with generation := g.generation + 1 })
          generation := g.generation + 1 } := by
  cases h : g.dirty path with
  | none =>
    simp only [on, put, slice, State.invalidate, disk, h, update_eq_self]
    rw [← h, update_eq_self]
  | some entry => simp [on, put, slice, State.invalidate, disk, h]

theorem recordDirtyPath_eq (attrs : Option StagedAttributes) :
    g.recordDirtyPath path attrs = { g with
      sidecar := update g.sidecar path
        (some ⟨path, if attrs.isSome then attrs else (g.sidecar path).bind (·.attributes),
          g.committedAt path⟩) } := by
  cases h : g.sidecar path with
  | none =>
    cases attrs <;>
      simp [recordDirtyPath, on, put, slice, State.setDisk, Disk.recordDirtyPath,
        Disk.writePathMetadataState, disk, committedAt, h]
  | some state =>
    simp [recordDirtyPath, on, put, slice, State.setDisk, Disk.recordDirtyPath,
      Disk.writePathMetadataState, disk, committedAt, h]

theorem metadataChanged_eq :
    g.metadataChanged path = match g.listed path with
      | none => g
      | some sid => { g with
          session := update g.session sid (g.session sid).metadataChanged } := by
  cases h : g.listed path with
  | none =>
    simp only [metadataChanged, on, put, slice, State.metadataChanged, disk, h, update_eq_self]
    rw [← h, update_eq_self]
  | some sid =>
    simp only [metadataChanged, on, put, slice, State.metadataChanged, State.setSession, disk, h,
      update_eq_self]
    rw [← h, update_eq_self]

theorem dropEntryWithoutStagedBytes_eq :
    g.on path State.dropEntryWithoutStagedBytes = { g with
      dirty := update g.dirty path none
      sidecar := update g.sidecar path none } := by
  simp [on, put, slice, State.dropEntryWithoutStagedBytes, State.dropEntry, disk]

theorem syncedAway_eq (uploaded : Object) :
    g.syncedAway path uploaded = { g with
      object := update g.object path (some uploaded)
      dirty := update g.dirty path none
      syncing := update g.syncing path false
      listed := update g.listed path none
      dataFile := update g.dataFile path none
      sidecar := update g.sidecar path none } := by
  cases h : g.dirty path <;>
    simp [syncedAway, on, put, slice, State.markClean, State.cleanupSynced, disk, h]

theorem cancelPendingDelete_eq (h : g.tombstone path = false) (fails : Bool) :
    g.cancelPendingDelete path fails = g := by
  cases fails with
  | true => rfl
  | false =>
    simp only [cancelPendingDelete, Bool.false_eq_true, if_false]
    rw [← h, update_eq_self]

end

end Gateway

end Bluestone
