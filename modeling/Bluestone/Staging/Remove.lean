/-
# `Bluestone.Staging.Remove` — deletes, now and later

`RemoveStep` is `Remove` of a file with staging enabled.  A dirty path gets a
tombstone first and, if nobody claims it, is deleted from the bucket by the call
itself; a path that is not dirty is deleted from the bucket and gets a tombstone
only when the object store refuses.  `DeleteStep` is one turn of a worker in
`processPendingDeletes`, from `LockFile` to `UnlockFile`.

Both drop what is staged with `discardDeletedStaging`, whose `dropDirtyEntry`
goes through `MarkClean`: it takes the dirty entry, and with it the path's entry
in the `syncing` map, out of the index.

A `DeleteObject` takes effect between its start and its end, or fails and may not.
-/
import Bluestone.Staging.Sync

namespace Bluestone

/-- A rename has moved the session's file away and not yet re-keyed the session:
`stagingPathIs` answers no. -/
def Task.movesAway : Task → Bool
  | .renaming .sourceTombstone | .renaming .sourceSidecar | .renaming .sourceRekey => true
  | _ => false

namespace State

/-- `LockFile` when it succeeds. -/
def lockFile (s : State) : State := { s with syncing := true }

/-- Some rename has the listed session's file. -/
def MovedAway (s : State) : Prop := ∃ t, (s.task t).movesAway = true

/-- `removeSessionLocked` with `deleteStagingFile` on a path with a session. -/
def removeSession (s : State) : State :=
  { s with
    listed := none
    disk := { s.disk with dataFile := none } }.dropDirtyEntry

/-- `closeRemovedSession`. -/
def closeSession (s : State) (sid : Nat) : State :=
  s.setSession sid { s.session sid with file := none }

/-- The session answers a `Stat` of the path. -/
def answersStat (s : State) (sid : Nat) : Bool :=
  (s.session sid).dirty || decide ((s.session sid).size = 0) || (s.session sid).prefetched

end State

/-- One section of `Remove` by thread `t`. -/
inductive RemoveStep : State → Nat → Action → State → Prop
  | begin {s t} : s.task t = .idle →
    RemoveStep s t .removeBegun (s.goto t (.removing .check))
  | checkDirty {s t} : s.task t = .removing .check → s.dirty.isSome = true →
    RemoveStep s t .internal (s.goto t (.removing (.register true)))
  | checkClean {s t} : s.task t = .removing .check → s.dirty = none →
    RemoveStep s t .internal (s.goto t (.removing .children))
  /-- Dirty after all: taken for a directory with dirty files below it. -/
  | childrenDirty {s t} : s.task t = .removing .children → s.dirty.isSome = true →
    RemoveStep s t .internal (s.goto t .idle)
  | noChildren {s t} : s.task t = .removing .children → s.dirty = none →
    RemoveStep s t .internal (s.goto t (.removing .stat))
  | statPending {s t} : s.task t = .removing .stat → s.tombstone = true →
    RemoveStep s t .removed (s.goto t .idle)
  | statNotPending {s t} : s.task t = .removing .stat → s.tombstone = false →
    RemoveStep s t .internal (s.goto t (.removing .statSession))
  | statStaged {s t sid} : s.task t = .removing .statSession → s.listed = some sid →
    s.answersStat sid = true → RemoveStep s t .internal (s.goto t (.removing (.start false)))
  | statUnstaged {s t} : s.task t = .removing .statSession →
    (∀ sid, s.listed = some sid → s.answersStat sid = false) →
    RemoveStep s t .internal (s.goto t (.removing .statObject))
  | statFound {s t} : s.task t = .removing .statObject → s.object.isSome = true →
    RemoveStep s t .internal (s.goto t (.removing (.start false)))
  | statMissing {s t} : s.task t = .removing .statObject → s.object = none →
    RemoveStep s t .removed (s.goto t .idle)
  /-- The object store cannot answer and a session vouches for the path. -/
  | statFromStaging {s t sid} : s.task t = .removing .statObject → s.listed = some sid →
    RemoveStep s t .internal (s.goto t (.removing (.start false)))
  | statError {s t} : s.task t = .removing .statObject →
    RemoveStep s t .internal (s.goto t .idle)
  | start {s t registered} : s.task t = .removing (.start registered) →
    RemoveStep s t .deleteStarted (s.goto t (.removing (.delete registered false)))
  | landed {s t registered before} :
    s.task t = .removing (.delete registered before) →
    RemoveStep s t .deleteLanded ({ s with object := none }.goto t (.removing (.delete registered true)))
  | deleted {s t} : s.task t = .removing (.delete false true) →
    RemoveStep s t .internal (s.goto t (.removing .cleanupChildren))
  | deletedRegistered {s t} : s.task t = .removing (.delete true true) →
    RemoveStep s t .internal (s.goto t (.removing .resolve))
  /-- The object store refused: the delete is accepted with a tombstone. -/
  | deleteFailed {s t before} : s.task t = .removing (.delete false before) →
    RemoveStep s t .internal (s.goto t (.removing (.register false)))
  /-- The store says there is no such object. -/
  | deleteMissing {s t before} : s.task t = .removing (.delete false before) →
    s.object = none → RemoveStep s t .internal (s.goto t .idle)
  /-- The tombstone stays for the sync worker. -/
  | deleteFailedRegistered {s t before} :
    s.task t = .removing (.delete true before) → RemoveStep s t .removed (s.goto t .idle)
  | register {s t inline} : s.task t = .removing (.register inline) →
    RemoveStep s t .tombstoned ({ s with tombstone := true }.goto t (.removing (.claim inline)))
  | registerFailed {s t inline} : s.task t = .removing (.register inline) →
    RemoveStep s t .internal (s.goto t .idle)
  | claim {s t inline} : s.task t = .removing (.claim inline) →
    s.syncing = false → RemoveStep s t .lockFile (s.lockFile.goto t (.removing (.discard inline)))
  /-- An upload is in flight; a worker completes the delete. -/
  | deferred {s t inline} : s.task t = .removing (.claim inline) →
    s.syncing = true → RemoveStep s t .removed (s.goto t .idle)
  /-- The path has been created again in the meantime. -/
  | discardNothing {s t inline} : s.task t = .removing (.discard inline) →
    s.tombstone = false → RemoveStep s t .internal (s.goto t (.removing (.unlock inline)))
  | discardEntry {s t inline} : s.task t = .removing (.discard inline) →
    s.tombstone = true → (s.listed = none ∨ s.MovedAway) →
    RemoveStep s t .discarded (s.dropDirtyEntry.goto t (.removing (.unlock inline)))
  | discardSession {s t sid inline} : s.task t = .removing (.discard inline) →
    s.tombstone = true → s.listed = some sid → ¬ s.MovedAway →
    RemoveStep s t .discarded (s.removeSession.goto t (.removing (.closeDiscarded inline sid)))
  | closeDiscarded {s t sid inline} :
    s.task t = .removing (.closeDiscarded inline sid) →
    RemoveStep s t .internal ((s.closeSession sid).goto t (.removing (.unlock inline)))
  | unlockInline {s t} : s.task t = .removing (.unlock true) →
    RemoveStep s t .unlockFile (s.unlockFile.goto t (.removing (.start true)))
  | unlock {s t} : s.task t = .removing (.unlock false) →
    RemoveStep s t .unlockFile (s.unlockFile.goto t .idle)
  | resolve {s t} : s.task t = .removing .resolve →
    RemoveStep s t .resolved ({ s with tombstone := false }.goto t (.removing .cleanupChildren))
  /-- The tombstone's file could not be removed: it is kept. -/
  | resolveFailed {s t} : s.task t = .removing .resolve →
    RemoveStep s t .internal (s.goto t (.removing .cleanupChildren))
  | cleanupUsed {s t} : s.task t = .removing .cleanupChildren → s.dirty.isSome = true →
    RemoveStep s t .removed (s.goto t .idle)
  | cleanupUnused {s t} : s.task t = .removing .cleanupChildren → s.dirty = none →
    RemoveStep s t .internal (s.goto t (.removing .cleanupSession))
  | cleanupNothing {s t} : s.task t = .removing .cleanupSession → s.listed = none →
    RemoveStep s t .removed (s.goto t .idle)
  | cleanupSession {s t sid} : s.task t = .removing .cleanupSession →
    s.listed = some sid → RemoveStep s t .internal (s.goto t (.removing .cleanupDirty))
  | cleanupClean {s t} : s.task t = .removing .cleanupDirty → s.dirty = none →
    RemoveStep s t .internal (s.goto t (.removing .cleanupRemove))
  | cleanupDirty {s t} : s.task t = .removing .cleanupDirty → s.dirty.isSome = true →
    RemoveStep s t .internal (s.goto t (.removing .cleanupSyncing))
  | cleanupRefused {s t} : s.task t = .removing .cleanupSyncing → s.syncing = true →
    RemoveStep s t .removed (s.goto t .idle)
  | cleanupNotSyncing {s t} : s.task t = .removing .cleanupSyncing → s.syncing = false →
    RemoveStep s t .internal (s.goto t (.removing .cleanupRemove))
  | cleanupGone {s t} : s.task t = .removing .cleanupRemove →
    (s.listed = none ∨ s.MovedAway) → RemoveStep s t .removed (s.goto t .idle)
  | cleanupRemove {s t sid} : s.task t = .removing .cleanupRemove → s.listed = some sid →
    ¬ s.MovedAway → RemoveStep s t .discarded (s.removeSession.goto t (.removing (.closeRemoved sid)))
  | closeRemoved {s t sid} : s.task t = .removing (.closeRemoved sid) →
    RemoveStep s t .removed ((s.closeSession sid).goto t .idle)

/-- One section of a deferred delete by worker thread `t`.  The list of
tombstones was copied earlier, so the path need not have one any more. -/
inductive DeleteStep : State → Nat → Action → State → Prop
  | lockFile {s t} : s.task t = .idle → s.syncing = false →
    DeleteStep s t .lockFile (s.lockFile.goto t (.deleting .recheck))
  | cancelled {s t} : s.task t = .deleting .recheck → s.tombstone = false →
    DeleteStep s t .internal (s.goto t (.deleting .unlock))
  | recheck {s t} : s.task t = .deleting .recheck → s.tombstone = true →
    DeleteStep s t .internal (s.goto t (.deleting .discard))
  | discardNothing {s t} : s.task t = .deleting .discard → s.tombstone = false →
    DeleteStep s t .internal (s.goto t (.deleting .unlock))
  | discardEntry {s t} : s.task t = .deleting .discard → s.tombstone = true →
    (s.listed = none ∨ s.MovedAway) →
    DeleteStep s t .discarded (s.dropDirtyEntry.goto t (.deleting .start))
  | discardSession {s t sid} : s.task t = .deleting .discard → s.tombstone = true →
    s.listed = some sid → ¬ s.MovedAway →
    DeleteStep s t .discarded (s.removeSession.goto t (.deleting (.closeRemoved sid)))
  | closeRemoved {s t sid} : s.task t = .deleting (.closeRemoved sid) →
    DeleteStep s t .internal ((s.closeSession sid).goto t (.deleting .start))
  | start {s t} : s.task t = .deleting .start →
    DeleteStep s t .deleteStarted (s.goto t (.deleting (.delete false)))
  | landed {s t before} : s.task t = .deleting (.delete before) →
    DeleteStep s t .deleteLanded ({ s with object := none }.goto t (.deleting (.delete true)))
  | failed {s t before} : s.task t = .deleting (.delete before) →
    DeleteStep s t .internal (s.goto t (.deleting .unlock))
  | deleted {s t} : s.task t = .deleting (.delete true) →
    DeleteStep s t .internal (s.goto t (.deleting .resolve))
  | resolve {s t} : s.task t = .deleting .resolve →
    DeleteStep s t .resolved ({ s with tombstone := false }.goto t (.deleting .unlock))
  | resolveFailed {s t} : s.task t = .deleting .resolve →
    DeleteStep s t .internal (s.goto t (.deleting .unlock))
  | unlock {s t} : s.task t = .deleting .unlock →
    DeleteStep s t .unlockFile (s.unlockFile.goto t .idle)

end Bluestone
