/-
# `Bluestone.Staging.Sync` — one turn of `processDirtyFiles`

`SyncStep` follows a worker from `LockFile` to `UnlockFile`: the dirty check made
before the object lock is taken, `syncFileLocked` under it, the snapshot with the
generation read before it, the upload with its attempts, and what follows.

A `PUT` is atomic and takes effect once or several times between its start and
its end (`landed`); an attempt that fails may or may not have taken effect.  The
bytes it carries are those of the snapshot's file at that moment.
-/
import Bluestone.Staging.Handle

namespace Bluestone

/-- The flags stored with an object. -/
def windowsAttributesStored : UInt32 := 0x27

/-- The attributes an object uploaded with `attrs` decodes to. -/
def encodePOSIXAttributes (attrs : StagedAttributes) : StagedAttributes :=
  { attrs with windowsAttributes := attrs.windowsAttributes &&& windowsAttributesStored }

namespace State

/-- `UnlockFile`. -/
def unlockFile (s : State) : State := { s with syncing := false }

/-- `MarkClean`, with the sidecar: `dropDirtyEntry`, as `ForgetDirty` calls it. -/
def dropDirtyEntry (s : State) : State :=
  { s with dirty := none, syncing := false, disk := { s.disk with sidecar := none } }

/-- The bytes an upload of `snap` reads. -/
def snapshotBytes (s : State) (snap : Snapshot) : Bytes :=
  (s.disk.inode snap.file).take snap.size

/-- `markCleanIfUnchanged` reports false: the entry carries another generation. -/
def changedSince (s : State) (generation : Nat) : Bool :=
  match s.dirty with
  | none => false
  | some entry => decide (entry.generation ≠ generation)

/-- `markCleanIfUnchanged` when it reports true.  The sidecar goes only together
with the entry it belongs to. -/
def markClean (s : State) : State :=
  { s with
    dirty := none
    syncing := false
    disk := if s.dirty.isSome then { s.disk with sidecar := none } else s.disk }

/-- The test of `cleanupSyncedSession`. -/
def cleanable (s : State) (sid : Nat) : Bool :=
  decide (s.listed = some sid) && decide ((s.session sid).refCount = 0) && s.dirty.isNone

/-- `cleanupSyncedSession` on a path not in use.  The session is closed once the
manager's lock is released. -/
def cleanupSynced (s : State) : State :=
  { s with
    listed := none
    disk := { s.disk with dataFile := none, sidecar := none } }

/-- The session `RecoverSessionFromStaging` makes from a file of `size` bytes. -/
def recoveredSession (s : State) (sidecarOk : Bool) (size : Nat) : WriteSession :=
  let created := newWriteSession s.disk s.path sidecarOk
  let restored := match created.2.sidecar with
    | some state => match state.attributes with
        | some attrs => created.1.setAttributes attrs
        | none => created.1
    | none => created.1
  { restored with size := size, dirty := true, refCount := 0 }

/-- `RecoverSessionFromStaging` on a path without a session. -/
def recoverSession (s : State) (sidecarOk : Bool) (size : Nat) : State :=
  { s with
    session := Function.update s.session s.nextSession (s.recoveredSession sidecarOk size)
    nextSession := s.nextSession + 1
    listed := some s.nextSession
    disk := (newWriteSession s.disk s.path sidecarOk).2 }

/-- The snapshot `OpenUploadSnapshot` returns for the file found by name. -/
def openUploadSnapshot (s : State) (sid generation file : Nat) : Snapshot :=
  ⟨sid, file, (s.session sid).size, (s.session sid).fileGeneration, generation⟩

/-- `UploadSnapshot.Close`: a snapshot of a file the session has moved away from
releases nothing. -/
def closeSnapshot (s : State) (snap : Snapshot) : State :=
  if (s.session snap.sid).fileGeneration = snap.fileGeneration ∧ 0 < (s.session snap.sid).uploadReaders then
    s.setSession snap.sid { s.session snap.sid with uploadReaders := (s.session snap.sid).uploadReaders - 1 }
  else s

end State

/-- One section of a sync by worker thread `t`. -/
inductive SyncStep : State → Nat → Action → State → Prop
  | lockFile {s t} : s.task t = .idle → s.syncing = false →
    SyncStep s t .lockFile ({ s with syncing := true }.goto t (.syncing .check))
  | checkClean {s t} : s.task t = .syncing .check → s.dirty = none →
    SyncStep s t .internal (s.goto t (.syncing .unlockFile))
  | checkDirty {s t} : s.task t = .syncing .check → s.dirty.isSome = true →
    SyncStep s t .internal (s.goto t (.syncing .waiting))
  | lockObject {s t} : s.task t = .syncing .waiting → s.objectLock = none →
    SyncStep s t .lockObject ({ s with objectLock := some t }.goto t (.syncing .pending))
  | pendingDelete {s t} : s.task t = .syncing .pending → s.tombstone = true →
    SyncStep s t .internal (s.goto t (.syncing .unlockObject))
  | notPending {s t} : s.task t = .syncing .pending → s.tombstone = false →
    SyncStep s t .internal (s.goto t (.syncing .lookup))
  | found {s t sid} : s.task t = .syncing .lookup → s.listed = some sid →
    SyncStep s t .internal (s.goto t (.syncing (.generation sid)))
  | notFound {s t} : s.task t = .syncing .lookup → s.listed = none →
    SyncStep s t .internal (s.goto t (.syncing .stat))
  | statMissing {s t} : s.task t = .syncing .stat → s.disk.dataFile = none →
    SyncStep s t .internal (s.goto t (.syncing .forget))
  | statFound {s t f} : s.task t = .syncing .stat → s.disk.dataFile = some f →
    SyncStep s t .internal (s.goto t (.syncing (.recover (s.disk.inode f).length)))
  | forget {s t} : s.task t = .syncing .forget →
    SyncStep s t .forgot (s.dropDirtyEntry.goto t (.syncing .unlockObject))
  | recoverListed {s t sid size} : s.task t = .syncing (.recover size) →
    s.listed = some sid → SyncStep s t .internal (s.goto t (.syncing (.generation sid)))
  | recover {s t size sidecarOk} : s.task t = .syncing (.recover size) →
    s.listed = none →
    SyncStep s t .internal ((s.recoverSession sidecarOk size).goto t (.syncing (.generation s.nextSession)))
  /-- The generation is read before the staged bytes are opened. -/
  | generation {s t sid} : s.task t = .syncing (.generation sid) →
    SyncStep s t .internal (s.goto t (.syncing (.snapshot sid ((s.dirty.map (·.generation)).getD 0))))
  /-- The session is closed, or its file is gone from the staging directory. -/
  | snapshotFailed {s t sid generation} :
    s.task t = .syncing (.snapshot sid generation) →
    SyncStep s t .internal (s.goto t (.syncing .unlockObject))
  | snapshot {s t sid generation file} : s.task t = .syncing (.snapshot sid generation) →
    (s.session sid).file.isSome = true → s.disk.dataFile = some file →
    SyncStep s t .snapshot ((s.setSession sid
    { s.session sid with uploadReaders := (s.session sid).uploadReaders + 1 }).goto t
    (.syncing (.attributes (s.openUploadSnapshot sid generation file))))
  | attributes {s t snap} : s.task t = .syncing (.attributes snap) →
    SyncStep s t .internal (s.goto t (.syncing (.uploading snap (s.session snap.sid).attrs false)))
  | landed {s t snap attrs before} :
    s.task t = .syncing (.uploading snap attrs before) → SyncStep s t .landed
    ({ s with object := some ⟨s.snapshotBytes snap, encodePOSIXAttributes attrs⟩ }.goto t
    (.syncing (.uploading snap attrs true)))
  | uploaded {s t snap attrs} :
    s.task t = .syncing (.uploading snap attrs true) →
    SyncStep s t .internal (s.goto t (.syncing (.finish snap)))
  | uploadFailed {s t snap attrs before} :
    s.task t = .syncing (.uploading snap attrs before) →
    SyncStep s t .internal (s.goto t (.syncing (.close snap)))
  | changed {s t snap} : s.task t = .syncing (.finish snap) →
    s.changedSince snap.generation = true → SyncStep s t .internal (s.goto t (.syncing (.close snap)))
  | synced {s t snap} : s.task t = .syncing (.finish snap) →
    s.changedSince snap.generation = false →
    SyncStep s t .synced (s.markClean.goto t (.syncing (.cleanup snap)))
  /-- `CleanAfterSync` is off, or the path is in use again. -/
  | keep {s t snap} : s.task t = .syncing (.cleanup snap) →
    SyncStep s t .internal (s.goto t (.syncing (.close snap)))
  | cleanup {s t snap} : s.task t = .syncing (.cleanup snap) →
    s.cleanable snap.sid = true →
    SyncStep s t .cleaned (s.cleanupSynced.goto t (.syncing (.closeRemoved snap)))
  | closeRemoved {s t snap} : s.task t = .syncing (.closeRemoved snap) →
    SyncStep s t .internal ((s.setSession snap.sid { s.session snap.sid with file := none }).goto t
    (.syncing (.close snap)))
  | close {s t snap} : s.task t = .syncing (.close snap) →
    SyncStep s t .internal ((s.closeSnapshot snap).goto t (.syncing .unlockObject))
  | unlockObject {s t} : s.task t = .syncing .unlockObject →
    SyncStep s t .internal ({ s with objectLock := none }.goto t (.syncing .unlockFile))
  | unlockFile {s t} : s.task t = .syncing .unlockFile →
    SyncStep s t .unlockFile (s.unlockFile.goto t .idle)

end Bluestone
