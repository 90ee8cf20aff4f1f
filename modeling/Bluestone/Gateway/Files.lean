/-
# `Bluestone.Gateway.Files` — the operations clients and the sync worker make

`OpenFile`, `Close`, writes and truncations through a handle, `Remove`, the turn
of a sync worker on one path, and its deferred deletes, each a program over the
gateway; `Rename` is `Bluestone.Gateway.Namespace`.  Operations are made one after
another; a sync is three of them (snapshot, upload, end), so that others come in
while it uploads.

`Host` is the gateway with the handles that are open and the uploads in flight.

Left out: handles without a session, which only a read-only open of a file that
is not staged gives, read and write the bucket; directories have no object of
their own here.
-/
import Bluestone.Gateway.Namespace

namespace Bluestone

open Cuts Runs
open Function (update)

/-- The flags of `OpenFile`.  `write` is `O_WRONLY` or `O_RDWR`. -/
structure FileFlags where
  write : Bool := false
  create : Bool := false
  trunc : Bool := false
  perm : UInt32 := 0
  deriving DecidableEq, Repr

/-- The flags that ask for a session. -/
def FileFlags.writable (fl : FileFlags) : Bool := fl.write || fl.create

/-- A `File`: the path it was opened with and the session it got. -/
structure File where
  path : String
  session : Option Nat
  write : Bool
  closed : Bool := false
  deriving DecidableEq, Repr

/-- What goes wrong in one call, and what the object store and the clock answer. -/
structure CallFaults where
  /-- The staging file of a new session cannot be opened. -/
  session : Bool := false
  /-- The sidecar of a new session cannot be written. -/
  sidecar : Bool := false
  /-- What `Stat` answers when it is not whether there is an object. -/
  stat : Option BucketStat := none
  download : Download := .complete
  /-- The write or the truncation fails. -/
  change : Bool := false
  /-- The sidecar of a file that becomes dirty cannot be written. -/
  record : Bool := false
  /-- Attributes cannot be written to the sidecar. -/
  persist : Bool := false
  modTime : Nat := 0
  atime : Nat := 0
  mtime : Nat := 0
  now : Nat := 0

/-- What a call returns when it does not return nil. -/
inductive FileError
  | permission
  | notExist
  | conflicted
  | busy
  | closed
  | session
  | backend
  | staging
  | record
  | tombstone
  deriving DecidableEq, Repr

namespace Gateway

/-- What the object store's `Stat` says about `path`. -/
def statObject (g : Gateway) (path : String) (answer : Option BucketStat) : BucketStat :=
  answer.getD (if (g.object path).isSome then .file else .missing)

/-- The attributes a `Stat` that found something reports. -/
def statAttributes (g : Gateway) (w : CallFaults) (path : String) : StagedAttributes :=
  match g.object path with
  | some o => o.statAttributes w.modTime w.atime w.mtime
  | none => .default

/-- The session's record is replaced. -/
def setSession (g : Gateway) (sid : Nat) (ws : WriteSession) : Gateway :=
  { g with session := update g.session sid ws }

/-- The session and its staging file are as `ws` and `d` say. -/
def changeSession (g : Gateway) (sid : Nat) (ws : WriteSession) (d : Disk) : Gateway :=
  g.on (g.stagingOf sid) fun s => (s.setSession sid ws).setDisk d

/-- `NewWriteSession`, listed under `path`. -/
def createSession (g : Gateway) (path : String) (sidecarOk : Bool) : Gateway :=
  { g.on path (·.createSession sidecarOk) with
    stagingOf := update g.stagingOf g.nextSession path }

/-- `persistSessionAttributes`: into the sidecar, if there is one. -/
def persistAttributes (g : Gateway) (sid : Nat) (fails : Bool) : Gateway :=
  match g.sidecar (g.stagingOf sid) with
  | none => g
  | some state =>
    if (g.session sid).attributesSet && !fails then
      (g.writeSidecar (g.stagingOf sid) { state with attributes := some (g.session sid).attrs }).setSession
        sid (g.session sid).metadataChanged
    else g

/-- The files of the session are removed. -/
def removeFiles (g : Gateway) (path : String) : Gateway :=
  { g with
    dataFile := update g.dataFile path none
    sidecar := update g.sidecar path none }

/-- `ReleaseSession`. -/
def releaseSession (g : Gateway) (path : String) : Gateway := g.on path State.releaseSession

/-- `ReleaseSessionDiscardingIfEmpty`. -/
def releaseSessionDiscardingIfEmpty (g : Gateway) (path : String) : Gateway :=
  match g.listed path with
  | none => g
  | some sid =>
    if ((g.releaseSession path).slice path).discardable sid then
      ((g.releaseSession path).on path fun s => { s with listed := none }.closeSession sid).removeFiles
        (g.stagingOf sid)
    else g.releaseSession path

end Gateway

/-! ## Opening -/

/-- `GetOrCreateSession`. -/
def getOrCreateSession (w : CallFaults) (path : String) : Program Gateway FileError Nat :=
  .read fun g =>
    if g.conflicted path then .fail .conflicted
    else match g.listed path with
      | some sid => do
          .step (·.on path (·.reuseSession sid))
          .done sid
      | none =>
        if w.session then do
          .step (·.cancelPendingDelete path false)
          .fail .session
        else do
          .step (·.createSession path !w.sidecar)
          .done g.nextSession

/-- An open that has a session fails. -/
def refuse (path : String) (e : FileError) : Program Gateway FileError Unit := do
  .step (·.releaseSessionDiscardingIfEmpty path)
  .fail e

/-- The attributes of the object are the session's unless it has its own. -/
def seedAttributes (w : CallFaults) (path : String) (sid : Nat) : Program Gateway FileError Unit :=
  .read fun g =>
    if (g.session sid).attributesSet then .done ⟨⟩
    else do
      .step (·.setSession sid ((g.session sid).seedAttributes (g.statAttributes w path)))
      .step (·.persistAttributes sid w.persist)

/-- `Prefetch` of the object into the staging file. -/
def prefetchObject (w : CallFaults) (path : String) (sid : Nat) : Program Gateway FileError Unit :=
  .read fun g =>
    match g.object path with
    | none => refuse path .backend
    | some o =>
      match (g.session sid).prefetch (g.disk (g.stagingOf sid)) o.content w.download with
      | none => refuse path .staging
      | some (ws, d, fetched) => do
          .step (·.changeSession sid ws d)
          if fetched then .done ⟨⟩ else refuse path .backend

/-- The object store found a file: it is staged, unless it is about to go. -/
def stageExisting (w : CallFaults) (fl : FileFlags) (path : String) (sid : Nat) :
    Program Gateway FileError Unit := do
  seedAttributes w path sid
  if fl.trunc then .done ⟨⟩ else prefetchObject w path sid

/-- `SetCreationIfUnset` on a file that was not there. -/
def setCreation (w : CallFaults) (fl : FileFlags) (sid : Nat) : Program Gateway FileError Unit :=
  .read fun g =>
    if !fl.create || (g.session sid).attributesSet then .done ⟨⟩
    else do
      .step (·.setSession sid ((g.session sid).setCreationIfUnset w.now fl.perm))
      .step (·.persistAttributes sid w.persist)

/-- Whether there is a file, asked of the object store unless the session knows. -/
def settleExistence (w : CallFaults) (fl : FileFlags) (path : String) (pendingDelete : Bool)
    (sid : Nat) : Program Gateway FileError Unit :=
  .read fun g =>
    if (g.session sid).existenceKnown then .done ⟨⟩
    else match g.statObject path w.stat, pendingDelete with
      | .file, false | .directory, false => stageExisting w fl path sid
      | .unreachable, false =>
        if fl.trunc then setCreation w fl sid else refuse path .backend
      | _, _ => setCreation w fl sid

/-- `MarkDirty`. -/
def markDirty (w : CallFaults) (path : String) : Program Gateway FileError Unit :=
  .read fun g =>
    if g.conflicted path then .done ⟨⟩
    else match (g.slice path).markDirtyAgain with
      | some s => .step (·.put path s)
      | none =>
        if w.record then do
          .step (·.on path (·.markDirtyWithState false))
          .fail .record
        else
          .step (·.on path fun s =>
            ((s.setDisk (s.disk.recordDirtyPath s.path
              (s.listed.bind fun sid => (s.session sid).attributesIfSet))).metadataChanged
              s.listed).markDirtyWithState true)

/-- The change `ws`, `d` reaches the session; a failed one changes nothing. -/
def applyChange (w : CallFaults) (sid : Nat) : Option (WriteSession × Disk) →
    Program Gateway FileError Unit
  | none => .fail .staging
  | some (ws, d) => if w.change then .fail .staging else .step (·.changeSession sid ws d)

/-- The truncation of `O_TRUNC`.  When the staging file cannot be truncated the
reference is not given back. -/
def truncateOpened (w : CallFaults) (path : String) (sid : Nat) : Program Gateway FileError Unit :=
  .read fun g => do
    applyChange w sid ((g.session sid).truncate (g.disk (g.stagingOf sid)) 0)
    match ← (markDirty w path).attempt with
    | .ok _ => .done ⟨⟩
    | .error e => do
        .step (·.releaseSession path)
        .fail e

/-- `O_TRUNC`, once the open has its session. -/
def truncateIf (w : CallFaults) (fl : FileFlags) (path : String) (sid : Nat) :
    Program Gateway FileError Unit :=
  if fl.trunc then truncateOpened w path sid else .done ⟨⟩

/-- A read-only open: `AcquireSession`, and without a session `O_TRUNC` empties the
object. -/
def openReading (w : CallFaults) (fl : FileFlags) (path : String) : Program Gateway FileError File :=
  .read fun g =>
    match if g.conflicted path then none else g.listed path with
    | some sid => do
        .step (·.setSession sid { g.session sid with refCount := (g.session sid).refCount + 1 })
        truncateIf w fl path sid
        .done ⟨path, some sid, fl.write, false⟩
    | none =>
      if !fl.trunc then .done ⟨path, none, fl.write, false⟩
      else if w.change then .fail .backend
      else do
        .step fun g => { g with object := update g.object path (some ⟨[], .default⟩) }
        .done ⟨path, none, fl.write, false⟩

/-- `OpenFile`. -/
def openFile (w : CallFaults) (fl : FileFlags) (path : String) : Program Gateway FileError File :=
  if isReservedPath path then .fail .permission
  else .read fun g =>
    if g.tombstone path && !fl.create then .fail .notExist
    else if !fl.writable then openReading w fl path
    else do
      let sid ← getOrCreateSession w path
      settleExistence w fl path (g.tombstone path) sid
      truncateIf w fl path sid
      .done ⟨path, some sid, fl.write, false⟩

/-! ## Handles -/

/-- A modification time a client had set is dropped by a write. -/
def persistDropped (w : CallFaults) (sid : Nat) (dropped : Bool) : Program Gateway FileError Unit :=
  if dropped then .step (·.persistAttributes sid w.persist) else .done ⟨⟩

/-- `File.WriteAt`. -/
def writeFile (w : CallFaults) (f : File) (offset : Nat) (data : Bytes) :
    Program Gateway FileError Unit :=
  if f.closed then .fail .closed
  else match f.session with
    | none => .fail .backend
    | some sid =>
      .read fun g =>
        let change := (g.session sid).write (g.disk (g.stagingOf sid)) offset data
        do
          applyChange w sid (change.map fun c => (c.1, c.2.1))
          persistDropped w sid (change.any fun c => c.2.2)
          markDirty w f.path

/-- `File.Truncate`. -/
def truncateFile (w : CallFaults) (f : File) (size : Nat) : Program Gateway FileError Unit :=
  if f.closed then .fail .closed
  else if !f.write then .fail .permission
  else match f.session with
    | none => .fail .backend
    | some sid =>
      .read fun g => do
        applyChange w sid ((g.session sid).truncate (g.disk (g.stagingOf sid)) size)
        markDirty w f.path

/-- What `File.Close` does to the gateway.  The reference is given back by path. -/
def closeFile (f : File) (g : Gateway) : Gateway :=
  if f.closed || f.session.isNone then g else g.releaseSession f.path

/-! ## Removing -/

/-- How the object store and the tombstones answer a `Remove`. -/
structure RemoveFaults where
  stat : Option BucketStat := none
  /-- `DeleteFile` fails; `landed` when the object went all the same. -/
  delete : Bool := false
  landed : Bool := false
  /-- The tombstone cannot be written. -/
  register : Bool := false
  /-- The tombstone's file cannot be removed. -/
  resolve : Bool := false

namespace Gateway

/-- `discardDeletedStaging`. -/
def discardDeletedStaging (g : Gateway) (path : String) : Gateway :=
  if g.tombstone path then
    match g.listed path with
    | none => g.on path State.dropDirtyEntry
    | some sid => g.on path fun s => s.dropDirtyEntry.removeSession.closeSession sid
  else g

/-- What a `Stat` of the path finds, staged or in the bucket. -/
def statPath (g : Gateway) (path : String) (answer : Option BucketStat) : BucketStat :=
  if g.tombstone path then .missing
  else match g.listed path with
    | some sid =>
      if (g.slice path).answersStat sid then .file
      else match g.statObject path answer with
        -- The session vouches for the path while the object store cannot answer.
        | .unreachable => .file
        | found => found
    | none => g.statObject path answer

end Gateway

/-- The staged data of a deleted path goes, unless an upload of it is in flight. -/
def discardClaimed (path : String) : Program Gateway FileError Bool :=
  .read fun g =>
    if g.syncing path then .done false
    else do
      .step (·.lockFile path)
      .step (·.discardDeletedStaging path)
      .step (·.unlockFile path)
      .done true

/-- `RegisterPendingDelete`. -/
def registerPendingDelete (w : RemoveFaults) (path : String) : Program Gateway FileError Bool :=
  if w.register then .fail .tombstone
  else do
    .step (·.addTombstone path false)
    discardClaimed path

/-- `cleanupCleanStagingSessionAfterDelete`. -/
def cleanupAfterDelete (path : String) : Program Gateway FileError Unit :=
  .read fun g =>
    if (g.dirty path).isSome then .done ⟨⟩ else .step (·.cleanupSession path)

/-- A `DeleteFile` that may fail after it took effect. -/
def deleteObject (w : RemoveFaults) (path : String) : Program Gateway FileError Unit :=
  if w.delete then
    if w.landed then do
      .step (·.deleteFile path)
      .fail .backend
    else .fail .backend
  else .step (·.deleteFile path)

/-- The object of an accepted delete goes, or stays for the sync worker. -/
def deleteRegistered (w : RemoveFaults) (path : String) : Program Gateway FileError Unit := do
  match ← (deleteObject w path).attempt with
  | .ok _ => do
      .step (·.cancelPendingDelete path w.resolve)
      cleanupAfterDelete path
  | .error _ => .done ⟨⟩

/-- `removeDirtyStagedFile`. -/
def removeDirtyStagedFile (w : RemoveFaults) (path : String) : Program Gateway FileError Unit := do
  let immediate ← registerPendingDelete w path
  if immediate then deleteRegistered w path else .done ⟨⟩

/-- The delete of a file that is not dirty. -/
def removeObject (w : RemoveFaults) (path : String) : Program Gateway FileError Unit := do
  match ← (deleteObject w path).attempt with
  | .ok _ => cleanupAfterDelete path
  | .error _ => do
      let _ ← registerPendingDelete w path

/-- `remove` of a file. -/
def removeFile (known : List String) (w : RemoveFaults) (path : String) :
    Program Gateway FileError Unit :=
  if isReservedPath path then .fail .permission
  else .read fun g =>
    if (g.dirty path).isSome then removeDirtyStagedFile w path
    else if !(g.dirtyStagedChildren known path).isEmpty then .fail .busy
    else match g.statPath path w.stat with
      | .missing | .directory => .done ⟨⟩
      | .unreachable => .fail .backend
      | .file => removeObject w path

/-- The worker's turn on a pending delete. -/
def deletePending (w : RemoveFaults) (path : String) : Program Gateway FileError Unit :=
  .read fun g =>
    if g.syncing path || !g.tombstone path then .done ⟨⟩
    else do
      .step (·.lockFile path)
      .step (·.discardDeletedStaging path)
      match ← (deleteObject w path).attempt with
      | .ok _ => do
          .step (·.cancelPendingDelete path w.resolve)
          .step (·.unlockFile path)
      | .error _ => .step (·.unlockFile path)

/-! ## Syncing -/

/-- An upload in flight. -/
structure Turn where
  snap : Snapshot
  attrs : StagedAttributes
  landed : Bool
  deriving DecidableEq, Repr

namespace Gateway

/-- `RecoverSessionFromStaging` of a file of `size` bytes. -/
def recoverSession (g : Gateway) (path : String) (sidecarOk : Bool) (size : Nat) : Gateway :=
  { g.on path (·.recoverSession sidecarOk size) with
    stagingOf := update g.stagingOf g.nextSession path }

/-- The upload of `turn` takes effect. -/
def landUpload (g : Gateway) (path : String) (turn : Turn) : Gateway :=
  { g with
    object := update g.object path
      (some ⟨(g.slice path).snapshotBytes turn.snap, encodePOSIXAttributes turn.attrs⟩) }

/-- `cleanupSyncedSession`. -/
def cleanupSyncedSession (g : Gateway) (path : String) (sid : Nat) : Gateway :=
  if (g.slice path).cleanable sid && decide (g.stagingOf sid = path) then
    g.on path fun s => s.cleanupSynced.closeSession sid
  else g

/-- What follows an upload that went through: the path is clean unless it has
changed since, and its session goes when nothing uses it. -/
def finishUpload (g : Gateway) (path : String) (turn : Turn) (cleanAfterSync : Bool) : Gateway :=
  if (g.slice path).changedSince turn.snap.generation then g
  else if cleanAfterSync then (g.on path State.markClean).cleanupSyncedSession path turn.snap.sid
  else g.on path State.markClean

/-- The end of a turn; `uploaded` says that the upload went through. -/
def endTurn (g : Gateway) (path : String) (turn : Turn) (uploaded cleanAfterSync : Bool) : Gateway :=
  ((if uploaded then g.finishUpload path turn cleanAfterSync else g).on path
    (·.closeSnapshot turn.snap)).unlockFile path

end Gateway

/-- `OpenUploadSnapshot`, and the attributes the upload carries. -/
def openSnapshot (fails : Bool) (path : String) (sid : Nat) :
    Program Gateway FileError (Option Turn) :=
  .read fun g =>
    match (g.session sid).file, g.dataFile (g.stagingOf sid) with
    | some _, some file =>
      if fails then do
        .step (·.unlockFile path)
        .done none
      else do
        .step (·.setSession sid { g.session sid with uploadReaders := (g.session sid).uploadReaders + 1 })
        .done (some ⟨(g.slice path).openUploadSnapshot sid
          (((g.dirty path).map (·.generation)).getD 0) file, (g.session sid).attrs, false⟩)
    | _, _ => do
        .step (·.unlockFile path)
        .done none

/-- The session to sync: the listed one, or one made from the staging file. -/
def sessionToSync (w : CallFaults) (path : String) : Program Gateway FileError (Option Nat) :=
  .read fun g =>
    match g.listed path, g.dataFile path with
    | some sid, _ => .done (some sid)
    | none, none => do
        .step (·.on path State.dropDirtyEntry)
        .done none
    | none, some file =>
      if w.session then .done none
      else do
        .step (·.recoverSession path (!w.sidecar) (g.inode file).length)
        .done (some g.nextSession)

/-- A turn of the sync worker up to its upload. -/
def beginSync (w : CallFaults) (path : String) : Program Gateway FileError (Option Turn) :=
  .read fun g =>
    if g.syncing path || (g.dirty path).isNone || g.conflicted path || g.tombstone path then .done none
    else do
      .step (·.lockFile path)
      match ← sessionToSync w path with
      | none => do
          .step (·.unlockFile path)
          .done none
      | some sid => openSnapshot w.change path sid

/-! ## The host -/

/-- The gateway, the handles clients have, and the uploads in flight by path. -/
structure Host where
  gateway : Gateway
  files : List File
  uploads : String → Option Turn

/-- What clients ask for and the worker does. -/
inductive Op
  | openFile (w : CallFaults) (fl : FileFlags) (path : String)
  | write (w : CallFaults) (handle offset : Nat) (data : Bytes)
  | truncate (w : CallFaults) (handle size : Nat)
  | close (handle : Nat)
  | rename (known : List String) (wf : FileFaults) (wd : DirectoryFaults) (old new : String)
  | remove (known : List String) (w : RemoveFaults) (path : String)
  | beginSync (w : CallFaults) (path : String)
  | landUpload (path : String)
  | endSync (path : String) (uploaded cleanAfterSync : Bool)
  | deletePending (w : RemoveFaults) (path : String)

namespace Host

/-- The handle of a successful open is added. -/
def opened (h : Host) (o : Outcome Gateway FileError File) : Host :=
  { h with
    gateway := o.final
    files := match o.result with
      | .ok f => h.files ++ [f]
      | .error _ => h.files }

/-- A change through a handle. -/
def through (h : Host) (handle : Nat) (change : File → Program Gateway FileError Unit) : Host :=
  match h.files[handle]? with
  | none => h
  | some f => { h with gateway := (change f h.gateway).final }

/-- `Close`, once or again. -/
def close (h : Host) (handle : Nat) : Host :=
  match h.files[handle]? with
  | none => h
  | some f =>
    { h with
      gateway := closeFile f h.gateway
      files := h.files.set handle { f with closed := true } }

/-- A turn that got its snapshot is in flight. -/
def syncBegun (h : Host) (path : String) (o : Outcome Gateway FileError (Option Turn)) : Host :=
  { h with
    gateway := o.final
    uploads := match o.result with
      | .ok (some turn) => update h.uploads path (some turn)
      | _ => h.uploads }

def uploadLanded (h : Host) (path : String) : Host :=
  match h.uploads path with
  | none => h
  | some turn =>
    { h with
      gateway := h.gateway.landUpload path turn
      uploads := update h.uploads path (some { turn with landed := true }) }

/-- Only an upload that landed can have gone through. -/
def syncEnded (h : Host) (path : String) (uploaded cleanAfterSync : Bool) : Host :=
  match h.uploads path with
  | none => h
  | some turn =>
    { h with
      gateway := h.gateway.endTurn path turn (uploaded && turn.landed) cleanAfterSync
      uploads := update h.uploads path none }

/-- The host after one operation. -/
def next (h : Host) : Op → Host
  | .openFile w fl path => h.opened (Bluestone.openFile w fl path h.gateway)
  | .write w handle offset data => h.through handle fun f => writeFile w f offset data
  | .truncate w handle size => h.through handle fun f => truncateFile w f size
  | .close handle => h.close handle
  | .rename known wf wd old new =>
    { h with gateway := (Bluestone.rename known wf wd old new h.gateway).final }
  | .remove known w path => { h with gateway := (removeFile known w path h.gateway).final }
  | .beginSync w path => h.syncBegun path (Bluestone.beginSync w path h.gateway)
  | .landUpload path => h.uploadLanded path
  | .endSync path uploaded cleanAfterSync => h.syncEnded path uploaded cleanAfterSync
  | .deletePending w path =>
    { h with gateway := (Bluestone.deletePending w path h.gateway).final }

end Host

/-- Operations one after another, from a gateway that has just started. -/
def hostSystem (starts : Gateway → Prop) : System Host Op where
  init h := starts h.gateway ∧ (∀ path, h.gateway.listed path = none) ∧ h.files = [] ∧
    ∀ path, h.uploads path = none
  step h op h' := h' = h.next op

theorem reach_operations {starts : Gateway → Prop} (ops : List Op) :
    ∀ {h : Host}, Reach (hostSystem starts) always h →
    Reach (hostSystem starts) always (ops.foldl Host.next h) := by
  induction ops with
  | nil => exact fun hr => hr
  | cons op rest ih => exact fun hr => ih (hr.next rfl)

/-- Nothing staged and no handles. -/
def Host.blank : Host := ⟨.blank, [], fun _ => none⟩

theorem reach_blank {starts : Gateway → Prop} {ok : Host → Op → Prop} (h : starts .blank) :
    Reach (hostSystem starts) ok Host.blank :=
  .init ⟨h, fun _ => rfl, rfl, fun _ => rfl⟩

end Bluestone
