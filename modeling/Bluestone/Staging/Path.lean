/-
# `Bluestone.Staging.Path` — everything the gateway keeps about one path

`State` is the slice of the gateway that one path uses: its object in the
bucket, its entry in the dirty index, its tombstone, its listed session, its
files on the local disk, and the threads working on it.  The dirty index hands
out generations from one counter for all paths; here the counter is a field, and
the steps of other paths are steps that only advance it (`Action.elsewhere`).

`Task` is where a thread stands between two lock sections or requests, function
by function: `OpenPc` is `OpenFile`, `MarkPc` is `MarkDirty` and `markPathDirty`,
`SyncPc` is one turn of `processDirtyFiles` with `syncFileLocked`, and so on.  A
step is one section: what a thread read earlier it carries in its task, and may
be stale.

Left out: conflicts, which only a writer outside the gateway causes, the
observed-object fields of entries and sidecars, and the clock.
-/
import Bluestone.Staging.Session

namespace Bluestone

/-- An object in the bucket: its bytes and the attributes its metadata decodes
to. -/
structure Object where
  content : Bytes
  attributes : StagedAttributes
  deriving DecidableEq, Repr

/-- The entry of a dirty path.  `recorded` says that its sidecar was on disk
when the entry was last recorded. -/
structure DirtyFileMetadata where
  generation : Nat
  recorded : Bool
  deriving DecidableEq, Repr

/-- The flags of a writable open.  `perm` is the mode asked for. -/
structure OpenFlags where
  create : Bool
  trunc : Bool
  perm : UInt32
  deriving DecidableEq, Repr

/-- Where a writable `OpenFile` stands. -/
inductive OpenPc
  /-- The pending delete has been read; `GetOrCreateSession` is next. -/
  | lookup (pendingDelete : Bool)
  /-- The session is held; its flags are read next, without its lock. -/
  | flags (pendingDelete : Bool) (sid : Nat)
  /-- Existence is not known: the object store is asked. -/
  | stat (pendingDelete : Bool) (sid : Nat)
  | seed (sid : Nat) (attrs : StagedAttributes)
  | prefetch (sid : Nat)
  | creation (sid : Nat)
  | truncate (sid : Nat)
  /-- The open fails and `ReleaseSessionDiscardingIfEmpty` is next. -/
  | refuse (sid : Nat)
  deriving DecidableEq, Repr

/-- Where `ReleaseSessionDiscardingIfEmpty` stands once it has unlisted the
session: its files are removed after the manager's lock is released. -/
inductive DiscardPc
  | close
  | removeData
  | removeSidecar
  deriving DecidableEq, Repr

/-- Where a change stands between the session and the dirty index. -/
inductive MarkPc
  | again
  | lookup
  | attrs (found : Option Nat)
  | record (found : Option Nat) (attrs : Option StagedAttributes)
  deriving DecidableEq, Repr

/-- Where `persistSessionAttributes` stands. -/
inductive PersistPc
  | copy
  | write (attrs : StagedAttributes)
  | changed
  deriving DecidableEq, Repr

/-- An upload snapshot, with the dirty generation read before it was opened. -/
structure Snapshot where
  sid : Nat
  file : Nat
  size : Nat
  fileGeneration : Nat
  generation : Nat
  deriving DecidableEq, Repr

/-- Where a worker stands in one turn of `processDirtyFiles`. -/
inductive SyncPc
  /-- The claim is taken; `IsDirty` is asked next. -/
  | check
  /-- Waiting for the object lock. -/
  | waiting
  | pending
  | lookup
  | stat
  | recover (size : Nat)
  | forget
  | generation (sid : Nat)
  | snapshot (sid : Nat) (generation : Nat)
  | attributes (snap : Snapshot)
  | uploading (snap : Snapshot) (attrs : StagedAttributes) (landed : Bool)
  | finish (snap : Snapshot)
  | cleanup (snap : Snapshot)
  | closeRemoved (snap : Snapshot)
  | close (snap : Snapshot)
  | unlockObject
  | unlockFile
  deriving DecidableEq, Repr

/-- `posix.AttributeUpdate`: the fields a change sets. -/
structure AttributeUpdate where
  mode : Option UInt32 := none
  uid : Option UInt32 := none
  gid : Option UInt32 := none
  btime : Option Nat := none
  windowsAttributes : Option UInt32 := none
  streams : Option (List (String × Bytes)) := none
  atime : Option Nat := none
  mtime : Option Nat := none
  deriving DecidableEq, Repr

/-- One call `applyStagedUpdate` makes on the session.  The owner is read before
it is set, in a section of its own. -/
inductive Setter
  | mode (mode : UInt32)
  | readOwner (uid gid : Option UInt32)
  | owner (uid gid : UInt32)
  | btime (btime : Nat)
  | windowsAttributes (flags : UInt32)
  | streams (streams : List (String × Bytes))
  | times (atime mtime : Nat)
  deriving DecidableEq, Repr

/-- Where `setAttributes` stands. -/
inductive AttrPc
  | lookup (update : AttributeUpdate)
  | apply (sid : Nat) (todo : List Setter) (update : AttributeUpdate)
  | stat (update : AttributeUpdate)
  | head (update : AttributeUpdate)
  | put (update : AttributeUpdate) (attrs : StagedAttributes)
  deriving DecidableEq, Repr

/-- Where `CommitPath` stands.  `version` is what `syncToDisk` reported. -/
inductive CommitPc
  | lookup
  | flush (sid : Nat)
  | check (sid : Nat) (version : Nat)
  | metadata (sid : Nat) (version : Nat)
  | committed (sid : Nat) (version : Nat)
  deriving DecidableEq, Repr

/-- Where `Remove` of a file stands.  `inline` marks the branch that found the
path dirty, which deletes the object itself once the tombstone is registered;
the other registers a tombstone only after the object store refused. -/
inductive RemovePc
  | check
  | children
  | stat
  | statSession
  | statObject
  | start (registered : Bool)
  | delete (registered : Bool) (landed : Bool)
  | register (inline : Bool)
  | claim (inline : Bool)
  | discard (inline : Bool)
  | closeDiscarded (inline : Bool) (sid : Nat)
  | unlock (inline : Bool)
  | resolve
  | cleanupChildren
  | cleanupSession
  | cleanupDirty
  | cleanupSyncing
  | cleanupRemove
  | closeRemoved (sid : Nat)
  deriving DecidableEq, Repr

/-- Where a worker stands in one turn of `processPendingDeletes`. -/
inductive DeletePc
  /-- The claim is taken; the tombstone is asked again. -/
  | recheck
  | discard
  | closeRemoved (sid : Nat)
  | start
  | delete (landed : Bool)
  | resolve
  | unlock
  deriving DecidableEq, Repr

/-- Where a rename stands, seen from one of its two names. -/
inductive RenamePc
  /-- The path is the old name of a staged file. -/
  | sourceDirty
  | sourceStat
  | sourceMove
  | sourceTombstone
  | sourceSidecar
  | sourceRekey
  | sourceEntry
  | sourceClaim
  | sourceDelete (landed : Bool)
  | sourceResolve
  | sourceUnlock
  /-- The path is the new name of a staged file; `claimed` when a directory
  rename holds its claim. -/
  | targetCancel (claimed : Bool)
  | targetSidecar (claimed : Bool)
  | targetMove (claimed : Bool) (replaced : Option PathMetadataState)
  | targetRekey (claimed : Bool) (file : Nat)
  | targetEntry (claimed : Bool)
  | targetUnlock
  /-- The path is the new name of a file that is only in the bucket. -/
  | destinationDirty
  | destinationClaim
  | destinationForget
  | destinationCleanupDirty
  | destinationCleanupSyncing
  | destinationCleanupRemove
  | destinationClose (sid : Nat)
  | destinationUnlock
  | destinationCancel
  | destinationCopy
  deriving DecidableEq, Repr

/-- Where a copy onto the path stands.  `discarded` is the unwritten session it
took away, by size and attributes. -/
inductive CopyPc
  | session
  | dirty
  | claim
  | discard
  | dropEntry (sid : Nat)
  | close (sid : Nat)
  | removeData (discarded : Nat × StagedAttributes)
  | removeSidecar (discarded : Nat × StagedAttributes)
  | copy (claimed : Bool) (discarded : Option (Nat × StagedAttributes))
  | restore (discarded : Nat × StagedAttributes)
  | restoreMark (sid : Nat)
  | unlock
  deriving DecidableEq, Repr

/-- Where a thread stands. -/
inductive Task
  | idle
  | opening (flags : OpenFlags) (pc : OpenPc)
  /-- A failed open removing the files of the session it unlisted. -/
  | discarding (sid : Nat) (pc : DiscardPc)
  /-- A handle that may write. -/
  | handle (sid : Nat)
  /-- A handle of a read-only open. -/
  | reading (sid : Nat)
  /-- A change that has reached the session and not yet the dirty index.
  `opens` is true in a truncating open. -/
  | marking (sid : Nat) (opens : Bool) (pc : MarkPc)
  /-- A truncating open whose change was not recorded, about to release. -/
  | releasing (sid : Nat)
  /-- A call of `persistAttributes` that returns to `next`. -/
  | persist (sid : Nat) (pc : PersistPc) (next : Task)
  | syncing (pc : SyncPc)
  | setting (pc : AttrPc)
  | committing (pc : CommitPc)
  | removing (pc : RemovePc)
  | deleting (pc : DeletePc)
  | renaming (pc : RenamePc)
  | copying (pc : CopyPc)
  deriving DecidableEq, Repr

/-- The slice of the gateway that one path uses. -/
structure State where
  path : String
  object : Option Object
  objectLock : Option Nat
  dirty : Option DirtyFileMetadata
  syncing : Bool
  generation : Nat
  tombstone : Bool
  listed : Option Nat
  session : Nat → WriteSession
  nextSession : Nat
  disk : Disk
  task : Nat → Task

/-- What a step does, as far as a property speaks about it.  `internal` is every
other step. -/
inductive Action
  | elsewhere
  | internal
  /-- A `Stat` the object store could not answer counts as "no such file". -/
  | assumedAbsent
  /-- `GetOrCreateSession` answers an open with the listed session. -/
  | reusedSession
  /-- `GetOrCreateSession` answers an open with a new session. -/
  | newSession
  /-- A prefetch runs its download. -/
  | fetch (how : Download)
  | write (offset : Nat) (data : Bytes)
  | truncate (size : Nat)
  /-- `MarkDirty` returned nil. -/
  | accepted
  /-- `MarkDirty` listed the path and returned an error. -/
  | refused
  | seeded
  | created
  | persisted
  | lockObject
  | snapshot
  | landed
  /-- `markCleanIfUnchanged` reported the upload stands. -/
  | synced
  | cleaned
  | forgot
  | attributesBegun (update : AttributeUpdate)
  | setter
  | attributesSet (update : AttributeUpdate)
  | objectUpdated
  | committed
  | removeBegun
  /-- `Remove` returned nil. -/
  | removed
  | tombstoned
  | discarded
  | deleteStarted
  | deleteLanded
  | resolved
  | lockFile
  | unlockFile
  deriving DecidableEq, Repr

namespace State

/-- Thread `t` moves to `task`. -/
def goto (s : State) (t : Nat) (task : Task) : State :=
  { s with task := Function.update s.task t task }

/-- The session `sid` becomes `ws`. -/
def setSession (s : State) (sid : Nat) (ws : WriteSession) : State :=
  { s with session := Function.update s.session sid ws }

/-- The local disk becomes `d`. -/
def setDisk (s : State) (d : Disk) : State := { s with disk := d }

end State

end Bluestone
