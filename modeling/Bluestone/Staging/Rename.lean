/-
# `Bluestone.Staging.Rename` — renames and copies, seen from one name

`RenameStep` is what a rename does to one of its two names.  A staged source
goes through `RenameStagedPath`: its file moves away, it gets a tombstone, its
session and dirty entry are re-keyed, and the rename deletes the old object itself
if nobody claims the old name.  The new name gets the file, session and entry; a
directory rename claims it meanwhile.  The new name of a file that is only in the
bucket has its own staged state discarded.

`CopyStep` is what `copyFile` does to its destination: an unwritten session is
taken away with `DropEntry`, which leaves the claim alone, and put back when the
copy fails.

What comes from the other name (bytes, attributes, a session) is arbitrary here.
`namespaceSystem` is the path with every actor and the namespace operations named.
-/
import Bluestone.Staging.Recovery
import Bluestone.Staging.Remove

namespace Bluestone

open Runs

namespace State

/-- `DropEntry`. -/
def dropEntry (s : State) : State := { s with dirty := none }

/-- `dropEntryWithoutStagedBytes`: the claim stays. -/
def dropEntryWithoutStagedBytes (s : State) : State :=
  { s.dropEntry with disk := { s.disk with sidecar := none } }

/-- `Invalidate`. -/
def invalidate (s : State) : State :=
  match s.dirty with
  | none => s
  | some entry =>
    { s with
      dirty := some { entry with generation := s.generation + 1 }
      generation := s.generation + 1 }

/-- The staged file of another name moves here. -/
def moveOnto (s : State) (bytes : Bytes) : State :=
  { s with
    disk := { s.disk with
      inode := Function.update s.disk.inode s.disk.nextInode bytes
      nextInode := s.disk.nextInode + 1
      dataFile := some s.disk.nextInode } }

/-- The session of another name is re-keyed to this one, and the session that was
here is closed. -/
def rekeySession (s : State) (moved : Option WriteSession) : State :=
  let s1 := match s.listed with
    | none => s
    | some sid => s.setSession sid { s.session sid with dirty := false, file := none }
  match moved with
  | none => { s1 with listed := none }
  | some ws =>
    { s1 with
      session := Function.update s1.session s1.nextSession ws
      nextSession := s1.nextSession + 1
      listed := some s1.nextSession }

/-- `RestoreUnwrittenSession` on a path without a session. -/
def restoreSession (s : State) (discarded : Nat × StagedAttributes) (sidecarOk : Bool) : State :=
  let created := newWriteSession s.disk s.path sidecarOk
  let ws : WriteSession :=
    { created.1.setAttributes discarded.2 with
      size := discarded.1, dirty := true, refCount := 0 }
  { s with
    session := Function.update s.session s.nextSession ws
    nextSession := s.nextSession + 1
    listed := some s.nextSession
    disk := match ws.file with
      | none => created.2
      | some f => created.2.setInode f (Extents.resize 0 (created.2.inode f) discarded.1) }

end State

/-- Where a rename onto the path goes when it is done with it. -/
def afterTarget (claimed : Bool) : Task := if claimed then .renaming .targetUnlock else .idle

/-- One section of a rename by thread `t`. -/
inductive RenameStep : State → Nat → Action → State → Prop
  /-- A source whose delete was accepted no longer exists. -/
  | sourceBegin {s t} : s.task t = .idle → s.tombstone = false →
    RenameStep s t .internal (s.goto t (.renaming .sourceDirty))
  | sourceDirty {s t} : s.task t = .renaming .sourceDirty → s.dirty.isSome = true →
    RenameStep s t .internal (s.goto t (.renaming .sourceStat))
  /-- The source is only in the bucket: nothing of it is staged. -/
  | sourceClean {s t} : s.task t = .renaming .sourceDirty → s.dirty = none →
    RenameStep s t .internal (s.goto t .idle)
  | sourceMissing {s t} : s.task t = .renaming .sourceStat → s.disk.dataFile = none →
    RenameStep s t .internal (s.dropEntryWithoutStagedBytes.goto t .idle)
  | sourceStat {s t f} : s.task t = .renaming .sourceStat → s.disk.dataFile = some f →
    RenameStep s t .internal (s.goto t (.renaming .sourceMove))
  | sourceMoved {s t f} : s.task t = .renaming .sourceMove → s.disk.dataFile = some f →
    RenameStep s t .internal
    ((s.setDisk { s.disk with dataFile := none }).goto t (.renaming .sourceTombstone))
  /-- A sync cleaned up in between. -/
  | sourceGone {s t} : s.task t = .renaming .sourceMove → s.disk.dataFile = none →
    RenameStep s t .internal (s.dropEntryWithoutStagedBytes.goto t .idle)
  | sourceMoveFailed {s t} : s.task t = .renaming .sourceMove →
    RenameStep s t .internal (s.goto t .idle)
  | sourceTombstone {s t} : s.task t = .renaming .sourceTombstone →
    RenameStep s t .tombstoned ({ s with tombstone := true }.goto t (.renaming .sourceSidecar))
  | sourceTombstoneFailed {s t} : s.task t = .renaming .sourceTombstone →
    RenameStep s t .internal (s.goto t (.renaming .sourceSidecar))
  | sourceSidecar {s t} : s.task t = .renaming .sourceSidecar →
    RenameStep s t .internal ((s.setDisk { s.disk with sidecar := none }).goto t (.renaming .sourceRekey))
  | sourceRekey {s t} : s.task t = .renaming .sourceRekey →
    RenameStep s t .internal ({ s with listed := none }.goto t (.renaming .sourceEntry))
  /-- `Rekey`, in a directory rename, whose old names are left to the worker. -/
  | sourceEntry {s t} : s.task t = .renaming .sourceEntry →
    RenameStep s t .internal (s.dropEntry.goto t .idle)
  | sourceEntryInline {s t} : s.task t = .renaming .sourceEntry →
    RenameStep s t .internal (s.dropEntry.goto t (.renaming .sourceClaim))
  | sourceDeferred {s t} : s.task t = .renaming .sourceClaim → s.syncing = true →
    RenameStep s t .internal (s.goto t .idle)
  | sourceClaim {s t} : s.task t = .renaming .sourceClaim → s.syncing = false →
    RenameStep s t .lockFile (s.lockFile.goto t (.renaming (.sourceDelete false)))
  | sourceLanded {s t before} : s.task t = .renaming (.sourceDelete before) →
    RenameStep s t .deleteLanded ({ s with object := none }.goto t (.renaming (.sourceDelete true)))
  | sourceDeleteFailed {s t before} :
    s.task t = .renaming (.sourceDelete before) →
    RenameStep s t .internal (s.goto t (.renaming .sourceUnlock))
  | sourceDeleted {s t} : s.task t = .renaming (.sourceDelete true) →
    RenameStep s t .internal (s.goto t (.renaming .sourceResolve))
  | sourceResolve {s t} : s.task t = .renaming .sourceResolve →
    RenameStep s t .resolved ({ s with tombstone := false }.goto t (.renaming .sourceUnlock))
  | sourceUnlock {s t} : s.task t = .renaming .sourceUnlock →
    RenameStep s t .unlockFile (s.unlockFile.goto t .idle)
  | targetBegin {s t} : s.task t = .idle →
    RenameStep s t .internal (s.goto t (.renaming (.targetCancel false)))
  /-- A directory rename claims the new names of its staged files. -/
  | targetClaim {s t} : s.task t = .idle → s.syncing = false →
    RenameStep s t .lockFile (s.lockFile.goto t (.renaming (.targetCancel true)))
  | targetCancel {s t claimed} : s.task t = .renaming (.targetCancel claimed) →
    RenameStep s t .internal ({ s with tombstone := false }.goto t (.renaming (.targetSidecar claimed)))
  | targetSidecar {s t claimed committed attrs} :
    s.task t = .renaming (.targetSidecar claimed) → RenameStep s t .internal
    ((s.invalidate.setDisk (s.disk.writePathMetadataState ⟨s.path, attrs, committed⟩)).goto t
    (.renaming (.targetMove claimed s.disk.sidecar)))
  | targetSidecarFailed {s t claimed} :
    s.task t = .renaming (.targetSidecar claimed) →
    RenameStep s t .internal (s.invalidate.goto t (afterTarget claimed))
  | targetMoved {s t claimed replaced}
    {bytes : Bytes} : s.task t = .renaming (.targetMove claimed replaced) →
    RenameStep s t .internal ((s.moveOnto bytes).goto t (.renaming (.targetRekey claimed s.disk.nextInode)))
  /-- `restorePathMetadata` takes the intent back. -/
  | targetMoveFailed {s t claimed replaced} :
    s.task t = .renaming (.targetMove claimed replaced) →
    RenameStep s t .internal ((s.setDisk { s.disk with sidecar := replaced }).goto t (afterTarget claimed))
  | targetRekey {s t f claimed moved} :
    s.task t = .renaming (.targetRekey claimed f) → (∀ ws, moved = some ws → ws.file = some f) →
    RenameStep s t .internal ((s.rekeySession moved).goto t (.renaming (.targetEntry claimed)))
  | targetEntry {s t claimed} : s.task t = .renaming (.targetEntry claimed) →
    RenameStep s t .internal ((s.markDirtyWithState true).goto t (afterTarget claimed))
  | targetUnlock {s t} : s.task t = .renaming .targetUnlock →
    RenameStep s t .unlockFile (s.unlockFile.goto t .idle)
  | destinationBegin {s t} : s.task t = .idle →
    RenameStep s t .internal (s.goto t (.renaming .destinationDirty))
  | destinationClean {s t} : s.task t = .renaming .destinationDirty → s.dirty = none →
    RenameStep s t .internal (s.goto t (.renaming .destinationCancel))
  | destinationDirty {s t} : s.task t = .renaming .destinationDirty →
    s.dirty.isSome = true → RenameStep s t .internal (s.goto t (.renaming .destinationClaim))
  | destinationBusy {s t} : s.task t = .renaming .destinationClaim → s.syncing = true →
    RenameStep s t .internal (s.goto t .idle)
  | destinationClaim {s t} : s.task t = .renaming .destinationClaim → s.syncing = false →
    RenameStep s t .lockFile (s.lockFile.goto t (.renaming .destinationForget))
  | destinationForget {s t} : s.task t = .renaming .destinationForget →
    RenameStep s t .forgot (s.dropDirtyEntry.goto t (.renaming .destinationCleanupDirty))
  | destinationCleanupClean {s t} : s.task t = .renaming .destinationCleanupDirty →
    s.dirty = none → RenameStep s t .internal (s.goto t (.renaming .destinationCleanupRemove))
  | destinationCleanupDirty {s t} : s.task t = .renaming .destinationCleanupDirty →
    s.dirty.isSome = true → RenameStep s t .internal (s.goto t (.renaming .destinationCleanupSyncing))
  | destinationCleanupRefused {s t} : s.task t = .renaming .destinationCleanupSyncing →
    s.syncing = true → RenameStep s t .internal (s.goto t (.renaming .destinationUnlock))
  | destinationCleanupIdle {s t} : s.task t = .renaming .destinationCleanupSyncing →
    s.syncing = false → RenameStep s t .internal (s.goto t (.renaming .destinationCleanupRemove))
  | destinationCleanupNothing {s t} : s.task t = .renaming .destinationCleanupRemove →
    (s.listed = none ∨ s.MovedAway) → RenameStep s t .internal (s.goto t (.renaming .destinationUnlock))
  | destinationCleanupRemove {s t sid} : s.task t = .renaming .destinationCleanupRemove →
    s.listed = some sid → ¬ s.MovedAway →
    RenameStep s t .discarded (s.removeSession.goto t (.renaming (.destinationClose sid)))
  | destinationClose {s t sid} : s.task t = .renaming (.destinationClose sid) →
    RenameStep s t .internal ((s.closeSession sid).goto t (.renaming .destinationUnlock))
  | destinationUnlock {s t} : s.task t = .renaming .destinationUnlock →
    RenameStep s t .unlockFile (s.unlockFile.goto t (.renaming .destinationCancel))
  | destinationCancel {s t} : s.task t = .renaming .destinationCancel →
    RenameStep s t .internal ({ s with tombstone := false }.goto t (.renaming .destinationCopy))
  /-- `RenameFile` copies the source's object here. -/
  | destinationCopied {s t o} : s.task t = .renaming .destinationCopy →
    RenameStep s t .landed ({ s with object := some o }.goto t (.renaming .destinationCopy))
  | destinationDone {s t} : s.task t = .renaming .destinationCopy →
    RenameStep s t .internal (s.goto t .idle)

/-- One section of a copy onto the path by thread `t`. -/
inductive CopyStep : State → Nat → Action → State → Prop
  /-- A pending delete would remove the copy. -/
  | begin {s t} : s.task t = .idle → s.tombstone = false →
    CopyStep s t .internal (s.goto t (.copying .session))
  | staged {s t sid} : s.task t = .copying .session → s.listed = some sid →
    CopyStep s t .internal (s.goto t (.copying .claim))
  | unstaged {s t} : s.task t = .copying .session → s.listed = none →
    CopyStep s t .internal (s.goto t (.copying .dirty))
  | dirty {s t} : s.task t = .copying .dirty → s.dirty.isSome = true →
    CopyStep s t .internal (s.goto t (.copying .claim))
  | clean {s t} : s.task t = .copying .dirty → s.dirty = none →
    CopyStep s t .internal (s.goto t (.copying (.copy false none)))
  | busy {s t} : s.task t = .copying .claim → s.syncing = true →
    CopyStep s t .internal (s.goto t .idle)
  | claim {s t} : s.task t = .copying .claim → s.syncing = false →
    CopyStep s t .lockFile (s.lockFile.goto t (.copying .discard))
  /-- A handle holds the session, or it holds written bytes. -/
  | discardRefused {s t} : s.task t = .copying .discard → (∀ sid, s.listed = some sid →
    0 < (s.session sid).refCount ∨ (s.session sid).holdsNoWrittenData = false) → (s.listed = none →
    s.dirty.isSome = true) → CopyStep s t .internal (s.goto t (.copying .unlock))
  | discardNothing {s t} : s.task t = .copying .discard → s.listed = none →
    s.dirty = none → CopyStep s t .internal (s.goto t (.copying (.copy true none)))
  | discard {s t sid} : s.task t = .copying .discard → s.listed = some sid →
    (s.session sid).refCount = 0 → (s.session sid).holdsNoWrittenData = true →
    CopyStep s t .internal ({ s with listed := none }.goto t (.copying (.dropEntry sid)))
  | dropEntry {s t sid} : s.task t = .copying (.dropEntry sid) →
    CopyStep s t .internal (s.dropEntry.goto t (.copying (.close sid)))
  | close {s t sid} : s.task t = .copying (.close sid) →
    CopyStep s t .internal ((s.closeSession sid).goto t
    (.copying (.removeData ((s.session sid).size, (s.session sid).attrs))))
  | removeData {s t discarded} :
    s.task t = .copying (.removeData discarded) → CopyStep s t .internal
    ((s.setDisk { s.disk with dataFile := none }).goto t (.copying (.removeSidecar discarded)))
  | removeSidecar {s t discarded} :
    s.task t = .copying (.removeSidecar discarded) → CopyStep s t .internal
    ((s.setDisk { s.disk with sidecar := none }).goto t (.copying (.copy true (some discarded))))
  | landed {s t claimed discarded}
    {o : Object} : s.task t = .copying (.copy claimed discarded) →
    CopyStep s t .landed ({ s with object := some o }.goto t (.copying (.copy claimed discarded)))
  | copied {s t claimed discarded} :
      s.task t = .copying (.copy claimed discarded) →
      CopyStep s t .internal (s.goto t (if claimed then .copying .unlock else .idle))
  | copyFailed {s t discarded} :
    s.task t = .copying (.copy true (some discarded)) →
    CopyStep s t .internal (s.goto t (.copying (.restore discarded)))
  /-- A session created since is newer and is kept. -/
  | restoreKept {s t sid discarded} :
    s.task t = .copying (.restore discarded) → s.listed = some sid →
    CopyStep s t .internal (s.goto t (.copying .unlock))
  | restore {s t discarded sidecarOk} :
    s.task t = .copying (.restore discarded) → s.listed = none → CopyStep s t .internal
    ((s.restoreSession discarded sidecarOk).goto t (.copying (.restoreMark s.nextSession)))
  | restoreFailed {s t discarded} :
    s.task t = .copying (.restore discarded) → CopyStep s t .internal (s.goto t (.copying .unlock))
  | restoreMark {s t sid} : s.task t = .copying (.restoreMark sid) →
    CopyStep s t .internal
    (((s.setDisk (s.disk.recordDirtyPath s.path (s.session sid).attributesIfSet)).markDirtyWithState
    true).goto t (.copying .unlock))
  | restoreMarkFailed {s t sid} : s.task t = .copying (.restoreMark sid) →
    CopyStep s t .internal ((s.markDirtyWithState false).goto t (.copying .unlock))
  | unlock {s t} : s.task t = .copying .unlock →
    CopyStep s t .unlockFile (s.unlockFile.goto t .idle)

/-- The thread renames another file onto the path: `renameTargets` counts it. -/
def Task.movesOnto : Task → Bool
  | .renaming (.targetCancel _) | .renaming (.targetSidecar _) | .renaming (.targetMove _ _)
  | .renaming (.targetRekey _ _) | .renaming (.targetEntry _) => true
  | _ => false

/-- A rename is moving a staged file away from the path or onto it, which keeps
`cleanupSyncedSession` off. -/
def State.Renaming (s : State) : Prop :=
  ∃ t, (s.task t).movesAway = true ∨ (s.task t).movesOnto = true

/-- Who changes the namespace. -/
inductive NameActor
  | removes
  | deletes
  | renames
  | copies
  deriving DecidableEq, Repr

/-- One step of the path with the namespace operations `names` at work on it. -/
inductive NameStep (names : NameActor → Prop) : State → Nat × Action → State → Prop
  | base {s s' t a} : Step everyone s (t, a) s' → (a = .cleaned →
    ¬ s.Renaming) → NameStep names s (t, a) s'
  | removes {s s' t a} : names .removes → RemoveStep s t a s' →
    NameStep names s (t, a) s'
  | deletes {s s' t a} : names .deletes → DeleteStep s t a s' →
    NameStep names s (t, a) s'
  | renames {s s' t a} : names .renames → RenameStep s t a s' →
    NameStep names s (t, a) s'
  | copies {s s' t a} : names .copies → CopyStep s t a s' →
    NameStep names s (t, a) s'

/-- One path with everyone at work on it and the given namespace operations. -/
def namespaceSystem (names : NameActor → Prop) : System State (Nat × Action) where
  init := Init
  step := NameStep names

section
variable {names : NameActor → Prop} {s s' : State} {t : Nat} {a : Action}

theorem OpenStep.named (h : OpenStep s t a s') : NameStep names s (t, a) s' :=
  .base (h.run) (by cases h <;> exact nofun)

theorem HandleStep.named (h : HandleStep s t a s') : NameStep names s (t, a) s' :=
  .base (h.run) (by cases h <;> exact nofun)

theorem MarkStep.named (h : MarkStep s t a s') : NameStep names s (t, a) s' :=
  .base (h.run) (by cases h <;> exact nofun)

theorem PersistStep.named (h : PersistStep s t a s') : NameStep names s (t, a) s' :=
  .base (h.run) (by cases h <;> exact nofun)

theorem SyncStep.named (h : SyncStep s t a s') (ha : a ≠ .cleaned := by decide) : NameStep names s (t, a) s' :=
  .base (h.run) fun hc => absurd hc ha

end

end Bluestone
