/-
# `Bluestone.Staging.Open` — `OpenFile`, one section at a time

`OpenStep` is `internal/vfs/filesystem.go`'s `OpenFile` with staging enabled.
The flags of the session are read once, without its lock, before the `Stat`
round trip; what is decided there is acted on several sections later.  The
failure paths are all here, with what `ReleaseSessionDiscardingIfEmpty` does after
a `Stat` or a download that fails.

The caches in front of `Stat` answer as the bucket does.
-/
import Bluestone.Staging.Path

namespace Bluestone

/-- What `Stat` reports for an object.  Without a stored creation time the
modification time stands in, and times that are not stored decode to defaults. -/
def Object.statAttributes (o : Object) (modTime atime mtime : Nat) : StagedAttributes :=
  { o.attributes with
    btime := if o.attributes.btime = 0 then modTime else o.attributes.btime
    atime := atime
    mtime := mtime }

namespace State

/-- `GetOrCreateSession` on a path with a session. -/
def reuseSession (s : State) (sid : Nat) : State :=
  { s with
    tombstone := false
    session := Function.update s.session sid
      { s.session sid with refCount := (s.session sid).refCount + 1 } }

/-- `GetOrCreateSession` on a path without one. -/
def createSession (s : State) (sidecarOk : Bool) : State :=
  { s with
    tombstone := false
    session := Function.update s.session s.nextSession (newWriteSession s.disk s.path sidecarOk).1
    nextSession := s.nextSession + 1
    listed := some s.nextSession
    disk := (newWriteSession s.disk s.path sidecarOk).2 }

/-- `ReleaseSession`: one reference of the listed session is given back. -/
def releaseSession (s : State) : State :=
  match s.listed with
  | none => s
  | some sid =>
    s.setSession sid { s.session sid with refCount := (s.session sid).refCount - 1 }

/-- The test of `ReleaseSessionDiscardingIfEmpty`, after the reference is given
back: no handle, not dirty, nothing staged. -/
def discardable (s : State) (sid : Nat) : Bool :=
  decide ((s.session sid).refCount = 0) && s.dirty.isNone && (s.session sid).hasNoStagedData

end State

/-- Where an open goes once the file is known to be there, or is settled. -/
def afterExists (fl : OpenFlags) (sid : Nat) : Task :=
  if fl.trunc then .opening fl (.truncate sid) else .handle sid

/-- Where an open goes when there is no file yet. -/
def afterMissing (fl : OpenFlags) (sid : Nat) : Task :=
  if fl.create then .opening fl (.creation sid) else afterExists fl sid

/-- Where an open goes once the attributes are seeded. -/
def afterSeed (fl : OpenFlags) (sid : Nat) : Task :=
  .opening fl (if fl.trunc then .truncate sid else .prefetch sid)

/-- A setter of attributes calls `persistAttributes` only if it set them. -/
def persistIf (changed : Bool) (sid : Nat) (next : Task) : Task :=
  if changed then .persist sid .copy next else next

theorem afterExists_at {P : Task → Prop} {fl : OpenFlags} {sid : Nat}
    (htrunc : P (.opening fl (.truncate sid))) (hhandle : P (.handle sid)) : P (afterExists fl sid) := by
  unfold afterExists
  split
  · exact htrunc
  · exact hhandle

theorem afterMissing_at {P : Task → Prop} {fl : OpenFlags} {sid : Nat}
    (hcreate : P (.opening fl (.creation sid))) (hexists : P (afterExists fl sid)) :
    P (afterMissing fl sid) := by
  unfold afterMissing
  split
  · exact hcreate
  · exact hexists

/-- One section of an open by thread `t`. -/
inductive OpenStep : State → Nat → Action → State → Prop
  /-- `HasPendingDelete`: an open that does not create fails on a tombstone. -/
  | begin {s t fl} : s.task t = .idle → (s.tombstone = true →
    fl.create = true) → OpenStep s t .internal (s.goto t (.opening fl (.lookup s.tombstone)))
  /-- `AcquireSession`, the only part of a read-only open that staging sees. -/
  | acquire {s t sid} : s.task t = .idle → s.tombstone = false → s.listed = some sid →
    OpenStep s t .internal ((s.setSession sid
    { s.session sid with refCount := (s.session sid).refCount + 1 }).goto t (.reading sid))
  | reuse {s t fl pd sid} :
    s.task t = .opening fl (.lookup pd) → s.listed = some sid →
    OpenStep s t .reusedSession ((s.reuseSession sid).goto t (.opening fl (.flags pd sid)))
  | create {s t fl pd sidecarOk} :
    s.task t = .opening fl (.lookup pd) → s.listed = none →
    OpenStep s t .newSession ((s.createSession sidecarOk).goto t (.opening fl (.flags pd s.nextSession)))
  | known {s t fl pd sid} :
    s.task t = .opening fl (.flags pd sid) → (s.session sid).existenceKnown = true →
    OpenStep s t .internal (s.goto t (afterExists fl sid))
  | unknown {s t fl pd sid} :
    s.task t = .opening fl (.flags pd sid) → (s.session sid).existenceKnown = false →
    OpenStep s t .internal (s.goto t (.opening fl (.stat pd sid)))
  | statFound {s t fl sid o}
    {modTime atime mtime : Nat} : s.task t = .opening fl (.stat false sid) → s.object = some o →
    OpenStep s t .internal (s.goto t (.opening fl (.seed sid (o.statAttributes modTime atime mtime))))
  | statMissing {s t fl pd sid} :
    s.task t = .opening fl (.stat pd sid) → (s.object = none ∨ pd = true) →
    OpenStep s t .internal (s.goto t (afterMissing fl sid))
  /-- The object store cannot answer and the open would keep the content. -/
  | statError {s t fl sid} :
    s.task t = .opening fl (.stat false sid) → fl.trunc = false →
    OpenStep s t .internal (s.goto t (.opening fl (.refuse sid)))
  | statErrorTrunc {s t fl pd sid} :
    s.task t = .opening fl (.stat pd sid) → (fl.trunc = true ∨ pd = true) →
    OpenStep s t .assumedAbsent (s.goto t (afterMissing fl sid))
  | seed {s t fl sid attrs} :
    s.task t = .opening fl (.seed sid attrs) →
    OpenStep s t .seeded ((s.setSession sid ((s.session sid).seedAttributes attrs)).goto t
    (persistIf (!(s.session sid).attributesSet) sid (afterSeed fl sid)))
  | prefetched {s t fl sid} :
    s.task t = .opening fl (.prefetch sid) → (s.session sid).prefetched = true →
    OpenStep s t .internal (s.goto t (.handle sid))
  | fetched {s t fl sid o ws}
    {d : Disk} : s.task t = .opening fl (.prefetch sid) → (s.session sid).prefetched = false →
    s.object = some o → (s.session sid).prefetch s.disk o.content .complete = some (ws, d, true) →
    OpenStep s t (.fetch .complete) (((s.setSession sid ws).setDisk d).goto t (.handle sid))
  /-- A download that fails: refused, or broken off part-way. -/
  | fetchFailed {s t fl sid body how}
    {ws : WriteSession} {d : Disk} : s.task t = .opening fl (.prefetch sid) →
    (s.session sid).prefetched = false → (how = .refused ∨ ∃ o, s.object = some o ∧ body = o.content) →
    (s.session sid).prefetch s.disk body how = some (ws, d, false) → OpenStep s t (.fetch how)
    (((s.setSession sid ws).setDisk d).goto t (.opening fl (.refuse sid)))
  /-- Moving away from an upload failed: nothing was fetched. -/
  | fetchAbandoned {s t fl sid} :
    s.task t = .opening fl (.prefetch sid) → (s.session sid).prefetched = false →
    OpenStep s t .internal (s.goto t (.opening fl (.refuse sid)))
  | creation {s t fl sid now} :
    s.task t = .opening fl (.creation sid) →
    OpenStep s t .created ((s.setSession sid ((s.session sid).setCreationIfUnset now fl.perm)).goto t
    (persistIf (!(s.session sid).attributesSet) sid (afterExists fl sid)))
  | truncate {s t fl sid ws d} :
    s.task t = .opening fl (.truncate sid) → (s.session sid).truncate s.disk 0 = some (ws, d) →
    OpenStep s t (.truncate 0) (((s.setSession sid ws).setDisk d).goto t (.marking sid true .again))
  /-- The open fails without giving its reference back. -/
  | truncateFailed {s t fl sid} :
    s.task t = .opening fl (.truncate sid) → OpenStep s t .internal (s.goto t .idle)
  | refuseKept {s t fl sid} :
    s.task t = .opening fl (.refuse sid) → (∀ sid', s.listed = some sid' →
    s.releaseSession.discardable sid' = false) → OpenStep s t .internal (s.releaseSession.goto t .idle)
  | refuseDiscard {s t fl sid sid'} :
    s.task t = .opening fl (.refuse sid) → s.listed = some sid' →
    s.releaseSession.discardable sid' = true →
    OpenStep s t .internal ({ s.releaseSession with listed := none }.goto t (.discarding sid' .close))
  | discardClose {s t sid} : s.task t = .discarding sid .close → OpenStep s t .internal
    ((s.setSession sid { s.session sid with file := none }).goto t (.discarding sid .removeData))
  | discardData {s t sid} : s.task t = .discarding sid .removeData →
    OpenStep s t .internal
    ((s.setDisk { s.disk with dataFile := none }).goto t (.discarding sid .removeSidecar))
  | discardSidecar {s t sid} : s.task t = .discarding sid .removeSidecar →
    OpenStep s t .internal ((s.setDisk { s.disk with sidecar := none }).goto t .idle)
  | release {s t sid} : s.task t = .releasing sid →
    OpenStep s t .internal (s.releaseSession.goto t .idle)

end Bluestone
