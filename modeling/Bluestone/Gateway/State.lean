/-
# `Bluestone.Gateway.State` — the gateway with all its paths

`Gateway` keeps for every path what `State` keeps for one.  Sessions and file
bytes are shared, as in the source: several handles and the manager's map point to
a session, and a staging file can change its name.

`Gateway.slice` is the part one path uses, with nobody at work on it, and
`Gateway.on` runs an operation of `State` there; so the operations on several
paths are built from those on one.

A tombstone is on disk and in memory together.  Both change under one lock, and
a crash forgets the one in memory.
-/
import Bluestone.Staging.Crash
import Bluestone.Staging.Rename

namespace Bluestone

open Function (update update_of_ne)

/-- What the gateway and its bucket keep, by path. -/
structure Gateway where
  object : String → Option Object
  conflicted : String → Bool
  tombstone : String → Bool
  dirty : String → Option DirtyFileMetadata
  generation : Nat
  syncing : String → Bool
  listed : String → Option Nat
  session : Nat → WriteSession
  nextSession : Nat
  /-- `WriteSession.StagingPath`, as the path it is the staging file of. -/
  stagingOf : Nat → String
  inode : Nat → Bytes
  nextInode : Nat
  dataFile : String → Option Nat
  sidecar : String → Option PathMetadataState

namespace Gateway

/-- The local disk as far as `path` uses it. -/
def disk (g : Gateway) (path : String) : Disk :=
  ⟨g.inode, g.nextInode, g.dataFile path, g.sidecar path⟩

/-- What `path` uses, with nobody at work on it. -/
def slice (g : Gateway) (path : String) : State where
  path := path
  object := g.object path
  objectLock := none
  dirty := g.dirty path
  syncing := g.syncing path
  generation := g.generation
  tombstone := g.tombstone path
  listed := g.listed path
  session := g.session
  nextSession := g.nextSession
  disk := g.disk path
  task := fun _ => .idle

/-- What `path` uses becomes `s`. -/
def put (g : Gateway) (path : String) (s : State) : Gateway :=
  { g with
    object := update g.object path s.object
    tombstone := update g.tombstone path s.tombstone
    dirty := update g.dirty path s.dirty
    generation := s.generation
    syncing := update g.syncing path s.syncing
    listed := update g.listed path s.listed
    session := s.session
    nextSession := s.nextSession
    inode := s.disk.inode
    nextInode := s.disk.nextInode
    dataFile := update g.dataFile path s.disk.dataFile
    sidecar := update g.sidecar path s.disk.sidecar }

/-- An operation of one path. -/
def on (g : Gateway) (path : String) (f : State → State) : Gateway := g.put path (f (g.slice path))

/-- The gateway that starts after a crash, as far as `path` goes. -/
def recoverAt (g : Gateway) (path : String) : State := (g.slice path).recover (g.disk path)

/-- Nothing staged and an empty bucket. -/
def blank : Gateway where
  object := fun _ => none
  conflicted := fun _ => false
  tombstone := fun _ => false
  dirty := fun _ => none
  generation := 0
  syncing := fun _ => false
  listed := fun _ => none
  session := fun _ => (newWriteSession .blank "" false).1
  nextSession := 0
  stagingOf := fun _ => ""
  inode := fun _ => []
  nextInode := 0
  dataFile := fun _ => none
  sidecar := fun _ => none

/-- `bytes` are written to `path` through a new session, and the session is
released. -/
def stage (g : Gateway) (path : String) (bytes : Bytes) : Gateway :=
  { g.on path fun s =>
      let opened := s.createSession true
      match (opened.session s.nextSession).write opened.disk 0 bytes with
      | none => s
      | some (ws, d, _) =>
        ((opened.setSession s.nextSession { ws with refCount := 0 }).setDisk
          (d.recordDirtyPath path none)).markDirtyWithState true with
    stagingOf := update g.stagingOf g.nextSession path }

section
variable {g : Gateway} {path other : String} {f : State → State} {s : State}

theorem put_dirty_of_ne (h : other ≠ path) : (g.put path s).dirty other = g.dirty other :=
  update_of_ne h ..

theorem put_listed_of_ne (h : other ≠ path) : (g.put path s).listed other = g.listed other :=
  update_of_ne h ..

theorem put_tombstone_of_ne (h : other ≠ path) : (g.put path s).tombstone other = g.tombstone other :=
  update_of_ne h ..

end

end Gateway

end Bluestone
