/-
# `Bluestone.Staging.Attributes` — attribute changes and commits

`AttrStep` is `setAttributes` with its two ways to go: on a path with a session
every field set is one call on the session, each followed by
`persistAttributes`; on a path without one the object's metadata is read, merged
and replaced.  Neither marks the path dirty.

`CommitStep` is `CommitPath` as far as a crash of the process can tell: the
sidecar is written again when it is missing, and marked committed.
-/
import Bluestone.Staging.Sync

namespace Bluestone

/-- `applyStagedUpdate`: the calls made on the session, in order. -/
def applyStagedUpdate (update : AttributeUpdate) : List Setter :=
  update.mode.toList.map .mode ++
  (if update.uid.isSome || update.gid.isSome then [.readOwner update.uid update.gid] else []) ++
  update.btime.toList.map .btime ++
  update.windowsAttributes.toList.map (fun flags => .windowsAttributes (flags &&& windowsAttributesStored)) ++
  update.streams.toList.map .streams ++
  (if update.atime.isSome || update.mtime.isSome then
    [.times (update.atime.getD 0) (update.mtime.getD 0)] else [])

/-- The change one setter makes under the session's lock.  Zero times are left
alone. -/
def Setter.change (attrs : StagedAttributes) : Setter → StagedAttributes
  | .mode m => { attrs with mode := m }
  | .readOwner _ _ => attrs
  | .owner u g => { attrs with uid := u, gid := g }
  | .btime b => { attrs with btime := b }
  | .windowsAttributes flags => { attrs with windowsAttributes := flags }
  | .streams named => { attrs with streams := named }
  | .times accessed modified =>
    { attrs with
      atime := if accessed = 0 then attrs.atime else accessed
      mtime := if modified = 0 then attrs.mtime else modified }

/-- Whether a call of `applyStagedUpdate` only reads. -/
def Setter.reads : Setter → Bool
  | .readOwner _ _ => true
  | _ => false

/-- `AttributeUpdate.Apply` on the attributes an object's metadata decodes to. -/
def AttributeUpdate.apply (update : AttributeUpdate) (attrs : StagedAttributes) : StagedAttributes :=
  { mode := update.mode.getD attrs.mode
    uid := update.uid.getD attrs.uid
    gid := update.gid.getD attrs.gid
    btime := update.btime.getD attrs.btime
    windowsAttributes :=
      (update.windowsAttributes.map (· &&& windowsAttributesStored)).getD attrs.windowsAttributes
    streams := update.streams.getD attrs.streams
    atime := update.atime.getD attrs.atime
    mtime := update.mtime.getD attrs.mtime }

/-- One section of an attribute change. -/
inductive AttrStep : State → Nat → Action → State → Prop
  | begin {s t update} : s.task t = .idle →
    AttrStep s t (.attributesBegun update) (s.goto t (.setting (.lookup update)))
  | staged {s t sid update} : s.task t = .setting (.lookup update) →
    s.listed = some sid →
    AttrStep s t .internal (s.goto t (.setting (.apply sid (applyStagedUpdate update) update)))
  | unstaged {s t update} : s.task t = .setting (.lookup update) →
    s.listed = none → AttrStep s t .internal (s.goto t (.setting (.stat update)))
  | readOwner {s t sid uid gid todo}
    {update : AttributeUpdate} : s.task t = .setting (.apply sid (.readOwner uid gid :: todo) update) →
    AttrStep s t .internal (s.goto t (.setting (.apply sid (.owner (uid.getD (s.session sid).attrs.uid)
    (gid.getD (s.session sid).attrs.gid) :: todo) update)))
  | setter {s t sid call todo update} :
    s.task t = .setting (.apply sid (call :: todo) update) → call.reads = false → AttrStep s t .setter
    ((s.setSession sid ((s.session sid).setAttributes (call.change (s.session sid).attrs))).goto t
    (.persist sid .copy (.setting (.apply sid todo update))))
  | stagedDone {s t sid update} :
    s.task t = .setting (.apply sid [] update) → AttrStep s t (.attributesSet update) (s.goto t .idle)
  | stat {s t update} : s.task t = .setting (.stat update) →
    s.object.isSome = true → AttrStep s t .internal (s.goto t (.setting (.head update)))
  | head {s t update o} :
    s.task t = .setting (.head update) → s.object = some o →
    AttrStep s t .internal (s.goto t (.setting (.put update (update.apply o.attributes))))
  | put {s t update attrs o} :
    s.task t = .setting (.put update attrs) → s.object = some o → AttrStep s t (.attributesSet update)
    ({ s with object := some { o with attributes := encodePOSIXAttributes attrs } }.goto t .idle)
  /-- A request that fails ends the change with an error. -/
  | failed {s t pc update} : s.task t = .setting pc →
    (pc = .stat update ∨ pc = .head update ∨ ∃ attrs, pc = .put update attrs) →
    AttrStep s t .internal (s.goto t .idle)

namespace State

/-- `syncToDisk`'s answer: the version still to commit, zero when there is none. -/
def uncommitted (s : State) (sid : Nat) : Nat :=
  let ws := s.session sid
  if ws.metadataVersion = ws.committedMetadataVersion then 0 else ws.metadataVersion

/-- `sidecarMissing`. -/
def sidecarMissing (s : State) : Bool := s.disk.sidecar.isNone && s.dirty.isSome

/-- `commitPathMetadata` when every write succeeds. -/
def commitPathMetadata (s : State) (sid : Nat) : State :=
  match s.disk.sidecar with
  | some state =>
    if state.committed then s
    else s.setDisk (s.disk.writePathMetadataState { state with committed := true })
  | none =>
    if s.dirty.isNone then s
    else
      s.setDisk (s.disk.writePathMetadataState ⟨s.path, (s.session sid).attributesIfSet, true⟩)

/-- `metadataCommitted`. -/
def metadataCommitted (s : State) (sid version : Nat) : State :=
  s.setSession sid { s.session sid with
    committedMetadataVersion := max version (s.session sid).committedMetadataVersion }

end State

/-- One section of a commit. -/
inductive CommitStep : State → Nat → Action → State → Prop
  | begin {s t} : s.task t = .idle →
    CommitStep s t .internal (s.goto t (.committing .lookup))
  | nothing {s t} : s.task t = .committing .lookup → s.listed = none →
    CommitStep s t .committed (s.goto t .idle)
  | found {s t sid} : s.task t = .committing .lookup → s.listed = some sid →
    CommitStep s t .internal (s.goto t (.committing (.flush sid)))
  | closed {s t sid} : s.task t = .committing (.flush sid) →
    (s.session sid).file = none → CommitStep s t .committed (s.goto t .idle)
  | flushed {s t sid} : s.task t = .committing (.flush sid) →
    (s.session sid).file.isSome = true →
    CommitStep s t .internal (s.goto t (.committing (.check sid (s.uncommitted sid))))
  | upToDate {s t sid} : s.task t = .committing (.check sid 0) →
    s.sidecarMissing = false → CommitStep s t .committed (s.goto t .idle)
  | needed {s t sid version} : s.task t = .committing (.check sid version) →
    (version ≠ 0 ∨ s.sidecarMissing = true) →
    CommitStep s t .internal (s.goto t (.committing (.metadata sid version)))
  | metadata {s t sid version} : s.task t = .committing (.metadata sid version) →
    CommitStep s t .internal ((s.commitPathMetadata sid).goto t (.committing (.committed sid version)))
  | committed {s t sid version} : s.task t = .committing (.committed sid version) →
    CommitStep s t .committed ((s.metadataCommitted sid version).goto t .idle)
  | failed {s t pc} : s.task t = .committing pc →
    CommitStep s t .internal (s.goto t .idle)

end Bluestone
