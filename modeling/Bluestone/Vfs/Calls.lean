/-
# `Bluestone.Vfs.Calls` — the calls of a client

The calls of `internal/vfs/filesystem.go` that `Gateway.Files` and
`Gateway.Namespace` leave out: reading, `Stat` and `ReadDir`, `MkdirAll`, the
removal of directories, attribute changes and copies inside the bucket.

Objects are named by path, so the key `k` is the path `/k` and the marker of a
directory is its path with a slash.  A call carries what the object store and the
clock answer it.

`Host.serve` is a call of a client, whose names a view resolves, a turn of the
sync worker, or a write of the lease by its manager.
-/
import Bluestone.Gateway.Elsewhere
import Bluestone.Vfs.Names
import Mathlib.Data.List.DropRight

namespace Bluestone

open Cuts Vfs

/-- What a call returns when it does not return nil. -/
inductive CallError
  | permission
  | notExist
  | unsupported
  | notEmpty
  | tooLarge
  | closed
  | backend
  | file (e : FileError)
  deriving DecidableEq, Repr

/-- What a client is told about a file. -/
structure FileInfo where
  name : Str
  isDir : Bool
  size : Nat
  attrs : StagedAttributes
  deriving DecidableEq, Repr

/-- `filepath.Base`. -/
def baseName (path : String) : Str := (path.toList.splitOn '/').getLast?.getD []

/-- `fs.Join` of a directory and a name. -/
def joinName (dir : String) (name : Str) : String := String.ofList (Paths.join dir.toList name)

/-- `ToFSPath`, which gives the marker of a directory the path of the directory. -/
def toFSPath (key : String) : String := String.ofList (Paths.render (Paths.clean key.toList))

/-- `ToDirectoryKey`, as a path. -/
def directoryKey (path : String) : String := path ++ "/"

/-- `DefaultAttributes` of a directory: mode `0755` with the directory bit. -/
def defaultDirAttributes : StagedAttributes := ⟨0o755 ||| 0x80000000, 1000, 1000, 0, 0, [], 0, 0⟩

/-! ## Listing -/

/-- Where a listing comes from. -/
inductive Listing
  | fresh
  | cached (entries : List FileInfo)
  | unreachable

/-- What a listing is made with. -/
structure ListFaults where
  listing : Listing := .fresh
  maxEntries : Nat := 1000
  modTime : Nat := 0
  atime : Nat := 0
  mtime : Nat := 0

namespace Gateway

/-- `isPendingDelete`. -/
def isPendingDelete (g : Gateway) (key : String) : Bool := g.tombstone (toFSPath key)

/-- `GetSession`. -/
def getSession (g : Gateway) (path : String) : Option Nat :=
  if g.conflicted path then none else g.listed path

/-- `stagedFileInfo`. -/
def stagedFileInfo (g : Gateway) (path : String) (sid : Nat) : FileInfo :=
  ⟨baseName path, false, (g.session sid).size, (g.session sid).attrs⟩

/-- The body of `ListDirectory`'s loop: the entry an object makes, if it is not the
marker of the directory. -/
def listedEntry (g : Gateway) (w : ListFaults) (dir key : String) : Option FileInfo :=
  (g.object key).bind fun o =>
    let relPath := (trimPrefix key (listPrefix dir)).toList
    let parts := ((relPath.dropWhile (· == '/')).rdropWhile (· == '/')).splitOn '/'
    if relPath = [] then none
    else some
      ⟨parts.head?.getD [], decide (1 < parts.length) || decide (relPath.getLast? = some '/'),
        o.content.length, o.statAttributes w.modTime w.atime w.mtime⟩

/-- Entries whose name was seen are skipped. -/
def distinct (seen : List Str) : List FileInfo → List FileInfo
  | [] => []
  | entry :: rest =>
    if entry.name ∈ seen then distinct seen rest else entry :: distinct (entry.name :: seen) rest

/-- `ListDirectory`; `known` are the objects in the bucket's order. -/
def listDirectory (g : Gateway) (known : List String) (w : ListFaults) (dir : String) :
    Except CallError (List FileInfo) :=
  let entries := match w.listing with
    | .unreachable => none
    | .cached entries => some entries
    | .fresh =>
      let objects := known.filter fun key => (g.object key).isSome && hasPrefix key (listPrefix dir)
      let shown := (objects.take (w.maxEntries + 2)).filter fun key => !g.isPendingDelete key
      some (distinct [] (shown.filterMap (g.listedEntry w dir)))
  match entries with
  | none => .error .backend
  | some entries => if w.maxEntries < entries.length then .error .tooLarge else .ok entries

/-- `GetSessionsInDirectory`, with the paths. -/
def sessionsInDirectory (g : Gateway) (known : List String) (dir : String) : List (String × Nat) :=
  known.filterMap fun path =>
    if hasPrefix path (listPrefix dir) && !(trimPrefix path (listPrefix dir)).toList.isEmpty &&
        !(trimPrefix path (listPrefix dir)).toList.contains '/' then
      (g.getSession path).map fun sid => (path, sid)
    else none

/-- The loop of `ReadDir` over the staged sessions. -/
def addStaged (g : Gateway) (result : List FileInfo) : List (String × Nat) → List FileInfo
  | [] => result
  | (path, sid) :: rest =>
    if g.tombstone path || (result.any fun entry => entry.name == baseName path) ||
        !(g.slice path).answersStat sid then
      addStaged g result rest
    else addStaged g (result ++ [g.stagedFileInfo path sid]) rest

/-- `ReadDir`. -/
def readDir (g : Gateway) (known : List String) (w : ListFaults) (dir : String) :
    Except CallError (List FileInfo) :=
  let sessions := g.sessionsInDirectory known dir
  match g.listDirectory known w dir with
  | .error e =>
    if sessions.isEmpty then .error e
    else .ok ((sessions.filter fun s => !g.tombstone s.1).map fun s => g.stagedFileInfo s.1 s.2)
  | .ok entries =>
    let result := entries.filter fun entry => !isReservedPath (joinName dir entry.name)
    let visible := result.filter fun entry => !g.tombstone (joinName dir entry.name)
    .ok (g.addStaged visible sessions)

/-! ## `Stat` -/

/-- `statFromStaging` of a path that has no session. -/
def impliedByStaged (g : Gateway) (known : List String) (path : String) : Bool :=
  ((g.sessionsInDirectory known path).any fun s => !g.tombstone s.1) ||
    known.any fun p => (g.dirty p).isSome && !g.tombstone p && (p == path || isDescendant path p)

/-- `statPath`. -/
def statInfo (g : Gateway) (known : List String) (w : CallFaults) (path : String) :
    Except CallError FileInfo :=
  if isReservedPath path || g.tombstone path then .error .notExist
  else match (g.getSession path).filter fun sid => (g.slice path).answersStat sid with
    | some sid => .ok (g.stagedFileInfo path sid)
    | none =>
      match statAnswer path (g.statObject path w.stat) with
      | .missing => .error .notExist
      | .file =>
        .ok ⟨baseName path, false, ((g.object path).map (·.content.length)).getD 0,
          g.statAttributes w path⟩
      | .directory =>
        .ok ⟨baseName path, true, 0,
          ((g.object (directoryKey path)).map (·.attributes)).getD defaultDirAttributes⟩
      | .unreachable =>
        match g.getSession path with
        | some sid => .ok (g.stagedFileInfo path sid)
        | none =>
          if g.impliedByStaged known path then
            .ok ⟨baseName path, true, 0, defaultDirAttributes⟩
          else .error .backend

/-- A read from the bucket. -/
def readObject (g : Gateway) (w : CallFaults) (path : String) (offset length : Nat) : Except CallError Bytes :=
  match g.statObject path w.stat, g.object path with
  | .file, some o => .ok ((o.content.drop offset).take length)
  | .unreachable, _ => .error .backend
  | _, _ => .error .notExist

/-- `File.ReadAt`.  When the staging file cannot be read the bucket is asked. -/
def readFile (g : Gateway) (w : CallFaults) (f : File) (offset length : Nat) : Except CallError Bytes :=
  if f.closed then .error .closed
  else match f.session with
    | some sid =>
      if w.change then g.readObject w f.path offset length
      else .ok ((((g.session sid).content (g.disk (g.stagingOf sid))).drop offset).take length)
    | none => g.readObject w f.path offset length

end Gateway

/-! ## Directories -/

/-- `mkdirAll`: the marker of the directory is put. -/
def mkdirAll (fails : Bool) (perm : UInt32) (now : Nat) (path : String) : Program Gateway CallError Unit :=
  if fails then .fail .backend
  else .step fun g =>
    { g with
      object := Function.update g.object (directoryKey path)
        (some ⟨[], encodePOSIXAttributes ⟨perm ||| 0x80000000, 1000, 1000, now, 0, [], 0, now⟩⟩) }

/-- `maxGoneEntryProbes`. -/
def maxGoneEntryProbes : Nat := 32

/-- `listedEntriesAreGone`. -/
def Gateway.listedEntriesAreGone (g : Gateway) (dir : String) (entries : List FileInfo) : Bool :=
  decide (entries.length ≤ maxGoneEntryProbes) && entries.all fun entry =>
    !entry.isDir && (g.object (listPrefix dir ++ String.ofList entry.name)).isNone

/-- `DeleteDirectory`. -/
def deleteDirectory (known : List String) (w : ListFaults) (fails : Bool) (path : String) :
    Program Gateway CallError Unit :=
  .read fun g =>
    match g.listDirectory known w path with
    | .error e => .fail e
    | .ok entries =>
      if !entries.isEmpty && !g.listedEntriesAreGone path entries then .fail .notEmpty
      else if fails then .fail .backend
      else .step fun g => { g with object := Function.update g.object (directoryKey path) none }

/-- The path is a directory, with nothing dirty in it. -/
def Gateway.isCleanDirectory (g : Gateway) (known : List String) (w : RemoveFaults) (path : String) : Bool :=
  (g.dirty path).isNone && (g.dirtyStagedChildren known path).isEmpty &&
    decide (statAnswer path (g.statPath path w.stat) = .directory)

/-- `remove` of a file or a directory. -/
def remove (known : List String) (w : RemoveFaults) (wl : ListFaults) (path : String) :
    Program Gateway CallError Unit :=
  if isReservedPath path then .fail .permission
  else .read fun g =>
    if g.isCleanDirectory known w path then deleteDirectory known wl w.delete path
    else do
      match ← (removeFile known w path).attempt with
      | .ok _ => .done ⟨⟩
      | .error e => .fail (.file e)

/-! ## Attributes -/

/-- The calls of `applyStagedUpdate`, each with its `persistAttributes`. -/
def applySetters (w : CallFaults) (sid : Nat) : List Setter → Program Gateway CallError Unit
  | [] => .done ⟨⟩
  | call :: rest =>
    .read fun g => do
      let attrs := (g.session sid).attrs
      let changed := match call with
        | .readOwner uid gid => { attrs with uid := uid.getD attrs.uid, gid := gid.getD attrs.gid }
        | call => call.change attrs
      .step (·.setSession sid ((g.session sid).setAttributes changed))
      .step (·.persistAttributes sid w.persist)
      applySetters w sid rest

/-- The metadata of an object is read, merged and replaced; the marker of a directory
that has none is put. -/
def updateObjectMetadata (fails isDir : Bool) (update : AttributeUpdate) (key : String) :
    Program Gateway CallError Unit :=
  .read fun g =>
    match g.object key with
    | none =>
      if !isDir then .fail .notExist
      else if fails then .fail .backend
      else .step fun g =>
        { g with
          object := Function.update g.object key
            (some ⟨[], encodePOSIXAttributes (update.apply defaultDirAttributes)⟩) }
    | some o =>
      if fails then .fail .backend
      else .step fun g =>
        { g with
          object := Function.update g.object key
            (some { o with attributes := encodePOSIXAttributes (update.apply o.attributes) }) }

/-- `UpdateAttributes`. -/
def updateAttributes (w : CallFaults) (update : AttributeUpdate) (path : String) :
    Program Gateway CallError Unit :=
  .read fun g =>
    match statAnswer path (g.statObject path w.stat) with
    | .missing => .fail .notExist
    | .unreachable => .fail .backend
    | .file => updateObjectMetadata w.change false update path
    | .directory => updateObjectMetadata w.change true update (directoryKey path)

/-- `setAttributes`. -/
def setAttributes (w : CallFaults) (update : AttributeUpdate) (path : String) :
    Program Gateway CallError Unit :=
  .read fun g =>
    match g.getSession path with
    | some sid => applySetters w sid (applyStagedUpdate update)
    | none => updateAttributes w update path

/-! ## Copies -/

/-- What goes wrong in a copy. -/
structure CopyFaults where
  /-- What `Stat` answers about the source. -/
  stat : Option BucketStat := none
  /-- The copy fails; `landed` when it took effect all the same. -/
  copy : Bool := false
  landed : Bool := false
  /-- The destination cannot be staged again, or not recorded. -/
  session : Bool := false
  sidecar : Bool := false
  record : Bool := false

/-- `DiscardUnwrittenSession`: none when it refuses, otherwise what it took away. -/
def discardUnwrittenSession (path : String) :
    Program Gateway CallError (Option (Option (Nat × StagedAttributes))) :=
  .read fun g =>
    match g.listed path with
    | none => .done (if (g.dirty path).isSome then none else some none)
    | some sid =>
      if decide (0 < (g.session sid).refCount) || !(g.session sid).holdsNoWrittenData then .done none
      else do
        .step (·.on path fun s => { s with listed := none })
        .step (·.on path State.dropEntry)
        .step (·.on path (·.closeSession sid))
        .step (·.removeFiles (g.stagingOf sid))
        .done (some (some ((g.session sid).size, (g.session sid).attrs)))

/-- `RestoreUnwrittenSession`. -/
def restoreUnwrittenSession (w : CopyFaults) (path : String) (discarded : Nat × StagedAttributes) :
    Program Gateway CallError Unit :=
  .read fun g =>
    if (g.listed path).isSome || w.session then .done ⟨⟩
    else do
      .step fun g =>
        { g.on path (·.restoreSession discarded !w.sidecar) with
          stagingOf := Function.update g.stagingOf g.nextSession path }
      if w.record then .step (·.on path (·.markDirtyWithState false))
      else .step (·.on path fun s =>
        (s.setDisk (s.disk.recordDirtyPath s.path
          (s.listed.bind fun sid => (s.session sid).attributesIfSet))).markDirtyWithState true)

/-- `CopyFile` of the bucket; the copy carries `attrs` when they are given. -/
def copyObject (w : CopyFaults) (attrs : Option StagedAttributes) (src dst : String) :
    Program Gateway CallError Unit :=
  .read fun g =>
    match statAnswer src (g.statObject src w.stat), g.object src with
    | .directory, _ => .fail .unsupported
    | .unreachable, _ => .fail .backend
    | .file, some o => do
        let copy : Object := { o with attributes := (attrs.map encodePOSIXAttributes).getD o.attributes }
        if !w.copy || w.landed then
          .step fun g => { g with object := Function.update g.object dst (some copy) }
          if w.copy then .fail .backend else .done ⟨⟩
        else .fail .backend
    | _, _ => .fail .notExist

/-- The copy onto a staged destination, under its sync claim. -/
def copyOverStaged (w : CopyFaults) (onlyUnwritten : Bool) (src dst : String) :
    Program Gateway CallError Unit := do
  .step (·.lockFile dst)
  match ← discardUnwrittenSession dst with
  | none => do
      .step (·.unlockFile dst)
      .fail .unsupported
  | some none =>
    if onlyUnwritten then do
      .step (·.unlockFile dst)
      .fail .unsupported
    else do
      let r ← (copyObject w none src dst).attempt
      .step (·.unlockFile dst)
      match r with
      | .ok _ => .done ⟨⟩
      | .error e => .fail e
  | some (some discarded) => do
      match ← (copyObject w (some discarded.2) src dst).attempt with
      | .ok _ => .step (·.unlockFile dst)
      | .error e => do
          restoreUnwrittenSession w dst discarded
          .step (·.unlockFile dst)
          .fail e

/-- `copyFile`. -/
def copyFile (w : CopyFaults) (onlyUnwritten : Bool) (src dst : String) :
    Program Gateway CallError Unit :=
  if isReservedPath src || isReservedPath dst then .fail .permission
  else if src = dst then .done ⟨⟩
  else .read fun g =>
    if (g.dirty src).isSome || g.tombstone src || g.conflicted src || g.tombstone dst ||
        g.conflicted dst || (onlyUnwritten && (g.listed dst).isNone) then .fail .unsupported
    else if (g.listed dst).isNone && (g.dirty dst).isNone then copyObject w none src dst
    else if g.syncing dst then .fail .unsupported
    else copyOverStaged w onlyUnwritten src dst

/-! ## Clients, the worker and the lease -/

/-- The path of the lease object. -/
def leasePath : String := "/" ++ leaseObjectKey

/-- What a client asks for, by name or by handle. -/
inductive Call
  | openFile (w : CallFaults) (fl : FileFlags) (name : Str)
  | read (w : CallFaults) (handle offset length : Nat)
  | write (w : CallFaults) (handle offset : Nat) (data : Bytes)
  | truncate (w : CallFaults) (handle size : Nat)
  | close (handle : Nat)
  | rename (known : List String) (wf : FileFaults) (wd : DirectoryFaults) (old new : Str)
  | remove (known : List String) (w : RemoveFaults) (wl : ListFaults) (name : Str)
  | copyFile (w : CopyFaults) (onlyUnwritten : Bool) (src dst : Str)
  | mkdirAll (fails : Bool) (perm : UInt32) (now : Nat) (name : Str)
  | setAttributes (w : CallFaults) (update : AttributeUpdate) (name : Str)
  | stat (known : List String) (w : CallFaults) (name : Str)
  | readDir (known : List String) (w : ListFaults) (name : Str)

/-- A call through a view, a turn of the sync worker, or what the manager of the
lease puts in the bucket. -/
inductive Act
  | client (v : View) (call : Call)
  | beginSync (w : CallFaults) (path : String)
  | landUpload (path : String)
  | endSync (path : String) (uploaded cleanAfterSync : Bool)
  | deletePending (w : RemoveFaults) (path : String)
  | lease (o : Option Object)

/-- What is returned. -/
inductive Reply
  | nothing
  | file (r : Except FileError Unit)
  | renamed (r : Except VfsError Unit)
  | done (r : Except CallError Unit)
  | data (r : Except CallError Bytes)
  | info (r : Except CallError FileInfo)
  | entries (r : Except CallError (List FileInfo))

/-- The path a name of a client stands for. -/
def Vfs.View.path (v : View) (name : Str) : String := String.ofList (v.keyPath name)

/-- The path a rename's destination stands for. -/
def Vfs.View.targetPath (v : View) (old new : Str) : String :=
  String.ofList (v.renameTargetPath (v.keyPath old) new)

namespace Host

/-- A call that does not concern handles. -/
def called (h : Host) (m : Program Gateway CallError Unit) : Host × Reply :=
  ({ h with gateway := (m h.gateway).final }, .done (m h.gateway).result)

/-- A change through a handle, with its answer. -/
def changed (h : Host) (handle : Nat) (change : File → Program Gateway FileError Unit) : Host × Reply :=
  (h.through handle change, match h.files[handle]? with
    | none => .nothing
    | some f => .file (change f h.gateway).result)

/-- A call of a client.  A directory rename in the bucket touches what is below its two
names, so the lease stays what it is. -/
def answer (h : Host) (v : View) : Call → Host × Reply
  | .openFile w fl name =>
    (h.opened (openFile w fl (v.path name) h.gateway),
      .file ((openFile w fl (v.path name) h.gateway).result.map fun _ => ()))
  | .read w handle offset length =>
    (h, match h.files[handle]? with
      | none => .nothing
      | some f => .data (h.gateway.readFile w f offset length))
  | .write w handle offset data => h.changed handle fun f => writeFile w f offset data
  | .truncate w handle size => h.changed handle fun f => truncateFile w f size
  | .close handle => (h.close handle, .nothing)
  | .rename known wf wd old new =>
    let o := rename known (wf.sparing leasePath (h.gateway.object leasePath))
      (wd.sparing leasePath (h.gateway.object leasePath)) (v.path old) (v.targetPath old new) h.gateway
    ({ h with gateway := o.final }, .renamed o.result)
  | .remove known w wl name => h.called (Bluestone.remove known w wl (v.path name))
  | .copyFile w onlyUnwritten src dst =>
    h.called (Bluestone.copyFile w onlyUnwritten (v.path src) (v.path dst))
  | .mkdirAll fails perm now name => h.called (Bluestone.mkdirAll fails perm now (v.path name))
  | .setAttributes w update name => h.called (Bluestone.setAttributes w update (v.path name))
  | .stat known w name => (h, .info (h.gateway.statInfo known w (v.path name)))
  | .readDir known w name => (h, .entries (h.gateway.readDir known w (v.path name)))

/-- One act and what it returns. -/
def serve (h : Host) : Act → Host × Reply
  | .client v call => h.answer v call
  | .beginSync w path => (h.next (.beginSync w path), .nothing)
  | .landUpload path => (h.next (.landUpload path), .nothing)
  | .endSync path uploaded cleanAfterSync => (h.next (.endSync path uploaded cleanAfterSync), .nothing)
  | .deletePending w path => (h.next (.deletePending w path), .nothing)
  | .lease o => ({ h with gateway := h.gateway.withObject leasePath o }, .nothing)

end Host

/-- Acts one after another, from a gateway that has nothing staged for the lease. -/
def clientSystem : Runs.System Host Act where
  init h := Gateway.Unstaged leasePath h.gateway ∧ h.files = [] ∧ ∀ path, h.uploads path = none
  step h a h' := h' = (h.serve a).1

end Bluestone
