/-
# `Bluestone.Smb.Opens` — the opens of a share and the files they are of

`internal/smb/backend.go` as far as share modes go: `Open` reserves, `Close` releases
and a handle's `Rename` moves reservations.  The share table is keyed by the client's
spelling of a name, and the view resolves several spellings to one file.

Which file an open is of is not in the code; it is kept beside the run (`ofFile`): the
key path the name resolved to when it was opened, carried along by every rename that
moves it.
-/
import Bluestone.Library.Runs
import Bluestone.Locks.Share
import Bluestone.Vfs.Names

namespace Bluestone.Smb

open Paths Vfs Locks Runs
open Function (update)

/-! ## Access masks -/

def accessReadData : UInt32 := 0x00000001
def accessWriteData : UInt32 := 0x00000002
def accessAppendData : UInt32 := 0x00000004
def accessExecute : UInt32 := 0x00000020
def accessDeleteBit : UInt32 := 0x00010000
def accessGenericAll : UInt32 := 0x10000000
def accessGenericExec : UInt32 := 0x20000000
def accessGenericWrite : UInt32 := 0x40000000
def accessGenericRead : UInt32 := 0x80000000
def shareAccessRead : UInt32 := 0x00000001
def shareAccessWrite : UInt32 := 0x00000002
def shareAccessDelete : UInt32 := 0x00000004

/-- The file uses that share modes are decided on. -/
def requestedAccess (desired : UInt32) (deleteOnClose : Bool) : Access :=
  (if desired &&& (accessReadData ||| accessExecute ||| accessGenericRead ||| accessGenericExec |||
      accessGenericAll) != 0 then accessRead else 0) |||
  (if desired &&& (accessWriteData ||| accessAppendData ||| accessGenericWrite |||
      accessGenericAll) != 0 then accessWrite else 0) |||
  (if desired &&& (accessDeleteBit ||| accessGenericAll) != 0 || deleteOnClose then accessDelete else 0)

/-- What the open lets other opens do. -/
def permittedAccess (share : UInt32) : Access :=
  (if share &&& shareAccessRead != 0 then accessRead else 0) |||
  (if share &&& shareAccessWrite != 0 then accessWrite else 0) |||
  (if share &&& shareAccessDelete != 0 then accessDelete else 0)

/-! ## The backend -/

/-- The names of an SMB path are separated by backslashes. -/
def sharePath (name : Str) : Str := render (clean (name.map fun c => if c = '\\' then '/' else c))

/-- What `Stat` found at the start of an open.  A name that does not exist yet is opened
like a file. -/
inductive Found
  | failed
  | directory
  | file
  deriving DecidableEq, Repr

structure OpenOptions where
  path : Str
  desiredAccess : UInt32
  shareAccess : UInt32
  deleteOnClose : Bool
  deriving DecidableEq, Repr

structure Handle where
  path : Str
  reservation : Option Nat
  deriving DecidableEq, Repr

/-- The share table and the handles clients hold, by the ids the server gave them. -/
structure Opens where
  table : ShareTable Str
  handles : Nat → Option Handle

/-- A share serving the directory `root`. -/
structure Backend where
  root : Str

namespace Backend

variable (b : Backend)

/-- The share table's key for a path of the share. -/
def tableKey (p : Str) : Str := join b.root p

/-- `Open` of a client that is given the id `id`.  After the reservation the open may
still fail, and gives the reservation back. -/
def openFile (s : Opens) (id : Nat) (opts : OpenOptions) (found : Found) (succeeds : Bool) : Opens :=
  match found with
  | .failed => s
  | .directory =>
    if succeeds then
      { s with handles := update s.handles id (some ⟨sharePath opts.path, none⟩) }
    else s
  | .file =>
    match s.table.acquire (b.tableKey (sharePath opts.path))
        (requestedAccess opts.desiredAccess opts.deleteOnClose) (permittedAccess opts.shareAccess) with
    | .error _ => s
    | .ok (r, table) =>
      if succeeds then
        { table := table
          handles := update s.handles id (some ⟨sharePath opts.path, some r⟩) }
      else { s with table := table.release r }

/-- `Close`. -/
def close (s : Opens) (id : Nat) : Opens :=
  match s.handles id with
  | none => s
  | some h =>
    { table := match h.reservation with
        | some r => s.table.release r
        | none => s.table
      handles := update s.handles id none }

/-- A handle's `Rename`.  It fails where the target is in the way or the filesystem
refuses. -/
def rename (s : Opens) (id : Nat) (newPath : Str) (succeeds : Bool) : Opens :=
  match s.handles id with
  | none => s
  | some h =>
    if succeeds then
      { table := s.table.rename (b.tableKey h.path) (b.tableKey (sharePath newPath))
        handles := update s.handles id (some { h with path := sharePath newPath }) }
    else s

end Backend

/-! ## The system -/

/-- A call, with the view as it is at the time. -/
inductive Call
  | openFile (id : Nat) (v : View) (opts : OpenOptions) (found : Found) (succeeds : Bool)
  | close (id : Nat)
  | rename (id : Nat) (v : View) (newPath : Str) (succeeds : Bool)

/-- The server gives an open an id that no handle has. -/
def Opens.next (b : Backend) (s : Opens) : Call → Opens
  | .openFile id _ opts found succeeds =>
    if (s.handles id).isNone then b.openFile s id opts found succeeds else s
  | .close id => Backend.close s id
  | .rename id _ newPath succeeds => b.rename s id newPath succeeds

/-- A share that nobody has opened anything of. -/
def opensSystem (b : Backend) : System Opens Call where
  init s := s.table.Listed ∧ ∀ id, s.handles id = none
  step s c s' := s' = s.next b c

/-! ## The file an open is of -/

/-- Where the rename of `old` to `new` moves a key path, by its names. -/
def moveKey (old new key : List Name) : List Name :=
  if old <+: key then new ++ key.drop old.length else key

/-- Where a handle's rename moves key paths. -/
def renamed (v : View) (h : Handle) (newPath : Str) : List Name → List Name :=
  moveKey (clean (v.keyPath h.path))
    (clean (v.renameTargetPath (v.keyPath h.path) (sharePath newPath)))

/-- The file each handle is an open of, after a call. -/
def ofFile (s : Opens) (c : Call) (_ : Opens) (file : Nat → List Name) : Nat → List Name :=
  match c with
  | .openFile id v opts _ _ =>
    if (s.handles id).isNone then
      update file id (clean (v.keyPath (sharePath opts.path)))
    else file
  | .close _ => file
  | .rename id v newPath succeeds =>
    match s.handles id with
    | none => file
    | some h => if succeeds then fun j => renamed v h newPath (file j) else file

/-- Runs of a share, with the files of its handles. -/
def filesOf (b : Backend) : System (Opens × (Nat → List Name)) Call :=
  (opensSystem b).track (fun _ _ => []) ofFile

end Bluestone.Smb
