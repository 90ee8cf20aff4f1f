/-
# `Bluestone.Locks.Manager` — the byte-range lock table

`internal/lock/manager.go`: a table of held ranges by path and owner, with an
index of the paths each owner holds ranges on and a count of ranges by client.
Every method holds the table's mutex for all it does, so a call is one step.

Offsets are the source's 64-bit integers.  `sort.Slice` is sorting by start; the
ranges it is given have different starts.
-/
import Bluestone.Library.Runs
import Bluestone.Library.Spans
import Bluestone.Library.Tables

namespace Bluestone.Locks

open Runs Spans Tables

instance linearOrderUInt64 : LinearOrder UInt64 where
  le_refl a := UInt64.le_refl a
  le_trans _ _ _ h h' := UInt64.le_trans h h'
  le_antisymm _ _ h h' := UInt64.le_antisymm h h'
  le_total a b := UInt64.le_total a b
  lt_iff_le_not_ge a b := by
    rw [UInt64.not_le]
    exact ⟨fun h => ⟨UInt64.le_of_lt h, h⟩, fun h => h.2⟩
  toDecidableLE := inferInstance

/-- A lock's sharing mode; `unknown` is any other value of the byte. -/
inductive Mode
  | shared
  | exclusive
  | unknown (code : UInt8)
  deriving DecidableEq, Repr

/-- A lock holder. -/
structure Owner where
  client : String
  id : String
  deriving DecidableEq, Repr

/-- The byte range from `start` up to `stop`. -/
structure Range where
  start : UInt64
  stop : UInt64
  deriving DecidableEq, Repr

/-- A held range with its mode. -/
abbrev Held := Span UInt64 Mode

/-- A held range with its holder. -/
structure Lock where
  range : Range
  mode : Mode
  owner : Owner
  deriving DecidableEq, Repr

inductive LockError
  | limit
  | invalid
  deriving DecidableEq, Repr

/-- The lock table. -/
structure Manager where
  maxLocksPerFile : Int
  maxLocksPerClient : Int
  files : Table String (Table Owner (List Held))
  owned : Table Owner (Table String Unit)
  clientLocks : Table String Int

def defaultMaxLocksPerFile : Int := 512

def defaultMaxLocksPerClient : Int := 8192

/-- `NewManager`; limits that are not positive select the defaults. -/
def newManager (maxLocksPerFile maxLocksPerClient : Int) : Manager where
  maxLocksPerFile := if maxLocksPerFile ≤ 0 then defaultMaxLocksPerFile else maxLocksPerFile
  maxLocksPerClient := if maxLocksPerClient ≤ 0 then defaultMaxLocksPerClient else maxLocksPerClient
  files := ∅
  owned := ∅
  clientLocks := ∅

def validate (r : Range) (mode : Mode) : Except LockError Unit :=
  if r.stop ≤ r.start ∨ (mode ≠ .shared ∧ mode ≠ .exclusive) then .error .invalid else .ok ()

def lessOwner (a b : Owner) : Bool :=
  if a.client ≠ b.client then decide (a.client < b.client) else decide (a.id < b.id)

def subtract (ranges : List Held) (sub : Range) : List Held := Spans.subtract ranges sub.start sub.stop

namespace Manager

variable (m : Manager)

/-- `m.files[path][owner]`, if it is there. -/
def entry (path : String) (owner : Owner) : Option (List Held) := lookupIn m.files path owner

/-- `m.files[path][owner]`, where what is not there reads as nil. -/
def ranges (path : String) (owner : Owner) : List Held := (m.entry path owner).getD []

/-- The owners of ranges on `path`, with their ranges. -/
def owners (path : String) : List (Owner × List Held) :=
  ((m.files.lookup path).getD ∅).entries.map fun e => (e.1, e.2)

/-- One range of another owner in the search of `conflictLocked`. -/
def consider (r : Range) (mode : Mode) (other : Owner) (found : Option Lock) (h : Held) : Option Lock :=
  if !h.overlaps r.start r.stop || (h.tag = .shared && mode = .shared) then found
  else
    let lock : Lock := ⟨⟨h.start, h.stop⟩, h.tag, other⟩
    match found with
    | none => some lock
    | some best =>
      if h.start < best.range.start ∨ (h.start = best.range.start ∧ lessOwner other best.owner) then
        some lock
      else found

/-- The conflicting lock with the lowest start held by another owner. -/
def conflictLocked (owner : Owner) (path : String) (r : Range) (mode : Mode) : Option Lock :=
  (m.owners path).foldl
    (fun found e => if e.1 = owner then found else e.2.foldl (consider r mode e.1) found) none

def fileLockCountLocked (path : String) : Nat := ((m.owners path).map fun e => e.2.length).sum

/-- `m.clientLocks[client]`. -/
def clientCount (client : String) : Int := (m.clientLocks.lookup client).getD 0

/-- `delete(owners, owner)`, with the path or the owner left with nothing. -/
def dropEntry (owner : Owner) (path : String) : Manager :=
  { m with
    files := eraseIn m.files path owner
    owned := eraseIn m.owned owner path }

/-- `owners[owner] = ranges`, with the maps made where they are missing. -/
def putEntry (owner : Owner) (path : String) (ranges : List Held) : Manager :=
  { m with
    files := insertIn m.files path owner ranges
    owned := insertIn m.owned owner path () }

/-- The client's count changes by `delta`. -/
def addCount (client : String) (delta : Int) : Manager :=
  { m with
    clientLocks :=
      if 0 < m.clientCount client + delta then
        m.clientLocks.insert client (m.clientCount client + delta)
      else m.clientLocks.erase client }

def setLocked (owner : Owner) (path : String) (ranges : List Held) (delta : Int) : Manager :=
  (if ranges = [] then m.dropEntry owner path else m.putEntry owner path ranges).addCount owner.client delta

/-- The ranges the owner would have on `path` with `r` granted. -/
def granted (owner : Owner) (path : String) (r : Range) (mode : Mode) : List Held :=
  coalesce (subtract (m.ranges path owner) r ++ [⟨r.start, r.stop, mode⟩])

/-- `Lock`: a conflict, nothing, or an error, and the table after the call. -/
def lock (owner : Owner) (path : String) (r : Range) (mode : Mode) :
    Except LockError (Option Lock) × Manager :=
  match validate r mode with
  | .error e => (.error e, m)
  | .ok _ =>
    match m.conflictLocked owner path r mode with
    | some conflict => (.ok (some conflict), m)
    | none =>
      let after := m.granted owner path r mode
      let delta : Int := after.length - (m.ranges path owner).length
      if 0 < delta ∧ (m.maxLocksPerFile < m.fileLockCountLocked path + delta ∨
          m.maxLocksPerClient < m.clientCount owner.client + delta) then
        (.error .limit, m)
      else (.ok none, m.setLocked owner path after delta)

def unlock (owner : Owner) (path : String) (r : Range) : Except LockError Unit × Manager :=
  if r.stop ≤ r.start then (.error .invalid, m)
  else
    let after := subtract (m.ranges path owner) r
    (.ok (), m.setLocked owner path after (after.length - (m.ranges path owner).length))

/-- One turn of the loop of `releaseOwnerLocked`. -/
def releasePath (owner : Owner) (path : String) : Manager :=
  m.setLocked owner path [] (-(m.ranges path owner).length)

def releaseOwnerLocked (owner : Owner) : Manager :=
  ((m.owned.lookup owner).getD ∅).keys.foldl (fun m path => m.releasePath owner path) m

def releaseClient (client : String) : Manager :=
  m.owned.keys.foldl (fun m owner => if owner.client = client then m.releaseOwnerLocked owner else m) m

variable {m} {I : Manager → Prop}

theorem releaseOwnerLocked_keeps {owner : Owner} (hI : ∀ m path, I m → I (m.releasePath owner path)) (h : I m) :
    I (m.releaseOwnerLocked owner) :=
  List.foldlRecOn _ _ h fun m hm path _ => hI m path hm

theorem releaseClient_keeps (hI : ∀ m owner, I m → I (m.releaseOwnerLocked owner)) (h : I m) (client : String) :
    I (m.releaseClient client) := by
  refine List.foldlRecOn _ _ h fun m hm owner _ => ?_
  split
  · exact hI m owner hm
  · exact hm

end Manager

/-- The calls that change the table. -/
inductive Call
  | lock (owner : Owner) (path : String) (r : Range) (mode : Mode)
  | unlock (owner : Owner) (path : String) (r : Range)
  | releaseOwner (owner : Owner)
  | releaseClient (client : String)

def Manager.next (m : Manager) : Call → Manager
  | .lock owner path r mode => (m.lock owner path r mode).2
  | .unlock owner path r => (m.unlock owner path r).2
  | .releaseOwner owner => m.releaseOwnerLocked owner
  | .releaseClient client => m.releaseClient client

/-- A table from its start. -/
def tableSystem : System Manager Call where
  init m := ∃ perFile perClient, m = newManager perFile perClient
  step m c m' := m' = m.next c

end Bluestone.Locks
