/-
# `Bluestone.Ha.Lease` — the bucket lease and how a gateway reads it

`internal/ha/lease.go` without its requests: the lease record, the manager's
fields, and what it decides from an answer: `Acquire` once, from the lease it reads
and the local marker; the heartbeat again and again, whether the lease was taken and
how long it has not been renewed.

Times are nanoseconds on one clock and durations their differences.  A lease that
does not parse is treated as absent, with a log line.
-/
import Bluestone.Gateway.Namespace

namespace Bluestone.Ha

/-- The fencing record in the bucket. -/
structure Lease where
  holderID : String
  hostname : String
  epoch : UInt64
  acquiredAt : Int
  renewedAt : Int
  deriving DecidableEq, Repr

/-- What is stored under the lease key. -/
inductive Stored
  | corrupt
  | lease (l : Lease)
  deriving DecidableEq, Repr

/-- What `readLease` returns: `os.ErrNotExist`, another error, or a lease. -/
inductive LeaseRead
  | missing
  | failed
  | lease (l : Lease)
  deriving DecidableEq, Repr

/-- `readLease` of a bucket that answers. -/
def readStored : Option Stored → LeaseRead
  | none => .missing
  | some .corrupt => .missing
  | some (.lease l) => .lease l

/-- How `PutObject` of the lease ends.  A request that fails may have taken effect. -/
inductive Put
  | ok
  /-- `ENOSPC`: the bucket is over its hard quota. -/
  | quota
  | failed (landed : Bool)
  deriving DecidableEq, Repr

/-- The request takes effect. -/
def Put.lands : Put → Bool
  | .ok => true
  | .quota => false
  | .failed landed => landed

structure Options where
  heartbeatInterval : Int := 0
  leaseTimeout : Int := 0
  forceTakeover : Bool := false
  deriving DecidableEq, Repr

/-- Why a node stopped holding the lease: another holder owns it, or heartbeats
have been failing for this long. -/
inductive LeaseLoss
  | taken (takenBy : Lease)
  | unreachable (since : Int)
  deriving DecidableEq, Repr

/-- The manager's fields.  `lastRenewed` is none for the zero time; `lost` is the
loss that was reported, the source's flag with the one call it lets through. -/
structure Manager where
  holderID : String
  hostname : String
  heartbeatInterval : Int
  leaseTimeout : Int
  lastRenewed : Option Int
  lease : Lease
  lost : Option LeaseLoss
  deriving DecidableEq, Repr

def second : Int := 1000000000

/-! ## Names -/

/-- Two digits of `hex.EncodeToString`. -/
def hexByte (b : UInt8) : List Char := [Nat.digitChar (b.toNat / 16), Nat.digitChar (b.toNat % 16)]

/-- `newHolderID` of the process `pid`, with the random bytes `suffix`. -/
def newHolderID (hostname : String) (pid : Nat) (suffix : List UInt8) : String :=
  hostname ++ "-" ++ toString pid ++ "-" ++ String.ofList (suffix.flatMap hexByte)

/-- The first bytes of the holder id are the host name, and there are more. -/
def leaseFromSameHost (holderID hostname : String) : Bool :=
  decide (hostname.utf8ByteSize < holderID.utf8ByteSize) && hasPrefix holderID hostname

/-- `Acquire`'s manager before it has read anything. -/
def newManager (opts : Options) (hostname holderID : String) : Manager where
  holderID := holderID
  hostname := hostname
  heartbeatInterval := if opts.heartbeatInterval ≤ 0 then 15 * second else opts.heartbeatInterval
  leaseTimeout := if opts.leaseTimeout ≤ 0 then 60 * second else opts.leaseTimeout
  lastRenewed := none
  lease := ⟨"", "", 0, 0, 0⟩
  lost := none

/-- What `Acquire` returns when it does not return a manager. -/
inductive AcquireError
  /-- The object store is unreachable and there is no local marker. -/
  | unverified
  | leaseHeld (l : Lease)
  | notWritten
  deriving DecidableEq, Repr

namespace Manager

variable (m : Manager)

/-! ## Acquiring -/

/-- The marker names this host.  `marker` is what the marker file holds. -/
def localMarkerPresent (marker : Option String) : Bool := decide (marker = some m.hostname)

def localMarkerMatches (marker : Option String) (holderID : String) : Bool :=
  decide (marker = some m.hostname) && decide (holderID ≠ "") && leaseFromSameHost holderID m.hostname

/-- Renewed less than the timeout ago. -/
def fresh (now : Int) (l : Lease) : Bool := decide (now - l.renewedAt < m.leaseTimeout)

/-- The switch after `Acquire` has read the lease: the epoch to go on from. -/
def afterRead (forceTakeover : Bool) (marker : Option String) (now : Int) :
    LeaseRead → Except AcquireError UInt64
  | .missing => .ok 0
  | .failed =>
    if !m.localMarkerPresent marker && !forceTakeover then .error .unverified else .ok 0
  | .lease current =>
    if m.fresh now current && !forceTakeover && !m.localMarkerMatches marker current.holderID then
      .error (.leaseHeld current)
    else .ok current.epoch

/-- The lease this node is about to write. -/
def claim (epoch : UInt64) (now : Int) : Manager :=
  { m with
    lease := ⟨m.holderID, m.hostname, epoch + 1, now, now⟩
    lastRenewed := some now }

/-- `writeLease` up to its request: the lease carries the time it is sent. -/
def sending (now : Int) : Manager := { m with lease := { m.lease with renewedAt := now } }

/-- `writeLease` once its request has succeeded. -/
def renewed (now : Int) : Manager := { m with lastRenewed := some now }

/-- The switch after the first write: a failed one is tolerated where a failed
read is. -/
def afterFirstWrite (forceTakeover : Bool) (marker : Option String) (now : Int) :
    Put → Except AcquireError Manager
  | .ok => .ok (m.renewed now)
  | _ => if !m.localMarkerPresent marker && !forceTakeover then .error .notWritten else .ok m

/-- `lostAcquireRace`: the lease of another gateway, read back. -/
def lostAcquireRace : LeaseRead → Option Lease
  | .lease current => if current.holderID = m.holderID then none else some current
  | _ => none

/-! ## The heartbeat -/

/-- The lease shows that another gateway has taken over.  One of this host with
an older epoch is this node's own, from before a restart. -/
def takenBy (current : Lease) : Bool :=
  decide (current.holderID ≠ m.holderID) &&
    !(decide (current.hostname = m.hostname) && decide (current.epoch < m.lease.epoch))

/-- The lease of another holder, where the read shows one. -/
def findsTaken : LeaseRead → Option Lease
  | .lease current => if m.takenBy current then some current else none
  | _ => none

def renewFailingFor (now : Int) : Int :=
  match m.lastRenewed with
  | none => 0
  | some t => now - t

/-- A loss is reported once. -/
def reportLoss (loss : LeaseLoss) : Manager :=
  match m.lost with
  | some _ => m
  | none => { m with lost := some loss }

/-- A heartbeat whose write failed. -/
def failing (now : Int) : Manager :=
  if m.leaseTimeout < m.renewFailingFor now then
    m.reportLoss (.unreachable (m.renewFailingFor now))
  else m

/-- The heartbeat after its write.  A bucket over its quota counts as renewed when
the read before the write was answered. -/
def afterWrite (answer : LeaseRead) (now : Int) : Put → Manager
  | .ok => m.renewed now
  | .quota => if answer = .failed then m.failing now else m.renewed now
  | .failed _ => m.failing now

end Manager

end Bluestone.Ha
