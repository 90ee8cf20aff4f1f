/-
# `Bluestone.Staging.Quota` — the quota of the staging directory

`WriteSession.Write` and `Truncate` compute by how much they make a session grow, reserve
that much from the manager and only then take the session's lock (`internal/staging/session.go`,
`ReserveWrite` in `manager.go`).  A reservation is decided on a count of all sessions, one
after the other, while sizes change: the pressure lock keeps out only other reservations.

The count still errs on the safe side.  What is left to change a size holds its
reservation, so the sizes and the growth granted and not yet made stay below what the
count has, what is left to count and all reservations together (`Inv.count`).
Growth that no reservation stands for breaks this.
-/
import Bluestone.Library.Computed
import Bluestone.Library.Totals
import Bluestone.Library.Words

namespace Bluestone.Quota

open Words Totals Runs
open Option (bind_eq_some_iff)

/-! ## The manager -/

/-- The staging configuration, validated. -/
structure Config where
  maxStagingSizeGB : Nat
  positive : 1 ≤ maxStagingSizeGB
  backpressureEnabled : Bool
  /-- `backpressure_mode` is `block`, not `fail_fast`. -/
  block : Bool
  highWatermarkPct : Nat
  critWatermarkPct : Nat

/-- A session: `uncounted` while the count that is under way has not come to it. -/
structure Session where
  size : Nat
  prefetched : Bool
  uncounted : Bool
  deriving DecidableEq, Repr

inductive Request
  | write (offset len : Nat)
  | truncate (size : Nat)
  deriving DecidableEq, Repr

/-- How far an operation is: in the loop of `ReserveWrite`, with its reservation and before
the change, after the change, and after the release. -/
inductive Phase
  | asking
  | granted
  | changed
  | done
  deriving DecidableEq, Repr

/-- A `Write` or a `Truncate`, with the size it read at its start and the growth it
computed from it. -/
structure Op where
  session : Nat
  request : Request
  currentSize : Nat
  growth : Int
  phase : Phase
  deriving DecidableEq, Repr

/-- Why the sessions are counted: an operation asks for a reservation, or the metrics are
updated, as the operation `op` does with its reservation in hand. -/
inductive Purpose
  | reserve (op : Nat)
  | metrics (op : Option Nat)
  deriving DecidableEq, Repr

/-- `pressureStateLocked` under way, with the pressure lock held. -/
structure Count where
  purpose : Purpose
  total : Int
  deriving DecidableEq, Repr

/-- The manager; `overflowed` records whether a sum did not fit 64 bits. -/
structure State where
  sessions : List Session
  ops : List Op
  reservedBytes : Int
  count : Option Count
  overflowed : Bool
  deriving DecidableEq, Repr

/-! ## Pressure -/

/-- `MaxStagingSizeGB * 1024 * 1024 * 1024`. -/
def Config.quotaBytes (c : Config) : Int := wrap (wrap (wrap (c.maxStagingSizeGB * 1024) * 1024) * 1024)

inductive Level
  | normal
  | high
  | critical
  deriving DecidableEq, Repr

structure Pressure where
  usedBytes : Int
  projectedBytes : Int
  quotaBytes : Int
  level : Level
  deriving DecidableEq, Repr

/-- The quota that is not used, or what the disk has left if that is less. -/
def availableBytes (quotaBytes usedBytes : Int) (disk : Option Nat) : Int :=
  let quotaAvailable := if wrap (quotaBytes - usedBytes) < 0 then 0 else wrap (quotaBytes - usedBytes)
  match disk with
  | some diskAvailable => if (diskAvailable : Int) < quotaAvailable then diskAvailable else quotaAvailable
  | none => quotaAvailable

/-- `pressureStateLocked`, once the sessions are counted. -/
def pressureState (c : Config) (total reservedBytes growth : Int) (disk : Option Nat) : Pressure :=
  let quotaBytes := c.quotaBytes
  let usedBytes := wrap (total + reservedBytes)
  let projectedBytes := wrap (usedBytes + growth)
  let highBytes := (wrap (quotaBytes * c.highWatermarkPct)).tdiv 100
  let criticalBytes := (wrap (quotaBytes * c.critWatermarkPct)).tdiv 100
  { usedBytes, projectedBytes, quotaBytes
    level :=
      if 0 < quotaBytes then
        if criticalBytes ≤ projectedBytes ∨ availableBytes quotaBytes usedBytes disk < growth then .critical
        else if highBytes ≤ projectedBytes then .high
        else .normal
      else .normal }

/-- The sums of `pressureStateLocked` fit 64 bits. -/
def sumsFit (c : Config) (total reservedBytes growth : Int) : Bool :=
  Fits (total + reservedBytes) ∧ Fits (wrap (total + reservedBytes) + growth) ∧
    Fits (c.quotaBytes - wrap (total + reservedBytes))

inductive Decision
  | allow
  | reject
  | wait
  deriving DecidableEq, Repr

/-- The switch of `ReserveWrite`; `expired` when the deadline has passed. -/
def reserveWrite (c : Config) (p : Pressure) (expired : Bool) : Decision :=
  if !c.backpressureEnabled then if p.quotaBytes < p.projectedBytes then .reject else .allow
  else if p.level = .critical ∨ p.quotaBytes < p.projectedBytes then .reject
  else if p.level = .high ∧ c.block then if expired then .reject else .wait
  else .allow

/-! ## Steps -/

inductive Label
  | openSession (size : Nat)
  | prefetch (session size : Nat)
  | write (session offset len : Nat) (bucketFull : Bool)
  | truncate (session size : Nat) (bucketFull : Bool)
  | reserve (op : Nat)
  | count (session : Nat)
  | decide (disk : Option Nat) (expired : Bool)
  | metrics
  | counted
  | change (op : Nat) (succeeds : Bool)
  | release (op : Nat)
  deriving DecidableEq, Repr

namespace State

variable (c : Config) (s : State)

/-- A count begins: every session is before it. -/
def startCount (purpose : Purpose) : State :=
  { s with
    sessions := s.sessions.map fun x => { x with uncounted := true }
    count := some ⟨purpose, 0⟩ }

/-- `GetOrCreateSession` of a path whose staging file has `size` bytes.  The loop over the
sessions holds the manager's lock. -/
def openSession (size : Nat) : Option State :=
  if s.sessions.all fun x => !x.uncounted then
    some { s with sessions := s.sessions ++ [⟨size, false, false⟩] }
  else none

/-- `Prefetch`: the size becomes that of the downloaded file. -/
def prefetch (j size : Nat) : Option State :=
  (s.sessions[j]?).bind fun x =>
    if x.prefetched then none
    else some { s with sessions := s.sessions.set j { x with size, prefetched := true } }

/-- The first part of `Write`: the growth over the size that the session has now. -/
def startWrite (j offset len : Nat) (bucketFull : Bool) : Option State :=
  (s.sessions[j]?).bind fun x =>
    if offset < 2 ^ 63 ∧ len < 2 ^ 63 then
      let overflowed := s.overflowed || !decide (Fits (offset + len) ∧ Fits (wrap (offset + len) - x.size))
      let growth := wrap (wrap (offset + len) - x.size)
      if bucketFull ∧ 0 < len then some { s with overflowed }
      else some { s with
        ops := s.ops ++ [⟨j, .write offset len, x.size, if growth < 0 then 0 else growth, .asking⟩]
        overflowed }
    else none

/-- The first part of `Truncate`, which reserves only what it adds. -/
def startTruncate (j size : Nat) (bucketFull : Bool) : Option State :=
  (s.sessions[j]?).bind fun x =>
    if size < 2 ^ 63 then
      if x.size < size then
        if bucketFull then some s
        else some { s with ops := s.ops ++ [⟨j, .truncate size, x.size, size - x.size, .asking⟩] }
      else some { s with ops := s.ops ++ [⟨j, .truncate size, x.size, 0, .granted⟩] }
    else none

/-- A turn of the loop of `ReserveWrite` takes the pressure lock. -/
def reserve (i : Nat) : Option State :=
  (s.ops[i]?).bind fun op =>
    if op.phase = .asking ∧ s.count = none then some (s.startCount (.reserve i)) else none

/-- `GetTotalStagingSize` comes to a session. -/
def countSession (j : Nat) : Option State :=
  s.count.bind fun k => (s.sessions[j]?).bind fun x =>
    if x.uncounted then
      some { s with
        sessions := s.sessions.set j { x with uncounted := false }
        count := some { k with total := wrap (k.total + x.size) }
        overflowed := s.overflowed || !decide (Fits (k.total + x.size)) }
    else none

/-- What a decision leaves: an allowed operation has its reservation and updates the
metrics, with the lock still held. -/
def decided (i : Nat) (op : Op) : Decision → State
  | .reject => { s with ops := s.ops.set i { op with phase := .done }, count := none }
  | .wait => { s with count := none }
  | .allow =>
    startCount { s with
      ops := s.ops.set i { op with phase := .granted }
      reservedBytes := wrap (s.reservedBytes + op.growth)
      overflowed := s.overflowed || !decide (Fits (s.reservedBytes + op.growth)) } (.metrics (some i))

def decideReservation (disk : Option Nat) (expired : Bool) : Option State :=
  s.count.bind fun k => match k.purpose with
    | .metrics _ => none
    | .reserve i => (s.ops[i]?).bind fun op =>
      if s.sessions.all fun x => !x.uncounted then
        some (decided
          { s with overflowed := s.overflowed || !sumsFit c k.total s.reservedBytes op.growth } i op
          (reserveWrite c (pressureState c k.total s.reservedBytes op.growth disk) expired))
      else none

def metrics : Option State :=
  if s.count = none then some (s.startCount (.metrics none)) else none

/-- The metrics are updated and the pressure lock is free. -/
def counted : Option State :=
  s.count.bind fun k => match k.purpose with
    | .reserve _ => none
    | .metrics _ =>
      if s.sessions.all fun x => !x.uncounted then
        some { s with count := none, overflowed := s.overflowed || !sumsFit c k.total s.reservedBytes 0 }
      else none

/-- The size after the change, under the session's lock. -/
def changedSize (size : Nat) : Request → Nat
  | .write offset len => if (size : Int) < wrap (offset + len) then (wrap (offset + len)).toNat else size
  | .truncate newSize => newSize

/-- The sums of the change fit 64 bits. -/
def changeFits : Request → Bool
  | .write offset len => Fits (offset + len)
  | .truncate _ => true

def change (i : Nat) (succeeds : Bool) : Option State :=
  (s.ops[i]?).bind fun op => (s.sessions[op.session]?).bind fun x =>
    if op.phase = .granted ∧ s.count.map (·.purpose) ≠ some (.metrics (some i)) then
      some { s with
        ops := s.ops.set i { op with phase := .changed }
        sessions :=
          if succeeds then s.sessions.set op.session { x with size := changedSize x.size op.request }
          else s.sessions
        overflowed := s.overflowed || (succeeds && !changeFits op.request) }
    else none

/-- `releaseReservation`, which updates the metrics as well. -/
def release (i : Nat) : Option State :=
  (s.ops[i]?).bind fun op =>
    if op.phase = .changed then
      if op.growth ≤ 0 then some { s with ops := s.ops.set i { op with phase := .done } }
      else if s.count = none then
        some (startCount { s with
          ops := s.ops.set i { op with phase := .done }
          reservedBytes := if s.reservedBytes < op.growth then 0 else s.reservedBytes - op.growth } (.metrics none))
      else none
    else none

def next : Label → Option State
  | .openSession size => s.openSession size
  | .prefetch j size => s.prefetch j size
  | .write j offset len bucketFull => s.startWrite j offset len bucketFull
  | .truncate j size bucketFull => s.startTruncate j size bucketFull
  | .reserve i => s.reserve i
  | .count j => s.countSession j
  | .decide disk expired => s.decideReservation c disk expired
  | .metrics => s.metrics
  | .counted => s.counted c
  | .change i succeeds => s.change i succeeds
  | .release i => s.release i

end State

/-! ## What is claimed of a state -/

/-- The quota in bytes. -/
def Config.quota (c : Config) : Nat := c.maxStagingSizeGB * 2 ^ 30

/-- What an operation has reserved and not released. -/
def Op.held (op : Op) : Nat :=
  match op.phase with
  | .granted | .changed => op.growth.toNat
  | .asking | .done => 0

/-- What it has reserved for a change it has not made. -/
def Op.owed (op : Op) : Nat :=
  match op.phase with
  | .granted => op.growth.toNat
  | .asking | .changed | .done => 0

/-- The end of the bytes it writes, or the size it sets. -/
def Request.target : Request → Nat
  | .write offset len => offset + len
  | .truncate size => size

/-- What a count has left to add. -/
def Session.left (x : Session) : Nat := if x.uncounted then x.size else 0

/-- The sum of the sizes. -/
def State.staged (s : State) : Nat := total Session.size s.sessions

/-- A manager without operations, within its quota. -/
structure Starts (c : Config) (s : State) : Prop where
  ops : s.ops = []
  reserved : s.reservedBytes = 0
  count : s.count = none
  exact : s.overflowed = false
  counted : ∀ x ∈ s.sessions, x.uncounted = false
  within : s.staged ≤ c.quota

def quotaSystem (c : Config) : System State Label := computed (Starts c) (State.next c)

/-! ## Runs that stay within the quota -/

/-- Bytes that no reservation stands for: they fit what the sizes and the reservations leave
of the quota, and nothing is being counted. -/
def State.HasRoom (c : Config) (s : State) (bytes : Nat) : Prop :=
  s.count = none ∧ s.staged + total Op.owed s.ops + bytes ≤ c.quota

/-- The steps whose growth a reservation stands for, or that leave room for it:
a staging file found at the open and a prefetched object fit the quota that is left, a
session that an operation enlarges is at least as large as when the operation read its size,
and twice the quota and the end of what is written fit 64 bits. -/
def Covered (c : Config) (s : State) : Label → Prop
  | .openSession size => size = 0 ∨ s.HasRoom c size
  | .prefetch j size => ∀ x ∈ s.sessions[j]?, size ≤ x.size ∨ s.HasRoom c (size - x.size)
  | .write _ offset len _ => 2 * c.quota + (offset + len) < 2 ^ 63
  | .truncate _ size _ => 2 * c.quota + size < 2 ^ 63
  | .change i _ => ∀ op ∈ s.ops[i]?, ∀ x ∈ s.sessions[op.session]?,
      op.currentSize ≤ x.size ∨ op.request.target ≤ x.size
  | _ => True

instance (c : Config) (s : State) (bytes : Nat) : Decidable (s.HasRoom c bytes) :=
  inferInstanceAs (Decidable (_ ∧ _))

instance (c : Config) (s : State) (e : Label) : Decidable (Covered c s e) := by
  cases e <;> (unfold Covered; infer_instance)

/-- What is known of an operation: its growth covers what its request adds to the size it
read. -/
structure OpOk (c : Config) (op : Op) : Prop where
  nonneg : 0 ≤ op.growth
  covers : (op.request.target : Int) ≤ op.currentSize + op.growth
  le_target : op.growth ≤ op.request.target
  fits : 2 * c.quota + op.request.target < 2 ^ 63

structure Inv (c : Config) (s : State) : Prop where
  reserved : s.reservedBytes = (total Op.held s.ops : Nat)
  within : s.staged + total Op.owed s.ops ≤ c.quota
  bounded : total Op.held s.ops ≤ c.quota
  exact : s.overflowed = false
  ops : ∀ op ∈ s.ops, OpOk c op
  count : ∀ k, s.count = some k → ∃ n : Nat, k.total = n ∧
    n + total Session.left s.sessions + total Op.owed s.ops ≤ c.quota ∧
    s.staged + total Op.owed s.ops ≤ n + total Session.left s.sessions + total Op.held s.ops
  asking : ∀ i t, s.count = some ⟨.reserve i, t⟩ → ∃ op, s.ops[i]? = some op ∧ op.phase = .asking

section Steps

variable {c : Config} {s s' : State}

theorem owed_le_held (op : Op) : op.owed ≤ op.held := by
  rw [Op.owed, Op.held]
  cases op.phase <;> simp

theorem Inv.owed_le (s : State) : total Op.owed s.ops ≤ total Op.held s.ops :=
  total_mono fun op _ => owed_le_held op

theorem Inv.startCount (h : Inv c s) {p : Purpose} (hp : ∀ i, p = .reserve i →
    ∃ op, s.ops[i]? = some op ∧ op.phase = .asking) : Inv c (s.startCount p) := by
  have hsize : (s.startCount p).staged = s.staged := total_map ..
  have hleft : total Session.left (s.startCount p).sessions = s.staged := total_map ..
  have howed := Inv.owed_le s
  have hwithin := h.within
  refine ⟨h.reserved, ?_, h.bounded, h.exact, h.ops, ?_, ?_⟩
  · rw [hsize]
    exact hwithin
  · intro k hk
    cases hk
    refine ⟨0, rfl, ?_, ?_⟩
    · rw [hleft]
      change 0 + s.staged + total Op.owed s.ops ≤ _
      omega
    · rw [hsize, hleft]
      change s.staged + total Op.owed s.ops ≤ 0 + s.staged + total Op.held s.ops
      omega
  · intro i t hk
    cases hk
    exact hp i rfl

variable {i size j : Nat} {expired : Bool} {op : Op}

theorem Inv.reserve (h : Inv c s) (hs : s.reserve i = some s') : Inv c s' := by
  obtain ⟨op, hop, hs⟩ := bind_eq_some_iff.1 hs
  split at hs
  · rename_i hask
    cases hs
    refine h.startCount fun j hj => ?_
    cases hj
    exact ⟨op, hop, hask.1⟩
  · cases hs

theorem Inv.metrics (h : Inv c s) (hs : s.metrics = some s') : Inv c s' := by
  rw [State.metrics] at hs
  split at hs
  · cases hs
    exact h.startCount (by simp)
  · cases hs

theorem Inv.openSession (h : Inv c s) (hok : Covered c s (.openSession size))
    (hs : s.openSession size = some s') : Inv c s' := by
  rw [State.openSession] at hs
  split at hs
  · cases hs
    have hstaged := total_concat Session.size s.sessions ⟨size, false, false⟩
    have hleft := total_concat Session.left s.sessions ⟨size, false, false⟩
    simp only [Session.left, Bool.false_eq_true, if_false, Nat.add_zero] at hleft hstaged
    have hwithin := h.within
    rw [State.staged] at hwithin
    refine ⟨h.reserved, ?_, h.bounded, h.exact, h.ops, fun k hk => ?_, h.asking⟩
    · rw [State.staged]
      dsimp only
      rcases hok with rfl | hroom
      · omega
      · have hfit := hroom.2
        rw [State.staged] at hfit
        omega
    · rcases hok with rfl | hroom
      · obtain ⟨n, hn, hupper, hlower⟩ := h.count k hk
        rw [State.staged] at hlower
        refine ⟨n, hn, ?_, ?_⟩
        · dsimp only
          omega
        · rw [State.staged]
          dsimp only
          omega
      · exact absurd (hroom.1.symm.trans hk) (by simp)
  · cases hs

theorem Inv.resize (h : Inv c s) {x : Session} {p : Bool} {ops : List Op}
    (hx : s.sessions[j]? = some x) (hops : ∀ op ∈ ops, OpOk c op)
    (hheld : total Op.held ops = total Op.held s.ops) (howed : total Op.owed ops ≤ total Op.owed s.ops)
    (hgrow : size + total Op.owed ops ≤ x.size + total Op.owed s.ops)
    (hask : ∀ i t, s.count = some ⟨.reserve i, t⟩ → ∃ op, ops[i]? = some op ∧ op.phase = .asking) :
    Inv c { s with sessions := s.sessions.set j { x with size := size, prefetched := p }, ops := ops } := by
  have hstaged := total_set Session.size hx { x with size := size, prefetched := p }
  have hleft := total_set Session.left hx { x with size := size, prefetched := p }
  have hwithin := h.within
  have hreserved := h.reserved
  have hbounded := h.bounded
  rw [State.staged] at hwithin
  dsimp only at hstaged
  refine ⟨?_, ?_, ?_, h.exact, hops, fun k hk => ?_, hask⟩
  · dsimp only
    rw [hheld, hreserved]
  · rw [State.staged]
    dsimp only
    omega
  · dsimp only
    omega
  · obtain ⟨n, hn, hupper, hlower⟩ := h.count k hk
    rw [State.staged] at hlower
    -- the session counts on both sides while the count has not come to it, and on none after
    have hturn : x.left = x.size ∧ Session.left { x with size := size, prefetched := p } = size ∨
        x.left = 0 ∧ Session.left { x with size := size, prefetched := p } = 0 := by
      by_cases hu : x.uncounted
      · exact .inl ⟨if_pos hu, if_pos hu⟩
      · exact .inr ⟨if_neg hu, if_neg hu⟩
    refine ⟨n, hn, ?_, ?_⟩
    · dsimp only
      omega
    · rw [State.staged]
      dsimp only
      omega

theorem Inv.prefetch (h : Inv c s) (hok : Covered c s (.prefetch j size))
    (hs : s.prefetch j size = some s') : Inv c s' := by
  obtain ⟨x, hx, hs⟩ := bind_eq_some_iff.1 hs
  split at hs
  · cases hs
  · cases hs
    by_cases hsize : size ≤ x.size
    · exact h.resize hx h.ops rfl (Nat.le_refl _) (by omega) h.asking
    · obtain ⟨hnone, hfit⟩ := (hok x hx).resolve_left hsize
      have hstaged := total_set Session.size hx { x with size := size, prefetched := true }
      rw [State.staged] at hfit
      dsimp only at hstaged
      refine ⟨h.reserved, ?_, h.bounded, h.exact, h.ops, fun k hk => ?_, h.asking⟩
      · rw [State.staged]
        dsimp only
        omega
      · exact absurd (hnone.symm.trans hk) (by simp)

theorem Config.quotaBytes_eq (c : Config) (hq : 2 * c.quota < 2 ^ 63) : c.quotaBytes = c.quota := by
  rw [Config.quota] at hq ⊢
  have hKB : wrap (c.maxStagingSizeGB * 1024) = c.maxStagingSizeGB * 1024 := wrap_eq ⟨by omega, by omega⟩
  have hMB : wrap ((c.maxStagingSizeGB * 1024 : Int) * 1024) = c.maxStagingSizeGB * 1024 * 1024 :=
    wrap_eq ⟨by omega, by omega⟩
  have hGB : wrap ((c.maxStagingSizeGB * 1024 * 1024 : Int) * 1024) = c.maxStagingSizeGB * 1024 * 1024 * 1024 :=
    wrap_eq ⟨by omega, by omega⟩
  rw [Config.quotaBytes, hKB, hMB, hGB]
  omega

theorem sumsFit_of_le (hq : 2 * c.quota < 2 ^ 63) {n r : Nat} {growth : Int} (hn : n ≤ c.quota)
    (hr : r ≤ c.quota) (hlow : 0 ≤ growth)
    (hgrowth : 2 * (c.quota : Int) + growth < 2 ^ 63) : sumsFit c n r growth := by
  have hused : wrap ((n : Int) + r) = n + r := wrap_eq ⟨by omega, by omega⟩
  rw [sumsFit, decide_eq_true_eq, hused, c.quotaBytes_eq hq]
  exact ⟨⟨by omega, by omega⟩, ⟨by omega, by omega⟩, ⟨by omega, by omega⟩⟩

theorem projected_of_allow {p : Pressure} (h : reserveWrite c p expired = .allow) :
    p.projectedBytes ≤ p.quotaBytes := by
  rw [reserveWrite] at h
  by_contra hover
  rw [not_le] at hover
  by_cases hon : c.backpressureEnabled
  · rw [if_neg (by simp [hon]), if_pos (.inr hover)] at h
    cases h
  · rw [if_pos (by simpa using hon), if_pos hover] at h
    cases h

theorem Inv.countSession (h : Inv c s) (hq : 2 * c.quota < 2 ^ 63)
    (hs : s.countSession j = some s') : Inv c s' := by
  obtain ⟨k, hk, hs⟩ := bind_eq_some_iff.1 hs
  obtain ⟨x, hx, hs⟩ := bind_eq_some_iff.1 hs
  split at hs
  · rename_i hu
    cases hs
    have hstaged := total_set Session.size hx { x with uncounted := false }
    have hleft := total_set Session.left hx { x with uncounted := false }
    obtain ⟨n, hn, hupper, hlower⟩ := h.count k hk
    have hwithin := h.within
    have hmem : x.size ≤ total Session.left s.sessions := by
      have hle := le_total (w := Session.left) (List.mem_of_getElem? hx)
      rwa [Session.left, if_pos hu] at hle
    rw [State.staged] at hwithin hlower
    simp only [Session.left, hu, if_true, Bool.false_eq_true, if_false, Nat.add_zero] at hleft hstaged
    have hfits : Fits (k.total + x.size) := by
      rw [hn]
      exact ⟨by omega, by omega⟩
    refine ⟨h.reserved, ?_, h.bounded, ?_, h.ops, fun k' hk' => ?_, fun i t hit => ?_⟩
    · rw [State.staged]
      dsimp only
      omega
    · simp [h.exact, hfits]
    · cases hk'
      refine ⟨n + x.size, ?_, ?_, ?_⟩
      · dsimp only
        rw [wrap_eq hfits, hn]
        omega
      · dsimp only
        omega
      · rw [State.staged]
        dsimp only
        omega
    · have hpurpose : k.purpose = .reserve i := congrArg Count.purpose (Option.some.inj hit)
      refine h.asking i k.total ?_
      rw [hk, ← hpurpose]
  · cases hs

/-! ## Operations -/

theorem held_set (hop : s.ops[i]? = some op) (phase : Phase) :
    total Op.held (s.ops.set i { op with phase }) + op.held = total Op.held s.ops + Op.held { op with phase } :=
  total_set Op.held hop _

theorem owed_set (hop : s.ops[i]? = some op) (phase : Phase) :
    total Op.owed (s.ops.set i { op with phase }) + op.owed = total Op.owed s.ops + Op.owed { op with phase } :=
  total_set Op.owed hop _

theorem Inv.opOk_set (h : Inv c s) (hop : s.ops[i]? = some op) (phase : Phase) :
    ∀ op' ∈ s.ops.set i { op with phase }, OpOk c op' := by
  intro op' hmem
  rcases List.mem_or_eq_of_mem_set hmem with hmem | rfl
  · exact h.ops op' hmem
  · have hok := h.ops op (List.mem_of_getElem? hop)
    exact ⟨hok.nonneg, hok.covers, hok.le_target, hok.fits⟩

theorem Inv.asking_set (h : Inv c s) (hop : s.ops[i]? = some op) (hpast : op.phase ≠ .asking)
    (phase : Phase) : ∀ j t, s.count = some ⟨.reserve j, t⟩ →
    ∃ op', (s.ops.set i { op with phase })[j]? = some op' ∧ op'.phase = .asking := by
  intro j t hcount
  obtain ⟨op', hop', hask⟩ := h.asking j t hcount
  refine ⟨op', ?_, hask⟩
  rw [List.getElem?_set_ne, hop']
  rintro rfl
  rw [hop] at hop'
  cases hop'
  exact hpast hask

theorem Inv.startOp (h : Inv c s) (hok : OpOk c op) (hheld : op.held = 0) :
    Inv c { s with ops := s.ops ++ [op] } := by
  have howed : op.owed = 0 := Nat.le_zero.1 (hheld ▸ owed_le_held op)
  have htotal : total Op.held (s.ops ++ [op]) = total Op.held s.ops := by
    rw [total_concat, hheld, Nat.add_zero]
  have htotal' : total Op.owed (s.ops ++ [op]) = total Op.owed s.ops := by
    rw [total_concat, howed, Nat.add_zero]
  refine ⟨?_, ?_, ?_, h.exact, ?_, ?_, ?_⟩
  · exact htotal.symm ▸ h.reserved
  · exact htotal'.symm ▸ h.within
  · exact htotal.symm ▸ h.bounded
  · intro op' hmem
    rcases List.mem_append.1 hmem with hmem | hmem
    · exact h.ops op' hmem
    · exact List.mem_singleton.1 hmem ▸ hok
  · intro k hk
    dsimp only
    rw [htotal, htotal']
    exact h.count k hk
  · intro i t hcount
    obtain ⟨op', hop', hask⟩ := h.asking i t hcount
    refine ⟨op', ?_, hask⟩
    dsimp only
    rw [List.getElem?_append_left, hop']
    exact (List.getElem?_eq_some_iff.1 hop').1

theorem Inv.startWrite {offset len : Nat} {full : Bool} (h : Inv c s)
    (hok : Covered c s (.write j offset len full))
    (hs : s.startWrite j offset len full = some s') : Inv c s' := by
  obtain ⟨x, hx, hs⟩ := bind_eq_some_iff.1 hs
  have hsize : x.size ≤ c.quota := by
    have hle := le_total (w := Session.size) (List.mem_of_getElem? hx)
    have hwithin := h.within
    rw [State.staged] at hwithin
    omega
  change 2 * c.quota + (offset + len) < 2 ^ 63 at hok
  have hfin : Fits ((offset : Int) + len) := ⟨by omega, by omega⟩
  have hgrowth : Fits ((offset : Int) + len - x.size) := ⟨by omega, by omega⟩
  split at hs
  · rw [wrap_eq hfin, wrap_eq hgrowth, decide_eq_true ⟨hfin, hgrowth⟩, Bool.not_true, Bool.or_false] at hs
    split at hs
    · cases hs
      exact h
    · cases hs
      refine h.startOp ⟨?_, ?_, ?_, ?_⟩ rfl
      · dsimp only
        split <;> omega
      · dsimp only [Request.target]
        split <;> omega
      · dsimp only [Request.target]
        split <;> omega
      · exact hok
  · cases hs

theorem Inv.startTruncate {full : Bool} (h : Inv c s) (hok : Covered c s (.truncate j size full))
    (hs : s.startTruncate j size full = some s') : Inv c s' := by
  obtain ⟨x, hx, hs⟩ := bind_eq_some_iff.1 hs
  change 2 * c.quota + size < 2 ^ 63 at hok
  split at hs
  · split at hs
    · split at hs
      · cases hs
        exact h
      · cases hs
        refine h.startOp ⟨?_, ?_, ?_, hok⟩ rfl
        · dsimp only
          omega
        all_goals
          dsimp only [Request.target]
          omega
    · cases hs
      refine h.startOp ⟨?_, ?_, ?_, hok⟩ rfl
      · exact Int.le_refl 0
      all_goals
        dsimp only [Request.target]
        omega
  · cases hs

theorem total_left_counted (h : (s.sessions.all fun x => !x.uncounted)) :
    total Session.left s.sessions = 0 := by
  refine total_eq_zero fun x hx => ?_
  have hu := List.all_eq_true.1 h x hx
  rw [Bool.not_eq_true'] at hu
  rw [Session.left, hu]
  rfl

theorem Inv.counted (h : Inv c s) (hq : 2 * c.quota < 2 ^ 63) (hs : s.counted c = some s') : Inv c s' := by
  obtain ⟨k, hk, hs⟩ := bind_eq_some_iff.1 hs
  split at hs
  · cases hs
  · split at hs
    · rename_i hall
      cases hs
      obtain ⟨n, hn, hupper, -⟩ := h.count k hk
      have hfit : sumsFit c k.total s.reservedBytes 0 := by
        rw [hn, h.reserved]
        exact sumsFit_of_le hq (by omega) h.bounded (Int.le_refl 0) (by omega)
      refine ⟨h.reserved, h.within, h.bounded, ?_, h.ops, by simp, by simp⟩
      simp [h.exact, hfit]
    · cases hs

theorem projected_eq (hq : 2 * c.quota < 2 ^ 63) {n r : Nat} {growth : Int} {disk : Option Nat}
    (hn : n ≤ c.quota) (hr : r ≤ c.quota) (hlow : 0 ≤ growth)
    (hgrowth : 2 * (c.quota : Int) + growth < 2 ^ 63)
    (hallow : reserveWrite c (pressureState c n r growth disk) expired = .allow) :
    (n : Int) + r + growth ≤ c.quota := by
  have hle := projected_of_allow hallow
  have hused : wrap ((n : Int) + r) = n + r := wrap_eq ⟨by omega, by omega⟩
  have hsum : wrap ((n : Int) + r + growth) = n + r + growth := wrap_eq ⟨by omega, by omega⟩
  rw [pressureState] at hle
  dsimp only at hle
  rwa [hused, hsum, c.quotaBytes_eq hq] at hle

theorem Inv.decided (h : Inv c s) {d : Decision} (hop : s.ops[i]? = some op) (hask : op.phase = .asking)
    (hallow : d = .allow → s.staged + total Op.owed s.ops + op.growth.toNat ≤ c.quota ∧
    total Op.held s.ops + op.growth.toNat ≤ c.quota)
    (hq : 2 * c.quota < 2 ^ 63) : Inv c (s.decided i op d) := by
  have hok := h.ops op (List.mem_of_getElem? hop)
  have hnonneg := hok.nonneg
  have hreserved := h.reserved
  have hheld : op.held = 0 := by rw [Op.held, hask]
  have howed : op.owed = 0 := by rw [Op.owed, hask]
  cases d with
  | wait => exact ⟨h.reserved, h.within, h.bounded, h.exact, h.ops, by simp [State.decided], by simp [State.decided]⟩
  | reject =>
    have htotal : total Op.held (s.ops.set i { op with phase := .done }) = total Op.held s.ops := by
      have hset := held_set hop .done
      rw [hheld] at hset
      exact hset
    have htotal' : total Op.owed (s.ops.set i { op with phase := .done }) = total Op.owed s.ops := by
      have hset := owed_set hop .done
      rw [howed] at hset
      exact hset
    rw [State.decided]
    refine ⟨?_, ?_, ?_, h.exact, h.opOk_set hop _, by simp, by simp⟩
    · exact htotal.symm ▸ h.reserved
    · exact htotal'.symm ▸ h.within
    · exact htotal.symm ▸ h.bounded
  | allow =>
    obtain ⟨hwithin, hbounded⟩ := hallow rfl
    have htotal : total Op.held (s.ops.set i { op with phase := .granted }) =
        total Op.held s.ops + op.growth.toNat := by
      have hset := held_set hop .granted
      rw [hheld] at hset
      exact hset
    have htotal' : total Op.owed (s.ops.set i { op with phase := .granted }) =
        total Op.owed s.ops + op.growth.toNat := by
      have hset := owed_set hop .granted
      rw [howed] at hset
      exact hset
    have hfits : Fits (s.reservedBytes + op.growth) := ⟨by omega, by omega⟩
    -- the count that follows begins anew, so nothing is known of one here
    have hgranted : Inv c
        { s with
          ops := s.ops.set i { op with phase := .granted }
          reservedBytes := wrap (s.reservedBytes + op.growth)
          overflowed := s.overflowed || !decide (Fits (s.reservedBytes + op.growth))
          count := none } := by
      refine ⟨?_, ?_, ?_, ?_, h.opOk_set hop _, by simp, by simp⟩
      · dsimp only
        rw [wrap_eq hfits, htotal]
        omega
      · dsimp only [State.staged] at hwithin ⊢
        omega
      · dsimp only
        omega
      · simp [h.exact, hfits]
    exact hgranted.startCount (by simp)

theorem Inv.decideReservation {disk : Option Nat} (h : Inv c s) (hq : 2 * c.quota < 2 ^ 63)
    (hs : s.decideReservation c disk expired = some s') : Inv c s' := by
  obtain ⟨k, hk, hs⟩ := bind_eq_some_iff.1 hs
  split at hs
  · cases hs
  · rename_i i hpurpose
    obtain ⟨op, hop, hs⟩ := bind_eq_some_iff.1 hs
    split at hs
    · rename_i hall
      obtain ⟨n, hn, hupper, hlower⟩ := h.count k hk
      obtain ⟨op', hop', hask⟩ := h.asking i k.total (by rw [hk, ← hpurpose])
      obtain rfl : op = op' := Option.some.inj (hop.symm.trans hop')
      have hok := h.ops op (List.mem_of_getElem? hop)
      have hcount := total_left_counted hall
      have hbounded := h.bounded
      have hnonneg := hok.nonneg
      have hle := hok.le_target
      have hfits := hok.fits
      have hfit : sumsFit c k.total s.reservedBytes op.growth := by
        rw [hn, h.reserved]
        exact sumsFit_of_le hq (by omega) hbounded hnonneg (by omega)
      rw [hfit, Bool.not_true, Bool.or_false] at hs
      cases hs
      refine h.decided hop hask (fun hallow => ?_) hq
      rw [hn, h.reserved] at hallow
      have hproj := projected_eq hq (by omega) hbounded hnonneg (by omega) hallow
      constructor <;> omega
    · cases hs

theorem Inv.release (h : Inv c s) (hs : s.release i = some s') : Inv c s' := by
  obtain ⟨op, hop, hs⟩ := bind_eq_some_iff.1 hs
  split at hs
  · rename_i hchanged
    have hheld : op.held = op.growth.toNat := by rw [Op.held, hchanged]
    have howed : op.owed = 0 := by rw [Op.owed, hchanged]
    have htotal : total Op.held (s.ops.set i { op with phase := .done }) + op.growth.toNat =
        total Op.held s.ops := by
      have hset := held_set hop .done
      rw [hheld] at hset
      exact hset
    have htotal' : total Op.owed (s.ops.set i { op with phase := .done }) = total Op.owed s.ops := by
      have hset := owed_set hop .done
      rw [howed] at hset
      exact hset
    have hpast : op.phase ≠ .asking := by simp [hchanged]
    have hreserved := h.reserved
    have hbounded := h.bounded
    split at hs
    · rename_i hnone
      cases hs
      have hsame : total Op.held (s.ops.set i { op with phase := .done }) = total Op.held s.ops := by omega
      refine ⟨?_, ?_, ?_, h.exact, h.opOk_set hop _, ?_, h.asking_set hop hpast _⟩
      · exact hsame.symm ▸ h.reserved
      · exact htotal'.symm ▸ h.within
      · exact hsame.symm ▸ h.bounded
      · intro k hk
        dsimp only
        rw [hsame, htotal']
        exact h.count k hk
    · rename_i hsome
      split at hs
      · rename_i hfree
        cases hs
        have hreleased : Inv c
            { s with
              ops := s.ops.set i { op with phase := .done }
              reservedBytes := if s.reservedBytes < op.growth then 0 else s.reservedBytes - op.growth } := by
          refine ⟨?_, ?_, ?_, h.exact, h.opOk_set hop _, ?_, h.asking_set hop hpast _⟩
          · dsimp only
            rw [if_neg (by omega)]
            omega
          · exact htotal'.symm ▸ h.within
          · dsimp only
            omega
          · intro k hk
            exact absurd (hfree.symm.trans hk) (by simp)
        exact hreleased.startCount (by simp)
      · cases hs
  · cases hs

/-- A change adds no more than its reservation, to a session that is not smaller than when
it was read. -/
theorem changedSize_le {x : Session} (hok : OpOk c op)
    (hsize : op.currentSize ≤ x.size ∨ op.request.target ≤ x.size) :
    State.changedSize x.size op.request ≤ x.size + op.growth.toNat ∧ State.changeFits op.request := by
  obtain ⟨hnonneg, hcovers, -, hfits⟩ := hok
  cases hreq : op.request with
  | truncate size =>
    rw [hreq, Request.target] at hcovers hsize
    exact ⟨by rw [State.changedSize]; omega, rfl⟩
  | write offset len =>
    rw [hreq, Request.target] at hcovers hsize hfits
    have hfin : Fits ((offset : Int) + len) := ⟨by omega, by omega⟩
    constructor
    · rw [State.changedSize, wrap_eq hfin]
      split <;> omega
    · rw [State.changeFits]
      exact decide_eq_true hfin

theorem Inv.change {succeeds : Bool} (h : Inv c s) (hcov : Covered c s (.change i succeeds))
    (hs : s.change i succeeds = some s') : Inv c s' := by
  obtain ⟨op, hop, hs⟩ := bind_eq_some_iff.1 hs
  obtain ⟨x, hx, hs⟩ := bind_eq_some_iff.1 hs
  split at hs
  · rename_i hgranted
    have hok := h.ops op (List.mem_of_getElem? hop)
    have hheld : total Op.held (s.ops.set i { op with phase := .changed }) = total Op.held s.ops := by
      have hset := held_set hop .changed
      have hsame : Op.held { op with phase := .changed } = op.held := by rw [Op.held, Op.held, hgranted.1]
      omega
    have howed : total Op.owed (s.ops.set i { op with phase := .changed }) + op.growth.toNat =
        total Op.owed s.ops := by
      have hset := owed_set hop .changed
      have hbefore : op.owed = op.growth.toNat := by rw [Op.owed, hgranted.1]
      rw [hbefore] at hset
      exact hset
    have hpast : op.phase ≠ .asking := by simp [hgranted.1]
    obtain ⟨hgrow, hfit⟩ := changedSize_le hok (hcov op hop x hx)
    cases succeeds with
    | true =>
      simp only [if_true, Bool.true_and, hfit, Bool.not_true, Bool.or_false] at hs
      cases hs
      exact h.resize hx (h.opOk_set hop _) hheld (by omega) (by omega) (h.asking_set hop hpast _)
    | false =>
      simp only [Bool.false_eq_true, if_false, Bool.false_and, Bool.or_false] at hs
      cases hs
      have hself : s.sessions.set op.session x = s.sessions := by
        obtain ⟨hlt, rfl⟩ := List.getElem?_eq_some_iff.1 hx
        exact List.set_getElem_self hlt
      rw [← hself]
      exact h.resize hx (h.opOk_set hop _) hheld (by omega) (by omega) (h.asking_set hop hpast _)
  · cases hs

end Steps

/-- In every run whose growth is covered, what is reserved is what the operations hold, no
sum overflows and the sessions stay within the quota. -/
theorem staging_within_quota {c : Config} (hq : 2 * c.quota < 2 ^ 63) {s : State}
    (h : Reach (quotaSystem c) (Covered c) s) :
    s.reservedBytes = (total Op.held s.ops : Nat) ∧ s.overflowed = false ∧ s.staged ≤ c.quota := by
  have hinv : Inv c s := by
    refine Reach.invariant (I := Inv c) ?_ ?_ h
    · rintro s ⟨hops, hres, hcount, hexact, -, hwithin⟩
      refine ⟨by simp [hops, hres, total], by simpa [hops, total] using hwithin, by simp [hops, total], hexact,
        by simp [hops], by simp [hcount], by simp [hcount]⟩
    · intro s e s' hs hok hstep
      change s.next c e = some s' at hstep
      cases e with
      | openSession size => exact hs.openSession hok hstep
      | prefetch j size => exact hs.prefetch hok hstep
      | write j offset len full => exact hs.startWrite hok hstep
      | truncate j size full => exact hs.startTruncate hok hstep
      | reserve i => exact hs.reserve hstep
      | count j => exact hs.countSession hq hstep
      | decide disk expired => exact hs.decideReservation hq hstep
      | metrics => exact hs.metrics hstep
      | counted => exact hs.counted hq hstep
      | change i succeeds => exact hs.change hok hstep
      | release i => exact hs.release hstep
  have hwithin := hinv.within
  exact ⟨hinv.reserved, hinv.exact, by omega⟩

/-! ## Growth without a reservation -/

/-- A gigabyte of staging, without backpressure. -/
def oneGigabyte : Config := ⟨1, by decide, false, false, 80, 95⟩

/-- Sessions of the given sizes, and no operation. -/
def atRest (sizes : List Nat) : State := ⟨sizes.map fun n => ⟨n, false, false⟩, [], 0, none, false⟩

theorem starts_atRest {c : Config} {sizes : List Nat} (h : (atRest sizes).staged ≤ c.quota) :
    Starts c (atRest sizes) := ⟨rfl, rfl, rfl, rfl, by simp [atRest], h⟩

/-- Five bytes are added to an empty session. -/
def fiveBytes : List Label :=
  [.truncate 0 5 false, .reserve 0, .count 0, .decide none false, .count 0, .counted, .change 0 true]

theorem five_bytes_within_quota : ∃ s : State, s.staged = 5 ∧
    s.reservedBytes = (total Op.held s.ops : Nat) ∧ s.overflowed = false ∧
    s.staged ≤ oneGigabyte.quota := by
  have hrun : (runFrom (State.next oneGigabyte) (Covered oneGigabyte) (atRest [0]) fiveBytes).any
      (fun s => decide (s.staged = 5)) := by decide
  have hstart : Starts oneGigabyte (atRest [0]) := starts_atRest (by decide)
  obtain ⟨s, hs, hp⟩ := exists_reach hstart hrun
  exact ⟨s, of_decide_eq_true hp, staging_within_quota (by decide) hs⟩

/-- A write that ends where the session ends is granted no growth.  Before it is made the
session is cut to nothing and another one takes the room. -/
def staleGrowth : List Label :=
  [.write 0 (2 ^ 30 - 1) 1 false, .reserve 0, .count 0, .count 1, .decide none false, .count 0, .count 1, .counted,
    .truncate 0 0 false, .change 1 true,
    .write 1 (2 ^ 30 - 1) 1 false, .reserve 2, .count 0, .count 1, .decide none false, .count 0, .count 1, .counted,
    .change 2 true, .change 0 true]

/-- The sessions exceed the quota after a prefetch of two gigabytes, and, with nothing
prefetched, after a write whose growth was computed from a size that no longer holds; and a
write at the end of the 64-bit offsets overflows. -/
theorem quota_exceeded : (∃ s, Reach (quotaSystem oneGigabyte) always s ∧ oneGigabyte.quota < s.staged ∧
    s.ops = []) ∧ (∃ s, Reach (quotaSystem oneGigabyte) always s ∧ oneGigabyte.quota < s.staged ∧
    ∀ x ∈ s.sessions, x.prefetched = false) ∧ ∃ s, Reach (quotaSystem oneGigabyte) always s ∧
    s.overflowed = true := by
  have hprefetch : (runFrom (State.next oneGigabyte) always (atRest [0]) [.prefetch 0 (2 ^ 31)]).any
      (fun s => decide (oneGigabyte.quota < s.staged ∧ s.ops = [])) := by decide
  have hstale : (runFrom (State.next oneGigabyte) always (atRest [2 ^ 30, 0]) staleGrowth).any
      (fun s => decide (oneGigabyte.quota < s.staged ∧ ∀ x ∈ s.sessions, x.prefetched = false)) := by decide
  have hoverflow : (runFrom (State.next oneGigabyte) always (atRest [0]) [.write 0 (2 ^ 63 - 1) 1 false]).any
      (fun s => decide (s.overflowed)) := by decide
  have hempty : Starts oneGigabyte (atRest [0]) := starts_atRest (by decide)
  have hfull : Starts oneGigabyte (atRest [2 ^ 30, 0]) := starts_atRest (by decide)
  refine ⟨?_, ?_, ?_⟩
  · obtain ⟨s, hs, hp⟩ := exists_reach hempty hprefetch
    exact ⟨s, hs, of_decide_eq_true hp⟩
  · obtain ⟨s, hs, hp⟩ := exists_reach hfull hstale
    exact ⟨s, hs, of_decide_eq_true hp⟩
  · obtain ⟨s, hs, hp⟩ := exists_reach hempty hoverflow
    exact ⟨s, hs, of_decide_eq_true hp⟩

end Bluestone.Quota
