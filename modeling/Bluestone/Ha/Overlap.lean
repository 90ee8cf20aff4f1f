/-
# `Bluestone.Ha.Overlap` — when a standby may promote and when the primary stops

Both sides measure the same lease.  A standby counts from the time written into it,
which is when the write was sent, and finds it stale once the timeout is reached.
The primary counts from when that write returned, needs more than the timeout, and
looks only when a failing heartbeat ends.  So from the moment the lease is stale
until the primary's own count passes the timeout both may serve.

A write that fails is taken to have had no effect, so that the lease in the bucket is
the last one the primary knows it wrote.
-/
import Bluestone.Ha.Acquire

namespace Bluestone.Ha

/-- A heartbeat whose write fails, and when its requests are made and end. -/
structure Beat where
  start : Int
  /-- The read is answered. -/
  reads : Bool
  sent : Int
  ended : Int
  deriving DecidableEq, Repr

/-- One round of the heartbeat loop, with a write that fails. -/
def Manager.heartbeat (m : Manager) (b : Beat) (object : Option Stored) : Manager :=
  match m.findsTaken (readLease b.reads object) with
  | some l => m.reportLoss (.taken l)
  | none => (m.sending b.sent).afterWrite (readLease b.reads object) b.ended (.failed false)

/-- The primary after its first `k` failing heartbeats. -/
def Manager.afterBeats (m : Manager) (beats : Nat → Beat) (object : Option Stored) : Nat → Manager
  | 0 => m
  | k + 1 => (m.afterBeats beats object k).heartbeat (beats k) object

/-- The loop's timer and deadlines: a round takes at most the interval, and the next
begins an interval after it ended. -/
structure Scheduled (m : Manager) (since : Int) (beats : Nat → Beat) : Prop where
  first : since ≤ (beats 0).start
  reading : ∀ k, (beats k).start ≤ (beats k).sent
  writing : ∀ k, (beats k).sent ≤ (beats k).ended
  deadline : ∀ k, (beats k).ended ≤ (beats k).start + m.heartbeatInterval
  next : ∀ k, (beats (k + 1)).start = (beats k).ended + m.heartbeatInterval

/-- The primary right after its last successful write, sent at `sent` and returned
at `returned`. -/
def lastRenewal (opts : Options) (hostname holderID : String) (epoch : UInt64)
    (acquired sent returned : Int) : Manager :=
  (((newManager opts hostname holderID).claim epoch acquired).sending sent).renewed returned

/-- By the time `t` a heartbeat of the primary has reported a loss. -/
def ReportedBy (m : Manager) (beats : Nat → Beat) (object : Option Stored) (t : Int) : Prop :=
  ∃ k, (beats k).ended ≤ t ∧ (m.afterBeats beats object (k + 1)).lost ≠ none

/-- A standby's `Acquire` at the time `t`, without force and without a marker, could
succeed. -/
def CouldPromote (opts : Options) (hostname holderID : String) (object : Option Stored) (t : Int) :
    Prop :=
  ∃ a m, a.now = t ∧ a.reads = true ∧
    (acquire { opts with forceTakeover := false } hostname holderID a ⟨object, none⟩).result = .ok m

/-- From `returned` on there is no instant at which a standby could promote while the
primary has not reported its loss. -/
def NoOverlap (opts : Options) (m : Manager) (beats : Nat → Beat) (returned : Int)
    (hostname holderID : String) : Prop :=
  ∀ t, returned ≤ t → CouldPromote opts hostname holderID (some (.lease m.lease)) t →
    ReportedBy m beats (some (.lease m.lease)) t

/-! ## The primary's side -/

section
variable {m : Manager} {beats : Nat → Beat} {returned : Int}

theorem leaseTimeout_pos (opts : Options) (hostname holderID : String) :
    0 < (newManager opts hostname holderID).leaseTimeout := by
  simp only [newManager, second]
  split <;> omega

theorem heartbeatInterval_pos (opts : Options) (hostname holderID : String) :
    0 < (newManager opts hostname holderID).heartbeatInterval := by
  simp only [newManager, second]
  split <;> omega

theorem Scheduled.ended_mono (h : Scheduled m returned beats) (hpos : 0 < m.heartbeatInterval)
    {j k : Nat} (hjk : j ≤ k) : (beats j).ended ≤ (beats k).ended := by
  induction k with
  | zero =>
    obtain rfl : j = 0 := by omega
    exact le_rfl
  | succ k ih =>
    rcases Nat.lt_or_ge k j with hlt | hle
    · obtain rfl : j = k + 1 := by omega
      exact le_rfl
    · have hnext := h.next k
      have hreading := h.reading (k + 1)
      have hwriting := h.writing (k + 1)
      have hih := ih hle
      omega

/-- What a primary that finds its own lease and has not yet counted past the timeout
keeps. -/
structure StillServes (m : Manager) (l : Lease) (timeout returned : Int) : Prop where
  own : l.holderID = m.holderID
  lastRenewed : m.lastRenewed = some returned
  timeout : m.leaseTimeout = timeout
  unreported : m.lost = none

theorem StillServes.heartbeat {l : Lease} {timeout : Int} {b : Beat}
    (h : StillServes m l timeout returned) (hb : b.ended ≤ returned + timeout) :
    StillServes (m.heartbeat b (some (.lease l))) l timeout returned := by
  have hown : m.findsTaken (readLease b.reads (some (.lease l))) = none := by
    cases b.reads with
    | false => rfl
    | true => exact if_neg (by simp [Manager.takenBy, h.own])
  have hcount : ¬ (m.sending b.sent).leaseTimeout < (m.sending b.sent).renewFailingFor b.ended := by
    have hlast : (m.sending b.sent).renewFailingFor b.ended = b.ended - returned := by
      simp [Manager.renewFailingFor, Manager.sending, h.lastRenewed]
    rw [hlast]
    have htimeout : (m.sending b.sent).leaseTimeout = timeout := h.timeout
    omega
  have hbeat : m.heartbeat b (some (.lease l)) = m.sending b.sent := by
    simp only [Manager.heartbeat, hown]
    exact if_neg hcount
  rw [hbeat]
  exact ⟨h.own, h.lastRenewed, h.timeout, h.unreported⟩

/-- As long as heartbeats end before the primary's own count passes the timeout,
nothing is reported. -/
theorem StillServes.afterBeats {l : Lease} {timeout : Int} (h : StillServes m l timeout returned)
    {n : Nat} (hn : ∀ k < n, (beats k).ended ≤ returned + timeout) :
    StillServes (m.afterBeats beats (some (.lease l)) n) l timeout returned := by
  induction n with
  | zero => exact h
  | succ n ih => exact (ih fun k hk => hn k (by omega)).heartbeat (hn n (by omega))

end

/-! ## Both sides -/

section
variable (opts : Options) (hostname holderID : String) (epoch : UInt64) (acquired : Int)
  {sent returned t : Int} {beats : Nat → Beat}

theorem not_reportedBy
    (hs : Scheduled (lastRenewal opts hostname holderID epoch acquired sent returned) returned beats)
    (ht : t ≤ returned + (newManager opts hostname holderID).leaseTimeout) :
    ¬ ReportedBy (lastRenewal opts hostname holderID epoch acquired sent returned) beats
    (some (.lease (lastRenewal opts hostname holderID epoch acquired sent returned).lease)) t := by
  rintro ⟨k, hended, hlost⟩
  have hserves : StillServes (lastRenewal opts hostname holderID epoch acquired sent returned)
      (lastRenewal opts hostname holderID epoch acquired sent returned).lease
      (newManager opts hostname holderID).leaseTimeout returned := ⟨rfl, rfl, rfl, rfl⟩
  refine hlost (hserves.afterBeats ?_).unreported
  intro j hj
  have hmono := hs.ended_mono (heartbeatInterval_pos opts hostname holderID) (Nat.lt_succ_iff.1 hj)
  omega

theorem couldPromote {l : Lease}
    (ht : l.renewedAt + (newManager opts hostname holderID).leaseTimeout ≤ t) :
    CouldPromote opts hostname holderID (some (.lease l)) t := by
  have hstale : (newManager opts hostname holderID).fresh t l = false := by
    rw [Manager.fresh, decide_eq_false_iff_not]
    omega
  have hgo : (newManager opts hostname holderID).afterRead false none t
      (readLease true (some (.lease l))) = .ok l.epoch := by
    refine if_neg ?_
    simp [hstale]
  have hacquire : ∃ m, (acquire { opts with forceTakeover := false } hostname holderID
      ⟨t, true, .ok, t, true, true⟩ ⟨some (.lease l), none⟩).result = .ok m :=
    acquire_succeeds hgo (.inl rfl)
  obtain ⟨m, hm⟩ := hacquire
  exact ⟨_, m, rfl, rfl, hm⟩

/-- The primary's last write was sent at `sent` and returned at `returned`; after it
its writes fail for good.  Whatever is configured and whenever the failing
heartbeats come, there is an instant at which a standby could promote while the
primary has not reported its loss. -/
theorem renewal_failure_leaves_overlap (standby standbyID : String) (hsent : sent ≤ returned)
    (hs : Scheduled (lastRenewal opts hostname holderID epoch acquired sent returned) returned beats) :
    ¬ NoOverlap opts (lastRenewal opts hostname holderID epoch acquired sent returned) beats returned
    standby standbyID := by
  intro hno
  have hpos := leaseTimeout_pos opts hostname holderID
  -- The lease is stale, and the primary's own count has not passed the timeout.
  refine not_reportedBy opts hostname holderID epoch acquired hs
    (t := max (sent + (newManager opts hostname holderID).leaseTimeout) returned) (by omega) ?_
  refine hno _ (by omega) (couldPromote opts standby standbyID ?_)
  exact le_max_left _ _

end

/-! ## The defaults -/

/-- A lease written at 0, in a second, with the default interval and timeout. -/
def secondLong : Manager := lastRenewal {} "gw-a" (newHolderID "gw-a" 1 []) 0 0 0 second

/-- Heartbeats that fail at once. -/
def promptFailures (k : Nat) : Beat :=
  ⟨(15 * k + 16) * second, true, (15 * k + 16) * second, (15 * k + 16) * second⟩

theorem promptFailures_scheduled : Scheduled secondLong second promptFailures where
  first := by decide
  reading k := le_rfl
  writing k := le_rfl
  deadline k := by
    change (15 * (k : Int) + 16) * second ≤ (15 * (k : Int) + 16) * second + 15 * second
    simp only [second]
    omega
  next k := by
    change (15 * ((k + 1 : Nat) : Int) + 16) * second = (15 * (k : Int) + 16) * second + 15 * second
    simp only [second]
    omega

/-- A minute after its last write was sent the primary has reported nothing, and a
standby could take the lease. -/
theorem minute_old_lease_overlaps : CouldPromote {} "gw-b" (newHolderID "gw-b" 1 [])
    (some (.lease secondLong.lease)) (60 * second) ∧
    ¬ ReportedBy secondLong promptFailures (some (.lease secondLong.lease)) (60 * second) := by
  refine ⟨couldPromote {} _ _ (by decide), ?_⟩
  exact not_reportedBy {} _ _ _ _ promptFailures_scheduled (by decide)

theorem default_renewal_failure_overlaps :
    ¬ NoOverlap {} secondLong promptFailures second "gw-b" (newHolderID "gw-b" 1 []) :=
  renewal_failure_leaves_overlap {} _ _ _ _ "gw-b" (newHolderID "gw-b" 1 []) (by decide)
    promptFailures_scheduled

end Bluestone.Ha
