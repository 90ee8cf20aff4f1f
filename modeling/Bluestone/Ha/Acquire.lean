/-
# `Bluestone.Ha.Acquire` — one start of a gateway

`Acquire` as one program: the read of the lease, the write of this node's own, the
read back and the marker, with what each request answers given from outside.  The
lease of another host is meant to hold a gateway off; whether a lease is this
host's own is decided by comparing the first bytes of its holder id.
-/
import Bluestone.Ha.Lease

namespace Bluestone.Ha

open Cuts

/-- What `Acquire` looks at: the object under the lease key and the marker file of
this node. -/
structure Site where
  object : Option Stored
  marker : Option String
  deriving DecidableEq, Repr

/-- How the requests of one `Acquire` end, and when. -/
structure Answers where
  now : Int
  /-- The first read is answered. -/
  reads : Bool
  put : Put
  /-- When the write returned. -/
  written : Int
  /-- The read back is answered. -/
  readsBack : Bool
  /-- The marker could be written. -/
  marks : Bool
  deriving DecidableEq, Repr

def readLease (answered : Bool) (object : Option Stored) : LeaseRead :=
  if answered then readStored object else .failed

/-- A result as a program that changes nothing. -/
def ofExcept {A : Type} : Except AcquireError A → Program Site AcquireError A
  | .ok a => Program.done a
  | .error e => Program.fail e

/-- The bucket after a write of `l`. -/
def Site.put (s : Site) (put : Put) (l : Lease) : Site :=
  if put.lands then { s with object := some (.lease l) } else s

/-- The marker file after `writeLocalMarker` on the node `hostname`. -/
def Site.mark (s : Site) (marks : Bool) (hostname : String) : Site :=
  if marks then { s with marker := some hostname } else s

/-- `PutObject` of the lease. -/
def putLease (l : Lease) (put : Put) : Program Site AcquireError PUnit :=
  if put.lands then Program.step fun site => site.put put l else Program.done ⟨⟩

/-- The read back, which only a successful write is followed by. -/
def standDown (m : Manager) (a : Answers) : Program Site AcquireError PUnit :=
  Program.read fun site =>
    match m.lostAcquireRace (readLease a.readsBack site.object) with
    | some winner => if a.put = .ok then Program.fail (.leaseHeld winner) else Program.done ⟨⟩
    | none => Program.done ⟨⟩

def writeLocalMarker (m : Manager) (marks : Bool) : Program Site AcquireError PUnit :=
  if marks then Program.step fun site => site.mark marks m.hostname else Program.done ⟨⟩

/-- `Acquire` from the write of the lease on. -/
def takeOver (m : Manager) (opts : Options) (a : Answers) : Program Site AcquireError Manager :=
  Program.read fun site => do
    putLease m.lease a.put
    let m ← ofExcept (m.afterFirstWrite opts.forceTakeover site.marker a.written a.put)
    standDown m a
    writeLocalMarker m a.marks
    pure m

/-- `Acquire` of a node with this host name and a fresh holder id. -/
def acquire (opts : Options) (hostname holderID : String) (a : Answers) :
    Program Site AcquireError Manager :=
  Program.read fun site => do
    let m := newManager opts hostname holderID
    let epoch ← ofExcept
      (m.afterRead opts.forceTakeover site.marker a.now (readLease a.reads site.object))
    takeOver ((m.claim epoch a.now).sending a.now) opts a

/-! ## The holder id and the host name -/

theorem leaseFromSameHost_iff {holderID hostname : String} : leaseFromSameHost holderID hostname ↔
    hostname.toList <+: holderID.toList ∧ hostname ≠ holderID := by
  rw [leaseFromSameHost, Bool.and_eq_true, decide_eq_true_iff, hasPrefix_iff]
  refine ⟨fun ⟨hlen, hpre⟩ => ⟨hpre, ?_⟩, fun ⟨hpre, hne⟩ => ⟨?_, hpre⟩⟩
  · rintro rfl
    exact lt_irrefl _ hlen
  · obtain ⟨rest, hrest⟩ := hpre
    have hid : holderID = hostname ++ String.ofList rest := by
      rw [← String.toList_inj]
      simp [hrest]
    have hpos : (String.ofList rest).utf8ByteSize ≠ 0 := by
      intro h0
      exact hne (by simpa [String.utf8ByteSize_eq_zero_iff.1 h0] using hid.symm)
    rw [hid, String.utf8ByteSize_append]
    omega

/-- A lease is taken for this node's own when the marker names this host and the
holder id begins with the host name. -/
theorem localMarkerMatches_iff {m : Manager} {marker : Option String} {holderID : String} :
    m.localMarkerMatches marker holderID ↔ marker = some m.hostname ∧
    m.hostname.toList <+: holderID.toList ∧ m.hostname ≠ holderID := by
  rw [Manager.localMarkerMatches, Bool.and_eq_true, Bool.and_eq_true, decide_eq_true_iff,
    decide_eq_true_iff, leaseFromSameHost_iff]
  refine ⟨fun h => ⟨h.1.1, h.2⟩, fun h => ⟨⟨h.1, ?_⟩, h.2⟩⟩
  rintro rfl
  exact h.2.2 (String.toList_inj.1 (List.prefix_nil.1 h.2.1))

/-! ## Where `Acquire` ends -/

section
variable {opts : Options} {hostname holderID : String} {a : Answers} {s : Site}

theorem acquire_of_refused {e : AcquireError}
    (h : (newManager opts hostname holderID).afterRead opts.forceTakeover s.marker a.now
    (readLease a.reads s.object) = .error e) :
    acquire opts hostname holderID a s = ⟨[], s, .error e⟩ := by
  rw [acquire, Program.read, bind_of_error (e := e)]
  all_goals rw [h]; rfl

/-- From `P` the program does not fail, and ends with `Q`. -/
def Succeeds {A : Type} (P : Site → Prop) (m : Program Site AcquireError A) (Q : A → Site → Prop) :
    Prop :=
  Triple P m Q (fun _ _ => False) (fun _ => True)

theorem ofExcept_succeeds {A : Type} {r : Except AcquireError A} {v : A} {P : Site → Prop}
    (h : r = .ok v) : Succeeds P (ofExcept r) (fun v' s => v' = v ∧ P s) := by
  rw [h]
  exact .done fun _ hs => ⟨trivial, rfl, hs⟩

theorem Site.put_object (s : Site) (put : Put) (l : Lease) :
    (s.put put l).object = if put.lands then some (.lease l) else s.object := by
  rw [Site.put]
  split <;> rfl

theorem putLease_succeeds {l : Lease} {put : Put} :
    Succeeds (fun s' => s' = s) (putLease l put) (fun _ s' => s' = s.put put l) := by
  rw [putLease]
  split
  · refine .step ?_
    rintro s' rfl
    exact ⟨trivial, trivial, rfl⟩
  · refine .done ?_
    rintro s' rfl
    exact ⟨trivial, by simp [Site.put, *]⟩

theorem writeLocalMarker_succeeds {m : Manager} {marks : Bool} : Succeeds (fun s' => s' = s)
    (writeLocalMarker m marks) (fun _ s' => s' = s.mark marks m.hostname) := by
  rw [writeLocalMarker]
  split
  · refine .step ?_
    rintro s' rfl
    exact ⟨trivial, trivial, rfl⟩
  · refine .done ?_
    rintro s' rfl
    exact ⟨trivial, by simp [Site.mark, *]⟩

theorem standDown_succeeds {m : Manager}
    (h : a.put = .ok → m.lostAcquireRace (readLease a.readsBack s.object) = none) :
    Succeeds (fun s' => s' = s) (standDown m a) (fun _ s' => s' = s) := by
  refine .read ?_
  rintro s' rfl
  split
  · rename_i winner hwin
    split
    · rename_i hput
      rw [h hput] at hwin
      cases hwin
    · exact .done fun _ hs => ⟨trivial, hs⟩
  · exact .done fun _ hs => ⟨trivial, hs⟩

theorem lostAcquireRace_own {m : Manager} {answered : Bool} {l : Lease} (h : l.holderID = m.holderID) :
    m.lostAcquireRace (readLease answered (some (.lease l))) = none := by
  cases answered with
  | false => rfl
  | true => exact if_pos h

/-- A first write that succeeds is no error, nor is one that fails where the marker is
in place. -/
theorem afterFirstWrite_ok {m : Manager} (force : Bool) (now : Int) {put : Put}
    (h : put = .ok ∨ s.marker = some m.hostname) :
    ∃ m', m.afterFirstWrite force s.marker now put = .ok m' ∧ m'.lease = m.lease ∧
    m'.holderID = m.holderID := by
  rcases h with rfl | hmark
  · exact ⟨_, rfl, rfl, rfl⟩
  · have hpresent : m.localMarkerPresent s.marker := by
      simp [Manager.localMarkerPresent, hmark]
    cases put with
    | ok => exact ⟨_, rfl, rfl, rfl⟩
    | quota | failed landed => exact ⟨m, by simp [Manager.afterFirstWrite, hpresent], rfl, rfl⟩

/-- Nothing after the first read stops such a start, if no other gateway's write
comes in between. -/
theorem takeOver_succeeds {m : Manager} (hid : m.lease.holderID = m.holderID)
    (h : a.put = .ok ∨ s.marker = some m.hostname) :
    Succeeds (fun s' => s' = s) (takeOver m opts a) (fun _ _ => True) := by
  obtain ⟨m', hm', hlease, hholder⟩ :=
    afterFirstWrite_ok opts.forceTakeover a.written h
  refine .read ?_
  rintro s' rfl
  refine .bind putLease_succeeds fun _ => .bind (ofExcept_succeeds hm') fun m'' => ?_
  refine .assume (fun _ h => h.1) ?_
  rintro rfl
  have hown : a.put = .ok →
      m''.lostAcquireRace (readLease a.readsBack (s'.put a.put m.lease).object) = none := by
    intro hput
    rw [Site.put_object, hput]
    exact lostAcquireRace_own (hid.trans hholder.symm)
  refine .bind ((standDown_succeeds hown).conseq (fun _ h => h.2) (fun _ _ h => h)
    (fun _ _ h => h)) fun _ => ?_
  exact .bind writeLocalMarker_succeeds fun _ => .done fun _ _ => ⟨trivial, trivial⟩

theorem acquire_succeeds {epoch : UInt64}
    (h : (newManager opts hostname holderID).afterRead opts.forceTakeover s.marker a.now
    (readLease a.reads s.object) = .ok epoch) (hput : a.put = .ok ∨ s.marker = some hostname) :
    ∃ m, (acquire opts hostname holderID a s).result = .ok m := by
  have hsucc : Succeeds (fun s' => s' = s) (acquire opts hostname holderID a) (fun _ _ => True) := by
    refine .read ?_
    rintro s' rfl
    refine .bind (ofExcept_succeeds h) fun epoch' => ?_
    exact (takeOver_succeeds rfl hput).conseq (fun _ h => h.2) (fun _ _ h => h) (fun _ _ h => h)
  cases hres : (acquire opts hostname holderID a s).result with
  | error e => exact (Triple.of_error hsucc rfl hres).elim
  | ok m => exact ⟨m, rfl⟩

end

/-! ## A lease of another host -/

/-- `Acquire` returned `ErrLeaseHeld` for the lease in the bucket and wrote nothing
to the bucket. -/
def HeldOff (l : Lease) (o : Outcome Site AcquireError Manager) : Prop :=
  o.result = .error (.leaseHeld l) ∧ ∀ site ∈ o.passed, site.object = some (.lease l)

/-- What the switch makes of a fresh lease in the bucket: it holds the start off,
unless it counts as this node's own. -/
theorem acquire_heldOff_iff {opts : Options} {a : Answers} {hostname holderID : String} {l : Lease}
    {marker : Option String} (hforce : opts.forceTakeover = false) (hreads : a.reads)
    (hfresh : a.now - l.renewedAt < (newManager opts hostname holderID).leaseTimeout) :
    HeldOff l (acquire opts hostname holderID a ⟨some (.lease l), marker⟩) ↔
    (newManager opts hostname holderID).localMarkerMatches marker l.holderID = false := by
  have hread : readLease a.reads (some (.lease l)) = .lease l := by rw [readLease, hreads]; rfl
  have hfresh' : (newManager opts hostname holderID).fresh a.now l := decide_eq_true hfresh
  constructor
  · rintro ⟨hheld, _⟩
    by_contra hmatch
    rw [Bool.not_eq_false] at hmatch
    have hgo : (newManager opts hostname holderID).afterRead opts.forceTakeover marker a.now
        (readLease a.reads (some (.lease l))) = .ok l.epoch := by
      simp [hread, Manager.afterRead, hmatch]
    obtain ⟨m, hm⟩ := acquire_succeeds (s := ⟨some (.lease l), marker⟩) hgo
      (.inr (localMarkerMatches_iff.1 hmatch).1)
    rw [hm] at hheld
    cases hheld
  · intro hmatch
    rw [acquire_of_refused (e := .leaseHeld l)]
    · exact ⟨rfl, nofun⟩
    · simp [hread, Manager.afterRead, hfresh', hforce, hmatch]

/-- A fresh lease of a gateway on another host holds a start off exactly when it
is not the case that this node's marker is in place and the foreign holder id
begins with this node's host name, as it does where one host name begins with the
other. -/
theorem foreign_lease_holds_off_iff (opts : Options) (a : Answers) (hostname other : String)
    (pid otherPid : Nat) (suffix otherSuffix : List UInt8) (epoch : UInt64) (acquiredAt renewedAt : Int)
    (marker : Option String) (_hhost : other ≠ hostname) (hforce : opts.forceTakeover = false)
    (hreads : a.reads = true) (hfresh : a.now - renewedAt <
    (newManager opts hostname (newHolderID hostname pid suffix)).leaseTimeout) :
    HeldOff ⟨newHolderID other otherPid otherSuffix, other, epoch, acquiredAt, renewedAt⟩
    (acquire opts hostname (newHolderID hostname pid suffix) a
    ⟨some (.lease ⟨newHolderID other otherPid otherSuffix, other, epoch, acquiredAt,
    renewedAt⟩), marker⟩) ↔ ¬ (marker = some hostname ∧
    hostname.toList <+: (newHolderID other otherPid otherSuffix).toList ∧
    hostname ≠ newHolderID other otherPid otherSuffix) := by
  rw [acquire_heldOff_iff hforce hreads hfresh, Bool.eq_false_iff, Ne, localMarkerMatches_iff]
  rfl

/-- The lease `gw2` renewed a moment ago. -/
def freshLease : Lease := ⟨newHolderID "gw2" 7 [0, 1, 2, 3], "gw2", 5, 90, 99⟩

/-- A node called `gw` with its marker in place is not held off by it: it writes
its own lease over it. -/
theorem similar_host_lease_taken :
    ¬ HeldOff freshLease (acquire ⟨0, 0, false⟩ "gw" (newHolderID "gw" 9 [4, 5, 6, 7])
    ⟨100, true, .ok, 101, true, true⟩ ⟨some (.lease freshLease), some "gw"⟩) ∧
    (acquire ⟨0, 0, false⟩ "gw" (newHolderID "gw" 9 [4, 5, 6, 7])
    ⟨100, true, .ok, 101, true, true⟩ ⟨some (.lease freshLease), some "gw"⟩).final.object =
    some (.lease ⟨newHolderID "gw" 9 [4, 5, 6, 7], "gw", 6, 100, 100⟩) := by
  refine ⟨?_, by decide +kernel⟩
  rintro ⟨hheld, _⟩
  revert hheld
  decide +kernel

/-- A node called `gw` is held off by the lease of `backup`. -/
theorem backup_lease_holds_off : HeldOff ⟨newHolderID "backup" 7 [0, 1, 2, 3], "backup", 5, 90, 99⟩
    (acquire ⟨0, 0, false⟩ "gw" (newHolderID "gw" 9 [4, 5, 6, 7]) ⟨100, true, .ok, 101, true, true⟩
    ⟨some (.lease ⟨newHolderID "backup" 7 [0, 1, 2, 3], "backup", 5, 90, 99⟩), some "gw"⟩) :=
  (foreign_lease_holds_off_iff ⟨0, 0, false⟩ ⟨100, true, .ok, 101, true, true⟩ "gw" "backup" 9 7
    [4, 5, 6, 7] [0, 1, 2, 3] 5 90 99 (some "gw") (by decide) rfl rfl (by decide)).2
    (by decide +kernel)

end Bluestone.Ha
