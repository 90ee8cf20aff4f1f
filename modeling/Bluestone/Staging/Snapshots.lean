/-
# `Bluestone.Staging.Snapshots` — what an upload reads does not change

One session with its staging file and the upload snapshots taken of it, under writes,
truncations, prefetches, the opening and closing of snapshots, renames and cleanups.  A
rename of another staged file onto the path puts that file under the name first and closes
the session afterwards; a cleanup removes the name first.  In between the session goes on
with a file that its path no longer names.

The bytes the session had when each snapshot was opened are kept beside it as a history.
`Isolated` carries the argument: a snapshot that counts in `uploadReaders` reads the session's
file, and every other reads one that neither the session nor its path leads to, so what is
changed after `detachFromUploadsLocked` is read by none.

A snapshot opened in between reads, by name, the file that has taken the path, with the size
of the session's.  A rename of the session's own file puts it under the name of another
session, whose prefetch may be waiting for the object store: its download then opens that name
and rewrites the file.  And `Size` is not always the length of the file
(`Bluestone.Staging.ByteArray`).
-/
import Bluestone.Staging.ByteArray

namespace Bluestone

open Extents Runs
open Function (update update_of_ne)

/-- What happens to a session: an operation, a prefetch, a rename of its own staged file
(`fetching` when a prefetch of the session of the new name is under way), the download of such
a prefetch, a rename of another file onto its path, the removal of its staging file, and its
closing. -/
inductive SessionEvent
  | operation (op : Operation) (fault : Fault)
  | prefetch (body : Bytes) (how : Download) (moveFails : Bool)
  | renamed (fetching : Bool)
  | downloaded (body : Bytes) (how : Download)
  | replaced (bytes : Bytes)
  | removed
  | close
  deriving DecidableEq, Repr

namespace OpenSession

/-- `Prefetch`, which runs once. -/
def prefetch (s : OpenSession) (body : Bytes) (how : Download) (moveFails : Bool) : OpenSession :=
  if s.session.prefetched || (moveFails && s.session.uploadReaders != 0) then s
  else match s.session.prefetch s.disk body how with
    | .none => s
    | .some (ws, d, _) => { s with session := ws, disk := d }

def happen (s : OpenSession) : SessionEvent → OpenSession
  | .operation op fault => (s.perform op fault).2
  | .prefetch body how moveFails => s.prefetch body how moveFails
  -- `moveStagingFile`: the name goes with the file.
  | .renamed _ => { s with session := s.session.metadataChanged }
  | .downloaded body how => { s with disk := s.disk.downloadToFile body how }
  | .replaced bytes =>
    { s with
      disk := { s.disk with
        inode := update s.disk.inode s.disk.nextInode bytes
        nextInode := s.disk.nextInode + 1
        dataFile := some s.disk.nextInode } }
  | .removed => { s with disk := { s.disk with dataFile := none } }
  | .close => { s with session := { s.session with file := none } }

end OpenSession

/-- A session as it is opened, with no snapshot of it yet. -/
structure NewlyOpened (s : OpenSession) : Prop extends Opened s where
  snapshots : s.snapshots = []
  known : ∀ f, s.session.file = some f → f < s.disk.nextInode

/-- The event is the download of another session's prefetch. -/
def SessionEvent.downloads : SessionEvent → Bool
  | .downloaded _ _ => true
  | _ => false

/-- Whether another session's prefetch is yet to download, after the event. -/
def SessionEvent.fetching (before : Bool) : SessionEvent → Bool
  | .renamed fetching => fetching
  | .downloaded _ _ => false
  | _ => before

/-- The session, and whether another session's prefetch is yet to download under its name. -/
def snapshotSystem : System (OpenSession × Bool) SessionEvent where
  init p := NewlyOpened p.1 ∧ p.2 = false
  step p e p' := p' = (p.1.happen e, e.fetching p.2) ∧ (e.downloads = true → p.2 = true)

/-- Whether the event opens a snapshot. -/
def OpenSession.opens (s : OpenSession) : SessionEvent → Bool
  | .operation .openUploadSnapshot fault => (s.openUploadSnapshot fault).1
  | _ => false

/-- The session beside the bytes it had when each snapshot was opened. -/
def takenSystem : System ((OpenSession × Bool) × List Bytes) SessionEvent :=
  snapshotSystem.track (fun _ => []) fun p e _ taken => if p.1.opens e then taken ++ [p.1.bytes] else taken

/-- Changes to the file are made whole or not at all, nothing is written only up to the end,
a snapshot is opened while the session's path names its file, and the file is renamed while no
prefetch of the session of the new name is under way. -/
def PathKept (p : OpenSession × Bool) : SessionEvent → Prop
  | .operation .openUploadSnapshot _ => p.1.disk.dataFile = p.1.session.file
  | .operation op fault => Whole p.1 (op, fault)
  | .renamed fetching => fetching = false
  | _ => True

/-! ## The invariant -/

/-- A snapshot that holds the session's current file. -/
def OpenSession.holds (s : OpenSession) (snap : OpenedSnapshot) : Bool :=
  !snap.closed && snap.generation == s.session.fileGeneration

structure Isolated (s : OpenSession) (taken : List Bytes) : Prop where
  length : taken.length = s.snapshots.length
  bytes : ∀ (i : Nat) (snap : OpenedSnapshot), s.snapshots[i]? = some snap → snap.closed = false →
    taken[i]? = some (s.disk.inode snap.file) ∧ snap.size = (s.disk.inode snap.file).length
  readers : s.session.uploadReaders = s.snapshots.countP s.holds
  generation : ∀ snap ∈ s.snapshots, snap.generation ≤ s.session.fileGeneration
  current : ∀ snap ∈ s.snapshots, snap.closed = false →
    snap.generation = s.session.fileGeneration → ∀ f, s.session.file = some f → snap.file = f
  older : ∀ snap ∈ s.snapshots, snap.closed = false → snap.generation ≠ s.session.fileGeneration →
    s.session.file ≠ some snap.file ∧ s.disk.dataFile ≠ some snap.file
  known : ∀ snap ∈ s.snapshots, snap.file < s.disk.nextInode
  fileKnown : ∀ f, s.session.file = some f → f < s.disk.nextInode
  nameKnown : ∀ f, s.disk.dataFile = some f → f < s.disk.nextInode

/-- No snapshot reads the session's file, or the one under its path. -/
def Unread (s : OpenSession) : Prop :=
  ∀ snap ∈ s.snapshots, snap.closed = false →
    s.session.file ≠ some snap.file ∧ s.disk.dataFile ≠ some snap.file

/-- `Size` is the length of the file. -/
def Sized (s : OpenSession) : Prop :=
  ∀ f, s.session.file = some f → s.session.size = (s.disk.inode f).length

section
variable {s s' : OpenSession} {taken : List Bytes}

theorem holds_eq (hgen : s'.session.fileGeneration = s.session.fileGeneration) : s'.holds = s.holds := by
  funext snap
  rw [OpenSession.holds, OpenSession.holds, hgen]

/-- What the session's other fields and the files no snapshot reads are does not matter. -/
theorem Isolated.frame (h : Isolated s taken) (hsnaps : s'.snapshots = s.snapshots)
    (hreaders : s'.session.uploadReaders = s.session.uploadReaders)
    (hgen : s'.session.fileGeneration = s.session.fileGeneration)
    (hnext : s.disk.nextInode ≤ s'.disk.nextInode)
    (hfile : ∀ f, s'.session.file = some f → s.session.file = some f)
    (hname : ∀ f, s'.disk.dataFile = some f →
      s.disk.dataFile = some f ∨ (s.disk.nextInode ≤ f ∧ f < s'.disk.nextInode))
    (hinode : ∀ snap ∈ s.snapshots, snap.closed = false →
      s'.disk.inode snap.file = s.disk.inode snap.file) : Isolated s' taken where
  length := hsnaps ▸ h.length
  bytes i snap hi hopen := by
    rw [hsnaps] at hi
    rw [hinode snap (List.mem_of_getElem? hi) hopen]
    exact h.bytes i snap hi hopen
  readers := by
    rw [hreaders, hsnaps, holds_eq hgen]
    exact h.readers
  generation snap hsnap := hgen ▸ h.generation snap (hsnaps ▸ hsnap)
  current snap hsnap hopen hcur f hf :=
    h.current snap (hsnaps ▸ hsnap) hopen (hgen ▸ hcur) f (hfile f hf)
  older snap hsnap hopen hold := by
    rw [hsnaps] at hsnap
    rw [hgen] at hold
    obtain ⟨hne, hne'⟩ := h.older snap hsnap hopen hold
    refine ⟨fun hf => hne (hfile _ hf), fun hf => ?_⟩
    obtain hf | ⟨hge, -⟩ := hname _ hf
    · exact hne' hf
    · exact absurd (h.known snap hsnap) (Nat.not_lt.2 hge)
  known snap hsnap := Nat.lt_of_lt_of_le (h.known snap (hsnaps ▸ hsnap)) hnext
  fileKnown f hf := Nat.lt_of_lt_of_le (h.fileKnown f (hfile f hf)) hnext
  nameKnown f hf := by
    obtain hf | ⟨-, hlt⟩ := hname f hf
    · exact Nat.lt_of_lt_of_le (h.nameKnown f hf) hnext
    · exact hlt

theorem Isolated.unread (h : Isolated s taken) (hreaders : s.session.uploadReaders = 0) : Unread s := by
  intro snap hsnap hopen
  refine h.older snap hsnap hopen fun hcur => ?_
  have hnone := List.countP_eq_zero.1 (h.readers.symm.trans hreaders) snap hsnap
  simp [OpenSession.holds, hopen, hcur] at hnone

variable {ws : WriteSession} {d : Disk} {offset size : Nat} {data body : Bytes} {fault : Fault}
  {how : Download}

theorem Isolated.detach (h : Isolated s taken) {keepBytes : Nat}
    (hd : s.session.detachFromUploadsLocked s.disk keepBytes = some (ws, d)) :
    Isolated { s with session := ws, disk := d } taken ∧ Unread { s with session := ws, disk := d } := by
  rcases detach_cases hd with ⟨hreaders, rfl, rfl⟩ | ⟨_, bytes, _, rfl, rfl⟩
  · exact ⟨h, h.unread hreaders⟩
  · have hne : ∀ snap ∈ s.snapshots, snap.file ≠ s.disk.nextInode :=
      fun snap hsnap => Nat.ne_of_lt (h.known snap hsnap)
    have hunread : Unread { s with
        session := { s.session with
          file := some s.disk.nextInode
          uploadReaders := 0
          fileGeneration := s.session.fileGeneration + 1
          metadataVersion := s.session.metadataVersion + 1 }
        disk := { s.disk with
          inode := update s.disk.inode s.disk.nextInode bytes
          nextInode := s.disk.nextInode + 1
          dataFile := some s.disk.nextInode } } := by
      intro snap hsnap _
      have hfile : some s.disk.nextInode ≠ some snap.file := fun heq => hne snap hsnap (Option.some.inj heq).symm
      exact ⟨hfile, hfile⟩
    refine ⟨⟨h.length, ?_, ?_, ?_, ?_, fun snap hsnap hopen _ => hunread snap hsnap hopen, ?_, ?_, ?_⟩, hunread⟩
    · intro i snap hi hopen
      dsimp only
      rw [update_of_ne (hne snap (List.mem_of_getElem? hi))]
      exact h.bytes i snap hi hopen
    · refine (List.countP_eq_zero.2 fun snap hsnap => ?_).symm
      have hle := h.generation snap hsnap
      simp only [OpenSession.holds, Bool.and_eq_true, beq_iff_eq, not_and]
      omega
    · exact fun snap hsnap => Nat.le_succ_of_le (h.generation snap hsnap)
    · intro snap hsnap _ hcur
      have hle := h.generation snap hsnap
      simp only at hcur
      omega
    · exact fun snap hsnap => Nat.lt_succ_of_lt (h.known snap hsnap)
    all_goals
      intro f hf
      cases hf
      exact Nat.lt_succ_self _

theorem Isolated.changed (h : Isolated s taken) (hunread : Unread s) {f : Nat}
    (hf : s.session.file = some f) (bytes : Bytes) (hfile : ws.file = some f)
    (hreaders : ws.uploadReaders = s.session.uploadReaders)
    (hgen : ws.fileGeneration = s.session.fileGeneration) :
    Isolated { s with session := ws, disk := s.disk.setInode f bytes } taken := by
  refine h.frame rfl hreaders hgen (Nat.le_refl _) (fun g hg => ?_) (fun g hg => .inl hg) ?_
  · rw [hf, ← hfile]
    exact hg
  · intro snap hsnap hopen
    refine setInode_inode_of_ne s.disk bytes fun heq => ?_
    exact (hunread snap hsnap hopen).1 (heq ▸ hf)

/-! ## What each event keeps -/

theorem Isolated.after {r : Option (WriteSession × Disk)} (h : Isolated s taken)
    (hr : ∀ ws d, r = some (ws, d) → Isolated { s with session := ws, disk := d } taken) :
    Isolated (s.after r).2 taken := by
  cases r with
  | none => exact h
  | some p => exact hr p.1 p.2 rfl

theorem Isolated.written (h : Isolated s taken)
    {dropped : Bool} (hw : s.session.write s.disk offset data = some (ws, d, dropped)) :
    Isolated { s with session := ws, disk := d } taken := by
  obtain ⟨ws1, d1, f, hmove, hf, rfl, rfl, _⟩ := write_cases hw
  obtain ⟨hmoved, hunread⟩ := h.detach hmove
  exact hmoved.changed hunread hf _ hf rfl rfl

theorem Isolated.truncated (h : Isolated s taken) (ht : s.session.truncate s.disk size = some (ws, d)) :
    Isolated { s with session := ws, disk := d } taken := by
  obtain ⟨ws1, d1, f, hmove, hf, rfl, rfl⟩ := truncate_cases ht
  obtain ⟨hmoved, hunread⟩ := h.detach hmove
  exact hmoved.changed hunread hf _ hf rfl rfl

theorem Isolated.write (h : Isolated s taken) : Isolated (s.write offset data fault).2 taken := by
  unfold OpenSession.write
  split
  · exact h
  next ws d hd =>
    split
    next n f hf =>
      obtain ⟨hmoved, hunread⟩ := h.detach (detach_some hd)
      exact hmoved.changed hunread hf _ hf rfl rfl
    · refine h.after fun ws' d' hr => ?_
      obtain ⟨r, hw, hr⟩ := Option.map_eq_some_iff.1 hr
      cases hr
      exact h.written hw

theorem Isolated.truncate (h : Isolated s taken) : Isolated (s.truncate size fault).2 taken := by
  unfold OpenSession.truncate
  split
  · exact h
  next ws d hd =>
    split
    · exact (h.detach (detach_some hd)).1
    · exact h.after fun ws' d' ht => h.truncated ht

theorem Isolated.filled (h : Isolated s taken) (hunread : Unread s) (bytes : Bytes) :
    Isolated { s with disk := s.disk.openOrCreate.2.setInode s.disk.openOrCreate.1 bytes } taken ∧
    Unread { s with disk := s.disk.openOrCreate.2.setInode s.disk.openOrCreate.1 bytes } := by
  cases hname : s.disk.dataFile with
  | some f =>
    have hopen : s.disk.openOrCreate = (f, s.disk) := by rw [Disk.openOrCreate, hname]
    rw [hopen]
    refine ⟨h.frame rfl rfl rfl (Nat.le_refl _) (fun _ => id) (fun _ => .inl) ?_, hunread⟩
    intro snap hsnap hopen
    refine setInode_inode_of_ne s.disk bytes fun heq => ?_
    exact (hunread snap hsnap hopen).2 (heq ▸ hname)
  | none =>
    have hopen : s.disk.openOrCreate = (s.disk.nextInode, { s.disk with
        inode := update s.disk.inode s.disk.nextInode []
        nextInode := s.disk.nextInode + 1
        dataFile := some s.disk.nextInode }) := by rw [Disk.openOrCreate, hname]
    have hne : ∀ snap ∈ s.snapshots, snap.file ≠ s.disk.nextInode :=
      fun snap hsnap => Nat.ne_of_lt (h.known snap hsnap)
    rw [hopen]
    refine ⟨h.frame rfl rfl rfl (Nat.le_succ _) (fun _ => id) (fun f hf => ?_) ?_, ?_⟩
    · cases hf
      exact .inr ⟨Nat.le_refl _, Nat.lt_succ_self _⟩
    · intro snap hsnap _
      rw [setInode_inode_of_ne _ _ (hne snap hsnap)]
      exact update_of_ne (hne snap hsnap) ..
    · intro snap hsnap hopen
      refine ⟨(hunread snap hsnap hopen).1, fun heq => hne snap hsnap (Option.some.inj heq).symm⟩

theorem Isolated.downloaded (h : Isolated s taken) (hunread : Unread s) (body : Bytes) (how : Download) :
    Isolated { s with disk := s.disk.downloadToFile body how } taken ∧
    Unread { s with disk := s.disk.downloadToFile body how } := by
  cases how with
  | refused => exact ⟨h, hunread⟩
  | brokenOff n => exact h.filled hunread (body.take n)
  | complete => exact h.filled hunread body

theorem Isolated.prefetched (h : Isolated s taken) {ok : Bool}
    (hp : s.session.prefetch s.disk body how = some (ws, d, ok)) :
    Isolated { s with session := ws, disk := d } taken := by
  obtain ⟨ws1, d1, hmove, hcases⟩ := prefetch_cases hp
  obtain ⟨hmoved, hunread⟩ := h.detach hmove
  obtain ⟨hfetched, hunread⟩ := hmoved.downloaded hunread body how
  rcases hcases with ⟨-, -, rfl, rfl⟩ | ⟨-, -, rfl, rfl⟩
  · exact hfetched.frame rfl rfl rfl (Nat.le_refl _) (fun _ => id) (fun _ => .inl) fun _ _ _ => rfl
  · -- a fetch that fails cuts the session's file back to its size
    cases hf : ws.file with
    | none => exact hfetched
    | some f => exact hfetched.changed hunread hf _ hf rfl rfl

theorem Isolated.prefetch (h : Isolated s taken) {moveFails : Bool} :
    Isolated (s.prefetch body how moveFails) taken := by
  unfold OpenSession.prefetch
  split
  · exact h
  · split
    · exact h
    next hp => exact h.prefetched hp

theorem Isolated.openUploadSnapshot (h : Isolated s taken) (hsized : Sized s)
    (hname : s.disk.dataFile = s.session.file) :
    Isolated (s.openUploadSnapshot fault).2
      (if (s.openUploadSnapshot fault).1 then taken ++ [s.bytes] else taken) := by
  unfold OpenSession.openUploadSnapshot
  split
  next f file hf hfile =>
    obtain rfl : file = f := Option.some.inj (hfile.symm.trans (hname.trans hf))
    have hbytes : s.bytes = s.disk.inode file := by rw [OpenSession.bytes, hf]
    have hlast : ∀ {snap : OpenedSnapshot}, snap ∈ s.snapshots ++ [⟨file, s.session.size,
        s.session.fileGeneration, false⟩] → snap ∈ s.snapshots ∨
          snap = ⟨file, s.session.size, s.session.fileGeneration, false⟩ := by simp
    refine ⟨by simp [h.length], ?_, ?_, ?_, ?_, ?_, ?_, h.fileKnown, h.nameKnown⟩
    · intro i snap hi hopen
      dsimp only at hi ⊢
      rw [if_pos rfl]
      by_cases hlt : i < s.snapshots.length
      · rw [List.getElem?_append_left hlt] at hi
        rw [List.getElem?_append_left (h.length ▸ hlt)]
        exact h.bytes i snap hi hopen
      · obtain rfl : i = s.snapshots.length := by
          have hbound := (List.getElem?_eq_some_iff.1 hi).1
          rw [List.length_append, List.length_singleton] at hbound
          omega
        rw [List.getElem?_concat_length] at hi
        cases hi
        rw [← h.length, List.getElem?_concat_length, hbytes]
        exact ⟨rfl, hsized file hf⟩
    · rw [List.countP_append]
      exact congrArg₂ (· + ·) h.readers (by simp [OpenSession.holds])
    · intro snap hsnap
      obtain hsnap | rfl := hlast hsnap
      · exact h.generation snap hsnap
      · exact Nat.le_refl _
    · intro snap hsnap hopen hcur g hg
      obtain hsnap | rfl := hlast hsnap
      · exact h.current snap hsnap hopen hcur g hg
      · exact Option.some.inj (hf.symm.trans hg)
    · intro snap hsnap hopen hold
      obtain hsnap | rfl := hlast hsnap
      · exact h.older snap hsnap hopen hold
      · exact absurd rfl hold
    · intro snap hsnap
      obtain hsnap | rfl := hlast hsnap
      · exact h.known snap hsnap
      · exact h.nameKnown file hfile
  next => exact h

theorem Isolated.closeSnapshot (h : Isolated s taken) (i : Nat) : Isolated (s.closeSnapshot i).2 taken := by
  unfold OpenSession.closeSnapshot
  split
  · exact h
  next snap hi =>
  split
  · exact h
  next hopen =>
    have hlt := (List.getElem?_eq_some_iff.1 hi).1
    have hget : s.snapshots[i] = snap := (List.getElem?_eq_some_iff.1 hi).2
    have hmem := List.mem_of_getElem? hi
    have hset : ∀ {other : OpenedSnapshot}, other ∈ s.snapshots.set i { snap with closed := true } →
        other ∈ s.snapshots ∨ other = { snap with closed := true } := List.mem_or_eq_of_mem_set
    have hsession : ∀ ws : WriteSession, ws.file = s.session.file →
        ws.fileGeneration = s.session.fileGeneration →
        ws.uploadReaders = (s.snapshots.set i { snap with closed := true }).countP s.holds →
        Isolated { s with session := ws, snapshots := s.snapshots.set i { snap with closed := true } } taken := by
      intro ws hfile hgen hreaders
      refine ⟨by simp [h.length], ?_, ?_, ?_, ?_, ?_, ?_, fun f hf => h.fileKnown f (hfile ▸ hf), h.nameKnown⟩
      · intro j other hj hother
        dsimp only at hj
        rw [List.getElem?_set] at hj
        split at hj
        · simp at hj
          simp [← hj] at hother
        · exact h.bytes j other hj hother
      · rw [hreaders]
        refine congrArg (List.countP · _) (Eq.symm ?_)
        exact holds_eq hgen
      · intro other hother
        obtain hother | rfl := hset hother
        · exact hgen ▸ h.generation other hother
        · exact hgen ▸ h.generation snap hmem
      · intro other hother hopen hcur f hf
        obtain hother | rfl := hset hother
        · exact h.current other hother hopen (hgen ▸ hcur) f (hfile ▸ hf)
        · cases hopen
      · intro other hother hopen hold
        obtain hother | rfl := hset hother
        · exact hfile ▸ h.older other hother hopen (hgen ▸ hold)
        · cases hopen
      · intro other hother
        obtain hother | rfl := hset hother
        · exact h.known other hother
        · exact h.known snap hmem
    have hclosed : s.holds { snap with closed := true } = false := by simp [OpenSession.holds]
    have hcount := @List.countP_set _ s.holds s.snapshots i { snap with closed := true } hlt
    rw [hget, hclosed, ← h.readers] at hcount
    dsimp only
    split
    next hcur =>
      have hsnap : s.holds snap := by simpa [OpenSession.holds, hcur.1] using hopen
      exact hsession _ rfl rfl (by simpa [hsnap] using hcount.symm)
    next hcur =>
      have hsnap : s.holds snap = false := by
        by_contra hheld
        have hpos := List.countP_pos_iff.2 ⟨snap, hmem, by simpa using hheld⟩
        rw [← h.readers] at hpos
        simp [OpenSession.holds, hopen] at hheld
        exact hcur ⟨hheld.symm, hpos⟩
      exact hsession _ rfl rfl (by simpa [hsnap] using hcount.symm)

theorem Isolated.happen {e : SessionEvent} {fetching : Bool} (h : Isolated s taken) (hsized : Sized s)
    (hok : PathKept (s, fetching) e) (hnot : e.downloads = false) :
    Isolated (s.happen e) (if s.opens e then taken ++ [s.bytes] else taken) := by
  cases e with
  | operation op fault =>
    cases op with
    | write offset data => exact h.write
    | truncate size => exact h.truncate
    | openUploadSnapshot => exact h.openUploadSnapshot hsized hok
    | closeSnapshot i => exact h.closeSnapshot i
  | prefetch body how moveFails => exact h.prefetch
  | downloaded body how => cases hnot
  | renamed fetching => exact h.frame rfl rfl rfl (Nat.le_refl _) (fun _ => id) (fun _ => .inl) fun _ _ _ => rfl
  | replaced bytes =>
    refine h.frame rfl rfl rfl (Nat.le_succ _) (fun _ => id) (fun f hf => ?_) fun snap hsnap _ => ?_
    · cases hf
      exact .inr ⟨Nat.le_refl _, Nat.lt_succ_self _⟩
    · exact update_of_ne (Nat.ne_of_lt (h.known snap hsnap)) ..
  | removed =>
    exact h.frame rfl rfl rfl (Nat.le_refl _) (fun _ => id) (fun f hf => by cases hf) fun _ _ _ => rfl
  | close =>
    exact h.frame rfl rfl rfl (Nat.le_refl _) (fun f hf => by cases hf) (fun _ => .inl) fun _ _ _ => rfl

/-! ## The size -/

theorem Sized.detach (h : Sized s)
    (hd : s.session.detachFromUploadsLocked s.disk s.session.size = some (ws, d)) :
    Sized { s with session := ws, disk := d } := by
  rcases detach_cases hd with ⟨_, rfl, rfl⟩ | ⟨_, bytes, hkept, rfl, rfl⟩
  · exact h
  · intro f hf
    cases hf
    dsimp only
    rw [Function.update_self]
    rcases hkept with ⟨hzero, rfl⟩ | ⟨f, hf, hle, rfl⟩
    · exact hzero
    · rw [List.length_take, Nat.min_eq_left hle]

theorem Sized.write (h : Sized s)
    (hw : Whole s (.write offset data, fault)) : Sized (s.write offset data fault).2 := by
  obtain ⟨hempty, hpart⟩ := hw
  unfold OpenSession.write
  split
  · exact h
  next ws d hd =>
    have hmoved := h.detach (detach_some hd)
    split
    next n f hf =>
      intro g hg
      obtain rfl : f = g := Option.some.inj (hf.symm.trans hg)
      dsimp only
      rw [setInode_inode_self, hpart n rfl, writeAt_nil]
      exact hmoved f hf
    · cases hw : s.session.write s.disk offset data with
      | none => exact h
      | some r =>
        obtain ⟨ws', d', dropped⟩ := r
        obtain ⟨ws1, d1, f, hmove, hf, rfl, rfl, _⟩ := write_cases hw
        have hsize : ws1.size = (d1.inode f).length := h.detach hmove f hf
        intro g hg
        obtain rfl : f = g := Option.some.inj (hf.symm.trans hg)
        show max ws1.size (offset + data.length) = ((d1.setInode f _).inode f).length
        rw [setInode_inode_self]
        by_cases hnil : data = []
        · have hle := hempty hnil
          rw [← (detach_keeps hmove).2.1] at hle
          rw [hnil, writeAt_nil, List.length_nil, ← hsize]
          omega
        · rw [writeAt_length 0 hnil, hsize]

theorem Sized.truncate (h : Sized s)
    (hw : Whole s (.truncate size, fault)) : Sized (s.truncate size fault).2 := by
  unfold OpenSession.truncate
  split
  · exact h
  next ws d hd =>
    split
    next n =>
      have hmove := detach_some hd
      rcases hw with hidle | hgrow
      · rcases detach_cases hmove with ⟨_, rfl, rfl⟩ | ⟨hreaders, _⟩
        · exact h
        · exact absurd hidle hreaders
      · rw [min_eq_right hgrow] at hmove
        exact h.detach hmove
    next =>
      cases ht : s.session.truncate s.disk size with
      | none => exact h
      | some r =>
        obtain ⟨ws', d'⟩ := r
        obtain ⟨ws1, d1, f, _, hf, rfl, rfl⟩ := truncate_cases ht
        intro g hg
        obtain rfl : f = g := Option.some.inj (hf.symm.trans hg)
        show size = ((d1.setInode f _).inode f).length
        rw [setInode_inode_self, resize_length]

theorem Sized.prefetch (h : Sized s) {moveFails : Bool} : Sized (s.prefetch body how moveFails) := by
  unfold OpenSession.prefetch
  split
  · exact h
  · split
    · exact h
    next hp => exact prefetch_size hp

theorem Sized.openUploadSnapshot (h : Sized s) : Sized (s.openUploadSnapshot fault).2 := by
  unfold OpenSession.openUploadSnapshot
  split
  all_goals exact h

theorem Sized.closeSnapshot (h : Sized s) (i : Nat) : Sized (s.closeSnapshot i).2 := by
  unfold OpenSession.closeSnapshot
  split
  · exact h
  · split
    · exact h
    · dsimp only
      split
      all_goals exact h

theorem Sized.happen {e : SessionEvent} {fetching : Bool} (h : Sized s) (hknown : ∀ f, s.session.file = some f →
    f < s.disk.nextInode) (hok : PathKept (s, fetching) e) (hnot : e.downloads = false) : Sized (s.happen e) := by
  cases e with
  | operation op fault =>
    cases op with
    | write offset data => exact h.write hok
    | truncate size => exact h.truncate hok
    | openUploadSnapshot => exact h.openUploadSnapshot
    | closeSnapshot i => exact h.closeSnapshot i
  | prefetch body how moveFails => exact h.prefetch
  | downloaded body how => cases hnot
  | renamed | removed => exact h
  | replaced bytes =>
    intro f hf
    refine (h f hf).trans (congrArg List.length (Eq.symm ?_))
    exact update_of_ne (Nat.ne_of_lt (hknown f hf)) ..
  | close =>
    intro f hf
    cases hf

/-! ## Every run -/

theorem NewlyOpened.isolated (h : NewlyOpened s) : Isolated s [] ∧ Sized s := by
  obtain ⟨f, hf, hname, hsize⟩ := h.file
  have hknown := h.known
  refine ⟨⟨by simp [h.snapshots], ?_, by simp [h.snapshots, h.readers], ?_, ?_, ?_, ?_, hknown, ?_⟩, ?_⟩
  · simp [h.snapshots]
  · simp [h.snapshots]
  · simp [h.snapshots]
  · simp [h.snapshots]
  · simp [h.snapshots]
  · intro g hg
    exact hknown g (hf.trans (hname.symm.trans hg))
  · intro g hg
    obtain rfl : f = g := Option.some.inj (hf.symm.trans hg)
    exact hsize

theorem isolated_of_reach {fetching : Bool} (hr : Reach takenSystem (onState PathKept) ((s, fetching), taken)) :
    Isolated s taken := by
  have hall : (Isolated s taken ∧ Sized s) ∧ fetching = false := by
    refine reach_track_invariant (I := fun p taken => (Isolated p.1 taken ∧ Sized p.1) ∧ p.2 = false)
      (J := fun _ => True) (fun _ => trivial) (fun p (hp : NewlyOpened p.1 ∧ p.2 = false) => ⟨hp.1.isolated, hp.2⟩) ?_ hr
    rintro ⟨s, f⟩ e p' taken _ ⟨⟨h, hsized⟩, rfl⟩ hok ⟨rfl, hdownload⟩
    have hnot : e.downloads = false := Bool.eq_false_iff.2 fun hd => Bool.false_ne_true (hdownload hd)
    refine ⟨⟨h.happen hsized hok hnot, hsized.happen h.fileKnown hok hnot⟩, ?_⟩
    cases e with
    | renamed fetching => exact hok
    | _ => rfl
  exact hall.1.1

theorem freshSession_newlyOpened : NewlyOpened freshSession where
  toOpened := newWriteSession_opened _ "/a" true
  snapshots := rfl
  known f hf := by
    cases hf
    decide

/-- Three bytes are written, and the file emptied while an upload reads them. -/
def emptiedSession : OpenSession := (uploadingSession.perform (.truncate 0) .none).2

end

end Bluestone
