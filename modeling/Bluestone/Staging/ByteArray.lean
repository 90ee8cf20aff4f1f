/-
# `Bluestone.Staging.ByteArray` — a write session is a byte array, but for one write

One open session with its staging file and upload snapshots, under any sequence of
`Write`, `Truncate`, `Read`, `OpenUploadSnapshot` and `UploadSnapshot.Close`.  The
move to a new staging file can fail, and so can the change to the file after it: a
truncation then leaves the file as it was, and a write may have written some of its
first bytes (`Fault`).

The array is kept beside the session as a history: successful writes overlaid in
order, gaps filled with zeros, truncations cutting or filling.  `HoldsArray` says that
the session's file is the array and `Size` its length.

An empty write at an offset past `Size` breaks this, for `write` records the offset as
the new size.  So does a change that fails half made.
-/
import Bluestone.Library.Runs
import Bluestone.Staging.Session

namespace Bluestone

open Extents Runs

/-- An upload snapshot of the session. -/
structure OpenedSnapshot where
  file : Nat
  size : Nat
  generation : Nat
  closed : Bool
  deriving DecidableEq, Repr

/-- An open session, its disk, and the snapshots taken so far. -/
structure OpenSession where
  session : WriteSession
  disk : Disk
  snapshots : List OpenedSnapshot

/-- What goes wrong in an operation: nothing, the move to a new staging file, or the
change to the file, of which a write has then written some bytes. -/
inductive Fault
  | none
  | move
  | file (written : Nat)
  deriving DecidableEq, Repr

/-- The operations that change the session. -/
inductive Operation
  | write (offset : Nat) (data : Bytes)
  | truncate (size : Nat)
  | openUploadSnapshot
  | closeSnapshot (i : Nat)
  deriving DecidableEq, Repr

/-- What a `Read` returns. -/
inductive ReadResult
  | eof
  | read (bytes : Bytes)
  deriving DecidableEq, Repr

/-- `Read` into a buffer of `length` bytes. -/
def WriteSession.read (ws : WriteSession) (d : Disk) (length offset : Nat) : ReadResult :=
  if ws.size ≤ offset then .eof
  else match ws.file with
    | .none => .eof
    | .some f =>
      let got := ((d.inode f).drop offset).take length
      -- A read that gets nothing is at the end of the file, unless nothing was asked.
      if got = [] ∧ length ≠ 0 then .eof else .read got

namespace OpenSession

/-- The move of `detachFromUploadsLocked`; without an upload reading there is nothing
to fail. -/
def detach (s : OpenSession) (keepBytes : Nat) (fault : Fault) : Option (WriteSession × Disk) :=
  if fault = .move ∧ s.session.uploadReaders ≠ 0 then .none
  else s.session.detachFromUploadsLocked s.disk keepBytes

/-- The session as a change left it, and whether the change was made. -/
def after (s : OpenSession) : Option (WriteSession × Disk) → Bool × OpenSession
  | .none => (false, s)
  | .some (ws, d) => (true, { s with session := ws, disk := d })

/-- `Write`, and whether it succeeded. -/
def write (s : OpenSession) (offset : Nat) (data : Bytes) (fault : Fault) : Bool × OpenSession :=
  match s.detach s.session.size fault with
  | .none => (false, s)
  | .some (ws, d) =>
    match fault, ws.file with
    | .file written, .some f =>
      (false, { s with
        session := ws
        disk := d.setInode f (writeAt 0 (d.inode f) offset (data.take written)) })
    | _, _ => s.after ((s.session.write s.disk offset data).map fun r => (r.1, r.2.1))

/-- `Truncate`, and whether it succeeded. -/
def truncate (s : OpenSession) (size : Nat) (fault : Fault) : Bool × OpenSession :=
  match s.detach (min size s.session.size) fault with
  | .none => (false, s)
  | .some (ws, d) =>
    match fault with
    | .file _ => (false, { s with session := ws, disk := d })
    | _ => s.after (s.session.truncate s.disk size)

/-- `OpenUploadSnapshot`; a flush or an open that fails changes nothing. -/
def openUploadSnapshot (s : OpenSession) (fault : Fault) : Bool × OpenSession :=
  match fault, s.session.file, s.disk.dataFile with
  | .none, .some _, .some file =>
    (true, { s with
      session := { s.session with uploadReaders := s.session.uploadReaders + 1 }
      snapshots := s.snapshots ++ [⟨file, s.session.size, s.session.fileGeneration, false⟩] })
  | _, _, _ => (false, s)

/-- `UploadSnapshot.Close` of the `i`-th snapshot. -/
def closeSnapshot (s : OpenSession) (i : Nat) : Bool × OpenSession :=
  match s.snapshots[i]? with
  | .none => (false, s)
  | .some snap =>
    if snap.closed then (true, s)
    else
      (true, { s with
        session :=
          if s.session.fileGeneration = snap.generation ∧ 0 < s.session.uploadReaders then
            { s.session with uploadReaders := s.session.uploadReaders - 1 }
          else s.session
        snapshots := s.snapshots.set i { snap with closed := true } })

def perform (s : OpenSession) : Operation → Fault → Bool × OpenSession
  | .write offset data, fault => s.write offset data fault
  | .truncate size, fault => s.truncate size fault
  | .openUploadSnapshot, fault => s.openUploadSnapshot fault
  | .closeSnapshot i, _ => s.closeSnapshot i

end OpenSession

/-- What a successful operation does to the array. -/
def overlay (array : Bytes) : Operation → Bytes
  | .write offset data => writeAt 0 array offset data
  | .truncate size => resize 0 array size
  | .openUploadSnapshot | .closeSnapshot _ => array

/-- A session as it is opened: its file is the one the staging path names, `Size` is
its length, and no upload reads it. -/
structure Opened (s : OpenSession) : Prop where
  file : ∃ f, s.session.file = some f ∧ s.disk.dataFile = some f ∧ s.session.size = (s.disk.inode f).length
  readers : s.session.uploadReaders = 0

/-- The bytes of the session's file. -/
def OpenSession.bytes (s : OpenSession) : Bytes :=
  match s.session.file with
  | .none => []
  | .some f => s.disk.inode f

/-- One open session; a label is an operation with what goes wrong in it. -/
def sessionSystem : System OpenSession (Operation × Fault) where
  init := Opened
  step s e s' := s' = (s.perform e.1 e.2).2

/-- The session beside its array. -/
def arraySystem : System (OpenSession × Bytes) (Operation × Fault) :=
  sessionSystem.track OpenSession.bytes fun s e _ array =>
    if (s.perform e.1 e.2).1 then overlay array e.1 else array

/-- The session's file is the array, and `Size` its length. -/
structure HoldsArray (s : OpenSession) (array : Bytes) : Prop where
  file : ∃ f, s.session.file = some f ∧ s.disk.inode f = array
  size : s.session.size = array.length

/-- No write of nothing past the end, and no change to the file that fails with some
of it made. -/
def Whole (s : OpenSession) : Operation × Fault → Prop
  | (.write offset data, fault) =>
    (data = [] → offset ≤ s.session.size) ∧ ∀ n, fault = .file n → data.take n = []
  | (.truncate size, .file _) => s.session.uploadReaders = 0 ∨ s.session.size ≤ size
  | _ => True

section
variable {s : OpenSession} {array : Bytes} {fault : Fault}

theorem newWriteSession_opened (d : Disk) (path : String) (sidecarOk : Bool) :
    Opened ⟨(newWriteSession d path sidecarOk).1, (newWriteSession d path sidecarOk).2, []⟩ := by
  have hmeta : ∀ d : Disk, (d.ensurePathMetadata path).dataFile = d.dataFile ∧
      (d.ensurePathMetadata path).inode = d.inode := by
    intro d
    unfold Disk.ensurePathMetadata
    split
    · split
      all_goals exact ⟨rfl, rfl⟩
    · exact ⟨rfl, rfl⟩
  have hopen : d.openOrCreate.2.dataFile = some d.openOrCreate.1 := by
    unfold Disk.openOrCreate
    cases hf : d.dataFile with
    | none => rfl
    | some f => exact hf
  refine ⟨⟨d.openOrCreate.1, rfl, ?_, ?_⟩, rfl⟩
  · cases sidecarOk with
    | false => exact hopen
    | true => exact (hmeta _).1.trans hopen
  · cases sidecarOk with
    | false => rfl
    | true => exact congrArg (fun inode => (inode d.openOrCreate.1).length) (hmeta _).2.symm

theorem Opened.exact (h : Opened s) : HoldsArray s s.bytes := by
  obtain ⟨f, hf, _, hsize⟩ := h.file
  have hbytes : s.bytes = s.disk.inode f := by
    unfold OpenSession.bytes
    rw [hf]
  exact ⟨⟨f, hf, hbytes.symm⟩, hbytes ▸ hsize⟩

/-! ## Reading -/

theorem HoldsArray.read (h : HoldsArray s array)
    (length offset : Nat) : s.session.read s.disk length offset =
      if array.length ≤ offset then .eof else .read ((array.drop offset).take length) := by
  obtain ⟨f, hf, hbytes⟩ := h.file
  unfold WriteSession.read
  rw [h.size, hf]
  by_cases hoff : array.length ≤ offset
  · rw [if_pos hoff, if_pos hoff]
  · rw [if_neg hoff, if_neg hoff]
    dsimp only
    rw [hbytes, if_neg]
    -- There is a byte at the offset.
    rintro ⟨hnone, hlen⟩
    have hzero := congrArg List.length hnone
    simp only [List.length_take, List.length_drop, List.length_nil] at hzero
    omega

/-! ## The move -/

variable {keepBytes offset : Nat} {ws : WriteSession} {d : Disk}

theorem HoldsArray.detach (h : HoldsArray s array) (hk : keepBytes ≤ array.length)
    (hd : s.session.detachFromUploadsLocked s.disk keepBytes = some (ws, d)) : ∃ f, ws.file = some f ∧
    ws.size = array.length ∧ (d.inode f = array ∨ d.inode f = array.take keepBytes) := by
  obtain ⟨f, hf, hbytes⟩ := h.file
  rcases detach_cases hd with ⟨_, rfl, rfl⟩ | ⟨_, bytes, hkept, rfl, rfl⟩
  · exact ⟨f, hf, h.size, .inl hbytes⟩
  · refine ⟨_, rfl, h.size, .inr ?_⟩
    simp only [Function.update_self]
    rcases hkept with ⟨rfl, rfl⟩ | ⟨f', hf', _, rfl⟩
    · rw [List.take_zero]
    · obtain rfl : f = f' := Option.some.inj (hf.symm.trans hf')
      rw [hbytes]

theorem HoldsArray.detach_all (h : HoldsArray s array)
    (hd : s.session.detachFromUploadsLocked s.disk s.session.size = some (ws, d)) :
    ∃ f, ws.file = some f ∧ ws.size = array.length ∧ d.inode f = array := by
  obtain ⟨f, hf, hsize, hbytes⟩ := h.detach (le_of_eq h.size) hd
  refine ⟨f, hf, hsize, ?_⟩
  rcases hbytes with hb | hb
  · exact hb
  · rw [hb, h.size, List.take_length]

theorem HoldsArray.detach_isSome (h : HoldsArray s array) (hk : keepBytes ≤ array.length) :
    (s.session.detachFromUploadsLocked s.disk keepBytes).isSome := by
  obtain ⟨f, hf, hbytes⟩ := h.file
  have hlen : ¬ (s.disk.inode f).length < keepBytes := by
    rw [hbytes]
    omega
  unfold WriteSession.detachFromUploadsLocked
  split
  · rfl
  · by_cases hzero : keepBytes = 0
    · simp [hzero]
    · simp [hzero, hf, hlen]

theorem detach_some (hd : s.detach keepBytes fault = some (ws, d)) :
    s.session.detachFromUploadsLocked s.disk keepBytes = some (ws, d) := by
  unfold OpenSession.detach at hd
  split at hd
  · cases hd
  · exact hd

/-! ## The operations -/

theorem HoldsArray.written (h : HoldsArray s array) {data : Bytes} {dropped : Bool} (hempty : data = [] →
    offset ≤ s.session.size) (hw : s.session.write s.disk offset data = some (ws, d, dropped)) :
    HoldsArray { s with session := ws, disk := d } (writeAt 0 array offset data) := by
  obtain ⟨ws1, d1, f, hmove, hf, rfl, rfl, _⟩ := write_cases hw
  obtain ⟨f', hf', hsize, hwhole⟩ := h.detach_all hmove
  obtain rfl : f' = f := Option.some.inj (hf'.symm.trans hf)
  refine ⟨⟨f', hf, ?_⟩, ?_⟩
  · show (d1.setInode f' (writeAt 0 (d1.inode f') offset data)).inode f' = writeAt 0 array offset data
    rw [setInode_inode_self, hwhole]
  · show max ws1.size (offset + data.length) = (writeAt 0 array offset data).length
    rw [hsize]
    by_cases hnil : data = []
    · have hoff := hempty hnil
      rw [h.size] at hoff
      rw [hnil, writeAt_nil, List.length_nil]
      omega
    · rw [writeAt_length 0 hnil]

theorem HoldsArray.truncated (h : HoldsArray s array) {size : Nat}
    (ht : s.session.truncate s.disk size = some (ws, d)) :
    HoldsArray { s with session := ws, disk := d } (resize 0 array size) := by
  obtain ⟨ws1, d1, f, hmove, hf, rfl, rfl⟩ := truncate_cases ht
  obtain ⟨f', hf', _, hbytes⟩ := h.detach (by rw [h.size]; exact min_le_right ..) hmove
  obtain rfl : f' = f := Option.some.inj (hf'.symm.trans hf)
  refine ⟨⟨f', hf, ?_⟩, ?_⟩
  · show (d1.setInode f' (resize 0 (d1.inode f') size)).inode f' = resize 0 array size
    rw [setInode_inode_self]
    rcases hbytes with hb | hb
    · rw [hb]
    · rw [hb, h.size, resize_take]
  · exact (resize_length 0 array size).symm

theorem HoldsArray.write (h : HoldsArray s array) {data : Bytes}
    (hw : Whole s (.write offset data, fault)) :
    HoldsArray (s.write offset data fault).2
      (if (s.write offset data fault).1 then writeAt 0 array offset data else array) := by
  obtain ⟨hempty, hpart⟩ := hw
  have hdone : HoldsArray (s.after ((s.session.write s.disk offset data).map fun r => (r.1, r.2.1))).2
      (if (s.after ((s.session.write s.disk offset data).map fun r => (r.1, r.2.1))).1
        then writeAt 0 array offset data else array) := by
    cases hw : s.session.write s.disk offset data with
    | none => exact h
    | some r =>
      obtain ⟨ws, d, dropped⟩ := r
      exact h.written hempty hw
  unfold OpenSession.write
  cases hd : s.detach s.session.size fault with
  | none => exact h
  | some p =>
    obtain ⟨ws, d⟩ := p
    cases fault with
    | none | move => exact hdone
    | file n =>
      -- The session has moved with the whole array, and nothing of the data is there.
      obtain ⟨f, hf, hsize, hwhole⟩ := h.detach_all (detach_some hd)
      simp only [hf]
      refine ⟨⟨f, hf, ?_⟩, hsize⟩
      rw [setInode_inode_self, hpart n rfl, writeAt_nil]
      exact hwhole

theorem HoldsArray.truncate (h : HoldsArray s array) {size : Nat} (hw : Whole s (.truncate size, fault)) :
    HoldsArray (s.truncate size fault).2 (if (s.truncate size fault).1 then resize 0 array size else array) := by
  have hdone : HoldsArray (s.after (s.session.truncate s.disk size)).2
      (if (s.after (s.session.truncate s.disk size)).1 then resize 0 array size else array) := by
    cases ht : s.session.truncate s.disk size with
    | none => exact h
    | some r =>
      obtain ⟨ws, d⟩ := r
      exact h.truncated ht
  unfold OpenSession.truncate
  cases hd : s.detach (min size s.session.size) fault with
  | none => exact h
  | some p =>
    obtain ⟨ws, d⟩ := p
    cases fault with
    | none | move => exact hdone
    | file n =>
      have hmove := detach_some hd
      rcases hw with hidle | hgrow
      · rcases detach_cases hmove with ⟨_, rfl, rfl⟩ | ⟨hreaders, _⟩
        · exact h
        · exact absurd hidle hreaders
      · rw [min_eq_right hgrow] at hmove
        obtain ⟨f, hf, hsize, hwhole⟩ := h.detach_all hmove
        exact ⟨⟨f, hf, hwhole⟩, hsize⟩

theorem HoldsArray.openUploadSnapshot (h : HoldsArray s array) : HoldsArray
    (s.openUploadSnapshot fault).2 array := by
  unfold OpenSession.openUploadSnapshot
  split
  · exact ⟨h.file, h.size⟩
  · exact h

theorem HoldsArray.closeSnapshot (h : HoldsArray s array) (i : Nat) : HoldsArray
    (s.closeSnapshot i).2 array := by
  unfold OpenSession.closeSnapshot
  split
  · exact h
  · split
    · exact h
    · dsimp only
      split
      all_goals exact ⟨h.file, h.size⟩

theorem HoldsArray.perform (h : HoldsArray s array) {op : Operation} (hw : Whole s (op, fault)) :
    HoldsArray (s.perform op fault).2 (if (s.perform op fault).1 then overlay array op else array) := by
  cases op with
  | write offset data => exact h.write hw
  | truncate size => exact h.truncate hw
  | openUploadSnapshot =>
    show HoldsArray _ (if _ then array else array)
    rw [ite_self]
    exact h.openUploadSnapshot
  | closeSnapshot i =>
    show HoldsArray _ (if _ then array else array)
    rw [ite_self]
    exact h.closeSnapshot i

theorem HoldsArray.not_empty_write (h : HoldsArray s array) (hoff : s.session.size < offset)
    (array' : Bytes) : ¬ HoldsArray (s.perform (.write offset []) .none).2 array' := by
  obtain ⟨p, hd⟩ := Option.isSome_iff_exists.1 (h.detach_isSome (le_of_eq h.size))
  obtain ⟨ws, d⟩ := p
  obtain ⟨f, hf, hsize, hwhole⟩ := h.detach_all hd
  have hdone : (s.perform (.write offset []) .none).2.session.file = some f ∧
      (s.perform (.write offset []) .none).2.session.size = max ws.size offset ∧
      (s.perform (.write offset []) .none).2.disk.inode f = d.inode f := by
    simp [OpenSession.perform, OpenSession.write, OpenSession.detach, OpenSession.after,
      WriteSession.write, hd, hf]
  obtain ⟨hfile, hmax, hinode⟩ := hdone
  intro h'
  obtain ⟨f', hf', hbytes⟩ := h'.file
  obtain rfl : f = f' := Option.some.inj (hfile.symm.trans hf')
  have hlen : (s.perform (.write offset []) .none).2.session.size = array.length := by
    rw [h'.size, ← hbytes, hinode, hwhole]
  have hold := h.size
  rw [hmax, hsize] at hlen
  omega

theorem after_failed {r : Option (WriteSession × Disk)} (h : (s.after r).1 = false) :
    (s.after r).2 = s := by
  cases r with
  | none => rfl
  | some p => cases h

theorem perform_move_failed (op : Operation) (h : (s.perform op .move).1 = false) :
    (s.perform op .move).2 = s := by
  cases op with
  | write offset data =>
    simp only [OpenSession.perform, OpenSession.write] at h ⊢
    cases hd : s.detach s.session.size .move with
    | none => rfl
    | some p =>
      rw [hd] at h
      exact after_failed h
  | truncate size =>
    simp only [OpenSession.perform, OpenSession.truncate] at h ⊢
    cases hd : s.detach (min size s.session.size) .move with
    | none => rfl
    | some p =>
      rw [hd] at h
      exact after_failed h
  | openUploadSnapshot => rfl
  | closeSnapshot i =>
    simp only [OpenSession.perform, OpenSession.closeSnapshot] at h ⊢
    cases hi : s.snapshots[i]? with
    | none => rfl
    | some snap =>
      simp only [hi] at h
      split at h
      all_goals cases h

theorem exact_of_reach (hr : Reach arraySystem (onState Whole) (s, array)) : HoldsArray s array := by
  refine reach_track_invariant (I := HoldsArray) (J := fun _ => True) (fun _ => trivial)
    (fun s hs => Opened.exact hs) ?_ hr
  rintro s ⟨op, fault⟩ s' array _ h hw rfl
  exact h.perform hw

/-! ## Every sequence of operations -/

/-- A session whose changes to the file are made whole or not at all, and that writes
nothing only up to its end, reads as the array of its successful operations, with
`Size` the array's length and the file's; a failed move leaves it as it was.  From
such a session, an operation in which nothing goes wrong leads to another just when
it is no empty write past the end. -/
theorem session_is_byte_array {s : OpenSession} {array : Bytes} :
    (Reach arraySystem (onState Whole) (s, array) → (∀ length offset, s.session.read s.disk length offset =
        if array.length ≤ offset then .eof else .read ((array.drop offset).take length)) ∧
      s.session.size = array.length ∧
      (∃ f, s.session.file = some f ∧ (s.disk.inode f).length = array.length) ∧
      ∀ op, (s.perform op .move).1 = false → (s.perform op .move).2 = s) ∧
    (HoldsArray s array → ∀ op, (∃ array', HoldsArray (s.perform op .none).2 array') ↔ Whole s (op, .none)) := by
  constructor
  · intro hr
    have h := exact_of_reach hr
    obtain ⟨f, hf, hbytes⟩ := h.file
    exact ⟨h.read, h.size, ⟨f, hf, congrArg List.length hbytes⟩, perform_move_failed⟩
  · intro h op
    constructor
    · rintro ⟨array', h'⟩
      cases op with
      | write offset data =>
        refine ⟨fun hnil => ?_, fun n hn => by cases hn⟩
        by_contra hoff
        subst hnil
        exact h.not_empty_write (not_le.1 hoff) array' h'
      | truncate size | openUploadSnapshot | closeSnapshot i => trivial
    · exact fun hw => ⟨_, h.perform hw⟩

/-- A new session on an empty disk. -/
def freshSession : OpenSession :=
  ⟨(newWriteSession ⟨fun _ => [], 0, none, none⟩ "/a" true).1,
    (newWriteSession ⟨fun _ => [], 0, none, none⟩ "/a" true).2, []⟩

/-- Three bytes are written and an upload reads them. -/
def uploadingSession : OpenSession :=
  ((freshSession.perform (.write 0 [1, 2, 3]) .none).2.perform .openUploadSnapshot .none).2

theorem uploading_session_reads : (uploadingSession.perform (.truncate 1) .move).1 = false ∧
    (uploadingSession.perform (.truncate 1) .move).2 = uploadingSession ∧
    uploadingSession.session.read uploadingSession.disk 8 1 = .read [2, 3] := by
  have hinit : Reach arraySystem (onState Whole) (freshSession, []) :=
    .init ⟨newWriteSession_opened _ "/a" true, rfl⟩
  have hdata : Whole freshSession (.write 0 [1, 2, 3], .none) :=
    ⟨(fun h => by cases h), (fun _ h => by cases h)⟩
  have hwritten := hinit.next' rfl hdata
  have hsnap : Whole (freshSession.perform (.write 0 [1, 2, 3]) .none).2 (.openUploadSnapshot, .none) :=
    trivial
  have hr : Reach arraySystem (onState Whole) (uploadingSession, [1, 2, 3]) :=
    hwritten.next' rfl hsnap
  obtain ⟨hread, _, _, hfail⟩ := session_is_byte_array.1 hr
  exact ⟨rfl, hfail _ rfl, hread 8 1⟩

/-- An empty write at offset five makes `Size` five; the array has not changed, and the
file has three bytes. -/
theorem empty_write_past_end : ∃ s : OpenSession, Reach arraySystem (onState always) (s, [1, 2, 3]) ∧
    s.session.size = 5 ∧ s.bytes = [1, 2, 3] := by
  have hinit : Reach arraySystem (onState always) (freshSession, []) :=
    .init ⟨newWriteSession_opened _ "/a" true, rfl⟩
  have hwritten := hinit.next' (e := (.write 0 [1, 2, 3], .none)) rfl
  have hempty := hwritten.next' (e := (.write 5 [], .none)) rfl
  exact ⟨_, hempty, rfl, rfl⟩

end

end Bluestone
