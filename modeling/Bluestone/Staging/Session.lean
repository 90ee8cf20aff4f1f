/-
# `Bluestone.Staging.Session` — a write session and its staging file

The in-memory half of one staged file (`WriteSession`) over the on-disk half
(`Disk`): the file bytes by inode, the directory entry of the staging file, and
the sidecar.  Every definition here is one section of the session's own lock,
under the name it has in `internal/staging/session.go` and `session_upload.go`.

Two things of the source are load-bearing and kept:

* a session addresses its file by descriptor (`file`), an upload and a prefetch
  address it by name (`Disk.dataFile`), and the two can differ;
* a change made while an upload reads the file moves the session to a new file
  (`detachFromUploadsLocked`) instead of changing the one being read.

A file operation either happens or fails without effect.  Left out: the clock
fields, the byte reservation of `ReserveWrite` (refused, it is a write that does not
happen), and the multipart bookkeeping, which no modelled function reads back.
-/
import Bluestone.Library.Extents

namespace Bluestone

open Function Extents

/-- File and object bytes. -/
abbrev Bytes := List UInt8

/-- The attributes a staged file syncs with.  Times are counted from the zero
time, so `0` is `time.Time{}`. -/
structure StagedAttributes where
  mode : UInt32
  uid : UInt32
  gid : UInt32
  btime : Nat
  windowsAttributes : UInt32
  streams : List (String × Bytes)
  atime : Nat
  mtime : Nat
  deriving DecidableEq, Repr

/-- What `NewWriteSession` starts from: mode `0600`, owner 1000. -/
def StagedAttributes.default : StagedAttributes :=
  ⟨0o600, 1000, 1000, 0, 0, [], 0, 0⟩

/-- The sidecar kept next to a staged data file. -/
structure PathMetadataState where
  originalPath : String
  attributes : Option StagedAttributes
  committed : Bool
  deriving DecidableEq, Repr

/-- The local disk as far as one path uses it. -/
structure Disk where
  inode : Nat → Bytes
  nextInode : Nat
  dataFile : Option Nat
  sidecar : Option PathMetadataState

/-- `writePathMetadataState`: a sidecar that takes the place of a committed one
is committed too. -/
def Disk.writePathMetadataState (d : Disk) (state : PathMetadataState) : Disk :=
  let replacedCommitted := match d.sidecar with
    | some replaced => replaced.committed
    | none => false
  { d with sidecar := some { state with committed := state.committed || replacedCommitted } }

/-- A write session.  `file` is the descriptor, `none` once closed. -/
structure WriteSession where
  file : Option Nat
  size : Nat
  dirty : Bool
  prefetched : Bool
  written : Bool
  refCount : Nat
  uploadReaders : Nat
  fileGeneration : Nat
  attrs : StagedAttributes
  attributesSet : Bool
  metadataVersion : Nat
  committedMetadataVersion : Nat
  deriving DecidableEq, Repr

/-- What the session reads as: its file up to its size. -/
def WriteSession.content (ws : WriteSession) (d : Disk) : Bytes :=
  match ws.file with
  | none => []
  | some f => (d.inode f).take ws.size

/-- A session that carries data of its own, or the whole of its object. -/
def WriteSession.ready (ws : WriteSession) : Bool := ws.dirty || ws.prefetched

/-- `OpenFile`'s test that existence need not be asked of the object store. -/
def WriteSession.existenceKnown (ws : WriteSession) : Bool :=
  ws.dirty || ws.prefetched || decide (0 < ws.size)

/-- `hasNoStagedData`. -/
def WriteSession.hasNoStagedData (ws : WriteSession) : Bool :=
  !ws.dirty && !ws.prefetched && decide (ws.size = 0)

/-- `holdsNoWrittenData`, with no multipart upload active. -/
def WriteSession.holdsNoWrittenData (ws : WriteSession) : Bool :=
  decide (ws.size = 0) || (!ws.written && !ws.prefetched)

/-! ## Creating and opening -/

/-- `os.OpenFile(stagingPath, O_RDWR|O_CREATE)`: the inode opened, and the disk
with the file there. -/
def Disk.openOrCreate (d : Disk) : Nat × Disk :=
  match d.dataFile with
  | some f => (f, d)
  | none =>
    (d.nextInode,
      { d with
        inode := update d.inode d.nextInode []
        nextInode := d.nextInode + 1
        dataFile := some d.nextInode })

/-- `EnsurePathMetadata`: a sidecar already there for the path is kept. -/
def Disk.ensurePathMetadata (d : Disk) (path : String) : Disk :=
  match d.sidecar with
  | some state =>
    if state.originalPath = path then d
    else d.writePathMetadataState { state with originalPath := path }
  | none => d.writePathMetadataState ⟨path, none, false⟩

/-- `NewWriteSession` over the file opened.  `sidecarOk` is false when the
sidecar could not be written, which is only logged. -/
def newWriteSession (d : Disk) (path : String) (sidecarOk : Bool) : WriteSession × Disk :=
  let (f, d1) := d.openOrCreate
  let size := (d1.inode f).length
  ({ file := some f, size := size, dirty := false, prefetched := false,
     written := decide (0 < size), refCount := 1, uploadReaders := 0, fileGeneration := 0,
     attrs := .default, attributesSet := false, metadataVersion := 1,
     committedMetadataVersion := 0 },
   if sidecarOk then d1.ensurePathMetadata path else d1)

/-! ## Moving away from uploads -/

/-- `detachFromUploadsLocked`: with an upload reading the file, continue in a new
file holding the first `keepBytes` bytes, renamed over the staging path.  `none`
is the failure of the copy, as when the file is shorter than what is kept. -/
def WriteSession.detachFromUploadsLocked (ws : WriteSession) (d : Disk) (keepBytes : Nat) :
    Option (WriteSession × Disk) :=
  if ws.uploadReaders = 0 then some (ws, d)
  else
    let kept : Option Bytes :=
      if keepBytes = 0 then some []
      else match ws.file with
        | none => none
        | some f =>
          if (d.inode f).length < keepBytes then none else some ((d.inode f).take keepBytes)
    match kept with
    | none => none
    | some bytes =>
      some ({ ws with
          file := some d.nextInode
          uploadReaders := 0
          fileGeneration := ws.fileGeneration + 1
          metadataVersion := ws.metadataVersion + 1 },
        { d with
          inode := update d.inode d.nextInode bytes
          nextInode := d.nextInode + 1
          dataFile := some d.nextInode })

/-- The descriptor's file given new content. -/
def Disk.setInode (d : Disk) (f : Nat) (bytes : Bytes) : Disk :=
  { d with inode := update d.inode f bytes }

@[simp] theorem setInode_inode_self (d : Disk) (f : Nat) (bytes : Bytes) :
    (d.setInode f bytes).inode f = bytes := by
  simp [Disk.setInode]

theorem setInode_inode_of_ne (d : Disk) {f g : Nat} (bytes : Bytes) (h : g ≠ f) :
    (d.setInode f bytes).inode g = d.inode g := by
  simp [Disk.setInode, update_of_ne h]

/-! ## Changing the file -/

/-- `write`: the changed session and disk, and whether a modification time a
client had set was dropped. -/
def WriteSession.write (ws : WriteSession) (d : Disk) (offset : Nat) (data : Bytes) :
    Option (WriteSession × Disk × Bool) :=
  match ws.detachFromUploadsLocked d ws.size with
  | none => none
  | some (ws1, d1) =>
    match ws1.file with
    | none => none
    | some f =>
      some ({ ws1 with
          size := max ws1.size (offset + data.length)
          dirty := true
          written := true
          attrs := { ws1.attrs with mtime := 0 } },
        d1.setInode f (writeAt 0 (d1.inode f) offset data),
        decide (ws1.attrs.mtime ≠ 0))

/-- `Truncate`. -/
def WriteSession.truncate (ws : WriteSession) (d : Disk) (size : Nat) :
    Option (WriteSession × Disk) :=
  match ws.detachFromUploadsLocked d (min size ws.size) with
  | none => none
  | some (ws1, d1) =>
    match ws1.file with
    | none => none
    | some f =>
      some ({ ws1 with
          size := size
          dirty := true
          written := if size = 0 then false else ws1.written },
        d1.setInode f (resize 0 (d1.inode f) size))

/-! ## Prefetching -/

/-- How a download ends: refused before the local file is opened, broken off
after `n` bytes, or complete. -/
inductive Download
  | refused
  | brokenOff (n : Nat)
  | complete
  deriving DecidableEq, Repr

/-- `DownloadToFile`: the local file is created or truncated by name and filled
from the object's body. -/
def Disk.downloadToFile (d : Disk) (body : Bytes) : Download → Disk
  | .refused => d
  | .brokenOff n =>
    let (f, d1) := d.openOrCreate
    d1.setInode f (body.take n)
  | .complete =>
    let (f, d1) := d.openOrCreate
    d1.setInode f body

/-- `Prefetch` when the session has not been prefetched: the file is detached
from uploads and fetched; a failed fetch cuts the descriptor's file back to the
session's size.  The flag reports success. -/
def WriteSession.prefetch (ws : WriteSession) (d : Disk) (body : Bytes) (how : Download) :
    Option (WriteSession × Disk × Bool) :=
  match ws.detachFromUploadsLocked d 0 with
  | none => none
  | some (ws1, d1) =>
    let d2 := d1.downloadToFile body how
    match how with
    | .complete =>
      let size := match ws1.file with
        | some f => (d2.inode f).length
        | none => ws1.size
      some ({ ws1 with size := size, prefetched := true }, d2, true)
    | _ =>
      match ws1.file with
      | some f => some (ws1, d2.setInode f (resize 0 (d2.inode f) ws1.size), false)
      | none => some (ws1, d2, false)

/-! ## Attributes -/

/-- `setAttributesLocked`. -/
def WriteSession.setAttributes (ws : WriteSession) (attrs : StagedAttributes) : WriteSession :=
  { ws with attrs := attrs, attributesSet := true }

/-- The locked part of `SeedAttributes`: attributes already set are kept. -/
def WriteSession.seedAttributes (ws : WriteSession) (attrs : StagedAttributes) : WriteSession :=
  if ws.attributesSet then ws else ws.setAttributes attrs

/-- The locked part of `SetCreationIfUnset`. -/
def WriteSession.setCreationIfUnset (ws : WriteSession) (btime : Nat) (mode : UInt32) :
    WriteSession :=
  if ws.attributesSet then ws
  else
    { ws with
      attrs := { ws.attrs with btime := btime, mode := if mode = 0 then ws.attrs.mode else mode }
      attributesSet := true }

/-- `sessionAttributesIfSet` of a session. -/
def WriteSession.attributesIfSet (ws : WriteSession) : Option StagedAttributes :=
  if ws.attributesSet then some ws.attrs else none

/-- `metadataChanged`. -/
def WriteSession.metadataChanged (ws : WriteSession) : WriteSession :=
  { ws with metadataVersion := ws.metadataVersion + 1 }

/-! ## What each section does -/

section
variable {ws ws' ws1 : WriteSession} {d d' d1 : Disk}

variable {keepBytes offset size i : Nat} {data body : Bytes} {dropped ok : Bool} {how : Download}
  {b : UInt8}

/-- Detaching does nothing without an upload, and otherwise continues in a fresh
file that holds what is kept. -/
theorem detach_cases (h : ws.detachFromUploadsLocked d keepBytes = some (ws1, d1)) :
    (ws.uploadReaders = 0 ∧ ws1 = ws ∧ d1 = d) ∨
    (ws.uploadReaders ≠ 0 ∧ ∃ bytes : Bytes,
      ((keepBytes = 0 ∧ bytes = []) ∨ ∃ f, ws.file = some f ∧ keepBytes ≤ (d.inode f).length ∧
        bytes = (d.inode f).take keepBytes) ∧
      ws1 = { ws with
        file := some d.nextInode
        uploadReaders := 0
        fileGeneration := ws.fileGeneration + 1
        metadataVersion := ws.metadataVersion + 1 } ∧
      d1 = { d with
        inode := update d.inode d.nextInode bytes
        nextInode := d.nextInode + 1
        dataFile := some d.nextInode }) := by
  unfold WriteSession.detachFromUploadsLocked at h
  by_cases hr : ws.uploadReaders = 0
  · rw [if_pos hr] at h
    cases h
    exact .inl ⟨hr, rfl, rfl⟩
  · rw [if_neg hr] at h
    refine .inr ⟨hr, ?_⟩
    by_cases hk : keepBytes = 0
    · simp only [hk, if_true] at h
      cases h
      exact ⟨[], .inl ⟨hk, rfl⟩, rfl, rfl⟩
    · simp only [hk, if_false] at h
      cases hf : ws.file with
      | none => simp [hf] at h
      | some f =>
        by_cases hlen : (d.inode f).length < keepBytes
        · simp [hf, hlen] at h
        · simp only [hf, hlen, if_false] at h
          cases h
          exact ⟨_, .inr ⟨f, rfl, Nat.le_of_not_lt hlen, rfl⟩, rfl, rfl⟩

theorem write_cases
    (h : ws.write d offset data = some (ws', d', dropped)) :
    ∃ ws1 d1 f, ws.detachFromUploadsLocked d ws.size = some (ws1, d1) ∧ ws1.file = some f ∧
      ws' = { ws1 with
        size := max ws1.size (offset + data.length)
        dirty := true
        written := true
        attrs := { ws1.attrs with mtime := 0 } } ∧
      d' = d1.setInode f (writeAt 0 (d1.inode f) offset data) ∧
      dropped = decide (ws1.attrs.mtime ≠ 0) := by
  unfold WriteSession.write at h
  cases hd : ws.detachFromUploadsLocked d ws.size with
  | none => simp [hd] at h
  | some p =>
    obtain ⟨ws1, d1⟩ := p
    cases hf : ws1.file with
    | none => simp [hd, hf] at h
    | some f =>
      simp only [hd, hf, Option.some.injEq, Prod.mk.injEq] at h
      obtain ⟨rfl, rfl, rfl⟩ := h
      exact ⟨ws1, d1, f, rfl, hf, by rw [hf], rfl, rfl⟩

theorem truncate_cases (h : ws.truncate d size = some (ws', d')) :
    ∃ ws1 d1 f, ws.detachFromUploadsLocked d (min size ws.size) = some (ws1, d1) ∧ ws1.file = some f ∧
      ws' = { ws1 with
        size := size
        dirty := true
        written := if size = 0 then false else ws1.written } ∧
      d' = d1.setInode f (resize 0 (d1.inode f) size) := by
  unfold WriteSession.truncate at h
  cases hd : ws.detachFromUploadsLocked d (min size ws.size) with
  | none => simp [hd] at h
  | some p =>
    obtain ⟨ws1, d1⟩ := p
    cases hf : ws1.file with
    | none => simp [hd, hf] at h
    | some f =>
      simp only [hd, hf, Option.some.injEq, Prod.mk.injEq] at h
      obtain ⟨rfl, rfl⟩ := h
      exact ⟨ws1, d1, f, rfl, hf, by rw [hf], rfl⟩

theorem prefetch_cases
    (h : ws.prefetch d body how = some (ws', d', ok)) :
    ∃ ws1 d1, ws.detachFromUploadsLocked d 0 = some (ws1, d1) ∧
      (how = .complete ∧ ok ∧ d' = d1.downloadToFile body how ∧ ws' = { ws1 with
        size := (match ws1.file with
          | some f => (d'.inode f).length
          | none => ws1.size)
        prefetched := true } ∨
      how ≠ .complete ∧ ok = false ∧ ws' = ws1 ∧ d' = (match ws1.file with
        | some f => (d1.downloadToFile body how).setInode f
            (resize 0 ((d1.downloadToFile body how).inode f) ws1.size)
        | none => d1.downloadToFile body how)) := by
  unfold WriteSession.prefetch at h
  cases hd : ws.detachFromUploadsLocked d 0 with
  | none => simp [hd] at h
  | some p =>
    obtain ⟨ws1, d1⟩ := p
    refine ⟨ws1, d1, rfl, ?_⟩
    cases how with
    | complete =>
      simp only [hd, Option.some.injEq, Prod.mk.injEq] at h
      obtain ⟨rfl, rfl, rfl⟩ := h
      exact .inl ⟨rfl, rfl, rfl, rfl⟩
    | refused | brokenOff n =>
      refine .inr ⟨by simp, ?_⟩
      cases hf : ws1.file <;> simp only [hd, hf, Option.some.injEq, Prod.mk.injEq] at h <;>
        obtain ⟨rfl, rfl, rfl⟩ := h <;> exact ⟨rfl, rfl, rfl⟩

theorem prefetch_complete (h : ws.prefetch d body .complete = some (ws', d', true)) :
    ∃ ws1 d1, ws.detachFromUploadsLocked d 0 = some (ws1, d1) ∧ d' = d1.downloadToFile body .complete ∧
      ws' = { ws1 with
        size := (match ws1.file with
          | some f => (d'.inode f).length
          | none => ws1.size)
        prefetched := true } := by
  obtain ⟨ws1, d1, hd, ⟨-, -, hdisk, hws⟩ | ⟨hhow, -⟩⟩ := prefetch_cases h
  · exact ⟨ws1, d1, hd, hdisk, hws⟩
  · exact absurd rfl hhow

theorem prefetch_failed (h : ws.prefetch d body how = some (ws', d', false)) :
    ∃ d1, ws.detachFromUploadsLocked d 0 = some (ws', d1) ∧
      d' = (match ws'.file with
        | some f => (d1.downloadToFile body how).setInode f
            (resize 0 ((d1.downloadToFile body how).inode f) ws'.size)
        | none => d1.downloadToFile body how) := by
  obtain ⟨ws1, d1, hd, ⟨-, hok, -⟩ | ⟨-, -, rfl, hdisk⟩⟩ := prefetch_cases h
  · cases hok
  · exact ⟨d1, hd, hdisk⟩

theorem detach_keeps (h : ws.detachFromUploadsLocked d keepBytes = some (ws1, d1)) :
    ws1.refCount = ws.refCount ∧ ws1.size = ws.size ∧ ws1.dirty = ws.dirty ∧
    ws1.prefetched = ws.prefetched ∧ ws1.attrs = ws.attrs ∧ ws1.attributesSet = ws.attributesSet ∧
    d1.sidecar = d.sidecar := by
  rcases detach_cases h with ⟨_, rfl, rfl⟩ | ⟨_, _, _, rfl, rfl⟩ <;>
    exact ⟨rfl, rfl, rfl, rfl, rfl, rfl, rfl⟩

section
variable (h : ws.write d offset data = some (ws', d', dropped))
include h

theorem write_refCount : ws'.refCount = ws.refCount := by
  obtain ⟨ws1, d1, f, hd, _, rfl, _⟩ := write_cases h
  exact (detach_keeps hd).1

theorem write_attributes :
    ws'.attrs = { ws.attrs with mtime := 0 } ∧ ws'.attributesSet = ws.attributesSet := by
  obtain ⟨ws1, d1, f, hd, _, rfl, _⟩ := write_cases h
  obtain ⟨_, _, _, _, hattrs, hset, _⟩ := detach_keeps hd
  exact ⟨by rw [hattrs], hset⟩

theorem write_sidecar : d'.sidecar = d.sidecar := by
  obtain ⟨_, _, _, hd, _, _, rfl, _⟩ := write_cases h
  exact (detach_keeps hd).2.2.2.2.2.2

theorem write_dirty : ws'.dirty := by
  obtain ⟨_, _, _, _, _, rfl, _⟩ := write_cases h
  rfl

end

section
variable (h : ws.truncate d size = some (ws', d'))
include h

theorem truncate_refCount : ws'.refCount = ws.refCount := by
  obtain ⟨ws1, d1, f, hd, _, rfl, _⟩ := truncate_cases h
  exact (detach_keeps hd).1

theorem truncate_attributes :
    ws'.attrs = ws.attrs ∧ ws'.attributesSet = ws.attributesSet := by
  obtain ⟨ws1, d1, f, hd, _, rfl, _⟩ := truncate_cases h
  obtain ⟨_, _, _, _, hattrs, hset, _⟩ := detach_keeps hd
  exact ⟨hattrs, hset⟩

theorem truncate_sidecar : d'.sidecar = d.sidecar := by
  obtain ⟨_, _, _, hd, _, _, rfl⟩ := truncate_cases h
  exact (detach_keeps hd).2.2.2.2.2.2

theorem truncate_dirty : ws'.dirty := by
  obtain ⟨_, _, _, _, _, rfl, _⟩ := truncate_cases h
  rfl

end

theorem downloadToFile_sidecar (body : Bytes) (how : Download) :
    (d.downloadToFile body how).sidecar = d.sidecar := by
  cases how <;> cases hd : d.dataFile <;>
    simp only [Disk.downloadToFile, Disk.openOrCreate, hd, Disk.setInode]

section
variable (h : ws.prefetch d body how = some (ws', d', ok))
include h

theorem prefetch_keeps : ws'.refCount = ws.refCount ∧
    ws'.dirty = ws.dirty ∧ ws'.attrs = ws.attrs ∧ ws'.attributesSet = ws.attributesSet ∧
    d'.sidecar = d.sidecar := by
  obtain ⟨ws1, d1, hd, hcases⟩ := prefetch_cases h
  obtain ⟨href, _, hdirty, _, hattrs, hset, hside⟩ := detach_keeps hd
  have hside := (downloadToFile_sidecar (d := d1) body how).trans hside
  rcases hcases with ⟨-, -, rfl, rfl⟩ | ⟨-, -, rfl, rfl⟩
  · exact ⟨href, hdirty, hattrs, hset, hside⟩
  · cases ws'.file <;> exact ⟨href, hdirty, hattrs, hset, hside⟩

theorem prefetch_refCount : ws'.refCount = ws.refCount :=
  (prefetch_keeps h).1

theorem prefetch_attributes : ws'.attrs = ws.attrs ∧
    ws'.attributesSet = ws.attributesSet :=
  ⟨(prefetch_keeps h).2.2.1, (prefetch_keeps h).2.2.2.1⟩

theorem prefetch_sidecar : d'.sidecar = d.sidecar :=
  (prefetch_keeps h).2.2.2.2

end

theorem seedAttributes_set (attrs : StagedAttributes) :
    (ws.seedAttributes attrs).attributesSet := by
  unfold WriteSession.seedAttributes
  split
  · assumption
  · rfl

theorem setCreationIfUnset_set (btime : Nat) (mode : UInt32) :
    (ws.setCreationIfUnset btime mode).attributesSet := by
  unfold WriteSession.setCreationIfUnset
  split
  · assumption
  · rfl

@[simp] theorem seedAttributes_refCount (attrs : StagedAttributes) :
    (ws.seedAttributes attrs).refCount = ws.refCount := by
  unfold WriteSession.seedAttributes
  split <;> rfl

@[simp] theorem setCreationIfUnset_refCount (btime : Nat) (mode : UInt32) :
    (ws.setCreationIfUnset btime mode).refCount = ws.refCount := by
  unfold WriteSession.setCreationIfUnset
  split <;> rfl

/-! ## What the session reads as -/

theorem content_getElem? :
    (ws.content d)[i]? = some b ↔ ∃ f, ws.file = some f ∧ i < ws.size ∧ (d.inode f)[i]? = some b := by
  unfold WriteSession.content
  cases ws.file with
  | none => simp
  | some f =>
    simp only [List.getElem?_take, Option.some.injEq, exists_eq_left']
    by_cases hi : i < ws.size <;> simp [hi]

theorem detach_content (h : ws.detachFromUploadsLocked d keepBytes = some (ws1, d1)) (hi : i < keepBytes)
    (hb : (ws.content d)[i]? = some b) : (ws1.content d1)[i]? = some b := by
  rcases detach_cases h with ⟨_, rfl, rfl⟩ | ⟨_, bytes, hkept, rfl, rfl⟩
  · exact hb
  · obtain ⟨f, hf, hsize, hbf⟩ := content_getElem?.1 hb
    rcases hkept with ⟨rfl, _⟩ | ⟨f', hf', _, rfl⟩
    · exact absurd hi (Nat.not_lt_zero i)
    · obtain rfl : f = f' := Option.some.inj (hf.symm.trans hf')
      refine content_getElem?.2 ⟨_, rfl, hsize, ?_⟩
      simp only [update_self]
      rw [List.getElem?_take_of_lt hi]
      exact hbf

theorem write_content_of_mem (h : ws.write d offset data = some (ws', d', dropped)) (hlo : offset ≤ i)
    (hb : data[i - offset]? = some b) : (ws'.content d')[i]? = some b := by
  have hhi : i < offset + data.length := by
    have := (List.getElem?_eq_some_iff.1 hb).1
    omega
  obtain ⟨ws1, d1, f, _, hf, rfl, rfl, _⟩ := write_cases h
  refine content_getElem?.2 ⟨f, hf, Nat.lt_of_lt_of_le hhi (Nat.le_max_right _ _), ?_⟩
  rw [setInode_inode_self, writeAt_getElem?_of_mem 0 hlo hhi]
  exact hb

theorem write_content_of_lt
    (h : ws.write d offset data = some (ws', d', dropped)) (hout : i < offset ∨ offset + data.length ≤ i)
    (hb : (ws.content d)[i]? = some b) : (ws'.content d')[i]? = some b := by
  obtain ⟨ws1, d1, f, hd, hf, rfl, rfl, _⟩ := write_cases h
  obtain ⟨_, _, hsize, _⟩ := content_getElem?.1 hb
  obtain ⟨f1, hf1, hsize1, hb1⟩ := content_getElem?.1 (detach_content hd hsize hb)
  obtain rfl : f1 = f := Option.some.inj (hf1.symm.trans hf)
  refine content_getElem?.2 ⟨f1, hf, Nat.lt_of_lt_of_le hsize1 (Nat.le_max_left _ _), ?_⟩
  rw [setInode_inode_self, writeAt_getElem?_of_lt 0 (List.getElem?_eq_some_iff.1 hb1).1 hout]
  exact hb1

theorem truncate_content (h : ws.truncate d size = some (ws', d'))
    (hi : i < size) (hb : (ws.content d)[i]? = some b) : (ws'.content d')[i]? = some b := by
  obtain ⟨ws1, d1, f, hd, hf, rfl, rfl⟩ := truncate_cases h
  obtain ⟨_, _, hsize, _⟩ := content_getElem?.1 hb
  obtain ⟨f1, hf1, _, hb1⟩ :=
    content_getElem?.1 (detach_content hd (Nat.lt_min.2 ⟨hi, hsize⟩) hb)
  obtain rfl : f1 = f := Option.some.inj (hf1.symm.trans hf)
  refine content_getElem?.2 ⟨f1, hf, hi, ?_⟩
  rw [setInode_inode_self, resize_getElem? 0 (List.getElem?_eq_some_iff.1 hb1).1 hi]
  exact hb1

theorem detach_length (h : ws.detachFromUploadsLocked d keepBytes = some (ws1, d1))
    (hk : keepBytes ≤ ws.size) (hlen : ∀ f, ws.file = some f → (d.inode f).length ≤ ws.size) :
    ∀ f, ws1.file = some f → (d1.inode f).length ≤ ws1.size := by
  intro f hf
  rcases detach_cases h with ⟨_, rfl, rfl⟩ | ⟨_, bytes, hkept, rfl, rfl⟩
  · exact hlen f hf
  · obtain rfl := Option.some.inj hf
    simp only [update_self]
    rcases hkept with ⟨_, rfl⟩ | ⟨f', _, _, rfl⟩
    · exact Nat.zero_le _
    · rw [List.length_take]
      omega

theorem write_length
    (h : ws.write d offset data = some (ws', d', dropped)) (hlen : ∀ f, ws.file = some f →
    (d.inode f).length ≤ ws.size) : ∀ f, ws'.file = some f → (d'.inode f).length ≤ ws'.size := by
  obtain ⟨ws1, d1, f1, hd, hf1, rfl, rfl, _⟩ := write_cases h
  intro f hf
  obtain rfl : f1 = f := Option.some.inj (hf1.symm.trans hf)
  have hlen1 := detach_length hd (Nat.le_refl _) hlen f1 hf1
  rw [setInode_inode_self]
  by_cases hdata : data = []
  · subst hdata
    rw [writeAt_nil]
    exact Nat.le_trans hlen1 (Nat.le_max_left _ _)
  · rw [writeAt_length 0 hdata]
    simp only
    omega

theorem truncate_length (h : ws.truncate d size = some (ws', d')) :
    ∀ f, ws'.file = some f → (d'.inode f).length ≤ ws'.size := by
  obtain ⟨ws1, d1, f1, hd, hf1, rfl, rfl⟩ := truncate_cases h
  intro f hf
  obtain rfl : f1 = f := Option.some.inj (hf1.symm.trans hf)
  refine Nat.le_of_eq ?_
  rw [setInode_inode_self, resize_length]

theorem prefetch_size (h : ws.prefetch d body how = some (ws', d', ok)) : ∀ f, ws'.file = some f →
    ws'.size = (d'.inode f).length := by
  intro f hf
  obtain ⟨ws1, d1, -, ⟨-, -, -, rfl⟩ | ⟨-, -, rfl, rfl⟩⟩ := prefetch_cases h
  · simp only at hf
    simp only [hf]
  · simp only [hf]
    rw [setInode_inode_self, resize_length]

theorem prefetch_length (h : ws.prefetch d body how = some (ws', d', ok)) : ∀ f, ws'.file = some f →
    (d'.inode f).length ≤ ws'.size :=
  fun f hf => Nat.le_of_eq (prefetch_size h f hf).symm

end

end Bluestone
