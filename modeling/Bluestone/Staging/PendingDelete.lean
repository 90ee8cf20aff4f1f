/-
# `Bluestone.Staging.PendingDelete` — a tombstone in memory and on disk

An accepted delete is recorded twice: in the manager's map, which
`HasPendingDelete` reads, and in a file, which a restart reads.
`GetOrCreateSession` withdraws it before it returns a session, whether or not that
works.  Here the two records are kept apart, and every call of the local file
system may fail.

| step | reads | changes |
|------|-------|---------|
| `cancelPendingDelete` | memory | both, or neither if the unlink fails |
| `addTombstone` | | both, or neither if the write fails |
| `discardDeletedStaging` | memory | what is staged |
| `deleteObject` | | the object |
| `resolvePendingDelete` | memory | as `cancelPendingDelete` |
| `recoverFromDisk` | disk | memory, and what is staged |

* `session_implies_no_pending_delete`: just when the withdrawal leaves neither record and
  no worker has a delete under way, no later delete or restart takes what is written.
* `withdrawn_delete_discards`: the three ways in which it goes wrong.

A `Remove` past its discard deletes the object by itself, without the sync lock:
see `Bluestone.Staging.Recreated`.
-/
import Bluestone.Staging.Session

namespace Bluestone.Pending

/-! ## The path -/

/-- The tombstone's file.  One that does not decode is no tombstone of any path. -/
inductive TombstoneFile
  | absent
  | garbled
  | tombstone
  deriving DecidableEq, Repr

/-- Where the sync worker is in a deferred delete of the path.  Its discard has dropped the
sync lock, so others may sync the path meanwhile. -/
inductive Worker
  | idle
  | deleting
  | resolving
  deriving DecidableEq, Repr

/-- One path of the staging manager.  `sidecar` says that the staging file has a
sidecar that can be decoded and records no conflict. -/
structure Path where
  tombstone : Bool
  tombstoneFile : TombstoneFile
  conflicted : Bool
  session : Bool
  staged : Option Bytes
  sidecar : Bool
  object : Option Bytes
  worker : Worker
  deriving DecidableEq, Repr

/-- No tombstone of the path is left. -/
structure Path.NoTombstone (s : Path) : Prop where
  memory : s.tombstone = false
  disk : s.tombstoneFile ≠ .tombstone

namespace Path

/-! ## The tombstone -/

/-- `CancelPendingDelete`, with whether the unlink of the tombstone's file fails; a
file that is not there is no failure. -/
def cancelPendingDelete (s : Path) (unlinkFails : Bool) : Bool × Path :=
  if s.tombstone then
    if unlinkFails then (false, s)
    else (true, { s with tombstone := false, tombstoneFile := .absent })
  else (false, s)

/-- `ResolvePendingDelete`. -/
def resolvePendingDelete (s : Path) (unlinkFails : Bool) : Path :=
  if s.tombstone then
    if unlinkFails then s else { s with tombstone := false, tombstoneFile := .absent }
  else s

/-- `addTombstone`: the file is written under another name and renamed, and the map
is changed only then. -/
def addTombstone (s : Path) (writeFails : Bool) : Bool × Path :=
  if writeFails then (false, s)
  else (true, { s with tombstone := true, tombstoneFile := .tombstone })

/-! ## Opening -/

/-- What can go wrong when a session is asked for. -/
structure OpenFaults where
  unlinkTombstone : Bool
  openData : Bool
  statData : Bool
  writeSidecar : Bool
  deriving DecidableEq, Repr

/-- `NewWriteSession`: the staging file is created, or opened as it is; a sidecar
that cannot be written is no reason to fail. -/
def newWriteSession (s : Path) (w : OpenFaults) : Bool × Path :=
  if w.openData then (false, s)
  else
    let s := { s with staged := some (s.staged.getD []) }
    if w.statData then (false, s)
    else (true, { s with sidecar := s.sidecar || !w.writeSidecar })

/-- `GetOrCreateSession`, and whether it returns a session. -/
def getOrCreateSession (s : Path) (w : OpenFaults) : Bool × Path :=
  if s.conflicted then (false, s)
  else
    let s := (s.cancelPendingDelete w.unlinkTombstone).2
    if s.session then (true, s)
    else
      let (created, s) := s.newWriteSession w
      if created then (true, { s with session := true }) else (false, s)

/-! ## Deleting -/

/-- What can go wrong when staged files are removed. -/
structure DiscardFaults where
  unlinkData : Bool
  unlinkSidecar : Bool
  deriving DecidableEq, Repr

/-- `dropDirtyEntry`. -/
def dropDirtyEntry (s : Path) (unlinkFails : Bool) : Path :=
  { s with sidecar := s.sidecar && unlinkFails }

/-- `removeSessionLocked`, with `deleteStagingFile`. -/
def removeSessionLocked (s : Path) (w : DiscardFaults) : Path :=
  if s.session then
    let s := { s with session := false }
    if w.unlinkData then s else { s with staged := none }.dropDirtyEntry w.unlinkSidecar
  else s

/-- `discardDeletedStaging`, and whether the delete still stands. -/
def discardDeletedStaging (s : Path) (w : DiscardFaults) : Bool × Path :=
  if s.tombstone then (true, (s.dropDirtyEntry w.unlinkSidecar).removeSessionLocked w)
  else (false, s)

/-- `processPendingDeletes` takes up the path: it goes on only while the delete
stands. -/
def startDelete (s : Path) (w : DiscardFaults) : Path :=
  match s.worker with
  | .idle =>
    let (stands, s) := s.discardDeletedStaging w
    if stands then { s with worker := .deleting } else s
  | .deleting | .resolving => s

/-- The worker's `DeleteObject` returns. -/
def deleteObject (s : Path) (fails : Bool) : Path :=
  match s.worker with
  | .deleting =>
    if fails then { s with worker := .idle } else { s with object := none, worker := .resolving }
  | .idle | .resolving => s

/-- The worker resolves the delete and gives up the sync lock. -/
def finishDelete (s : Path) (unlinkFails : Bool) : Path :=
  match s.worker with
  | .resolving => { s.resolvePendingDelete unlinkFails with worker := .idle }
  | .idle | .deleting => s

/-! ## Restarting -/

/-- What can go wrong at a restart. -/
structure RestartFaults where
  listTombstones : Bool
  readTombstone : Bool
  unlinkGarbled : Bool
  listActive : Bool
  readSidecar : Bool
  unlinkData : Bool
  unlinkSidecar : Bool
  openStaged : Bool
  readConflict : Bool
  deriving DecidableEq, Repr

/-- `recoverTombstonesFromDisk`: a file that cannot be read is passed over, one that
does not decode is removed. -/
def recoverTombstonesFromDisk (s : Path) (w : RestartFaults) : Path :=
  if w.listTombstones then s
  else
    match s.tombstoneFile with
    | .absent => s
    | .garbled =>
      if w.readTombstone then s
      else if w.unlinkGarbled then s
      else { s with tombstoneFile := .absent }
    | .tombstone => if w.readTombstone then s else { s with tombstone := true }

/-- `RecoverFromDisk` on what is staged for the path, once the tombstones are
loaded. -/
def recoverStaged (s : Path) (w : RestartFaults) : Path :=
  if w.listActive then s
  else
    match s.staged with
    | none => { s with sidecar := s.sidecar && w.unlinkSidecar }
    | some b =>
      -- without its sidecar the file is left stranded
      if w.readSidecar || !s.sidecar then s
      else if s.tombstone then
        { s with
          staged := if w.unlinkData then some b else none
          sidecar := w.unlinkSidecar }
      else if w.openStaged then s
      else { s with session := true }

/-- A restart: the map, the sessions and the worker are gone. -/
def recoverFromDisk (s : Path) (w : RestartFaults) : Path :=
  let s := { s with tombstone := false, session := false, worker := .idle }
  let s := (s.recoverTombstonesFromDisk w).recoverStaged w
  { s with conflicted := s.conflicted && !w.readConflict }

end Path

/-! ## What happens to a path -/

/-- An event at the path.  `others` is whatever writes, syncs, cleanups and recorded
conflicts leave of everything but the tombstone. -/
inductive Event
  | getOrCreateSession (w : Path.OpenFaults)
  | others (conflicted session : Bool) (staged : Option Bytes) (sidecar : Bool) (object : Option Bytes)
  | addTombstone (writeFails : Bool)
  | discard (w : Path.DiscardFaults)
  | startDelete (w : Path.DiscardFaults)
  | deleteObject (fails : Bool)
  | finishDelete (unlinkFails : Bool)
  | restart (w : Path.RestartFaults)
  deriving DecidableEq, Repr

/-- A delete of the path is accepted: by a `Remove`, or by a rename that has moved
the staged file away. -/
def Event.accepts : Event → Bool
  | .addTombstone writeFails => !writeFails
  | _ => false

/-- The event is part of a delete that was accepted, or a restart. -/
def Event.deletes : Event → Bool
  | .discard _ | .startDelete _ | .deleteObject _ | .finishDelete _ | .restart _ => true
  | _ => false

/-- One event. -/
def Path.happen (s : Path) : Event → Path
  | .getOrCreateSession w => (s.getOrCreateSession w).2
  | .others conflicted session staged sidecar object =>
    { s with conflicted, session, staged, sidecar, object }
  | .addTombstone writeFails => (s.addTombstone writeFails).2
  | .discard w => (s.discardDeletedStaging w).2
  | .startDelete w => s.startDelete w
  | .deleteObject fails => s.deleteObject fails
  | .finishDelete unlinkFails => s.finishDelete unlinkFails
  | .restart w => s.recoverFromDisk w

/-- The event may be an upload. -/
def Event.uploads : Event → Bool
  | .others .. => true
  | _ => false

/-- No delete and no restart among the events takes what is staged, nor an object
uploaded by then; `uploaded` says that there may be one. -/
def Spared (s : Path) (uploaded : Bool) : List Event → Prop
  | [] => True
  | e :: later =>
    (e.deletes = true → (s.happen e).staged = s.staged ∧ (uploaded = true → (s.happen e).object = s.object)) ∧
    Spared (s.happen e) (uploaded || e.uploads) later

/-! ## Opening -/

namespace Path

variable (s : Path) (w : OpenFaults)

theorem newWriteSession_rest : (s.newWriteSession w).2.tombstone = s.tombstone ∧
    (s.newWriteSession w).2.tombstoneFile = s.tombstoneFile ∧
    (s.newWriteSession w).2.worker = s.worker := by
  unfold newWriteSession
  split
  · exact ⟨rfl, rfl, rfl⟩
  dsimp only
  split <;> exact ⟨rfl, rfl, rfl⟩

theorem cancelPendingDelete_worker (unlinkFails : Bool) :
    (s.cancelPendingDelete unlinkFails).2.worker = s.worker := by
  unfold cancelPendingDelete
  split
  · split <;> rfl
  · rfl

theorem getOrCreateSession_worker : (s.getOrCreateSession w).2.worker = s.worker := by
  unfold getOrCreateSession
  split
  · rfl
  dsimp only
  split
  · exact s.cancelPendingDelete_worker _
  have hnew := (newWriteSession_rest (s.cancelPendingDelete w.unlinkTombstone).2 w).2.2
  split <;> exact hnew.trans (s.cancelPendingDelete_worker _)

theorem noTombstone_getOrCreateSession : (s.getOrCreateSession w).2.NoTombstone ↔
      (if s.conflicted then s else (s.cancelPendingDelete w.unlinkTombstone).2).NoTombstone := by
  unfold getOrCreateSession
  split
  · exact Iff.rfl
  dsimp only
  split
  · exact Iff.rfl
  obtain ⟨hmem, hdisk, -⟩ := newWriteSession_rest (s.cancelPendingDelete w.unlinkTombstone).2 w
  split
  all_goals
    exact ⟨fun hn => ⟨hmem ▸ hn.memory, hdisk ▸ hn.disk⟩,
      fun hn => ⟨hmem.trans hn.memory, hdisk.symm ▸ hn.disk⟩⟩

end Path

/-! ## A path without a tombstone -/

namespace Path.NoTombstone

variable {s : Path}

theorem cancelPendingDelete (h : s.NoTombstone) (unlinkFails : Bool) :
    s.cancelPendingDelete unlinkFails = (false, s) := by
  simp [Path.cancelPendingDelete, h.memory]

theorem resolvePendingDelete (h : s.NoTombstone) (unlinkFails : Bool) :
    s.resolvePendingDelete unlinkFails = s := by
  simp [Path.resolvePendingDelete, h.memory]

theorem discardDeletedStaging (h : s.NoTombstone) (w : DiscardFaults) :
    s.discardDeletedStaging w = (false, s) := by
  simp [Path.discardDeletedStaging, h.memory]

theorem startDelete (h : s.NoTombstone) (w : DiscardFaults) : s.startDelete w = s := by
  unfold Path.startDelete
  rw [h.discardDeletedStaging w]
  cases s.worker <;> rfl

theorem getOrCreateSession (h : s.NoTombstone) (w : OpenFaults) :
    (s.getOrCreateSession w).2.NoTombstone := by
  rw [noTombstone_getOrCreateSession, h.cancelPendingDelete]
  split <;> exact h

theorem recoverTombstonesFromDisk (h : s.NoTombstone) (w : RestartFaults) :
    (s.recoverTombstonesFromDisk w).NoTombstone := by
  unfold Path.recoverTombstonesFromDisk
  split
  · exact h
  split
  · exact h
  · split
    · exact h
    split
    · exact h
    · exact ⟨h.memory, nofun⟩
  · next hfile => exact absurd hfile h.disk

theorem recoverStaged (h : s.NoTombstone) (w : RestartFaults) :
    (s.recoverStaged w).NoTombstone ∧ (s.recoverStaged w).staged = s.staged := by
  unfold Path.recoverStaged
  split
  · exact ⟨h, rfl⟩
  split
  · exact ⟨⟨h.memory, h.disk⟩, rfl⟩
  · split
    · exact ⟨h, rfl⟩
    split
    · next htomb => exact absurd (h.memory.symm.trans htomb) nofun
    split
    · exact ⟨h, rfl⟩
    · exact ⟨⟨h.memory, h.disk⟩, rfl⟩

end Path.NoTombstone

/-! ## Restarts -/

namespace Path

variable (s : Path) (w : RestartFaults)

theorem recoverTombstonesFromDisk_rest : (s.recoverTombstonesFromDisk w).staged = s.staged ∧
    (s.recoverTombstonesFromDisk w).object = s.object ∧
    (s.recoverTombstonesFromDisk w).worker = s.worker := by
  unfold recoverTombstonesFromDisk
  split
  · exact ⟨rfl, rfl, rfl⟩
  split
  · exact ⟨rfl, rfl, rfl⟩
  · split
    · exact ⟨rfl, rfl, rfl⟩
    split <;> exact ⟨rfl, rfl, rfl⟩
  · split <;> exact ⟨rfl, rfl, rfl⟩

theorem recoverStaged_rest :
    (s.recoverStaged w).object = s.object ∧ (s.recoverStaged w).worker = s.worker := by
  unfold recoverStaged
  split
  · exact ⟨rfl, rfl⟩
  split
  · exact ⟨rfl, rfl⟩
  split
  · exact ⟨rfl, rfl⟩
  split
  · exact ⟨rfl, rfl⟩
  split <;> exact ⟨rfl, rfl⟩

theorem recoverFromDisk_object : (s.recoverFromDisk w).object = s.object := by
  simp only [recoverFromDisk, recoverStaged_rest, recoverTombstonesFromDisk_rest]

theorem recoverFromDisk_worker : (s.recoverFromDisk w).worker = .idle := by
  simp only [recoverFromDisk, recoverStaged_rest, recoverTombstonesFromDisk_rest]

theorem recoverFromDisk_of_no_file (h : s.tombstoneFile ≠ .tombstone) :
    (s.recoverFromDisk w).NoTombstone ∧ (s.recoverFromDisk w).staged = s.staged := by
  -- memory starts empty, so the path is one without a tombstone
  have hstart : Path.NoTombstone { s with tombstone := false, session := false, worker := .idle } :=
    ⟨rfl, h⟩
  have hstaged := (hstart.recoverTombstonesFromDisk w).recoverStaged w
  refine ⟨⟨hstaged.1.memory, hstaged.1.disk⟩, hstaged.2.trans ?_⟩
  exact (recoverTombstonesFromDisk_rest _ w).1

end Path

/-! ## Steps and runs -/

/-- What carries a run: there is no tombstone, and no worker is about to delete the
object. -/
structure Safe (s : Path) : Prop where
  none : s.NoTombstone
  worker : s.worker ≠ .deleting

section
variable {s : Path} {e : Event}

theorem safe_happen (h : Safe s) (he : e.accepts = false) : Safe (s.happen e) := by
  cases e with
  | getOrCreateSession w =>
    refine ⟨h.none.getOrCreateSession w, ?_⟩
    rw [Path.happen, s.getOrCreateSession_worker w]
    exact h.worker
  | others conflicted session staged sidecar object => exact ⟨⟨h.none.memory, h.none.disk⟩, h.worker⟩
  | addTombstone writeFails =>
    have hfails : writeFails := by simpa [Event.accepts] using he
    rw [hfails]
    exact h
  | discard w =>
    rw [Path.happen, h.none.discardDeletedStaging]
    exact h
  | startDelete w =>
    rw [Path.happen, h.none.startDelete]
    exact h
  | deleteObject fails =>
    rw [Path.happen, Path.deleteObject]
    cases hw : s.worker with
    | idle | resolving => exact h
    | deleting => exact absurd hw h.worker
  | finishDelete unlinkFails =>
    rw [Path.happen, Path.finishDelete, h.none.resolvePendingDelete]
    cases s.worker with
    | idle | deleting => exact h
    | resolving => exact ⟨⟨h.none.memory, h.none.disk⟩, nofun⟩
  | restart w =>
    refine ⟨(s.recoverFromDisk_of_no_file w h.none.disk).1, ?_⟩
    rw [Path.happen, s.recoverFromDisk_worker w]
    nofun

theorem spared_happen (h : Safe s) (he : e.deletes) :
    (s.happen e).staged = s.staged ∧ (s.happen e).object = s.object := by
  cases e with
  | getOrCreateSession | others | addTombstone => contradiction
  | discard w =>
    rw [Path.happen, h.none.discardDeletedStaging]
    exact ⟨rfl, rfl⟩
  | startDelete w =>
    rw [Path.happen, h.none.startDelete]
    exact ⟨rfl, rfl⟩
  | deleteObject fails =>
    rw [Path.happen, Path.deleteObject]
    cases hw : s.worker with
    | idle | resolving => exact ⟨rfl, rfl⟩
    | deleting => exact absurd hw h.worker
  | finishDelete unlinkFails =>
    rw [Path.happen, Path.finishDelete, h.none.resolvePendingDelete]
    cases s.worker <;> exact ⟨rfl, rfl⟩
  | restart w => exact ⟨(s.recoverFromDisk_of_no_file w h.none.disk).2, s.recoverFromDisk_object w⟩

/-- An object uploaded while the worker is in its `DeleteObject` is taken. -/
theorem not_deleting_of_spared (h : ∀ later : List Event, (∀ e ∈ later, e.accepts = false) → Spared s false later) :
    s.worker ≠ .deleting := by
  intro hw
  have hall := h [.others false false none false (some []), .deleteObject false] (by simp [Event.accepts])
  have hobject := (hall.2.1 rfl).2 rfl
  simp [Path.happen, Path.deleteObject, hw] at hobject

end

theorem spared_of_safe : ∀ (later : List Event) {s : Path} {uploaded : Bool},
    Safe s → (∀ e ∈ later, e.accepts = false) → Spared s uploaded later
  | [], _, _, _, _ => trivial
  | e :: later, s, uploaded, h, hlater => by
      refine ⟨fun he => ⟨(spared_happen h he).1, fun _ => (spared_happen h he).2⟩, ?_⟩
      exact spared_of_safe later (safe_happen h (hlater e List.mem_cons_self))
        fun e' he' => hlater e' (List.mem_cons_of_mem e he')

/-! ## What `GetOrCreateSession` leaves of the tombstone -/

/-- The tombstone in memory can be unlinked, the one on disk is in memory, and no
`DeleteObject` of the worker is in flight. -/
structure Withdraws (s : Path) (w : Path.OpenFaults) : Prop where
  memory : s.tombstone = true → w.unlinkTombstone = false
  disk : s.tombstoneFile = .tombstone → s.tombstone = true
  worker : s.worker ≠ .deleting

section
variable {s : Path} {w : Path.OpenFaults}

theorem not_conflicted_of_returns (h : (s.getOrCreateSession w).1) : s.conflicted = false := by
  unfold Path.getOrCreateSession at h
  split at h
  · contradiction
  · next hconflicted => exact Bool.eq_false_iff.2 hconflicted

theorem withdraws_iff : Withdraws s w ↔
    (s.cancelPendingDelete w.unlinkTombstone).2.NoTombstone ∧ s.worker ≠ .deleting := by
  unfold Path.cancelPendingDelete
  cases htomb : s.tombstone with
  | false =>
    constructor
    · intro hw
      exact ⟨⟨htomb, fun hf => absurd (htomb.symm.trans (hw.disk hf)) nofun⟩, hw.worker⟩
    · rintro ⟨hn, hw⟩
      exact ⟨fun ht => absurd (htomb.symm.trans ht) nofun, fun hf => absurd hf hn.disk, hw⟩
  | true =>
    cases hfails : w.unlinkTombstone with
    | false =>
      constructor
      · intro hw
        exact ⟨⟨rfl, nofun⟩, hw.worker⟩
      · rintro ⟨-, hw⟩
        exact ⟨fun _ => hfails, fun _ => htomb, hw⟩
    | true =>
      constructor
      · intro hw
        exact absurd (hfails.symm.trans (hw.memory htomb)) nofun
      · rintro ⟨hn, -⟩
        exact absurd (htomb.symm.trans hn.memory) nofun

end

/-- When `GetOrCreateSession` returns a session, no tombstone of the path is left in
memory or on disk, and no delete and no restart takes what is written until a delete
is accepted again, just when the unlink of a tombstone in memory succeeds, a
tombstone on disk is one in memory, and no worker is deleting the object. -/
theorem session_implies_no_pending_delete (s : Path) (w : Path.OpenFaults)
    (h : (s.getOrCreateSession w).1 = true) : ((s.getOrCreateSession w).2.NoTombstone ∧
    ∀ later : List Event, (∀ e ∈ later, e.accepts = false) →
    Spared (s.getOrCreateSession w).2 false later) ↔ Withdraws s w := by
  have hleft : (s.getOrCreateSession w).2.NoTombstone ↔
      (s.cancelPendingDelete w.unlinkTombstone).2.NoTombstone := by
    rw [s.noTombstone_getOrCreateSession w, not_conflicted_of_returns h]
    rfl
  rw [withdraws_iff, ← hleft, ← s.getOrCreateSession_worker w]
  refine and_congr_right fun hnone => ⟨not_deleting_of_spared, fun hworker later hlater => ?_⟩
  exact spared_of_safe later ⟨hnone, hworker⟩ hlater

/-- A dirty path whose delete has been accepted and its bytes discarded. -/
def deletedPath : Path where
  tombstone := true
  tombstoneFile := .tombstone
  conflicted := false
  session := false
  staged := none
  sidecar := false
  object := some [7]
  worker := .idle

/-- Nothing goes wrong. -/
def Path.OpenFaults.none : Path.OpenFaults := ⟨false, false, false, false⟩

/-- Only the unlink of the tombstone fails. -/
def Path.OpenFaults.unlinks : Path.OpenFaults := ⟨true, false, false, false⟩

/-- A restart at which only the given reads fail. -/
def Path.RestartFaults.reading (tombstoneFails : Bool) : Path.RestartFaults :=
  ⟨false, tombstoneFails, false, false, false, false, false, false, false⟩

/-- Three bytes are written through the session, and synced. -/
def written : Event := .others false true (some [1, 2, 3]) true (some [1, 2, 3])

/-- A file created again is not deleted with the old one: neither the next delete pass
nor a restart takes what is written and synced. -/
theorem created_again_spared : (deletedPath.getOrCreateSession .none).1 = true ∧ Withdraws deletedPath .none ∧
    (deletedPath.getOrCreateSession .none).2.NoTombstone ∧ Spared (deletedPath.getOrCreateSession .none).2 false
    [written, .startDelete ⟨false, false⟩, .deleteObject false, .restart (.reading false)] := by
  have hw : Withdraws deletedPath .none := ⟨fun _ => rfl, fun _ => rfl, nofun⟩
  obtain ⟨hnone, hspared⟩ := (session_implies_no_pending_delete deletedPath .none rfl).2 hw
  exact ⟨rfl, hw, hnone, hspared _ (by decide)⟩

/-- Every event of a list, in turn. -/
def Path.run (s : Path) (events : List Event) : Path := events.foldl Path.happen s

/-- A session is returned and its bytes are taken by the old delete: by the next
delete pass when the unlink failed, by the next restart when the restart before
could not read the tombstone, and by a `DeleteObject` under way when it was returned. -/
theorem withdrawn_delete_discards : (deletedPath.getOrCreateSession .unlinks).1 = true ∧
    (deletedPath.run [.getOrCreateSession .unlinks, written]).staged = some [1, 2, 3] ∧
    (deletedPath.run [.getOrCreateSession .unlinks, written, .startDelete ⟨false, false⟩]).staged = none ∧
    ((deletedPath.run [.restart (.reading true)]).getOrCreateSession .none).1 = true ∧
    (deletedPath.run [.restart (.reading true), .getOrCreateSession .none, written]).staged = some [1, 2, 3] ∧
    (deletedPath.run [.restart (.reading true), .getOrCreateSession .none, written,
    .restart (.reading false)]).staged = none ∧
    ((deletedPath.run [.startDelete ⟨false, false⟩]).getOrCreateSession .none).1 = true ∧
    (deletedPath.run [.startDelete ⟨false, false⟩, .getOrCreateSession .none, written,
    .deleteObject false]).object = none := by
  decide

end Bluestone.Pending
