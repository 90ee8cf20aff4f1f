/-
# `Bluestone.Staging.Uploads` — the path as a write-back cache

`State.view` reads the path as the abstract write-back cache of
`Library.WriteBack`: the object is the store, the listed session the current
item, the dirty generation the dirty mark, and every thread has a role.
`Step.refines` says that each step of the path is a step of that cache, in runs
that keep to three conditions (`Orderly`), and `reach_safe` is the cache's
invariant carried back to the path.

The three conditions are what the source leaves to the schedule:

* a prefetch runs its download only on a session without changes;
* a sync gets the object lock only while the path is dirty (the check before it
  is made without that lock, and only `TriggerSync` makes it again under it);
* no session is created while a failed open is still removing the files of the
  one it unlisted.

Between the two levels stands `Files`: the listed session's descriptor is the file
under its staging name, and an upload reads a file no change goes to any more.
-/
import Bluestone.Library.WriteBack
import Bluestone.Staging.Readable

namespace Bluestone

open Function Runs

/-! ## The view -/

/-- The task a thread returns to after the `persistAttributes` calls it is in. -/
def Task.base : Task → Task
  | .persist _ _ next => next.base
  | task => task

/-- The snapshot a sync has open and may still upload. -/
def Task.openSnapshot (task : Task) : Option Snapshot :=
  match task.base with
  | .syncing (.attributes snap) | .syncing (.uploading snap _ _) | .syncing (.finish snap) =>
    some snap
  | _ => none

/-- A failed open that removes the files of the session it unlisted. -/
def Task.discards (task : Task) : Bool :=
  match task.base with
  | .discarding _ _ => true
  | _ => false

/-- A sync that found a dirty path without a session. -/
def Task.searches (task : Task) : Bool :=
  match task.base with
  | .syncing .stat | .syncing (.recover _) | .syncing .forget => true
  | _ => false

/-- The bytes an upload of `snap` reads, given the files. -/
def Snapshot.bytes (inode : Nat → Bytes) (snap : Snapshot) : Bytes :=
  (inode snap.file).take snap.size

/-- The role a sync has. -/
def SyncPc.role (inode : Nat → Bytes) : SyncPc → WriteBack.Role Bytes
  | .check | .waiting | .unlockFile => .outside
  | .pending | .lookup | .stat | .recover _ | .forget => .entered
  | .generation sid => .reading sid
  | .snapshot sid g => .opening sid g
  | .attributes snap => .uploading snap.sid snap.generation (snap.bytes inode) false
  | .uploading snap _ landed => .uploading snap.sid snap.generation (snap.bytes inode) landed
  | .finish snap => .uploading snap.sid snap.generation (snap.bytes inode) true
  | .cleanup _ | .closeRemoved _ | .close _ | .unlockObject => .leaving

/-- The role a thread has, given the files. -/
def Task.role (inode : Nat → Bytes) : Task → WriteBack.Role Bytes
  | .opening _ (.flags _ sid) | .opening _ (.stat _ sid) | .opening _ (.seed sid _)
  | .opening _ (.prefetch sid) | .opening _ (.creation sid) | .opening _ (.truncate sid)
  | .opening _ (.refuse sid) => .holder sid
  | .handle sid | .reading sid | .releasing sid => .holder sid
  | .marking sid _ _ => .pending sid
  | .persist _ _ next => next.role inode
  | .syncing pc => pc.role inode
  | _ => .outside

/-- The listed session as the cache's item. -/
def State.item (s : State) (sid : Nat) : WriteBack.Item Bytes :=
  ⟨sid, (s.session sid).content s.disk, (s.session sid).dirty, (s.session sid).prefetched⟩

/-- The path as a write-back cache. -/
def State.view (s : State) : WriteBack.Cache Nat Bytes where
  stored := s.object.map Object.content
  lock := s.objectLock
  dirty := s.dirty.map DirtyFileMetadata.generation
  generation := s.generation
  current := s.listed.map s.item
  role := fun t => (s.task t).role s.disk.inode

/-- The bytes of the listed session. -/
def State.currentBytes (s : State) : Bytes :=
  match s.listed with
  | none => []
  | some sid => (s.session sid).content s.disk

/-- What an action, having led to `s`, does to the value after the last change. -/
def State.effect (s : State) : Action → WriteBack.Effect Bytes
  | .write _ _ | .truncate _ => .change s.currentBytes
  | _ => .none

/-- The listed session's descriptor is the file under its staging name, and an
open snapshot is of a file that the next change leaves alone. -/
structure Files (s : State) : Prop where
  listed : ∀ sid, s.listed = some sid → ∃ f, (s.session sid).file = some f ∧ s.disk.dataFile = some f
  bound : ∀ f, s.disk.dataFile = some f → f < s.disk.nextInode
  discarding : ∀ t, (s.task t).discards = true → s.listed = none
  snapshots : ∀ t snap, (s.task t).openSnapshot = some snap →
    snap.file < s.disk.nextInode ∧ ∀ sid, s.listed = some sid →
      (s.session sid).uploadReaders = 0 → (s.session sid).file ≠ some snap.file
  found : ∀ t, (s.task t).searches = false

/-! ## The conditions of an orderly run -/

/-- A sync gets the object lock only while the path is dirty. -/
def locksDirty : Condition := fun s e => e.2 = .lockObject → s.dirty.isSome = true

/-- No session is created while a failed open removes the files of one. -/
def createsSettled : Condition := fun s e =>
  e.2 = .newSession → ∀ t, (s.task t).discards = false

/-- The conditions of an orderly run. -/
def Orderly : Condition := fun s e =>
  prefetchesUnchanged s e ∧ locksDirty s e ∧ createsSettled s e

/-! ## What the view does not see -/

/-- The fields of a session that say where its bytes are. -/
def WriteSession.core (ws : WriteSession) : Option Nat × Nat × Bool × Bool × Nat × Nat :=
  (ws.file, ws.size, ws.dirty, ws.prefetched, ws.uploadReaders, ws.fileGeneration)

/-- The disk without its sidecar. -/
def Disk.core (d : Disk) : (Nat → Bytes) × Nat × Option Nat := (d.inode, d.nextInode, d.dataFile)

/-- Two states that differ only in what the view does not see: attributes,
reference counts, sidecars, claims. -/
structure SameCore (s s' : State) : Prop where
  object : s'.object.map Object.content = s.object.map Object.content
  objectLock : s'.objectLock = s.objectLock
  dirty : s'.dirty = s.dirty
  generation : s'.generation = s.generation
  listed : s'.listed = s.listed
  session : ∀ sid, (s'.session sid).core = (s.session sid).core
  disk : s'.disk.core = s.disk.core
  task : s'.task = s.task

section
variable {s s' s1 : State} {t sid : Nat} {task : Task} {a : Action}

theorem SameCore.refl (s : State) : SameCore s s := ⟨rfl, rfl, rfl, rfl, rfl, fun _ => rfl, rfl, rfl⟩

theorem SameCore.trans {s'' : State} (h : SameCore s s') (h' : SameCore s' s'') : SameCore s s'' :=
  ⟨h'.object.trans h.object, h'.objectLock.trans h.objectLock, h'.dirty.trans h.dirty,
    h'.generation.trans h.generation, h'.listed.trans h.listed,
    fun sid => (h'.session sid).trans (h.session sid), h'.disk.trans h.disk, h'.task.trans h.task⟩

theorem sameCore_setSession {ws : WriteSession} (h : ws.core = (s.session sid).core) :
    SameCore s (s.setSession sid ws) := by
  refine ⟨rfl, rfl, rfl, rfl, rfl, ?_, rfl, rfl⟩
  intro i
  by_cases hi : i = sid
  · subst hi; simpa [State.setSession] using h
  · simp [State.setSession, update_of_ne hi]

theorem sameCore_setDisk {d : Disk} (h : d.core = s.disk.core) : SameCore s (s.setDisk d) :=
  ⟨rfl, rfl, rfl, rfl, rfl, fun _ => rfl, h, rfl⟩

theorem sameCore_releaseSession : SameCore s s.releaseSession := by
  unfold State.releaseSession
  cases s.listed with
  | none => exact .refl s
  | some sid => exact sameCore_setSession rfl

theorem sameCore_metadataChanged {found : Option Nat} : SameCore s (s.metadataChanged found) := by
  cases found with
  | none => exact .refl s
  | some sid => exact sameCore_setSession rfl

theorem sameCore_commitPathMetadata : SameCore s (s.commitPathMetadata sid) := by
  unfold State.commitPathMetadata
  split
  all_goals
    split
    · exact .refl s
    · exact sameCore_setDisk rfl

@[simp] theorem seedAttributes_core (ws : WriteSession) (attrs : StagedAttributes) :
    (ws.seedAttributes attrs).core = ws.core := by
  unfold WriteSession.seedAttributes
  split <;> rfl

@[simp] theorem setCreationIfUnset_core (ws : WriteSession) (btime : Nat) (mode : UInt32) :
    (ws.setCreationIfUnset btime mode).core = ws.core := by
  unfold WriteSession.setCreationIfUnset
  split <;> rfl

@[simp] theorem recordDirtyPath_core (d : Disk) (path : String) (attrs : Option StagedAttributes) :
    (d.recordDirtyPath path attrs).core = d.core := by
  unfold Disk.recordDirtyPath
  split <;> rfl

theorem sameCore_record (attrs : Option StagedAttributes) (found : Option Nat) :
    SameCore s ((s.setDisk (s.disk.recordDirtyPath s.path attrs)).metadataChanged found) :=
  (sameCore_setDisk (recordDirtyPath_core _ _ _)).trans sameCore_metadataChanged

theorem core_fields {ws ws' : WriteSession} (h : ws'.core = ws.core) : ws'.file = ws.file ∧
    ws'.size = ws.size ∧ ws'.dirty = ws.dirty ∧ ws'.prefetched = ws.prefetched ∧
    ws'.uploadReaders = ws.uploadReaders ∧ ws'.fileGeneration = ws.fileGeneration := by
  simpa [WriteSession.core] using h

theorem disk_core_fields {d d' : Disk} (h : d'.core = d.core) :
    d'.inode = d.inode ∧ d'.nextInode = d.nextInode ∧ d'.dataFile = d.dataFile := by
  simpa [Disk.core] using h

theorem SameCore.item (h : SameCore s s') (sid : Nat) : s'.item sid = s.item sid := by
  obtain ⟨hf, hsize, hd, hp, _, _⟩ := core_fields (h.session sid)
  obtain ⟨hi, _, _⟩ := disk_core_fields h.disk
  simp only [State.item, WriteSession.content, hf, hsize, hd, hp, hi]

theorem SameCore.view (h : SameCore s s') : s'.view = s.view := by
  have hitem : s'.item = s.item := funext h.item
  obtain ⟨hi, _, _⟩ := disk_core_fields h.disk
  simp only [State.view, h.object, h.objectLock, h.dirty, h.generation, h.listed, hitem, h.task, hi]

theorem SameCore.files (h : SameCore s s') (hf : Files s) : Files s' := by
  obtain ⟨_, hn, hdata⟩ := disk_core_fields h.disk
  constructor
  · intro sid hl
    rw [(core_fields (h.session sid)).1, hdata]
    exact hf.listed sid (h.listed ▸ hl)
  · rw [hdata, hn]
    exact hf.bound
  · rw [h.task, h.listed]
    exact hf.discarding
  · rw [h.task, h.listed, hn]
    intro t snap ht
    refine ⟨(hf.snapshots t snap ht).1, fun sid hl => ?_⟩
    obtain ⟨hfile, _, _, _, hu, _⟩ := core_fields (h.session sid)
    rw [hfile, hu]
    exact (hf.snapshots t snap ht).2 sid hl
  · rw [h.task]
    exact hf.found

/-! ## Moving a thread -/

theorem view_goto : (s.goto t task).view = s.view.goto t (task.role s.disk.inode) := by
  have hrole : (fun t' => (update s.task t task t').role s.disk.inode) =
      update (fun t' => (s.task t').role s.disk.inode) t (task.role s.disk.inode) :=
    comp_update (Task.role s.disk.inode) s.task t task
  simp only [State.view, State.goto, WriteBack.Cache.goto, hrole]
  rfl

theorem view_goto_same (h : task.role s.disk.inode = (s.task t).role s.disk.inode) :
    (s.goto t task).view = s.view := by
  rw [view_goto, h]
  have hsame : update s.view.role t ((s.task t).role s.disk.inode) = s.view.role :=
    update_eq_self t s.view.role
  simp only [WriteBack.Cache.goto, hsame]

theorem Files.goto (hf : Files s) (hd : task.discards → s.listed = none)
    (hsnap : ∀ snap, task.openSnapshot = some snap → (s.task t).openSnapshot = some snap)
    (hs : task.searches = false) : Files (s.goto t task) := by
  refine ⟨hf.listed, hf.bound, ?_, ?_, ?_⟩
  · intro t' ht'
    by_cases ht : t' = t
    · subst ht
      exact hd (by simpa [State.goto] using ht')
    · exact hf.discarding t' (by simpa [State.goto, update_of_ne ht] using ht')
  · intro t' snap ht'
    by_cases ht : t' = t
    · subst ht
      exact hf.snapshots t' snap (hsnap snap (by simpa [State.goto] using ht'))
    · exact hf.snapshots t' snap (by simpa [State.goto, update_of_ne ht] using ht')
  · intro t'
    by_cases ht : t' = t
    · subst ht
      simpa [State.goto] using hs
    · simpa [State.goto, update_of_ne ht] using hf.found t'

/-- A task that neither takes files apart, nor has a snapshot open, nor searches. -/
def Task.Plain (task : Task) : Prop :=
  task.discards = false ∧ task.openSnapshot = none ∧ task.searches = false

theorem Files.goto_plain (hf : Files s) (hp : task.Plain) : Files (s.goto t task) := by
  obtain ⟨hd, hsnap, hs⟩ := hp
  refine hf.goto ?_ ?_ hs
  · intro h
    exact nomatch hd.symm.trans h
  · intro snap h
    exact nomatch hsnap.symm.trans h

theorem afterExists_plain (fl : OpenFlags) (sid : Nat) : (afterExists fl sid).Plain :=
  afterExists_at (P := Task.Plain) ⟨rfl, rfl, rfl⟩ ⟨rfl, rfl, rfl⟩

theorem afterMissing_plain (fl : OpenFlags) (sid : Nat) : (afterMissing fl sid).Plain :=
  afterMissing_at (P := Task.Plain) ⟨rfl, rfl, rfl⟩ (afterExists_plain fl sid)

theorem afterSeed_plain (fl : OpenFlags) (sid : Nat) : (afterSeed fl sid).Plain := by
  unfold afterSeed
  split <;> exact ⟨rfl, rfl, rfl⟩

theorem persistIf_plain {changed : Bool} (h : task.Plain) : (persistIf changed sid task).Plain := by
  cases changed <;> exact h

@[simp] theorem afterExists_role (inode : Nat → Bytes) (fl : OpenFlags) (sid : Nat) :
    (afterExists fl sid).role inode = .holder sid :=
  afterExists_at (P := fun task => task.role inode = .holder sid) rfl rfl

@[simp] theorem afterMissing_role (inode : Nat → Bytes) (fl : OpenFlags) (sid : Nat) :
    (afterMissing fl sid).role inode = .holder sid :=
  afterMissing_at (P := fun task => task.role inode = .holder sid) rfl (afterExists_role inode fl sid)

@[simp] theorem afterSeed_role (inode : Nat → Bytes) (fl : OpenFlags) (sid : Nat) :
    (afterSeed fl sid).role inode = .holder sid := by
  unfold afterSeed
  split <;> rfl

@[simp] theorem persistIf_role (inode : Nat → Bytes) (changed : Bool) (sid : Nat) (task : Task) :
    (persistIf changed sid task).role inode = task.role inode := by
  cases changed <;> rfl

theorem role_congr {inode inode' : Nat → Bytes} : ∀ {task : Task},
    (∀ snap, task.openSnapshot = some snap → inode' snap.file = inode snap.file) →
    task.role inode' = task.role inode := by
  intro task
  induction task with
  | persist sid pc next ih =>
    intro h
    exact ih h
  | syncing pc =>
    intro h
    cases pc with
    | attributes snap | uploading snap _ _ | finish snap =>
      simp only [Task.role, SyncPc.role, Snapshot.bytes, h snap rfl]
    | _ => rfl
  | opening fl pc =>
    intro _
    cases pc <;> rfl
  | _ =>
    intro _
    rfl

theorem holds_of_role {inode : Nat → Bytes} : ∀ {task : Task},
    task.role inode = .holder sid ∨ task.role inode = .pending sid → task.holds = some sid := by
  intro task
  induction task with
  | persist _ pc next ih => exact ih
  | syncing pc =>
    intro h
    cases pc <;> simp [Task.role, SyncPc.role] at h
  | opening fl pc =>
    intro h
    cases pc with
    | lookup _ => simp [Task.role] at h
    | _ => simpa [Task.role, Task.holds] using h
  | handle _ | reading _ | marking _ _ _ | releasing _ =>
    intro h
    simpa [Task.role, Task.holds] using h
  | _ =>
    intro h
    simp [Task.role] at h

theorem role_of_openSnapshot (inode : Nat → Bytes) {snap : Snapshot} : ∀ {task : Task},
    task.openSnapshot = some snap → ∃ landed,
    task.role inode = .uploading snap.sid snap.generation (snap.bytes inode) landed := by
  intro task
  induction task with
  | persist _ pc next ih => exact ih
  | syncing pc =>
    intro h
    cases pc with
    | attributes _ | uploading _ _ _ | finish _ =>
      obtain rfl := Option.some.inj h
      exact ⟨_, rfl⟩
    | _ => exact nomatch h
  | _ =>
    intro h
    exact nomatch h

end

end Bluestone
