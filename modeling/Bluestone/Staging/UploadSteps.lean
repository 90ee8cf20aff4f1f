/-
# `Bluestone.Staging.UploadSteps` — each step of the path is one of the cache

`Refines s a s'` is one square of the refinement: the views make a step of the
write-back cache and `Files` holds again.  One lemma per actor, by cases on its
sections; most sections only move a thread (`refines_quiet`).  What carries
content is in the few that do not: a change goes to a file no upload reads
(`ChangesFile`), and a snapshot's file is the one the session has open.
-/
import Bluestone.Staging.Uploads

namespace Bluestone

open Function Runs
open State (setSession setDisk effect)

/-! ## What a change does to the files -/

/-- A change of the session: the session is changed, it and its staging name
stay together, and a file an upload reads is left alone. -/
structure ChangesFile (ws : WriteSession) (d : Disk) (ws' : WriteSession) (d' : Disk) : Prop where
  dirty : ws'.dirty = true
  prefetched : ws'.prefetched = ws.prefetched
  file : ∃ f, ws'.file = some f ∧ d'.dataFile = some f ∧ f < d'.nextInode
  nextInode : d.nextInode ≤ d'.nextInode
  kept : ∀ g, g < d.nextInode → (ws.uploadReaders = 0 → ws.file ≠ some g) →
    d'.inode g = d.inode g ∧ ws'.file ≠ some g

section
variable {ws ws' ws1 : WriteSession} {d d' d1 : Disk} {f : Nat}

/-- After detaching, the session's file is the one under its name, and files
that an upload reads stand. -/
theorem detach_files {keepBytes : Nat} (h : ws.detachFromUploadsLocked d keepBytes = some (ws1, d1))
    (hf : ws.file = some f) (hd : d.dataFile = some f) (hb : f < d.nextInode) :
    ∃ f1, ws1.file = some f1 ∧ d1.dataFile = some f1 ∧ f1 < d1.nextInode ∧ d.nextInode ≤ d1.nextInode ∧
    ∀ g, g < d.nextInode → (ws.uploadReaders = 0 → ws.file ≠ some g) → d1.inode g = d.inode g ∧
    f1 ≠ g := by
  rcases detach_cases h with ⟨hr, rfl, rfl⟩ | ⟨_, bytes, _, rfl, rfl⟩
  · refine ⟨f, hf, hd, hb, Nat.le_refl _, fun g _ hg => ⟨rfl, ?_⟩⟩
    rintro rfl
    exact hg hr hf
  · refine ⟨d.nextInode, rfl, rfl, Nat.lt_succ_self _, Nat.le_succ _, fun g hg _ => ?_⟩
    exact ⟨update_of_ne (Nat.ne_of_lt hg) _ _, (Nat.ne_of_lt hg).symm⟩

theorem write_changesFile {offset : Nat} {data : Bytes} {dropped : Bool}
    (h : ws.write d offset data = some (ws', d', dropped)) (hf : ws.file = some f)
    (hd : d.dataFile = some f) (hb : f < d.nextInode) : ChangesFile ws d ws' d' := by
  obtain ⟨ws1, d1, f', hdet, hf', rfl, rfl, _⟩ := write_cases h
  obtain ⟨f1, hf1, hdata, hbound, hnext, hkept⟩ := detach_files hdet hf hd hb
  obtain rfl : f1 = f' := Option.some.inj (hf1.symm.trans hf')
  refine ⟨rfl, (detach_keeps hdet).2.2.2.1, ⟨f1, hf1, hdata, hbound⟩, hnext, ?_⟩
  intro g hg hread
  obtain ⟨hinode, hne⟩ := hkept g hg hread
  refine ⟨(setInode_inode_of_ne d1 _ hne.symm).trans hinode, ?_⟩
  simpa [hf1] using hne

theorem truncate_changesFile {size : Nat} (h : ws.truncate d size = some (ws', d'))
    (hf : ws.file = some f) (hd : d.dataFile = some f) (hb : f < d.nextInode) :
    ChangesFile ws d ws' d' := by
  obtain ⟨ws1, d1, f', hdet, hf', rfl, rfl⟩ := truncate_cases h
  obtain ⟨f1, hf1, hdata, hbound, hnext, hkept⟩ := detach_files hdet hf hd hb
  obtain rfl : f1 = f' := Option.some.inj (hf1.symm.trans hf')
  refine ⟨rfl, (detach_keeps hdet).2.2.2.1, ⟨f1, hf1, hdata, hbound⟩, hnext, ?_⟩
  intro g hg hread
  obtain ⟨hinode, hne⟩ := hkept g hg hread
  refine ⟨(setInode_inode_of_ne d1 _ hne.symm).trans hinode, ?_⟩
  simpa [hf1] using hne

theorem downloadToFile_complete {body : Bytes} (hd : d.dataFile = some f) :
    d.downloadToFile body .complete = d.setInode f body := by
  simp only [Disk.downloadToFile, Disk.openOrCreate, hd]

theorem downloadToFile_files (body : Bytes) (how : Download) (hd : d.dataFile = some f) :
    (d.downloadToFile body how).dataFile = some f ∧
    (d.downloadToFile body how).nextInode = d.nextInode := by
  cases how <;> simp only [Disk.downloadToFile, Disk.openOrCreate, hd, Disk.setInode] <;>
    exact ⟨trivial, trivial⟩

theorem prefetch_complete_spec {body : Bytes} (h : ws.prefetch d body .complete = some (ws', d', true))
    (hf : ws.file = some f) (hd : d.dataFile = some f) (hb : f < d.nextInode) : ws'.content d' = body ∧
    ws'.dirty = ws.dirty ∧ ws'.prefetched ∧ ∃ f', ws'.file = some f' ∧ d'.dataFile = some f' ∧
    f' < d'.nextInode := by
  obtain ⟨ws1, d1, hdet, hd', hws'⟩ := prefetch_complete h
  obtain ⟨f1, hf1, hdata, hbound, _, _⟩ := detach_files hdet hf hd hb
  rw [downloadToFile_complete hdata] at hd'
  subst hd'
  simp only [hf1, setInode_inode_self] at hws'
  subst hws'
  refine ⟨?_, (detach_keeps hdet).2.2.1, rfl, f1, rfl, hdata, hbound⟩
  simp only [WriteSession.content, setInode_inode_self, List.take_length]

/-- A prefetch that fails leaves the session's flags, and its file under its
name. -/
theorem prefetch_failed_spec {body : Bytes} {how : Download}
    (h : ws.prefetch d body how = some (ws', d', false)) (hf : ws.file = some f)
    (hd : d.dataFile = some f) (hb : f < d.nextInode) : ws'.dirty = ws.dirty ∧
    ws'.prefetched = ws.prefetched ∧ ∃ f', ws'.file = some f' ∧ d'.dataFile = some f' ∧
    f' < d'.nextInode := by
  obtain ⟨d1, hdet, hd'⟩ := prefetch_failed h
  obtain ⟨f1, hf1, hdata, hbound, _, _⟩ := detach_files hdet hf hd hb
  obtain ⟨hdata', hnext'⟩ := downloadToFile_files body how hdata
  simp only [hf1] at hd'
  subst hd'
  refine ⟨(detach_keeps hdet).2.2.1, (detach_keeps hdet).2.2.2.1, f1, hf1, hdata', ?_⟩
  exact hnext'.symm ▸ hbound

@[simp] theorem ensurePathMetadata_core (d : Disk) (path : String) :
    (d.ensurePathMetadata path).core = d.core := by
  unfold Disk.ensurePathMetadata
  split
  · split <;> rfl
  · rfl

theorem newWriteSession_core (d : Disk) (path : String) (sidecarOk : Bool) :
    (newWriteSession d path sidecarOk).2.core = d.openOrCreate.2.core := by
  cases sidecarOk with
  | false => rfl
  | true => exact ensurePathMetadata_core d.openOrCreate.2 path

/-- A new session is unchanged, on the file its name leads to; files already
there stand. -/
theorem newWriteSession_spec (path : String) (sidecarOk : Bool) (hb : ∀ g, d.dataFile = some g →
    g < d.nextInode) : (newWriteSession d path sidecarOk).1.dirty = false ∧
    (newWriteSession d path sidecarOk).1.prefetched = false ∧
    (∃ f, (newWriteSession d path sidecarOk).1.file = some f ∧
    (newWriteSession d path sidecarOk).2.dataFile = some f ∧
    f < (newWriteSession d path sidecarOk).2.nextInode) ∧
    d.nextInode ≤ (newWriteSession d path sidecarOk).2.nextInode ∧ ∀ g, g < d.nextInode →
    (newWriteSession d path sidecarOk).2.inode g = d.inode g := by
  obtain ⟨hinode, hnext, hdata⟩ := disk_core_fields (newWriteSession_core d path sidecarOk)
  rw [hinode, hnext, hdata]
  refine ⟨rfl, rfl, ?_⟩
  have hfile : (newWriteSession d path sidecarOk).1.file = some d.openOrCreate.1 := rfl
  rw [hfile]
  cases hd : d.dataFile with
  | some f =>
    simp only [Disk.openOrCreate, hd]
    exact ⟨⟨f, rfl, rfl, hb f hd⟩, Nat.le_refl _, fun _ _ => trivial⟩
  | none =>
    simp only [Disk.openOrCreate, hd]
    refine ⟨⟨_, rfl, rfl, Nat.lt_succ_self _⟩, Nat.le_succ _, fun g hg => ?_⟩
    exact update_of_ne (Nat.ne_of_lt hg) _ _

end

/-! ## One square of the refinement -/

/-- The views make a step of the cache, and `Files` holds again. -/
def Refines (s : State) (a : Action) (s' : State) : Prop :=
  WriteBack.Step s.view (s'.effect a) s'.view ∧ Files s'

section
variable {s s' s1 : State} {t sid : Nat} {task : Task} {a : Action} {last : Option Bytes}

theorem view_current (h : s.listed = some sid) : s.view.Current sid := by
  simp [WriteBack.Cache.Current, State.view, h, State.item]

theorem view_current_item (h : s.listed = some sid) : s.view.current = some (s.item sid) := by
  simp [State.view, h]

theorem listed_of_current (h : s.view.Current sid) : s.listed = some sid := by
  cases hl : s.listed with
  | none => simp [WriteBack.Cache.Current, State.view, hl] at h
  | some i => simpa [WriteBack.Cache.Current, State.view, hl, State.item] using h

theorem refines_goto (hc : SameCore s s1) (ha : (s1.goto t task).effect a = .none)
    (hstep : WriteBack.Step s.view .none (s.view.goto t (task.role s.disk.inode)))
    (hf : Files (s1.goto t task)) : Refines s a (s1.goto t task) := by
  refine ⟨?_, hf⟩
  rw [ha, view_goto, hc.view, (disk_core_fields hc.disk).1]
  exact hstep

theorem refines_quiet (hc : SameCore s s1) (ha : (s1.goto t task).effect a = .none)
    (hrole : task.role s.disk.inode = (s.task t).role s.disk.inode)
    (hf : Files (s1.goto t task)) : Refines s a (s1.goto t task) := by
  refine refines_goto hc ha ?_ hf
  rw [← view_goto, view_goto_same hrole]
  exact .quiet _

theorem refines_plain (hf : Files s) (hc : SameCore s s1) (ha : (s1.goto t task).effect a = .none)
    (hrole : task.role s.disk.inode = (s.task t).role s.disk.inode) (hp : task.Plain) :
    Refines s a (s1.goto t task) :=
  refines_quiet hc ha hrole ((hc.files hf).goto_plain hp)

theorem view_role {r : WriteBack.Role Bytes} (h : (s.task t).role s.disk.inode = r) : s.view.role t = r := h

theorem refines_join (hf : Files s) (hc : SameCore s s1) (ha : (s1.goto t task).effect a = .none)
    (hout : (s.task t).role s.disk.inode = .outside) (hl : s.listed = some sid)
    (hrole : task.role s.disk.inode = .holder sid) (hp : task.Plain) : Refines s a (s1.goto t task) := by
  refine refines_goto hc ha ?_ ((hc.files hf).goto_plain hp)
  rw [hrole]
  exact .join t hout (view_current hl)

theorem refines_leave (hf : Files s) (hc : SameCore s s1) (ha : (s1.goto t task).effect a = .none)
    (hin : (s.task t).role s.disk.inode = .holder sid) (hrole : task.role s.disk.inode = .outside)
    (hp : task.Plain) : Refines s a (s1.goto t task) := by
  refine refines_goto hc ha ?_ ((hc.files hf).goto_plain hp)
  rw [hrole]
  exact .leave t hin

theorem no_snapshot_of_clean (hs : WriteBack.Safe s.view last) (hd : s.dirty = none) :
    ∀ t, (s.task t).openSnapshot = none := by
  intro t
  cases ht : (s.task t).openSnapshot with
  | none => rfl
  | some snap =>
    obtain ⟨landed, hr⟩ := role_of_openSnapshot s.disk.inode ht
    have hdirty := ((hs.roles t).inside (r := s.view.role t) (by rw [view_role hr]; rfl)).2
    simp [State.view, hd] at hdirty

/-! ## Sections that touch the staged bytes -/

variable {ws : WriteSession} {d : Disk}

/-- The listed session and the disk replaced together: what the cache sees is
another item, as long as the files uploads read are left alone. -/
theorem view_setFile (hl : s.listed = some sid) (hkept : ∀ t snap, (s.task t).openSnapshot = some snap →
    d.inode snap.file = s.disk.inode snap.file) : ((s.setSession sid ws).setDisk d).view =
    { s.view with current := some ⟨sid, ws.content d, ws.dirty, ws.prefetched⟩ } := by
  have hrole : (fun t => (s.task t).role d.inode) = fun t => (s.task t).role s.disk.inode :=
    funext fun t => role_congr (hkept t)
  simp only [State.view, setSession, setDisk, hl, Option.map_some, State.item,
    update_self, hrole]

theorem files_setFile (hf : Files s) (hl : s.listed = some sid)
    (hfile : ∃ f, ws.file = some f ∧ d.dataFile = some f ∧ f < d.nextInode)
    (hsnap : ∀ t snap, (s.task t).openSnapshot = some snap → snap.file < d.nextInode ∧
    (ws.uploadReaders = 0 → ws.file ≠ some snap.file)) : Files ((s.setSession sid ws).setDisk d) := by
  obtain ⟨f, hwf, hdf, hb⟩ := hfile
  refine ⟨?_, ?_, hf.discarding, ?_, hf.found⟩
  · intro i hi
    obtain rfl : i = sid := Option.some.inj (hi.symm.trans hl)
    exact ⟨f, by simpa [setSession, setDisk] using hwf, hdf⟩
  · intro g hg
    obtain rfl : f = g := Option.some.inj (hdf.symm.trans hg)
    exact hb
  · intro t snap ht
    refine ⟨(hsnap t snap ht).1, fun i hi => ?_⟩
    obtain rfl : i = sid := Option.some.inj (hi.symm.trans hl)
    simpa [setSession, setDisk] using (hsnap t snap ht).2

theorem refines_change (hf : Files s) (hl : s.listed = some sid)
    (hin : (s.task t).role s.disk.inode = .holder sid) (hch : ∀ f, (s.session sid).file = some f →
    s.disk.dataFile = some f → f < s.disk.nextInode → ChangesFile (s.session sid) s.disk ws d)
    (hrole : task.role d.inode = .pending sid) (hp : task.Plain)
    (ha : ∀ s', effect s' a = .change s'.currentBytes) :
    Refines s a (((s.setSession sid ws).setDisk d).goto t task) := by
  obtain ⟨f, hfile, hdata⟩ := hf.listed sid hl
  have hc := hch f hfile hdata (hf.bound f hdata)
  have hkept : ∀ t snap, (s.task t).openSnapshot = some snap →
      d.inode snap.file = s.disk.inode snap.file ∧ ws.file ≠ some snap.file := by
    intro t snap ht
    exact hc.kept snap.file (hf.snapshots t snap ht).1 ((hf.snapshots t snap ht).2 sid hl)
  have hbytes : (((s.setSession sid ws).setDisk d).goto t task).currentBytes = ws.content d := by
    simp [State.currentBytes, State.goto, setDisk, setSession, hl]
  refine ⟨?_, Files.goto_plain ?_ hp⟩
  · rw [ha, hbytes, view_goto, view_setFile hl fun t snap ht => (hkept t snap ht).1]
    rw [show ((s.setSession sid ws).setDisk d).disk.inode = d.inode from rfl, hrole, hc.dirty, hc.prefetched]
    exact .change t _ hin (view_current_item hl)
  · refine files_setFile hf hl hc.file fun t snap ht => ⟨?_, fun _ => (hkept t snap ht).2⟩
    exact Nat.lt_of_lt_of_le (hf.snapshots t snap ht).1 hc.nextInode

theorem refines_fetch (hs : WriteBack.Safe s.view last) (hf : Files s) (hl : s.listed = some sid)
    (hclean : (s.session sid).dirty = false) (hrole : task.role d.inode = (s.task t).role s.disk.inode)
    (hp : task.Plain) (hfile : ∃ f, ws.file = some f ∧ d.dataFile = some f ∧ f < d.nextInode)
    (hstep : WriteBack.Step s.view .none
    { s.view with current := some ⟨sid, ws.content d, ws.dirty, ws.prefetched⟩ })
    (ha : ∀ s', effect s' a = .none) :
    Refines s a (((s.setSession sid ws).setDisk d).goto t task) := by
  have hnone : ∀ t snap, (s.task t).openSnapshot ≠ some snap := by
    have hd : s.dirty = none := by
      simpa [State.view] using (hs.unchanged (view_current_item hl) hclean).1
    intro t snap ht
    cases (no_snapshot_of_clean hs hd t).symm.trans ht
  refine ⟨?_, Files.goto_plain ?_ hp⟩
  · rw [ha, view_goto_same, view_setFile hl fun t snap ht => absurd ht (hnone t snap)]
    · exact hstep
    · rw [show ((s.setSession sid ws).setDisk d).disk.inode = d.inode from rfl, hrole]
      exact (role_congr fun snap ht => absurd ht (hnone t snap)).symm
  · exact files_setFile hf hl hfile fun t snap ht => absurd ht (hnone t snap)

theorem refines_create {sidecarOk : Bool} (hs : WriteBack.Safe s.view last) (hf : Files s)
    (hl : s.listed = none) (hout : (s.task t).role s.disk.inode = .outside)
    (hsettled : ∀ t, (s.task t).discards = false)
    (hrole : ∀ inode, task.role inode = .holder s.nextSession) (hp : task.Plain)
    (ha : ∀ s', effect s' a = .none) : Refines s a ((s.createSession sidecarOk).goto t task) := by
  obtain ⟨hdirty, hpre, ⟨f, hwf, hdf, hb⟩, hnext, hinode⟩ :=
    newWriteSession_spec s.path sidecarOk hf.bound
  have hview : (s.createSession sidecarOk).view =
      { s.view with
        current := some ⟨s.nextSession, ((newWriteSession s.disk s.path sidecarOk).1.content
          (newWriteSession s.disk s.path sidecarOk).2), false, false⟩ } := by
    have hroles : (fun t => (s.task t).role (newWriteSession s.disk s.path sidecarOk).2.inode) =
        fun t => (s.task t).role s.disk.inode :=
      funext fun t => role_congr fun snap ht => hinode _ (hf.snapshots t snap ht).1
    simp only [State.view, State.createSession, Option.map_some, State.item, update_self,
      hroles, hdirty, hpre]
  refine ⟨?_, Files.goto_plain ⟨?_, ?_, ?_, ?_, hf.found⟩ hp⟩
  · rw [ha, view_goto, hview, hrole]
    exact .create t _ _ hout (by simp [State.view, hl])
  · intro i hi
    obtain rfl := Option.some.inj hi
    exact ⟨f, by simpa [State.createSession] using hwf, hdf⟩
  · intro g hg
    obtain rfl : f = g := Option.some.inj (hdf.symm.trans hg)
    exact hb
  · intro t ht
    cases (hsettled t).symm.trans ht
  · intro t snap ht
    have hidle := (hs.idle (by simp [State.view, hl])).1
    have hd : s.dirty = none := by simpa [State.view] using hidle
    cases (no_snapshot_of_clean hs hd t).symm.trans ht

theorem files_unlist (hf : Files s) (hd : ∀ f, d.dataFile = some f → f < d.nextInode)
    (hn : d.nextInode = s.disk.nextInode) : Files { s with listed := none, disk := d } := by
  refine ⟨(fun i hi => nomatch hi), hd, fun _ _ => rfl, ?_, hf.found⟩
  intro t snap ht
  exact ⟨hn ▸ (hf.snapshots t snap ht).1, fun i hi => nomatch hi⟩

theorem no_holder (hslot : s.slot.Sound) (hl : s.listed = some sid) (hz : (s.session sid).refCount = 0) :
    ∀ t j, s.view.role t ≠ .holder j ∧ s.view.role t ≠ .pending j := by
  intro t j
  have hnone : (s.task t).holds = none := hslot.unheld hl hz t
  constructor
  · intro h
    exact nomatch hnone.symm.trans (holds_of_role (.inl h))
  · intro h
    exact nomatch hnone.symm.trans (holds_of_role (.inr h))

theorem refines_mark (recorded : Bool) (hf : Files s) (hc : SameCore s s1)
    (ha : ∀ s', effect s' a = .none) (hin : (s.task t).role s.disk.inode = .pending sid)
    (hrole : task.role s.disk.inode = .holder sid) (hp : task.Plain) :
    Refines s a ((s1.markDirtyWithState recorded).goto t task) := by
  have hview : (s1.markDirtyWithState recorded).view =
      { s.view with dirty := some (s.view.generation + 1), generation := s.view.generation + 1 } := by
    rw [← hc.view]
    rfl
  refine ⟨?_, Files.goto_plain ?_ hp⟩
  · have hinode : (s1.markDirtyWithState recorded).disk.inode = s.disk.inode :=
      (disk_core_fields hc.disk).1
    rw [ha, view_goto, hview, hinode, hrole]
    exact .mark t hin
  · have hf1 := hc.files hf
    exact ⟨hf1.listed, hf1.bound, hf1.discarding, hf1.snapshots, hf1.found⟩

theorem sameCore_reuseSession : SameCore s (s.reuseSession sid) := by
  have h : SameCore s (s.setSession sid
      { s.session sid with refCount := (s.session sid).refCount + 1 }) := sameCore_setSession rfl
  exact ⟨rfl, rfl, rfl, rfl, rfl, h.session, rfl, rfl⟩

theorem view_setSession_unlisted (hl : s.listed ≠ some sid) : (s.setSession sid ws).view = s.view := by
  cases h : s.listed with
  | none => simp [State.view, setSession, h]
  | some i =>
    have hi : i ≠ sid := fun hi => hl (hi ▸ h)
    simp [State.view, setSession, h, State.item, update_of_ne hi]

theorem view_setSession (hf : ws.file = (s.session sid).file)
    (hsize : ws.size = (s.session sid).size) (hd : ws.dirty = (s.session sid).dirty)
    (hp : ws.prefetched = (s.session sid).prefetched) : (s.setSession sid ws).view = s.view := by
  by_cases hl : s.listed = some sid
  · simp [State.view, setSession, hl, State.item, WriteSession.content, hf, hsize, hd, hp]
  · exact view_setSession_unlisted hl

theorem files_setSession_unlisted (hf : Files s) (hl : s.listed ≠ some sid) :
    Files (s.setSession sid ws) := by
  have hne : ∀ i, s.listed = some i → i ≠ sid := fun i hi his => hl (his ▸ hi)
  refine ⟨?_, hf.bound, hf.discarding, ?_, hf.found⟩
  · intro i hi
    simpa [setSession, update_of_ne (hne i hi)] using hf.listed i hi
  · intro t snap ht
    refine ⟨(hf.snapshots t snap ht).1, fun i hi => ?_⟩
    simpa [setSession, update_of_ne (hne i hi)] using (hf.snapshots t snap ht).2 i hi

end

end Bluestone
