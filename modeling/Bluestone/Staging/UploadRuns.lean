/-
# `Bluestone.Staging.UploadRuns` — orderly runs keep the cache's invariant

One lemma per actor says that its sections are squares of the refinement, and
`reach_safe` puts them together: in every state an orderly run reaches, the view
is safe with respect to the bytes after the last change, and `Files` holds.
-/
import Bluestone.Staging.UploadSteps

namespace Bluestone

open Function Runs
open State (setSession effect markClean empty)

section
variable {s s' : State} {t sid : Nat} {task : Task} {a : Action} {last : Option Bytes}

theorem OpenStep.refines (h : OpenStep s t a s') (hslot : s.slot.Sound) (hs : WriteBack.Safe s.view last)
    (hf : Files s) (hok : Orderly s (t, a)) : Refines s a s' := by
  have hplain : ∀ {fl : OpenFlags} {pc : OpenPc}, (Task.opening fl pc).Plain :=
    ⟨rfl, rfl, rfl⟩
  have hhandle : ∀ {sid : Nat}, (Task.handle sid).Plain := ⟨rfl, rfl, rfl⟩
  have hreading : ∀ {sid : Nat}, (Task.reading sid).Plain := ⟨rfl, rfl, rfl⟩
  have hidle : Task.idle.Plain := ⟨rfl, rfl, rfl⟩
  have hslot' := hslot.step h.slot_step
  cases h with
  | begin ht _ | unknown ht _ | statFound ht _ | statError ht _ | fetchAbandoned ht _ => exact refines_plain hf (.refl s) rfl (by rw [ht]; rfl) hplain
  | acquire ht _ hl =>
    exact refines_join hf (sameCore_setSession rfl) rfl (by rw [ht]; rfl) hl rfl hreading
  | reuse ht hl =>
    exact refines_join hf sameCore_reuseSession rfl (by rw [ht]; rfl) hl rfl hplain
  | create ht hl =>
    exact refines_create hs hf hl (by rw [ht]; rfl) (hok.2.2 rfl) (fun _ => rfl) hplain
      fun _ => rfl
  | known ht _ =>
    exact refines_plain hf (.refl s) rfl (by simp [ht, Task.role]) (afterExists_plain _ _)
  | statMissing ht _ | statErrorTrunc ht _ =>
    exact refines_plain hf (.refl s) rfl (by simp [ht, Task.role]) (afterMissing_plain _ _)
  | seed ht =>
    exact refines_plain hf (sameCore_setSession (seedAttributes_core _ _)) rfl
      (by simp [ht, Task.role]) (persistIf_plain (afterSeed_plain _ _))
  | prefetched ht _ => exact refines_plain hf (.refl s) rfl (by rw [ht]; rfl) hhandle
  | @fetched fl sid o ws d ht _ ho hpre =>
    have hl : s.listed = some sid := listed_of_holds (t := t) hslot (by simp [ht, Task.holds])
    have hclean : (s.session sid).dirty = false := hok.1 _ fl sid rfl ht
    obtain ⟨f, hfile, hdata⟩ := hf.listed sid hl
    obtain ⟨hbytes, hd, hp, hfile'⟩ :=
      prefetch_complete_spec hpre hfile hdata (hf.bound f hdata)
    refine refines_fetch hs hf hl hclean (by rw [ht]; rfl) hhandle hfile' ?_ fun _ => rfl
    rw [hbytes, hd, hp]
    exact .fetch (view_current_item hl) hclean (by simp [State.view, ho])
  | @fetchFailed fl sid body how ws d ht hnot _ hpre =>
    have hl : s.listed = some sid := listed_of_holds (t := t) hslot (by simp [ht, Task.holds])
    have hclean : (s.session sid).dirty = false := hok.1 _ fl sid rfl ht
    obtain ⟨f, hfile, hdata⟩ := hf.listed sid hl
    obtain ⟨hd, hp, hfile'⟩ := prefetch_failed_spec hpre hfile hdata (hf.bound f hdata)
    refine refines_fetch hs hf hl hclean (by rw [ht]; rfl) hplain hfile' ?_ fun _ => rfl
    rw [hd, hp]
    exact .spoil _ (view_current_item hl) hclean hnot
  | creation ht =>
    exact refines_plain hf (sameCore_setSession (setCreationIfUnset_core _ _ _)) rfl
      (by simp [ht, Task.role]) (persistIf_plain (afterExists_plain _ _))
  | truncate ht hw =>
    have hl := listed_of_holds (t := t) hslot (by rw [ht]; rfl)
    exact refines_change hf hl (by rw [ht]; rfl) (fun f => truncate_changesFile hw) rfl
      ⟨rfl, rfl, rfl⟩ fun _ => rfl
  | truncateFailed ht => exact refines_leave hf (.refl s) rfl (by rw [ht]; rfl) rfl hidle
  | refuseKept ht _ | release ht => exact refines_leave hf sameCore_releaseSession rfl (by rw [ht]; rfl) rfl hidle
  | @refuseDiscard fl sid sid' ht hl hdisc =>
    have hc : SameCore s s.releaseSession := sameCore_releaseSession
    have hd : s.view.dirty = none := by
      simp only [State.discardable, Bool.and_eq_true, Option.isNone_iff_eq_none] at hdisc
      simp [State.view, ← hc.dirty, hdisc.1.2]
    have hothers : ∀ t' j, t' ≠ t → s.view.role t' ≠ .holder j ∧ s.view.role t' ≠ .pending j := by
      intro t' j hne
      have hnone := hslot'.unheld_of_none rfl t'
      simp only [State.slot, State.goto, update_of_ne hne, hc.task] at hnone
      exact ⟨(fun hr => by cases hnone.symm.trans (holds_of_role (.inl hr))),
        (fun hr => by cases hnone.symm.trans (holds_of_role (.inr hr)))⟩
    have hview : ({ s.releaseSession with listed := none } : State).view =
        { s.view with current := none } := by
      rw [← hc.view]
      rfl
    refine ⟨?_, Files.goto (files_unlist (hc.files hf) (hc.files hf).bound rfl) (fun _ => rfl)
      (fun _ h => by cases h) rfl⟩
    rw [view_goto, hview]
    exact .leaveRetire t (view_role (by rw [ht]; rfl)) hd hothers
  | @discardClose sid ht =>
    have hl : s.listed = none := hf.discarding t (by rw [ht]; rfl)
    have hne : s.listed ≠ some sid := by simp [hl]
    refine ⟨?_, (files_setSession_unlisted hf hne).goto (fun _ => hl) (fun _ h => by cases h) rfl⟩
    rw [view_goto_same (by rw [setSession, ht]; rfl), view_setSession_unlisted hne]
    exact .quiet _
  | @discardData sid ht =>
    have hl : s.listed = none := hf.discarding t (by rw [ht]; rfl)
    refine ⟨?_, Files.goto ?_ (fun _ => hl) (fun _ h => by cases h) rfl⟩
    · rw [view_goto_same (by rw [State.setDisk, ht]; rfl)]
      exact .quiet _
    · exact ⟨(fun i hi => by cases hl.symm.trans hi), (fun f hd => by cases hd), hf.discarding,
        hf.snapshots, hf.found⟩
  | discardSidecar ht => exact refines_plain hf (sameCore_setDisk rfl) rfl (by rw [ht]; rfl) hidle

theorem HandleStep.refines (h : HandleStep s t a s') (hslot : s.slot.Sound) (hf : Files s) :
    Refines s a s' := by
  cases h with
  | write ht hw =>
    have hl := listed_of_holds (t := t) hslot (by rw [ht]; rfl)
    exact refines_change hf hl (by rw [ht]; rfl) (fun f => write_changesFile hw)
      (by simp [Task.role]) (persistIf_plain ⟨rfl, rfl, rfl⟩) fun _ => rfl
  | truncate ht hw =>
    have hl := listed_of_holds (t := t) hslot (by rw [ht]; rfl)
    exact refines_change hf hl (by rw [ht]; rfl) (fun f => truncate_changesFile hw) rfl
      ⟨rfl, rfl, rfl⟩ fun _ => rfl
  | close ht | closeReading ht =>
    exact refines_leave hf sameCore_releaseSession rfl (by rw [ht]; rfl) rfl ⟨rfl, rfl, rfl⟩

theorem MarkStep.refines (h : MarkStep s t a s') (hf : Files s) : Refines s a s' := by
  cases h with
  | again ht hm | recordedMeanwhile ht hm =>
    obtain ⟨entry, _, _, rfl⟩ := markDirtyAgain_cases hm
    exact refines_mark true hf (.refl s) (fun _ => rfl) (by rw [ht]; rfl) rfl
      ⟨rfl, rfl, rfl⟩
  | clean ht _ | lookup ht | attrs ht => exact refines_plain hf (.refl s) rfl (by rw [ht]; rfl) ⟨rfl, rfl, rfl⟩
  | record ht _ =>
    exact refines_mark true hf (sameCore_record _ _) (fun _ => rfl) (by rw [ht]; rfl) rfl
      ⟨rfl, rfl, rfl⟩
  | recordFailed ht _ =>
    refine refines_mark false hf (.refl s) (fun _ => rfl) (by rw [ht]; rfl) ?_ ?_
    · split <;> rfl
    · split <;> exact ⟨rfl, rfl, rfl⟩

theorem Files.goto_base (hf : Files s) (h : task.base = (s.task t).base) : Files (s.goto t task) := by
  refine hf.goto ?_ ?_ ?_
  · intro hd
    exact hf.discarding t (by simpa only [Task.discards, h] using hd)
  · intro snap hsnap
    simpa only [Task.openSnapshot, h] using hsnap
  · simpa only [Task.searches, h] using hf.found t

theorem PersistStep.refines (h : PersistStep s t a s') (hf : Files s) : Refines s a s' := by
  cases h with
  | @copy sid next ht =>
    by_cases hset : (s.session sid).attributesSet
    · rw [if_pos hset]
      exact refines_quiet (.refl s) rfl (by rw [ht]; rfl) (hf.goto_base (by rw [ht]; rfl))
    · rw [if_neg hset]
      exact refines_quiet (.refl s) rfl (by rw [ht]; rfl) (hf.goto_base (by rw [ht]; rfl))
  | write ht _ =>
    have hc : ∀ state, SameCore s (s.setDisk (s.disk.writePathMetadataState state)) :=
      fun _ => sameCore_setDisk rfl
    exact refines_quiet (hc _) rfl (by rw [ht]; rfl)
      (((hc _).files hf).goto_base (by rw [(hc _).task, ht]; rfl))
  | skip ht => exact refines_quiet (.refl s) rfl (by rw [ht]; rfl) (hf.goto_base (by rw [ht]; rfl))
  | @changed sid next ht =>
    have hc : SameCore s (s.setSession sid (s.session sid).metadataChanged) :=
      sameCore_setSession rfl
    exact refines_quiet hc rfl (by rw [ht]; rfl) ((hc.files hf).goto_base (by rw [hc.task, ht]; rfl))

theorem AttrStep.refines (h : AttrStep s t a s') (hf : Files s) : Refines s a s' := by
  have hplain : ∀ {pc : AttrPc}, (Task.setting pc).Plain := ⟨rfl, rfl, rfl⟩
  have hidle : Task.idle.Plain := ⟨rfl, rfl, rfl⟩
  cases h with
  | begin ht | staged ht _ | unstaged ht _ | readOwner ht | stat ht _ | head ht _ => exact refines_plain hf (.refl s) rfl (by rw [ht]; rfl) hplain
  | setter ht _ =>
    exact refines_plain hf (sameCore_setSession rfl) rfl (by rw [ht]; rfl) ⟨rfl, rfl, rfl⟩
  | stagedDone ht | failed ht _ => exact refines_plain hf (.refl s) rfl (by rw [ht]; rfl) hidle
  | put ht ho =>
    exact refines_plain hf ⟨by simp [ho], rfl, rfl, rfl, rfl, fun _ => rfl, rfl, rfl⟩ rfl
      (by rw [ht]; rfl) hidle

theorem CommitStep.refines (h : CommitStep s t a s') (hf : Files s) : Refines s a s' := by
  have hplain : ∀ {pc : CommitPc}, (Task.committing pc).Plain := ⟨rfl, rfl, rfl⟩
  have hidle : Task.idle.Plain := ⟨rfl, rfl, rfl⟩
  cases h with
  | begin ht | found ht _ | flushed ht _ | needed ht _ => exact refines_plain hf (.refl s) rfl (by rw [ht]; rfl) hplain
  | nothing ht _ | closed ht _ | upToDate ht _ | failed ht => exact refines_plain hf (.refl s) rfl (by rw [ht]; rfl) hidle
  | metadata ht =>
    exact refines_plain hf sameCore_commitPathMetadata rfl (by rw [ht]; rfl) hplain
  | committed ht =>
    exact refines_plain hf (sameCore_setSession rfl) rfl (by rw [ht]; rfl) hidle

theorem refines_sync {pc : SyncPc} (hf : Files s)
    (hstep : WriteBack.Step s.view .none (s.view.goto t (pc.role s.disk.inode)))
    (hsnap : ∀ snap, (Task.syncing pc).openSnapshot = some snap → (s.task t).openSnapshot = some snap)
    (hfound : (Task.syncing pc).searches = false) (ha : ∀ s', effect s' a = .none) :
    Refines s a (s.goto t (.syncing pc)) :=
  refines_goto (.refl s) (ha _) hstep (hf.goto nofun hsnap hfound)

theorem refines_sync_quiet {pc pc' : SyncPc} (hf : Files s) (ht : s.task t = .syncing pc)
    (hrole : pc'.role s.disk.inode = pc.role s.disk.inode)
    (hsnap : ∀ snap, (Task.syncing pc').openSnapshot = some snap → (Task.syncing pc).openSnapshot = some snap)
    (hfound : (Task.syncing pc').searches = false) (ha : ∀ s', effect s' a = .none) :
    Refines s a (s.goto t (.syncing pc')) :=
  refines_quiet (.refl s) (ha _) (by rw [ht]; exact hrole)
    (hf.goto nofun (by rw [ht]; exact hsnap) hfound)

theorem refines_giveUp {pc pc' : SyncPc} (hf : Files s) (ht : s.task t = .syncing pc)
    (hin : (pc.role s.disk.inode).inside) (hrole : pc'.role s.disk.inode = .leaving)
    (hsnap : (Task.syncing pc').openSnapshot = none) (hfound : (Task.syncing pc').searches = false)
    (ha : ∀ s', effect s' a = .none) : Refines s a (s.goto t (.syncing pc')) := by
  refine refines_sync hf ?_ (by rw [hsnap]; nofun) hfound ha
  rw [hrole]
  exact .giveUp t (by rw [view_role (s := s) (by rw [ht])]; exact hin)

theorem view_dirty_isSome : s.view.dirty.isSome = s.dirty.isSome := by
  cases h : s.dirty <;> simp [State.view, h]

theorem sync_role {pc : SyncPc} (hs : WriteBack.Safe s.view last) (ht : s.task t = .syncing pc) :
    WriteBack.RoleOk s.view last t (pc.role s.disk.inode) := by
  have h := hs.roles t
  rw [show s.view.role t = pc.role s.disk.inode by
    rw [view_role (s := s) (t := t) rfl, ht]
    rfl] at h
  exact h

theorem Files.not_searching (hf : Files s) (h : (s.task t).searches) : False :=
  nomatch (hf.found t).symm.trans h

theorem openSnapshot_lock (hs : WriteBack.Safe s.view last) {snap : Snapshot}
    (h : (s.task t).openSnapshot = some snap) : s.objectLock = some t := by
  obtain ⟨landed, hr⟩ := role_of_openSnapshot s.disk.inode h
  exact ((hs.roles t).inside (r := s.view.role t) (by rw [view_role hr]; rfl)).1

theorem closeSnapshot_view (snap : Snapshot) : (s.closeSnapshot snap).view = s.view := by
  unfold State.closeSnapshot
  split
  · exact view_setSession rfl rfl rfl rfl
  · rfl

theorem closeSnapshot_files (snap : Snapshot) (hf : Files s)
    (hnone : ∀ t, (s.task t).openSnapshot = none) : Files (s.closeSnapshot snap) := by
  unfold State.closeSnapshot
  split
  · refine ⟨?_, hf.bound, hf.discarding, ?_, hf.found⟩
    · intro i hi
      by_cases his : i = snap.sid
      · subst his
        simpa [setSession] using hf.listed _ hi
      · simpa [setSession, update_of_ne his] using hf.listed i hi
    · intro t snap' ht
      cases (hnone t).symm.trans ht
  · exact hf

theorem refines_snapshot {generation file : Nat} (hf : Files s)
    (ht : s.task t = .syncing (.snapshot sid generation)) (hl : s.listed = some sid)
    (hdata : s.disk.dataFile = some file) : Refines s .snapshot ((s.setSession sid
    { s.session sid with uploadReaders := (s.session sid).uploadReaders + 1 }).goto t
    (.syncing (.attributes (s.openUploadSnapshot sid generation file)))) := by
  obtain ⟨f, hfile, hdata'⟩ := hf.listed sid hl
  obtain rfl : f = file := Option.some.inj (hdata'.symm.trans hdata)
  refine ⟨?_, ?_, hf.bound, ?_, ?_, ?_⟩
  · have hview : (s.setSession sid
        { s.session sid with uploadReaders := (s.session sid).uploadReaders + 1 }).view = s.view :=
      view_setSession rfl rfl rfl rfl
    rw [view_goto, hview]
    have hbytes : (s.item sid).value =
        (s.openUploadSnapshot sid generation f).bytes s.disk.inode := by
      simp [State.item, WriteSession.content, hfile, State.openUploadSnapshot, Snapshot.bytes]
    have hstep := WriteBack.Step.snapshot (c := s.view) t (view_role (by rw [ht]; rfl)) (view_current_item hl)
    rw [hbytes] at hstep
    exact hstep
  · intro i hi
    obtain rfl : sid = i := Option.some.inj (hl.symm.trans hi)
    exact ⟨f, by simpa [State.goto, setSession] using hfile, hdata⟩
  · intro t' ht'
    by_cases htt : t' = t
    · subst htt
      simp [State.goto, Task.discards, Task.base] at ht'
    · have hold : (s.task t').discards := by
        simpa [State.goto, setSession, update_of_ne htt] using ht'
      exact hf.discarding t' hold
  · intro t' snap ht'
    -- with the new reader the next change moves away from every file now read
    have hreaders : ∀ i, s.listed = some i → ((s.setSession sid
        { s.session sid with uploadReaders := (s.session sid).uploadReaders + 1 }).session
          i).uploadReaders = 0 → False := by
      intro i hi
      obtain rfl : sid = i := Option.some.inj (hl.symm.trans hi)
      simp [setSession]
    refine ⟨?_, fun i hi hz => (hreaders i hi hz).elim⟩
    by_cases htt : t' = t
    · subst htt
      have hsnap : s.openUploadSnapshot sid generation f = snap := by
        simpa [State.goto, Task.openSnapshot, Task.base] using ht'
      subst hsnap
      exact hf.bound f hdata
    · have hold : (s.task t').openSnapshot = some snap := by
        simpa [State.goto, setSession, update_of_ne htt] using ht'
      exact (hf.snapshots t' snap hold).1
  · intro t'
    by_cases htt : t' = t
    · subst htt
      simp [State.goto, Task.searches, Task.base]
    · simpa [State.goto, setSession, update_of_ne htt] using hf.found t'

theorem SyncStep.refines (h : SyncStep s t a s') (hslot : s.slot.Sound) (hs : WriteBack.Safe s.view last)
    (hf : Files s) (hok : Orderly s (t, a)) : Refines s a s' := by
  cases h with
  | lockFile ht _ | unlockFile ht =>
    exact refines_plain hf ⟨rfl, rfl, rfl, rfl, rfl, fun _ => rfl, rfl, rfl⟩ rfl
      (by rw [ht]; rfl) ⟨rfl, rfl, rfl⟩
  | checkClean ht _ | checkDirty ht _ | notPending ht _ | keep ht => exact refines_sync_quiet hf ht rfl (fun _ h => by cases h) rfl fun _ => rfl
  | lockObject ht hlock =>
    have hd : s.view.dirty.isSome := by
      rw [view_dirty_isSome]
      exact hok.2.1 rfl
    have hf' : Files ({ s with objectLock := some t } : State) :=
      ⟨hf.listed, hf.bound, hf.discarding, hf.snapshots, hf.found⟩
    refine ⟨?_, hf'.goto_plain ⟨rfl, rfl, rfl⟩⟩
    rw [view_goto]
    exact .enter t (view_role (by rw [ht]; rfl)) hlock hd
  | pendingDelete ht _ | snapshotFailed ht | uploadFailed ht | changed ht _ => exact refines_giveUp hf ht rfl rfl rfl rfl fun _ => rfl
  | found ht hl =>
    refine refines_sync hf ?_ (fun _ h => by cases h) rfl fun _ => rfl
    exact .find t (view_role (by rw [ht]; rfl)) (view_current hl)
  | notFound ht hl =>
    -- dirty, the path has a session: the search does not start
    obtain ⟨item, hitem, _⟩ := hs.dirty_changed (sync_role hs ht).2
    simp [State.view, hl] at hitem
  | statMissing ht _ | statFound ht _ | forget ht | recoverListed ht _ | recover ht _ => exact (hf.not_searching (t := t) (by rw [ht]; rfl)).elim
  | generation ht =>
    obtain ⟨g, hg⟩ := Option.isSome_iff_exists.1 (sync_role hs ht).2.1
    refine refines_sync hf ?_ (fun _ h => by cases h) rfl fun _ => rfl
    have hgen : (s.dirty.map DirtyFileMetadata.generation).getD 0 = g := by
      rw [show s.dirty.map DirtyFileMetadata.generation = some g from hg]
      rfl
    rw [hgen]
    exact .readGeneration t (view_role (by rw [ht]; rfl)) hg
  | @snapshot sid generation file ht _ hdata =>
    have hl : s.listed = some sid := listed_of_current (sync_role hs ht).2.2.1
    exact refines_snapshot hf ht hl hdata
  | attributes ht | uploaded ht => exact refines_sync_quiet hf ht rfl (fun _ h => h) rfl fun _ => rfl
  | @landed snap attrs before ht =>
    have hf' : Files ({ s with
        object := some ⟨s.snapshotBytes snap, encodePOSIXAttributes attrs⟩ } : State) :=
      ⟨hf.listed, hf.bound, hf.discarding, hf.snapshots, hf.found⟩
    refine ⟨?_, hf'.goto (fun h => by cases h) (by rw [ht]; exact fun _ h => h) rfl⟩
    rw [view_goto]
    exact .land t (view_role (by rw [ht]; rfl))
  | @synced snap ht hch =>
    obtain ⟨g, hg⟩ := Option.isSome_iff_exists.1 (sync_role hs ht).2.1
    obtain ⟨entry, hentry, rfl⟩ := Option.map_eq_some_iff.1
      (show s.dirty.map DirtyFileMetadata.generation = some g from hg)
    have hgen : entry.generation = snap.generation := by
      simpa [State.changedSince, hentry] using hch
    have hview : s.markClean.view = { s.view with dirty := none } := by
      simp only [markClean, hentry, Option.isSome_some, if_true]
      rfl
    have hf' : Files s.markClean := by
      refine ⟨?_, ?_, hf.discarding, ?_, hf.found⟩
      · simpa [markClean, hentry] using hf.listed
      · simpa [markClean, hentry] using hf.bound
      · simpa [markClean, hentry] using hf.snapshots
    refine ⟨?_, hf'.goto_plain ⟨rfl, rfl, rfl⟩⟩
    rw [view_goto, hview]
    exact .clean t (view_role (by rw [ht]; rfl)) (hg.trans (congrArg some hgen))
  | @cleanup snap ht hc =>
    simp only [State.cleanable, Bool.and_eq_true, decide_eq_true_eq, Option.isNone_iff_eq_none] at hc
    have hf' : Files s.cleanupSynced := files_unlist hf (fun _ h => by cases h) rfl
    refine ⟨?_, hf'.goto_plain ⟨rfl, rfl, rfl⟩⟩
    rw [view_goto_same (by rw [State.cleanupSynced, ht]; rfl)]
    exact .retire (by simp [State.view, hc.2]) (no_holder hslot hc.1.1 hc.1.2)
  | @closeRemoved snap ht =>
    have hne : s.listed ≠ some snap.sid :=
      (hslot.parting_retired t snap.sid (by simp [State.slot, ht, Task.parts])).1
    refine ⟨?_, (files_setSession_unlisted hf hne).goto_plain ⟨rfl, rfl, rfl⟩⟩
    rw [view_goto_same (by rw [setSession, ht]; rfl), view_setSession_unlisted hne]
    exact .quiet _
  | @close snap ht =>
    have hnone : ∀ t', (s.task t').openSnapshot = none := by
      intro t'
      cases h : (s.task t').openSnapshot with
      | none => rfl
      | some snap' =>
        have hlock : s.objectLock = some t := sync_role hs ht
        obtain rfl : t' = t := Option.some.inj ((openSnapshot_lock hs h).symm.trans hlock)
        rw [ht] at h
        cases h
    refine ⟨?_, (closeSnapshot_files snap hf hnone).goto_plain ⟨rfl, rfl, rfl⟩⟩
    rw [view_goto_same (by rw [closeSnapshot_task, ht]; rfl), closeSnapshot_view]
    exact .quiet _
  | unlockObject ht =>
    have hf' : Files ({ s with objectLock := none } : State) :=
      ⟨hf.listed, hf.bound, hf.discarding, hf.snapshots, hf.found⟩
    refine ⟨?_, hf'.goto_plain ⟨rfl, rfl, rfl⟩⟩
    rw [view_goto]
    exact .unlock t (view_role (by rw [ht]; rfl))

theorem ActorStep.refines {actor : Actor} (h : ActorStep actor s t a s') (hslot : s.slot.Sound)
    (hs : WriteBack.Safe s.view last) (hf : Files s) (hok : Orderly s (t, a)) : Refines s a s' := by
  cases h with
  | opens h | syncs h => exact h.refines hslot hs hf hok
  | handles h => exact h.refines hslot hf
  | marks h | persists h | attributes h | commits h => exact h.refines hf

/-! ## Runs -/

variable {actors : Actor → Prop}

theorem Step.refines {e : Nat × Action} (h : Step actors s e s') (hslot : s.slot.Sound)
    (hs : WriteBack.Safe s.view last) (hf : Files s) (hok : Orderly s e) : Refines s e.2 s' := by
  cases h with
  | actor _ h => exact h.refines hslot hs hf hok
  | elsewhere hn =>
    exact ⟨.advance hn, ⟨hf.listed, hf.bound, hf.discarding, hf.snapshots, hf.found⟩⟩

/-- The bytes a run starts from: those staged, if the path starts dirty, and the
object's otherwise. -/
def State.baseBytes (s : State) : Option Bytes :=
  if s.dirty.isSome then some s.currentBytes else s.object.map Object.content

theorem empty_safe (path : String) (object : Option Object) (d : Disk) (tombstone : Bool)
    (hd : ∀ f, d.dataFile = some f → f < d.nextInode) :
    WriteBack.Safe (empty path object d tombstone).view
    (empty path object d tombstone).baseBytes ∧ Files (empty path object d tombstone) := by
  refine ⟨⟨fun t => trivial, nofun, nofun, nofun, fun _ _ => rfl⟩, nofun, hd, ?_, ?_, fun _ => rfl⟩
  · intro t ht
    exact nomatch ht
  · intro t snap ht
    exact nomatch ht

theorem recoveredSession_spec (s : State) (sidecarOk : Bool) (size : Nat) :
    (s.recoveredSession sidecarOk size).file = (newWriteSession s.disk s.path sidecarOk).1.file ∧
    (s.recoveredSession sidecarOk size).size = size ∧
    (s.recoveredSession sidecarOk size).dirty := by
  refine ⟨?_, rfl, rfl⟩
  simp only [State.recoveredSession]
  split
  · split <;> rfl
  · rfl

theorem recovered_safe (path : String) (object : Option Object) (d : Disk) (size : Nat)
    (hd : ∀ f, d.dataFile = some f → f < d.nextInode) :
    WriteBack.Safe ((empty path object d false).recoverSession true size).restoreDirty.view
    ((empty path object d false).recoverSession true size).restoreDirty.baseBytes ∧
    Files ((empty path object d false).recoverSession true size).restoreDirty := by
  obtain ⟨hfile, _, hdirty⟩ :=
    recoveredSession_spec (empty path object d false) true size
  obtain ⟨_, _, ⟨f, hwf, hdf, hb⟩, _, _⟩ := newWriteSession_spec path true hd
  constructor
  · refine ⟨fun t => trivial, ?_, ?_, ?_, fun h => by cases h⟩
    · intro _
      refine ⟨_, rfl, ?_⟩
      simpa [State.item, State.restoreDirty, State.markDirtyWithState, State.recoverSession] using hdirty
    · intro g hg
      obtain rfl := Option.some.inj hg
      exact Nat.le_refl _
    · intro item hitem _
      obtain rfl := Option.some.inj hitem
      rfl
  · refine ⟨?_, ?_, ?_, ?_, fun _ => rfl⟩
    · intro i hi
      obtain rfl := Option.some.inj hi
      refine ⟨f, ?_, hdf⟩
      simpa [State.restoreDirty, State.markDirtyWithState, State.recoverSession] using hfile.trans hwf
    · intro g hg
      obtain rfl : f = g := Option.some.inj (hdf.symm.trans hg)
      exact hb
    · intro t ht
      cases ht
    · intro t snap ht
      cases ht

theorem Init.safe (h : Init s) : WriteBack.Safe s.view s.baseBytes ∧ Files s := by
  obtain ⟨path, object, d, tombstone, hd, rfl⟩ := h
  have hbound : ∀ f, d.dataFile = some f → f < d.nextInode := fun f hf => (hd f hf).1
  unfold recoverFromDisk
  split
  · exact empty_safe path object _ tombstone (by simpa using hbound)
  · exact empty_safe path object d tombstone hbound
  · split
    · exact empty_safe path object d tombstone hbound
    · split
      · exact empty_safe path object _ tombstone nofun
      · exact recovered_safe path object d _ hbound

/-- The bytes after the last change, as the history of a run. -/
def systemWithLast (actors : Actor → Prop) : System (State × Option Bytes) (Nat × Action) :=
  (system actors).track State.baseBytes fun _ e s' last => (s'.effect e.2).apply last

theorem reach_safe {p : State × Option Bytes} (h : Reach (systemWithLast actors) (onState Orderly) p) :
    WriteBack.Safe p.1.view p.2 ∧ Files p.1 := by
  refine reach_track_invariant (I := fun s last => WriteBack.Safe s.view last ∧ Files s)
    reach_slot_sound (fun s hi => Init.safe hi) ?_ h
  intro s e s' last hslot hi hok hstep
  have hr := Step.refines hstep hslot hi.1 hi.2 hok
  exact ⟨hi.1.step hr.1, hr.2⟩

end

/-! ## A run -/

/-- The actions an orderly run sets conditions on. -/
def Action.guarded : Action → Bool
  | .fetch _ | .lockObject | .newSession => true
  | _ => false

theorem orderly_of {s : State} {e : Nat × Action} (h : e.2.guarded = false) : Orderly s e := by
  refine ⟨?_, ?_, ?_⟩
  · intro how _ _ he
    rw [he] at h
    exact nomatch h
  all_goals
    intro he
    rw [he] at h
    exact nomatch h

theorem onward {G : Type} {start : State → G} {upd : State → Nat × Action → State → G → G} {s s' : State}
    {g : G} {e : Nat × Action} (h : Reach ((system everyone).track start upd) (onState Orderly) (s, g))
    (hs : Step everyone s e s') (he : e.2.guarded = false := by rfl) :
    Reach ((system everyone).track start upd) (onState Orderly) (s', upd s e s' g) :=
  h.next' hs (orderly_of he)

theorem orderly_lockObject {s : State} {t : Nat} (h : s.dirty.isSome) : Orderly s (t, .lockObject) :=
  ⟨(fun _ _ _ he _ => nomatch he), fun _ => h, (fun he => nomatch he)⟩

theorem orderly_newSession {s : State} {t : Nat} (h : ∀ t', (s.task t').discards = false) :
    Orderly s (t, .newSession) :=
  ⟨(fun _ _ _ he _ => nomatch he), (fun he => nomatch he), fun _ => h⟩

theorem orderly_fetch {s : State} {t : Nat} {how : Download} {fl : OpenFlags} {sid : Nat}
    (ht : s.task t = .opening fl (.prefetch sid)) (h : (s.session sid).dirty = false) :
    Orderly s (t, .fetch how) := by
  refine ⟨?_, (fun he => nomatch he), (fun he => nomatch he)⟩
  intro _ fl' sid' _ ht'
  cases ht.symm.trans ht'
  exact h

/-- A staged file `[2]` with its sidecar. -/
def Disk.staged : Disk := ⟨fun _ => [2], 1, some 0, some ⟨"/f", none, false⟩⟩

/-- A gateway that restarted over it, with the object `[1]` in the bucket. -/
def State.recovered : State :=
  ((State.empty "/f" (some ⟨[1], .default⟩) .staged false).recoverSession true 1).restoreDirty

theorem recovered_init : Init State.recovered := by
  refine ⟨"/f", some ⟨[1], .default⟩, .staged, false, ?_, ?_⟩
  · intro f hf
    obtain rfl : 0 = f := Option.some.inj hf
    exact ⟨Nat.one_pos, _, rfl, rfl⟩
  · simp [recoverFromDisk, Disk.staged, State.recovered]

/-- Thread 0 opens the file and writes `[4]`, and worker 1 syncs it. -/
theorem written_and_synced {G : Type} {start : State → G} {upd : State → Nat × Action → State → G → G} :
    ∃ p, Reach ((system everyone).track start upd) (onState Orderly) p ∧ p.1.dirty = none ∧
    (∀ t, p.1.task t = .idle ∨ p.1.task t = .handle 0) ∧ p.1.object.map Object.content = some [4] := by
  have h : Reach ((system everyone).track start upd) (onState Orderly) (State.recovered, start .recovered) :=
    .init ⟨recovered_init, rfl⟩
  have h := onward h (@OpenStep.begin _ 0 .keeping rfl (by decide)).run
  have h := onward h (@OpenStep.reuse _ 0 .keeping false 0 rfl rfl).run
  have h := onward h (@OpenStep.known _ 0 .keeping false 0 rfl rfl).run
  have h := onward h (@HandleStep.write _ 0 0 0 [4] _ _ _ rfl rfl).run
  have h := onward h (@MarkStep.again _ _ 0 0 false rfl rfl).run
  have h := onward h (@SyncStep.lockFile _ 1 rfl rfl).run
  have h := onward h (@SyncStep.checkDirty _ 1 rfl rfl).run
  have h := h.next' ((@SyncStep.lockObject _ 1 rfl rfl).run) (orderly_lockObject rfl)
  have h := onward h (@SyncStep.notPending _ 1 rfl rfl).run
  have h := onward h (@SyncStep.found _ 1 0 rfl rfl).run
  have h := onward h (@SyncStep.generation _ 1 0 rfl).run
  have h := onward h (@SyncStep.snapshot _ 1 0 _ 0 rfl rfl rfl).run
  have h := onward h (@SyncStep.attributes _ 1 _ rfl).run
  have h := onward h (@SyncStep.landed _ 1 _ _ false rfl).run
  have h := onward h (@SyncStep.uploaded _ 1 _ _ rfl).run
  have h := onward h (@SyncStep.synced _ 1 _ rfl rfl).run
  have h := onward h (@SyncStep.keep _ 1 _ rfl).run
  have h := onward h (@SyncStep.close _ 1 _ rfl).run
  have h := onward h (@SyncStep.unlockObject _ 1 rfl).run
  have h := onward h (@SyncStep.unlockFile _ 1 rfl).run
  exact ⟨_, h, rfl, two_threads (.inr rfl) (.inl rfl) fun _ => .inl rfl, rfl⟩

end Bluestone
