/-
# `Bluestone.Staging.Durable` — what is on disk whenever the process may stop

`Durable` is what the staging directory owes recovery in every state of an
orderly run: a path without a session has no files (unless a failed open is just
removing them), the staged file is no longer than its session, a dirty path whose
entry says so has its sidecar, and the sidecar names the path.

`reach_intact` is the whole invariant of an orderly run: the reference counts,
the write-back cache, `Files` and `Durable`.
-/
import Bluestone.Staging.Synced

namespace Bluestone

open Function Runs
open State (setDisk markClean empty restoreDirty)

structure Durable (s : State) : Prop where
  /-- Without a session there are no files. -/
  bare : s.listed = none → (∀ t, (s.task t).discards = false) → s.disk.dataFile = none ∧ s.disk.sidecar = none
  /-- A failed open removes the data file first. -/
  removed : ∀ t sid, (s.task t).base = .discarding sid .removeSidecar → s.disk.dataFile = none
  /-- The staged file is no longer than its session. -/
  covers : ∀ sid f, s.listed = some sid → (s.session sid).file = some f →
    (s.disk.inode f).length ≤ (s.session sid).size
  /-- An entry that says its sidecar is there is right. -/
  recorded : ∀ entry, s.dirty = some entry → entry.recorded = true → s.disk.sidecar.isSome = true
  /-- A path with a session has no pending delete. -/
  live : s.listed.isSome = true → s.tombstone = false
  named : ∀ state, s.disk.sidecar = some state → state.originalPath = s.path

section
variable {s s' s1 : State} {t sid : Nat} {task : Task} {a : Action} {last : Option Bytes}

theorem Durable.goto (hd : Durable s) (hdisc : task.discards = (s.task t).discards)
    (hrem : ∀ sid, task.base = .discarding sid .removeSidecar → s.disk.dataFile = none) :
    Durable (s.goto t task) := by
  refine ⟨?_, ?_, hd.covers, hd.recorded, hd.live, hd.named⟩
  · intro hl hnone
    refine hd.bare hl fun t' => ?_
    by_cases ht : t' = t
    · subst ht
      rw [← hdisc]
      simpa [State.goto] using hnone t'
    · simpa [State.goto, update_of_ne ht] using hnone t'
  · intro t' sid' ht'
    by_cases ht : t' = t
    · subst ht
      exact hrem sid' (by simpa [State.goto] using ht')
    · exact hd.removed t' sid' (by simpa [State.goto, update_of_ne ht] using ht')

theorem base_of_discards (h : task.discards = false) (sid : Nat) :
    task.base ≠ .discarding sid .removeSidecar := by
  intro hb
  simp [Task.discards, hb] at h

theorem Durable.move {old : Task} (hd : Durable s1) (htask : s1.task = s.task) (ht : s.task t = old)
    (ho : old.discards = false) (hp : task.discards = false) : Durable (s1.goto t task) := by
  refine hd.goto ?_ fun sid hb => absurd hb (base_of_discards hp sid)
  rw [htask, ht, ho, hp]

/-- Nothing durable is in the bucket or in a lock. -/
theorem Durable.outside (object : Option Object) (syncing : Bool) (lock : Option Nat) (hd : Durable s) :
    Durable { s with object := object, syncing := syncing, objectLock := lock } :=
  ⟨hd.bare, hd.removed, hd.covers, hd.recorded, hd.live, hd.named⟩

theorem Durable.setSession {ws : WriteSession} (hd : Durable s) (h : s.listed ≠ some sid ∨
    ws.file = (s.session sid).file ∧ ws.size = (s.session sid).size) :
    Durable (s.setSession sid ws) := by
  refine ⟨hd.bare, hd.removed, ?_, hd.recorded, hd.live, hd.named⟩
  intro i f hl hf
  by_cases hi : i = sid
  · subst hi
    rcases h with h | ⟨hfile, hsize⟩
    · exact absurd hl h
    · simp only [State.setSession, update_self, hfile, hsize] at hf ⊢
      exact hd.covers i f hl hf
  · simp only [State.setSession, update_of_ne hi] at hf ⊢
    exact hd.covers i f hl hf

theorem Durable.releaseSession (hd : Durable s) : Durable s.releaseSession := by
  unfold State.releaseSession
  cases s.listed with
  | none => exact hd
  | some sid => exact hd.setSession (.inr ⟨rfl, rfl⟩)

theorem Durable.metadataChanged (hd : Durable s) (found : Option Nat) :
    Durable (s.metadataChanged found) := by
  cases found with
  | none => exact hd
  | some sid => exact hd.setSession (.inr ⟨rfl, rfl⟩)

theorem Durable.writeSidecar {state : PathMetadataState} (hd : Durable s)
    (hpath : state.originalPath = s.path)
    (hthere : s.listed.isSome ∨ s.disk.sidecar.isSome) :
    Durable (s.setDisk (s.disk.writePathMetadataState state)) := by
  refine ⟨?_, hd.removed, hd.covers, fun _ _ _ => rfl, hd.live, ?_⟩
  · intro hl hnone
    rcases hthere with h | h
    · rw [show s.listed = none from hl] at h
      exact nomatch h
    · rw [(hd.bare hl hnone).2] at h
      exact nomatch h
  · intro state' hs
    obtain rfl := Option.some.inj hs
    exact hpath

theorem Durable.markDirtyWithState (recorded : Bool) (hd : Durable s) (h : recorded →
    s.disk.sidecar.isSome) : Durable (s.markDirtyWithState recorded) := by
  refine ⟨hd.bare, hd.removed, hd.covers, ?_, hd.live, hd.named⟩
  intro entry he hr
  obtain rfl := Option.some.inj he
  exact h hr

theorem Durable.markDirtyAgain (hd : Durable s) (hm : s.markDirtyAgain = some s1) : Durable s1 := by
  obtain ⟨entry, he, hr, rfl⟩ := markDirtyAgain_cases hm
  exact hd.markDirtyWithState true fun _ => hd.recorded entry he hr

theorem Durable.setFile {ws : WriteSession} {d : Disk} (hd : Durable s) (hl : s.listed = some sid)
    (hsc : d.sidecar = s.disk.sidecar) (hlen : ∀ f, ws.file = some f → (d.inode f).length ≤ ws.size)
    (hnone : ∀ t, (s.task t).discards = false) : Durable ((s.setSession sid ws).setDisk d) := by
  refine ⟨?_, ?_, ?_, ?_, hd.live, ?_⟩
  · intro hl'
    exact nomatch hl.symm.trans hl'
  · intro t sid' hb
    exact absurd hb (base_of_discards (hnone t) sid')
  · intro i f hi hf
    obtain rfl : i = sid := Option.some.inj (hi.symm.trans hl)
    simp only [setDisk, State.setSession, update_self] at hf ⊢
    exact hlen f hf
  · intro entry he hr
    simpa [setDisk, hsc] using hd.recorded entry he hr
  · intro state hs
    exact hd.named state (by simpa [setDisk, hsc] using hs)

/-! ## One step at a time -/

theorem Files.none_discards (hf : Files s) (hl : s.listed = some sid) :
    ∀ t, (s.task t).discards = false := by
  intro t
  cases ht : (s.task t).discards with
  | false => rfl
  | true => exact nomatch hl.symm.trans (hf.discarding t ht)

theorem clean_of_unlisted (hs : WriteBack.Safe s.view last) (hl : s.listed = none) : s.dirty = none := by
  simpa [State.view] using (hs.idle (by simp [State.view, hl])).1

theorem newWriteSession_bare {d : Disk} (path : String) (sidecarOk : Bool) (hd : d.dataFile = none)
    (hsc : d.sidecar = none) : (∀ f, (newWriteSession d path sidecarOk).1.file = some f →
    ((newWriteSession d path sidecarOk).2.inode f).length ≤ (newWriteSession d path sidecarOk).1.size) ∧
    ∀ state, (newWriteSession d path sidecarOk).2.sidecar = some state → state.originalPath = path ∧
    state.attributes = none := by
  have hfile : (newWriteSession d path sidecarOk).1.file = some d.openOrCreate.1 := rfl
  have hsize : (newWriteSession d path sidecarOk).1.size =
      (d.openOrCreate.2.inode d.openOrCreate.1).length := rfl
  constructor
  · intro f hf
    obtain rfl := Option.some.inj (hfile.symm.trans hf)
    rw [(disk_core_fields (newWriteSession_core d path sidecarOk)).1, hsize]
  · intro state hstate
    cases sidecarOk with
    | false =>
      have hnone : (newWriteSession d path false).2.sidecar = none := by
        simp [newWriteSession, Disk.openOrCreate, hd, hsc]
      cases hnone.symm.trans hstate
    | true =>
      have hsome : (newWriteSession d path true).2.sidecar = some ⟨path, none, false⟩ := by
        simp [newWriteSession, Disk.openOrCreate, hd, hsc, Disk.ensurePathMetadata,
          Disk.writePathMetadataState]
      obtain rfl := Option.some.inj (hsome.symm.trans hstate)
      exact ⟨rfl, rfl⟩

theorem Durable.createSession {sidecarOk : Bool} (hd : Durable s)
    (hs : WriteBack.Safe s.view last) (hl : s.listed = none)
    (hnone : ∀ t, (s.task t).discards = false) : Durable (s.createSession sidecarOk) := by
  obtain ⟨hdata, hsc⟩ := hd.bare hl hnone
  obtain ⟨hlen, hnamed⟩ := newWriteSession_bare s.path sidecarOk hdata hsc
  refine ⟨(fun h => by cases h), ?_, ?_, ?_, fun _ => rfl, fun state hstate => (hnamed state hstate).1⟩
  · intro t sid hb
    exact absurd hb (base_of_discards (hnone t) sid)
  · intro i f hi hf
    obtain rfl := Option.some.inj hi
    simp only [State.createSession, update_self] at hf ⊢
    exact hlen f hf
  · intro entry he
    cases (clean_of_unlisted hs hl).symm.trans he

theorem OpenStep.durable (h : OpenStep s t a s') (hslot : s.slot.Sound) (hs : WriteBack.Safe s.view last)
    (hf : Files s) (hok : Orderly s (t, a)) (hd : Durable s) : Durable s' := by
  have hlisted : ∀ {sid}, (s.task t).holds = some sid → s.listed = some sid :=
    fun h => listed_of_holds hslot h
  cases h with
  | begin ht _ | unknown ht _ | statFound ht _ | statError ht _ | prefetched ht _
  | fetchAbandoned ht _ | truncateFailed ht => exact hd.move rfl ht rfl rfl
  | @acquire sid ht _ _ =>
    have hd' : Durable (s.setSession sid { s.session sid with refCount := (s.session sid).refCount + 1 }) :=
      hd.setSession (.inr ⟨rfl, rfl⟩)
    exact hd'.move rfl ht rfl rfl
  | @reuse fl pd sid ht hl =>
    have hd' : Durable (s.setSession sid { s.session sid with refCount := (s.session sid).refCount + 1 }) :=
      hd.setSession (.inr ⟨rfl, rfl⟩)
    have hd'' : Durable (s.reuseSession sid) :=
      ⟨hd'.bare, hd'.removed, hd'.covers, hd'.recorded, fun _ => rfl, hd'.named⟩
    exact hd''.move rfl ht rfl rfl
  | create ht hl => exact (hd.createSession hs hl (hok.2.2 rfl)).move rfl ht rfl rfl
  | known ht _ => exact hd.move rfl ht rfl (afterExists_plain _ _).1
  | statMissing ht _ | statErrorTrunc ht _ => exact hd.move rfl ht rfl (afterMissing_plain _ _).1
  | @seed fl sid attrs ht =>
    obtain ⟨hfile, hsize, _⟩ := seedAttributes_content (s.session sid) attrs
    exact (hd.setSession (.inr ⟨hfile, hsize⟩)).move rfl ht rfl (persistIf_plain (afterSeed_plain _ _)).1
  | fetched ht _ _ hp | fetchFailed ht _ _ hp =>
    have hl := hlisted (by rw [ht]; rfl)
    exact (hd.setFile hl (prefetch_sidecar hp) (prefetch_length hp) (hf.none_discards hl)).move rfl ht rfl rfl
  | @creation fl sid now ht =>
    obtain ⟨hfile, hsize, _⟩ := setCreationIfUnset_content (s.session sid) now fl.perm
    exact (hd.setSession (.inr ⟨hfile, hsize⟩)).move rfl ht rfl (persistIf_plain (afterExists_plain _ _)).1
  | truncate ht hw =>
    have hl := hlisted (by rw [ht]; rfl)
    exact (hd.setFile hl (truncate_sidecar hw) (truncate_length hw) (hf.none_discards hl)).move rfl ht rfl rfl
  | refuseKept ht _ | release ht => exact hd.releaseSession.move releaseSession_task ht rfl rfl
  | @refuseDiscard fl sid sid' ht hl hdisc =>
    have hd' := hd.releaseSession
    have hclean : s.releaseSession.dirty = none := by
      simp only [State.discardable, Bool.and_eq_true, Option.isNone_iff_eq_none] at hdisc
      exact hdisc.1.2
    refine ⟨?_, ?_, (fun _ _ h => by cases h), ?_, (fun h => by cases h), hd'.named⟩
    · intro _ hnone
      have hself := hnone t
      rw [goto_task_self] at hself
      cases hself
    · intro t' sid1 hb
      by_cases htt : t' = t
      · subst htt
        rw [goto_task_self] at hb
        cases hb
      · have hold : (s.task t').base = .discarding sid1 .removeSidecar := by
          simpa [State.goto, update_of_ne htt, releaseSession_task] using hb
        exact absurd hold (base_of_discards (hf.none_discards hl t') sid1)
    · intro entry he
      cases hclean.symm.trans he
  | @discardClose sid ht =>
    have hl : s.listed = none := hf.discarding t (by rw [ht]; rfl)
    exact (hd.setSession (.inl (by simp [hl]))).goto (by simp [State.setSession, ht]; rfl) fun _ h => by cases h
  | discardData ht =>
    have hl : s.listed = none := hf.discarding t (by rw [ht]; rfl)
    refine ⟨?_, fun _ _ _ => rfl, ?_, ?_, hd.live, hd.named⟩
    · intro _ hnone
      have hself := hnone t
      rw [goto_task_self] at hself
      cases hself
    · intro i f hi
      cases hl.symm.trans hi
    · intro entry he
      cases (clean_of_unlisted hs hl).symm.trans he
  | @discardSidecar sid ht =>
    have hl : s.listed = none := hf.discarding t (by rw [ht]; rfl)
    have hdata : s.disk.dataFile = none := hd.removed t sid (by rw [ht]; rfl)
    refine ⟨fun _ _ => ⟨hdata, rfl⟩, fun _ _ _ => hdata, ?_, ?_, hd.live, fun _ h => by cases h⟩
    · intro i f hi
      cases hl.symm.trans hi
    · intro entry he
      cases (clean_of_unlisted hs hl).symm.trans he

theorem persistIf_discards {changed : Bool} (h : task.discards = false) :
    (persistIf changed sid task).discards = false := by
  cases changed <;> exact h

theorem HandleStep.durable (h : HandleStep s t a s') (hslot : s.slot.Sound) (hf : Files s)
    (hd : Durable s) : Durable s' := by
  cases h with
  | write ht hw =>
    have hl := listed_of_holds (t := t) hslot
    exact (hd.setFile hl (write_sidecar hw) (write_length hw fun f => hd.covers _ f hl)
      (hf.none_discards hl)).move rfl ht rfl (persistIf_discards rfl)
  | truncate ht hw =>
    have hl := listed_of_holds (t := t) hslot
    exact (hd.setFile hl (truncate_sidecar hw) (truncate_length hw) (hf.none_discards hl)).move rfl ht rfl rfl
  | close ht | closeReading ht => exact hd.releaseSession.move releaseSession_task ht rfl rfl

theorem recordDirtyPath_eq (d : Disk) (path : String) (attrs : Option StagedAttributes) :
    ∃ state, d.recordDirtyPath path attrs = d.writePathMetadataState state ∧
    state.originalPath = path := by
  unfold Disk.recordDirtyPath
  split <;> exact ⟨_, rfl, rfl⟩

theorem MarkStep.durable (h : MarkStep s t a s') (hslot : s.slot.Sound) (hd : Durable s) :
    Durable s' := by
  cases h with
  | again ht hm | recordedMeanwhile ht hm =>
    have hd' := hd.markDirtyAgain hm
    obtain ⟨_, _, _, rfl⟩ := markDirtyAgain_cases hm
    exact hd'.move (s := s) rfl ht rfl rfl
  | clean ht _ | lookup ht | attrs ht => exact hd.move rfl ht rfl rfl
  | @record _ _ _ found attrs ht _ =>
    have hl := listed_of_holds (t := t) hslot
    obtain ⟨state, heq, hpath⟩ := recordDirtyPath_eq s.disk s.path attrs
    have hd' := (hd.writeSidecar hpath (.inl (by simp [hl]))).metadataChanged found
    rw [← heq] at hd'
    have hthere : ((s.setDisk (s.disk.recordDirtyPath s.path attrs)).metadataChanged
        found).disk.sidecar.isSome := by
      cases found <;> simp [State.metadataChanged, setDisk, State.setSession, heq,
        Disk.writePathMetadataState]
    exact (hd'.markDirtyWithState true fun _ => hthere).move (s := s) (metadataChanged_task _) ht rfl rfl
  | recordFailed ht _ =>
    refine (hd.markDirtyWithState false (fun h => by cases h)).move (s := s) rfl ht rfl ?_
    split <;> rfl

theorem PersistStep.durable (h : PersistStep s t a s') (hd : Durable s) : Durable s' := by
  cases h with
  | @copy sid next ht =>
    split
    all_goals exact hd.goto (by rw [ht]; rfl) fun sid' hb => hd.removed t sid' (by rw [ht]; exact hb)
  | @write sid next attrs state ht hsc =>
    have hd' : Durable (s.setDisk (s.disk.writePathMetadataState { state with attributes := some attrs })) :=
      hd.writeSidecar (hd.named state hsc) (.inr (by simp [hsc]))
    exact hd'.goto (by simp only [setDisk, ht]; rfl)
      fun sid' hb => hd'.removed t sid' (by simp only [setDisk, ht]; exact hb)
  | skip ht =>
    exact hd.goto (by rw [ht]; rfl) fun sid' hb => hd.removed t sid' (by rw [ht]; exact hb)
  | @changed sid next ht =>
    have hd' : Durable (s.setSession sid (s.session sid).metadataChanged) :=
      hd.setSession (.inr ⟨rfl, rfl⟩)
    exact hd'.goto (by simp only [State.setSession, ht]; rfl)
      fun sid' hb => hd'.removed t sid' (by simp only [State.setSession, ht]; exact hb)

theorem AttrStep.durable (h : AttrStep s t a s') (hd : Durable s) : Durable s' := by
  cases h with
  | @setter sid call todo update ht _ =>
    have hd' : Durable (s.setSession sid
        ((s.session sid).setAttributes (call.change (s.session sid).attrs))) :=
      hd.setSession (.inr ⟨rfl, rfl⟩)
    exact hd'.move rfl ht rfl rfl
  | @put update attrs o ht _ =>
    exact (hd.outside _ _ _).move (s := s) rfl ht rfl rfl
  | _ => exact hd.move rfl ‹s.task t = _› rfl rfl

theorem Durable.commitPathMetadata (hs : WriteBack.Safe s.view last) (hd : Durable s) (sid : Nat) :
    Durable (s.commitPathMetadata sid) := by
  unfold State.commitPathMetadata
  split
  · rename_i state hsc
    split
    · exact hd
    · exact hd.writeSidecar (hd.named state hsc) (.inr (by simp [hsc]))
  · split
    · exact hd
    · rename_i hdirty
      refine hd.writeSidecar rfl (.inl ?_)
      cases hl : s.listed with
      | none => simp [clean_of_unlisted hs hl] at hdirty
      | some i => rfl

theorem CommitStep.durable (h : CommitStep s t a s') (hs : WriteBack.Safe s.view last)
    (hd : Durable s) : Durable s' := by
  cases h with
  | metadata ht => exact (hd.commitPathMetadata hs _).move commitPathMetadata_task ht rfl rfl
  | @committed sid version ht =>
    have hd' : Durable (s.metadataCommitted sid version) := hd.setSession (.inr ⟨rfl, rfl⟩)
    exact hd'.move (s := s) rfl ht rfl rfl
  | _ => exact hd.move rfl ‹s.task t = _› rfl rfl

theorem SyncStep.durable (h : SyncStep s t a s') (hslot : s.slot.Sound)
    (hs : WriteBack.Safe s.view last) (hf : Files s) (hd : Durable s) : Durable s' := by
  cases h with
  | lockFile ht _ =>
    exact (hd.outside _ _ _).move (s := s) rfl ht rfl rfl
  | lockObject ht _ =>
    exact (hd.outside _ _ _).move (s := s) rfl ht rfl rfl
  | statMissing ht _ | statFound ht _ | forget ht | recoverListed ht _ | recover ht _ => exact (hf.not_searching (t := t) (by rw [ht]; rfl)).elim
  | @snapshot sid generation file ht _ _ =>
    have hd' : Durable (s.setSession sid
        { s.session sid with uploadReaders := (s.session sid).uploadReaders + 1 }) :=
      hd.setSession (.inr ⟨rfl, rfl⟩)
    exact hd'.move rfl ht rfl rfl
  | @landed snap attrs before ht =>
    exact (hd.outside _ _ _).move (s := s) rfl ht rfl rfl
  | @synced snap ht _ =>
    have hl : s.listed = some snap.sid := listed_of_current (sync_role hs ht).2.2.1
    have hdirty : s.dirty.isSome := by
      rw [← view_dirty_isSome]
      exact (sync_role hs ht).2.1
    have hd' : Durable s.markClean := by
      refine ⟨?_, ?_, ?_, (fun _ h => by cases h), hd.live, ?_⟩
      · intro hl'
        cases hl.symm.trans hl'
      · simpa [markClean, hdirty] using hd.removed
      · simpa [markClean, hdirty] using hd.covers
      · simp [markClean, hdirty]
    exact hd'.move (s := s) rfl ht rfl rfl
  | @cleanup snap ht hc =>
    simp only [State.cleanable, Bool.and_eq_true, decide_eq_true_eq, Option.isNone_iff_eq_none] at hc
    have hd' : Durable s.cleanupSynced := by
      refine ⟨fun _ _ => ⟨rfl, rfl⟩, fun _ _ _ => rfl, (fun _ _ h => by cases h), ?_, (fun h => by cases h),
        fun _ h => by cases h⟩
      intro entry he
      cases hc.2.symm.trans he
    exact hd'.move (s := s) rfl ht rfl rfl
  | @closeRemoved snap ht =>
    have hne : s.listed ≠ some snap.sid :=
      (hslot.parting_retired t snap.sid (by simp [State.slot, ht, Task.parts])).1
    exact (hd.setSession (.inl hne)).move (s := s) rfl ht rfl rfl
  | @close snap ht =>
    have hd' : Durable (s.closeSnapshot snap) := by
      unfold State.closeSnapshot
      split
      · exact hd.setSession (.inr ⟨rfl, rfl⟩)
      · exact hd
    exact hd'.move (closeSnapshot_task snap) ht rfl rfl
  | unlockObject ht =>
    exact (hd.outside _ _ _).move (s := s) rfl ht rfl rfl
  | unlockFile ht =>
    exact (hd.outside _ _ _).move (s := s) rfl ht rfl rfl
  | _ => exact hd.move rfl ‹s.task t = _› rfl rfl

theorem ActorStep.durable {actor : Actor} (h : ActorStep actor s t a s') (hslot : s.slot.Sound)
    (hs : WriteBack.Safe s.view last) (hf : Files s) (hok : Orderly s (t, a)) (hd : Durable s) :
    Durable s' := by
  cases h with
  | opens h => exact h.durable hslot hs hf hok hd
  | handles h => exact h.durable hslot hf hd
  | marks h => exact h.durable hslot hd
  | persists h | attributes h => exact h.durable hd
  | syncs h => exact h.durable hslot hs hf hd
  | commits h => exact h.durable hs hd

/-! ## Runs -/

theorem empty_durable (path : String) (object : Option Object) (d : Disk) (tombstone : Bool)
    (hd : d.dataFile = none) (hs : d.sidecar = none) :
    Durable (empty path object d tombstone) := by
  refine ⟨fun _ _ => ⟨hd, hs⟩, fun _ _ _ => hd, nofun, nofun, nofun, ?_⟩
  intro state hstate
  exact nomatch hs.symm.trans hstate

theorem Init.durable (h : Init s) : Durable s := by
  obtain ⟨path, object, d, tombstone, hd, rfl⟩ := h
  unfold recoverFromDisk
  split
  · rename_i hdata
    exact empty_durable path object _ tombstone hdata rfl
  · rename_i f hdata hsc
    obtain ⟨_, state, hstate, _⟩ := hd f hdata
    cases hsc.symm.trans hstate
  · rename_i f state hdata hsc
    obtain ⟨_, state', hstate', hpath⟩ := hd f hdata
    obtain rfl : state = state' := Option.some.inj (hsc.symm.trans hstate')
    split
    · rename_i hne
      exact absurd hpath hne
    · split
      · exact empty_durable path object _ tombstone rfl rfl
      · have hsame : (newWriteSession d path true).2 = d := by
          simp [newWriteSession, Disk.openOrCreate, hdata, Disk.ensurePathMetadata, hsc, hpath]
        have hfile : ((empty path object d false).recoveredSession true
            (d.inode f).length).file = some f := by
          rw [(recoveredSession_spec _ true _).1]
          simp [empty, newWriteSession, Disk.openOrCreate, hdata]
        refine ⟨(fun h => by cases h), ?_, ?_, ?_, fun _ => rfl, ?_⟩
        · intro t sid hb
          cases hb
        · intro i g hi hg
          obtain rfl := Option.some.inj hi
          simp only [restoreDirty, State.markDirtyWithState, State.recoverSession,
            update_self] at hg ⊢
          obtain rfl : f = g := Option.some.inj (hfile.symm.trans hg)
          rw [(recoveredSession_spec _ true _).2.1]
          simp only [empty, hsame]
          exact Nat.le_refl _
        · intro _ _ _
          simp [restoreDirty, State.markDirtyWithState, State.recoverSession, empty, hsame, hsc]
        · intro state' hstate
          have heq : some state = some state' := by
            simpa [restoreDirty, State.markDirtyWithState, State.recoverSession, empty,
              hsame, hsc] using hstate
          obtain rfl := Option.some.inj heq
          exact hpath

/-- Everything an orderly run keeps. -/
structure Intact (s : State) : Prop where
  slot : s.slot.Sound
  safe : ∃ last, WriteBack.Safe s.view last
  files : Files s
  durable : Durable s

variable {actors : Actor → Prop} {ok : Condition}

theorem Init.intact (h : Init s) : Intact s :=
  ⟨Init.slot_sound h, ⟨_, (Init.safe h).1⟩, (Init.safe h).2, Init.durable h⟩

theorem Step.intact {e : Nat × Action} (h : Step actors s e s') (hi : Intact s)
    (hok : Orderly s e) : Intact s' := by
  obtain ⟨hslot, ⟨last, hs⟩, hf, hd⟩ := hi
  have hr := h.refines hslot hs hf hok
  refine ⟨?_, ⟨_, hs.step hr.1⟩, hr.2, ?_⟩
  · cases h with
    | actor _ h => exact hslot.step h.slot_step
    | elsewhere _ => exact hslot
  · cases h with
    | actor _ h => exact h.durable hslot hs hf hok hd
    | elsewhere _ => exact ⟨hd.bare, hd.removed, hd.covers, hd.recorded, hd.live, hd.named⟩

theorem reach_intact (hsub : ∀ s e, ok s e → Orderly s e) :
    ∀ {s : State}, Reach (system actors) ok s → Intact s := by
  intro s h
  refine h.invariant (I := Intact) (fun _ hi => Init.intact hi) ?_
  intro s e s' hi hok hstep
  exact hstep.intact hi (hsub s e hok)

end

end Bluestone
