/-
# `Bluestone.Staging.Holders` — whoever uses a session uses the listed one

An open past its session lookup and a handle hold a reference to a session.
Opens and closes count references, a failed open and the cleanup after a sync
drop the session when the count is zero.  `slot_step` reads every step of every
actor as a step of a reference-counted slot, and `reach_slot_sound` is what the
slot library makes of it (`holders_hold_listed`).

The count can exceed the number of holders: a truncating open whose truncation
fails never gives its reference back.
-/
import Bluestone.Library.Slot
import Bluestone.Staging.Recovery

namespace Bluestone

open Function Runs
open State (setSession releaseSession setDisk recoverSession empty)

/-- The session a thread holds a reference to. -/
@[simp] def Task.holds : Task → Option Nat
  | .opening _ (.flags _ sid) | .opening _ (.stat _ sid) | .opening _ (.seed sid _)
  | .opening _ (.prefetch sid) | .opening _ (.creation sid) | .opening _ (.truncate sid)
  | .opening _ (.refuse sid) => some sid
  | .handle sid | .reading sid | .marking sid _ _ | .releasing sid => some sid
  | .persist _ _ next => next.holds
  | _ => none

/-- The session a thread has unlisted and is still taking apart. -/
@[simp] def Task.parts : Task → Option Nat
  | .discarding sid _ => some sid
  | .syncing (.closeRemoved snap) => some snap.sid
  | .persist _ _ next => next.parts
  | _ => none

/-- The listed session, its references, its holders, and the sessions being
taken apart. -/
def State.slot (s : State) : Slot Nat where
  current := s.listed
  refs := fun sid => (s.session sid).refCount
  next := s.nextSession
  holds := fun t => (s.task t).holds
  parting := fun t => (s.task t).parts

section
variable {s s' : State} {t sid : Nat} {task : Task}

theorem holds_update (f : Nat → Task) (t : Nat) (task : Task) :
    (fun t' => (update f t task t').holds) = update (fun t' => (f t').holds) t task.holds :=
  comp_update Task.holds f t task

theorem refs_update (f : Nat → WriteSession) (sid : Nat) (ws : WriteSession) :
    (fun i => (update f sid ws i).refCount) = update (fun i => (f i).refCount) sid ws.refCount :=
  comp_update WriteSession.refCount f sid ws

theorem parts_update (f : Nat → Task) (t : Nat) (task : Task) :
    (fun t' => (update f t task t').parts) = update (fun t' => (f t').parts) t task.parts :=
  comp_update Task.parts f t task

theorem slot_goto : (s.goto t task).slot =
      { s.slot with
        holds := update s.slot.holds t task.holds
        parting := update s.slot.parting t task.parts } := by
  simp only [State.slot, State.goto, holds_update, parts_update]

theorem parting_same (h : task.parts = (s.task t).parts) :
    update s.slot.parting t task.parts = s.slot.parting := by
  rw [h]
  exact update_eq_self t s.slot.parting

theorem holds_same (h : task.holds = (s.task t).holds) :
    update s.slot.holds t task.holds = s.slot.holds := by
  rw [h]
  exact update_eq_self t s.slot.holds

theorem slot_goto_same (h : task.holds = (s.task t).holds) (hp : task.parts = (s.task t).parts) :
    (s.goto t task).slot = s.slot := by
  rw [slot_goto, holds_same h, parting_same hp]

theorem slot_goto_holds (hp : task.parts = (s.task t).parts) : (s.goto t task).slot =
    { s.slot with holds := update s.slot.holds t task.holds } := by
  rw [slot_goto, parting_same hp]

theorem slot_goto_parts (h : task.holds = (s.task t).holds) : (s.goto t task).slot =
    { s.slot with parting := update s.slot.parting t task.parts } := by
  rw [slot_goto, holds_same h]

theorem slot_setSession (ws : WriteSession) : (s.setSession sid ws).slot =
    { s.slot with refs := update s.slot.refs sid ws.refCount } := by
  simp only [State.slot, setSession, refs_update]

theorem slot_setSession_same {ws : WriteSession} (h : ws.refCount = (s.session sid).refCount) :
    (s.setSession sid ws).slot = s.slot := by
  rw [slot_setSession, h]
  have hsame : update s.slot.refs sid (s.session sid).refCount = s.slot.refs :=
    update_eq_self sid s.slot.refs
  rw [hsame]

@[simp] theorem afterExists_holds (fl : OpenFlags) (sid : Nat) : (afterExists fl sid).holds = some sid :=
  afterExists_at (P := fun task => task.holds = some sid) rfl rfl

@[simp] theorem afterExists_parts (fl : OpenFlags) (sid : Nat) : (afterExists fl sid).parts = none :=
  afterExists_at (P := fun task => task.parts = none) rfl rfl

@[simp] theorem afterMissing_holds (fl : OpenFlags) (sid : Nat) :
    (afterMissing fl sid).holds = some sid :=
  afterMissing_at (P := fun task => task.holds = some sid) rfl (afterExists_holds fl sid)

@[simp] theorem afterMissing_parts (fl : OpenFlags) (sid : Nat) : (afterMissing fl sid).parts = none :=
  afterMissing_at (P := fun task => task.parts = none) rfl (afterExists_parts fl sid)

@[simp] theorem afterSeed_holds (fl : OpenFlags) (sid : Nat) : (afterSeed fl sid).holds = some sid := by
  unfold afterSeed
  split <;> rfl

@[simp] theorem afterSeed_parts (fl : OpenFlags) (sid : Nat) : (afterSeed fl sid).parts = none := by
  unfold afterSeed
  rfl

@[simp] theorem persistIf_holds (changed : Bool) (sid : Nat) (next : Task) :
    (persistIf changed sid next).holds = next.holds := by
  unfold persistIf
  split <;> rfl

@[simp] theorem persistIf_parts (changed : Bool) (sid : Nat) (next : Task) :
    (persistIf changed sid next).parts = next.parts := by
  unfold persistIf
  split <;> rfl

/-- The slot of a step that moves `t` and leaves sessions, listing and
references alone. -/
theorem slotStep_of_goto (hslot : s'.slot = s.slot) (h : task.holds = (s'.task t).holds ∧
    task.parts = (s'.task t).parts) : SlotStep s.slot (s'.goto t task).slot := by
  rw [slot_goto_same h.1 h.2, hslot]
  exact .quiet _

theorem slotStep_release (hheld : (s.task t).holds = some sid) (hnone : task.holds = none)
    (hp : task.parts = (s.task t).parts) : SlotStep s.slot (s.releaseSession.goto t task).slot := by
  have htask : s.releaseSession.task = s.task := by
    unfold releaseSession
    split <;> rfl
  rw [slot_goto, hnone, parting_same (by rw [htask]; exact hp)]
  cases hl : s.listed with
  | none =>
    have hsame : s.releaseSession = s := by simp [releaseSession, hl]
    rw [hsame]
    exact .forget t
  | some i =>
    have hslot : s.releaseSession.slot =
        { s.slot with refs := update s.slot.refs i (s.slot.refs i - 1) } := by
      simp only [releaseSession, hl, slot_setSession]
      rfl
    rw [hslot]
    exact .release t hl hheld

/-! ## Every step of every actor -/

variable {a : Action}

theorem OpenStep.slot_step (h : OpenStep s t a s') : SlotStep s.slot s'.slot := by
  cases h with
  | begin ht _ | known ht _ | unknown ht _ | statFound ht _ | statMissing ht _ | statError ht _
  | statErrorTrunc ht _ | prefetched ht _ | fetchAbandoned ht _ => exact slotStep_of_goto rfl (by simp [ht, Task.holds, Task.parts])
  | @acquire sid ht _ hl =>
    rw [slot_goto_holds (by simp [setSession, ht, Task.parts]), slot_setSession]
    exact .acquire (s := s.slot) t hl (by simp [State.slot, ht, Task.holds])
  | @reuse fl pd sid ht hl =>
    have hslot : (s.reuseSession sid).slot =
        { s.slot with refs := update s.slot.refs sid (s.slot.refs sid + 1) } := by
      simp only [State.slot, State.reuseSession, refs_update]
    rw [slot_goto_holds (by simp [State.reuseSession, ht, Task.parts]), hslot]
    exact .acquire (s := s.slot) t hl (by simp [State.slot, ht, Task.holds])
  | @create fl pd sidecarOk ht hl =>
    have hslot : (s.createSession sidecarOk).slot =
        { s.slot with
          current := some s.nextSession
          refs := update s.slot.refs s.nextSession 1
          next := s.nextSession + 1 } := by
      simp only [State.slot, State.createSession, refs_update]
      rfl
    rw [slot_goto_holds (by simp [State.createSession, ht, Task.parts]), hslot]
    exact .create (s := s.slot) t hl (by simp [State.slot, ht, Task.holds])
  | seed ht | creation ht =>
    exact slotStep_of_goto (slot_setSession_same (by simp))
      (by simp [setSession, ht, Task.holds, Task.parts])
  | fetched ht _ _ hp | fetchFailed ht _ _ hp =>
    exact slotStep_of_goto (slot_setSession_same (prefetch_refCount hp))
      (by simp [setSession, setDisk, ht, Task.holds, Task.parts])
  | truncate ht hw =>
    exact slotStep_of_goto (slot_setSession_same (truncate_refCount hw))
      (by simp [setSession, setDisk, ht, Task.holds, Task.parts])
  | truncateFailed ht =>
    rw [slot_goto_holds (by simp [ht, Task.parts])]
    exact .forget t
  | refuseKept ht _ | release ht => exact slotStep_release (by rw [ht]; rfl) rfl (by rw [ht]; rfl)
  | @refuseDiscard fl sid sid' ht hl hdisc =>
    have hslot : { s.releaseSession with listed := none }.slot =
        { s.slot with
          current := none
          refs := update s.slot.refs sid' (s.slot.refs sid' - 1) } := by
      simp only [releaseSession, hl, setSession, State.slot, refs_update]
    have hzero : s.slot.refs sid' - 1 = 0 := by
      simp only [State.discardable, Bool.and_eq_true, decide_eq_true_eq] at hdisc
      simpa [releaseSession, hl, setSession, State.slot] using hdisc.1.1
    rw [slot_goto, hslot]
    exact .releaseRetire t hl (by simp [State.slot, ht, Task.holds]; rfl) hzero
  | discardClose ht =>
    exact slotStep_of_goto (slot_setSession_same rfl) (by simp [setSession, ht, Task.holds, Task.parts])
  | discardData ht => exact slotStep_of_goto rfl (by simp [setDisk, ht, Task.holds, Task.parts])
  | discardSidecar ht =>
    rw [slot_goto_parts (by simp [setDisk, ht, Task.holds])]
    exact .part t

theorem HandleStep.slot_step (h : HandleStep s t a s') : SlotStep s.slot s'.slot := by
  cases h with
  | write ht hw =>
    exact slotStep_of_goto (slot_setSession_same (write_refCount hw))
      (by simp [setSession, setDisk, ht, Task.holds, Task.parts])
  | truncate ht hw =>
    exact slotStep_of_goto (slot_setSession_same (truncate_refCount hw))
      (by simp [setSession, setDisk, ht, Task.holds, Task.parts])
  | close ht | closeReading ht => exact slotStep_release (by rw [ht]; rfl) rfl (by rw [ht]; rfl)

@[simp] theorem slot_metadataChanged (found : Option Nat) : (s.metadataChanged found).slot = s.slot := by
  cases found with
  | none => rfl
  | some sid => exact slot_setSession_same rfl

@[simp] theorem metadataChanged_task (found : Option Nat) : (s.metadataChanged found).task = s.task := by
  cases found <;> rfl

theorem MarkStep.slot_step (h : MarkStep s t a s') : SlotStep s.slot s'.slot := by
  cases h with
  | again ht hm | recordedMeanwhile ht hm =>
    obtain ⟨entry, _, _, rfl⟩ := markDirtyAgain_cases hm
    exact slotStep_of_goto rfl (by simp [ht, Task.holds, Task.parts])
  | clean ht _ | lookup ht | attrs ht => exact slotStep_of_goto rfl (by simp [ht, Task.holds, Task.parts])
  | record ht _ =>
    refine slotStep_of_goto ?_ (by simp [State.markDirtyWithState, setDisk, ht, Task.holds, Task.parts])
    exact (slot_metadataChanged _).trans rfl
  | recordFailed ht _ =>
    refine slotStep_of_goto rfl ?_
    simp only [State.markDirtyWithState, ht]
    split <;> exact ⟨rfl, rfl⟩

theorem PersistStep.slot_step (h : PersistStep s t a s') : SlotStep s.slot s'.slot := by
  cases h with
  | copy ht =>
    refine slotStep_of_goto rfl ?_
    rw [ht]
    split <;> exact ⟨rfl, rfl⟩
  | write ht _ => exact slotStep_of_goto rfl (by simp [setDisk, ht, Task.holds, Task.parts])
  | skip ht => exact slotStep_of_goto rfl (by simp [ht, Task.holds, Task.parts])
  | changed ht =>
    exact slotStep_of_goto (slot_setSession_same rfl) (by simp [setSession, ht, Task.holds, Task.parts])

theorem SyncStep.slot_step (h : SyncStep s t a s') : SlotStep s.slot s'.slot := by
  cases h with
  | lockFile ht _ | checkClean ht _ | checkDirty ht _ | lockObject ht _ | pendingDelete ht _
  | notPending ht _ | found ht _ | notFound ht _ | statMissing ht _ | statFound ht _
  | recoverListed ht _ | generation ht | snapshotFailed ht | attributes ht | landed ht | uploaded ht
  | uploadFailed ht | changed ht _ | keep ht | unlockObject ht => exact slotStep_of_goto rfl (by simp [ht, Task.holds, Task.parts])
  | forget ht => exact slotStep_of_goto rfl (by simp [State.dropDirtyEntry, ht, Task.holds, Task.parts])
  | @recover size sidecarOk ht hl =>
    have hslot : (s.recoverSession sidecarOk size).slot =
        { s.slot with
          current := some s.nextSession
          refs := update s.slot.refs s.nextSession 0
          next := s.nextSession + 1 } := by
      simp only [State.slot, recoverSession, refs_update]
      rfl
    rw [slot_goto_same (by simp [recoverSession, ht, Task.holds])
      (by simp [recoverSession, ht, Task.parts]), hslot]
    exact .adopt hl
  | snapshot ht _ _ =>
    exact slotStep_of_goto (slot_setSession_same rfl) (by simp [setSession, ht, Task.holds, Task.parts])
  | synced ht _ => exact slotStep_of_goto rfl (by simp [State.markClean, ht, Task.holds, Task.parts])
  | @cleanup snap ht hc =>
    simp only [State.cleanable, Bool.and_eq_true, decide_eq_true_eq] at hc
    rw [slot_goto_parts (by simp [State.cleanupSynced, ht, Task.holds])]
    exact .retire (s := s.slot) t hc.1.1 hc.1.2
  | @closeRemoved snap ht =>
    have hslot : (s.setSession snap.sid { s.session snap.sid with file := none }).slot =
        s.slot := slot_setSession_same rfl
    rw [slot_goto_parts (by simp [setSession, ht, Task.holds]), hslot]
    exact .part t
  | @close snap ht =>
    refine slotStep_of_goto ?_ ?_
    · unfold State.closeSnapshot
      split
      · exact slot_setSession_same rfl
      · rfl
    · have htask : (s.closeSnapshot snap).task = s.task := by
        unfold State.closeSnapshot
        split <;> rfl
      simp [htask, ht, Task.holds, Task.parts]
  | unlockFile ht => exact slotStep_of_goto rfl (by simp [State.unlockFile, ht, Task.holds, Task.parts])

theorem AttrStep.slot_step (h : AttrStep s t a s') : SlotStep s.slot s'.slot := by
  cases h with
  | begin ht | staged ht _ | unstaged ht _ | readOwner ht | stagedDone ht | stat ht _ | head ht _
  | put ht _ | failed ht _ => exact slotStep_of_goto rfl (by simp [ht, Task.holds, Task.parts])
  | setter ht _ =>
    exact slotStep_of_goto (slot_setSession_same rfl) (by simp [setSession, ht, Task.holds, Task.parts])

theorem CommitStep.slot_step (h : CommitStep s t a s') : SlotStep s.slot s'.slot := by
  cases h with
  | begin ht | nothing ht _ | found ht _ | closed ht _ | flushed ht _ | upToDate ht _ | needed ht _
  | failed ht => exact slotStep_of_goto rfl (by simp [ht, Task.holds, Task.parts])
  | @metadata sid version ht =>
    refine slotStep_of_goto ?_ ?_
    · unfold State.commitPathMetadata
      split
      all_goals split <;> rfl
    · have htask : (s.commitPathMetadata sid).task = s.task := by
        unfold State.commitPathMetadata
        split
        all_goals split <;> rfl
      simp [htask, ht, Task.holds, Task.parts]
  | committed ht =>
    exact slotStep_of_goto (slot_setSession_same rfl)
      (by simp [State.metadataCommitted, setSession, ht, Task.holds, Task.parts])

theorem ActorStep.slot_step {actor : Actor} (h : ActorStep actor s t a s') :
    SlotStep s.slot s'.slot := by
  cases h with
  | opens h | handles h | marks h | persists h | syncs h | attributes h | commits h => exact h.slot_step

end

/-! ## Whole runs -/

theorem Init.slot_sound {s : State} (h : Init s) : s.slot.Sound := by
  obtain ⟨path, object, d, tombstone, _, rfl⟩ := h
  have hempty : ∀ d' b, (empty path object d' b).slot.Sound := by
    intro d' b
    refine ⟨fun t i ht => ?_, (fun i hi => nomatch hi), (fun i hi => nomatch hi), fun t i ht => ?_⟩
    · simp [State.slot, empty, Task.holds] at ht
    · simp [State.slot, empty, Task.parts] at ht
  unfold recoverFromDisk
  split
  · exact hempty _ _
  · exact hempty _ _
  · split
    · exact hempty _ _
    · split
      · exact hempty _ _
      · rename_i f state _ _ _ _
        have hslot : ∀ size,
            (((empty path object d false).recoverSession true size).restoreDirty).slot =
              { (empty path object d false).slot with
                current := some 0
                refs := update (empty path object d false).slot.refs 0 0
                next := 1 } := by
          intro size
          simp only [State.slot, State.restoreDirty, State.markDirtyWithState,
            recoverSession, refs_update]
          rfl
        rw [hslot]
        exact (hempty d false).step (.adopt rfl)

variable {actors : Actor → Prop} {ok : Condition}

theorem reach_slot_sound : ∀ {s : State}, Reach (system actors) ok s → s.slot.Sound := by
  intro s h
  refine h.invariant (I := fun s => s.slot.Sound) (fun _ hi => Init.slot_sound hi) ?_
  intro s e s' hsound _ hstep
  cases hstep with
  | actor _ ha => exact hsound.step ha.slot_step
  | elsewhere _ => exact hsound

/-! ## A step moves one thread -/

section
variable {s s' s1 : State} {t t' sid : Nat} {task : Task} {a : Action}

theorem releaseSession_task : s.releaseSession.task = s.task := by
  unfold releaseSession
  cases s.listed <;> rfl

theorem closeSnapshot_task (snap : Snapshot) : (s.closeSnapshot snap).task = s.task := by
  unfold State.closeSnapshot
  split <;> rfl

theorem commitPathMetadata_task : (s.commitPathMetadata sid).task = s.task := by
  unfold State.commitPathMetadata
  split <;> split <;> rfl

theorem goto_other (h : s1.task = s.task) (hne : t' ≠ t) : (s1.goto t task).task t' = s.task t' := by
  simp [State.goto, update_of_ne hne, h]

theorem ActorStep.task_other {actor : Actor} (h : ActorStep actor s t a s') (hne : t' ≠ t) :
    s'.task t' = s.task t' := by
  cases h with
  | opens h =>
    cases h with
    | refuseKept | release | refuseDiscard => exact goto_other releaseSession_task hne
    | _ => exact goto_other rfl hne
  | handles h =>
    cases h with
    | close | closeReading => exact goto_other releaseSession_task hne
    | _ => exact goto_other rfl hne
  | marks h =>
    cases h with
    | again _ hm | recordedMeanwhile _ hm =>
      obtain ⟨_, _, _, rfl⟩ := markDirtyAgain_cases hm
      exact goto_other rfl hne
    | record => exact goto_other (metadataChanged_task _) hne
    | _ => exact goto_other rfl hne
  | persists h | attributes h => cases h <;> exact goto_other rfl hne
  | syncs h =>
    cases h with
    | close => exact goto_other (closeSnapshot_task _) hne
    | _ => exact goto_other rfl hne
  | commits h =>
    cases h with
    | metadata => exact goto_other commitPathMetadata_task hne
    | _ => exact goto_other rfl hne

/-- **Whoever holds a session holds the listed one**, of which there are never more holders than
references, and a session that is being taken apart is not listed again: in every state of
every run, whatever fails. -/
theorem holders_hold_listed (h : Reach (system actors) ok s) :
    (∀ t sid, (s.task t).holds = some sid → s.listed = some sid) ∧
    (∀ sid, s.listed = some sid → AtMost (fun t => (s.task t).holds = some sid) (s.session sid).refCount) ∧
    ∀ t sid, (s.task t).parts = some sid → s.listed ≠ some sid := by
  have hs := reach_slot_sound h
  exact ⟨hs.holds_current, hs.counted, fun t sid hp => (hs.parting_retired t sid hp).1⟩

theorem opening_holds_listed : ∃ s, Reach (system everyone) always s ∧ (s.task 0).holds = some 0 ∧
    s.listed = some 0 := by
  have h : Reach (system everyone) always State.fresh := .init fresh_init
  have h := h.next (@OpenStep.begin _ 0 .keeping rfl (by decide)).run
  have h := h.next (@OpenStep.create _ 0 .keeping false true rfl rfl).run
  exact ⟨_, h, rfl, (holders_hold_listed h).1 0 0 rfl⟩

end

end Bluestone
