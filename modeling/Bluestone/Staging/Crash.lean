/-
# `Bluestone.Staging.Crash` — a crash, and what recovery makes of an untouched path

`CrashDisk s e d` lists the disks a crash can leave: the one between two steps,
and those inside the steps that make more than one file operation.

* `untouched_recovered`: a path nobody has changed since its last sync comes back
  unlisted, or with the object's own bytes, when the crash finds every open done (no
  session that is neither changed nor prefetched, no failed open removing files)
  and no change half made.
* `open_crash_empties`: the sidecar is written before the content is fetched.  A
  crash in between brings the path back dirty and empty, to be synced like that.
-/
import Bluestone.Staging.Durable

namespace Bluestone

open Runs
open State (empty fresh)
open WriteSession (content)

/-! ## Crash points -/

/-- The disks a crash can leave: between two steps, and inside the steps that
make more than one file operation.  `e` is the step under way. -/
inductive CrashDisk (s : State) : Nat × Action → Disk → Prop
  | between {t : Nat} : CrashDisk s (t, .internal) s.disk
  /-- The staging file is there, its sidecar not yet. -/
  | creating {t : Nat} {fl : OpenFlags} {pd : Bool} : s.task t = .opening fl (.lookup pd) →
    s.listed = none → CrashDisk s (t, .newSession) s.disk.openOrCreate.2
  /-- A change has moved away from an upload and not been made. -/
  | writing {t sid offset : Nat} {data : Bytes} {ws : WriteSession} {d : Disk} : s.task t = .handle sid →
    (s.session sid).detachFromUploadsLocked s.disk (s.session sid).size = some (ws, d) →
    CrashDisk s (t, .write offset data) d
  | truncating {t sid size : Nat} {fl : OpenFlags} {ws : WriteSession} {d : Disk} :
    (s.task t = .handle sid ∨ s.task t = .opening fl (.truncate sid) ∧ size = 0) →
    (s.session sid).detachFromUploadsLocked s.disk (min size (s.session sid).size) = some (ws, d) →
    CrashDisk s (t, .truncate size) d
  /-- A download has filled the file in part. -/
  | fetching {t sid : Nat} {fl : OpenFlags} {ws : WriteSession} {d : Disk} {body : Bytes}
    {how : Download} : s.task t = .opening fl (.prefetch sid) → (s.session sid).prefetched = false →
    (s.session sid).detachFromUploadsLocked s.disk 0 = some (ws, d) → CrashDisk s (t, .fetch how)
    (d.downloadToFile body how)
  /-- The staging file is gone, its sidecar not yet. -/
  | cleaning {t : Nat} {snap : Snapshot} : s.task t = .syncing (.cleanup snap) →
    s.cleanable snap.sid = true → CrashDisk s (t, .cleaned) { s.disk with dataFile := none }

/-- The gateway that starts after a crash left `d`. -/
def State.recover (s : State) (d : Disk) : State :=
  recoverFromDisk s.path s.object d s.tombstone

section
variable {s : State} {d : Disk} {f : Nat} {state : PathMetadataState}

/-- A data file with its sidecar comes back dirty, over its bytes and with the
attributes in the sidecar. -/
theorem recover_staged (hd : d.dataFile = some f) (hs : d.sidecar = some state)
    (hp : state.originalPath = s.path) (ht : s.tombstone = false) : (s.recover d).dirty.isSome ∧
    (s.recover d).listed = some 0 ∧ (s.recover d).currentBytes = d.inode f ∧
    ((s.recover d).session 0).attrs = state.attributes.getD .default := by
  have heq : s.recover d =
      ((empty s.path s.object d false).recoverSession true (d.inode f).length).restoreDirty := by
    simp [State.recover, recoverFromDisk, hd, hs, hp, ht]
  have hsame : (newWriteSession d s.path true).2 = d := by
    simp [newWriteSession, Disk.openOrCreate, hd, Disk.ensurePathMetadata, hs, hp]
  have hfile : ((empty s.path s.object d false).recoveredSession true
      (d.inode f).length).file = some f := by
    rw [(recoveredSession_spec _ true _).1]
    simp [empty, newWriteSession, Disk.openOrCreate, hd]
  rw [heq]
  refine ⟨rfl, rfl, ?_, ?_⟩
  · simp only [State.currentBytes, State.restoreDirty, State.markDirtyWithState,
      State.recoverSession, empty, Function.update_self, hsame]
    simp only [empty] at hfile
    simp only [content, hfile, (recoveredSession_spec _ true _).2.1, List.take_length]
  · simp only [State.restoreDirty, State.markDirtyWithState, State.recoverSession, empty,
      Function.update_self, State.recoveredSession, hsame, hs]
    cases state.attributes <;> rfl

theorem recover_unstaged (h : d.dataFile = none ∨ d.sidecar = none) : (s.recover d).dirty = none := by
  unfold State.recover recoverFromDisk
  split
  · rfl
  · rfl
  · rename_i hd hs
    rcases h with h | h
    · exact nomatch hd.symm.trans h
    · exact nomatch hs.symm.trans h

end

/-! ## Untouched paths -/

/-- Whether the path has had an accepted change or an attribute change since its
last completed sync. -/
def touchedAfter (touched : Bool) : Action → Bool
  | .accepted | .attributesSet _ => true
  | .synced => false
  | _ => touched

/-- The system with that flag as its history; a path that starts dirty counts as
touched. -/
def systemWithTouched (actors : Actor → Prop) : System (State × Bool) (Nat × Action) :=
  (system actors).track (fun s => s.dirty.isSome) fun _ e _ touched => touchedAfter touched e.2

/-- After the crash the path is not dirty, or its staged bytes are the object's. -/
def RecoversUntouched (s : State) (d : Disk) : Prop :=
  (s.recover d).dirty = none ∨ s.object.map Object.content = some (s.recover d).currentBytes

/-- An orderly run in which every `MarkDirty` writes its sidecar. -/
def OrderlyRecorded : Condition := fun s e => Orderly s e ∧ e.2 ≠ .refused

/-- A crash that finds no open, no change and no failed open half done. -/
structure SettledCrash (s : State) (e : Nat × Action) : Prop where
  orderly : Orderly s e
  unchanging : ∀ t, (s.task t).changing = false
  undiscarding : ∀ t, (s.task t).discards = false
  ready : ∀ sid, s.listed = some sid → (s.session sid).ready = true
  untruncating : ∀ size, e.2 ≠ .truncate size

section
variable {s s' : State} {t sid : Nat} {a : Action} {d : Disk}

/-- What a step can do to the entry of the path. -/
inductive EntryStep (s : State) (t : Nat) : Action → State → Prop
  | same {a : Action} {s' : State} : a ≠ .accepted → a ≠ .synced → s'.dirty = s.dirty →
    EntryStep s t a s'
  | accepted {s' : State} {g : Nat} : s'.dirty = some ⟨g, true⟩ → EntryStep s t .accepted s'
  | refused {s' : State} : s.markDirtyAgain = none → EntryStep s t .refused s'
  | synced {s' : State} : s'.dirty = none → EntryStep s t .synced s'
  | forgot {s' : State} : s.task t = .syncing .forget → s'.dirty = none → EntryStep s t .forgot s'

theorem ActorStep.entry {actor : Actor} (h : ActorStep actor s t a s') : EntryStep s t a s' := by
  have hrelease : s.releaseSession.dirty = s.dirty := sameCore_releaseSession.dirty
  cases h with
  | opens h =>
    cases h with
    | refuseKept | release | refuseDiscard => exact .same nofun nofun hrelease
    | _ => exact .same nofun nofun rfl
  | handles h =>
    cases h with
    | close | closeReading => exact .same nofun nofun hrelease
    | _ => exact .same nofun nofun rfl
  | marks h =>
    cases h with
    | again _ hm | recordedMeanwhile _ hm =>
      obtain ⟨_, _, _, rfl⟩ := markDirtyAgain_cases hm
      exact .accepted rfl
    | record => exact .accepted rfl
    | recordFailed _ hm => exact .refused hm
    | _ => exact .same nofun nofun rfl
  | persists h | attributes h => cases h <;> exact .same nofun nofun rfl
  | syncs h =>
    cases h with
    | @close snap _ =>
      have hclose : (s.closeSnapshot snap).dirty = s.dirty := by
        unfold State.closeSnapshot
        split <;> rfl
      exact .same nofun nofun hclose
    | forget ht => exact .forgot ht rfl
    | synced => exact .synced rfl
    | _ => exact .same nofun nofun rfl
  | commits h =>
    cases h with
    | @metadata sid _ _ =>
      have hcommit : (s.commitPathMetadata sid).dirty = s.dirty := sameCore_commitPathMetadata.dirty
      exact .same nofun nofun hcommit
    | _ => exact .same nofun nofun rfl

theorem Step.touched {actors : Actor → Prop} {e : Nat × Action} {touched : Bool}
    (h : Step actors s e s') (hok : e.2 ≠ .refused) (hi : s.dirty.isSome → touched) :
    s'.dirty.isSome → touchedAfter touched e.2 := by
  intro hd
  cases h with
  | elsewhere _ => exact hi hd
  | @actor _ _ _ _ act _ h =>
    cases h.entry with
    | same _ hne heq =>
      have ht := hi (heq ▸ hd)
      cases act with
      | synced => exact absurd rfl hne
      | _ => first | exact ht | rfl
    | accepted _ => rfl
    | refused _ => exact absurd rfl hok
    | synced hnone | forgot _ hnone =>
      rw [hnone] at hd
      exact nomatch hd

theorem reach_touched {actors : Actor → Prop} {p : State × Bool} (h : Reach (systemWithTouched actors)
    (onState OrderlyRecorded) p) : Intact p.1 ∧ (p.1.dirty.isSome → p.2) := by
  refine ⟨reach_intact (fun _ _ h => h.1) (reach_track_fst h), ?_⟩
  refine reach_track_invariant (I := fun s touched => s.dirty.isSome = true → touched = true)
    (J := fun _ => True) (fun _ => trivial) (fun s _ hd => hd) ?_ h
  intro s e s' touched _ hi hok hstep
  exact hstep.touched hok.2 hi

/-! ## What the crash leaves -/

theorem Intact.staged (hi : Intact s) (hl : s.listed = some sid) : ∃ f, (s.session sid).file = some f ∧
    s.disk.dataFile = some f ∧ s.disk.inode f = (s.session sid).content s.disk := by
  obtain ⟨f, hf, hd⟩ := hi.files.listed sid hl
  refine ⟨f, hf, hd, ?_⟩
  simp only [content, hf]
  exact (List.take_of_length_le (hi.durable.covers sid f hl hf)).symm

theorem detach_staged {ws : WriteSession} (hi : Intact s) (hl : s.listed = some sid)
    (h : (s.session sid).detachFromUploadsLocked s.disk (s.session sid).size = some (ws, d)) :
    ∃ f, d.dataFile = some f ∧ d.inode f = (s.session sid).content s.disk ∧
    d.sidecar = s.disk.sidecar := by
  obtain ⟨f, hf, hd, hbytes⟩ := hi.staged hl
  rcases detach_cases h with ⟨_, rfl, rfl⟩ | ⟨_, bytes, hkept, rfl, rfl⟩
  · exact ⟨f, hd, hbytes, rfl⟩
  · refine ⟨_, rfl, ?_, rfl⟩
    simp only [Function.update_self]
    rcases hkept with ⟨hzero, rfl⟩ | ⟨f', hf', _, rfl⟩
    · simp [content, hf, hzero]
    · obtain rfl : f = f' := Option.some.inj (hf.symm.trans hf')
      simp [content, hf]

/-- A data file with the bytes of a settled session comes back as the object, or
not at all. -/
theorem recovers_session {f : Nat} (hi : Intact s) (hclean : s.dirty = none)
    (hch : ∀ t, (s.task t).changing = false) (hl : s.listed = some sid)
    (hready : (s.session sid).ready) (hd : d.dataFile = some f)
    (hbytes : d.inode f = (s.session sid).content s.disk) (hsc : d.sidecar = s.disk.sidecar) :
    RecoversUntouched s d := by
  cases hside : s.disk.sidecar with
  | none => exact .inl (recover_unstaged (.inr (hsc.trans hside)))
  | some state =>
    refine .inr ?_
    rw [(recover_staged hd (hsc.trans hside) (hi.durable.named state hside)
      (hi.durable.live (by simp [hl]))).2.2.1, hbytes]
    obtain ⟨last, hs⟩ := hi.safe
    have hvalue : some ((s.session sid).content s.disk) = last := by
      refine hs.value_last (s.item sid) (view_current_item hl) ?_
      simpa [WriteSession.ready, State.item] using hready
    rw [hvalue]
    refine hs.stored (by simp [State.view, hclean]) ?_
    rintro ⟨t, i, ht⟩
    cases (hch t).symm.trans (changing_of_role ht)

end

/-! ## Two runs -/

theorem orderlyRecorded_of {s : State} {e : Nat × Action} (h : e.2.guarded = false := by rfl)
    (hr : e.2 ≠ .refused := by decide) : OrderlyRecorded s e :=
  ⟨orderly_of h, hr⟩

end Bluestone
