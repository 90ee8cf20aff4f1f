/-
# `Bluestone.Staging.StagingFile` — the file of the listed session

The listed session's descriptor should address the file under the path's staging
name.  Two things take the name away from it.  Files unlinked after the manager's
lock is released (by a failed open, a discard before a bucket copy, a recorded
conflict) may be those of a session created since.  And a session no longer listed
still moves its file over the name when it changes while an upload reads it.
`KeepsStagingFile` excludes the two.
-/
import Bluestone.Staging.Conflict
import Bluestone.Staging.Tombstones
import Bluestone.Staging.UploadRuns

namespace Bluestone

open Runs
open State (setSession setDisk rekeySession fresh)

/-- The thread is about to list a session, new or re-keyed. -/
def Task.lists : Task → Bool
  | .opening _ (.lookup _) | .syncing (.recover _) | .copying (.restore _)
  | .renaming (.targetRekey _ _) => true
  | _ => false

/-- The thread removes the files of a session it has unlisted, without the
manager's lock. -/
def Task.unlinks : Task → Bool
  | .persist _ _ next => next.unlinks
  | .discarding _ _ => true
  | .copying (.dropEntry _) | .copying (.close _) | .copying (.removeData _)
  | .copying (.removeSidecar _) => true
  | _ => false

/-- The file a rename has moved onto the name and whose session it is about to
re-key. -/
def Task.movedOnto : Task → Option Nat
  | .persist _ _ next => next.movedOnto
  | .renaming (.targetRekey _ f) => some f
  | _ => none

def RecordPc.unlinks : RecordPc → Bool
  | .close _ _ _ | .removeData _ _ | .removeSidecar _ _ => true
  | _ => false

/-- A rename has the listed session's file, or has put another's in its place. -/
def State.BeingRenamed (s : State) : Prop :=
  s.MovedAway ∨ ∃ t f, (s.task t).movedOnto = some f

/-- The condition on a thread's step, while others outside the path's threads remove
files without the manager's lock (`outside`) or not. -/
structure KeepsName (outside : Prop) (s : State) (t : Nat) (a : Action) : Prop where
  lists : (s.task t).lists = true → ¬ outside ∧ ∀ i, (s.task i).unlinks = false
  changes : a.changesBytes = true → ∀ sid, (s.task t).holds = some sid →
    s.listed = some sid ∨ (s.session sid).uploadReaders = 0
  moves : ∀ i, i ≠ t → (s.task i).movedOnto = none

/-- A recorder removes files without the manager's lock. -/
def Conflicting.Unlinking (c : Conflicting) : Prop := ∃ r, (c.recorder r).unlinks = true

/-- Sessions are listed only while nobody removes files without the manager's lock;
while an upload reads a session's file, it changes only if it is listed; and no one
else works on the path between a rename's move onto it and its re-keying. -/
def KeepsStagingFile (c : Conflicting) : Event → Prop
  | .thread t a => KeepsName c.Unlinking c.state t a
  | .recorder _ => ∀ i, (c.state.task i).movedOnto = none

/-- The invariant of the path. -/
structure Named (outside : Prop) (s : State) : Prop where
  listed : ∀ sid f, s.listed = some sid → (s.session sid).file = some f → ¬ s.MovedAway →
    (∀ i, (s.task i).movedOnto = none) → s.disk.dataFile = some f
  unlinks : ∀ i, (s.task i).unlinks = true → s.listed = none
  outside : outside → s.listed = none
  moved : ∀ i f, (s.task i).movedOnto = some f → s.disk.dataFile = some f

/-- The same listed session and staging file, with sessions closed at most. -/
structure SameName (s s1 : State) : Prop where
  task : s1.task = s.task
  listed : s1.listed = s.listed
  data : s1.disk.dataFile = s.disk.dataFile
  file : ∀ sid f, (s1.session sid).file = some f → (s.session sid).file = some f

section
variable {outside : Prop} {s s' s1 : State} {t sid : Nat} {a : Action} {task : Task}

/-! ## Steps that leave the name alone -/

theorem SameName.refl (s : State) : SameName s s := ⟨rfl, rfl, rfl, fun _ _ => id⟩

theorem sameName_setSession {ws : WriteSession}
    (h : ∀ f, ws.file = some f → (s.session sid).file = some f) : SameName s (s.setSession sid ws) := by
  refine ⟨rfl, rfl, rfl, fun i f hf => ?_⟩
  by_cases hi : i = sid
  · subst hi
    exact h f (by simpa [setSession] using hf)
  · simpa [setSession, Function.update_of_ne hi] using hf

theorem sameName_core {s1 : State} (h : SameCore s s1) : SameName s s1 :=
  ⟨h.task, h.listed, (disk_core_fields h.disk).2.2, fun sid _ hf =>
    (core_fields (h.session sid)).1.symm.trans hf⟩

theorem sameName_reuseSession : SameName s (s.reuseSession sid) := by
  have h : SameName s (s.setSession sid { s.session sid with refCount := (s.session sid).refCount + 1 }) :=
    sameName_setSession fun _ => id
  exact ⟨rfl, rfl, rfl, h.file⟩

theorem sameName_markClean : SameName s s.markClean :=
  ⟨rfl, rfl, samePlace_markClean.data, fun _ _ => id⟩

theorem sameName_closeSnapshot (snap : Snapshot) : SameName s (s.closeSnapshot snap) := by
  unfold State.closeSnapshot
  split
  · exact sameName_setSession fun _ => id
  · exact .refl s

theorem sameName_markDirtyAgain (h : s.markDirtyAgain = some s1) : SameName s s1 := by
  obtain ⟨_, _, _, rfl⟩ := markDirtyAgain_cases h
  exact ⟨rfl, rfl, rfl, fun _ _ => id⟩

theorem task_goto_cases (htask : s1.task = s.task) (t : Nat) (task : Task) (i : Nat) :
    i = t ∧ (s1.goto t task).task i = task ∨ i ≠ t ∧ (s1.goto t task).task i = s.task i := by
  by_cases hi : i = t
  · subst hi
    exact .inl ⟨rfl, by simp [State.goto]⟩
  · exact .inr ⟨hi, goto_other htask hi⟩

theorem movedAway_goto (htask : s1.task = s.task) (haway : (s.task t).movesAway →
    task.movesAway) (h : s.MovedAway) : (s1.goto t task).MovedAway := by
  obtain ⟨i, hi⟩ := h
  refine ⟨i, ?_⟩
  rcases task_goto_cases htask t task i with ⟨rfl, heq⟩ | ⟨_, heq⟩
  · rw [heq]
    exact haway hi
  · rw [heq]
    exact hi

/-- The invariant from what the step did to the name, when no other rename is
between its move and its re-keying. -/
theorem named_goto (hmoves : ∀ i, i ≠ t → (s.task i).movedOnto = none) (htask : s1.task = s.task)
    (hl : ∀ sid f, s1.listed = some sid → (s1.session sid).file = some f →
    s1.disk.dataFile = some f ∨ (s1.goto t task).MovedAway ∨ task.movedOnto ≠ none) (hu : ∀ i, i ≠ t →
    (s.task i).unlinks → s1.listed = none) (hu' : task.unlinks → s1.listed = none)
    (ho : outside → s1.listed = none) (hm : ∀ f, task.movedOnto = some f →
    s1.disk.dataFile = some f) : Named outside (s1.goto t task) := by
  refine ⟨fun sid f hlisted hf hnot hnone => ?_, fun i hi => ?_, ho, fun i f hi => ?_⟩
  · rcases hl sid f hlisted hf with hdata | haway | honto
    · exact hdata
    · exact absurd haway hnot
    · refine absurd ?_ honto
      rw [← hnone t]
      simp [State.goto]
  · rcases task_goto_cases htask t task i with ⟨rfl, heq⟩ | ⟨hne, heq⟩
    · exact hu' (heq ▸ hi)
    · exact hu i hne (heq ▸ hi)
  · rcases task_goto_cases htask t task i with ⟨rfl, heq⟩ | ⟨hne, heq⟩
    · exact hm f (heq ▸ hi)
    · rw [heq, hmoves i hne] at hi
      cases hi

/-- Where an ordinary thread goes: it removes nothing and re-keys nothing. -/
structure Task.Clear (task : Task) : Prop where
  unlinks : task.unlinks = false
  moved : task.movedOnto = none

theorem named_same (hmoves : ∀ i, i ≠ t → (s.task i).movedOnto = none) (hn : Named outside s)
    (hp : SameName s s1) (haway : (s.task t).movesAway → task.movesAway)
    (hu : task.unlinks → s.listed = none) (hm : task.movedOnto = (s.task t).movedOnto) :
    Named outside (s1.goto t task) := by
  refine named_goto hmoves hp.task (fun sid f hl hf => ?_)
    (fun i _ hi => hp.listed.trans (hn.unlinks i hi)) (fun h => hp.listed.trans (hu h))
    (fun h => hp.listed.trans (hn.outside h)) (fun f h => hp.data.trans (hn.moved t f (hm.symm.trans h)))
  by_cases hmoved : s.MovedAway
  · exact .inr (.inl (movedAway_goto hp.task haway hmoved))
  by_cases honto : task.movedOnto = none
  · refine .inl (hp.data.trans ?_)
    refine hn.listed sid f (hp.listed.symm.trans hl) (hp.file sid f hf) hmoved fun i => ?_
    by_cases hi : i = t
    · rw [hi, ← hm]
      exact honto
    · exact hmoves i hi
  · exact .inr (.inr honto)

theorem named_clear (hmoves : ∀ i, i ≠ t → (s.task i).movedOnto = none) (hn : Named outside s)
    (hp : SameName s s1) (hfrom : (s.task t).movedOnto = none) (haway : (s.task t).movesAway = false)
    (hc : task.Clear) : Named outside (s1.goto t task) :=
  named_same hmoves hn hp (fun h => nomatch haway.symm.trans h)
    (fun h => nomatch hc.unlinks.symm.trans h) (hc.moved.trans hfrom.symm)

theorem named_unlisted (hmoves : ∀ i, i ≠ t → (s.task i).movedOnto = none) (htask : s1.task = s.task)
    (hl : s1.listed = none) (hm : task.movedOnto = none) : Named outside (s1.goto t task) :=
  named_goto hmoves htask (fun _ _ h => nomatch hl.symm.trans h) (fun _ _ _ => hl) (fun _ => hl)
    (fun _ => hl) fun _ h => nomatch hm.symm.trans h

theorem named_listed {f : Nat} (hmoves : ∀ i, i ≠ t → (s.task i).movedOnto = none)
    (htask : s1.task = s.task) (hl : s1.listed = some sid) (hf : (s1.session sid).file = some f)
    (hd : s1.disk.dataFile = some f) (hu : ¬ outside ∧ ∀ i, (s.task i).unlinks = false)
    (hc : task.Clear) : Named outside (s1.goto t task) := by
  refine named_goto hmoves htask (fun sid' f' hl' hf' => .inl ?_)
    (fun i _ h => nomatch (hu.2 i).symm.trans h) (fun h => nomatch hc.unlinks.symm.trans h)
    (fun h => absurd h hu.1) fun _ h => nomatch hc.moved.symm.trans h
  obtain rfl := Option.some.inj (hl.symm.trans hl')
  exact hd.trans (hf.symm.trans hf')

/-! ## Steps that change a session's file -/

/-- What a change of the session's bytes does to its descriptor and to the name:
with an upload reading the file the session continues in a new one under the name. -/
structure ChangesName (ws : WriteSession) (d : Disk) (ws' : WriteSession) (d' : Disk) : Prop where
  kept : ws.uploadReaders = 0 → ws'.file = ws.file ∧ ∀ f, d.dataFile = some f → d'.dataFile = some f
  new : ws.uploadReaders ≠ 0 → ∃ f, ws'.file = some f ∧ d'.dataFile = some f

section
variable {ws ws' ws1 : WriteSession} {d d' d1 : Disk}

theorem changesName_detach {keepBytes : Nat}
    (h : ws.detachFromUploadsLocked d keepBytes = some (ws1, d1)) : ChangesName ws d ws1 d1 := by
  rcases detach_cases h with ⟨hzero, rfl, rfl⟩ | ⟨hne, _, _, rfl, rfl⟩
  · exact ⟨fun _ => ⟨rfl, fun _ => id⟩, fun hne => absurd hzero hne⟩
  · exact ⟨fun hzero => absurd hzero hne, fun _ => ⟨_, rfl, rfl⟩⟩

theorem ChangesName.trans (h : ChangesName ws d ws1 d1) (hfile : ws'.file = ws1.file)
    (hdata : ∀ f, d1.dataFile = some f → d'.dataFile = some f) : ChangesName ws d ws' d' := by
  refine ⟨fun hzero => ?_, fun hne => ?_⟩
  · obtain ⟨hf, hd⟩ := h.kept hzero
    exact ⟨hfile.trans hf, fun f hf => hdata f (hd f hf)⟩
  · obtain ⟨f, hf, hd⟩ := h.new hne
    exact ⟨f, hfile.trans hf, hdata f hd⟩

theorem changesName_write {offset : Nat} {data : Bytes} {dropped : Bool}
    (h : ws.write d offset data = some (ws', d', dropped)) : ChangesName ws d ws' d' := by
  obtain ⟨ws1, d1, f, hd, _, rfl, rfl, _⟩ := write_cases h
  exact (changesName_detach hd).trans rfl fun _ => id

theorem changesName_truncate {size : Nat} (h : ws.truncate d size = some (ws', d')) :
    ChangesName ws d ws' d' := by
  obtain ⟨ws1, d1, f, hd, _, rfl, rfl⟩ := truncate_cases h
  exact (changesName_detach hd).trans rfl fun _ => id

theorem downloadToFile_dataFile (body : Bytes) (how : Download) {f : Nat} (h : d.dataFile = some f) :
    (d.downloadToFile body how).dataFile = some f := by
  cases how with
  | refused => exact h
  | brokenOff n | complete => simp [Disk.downloadToFile, Disk.openOrCreate, h, Disk.setInode]

theorem changesName_prefetch {body : Bytes} {how : Download} {ok : Bool}
    (h : ws.prefetch d body how = some (ws', d', ok)) : ChangesName ws d ws' d' := by
  obtain ⟨ws1, d1, hd, hcases⟩ := prefetch_cases h
  have hname := changesName_detach hd
  have hdown : ∀ f, d1.dataFile = some f → (d1.downloadToFile body how).dataFile = some f :=
    fun f => downloadToFile_dataFile body how
  rcases hcases with ⟨-, -, rfl, rfl⟩ | ⟨-, -, rfl, rfl⟩
  · exact hname.trans rfl hdown
  · cases hf : ws'.file <;> exact hname.trans rfl hdown

end

theorem named_changed {ws : WriteSession} {d : Disk} (hmoves : ∀ i, i ≠ t → (s.task i).movedOnto = none)
    (hn : Named outside s) (hfrom : (s.task t).movedOnto = none) (haway : (s.task t).movesAway = false)
    (hc : task.Clear) (hchange : ChangesName (s.session sid) s.disk ws d)
    (hok : s.listed = some sid ∨ (s.session sid).uploadReaders = 0) :
    Named outside (((s.setSession sid ws).setDisk d).goto t task) := by
  have hnone : ∀ i, (s.task i).movedOnto = none := fun i => by
    by_cases hi : i = t
    · rw [hi]
      exact hfrom
    · exact hmoves i hi
  refine named_goto (s := s) hmoves rfl (fun sid' f hl hf => ?_) (fun i _ hi => hn.unlinks i hi)
    (fun h => nomatch hc.unlinks.symm.trans h) hn.outside fun _ h => nomatch hc.moved.symm.trans h
  have hl' : s.listed = some sid' := hl
  by_cases hmoved : s.MovedAway
  · exact .inr (.inl (movedAway_goto rfl (fun h => nomatch haway.symm.trans h) hmoved))
  refine .inl ?_
  show d.dataFile = some f
  by_cases hzero : (s.session sid).uploadReaders = 0
  · obtain ⟨hfile, hdata⟩ := hchange.kept hzero
    refine hdata f (hn.listed sid' f hl' ?_ hmoved hnone)
    by_cases hsid : sid' = sid
    · subst hsid
      rw [← hfile]
      simpa [setSession, setDisk] using hf
    · simpa [setSession, setDisk, Function.update_of_ne hsid] using hf
  · obtain rfl : sid = sid' := Option.some.inj ((hok.resolve_right hzero).symm.trans hl')
    obtain ⟨f', hfile, hdata⟩ := hchange.new hzero
    have hff : ws.file = some f := by simpa [setSession, setDisk] using hf
    rw [hdata, ← hfile, hff]

/-! ## What each step keeps -/

theorem afterExists_clear (fl : OpenFlags) (sid : Nat) : (afterExists fl sid).Clear :=
  afterExists_at (P := Task.Clear) ⟨rfl, rfl⟩ ⟨rfl, rfl⟩

theorem afterMissing_clear (fl : OpenFlags) (sid : Nat) : (afterMissing fl sid).Clear :=
  afterMissing_at (P := Task.Clear) ⟨rfl, rfl⟩ (afterExists_clear fl sid)

theorem persistIf_clear {changed : Bool} (h : task.Clear) : (persistIf changed sid task).Clear := by
  cases changed with
  | false => exact h
  | true => exact ⟨h.unlinks, h.moved⟩

theorem newWriteSession_named (d : Disk) (path : String) (sidecarOk : Bool) :
    ∃ f, (newWriteSession d path sidecarOk).1.file = some f ∧
    (newWriteSession d path sidecarOk).2.dataFile = some f := by
  have hensure : ∀ d' : Disk, (d'.ensurePathMetadata path).dataFile = d'.dataFile := fun d' => by
    unfold Disk.ensurePathMetadata
    split
    · split <;> rfl
    · rfl
  refine ⟨d.openOrCreate.1, rfl, ?_⟩
  have hopen : d.openOrCreate.2.dataFile = some d.openOrCreate.1 := by
    unfold Disk.openOrCreate
    split
    · assumption
    · rfl
  unfold newWriteSession
  dsimp only
  split
  · exact (hensure _).trans hopen
  · exact hopen

theorem OpenStep.keepsName (h : OpenStep s t a s') (hok : KeepsName outside s t a) (hn : Named outside s) :
    Named outside s' := by
  cases h with
  | reuse ht _ =>
    exact named_clear hok.moves hn sameName_reuseSession (by rw [ht]; rfl) (by rw [ht]; rfl)
      ⟨rfl, rfl⟩
  | @create fl pd sidecarOk ht _ =>
    obtain ⟨f, hf, hd⟩ := newWriteSession_named s.disk s.path sidecarOk
    exact named_listed (s := s) hok.moves rfl rfl (by simpa [State.createSession] using hf) hd
      (hok.lists (by rw [ht]; rfl)) ⟨rfl, rfl⟩
  | known ht _ =>
    exact named_clear hok.moves hn (.refl s) (by rw [ht]; rfl) (by rw [ht]; rfl)
      (afterExists_clear _ _)
  | statMissing ht _ | statErrorTrunc ht _ =>
    exact named_clear hok.moves hn (.refl s) (by rw [ht]; rfl) (by rw [ht]; rfl)
      (afterMissing_clear _ _)
  | acquire ht _ _ =>
    exact named_clear hok.moves hn (sameName_setSession fun _ => id) (by rw [ht]; rfl)
      (by rw [ht]; rfl) ⟨rfl, rfl⟩
  | @seed fl sid attrs ht =>
    refine named_clear hok.moves hn
      (sameName_core (sameCore_setSession (seedAttributes_core _ _))) (by rw [ht]; rfl)
      (by rw [ht]; rfl) (persistIf_clear ?_)
    unfold afterSeed
    split <;> exact ⟨rfl, rfl⟩
  | creation ht =>
    exact named_clear hok.moves hn
      (sameName_core (sameCore_setSession (setCreationIfUnset_core _ _ _))) (by rw [ht]; rfl)
      (by rw [ht]; rfl) (persistIf_clear (afterExists_clear _ _))
  | fetched ht _ _ hp | fetchFailed ht _ _ hp =>
    exact named_changed hok.moves hn (by rw [ht]; rfl) (by rw [ht]; rfl) ⟨rfl, rfl⟩
      (changesName_prefetch hp) (hok.changes rfl _ (by rw [ht]; rfl))
  | truncate ht hp =>
    exact named_changed hok.moves hn (by rw [ht]; rfl) (by rw [ht]; rfl) ⟨rfl, rfl⟩
      (changesName_truncate hp) (hok.changes rfl _ (by rw [ht]; rfl))
  | refuseKept ht _ | release ht =>
    exact named_clear hok.moves hn (sameName_core sameCore_releaseSession) (by rw [ht]; rfl)
      (by rw [ht]; rfl) ⟨rfl, rfl⟩
  | refuseDiscard ht _ _ =>
    exact named_unlisted hok.moves sameCore_releaseSession.task rfl rfl
  | discardClose ht | discardData ht | discardSidecar ht =>
    exact named_unlisted (s := s) hok.moves rfl (hn.unlinks t (by rw [ht]; rfl)) rfl
  | _ => exact named_clear hok.moves hn (.refl s) (by rw [‹s.task t = _›]; rfl)
          (by rw [‹s.task t = _›]; rfl) ⟨rfl, rfl⟩

theorem HandleStep.keepsName (h : HandleStep s t a s') (hok : KeepsName outside s t a) (hn : Named outside s) :
    Named outside s' := by
  cases h with
  | write ht hp =>
    exact named_changed hok.moves hn (by rw [ht]; rfl) (by rw [ht]; rfl)
      (persistIf_clear ⟨rfl, rfl⟩) (changesName_write hp) (hok.changes rfl _ (by rw [ht]; rfl))
  | truncate ht hp =>
    exact named_changed hok.moves hn (by rw [ht]; rfl) (by rw [ht]; rfl) ⟨rfl, rfl⟩
      (changesName_truncate hp) (hok.changes rfl _ (by rw [ht]; rfl))
  | close ht | closeReading ht =>
    exact named_clear hok.moves hn (sameName_core sameCore_releaseSession) (by rw [ht]; rfl)
      (by rw [ht]; rfl) ⟨rfl, rfl⟩

theorem MarkStep.keepsName (h : MarkStep s t a s') (hok : KeepsName outside s t a) (hn : Named outside s) :
    Named outside s' := by
  cases h with
  | again ht hm | recordedMeanwhile ht hm =>
    exact named_clear hok.moves hn (sameName_markDirtyAgain hm) (by rw [ht]; rfl)
      (by rw [ht]; rfl) ⟨rfl, rfl⟩
  | record ht _ =>
    have hcore := sameName_core (sameCore_record (s := s) ‹_› ‹_›)
    exact named_clear hok.moves hn ⟨hcore.task, hcore.listed, hcore.data, hcore.file⟩
      (by rw [ht]; rfl) (by rw [ht]; rfl) ⟨rfl, rfl⟩
  | @recordFailed _ sid opens found attrs ht hm =>
    refine named_clear hok.moves hn ⟨rfl, rfl, rfl, fun _ _ => id⟩ (by rw [ht]; rfl)
      (by rw [ht]; rfl) ?_
    cases opens <;> exact ⟨rfl, rfl⟩
  | _ => exact named_clear hok.moves hn (.refl s) (by rw [‹s.task t = _›]; rfl)
          (by rw [‹s.task t = _›]; rfl) ⟨rfl, rfl⟩

theorem named_persist {pc : PersistPc} {next : Task} (hok : KeepsName outside s t a) (hn : Named outside s)
    (hp : SameName s s1) (ht : s.task t = .persist sid pc next) (hu : task.unlinks = next.unlinks)
    (hm : task.movedOnto = next.movedOnto) : Named outside (s1.goto t task) := by
  refine named_same hok.moves hn hp (by rw [ht]; exact nofun) (fun h => hn.unlinks t ?_) ?_
  · rw [ht]
    exact hu.symm.trans h
  · rw [ht]
    exact hm

theorem PersistStep.keepsName (h : PersistStep s t a s') (hok : KeepsName outside s t a) (hn : Named outside s) :
    Named outside s' := by
  cases h with
  | copy ht =>
    split
    all_goals exact named_persist hok hn (.refl s) ht rfl rfl
  | write ht _ => exact named_persist hok hn ⟨rfl, rfl, rfl, fun _ _ => id⟩ ht rfl rfl
  | skip ht => exact named_persist hok hn (.refl s) ht rfl rfl
  | changed ht => exact named_persist hok hn (sameName_setSession fun _ => id) ht rfl rfl

theorem SyncStep.keepsName (h : SyncStep s t a s') (hok : KeepsName outside s t a) (hn : Named outside s) :
    Named outside s' := by
  cases h with
  | @recover size sidecarOk ht _ =>
    obtain ⟨f, hf, hd⟩ := newWriteSession_named s.disk s.path sidecarOk
    refine named_listed (s := s) hok.moves rfl rfl ?_ hd (hok.lists (by rw [ht]; rfl)) ⟨rfl, rfl⟩
    have hrec : (s.recoveredSession sidecarOk size).file = some f := by
      unfold State.recoveredSession
      dsimp only
      split
      · split <;> exact hf
      · exact hf
    simpa [State.recoverSession] using hrec
  | synced ht _ =>
    exact named_clear hok.moves hn sameName_markClean (by rw [ht]; rfl) (by rw [ht]; rfl)
      ⟨rfl, rfl⟩
  | snapshot ht _ _ =>
    exact named_clear hok.moves hn (sameName_setSession fun _ => id) (by rw [ht]; rfl)
      (by rw [ht]; rfl) ⟨rfl, rfl⟩
  | cleanup ht _ => exact named_unlisted (s := s) hok.moves rfl rfl rfl
  | closeRemoved ht =>
    exact named_clear hok.moves hn (sameName_setSession (fun _ h => by cases h)) (by rw [ht]; rfl)
      (by rw [ht]; rfl) ⟨rfl, rfl⟩
  | close ht =>
    exact named_clear hok.moves hn (sameName_closeSnapshot _) (by rw [ht]; rfl)
      (by rw [ht]; rfl) ⟨rfl, rfl⟩
  | _ => exact named_clear hok.moves hn ⟨rfl, rfl, rfl, fun _ _ => id⟩
          (by rw [‹s.task t = _›]; rfl) (by rw [‹s.task t = _›]; rfl) ⟨rfl, rfl⟩

theorem AttrStep.keepsName (h : AttrStep s t a s') (hok : KeepsName outside s t a) (hn : Named outside s) :
    Named outside s' := by
  cases h with
  | setter ht _ =>
    exact named_clear hok.moves hn (sameName_setSession fun _ => id) (by rw [ht]; rfl)
      (by rw [ht]; rfl) ⟨rfl, rfl⟩
  | _ => exact named_clear hok.moves hn ⟨rfl, rfl, rfl, fun _ _ => id⟩
          (by rw [‹s.task t = _›]; rfl) (by rw [‹s.task t = _›]; rfl) ⟨rfl, rfl⟩

theorem CommitStep.keepsName (h : CommitStep s t a s') (hok : KeepsName outside s t a) (hn : Named outside s) :
    Named outside s' := by
  cases h with
  | metadata ht =>
    exact named_clear hok.moves hn (sameName_core sameCore_commitPathMetadata) (by rw [ht]; rfl)
      (by rw [ht]; rfl) ⟨rfl, rfl⟩
  | committed ht =>
    exact named_clear hok.moves hn (sameName_setSession fun _ => id) (by rw [ht]; rfl)
      (by rw [ht]; rfl) ⟨rfl, rfl⟩
  | _ => exact named_clear hok.moves hn ⟨rfl, rfl, rfl, fun _ _ => id⟩
          (by rw [‹s.task t = _›]; rfl) (by rw [‹s.task t = _›]; rfl) ⟨rfl, rfl⟩

theorem RemoveStep.keepsName (h : RemoveStep s t a s') (hok : KeepsName outside s t a) (hn : Named outside s) :
    Named outside s' := by
  cases h with
  | discardSession ht _ _ _ | cleanupRemove ht _ _ =>
    exact named_unlisted (s := s) hok.moves rfl rfl rfl
  | closeDiscarded ht | closeRemoved ht =>
    exact named_clear hok.moves hn (sameName_setSession nofun) (by rw [ht]; rfl)
      (by rw [ht]; rfl) ⟨rfl, rfl⟩
  | _ => exact named_clear hok.moves hn ⟨rfl, rfl, rfl, fun _ _ => id⟩
          (by rw [‹s.task t = _›]; rfl) (by rw [‹s.task t = _›]; rfl) ⟨rfl, rfl⟩

theorem DeleteStep.keepsName (h : DeleteStep s t a s') (hok : KeepsName outside s t a) (hn : Named outside s) :
    Named outside s' := by
  cases h with
  | discardSession ht _ _ _ => exact named_unlisted (s := s) hok.moves rfl rfl rfl
  | closeRemoved ht =>
    exact named_clear hok.moves hn (sameName_setSession nofun) (by rw [ht]; rfl)
      (by rw [ht]; rfl) ⟨rfl, rfl⟩
  | _ => exact named_clear hok.moves hn ⟨rfl, rfl, rfl, fun _ _ => id⟩
          (by rw [‹s.task t = _›]; rfl) (by rw [‹s.task t = _›]; rfl) ⟨rfl, rfl⟩

theorem afterTarget_clear (claimed : Bool) : (afterTarget claimed).Clear := by
  cases claimed <;> exact ⟨rfl, rfl⟩

theorem sameName_invalidate : SameName s s.invalidate := by
  unfold State.invalidate
  split <;> exact ⟨rfl, rfl, rfl, fun _ _ => id⟩

theorem named_rekey {f : Nat} {moved : Option WriteSession} (hok : KeepsName outside s t a) (hn : Named outside s)
    (hl : (s.task t).lists) (hm : (s.task t).movedOnto = some f) (hfile : ∀ ws, moved = some ws →
    ws.file = some f) (hc : task.Clear) : Named outside ((s.rekeySession moved).goto t task) := by
  have htask : (s.rekeySession moved).task = s.task := by
    unfold rekeySession
    cases s.listed <;> cases moved <;> rfl
  have hdata : (s.rekeySession moved).disk.dataFile = some f := by
    refine Eq.trans ?_ (hn.moved t f hm)
    unfold rekeySession
    cases s.listed <;> cases moved <;> rfl
  cases moved with
  | none => exact named_unlisted hok.moves htask rfl hc.moved
  | some ws =>
    refine named_listed hok.moves htask rfl ?_ hdata (hok.lists hl) hc
    refine Eq.trans ?_ (hfile ws rfl)
    simp [rekeySession]

theorem RenameStep.keepsName (h : RenameStep s t a s') (hok : KeepsName outside s t a) (hn : Named outside s) :
    Named outside s' := by
  cases h with
  | sourceMoved ht _ =>
    refine named_goto (s := s) hok.moves rfl (fun _ _ _ _ => .inr (.inl ⟨t, ?_⟩))
      (fun i _ hi => hn.unlinks i hi) (fun h => by cases h) hn.outside (fun _ h => by cases h)
    simp [State.goto, Task.movesAway]
  | sourceTombstone ht | sourceTombstoneFailed ht | sourceSidecar ht =>
    exact named_same hok.moves hn ⟨rfl, rfl, rfl, fun _ _ => id⟩ (fun _ => rfl) (fun h => by cases h)
      (by rw [ht]; rfl)
  | sourceRekey ht | destinationCleanupRemove ht _ _ => exact named_unlisted (s := s) hok.moves rfl rfl rfl
  | targetSidecar ht =>
    have hp := sameName_invalidate (s := s)
    exact named_clear hok.moves hn ⟨hp.task, hp.listed, rfl, hp.file⟩ (by rw [ht]; rfl)
      (by rw [ht]; rfl) ⟨rfl, rfl⟩
  | targetSidecarFailed ht =>
    exact named_clear hok.moves hn sameName_invalidate (by rw [ht]; rfl) (by rw [ht]; rfl)
      (afterTarget_clear _)
  | targetMoved ht =>
    refine named_goto (s := s) hok.moves rfl (fun _ _ _ _ => .inr (.inr ?_))
      (fun i _ hi => hn.unlinks i hi) (fun h => by cases h) hn.outside fun f hf => ?_
    · intro h
      cases h
    · obtain rfl := Option.some.inj hf
      rfl
  | targetMoveFailed ht | targetEntry ht =>
    exact named_clear hok.moves hn ⟨rfl, rfl, rfl, fun _ _ => id⟩ (by rw [ht]; rfl)
      (by rw [ht]; rfl) (afterTarget_clear _)
  | targetRekey ht hfile =>
    exact named_rekey hok hn (by rw [ht]; rfl) (by rw [ht]; rfl) hfile ⟨rfl, rfl⟩
  | destinationClose ht =>
    exact named_clear hok.moves hn (sameName_setSession (fun _ h => by cases h)) (by rw [ht]; rfl)
      (by rw [ht]; rfl) ⟨rfl, rfl⟩
  | _ => exact named_clear hok.moves hn ⟨rfl, rfl, rfl, fun _ _ => id⟩
          (by rw [‹s.task t = _›]; rfl) (by rw [‹s.task t = _›]; rfl) ⟨rfl, rfl⟩

theorem CopyStep.keepsName (h : CopyStep s t a s') (hok : KeepsName outside s t a) (hn : Named outside s) :
    Named outside s' := by
  cases h with
  | discard ht _ _ _ => exact named_unlisted (s := s) hok.moves rfl rfl rfl
  | dropEntry ht | close ht | removeData ht | removeSidecar ht =>
    exact named_unlisted (s := s) hok.moves rfl (hn.unlinks t (by rw [ht]; rfl)) rfl
  | @copied claimed discarded ht =>
    refine named_clear hok.moves hn (.refl s) (by rw [ht]; rfl) (by rw [ht]; rfl) ?_
    cases claimed <;> exact ⟨rfl, rfl⟩
  | @restore discarded sidecarOk ht _ =>
    obtain ⟨f, hf, hd⟩ := newWriteSession_named s.disk s.path sidecarOk
    refine named_listed (s := s) (f := f) hok.moves rfl rfl ?_ ?_ (hok.lists (by rw [ht]; rfl))
      ⟨rfl, rfl⟩
    · simpa [State.restoreSession, WriteSession.setAttributes] using hf
    · simpa [State.restoreSession, WriteSession.setAttributes, hf, Disk.setInode] using hd
  | restoreMark ht =>
    exact named_clear hok.moves hn ⟨rfl, rfl, recordDirtyPath_dataFile _ _ _, fun _ _ => id⟩ (by rw [ht]; rfl)
      (by rw [ht]; rfl) ⟨rfl, rfl⟩
  | _ => exact named_clear hok.moves hn ⟨rfl, rfl, rfl, fun _ _ => id⟩
          (by rw [‹s.task t = _›]; rfl) (by rw [‹s.task t = _›]; rfl) ⟨rfl, rfl⟩

theorem NameStep.keepsName {names : NameActor → Prop} (h : NameStep names s (t, a) s')
    (hok : KeepsName outside s t a) (hn : Named outside s) : Named outside s' := by
  cases h with
  | base hstep _ =>
    cases hstep with
    | actor _ hactor =>
      cases hactor with
      | opens h | handles h | marks h | persists h | syncs h | attributes h | commits h => exact h.keepsName hok hn
    | elsewhere _ => exact ⟨hn.listed, hn.unlinks, hn.outside, hn.moved⟩
  | removes _ h | deletes _ h | renames _ h | copies _ h => exact h.keepsName hok hn

/-! ## Recorders -/

variable {names : NameActor → Prop} {c c' : Conflicting} {r : Nat} {pc : RecordPc}

theorem unlinking_goto (h : (c.goto r pc).Unlinking) : pc.unlinks ∨ c.Unlinking := by
  obtain ⟨i, hi⟩ := h
  by_cases hr : i = r
  · subst hr
    exact .inl (by simpa [Conflicting.goto] using hi)
  · exact .inr ⟨i, by simpa [Conflicting.goto, Function.update_of_ne hr] using hi⟩

theorem named_none (hl : s.listed = none) (hm : ∀ i, (s.task i).movedOnto = none) : Named outside s := by
  refine ⟨fun _ _ h => ?_, fun _ _ => hl, fun _ => hl, fun i _ h => ?_⟩
  · exact nomatch hl.symm.trans h
  · exact nomatch (hm i).symm.trans h

theorem named_recorder (hn : Named c.Unlinking c.state) (hpc : pc.unlinks = false) :
    Named (c.goto r pc).Unlinking (c.goto r pc).state := by
  refine ⟨hn.listed, hn.unlinks, fun h => hn.outside ?_, hn.moved⟩
  exact (unlinking_goto h).resolve_left (by simp [hpc])

theorem RecordStep.keepsName {renames : Prop} (h : RecordStep renames c r c')
    (hok : ∀ i, (c.state.task i).movedOnto = none) (hn : Named c.Unlinking c.state) :
    Named c'.Unlinking c'.state := by
  cases h with
  | unlist hr => exact named_none rfl hok
  | close hr => exact named_none (hn.outside ⟨r, by rw [hr]; rfl⟩) hok
  | @removeData here preserved hr | @removeSidecar here preserved hr =>
    have hl := hn.outside ⟨r, by rw [hr]; rfl⟩
    cases here with
    | false | true => exact named_none hl hok
  | mark hr =>
    have hgoto : Named (c.goto r .done).Unlinking (c.goto r .done).state := named_recorder hn rfl
    exact ⟨hgoto.listed, hgoto.unlinks, hgoto.outside, hgoto.moved⟩
  | _ => exact named_recorder hn rfl

theorem ConflictStep.keepsName {e : Event} (h : (namespaceConflicts names).step c e c')
    (hok : KeepsStagingFile c e) (hn : Named c.Unlinking c.state) : Named c'.Unlinking c'.state := by
  cases h with
  | thread hstep _ | record _ hstep => exact hstep.keepsName hok hn
  | openConflicted _ ht | markConflicted _ ht | restoreConflicted _ ht =>
    exact named_clear hok.moves hn (.refl _) (by rw [ht]; rfl) (by rw [ht]; rfl) ⟨rfl, rfl⟩
  | recordConflicted _ ht =>
    exact named_clear hok.moves hn (sameName_core (sameCore_record _ _)) (by rw [ht]; rfl)
      (by rw [ht]; rfl) ⟨rfl, rfl⟩
  | @recordConflictedFailed t sid opens found attrs _ ht =>
    refine named_clear hok.moves hn (.refl _) (by rw [ht]; rfl) (by rw [ht]; rfl) ?_
    cases opens <;> exact ⟨rfl, rfl⟩

theorem Init.named (h : Init s) (hout : ¬ outside) : Named outside s := by
  refine ⟨fun sid f hl hf _ _ => ?_, fun i hi => ?_, fun ho => absurd ho hout, fun i f hi => ?_⟩
  · obtain ⟨f', hf', hd⟩ := h.safe.2.listed sid hl
    rw [hd, ← hf', hf]
  all_goals
    rw [h.task_idle i] at hi
    exact nomatch hi

/-- In every run that keeps the staging file: a listed session that is open and is
not being renamed has its own file under its staging name, and no one who removes
files without the manager's lock does so while a session is listed. -/
theorem listed_session_has_staging_file (hr : Reach (namespaceConflicts names) KeepsStagingFile c) :
    (∀ sid f, c.state.listed = some sid → (c.state.session sid).file = some f → ¬ c.state.BeingRenamed →
    c.state.disk.dataFile = some f) ∧ ((∃ t, (c.state.task t).unlinks = true) ∨ c.Unlinking →
    c.state.listed = none) := by
  have hn : Named c.Unlinking c.state := by
    refine Reach.invariant (I := fun c => Named c.Unlinking c.state) (fun c hinit => ?_)
      (fun c e c' hn hok hstep => ConflictStep.keepsName hstep hok hn) hr
    obtain ⟨hinit, _, hidle⟩ := hinit
    refine hinit.named ?_
    rintro ⟨i, hi⟩
    rw [hidle i] at hi
    exact nomatch hi
  refine ⟨fun sid f hl hf hnot => ?_, fun h => ?_⟩
  · refine hn.listed sid f hl hf (fun h => hnot (.inl h)) fun i => ?_
    cases hi : (c.state.task i).movedOnto with
    | none => rfl
    | some f' => exact absurd (.inr ⟨i, f', hi⟩) hnot
  · rcases h with ⟨t, ht⟩ | h
    · exact hn.unlinks t ht
    · exact hn.outside h

theorem reach_fresh {ok : Conflicting → Event → Prop} :
    Reach (namespaceConflicts names) ok fresh.unconflicted :=
  .init ⟨fresh_init, rfl, fun _ => rfl⟩

/-- An open fails because the object store cannot answer and unlists its session;
before it removes the files another open lists a session over them. -/
theorem staging_file_unlinked : ∃ c, Reach (namespaceConflicts fun _ => False) always c ∧
    ¬ c.state.BeingRenamed ∧ c.state.listed = some 1 ∧ (c.state.session 1).file = some 0 ∧
    c.state.disk.dataFile = none := by
  have h : Reach (namespaceConflicts fun _ => False) always fresh.unconflicted := reach_fresh
  have h := reach_thread h rfl (@OpenStep.begin _ 0 .keeping rfl (by decide)).named trivial
  have h := reach_thread h rfl (@OpenStep.create _ 0 .keeping false true rfl rfl).named trivial
  have h := reach_thread h rfl (@OpenStep.unknown _ 0 .keeping false 0 rfl rfl).named trivial
  have h := reach_thread h rfl (@OpenStep.statError _ 0 .keeping 0 rfl rfl).named trivial
  have h := reach_thread h rfl (@OpenStep.refuseDiscard _ 0 .keeping 0 0 rfl rfl rfl).named trivial
  have h := reach_thread h rfl (@OpenStep.begin _ 1 .keeping rfl (by decide)).named trivial
  have h := reach_thread h rfl (@OpenStep.create _ 1 .keeping false true rfl rfl).named trivial
  have h := reach_thread h rfl (@OpenStep.discardClose _ 0 0 rfl).named trivial
  have h := reach_thread h rfl (@OpenStep.discardData _ 0 0 rfl).named trivial
  refine ⟨_, h, ?_, rfl, rfl, rfl⟩
  rintro (⟨i, hi⟩ | ⟨i, f, hi⟩)
  all_goals
    match i with
    | 0 | 1 | _ + 2 => exact nomatch hi

/-- An open that fails has removed its files before the next one lists its session. -/
theorem created_session_has_staging_file :
    ∃ c, Reach (namespaceConflicts fun _ => False) KeepsStagingFile c ∧ c.state.listed = some 1 ∧
    c.state.disk.dataFile = some 1 := by
  have h : Reach (namespaceConflicts fun _ => False) KeepsStagingFile fresh.unconflicted := reach_fresh
  have h := reach_thread h rfl (@OpenStep.begin _ 0 .keeping rfl (by decide)).named
    ⟨nofun, nofun, fun _ _ => rfl⟩
  have h := reach_thread h rfl (@OpenStep.create _ 0 .keeping false true rfl rfl).named
    ⟨fun _ => ⟨nofun, fun i => by cases i <;> rfl⟩, nofun, fun i _ => by cases i <;> rfl⟩
  have h := reach_thread h rfl (@OpenStep.unknown _ 0 .keeping false 0 rfl rfl).named
    ⟨nofun, nofun, fun i _ => by cases i <;> rfl⟩
  have h := reach_thread h rfl (@OpenStep.statError _ 0 .keeping 0 rfl rfl).named
    ⟨nofun, nofun, fun i _ => by cases i <;> rfl⟩
  have h := reach_thread h rfl (@OpenStep.refuseDiscard _ 0 .keeping 0 0 rfl rfl rfl).named
    ⟨nofun, nofun, fun i _ => by cases i <;> rfl⟩
  have h := reach_thread h rfl (@OpenStep.discardClose _ 0 0 rfl).named
    ⟨nofun, nofun, fun i _ => by cases i <;> rfl⟩
  have h := reach_thread h rfl (@OpenStep.discardData _ 0 0 rfl).named
    ⟨nofun, nofun, fun i _ => by cases i <;> rfl⟩
  have h := reach_thread h rfl (@OpenStep.discardSidecar _ 0 0 rfl).named
    ⟨nofun, nofun, fun i _ => by cases i <;> rfl⟩
  have h := reach_thread h rfl (@OpenStep.begin _ 0 .keeping rfl (by decide)).named
    ⟨nofun, nofun, fun i _ => by cases i <;> rfl⟩
  have h := reach_thread h rfl (@OpenStep.create _ 0 .keeping false true rfl rfl).named
    ⟨fun _ => ⟨nofun, fun i => by cases i <;> rfl⟩, nofun, fun i _ => by cases i <;> rfl⟩
  refine ⟨_, h, rfl, (listed_session_has_staging_file h).1 1 1 rfl rfl ?_⟩
  rintro (⟨i, hi⟩ | ⟨i, f, hi⟩)
  all_goals cases i <;> exact nomatch hi

end

end Bluestone
