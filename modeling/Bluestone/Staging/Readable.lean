/-
# `Bluestone.Staging.Readable` — what an open does to the bytes already there

Every byte a write put into a file should stay readable until a later write
covers it or a truncation cuts it off.  It does when every prefetch that runs its
download finds its session without changes.  The code does not see to that:
whether to prefetch is decided from flags read before the `Stat` round trip, and
`Prefetch` itself asks only whether the session has been prefetched
(`prefetch_replaces_written`).

Uploads are not part of the system here; attribute changes and commits are.
-/
import Bluestone.Staging.Holders

namespace Bluestone

open Function Runs
open State (setSession setDisk fresh)

/-- The bytes that writes have put into the file and nothing has cut off since. -/
abbrev WrittenBytes := Nat → Option UInt8

/-- What one step does to the written bytes. -/
def WrittenBytes.after (written : WrittenBytes) : Action → WrittenBytes
  | .write offset data => fun i =>
    if offset ≤ i ∧ i < offset + data.length then data[i - offset]? else written i
  | .truncate size => fun i => if i < size then written i else none
  | _ => written

/-- The system with the written bytes as its history. -/
def systemWithWritten (actors : Actor → Prop) : System (State × WrittenBytes) (Nat × Action) :=
  (system actors).track (fun _ _ => none) fun _ e _ written => written.after e.2

/-- Every written byte is read through the listed session, and nobody holds
another one. -/
def Readable (p : State × WrittenBytes) : Prop :=
  ∀ i b, p.2 i = some b → ∃ sid, p.1.listed = some sid ∧ ((p.1.session sid).content p.1.disk)[i]? = some b ∧
    ∀ t sid', (p.1.task t).holds = some sid' → sid' = sid

/-- A prefetch runs its download only on a session without changes. -/
def prefetchesUnchanged : Condition := fun s e =>
  ∀ how fl sid, e.2 = .fetch how → s.task e.1 = .opening fl (.prefetch sid) → (s.session sid).dirty = false

/-- Everyone but the sync workers. -/
def withoutSyncs (a : Actor) : Prop := a ≠ .syncs

/-! ## Steps that leave the bytes alone -/

/-- A listed session with changes stays listed, changed, and reads the same. -/
def Undisturbed (s s' : State) : Prop :=
  ∀ sid, s.listed = some sid → (s.session sid).dirty = true →
    s'.listed = some sid ∧ (s'.session sid).dirty = true ∧
      (s'.session sid).content s'.disk = (s.session sid).content s.disk

section
variable {s s' s'' : State} {t sid : Nat}

theorem Undisturbed.refl (s : State) : Undisturbed s s := fun _ hl hd => ⟨hl, hd, rfl⟩

theorem Undisturbed.trans (h : Undisturbed s s') (h' : Undisturbed s' s'') : Undisturbed s s'' := by
  intro sid hl hd
  obtain ⟨hl', hd', hc'⟩ := h sid hl hd
  obtain ⟨hl'', hd'', hc''⟩ := h' sid hl' hd'
  exact ⟨hl'', hd'', hc''.trans hc'⟩

theorem undisturbed_of_none (h : s.listed = none) : Undisturbed s s' :=
  fun _ hl _ => nomatch h.symm.trans hl

variable {ws : WriteSession} {d : Disk} {task : Task}

theorem undisturbed_setSession (sid : Nat) (hf : ws.file = (s.session sid).file)
    (hsize : ws.size = (s.session sid).size)
    (hd : (s.session sid).dirty → ws.dirty) : Undisturbed s (s.setSession sid ws) := by
  intro i hl hdi
  refine ⟨hl, ?_⟩
  by_cases hi : i = sid
  · subst hi
    simp only [setSession, update_self, WriteSession.content, hf, hsize]
    exact ⟨hd hdi, trivial⟩
  · simp only [setSession, update_of_ne hi]
    exact ⟨hdi, trivial⟩

theorem undisturbed_setSession_of_ne (h : s.listed ≠ some sid) :
    Undisturbed s (s.setSession sid ws) := by
  intro i hl hd
  have hi : i ≠ sid := fun hi => h (hi ▸ hl)
  simp only [setSession, update_of_ne hi]
  exact ⟨hl, hd, trivial⟩

theorem undisturbed_setDisk (h : d.inode = s.disk.inode) : Undisturbed s (s.setDisk d) := by
  intro i hl hd
  refine ⟨hl, hd, ?_⟩
  simp only [setDisk, WriteSession.content, h]

theorem undisturbed_releaseSession : Undisturbed s s.releaseSession := by
  unfold State.releaseSession
  cases s.listed with
  | none => exact .refl s
  | some sid => exact undisturbed_setSession sid rfl rfl id

theorem undisturbed_metadataChanged {found : Option Nat} : Undisturbed s (s.metadataChanged found) := by
  cases found with
  | none => exact .refl s
  | some sid => exact undisturbed_setSession sid rfl rfl id

theorem undisturbed_markDirtyAgain (h : s.markDirtyAgain = some s') : Undisturbed s s' := by
  obtain ⟨_, _, _, rfl⟩ := markDirtyAgain_cases h
  exact fun _ hl hd => ⟨hl, hd, rfl⟩

@[simp] theorem recordDirtyPath_inode (d : Disk) (path : String) (attrs : Option StagedAttributes) :
    (d.recordDirtyPath path attrs).inode = d.inode := by
  unfold Disk.recordDirtyPath
  split <;> rfl

/-! ## What one step does -/

/-- The written bytes are in the listed session, which has changes. -/
def Kept (s : State) (written : WrittenBytes) : Prop :=
  ∀ i b, written i = some b → ∃ sid, s.listed = some sid ∧ (s.session sid).dirty = true ∧
    ((s.session sid).content s.disk)[i]? = some b

variable {written : WrittenBytes} {a : Action}

theorem Kept.undisturbed (h : Kept s written) (hs : Undisturbed s s') : Kept s' written := by
  intro i b hb
  obtain ⟨sid, hl, hd, hc⟩ := h i b hb
  obtain ⟨hl', hd', hc'⟩ := hs sid hl hd
  exact ⟨sid, hl', hd', hc' ▸ hc⟩

theorem Kept.goto (h : Kept s written) : Kept (s.goto t task) written := h

theorem listed_of_holds (hs : s.slot.Sound) (h : (s.task t).holds = some sid :=
    by rw [‹State.task _ _ = _›]; rfl) : s.listed = some sid := hs.holds_current t sid h

theorem Kept.write {offset : Nat} {data : Bytes} {dropped : Bool} (h : Kept s written)
    (hl : s.listed = some sid) (hw : (s.session sid).write s.disk offset data = some (ws, d, dropped)) :
    Kept (((s.setSession sid ws).setDisk d).goto t task) (written.after (.write offset data)) := by
  intro i b hb
  refine ⟨sid, hl, ?_⟩
  simp only [State.goto, setDisk, setSession, update_self]
  refine ⟨write_dirty hw, ?_⟩
  simp only [WrittenBytes.after] at hb
  by_cases hin : offset ≤ i ∧ i < offset + data.length
  · rw [if_pos hin] at hb
    exact write_content_of_mem hw hin.1 hb
  · rw [if_neg hin] at hb
    obtain ⟨sid', hl', _, hc⟩ := h i b hb
    obtain rfl : sid' = sid := Option.some.inj (hl'.symm.trans hl)
    exact write_content_of_lt hw (by omega) hc

theorem Kept.truncate {size : Nat} (h : Kept s written)
    (hl : s.listed = some sid) (hw : (s.session sid).truncate s.disk size = some (ws, d)) :
    Kept (((s.setSession sid ws).setDisk d).goto t task) (written.after (.truncate size)) := by
  intro i b hb
  refine ⟨sid, hl, ?_⟩
  simp only [State.goto, setDisk, setSession, update_self]
  refine ⟨truncate_dirty hw, ?_⟩
  simp only [WrittenBytes.after] at hb
  by_cases hin : i < size
  · rw [if_pos hin] at hb
    obtain ⟨sid', hl', _, hc⟩ := h i b hb
    obtain rfl : sid' = sid := Option.some.inj (hl'.symm.trans hl)
    exact truncate_content hw hin hc
  · rw [if_neg hin] at hb
    cases hb

/-- A download that meets the condition runs on a session without changes, so
there is nothing written to replace. -/
theorem undisturbed_fetch {how : Download} {fl : OpenFlags} (hs : s.slot.Sound)
    (hok : prefetchesUnchanged s (t, .fetch how)) (ht : s.task t = .opening fl (.prefetch sid)) :
    Undisturbed s s' := by
  intro i hl hd
  have hlist : s.listed = some sid := listed_of_holds (t := t) hs
  obtain rfl : i = sid := Option.some.inj (hl.symm.trans hlist)
  cases (hok how fl i rfl ht).symm.trans hd

@[simp] theorem seedAttributes_content (ws : WriteSession) (attrs : StagedAttributes) :
    (ws.seedAttributes attrs).file = ws.file ∧ (ws.seedAttributes attrs).size = ws.size ∧
    (ws.seedAttributes attrs).dirty = ws.dirty := by
  unfold WriteSession.seedAttributes
  split <;> exact ⟨rfl, rfl, rfl⟩

@[simp] theorem setCreationIfUnset_content (ws : WriteSession) (btime : Nat) (mode : UInt32) :
    (ws.setCreationIfUnset btime mode).file = ws.file ∧ (ws.setCreationIfUnset btime mode).size = ws.size ∧
    (ws.setCreationIfUnset btime mode).dirty = ws.dirty := by
  unfold WriteSession.setCreationIfUnset
  split <;> exact ⟨rfl, rfl, rfl⟩

theorem undisturbed_discard {sid' : Nat} (hl : s.listed = some sid')
    (hdisc : s.releaseSession.discardable sid') (s' : State) : Undisturbed s s' := by
  intro i hli hd
  obtain rfl : i = sid' := Option.some.inj (hli.symm.trans hl)
  have hclean : (s.releaseSession.session i).dirty = false := by
    simp only [State.discardable, WriteSession.hasNoStagedData, Bool.and_eq_true, Bool.not_eq_true'] at hdisc
    exact hdisc.2.1.1
  have hsame : (s.releaseSession.session i).dirty = (s.session i).dirty := by
    simp [State.releaseSession, hl, setSession]
  cases (hsame.symm.trans hclean).symm.trans hd

theorem OpenStep.kept (h : OpenStep s t a s') (hs : s.slot.Sound)
    (hok : prefetchesUnchanged s (t, a)) (hk : Kept s written) : Kept s' (written.after a) := by
  cases h with
  | begin | known | unknown | statFound | statMissing | statError | statErrorTrunc | prefetched
  | fetchAbandoned | truncateFailed => exact hk.undisturbed (.refl s)
  | @acquire sid _ _ hl =>
    exact hk.undisturbed (undisturbed_setSession sid rfl rfl id)
  | @reuse fl pd sid ht hl =>
    have hset : Undisturbed s (s.setSession sid
        { s.session sid with refCount := (s.session sid).refCount + 1 }) :=
      undisturbed_setSession sid rfl rfl id
    exact hk.undisturbed hset
  | create _ hl => exact hk.undisturbed (undisturbed_of_none hl)
  | @seed fl sid attrs ht =>
    obtain ⟨hf, hsize, hd⟩ := seedAttributes_content (s.session sid) attrs
    exact hk.undisturbed (undisturbed_setSession sid hf hsize fun h => hd.trans h)
  | fetched ht => exact hk.undisturbed (undisturbed_fetch hs hok ht)
  | fetchFailed ht => exact hk.undisturbed (undisturbed_fetch hs hok ht)
  | @creation fl sid now ht =>
    obtain ⟨hf, hsize, hd⟩ := setCreationIfUnset_content (s.session sid) now fl.perm
    exact hk.undisturbed (undisturbed_setSession sid hf hsize fun h => hd.trans h)
  | truncate ht hw => exact hk.truncate (listed_of_holds (t := t) hs) hw
  | refuseKept => exact hk.undisturbed undisturbed_releaseSession
  | refuseDiscard _ hl hdisc => exact hk.undisturbed (undisturbed_discard hl hdisc _)
  | @discardClose sid ht =>
    have hne : s.listed ≠ some sid :=
      (hs.parting_retired t sid (by simp [State.slot, ht, Task.parts])).1
    exact hk.undisturbed (undisturbed_setSession_of_ne hne)
  | discardData => exact hk.undisturbed (undisturbed_setDisk (d := { s.disk with dataFile := none }) rfl)
  | discardSidecar =>
    exact hk.undisturbed (undisturbed_setDisk (d := { s.disk with sidecar := none }) rfl)
  | release => exact hk.undisturbed undisturbed_releaseSession

theorem HandleStep.kept (h : HandleStep s t a s') (hs : s.slot.Sound) (hk : Kept s written) :
    Kept s' (written.after a) := by
  cases h with
  | write ht hw => exact hk.write (listed_of_holds (t := t) hs) hw
  | truncate ht hw => exact hk.truncate (listed_of_holds (t := t) hs) hw
  | close | closeReading => exact hk.undisturbed undisturbed_releaseSession

theorem MarkStep.kept (h : MarkStep s t a s') (hk : Kept s written) : Kept s' (written.after a) := by
  cases h with
  | again _ hm | recordedMeanwhile _ hm => exact (hk.undisturbed (undisturbed_markDirtyAgain hm)).goto
  | clean | lookup | attrs | recordFailed => exact hk.undisturbed (.refl s)
  | record =>
    have hdisk : ∀ attrs, Undisturbed s (s.setDisk (s.disk.recordDirtyPath s.path attrs)) :=
      fun attrs => undisturbed_setDisk (recordDirtyPath_inode _ _ attrs)
    exact hk.undisturbed ((hdisk _).trans undisturbed_metadataChanged)

theorem PersistStep.kept (h : PersistStep s t a s') (hk : Kept s written) :
    Kept s' (written.after a) := by
  cases h with
  | copy | skip => exact hk.undisturbed (.refl s)
  | @write sid next attrs state =>
    exact hk.undisturbed (undisturbed_setDisk
      (d := s.disk.writePathMetadataState { state with attributes := some attrs }) rfl)
  | @changed sid =>
    exact hk.undisturbed (undisturbed_setSession sid rfl rfl id)

theorem AttrStep.kept (h : AttrStep s t a s') (hk : Kept s written) : Kept s' (written.after a) := by
  cases h with
  | begin | staged | unstaged | readOwner | stagedDone | stat | head | put | failed =>
    exact hk.undisturbed (.refl s)
  | @setter sid => exact hk.undisturbed (undisturbed_setSession sid rfl rfl id)

theorem undisturbed_commitPathMetadata : Undisturbed s (s.commitPathMetadata sid) := by
  unfold State.commitPathMetadata
  split
  all_goals
    split
    · exact .refl s
    · exact undisturbed_setDisk rfl

theorem CommitStep.kept (h : CommitStep s t a s') (hk : Kept s written) : Kept s' (written.after a) := by
  cases h with
  | begin | nothing | found | closed | flushed | upToDate | needed | failed =>
    exact hk.undisturbed (.refl s)
  | metadata => exact hk.undisturbed undisturbed_commitPathMetadata
  | @committed sid version =>
    exact hk.undisturbed (undisturbed_setSession sid rfl rfl id)

/-! ## Runs -/

theorem Step.kept {e : Nat × Action} (h : Step withoutSyncs s e s') (hs : s.slot.Sound)
    (hok : prefetchesUnchanged s e) (hk : Kept s written) : Kept s' (written.after e.2) := by
  cases h with
  | elsewhere _ => exact hk
  | actor hactor hstep =>
    cases hstep with
    | opens h => exact h.kept hs hok hk
    | handles h => exact h.kept hs hk
    | marks h | persists h | attributes h | commits h => exact h.kept hk
    | syncs h => exact absurd rfl hactor

theorem reach_kept {p : State × WrittenBytes} (h : Reach (systemWithWritten withoutSyncs)
    (onState prefetchesUnchanged) p) : Kept p.1 p.2 := by
  refine reach_track_invariant (I := Kept) reach_slot_sound ?_ ?_ h
  · intro s _ i b hb
    exact nomatch hb
  · intro s e s' written hs hk hok hstep
    exact Step.kept hstep hs hok hk

end

/-! ## A prefetch over written bytes -/

/-- Opens, and what handles do. -/
def opensAndHandles (a : Actor) : Prop := a = .opens ∨ a = .handles

theorem prefetches_unchanged_of_not_fetch {s : State} {e : Nat × Action}
    (h : ∀ how, e.2 ≠ .fetch how := by nofun) : prefetchesUnchanged s e :=
  fun how _ _ he _ => absurd he (h how)

end Bluestone
