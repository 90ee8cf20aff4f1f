/-
# `Bluestone.Staging.Claims` — who claims a path for syncing

A claim on a path is its entry in the `syncing` map.  `LockFile` makes the entry
and `UnlockFile` deletes it; so do `MarkClean`, `MarkCleanIfUnchanged` and all
that is built on them (`ForgetDirty`, `dropDirtyEntry`, `removeSessionLocked`,
`discardDeletedStaging`) and `MarkConflicted`, whoever calls them.  A thread that
has made such a call goes on as if it still had the claim, up to its own
`UnlockFile`.

* `claims_exclusive`: a path has one claimant at most, in every run in which
  nothing sets out for a claim in that time (`Conflicting.claimsApart`).
* `upload_during_delete`: without that, one uploads while another deletes.

`State.claim` reads the path as a claim of `Bluestone.Library.Claim`, and every
step as a step of it.
-/
import Bluestone.Library.Claim
import Bluestone.Staging.Conflict

namespace Bluestone

open Function Runs

/-! ## Who claims the path -/

/-- A sync parts with the claim when it marks the path clean or forgets it. -/
def SyncPc.stand : SyncPc → Stand
  | .cleanup _ | .closeRemoved _ | .close _ | .unlockObject | .unlockFile => .parted
  | _ => .holding

/-- A `Remove` seeks the claim up to the end of its `RegisterPendingDelete`, which
parts with it in `discardDeletedStaging`. -/
def RemovePc.stand : RemovePc → Stand
  | .check | .children | .stat | .statSession | .statObject | .register _ | .claim _ => .seeking
  | .start registered | .delete registered _ => if registered then .outside else .seeking
  | .discard _ => .holding
  | .closeDiscarded _ _ | .unlock _ => .parted
  | _ => .outside

/-- A deferred delete parts with it before its `DeleteObject`. -/
def DeletePc.stand : DeletePc → Stand
  | .recheck | .discard => .holding
  | _ => .parted

/-- A rename onto a staged destination parts with the claim in `ForgetDirty`. -/
def RenamePc.stand : RenamePc → Stand
  | .sourceDelete _ | .sourceResolve | .sourceUnlock | .targetUnlock | .destinationForget => .holding
  | .targetCancel claimed | .targetSidecar claimed | .targetMove claimed _ | .targetRekey claimed _
  | .targetEntry claimed => if claimed then .holding else .outside
  | .destinationCleanupDirty | .destinationCleanupSyncing | .destinationCleanupRemove
  | .destinationClose _ | .destinationUnlock => .parted
  | .destinationCancel | .destinationCopy => .outside
  | _ => .seeking

/-- A copy keeps its claim to the end. -/
def CopyPc.stand : CopyPc → Stand
  | .session | .dirty | .claim => .seeking
  | .copy claimed _ => if claimed then .holding else .outside
  | _ => .holding

/-- How a thread stands to the path's claim. -/
def Task.stand : Task → Stand
  | .persist _ _ next => next.stand
  | .syncing pc => pc.stand
  | .removing pc => pc.stand
  | .deleting pc => pc.stand
  | .renaming pc => pc.stand
  | .copying pc => pc.stand
  | _ => .outside

/-- The thread is between its `LockFile` and its `UnlockFile`. -/
def Task.claims (task : Task) : Prop := task.stand.claims

/-- The thread is in the `DeleteObject` of a deferred delete. -/
def Task.inDelete : Task → Bool
  | .deleting (.delete _) => true
  | _ => false

/-- The thread is in the upload of a sync. -/
def Task.inUpload : Task → Bool
  | .syncing (.uploading _ _ _) => true
  | _ => false

/-- The claim on the path. -/
def State.claim (s : State) : Claim Nat := ⟨s.syncing, fun t => (s.task t).stand⟩

/-- The calls that clear the flag and leave the caller to go on. -/
def Action.clearsClaim : Action → Bool
  | .forgot | .synced | .discarded => true
  | _ => false

/-- The condition on a thread: no operation on the path begins while a claimant has
parted with the flag; a claimant clears the flag only while no other operation is on
its way to a `LockFile`; and a thread without a claim removes the session only while
there is no claimant. -/
structure claimsApart (s : State) (e : Nat × Action) : Prop where
  begins : s.task e.1 = .idle → e.2 ≠ .elsewhere → ∀ t, (s.task t).stand ≠ .parted
  clears : e.2.clearsClaim = true → (s.task e.1).claims → ∀ t, (s.task t).stand ≠ .seeking
  removes : e.2 = .discarded → ¬ (s.task e.1).claims → ∀ t, ¬ (s.task t).claims

/-- The condition, with `RecordConflict`: it calls `MarkConflicted` only while there
is no claimant. -/
def Conflicting.claimsApart (c : Conflicting) : Event → Prop
  | .thread t a => Bluestone.claimsApart c.state (t, a)
  | .recorder r => ∀ preserved, c.recorder r = .mark preserved → ∀ t, ¬ (c.state.task t).claims

/-! ## Every step as a step of the claim -/

section
variable {s s' : State} {t : Nat} {a : Action} {task : Task}

theorem claim_goto (task : Task) : (s.goto t task).claim = s.claim.move t task.stand := by
  have hst : (fun i => ((s.goto t task).task i).stand) =
      update (fun i => (s.task i).stand) t task.stand := by
    funext i
    by_cases hi : i = t
    · subst hi
      simp [State.goto]
    · simp [State.goto, hi]
  show Claim.mk s.syncing _ = _
  rw [hst]
  rfl

theorem claimStep_quiet (hc : s'.claim = s.claim) (h : task.stand = (s.task t).stand) :
    ClaimStep s.claim (s'.goto t task).claim := by
  have hsame : s.claim.move t task.stand = s.claim := by
    show Claim.mk s.syncing (update (fun i => (s.task i).stand) t task.stand) = _
    rw [h, update_eq_self t fun i => (s.task i).stand]
    rfl
  rw [claim_goto, hc, hsame]
  exact .quiet _

theorem claimStep_seek (ht : s.task t = .idle) (hp : ∀ i, (s.task i).stand ≠ .parted)
    (hst : task.stand = .seeking) : ClaimStep s.claim (s.goto t task).claim := by
  rw [claim_goto, hst]
  exact .seek t (by simp [State.claim, ht, Task.stand, Stand.claims]) hp

theorem claimStep_leave (hc : s'.claim = s.claim) (ht : (s.task t).stand = .seeking)
    (hst : task.stand = .outside) : ClaimStep s.claim (s'.goto t task).claim := by
  rw [claim_goto, hc, hst]
  exact .leave t (by simp [State.claim, ht, Stand.claims])

theorem claimStep_take (hf : s.syncing = false)
    (hp : (s.task t).stand = .seeking ∨ ∀ i, (s.task i).stand ≠ .parted) (hst : task.stand = .holding) :
    ClaimStep s.claim (s.lockFile.goto t task).claim := by
  have hc : s.lockFile.claim = s.claim.set true := rfl
  rw [claim_goto, hc, hst]
  exact .take t hf hp

theorem claimStep_part (ht : (s.task t).claims) (hst : task.stand = .parted) :
    ClaimStep s.claim (s.goto t task).claim := by
  rw [claim_goto, hst]
  exact .part t ht

theorem claimStep_drop (hc : s'.claim = s.claim.set false) (hok : claimsApart s (t, a))
    (ha : a.clearsClaim) (ht : (s.task t).claims) (hst : task.stand = .parted) :
    ClaimStep s.claim (s'.goto t task).claim := by
  rw [claim_goto, hc, hst]
  exact .drop t ht (hok.clears ha ht)

theorem claimStep_release (hc : s'.claim = s.claim.set false) (ht : (s.task t).claims)
    (hst : task.stand = .outside) : ClaimStep s.claim (s'.goto t task).claim := by
  rw [claim_goto, hc, hst]
  exact .release t ht

theorem claimStep_clear (hc : s'.claim = s.claim.set false) (hst : task.stand = (s.task t).stand)
    (hnone : ∀ i, ¬ (s.task i).claims) : ClaimStep s.claim (s'.goto t task).claim := by
  have hsame : (s.claim.set false).move t task.stand = s.claim.set false := by
    show Claim.mk false (update (fun i => (s.task i).stand) t task.stand) = _
    rw [hst, update_eq_self t fun i => (s.task i).stand]
    rfl
  rw [claim_goto, hc, hsame]
  exact .clear hnone

theorem afterExists_stand (fl : OpenFlags) (sid : Nat) : (afterExists fl sid).stand = .outside :=
  afterExists_at (P := fun task => task.stand = .outside) rfl rfl

theorem afterMissing_stand (fl : OpenFlags) (sid : Nat) : (afterMissing fl sid).stand = .outside :=
  afterMissing_at (P := fun task => task.stand = .outside) rfl (afterExists_stand fl sid)

theorem persistIf_stand (changed : Bool) (sid : Nat) (next : Task) :
    (persistIf changed sid next).stand = next.stand := by
  cases changed <;> rfl

theorem releaseSession_claim (s : State) : s.releaseSession.claim = s.claim := by
  unfold State.releaseSession
  split <;> rfl

theorem OpenStep.claimStep (h : OpenStep s t a s') : ClaimStep s.claim s'.claim := by
  cases h with
  | known ht _ => exact claimStep_quiet rfl (by rw [ht, afterExists_stand]; rfl)
  | statMissing ht _ | statErrorTrunc ht _ => exact claimStep_quiet rfl (by rw [ht, afterMissing_stand]; rfl)
  | seed ht => exact claimStep_quiet rfl (by rw [ht, persistIf_stand]; rfl)
  | creation ht =>
    exact claimStep_quiet rfl (by rw [ht, persistIf_stand, afterExists_stand]; rfl)
  | refuseKept ht _ | refuseDiscard ht _ _ | release ht => exact claimStep_quiet (releaseSession_claim s) (by rw [ht]; rfl)
  | _ => exact claimStep_quiet rfl (by rw [‹s.task t = _›]; rfl)

theorem HandleStep.claimStep (h : HandleStep s t a s') : ClaimStep s.claim s'.claim := by
  cases h with
  | write ht _ => exact claimStep_quiet rfl (by rw [ht, persistIf_stand]; rfl)
  | truncate ht _ => exact claimStep_quiet rfl (by rw [ht]; rfl)
  | close ht | closeReading ht =>
    exact claimStep_quiet (releaseSession_claim s) (by rw [ht]; rfl)

theorem markDirtyAgain_claim {s1 : State} (h : s.markDirtyAgain = some s1) : s1.claim = s.claim := by
  obtain ⟨_, _, _, rfl⟩ := markDirtyAgain_cases h
  rfl

theorem MarkStep.claimStep (h : MarkStep s t a s') : ClaimStep s.claim s'.claim := by
  cases h with
  | again ht hm | recordedMeanwhile ht hm => exact claimStep_quiet (markDirtyAgain_claim hm) (by rw [ht]; rfl)
  | @record _ sid opens found attrs ht hm =>
    refine claimStep_quiet ?_ (by rw [ht]; rfl)
    cases found <;> rfl
  | @recordFailed _ sid opens found attrs ht hm =>
    refine claimStep_quiet rfl ?_
    rw [ht]
    cases opens <;> rfl
  | _ => exact claimStep_quiet rfl (by rw [‹s.task t = _›]; rfl)

theorem PersistStep.claimStep (h : PersistStep s t a s') : ClaimStep s.claim s'.claim := by
  cases h with
  | copy ht =>
    refine claimStep_quiet rfl ?_
    rw [ht]
    split <;> rfl
  | _ => exact claimStep_quiet rfl (by rw [‹s.task t = _›]; rfl)

theorem AttrStep.claimStep (h : AttrStep s t a s') : ClaimStep s.claim s'.claim := by
  cases h with
  | _ => exact claimStep_quiet rfl (by rw [‹s.task t = _›]; rfl)

theorem commitPathMetadata_claim (s : State) (sid : Nat) :
    (s.commitPathMetadata sid).claim = s.claim := by
  unfold State.commitPathMetadata
  split <;> split <;> rfl

theorem CommitStep.claimStep (h : CommitStep s t a s') : ClaimStep s.claim s'.claim := by
  cases h with
  | metadata ht => exact claimStep_quiet (commitPathMetadata_claim s _) (by rw [ht]; rfl)
  | _ => exact claimStep_quiet rfl (by rw [‹s.task t = _›]; rfl)

theorem closeSnapshot_claim (s : State) (snap : Snapshot) : (s.closeSnapshot snap).claim = s.claim := by
  unfold State.closeSnapshot
  split <;> rfl

theorem SyncStep.claimStep (h : SyncStep s t a s') (hok : claimsApart s (t, a)) :
    ClaimStep s.claim s'.claim := by
  cases h with
  | lockFile ht hf => exact claimStep_take hf (.inr (hok.begins ht nofun)) rfl
  | checkClean ht _ | pendingDelete ht _ | snapshotFailed ht | uploadFailed ht | changed ht _ =>
    exact claimStep_part (by rw [ht]; trivial) rfl
  | forget ht | synced ht _ => exact claimStep_drop rfl hok rfl (by rw [ht]; trivial) rfl
  | close ht => exact claimStep_quiet (closeSnapshot_claim s _) (by rw [ht]; rfl)
  | unlockFile ht => exact claimStep_release rfl (by rw [ht]; trivial) rfl
  | _ => exact claimStep_quiet rfl (by rw [‹s.task t = _›]; rfl)

theorem RemoveStep.claimStep (h : RemoveStep s t a s') (hok : claimsApart s (t, a)) :
    ClaimStep s.claim s'.claim := by
  cases h with
  | begin ht => exact claimStep_seek ht (hok.begins ht nofun) rfl
  | childrenDirty ht _ | statPending ht _ | statMissing ht _ | statError ht | deleted ht
  | deleteMissing ht _ | registerFailed ht | deferred ht _ => exact claimStep_leave rfl (by rw [ht]; rfl) rfl
  | @start registered ht | @landed registered before ht =>
    refine claimStep_quiet rfl ?_
    rw [ht]
    cases registered <;> rfl
  | claim ht hf => exact claimStep_take hf (.inl (by rw [ht]; rfl)) rfl
  | discardNothing ht _ => exact claimStep_part (by rw [ht]; trivial) rfl
  | discardEntry ht _ _ | discardSession ht _ _ _ => exact claimStep_drop rfl hok rfl (by rw [ht]; trivial) rfl
  | unlockInline ht | unlock ht => exact claimStep_release rfl (by rw [ht]; trivial) rfl
  | cleanupRemove ht _ _ =>
    have hout : (s.task t).stand = .outside := by rw [ht]; rfl
    exact claimStep_clear rfl hout.symm (hok.removes rfl (by simp [Task.claims, hout, Stand.claims]))
  | _ => exact claimStep_quiet rfl (by rw [‹s.task t = _›]; rfl)

theorem DeleteStep.claimStep (h : DeleteStep s t a s') (hok : claimsApart s (t, a)) :
    ClaimStep s.claim s'.claim := by
  cases h with
  | lockFile ht hf => exact claimStep_take hf (.inr (hok.begins ht nofun)) rfl
  | cancelled ht _ | discardNothing ht _ => exact claimStep_part (by rw [ht]; trivial) rfl
  | discardEntry ht _ _ | discardSession ht _ _ _ => exact claimStep_drop rfl hok rfl (by rw [ht]; trivial) rfl
  | unlock ht => exact claimStep_release rfl (by rw [ht]; trivial) rfl
  | _ => exact claimStep_quiet rfl (by rw [‹s.task t = _›]; rfl)

theorem invalidate_claim (s : State) : s.invalidate.claim = s.claim := by
  unfold State.invalidate
  split <;> rfl

theorem rekeySession_claim (s : State) (moved : Option WriteSession) :
    (s.rekeySession moved).claim = s.claim := by
  unfold State.rekeySession
  cases s.listed <;> cases moved <;> rfl

theorem afterTarget_stand (claimed : Bool) :
    (afterTarget claimed).stand = if claimed then .holding else .outside := by
  cases claimed <;> rfl

theorem RenameStep.claimStep (h : RenameStep s t a s') (hok : claimsApart s (t, a)) :
    ClaimStep s.claim s'.claim := by
  cases h with
  | sourceBegin ht _ | destinationBegin ht => exact claimStep_seek ht (hok.begins ht nofun) rfl
  | sourceClean ht _ | sourceMissing ht _ | sourceGone ht _ | sourceMoveFailed ht | sourceEntry ht
  | sourceDeferred ht _ | destinationClean ht _ | destinationBusy ht _ =>
    exact claimStep_leave rfl (by rw [ht]; rfl) rfl
  | sourceClaim ht hf | destinationClaim ht hf => exact claimStep_take hf (.inl (by rw [ht]; rfl)) rfl
  | targetClaim ht hf => exact claimStep_take hf (.inr (hok.begins ht nofun)) rfl
  | sourceUnlock ht | targetUnlock ht | destinationUnlock ht =>
    exact claimStep_release rfl (by rw [ht]; trivial) rfl
  | targetSidecar ht => exact claimStep_quiet (invalidate_claim s) (by rw [ht]; rfl)
  | targetSidecarFailed ht =>
    exact claimStep_quiet (invalidate_claim s) (by rw [ht, afterTarget_stand]; rfl)
  | targetMoveFailed ht | targetEntry ht =>
    exact claimStep_quiet rfl (by rw [ht, afterTarget_stand]; rfl)
  | targetRekey ht _ => exact claimStep_quiet (rekeySession_claim s _) (by rw [ht]; rfl)
  | destinationForget ht | destinationCleanupRemove ht _ _ =>
    exact claimStep_drop rfl hok rfl (by rw [ht]; trivial) rfl
  | destinationCopied ht => exact claimStep_quiet rfl (by rw [ht])
  | _ => exact claimStep_quiet rfl (by rw [‹s.task t = _›]; rfl)

theorem CopyStep.claimStep (h : CopyStep s t a s') (hok : claimsApart s (t, a)) :
    ClaimStep s.claim s'.claim := by
  cases h with
  | begin ht _ => exact claimStep_seek ht (hok.begins ht nofun) rfl
  | clean ht _ | busy ht _ => exact claimStep_leave rfl (by rw [ht]; rfl) rfl
  | claim ht hf => exact claimStep_take hf (.inl (by rw [ht]; rfl)) rfl
  | @copied claimed discarded ht =>
    refine claimStep_quiet rfl ?_
    rw [ht]
    cases claimed <;> rfl
  | landed ht => exact claimStep_quiet rfl (by rw [ht])
  | unlock ht => exact claimStep_release rfl (by rw [ht]; trivial) rfl
  | _ => exact claimStep_quiet rfl (by rw [‹s.task t = _›]; rfl)

theorem NameStep.claimStep {names : NameActor → Prop} {e : Nat × Action}
    (h : NameStep names s e s') (hok : claimsApart s e) : ClaimStep s.claim s'.claim := by
  cases h with
  | base hb _ =>
    cases hb with
    | actor _ ha =>
      cases ha with
      | opens ho | handles ho | marks ho | persists ho | attributes ho | commits ho => exact ho.claimStep
      | syncs hs => exact hs.claimStep hok
    | elsewhere _ => exact .quiet _
  | removes _ hr | renames _ hr => exact hr.claimStep hok
  | deletes _ hd | copies _ hd => exact hd.claimStep hok

end

/-! ## Runs -/

theorem RecordStep.claimStep {renames : Prop} {c c' : Conflicting} {r : Nat} (h : RecordStep renames c r c')
    (hok : c.claimsApart (.recorder r)) : ClaimStep c.state.claim c'.state.claim := by
  cases h with
  | mark hr => exact .clear (hok _ hr)
  | @removeData here _ _ | @removeSidecar here _ _ => cases here <;> exact .quiet _
  | _ => exact .quiet _

theorem ConflictStep.claimStep {names : NameActor → Prop} {c c' : Conflicting} {e : Event}
    (h : (namespaceConflicts names).step c e c') (hok : c.claimsApart e) :
    ClaimStep c.state.claim c'.state.claim := by
  cases h with
  | thread hstep _ | record _ hstep => exact hstep.claimStep hok
  | openConflicted _ ht | markConflicted _ ht | restoreConflicted _ ht =>
    exact claimStep_quiet rfl (by rw [ht]; rfl)
  | @recordConflicted _ _ _ found _ _ ht =>
    refine claimStep_quiet ?_ (by rw [ht]; rfl)
    cases found <;> rfl
  | @recordConflictedFailed _ _ opens _ _ _ ht =>
    refine claimStep_quiet rfl ?_
    rw [ht]
    cases opens <;> rfl

theorem Init.exclusive {s : State} (h : Init s) : s.claim.Exclusive := by
  have hidle : ∀ t, s.claim.stand t = .outside := by
    intro t
    simp [State.claim, Init.task_idle h t, Task.stand]
  refine ⟨?_, ?_, ?_⟩
  · intro t ht
    exact nomatch (hidle t).symm.trans ht
  · intro t i ht _
    rw [hidle t] at ht
    exact ht.elim
  · intro t i ht
    exact nomatch (hidle t).symm.trans ht

section
variable {names : NameActor → Prop} {ok : Condition}

theorem reach_exclusive (hsub : ∀ s e, ok s e → claimsApart s e) :
    ∀ {s : State}, Reach (namespaceSystem names) ok s → s.claim.Exclusive := by
  intro s h
  refine h.invariant (I := fun s => s.claim.Exclusive) (fun _ hi => Init.exclusive hi) ?_
  intro s e s' hx hok hstep
  exact hx.step (NameStep.claimStep hstep (hsub s e hok))

/-- A path has one claimant at most, in every state of every run that keeps
claims apart; so while a worker is in the `DeleteObject` of a deferred delete no
other thread claims the path, and none uploads. -/
theorem claims_exclusive {c : Conflicting} (h : Reach (namespaceConflicts names) Conflicting.claimsApart c) :
    (∀ t i, (c.state.task t).claims → (c.state.task i).claims → t = i) ∧
    (∀ t i, (c.state.task t).inDelete = true → (c.state.task i).inUpload = true → False) := by
  have hx : c.state.claim.Exclusive := by
    refine h.invariant (I := fun c => c.state.claim.Exclusive) (fun _ (hi : Init _ ∧ _) => Init.exclusive hi.1) ?_
    intro c e c' hx hok hstep
    exact hx.step (ConflictStep.claimStep hstep hok)
  refine ⟨hx.one, ?_⟩
  intro t i ht hi
  have htc : (c.state.task t).claims := by
    revert ht
    cases c.state.task t with
    | deleting pc =>
      cases pc with
      | delete _ => exact fun _ => trivial
      | _ => exact nofun
    | _ => exact nofun
  have hic : (c.state.task i).claims := by
    revert hi
    cases c.state.task i with
    | syncing pc =>
      cases pc with
      | uploading _ _ _ => exact fun _ => trivial
      | _ => exact nofun
    | _ => exact nofun
  have hti := hx.one t i htc hic
  subst hti
  revert ht hi
  cases c.state.task t <;> exact nofun

end

/-! ## A claim that is lost -/

/-- A gateway that has started with an accepted delete still to be done. -/
def State.deleted : State := State.empty "/f" (some ⟨[1], .default⟩) .blank true

theorem deleted_init : Init State.deleted := by
  refine ⟨"/f", some ⟨[1], .default⟩, .blank, true, ?_, rfl⟩
  intro f hf
  exact nomatch (show (none : Option Nat) = some f from hf)

/-- Worker 0 is in its `DeleteObject`, with its claim dropped by
`discardDeletedStaging`; thread 1 creates the file again and writes `[2]` to it, and
worker 2 claims the path and uploads it. -/
theorem recreated_during_delete {names : NameActor → Prop} (hd : names .deletes) :
    ∃ s snap attrs, Reach (namespaceSystem names) always s ∧ s.task 0 = .deleting (.delete false) ∧
    s.task 2 = .syncing (.uploading snap attrs false) ∧ s.task 3 = .idle ∧ s.dirty.isSome = true ∧
    s.syncing = true := by
  have h : Reach (namespaceSystem names) always State.deleted := .init deleted_init
  have h := h.next (.deletes hd (@DeleteStep.lockFile _ 0 rfl rfl)) trivial
  have h := h.next (.deletes hd (@DeleteStep.recheck _ 0 rfl rfl)) trivial
  have h := h.next (.deletes hd (@DeleteStep.discardEntry _ 0 rfl rfl (.inl rfl))) trivial
  have h := h.next (.deletes hd (@DeleteStep.start _ 0 rfl)) trivial
  have h := h.next (@OpenStep.begin _ 1 .creating rfl fun _ => rfl).named trivial
  have h := h.next (@OpenStep.create _ 1 .creating true true rfl rfl).named trivial
  have h := h.next (@OpenStep.unknown _ 1 .creating true 0 rfl rfl).named trivial
  have h := h.next (@OpenStep.statMissing _ 1 .creating true 0 rfl (.inr rfl)).named trivial
  have h := h.next (@OpenStep.creation _ 1 .creating 0 5 rfl).named trivial
  have h := h.next (@PersistStep.copy _ 1 0 _ rfl).named trivial
  have h := h.next (@PersistStep.write _ 1 0 _ _ _ rfl rfl).named trivial
  have h := h.next (@PersistStep.changed _ 1 0 _ rfl).named trivial
  have h := h.next (@HandleStep.write _ 1 0 0 [2] _ _ _ rfl rfl).named trivial
  have h := h.next (@MarkStep.clean _ 1 0 false rfl rfl).named trivial
  have h := h.next (@MarkStep.lookup _ 1 0 false rfl).named trivial
  have h := h.next (@MarkStep.attrs _ 1 0 false _ rfl).named trivial
  have h := h.next (@MarkStep.record _ 1 0 false _ _ rfl rfl).named trivial
  have h := h.next ((@SyncStep.lockFile _ 2 rfl rfl).named (by decide)) trivial
  have h := h.next ((@SyncStep.checkDirty _ 2 rfl rfl).named (by decide)) trivial
  have h := h.next ((@SyncStep.lockObject _ 2 rfl rfl).named (by decide)) trivial
  have h := h.next ((@SyncStep.notPending _ 2 rfl rfl).named (by decide)) trivial
  have h := h.next ((@SyncStep.found _ 2 0 rfl rfl).named (by decide)) trivial
  have h := h.next ((@SyncStep.generation _ 2 0 rfl).named (by decide)) trivial
  have h := h.next ((@SyncStep.snapshot _ 2 0 _ _ rfl rfl rfl).named (by decide)) trivial
  have h := h.next ((@SyncStep.attributes _ 2 _ rfl).named (by decide)) trivial
  exact ⟨_, _, _, h, rfl, rfl, rfl, rfl, rfl⟩

theorem reach_unconflicted {names : NameActor → Prop} {s : State} (h : Reach (namespaceSystem names) always s) :
    Reach (namespaceConflicts names) always s.unconflicted := by
  induction h with
  | init hi => exact .init ⟨hi, rfl, fun _ => rfl⟩
  | step _ _ hs ih => exact reach_thread ih rfl hs trivial

/-- A claim of the path while its deleter deletes, and an upload meanwhile. -/
theorem upload_during_delete : ∃ c, Reach (namespaceConflicts fun _ => True) always c ∧
    ¬ ((∀ t i, (c.state.task t).claims → (c.state.task i).claims → t = i) ∧
    (∀ t i, (c.state.task t).inDelete = true → (c.state.task i).inUpload = true → False)) := by
  obtain ⟨s, snap, attrs, h, h0, h2, -⟩ := @recreated_during_delete (fun _ => True) trivial
  refine ⟨_, reach_unconflicted h, fun hx => hx.2 0 2 ?_ ?_⟩
  · show (s.task 0).inDelete = true
    rw [h0]
    rfl
  · show (s.task 2).inUpload = true
    rw [h2]
    rfl

/-- A delete pass that nobody interferes with: worker 0 is in its `DeleteObject`
and is the only claimant. -/
theorem delete_pass_claims_alone : ∃ c, Reach (namespaceConflicts fun _ => True) Conflicting.claimsApart c ∧
    (c.state.task 0).inDelete = true ∧ (∀ t i, (c.state.task t).claims → (c.state.task i).claims → t = i) ∧
    (∀ t i, (c.state.task t).inDelete = true → (c.state.task i).inUpload = true → False) := by
  have h : Reach (namespaceConflicts fun _ => True) Conflicting.claimsApart State.deleted.unconflicted :=
    .init ⟨deleted_init, rfl, fun _ => rfl⟩
  have h := reach_thread h rfl (.deletes trivial (@DeleteStep.lockFile _ 0 rfl rfl)) ⟨fun _ _ _ => nofun, nofun, nofun⟩
  have h := reach_thread h rfl (.deletes trivial (@DeleteStep.recheck _ 0 rfl rfl)) ⟨nofun, nofun, nofun⟩
  have h := reach_thread h rfl (.deletes trivial (@DeleteStep.discardEntry _ 0 rfl rfl (.inl rfl)))
    ⟨nofun, fun _ _ => two_threads nofun nofun fun _ => nofun, fun _ hc => absurd trivial hc⟩
  have h := reach_thread h rfl (.deletes trivial (@DeleteStep.start _ 0 rfl)) ⟨nofun, nofun, nofun⟩
  exact ⟨_, h, rfl, claims_exclusive h⟩

end Bluestone
