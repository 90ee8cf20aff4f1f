/-
# `Bluestone.Gateway.RenameItself` — a file renamed onto itself

`RenameFile` returns at once when the two names are one.  `Filesystem.rename`
does not ask, and for a dirty file it never gets there: `RenameStagedPath` writes
the sidecar of the new name and removes that of the old one, closes the session
it replaces, which is the file's own, and leaves a pending delete, which is then
carried out on the file's object.
-/
import Bluestone.Gateway.Namespace
import Bluestone.Gateway.Rekeyed
import Bluestone.Gateway.RenameFails

namespace Bluestone

open Function Cuts

/-- The bytes a sync of `path` puts in the bucket: those of a dirty file without a
pending delete. -/
def Gateway.uploads (g : Gateway) (path : String) : Option Bytes :=
  if (g.dirty path).isSome && !g.tombstone path then (g.dataFile path).map g.inode else none

/-- Nothing has changed, and a later sync of `path` uploads what it would have. -/
structure NoOp (g s : Gateway) (path : String) : Prop where
  unchanged : Unchanged g s
  uploads : s.uploads path = g.uploads path

/-- `rename` of `path` onto itself stops at one of its checks. -/
def Refuses (g : Gateway) (known : List String) (path : String) : Prop :=
  isReservedPath path = true ∨ g.conflicted path = true ∨ g.conflictedUnder known path = true ∨
    (g.dirtyStagedChildren known path).isEmpty = false ∨ g.tombstone path = true

/-- A dirty entry that is marked recorded, over staged bytes without a sidecar, a
session or an object, and not being synced. -/
structure NothingToLose (g : Gateway) (path : String) : Prop where
  recorded : (g.target path).recorded = some true
  sidecar : g.sidecar path = none
  listed : g.listed path = none
  object : g.object path = none
  syncing : g.syncing path = false
  staged : (g.dataFile path).isSome = true

section
variable {g s : Gateway} {known : List String} {wf : FileFaults} {wd : DirectoryFaults}
  {path : String}

theorem Unchanged.refl (g : Gateway) : Unchanged g g := ⟨.refl g, rfl⟩

theorem Unchanged.noOp (h : Unchanged g s) : NoOp g s path := by
  refine ⟨h, ?_⟩
  have htarget := congrFun h.target path
  have htomb : s.tombstone path = g.tombstone path := congrArg Target.tombstone htarget
  have hdirty : (s.dirty path).isSome = (g.dirty path).isSome := by
    have hrec := congrArg Target.recorded htarget
    simpa [Gateway.target] using congrArg Option.isSome hrec
  simp only [Gateway.uploads, htomb, hdirty, h.staged.dataFile, h.staged.inode]

theorem rename_refuses (h : Refuses g known path) : (rename known wf wd path path g).final = g := by
  unfold rename
  split
  · rfl
  rename_i hres
  simp only [Program.read]
  split
  · rfl
  rename_i hconf
  split
  · rfl
  rename_i hchildren
  split
  · rfl
  rename_i htomb
  simp [Refuses] at h hres hconf hchildren htomb
  simp_all

theorem rename_proceeds (h : ¬ Refuses g known path) :
    rename known wf wd path path g =
      if (g.dirty path).isSome then renameDirtyStagedFile wf path path g
      else (discardStagedDestination wf path >>= fun _ => renameFile wf.bucket path path) g := by
  simp only [Refuses, not_or, Bool.not_eq_true] at h
  obtain ⟨hres, hconf, hunder, hchildren, htomb⟩ := h
  have hempty : (g.dirtyStagedChildren known path).isEmpty := by simpa using hchildren
  simp only [rename, Program.read, hres, hconf, hunder, hempty, htomb, Bool.or_false, Bool.not_true,
    Bool.false_eq_true, if_false]
  split <;> rfl

theorem rename_clean (hd : g.dirty path = none) : (rename known wf wd path path g).final = g := by
  by_cases h : Refuses g known path
  · exact rename_refuses h
  · have htomb : g.tombstone path = false := by
      simp only [Refuses, not_or, Bool.not_eq_true] at h
      exact h.2.2.2.2
    rw [rename_proceeds h, hd]
    simp only [Option.isSome_none, Bool.false_eq_true, if_false, discardStagedDestination,
      discardDirty, renameFile, if_true, bind, Program.andThen, Program.read, Program.step,
      Program.done, hd, Option.isNone_none]
    exact Gateway.cancelPendingDelete_eq g path htomb wf.cancel

theorem renameDirty_unstaged (hc : g.conflicted path = false) (hf : g.dataFile path = none) :
    ((renameDirtyStagedFile {} path path g).final).dirty path = none := by
  simp [renameDirtyStagedFile, renameStagedPath, discardStagedDestination, discardDirty, renameFile,
    bind, Program.andThen, Program.read, Program.step, Program.done, Program.fail, Program.attempt,
    hc, hf, Gateway.dropEntryWithoutStagedBytes_eq, Gateway.cancelPendingDelete]

/-- What the inline delete leaves. -/
def Gateway.sourceDeleted (g : Gateway) (path : String) : Gateway :=
  if g.syncing path then g
  else (((g.lockFile path).deleteFile path).cancelPendingDelete path false).unlockFile path

theorem sourceDeleted_eq (h : g.syncing path = false) :
    g.sourceDeleted path = { g with
      object := update g.object path none
      tombstone := update g.tombstone path false } := by
  simp only [Gateway.sourceDeleted, h, Bool.false_eq_true, if_false, Gateway.lockFile,
    Gateway.deleteFile, Gateway.cancelPendingDelete, Gateway.unlockFile, update_idem]
  rw [← h, update_eq_self]

theorem renameDirty_staged (hc : g.conflicted path = false) (hf : (g.dataFile path).isSome) :
    ∃ s, Touches g path s (((g.target path).cancel false).write (g.intent {} path path)) ∧
    (renameDirtyStagedFile {} path path g).final = (s.finished path path {}).sourceDeleted path := by
  obtain ⟨hresult, s, htouch, hfinal⟩ := moved_ends (w := {}) ⟨hc, hc, rfl, hf⟩ rfl rfl
  refine ⟨s, htouch, ?_⟩
  have hattempt : (((renameStagedPath {} path path).attempt :
      Program Gateway VfsError (Except RenameError Unit)) g).result = .ok (.ok ⟨⟩) :=
    congrArg Except.ok hresult
  rw [renameDirtyStagedFile, bind_of_ok hattempt]
  show (deleteSource {} path (renameStagedPath {} path path g).final).final = _
  rw [hfinal]
  simp only [deleteSource, Program.read, Gateway.sourceDeleted]
  split <;> rfl

/-- A staged file renamed onto itself is left alone exactly when there is nothing
to lose. -/
theorem renameDirty_staged_iff (hc : g.conflicted path = false) (ht : g.tombstone path = false)
    (hf : (g.dataFile path).isSome) :
    Unchanged g (renameDirtyStagedFile {} path path g).final ↔ NothingToLose g path := by
  obtain ⟨s, htouch, hfinal⟩ := renameDirty_staged hc hf
  rw [hfinal]
  obtain ⟨hinode, hobject, hconf, hsync⟩ := s.finished_inode path path {}
  have hlisted := s.finished_listed_self path {}
  have hdata := s.finished_dataFile path path {}
  have hsidecar := s.finished_sidecar path path {}
  have htomb := s.finished_tombstone path path {}
  have hdirty := s.finished_dirty path path {}
  rw [update_idem, update_eq_self] at hdata
  rw [update_idem] at hdirty
  simp only [Bool.false_eq_true, if_false] at hsidecar htomb
  rw [htouch.staged.syncing] at hsync
  constructor
  · intro h
    have htarget := congrFun h.target path
    cases hs : g.syncing path with
    | true =>
      -- the tombstone stays for the sync worker
      rw [Gateway.sourceDeleted, hsync, hs, if_pos rfl] at htarget
      have hpending := congrArg Target.tombstone htarget
      simp only [Gateway.target, htomb, update_self, ht] at hpending
      cases hpending
    | false =>
      rw [sourceDeleted_eq (hsync ▸ hs)] at h htarget
      have hrec := congrArg Target.recorded htarget
      have hside := congrArg Target.sidecar htarget
      have hsession := congrFun h.staged.listed path
      have hobj := congrFun h.staged.object path
      simp only [Gateway.target, hdirty, hsidecar, hlisted, update_self] at hrec hside hsession hobj
      exact ⟨hrec.symm, hside.symm, hsession.symm, hobj.symm, hs, hf⟩
  · intro h
    have hnone : s.listed path = none := by
      rw [htouch.staged.listed]
      exact h.listed
    rw [sourceDeleted_eq (hsync ▸ h.syncing)]
    refine ⟨⟨?_, ?_, ?_, ?_, ?_, ?_, ?_⟩, ?_⟩
    · intro sid
      show ((s.finished path path {}).session sid).unversioned = _
      rw [s.finished_session path path {}, update_self, hnone]
      exact htouch.staged.session sid
    · exact hinode.trans htouch.staged.inode
    · show update (s.finished path path {}).object path none = _
      rw [hobject, htouch.staged.object, ← h.object, update_eq_self]
    · exact hconf.trans htouch.staged.conflicted
    · exact hsync
    · show (s.finished path path {}).listed = _
      rw [hlisted, htouch.staged.listed, ← h.listed, update_eq_self]
    · exact hdata.trans htouch.staged.dataFile
    · funext p
      by_cases hp : p = path
      · subst hp
        have hrec := h.recorded
        simp only [Gateway.target] at hrec
        simp only [Gateway.target, hdirty, hsidecar, update_self, h.sidecar, ht, hrec]
        rfl
      · rw [← htouch.target_of_ne hp]
        simp only [Gateway.target, hdirty, hsidecar, htomb, update_of_ne hp]

end

/-- `rename` of a path onto itself is a no-op exactly when the path is not dirty,
the call stops at its checks, or a dirty entry has nothing to lose.  When the path
is not dirty no failure changes that. -/
theorem rename_itself_noOp_iff (g : Gateway) (known : List String) (path : String) :
    (∀ wf wd, g.dirty path = none → NoOp g (rename known wf wd path path g).final path) ∧
    (NoOp g (rename known {} {} path path g).final path ↔
    Refuses g known path ∨ g.dirty path = none ∨ NothingToLose g path) := by
  refine ⟨fun wf wd hd => ?_, ?_⟩
  · rw [rename_clean hd]
    exact (Unchanged.refl g).noOp
  by_cases hrefuses : Refuses g known path
  · refine iff_of_true ?_ (.inl hrefuses)
    rw [rename_refuses hrefuses]
    exact (Unchanged.refl g).noOp
  have hrefuses' := hrefuses
  simp only [Refuses, not_or, Bool.not_eq_true] at hrefuses'
  obtain ⟨_, hc, _, _, ht⟩ := hrefuses'
  cases hd : g.dirty path with
  | none =>
    refine iff_of_true ?_ (.inr (.inl rfl))
    rw [rename_clean hd]
    exact (Unchanged.refl g).noOp
  | some entry =>
    have hnoOp : ∀ s, NoOp g s path ↔ Unchanged g s := fun s => ⟨NoOp.unchanged, Unchanged.noOp⟩
    rw [rename_proceeds hrefuses, hd, hnoOp]
    simp only [Option.isSome_some, if_true, hrefuses, false_or, reduceCtorEq]
    cases hf : g.dataFile path with
    | none =>
      refine iff_of_false ?_ ?_
      · intro h
        have hrec := congrArg Target.recorded (congrFun h.target path)
        simp only [Gateway.target, renameDirty_unstaged hc hf, hd] at hrec
        cases hrec
      · intro h
        have hstaged := h.staged
        rw [hf] at hstaged
        cases hstaged
    | some f => exact renameDirty_staged_iff hc ht (by rw [hf]; rfl)

/-- `/a` has an object and newer staged bytes. -/
def Gateway.stagedOver : Gateway :=
  { Gateway.blank.stage "/a" [1] with
    object := update (fun _ => none) "/a" (some ⟨[2], .default⟩) }

/-- Renamed onto itself, `/a` loses its object, its sidecar and its session.  With
an upload of it in flight it keeps the object and gets a pending delete, and its
bytes are not uploaded any more. -/
theorem renamed_itself_loses : (∃ s, (rename ["/a"] {} {} "/a" "/a" Gateway.stagedOver).final = s ∧
    (rename ["/a"] {} {} "/a" "/a" Gateway.stagedOver).result = .ok ⟨⟩ ∧
    Gateway.stagedOver.shows "/a" = true ∧ (Gateway.stagedOver.sidecar "/a").isSome = true ∧
    s.object "/a" = none ∧ s.sidecar "/a" = none ∧ s.listed "/a" = none) ∧ (∃ s, (rename ["/a"] {}
    {} "/a" "/a" (Gateway.stagedOver.lockFile "/a")).final = s ∧ (rename ["/a"] {}
    {} "/a" "/a" (Gateway.stagedOver.lockFile "/a")).result = .ok ⟨⟩ ∧
    Gateway.stagedOver.tombstone "/a" = false ∧ Gateway.stagedOver.uploads "/a" = some [1] ∧
    s.tombstone "/a" = true ∧ s.uploads "/a" = none) :=
  ⟨⟨_, rfl, rfl, rfl, rfl, rfl, rfl, rfl⟩, ⟨_, rfl, rfl, rfl, rfl, rfl, rfl⟩⟩

end Bluestone
