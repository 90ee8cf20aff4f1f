/-
# `Bluestone.Gateway.RenameFails` — a staged rename that fails

What `RenameStagedPath` leaves behind when it returns an error.  Nothing has
changed but, perhaps, the destination's target (`Touches`), and whether that is
back is a question of what it was and of what failed (`TakesBack`).

The sidecar is put back.  The pending delete of the destination is not: it was
cancelled before the first operation that can fail.
-/
import Bluestone.Gateway.RenameCrash

namespace Bluestone

open Function Cuts
open Gateway (syncedAway_eq deletedTarget)

/-- `Stat` finds the name. -/
def Gateway.shows (g : Gateway) (path : String) : Bool :=
  !g.tombstone path && ((g.object path).isSome || match g.listed path with
    | none => false
    | some sid => !g.conflicted path && (g.slice path).answersStat sid)

/-- Nothing has changed, up to the generations of dirty entries and the counts of
metadata changes. -/
structure Unchanged (b g : Gateway) : Prop where
  staged : SameStaged b g
  target : g.target = b.target

/-- Nothing has changed but that `path` has no entry and no sidecar. -/
def LosesEntry (b g : Gateway) (path : String) : Prop :=
  Touches b path g (b.target path).drop

/-- What a call that returns `e` leaves: everything as before, names included,
except that a source without staged bytes loses its entry and its sidecar. -/
def LeavesAlone (w : RenameFaults) (g s : Gateway) (old : String) : RenameError → Prop
  | .notExist =>
    (LosesEntry g s old ∧ ∀ path, s.shows path = g.shows path) ∨
      ∃ uploaded, w.move = .vanished uploaded ∧ Unchanged (g.syncedAway old uploaded) s ∧
        ∀ path, s.shows path = (g.syncedAway old uploaded).shows path
  | _ => Unchanged g s ∧ ∀ path, s.shows path = g.shows path

/-! ## When the destination is put back -/

/-- The sidecar as the intent leaves it. -/
def Gateway.intended (g : Gateway) (w : RenameFaults) (old new : String) : PathMetadataState :=
  { g.intent w old new with committed := (g.intent w old new).committed || g.committedAt new }

/-- What the intent replaced is what the take-back leaves.  A sidecar that was read
and can be written comes back, but a committed source leaves its commit there.
Without it the intent goes; a dirty path is then given a sidecar from memory, or
the mark that it has none.  Where the intent cannot be taken back it stays. -/
def SidecarReturns (g : Gateway) (w : RenameFaults) (old new : String) : Prop :=
  match w.takeBack, (if w.readReplaced then none else g.sidecar new), g.dirty new with
  | false, some state, _ => (g.intent w old new).committed = true → state.committed = true
  | false, none, none => g.sidecar new = none
  | false, none, some entry =>
    if w.record then g.sidecar new = none ∧ entry.recorded = false
    else g.sidecar new = some ⟨new, g.sessionAttributes new, false⟩
  | true, _, none => g.sidecar new = some (g.intended w old new)
  | true, _, some entry =>
    if w.record then g.sidecar new = some (g.intended w old new) ∧ entry.recorded = false
    else g.sidecar new = some { g.intended w old new with
      attributes := if (g.sessionAttributes new).isSome then g.sessionAttributes new
        else g.intendedAttributes w old }

/-- The condition.  A call that gets past its checks and then fails needs a
destination without a pending delete, and a sidecar that the take-back returns;
unless it is the sidecar of a source that has been synced away. -/
def TakesBack (g : Gateway) (w : RenameFaults) (old new : String) : Prop :=
  Reaches g w old new → w.sidecar = true ∨ w.move ≠ .moved →
    (g.tombstone new = true → w.cancel = true) ∧
      (w.sidecar = false → (old = new → w.move = .failed) → SidecarReturns g w old new)

section
variable {b g s : Gateway} {w : RenameFaults} {old new path : String} {t : Target}

theorem shows_eq (hs : SameStaged b g) (ht : g.tombstone path = b.tombstone path) :
    g.shows path = b.shows path := by
  have hanswers : ∀ sid, (g.slice path).answersStat sid = (b.slice path).answersStat sid := by
    intro sid
    have hsame := hs.session sid
    have hdirty := congrArg WriteSession.dirty hsame
    have hsize := congrArg WriteSession.size hsame
    have hpre := congrArg WriteSession.prefetched hsame
    simp only [WriteSession.unversioned] at hdirty hsize hpre
    show ((g.session sid).dirty || decide ((g.session sid).size = 0) || (g.session sid).prefetched) = _
    rw [hdirty, hsize, hpre]
    rfl
  simp only [Gateway.shows, ht, hs.object, hs.conflicted, hs.listed, hanswers]

theorem Unchanged.shows (h : Unchanged b g) (path : String) : g.shows path = b.shows path :=
  shows_eq h.staged (congrArg Target.tombstone (congrFun h.target path))

theorem LosesEntry.shows (h : LosesEntry b g path) (other : String) : g.shows other = b.shows other := by
  refine shows_eq h.staged ?_
  by_cases heq : other = path
  · subst heq
    exact congrArg Target.tombstone h.target_self
  · exact congrArg Target.tombstone (h.target_of_ne heq)

variable {e : RenameError} {uploaded : Object}

theorem Unchanged.leavesAlone (h : Unchanged g s) (he : e ≠ .notExist) : LeavesAlone w g s old e := by
  cases e with
  | notExist => exact absurd rfl he
  | conflicted | stat | sidecar | move => exact ⟨h, h.shows⟩

theorem Touches.unchanged_iff (h : Touches b path g t) : Unchanged b g ↔ t = b.target path := by
  constructor
  · intro hu
    rw [← h.target_self, hu.target]
  · rintro rfl
    exact ⟨h.staged, h.target.trans (update_eq_self ..)⟩

theorem losesEntry_drop (g : Gateway) (path : String) :
    LosesEntry g (g.on path State.dropEntryWithoutStagedBytes) path := by
  refine ⟨?_, target_drop g path⟩
  rw [Gateway.dropEntryWithoutStagedBytes_eq]
  exact ⟨fun _ => rfl, rfl, rfl, rfl, rfl, rfl, rfl⟩

/-- The target of the destination after the intent was taken back. -/
def Gateway.takenBack (g : Gateway) (w : RenameFaults) (old new : String) : Target :=
  (restoreTarget w new (g.sessionAttributes new) (if w.readReplaced then none else g.sidecar new)
    (((g.target new).cancel w.cancel).write (g.intent w old new))).final

theorem eq_target_iff {t : Target} (ht : t.tombstone = ((g.target new).cancel w.cancel).tombstone) :
    t = g.target new ↔ (g.tombstone new → w.cancel) ∧ g.sidecar new = t.sidecar ∧
    (g.dirty new).map (·.recorded) = t.recorded := by
  have hcancel : t.tombstone = g.tombstone new ↔ (g.tombstone new → w.cancel) := by
    rw [ht]
    cases w.cancel <;> cases htomb : g.tombstone new <;> simp [Target.cancel, Gateway.target, htomb]
  rw [← hcancel]
  obtain ⟨tomb, recorded, sidecar⟩ := t
  simp only [Gateway.target, Target.mk.injEq]
  constructor
  · rintro ⟨htomb, hrec, hside⟩
    exact ⟨htomb, hside.symm, hrec.symm⟩
  · rintro ⟨htomb, hside, hrec⟩
    exact ⟨htomb, hrec.symm, hside.symm⟩

theorem eq_target_and {t : Target} {p : Prop} (h : g.sidecar new = t.sidecar ∧
    (g.dirty new).map (·.recorded) = t.recorded ↔ p)
    (ht : t.tombstone = ((g.target new).cancel w.cancel).tombstone := by rfl) :
    t = g.target new ↔ (g.tombstone new → w.cancel) ∧ p :=
  (eq_target_iff ht).trans (and_congr_right fun _ => h)

theorem write_intent (g : Gateway) (w : RenameFaults) (old new : String) :
    ((g.target new).cancel w.cancel).write (g.intent w old new) =
    ⟨((g.target new).cancel w.cancel).tombstone, (g.dirty new).map (·.recorded),
    some (g.intended w old new)⟩ := by
  cases w.cancel <;> rfl

theorem written_back_iff {state : PathMetadataState} {c : Bool} :
    ({ state with committed := state.committed || (c || state.committed) } : PathMetadataState) = state ↔
    (c → state.committed) := by
  obtain ⟨path, attrs, committed⟩ := state
  cases c <;> cases committed <;> simp

theorem takenBack_eq_iff : g.takenBack w old new = g.target new ↔ (g.tombstone new →
    w.cancel) ∧ SidecarReturns g w old new := by
  unfold Gateway.takenBack SidecarReturns
  rw [(restoreTarget_eq ..).2, write_intent]
  cases w.takeBack with
  | false =>
    cases hr : (if w.readReplaced then none else g.sidecar new) with
    | some state =>
      have hs : g.sidecar new = some state := by
        split at hr
        · exact nomatch hr
        · exact hr
      refine eq_target_and (w := w) ?_
      simp only [Target.write, hs, and_true, Option.some.injEq]
      rw [← written_back_iff, eq_comm]
      simp [Target.committed, Gateway.intended, Gateway.committedAt, hs]
    | none =>
      cases hd : g.dirty new with
      | none =>
        refine eq_target_and (w := w) ?_
        simp [Target.remove, hd]
      | some entry =>
        cases w.record with
        | false =>
          refine eq_target_and (w := w) ?_
          cases hattrs : g.sessionAttributes new <;>
            simp [Target.remove, Target.record, Target.committed, hd]
        | true =>
          refine eq_target_and (w := w) ?_
          simp [Target.remove, Target.unrecord, hd]
  | true =>
    cases hd : g.dirty new with
    | none =>
      refine eq_target_and (w := w) ?_
      simp [hd]
    | some entry =>
      cases w.record with
      | false =>
        refine eq_target_and (w := w) ?_
        simp [Target.record, Target.committed, hd]
        rfl
      | true =>
        refine eq_target_and (w := w) ?_
        simp [Target.unrecord, hd]

/-! ## How the call ends -/

theorem sidecar_ends (h : Reaches g w old new) (hs : w.sidecar) :
    (renameStagedPath w old new g).result = .error .sidecar ∧
    Touches g new (renameStagedPath w old new g).final ((g.target new).cancel w.cancel) := by
  obtain ⟨_, hfinal, hresult⟩ := prepareDestination_simulates g w old new
  rw [prepareTarget_fails hs] at hfinal hresult
  rw [renameStagedPath_reaches h, bind_of_error hresult]
  exact ⟨rfl, hfinal⟩

theorem failed_ends (h : Reaches g w old new) (hs : w.sidecar = false) (hm : w.move = .failed) :
    (renameStagedPath w old new g).result = .error .move ∧
    Touches g new (renameStagedPath w old new g).final (g.takenBack w old new) := by
  obtain ⟨s, passed, htouch, _, hrun⟩ := prepared_ends h hs
  rw [hrun]
  obtain ⟨hok, htaken⟩ := restored_ends w
    (if w.readReplaced then none else g.sidecar new) htouch
  have hmove : (moveStagedData w old new (if w.readReplaced then none else g.sidecar new) s).result =
        .error .move ∧
      (moveStagedData w old new (if w.readReplaced then none else g.sidecar new) s).final =
        (restorePathMetadata w new (if w.readReplaced then none else g.sidecar new) s).final := by
    simp only [moveStagedData, hm]
    rw [bind_of_ok hok]
    exact ⟨rfl, rfl⟩
  simp only [moveAndFinish, bind_of_error hmove.1, hmove.2]
  refine ⟨trivial, ?_⟩
  exact htaken

theorem update_drop {f f' : String → Target} (h : f' = update f new t) :
    update f' old (f' old).drop =
      update (update f old (f old).drop) new (if old = new then t.drop else t) := by
  subst h
  by_cases hne : old = new
  · subst hne
    simp
  · simp [hne, update_comm hne]

theorem Touches.syncedAway (h : Touches b new s t) (old : String) (uploaded : Object) :
    Touches (b.syncedAway old uploaded) new (s.syncedAway old uploaded)
      (if old = new then t.drop else t) := by
  refine ⟨?_, ?_⟩
  · simp only [syncedAway_eq]
    exact ⟨h.staged.session, h.staged.inode, by rw [h.staged.object], h.staged.conflicted,
      by rw [h.staged.syncing], by rw [h.staged.listed], by rw [h.staged.dataFile]⟩
  · rw [target_syncedAway, target_syncedAway]
    exact update_drop h.target

theorem Touches.dropSynced (h : Touches (b.syncedAway old uploaded) new s t) :
    Touches (b.syncedAway old uploaded) new (s.on old State.dropEntryWithoutStagedBytes)
      (if old = new then t.drop else t) := by
  refine ⟨h.staged.trans (losesEntry_drop s old).staged, ?_⟩
  rw [target_drop, update_drop h.target, target_syncedAway]
  simp [Target.drop]

theorem vanished_ends (h : Reaches g w old new) (hs : w.sidecar = false)
    (hm : w.move = .vanished uploaded) :
    (renameStagedPath w old new g).result = .error .notExist ∧
      Touches (g.syncedAway old uploaded) new (renameStagedPath w old new g).final
        (if old = new then ((g.target new).cancel w.cancel).drop else g.takenBack w old new) := by
  obtain ⟨s, passed, htouch, _, hrun⟩ := prepared_ends h hs
  rw [hrun]
  obtain ⟨hok, htaken⟩ := restored_ends w
    (if w.readReplaced then none else g.sidecar new) (htouch.syncedAway old uploaded)
  have hmove : (moveStagedData w old new (if w.readReplaced then none else g.sidecar new) s).result =
        .error .notExist ∧
      (moveStagedData w old new (if w.readReplaced then none else g.sidecar new) s).final =
        (restorePathMetadata w new (if w.readReplaced then none else g.sidecar new)
          (s.syncedAway old uploaded)).final.on old State.dropEntryWithoutStagedBytes := by
    have hrest := bind_of_ok (k := fun _ => do
      .step (·.on old State.dropEntryWithoutStagedBytes)
      (.fail .notExist : Program Gateway RenameError Unit)) hok
    simp only [moveStagedData, hm]
    exact ⟨congrArg (·.result) hrest, congrArg (·.final) hrest⟩
  simp only [moveAndFinish, bind_of_error hmove.1, hmove.2]
  refine ⟨trivial, ?_⟩
  have hdrop := htaken.dropSynced
  by_cases hne : old = new
  · -- whatever was taken back is dropped with the source's entry
    rw [if_pos hne] at hdrop ⊢
    rw [if_pos hne] at hdrop
    simp only [Target.drop, restoreTarget_tombstone] at hdrop ⊢
    exact hdrop
  · rw [if_neg hne] at hdrop ⊢
    rw [if_neg hne] at hdrop
    have hattrs : (g.syncedAway old uploaded).sessionAttributes new = g.sessionAttributes new := by
      simp [Gateway.sessionAttributes, syncedAway_eq, Ne.symm hne]
    rw [hattrs] at hdrop
    exact hdrop

theorem stopped_ends (h : ¬ Reaches g w old new)
    (he : (renameStagedPath w old new g).result = .error e) :
    LeavesAlone w g (renameStagedPath w old new g).final old e := by
  have hsame : Unchanged g g := ⟨.refl g, rfl⟩
  rcases renameStagedPath_stopped h with hcall | hcall | ⟨_, hcall⟩
  · rw [hcall] at he ⊢
    obtain rfl : RenameError.conflicted = e := Except.error.inj he
    exact hsame.leavesAlone (by simp)
  · rw [hcall] at he ⊢
    obtain rfl : RenameError.stat = e := Except.error.inj he
    exact hsame.leavesAlone (by simp)
  · rw [hcall] at he ⊢
    obtain rfl : RenameError.notExist = e := Except.error.inj he
    have hdrop := losesEntry_drop g old
    exact .inl ⟨hdrop, hdrop.shows⟩

theorem leavesAlone_of_error {o : Outcome Gateway RenameError Unit} (hresult : o.result = .error e) :
    (∀ e', o.result = .error e' → LeavesAlone w g o.final old e') ↔ LeavesAlone w g o.final old e := by
  constructor
  · intro h
    exact h e hresult
  · rintro h e' he'
    obtain rfl : e = e' := Except.error.inj (hresult.symm.trans he')
    exact h

theorem leavesAlone_iff (he : e ≠ .notExist) (h : Touches g new s t) :
    LeavesAlone w g s old e ↔ t = g.target new := by
  rw [← h.unchanged_iff]
  constructor
  · intro halone
    cases e with
    | notExist => exact absurd rfl he
    | conflicted | stat | sidecar | move => exact halone.1
  · intro hsame
    exact hsame.leavesAlone he

theorem leavesAlone_vanished (hf : (g.dataFile old).isSome)
    (hm : w.move = .vanished uploaded) (h : Touches (g.syncedAway old uploaded) new s t) :
    LeavesAlone w g s old .notExist ↔ t = (g.syncedAway old uploaded).target new := by
  rw [← h.unchanged_iff]
  constructor
  · rintro (⟨hlose, _⟩ | ⟨uploaded', hm', hsame, _⟩)
    · have hgone : s.dataFile old = none := by
        rw [h.staged.dataFile, syncedAway_eq]
        simp
      rw [← hlose.staged.dataFile, hgone] at hf
      exact nomatch hf
    · obtain rfl : uploaded = uploaded' := Move.vanished.inj (hm.symm.trans hm')
      exact hsame
  · intro hsame
    exact .inr ⟨uploaded, hm, hsame, hsame.shows⟩

theorem vanished_eq_iff (uploaded : Object) :
    (if old = new then ((g.target new).cancel w.cancel).drop else g.takenBack w old new) =
        (g.syncedAway old uploaded).target new ↔
      (g.tombstone new → w.cancel) ∧ (old ≠ new → SidecarReturns g w old new) := by
  rw [target_syncedAway]
  by_cases hne : old = new
  · subst hne
    simp only [if_true, update_self, ne_eq, not_true, false_implies, and_true]
    cases w.cancel <;> cases htomb : g.tombstone old <;>
      simp [Target.cancel, Target.drop, Gateway.target, htomb]
  · rw [if_neg hne, update_of_ne (Ne.symm hne), takenBack_eq_iff]
    exact and_congr_right fun _ => ⟨fun h _ => h, fun h => h hne⟩

end

/-- A failed rename of staged data leaves what it found exactly when the take-back
finds all it has to put back. -/
theorem failed_rename_leavesAlone_iff (g : Gateway) (w : RenameFaults) (old new : String) :
    (∀ e, (renameStagedPath w old new g).result = .error e →
    LeavesAlone w g (renameStagedPath w old new g).final old e) ↔ TakesBack g w old new := by
  by_cases hreach : Reaches g w old new
  swap
  · exact iff_of_true (fun e he => stopped_ends hreach he) fun h => absurd h hreach
  unfold TakesBack
  simp only [hreach, true_implies]
  cases hs : w.sidecar with
  | true =>
    obtain ⟨hresult, htouch⟩ := sidecar_ends hreach hs
    rw [leavesAlone_of_error hresult, leavesAlone_iff (e := .sidecar) (by simp) htouch, cancel_eq_iff]
    simp [Gateway.target]
  | false =>
    cases hm : w.move with
    | moved =>
      refine iff_of_true (fun e he => ?_) (by simp)
      obtain ⟨s, passed, _, _, hrun⟩ := prepared_ends hreach hs
      rw [hrun] at he
      simp only [moveAndFinish, moveStagedData, hm] at he
      cases he
    | failed =>
      obtain ⟨hresult, htouch⟩ := failed_ends hreach hs hm
      rw [leavesAlone_of_error hresult, leavesAlone_iff (e := .move) (by simp) htouch, takenBack_eq_iff]
      simp
    | vanished uploaded =>
      obtain ⟨hresult, htouch⟩ := vanished_ends hreach hs hm
      rw [leavesAlone_of_error hresult, leavesAlone_vanished hreach.2.2.2 hm htouch,
        vanished_eq_iff]
      simp

/-- `/a` is renamed to `/b`.  The sidecar cannot be written, or the byte move fails:
the delete of `/b` is gone. -/
theorem failed_rename_loses_delete :
    (∃ e, (renameStagedPath { sidecar := true } "/a" "/b" deletedTarget).result = .error e ∧
    deletedTarget.shows "/b" = false ∧
    (renameStagedPath { sidecar := true } "/a" "/b" deletedTarget).final.shows "/b" = true) ∧
    (∃ e, (renameStagedPath { move := .failed } "/a" "/b" deletedTarget).result = .error e ∧
    deletedTarget.tombstone "/b" = true ∧
    (renameStagedPath { move := .failed } "/a" "/b" deletedTarget).final.tombstone "/b" =
    false) :=
  ⟨⟨.sidecar, rfl, rfl, rfl⟩, ⟨.move, rfl, rfl, rfl⟩⟩

end Bluestone
