/-
# `Bluestone.Gateway.Target` — a staged rename seen from its destination

Before its byte move `RenameStagedPath` changes three things kept about the
destination: the pending delete, the sidecar, and the mark that the sidecar of a
dirty path is missing.  They are its `Target`, and what the call does to them is a
program on targets (`prepareTarget`, `restoreTarget`).

The operations on the gateway follow that program step by step (`Touches`): with
the target they change nothing else.
-/
import Bluestone.Gateway.Rename

namespace Bluestone

open Cuts
open Function (update)

/-- What is kept about a path apart from its bytes and its session. -/
structure Target where
  tombstone : Bool
  /-- The mark of the dirty entry, if there is one. -/
  recorded : Option Bool
  sidecar : Option PathMetadataState
  deriving DecidableEq

namespace Target

/-- The sidecar says that the bytes were committed. -/
def committed (t : Target) : Bool :=
  match t.sidecar with
  | some state => state.committed
  | none => false

def cancel (t : Target) (fails : Bool) : Target :=
  if fails then t else { t with tombstone := false }

def write (t : Target) (state : PathMetadataState) : Target :=
  { t with sidecar := some { state with committed := state.committed || t.committed } }

def remove (t : Target) : Target := { t with sidecar := none }

def unrecord (t : Target) : Target := { t with recorded := t.recorded.map fun _ => false }

def record (t : Target) (path : String) (attrs : Option StagedAttributes) : Target :=
  { t with
    sidecar := some
      { originalPath := path
        attributes := if attrs.isSome then attrs else t.sidecar.bind (·.attributes)
        committed := t.committed } }

/-- The attributes the sidecar gives to the path it names. -/
def attributes (t : Target) (path : String) : Option StagedAttributes :=
  match t.sidecar with
  | some state => if state.originalPath = path then some (state.attributes.getD .default) else none
  | none => none

/-- Without entry and sidecar. -/
def drop (t : Target) : Target := { t with recorded := none, sidecar := none }

end Target

def Gateway.target (g : Gateway) (path : String) : Target :=
  ⟨g.tombstone path, (g.dirty path).map (·.recorded), g.sidecar path⟩

/-- `prepareDestination`, on the target. -/
def prepareTarget (w : RenameFaults) (state : PathMetadataState) :
    Program Target RenameError (Option PathMetadataState) := do
  .step (·.cancel w.cancel)
  .step id
  .read fun t =>
    if w.sidecar then .fail .sidecar
    else do
      .step (·.write state)
      .done (if w.readReplaced then none else t.sidecar)

def takeBackTarget (w : RenameFaults) (replaced : Option PathMetadataState) :
    Program Target RenameError Unit :=
  if w.takeBack then .done ⟨⟩
  else match replaced with
    | some state => .step (·.write state)
    | none => .step (·.remove)

def recordTarget (w : RenameFaults) (path : String) (attrs : Option StagedAttributes)
    (replaced : Option PathMetadataState) : Program Target RenameError Unit :=
  .read fun t =>
    if (replaced.isNone || w.takeBack) && t.recorded.isSome then
      if w.record then .step (·.unrecord) else .step (·.record path attrs)
    else .done ⟨⟩

/-- `restorePathMetadata`, on the target. -/
def restoreTarget (w : RenameFaults) (path : String) (attrs : Option StagedAttributes)
    (replaced : Option PathMetadataState) : Program Target RenameError Unit := do
  takeBackTarget w replaced
  recordTarget w path attrs replaced
  .step id

/-! ## The operations change the target only -/

/-- A session but for the count of its metadata changes. -/
def WriteSession.unversioned (ws : WriteSession) : WriteSession := { ws with metadataVersion := 0 }

/-- All but the targets is as it was, up to the counts of changes. -/
structure SameStaged (b g : Gateway) : Prop where
  session : ∀ sid, (g.session sid).unversioned = (b.session sid).unversioned
  inode : g.inode = b.inode
  object : g.object = b.object
  conflicted : g.conflicted = b.conflicted
  syncing : g.syncing = b.syncing
  listed : g.listed = b.listed
  dataFile : g.dataFile = b.dataFile

/-- `g` is `b` with the target of `path` changed to `t`. -/
structure Touches (b : Gateway) (path : String) (g : Gateway) (t : Target) : Prop where
  staged : SameStaged b g
  target : g.target = update b.target path t

section
variable {b g s : Gateway} {path other : String} {t : Target} {w : RenameFaults}

theorem SameStaged.refl (g : Gateway) : SameStaged g g :=
  ⟨fun _ => rfl, rfl, rfl, rfl, rfl, rfl, rfl⟩

theorem SameStaged.trans (h : SameStaged b g) (h' : SameStaged g s) : SameStaged b s :=
  ⟨fun sid => (h'.session sid).trans (h.session sid), h'.inode.trans h.inode,
    h'.object.trans h.object, h'.conflicted.trans h.conflicted, h'.syncing.trans h.syncing,
    h'.listed.trans h.listed, h'.dataFile.trans h.dataFile⟩

theorem Touches.refl (g : Gateway) (path : String) : Touches g path g (g.target path) :=
  ⟨.refl g, (Function.update_eq_self path g.target).symm⟩

theorem Touches.target_self (h : Touches b path g t) : g.target path = t := by
  rw [h.target, Function.update_self]

theorem Touches.target_of_ne (h : Touches b path g t) (hne : other ≠ path) :
    g.target other = b.target other := by
  rw [h.target, Function.update_of_ne hne]

theorem Touches.next {f : Target → Target} (h : Touches b path g t) (hs : SameStaged g s)
    (ht : s.target = update g.target path (f (g.target path))) : Touches b path s (f t) := by
  refine ⟨h.staged.trans hs, ?_⟩
  rw [ht, h.target_self, h.target, Function.update_idem]

theorem target_tombstone (g : Gateway) (path : String) (b : Bool) :
    Gateway.target { g with tombstone := update g.tombstone path b } =
    update g.target path { g.target path with tombstone := b } := by
  funext p
  by_cases hp : p = path
  · subst hp
    simp [Gateway.target]
  · simp [Gateway.target, hp]

theorem target_dirty (g : Gateway) (path : String) (entry : Option DirtyFileMetadata) (n : Nat) :
    Gateway.target { g with dirty := update g.dirty path entry, generation := n } =
    update g.target path { g.target path with recorded := entry.map (·.recorded) } := by
  funext p
  by_cases hp : p = path
  · subst hp
    simp [Gateway.target]
  · simp [Gateway.target, hp]

theorem target_sidecar (g : Gateway) (path : String) (state : Option PathMetadataState) :
    Gateway.target { g with sidecar := update g.sidecar path state } =
    update g.target path { g.target path with sidecar := state } := by
  funext p
  by_cases hp : p = path
  · subst hp
    simp [Gateway.target]
  · simp [Gateway.target, hp]

theorem target_drop (g : Gateway) (path : String) :
    (g.on path State.dropEntryWithoutStagedBytes).target =
    update g.target path (g.target path).drop := by
  rw [Gateway.dropEntryWithoutStagedBytes_eq]
  funext p
  by_cases hp : p = path
  · subst hp
    simp [Gateway.target, Target.drop]
  · simp [Gateway.target, hp]

theorem target_syncedAway (g : Gateway) (path : String) (uploaded : Object) :
    (g.syncedAway path uploaded).target = update g.target path (g.target path).drop := by
  rw [Gateway.syncedAway_eq]
  funext p
  by_cases hp : p = path
  · subst hp
    simp [Gateway.target, Target.drop]
  · simp [Gateway.target, hp]

theorem cancel_eq_iff (t : Target) (fails : Bool) :
    t.cancel fails = t ↔ (t.tombstone → fails) := by
  obtain ⟨tomb, recorded, sidecar⟩ := t
  cases fails <;> cases tomb <;> simp [Target.cancel]

theorem Touches.cancelPendingDelete (h : Touches b path g t) (fails : Bool) :
    Touches b path (g.cancelPendingDelete path fails) (t.cancel fails) := by
  cases fails with
  | true => exact h
  | false =>
    exact h.next (f := (·.cancel false)) ⟨fun _ => rfl, rfl, rfl, rfl, rfl, rfl, rfl⟩
      (target_tombstone g path false)

theorem Touches.writeSidecar (h : Touches b path g t) (state : PathMetadataState) :
    Touches b path (g.writeSidecar path state) (t.write state) := by
  rw [Gateway.writeSidecar_eq]
  exact h.next (f := (·.write state)) ⟨fun _ => rfl, rfl, rfl, rfl, rfl, rfl, rfl⟩
    (target_sidecar g path _)

theorem Touches.removeSidecar (h : Touches b path g t) :
    Touches b path (g.removeSidecar path false) t.remove :=
  h.next (f := Target.remove) ⟨fun _ => rfl, rfl, rfl, rfl, rfl, rfl, rfl⟩ (target_sidecar g path none)

theorem Touches.recordDirtyPath (h : Touches b path g t) (attrs : Option StagedAttributes) :
    Touches b path (g.recordDirtyPath path attrs) (t.record path attrs) := by
  rw [Gateway.recordDirtyPath_eq]
  exact h.next (f := (·.record path attrs)) ⟨fun _ => rfl, rfl, rfl, rfl, rfl, rfl, rfl⟩
    (target_sidecar g path _)

theorem Touches.markUnrecorded (h : Touches b path g t) :
    Touches b path (g.markUnrecorded path) t.unrecord := by
  refine h.next (f := Target.unrecord) ⟨fun _ => rfl, rfl, rfl, rfl, rfl, rfl, rfl⟩ ?_
  have hmark := target_dirty g path ((g.dirty path).map ({ · with recorded := false })) g.generation
  rw [Option.map_map] at hmark
  refine hmark.trans ?_
  simp only [Target.unrecord, Gateway.target, Option.map_map]
  rfl

theorem Touches.invalidate (h : Touches b path g t) : Touches b path (g.on path State.invalidate) t := by
  rw [Gateway.invalidate_eq]
  split
  · exact h
  · rename_i entry hentry
    refine h.next (f := id) ⟨fun _ => rfl, rfl, rfl, rfl, rfl, rfl, rfl⟩ ?_
    rw [target_dirty]
    simp only [Gateway.target, hentry]
    rfl

theorem Touches.metadataChanged (h : Touches b path g t) :
    Touches b path (g.metadataChanged path) t := by
  rw [Gateway.metadataChanged_eq]
  split
  · exact h
  · rename_i sid _
    refine h.next (f := id) ⟨fun i => ?_, rfl, rfl, rfl, rfl, rfl, rfl⟩
      (Function.update_eq_self path g.target).symm
    by_cases hi : i = sid
    · subst hi
      simp [WriteSession.unversioned, WriteSession.metadataChanged]
    · simp [hi]

theorem attributesIfSet_unversioned {ws ws' : WriteSession} (h : ws.unversioned = ws'.unversioned) :
    ws.attributesIfSet = ws'.attributesIfSet := by
  have hattrs := congrArg WriteSession.attributesIfSet h
  exact hattrs

theorem SameStaged.sessionAttributes (h : SameStaged b g) (path : String) :
    g.sessionAttributes path = b.sessionAttributes path := by
  unfold Gateway.sessionAttributes
  rw [h.listed]
  cases b.listed path with
  | none => rfl
  | some sid => exact attributesIfSet_unversioned (h.session sid)

end

/-! ## The call in step with its target -/

/-- The call gets past its checks. -/
def Reaches (g : Gateway) (w : RenameFaults) (old new : String) : Prop :=
  g.conflicted old = false ∧ g.conflicted new = false ∧ w.stat = false ∧
    (g.dataFile old).isSome = true

/-- The outcomes of a call that stops at its checks: it has done nothing, or it has
dropped an entry without staged bytes. -/
theorem renameStagedPath_stopped {g : Gateway} {w : RenameFaults} {old new : String}
    (h : ¬ Reaches g w old new) : renameStagedPath w old new g = ⟨[], g, .error .conflicted⟩ ∨
    renameStagedPath w old new g = ⟨[], g, .error .stat⟩ ∨ g.dataFile old = none ∧
    renameStagedPath w old new g =
    ⟨[g.on old State.dropEntryWithoutStagedBytes], g.on old State.dropEntryWithoutStagedBytes,
    .error .notExist⟩ := by
  simp only [renameStagedPath, Program.read]
  by_cases hc : (g.conflicted old || g.conflicted new)
  · exact .inl (by rw [if_pos hc]; rfl)
  by_cases hstat : w.stat
  · exact .inr (.inl (by rw [if_neg hc, if_pos hstat]; rfl))
  cases hf : g.dataFile old with
  | none => exact .inr (.inr ⟨rfl, by rw [if_neg hc, if_neg hstat]; rfl⟩)
  | some f =>
    obtain ⟨hold, hnew⟩ := not_or.1 (mt Bool.or_eq_true_iff.2 hc)
    exact absurd ⟨Bool.eq_false_of_not_eq_true hold, Bool.eq_false_of_not_eq_true hnew,
      Bool.eq_false_of_not_eq_true hstat, by rw [hf]; rfl⟩ h

section
variable {b : Gateway} {w : RenameFaults} {old new path : String}

theorem prepareDestination_simulates (g : Gateway) (w : RenameFaults) (old new : String) :
    Outcome.Matches (Touches g new) (prepareDestination w old new g)
    (prepareTarget w (g.intent w old new) (g.target new)) := by
  have hintent : (g.cancelPendingDelete new w.cancel).intent w old new = g.intent w old new := by
    unfold Gateway.cancelPendingDelete
    split <;> rfl
  have hcancel := (Touches.refl g new).cancelPendingDelete w.cancel
  have hwrite : ∀ state, Simulates (E := RenameError) (Touches g new)
      (do .step (·.on new State.invalidate)
          .read fun g => if w.sidecar then .fail .sidecar
            else do
              .step (·.writeSidecar new state)
              .done (if w.readReplaced then none else g.sidecar new))
      (do .step id
          .read fun t => if w.sidecar then .fail .sidecar
            else do
              .step (·.write state)
              .done (if w.readReplaced then none else t.sidecar)) := by
    intro state
    refine Simulates.bind (Simulates.step fun s t hs => hs.invalidate) fun _ =>
      Simulates.read fun s t hs => ?_
    split
    · exact Simulates.fail s t hs
    · rw [← hs.target_self]
      exact Simulates.bind (Simulates.step fun s t hs => hs.writeSidecar state)
        (fun _ => Simulates.done) s _ (hs.target_self ▸ hs)
  obtain ⟨hpassed, hfinal, hresult⟩ := hwrite _ _ _ hcancel
  rw [← hintent]
  exact ⟨.cons hcancel hpassed, hfinal, hresult⟩

theorem restorePathMetadata_simulates (replaced : Option PathMetadataState) : Simulates (Touches b path)
    (restorePathMetadata w path replaced)
    (restoreTarget w path (b.sessionAttributes path) replaced) := by
  refine Simulates.bind ?_ fun _ => Simulates.bind (Simulates.read fun g t hg => ?_) fun _ =>
    Simulates.step fun g t hg => hg.metadataChanged
  · unfold takeBack takeBackTarget
    split
    · exact Simulates.done
    · cases replaced with
      | none => exact Simulates.step fun g t hg => hg.removeSidecar
      | some state => exact Simulates.step fun g t hg => hg.writeSidecar state
  · have hdirty : (g.dirty path).isSome = t.recorded.isSome := by
      rw [← hg.target_self]
      simp [Gateway.target]
    rw [hdirty]
    split
    · split
      · exact Simulates.step (fun g t hg => hg.markUnrecorded) g t hg
      · refine Simulates.step (fun g t hg => ?_) g t hg
        rw [hg.staged.sessionAttributes]
        exact hg.recordDirtyPath _
    · exact Simulates.done g t hg

/-- What follows the preparation of the destination. -/
def moveAndFinish (w : RenameFaults) (old new : String) (replaced : Option PathMetadataState) :
    Program Gateway RenameError Unit := do
  moveStagedData w old new replaced
  finishRename w old new

theorem renameStagedPath_reaches {g : Gateway} (h : Reaches g w old new) :
    renameStagedPath w old new g = (prepareDestination w old new >>= moveAndFinish w old new) g := by
  obtain ⟨hold, hnew, hstat, hf⟩ := h
  obtain ⟨f, hf⟩ := Option.isSome_iff_exists.1 hf
  simp only [renameStagedPath, Program.read, hold, hnew, hstat, hf]
  rfl

theorem prepareTarget_fails (h : w.sidecar) (state : PathMetadataState) (t : Target) :
    prepareTarget w state t = ⟨[t.cancel w.cancel, t.cancel w.cancel], t.cancel w.cancel,
    .error .sidecar⟩ := by
  simp only [prepareTarget, h, if_true]
  rfl

theorem prepareTarget_succeeds (h : w.sidecar = false) (state : PathMetadataState) (t : Target) :
    prepareTarget w state t =
      ⟨[t.cancel w.cancel, t.cancel w.cancel, (t.cancel w.cancel).write state],
        (t.cancel w.cancel).write state,
        .ok (if w.readReplaced then none else (t.cancel w.cancel).sidecar)⟩ := by
  simp only [prepareTarget, h, Bool.false_eq_true, if_false]
  rfl

theorem restoreTarget_passed (path : String) (attrs : Option StagedAttributes)
    (replaced : Option PathMetadataState) (t : Target) :
    (restoreTarget w path attrs replaced t).passed =
      match w.takeBack, replaced, t.recorded with
      | false, some state, _ => [t.write state, t.write state]
      | false, none, none => [t.remove, t.remove]
      | false, none, some _ =>
        let last := if w.record then t.remove.unrecord else t.remove.record path attrs
        [t.remove, last, last]
      | true, _, none => [t]
      | true, _, some _ =>
        let last := if w.record then t.unrecord else t.record path attrs
        [last, last] := by
  obtain ⟨tomb, recorded, sidecar⟩ := t
  simp only [restoreTarget, takeBackTarget, recordTarget]
  cases w.takeBack with
  | true => cases recorded <;> cases replaced <;> cases w.record <;> rfl
  | false =>
    cases replaced with
    | some state => rfl
    | none => cases recorded <;> cases w.record <;> rfl

theorem restoreTarget_passed_tombstone {path : String} {attrs : Option StagedAttributes}
    {replaced : Option PathMetadataState} {t : Target} (t' : Target)
    (h : t' ∈ (restoreTarget w path attrs replaced t).passed) : t'.tombstone = t.tombstone := by
  rw [restoreTarget_passed] at h
  repeat' split at h
  all_goals
    simp only [List.mem_cons, List.not_mem_nil, or_false] at h
    rcases h with rfl | rfl | rfl <;> rfl

theorem restoreTarget_eq (path : String) (attrs : Option StagedAttributes)
    (replaced : Option PathMetadataState) (t : Target) :
    (restoreTarget w path attrs replaced t).result = .ok ⟨⟩ ∧
    (restoreTarget w path attrs replaced t).final =
      match w.takeBack, replaced, t.recorded with
      | false, some state, _ => t.write state
      | false, none, none => t.remove
      | false, none, some _ => if w.record then t.remove.unrecord else t.remove.record path attrs
      | true, _, none => t
      | true, _, some _ => if w.record then t.unrecord else t.record path attrs := by
  obtain ⟨tomb, recorded, sidecar⟩ := t
  simp only [restoreTarget, takeBackTarget, recordTarget]
  cases w.takeBack with
  | true => cases recorded <;> cases replaced <;> cases w.record <;> exact ⟨rfl, rfl⟩
  | false =>
    cases replaced with
    | some state => exact ⟨rfl, rfl⟩
    | none => cases recorded <;> cases w.record <;> exact ⟨rfl, rfl⟩

theorem restoreTarget_tombstone (path : String) (attrs : Option StagedAttributes)
    (replaced : Option PathMetadataState) (t : Target) :
    (restoreTarget w path attrs replaced t).final.tombstone = t.tombstone := by
  rw [(restoreTarget_eq ..).2]
  repeat' split
  all_goals rfl

theorem prepared_ends {g : Gateway} (h : Reaches g w old new) (hs : w.sidecar = false) :
    ∃ s passed, Touches g new s (((g.target new).cancel w.cancel).write (g.intent w old new)) ∧
      List.Forall₂ (Touches g new) passed [(g.target new).cancel w.cancel,
        (g.target new).cancel w.cancel,
        ((g.target new).cancel w.cancel).write (g.intent w old new)] ∧
      renameStagedPath w old new g =
        let rest := moveAndFinish w old new (if w.readReplaced then none else g.sidecar new) s
        ⟨passed ++ rest.passed, rest.final, rest.result⟩ := by
  obtain ⟨hpassed, hfinal, hresult⟩ := prepareDestination_simulates g w old new
  have hsidecar : ((g.target new).cancel w.cancel).sidecar = g.sidecar new := by
    cases w.cancel <;> rfl
  rw [prepareTarget_succeeds hs, hsidecar] at hresult
  rw [prepareTarget_succeeds hs] at hfinal hpassed
  rw [renameStagedPath_reaches h, bind_of_ok hresult]
  exact ⟨_, _, hfinal, hpassed, rfl⟩

theorem restored_ends {s : Gateway} {t : Target} (w : RenameFaults) (replaced : Option PathMetadataState)
    (h : Touches b path s t) : (restorePathMetadata w path replaced s).result = .ok ⟨⟩ ∧
    Touches b path (restorePathMetadata w path replaced s).final
    (restoreTarget w path (b.sessionAttributes path) replaced t).final := by
  obtain ⟨_, hfinal, hresult⟩ := restorePathMetadata_simulates replaced s t h
  rw [(restoreTarget_eq ..).1] at hresult
  exact ⟨hresult, hfinal⟩

end

end Bluestone
