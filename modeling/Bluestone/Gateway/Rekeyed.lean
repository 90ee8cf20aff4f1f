/-
# `Bluestone.Gateway.Rekeyed` — a staged rename that succeeds

The state in which `RenameStagedPath` returns nil, as one update for each of its
maps (`Gateway.finished`).
-/
import Bluestone.Gateway.Target

namespace Bluestone

open Cuts
open Function (update update_self update_of_ne)

namespace Gateway

section
variable (g : Gateway) (old new : String)

theorem closeReplaced_eq :
    g.closeReplaced new = { g with
      listed := update g.listed new none
      session := match g.listed new with
        | none => g.session
        | some sid => update g.session sid
            { g.session sid with dirty := false, file := none } } := by
  unfold closeReplaced
  cases h : g.listed new with
  | none =>
    simp only
    rw [← h, Function.update_eq_self]
  | some sid => rfl

theorem rekeySession_eq :
    g.rekeySession old new = { g with
      listed := match g.listed old with
        | none => g.listed
        | some sid => update (update g.listed old none) new (some sid)
      session := match g.listed old with
        | none => g.session
        | some sid => update g.session sid (g.session sid).metadataChanged
      stagingOf := match g.listed old with
        | none => g.stagingOf
        | some sid => update g.stagingOf sid new } := by
  unfold rekeySession
  cases g.listed old <;> rfl

variable (w : RenameFaults)

/-- The state after the move and what follows it. -/
def finished : Gateway :=
  ((((((g.moveStagingFile old new).addTombstone old w.tombstone).removeSidecar old
    w.removeSidecar).closeReplaced new).rekeySession old new)).rekeyEntry old new

theorem finished_inode : (g.finished old new w).inode = g.inode ∧
    (g.finished old new w).object = g.object ∧ (g.finished old new w).conflicted = g.conflicted ∧
    (g.finished old new w).syncing = g.syncing := by
  simp only [finished, rekeyEntry, rekeySession_eq, closeReplaced_eq, removeSidecar, addTombstone]
  cases w.tombstone <;> cases w.removeSidecar <;> exact ⟨rfl, rfl, rfl, rfl⟩

theorem finished_dataFile : (g.finished old new w).dataFile =
    update (update g.dataFile old none) new (g.dataFile old) := by
  simp only [finished, rekeyEntry, rekeySession_eq, closeReplaced_eq, removeSidecar, addTombstone]
  cases w.tombstone <;> cases w.removeSidecar <;> rfl

theorem finished_tombstone :
    (g.finished old new w).tombstone =
      if w.tombstone then g.tombstone else update g.tombstone old true := by
  simp only [finished, rekeyEntry, rekeySession_eq, closeReplaced_eq, removeSidecar, addTombstone]
  cases w.tombstone <;> cases w.removeSidecar <;> rfl

theorem finished_sidecar :
    (g.finished old new w).sidecar =
      if w.removeSidecar then g.sidecar else update g.sidecar old none := by
  simp only [finished, rekeyEntry, rekeySession_eq, closeReplaced_eq, removeSidecar, addTombstone]
  cases w.tombstone <;> cases w.removeSidecar <;> rfl

theorem finished_dirty : (g.finished old new w).dirty =
    update (update g.dirty old none) new (some ⟨g.generation + 1, true⟩) := by
  simp only [finished, rekeyEntry, rekeySession_eq, closeReplaced_eq, removeSidecar, addTombstone]
  cases w.tombstone <;> cases w.removeSidecar <;> rfl

theorem finished_listed :
    (g.finished old new w).listed =
      match update g.listed new none old with
      | none => update g.listed new none
      | some sid => update (update (update g.listed new none) old none)
          new (some sid) := by
  simp only [finished, rekeyEntry, rekeySession_eq, closeReplaced_eq, removeSidecar, addTombstone]
  cases w.tombstone <;> cases w.removeSidecar <;> rfl

theorem finished_listed_self :
    (g.finished old old w).listed = update g.listed old none := by
  rw [finished_listed, update_self]

/-- The session a name lists changes by `f`. -/
def onListed (listed : Option Nat) (f : WriteSession → WriteSession) (session : Nat → WriteSession) :
    Nat → WriteSession :=
  match listed with
  | none => session
  | some sid => update session sid (f (session sid))

theorem finished_session : (g.finished old new w).session =
    onListed (update g.listed new none old) WriteSession.metadataChanged
    (onListed (g.listed new) (fun ws => { ws with dirty := false, file := none })
    (onListed (g.listed old) WriteSession.metadataChanged g.session)) := by
  simp only [finished, rekeyEntry, rekeySession_eq, closeReplaced_eq, removeSidecar, addTombstone,
    moveStagingFile, onListed]
  cases w.tombstone <;> cases w.removeSidecar <;> rfl

end

end Gateway

section
variable {g : Gateway} {w : RenameFaults} {old new : String}

theorem moveAndFinish_moved (s : Gateway) (old new : String) (hm : w.move = .moved)
    (replaced : Option PathMetadataState) : (moveAndFinish w old new replaced s).result = .ok ⟨⟩ ∧
    (moveAndFinish w old new replaced s).final = s.finished old new w := by
  simp only [moveAndFinish, moveStagedData, hm]
  exact ⟨rfl, rfl⟩

theorem moved_ends (h : Reaches g w old new) (hs : w.sidecar = false) (hm : w.move = .moved) :
    (renameStagedPath w old new g).result = .ok ⟨⟩ ∧
    ∃ s, Touches g new s (((g.target new).cancel w.cancel).write (g.intent w old new)) ∧
    (renameStagedPath w old new g).final = s.finished old new w := by
  obtain ⟨s, passed, htouch, _, hrun⟩ := prepared_ends h hs
  obtain ⟨hresult, hfinal⟩ := moveAndFinish_moved s old new hm
    (if w.readReplaced then none else g.sidecar new)
  rw [hrun]
  exact ⟨hresult, s, htouch, hfinal⟩

end

end Bluestone
