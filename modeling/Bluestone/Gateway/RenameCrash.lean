/-
# `Bluestone.Gateway.RenameCrash` — a crash inside a staged rename

What recovery makes of the two names when the gateway crashes between two
operations of `RenameStagedPath`.  Until the byte move the source is as it was;
from then on its bytes are under the new name with the sidecar that describes them
(`HasMoved`).

The destination loses its pending delete and its sidecar before the move, and
nothing on disk remembers them.  `DestinationApart` says exactly when it comes back
as it was.
-/
import Bluestone.Gateway.Target

namespace Bluestone

open Function Cuts
open Gateway (target recoverAt blank)

/-- What recovery lists as dirty under `path`: its bytes and attributes. -/
def Gateway.recovered (g : Gateway) (path : String) : Option (Bytes × StagedAttributes) :=
  if (g.recoverAt path).dirty.isSome then
    some ((g.recoverAt path).currentBytes, ((g.recoverAt path).session 0).attrs)
  else none

/-- The source comes back dirty under one of its two names, with its bytes and
with the attributes its sidecar or its session had. -/
def RecoversSource (g g' : Gateway) (old new : String) (x : Bytes × StagedAttributes) : Prop :=
  g'.recovered old = some x ∨
    g'.recovered new = some (x.1, (g.renamedAttributes old).getD .default)

/-- The destination comes back as it would have before the call. -/
def RecoversDestination (g g' : Gateway) (new : String) : Prop :=
  g'.recovered new = g.recovered new ∧ g'.tombstone new = g.tombstone new

/-- A crash that leaves `g'` loses nothing: the source comes back, and so does the
destination unless the bytes have moved. -/
def CrashSafe (g g' : Gateway) (old new : String) : Prop :=
  (∀ x, g.recovered old = some x → RecoversSource g g' old new x) ∧
    (g'.dataFile old = g.dataFile old → RecoversDestination g g' new)

/-- What a staged destination needs for its sidecar to be replaced: one with the
attributes of the source, which the take-back of a move that fails can read or
cannot remove, and no other attributes in memory to write instead. -/
structure KeepsAttributes (g : Gateway) (w : RenameFaults) (old new : String) : Prop where
  same : (g.target new).attributes new = some ((g.intendedAttributes w old).getD .default)
  readable : w.move = .failed → w.readReplaced = true → w.takeBack = true
  session : w.move = .failed → w.takeBack = true → w.record = false → (g.dirty new).isSome = true →
    ∀ attrs, g.sessionAttributes new = some attrs → attrs = (g.intendedAttributes w old).getD .default

/-- The condition: a pending delete of the destination cannot be cancelled and the
source then does not move there, a staged destination keeps its attributes, and a
source that moves has the attributes of a sidecar that cannot be read in its session. -/
structure DestinationApart (g : Gateway) (w : RenameFaults) (old new : String) : Prop where
  pending : g.tombstone new = true →
    w.cancel = true ∧ (w.sidecar = false → w.move = .moved → g.recovered old = none)
  staged : g.tombstone new = false → (g.dataFile new).isSome = true → w.sidecar = false →
    KeepsAttributes g w old new
  found : w.sidecar = false → w.move = .moved → (g.recovered old).isSome = true →
    (g.intendedAttributes w old).getD .default = (g.renamedAttributes old).getD .default

/-! ## What recovery reads -/

/-- What comes back of a file and a target. -/
def recoveredFrom (file : Option Bytes) (t : Target) (path : String) :
    Option (Bytes × StagedAttributes) :=
  if t.tombstone then none
  else match file, t.attributes path with
    | some bytes, some attrs => some (bytes, attrs)
    | _, _ => none

section
variable {g g' s s' : Gateway} {w : RenameFaults} {old new path : String} {t : Target}

theorem recovered_of_clean (h : (g.recoverAt path).dirty = none) : g.recovered path = none := by
  simp [Gateway.recovered, h]

theorem recovered_eq (g : Gateway) (path : String) :
    g.recovered path = recoveredFrom ((g.dataFile path).map g.inode) (g.target path) path := by
  cases hd : g.dataFile path with
  | none =>
    rw [recovered_of_clean (recover_unstaged (.inl hd))]
    simp [recoveredFrom]
  | some f =>
    cases hs : g.sidecar path with
    | none =>
      rw [recovered_of_clean (recover_unstaged (.inr hs))]
      simp [recoveredFrom, Target.attributes, target, hs]
    | some state =>
      by_cases hlive : state.originalPath = path ∧ g.tombstone path = false
      · obtain ⟨hdirty, _, hbytes, hattrs⟩ :=
          recover_staged (s := g.slice path) (d := g.disk path) hd hs hlive.1 hlive.2
        rw [Gateway.recovered, recoverAt, if_pos hdirty, hbytes, hattrs]
        simp [recoveredFrom, Target.attributes, target, hs, hlive]
        rfl
      · have hclean : (g.recoverAt path).dirty = none := by
          unfold recoverAt State.recover recoverFromDisk
          simp only [Gateway.disk, hd, hs, Gateway.slice]
          split
          · rfl
          · rename_i hp
            rw [if_pos (Bool.eq_true_of_not_eq_false fun ht => hlive ⟨not_not.1 hp, ht⟩)]
            rfl
        rw [recovered_of_clean hclean]
        by_cases hp : state.originalPath = path
        · have ht : g.tombstone path := Bool.eq_true_of_not_eq_false fun h => hlive ⟨hp, h⟩
          simp [recoveredFrom, target, ht]
        · simp [recoveredFrom, Target.attributes, target, hs, hp]

/-! ## Before the move -/

/-- What comes back of the destination is what would have. -/
def Returns (g : Gateway) (new : String) (t : Target) : Prop :=
  recoveredFrom ((g.dataFile new).map g.inode) t new = g.recovered new ∧
    t.tombstone = g.tombstone new

theorem crashSafe_iff (hne : old ≠ new) (h : Touches g new g' t) :
    CrashSafe g g' old new ↔ Returns g new t := by
  have hold : g'.recovered old = g.recovered old := by
    rw [recovered_eq, recovered_eq, h.target_of_ne hne, h.staged.dataFile, h.staged.inode]
  have hnew : g'.recovered new = recoveredFrom ((g.dataFile new).map g.inode) t new := by
    rw [recovered_eq, h.target_self, h.staged.dataFile, h.staged.inode]
  have htomb : g'.tombstone new = t.tombstone := congrArg Target.tombstone h.target_self
  unfold CrashSafe RecoversDestination Returns
  rw [hnew, htomb]
  constructor
  · intro hsafe
    exact hsafe.2 (by rw [h.staged.dataFile])
  · intro hreturns
    exact ⟨fun x hx => .inl (hold.trans hx), fun _ => hreturns⟩

theorem returns_of_nothing (ht : t.tombstone = g.tombstone new)
    (h : g.tombstone new ∨ g.dataFile new = none) : Returns g new t := by
  refine ⟨?_, ht⟩
  rw [recovered_eq]
  rcases h with htomb | hnone
  · simp [recoveredFrom, target, ht, htomb]
  · simp [recoveredFrom, hnone]

theorem returns_iff (ht : t.tombstone = false) (hlive : g.tombstone new = false)
    (hd : (g.dataFile new).isSome) :
    Returns g new t ↔ t.attributes new = (g.target new).attributes new := by
  obtain ⟨f, hf⟩ := Option.isSome_iff_exists.1 hd
  have htomb : (g.target new).tombstone = false := hlive
  simp only [Returns, recovered_eq, recoveredFrom, hf, ht, hlive, htomb, Option.map_some, and_true]
  cases t.attributes new <;> cases (g.target new).attributes new <;> simp

theorem returns_cancel : Returns g new ((g.target new).cancel w.cancel) ↔
    (g.tombstone new → w.cancel) := by
  constructor
  · intro h htomb
    have hsame : ((g.target new).cancel w.cancel).tombstone := h.2.trans htomb
    cases hc : w.cancel with
    | true => rfl
    | false =>
      rw [hc] at hsame
      exact nomatch hsame
  · intro h
    rw [(cancel_eq_iff ..).2 h]
    exact ⟨(recovered_eq g new).symm, rfl⟩

theorem attributes_write (t : Target) (w : RenameFaults) (old new : String) :
    (t.write (g.intent w old new)).attributes new = some ((g.intendedAttributes w old).getD .default) := by
  simp [Target.write, Target.attributes, Gateway.intent]

/-- The take-back of a staged destination whose sidecar had the attributes of the
source, from a target `t` with the intent in it. -/
theorem restoreTarget_returns (ht : t.tombstone = false)
    (hrec : t.recorded = (g.dirty new).map (·.recorded))
    (hintent : t.sidecar.bind (·.attributes) = g.intendedAttributes w old)
    (hwritten : t.attributes new = some ((g.intendedAttributes w old).getD .default))
    (hlive : g.tombstone new = false) (hd : (g.dataFile new).isSome)
    (hsame : (g.target new).attributes new = some ((g.intendedAttributes w old).getD .default)) :
    (∀ t' ∈ (restoreTarget w new (g.sessionAttributes new)
        (if w.readReplaced then none else g.sidecar new) t).passed, Returns g new t') ↔
      (w.readReplaced → w.takeBack) ∧
        (w.takeBack → w.record = false → (g.dirty new).isSome →
          ∀ attrs, g.sessionAttributes new = some attrs →
            attrs = (g.intendedAttributes w old).getD .default) := by
  have hreturns : ∀ t : Target, t.tombstone = false →
      (Returns g new t ↔ t.attributes new = some ((g.intendedAttributes w old).getD .default)) := by
    intro t ht
    rw [returns_iff ht hlive hd, hsame]
  rw [restoreTarget_passed]
  cases hback : w.takeBack with
  | false =>
    cases hread : w.readReplaced with
    | true =>
      -- the intent is removed, and the file is there without a sidecar
      have hgone : ¬ Returns g new t.remove := by
        rw [hreturns t.remove ht]
        exact nofun
      refine iff_of_false (fun h => hgone ?_) (by simp)
      simp only [if_true] at h
      split at h <;> first | exact h _ List.mem_cons_self | contradiction
    | false =>
      cases hs : g.sidecar new with
      | none => simp [Target.attributes, target, hs] at hsame
      | some state =>
        have hput : Returns g new (t.write state) := by
          rw [hreturns (t.write state) ht, ← hsame]
          simp [Target.attributes, Target.write, target, hs]
        simp [hput]
  | true =>
    simp only [true_implies, implies_true, true_and]
    cases hdirty : g.dirty new with
    | none =>
      rw [hrec, hdirty]
      simp [hreturns t ht, hwritten]
    | some entry =>
      rw [hrec, hdirty]
      cases w.record with
      | true =>
        have hmark : Returns g new t.unrecord := (hreturns t.unrecord ht).2 hwritten
        simp [hmark]
      | false =>
        have hrecord : (t.record new (g.sessionAttributes new)).attributes new =
            some ((if (g.sessionAttributes new).isSome then g.sessionAttributes new
              else g.intendedAttributes w old).getD .default) := by
          simp [Target.record, Target.attributes, hintent]
        have hlast := hreturns (t.record new (g.sessionAttributes new)) ht
        rw [hrecord] at hlast
        cases hattrs : g.sessionAttributes new with
        | none | some attrs =>
          rw [hattrs] at hlast
          simp [hlast]

/-! ## After the move -/

/-- The disk after the move: the source's bytes are under the new name, with the
target the preparation left. -/
structure HasMoved (g g' : Gateway) (old new : String) (t : Target) : Prop where
  inode : g'.inode = g.inode
  source : g'.dataFile old = none
  destination : g'.dataFile new = g.dataFile old
  tombstone : g'.tombstone new = t.tombstone
  sidecar : g'.sidecar new = t.sidecar

theorem HasMoved.congr (h : HasMoved g s old new t) (hi : s'.inode = s.inode)
    (hd : s'.dataFile = s.dataFile) (ht : s'.tombstone = s.tombstone) (hs : s'.sidecar = s.sidecar) :
    HasMoved g s' old new t := by
  refine ⟨hi.trans h.inode, ?_, ?_, ?_, ?_⟩
  · rw [hd]
    exact h.source
  · rw [hd]
    exact h.destination
  · rw [ht]
    exact h.tombstone
  · rw [hs]
    exact h.sidecar

theorem HasMoved.move (hne : old ≠ new) (h : Touches g new s t) :
    HasMoved g (s.moveStagingFile old new) old new t := by
  refine ⟨h.staged.inode, ?_, ?_, congrArg Target.tombstone h.target_self,
    congrArg Target.sidecar h.target_self⟩
  · simp [Gateway.moveStagingFile, update_of_ne hne]
  · simp [Gateway.moveStagingFile, h.staged.dataFile]

theorem finishRename_hasMoved (hne : old ≠ new) : Triple (fun s => HasMoved g s old new t)
    (finishRename w old new) (fun _ _ => True) (fun _ _ => True) (fun s => HasMoved g s old new t) := by
  have hstep : ∀ f : Gateway → Gateway, (∀ s, HasMoved g s old new t → HasMoved g (f s) old new t) →
      Triple (fun s => HasMoved g s old new t) (Program.step f : Program Gateway RenameError Unit)
        (fun _ s => HasMoved g s old new t) (fun _ _ => True) (fun s => HasMoved g s old new t) :=
    fun f hf => Triple.step fun s hs => ⟨hs, hf s hs, hf s hs⟩
  refine Triple.bind (hstep _ fun s hs => ?_) fun _ => Triple.bind (hstep _ fun s hs => ?_) fun _ =>
    Triple.bind (hstep _ fun s hs => ?_) fun _ => (hstep _ fun s hs => ?_).conseq (fun _ hs => hs)
      (fun _ _ _ => trivial) fun _ _ _ => trivial
  · unfold Gateway.addTombstone
    split
    · exact hs
    · refine ⟨hs.inode, hs.source, hs.destination, ?_, hs.sidecar⟩
      show update s.tombstone old true new = _
      rw [update_of_ne hne.symm]
      exact hs.tombstone
  · unfold Gateway.removeSidecar
    split
    · exact hs
    · refine ⟨hs.inode, hs.source, hs.destination, hs.tombstone, ?_⟩
      show update s.sidecar old none new = _
      rw [update_of_ne hne.symm]
      exact hs.sidecar
  · refine hs.congr ?_ ?_ ?_ ?_ <;>
      (unfold Gateway.rekeySession Gateway.closeReplaced; repeat' split) <;> rfl
  · exact hs.congr rfl rfl rfl rfl

/-- From the move on the source comes back under the new name, unless a pending
delete is still there or the attributes written are not its own. -/
theorem HasMoved.crashSafe_iff {attrs : StagedAttributes} (h : HasMoved g g' old new t)
    (hf : (g.dataFile old).isSome) (ht : t.attributes new = some attrs) :
    CrashSafe g g' old new ↔ ∀ x, g.recovered old = some x →
    t.tombstone = false ∧ attrs = (g.renamedAttributes old).getD .default := by
  obtain ⟨f, hf⟩ := Option.isSome_iff_exists.1 hf
  have hold : g'.recovered old = none := by
    rw [recovered_eq, h.source]
    simp [recoveredFrom]
  have hnew : g'.recovered new = if t.tombstone then none else some (g.inode f, attrs) := by
    have hattrs : (g'.target new).attributes new = t.attributes new := by
      simp [Target.attributes, target, h.sidecar]
    have htomb : (g'.target new).tombstone = t.tombstone := h.tombstone
    rw [recovered_eq, h.destination, h.inode, hf]
    simp only [recoveredFrom, Option.map_some, hattrs, htomb, ht]
  have hbytes : ∀ x, g.recovered old = some x → x.1 = g.inode f := by
    intro x hx
    rw [recovered_eq, hf] at hx
    simp only [recoveredFrom, Option.map_some] at hx
    split at hx
    · cases hx
    · split at hx
      · rw [← Option.some.inj hx]
        simp_all
      · cases hx
  have hgone : g'.dataFile old ≠ g.dataFile old := by
    rw [h.source, hf]
    simp
  unfold CrashSafe RecoversSource
  rw [hold, hnew]
  constructor
  · rintro ⟨hsource, _⟩ x hx
    rcases hsource x hx with hnone | hmoved
    · cases hnone
    · cases htomb : t.tombstone with
      | true =>
        rw [if_pos htomb] at hmoved
        cases hmoved
      | false =>
        rw [if_neg (by simp [htomb])] at hmoved
        exact ⟨rfl, congrArg Prod.snd (Option.some.inj hmoved)⟩
  · intro hmoved
    refine ⟨fun x hx => .inr ?_, fun hsame => absurd hsame hgone⟩
    obtain ⟨htomb, hattrs⟩ := hmoved x hx
    rw [if_neg (by simp [htomb]), hattrs, hbytes x hx]

/-! ## Every crash -/

theorem stopped_crashSafe (hne : old ≠ new) (h : ¬ Reaches g w old new) :
    ∀ g' ∈ (renameStagedPath w old new).crashes g, CrashSafe g g' old new := by
  have hsame : CrashSafe g g old new := ⟨fun x hx => .inl hx, fun _ => ⟨rfl, rfl⟩⟩
  intro g' hg'
  rcases List.mem_cons.1 hg' with rfl | hpassed
  · exact hsame
  rcases renameStagedPath_stopped h with hcall | hcall | ⟨hf, hcall⟩
  · rw [hcall] at hpassed
    cases hpassed
  · rw [hcall] at hpassed
    cases hpassed
  · rw [hcall] at hpassed
    obtain rfl : g' = g.on old State.dropEntryWithoutStagedBytes := List.mem_singleton.1 hpassed
    refine ⟨fun x hx => ?_, fun _ => ⟨?_, ?_⟩⟩
    · rw [recovered_eq, hf] at hx
      simp [recoveredFrom] at hx
    · rw [recovered_eq, recovered_eq, target_drop, update_of_ne hne.symm,
        Gateway.dropEntryWithoutStagedBytes_eq]
    · rw [Gateway.dropEntryWithoutStagedBytes_eq]

theorem forall_crashSafe (hne : old ≠ new) {passed : List Gateway} {targets : List Target}
    (hpassed : List.Forall₂ (Touches g new) passed targets) :
    (∀ g' ∈ g :: passed, CrashSafe g g' old new) ↔ ∀ t ∈ targets, Returns g new t := by
  have hstart : Returns g new (g.target new) := ⟨(recovered_eq g new).symm, rfl⟩
  rw [forall_mem_iff_of_forall₂ (p := fun g' => CrashSafe g g' old new) (q := Returns g new)
    (fun _ _ h => crashSafe_iff hne h) (.cons (.refl g new) hpassed), List.forall_mem_cons]
  exact and_iff_right hstart

theorem prepared_crashSafe (hne : old ≠ new) {passed : List Gateway}
    (hpassed : List.Forall₂ (Touches g new) passed [(g.target new).cancel w.cancel,
    (g.target new).cancel w.cancel, ((g.target new).cancel w.cancel).write (g.intent w old new)]) :
    (∀ g' ∈ g :: passed, CrashSafe g g' old new) ↔ Returns g new ((g.target new).cancel w.cancel) ∧
    Returns g new (((g.target new).cancel w.cancel).write (g.intent w old new)) := by
  rw [forall_crashSafe hne hpassed]
  simp

theorem returns_written (h : g.tombstone new → w.cancel) :
    Returns g new (((g.target new).cancel w.cancel).write (g.intent w old new)) ↔
    (g.tombstone new = false → (g.dataFile new).isSome →
    (g.target new).attributes new = some ((g.intendedAttributes w old).getD .default)) := by
  have hcancel : (g.target new).cancel w.cancel = g.target new := (cancel_eq_iff ..).2 h
  rw [hcancel]
  cases htomb : g.tombstone new with
  | true =>
    refine iff_of_true (returns_of_nothing rfl (.inl htomb)) nofun
  | false =>
    cases hf : g.dataFile new with
    | none => exact iff_of_true (returns_of_nothing rfl (.inr hf)) nofun
    | some f =>
      rw [returns_iff (t := (g.target new).write (g.intent w old new)) htomb htomb (by rw [hf]; rfl),
        attributes_write]
      simp [eq_comm]

theorem moved_crashSafe {attrs : StagedAttributes} (hne : old ≠ new) (hf : (g.dataFile old).isSome)
    (hm : w.move = .moved) (h : Touches g new s t) (ht : t.attributes new = some attrs)
    (replaced : Option PathMetadataState) :
    (∀ g' ∈ (moveAndFinish w old new replaced s).passed, CrashSafe g g' old new) ↔
    ∀ x, g.recovered old = some x → t.tombstone = false ∧ attrs = (g.renamedAttributes old).getD .default := by
  have hpassed : (moveAndFinish w old new replaced s).passed =
      (finishRename w old new).crashes (s.moveStagingFile old new) := by
    simp only [moveAndFinish, moveStagedData, hm]
    rfl
  have hall := (finishRename_hasMoved (w := w) hne _ (HasMoved.move hne h)).1
  rw [hpassed]
  constructor
  · intro hsafe
    exact ((HasMoved.move hne h).crashSafe_iff hf ht).1 (hsafe _ List.mem_cons_self)
  · intro hmoved g' hg'
    exact ((hall g' hg').crashSafe_iff hf ht).2 hmoved

theorem failed_crashSafe (hne : old ≠ new) (hm : w.move = .failed) (h : Touches g new s t)
    (replaced : Option PathMetadataState) :
    (∀ g' ∈ (moveAndFinish w old new replaced s).passed, CrashSafe g g' old new) ↔
    ∀ t' ∈ (restoreTarget w new (g.sessionAttributes new) replaced t).passed, Returns g new t' := by
  have hpassed : (moveAndFinish w old new replaced s).passed =
      (restorePathMetadata w new replaced s).passed := by
    simp only [moveAndFinish, moveStagedData, hm]
    rw [bind_of_error (e := .move)] <;> rw [bind_of_ok (restored_ends w replaced h).1]
    · exact List.append_nil _
    · rfl
  rw [hpassed]
  exact forall_mem_iff_of_forall₂ (fun _ _ h => crashSafe_iff hne h)
    (restorePathMetadata_simulates replaced s t h).passed

end

/-- Wherever a crash falls in a rename from one name to another, the source comes
back under one of them, and until the byte move the destination comes back as it
was: exactly when the call stops at its checks or the destination is apart. -/
theorem renamed_recovers_iff {g : Gateway} {w : RenameFaults} {old new : String} (hne : old ≠ new)
    (hv : ∀ uploaded, w.move ≠ .vanished uploaded) :
    (∀ g' ∈ (renameStagedPath w old new).crashes g, CrashSafe g g' old new) ↔ (Reaches g w old new →
    DestinationApart g w old new) := by
  by_cases hreach : Reaches g w old new
  swap
  · exact iff_of_true (stopped_crashSafe hne hreach) fun h => absurd h hreach
  simp only [hreach, true_implies]
  cases hs : w.sidecar with
  | true =>
    obtain ⟨hpassed, _, hresult⟩ := prepareDestination_simulates g w old new
    rw [prepareTarget_fails hs] at hpassed hresult
    rw [Program.crashes, renameStagedPath_reaches hreach, bind_of_error hresult,
      forall_crashSafe hne hpassed]
    simp only [List.forall_mem_cons, returns_cancel]
    constructor
    · rintro ⟨h, _⟩
      exact ⟨fun ht => ⟨h ht, fun hf => by cases hs.symm.trans hf⟩,
        fun _ _ hf => (by cases hs.symm.trans hf), fun hf => by cases hs.symm.trans hf⟩
    · intro h
      exact ⟨fun ht => (h.pending ht).1, fun ht => (h.pending ht).1, by simp⟩
  | false =>
    obtain ⟨s, passed, htouch, hpassed, hrun⟩ := prepared_ends hreach hs
    rw [Program.crashes, hrun]
    show (∀ g' ∈ (g :: passed) ++ _, _) ↔ _
    rw [List.forall_mem_append, prepared_crashSafe hne hpassed, returns_cancel]
    cases hm : w.move with
    | vanished uploaded => exact absurd hm (hv uploaded)
    | moved =>
      rw [moved_crashSafe hne hreach.2.2.2 hm htouch (attributes_write ..)]
      constructor
      · rintro ⟨⟨hcancel, hwritten⟩, hmoved⟩
        rw [returns_written hcancel] at hwritten
        rw [(cancel_eq_iff ..).2 hcancel] at hmoved
        refine ⟨fun ht => ⟨hcancel ht, fun _ _ => ?_⟩, fun ht hd _ => ⟨hwritten ht hd, ?_, ?_⟩,
          fun _ _ hsome => ?_⟩
        · cases hx : g.recovered old with
          | none => rfl
          | some x => cases ht.symm.trans (hmoved x hx).1
        · exact fun hfail => by cases hm.symm.trans hfail
        · exact fun hfail => by cases hm.symm.trans hfail
        · obtain ⟨x, hx⟩ := Option.isSome_iff_exists.1 hsome
          exact (hmoved x hx).2
      · intro h
        have hcancel := fun ht => (h.pending ht).1
        refine ⟨⟨hcancel, ?_⟩, fun x hx => ⟨?_, h.found hs hm (by rw [hx]; rfl)⟩⟩
        · rw [returns_written hcancel]
          exact fun ht hd => (h.staged ht hd hs).same
        · rw [(cancel_eq_iff ..).2 hcancel]
          refine Bool.eq_false_iff.2 fun ht => ?_
          cases hx.symm.trans ((h.pending ht).2 hs hm)
    | failed =>
      rw [failed_crashSafe hne hm htouch]
      constructor
      · rintro ⟨⟨hcancel, hwritten⟩, hback⟩
        rw [returns_written hcancel] at hwritten
        rw [(cancel_eq_iff ..).2 hcancel] at hback
        refine ⟨fun ht => ⟨hcancel ht, fun _ hmoved => by cases hm.symm.trans hmoved⟩,
          fun ht hd _ => ?_, fun _ hmoved => by cases hm.symm.trans hmoved⟩
        rw [restoreTarget_returns ht rfl rfl (attributes_write ..) ht hd (hwritten ht hd)] at hback
        exact ⟨hwritten ht hd, fun _ => hback.1, fun _ => hback.2⟩
      · intro h
        have hcancel := fun ht => (h.pending ht).1
        refine ⟨⟨hcancel, ?_⟩, ?_⟩
        · rw [returns_written hcancel]
          exact fun ht hd => (h.staged ht hd hs).same
        · rw [(cancel_eq_iff ..).2 hcancel]
          by_cases hlive : g.tombstone new = false ∧ (g.dataFile new).isSome
          · obtain ⟨ht, hd⟩ := hlive
            have hkeeps := h.staged ht hd hs
            exact (restoreTarget_returns ht rfl rfl (attributes_write ..) ht hd hkeeps.same).2
              ⟨hkeeps.readable hm, hkeeps.session hm⟩
          · intro t' ht'
            refine returns_of_nothing (restoreTarget_passed_tombstone _ ht') ?_
            rcases Bool.eq_false_or_eq_true (g.tombstone new) with ht | ht
            · exact .inl ht
            · exact .inr (Option.not_isSome_iff_eq_none.1 fun hd => hlive ⟨ht, hd⟩)

/-- `/a` is staged, and the delete of `/b` was accepted and not carried out yet. -/
def Gateway.deletedTarget : Gateway :=
  { blank.stage "/a" [1] with
    object := update (fun _ => none) "/b" (some ⟨[2], .default⟩)
    tombstone := update (fun _ => false) "/b" true }

/-- `/a` and `/b` are staged, `/b` with a mode of its own. -/
def Gateway.stagedTarget : Gateway :=
  ((blank.stage "/a" [1]).stage "/b" [2]).recordDirtyPath "/b"
    (some { StagedAttributes.default with mode := 0o644 })

/-- A crash after the pending delete of the destination was cancelled forgets the
delete; one after its sidecar was replaced gives it the attributes of the
source.  In both the byte move has not happened. -/
theorem destination_not_recovered :
    (∃ g', g' ∈ (renameStagedPath {} "/a" "/b").crashes Gateway.deletedTarget ∧
    g'.dataFile "/a" = Gateway.deletedTarget.dataFile "/a" ∧
    Gateway.deletedTarget.tombstone "/b" = true ∧ g'.tombstone "/b" = false ∧
    ¬ RecoversDestination Gateway.deletedTarget g' "/b") ∧
    (∃ g', g' ∈ (renameStagedPath {} "/a" "/b").crashes Gateway.stagedTarget ∧
    g'.dataFile "/a" = Gateway.stagedTarget.dataFile "/a" ∧
    ¬ RecoversDestination Gateway.stagedTarget g' "/b") := by
  refine ⟨⟨_, .tail _ (.head _), rfl, rfl, rfl, ?_⟩, ⟨_, .tail _ (.tail _ (.tail _ (.head _))), rfl, ?_⟩⟩
  · rintro ⟨_, htomb⟩
    exact nomatch htomb
  · rintro ⟨hbytes, _⟩
    exact absurd hbytes (by decide)

/-- A rename onto a name with nothing staged survives every crash. -/
theorem renamed_recovers_unstaged : "/a" ≠ "/b" ∧
    ∀ g' ∈ (renameStagedPath {} "/a" "/b").crashes (blank.stage "/a" [1]),
    CrashSafe (blank.stage "/a" [1]) g' "/a" "/b" :=
  ⟨by decide, (renamed_recovers_iff (g := blank.stage "/a" [1]) (w := {}) (by decide) nofun).2
    fun _ => ⟨nofun, nofun, fun _ _ _ => rfl⟩⟩

end Bluestone
