/-
# `Bluestone.Gateway.Counted` — the reference counts along a run

Removes, syncs and deferred deletes as moves on the ledger, and from all the
operations the invariant of a run.  It does not hold of every run.  An open whose truncation fails keeps its
reference, and a handle gives its reference back by path: once a rename or a
remove has given its path to another session, that one's count is wrong.
`KeepsReferences` excludes the two.
-/
import Bluestone.Gateway.References

namespace Bluestone

open Cuts Runs References

section
variable {g : Gateway} {path : String} {sid : Nat} {hs : List (Holder String)} {P : Ledger String → Prop}
  {w : CallFaults} {wr : RemoveFaults}

/-! ## Removing -/

theorem quiet_deleteObject (hP : Upward P) : Preserves (fun g => P g.ledger) (deleteObject wr path) := by
  unfold deleteObject
  split
  · split
    · exact Preserves.bind (quiet_step hP fun _ => ledger_refl) fun _ => Preserves.fail
    · exact Preserves.fail
  · exact quiet_step hP fun _ => ledger_refl

theorem exact_registerPendingDelete (hfree : Free hs path) :
    Preserves (fun g => Exact g.ledger hs) (registerPendingDelete wr path) := by
  unfold registerPendingDelete
  split
  · exact Preserves.fail
  refine Preserves.bind (quiet_step upward_exact fun _ => ledger_refl) fun _ =>
    Preserves.read fun g _ => ?_
  split
  · exact Preserves.done
  · exact Preserves.bind (quiet_step upward_exact fun _ => ledger_refl) fun _ =>
      Preserves.bind (Preserves.step fun _ h => exact_discardDeletedStaging h hfree) fun _ =>
        Preserves.bind (quiet_step upward_exact fun _ => ledger_refl) fun _ => Preserves.done

theorem exact_cleanupAfterDelete (hfree : Free hs path) :
    Preserves (fun g => Exact g.ledger hs) (cleanupAfterDelete path) := by
  refine Preserves.read fun g _ => ?_
  split
  · exact Preserves.done
  · exact Preserves.step fun _ h => exact_cleanupSession h hfree

theorem exact_removeDirtyStagedFile (hfree : Free hs path) :
    Preserves (fun g => Exact g.ledger hs) (removeDirtyStagedFile wr path) := by
  refine Preserves.bind (exact_registerPendingDelete hfree) fun immediate => ?_
  split
  · refine Preserves.bind (quiet_deleteObject upward_exact).attempt fun r => ?_
    split
    · exact Preserves.bind (quiet_step upward_exact fun _ => ledger_cancelPendingDelete _) fun _ =>
        exact_cleanupAfterDelete hfree
    · exact Preserves.done
  · exact Preserves.done

theorem exact_removeFile {known : List String} (hfree : Free hs path) :
    Preserves (fun g => Exact g.ledger hs) (removeFile known wr path) := by
  unfold removeFile
  split
  · exact Preserves.fail
  refine Preserves.read fun g _ => ?_
  split
  · exact exact_removeDirtyStagedFile hfree
  split
  · exact Preserves.fail
  split
  · exact Preserves.done
  · exact Preserves.done
  · exact Preserves.fail
  · refine Preserves.bind (quiet_deleteObject upward_exact).attempt fun r => ?_
    split
    · exact exact_cleanupAfterDelete hfree
    · exact Preserves.bind (exact_registerPendingDelete hfree) fun _ => Preserves.done

theorem exact_deletePending (hg : Exact g.ledger hs) (hfree : g.tombstone path → Free hs path) :
    Triple (fun g' => g' = g) (deletePending wr path) (fun _ g' => Exact g'.ledger hs)
    (fun _ g' => Exact g'.ledger hs) (fun _ => True) := by
  refine Triple.read ?_
  rintro g rfl
  split
  · exact quiet_done_at (P := (Exact · hs)) hg
  rename_i hbusy
  have hpending : g.syncing path = false ∧ g.tombstone path := by simpa using hbusy
  have hfree := hfree hpending.2
  refine Triple.bind (quiet_step_at upward_exact hg ledger_refl) fun _ =>
    Preserves.bind (Preserves.step fun _ h => exact_discardDeletedStaging h hfree) fun _ =>
      Preserves.bind (quiet_deleteObject upward_exact).attempt fun r => ?_
  split
  · exact Preserves.bind (quiet_step upward_exact fun _ => ledger_cancelPendingDelete _) fun _ =>
      quiet_step upward_exact fun _ => ledger_refl
  · exact quiet_step upward_exact fun _ => ledger_refl

/-! ## Syncing -/

theorem ledger_recoverSession (sidecarOk : Bool) (size : Nat) :
    (g.recoverSession path sidecarOk size).ledger = g.ledger.create path := by
  have hrecovered : ((g.slice path).recoveredSession sidecarOk size).file.isSome := by
    unfold State.recoveredSession
    dsimp only
    split
    · split <;> rfl
    · rfl
  ext1
  · rfl
  · exact refs_update ..
  · show (fun i => (Function.update g.session g.nextSession _ i).file.isSome) = _
    rw [live_update, hrecovered]
    rfl
  · rfl

theorem exact_beginSync : Preserves (fun g => Exact g.ledger hs) (beginSync w path) := by
  refine Preserves.read fun g _ => ?_
  split
  · exact Preserves.done
  refine Preserves.bind (quiet_step upward_exact fun _ => ledger_refl) fun _ =>
    Preserves.bind ?_ fun found => ?_
  · refine Triple.read fun g hg => ?_
    split
    · exact quiet_done_at (P := (Exact · hs)) hg
    · exact Triple.bind (quiet_step_at upward_exact hg (ledger_on ⟨rfl, fun _ => ⟨rfl, id⟩, rfl⟩))
        fun _ => Preserves.done
    · rename_i hnone _
      split
      · exact quiet_done_at (P := (Exact · hs)) hg
      · refine Triple.bind (Q := fun _ (g' : Gateway) => Exact g'.ledger hs) (Triple.step ?_)
          fun _ => Preserves.done
        rintro g' rfl
        rw [ledger_recoverSession]
        exact ⟨trivial, trivial, hg.create hnone⟩
  · split
    · exact Preserves.bind (quiet_step upward_exact fun _ => ledger_refl) fun _ => Preserves.done
    · refine Triple.read fun g hg => ?_
      split
      · split
        · exact Triple.bind (quiet_step_at upward_exact hg ledger_refl) fun _ => Preserves.done
        · exact Triple.bind (quiet_step_at upward_exact hg (ledger_setSession ⟨rfl, id⟩))
            fun _ => Preserves.done
      · exact Triple.bind (quiet_step_at upward_exact hg ledger_refl) fun _ => Preserves.done

theorem exact_endTurn {turn : Turn} {uploaded cleanAfterSync : Bool} (hg : Exact g.ledger hs) :
    Exact (g.endTurn path turn uploaded cleanAfterSync).ledger hs := by
  have hclean : Exact (g.on path State.markClean).ledger hs :=
    hg.grows (ledger_on ⟨rfl, fun _ => ⟨rfl, id⟩, rfl⟩)
  refine Exact.grows ?_ (ledger_on (sameRefs_closeSnapshot _))
  unfold Gateway.finishUpload
  split
  · split
    · exact hg
    split
    · exact exact_cleanupSyncedSession hclean
    · exact hclean
  · exact hg

/-! ## Runs -/

/-- The handle is open and has a reference on `sid`. -/
def File.holds (f : File) (sid : Nat) : Bool := !f.closed && decide (f.session = some sid)

/-- A handle opened with the path is open and has a session. -/
def Host.Open (h : Host) (path : String) : Prop :=
  ∃ f ∈ h.files, f.path = path ∧ f.closed = false ∧ f.session.isSome = true

/-- No truncation of an open fails, and no path of an open handle gets or loses its
session by a rename or a delete. -/
def KeepsReferences (h : Host) : Op → Prop
  | .openFile w fl _ => fl.trunc = true → w.change = false
  | .rename known _ _ old new => ∀ path ∈ h.gateway.restaged known old new, ¬ h.Open path
  | .remove _ _ path => ¬ h.Open path
  | .deletePending _ path => h.gateway.tombstone path = true → ¬ h.Open path
  | _ => True

/-- The ledger of the host is exact about its handles. -/
abbrev Host.Counted (h : Host) : Prop := Exact h.gateway.ledger (h.files.map File.holder)

theorem free_of_not_open {h : Host} (hopen : ¬ h.Open path) : Free (h.files.map File.holder) path := by
  intro k hk o ho hname
  obtain ⟨f, hf, rfl⟩ := List.mem_map.1 hk
  obtain ⟨hclosed, hsession⟩ : f.closed = false ∧ f.session = some o := Holder.holds_iff.1 ho
  exact hopen ⟨f, hf, hname, hclosed, by simp [hsession]⟩

theorem counted_through {h : Host} {handle : Nat} {change : File → Program Gateway FileError Unit}
    (hc : h.Counted) (hquiet : ∀ f, Preserves (fun g => Exact g.ledger (h.files.map File.holder))
    (change f)) : (h.through handle change).Counted := by
  unfold Host.through
  split
  · exact hc
  · exact (hquiet _).final hc

/-- The reference goes back to the session it was taken on, which the path still
lists. -/
theorem counted_close {h : Host} (handle : Nat) (hc : h.Counted) : (h.close handle).Counted := by
  unfold Host.close
  split
  · exact hc
  rename_i f hf
  obtain ⟨hlt, hget⟩ := List.getElem?_eq_some_iff.1 hf
  obtain ⟨pre, post, hfiles, _, hset⟩ : ∃ pre post, h.files = pre ++ h.files[handle] :: post ∧
      pre.length = handle ∧ h.files.set handle { f with closed := true } =
        pre ++ { f with closed := true } :: post := List.exists_of_set hlt
  have hbefore : Exact h.gateway.ledger (pre.map File.holder ++ f.holder :: post.map File.holder) := by
    have hc' := hc
    rw [Host.Counted, hfiles, hget] at hc'
    simpa using hc'
  show Exact (closeFile f h.gateway).ledger ((h.files.set _ _).map File.holder)
  rw [hset, List.map_append, List.map_cons]
  refine Exact.insert ?_ fun o => by simp [File.holder, Holder.holds]
  unfold closeFile
  split
  · rename_i hnone
    refine hbefore.remove fun o => ?_
    rcases Bool.or_eq_true_iff.1 hnone with hclosed | hsession
    · simp [File.holder, Holder.holds, hclosed]
    · simp [File.holder, Holder.holds, Option.isNone_iff_eq_none.1 hsession]
  · rename_i hopen
    obtain ⟨hclosed, hsession⟩ : f.closed = false ∧ f.session.isSome := by
      simpa [Option.isSome_iff_ne_none] using hopen
    obtain ⟨sid, hsid⟩ := Option.isSome_iff_exists.1 hsession
    rw [ledger_releaseSession]
    exact hbefore.release (o := sid) (by simp [File.holder, Holder.holds, hclosed, hsid])

theorem counted_opened {h : Host} {fl : FileFlags} (hc : h.Counted) (hchange : fl.trunc →
    w.change = false) : (h.opened (openFile w fl path h.gateway)).Counted := by
  have hopen : Triple (fun g' => g' = h.gateway) (openFile w fl path) _ _ _ :=
    openFile_triple hchange hc
  unfold Host.opened Host.Counted
  cases hr : (openFile w fl path h.gateway).result with
  | ok f =>
    rw [List.map_append]
    exact hopen.of_ok rfl hr
  | error e => exact (hopen.of_error rfl hr).exact

theorem counted_next {h : Host} (hc : h.Counted) (op : Op) (hop : KeepsReferences h op) :
    (h.next op).Counted := by
  cases op with
  | openFile w fl path => exact counted_opened hc hop
  | write w handle offset data => exact counted_through hc fun f => quiet_writeFile upward_exact
  | truncate w handle size => exact counted_through hc fun f => quiet_truncateFile upward_exact
  | close handle => exact counted_close handle hc
  | rename known wf wd old new =>
    exact (exact_rename hc fun path hpath => free_of_not_open (hop path hpath)).final rfl
  | remove known w path => exact (exact_removeFile (free_of_not_open hop)).final hc
  | beginSync w path => exact exact_beginSync.final hc
  | landUpload path =>
    show (h.uploadLanded path).Counted
    unfold Host.uploadLanded
    split
    all_goals exact hc
  | endSync path uploaded cleanAfterSync =>
    show (h.syncEnded path uploaded cleanAfterSync).Counted
    unfold Host.syncEnded
    split
    · exact hc
    · exact exact_endTurn hc
  | deletePending w path =>
    exact (exact_deletePending hc fun htomb => free_of_not_open (hop htomb)).final rfl

theorem counted {starts : Gateway → Prop} {h : Host} (hr : Reach (hostSystem starts) KeepsReferences h) :
    h.Counted := by
  refine Reach.invariant (fun h hinit => ?_) (fun h op h' hc hop hstep => ?_) hr
  · obtain ⟨_, hlisted, hfiles, _⟩ := hinit
    have hnone : ∀ k o, h.gateway.ledger.listed k ≠ some o := fun k o hk =>
      nomatch (hlisted k).symm.trans hk
    rw [Host.Counted, hfiles]
    exact ⟨nofun, fun k o hk => absurd hk (hnone k o), fun k _ o hk => absurd hk (hnone k o),
      fun k o hk => absurd hk (hnone k o), fun k o hk => absurd hk (hnone k o)⟩
  · rw [show h' = h.next op from hstep]
    exact counted_next hc op hop

/-- In every run that keeps the references: every listed session counts the open
handles that hold it; an open that fails leaves every count as it was; and every
open handle's session is listed and open, so no cleanup has closed it. -/
theorem reference_counts_exact {starts : Gateway → Prop} {h : Host}
    (hr : Reach (hostSystem starts) KeepsReferences h) : (∀ path sid, h.gateway.listed path = some sid →
    (h.gateway.session sid).refCount = h.files.countP (·.holds sid)) ∧
    (∀ w fl path e, KeepsReferences h (.openFile w fl path) →
    (openFile w fl path h.gateway).result = .error e → ∀ sid < h.gateway.nextSession,
    ((openFile w fl path h.gateway).final.session sid).refCount = (h.gateway.session sid).refCount) ∧
    ∀ f ∈ h.files, ∀ sid, f.holds sid = true → h.gateway.listed f.path = some sid ∧
    (h.gateway.session sid).file.isSome = true := by
  have hc : Exact h.gateway.ledger (h.files.map File.holder) := counted hr
  refine ⟨fun path sid hlisted => ?_, fun w fl path e hchange herr sid hsid => ?_, fun f hf sid hholds => ?_⟩
  · have hcount := hc.count path sid hlisted
    rw [List.countP_map] at hcount
    exact hcount
  · have hopen : Triple (fun g' => g' = h.gateway) (openFile w fl path) _ _ _ :=
      openFile_triple hchange hc
    exact (hopen.of_error rfl herr).counts sid hsid
  · have hlisted := hc.held f.holder (List.mem_map_of_mem hf) sid hholds
    exact ⟨hlisted, hc.live f.path sid hlisted⟩

/-- A file is created and written, and removed by another client; the name is
created again, and the first handle is closed. -/
def Host.recreatedUnder : Host :=
  [Op.openFile {} { write := true, create := true } "/a", .write {} 0 0 [1], .remove [] {} "/a",
    .openFile {} { write := true, create := true } "/a", .close 0].foldl Host.next .blank

/-- Two runs in which a count is wrong: an open that failed to truncate has kept
its reference, and a handle of the removed file has given back one of the new file's. -/
theorem reference_counts_not_exact : (let w : CallFaults := { change := true }
     let fl : FileFlags := { write := true, create := true, trunc := true }
     let h := Host.blank.next (.openFile w fl "/a")
     Reach (hostSystem fun _ => True) always h ∧ (openFile w fl "/a" Gateway.blank).result = .error .staging ∧
       h.gateway.listed "/a" = some 0 ∧ (h.gateway.session 0).refCount = 1 ∧ h.files = []) ∧
    Reach (hostSystem fun _ => True) always Host.recreatedUnder ∧
      Host.recreatedUnder.gateway.listed "/a" = some 1 ∧
      (Host.recreatedUnder.gateway.session 1).refCount = 0 ∧
      Host.recreatedUnder.files.countP (·.holds 1) = 1 := by
  refine ⟨⟨(reach_blank trivial).next rfl, ?_, ?_, ?_, rfl⟩,
    reach_operations _ (reach_blank trivial), ?_, ?_, ?_⟩
  all_goals decide +kernel

/-- A file that is open twice counts both handles. -/
theorem reference_counts_exact_twice : let fl : FileFlags := { write := true, create := true }
    let h := (Host.blank.next (.openFile {} fl "/a")).next (.openFile {} fl "/a")
    h.files.countP (·.holds 0) = 2 ∧ (h.gateway.session 0).refCount = 2 := by
  intro fl h
  have hr : Reach (hostSystem fun _ => True) KeepsReferences h := by
    refine .step (.step (reach_blank trivial) ?_ rfl) ?_ rfl
    all_goals exact nofun
  have hcount : h.files.countP (·.holds 0) = 2 := by decide +kernel
  have hlisted : h.gateway.listed "/a" = some 0 := by decide +kernel
  exact ⟨hcount, ((reference_counts_exact hr).1 "/a" 0 hlisted).trans hcount⟩

end

end Bluestone
