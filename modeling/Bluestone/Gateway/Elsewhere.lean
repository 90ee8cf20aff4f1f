/-
# `Bluestone.Gateway.Elsewhere` — calls that pass a path by

A path that nobody may name should be left alone by whatever is done under other
names.  `Spares q f` says this of a step: with another object at `q` it does the
same, that object stays, and when nothing is staged at `q` nothing is afterwards.
`PassesBy` says it of a program.

An object that could be replaced by any other without a trace has not been read,
so both halves, not changed and not read, are in one statement.
-/
import Bluestone.Gateway.Files

namespace Bluestone

open Cuts
open Function (update update_self update_of_ne update_comm)

namespace Gateway

/-- Another object, or none, at `q`. -/
def withObject (g : Gateway) (q : String) (o : Option Object) : Gateway :=
  { g with object := update g.object q o }

/-- Nothing is staged at `q`, and no delete of it is pending. -/
structure Unstaged (q : String) (g : Gateway) : Prop where
  listed : g.listed q = none
  dirty : g.dirty q = none
  tombstone : g.tombstone q = false

section
variable {g : Gateway} {q path : String} {o : Option Object} {s : State}

@[simp] theorem withObject_object_self : (g.withObject q o).object q = o := update_self ..

@[simp] theorem withObject_listed : (g.withObject q o).listed = g.listed := rfl

@[simp] theorem withObject_session : (g.withObject q o).session = g.session := rfl

@[simp] theorem withObject_stagingOf : (g.withObject q o).stagingOf = g.stagingOf := rfl

@[simp] theorem withObject_sidecar : (g.withObject q o).sidecar = g.sidecar := rfl

theorem withObject_object_of_ne (h : path ≠ q) : (g.withObject q o).object path = g.object path :=
  update_of_ne h ..

@[simp] theorem withObject_self : g.withObject q (g.object q) = g := by
  rw [withObject, Function.update_eq_self]

theorem slice_withObject (h : path ≠ q) : (g.withObject q o).slice path = g.slice path := by
  rw [slice, slice, withObject_object_of_ne h]
  rfl

theorem put_withObject (h : path ≠ q) :
    (g.withObject q o).put path s = (g.put path s).withObject q o := by
  rw [put, put, withObject, withObject, update_comm h]

theorem Unstaged.put (hg : Unstaged q g) (h : path ≠ q) : Unstaged q (g.put path s) where
  listed := (put_listed_of_ne h.symm).trans hg.listed
  dirty := (put_dirty_of_ne h.symm).trans hg.dirty
  tombstone := (put_tombstone_of_ne h.symm).trans hg.tombstone

theorem statObject_withObject (h : path ≠ q) (answer : Option BucketStat) :
    (g.withObject q o).statObject path answer = g.statObject path answer := by
  rw [statObject, statObject, withObject_object_of_ne h]

theorem statAttributes_withObject (h : path ≠ q) (w : CallFaults) :
    (g.withObject q o).statAttributes w path = g.statAttributes w path := by
  rw [statAttributes, statAttributes, withObject_object_of_ne h]

theorem statPath_withObject (h : path ≠ q) (answer : Option BucketStat) :
    (g.withObject q o).statPath path answer = g.statPath path answer := by
  rw [statPath, statPath, slice_withObject h, statObject_withObject h]
  rfl

end

end Gateway

open Gateway

/-! ## Steps -/

/-- The step does not look at the object at `q`, leaves it, and stages nothing
there. -/
structure Spares (q : String) (f : Gateway → Gateway) : Prop where
  commutes : ∀ g o, f (g.withObject q o) = (f g).withObject q o
  unstaged : ∀ g, Unstaged q g → Unstaged q (f g)

namespace Spares

variable {q path old new : String} {f f' : Gateway → Gateway}

theorem object (h : Spares q f) (g : Gateway) : (f g).object q = g.object q := by
  have heq := h.commutes g (g.object q)
  rw [withObject_self] at heq
  rw [heq, withObject_object_self]

theorem refl : Spares q fun g => g := ⟨fun _ _ => rfl, fun _ h => h⟩

theorem comp (h : Spares q f) (h' : Spares q f') : Spares q fun g => f' (f g) where
  commutes g o := by rw [h.commutes, h'.commutes]
  unstaged g hg := h'.unstaged _ (h.unstaged g hg)

theorem cases (h : ∀ g, ∃ F, Spares q F ∧ f g = F g ∧ ∀ o, f (g.withObject q o) = F (g.withObject q o)) :
    Spares q f where
  commutes g o := by
    obtain ⟨F, hF, heq, hwith⟩ := h g
    rw [heq, hwith, hF.commutes]
  unstaged g hg := by
    obtain ⟨F, hF, heq, _⟩ := h g
    rw [heq]
    exact hF.unstaged g hg

theorem ite {b : Gateway → Bool} (hb : ∀ g o, b (g.withObject q o) = b g) (h : Spares q f)
    (h' : Spares q f') : Spares q fun g => if b g then f g else f' g := by
  refine cases fun g => ?_
  cases hbg : b g with
  | true => exact ⟨f, h, rfl, fun o => if_pos ((hb g o).trans hbg)⟩
  | false => exact ⟨f', h', rfl, fun o => if_neg (by rw [hb, hbg]; exact Bool.false_ne_true)⟩

theorem of_fields (hobject : ∀ g o, f (g.withObject q o) = (f g).withObject q o)
    (hlisted : ∀ g, (f g).listed = g.listed) (hdirty : ∀ g, (f g).dirty = g.dirty)
    (htombstone : ∀ g, (f g).tombstone = g.tombstone) : Spares q f where
  commutes := hobject
  unstaged g hg := by
    refine ⟨?_, ?_, ?_⟩
    · rw [hlisted]
      exact hg.listed
    · rw [hdirty]
      exact hg.dirty
    · rw [htombstone]
      exact hg.tombstone

theorem put (h : path ≠ q) (s : State) : Spares q (·.put path s) where
  commutes _ _ := put_withObject h
  unstaged _ hg := hg.put h

theorem on (h : path ≠ q) (f : State → State) : Spares q (·.on path f) :=
  cases fun g => ⟨(·.put path (f (g.slice path))), put h _, rfl, fun o => by
    rw [Gateway.on, slice_withObject h]⟩

theorem lockFile : Spares q (·.lockFile path) :=
  of_fields (fun _ _ => rfl) (fun _ => rfl) (fun _ => rfl) fun _ => rfl

theorem unlockFile : Spares q (·.unlockFile path) :=
  of_fields (fun _ _ => rfl) (fun _ => rfl) (fun _ => rfl) fun _ => rfl

theorem setSession (sid : Nat) (ws : WriteSession) : Spares q (·.setSession sid ws) :=
  of_fields (fun _ _ => rfl) (fun _ => rfl) (fun _ => rfl) fun _ => rfl

theorem removeFiles : Spares q (·.removeFiles path) :=
  of_fields (fun _ _ => rfl) (fun _ => rfl) (fun _ => rfl) fun _ => rfl

theorem setObject (h : path ≠ q) (o : Option Object) :
    Spares q fun g => { g with object := update g.object path o } where
  commutes g o' := by
    rw [withObject, withObject, update_comm h]
  unstaged _ hg := ⟨hg.listed, hg.dirty, hg.tombstone⟩

theorem setTombstone (h : path ≠ q) (b : Bool) :
    Spares q fun g => { g with tombstone := update g.tombstone path b } where
  commutes _ _ := rfl
  unstaged _ hg := ⟨hg.listed, hg.dirty, (update_of_ne h.symm ..).trans hg.tombstone⟩

theorem cancelPendingDelete (h : path ≠ q) (fails : Bool) :
    Spares q (·.cancelPendingDelete path fails) := by
  cases fails with
  | true => exact refl
  | false => exact setTombstone h false

theorem addTombstone (h : path ≠ q) (fails : Bool) : Spares q (·.addTombstone path fails) := by
  cases fails with
  | true => exact refl
  | false => exact setTombstone h true

theorem removeSidecar (fails : Bool) : Spares q (·.removeSidecar path fails) := by
  cases fails with
  | true => exact refl
  | false => exact of_fields (fun _ _ => rfl) (fun _ => rfl) (fun _ => rfl) fun _ => rfl

theorem writeSidecar (state : PathMetadataState) : Spares q (·.writeSidecar path state) := by
  refine of_fields ?_ ?_ ?_ ?_ <;> intro g
  · intro o
    rw [writeSidecar_eq, writeSidecar_eq]
    rfl
  all_goals rw [writeSidecar_eq]

theorem changeSession (sid : Nat) (ws : WriteSession) (d : Disk) :
    Spares q (·.changeSession sid ws d) := by
  have heq : ∀ g : Gateway, g.changeSession sid ws d = { g with
      session := update g.session sid ws
      inode := d.inode
      nextInode := d.nextInode
      dataFile := update g.dataFile (g.stagingOf sid) d.dataFile
      sidecar := update g.sidecar (g.stagingOf sid) d.sidecar } := by
    intro g
    simp [Gateway.changeSession, Gateway.on, Gateway.put, slice, State.setSession, State.setDisk]
  refine of_fields ?_ ?_ ?_ ?_ <;> intro g
  · intro o
    rw [heq, heq]
    rfl
  all_goals rw [heq]

theorem persistAttributes (sid : Nat) (fails : Bool) : Spares q (·.persistAttributes sid fails) := by
  refine cases fun g => ?_
  cases hsidecar : g.sidecar (g.stagingOf sid) with
  | none =>
    exact ⟨_, refl, by simp [Gateway.persistAttributes, hsidecar], fun o => by
      simp [Gateway.persistAttributes, hsidecar]⟩
  | some state =>
    by_cases hset : ((g.session sid).attributesSet && !fails)
    · have hwrite : Spares q fun g' : Gateway =>
          (g'.writeSidecar (g.stagingOf sid)
            { state with attributes := some (g.session sid).attrs }).setSession sid
            (g.session sid).metadataChanged :=
        (writeSidecar _).comp (setSession _ _)
      exact ⟨_, hwrite, by simp [Gateway.persistAttributes, hsidecar, hset], fun o => by
        simp [Gateway.persistAttributes, hsidecar, hset]⟩
    · exact ⟨_, refl, by simp [Gateway.persistAttributes, hsidecar, hset], fun o => by
        simp [Gateway.persistAttributes, hsidecar, hset]⟩

theorem setStagingOf (h : Spares q f) :
    Spares q fun g => { f g with stagingOf := update g.stagingOf g.nextSession path } where
  commutes g o := by
    rw [h.commutes]
    rfl
  unstaged g hg := ⟨(h.unstaged g hg).listed, (h.unstaged g hg).dirty, (h.unstaged g hg).tombstone⟩

theorem createSession (h : path ≠ q) (sidecarOk : Bool) : Spares q (·.createSession path sidecarOk) :=
  (on h _).setStagingOf

theorem recoverSession (h : path ≠ q) (sidecarOk : Bool) (size : Nat) :
    Spares q (·.recoverSession path sidecarOk size) :=
  (on h _).setStagingOf

theorem releaseSession (h : path ≠ q) : Spares q (·.releaseSession path) := on h _

theorem releaseSessionDiscardingIfEmpty (h : path ≠ q) :
    Spares q (·.releaseSessionDiscardingIfEmpty path) := by
  refine cases fun g => ?_
  cases hlisted : g.listed path with
  | none =>
    exact ⟨_, refl, by simp [Gateway.releaseSessionDiscardingIfEmpty, hlisted], fun o => by
      simp [Gateway.releaseSessionDiscardingIfEmpty, hlisted]⟩
  | some sid =>
    have hdiscard : Spares q fun g' : Gateway =>
        if (g'.slice path).discardable sid then
          (g'.on path fun s => { s with listed := none }.closeSession sid).removeFiles (g.stagingOf sid)
        else g' :=
      ite (fun g o => by rw [slice_withObject h]) ((on h _).comp removeFiles) refl
    exact ⟨_, (releaseSession h).comp hdiscard, by
      simp [Gateway.releaseSessionDiscardingIfEmpty, hlisted], fun o => by
      simp [Gateway.releaseSessionDiscardingIfEmpty, hlisted]⟩

theorem closeFile {file : File} (h : file.path ≠ q) : Spares q (Bluestone.closeFile file) := by
  unfold Bluestone.closeFile
  split
  · exact refl
  · exact releaseSession h

theorem cleanupSession (h : path ≠ q) : Spares q (·.cleanupSession path) := by
  refine cases fun g => ?_
  cases hlisted : g.listed path with
  | none =>
    exact ⟨_, refl, by simp [Gateway.cleanupSession, hlisted], fun o => by
      simp [Gateway.cleanupSession, hlisted]⟩
  | some sid =>
    exact ⟨_, on h fun s => s.removeSession.closeSession sid, by
      simp only [Gateway.cleanupSession, hlisted], fun o => by
      simp only [Gateway.cleanupSession, withObject_listed, hlisted]⟩

theorem discardDeletedStaging (h : path ≠ q) : Spares q (·.discardDeletedStaging path) := by
  refine ite (b := (·.tombstone path)) (fun _ _ => rfl) (cases fun g => ?_) refl
  cases hlisted : g.listed path with
  | none => exact ⟨_, on h State.dropDirtyEntry, rfl, fun o => by simp [hlisted]⟩
  | some sid => exact ⟨_, on h _, rfl, fun o => by simp only [withObject_listed, hlisted]⟩

/-! A rename of a staged file. -/

theorem moveStagingFile : Spares q (·.moveStagingFile old new) :=
  of_fields (fun _ _ => rfl) (fun _ => rfl) (fun _ => rfl) fun _ => rfl

theorem closeReplaced (h : new ≠ q) : Spares q (·.closeReplaced new) := by
  constructor
  · intro g o
    unfold Gateway.closeReplaced
    rw [withObject_listed]
    split <;> rfl
  · intro g hg
    unfold Gateway.closeReplaced
    split
    · exact hg
    · exact ⟨(update_of_ne h.symm ..).trans hg.listed, hg.dirty, hg.tombstone⟩

theorem rekeySession (hold : old ≠ q) (hnew : new ≠ q) : Spares q (·.rekeySession old new) := by
  constructor
  · intro g o
    unfold Gateway.rekeySession
    rw [withObject_listed]
    split <;> rfl
  · intro g hg
    unfold Gateway.rekeySession
    split
    · exact hg
    · refine ⟨?_, hg.dirty, hg.tombstone⟩
      dsimp only
      rw [update_of_ne hnew.symm, update_of_ne hold.symm]
      exact hg.listed

theorem rekeyEntry (hold : old ≠ q) (hnew : new ≠ q) : Spares q (·.rekeyEntry old new) where
  commutes _ _ := rfl
  unstaged g hg := by
    refine ⟨hg.listed, ?_, hg.tombstone⟩
    show update (update g.dirty old none) new _ q = none
    rw [update_of_ne hnew.symm, update_of_ne hold.symm]
    exact hg.dirty

theorem markUnrecorded (h : path ≠ q) : Spares q (·.markUnrecorded path) where
  commutes _ _ := rfl
  unstaged _ hg := ⟨hg.listed, (update_of_ne h.symm ..).trans hg.dirty, hg.tombstone⟩

/-! A turn of the sync worker. -/

theorem landUpload (h : path ≠ q) (turn : Turn) : Spares q (·.landUpload path turn) :=
  cases fun g => ⟨_, setObject h _, rfl, fun o => by rw [Gateway.landUpload, slice_withObject h]⟩

theorem cleanupSyncedSession (h : path ≠ q) (sid : Nat) : Spares q (·.cleanupSyncedSession path sid) :=
  ite (b := fun g => (g.slice path).cleanable sid && decide (g.stagingOf sid = path))
    (fun g o => by rw [slice_withObject h]; rfl) (on h _) refl

theorem finishUpload (h : path ≠ q) (turn : Turn) (cleanAfterSync : Bool) :
    Spares q (·.finishUpload path turn cleanAfterSync) := by
  refine ite (b := fun g => (g.slice path).changedSince turn.snap.generation)
    (fun g o => by rw [slice_withObject h]) refl ?_
  cases cleanAfterSync with
  | true => exact (on h _).comp (cleanupSyncedSession h _)
  | false => exact on h _

theorem endTurn (h : path ≠ q) (turn : Turn) (uploaded cleanAfterSync : Bool) :
    Spares q (·.endTurn path turn uploaded cleanAfterSync) := by
  cases uploaded with
  | true => exact ((finishUpload h turn cleanAfterSync).comp (on h _)).comp unlockFile
  | false => exact (on h _).comp unlockFile

end Spares

/-! ## Programs -/

/-- With nothing staged at `q` and the object `x` there, the program neither looks
at it nor changes it: with `y` in its place it would do the same. -/
def PassesBy {E A : Type} (q : String) (x y : Option Object) (m : Program Gateway E A) : Prop :=
  Blind (fun g => Unstaged q g ∧ g.object q = x) (·.withObject q y) m

namespace PassesBy

variable {q path old new : String} {x y : Option Object} {E A B : Type}

theorem done {a : A} : PassesBy q x y (.done a : Program Gateway E A) := Blind.done

theorem fail {e : E} : PassesBy q x y (.fail e : Program Gateway E A) := Blind.fail

theorem step {f : Gateway → Gateway} (h : Spares q f) : PassesBy q x y (.step f : Program Gateway E Unit) :=
  Blind.step (fun g hg => ⟨h.unstaged g hg.1, (h.object g).trans hg.2⟩) fun g _ => h.commutes g y

theorem read {k : Gateway → Program Gateway E A} (hk : ∀ g, k (g.withObject q y) = k g)
    (h : ∀ g, Unstaged q g → PassesBy q x y (k g)) : PassesBy q x y (.read k) :=
  Blind.read (fun g _ => hk g) fun g hg => h g hg.1

theorem bind {m : Program Gateway E A} {k : A → Program Gateway E B} (hm : PassesBy q x y m)
    (hk : ∀ a, PassesBy q x y (k a)) : PassesBy q x y (m >>= k) :=
  Blind.bind hm hk

theorem attempt {E' : Type} {m : Program Gateway E A} (hm : PassesBy q x y m) :
    PassesBy q x y (m.attempt : Program Gateway E' (Except E A)) :=
  Blind.attempt hm

/-! ## A staged file is renamed -/

variable {wr : RenameFaults}

theorem takeBack (replaced : Option PathMetadataState) : PassesBy q x y (takeBack wr path replaced) := by
  unfold Bluestone.takeBack
  split
  · exact done
  · split
    · exact step (.writeSidecar _)
    · exact step (.removeSidecar _)

theorem recordAgain (h : path ≠ q) (replaced : Option PathMetadataState) :
    PassesBy q x y (recordAgain wr path replaced) := by
  refine read (fun _ => rfl) fun g _ => ?_
  split
  · split
    · exact step (.markUnrecorded h)
    · refine step (.cases fun g => ⟨_, .on h _, rfl, fun o => ?_⟩)
      rfl
  · exact done

theorem restorePathMetadata (h : path ≠ q) (replaced : Option PathMetadataState) :
    PassesBy q x y (restorePathMetadata wr path replaced) :=
  (takeBack replaced).bind fun _ => (recordAgain h replaced).bind fun _ => step (.on h _)

theorem prepareDestination (h : new ≠ q) : PassesBy q x y (prepareDestination wr old new) := by
  refine (step (.cancelPendingDelete h _)).bind fun _ => ?_
  refine read (fun _ => rfl) fun g _ => (step (.on h _)).bind fun _ => ?_
  refine read (fun _ => rfl) fun g _ => ?_
  split
  · exact fail
  · exact (step (.writeSidecar _)).bind fun _ => done

theorem moveStagedData (hold : old ≠ q) (hnew : new ≠ q) (replaced : Option PathMetadataState) :
    PassesBy q x y (moveStagedData wr old new replaced) := by
  unfold Bluestone.moveStagedData
  split
  · exact step .moveStagingFile
  · exact (step (.on hold _)).bind fun _ => (restorePathMetadata hnew replaced).bind fun _ =>
      (step (.on hold _)).bind fun _ => fail
  · exact (restorePathMetadata hnew replaced).bind fun _ => fail

theorem finishRename (hold : old ≠ q) (hnew : new ≠ q) : PassesBy q x y (finishRename wr old new) :=
  (step (.addTombstone hold _)).bind fun _ => (step (.removeSidecar _)).bind fun _ =>
    (step ((Spares.closeReplaced hnew).comp (.rekeySession hold hnew))).bind fun _ =>
      step (.rekeyEntry hold hnew)

theorem renameStagedPath (hold : old ≠ q) (hnew : new ≠ q) :
    PassesBy q x y (renameStagedPath wr old new) := by
  refine read (fun _ => rfl) fun g _ => ?_
  split
  · exact fail
  split
  · exact fail
  split
  · exact (step (.on hold _)).bind fun _ => fail
  · exact (prepareDestination hnew).bind fun replaced =>
      (moveStagedData hold hnew replaced).bind fun _ => finishRename hold hnew

/-! ## Opening and handles -/

variable {w : CallFaults} {fl : FileFlags} {sid : Nat}

theorem getOrCreateSession (h : path ≠ q) : PassesBy q x y (getOrCreateSession w path) := by
  refine read (fun _ => rfl) fun g _ => ?_
  split
  · exact fail
  split
  · exact (step (.on h _)).bind fun _ => done
  · split
    · exact (step (.cancelPendingDelete h _)).bind fun _ => fail
    · exact (step (.createSession h _)).bind fun _ => done

theorem refuse (h : path ≠ q) (e : FileError) : PassesBy q x y (refuse path e) :=
  (step (.releaseSessionDiscardingIfEmpty h)).bind fun _ => fail

theorem seedAttributes (h : path ≠ q) : PassesBy q x y (seedAttributes w path sid) := by
  refine read (fun g => by rw [statAttributes_withObject h]; rfl) fun g _ => ?_
  split
  · exact done
  · exact (step (.setSession _ _)).bind fun _ => step (.persistAttributes _ _)

theorem prefetchObject (h : path ≠ q) : PassesBy q x y (prefetchObject w path sid) := by
  refine read (fun g => by rw [withObject_object_of_ne h]; rfl) fun g _ => ?_
  split
  · exact refuse h _
  split
  · exact refuse h _
  · refine (step (.changeSession _ _ _)).bind fun _ => ?_
    split
    · exact done
    · exact refuse h _

theorem setCreation : PassesBy q x y (setCreation w fl sid) := by
  refine read (fun _ => rfl) fun g _ => ?_
  split
  · exact done
  · exact (step (.setSession _ _)).bind fun _ => step (.persistAttributes _ _)

theorem stageExisting (h : path ≠ q) : PassesBy q x y (stageExisting w fl path sid) := by
  refine (seedAttributes h).bind fun _ => ?_
  split
  · exact done
  · exact prefetchObject h

theorem settleExistence (h : path ≠ q) (pendingDelete : Bool) :
    PassesBy q x y (settleExistence w fl path pendingDelete sid) := by
  refine read (fun g => by rw [statObject_withObject h]; rfl) fun g _ => ?_
  split
  · exact done
  split
  · exact stageExisting h
  · exact stageExisting h
  · split
    · exact setCreation
    · exact refuse h _
  · exact setCreation

theorem markDirty (h : path ≠ q) : PassesBy q x y (markDirty w path) := by
  refine read (fun g => by rw [slice_withObject h]; rfl) fun g _ => ?_
  split
  · exact done
  split
  · exact step (.put h _)
  · split
    · exact (step (.on h _)).bind fun _ => fail
    · exact step (.on h _)

theorem applyChange (change : Option (WriteSession × Disk)) : PassesBy q x y
    (applyChange w sid change) := by
  cases change with
  | none => exact fail
  | some c =>
    obtain ⟨ws, d⟩ := c
    unfold Bluestone.applyChange
    dsimp only
    split
    · exact fail
    · exact step (.changeSession _ _ _)

theorem truncateIf (h : path ≠ q) : PassesBy q x y (truncateIf w fl path sid) := by
  unfold Bluestone.truncateIf
  split
  · refine read (fun _ => rfl) fun g _ => (applyChange _).bind fun _ => (markDirty h).attempt.bind ?_
    rintro (_ | _)
    · exact (step (.releaseSession h)).bind fun _ => fail
    · exact done
  · exact done

theorem openReading (h : path ≠ q) : PassesBy q x y (openReading w fl path) := by
  refine read (fun _ => rfl) fun g _ => ?_
  split
  · exact (step (.setSession _ _)).bind fun _ => (truncateIf h).bind fun _ => done
  · split
    · exact done
    split
    · exact fail
    · exact (step (.setObject h _)).bind fun _ => done

theorem openFile (hq : isReservedPath q) : PassesBy q x y (openFile w fl path) := by
  unfold Bluestone.openFile
  split
  · exact fail
  · rename_i hpath
    have h : path ≠ q := fun he => hpath (he ▸ hq)
    refine read (fun _ => rfl) fun g _ => ?_
    split
    · exact fail
    split
    · exact openReading h
    · exact (getOrCreateSession h).bind fun sid => (settleExistence h _).bind fun _ =>
        (truncateIf h).bind fun _ => done

variable {file : File}

theorem writeFile (h : file.path ≠ q) (offset : Nat) (data : Bytes) :
    PassesBy q x y (writeFile w file offset data) := by
  unfold Bluestone.writeFile
  split
  · exact fail
  split
  · exact fail
  · refine read (fun _ => rfl) fun g _ => (applyChange _).bind fun _ => bind ?_ fun _ => markDirty h
    unfold persistDropped
    split
    · exact step (.persistAttributes _ _)
    · exact done

theorem truncateFile (h : file.path ≠ q) (size : Nat) : PassesBy q x y (truncateFile w file size) := by
  unfold Bluestone.truncateFile
  split
  · exact fail
  split
  · exact fail
  split
  · exact fail
  · exact read (fun _ => rfl) fun g _ => (applyChange _).bind fun _ => markDirty h

/-! ## Removing -/

variable {wm : RemoveFaults}

theorem registerPendingDelete (h : path ≠ q) : PassesBy q x y (registerPendingDelete wm path) := by
  unfold Bluestone.registerPendingDelete
  split
  · exact fail
  · refine (step (.addTombstone h _)).bind fun _ => read (fun _ => rfl) fun g _ => ?_
    split
    · exact done
    · exact (step .lockFile).bind fun _ => (step (.discardDeletedStaging h)).bind fun _ =>
        (step .unlockFile).bind fun _ => done

theorem cleanupAfterDelete (h : path ≠ q) : PassesBy q x y (cleanupAfterDelete path) := by
  refine read (fun _ => rfl) fun g _ => ?_
  split
  · exact done
  · exact step (.cleanupSession h)

theorem deleteObject (h : path ≠ q) : PassesBy q x y (deleteObject wm path) := by
  unfold Bluestone.deleteObject
  split
  · split
    · exact (step (.setObject h none)).bind fun _ => fail
    · exact fail
  · exact step (.setObject h none)

theorem removeDirtyStagedFile (h : path ≠ q) : PassesBy q x y (removeDirtyStagedFile wm path) := by
  refine (registerPendingDelete h).bind fun immediate => ?_
  split
  · refine (deleteObject h).attempt.bind ?_
    rintro (_ | _)
    · exact done
    · exact (step (.cancelPendingDelete h _)).bind fun _ => cleanupAfterDelete h
  · exact done

theorem removeObject (h : path ≠ q) : PassesBy q x y (removeObject wm path) := by
  refine (deleteObject h).attempt.bind ?_
  rintro (_ | _)
  · exact (registerPendingDelete h).bind fun _ => done
  · exact cleanupAfterDelete h

theorem removeFile (hq : isReservedPath q) (known : List String) :
    PassesBy q x y (removeFile known wm path) := by
  unfold Bluestone.removeFile
  split
  · exact fail
  · rename_i hpath
    have h : path ≠ q := fun he => hpath (he ▸ hq)
    refine read (fun g => by rw [statPath_withObject h]; rfl) fun g _ => ?_
    split
    · exact removeDirtyStagedFile h
    split
    · exact fail
    split
    · exact done
    · exact done
    · exact fail
    · exact removeObject h

/-! ## The sync worker -/

theorem deletePending : PassesBy q x y (deletePending wm path) := by
  refine read (fun _ => rfl) fun g hg => ?_
  split
  · exact done
  · rename_i hpending
    have h : path ≠ q := by
      rintro rfl
      exact hpending (by simp [hg.tombstone])
    refine (step .lockFile).bind fun _ => (step (.discardDeletedStaging h)).bind fun _ =>
      (deleteObject h).attempt.bind ?_
    rintro (_ | _)
    · exact step .unlockFile
    · exact (step (.cancelPendingDelete h _)).bind fun _ => step .unlockFile

theorem openSnapshot (h : path ≠ q) (fails : Bool) : PassesBy q x y (openSnapshot fails path sid) := by
  refine read (fun g => by rw [slice_withObject h]; rfl) fun g _ => ?_
  split
  · split
    · exact (step .unlockFile).bind fun _ => done
    · exact (step (.setSession _ _)).bind fun _ => done
  · exact (step .unlockFile).bind fun _ => done

theorem sessionToSync (h : path ≠ q) : PassesBy q x y (sessionToSync w path) := by
  refine read (fun _ => rfl) fun g _ => ?_
  split
  · exact done
  · exact (step (.on h _)).bind fun _ => done
  · split
    · exact done
    · exact (step (.recoverSession h _ _)).bind fun _ => done

theorem beginSync : PassesBy q x y (beginSync w path) := by
  refine read (fun _ => rfl) fun g hg => ?_
  split
  · exact done
  · rename_i hdirty
    have h : path ≠ q := by
      rintro rfl
      exact hdirty (by simp [hg.dirty])
    refine (step .lockFile).bind fun _ => (sessionToSync h).bind ?_
    rintro (_ | sid)
    · exact (step .unlockFile).bind fun _ => done
    · exact openSnapshot h _

end PassesBy

/-! ## Renaming

A directory rename of the bucket ends with any bucket its requests may leave.
What is at `q` is not theirs: it stays, whatever it is. -/

def BucketFaults.sparing (w : BucketFaults) (q : String) (o : Option Object) : BucketFaults :=
  { w with copied := update w.copied q o, deleted := update w.deleted q o }

def FileFaults.sparing (w : FileFaults) (q : String) (o : Option Object) : FileFaults :=
  { w with bucket := w.bucket.sparing q o }

def DirectoryFaults.sparing (w : DirectoryFaults) (q : String) (o : Option Object) : DirectoryFaults :=
  { w with bucket := w.bucket.sparing q o }

/-- The gateway, and the same one with `y` in the place of the object `x` at `q`. -/
def Twins (q : String) (x y : Option Object) (g t : Gateway) : Prop :=
  (Unstaged q g ∧ g.object q = x) ∧ t = g.withObject q y

section
variable {q old new : String} {x y : Option Object}

theorem Twins.bucket (copied : String → Option Object) {g t : Gateway} (h : Twins q x y g t) :
    Twins q x y { g with object := update copied q x }
    { t with object := update copied q y } := by
  obtain ⟨⟨hg, hx⟩, rfl⟩ := h
  refine ⟨⟨⟨hg.listed, hg.dirty, hg.tombstone⟩, update_self ..⟩, ?_⟩
  simp [withObject]

theorem renameDirectory_spares (w : BucketFaults) : Simulates (Twins q x y)
    (renameDirectory (w.sparing q x) old new) (renameDirectory (w.sparing q y) old new) := by
  refine Simulates.ite (fun _ => Simulates.fail) fun _ => Simulates.ite (fun _ => Simulates.fail) fun _ => ?_
  dsimp only [BucketFaults.sparing]
  cases statAnswer new w.destination with
  | file | directory | unreachable => exact Simulates.fail
  | missing =>
    refine Simulates.ite (fun _ => Simulates.fail) fun _ => ?_
    refine Simulates.bind (Simulates.step fun g t h => h.bucket _) fun _ => ?_
    refine Simulates.ite (fun _ => Simulates.fail) fun _ => ?_
    refine Simulates.bind (Simulates.step fun g t h => h.bucket _) fun _ => ?_
    exact Simulates.ite (fun _ => Simulates.fail) fun _ => Simulates.done

theorem renameObject_passesBy (hold : old ≠ q) (hnew : new ≠ q) (w : BucketFaults) :
    PassesBy q x y (renameObject w old new) := by
  unfold renameObject
  split
  · exact .fail
  · refine .bind (.step (.cases fun g => ⟨_, .setObject hnew (g.object old), rfl, fun o => ?_⟩)) fun _ => ?_
    · rw [withObject_object_of_ne hold]
    · split
      · exact .fail
      · exact .step (.setObject hold none)

theorem renameFile_spares (hold : old ≠ q) (hnew : new ≠ q) (w : BucketFaults) :
    Simulates (Twins q x y) (renameFile (w.sparing q x) old new) (renameFile (w.sparing q y) old new) := by
  have hobject : Simulates (Twins q x y) (renameObject (w.sparing q x) old new)
      (renameObject (w.sparing q y) old new) := renameObject_passesBy hold hnew w
  have hdirectory : Simulates (Twins q x y) (renameDirectory (w.sparing q x) old new)
      (renameDirectory (w.sparing q y) old new) := renameDirectory_spares w
  refine Simulates.ite (fun _ => Simulates.done) fun _ => ?_
  have hsource : ∀ o, statAnswer old (w.sparing q o).source = statAnswer old w.source := fun _ => rfl
  rw [hsource, hsource]
  cases statAnswer old w.source with
  | missing | unreachable => exact Simulates.fail
  | directory => exact hdirectory
  | file => exact hobject

variable {w : FileFaults} {wd : DirectoryFaults}

theorem discardStagedDestination_passesBy {path : String} (h : path ≠ q) :
    PassesBy q x y (discardStagedDestination w path) := by
  refine .bind (.read (fun _ => rfl) fun g _ => ?_) fun _ => .step (.cancelPendingDelete h _)
  split
  · exact .done
  split
  · exact .fail
  · exact .bind (.step .lockFile) fun _ => .bind (.step (.on h _)) fun _ =>
      .bind (.step (.cleanupSession h)) fun _ => .step .unlockFile

theorem deleteSource_passesBy (h : old ≠ q) : PassesBy q x y (deleteSource w old) := by
  refine .read (fun _ => rfl) fun g _ => ?_
  split
  · exact .done
  split
  · exact .bind (.step .lockFile) fun _ => .step .unlockFile
  · exact .bind (.step .lockFile) fun _ => .bind (.step (.setObject h none)) fun _ =>
      .bind (.step (.cancelPendingDelete h _)) fun _ => .step .unlockFile

theorem renameOver_spares (hold : old ≠ q) (hnew : new ≠ q) : Simulates (Twins q x y)
    (discardStagedDestination (w.sparing q x) new >>= fun _ => renameFile (w.bucket.sparing q x) old new)
    (discardStagedDestination (w.sparing q y) new >>= fun _ => renameFile (w.bucket.sparing q y) old new) :=
  Simulates.bind (discardStagedDestination_passesBy (w := w) hnew) fun _ => renameFile_spares hold hnew _

theorem renameDirtyStagedFile_spares (hold : old ≠ q) (hnew : new ≠ q) : Simulates (Twins q x y)
    (renameDirtyStagedFile (w.sparing q x) old new) (renameDirtyStagedFile (w.sparing q y) old new) := by
  have hstaged : PassesBy q x y (renameStagedPath w.staged old new) := .renameStagedPath hold hnew
  refine Simulates.bind hstaged.attempt ?_
  rintro (e | _)
  · cases e with
    | notExist => exact renameOver_spares hold hnew
    | _ => exact Simulates.fail
  · exact deleteSource_passesBy (w := w) hold

/-! ## Directories -/

theorem release_passesBy (claimed : List String) : PassesBy q x y (release claimed) := by
  induction claimed with
  | nil => exact .done
  | cons path rest ih => exact ih.bind fun _ => .step .unlockFile

theorem giveUp_passesBy (holdsClaim : Bool) (path : String) : PassesBy q x y (giveUp holdsClaim path) := by
  unfold giveUp
  split
  · exact .step .unlockFile
  · exact .done

/-- The child and the name it gets are not `q`. -/
def Misses (q old new child : String) : Prop := child ≠ q ∧ renameTarget old new child ≠ q

theorem moveBack_passesBy {moved : List String} (h : ∀ child ∈ moved, Misses q old new child) :
    PassesBy q x y (moveBack wd old new moved) := by
  induction moved with
  | nil => exact .done
  | cons child rest ih =>
    have hchild := h child List.mem_cons_self
    exact .bind (PassesBy.renameStagedPath hchild.2 hchild.1).attempt fun _ =>
      ih fun c hc => h c (List.mem_cons_of_mem _ hc)

theorem undo_passesBy {p : Progress} (h : ∀ child ∈ p.moved, Misses q old new child) :
    PassesBy q x y (undo wd old new p) :=
  (moveBack_passesBy h).bind fun _ => release_passesBy _

variable {children : List String}

theorem moveChildren_passesBy : ∀ {p : Progress}, (∀ child ∈ children, Misses q old new child) →
    (∀ child ∈ p.moved, Misses q old new child) →
    PassesBy q x y (moveChildren wd old new children p) := by
  induction children with
  | nil => exact fun _ _ => .done
  | cons child rest ih =>
    intro p h hp
    have hchild := h child List.mem_cons_self
    have hrest : ∀ c ∈ rest, Misses q old new c := fun c hc => h c (List.mem_cons_of_mem _ hc)
    refine .read (fun _ => rfl) fun g _ => .bind (.step .lockFile) fun _ =>
      .bind (PassesBy.renameStagedPath hchild.1 hchild.2).attempt ?_
    rintro (e | _)
    · cases e with
      | notExist => exact .bind (giveUp_passesBy _ _) fun _ => ih hrest hp
      | _ => exact .bind (giveUp_passesBy _ _) fun _ => .bind (undo_passesBy hp) fun _ => .fail
    · exact ih hrest (List.forall_mem_cons.2 ⟨hchild, hp⟩)

theorem moveChildren_moved : ∀ {p : Progress}, Triple (fun _ => True)
    (moveChildren wd old new children p) (fun p' _ => ∀ c ∈ p'.moved, c ∈ children ∨ c ∈ p.moved)
    (fun _ _ => True) (fun _ => True) := by
  induction children with
  | nil => exact Triple.done fun _ _ => ⟨trivial, fun _ => .inr⟩
  | cons child rest ih =>
    intro p
    refine Triple.read fun g _ => Triple.bind Triple.anything fun _ => Triple.bind Triple.anything ?_
    rintro (e | _)
    · cases e with
      | notExist =>
        refine Triple.bind Triple.anything fun _ => ih.conseq (fun _ h => h) ?_ fun _ _ h => h
        exact fun _ _ h c hc => (h c hc).imp_left (List.mem_cons_of_mem _)
      | _ =>
        exact Triple.bind Triple.anything fun _ => Triple.bind Triple.anything fun _ =>
          Triple.fail fun _ _ => ⟨trivial, trivial⟩
    · refine ih.conseq (fun _ h => h) ?_ fun _ _ h => h
      intro p' _ h c hc
      rcases h c hc with hrest | hmoved
      · exact .inl (List.mem_cons_of_mem _ hrest)
      · rcases List.mem_cons.1 hmoved with rfl | hmoved
        · exact .inl List.mem_cons_self
        · exact .inr hmoved

theorem moveBack_sparing (o : Option Object) (moved : List String) :
    moveBack (wd.sparing q o) old new moved = moveBack wd old new moved := by
  induction moved with
  | nil => rfl
  | cons child rest ih =>
    rw [moveBack, moveBack, ih]
    rfl

theorem undo_sparing (o : Option Object) (p : Progress) :
    undo (wd.sparing q o) old new p = undo wd old new p := by
  rw [undo, undo, moveBack_sparing]

theorem moveChildren_sparing (o : Option Object) : ∀ {p : Progress},
    moveChildren (wd.sparing q o) old new children p = moveChildren wd old new children p := by
  induction children with
  | nil => exact rfl
  | cons child rest ih =>
    intro p
    rw [moveChildren, moveChildren]
    simp only [ih, undo_sparing]
    rfl

theorem listPrefix_ne (hq : isReservedPath q) (dir : String) : listPrefix dir ≠ q := by
  obtain rfl : q = "/" ++ leaseObjectKey := beq_iff_eq.1 hq
  intro h
  have hlast : (listPrefix dir).toList.getLast? = some '/' := by
    rw [listPrefix]
    split
    · rename_i hroot
      rw [hroot]
      rfl
    · simp [String.toList_append]
  rw [h] at hlast
  exact absurd hlast (by decide)

theorem renameInBucket_spares (hq : isReservedPath q) (hold : old ≠ q) (hnew : new ≠ q)
    {p : Progress} (hp : ∀ child ∈ p.moved, Misses q old new child) : Simulates (Twins q x y)
    (renameInBucket (wd.sparing q x) old new p) (renameInBucket (wd.sparing q y) old new p) := by
  have hundo : Simulates (Twins q x y) (undo (wd.sparing q x) old new p)
      (undo (wd.sparing q y) old new p) := by
    rw [undo_sparing, undo_sparing]
    exact undo_passesBy hp
  have hbucket : Simulates (Twins q x y) (renameFile (wd.sparing q x).bucket old new)
      (renameFile (wd.sparing q y).bucket old new) := renameFile_spares hold hnew wd.bucket
  refine Simulates.bind hbucket.attempt ?_
  rintro (e | _)
  · refine Simulates.ite (fun _ => ?_) fun _ => Simulates.bind hundo fun _ => Simulates.fail
    refine Simulates.bind ?_ fun _ => release_passesBy _
    show PassesBy q x y (.step fun g => if wd.create then g else _)
    split
    · exact .step .refl
    · exact .step (.setObject (listPrefix_ne hq new) _)
  · exact release_passesBy _

theorem renameDirectoryWithStagedFiles_spares (hq : isReservedPath q) (hold : old ≠ q)
    (hnew : new ≠ q) (hchildren : ∀ child ∈ children, Misses q old new child) :
    Simulates (Twins q x y) (renameDirectoryWithStagedFiles (wd.sparing q x) old new children)
    (renameDirectoryWithStagedFiles (wd.sparing q y) old new children) := by
  have hbucket : Simulates (Twins q x y) (renameFile (wd.sparing q x).bucket old new)
      (renameFile (wd.sparing q y).bucket old new) := renameFile_spares hold hnew wd.bucket
  have hsorted : ∀ child ∈ children.insertionSort (· ≤ ·), Misses q old new child := fun c hc =>
    hchildren c (List.mem_insertionSort (· ≤ ·) |>.1 hc)
  have hmove : Simulates (Twins q x y)
      (moveChildren (wd.sparing q x) old new (children.insertionSort (· ≤ ·)) {})
      (moveChildren (wd.sparing q y) old new (children.insertionSort (· ≤ ·)) {}) := by
    rw [moveChildren_sparing, moveChildren_sparing]
    exact moveChildren_passesBy hsorted (by simp)
  refine Simulates.read ?_
  rintro g _ ⟨hg, rfl⟩
  have hdest : ∀ o, statAnswer new (wd.sparing q o).destination = statAnswer new wd.destination :=
    fun _ => rfl
  refine Simulates.ite (R := Twins q x y) (fun _ => Simulates.fail) (fun _ => ?_) g _ ⟨hg, rfl⟩
  rw [hdest, hdest]
  cases statAnswer new wd.destination with
  | file | directory => exact hbucket
  | unreachable => exact Simulates.fail
  | missing =>
    refine hmove.bind_of (Q := fun p => ∀ child ∈ p.moved, Misses q old new child) ?_ fun p hp =>
      renameInBucket_spares hq hold hnew hp
    intro s p hres child hc
    rcases moveChildren_moved.of_ok trivial hres child hc with h | h
    · exact hsorted child h
    · cases h

theorem rename_spares (hq : isReservedPath q) {known : List String} {wf : FileFaults} {g : Gateway}
    (hg : Unstaged q g) (hx : g.object q = x)
    (htarget : ∀ child ∈ g.dirtyStagedChildren known old, renameTarget old new child ≠ q) :
    Outcome.Matches (Twins q x y) (rename known (wf.sparing q x) (wd.sparing q x) old new g)
    (rename known (wf.sparing q y) (wd.sparing q y) old new (g.withObject q y)) := by
  by_cases hpath : (isReservedPath old || isReservedPath new)
  · rw [rename, rename, if_pos hpath, if_pos hpath]
    exact Simulates.fail g _ ⟨⟨hg, hx⟩, rfl⟩
  have hold : old ≠ q := by
    rintro rfl
    exact hpath (by simp [hq])
  have hnew : new ≠ q := by
    rintro rfl
    exact hpath (by simp [hq])
  have hchildren : ∀ child ∈ g.dirtyStagedChildren known old, Misses q old new child := by
    refine fun child hc => ⟨?_, htarget child hc⟩
    rintro rfl
    have hdirty := (List.mem_filter.1 hc).2
    simp [hg.dirty] at hdirty
  rw [rename, rename, if_neg hpath, if_neg hpath]
  -- What is read is the same in both, so the branches are.
  refine Simulates.ite (R := Twins q x y) (fun _ => Simulates.fail) (fun _ => ?_) g (g.withObject q y)
    ⟨⟨hg, hx⟩, rfl⟩
  refine Simulates.ite (fun _ => Simulates.fail) fun _ => ?_
  refine Simulates.ite (fun _ => renameDirectoryWithStagedFiles_spares hq hold hnew hchildren) fun _ => ?_
  refine Simulates.ite (fun _ => Simulates.fail) fun _ => ?_
  exact Simulates.ite (fun _ => renameDirtyStagedFile_spares hold hnew) fun _ => renameOver_spares hold hnew

end

end Bluestone
