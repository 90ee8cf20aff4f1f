/-
# `Bluestone.Staging.Restored` — what recovery gives back of an accepted change

A change whose `MarkDirty` returned nil and that no completed upload has covered
must come back after a crash: dirty, over the staged bytes, and with the
attributes last set.

The bytes always do (in an orderly run).  The attributes do not.
`persistSessionAttributes` and `markPathDirty` copy the session's attributes
under its lock and write them under `sidecarMu`, so of two changes made at once
the older copy may be written last.  `stale_attributes_restored` is that run.

`uncovered_restored`: they do when every sidecar write carries the attributes the
listed session has at that moment, none fails, and attributes are set on the listed
session only.
-/
import Bluestone.Staging.Crash

namespace Bluestone

open Runs
open Function (update_of_ne update_self)
open WriteSession (attributesIfSet content)

/-! ## The attributes a session has had -/

/-- `recent` are the values the listed session has had since the one that the
last `SetAttributes` to return left, newest first.  `age t` says how many values
are newer than the one the last setter of thread `t` left. -/
structure AttrHistory where
  recent : List StagedAttributes
  age : Nat → Nat

namespace State

/-- `sessionAttributes`: those of the listed session, if seeded or set. -/
def sessionAttributes (s : State) : Option StagedAttributes :=
  s.listed.bind fun sid => (s.session sid).attributesIfSet

/-- The attributes the listed session would sync with, as a list of at most one. -/
def heldAttributes (s : State) : List StagedAttributes :=
  (s.listed.map fun sid => (s.session sid).attrs).toList

end State

namespace AttrHistory

/-- The history of a gateway that has just started. -/
def start (s : State) : AttrHistory := ⟨s.heldAttributes, fun _ => 0⟩

/-- The listed session has new attributes. -/
def push (h : AttrHistory) (s' : State) : AttrHistory :=
  ⟨s'.heldAttributes ++ h.recent, fun t => h.age t + 1⟩

/-- What one step adds.  Seeding, creation and writes change attributes as well,
but only `SetAttributes` reports that it did. -/
def after (h : AttrHistory) (e : Nat × Action) (s' : State) : AttrHistory :=
  match e.2 with
  | .newSession => start s'
  | .seeded | .created | .write _ _ => h.push s'
  | .setter => { h.push s' with age := Function.update (h.push s').age e.1 0 }
  | .attributesSet _ => { h with recent := h.recent.take (h.age e.1 + 1) }
  | _ => h

end AttrHistory

/-- Whether a change has been accepted since the last completed sync. -/
def uncoveredAfter (uncovered : Bool) : Action → Bool
  | .accepted => true
  | .synced => false
  | _ => uncovered

/-- The system with both histories.  At the start no change is uncovered, and the
history of attributes starts again with every new session. -/
def systemWithAttributes (actors : Actor → Prop) :
    System (State × Bool × AttrHistory) (Nat × Action) :=
  (system actors).track (fun s => (false, .start s))
    fun _ e s' h => (uncoveredAfter h.1 e.2, h.2.after e s')

/-- Recovery brings the path back dirty, with a session over the staged bytes
(those a truncation under way keeps, if there is one) and with attributes the
session had once the last `SetAttributes` had returned. -/
def Restores (s : State) (e : Nat × Action) (d : Disk) (h : AttrHistory) : Prop :=
  (s.recover d).dirty.isSome = true ∧ (s.recover d).listed = some 0 ∧
    ((s.recover d).currentBytes = s.currentBytes ∨
      ∃ size, e.2 = .truncate size ∧ (s.recover d).currentBytes = s.currentBytes.take size) ∧
    ((s.recover d).session 0).attrs ∈ h.recent

/-! ## Conditions on runs -/

/-- A sidecar is written with the attributes the listed session has. -/
structure CarriesCurrent (s : State) (e : Nat × Action) : Prop where
  persist : ∀ sid attrs next, e.2 = .persisted → s.task e.1 = .persist sid (.write attrs) next →
    s.sessionAttributes = some attrs
  record : ∀ sid opens found attrs, e.2 = .accepted →
    s.task e.1 = .marking sid opens (.record found attrs) → s.markDirtyAgain = none →
    attrs = s.sessionAttributes
  commit : ∀ sid version, s.task e.1 = .committing (.metadata sid version) →
    s.disk.sidecar = none → s.listed = some sid

/-- Attributes are persisted wherever there is a sidecar to hold them. -/
def sidecarsWritten : Condition := fun s e =>
  ∀ sid attrs next, e.2 = .internal → s.task e.1 = .persist sid (.write attrs) next →
    s.disk.sidecar = none

/-- Attributes are set on the listed session. -/
def settersListed : Condition := fun s e =>
  ∀ sid todo update, e.2 = .setter → s.task e.1 = .setting (.apply sid todo update) →
    s.listed = some sid

/-- The conditions under which nothing accepted is lost. -/
structure Faithful (s : State) (e : Nat × Action) : Prop where
  orderly : Orderly s e
  carries : CarriesCurrent s e
  written : sidecarsWritten s e
  setters : settersListed s e

/-! ## What the sidecar holds -/

/-- The session whose attributes a thread has changed and not yet persisted. -/
def Task.persisting : Task → Option Nat
  | .persist sid .copy _ | .persist sid (.write _) _ => some sid
  | _ => none

/-- The sidecar's attributes are among the recent ones, and only a thread still
persisting has made a newer one. -/
structure Persisted (s : State) (h : AttrHistory) : Prop where
  current : ∀ sid, s.listed = some sid → h.recent.head? = some (s.session sid).attrs
  unset : ∀ sid, s.listed = some sid → (s.session sid).attributesSet = false →
    (s.session sid).attrs = .default ∧
      ∀ state, s.disk.sidecar = some state → state.attributes = none
  stored : ∀ sid state, s.listed = some sid → s.disk.sidecar = some state →
    ∃ k, h.recent[k]? = some (state.attributes.getD .default) ∧
      ∀ t, h.age t < k → (s.task t).persisting = some sid

section
variable {s s' s1 : State} {t sid : Nat} {task : Task} {a : Action} {h : AttrHistory}

theorem Persisted.goto (hp : Persisted s h) (ht : ∀ sid, (s.task t).persisting = some sid →
    task.persisting = some sid) : Persisted (s.goto t task) h := by
  refine ⟨hp.current, hp.unset, ?_⟩
  intro sid state hl hs
  obtain ⟨k, hk, hage⟩ := hp.stored sid state hl hs
  refine ⟨k, hk, fun t' h' => ?_⟩
  by_cases htt : t' = t
  · subst htt
    rw [goto_task_self]
    exact ht sid (hage t' h')
  · simpa [State.goto, update_of_ne htt] using hage t' h'

theorem Persisted.move {old : Task} (hp : Persisted s1 h) (htask : s1.task = s.task)
    (ht : s.task t = old) (ho : old.persisting = none) : Persisted (s1.goto t task) h := by
  refine hp.goto fun sid hsid => ?_
  rw [htask, ht, ho] at hsid
  exact nomatch hsid

/-- What the invariant does not see. -/
structure SameAttributes (s s' : State) : Prop where
  listed : s'.listed = s.listed
  session : ∀ sid, s.listed = some sid → (s'.session sid).attrs = (s.session sid).attrs ∧
    (s'.session sid).attributesSet = (s.session sid).attributesSet
  sidecar : ∀ state', s'.disk.sidecar = some state' →
    ∃ state, s.disk.sidecar = some state ∧ state'.attributes = state.attributes
  task : s'.task = s.task

theorem Persisted.same (hp : Persisted s h) (hs : SameAttributes s s') : Persisted s' h := by
  refine ⟨?_, ?_, ?_⟩
  · intro sid hl
    rw [hs.listed] at hl
    rw [(hs.session sid hl).1]
    exact hp.current sid hl
  · intro sid hl hset
    rw [hs.listed] at hl
    rw [(hs.session sid hl).2] at hset
    obtain ⟨hdef, hnone⟩ := hp.unset sid hl hset
    refine ⟨by rw [(hs.session sid hl).1, hdef], fun state' hs' => ?_⟩
    obtain ⟨state, hstate, heq⟩ := hs.sidecar state' hs'
    rw [heq]
    exact hnone state hstate
  · intro sid state' hl hs'
    rw [hs.listed] at hl
    obtain ⟨state, hstate, heq⟩ := hs.sidecar state' hs'
    rw [heq, hs.task]
    exact hp.stored sid state hl hstate

theorem Persisted.unlist (hl : s.listed = none) : Persisted s h := by
  refine ⟨?_, ?_, ?_⟩
  · intro sid hsid
    exact nomatch hl.symm.trans hsid
  · intro sid hsid
    exact nomatch hl.symm.trans hsid
  · intro sid _ hsid
    exact nomatch hl.symm.trans hsid

variable {ws : WriteSession} {d : Disk} {actors : Actor → Prop}

theorem sameAttributes_setSession (hattrs : ws.attrs = (s.session sid).attrs)
    (hset : ws.attributesSet = (s.session sid).attributesSet) :
    SameAttributes s (s.setSession sid ws) := by
  refine ⟨rfl, ?_, fun state' hs => ⟨state', hs, rfl⟩, rfl⟩
  intro i _
  by_cases hi : i = sid
  · subst hi
    simp [State.setSession, hattrs, hset]
  · simp [State.setSession, update_of_ne hi]

theorem sameAttributes_releaseSession : SameAttributes s s.releaseSession := by
  unfold State.releaseSession
  cases s.listed with
  | none => exact ⟨rfl, fun _ _ => ⟨rfl, rfl⟩, fun state' hs => ⟨state', hs, rfl⟩, rfl⟩
  | some sid => exact sameAttributes_setSession rfl rfl

theorem Persisted.setFile (hp : Persisted s h)
    (hattrs : ws.attrs = (s.session sid).attrs) (hset : ws.attributesSet = (s.session sid).attributesSet)
    (hsc : d.sidecar = s.disk.sidecar) : Persisted ((s.setSession sid ws).setDisk d) h := by
  have hs := sameAttributes_setSession hattrs hset
  refine hp.same ⟨rfl, hs.session, fun state' h' => ⟨state', ?_, rfl⟩, rfl⟩
  rw [← hsc]
  exact h'

theorem Persisted.push {age : Nat → Nat} (hp : Persisted s h)
    (hl : s.listed = some sid) (hsc : d.sidecar = s.disk.sidecar) (hset : ws.attributesSet = false →
    (s.session sid).attributesSet = false ∧ ws.attrs = .default) (ht : (s.task t).persisting = none)
    (hage : ∀ t', age t' = h.age t' + 1 ∨ t' = t ∧ task.persisting = some sid) :
    Persisted (((s.setSession sid ws).setDisk d).goto t task)
    ⟨(((s.setSession sid ws).setDisk d).goto t task).heldAttributes ++ h.recent, age⟩ := by
  have hheld : (((s.setSession sid ws).setDisk d).goto t task).heldAttributes = [ws.attrs] := by
    simp [State.heldAttributes, State.goto, State.setDisk, State.setSession, hl]
  rw [hheld]
  refine ⟨?_, ?_, ?_⟩
  · intro i hi
    obtain rfl : i = sid := Option.some.inj (hi.symm.trans hl)
    simp [State.goto, State.setDisk, State.setSession]
  · intro i hi hfalse
    obtain rfl : i = sid := Option.some.inj (hi.symm.trans hl)
    simp only [State.goto, State.setDisk, State.setSession, update_self] at hfalse ⊢
    obtain ⟨hunset, hdef⟩ := hset hfalse
    refine ⟨hdef, fun state hs => (hp.unset i hl hunset).2 state ?_⟩
    rw [← hsc]
    exact hs
  · intro i state hi hs
    obtain rfl : i = sid := Option.some.inj (hi.symm.trans hl)
    obtain ⟨k, hk, hold⟩ := hp.stored i state hl (by rw [← hsc]; exact hs)
    refine ⟨k + 1, by simpa using hk, fun t' hlt => ?_⟩
    by_cases htt : t' = t
    · subst htt
      rw [goto_task_self]
      rcases hage t' with heq | ⟨_, hpers⟩
      · -- a thread that was not persisting has made no newer value
        have hlt' : age t' < k + 1 := hlt
        have := hold t' (by omega)
        rw [ht] at this
        cases this
      · exact hpers
    · rcases hage t' with heq | ⟨heq, _⟩
      · have hlt' : age t' < k + 1 := hlt
        simpa [State.goto, State.setDisk, State.setSession, update_of_ne htt]
          using hold t' (by omega)
      · exact absurd heq htt

theorem Persisted.returned (hp : Persisted s h) (ht : (s.task t).persisting = none) :
    Persisted s { h with recent := h.recent.take (h.age t + 1) } := by
  refine ⟨?_, hp.unset, ?_⟩
  · intro sid hl
    have hhead := hp.current sid hl
    cases hr : h.recent with
    | nil => simp [hr] at hhead
    | cons v rest => simpa [hr] using hhead
  · intro sid state hl hs
    obtain ⟨k, hk, hage⟩ := hp.stored sid state hl hs
    refine ⟨k, ?_, hage⟩
    have hle : k ≤ h.age t := by
      by_contra hlt
      have := hage t (by omega)
      rw [ht] at this
      exact nomatch this
    rw [List.getElem?_take_of_lt (by omega)]
    exact hk

theorem Persisted.written (hp : Persisted s h) (hd : ∀ sid, s.listed = some sid →
    ∀ state, d.sidecar = some state → state.attributes.getD .default = (s.session sid).attrs ∧
    ((s.session sid).attributesSet = false → state.attributes = none)) : Persisted (s.setDisk d) h := by
  refine ⟨hp.current, ?_, ?_⟩
  · intro sid hl hset
    exact ⟨(hp.unset sid hl hset).1, fun state hs => (hd sid hl state hs).2 hset⟩
  · intro sid state hl hs
    refine ⟨0, ?_, fun t h0 => absurd h0 (Nat.not_lt_zero _)⟩
    rw [(hd sid hl state hs).1, ← List.head?_eq_getElem?]
    exact hp.current sid hl

theorem Persisted.settle (hp : Persisted s h) (hup : ∀ sid state, s.listed = some sid →
    (s.task t).persisting = some sid → s.disk.sidecar = some state →
    state.attributes.getD .default = (s.session sid).attrs) : Persisted (s.goto t task) h := by
  refine ⟨hp.current, hp.unset, ?_⟩
  intro sid state hl hs
  by_cases hpers : (s.task t).persisting = some sid
  · refine ⟨0, ?_, fun _ h0 => absurd h0 (Nat.not_lt_zero _)⟩
    rw [hup sid state hl hpers hs, ← List.head?_eq_getElem?]
    exact hp.current sid hl
  · obtain ⟨k, hk, hage⟩ := hp.stored sid state hl hs
    refine ⟨k, hk, fun t' h' => ?_⟩
    have htt : t' ≠ t := by
      rintro rfl
      exact hpers (hage t' h')
    simpa [State.goto, update_of_ne htt] using hage t' h'

/-! ## One step at a time -/

theorem Persisted.createSession {sidecarOk : Bool} (hd : s.disk.dataFile = none)
    (hsc : s.disk.sidecar = none) : Persisted ((s.createSession sidecarOk).goto t task)
    (.start ((s.createSession sidecarOk).goto t task)) := by
  have hattrs : (newWriteSession s.disk s.path sidecarOk).1.attrs = .default := rfl
  have hbare := (newWriteSession_bare s.path sidecarOk hd hsc).2
  refine ⟨?_, ?_, ?_⟩
  · intro sid hsid
    obtain rfl := Option.some.inj hsid
    rfl
  · intro sid hsid _
    obtain rfl := Option.some.inj hsid
    refine ⟨?_, fun state hs => (hbare state hs).2⟩
    simp only [State.goto, State.createSession, update_self, hattrs]
  · intro sid state hsid hs
    refine ⟨0, ?_, fun _ h0 => absurd h0 (Nat.not_lt_zero _)⟩
    rw [(hbare state hs).2]
    simp [AttrHistory.start, State.heldAttributes, State.goto, State.createSession, hattrs]

theorem OpenStep.persisted (hstep : OpenStep s t a s') (hi : Intact s) (hok : Faithful s (t, a))
    (hp : Persisted s h) : Persisted s' (h.after (t, a) s') := by
  have hlisted : ∀ {sid}, (s.task t).holds = some sid → s.listed = some sid :=
    fun h => listed_of_holds hi.slot h
  cases hstep with
  | @acquire sid ht _ _ =>
    have hs : SameAttributes s (s.setSession sid
        { s.session sid with refCount := (s.session sid).refCount + 1 }) :=
      sameAttributes_setSession rfl rfl
    exact (hp.same hs).move rfl ht rfl
  | @reuse fl pd sid ht hl =>
    have hs : SameAttributes s (s.setSession sid
        { s.session sid with refCount := (s.session sid).refCount + 1 }) :=
      sameAttributes_setSession rfl rfl
    have hp' : Persisted (s.reuseSession sid) h := hp.same ⟨rfl, hs.session, hs.sidecar, rfl⟩
    exact hp'.move rfl ht rfl
  | create ht hl =>
    obtain ⟨hd, hsc⟩ := hi.durable.bare hl (hok.orderly.2.2 rfl)
    exact Persisted.createSession hd hsc
  | @seed fl sid attrs ht =>
    refine hp.push (d := s.disk) (hlisted (by rw [ht]; rfl)) rfl ?_ (by rw [ht]; rfl)
      fun _ => .inl rfl
    intro hfalse
    exact nomatch hfalse.symm.trans (seedAttributes_set attrs)
  | fetched ht _ _ hpre | fetchFailed ht _ _ hpre =>
    exact (hp.setFile (prefetch_attributes hpre).1 (prefetch_attributes hpre).2
      (prefetch_sidecar hpre)).move rfl ht rfl
  | @creation fl sid now ht =>
    refine hp.push (d := s.disk) (hlisted (by rw [ht]; rfl)) rfl ?_ (by rw [ht]; rfl)
      fun _ => .inl rfl
    intro hfalse
    exact nomatch hfalse.symm.trans (setCreationIfUnset_set now fl.perm)
  | truncate ht hw =>
    exact (hp.setFile (truncate_attributes hw).1 (truncate_attributes hw).2
      (truncate_sidecar hw)).move rfl ht rfl
  | refuseKept ht _ | release ht =>
    exact (hp.same sameAttributes_releaseSession).move releaseSession_task ht rfl
  | refuseDiscard ht _ _ => exact .unlist rfl
  | discardClose ht | discardData ht | discardSidecar ht => exact .unlist (hi.files.discarding t (by rw [ht]; rfl))
  | _ => exact hp.move rfl ‹s.task t = _› rfl

theorem HandleStep.persisted (hstep : HandleStep s t a s') (hi : Intact s) (hp : Persisted s h) :
    Persisted s' (h.after (t, a) s') := by
  cases hstep with
  | write ht hw =>
    have hl := listed_of_holds (t := t) hi.slot (by rw [ht]; rfl)
    refine hp.push hl (write_sidecar hw) ?_ (by rw [ht]; rfl) fun _ => .inl rfl
    intro hfalse
    rw [(write_attributes hw).2] at hfalse
    refine ⟨hfalse, ?_⟩
    rw [(write_attributes hw).1, (hp.unset _ hl hfalse).1]
    rfl
  | truncate ht hw =>
    exact (hp.setFile (truncate_attributes hw).1 (truncate_attributes hw).2
      (truncate_sidecar hw)).move rfl ht rfl
  | close ht | closeReading ht => exact (hp.same sameAttributes_releaseSession).move releaseSession_task ht rfl

theorem recordDirtyPath_attributes (hp : Persisted s h) (hl : s.listed = some sid)
    {state : PathMetadataState}
    (hs : (s.disk.recordDirtyPath s.path s.sessionAttributes).sidecar = some state) :
    state.attributes.getD .default = (s.session sid).attrs ∧ ((s.session sid).attributesSet = false →
    state.attributes = none) := by
  have hcarried : s.sessionAttributes = (s.session sid).attributesIfSet := by
    simp [State.sessionAttributes, hl]
  rw [hcarried] at hs
  cases hset : (s.session sid).attributesSet with
  | true =>
    have hattrs : state.attributes = some (s.session sid).attrs := by
      unfold Disk.recordDirtyPath at hs
      split at hs <;>
        · obtain rfl := Option.some.inj hs
          simp [attributesIfSet, hset]
    exact ⟨by rw [hattrs]; rfl, nofun⟩
  | false =>
    obtain ⟨hdef, hnone⟩ := hp.unset sid hl hset
    have hattrs : state.attributes = none := by
      unfold Disk.recordDirtyPath at hs
      split at hs
      · obtain rfl := Option.some.inj hs
        simp [attributesIfSet, hset]
      · rename_i old hold
        obtain rfl := Option.some.inj hs
        simpa [attributesIfSet, hset] using hnone old hold
    exact ⟨by rw [hattrs, hdef]; rfl, fun _ => hattrs⟩

theorem sameAttributes_metadataChanged (found : Option Nat) :
    SameAttributes s (s.metadataChanged found) := by
  cases found with
  | none => exact ⟨rfl, fun _ _ => ⟨rfl, rfl⟩, fun state' hs => ⟨state', hs, rfl⟩, rfl⟩
  | some sid => exact sameAttributes_setSession rfl rfl

theorem sameAttributes_mark (recorded : Bool) : SameAttributes s (s.markDirtyWithState recorded) :=
  ⟨rfl, fun _ _ => ⟨rfl, rfl⟩, fun state' hs => ⟨state', hs, rfl⟩, rfl⟩

theorem MarkStep.persisted (hstep : MarkStep s t a s') (hok : CarriesCurrent s (t, a))
    (hp : Persisted s h) : Persisted s' (h.after (t, a) s') := by
  cases hstep with
  | again ht hm | recordedMeanwhile ht hm =>
    obtain ⟨_, _, _, rfl⟩ := markDirtyAgain_cases hm
    exact (hp.same (sameAttributes_mark true)).move (s := s) rfl ht rfl
  | @record _ sid opens found attrs ht hm =>
    obtain rfl := hok.record sid opens found attrs rfl ht hm
    have hwritten : Persisted (s.setDisk (s.disk.recordDirtyPath s.path s.sessionAttributes)) h :=
      hp.written fun sid hl state hs => recordDirtyPath_attributes hp hl hs
    have hchanged := hwritten.same (sameAttributes_metadataChanged found)
    exact (hchanged.same (sameAttributes_mark true)).move (s := s) (metadataChanged_task _) ht rfl
  | recordFailed ht _ =>
    exact (hp.same (sameAttributes_mark false)).move (s := s) rfl ht rfl
  | _ => exact hp.move rfl ‹s.task t = _› rfl

theorem PersistStep.persisted (hstep : PersistStep s t a s') (hok : Faithful s (t, a))
    (hp : Persisted s h) : Persisted s' (h.after (t, a) s') := by
  cases hstep with
  | @copy sid next ht =>
    by_cases hset : (s.session sid).attributesSet
    · rw [if_pos hset]
      refine hp.goto fun sid' hpers => ?_
      rw [ht] at hpers
      exact hpers
    · rw [if_neg hset]
      refine hp.settle fun sid' state hl hpers hs => ?_
      rw [ht] at hpers
      obtain rfl : sid = sid' := Option.some.inj hpers
      obtain ⟨hdef, hnone⟩ := hp.unset sid hl (by simpa using hset)
      rw [hnone state hs, hdef]
      rfl
  | @write sid next attrs state ht hsc =>
    have hcurrent := hok.carries.persist sid attrs next rfl ht
    have hup : ∀ sid', s.listed = some sid' → attrs = (s.session sid').attrs ∧
        (s.session sid').attributesSet := by
      intro sid' hl
      simp only [State.sessionAttributes, hl, Option.bind_some, attributesIfSet,
        Option.ite_none_right_eq_some, Option.some.injEq] at hcurrent
      exact ⟨hcurrent.2.symm, hcurrent.1⟩
    have hwritten : Persisted (s.setDisk
        (s.disk.writePathMetadataState { state with attributes := some attrs })) h := by
      refine hp.written fun sid' hl state' hs => ?_
      obtain rfl := Option.some.inj hs
      refine ⟨(hup sid' hl).1, fun hfalse => ?_⟩
      exact nomatch hfalse.symm.trans (hup sid' hl).2
    refine hwritten.settle fun sid' state' hl _ hs => ?_
    obtain rfl := Option.some.inj hs
    exact (hup sid' hl).1
  | @skip sid next attrs ht =>
    have hnone := hok.written sid attrs next rfl ht
    refine hp.settle fun sid' state _ _ hs => ?_
    exact nomatch hnone.symm.trans hs
  | @changed sid next ht =>
    have hs : SameAttributes s (s.setSession sid (s.session sid).metadataChanged) :=
      sameAttributes_setSession rfl rfl
    exact (hp.same hs).move rfl ht rfl

theorem AttrStep.persisted (hstep : AttrStep s t a s') (hok : settersListed s (t, a))
    (hp : Persisted s h) : Persisted s' (h.after (t, a) s') := by
  cases hstep with
  | @setter sid call todo update ht _ =>
    refine hp.push (d := s.disk) (hok sid _ update rfl ht) rfl nofun (by rw [ht]; rfl) ?_
    intro t'
    by_cases htt : t' = t
    · exact .inr ⟨htt, rfl⟩
    · exact .inl (update_of_ne htt _ _)
  | stagedDone ht => exact (hp.returned (t := t) (by rw [ht]; rfl)).move rfl ht rfl
  | @put update attrs o ht _ =>
    have hs : SameAttributes s ({ s with
        object := some { o with attributes := encodePOSIXAttributes attrs } } : State) :=
      ⟨rfl, fun _ _ => ⟨rfl, rfl⟩, fun state' hs => ⟨state', hs, rfl⟩, rfl⟩
    exact ((hp.returned (t := t) (by rw [ht]; rfl)).same hs).move (s := s) rfl ht rfl
  | _ => exact hp.move rfl ‹s.task t = _› rfl

theorem Persisted.commitPathMetadata (hp : Persisted s h) (hl : s.disk.sidecar = none →
    s.listed = some sid) : Persisted (s.commitPathMetadata sid) h := by
  unfold State.commitPathMetadata
  split
  · rename_i state hsc
    split
    · exact hp
    · refine hp.same ⟨rfl, fun _ _ => ⟨rfl, rfl⟩, fun state' hs => ⟨state, hsc, ?_⟩, rfl⟩
      obtain rfl := Option.some.inj hs
      rfl
  · rename_i hsc
    split
    · exact hp
    · refine hp.written fun sid' hl' state hs => ?_
      obtain rfl : sid = sid' := Option.some.inj ((hl hsc).symm.trans hl')
      obtain rfl := Option.some.inj hs
      cases hset : (s.session sid).attributesSet with
      | true => simp [attributesIfSet, hset]
      | false => simp [attributesIfSet, hset, (hp.unset sid hl' hset).1]

theorem CommitStep.persisted (hstep : CommitStep s t a s') (hok : CarriesCurrent s (t, a))
    (hp : Persisted s h) : Persisted s' (h.after (t, a) s') := by
  cases hstep with
  | @metadata sid version ht =>
    exact (hp.commitPathMetadata (hok.commit sid version ht)).move commitPathMetadata_task ht rfl
  | @committed sid version ht =>
    have hs : SameAttributes s (s.metadataCommitted sid version) :=
      sameAttributes_setSession rfl rfl
    exact (hp.same hs).move (s := s) rfl ht rfl
  | _ => exact hp.move rfl ‹s.task t = _› rfl

theorem SyncStep.persisted (hstep : SyncStep s t a s') (hi : Intact s) (hp : Persisted s h) :
    Persisted s' (h.after (t, a) s') := by
  cases hstep with
  | statMissing ht _ | statFound ht _ | forget ht | recoverListed ht _ | recover ht _ => exact (hi.files.not_searching (t := t) (by rw [ht]; rfl)).elim
  | @snapshot sid generation file ht _ _ =>
    have hs : SameAttributes s (s.setSession sid
        { s.session sid with uploadReaders := (s.session sid).uploadReaders + 1 }) :=
      sameAttributes_setSession rfl rfl
    exact (hp.same hs).move rfl ht rfl
  | @synced snap ht _ =>
    have hs : SameAttributes s s.markClean := by
      refine ⟨rfl, fun _ _ => ⟨rfl, rfl⟩, fun state' hs => ⟨state', ?_, rfl⟩, rfl⟩
      unfold State.markClean at hs
      split at hs
      · exact nomatch hs
      · exact hs
    exact (hp.same hs).move (s := s) rfl ht rfl
  | cleanup ht _ => exact .unlist rfl
  | @closeRemoved snap ht =>
    have hs : SameAttributes s (s.setSession snap.sid
        { s.session snap.sid with file := none }) :=
      sameAttributes_setSession rfl rfl
    exact (hp.same hs).move rfl ht rfl
  | @close snap ht =>
    have hs : SameAttributes s (s.closeSnapshot snap) := by
      unfold State.closeSnapshot
      split
      · exact sameAttributes_setSession rfl rfl
      · exact ⟨rfl, fun _ _ => ⟨rfl, rfl⟩, fun state' hs => ⟨state', hs, rfl⟩, rfl⟩
    exact (hp.same hs).move (closeSnapshot_task snap) ht rfl
  | _ =>
    -- locks and the object change, and the invariant does not read them
    refine Persisted.move (s := s) (hp.same ⟨rfl, fun _ _ => ⟨rfl, rfl⟩,
      fun state' hs => ⟨state', hs, rfl⟩, rfl⟩) rfl ‹s.task t = _› rfl

theorem Step.persisted {e : Nat × Action} (hstep : Step actors s e s')
    (hi : Intact s) (hok : Faithful s e) (hp : Persisted s h) : Persisted s' (h.after e s') := by
  cases hstep with
  | elsewhere _ =>
    exact hp.same ⟨rfl, fun _ _ => ⟨rfl, rfl⟩, fun state' hs => ⟨state', hs, rfl⟩, rfl⟩
  | actor _ hstep =>
    cases hstep with
    | opens hstep => exact hstep.persisted hi hok hp
    | handles hstep | syncs hstep => exact hstep.persisted hi hp
    | marks hstep | commits hstep => exact hstep.persisted hok.carries hp
    | persists hstep => exact hstep.persisted hok hp
    | attributes hstep => exact hstep.persisted hok.setters hp

/-! ## Runs -/

theorem Init.persisted (hinit : Init s) : Persisted s (.start s) := by
  obtain ⟨path, object, d, tombstone, hd, rfl⟩ := hinit
  unfold recoverFromDisk
  split
  · exact .unlist rfl
  · exact .unlist rfl
  · rename_i f state hdata hsc
    split
    · exact .unlist rfl
    · rename_i hpath
      split
      · exact .unlist rfl
      · have hsame : (newWriteSession d path true).2 = d := by
          simp [newWriteSession, Disk.openOrCreate, hdata, Disk.ensurePathMetadata, hsc,
            Decidable.not_not.1 hpath]
        have hsession : ((State.empty path object d false).recoveredSession true
            (d.inode f).length).attrs = state.attributes.getD .default ∧
            (((State.empty path object d false).recoveredSession true
              (d.inode f).length).attributesSet = false → state.attributes = none) := by
          simp only [State.recoveredSession, State.empty, hsame, hsc]
          cases state.attributes with
          | none => exact ⟨rfl, fun _ => rfl⟩
          | some attrs => exact ⟨rfl, fun h => by cases h⟩
        have hstored : ∀ state', ((State.empty path object d false).recoverSession true
            (d.inode f).length).restoreDirty.disk.sidecar = some state' → state = state' := by
          intro state' hs
          refine Option.some.inj (hsc.symm.trans ?_)
          simpa [State.restoreDirty, State.markDirtyWithState, State.recoverSession, State.empty,
            hsame] using hs
        refine ⟨?_, ?_, ?_⟩
        · intro sid hl
          obtain rfl := Option.some.inj hl
          rfl
        · intro sid hl hset
          obtain rfl := Option.some.inj hl
          have hnone := hsession.2 hset
          refine ⟨hsession.1.trans (by rw [hnone]; rfl), fun state' hs => ?_⟩
          obtain rfl := hstored state' hs
          exact hnone
        · intro sid state' hl hs
          obtain rfl := Option.some.inj hl
          obtain rfl := hstored state' hs
          refine ⟨0, ?_, fun _ h0 => absurd h0 (Nat.not_lt_zero _)⟩
          rw [← hsession.1]
          rfl

/-- The entry of a path that `MarkDirty` has accepted says its sidecar is there,
until a sync takes it. -/
def Recorded (s : State) (uncovered : Bool) : Prop :=
  uncovered = true → ∃ entry, s.dirty = some entry ∧ entry.recorded = true

theorem Step.recorded {e : Nat × Action} {uncovered : Bool} (hstep : Step actors s e s') (hi : Intact s)
    (hr : Recorded s uncovered) : Recorded s' (uncoveredAfter uncovered e.2) := by
  cases hstep with
  | elsewhere _ => exact hr
  | @actor _ _ _ _ act _ hstep =>
    cases hstep.entry with
    | same haccepted hsynced heq =>
      intro hu
      rw [heq]
      cases act with
      | accepted => exact absurd rfl haccepted
      | synced => exact absurd rfl hsynced
      | _ => exact hr hu
    | accepted heq => exact fun _ => ⟨_, heq, rfl⟩
    | refused hm =>
      intro hu
      obtain ⟨entry, hd, hrec⟩ := hr hu
      simp [State.markDirtyAgain, hd, hrec] at hm
    | synced _ => exact nofun
    | forgot ht _ => exact (hi.files.not_searching (by rw [ht]; rfl)).elim

theorem reach_persisted {p : State × Bool × AttrHistory} (hr : Reach (systemWithAttributes actors)
    (onState Faithful) p) : Intact p.1 ∧ Recorded p.1 p.2.1 ∧ Persisted p.1 p.2.2 := by
  have hintact : ∀ {s}, Reach (system actors) Faithful s → Intact s :=
    reach_intact fun _ _ hok => hok.orderly
  refine ⟨hintact (reach_track_fst hr), ?_⟩
  refine reach_track_invariant (I := fun s h => Recorded s h.1 ∧ Persisted s h.2) (J := Intact)
    hintact ?_ ?_ hr
  · intro s hinit
    exact ⟨nofun, Init.persisted hinit⟩
  · intro s e s' h hi hinv hok hstep
    exact ⟨hstep.recorded hi hinv.1, hstep.persisted hi hok hinv.2⟩

/-! ## What the crash keeps -/

theorem recovers_accepted {f : Nat} (hi : Intact s) (hp : Persisted s h)
    (hl : s.listed = some sid) (hside : s.disk.sidecar.isSome) (hd : d.dataFile = some f)
    (hsc : d.sidecar = s.disk.sidecar) : (s.recover d).dirty.isSome ∧
    (s.recover d).listed = some 0 ∧ (s.recover d).currentBytes = d.inode f ∧
    ((s.recover d).session 0).attrs ∈ h.recent := by
  obtain ⟨state, hstate⟩ := Option.isSome_iff_exists.1 hside
  obtain ⟨hdirty, hlisted, hbytes, hattrs⟩ := recover_staged hd (hsc.trans hstate)
    (hi.durable.named state hstate) (hi.durable.live (by simp [hl]))
  obtain ⟨k, hk, _⟩ := hp.stored sid state hl hstate
  exact ⟨hdirty, hlisted, hbytes, hattrs ▸ List.mem_of_getElem? hk⟩

theorem detach_truncating {size : Nat} (hi : Intact s) (hl : s.listed = some sid)
    (hdet : (s.session sid).detachFromUploadsLocked s.disk (min size (s.session sid).size)
    = some (ws, d)) : ∃ f, d.dataFile = some f ∧ d.sidecar = s.disk.sidecar ∧
    (d.inode f = (s.session sid).content s.disk ∨
    d.inode f = ((s.session sid).content s.disk).take size) := by
  obtain ⟨f, hf, hd, hbytes⟩ := hi.staged hl
  rcases detach_cases hdet with ⟨_, rfl, rfl⟩ | ⟨_, bytes, hkept, rfl, rfl⟩
  · exact ⟨f, hd, rfl, .inl hbytes⟩
  · refine ⟨_, rfl, rfl, .inr ?_⟩
    simp only [update_self, content, hf, List.take_take]
    rcases hkept with ⟨hzero, rfl⟩ | ⟨f', hf', _, rfl⟩
    · rw [hzero]
      rfl
    · obtain rfl : f = f' := Option.some.inj (hf.symm.trans hf')
      rfl

/-- A change accepted and not yet covered by an upload is restored, wherever the
crash falls. -/
theorem uncovered_restored {actors : Actor → Prop} {p : State × Bool × AttrHistory}
    {e : Nat × Action} {d : Disk}
    (hr : Reach (systemWithAttributes actors) (onState Faithful) p) (huncovered : p.2.1 = true)
    (hc : CrashDisk p.1 e d) (hok : Orderly p.1 e) : Restores p.1 e d p.2.2 := by
  obtain ⟨s, uncovered, h⟩ := p
  obtain ⟨hi, hrecorded, hp⟩ : Intact s ∧ Recorded s uncovered ∧ Persisted s h := reach_persisted hr
  obtain ⟨entry, hentry, hrec⟩ := hrecorded huncovered
  have hside := hi.durable.recorded entry hentry hrec
  obtain ⟨last, hs⟩ := hi.safe
  -- the dirty path has a session, and the session has changes
  obtain ⟨item, hitem, hchanged⟩ := hs.dirty_changed (by simp [State.view, hentry])
  obtain ⟨sid, hl⟩ : ∃ sid, s.listed = some sid := by
    cases hl : s.listed with
    | none => cases (clean_of_unlisted hs hl).symm.trans hentry
    | some sid => exact ⟨sid, rfl⟩
  have hbytes : s.currentBytes = (s.session sid).content s.disk := by
    simp [State.currentBytes, hl]
  cases hc with
  | between =>
    obtain ⟨f, _, hd, hinode⟩ := hi.staged hl
    obtain ⟨h1, h2, h3, h4⟩ := recovers_accepted hi hp hl hside hd rfl
    exact ⟨h1, h2, .inl (h3.trans (hinode.trans hbytes.symm)), h4⟩
  | creating _ hnone => cases hl.symm.trans hnone
  | @writing t sid' _ _ ws _ ht hdet =>
    obtain rfl : sid = sid' := Option.some.inj
      (hl.symm.trans (listed_of_holds (t := t) hi.slot (by rw [ht]; rfl)))
    obtain ⟨f, hd, hinode, hsc⟩ := detach_staged hi hl hdet
    obtain ⟨h1, h2, h3, h4⟩ := recovers_accepted hi hp hl hside hd hsc
    exact ⟨h1, h2, .inl (h3.trans (hinode.trans hbytes.symm)), h4⟩
  | @truncating t sid' size fl ws _ ht hdet =>
    have hheld : s.listed = some sid' := by
      refine listed_of_holds (t := t) hi.slot ?_
      rcases ht with ht | ⟨ht, _⟩ <;> rw [show s.task t = _ from ht] <;> rfl
    obtain rfl : sid = sid' := Option.some.inj (hl.symm.trans hheld)
    obtain ⟨f, hd, hsc, hinode⟩ := detach_truncating hi hl hdet
    obtain ⟨h1, h2, h3, h4⟩ := recovers_accepted hi hp hl hside hd hsc
    refine ⟨h1, h2, ?_, h4⟩
    rcases hinode with hinode | hinode
    · exact .inl (h3.trans (hinode.trans hbytes.symm))
    · exact .inr ⟨size, rfl, by rw [h3, hinode, hbytes]⟩
  | @fetching t sid' fl ws d' body how ht _ _ =>
    obtain rfl : sid = sid' := Option.some.inj
      (hl.symm.trans (listed_of_holds (t := t) hi.slot (by rw [ht]; rfl)))
    have hunchanged : (s.session sid).dirty = false := hok.1 how fl sid rfl ht
    rw [view_current_item hl] at hitem
    obtain rfl := Option.some.inj hitem
    cases hunchanged.symm.trans hchanged
  | cleaning _ hclean =>
    simp [State.cleanable, show s.dirty = some entry from hentry] at hclean

end

/-! ## Two runs -/

/-- Whether a thread is about to write a sidecar. -/
def Task.writesSidecar : Task → Bool
  | .persist _ (.write _) _ | .marking _ _ (.record _ _) | .committing (.metadata _ _) => true
  | _ => false

theorem faithful_of {s : State} {t : Nat} {a : Action} (ha : a.guarded = false)
    (ht : (s.task t).writesSidecar = false) (hs : a ≠ .setter) : Faithful s (t, a) := by
  refine ⟨orderly_of ha, ⟨?_, ?_, ?_⟩, ?_, ?_⟩
  · intro _ _ _ _ htask
    rw [show s.task t = _ from htask] at ht
    exact nomatch ht
  · intro _ _ _ _ _ htask
    rw [show s.task t = _ from htask] at ht
    exact nomatch ht
  · intro _ _ htask
    rw [show s.task t = _ from htask] at ht
    exact nomatch ht
  · intro _ _ _ _ htask
    rw [show s.task t = _ from htask] at ht
    exact nomatch ht
  · intro _ _ _ he
    exact absurd he hs

theorem faithful_persisted {s : State} {t sid : Nat} {attrs : StagedAttributes} {next : Task}
    (ht : s.task t = .persist sid (.write attrs) next) (h : s.sessionAttributes = some attrs) :
    Faithful s (t, .persisted) := by
  refine ⟨orderly_of rfl, ⟨?_, ?_, ?_⟩, ?_, ?_⟩
  · intro _ _ _ _ htask
    cases ht.symm.trans htask
    exact h
  · intro _ _ _ _ _ htask
    cases ht.symm.trans htask
  · intro _ _ htask
    cases ht.symm.trans htask
  all_goals
    intro _ _ _ he
    exact nomatch he

theorem faithful_setter {s : State} {t sid : Nat} {todo : List Setter} {update : AttributeUpdate}
    (ht : s.task t = .setting (.apply sid todo update)) (h : s.listed = some sid) :
    Faithful s (t, .setter) := by
  refine ⟨orderly_of rfl, ⟨?_, ?_, ?_⟩, ?_, ?_⟩
  · intro _ _ _ he
    exact nomatch he
  · intro _ _ _ _ he
    exact nomatch he
  · intro _ _ htask
    cases ht.symm.trans htask
  · intro _ _ _ he
    exact nomatch he
  · intro _ _ _ _ htask
    cases ht.symm.trans htask
    exact h

/-- Thread 1 sets the mode and copies the attributes; thread 2 sets the creation
time, persists it and returns; thread 1 writes its older copy.  A crash brings the
file back without the creation time. -/
theorem stale_attributes_restored : ∃ p e d, Reach (systemWithAttributes everyone) (onState Orderly) p ∧
    p.2.1 = true ∧ CrashDisk p.1 e d ∧ ¬ Restores p.1 e d p.2.2 := by
  have h : Reach (systemWithAttributes everyone) (onState Orderly)
      (State.recovered, false, .start State.recovered) := .init ⟨recovered_init, rfl⟩
  have h := onward h (@OpenStep.begin _ 0 .keeping rfl (by decide)).run
  have h := onward h (@OpenStep.reuse _ 0 .keeping false 0 rfl rfl).run
  have h := onward h (@OpenStep.known _ 0 .keeping false 0 rfl rfl).run
  have h := onward h (@HandleStep.write _ 0 0 0 [4] _ _ _ rfl rfl).run
  have h := onward h (@MarkStep.again _ _ 0 0 false rfl rfl).run
  -- the mode, up to the copy
  have h := onward h (@AttrStep.begin _ 1 { mode := some 0o644 } rfl).run
  have h := onward h (@AttrStep.staged _ 1 0 _ rfl rfl).run
  have h := onward h (@AttrStep.setter _ 1 0 _ _ _ rfl rfl).run
  have h := onward h (@PersistStep.copy _ 1 0 _ rfl).run
  -- the creation time, to the end
  have h := onward h (@AttrStep.begin _ 2 { btime := some 7 } rfl).run
  have h := onward h (@AttrStep.staged _ 2 0 _ rfl rfl).run
  have h := onward h (@AttrStep.setter _ 2 0 _ _ _ rfl rfl).run
  have h := onward h (@PersistStep.copy _ 2 0 _ rfl).run
  have h := onward h (@PersistStep.write _ 2 0 _ _ _ rfl rfl).run
  have h := onward h (@PersistStep.changed _ 2 0 _ rfl).run
  have h := onward h (@AttrStep.stagedDone _ 2 0 _ rfl).run
  -- the older copy
  have h := onward h (@PersistStep.write _ 1 0 _ _ _ rfl rfl).run
  refine ⟨_, (0, .internal), _, h, rfl, .between, ?_⟩
  rintro ⟨_, _, _, hmem⟩
  exact absurd hmem (by decide)

/-- A write and a change of mode, one after the other, both come back. -/
theorem mode_restored : ∃ p e d, Reach (systemWithAttributes everyone) (onState Faithful) p ∧
    p.2.1 = true ∧ CrashDisk p.1 e d ∧ p.2.2.recent = [{ StagedAttributes.default with mode := 0o644 }] ∧
    Restores p.1 e d p.2.2 := by
  have h : Reach (systemWithAttributes everyone) (onState Faithful)
      (State.recovered, false, .start State.recovered) := .init ⟨recovered_init, rfl⟩
  have h := h.next' ((@OpenStep.begin _ 0 .keeping rfl (by decide)).run)
    (faithful_of rfl rfl (by decide))
  have h := h.next' ((@OpenStep.reuse _ 0 .keeping false 0 rfl rfl).run)
    (faithful_of rfl rfl (by decide))
  have h := h.next' ((@OpenStep.known _ 0 .keeping false 0 rfl rfl).run)
    (faithful_of rfl rfl (by decide))
  have h := h.next' ((@HandleStep.write _ 0 0 0 [4] _ _ _ rfl rfl).run)
    (faithful_of rfl rfl (by decide))
  have h := h.next' ((@MarkStep.again _ _ 0 0 false rfl rfl).run)
    (faithful_of rfl rfl (by decide))
  have h := h.next' ((@AttrStep.begin _ 1 { mode := some 0o644 } rfl).run)
    (faithful_of rfl rfl (by decide))
  have h := h.next' ((@AttrStep.staged _ 1 0 _ rfl rfl).run)
    (faithful_of rfl rfl (by decide))
  have h := h.next' ((@AttrStep.setter _ 1 0 _ _ _ rfl rfl).run)
    (faithful_setter rfl rfl)
  have h := h.next' ((@PersistStep.copy _ 1 0 _ rfl).run)
    (faithful_of rfl rfl (by decide))
  have h := h.next' ((@PersistStep.write _ 1 0 _ _ _ rfl rfl).run)
    (faithful_persisted rfl rfl)
  have h := h.next' ((@PersistStep.changed _ 1 0 _ rfl).run)
    (faithful_of rfl rfl (by decide))
  have h := h.next' ((@AttrStep.stagedDone _ 1 0 _ rfl).run)
    (faithful_of rfl rfl (by decide))
  exact ⟨_, (0, .internal), _, h, rfl, .between, rfl,
    uncovered_restored (e := (0, .internal)) h rfl .between (orderly_of rfl)⟩

end Bluestone
