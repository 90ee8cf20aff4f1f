/-
# `Bluestone.Staging.Handle` — changing a file through a handle

A write or a truncation is two things: the session changes under its own lock
(`HandleStep`), and then `MarkDirty` records the change in the dirty index
(`MarkStep`), in up to four sections.  `PersistStep` is `persistAttributes`, which
copies the attributes under the session's lock and writes the sidecar under another.

`MarkDirty` answers nil when the change is recorded; when the sidecar could not
be written it lists the path all the same and answers an error, and the write is
refused.
-/
import Bluestone.Staging.Open

namespace Bluestone

namespace State

/-- `MarkDirtyAgain`, `none` when it reports false. -/
def markDirtyAgain (s : State) : Option State :=
  match s.dirty with
  | none => none
  | some entry =>
    if entry.recorded then
      some { s with
        dirty := some { entry with generation := s.generation + 1 }
        generation := s.generation + 1 }
    else none

/-- `MarkDirtyWithState`; `recorded` says whether there is a sidecar state. -/
def markDirtyWithState (s : State) (recorded : Bool) : State :=
  { s with
    dirty := some ⟨s.generation + 1, recorded⟩
    generation := s.generation + 1 }

/-- `metadataChanged` on the session looked up, if there was one. -/
def metadataChanged (s : State) (found : Option Nat) : State :=
  match found with
  | none => s
  | some sid => s.setSession sid (s.session sid).metadataChanged

end State

theorem markDirtyAgain_cases {s s1 : State} (h : s.markDirtyAgain = some s1) :
    ∃ entry, s.dirty = some entry ∧ entry.recorded ∧
    s1 = { s with dirty := some ⟨s.generation + 1, true⟩, generation := s.generation + 1 } := by
  unfold State.markDirtyAgain at h
  cases hd : s.dirty with
  | none => simp [hd] at h
  | some entry =>
    cases hr : entry.recorded with
    | false => simp [hd, hr] at h
    | true =>
      simp only [hd, hr, if_true, Option.some.injEq] at h
      exact ⟨entry, rfl, hr, h.symm⟩

/-- `recordDirtyPathLocked`: the sidecar of a path that is becoming dirty.
Attributes the session does not have leave those in the sidecar. -/
def Disk.recordDirtyPath (d : Disk) (path : String) (attrs : Option StagedAttributes) : Disk :=
  match d.sidecar with
  | none => d.writePathMetadataState ⟨path, attrs, false⟩
  | some state =>
    d.writePathMetadataState
      { state with
        originalPath := path
        attributes := if attrs.isSome then attrs else state.attributes }

/-- One section of a write, a truncation or a close through the handle of
thread `t`. -/
inductive HandleStep : State → Nat → Action → State → Prop
  | write {s t sid offset data ws d}
    {dropped : Bool} : s.task t = .handle sid →
    (s.session sid).write s.disk offset data = some (ws, d, dropped) →
    HandleStep s t (.write offset data) (((s.setSession sid ws).setDisk d).goto t
    (persistIf dropped sid (.marking sid false .again)))
  | truncate {s t sid size ws d} : s.task t = .handle sid →
    (s.session sid).truncate s.disk size = some (ws, d) → HandleStep s t (.truncate size)
    (((s.setSession sid ws).setDisk d).goto t (.marking sid false .again))
  | close {s t sid} : s.task t = .handle sid →
    HandleStep s t .internal (s.releaseSession.goto t .idle)
  | closeReading {s t sid} : s.task t = .reading sid →
    HandleStep s t .internal (s.releaseSession.goto t .idle)

/-- One section of `MarkDirty`. -/
inductive MarkStep : State → Nat → Action → State → Prop
  | again {s s1 t sid opens} : s.task t = .marking sid opens .again →
    s.markDirtyAgain = some s1 → MarkStep s t .accepted (s1.goto t (.handle sid))
  | clean {s t sid opens} : s.task t = .marking sid opens .again →
    s.markDirtyAgain = none → MarkStep s t .internal (s.goto t (.marking sid opens .lookup))
  | lookup {s t sid opens} : s.task t = .marking sid opens .lookup →
    MarkStep s t .internal (s.goto t (.marking sid opens (.attrs s.listed)))
  | attrs {s t sid opens found} :
    s.task t = .marking sid opens (.attrs found) → MarkStep s t .internal (s.goto t (.marking sid opens
    (.record found (found.bind fun sid' => (s.session sid').attributesIfSet))))
  /-- Another write of the same file got here first. -/
  | recordedMeanwhile {s s1 t sid opens found}
    {attrs : Option StagedAttributes} : s.task t = .marking sid opens (.record found attrs) →
    s.markDirtyAgain = some s1 → MarkStep s t .accepted (s1.goto t (.handle sid))
  | record {s t sid opens found}
    {attrs : Option StagedAttributes} : s.task t = .marking sid opens (.record found attrs) →
    s.markDirtyAgain = none → MarkStep s t .accepted
    (((((s.setDisk (s.disk.recordDirtyPath s.path attrs)).metadataChanged found)).markDirtyWithState
    true).goto t (.handle sid))
  /-- The sidecar could not be written: listed, and refused. -/
  | recordFailed {s t sid opens found}
      {attrs : Option StagedAttributes} :
      s.task t = .marking sid opens (.record found attrs) → s.markDirtyAgain = none →
      MarkStep s t .refused
        ((s.markDirtyWithState false).goto t (if opens then .releasing sid else .handle sid))

/-- One section of `persistSessionAttributes`. -/
inductive PersistStep : State → Nat → Action → State → Prop
  | copy {s t sid next} :
      s.task t = .persist sid .copy next →
      PersistStep s t .internal (s.goto t (if (s.session sid).attributesSet then
          .persist sid (.write (s.session sid).attrs) next else next))
  | write {s t sid next attrs}
    {state : PathMetadataState} : s.task t = .persist sid (.write attrs) next →
    s.disk.sidecar = some state → PersistStep s t .persisted
    ((s.setDisk (s.disk.writePathMetadataState { state with attributes := some attrs })).goto t
    (.persist sid .changed next))
  /-- No sidecar, or one that could not be written: only logged. -/
  | skip {s t sid next attrs} :
    s.task t = .persist sid (.write attrs) next → PersistStep s t .internal (s.goto t next)
  | changed {s t sid next} : s.task t = .persist sid .changed next →
    PersistStep s t .internal ((s.setSession sid (s.session sid).metadataChanged).goto t next)

end Bluestone
