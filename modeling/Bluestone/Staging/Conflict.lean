/-
# `Bluestone.Staging.Conflict` — `RecordConflict`, and the path it works on

A conflict is recorded in many sections with no lock across them: the staged file
is copied to `lost+found`, the listed session is unlisted and closed, the staging
file and its sidecar are unlinked by name, and only then does the dirty index list
the path as conflicted.  `RecordStep` is those sections.

`conflictSystem` is a path, with steps of its own, and the calls of
`RecordConflict` made for it.  `ConflictStep` is what the path's steps do
differently once it is conflicted: `GetOrCreateSession` refuses, and `MarkDirty`
answers nil without listing anything.  Where the source asks some sections before
it acts on the answer, a step may act as if there were no conflict.
-/
import Bluestone.Staging.Rename

namespace Bluestone

open Runs

/-- Where `RecordConflict` stands.  `found` is the session it found; `here` says
that the staging file it works on is the path's, which it is unless a rename has
moved that session. -/
inductive RecordPc
  /-- The call has not been made. -/
  | idle
  | lookup
  | snapshot (found : Option Nat)
  | stat (found : Option Nat) (here : Bool)
  | copy (found : Option Nat) (here : Bool)
  /-- `copyFile` has the file open and has copied some of it. -/
  | copying (found : Option Nat) (file : Nat) (copied : Bytes)
  | unlist (found : Option Nat) (here : Bool) (preserved : Bytes)
  | close (sid : Nat) (here : Bool) (preserved : Bytes)
  | removeData (here : Bool) (preserved : Bytes)
  | removeSidecar (here : Bool) (preserved : Bytes)
  | mark (preserved : Bytes)
  /-- The call has returned. -/
  | done
  deriving DecidableEq, Repr

/-- A path, the copy its conflict names if it has one, and the calls of
`RecordConflict`. -/
structure Conflicting where
  state : State
  conflict : Option Bytes
  recorder : Nat → RecordPc

/-- A step of one of the path's threads, or of a recorder. -/
inductive Event
  | thread (t : Nat) (a : Action)
  | recorder (r : Nat)
  deriving DecidableEq, Repr

namespace Conflicting

def goto (c : Conflicting) (r : Nat) (pc : RecordPc) : Conflicting :=
  { c with recorder := Function.update c.recorder r pc }

def setState (c : Conflicting) (s : State) : Conflicting := { c with state := s }

end Conflicting

namespace State

/-- `delete(sm.sessions, path)`. -/
def unlist (s : State) : State := { s with listed := none }

/-- The session is marked clean and closed. -/
def closeConflicted (s : State) (sid : Nat) : State :=
  s.setSession sid { s.session sid with dirty := false, file := none }

/-- `MarkConflicted`, as far as the dirty entry goes. -/
def markConflicted (s : State) : State := { s with dirty := none, syncing := false }

end State

/-- The session `RecordConflict` closes: the one it unlisted, or else the one it
found at first. -/
def afterUnlist (found : Option Nat) (here : Bool) (preserved : Bytes) : RecordPc :=
  match found with
  | none => .removeData here preserved
  | some sid => .close sid here preserved

/-- The pc is one in which a failing file operation ends the call. -/
def RecordPc.fails : RecordPc → Bool
  | .snapshot _ | .stat _ _ | .copy _ _ | .copying _ _ _ | .unlist _ _ _ | .removeData _ _
  | .removeSidecar _ _ => true
  | _ => false

/-- One section of call `r` of `RecordConflict`; `renames` says that the path may be
renamed. -/
inductive RecordStep (renames : Prop) : Conflicting → Nat → Conflicting → Prop
  | begin {c : Conflicting} {r : Nat} : c.recorder r = .idle → c.state.dirty.isSome = true →
    RecordStep renames c r (c.goto r .lookup)
  | lookup {c : Conflicting} {r : Nat} : c.recorder r = .lookup →
    RecordStep renames c r (c.goto r (.snapshot c.state.listed))
  /-- `Sync` and `Snapshot` of the session found. -/
  | snapshot {c : Conflicting} {r : Nat} {found : Option Nat} {here : Bool} :
    c.recorder r = .snapshot found → (here = false → found.isSome = true ∧ renames) →
    RecordStep renames c r (c.goto r (.stat found here))
  | stat {c : Conflicting} {r : Nat} {found : Option Nat} {here : Bool} :
    c.recorder r = .stat found here → (here = true → c.state.disk.dataFile.isSome = true) →
    RecordStep renames c r (c.goto r (.copy found here))
  | copyOpen {c : Conflicting} {r f : Nat} {found : Option Nat} : c.recorder r = .copy found true →
    c.state.disk.dataFile = some f → RecordStep renames c r (c.goto r (.copying found f []))
  /-- `io.Copy` reads on. -/
  | copyRead {c : Conflicting} {r f n : Nat} {found : Option Nat} {copied : Bytes} :
    c.recorder r = .copying found f copied → RecordStep renames c r (c.goto r (.copying found f
    (copied ++ ((c.state.disk.inode f).drop copied.length).take (n + 1))))
  /-- The end of the file: the copy and its record are flushed. -/
  | copied {c : Conflicting} {r f : Nat} {found : Option Nat} {copied : Bytes} :
    c.recorder r = .copying found f copied → (c.state.disk.inode f).length ≤ copied.length →
    RecordStep renames c r (c.goto r (.unlist found true copied))
  | copiedElsewhere {c : Conflicting} {r : Nat} {found : Option Nat} {preserved : Bytes} :
    c.recorder r = .copy found false → RecordStep renames c r (c.goto r (.unlist found false preserved))
  | unlist {c : Conflicting} {r : Nat} {found : Option Nat} {here : Bool} {preserved : Bytes} :
    c.recorder r = .unlist found here preserved → RecordStep renames c r
    ((c.setState c.state.unlist).goto r (afterUnlist (c.state.listed.or found) here preserved))
  | close {c : Conflicting} {r sid : Nat} {here : Bool} {preserved : Bytes} :
    c.recorder r = .close sid here preserved →
    RecordStep renames c r ((c.setState (c.state.closeConflicted sid)).goto r (.removeData here preserved))
  | removeData {c : Conflicting} {r : Nat} {here : Bool} {preserved : Bytes} :
      c.recorder r = .removeData here preserved →
      RecordStep renames c r ((c.setState (if here then c.state.setDisk { c.state.disk with dataFile := none }
          else c.state)).goto r (.removeSidecar here preserved))
  | removeSidecar {c : Conflicting} {r : Nat} {here : Bool} {preserved : Bytes} :
      c.recorder r = .removeSidecar here preserved →
      RecordStep renames c r ((c.setState (if here then c.state.setDisk { c.state.disk with sidecar := none }
          else c.state)).goto r (.mark preserved))
  /-- The call returns the conflict. -/
  | mark {c : Conflicting} {r : Nat} {preserved : Bytes} : c.recorder r = .mark preserved →
    RecordStep renames c r
    ({ c with state := c.state.markConflicted, conflict := some preserved }.goto r .done)
  /-- The call returns an error. -/
  | failed {c : Conflicting} {r : Nat} : (c.recorder r).fails = true →
    RecordStep renames c r (c.goto r .done)

/-- The thread is about to do what a conflicted path does not do: get a session,
or list the path as dirty. -/
def State.refusedIfConflicted (s : State) (t : Nat) : Bool :=
  match s.task t with
  | .opening _ (.lookup _) => true
  | .marking _ _ (.record _ _) => s.markDirtyAgain.isNone
  | .copying (.restoreMark _) => true
  | _ => false

/-- One step of the path or of one of the `calls`. -/
inductive ConflictStep (step : State → Nat × Action → State → Prop) (renames : Prop)
    (calls : Nat → Prop) : Conflicting → Event → Conflicting → Prop
  | thread {c : Conflicting} {s' : State} {t : Nat} {a : Action} : step c.state (t, a) s' →
    (c.conflict.isSome = true → c.state.refusedIfConflicted t = false) →
    ConflictStep step renames calls c (.thread t a) (c.setState s')
  | record {c c' : Conflicting} {r : Nat} : calls r → RecordStep renames c r c' →
    ConflictStep step renames calls c (.recorder r) c'
  /-- `GetOrCreateSession` refuses the open. -/
  | openConflicted {c : Conflicting} {t : Nat} {fl : OpenFlags} {pd : Bool} : c.conflict.isSome = true →
    c.state.task t = .opening fl (.lookup pd) → ConflictStep step renames calls c (.thread t .internal)
    (c.setState (c.state.goto t .idle))
  /-- `MarkDirty` answers nil, and lists nothing. -/
  | markConflicted {c : Conflicting} {t sid : Nat} {opens : Bool} : c.conflict.isSome = true →
    c.state.task t = .marking sid opens .again → ConflictStep step renames calls c (.thread t .accepted)
    (c.setState (c.state.goto t (.handle sid)))
  /-- The path was conflicted in the middle of `MarkDirty`: the sidecar is written
  and the path is not listed. -/
  | recordConflicted {c : Conflicting} {t sid : Nat} {opens : Bool} {found : Option Nat}
    {attrs : Option StagedAttributes} : c.conflict.isSome = true →
    c.state.task t = .marking sid opens (.record found attrs) →
    ConflictStep step renames calls c (.thread t .accepted) (c.setState
    (((c.state.setDisk (c.state.disk.recordDirtyPath c.state.path attrs)).metadataChanged
    found).goto t (.handle sid)))
  | recordConflictedFailed {c : Conflicting} {t sid : Nat} {opens : Bool} {found : Option Nat}
      {attrs : Option StagedAttributes} :
      c.conflict.isSome = true → c.state.task t = .marking sid opens (.record found attrs) →
      ConflictStep step renames calls c (.thread t .refused)
        (c.setState (c.state.goto t (if opens then .releasing sid else .handle sid)))
  | restoreConflicted {c : Conflicting} {t sid : Nat} : c.conflict.isSome = true →
    c.state.task t = .copying (.restoreMark sid) →
    ConflictStep step renames calls c (.thread t .internal) (c.setState (c.state.goto t (.copying .unlock)))

/-- A path with its threads and its calls of `RecordConflict`, from a gateway that
has started and knows of no conflict. -/
def conflictSystem (step : State → Nat × Action → State → Prop) (renames : Prop)
    (calls : Nat → Prop) : System Conflicting Event where
  init c := Init c.state ∧ c.conflict = none ∧ ∀ r, c.recorder r = .idle
  step := ConflictStep step renames calls

/-- A path with the given namespace operations, and any calls. -/
abbrev namespaceConflicts (names : NameActor → Prop) : System Conflicting Event :=
  conflictSystem (NameStep names) (names .renames) fun _ => True

theorem reach_thread {names : NameActor → Prop} {ok : Conflicting → Event → Prop} {c : Conflicting}
    {s' : State} {t : Nat} {a : Action} (h : Reach (namespaceConflicts names) ok c)
    (hc : c.conflict = none) (hs : NameStep names c.state (t, a) s') (hok : ok c (.thread t a)) :
    Reach (namespaceConflicts names) ok (c.setState s') :=
  h.next (.thread hs fun hsome => nomatch (congrArg Option.isSome hc).symm.trans hsome) hok

/-- The path without recorders or a conflict. -/
def State.unconflicted (s : State) : Conflicting := ⟨s, none, fun _ => .idle⟩

end Bluestone
