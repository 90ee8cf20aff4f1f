/-
# `Bluestone.Staging.Recovery` — a gateway starts over what is on disk

`recoverFromDisk` is what `NewStagingManager` makes of one path's staging files:
a data file with its sidecar becomes a dirty session over exactly those bytes,
unless a tombstone supersedes it; a data file without a sidecar is left stranded
and a sidecar without a data file is removed.

`system actors` is the transition system of one path with the given actors at
work.  A run starts in a freshly recovered gateway in which no data file is
stranded.
-/
import Bluestone.Library.Runs
import Bluestone.Staging.Attributes

namespace Bluestone

open Runs

/-- A gateway with nothing staged in memory. -/
def State.empty (path : String) (object : Option Object) (d : Disk) (tombstone : Bool) : State where
  path := path
  object := object
  objectLock := none
  dirty := none
  syncing := false
  generation := 0
  tombstone := tombstone
  listed := none
  session := fun _ => (newWriteSession ⟨fun _ => [], 0, none, none⟩ path false).1
  nextSession := 0
  disk := d
  task := fun _ => .idle

/-- `RestoreDirty`. -/
def State.restoreDirty (s : State) : State := s.markDirtyWithState true

/-- `RecoverFromDisk` on one path's files. -/
def recoverFromDisk (path : String) (object : Option Object) (d : Disk) (tombstone : Bool) : State :=
  match d.dataFile, d.sidecar with
  | none, _ => State.empty path object { d with sidecar := none } tombstone
  | some _, none => State.empty path object d tombstone
  | some f, some state =>
    if state.originalPath ≠ path then State.empty path object d tombstone
    else if tombstone then
      State.empty path object { d with dataFile := none, sidecar := none } tombstone
    else
      ((State.empty path object d false).recoverSession true (d.inode f).length).restoreDirty

/-- No data file is there without the sidecar that names its path. -/
def Disk.NoneStranded (d : Disk) (path : String) : Prop :=
  ∀ f, d.dataFile = some f → f < d.nextInode ∧ ∃ state, d.sidecar = some state ∧ state.originalPath = path

/-- The states a run starts in. -/
def Init (s : State) : Prop :=
  ∃ path object d tombstone, d.NoneStranded path ∧ s = recoverFromDisk path object d tombstone

theorem Init.task_idle {s : State} (h : Init s) (t : Nat) : s.task t = .idle := by
  obtain ⟨path, object, d, tombstone, _, rfl⟩ := h
  unfold recoverFromDisk
  split
  · rfl
  · rfl
  · split
    · rfl
    · split <;> rfl

/-- Who works on the path. -/
inductive Actor
  | opens
  | handles
  | syncs
  | attributes
  | commits
  deriving DecidableEq, Repr

/-- Everyone at work. -/
def everyone (_ : Actor) : Prop := True

/-- A step of one actor. -/
inductive ActorStep : Actor → State → Nat → Action → State → Prop
  | opens {s s' t a} : OpenStep s t a s' → ActorStep .opens s t a s'
  | handles {s s' t a} : HandleStep s t a s' → ActorStep .handles s t a s'
  | marks {s s' t a} : MarkStep s t a s' → ActorStep .handles s t a s'
  | persists {s s' t a} : PersistStep s t a s' → ActorStep .handles s t a s'
  | syncs {s s' t a} : SyncStep s t a s' → ActorStep .syncs s t a s'
  | attributes {s s' t a} : AttrStep s t a s' → ActorStep .attributes s t a s'
  | commits {s s' t a} : CommitStep s t a s' → ActorStep .commits s t a s'

/-- One step of the path: an actor's, or one that another path's steps cause by
taking generations from the shared counter. -/
inductive Step (actors : Actor → Prop) : State → Nat × Action → State → Prop
  | actor {a : Actor} {s s' : State} {t : Nat} {act : Action} : actors a → ActorStep a s t act s' →
    Step actors s (t, act) s'
  | elsewhere {s t n} : s.generation ≤ n → Step actors s (t, .elsewhere)
    { s with generation := n }

section
variable {actors : Actor → Prop} {s s' : State} {t : Nat} {a : Action}

theorem OpenStep.run (h : OpenStep s t a s') (ha : actors .opens := by first | exact trivial | exact .inl rfl) :
    Step actors s (t, a) s' :=
  .actor ha (.opens h)

theorem HandleStep.run (h : HandleStep s t a s') (ha : actors .handles := by first | exact trivial | exact .inr rfl) :
    Step actors s (t, a) s' :=
  .actor ha (.handles h)

theorem MarkStep.run (h : MarkStep s t a s') (ha : actors .handles := by first | exact trivial | exact .inr rfl) :
    Step actors s (t, a) s' :=
  .actor ha (.marks h)

theorem PersistStep.run (h : PersistStep s t a s') (ha : actors .handles := by first | exact trivial | exact .inr rfl) :
    Step actors s (t, a) s' :=
  .actor ha (.persists h)

theorem SyncStep.run (h : SyncStep s t a s') (ha : actors .syncs := by exact trivial) :
    Step actors s (t, a) s' :=
  .actor ha (.syncs h)

theorem AttrStep.run (h : AttrStep s t a s') (ha : actors .attributes := by exact trivial) :
    Step actors s (t, a) s' :=
  .actor ha (.attributes h)

end

/-- One path with the given actors at work. -/
def system (actors : Actor → Prop) : System State (Nat × Action) where
  init := Init
  step := Step actors

/-- A condition on the steps of a run. -/
abbrev Condition := State → Nat × Action → Prop

/-! ## Starting points of particular runs -/

/-- A disk with nothing staged. -/
def Disk.blank : Disk := ⟨fun _ => [], 0, none, none⟩

/-- A gateway with nothing staged and the object `[1]` in the bucket. -/
def State.fresh : State := State.empty "/f" (some ⟨[1], .default⟩) .blank false

theorem fresh_init : Init State.fresh := by
  refine ⟨"/f", some ⟨[1], .default⟩, .blank, false, ?_, rfl⟩
  intro f hf
  exact nomatch (show (none : Option Nat) = some f from hf)

/-- A writable open that keeps the content. -/
abbrev OpenFlags.keeping : OpenFlags := ⟨false, false, 0⟩

/-- A writable open that truncates. -/
abbrev OpenFlags.truncating : OpenFlags := ⟨false, true, 0⟩

/-- A writable open that creates. -/
abbrev OpenFlags.creating : OpenFlags := ⟨true, false, 0⟩

theorem two_threads {P : Nat → Prop} (h0 : P 0) (h1 : P 1) (h2 : ∀ n, P (n + 2)) : ∀ t, P t
  | 0 => h0
  | 1 => h1
  | n + 2 => h2 n

end Bluestone
