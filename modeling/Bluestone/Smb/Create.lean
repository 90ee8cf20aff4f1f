/-
# `Bluestone.Smb.Create` — opens that create a file

`Backend.Open` decides from a `Stat` whether the name exists, reserves the open in the
share table, and then opens.  An open that found nothing opens with `O_TRUNC`, which
creates the file or empties one that another open has created since.  The reservation is
taken after the `Stat`, and given back by the close of whoever was first.

The system has any number of opens of one name, the writes and closes of the handles
they return, and removals.
-/
import Bluestone.Library.Runs
import Bluestone.Locks.Share
import Bluestone.Staging.Session

namespace Bluestone.Smb

open Locks Runs

inductive Disposition
  | supersede
  | openExisting
  | create
  | openIf
  | overwrite
  | overwriteIf
  /-- Any other value a client sends. -/
  | invalid
  deriving DecidableEq, Repr

/-- What `Open` does once it has its reservation. -/
inductive Action
  | refuse
  /-- A handle that opens the file with its first read or write. -/
  | newHandle
  /-- `openWritable`, always with `O_TRUNC`. -/
  | openWritable
  deriving DecidableEq, Repr

/-- The switch over the disposition. -/
def Disposition.action (d : Disposition) (exists_ : Bool) : Action :=
  match d with
  | .openExisting => if exists_ then .newHandle else .refuse
  | .openIf => if exists_ then .newHandle else .openWritable
  | .create => if exists_ then .refuse else .openWritable
  | .overwrite => if exists_ then .openWritable else .refuse
  | .supersede | .overwriteIf => .openWritable
  | .invalid => .refuse

structure CreateOptions where
  disposition : Disposition
  access : Access
  share : Access
  deriving DecidableEq, Repr

/-- Where an open stands: after its `Stat`, after its reservation, with its handle
returned, or at an end. -/
inductive Phase
  | idle
  | stated (opts : CreateOptions) (exists_ : Bool)
  | reserved (opts : CreateOptions) (exists_ : Bool) (r : Nat)
  | opened (opts : CreateOptions) (r : Nat)
  | ended
  deriving DecidableEq, Repr

/-- How `OpenFile` ends.  An open that fails may have truncated the file. -/
inductive OpenResult
  | ok
  | failed (truncated : Bool)
  deriving DecidableEq, Repr

/-- One name of a share: the file, the opens recorded for it, and the calls. -/
structure NameState where
  file : Option Bytes
  table : ShareTable Unit
  call : Nat → Phase

inductive Step
  | stat (i : Nat) (opts : CreateOptions) (answered : Bool)
  | reserve (i : Nat)
  | openStep (i : Nat) (result : OpenResult)
  | write (i : Nat) (offset : Nat) (data : Bytes)
  | close (i : Nat)
  | remove
  deriving DecidableEq, Repr

namespace NameState

variable (s : NameState)

def setCall (i : Nat) (p : Phase) : NameState := { s with call := Function.update s.call i p }

/-- `Open` returns an error and gives its reservation back. -/
def giveBack (i r : Nat) : NameState := { s.setCall i .ended with table := s.table.release r }

/-- `openWritable` of the call `i`. -/
def truncating (i r : Nat) (opts : CreateOptions) : OpenResult → NameState
  | .ok => { s.setCall i (.opened opts r) with file := some [] }
  | .failed truncated => { s.giveBack i r with file := if truncated then some [] else s.file }

/-- The open step of the call `i`. -/
def openStep (i r : Nat) (opts : CreateOptions) (exists_ : Bool) (result : OpenResult) : NameState :=
  match opts.disposition.action exists_ with
  | .refuse => s.giveBack i r
  | .newHandle => s.setCall i (.opened opts r)
  | .openWritable => s.truncating i r opts result

def next : Step → NameState
  | .stat i opts answered =>
    if s.call i = .idle then
      s.setCall i (if answered then .stated opts s.file.isSome else .ended)
    else s
  | .reserve i =>
    match s.call i with
    | .stated opts exists_ =>
      match s.table.acquire () opts.access opts.share with
      | .error _ => s.setCall i .ended
      | .ok (r, table) => { s.setCall i (.reserved opts exists_ r) with table := table }
    | _ => s
  | .openStep i result =>
    match s.call i with
    | .reserved opts exists_ r => s.openStep i r opts exists_ result
    | _ => s
  | .write i offset data =>
    match s.call i with
    | .opened _ _ => { s with file := some (Extents.writeAt 0 (s.file.getD []) offset data) }
    | _ => s
  | .close i =>
    match s.call i with
    | .opened _ r => s.giveBack i r
    | _ => s
  | .remove => { s with file := none }

end NameState

/-- A name that nobody has opened; there may be a file. -/
def nameSystem : System NameState Step where
  init s := ∀ i, s.call i = .idle
  step s e s' := s' = s.next e

/-! ## Creating once -/

/-- The step is the open step of a `Create`, and it succeeds. -/
def createsNow (s : NameState) : Step → Bool
  | .openStep i result =>
    match s.call i with
    | .reserved opts exists_ _ => decide (opts.disposition = .create) &&
        decide (opts.disposition.action exists_ = .openWritable) && decide (result = .ok)
    | _ => false
  | _ => false

/-- How many opens with the disposition `Create` have succeeded since the file was last
removed. -/
def creations (s : NameState) (e : Step) (_ : NameState) (n : Nat) : Nat :=
  if e = .remove then 0 else if createsNow s e then n + 1 else n

/-- An open that may only create. -/
def Disposition.keepsExisting (d : Disposition) : Prop := d = .create ∨ d = .openIf

/-- An open that is to keep what exists and has found nothing takes its open step only
while there is still nothing. -/
def StillMissing (s : NameState) : Step → Prop
  | .openStep i _ => ∀ opts r, s.call i = .reserved opts false r → opts.disposition.keepsExisting →
      s.file = none
  | _ => True

/-- An open that is to keep what exists leaves the bytes of a file that exists when it
takes effect. -/
def KeepsBytes (s : NameState) (e : Step) : Prop :=
  ∀ i result opts exists_ r bytes, e = .openStep i result → s.call i = .reserved opts exists_ r →
    opts.disposition.keepsExisting → s.file = some bytes → (s.next e).file = some bytes

section
variable {s : NameState} {e : Step} {n : Nat}

theorem keepsBytes (hok : StillMissing s e) : KeepsBytes s e := by
  rintro i result opts exists_ r bytes rfl hcall hkeeps hfile
  have hfound : exists_ := by
    by_contra hmissing
    rw [Bool.not_eq_true] at hmissing
    subst hmissing
    rw [hok opts r hcall hkeeps] at hfile
    cases hfile
  subst hfound
  simp only [NameState.next, hcall, NameState.openStep]
  rcases hkeeps with hd | hd <;> rw [hd] <;> exact hfile

/-- One successful `Create` since the last removal, and then the file is there. -/
def CreatedOnce (s : NameState) (n : Nat) : Prop := n ≤ 1 ∧ (n = 1 → s.file.isSome = true)

theorem isSome_truncating {i r : Nat} {opts : CreateOptions} {result : OpenResult}
    (h : s.file.isSome) : (s.truncating i r opts result).file.isSome := by
  cases result with
  | ok => rfl
  | failed truncated =>
    cases truncated with
    | false => exact h
    | true => rfl

theorem isSome_next (h : s.file.isSome) (he : e ≠ .remove) : (s.next e).file.isSome := by
  cases e with
  | stat i opts answered | close i =>
    rw [NameState.next]
    split <;> exact h
  | reserve i =>
    rw [NameState.next]
    split
    · split <;> exact h
    · exact h
  | openStep i result =>
    rw [NameState.next]
    split
    · rw [NameState.openStep]
      split
      · exact h
      · exact h
      · exact isSome_truncating h
    · exact h
  | write i offset data =>
    rw [NameState.next]
    split
    · rfl
    · exact h
  | remove => exact absurd rfl he

theorem createsNow_iff : createsNow s e ↔ ∃ i opts r, e = .openStep i .ok ∧
    s.call i = .reserved opts false r ∧ opts.disposition = .create := by
  constructor
  · intro h
    cases e with
    | openStep i result =>
      rw [createsNow] at h
      split at h
      · rename_i opts found r hcall
        simp only [Bool.and_eq_true, decide_eq_true_eq] at h
        obtain ⟨⟨hd, haction⟩, rfl⟩ := h
        cases found with
        | false => exact ⟨i, opts, r, rfl, hcall, hd⟩
        | true => simp [hd, Disposition.action] at haction
      · cases h
    | _ => cases h
  · rintro ⟨i, opts, r, rfl, hcall, hd⟩
    simp [createsNow, hcall, hd, Disposition.action]

theorem CreatedOnce.next (h : CreatedOnce s n) (hok : StillMissing s e) :
    CreatedOnce (s.next e) (creations s e (s.next e) n) := by
  rw [creations]
  split
  · exact ⟨Nat.zero_le _, nofun⟩
  · rename_i hremove
    split
    · rename_i hcreates
      obtain ⟨i, opts, r, rfl, hcall, hd⟩ := createsNow_iff.1 hcreates
      have hnone := hok opts r hcall (.inl hd)
      have hzero : n = 0 := by
        by_contra hn
        have hsome := h.2 (by have := h.1; omega)
        rw [hnone] at hsome
        cases hsome
      subst hzero
      refine ⟨Nat.le_refl _, fun _ => ?_⟩
      simp [NameState.next, hcall, NameState.openStep, hd, Disposition.action, NameState.truncating]
    · exact ⟨h.1, fun hn => isSome_next (h.2 hn) hremove⟩

end

/-- In every run in which an open that is to keep what exists takes its open step only
while what it found missing is still missing, at most one `Create` succeeds between two
removals, and no open with the disposition `Create` or `OpenIf` changes a byte of a file
that exists when it takes effect. -/
theorem creates_are_atomic {p : NameState × Nat} (h : Reach (nameSystem.track (fun _ => 0) creations)
    (onState StillMissing) p) : p.2 ≤ 1 ∧ ∀ e, StillMissing p.1 e → KeepsBytes p.1 e := by
  refine ⟨?_, fun e => keepsBytes⟩
  have honce : CreatedOnce p.1 p.2 := by
    refine reach_track_invariant (J := fun _ => True) (I := CreatedOnce) (fun _ => trivial) ?_ ?_ h
    · exact fun s _ => ⟨Nat.zero_le _, nofun⟩
    · rintro s e s' n _ hI hok rfl
      exact hI.next hok
  exact honce.1

/-! ## Two creates -/

/-- Nothing is there and nobody has opened it. -/
def unusedName : NameState := ⟨none, newShareTable 0 (), fun _ => .idle⟩

/-- A client that creates the file for itself alone. -/
def creating : CreateOptions := ⟨.create, accessRead ||| accessWrite, 0⟩

/-- The state and the count after some steps. -/
def runSteps (p : NameState × Nat) (steps : List Step) : NameState × Nat :=
  steps.foldl (fun p e => (p.1.next e, creations p.1 e (p.1.next e) p.2)) p

/-- Each step meets the condition where it is taken. -/
def Meets (ok : NameState → Step → Prop) : NameState × Nat → List Step → Prop
  | _, [] => True
  | p, e :: rest => ok p.1 e ∧ Meets ok (p.1.next e, creations p.1 e (p.1.next e) p.2) rest

theorem runSteps_reached {ok : NameState → Step → Prop} {steps : List Step} {p : NameState × Nat}
    (h : Reach (nameSystem.track (fun _ => 0) creations) (onState ok) p) (hok : Meets ok p steps) :
    Reach (nameSystem.track (fun _ => 0) creations) (onState ok) (runSteps p steps) := by
  induction steps generalizing p with
  | nil => exact h
  | cons e rest ih => exact ih (h.next' rfl hok.1) hok.2

/-- Both clients find nothing; the first creates the file, writes and closes, and then
the second creates it again. -/
def twoCreates : List Step :=
  [.stat 0 creating true, .stat 1 creating true, .reserve 0, .openStep 0 .ok, .write 0 0 [7], .close 0,
    .reserve 1, .openStep 1 .ok]

theorem meets_always (p : NameState × Nat) (steps : List Step) : Meets always p steps := by
  induction steps generalizing p with
  | nil => trivial
  | cons e rest ih => exact ⟨trivial, ih _⟩

/-- Two creates succeed, and the second empties the file the first has written. -/
theorem second_create_empties : ∃ p, Reach (nameSystem.track (fun _ => 0) creations) (onState always) p ∧
    p.2 = 2 ∧ p.1.file = some [] ∧ (runSteps (unusedName, 0) (twoCreates.take 7)).1.file = some [7] := by
  refine ⟨runSteps (unusedName, 0) twoCreates, runSteps_reached (.init ⟨fun _ => rfl, rfl⟩)
    (meets_always _ _), ?_, ?_, ?_⟩
  all_goals decide +kernel

/-- The first has closed its file before the second asks whether it exists. -/
def createAfterClose : List Step :=
  [.stat 0 creating true, .reserve 0, .openStep 0 .ok, .write 0 0 [7], .close 0,
    .stat 1 creating true, .reserve 1, .openStep 1 .ok]

/-- The second is refused, and the file keeps its bytes. -/
theorem first_create_atomic : ∃ p, Reach (nameSystem.track (fun _ => 0) creations)
    (onState StillMissing) p ∧ p.1.call 1 = .ended ∧ p.1.file = some [7] ∧ p.2 = 1 ∧ p.2 ≤ 1 ∧
    ∀ e, StillMissing p.1 e → KeepsBytes p.1 e := by
  have hreach : Reach (nameSystem.track (fun _ => 0) creations) (onState StillMissing)
      (runSteps (unusedName, 0) createAfterClose) := by
    refine runSteps_reached (.init ⟨fun _ => rfl, rfl⟩)
      ⟨trivial, trivial, ?_, trivial, trivial, trivial, trivial, ?_, trivial⟩
    · exact fun _ _ _ _ => rfl
    · intro opts r h
      cases h
  exact ⟨_, hreach, by decide +kernel, by decide +kernel, by decide +kernel, creates_are_atomic hreach⟩

end Bluestone.Smb
