/-
# `Bluestone.Staging.ObjectLocks` — one lock for each path that is being synced

`lockObject` of `sync_worker.go` and the function it returns, step by step, by any number of
callers.  The table's lock is held while a lock is looked up and counted, and again while it
is given up; in between a caller waits for the lock it has found and is counted, so that the
entry stays.

A caller that has unlocked its object takes the table's lock once more.  Until it has, its
entry stays although nobody holds the object or waits for it (`entry_stays`).
-/
import Bluestone.Library.Computed
import Mathlib.Data.Finset.Card

namespace Bluestone.ObjectLocks

open Runs Function

/-- Where a caller is: in `lockObject`, with the object locked, or in its release. -/
inductive Phase
  | idle | calling | looking | found | counted | waiting | holding | unlocked | leaving | left | gone
  deriving DecidableEq

/-- The callers, each with its path and the lock it found, and the worker.  A lock is told by
a number, and a mutex by who has it. -/
structure Locks where
  phase : Nat → Phase
  path : Nat → String
  lock : Nat → Nat
  objectLocks : String → Option Nat
  users : Nat → Nat
  objectLocksMu : Option Nat
  mu : Nat → Option Nat
  next : Nat

def Locks.goto (s : Locks) (i : Nat) (phase : Phase) : Locks := { s with phase := update s.phase i phase }

/-- The next step of the caller; one that is idle calls `lockObject path`. -/
def Locks.step (s : Locks) : Nat × String → Option Locks
  | (i, path) =>
    match s.phase i with
    | .idle => some { s.goto i .calling with path := update s.path i path }
    | .calling => if s.objectLocksMu.isSome then none else some { s.goto i .looking with objectLocksMu := some i }
    | .looking =>
      match s.objectLocks (s.path i) with
      | some lock => some { s.goto i .found with lock := update s.lock i lock }
      | none => some { s.goto i .found with
          lock := update s.lock i s.next
          objectLocks := update s.objectLocks (s.path i) (some s.next)
          users := update s.users s.next 0
          next := s.next + 1 }
    | .found => some { s.goto i .counted with users := update s.users (s.lock i) (s.users (s.lock i) + 1) }
    | .counted => some { s.goto i .waiting with objectLocksMu := none }
    | .waiting =>
      if (s.mu (s.lock i)).isSome then none else some { s.goto i .holding with mu := update s.mu (s.lock i) (some i) }
    | .holding => some { s.goto i .unlocked with mu := update s.mu (s.lock i) none }
    | .unlocked => if s.objectLocksMu.isSome then none else some { s.goto i .leaving with objectLocksMu := some i }
    | .leaving => some { s.goto i .left with users := update s.users (s.lock i) (s.users (s.lock i) - 1) }
    | .left =>
      if s.users (s.lock i) = 0 then some { s.goto i .gone with objectLocks := update s.objectLocks (s.path i) none }
      else some (s.goto i .gone)
    | .gone => some { s.goto i .idle with objectLocksMu := none }

def lockSystem : System Locks (Nat × String) :=
  computed (fun s => (∀ i, s.phase i = .idle) ∧ (∀ path, s.objectLocks path = none) ∧
    (∀ lock, s.users lock = 0) ∧ s.objectLocksMu = none ∧ ∀ lock, s.mu lock = none) Locks.step

namespace Phase

/-- The caller has the table's lock. -/
@[grind] def inTable : Phase → Bool
  | looking | found | counted | leaving | left | gone => true
  | _ => false

/-- The caller is among the users of its lock. -/
@[grind] def counts : Phase → Bool
  | counted | waiting | holding | unlocked | leaving => true
  | _ => false

/-- The caller has found its lock and waits for it. -/
@[grind] def waits : Phase → Bool
  | found | counted | waiting => true
  | _ => false

/-- The caller has unlocked its object and is still to give up its entry. -/
@[grind] def departs : Phase → Bool
  | unlocked | leaving | left => true
  | _ => false

@[grind] def uses (p : Phase) : Bool := p.waits || p = holding || p.departs

end Phase

/-- Who is in the table has its lock, and who holds an object the object's. -/
def Mutexes (s : Locks) : Prop :=
  ∀ j, ((s.phase j).inTable → s.objectLocksMu = some j) ∧ (s.phase j = .holding → s.mu (s.lock j) = some j)

/-- The counters are right. -/
def Counted (s : Locks) : Prop :=
  ∀ lock, ∃ S : Finset Nat, S.card = s.users lock ∧ ∀ j, j ∈ S ↔ (s.phase j).counts ∧ s.lock j = lock

/-- Every user's lock is the one in the table, which is the lock of no other path, and every
entry has a user. -/
structure Listed (s : Locks) : Prop where
  entry : ∀ j, (s.phase j).uses → s.objectLocks (s.path j) = some (s.lock j)
  apart : ∀ p q lock, s.objectLocks p = some lock → s.objectLocks q = some lock → p = q
  old : ∀ p lock, s.objectLocks p = some lock → lock < s.next
  used : ∀ p lock, s.objectLocks p = some lock → ∃ j, (s.phase j).uses ∧ s.path j = p

variable {s s' : Locks} {i : Nat} {path : String}

theorem mutexes_step (h : Mutexes s) (hs : s.step (i, path) = some s') : Mutexes s' := by
  have hi := h i
  simp only [Locks.step, Locks.goto] at hs
  intro j
  have hj := h j
  cases hphase : s.phase i <;> simp only [hphase] at hs <;> (try split at hs) <;> cases hs <;>
    grind

section
variable (hl : Listed s) (hs : s.step (i, path) = some s')
include hl hs

theorem counted_step (hc : Counted s) : Counted s' := by
  intro lock
  obtain ⟨S, hcard, hS⟩ := hc lock
  -- a new lock has the number of no lock in the table
  have hnew : lock = s.next → S = ∅ := fun _ => Finset.eq_empty_of_forall_notMem fun j hj => by
    have := hl.entry j
    have := hl.old (s.path j) (s.lock j)
    cases hphase : s.phase j <;> grind
  simp only [Locks.step, Locks.goto] at hs
  cases hphase : s.phase i <;> simp only [hphase] at hs
  case found =>
    cases hs
    exact ⟨if s.lock i = lock then insert i S else S, by grind, by grind⟩
  case leaving =>
    cases hs
    exact ⟨if s.lock i = lock then S.erase i else S, by grind, by grind⟩
  all_goals (try split at hs) <;> cases hs <;> exact ⟨S, by grind, by grind⟩

theorem listed_left (hphase : s.phase i = .left) (hm : Mutexes s) (hc : Counted s) : Listed s' := by
  obtain ⟨S, hcard, hS⟩ := hc (s.lock i)
  obtain ⟨hentry, hapart, hold, hused⟩ := hl
  simp only [Locks.step, Locks.goto, hphase] at hs
  split at hs <;> cases hs
  · -- nobody else uses the lock: whoever is counted is in `S`, and whoever is not is in the table
    have hlast : ∀ j, (s.phase j).uses → s.path j = s.path i → j = i := by
      intro j hj hp
      have := hm i
      have := hm j
      cases hphase' : s.phase j <;> grind [Finset.card_eq_zero]
    refine ⟨by grind, by grind, by grind, fun p lock hp => ?_⟩
    obtain ⟨j, hj⟩ := hused p lock (by grind)
    exact ⟨j, by grind⟩
  · -- somebody is counted, for the same path
    obtain ⟨k, hk⟩ : S.Nonempty := Finset.card_pos.1 (by omega)
    refine ⟨by grind, hapart, hold, fun p lock hp => ?_⟩
    obtain ⟨j, hj⟩ := hused p lock hp
    by_cases hji : j = i
    · have := hentry k
      exact ⟨k, by cases hphase' : s.phase k <;> grind⟩
    · exact ⟨j, by grind⟩

theorem listed_looking (hphase : s.phase i = .looking) : Listed s' := by
  obtain ⟨hentry, hapart, hold, hused⟩ := hl
  simp only [Locks.step, Locks.goto, hphase] at hs
  split at hs <;> cases hs <;> refine ⟨by grind, by grind, by grind, fun p lock hp => ?_⟩
  · obtain ⟨j, hj⟩ := hused p lock hp
    exact ⟨j, by grind⟩
  · by_cases hpath : p = s.path i
    · exact ⟨i, by grind⟩
    · obtain ⟨j, hj⟩ := hused p lock (by grind)
      exact ⟨j, by grind⟩

theorem listed_step (hm : Mutexes s) (hc : Counted s) : Listed s' := by
  cases hphase : s.phase i
  case left => exact listed_left hl hs hphase hm hc
  case looking => exact listed_looking hl hs hphase
  all_goals
    simp only [Locks.step, Locks.goto, hphase] at hs
    (try split at hs) <;> cases hs
    refine ⟨by grind [hl.entry], hl.apart, hl.old, fun p lock hp => ?_⟩
    obtain ⟨j, hj⟩ := hl.used p lock hp
    exact ⟨j, by grind⟩

end

theorem inv_of_reach (h : Reach lockSystem always s) : Mutexes s ∧ Listed s ∧ Counted s := by
  refine Reach.invariant (I := fun s => Mutexes s ∧ Listed s ∧ Counted s) (fun s hi => ?_)
    (fun s e s' hinv _ hs => ?_) h
  · obtain ⟨hidle, htable, husers, -⟩ := hi
    refine ⟨fun j => ?_, ⟨fun j => ?_, ?_, ?_, ?_⟩, fun lock => ⟨∅, (husers lock).symm, fun j => ?_⟩⟩ <;>
      simp [hidle, htable, Phase.inTable, Phase.uses, Phase.waits, Phase.departs, Phase.counts]
  · obtain ⟨hm, hl, hc⟩ := hinv
    exact ⟨mutexes_step hm hs, listed_step hl hs hm hc, counted_step hl hs hc⟩

/-- **One caller holds a path, who waits for the path waits for the holder's lock, and a path
has an entry exactly while somebody waits for it, holds it or is still to give up its entry.** -/
theorem object_locks_exclude (h : Reach lockSystem always s) :
    (∀ i j, s.phase i = .holding → s.phase j = .holding → s.path i = s.path j → i = j) ∧
    (∀ i j, (s.phase i).waits → s.phase j = .holding → s.path i = s.path j → s.lock i = s.lock j) ∧
    ∀ path, (s.objectLocks path).isSome ↔
      ∃ i, s.path i = path ∧ ((s.phase i).waits ∨ s.phase i = .holding ∨ (s.phase i).departs) := by
  obtain ⟨hm, hl, -⟩ := inv_of_reach h
  have hsame : ∀ i j, (s.phase i).uses → (s.phase j).uses → s.path i = s.path j →
      s.lock i = s.lock j := by
    intro i j hi hj hp
    have hlock := hl.entry i hi
    rw [hp, hl.entry j hj] at hlock
    exact (Option.some.inj hlock).symm
  refine ⟨fun i j hi hj hp => ?_, fun i j hi hj hp => hsame i j (by grind) (by grind) hp, fun path => ⟨fun hp => ?_, ?_⟩⟩
  · have hmu := (hm i).2 hi
    rw [hsame i j (by grind) (by grind) hp, (hm j).2 hj] at hmu
    exact (Option.some.inj hmu).symm
  · obtain ⟨lock, hlock⟩ := Option.isSome_iff_exists.1 hp
    obtain ⟨i, hi, hpath⟩ := hl.used path lock hlock
    exact ⟨i, hpath, by grind⟩
  · rintro ⟨i, rfl, hi⟩
    rw [hl.entry i (by grind)]
    rfl

/-- A worker that syncs nothing. -/
def unused : Locks :=
  ⟨fun _ => .idle, fun _ => "", fun _ => 0, fun _ => none, fun _ => 0, none, fun _ => none, 0⟩

theorem unused_reach : Reach lockSystem always unused :=
  .init ⟨fun _ => rfl, fun _ => rfl, fun _ => rfl, rfl, fun _ => rfl⟩

/-- One caller has its object and a second one waits for it. -/
theorem holder_alone : ∃ s, Reach lockSystem always s ∧ s.phase 0 = .holding ∧
    (s.phase 1).waits ∧ s.lock 1 = s.lock 0 ∧
    ∀ i, s.phase i = .holding → s.path i = "a" → i = 0 := by
  have h := reach_runFrom unused_reach (rfl : runFrom Locks.step always unused
    (.replicate 6 (0, "a") ++ .replicate 5 (1, "a")) = some _)
  obtain ⟨hone, hwaiter, -⟩ := object_locks_exclude h
  exact ⟨_, h, rfl, rfl, hwaiter 1 0 rfl rfl rfl, fun i hi hp => hone i 0 hi rfl hp⟩

/-- The only caller has unlocked its object. -/
theorem entry_stays : ∃ s, Reach lockSystem always s ∧ (s.objectLocks "a").isSome ∧
    ∀ i, (s.phase i).waits = false ∧ s.phase i ≠ .holding := by
  have h := reach_runFrom unused_reach (rfl : runFrom Locks.step always unused (.replicate 7 (0, "a")) = some _)
  refine ⟨_, h, rfl, fun i => ?_⟩
  by_cases hi : i = 0 <;> simp [Locks.goto, unused, hi, Phase.waits]

end Bluestone.ObjectLocks
