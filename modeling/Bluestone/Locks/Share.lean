/-
# `Bluestone.Locks.Share` — the share table

`internal/lock/share.go`: opens and what each permits others.  A handle is known by
its address; its path changes when a rename moves the opens of its file.

`Listed` says that the table lists a handle under exactly its own path, as long as it
is not released.  That is what `Release` relies on, and what makes `Acquire` see every
open it has to look at.
-/
import Mathlib.Data.List.Nodup
import Mathlib.Data.List.Perm.Basic

namespace Bluestone.Locks

open Function (update update_self)

/-- A set of ways a file can be used. -/
abbrev Access := UInt8

def accessRead : Access := 1
def accessWrite : Access := 2
def accessDelete : Access := 4

/-- Each open's access must be permitted by what the other shares. -/
def conflicts (access share otherAccess otherShare : Access) : Bool :=
  access &&& ~~~otherShare != 0 || otherAccess &&& ~~~share != 0

inductive ShareError
  | limit
  | sharingViolation
  deriving DecidableEq, Repr

/-- One open.  `released` is the state of its `sync.Once`. -/
structure ShareHandle (P : Type) where
  path : P
  access : Access
  share : Access
  released : Bool
  deriving DecidableEq, Repr

/-- `files` lists the addresses of handles; `handle` is what is stored there, up to
`next`. -/
structure ShareTable (P : Type) where
  maxOpensPerFile : Nat
  files : P → List Nat
  handle : Nat → ShareHandle P
  next : Nat

def defaultMaxOpensPerFile : Nat := 1024

/-- `NewShareTable`.  Nothing is stored at any address yet; `path` stands for what is
there. -/
def newShareTable {P : Type} (maxOpensPerFile : Int) (path : P) : ShareTable P where
  maxOpensPerFile := if maxOpensPerFile ≤ 0 then defaultMaxOpensPerFile else maxOpensPerFile.toNat
  files _ := []
  handle _ := ⟨path, 0, 0, false⟩
  next := 0

namespace ShareTable

variable {P : Type} [DecidableEq P] (t : ShareTable P)

/-- The open's access, and what it shares, conflict with the open at `r`. -/
def conflictsWith (access share : Access) (r : Nat) : Bool :=
  conflicts access share (t.handle r).access (t.handle r).share

/-- `Acquire`: the address of the new handle, and the table with it. -/
def acquire (path : P) (access share : Access) : Except ShareError (Nat × ShareTable P) :=
  if t.maxOpensPerFile ≤ (t.files path).length then .error .limit
  else if (t.files path).any (t.conflictsWith access share) then .error .sharingViolation
  else .ok (t.next,
    { t with
      files := update t.files path (t.files path ++ [t.next])
      handle := update t.handle t.next ⟨path, access, share, false⟩
      next := t.next + 1 })

/-- `Release` of the handle at `r`. -/
def release (r : Nat) : ShareTable P :=
  if (t.handle r).released then t
  else
    { t with
      files := update t.files (t.handle r).path ((t.files (t.handle r).path).erase r)
      handle := update t.handle r { t.handle r with released := true } }

/-- `Rename`: the opens held on a path move. -/
def rename (oldPath newPath : P) : ShareTable P :=
  if oldPath = newPath then t
  else
    { t with
      files := update (update t.files oldPath []) newPath
        (t.files newPath ++ t.files oldPath)
      handle := fun r =>
        if r ∈ t.files oldPath then { t.handle r with path := newPath } else t.handle r }

/-! ## Every open is listed under its path -/

/-- A handle that has been returned and not released. -/
def Held (r : Nat) : Prop := r < t.next ∧ (t.handle r).released = false

structure Listed : Prop where
  mem_iff : ∀ r path, r ∈ t.files path ↔ t.Held r ∧ (t.handle r).path = path
  nodup : ∀ path, (t.files path).Nodup

variable {t} {path oldPath newPath : P} {access share : Access} {r : Nat} {t' : ShareTable P}

omit [DecidableEq P] in
theorem newShareTable_listed (n : Int) : (newShareTable n path).Listed :=
  ⟨fun r _ => ⟨nofun, fun h => absurd h.1.1 (Nat.not_lt_zero r)⟩, fun _ => List.nodup_nil⟩

theorem acquire_ok (h : t.acquire path access share = .ok (r, t')) :
    r = t.next ∧ (∀ r' ∈ t.files path, t.conflictsWith access share r' = false) ∧
      t' = { t with
        files := update t.files path (t.files path ++ [t.next])
        handle := update t.handle t.next ⟨path, access, share, false⟩
        next := t.next + 1 } := by
  rw [acquire] at h
  split at h
  · cases h
  · split at h
    · cases h
    · rename_i hany
      cases h
      refine ⟨rfl, ?_, rfl⟩
      intro r' hr'
      by_contra hc
      exact hany (List.any_eq_true.2 ⟨r', hr', by simpa using hc⟩)

theorem Listed.acquire (ht : t.Listed) (h : t.acquire path access share = .ok (r, t')) : t'.Listed := by
  obtain ⟨_, _, rfl⟩ := acquire_ok h
  have hfresh : ∀ q, t.next ∉ t.files q := by
    intro q hq
    exact absurd ((ht.mem_iff _ _).1 hq).1.1 (Nat.lt_irrefl _)
  constructor
  · intro r' q
    by_cases hr : r' = t.next
    · subst hr
      by_cases hq : q = path
      · subst hq
        simp [Held]
      · simp [Held, hq, hfresh q, Ne.symm hq]
    · have hlt : r' < t.next + 1 ↔ r' < t.next := by omega
      by_cases hq : q = path
      · subst hq
        simp [Held, hr, hlt, ht.mem_iff r' q]
      · simp [Held, hr, hlt, hq, ht.mem_iff r' q]
  · intro q
    by_cases hq : q = path
    · subst hq
      dsimp only
      rw [update_self]
      exact (ht.nodup q).append (List.nodup_singleton _) (by simpa using hfresh q)
    · simpa [hq] using ht.nodup q

theorem Listed.release (ht : t.Listed) (r : Nat) : (t.release r).Listed := by
  rw [ShareTable.release]
  split
  · exact ht
  · constructor
    · intro r' q
      by_cases hr : r' = r
      · subst hr
        by_cases hq : q = (t.handle r').path
        · subst hq
          simp [Held, (ht.nodup _).mem_erase_iff]
        · simp [Held, hq, ht.mem_iff r' q, Ne.symm hq]
      · by_cases hq : q = (t.handle r).path
        · subst hq
          simp [Held, hr, List.mem_erase_of_ne hr, ht.mem_iff r']
        · simp [Held, hr, hq, ht.mem_iff r' q]
    · intro q
      by_cases hq : q = (t.handle r).path
      · subst hq
        simpa using (ht.nodup _).erase r
      · simpa [hq] using ht.nodup q

theorem Listed.rename (ht : t.Listed) (oldPath newPath : P) : (t.rename oldPath newPath).Listed := by
  rw [ShareTable.rename]
  split
  · exact ht
  · rename_i hne
    have hpath : ∀ {r q}, r ∈ t.files q → (t.handle r).path = q := fun h => ((ht.mem_iff _ _).1 h).2
    constructor
    · intro r q
      by_cases hold : r ∈ t.files oldPath
      · have hheld := ((ht.mem_iff _ _).1 hold).1
        have hother : ∀ {q}, q ≠ oldPath → r ∉ t.files q := fun hq h =>
          hq ((hpath h).symm.trans (hpath hold))
        by_cases hq : q = newPath
        · subst hq
          simpa [Held, hold] using hheld
        · by_cases hq' : q = oldPath
          · subst hq'
            simp [Held, hold, hq, Ne.symm hq]
          · simp [Held, hold, hq, hq', hother hq', Ne.symm hq]
      · by_cases hq : q = newPath
        · subst hq
          simp [Held, hold, ht.mem_iff r q]
        · by_cases hq' : q = oldPath
          · subst hq'
            have hnot := (ht.mem_iff r q).not.1 hold
            simpa [Held, hold, hq] using hnot
          · simp [Held, hold, hq, hq', ht.mem_iff r q]
    · intro q
      by_cases hq : q = newPath
      · subst hq
        dsimp only
        rw [update_self]
        refine (ht.nodup q).append (ht.nodup oldPath) ?_
        intro r hnew hold
        exact hne ((hpath hold).symm.trans (hpath hnew))
      · by_cases hq' : q = oldPath
        · subst hq'
          simp [hq]
        · simpa [hq, hq'] using ht.nodup q

theorem Listed.permits (ht : t.Listed) (h : t.acquire path access share = .ok (r, t')) {r' : Nat}
    (hheld : t.Held r') (hpath : (t.handle r').path = path) : t.conflictsWith access share r' = false :=
  (acquire_ok h).2.1 r' ((ht.mem_iff _ _).2 ⟨hheld, hpath⟩)

/-! ## What stays of the other opens -/

variable (t) in
/-- The opens at `r` and `r'` do not permit each other. -/
def opposed (r r' : Nat) : Bool := t.conflictsWith (t.handle r).access (t.handle r).share r'

omit [DecidableEq P] in
theorem opposed_comm (r r' : Nat) : t.opposed r r' = t.opposed r' r := Bool.or_comm _ _

omit [DecidableEq P] in
theorem opposed_congr {r' : Nat} (h : ∀ r, (t'.handle r).access = (t.handle r).access ∧
    (t'.handle r).share = (t.handle r).share) : t'.opposed r r' = t.opposed r r' := by
  rw [opposed, opposed, conflictsWith, conflictsWith, (h r).1, (h r).2, (h r').1, (h r').2]

theorem opposed_release {r1 r2 : Nat} : (t.release r).opposed r1 r2 = t.opposed r1 r2 := by
  refine opposed_congr fun r' => ?_
  rw [release]
  split
  · exact ⟨rfl, rfl⟩
  · by_cases hr : r' = r
    · subst hr
      simp
    · simp [hr]

theorem opposed_rename {r1 r2 : Nat} : (t.rename oldPath newPath).opposed r1 r2 = t.opposed r1 r2 := by
  refine opposed_congr fun r' => ?_
  rw [rename]
  split
  · exact ⟨rfl, rfl⟩
  · dsimp only
    split <;> exact ⟨rfl, rfl⟩

theorem held_release {r' : Nat} (h : t.Held r') (hr : r' ≠ r) : (t.release r).Held r' := by
  rw [release]
  split
  · exact h
  · simpa [Held, hr] using h

theorem held_rename {r' : Nat} (h : t.Held r') : (t.rename oldPath newPath).Held r' := by
  rw [rename]
  split
  · exact h
  · simp only [Held]
    split <;> exact h

theorem acquire_keeps (h : t.acquire path access share = .ok (r, t')) : t'.Held r ∧ (∀ r', t.Held r' →
    r' ≠ r ∧ t'.Held r' ∧ t'.opposed r r' = t.conflictsWith access share r') ∧ ∀ r1 r2, t.Held r1 →
    t.Held r2 → t'.opposed r1 r2 = t.opposed r1 r2 := by
  obtain ⟨rfl, _, rfl⟩ := acquire_ok h
  have hne : ∀ {r'}, t.Held r' → r' ≠ t.next := fun hr' => Nat.ne_of_lt hr'.1
  refine ⟨by simp [Held], ?_, ?_⟩
  · intro r' hr'
    refine ⟨hne hr', ?_, ?_⟩
    · have hlt : r' < t.next + 1 := Nat.lt_succ_of_lt hr'.1
      simpa [Held, hne hr', hlt] using hr'.2
    · simp [opposed, conflictsWith, hne hr']
  · intro r1 r2 h1 h2
    simp [opposed, conflictsWith, hne h1, hne h2]

end ShareTable

end Bluestone.Locks
