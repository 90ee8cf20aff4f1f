/-
# `Bluestone.Locks.Bounded` — the caps on held ranges

`Lock` refuses what would take a file or a client over its cap.  `Unlock` has no
such check, and releasing the middle of a held range leaves two ranges where there
was one, so a table at its cap goes over it.

That is the only way over: an `Unlock` adds at most one range, and adds it just when
what it releases is strictly inside one held range (`Splits`).
-/
import Bluestone.Locks.WellFormed

namespace Bluestone.Locks

open Runs Spans Tables
open Manager (setLocked weight)

/-- Every file and every client is within its cap. -/
structure Bounded (m : Manager) : Prop where
  file : ∀ path, m.fileLockCountLocked path ≤ m.maxLocksPerFile
  client : ∀ client, m.clientTotal client ≤ m.maxLocksPerClient

/-- `r` is strictly inside one of the ranges. -/
def Splits (ranges : List Held) (r : Range) : Prop :=
  r.start < r.stop ∧ ∃ h ∈ ranges, h.start < r.start ∧ r.stop < h.stop

/-- A release that splits a range has room for one more, on the file and for the
client. -/
def RoomToSplit (m : Manager) : Call → Prop
  | .unlock owner path r => Splits (m.ranges path owner) r →
      m.fileLockCountLocked path < m.maxLocksPerFile ∧ m.clientTotal owner.client < m.maxLocksPerClient
  | _ => True

section
variable {m : Manager} {owner : Owner} {path p : String} {ranges : List Held} {delta : Int}

/-! ## Counts -/

theorem fileLockCount_eq (m : Manager) (path : String) :
    m.fileLockCountLocked path = totalAt (fun _ l => l.length) m.files path := by
  rw [Manager.fileLockCountLocked, Manager.owners, List.map_map]
  rfl

theorem weightIn_length : weightIn (fun _ l => l.length) m.files path owner =
    (m.ranges path owner).length := by
  show (m.entry path owner).elim 0 (fun l => l.length) = _
  unfold Manager.ranges
  cases m.entry path owner with
  | none | some l => rfl

theorem fileLockCount_setLocked : (m.setLocked owner path ranges delta).fileLockCountLocked path +
    (m.ranges path owner).length = m.fileLockCountLocked path + ranges.length := by
  rw [fileLockCount_eq, fileLockCount_eq, ← weightIn_length]
  unfold setLocked
  split
  · rename_i hnil
    rw [hnil]
    exact totalAt_eraseIn_self
  · exact totalAt_insertIn_self

theorem fileLockCount_setLocked_of_ne (h : p ≠ path) :
    (m.setLocked owner path ranges delta).fileLockCountLocked p = m.fileLockCountLocked p := by
  rw [fileLockCount_eq, fileLockCount_eq]
  unfold setLocked
  split
  · exact totalAt_eraseIn_of_ne h
  · exact totalAt_insertIn_of_ne h

@[simp] theorem setLocked_maxLocksPerFile :
    (m.setLocked owner path ranges delta).maxLocksPerFile = m.maxLocksPerFile := by
  unfold setLocked
  split <;> rfl

@[simp] theorem setLocked_maxLocksPerClient :
    (m.setLocked owner path ranges delta).maxLocksPerClient = m.maxLocksPerClient := by
  unfold setLocked
  split <;> rfl

theorem bounded_setLocked (h : Bounded m) : Bounded (m.setLocked owner path ranges delta) ↔
    m.fileLockCountLocked path + (ranges.length - (m.ranges path owner).length : Int) ≤ m.maxLocksPerFile ∧
    m.clientTotal owner.client + (ranges.length - (m.ranges path owner).length : Int) ≤
    m.maxLocksPerClient := by
  have hfile : (m.setLocked owner path ranges delta).fileLockCountLocked path +
    (m.ranges path owner).length = m.fileLockCountLocked path + ranges.length := fileLockCount_setLocked
  have htotal : ∀ client, (m.setLocked owner path ranges delta).clientTotal client +
      weight client owner (m.ranges path owner) =
        m.clientTotal client + weight client owner ranges := fun _ => setLocked_clientTotal
  have hown := htotal owner.client
  simp only [weight, if_true] at hown
  constructor
  · rintro ⟨hf, hc⟩
    have hf' := hf path
    have hc' := hc owner.client
    rw [setLocked_maxLocksPerFile] at hf'
    rw [setLocked_maxLocksPerClient] at hc'
    omega
  · rintro ⟨hf, hc⟩
    constructor
    · intro p
      rw [setLocked_maxLocksPerFile]
      by_cases hp : p = path
      · subst hp
        omega
      · rw [fileLockCount_setLocked_of_ne hp]
        exact h.file p
    · intro client
      rw [setLocked_maxLocksPerClient]
      by_cases hclient : owner.client = client
      · subst hclient
        omega
      · have hsame := htotal client
        simp only [weight, if_neg hclient] at hsame
        have hold := h.client client
        omega

theorem Bounded.shrink (h : Bounded m) (hle : ranges.length ≤ (m.ranges path owner).length) :
    Bounded (m.setLocked owner path ranges delta) := by
  have hf := h.file path
  have hc := h.client owner.client
  refine (bounded_setLocked h).2 ⟨?_, ?_⟩
  all_goals omega

/-! ## The calls -/

theorem Bounded.lock (h : Bounded m) (hwf : WellFormed m) (owner : Owner) (path : String) (r : Range)
    (mode : Mode) : Bounded (m.lock owner path r mode).2 := by
  rcases lock_cases m owner path r mode with ⟨e, _, hl⟩ | ⟨_, l, _, hl⟩ | ⟨_, _, hl⟩ |
    ⟨_, _, delta, hdelta, hlimit, hl⟩
  · rw [hl]
    exact h
  · rw [hl]
    exact h
  · rw [hl]
    exact h
  · rw [hl]
    by_cases hpos : 0 < delta
    · obtain ⟨hf, hc⟩ := hlimit hpos
      rw [hwf.count] at hc
      subst hdelta
      exact (bounded_setLocked h).2 ⟨hf, hc⟩
    · refine h.shrink ?_
      omega

theorem bounded_unlock (h : Bounded m) (hwf : WellFormed m) (owner : Owner) (path : String) (r : Range) :
    Bounded (m.unlock owner path r).2 ↔ RoomToSplit m (.unlock owner path r) := by
  unfold Manager.unlock RoomToSplit
  by_cases hempty : r.stop ≤ r.start
  · rw [if_pos hempty]
    exact ⟨fun _ hs => absurd hs.1 (not_lt_of_ge hempty), fun _ => h⟩
  · rw [if_neg hempty]
    have hlt := lt_of_not_ge hempty
    have htidy := hwf.tidy path owner
    by_cases hin : ∃ s ∈ m.ranges path owner, s.start < r.start ∧ r.stop < s.stop
    · have hlen : (subtract (m.ranges path owner) r).length = (m.ranges path owner).length + 1 :=
        length_subtract_inside htidy hlt hin
      dsimp only
      rw [bounded_setLocked h, hlen]
      constructor
      · rintro ⟨hf, hc⟩ _
        omega
      · intro hroom
        obtain ⟨hf, hc⟩ := hroom ⟨hlt, hin⟩
        omega
    · have hlen : (subtract (m.ranges path owner) r).length ≤ (m.ranges path owner).length :=
        length_subtract_le fun s hs hcut => hin ⟨s, hs, hcut⟩
      exact ⟨fun _ hs => absurd hs.2 hin, fun _ => h.shrink hlen⟩

theorem Bounded.releaseOwnerLocked (h : Bounded m) (owner : Owner) :
    Bounded (m.releaseOwnerLocked owner) :=
  Manager.releaseOwnerLocked_keeps (fun _ _ hm => hm.shrink (Nat.zero_le _)) h

theorem Bounded.releaseClient (h : Bounded m) (client : String) : Bounded (m.releaseClient client) :=
  Manager.releaseClient_keeps (fun _ owner hm => hm.releaseOwnerLocked owner) h client

theorem bounded_next (h : Bounded m) (hwf : WellFormed m) (c : Call) :
    Bounded (m.next c) ↔ RoomToSplit m c := by
  cases c with
  | lock owner path r mode => exact ⟨fun _ => trivial, fun _ => h.lock hwf owner path r mode⟩
  | unlock owner path r => exact bounded_unlock h hwf owner path r
  | releaseOwner owner => exact ⟨fun _ => trivial, fun _ => h.releaseOwnerLocked owner⟩
  | releaseClient client => exact ⟨fun _ => trivial, fun _ => h.releaseClient client⟩

theorem bounded_new (perFile perClient : Int) : Bounded (newManager perFile perClient) where
  file path := by
    show (0 : Int) ≤ if perFile ≤ 0 then defaultMaxLocksPerFile else perFile
    split
    · decide
    · omega
  client client := by
    show (0 : Int) ≤ if perClient ≤ 0 then defaultMaxLocksPerClient else perClient
    split
    · decide
    · omega

/-! ## Every sequence of calls -/

/-- A table whose releases have room for the ranges they split is within its caps at
every moment; and from a table within its caps that is the only call that goes over
them. -/
theorem lock_state_bounded {m : Manager} : (Reach tableSystem RoomToSplit m →
    (∀ path, m.fileLockCountLocked path ≤ m.maxLocksPerFile) ∧
    ∀ client, m.clientTotal client ≤ m.maxLocksPerClient) ∧ (Reach tableSystem always m → Bounded m →
    ∀ c, Bounded (m.next c) ↔ RoomToSplit m c) := by
  constructor
  · intro hr
    have hboth : WellFormed m ∧ Bounded m := by
      refine Reach.invariant (I := fun m => WellFormed m ∧ Bounded m) ?_ ?_ hr
      · rintro _ ⟨perFile, perClient, rfl⟩
        exact ⟨wellFormed_new perFile perClient, bounded_new perFile perClient⟩
      · rintro m' c _ ⟨hwf, hb⟩ hroom rfl
        exact ⟨hwf.next c, (bounded_next hb hwf c).2 hroom⟩
    exact ⟨hboth.2.file, hboth.2.client⟩
  · intro hr hb c
    exact bounded_next hb (wellFormed_of_reach hr) c

/-- A table with room for one range per file, and that range held. -/
def fullTable : Manager := (newManager 1 0).next (.lock ⟨"nfs", "a"⟩ "f" ⟨0, 10⟩ .shared)

theorem full_table_bounded : fullTable.fileLockCountLocked "f" = 1 ∧
    fullTable.fileLockCountLocked "f" ≤ fullTable.maxLocksPerFile := by
  have hinit : Reach tableSystem RoomToSplit (newManager 1 0) := .init ⟨1, 0, rfl⟩
  have hr : Reach tableSystem RoomToSplit fullTable := hinit.next rfl
  exact ⟨by decide +kernel, (lock_state_bounded.1 hr).1 "f"⟩

/-- Releasing the middle of the one range a file may have leaves two. -/
theorem split_over_cap : Reach tableSystem always (fullTable.next (.unlock ⟨"nfs", "a"⟩ "f" ⟨3, 5⟩)) ∧
    (fullTable.next (.unlock ⟨"nfs", "a"⟩ "f" ⟨3, 5⟩)).maxLocksPerFile = 1 ∧
    (fullTable.next (.unlock ⟨"nfs", "a"⟩ "f" ⟨3, 5⟩)).fileLockCountLocked "f" = 2 := by
  have hinit : Reach tableSystem always (newManager 1 0) := .init ⟨1, 0, rfl⟩
  exact ⟨(hinit.next rfl).next rfl, by decide +kernel, by decide +kernel⟩

end

end Bluestone.Locks
