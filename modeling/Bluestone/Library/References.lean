/-
# `Bluestone.Library.References` — references taken on objects, given back by name

Objects are listed under names and count their references.  A holder takes a
reference on the object it finds under a name, and gives it back to whatever the
name lists by then.  An object may end (`kill`) once no name lists it.

The counts are exact (`Exact`) as long as names that open holders have are not
unlisted or moved: `Exact.unlist` and `Exact.rekey` ask for that, and the other
operations for nothing.
-/
import Mathlib.Logic.Function.Basic

namespace References

open Function (update update_self update_of_ne)

universe u

variable {K : Type u}

/-- What is listed, how many references each object counts, which objects have not
ended, and the next object. -/
@[ext]
structure Ledger (K : Type u) where
  listed : K → Option Nat
  count : Nat → Nat
  live : Nat → Bool
  next : Nat

structure Holder (K : Type u) where
  name : K
  object : Option Nat
  closed : Bool

/-- The holder has a reference on `o`. -/
def Holder.holds (h : Holder K) (o : Nat) : Bool := !h.closed && decide (h.object = some o)

theorem Holder.holds_iff {h : Holder K} {o : Nat} :
    h.holds o ↔ h.closed = false ∧ h.object = some o := by
  simp [Holder.holds]

namespace Ledger

def acquire (l : Ledger K) (o : Nat) : Ledger K :=
  { l with count := update l.count o (l.count o + 1) }

/-- A new object under `k` that nobody holds yet. -/
def create [DecidableEq K] (l : Ledger K) (k : K) : Ledger K where
  listed := update l.listed k (some l.next)
  count := update l.count l.next 0
  live := update l.live l.next true
  next := l.next + 1

def release (l : Ledger K) (k : K) : Ledger K :=
  match l.listed k with
  | none => l
  | some o => { l with count := update l.count o (l.count o - 1) }

def kill (l : Ledger K) (o : Nat) : Ledger K := { l with live := update l.live o false }

def unlist [DecidableEq K] (l : Ledger K) (k : K) : Ledger K := { l with listed := update l.listed k none }

def rekey [DecidableEq K] (l : Ledger K) (k k' : K) : Ledger K :=
  { l with listed := update (update l.listed k none) k' (l.listed k) }

end Ledger

/-- Nothing changes but that objects which had ended are there again. -/
structure Ledger.Grows (l l' : Ledger K) : Prop where
  listed : l'.listed = l.listed
  count : l'.count = l.count
  live : ∀ o, l.live o = true → l'.live o = true
  next : l'.next = l.next

/-- Every open holder's object is listed under its name, and every listed object
has not ended and counts its open holders. -/
structure Exact (l : Ledger K) (hs : List (Holder K)) : Prop where
  held : ∀ h ∈ hs, ∀ o, h.holds o = true → l.listed h.name = some o
  count : ∀ k o, l.listed k = some o → l.count o = hs.countP (·.holds o)
  injective : ∀ k k' o, l.listed k = some o → l.listed k' = some o → k = k'
  fresh : ∀ k o, l.listed k = some o → o < l.next
  live : ∀ k o, l.listed k = some o → l.live o = true

/-- No open holder has the name. -/
def Free (hs : List (Holder K)) (k : K) : Prop := ∀ h ∈ hs, ∀ o, h.holds o = true → h.name ≠ k

section
variable {l l' : Ledger K} {hs pre post : List (Holder K)} {h : Holder K} {k k' k1 : K} {o : Nat}

/-! ## Holders that come and go -/

theorem Ledger.Grows.trans {l'' : Ledger K} (h : l.Grows l') (h' : l'.Grows l'') : l.Grows l'' :=
  ⟨h'.listed.trans h.listed, h'.count.trans h.count, fun o ho => h'.live o (h.live o ho),
    h'.next.trans h.next⟩

theorem Exact.grows (he : Exact l hs) (hg : l.Grows l') : Exact l' hs := by
  refine ⟨?_, ?_, ?_, ?_, ?_⟩
  · rw [hg.listed]
    exact he.held
  · rw [hg.listed, hg.count]
    exact he.count
  · rw [hg.listed]
    exact he.injective
  · rw [hg.listed, hg.next]
    exact he.fresh
  · rw [hg.listed]
    exact fun k o hk => hg.live o (he.live k o hk)

theorem countP_fresh (he : Exact l hs) (hle : l.next ≤ o) : hs.countP (·.holds o) = 0 := by
  rw [List.countP_eq_zero]
  intro h hh ho
  have := he.fresh _ _ (he.held h hh o ho)
  omega

theorem Exact.acquire (he : Exact l hs) (hk : l.listed k = some o) :
    Exact (l.acquire o) (hs ++ [⟨k, some o, false⟩]) := by
  refine ⟨fun h hh o' ho' => ?_, fun k1 o1 h1 => ?_, he.injective, he.fresh, he.live⟩
  · rcases List.mem_append.1 hh with hh | hh
    · exact he.held h hh o' ho'
    · obtain rfl := List.mem_singleton.1 hh
      obtain rfl : o = o' := by simpa [Holder.holds] using ho'
      exact hk
  · have hcount := he.count k1 o1 h1
    by_cases ho : o1 = o
    · subst ho
      simp [Ledger.acquire, Holder.holds, hcount]
    · simp [Ledger.acquire, Holder.holds, ho, hcount, Ne.symm ho]

theorem Exact.insert (he : Exact l (pre ++ post)) (hh : ∀ o, h.holds o = false) :
    Exact l (pre ++ h :: post) := by
  refine ⟨fun h' hh' o ho => ?_, fun k1 o h1 => ?_, he.injective, he.fresh, he.live⟩
  · rcases List.mem_append.1 hh' with hm | hm
    · exact he.held h' (List.mem_append_left _ hm) o ho
    · rcases List.mem_cons.1 hm with rfl | hm
      · exact nomatch (hh o).symm.trans ho
      · exact he.held h' (List.mem_append_right _ hm) o ho
  · rw [he.count k1 o h1]
    simp [List.countP_append, hh o]

theorem Exact.remove (he : Exact l (pre ++ h :: post)) (hh : ∀ o, h.holds o = false) :
    Exact l (pre ++ post) := by
  refine ⟨fun h' hh' o ho => he.held h' ?_ o ho, fun k1 o h1 => ?_, he.injective, he.fresh, he.live⟩
  · rcases List.mem_append.1 hh' with hm | hm
    · exact List.mem_append_left _ hm
    · exact List.mem_append_right _ (List.mem_cons_of_mem _ hm)
  · rw [he.count k1 o h1]
    simp [List.countP_append, hh o]

theorem Exact.release (he : Exact l (pre ++ h :: post)) (ho : h.holds o) :
    Exact (l.release h.name) (pre ++ post) := by
  have hlisted := he.held h (List.mem_append_right _ List.mem_cons_self) o ho
  have hrelease : l.release h.name =
      { l with count := update l.count o (l.count o - 1) } := by
    simp [Ledger.release, hlisted]
  rw [hrelease]
  refine ⟨fun h' hh' o' ho' => he.held h' ?_ o' ho', fun k1 o1 h1 => ?_, he.injective, he.fresh, he.live⟩
  · rcases List.mem_append.1 hh' with hm | hm
    · exact List.mem_append_left _ hm
    · exact List.mem_append_right _ (List.mem_cons_of_mem _ hm)
  · have hcount := he.count k1 o1 h1
    rw [List.countP_append, List.countP_cons] at hcount
    rw [List.countP_append]
    by_cases hne : o1 = o
    · subst hne
      rw [if_pos ho] at hcount
      simp only [update_self]
      omega
    · have hother : h.holds o1 = false := by
        simp only [Holder.holds, Bool.and_eq_true, decide_eq_true_eq] at ho
        simp [Holder.holds, ho.2, Ne.symm hne]
      rw [hother] at hcount
      simpa [hne] using hcount

theorem Exact.relist (he : Exact l hs) (hcount : l'.count = l.count) (hnext : l'.next = l.next)
    (hlive : l'.live = l.live) (hfrom : ∀ k1 o, l'.listed k1 = some o → ∃ k0, l.listed k0 = some o)
    (hinj : ∀ k1 k2 o, l'.listed k1 = some o → l'.listed k2 = some o → k1 = k2)
    (hheld : ∀ h ∈ hs, ∀ o, h.holds o → l'.listed h.name = some o) : Exact l' hs := by
  refine ⟨hheld, fun k1 o h1 => ?_, hinj, fun k1 o h1 => ?_, fun k1 o h1 => ?_⟩
  · obtain ⟨k0, h0⟩ := hfrom k1 o h1
    rw [hcount]
    exact he.count k0 o h0
  · obtain ⟨k0, h0⟩ := hfrom k1 o h1
    rw [hnext]
    exact he.fresh k0 o h0
  · obtain ⟨k0, h0⟩ := hfrom k1 o h1
    rw [hlive]
    exact he.live k0 o h0

theorem Exact.kill (he : Exact l hs) (ho : ∀ k, l.listed k ≠ some o) : Exact (l.kill o) hs := by
  refine ⟨he.held, he.count, he.injective, he.fresh, fun k1 o1 h1 => ?_⟩
  rw [← he.live k1 o1 h1]
  refine update_of_ne ?_ ..
  rintro rfl
  exact ho k1 h1

theorem Exact.free (he : Exact l hs) (hk : l.listed k = some o) (hcount : l.count o = 0) :
    Free hs k := by
  rintro h hh o' ho' rfl
  have hheld := he.held h hh o' ho'
  obtain rfl : o = o' := Option.some.inj (hk.symm.trans hheld)
  have hzero := (he.count _ _ hk).symm.trans hcount
  exact List.countP_eq_zero.1 hzero h hh ho'

variable [DecidableEq K]

theorem Exact.create (he : Exact l hs) (hk : l.listed k = none) : Exact (l.create k) hs := by
  have hiff : ∀ k1 o, (l.create k).listed k1 = some o ↔
      k1 = k ∧ o = l.next ∨ k1 ≠ k ∧ l.listed k1 = some o := by
    intro k1 o
    by_cases h1 : k1 = k
    · subst h1
      simp [Ledger.create, eq_comm]
    · simp [Ledger.create, h1]
  refine ⟨fun h hh o ho => ?_, fun k1 o h1 => ?_, fun k1 k2 o h1 h2 => ?_, fun k1 o h1 => ?_,
    fun k1 o h1 => ?_⟩
  · have hlisted := he.held h hh o ho
    refine (hiff h.name o).2 (.inr ⟨?_, hlisted⟩)
    intro heq
    rw [heq, hk] at hlisted
    exact nomatch hlisted
  · rcases (hiff k1 o).1 h1 with ⟨_, rfl⟩ | ⟨_, h1⟩
    · rw [countP_fresh he (Nat.le_refl _)]
      exact update_self ..
    · rw [← he.count k1 o h1]
      exact update_of_ne (Nat.ne_of_lt (he.fresh k1 o h1)) ..
  · rcases (hiff k1 o).1 h1 with ⟨heq1, ho1⟩ | ⟨_, h1⟩ <;>
      rcases (hiff k2 o).1 h2 with ⟨heq2, ho2⟩ | ⟨_, h2⟩
    · exact heq1.trans heq2.symm
    · have := he.fresh k2 o h2
      omega
    · have := he.fresh k1 o h1
      omega
    · exact he.injective k1 k2 o h1 h2
  · show o < l.next + 1
    rcases (hiff k1 o).1 h1 with ⟨_, rfl⟩ | ⟨_, h1⟩
    · exact Nat.lt_succ_self _
    · exact Nat.lt_succ_of_lt (he.fresh k1 o h1)
  · rcases (hiff k1 o).1 h1 with ⟨_, rfl⟩ | ⟨_, h1⟩
    · exact update_self ..
    · rw [← he.live k1 o h1]
      exact update_of_ne (Nat.ne_of_lt (he.fresh k1 o h1)) ..

/-! ## Names that change hands -/

theorem listed_unlist_iff : (l.unlist k).listed k1 = some o ↔ k1 ≠ k ∧ l.listed k1 = some o := by
  by_cases hk : k1 = k
  · subst hk
    simp [Ledger.unlist]
  · simp [Ledger.unlist, hk]

theorem listed_rekey_iff : (l.rekey k k').listed k1 = some o ↔
    k1 = k' ∧ l.listed k = some o ∨ k1 ≠ k' ∧ k1 ≠ k ∧ l.listed k1 = some o := by
  by_cases hk' : k1 = k'
  · subst hk'
    simp [Ledger.rekey]
  · by_cases hk : k1 = k
    · subst hk
      simp [Ledger.rekey, hk']
    · simp [Ledger.rekey, hk', hk]

theorem Exact.unlist (he : Exact l hs) (hfree : Free hs k) : Exact (l.unlist k) hs := by
  refine he.relist rfl rfl rfl (fun k1 o h1 => ⟨k1, (listed_unlist_iff.1 h1).2⟩) ?_ ?_
  · intro k1 k2 o h1 h2
    exact he.injective k1 k2 o (listed_unlist_iff.1 h1).2 (listed_unlist_iff.1 h2).2
  · intro h hh o ho
    exact listed_unlist_iff.2 ⟨hfree h hh o ho, he.held h hh o ho⟩

theorem Exact.drop (he : Exact l hs) (hfree : Free hs k) (hk : l.listed k = some o) :
    Exact ((l.unlist k).kill o) hs := by
  refine (he.unlist hfree).kill fun k1 h1 => ?_
  obtain ⟨hne, h1⟩ := listed_unlist_iff.1 h1
  exact hne (he.injective k1 k o h1 hk)

theorem Exact.rekey (he : Exact l hs) (hfree : Free hs k) (hfree' : Free hs k') :
    Exact (l.rekey k k') hs := by
  refine he.relist rfl rfl rfl (fun k1 o h1 => ?_) ?_ ?_
  · rcases listed_rekey_iff.1 h1 with ⟨_, h0⟩ | ⟨_, _, h0⟩
    · exact ⟨k, h0⟩
    · exact ⟨k1, h0⟩
  · intro k1 k2 o h1 h2
    rcases listed_rekey_iff.1 h1 with ⟨heq1, h1⟩ | ⟨_, hne1, h1⟩ <;>
      rcases listed_rekey_iff.1 h2 with ⟨heq2, h2⟩ | ⟨_, hne2, h2⟩
    · exact heq1.trans heq2.symm
    · exact absurd (he.injective k2 k o h2 h1) hne2
    · exact absurd (he.injective k1 k o h1 h2) hne1
    · exact he.injective k1 k2 o h1 h2
  · intro h hh o ho
    exact listed_rekey_iff.2 (.inr ⟨hfree' h hh o ho, hfree h hh o ho, he.held h hh o ho⟩)

end

end References
