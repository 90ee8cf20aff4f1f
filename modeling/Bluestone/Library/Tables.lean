/-
# `Bluestone.Library.Tables` — maps with a weight

A `Table` is a finite map, an association list without repeated keys; the order
of its entries is the order it happens to be gone through in.  `total w` adds up a
weight over the entries, and inserting or erasing a key changes it by the weight
of what was there before.

A map of maps is used with two keys.  `eraseIn` also takes out an inner map that is
left empty, so if there was none there is none after (`Filled`).
-/
import Mathlib

namespace Tables

open Option (bind_some getD_some)

universe u v

/-- A finite map. -/
abbrev Table (K : Type u) (V : Type v) := AList fun _ : K => V

variable {K : Type u} {V : Type v}

/-- The map has no entries. -/
def isEmpty (t : Table K V) : Bool := t.entries.isEmpty

/-- The weights of all entries. -/
def total (w : K → V → Nat) (t : Table K V) : Nat := (t.entries.map fun e => w e.1 e.2).sum

variable [DecidableEq K]

/-- The weight of what a key is mapped to. -/
def weightAt (w : K → V → Nat) (t : Table K V) (k : K) : Nat := (t.lookup k).elim 0 (w k)

section
variable {w : K → V → Nat} {t : Table K V} {k : K} {v : V}

theorem isEmpty_iff : isEmpty t ↔ ∀ k, t.lookup k = none := by
  rw [isEmpty, List.isEmpty_iff]
  constructor
  · intro h k
    exact AList.lookup_eq_none.2 fun hk => by simp [AList.mem_keys, AList.keys, h] at hk
  · intro h
    cases he : t.entries with
    | nil => rfl
    | cons e rest =>
      have hmem : e.1 ∈ t := by
        rw [AList.mem_keys, AList.keys, he]
        simp
      exact absurd hmem (AList.lookup_eq_none.1 (h e.1))

theorem kerase_sum (l : List (Sigma fun _ : K => V)) (hl : l.NodupKeys) (k : K) :
    ((l.kerase k).map fun e => w e.1 e.2).sum + (l.dlookup k).elim 0 (w k) =
    (l.map fun e => w e.1 e.2).sum := by
  induction l with
  | nil => rfl
  | cons e rest ih =>
    obtain ⟨hfresh, hrest⟩ := List.nodupKeys_cons.1 hl
    by_cases hk : k = e.1
    · subst hk
      rw [List.kerase_cons_eq rfl, List.dlookup_cons_eq, List.map_cons, List.sum_cons, Nat.add_comm]
      rfl
    · have ih' := ih hrest
      rw [List.kerase_cons_ne hk, List.dlookup_cons_ne _ e hk, List.map_cons, List.sum_cons, List.map_cons,
        List.sum_cons]
      omega

theorem total_erase : total w (t.erase k) + weightAt w t k = total w t :=
  kerase_sum t.entries t.nodupKeys k

theorem total_insert : total w (t.insert k v) + weightAt w t k = total w t + w k v := by
  have h := total_erase (w := w) (t := t) (k := k)
  have hcons : total w (t.insert k v) = w k v + total w (t.erase k) := rfl
  omega

end

/-! ## Maps of maps -/

section
variable {L : Type u} [DecidableEq L]

def lookupIn (t : Table K (Table L V)) (k : K) (l : L) : Option V := (t.lookup k).bind fun inner => inner.lookup l

def insertIn (t : Table K (Table L V)) (k : K) (l : L) (v : V) : Table K (Table L V) :=
  t.insert k (((t.lookup k).getD ∅).insert l v)

/-- The entry goes, and the inner map with it if it was the last one. -/
def eraseIn (t : Table K (Table L V)) (k : K) (l : L) : Table K (Table L V) :=
  match t.lookup k with
  | none => t
  | some inner => if isEmpty (inner.erase l) then t.erase k else t.insert k (inner.erase l)

/-- No inner map is empty. -/
def Filled (t : Table K (Table L V)) : Prop := ∀ k inner, t.lookup k = some inner → isEmpty inner = false

/-- The weights of all entries of all inner maps. -/
def totalIn (w : L → V → Nat) (t : Table K (Table L V)) : Nat := total (fun _ : K => total w) t

variable {t : Table K (Table L V)} {k k' : K} {l l' : L} {v : V} {w : L → V → Nat}

theorem lookupIn_insertIn_self : lookupIn (insertIn t k l v) k l = some v := by
  rw [lookupIn, insertIn, AList.lookup_insert, bind_some, AList.lookup_insert]

theorem lookupIn_insertIn_of_ne (h : ¬ (k' = k ∧ l' = l)) :
    lookupIn (insertIn t k l v) k' l' = lookupIn t k' l' := by
  unfold lookupIn insertIn
  by_cases hk : k' = k
  · subst hk
    rw [AList.lookup_insert, bind_some, AList.lookup_insert_ne fun hl => h ⟨rfl, hl⟩]
    cases t.lookup k' <;> rfl
  · rw [AList.lookup_insert_ne hk]

theorem lookupIn_eraseIn_self : lookupIn (eraseIn t k l) k l = none := by
  unfold lookupIn eraseIn
  cases hk : t.lookup k with
  | none => simp [hk]
  | some inner =>
    dsimp only
    split
    · rw [AList.lookup_erase, Option.bind_none]
    · rw [AList.lookup_insert, bind_some, AList.lookup_erase]

theorem lookupIn_eraseIn_of_ne (h : ¬ (k' = k ∧ l' = l)) :
    lookupIn (eraseIn t k l) k' l' = lookupIn t k' l' := by
  unfold lookupIn eraseIn
  cases hk : t.lookup k with
  | none => rfl
  | some inner =>
    dsimp only
    by_cases hkk : k' = k
    · subst hkk
      have hl : l' ≠ l := fun hl => h ⟨rfl, hl⟩
      rw [hk, bind_some]
      split
      · rename_i hempty
        have hnone := isEmpty_iff.1 hempty l'
        rw [AList.lookup_erase_ne hl] at hnone
        rw [AList.lookup_erase, Option.bind_none, hnone]
      · rw [AList.lookup_insert, bind_some, AList.lookup_erase_ne hl]
    · split
      · rw [AList.lookup_erase_ne hkk]
      · rw [AList.lookup_insert_ne hkk]

theorem Filled.insertIn (h : Filled t) : Filled (insertIn t k l v) := by
  intro k' inner hk'
  by_cases hk : k' = k
  · subst hk
    rw [Tables.insertIn, AList.lookup_insert] at hk'
    obtain rfl := Option.some.inj hk'
    rfl
  · rw [Tables.insertIn, AList.lookup_insert_ne hk] at hk'
    exact h k' inner hk'

theorem Filled.eraseIn (h : Filled t) : Filled (eraseIn t k l) := by
  intro k' inner hk'
  unfold Tables.eraseIn at hk'
  cases hk : t.lookup k with
  | none =>
    rw [hk] at hk'
    exact h k' inner hk'
  | some old =>
    rw [hk] at hk'
    dsimp only at hk'
    by_cases hkk : k' = k
    · subst hkk
      split at hk'
      · rw [AList.lookup_erase] at hk'
        exact nomatch hk'
      · rename_i hleft
        rw [AList.lookup_insert] at hk'
        obtain rfl := Option.some.inj hk'
        exact Bool.eq_false_iff.2 hleft
    · split at hk'
      · rw [AList.lookup_erase_ne hkk] at hk'
        exact h k' inner hk'
      · rw [AList.lookup_insert_ne hkk] at hk'
        exact h k' inner hk'

theorem Filled.exists_lookupIn (h : Filled t) {inner : Table L V} (hk : t.lookup k = some inner) :
    ∃ l, (lookupIn t k l).isSome := by
  by_contra hnone
  push Not at hnone
  have hempty : isEmpty inner := by
    refine isEmpty_iff.2 fun l => ?_
    have hl := hnone l
    rw [lookupIn, hk, bind_some] at hl
    exact Option.not_isSome_iff_eq_none.1 hl
  rw [h k inner hk] at hempty
  exact nomatch hempty

/-- The weight of the entry under two keys. -/
def weightIn (w : L → V → Nat) (t : Table K (Table L V)) (k : K) (l : L) : Nat := (lookupIn t k l).elim 0 (w l)

theorem weightIn_eq {inner : Table L V} (hk : t.lookup k = some inner) :
    weightIn w t k l = weightAt w inner l := by
  rw [weightIn, lookupIn, hk]
  rfl

theorem totalIn_insertIn : totalIn w (insertIn t k l v) + weightIn w t k l = totalIn w t + w l v := by
  have houter := total_insert (w := fun _ : K => total w) (t := t) (k := k)
    (v := ((t.lookup k).getD ∅).insert l v)
  have hinner := total_insert (w := w) (t := (t.lookup k).getD ∅) (k := l) (v := v)
  unfold totalIn Tables.insertIn
  cases hk : t.lookup k with
  | none =>
    have hzero : weightIn w t k l = 0 := by
      rw [weightIn, lookupIn, hk]
      rfl
    have hat : weightAt (fun _ : K => total w) t k = 0 := by
      rw [weightAt, hk]
      rfl
    have hold : total w (∅ : Table L V) = 0 := rfl
    have hnone : weightAt w (∅ : Table L V) l = 0 := rfl
    rw [hk] at houter hinner
    simp only [Option.getD_none] at houter hinner ⊢
    omega
  | some inner =>
    have hat : weightAt (fun _ : K => total w) t k = total w inner := by
      rw [weightAt, hk]
      rfl
    rw [hk] at houter hinner
    rw [weightIn_eq hk]
    simp only [getD_some] at houter hinner ⊢
    omega

theorem totalIn_eraseIn : totalIn w (eraseIn t k l) + weightIn w t k l = totalIn w t := by
  unfold totalIn Tables.eraseIn
  cases hk : t.lookup k with
  | none =>
    rw [weightIn, lookupIn, hk]
    rfl
  | some inner =>
    have hat : weightAt (fun _ : K => total w) t k = total w inner := by
      rw [weightAt, hk]
      rfl
    have hinner := total_erase (w := w) (t := inner) (k := l)
    rw [weightIn_eq hk]
    dsimp only
    split
    · rename_i hempty
      have houter := total_erase (w := fun _ : K => total w) (t := t) (k := k)
      have hzero : total w (inner.erase l) = 0 := by
        rw [total, List.isEmpty_iff.1 hempty]
        rfl
      omega
    · have houter := total_insert (w := fun _ : K => total w) (t := t) (k := k) (v := inner.erase l)
      omega

/-- The weights of the entries of one inner map. -/
def totalAt (w : L → V → Nat) (t : Table K (Table L V)) (k : K) : Nat := total w ((t.lookup k).getD ∅)

theorem totalAt_insertIn_self :
    totalAt w (insertIn t k l v) k + weightIn w t k l = totalAt w t k + w l v := by
  have hinner := total_insert (w := w) (t := (t.lookup k).getD ∅) (k := l) (v := v)
  have hweight : weightIn w t k l = weightAt w ((t.lookup k).getD ∅) l := by
    cases hk : t.lookup k with
    | none =>
      rw [weightIn, lookupIn, hk]
      rfl
    | some inner => exact weightIn_eq hk
  rw [totalAt, Tables.insertIn, AList.lookup_insert, getD_some, hweight]
  exact hinner

theorem totalAt_eraseIn_self : totalAt w (eraseIn t k l) k + weightIn w t k l = totalAt w t k := by
  unfold totalAt Tables.eraseIn
  cases hk : t.lookup k with
  | none =>
    rw [weightIn, lookupIn, hk]
    simp
  | some inner =>
    have hinner := total_erase (w := w) (t := inner) (k := l)
    rw [weightIn_eq hk]
    dsimp only
    split
    · rename_i hempty
      have hzero : total w (inner.erase l) = 0 := by
        rw [total, List.isEmpty_iff.1 hempty]
        rfl
      have hnone : total w (∅ : Table L V) = 0 := rfl
      rw [AList.lookup_erase, Option.getD_none, getD_some]
      omega
    · rw [AList.lookup_insert, getD_some, getD_some]
      exact hinner

theorem totalAt_insertIn_of_ne (h : k' ≠ k) : totalAt w (insertIn t k l v) k' = totalAt w t k' := by
  rw [totalAt, Tables.insertIn, AList.lookup_insert_ne h, totalAt]

theorem totalAt_eraseIn_of_ne (h : k' ≠ k) : totalAt w (eraseIn t k l) k' = totalAt w t k' := by
  unfold totalAt Tables.eraseIn
  cases t.lookup k with
  | none => rfl
  | some inner =>
    dsimp only
    split
    · rw [AList.lookup_erase_ne h]
    · rw [AList.lookup_insert_ne h]

end

end Tables
