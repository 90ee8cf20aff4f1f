/-
# `Bluestone.Vfs.Folding` — names that are equal but for case

`unicode.SimpleFold` goes round the cases of a character, and `strings.EqualFold` compares
two texts character by character.  `matchChild` takes, among the candidates for a name, the
name itself or else the first that is equal but for case.
-/
import Bluestone.Library.Orbits
import Bluestone.Library.Utf8

namespace Bluestone

open Orbits

/-- `unicode.SimpleFold`.  A slash, a period and U+FFFD have no other case. -/
structure Folding extends Cycles Char where
  slash : next '/' = '/'
  period : next '.' = '.'
  unknown : next Utf8.replacement = Utf8.replacement

variable (f : Folding)

/-- `foldOrbit`: the characters that are cases of one, itself first. -/
def foldOrbit (r : Char) : List Char := orbit f.toCycles r

/-- `strings.EqualFold` of two texts read as characters: pairwise cases of one another. -/
def equalRunes : List Char → List Char → Bool
  | [], [] => true
  | r :: rs, s :: ss => (foldOrbit f r).contains s && equalRunes rs ss
  | _, _ => false

/-- The loop of `matchChild`: the exact name, else the first match in order. -/
def bestMatch {α : Type} [DecidableEq α] [LT α] [DecidableLT α] (equalFold : List α → Bool)
    (key : List α) : List α → List (List α) → List α
  | found, [] => if found = [] then key else found
  | found, name :: rest =>
    if name = key then name
    else if equalFold name && (decide (found = []) || decide (name < found)) then
      bestMatch equalFold key name rest
    else bestMatch equalFold key found rest

variable {f}

theorem mem_foldOrbit {r s : Char} : s ∈ foldOrbit f r ↔ Same f.toCycles r s := mem_orbit

theorem foldOrbit_fixed {r s : Char} (h : f.next r = r) : s ∈ foldOrbit f r ↔ s = r := by
  rw [mem_foldOrbit]
  constructor
  · rintro ⟨n, rfl⟩
    exact Function.iterate_fixed h n
  · rintro rfl
    exact ⟨0, rfl⟩

theorem equalRunes_iff {rs ss : List Char} :
    equalRunes f rs ss ↔ List.Forall₂ (fun r s => s ∈ foldOrbit f r) rs ss := by
  induction rs generalizing ss with
  | nil => cases ss <;> simp [equalRunes]
  | cons r rs ih => cases ss <;> simp [equalRunes, ih]

theorem equalRunes_refl (rs : List Char) : equalRunes f rs rs := by
  rw [equalRunes_iff, List.forall₂_same]
  exact fun r _ => mem_foldOrbit.2 ⟨0, rfl⟩

theorem equalRunes_symm {rs ss : List Char} (h : equalRunes f rs ss) : equalRunes f ss rs := by
  rw [equalRunes_iff] at h ⊢
  refine List.Forall₂.flip (h.imp fun r s hrs => ?_)
  exact mem_foldOrbit.2 (mem_foldOrbit.1 hrs).symm

/-- A text whose characters have no other case is equal to no other. -/
theorem eq_of_fixed {rs ss : List Char} (h : equalRunes f rs ss) (hfixed : ∀ r ∈ rs, f.next r = r) :
    ss = rs := by
  rw [equalRunes_iff] at h
  induction h with
  | nil => rfl
  | cons hr _ ih =>
    rw [(foldOrbit_fixed (hfixed _ List.mem_cons_self)).1 hr,
      ih fun r hr => hfixed r (List.mem_cons_of_mem _ hr)]

/-- A character without another case stands in both of two texts that are equal but for case,
or in neither. -/
theorem mem_iff_of_fixed {c : Char} {rs ss : List Char} (hc : f.next c = c)
    (h : List.Forall₂ (fun r s => s ∈ foldOrbit f r) rs ss) : c ∈ rs ↔ c ∈ ss := by
  induction h with
  | nil => rfl
  | @cons r s rs ss hs _ ih =>
    have hsymm : r ∈ foldOrbit f s := mem_foldOrbit.2 (mem_foldOrbit.1 hs).symm
    have hhead : c = r ↔ c = s := by
      constructor
      · rintro rfl
        exact ((foldOrbit_fixed hc).1 hs).symm
      · rintro rfl
        exact ((foldOrbit_fixed hc).1 hsymm).symm
    rw [List.mem_cons, List.mem_cons, hhead, ih]

theorem eq_replicate_period_iff {rs ss : List Char} (h : equalRunes f rs ss) {n : Nat} :
    rs = List.replicate n '.' ↔ ss = List.replicate n '.' := by
  have hdir : ∀ {rs ss : List Char}, equalRunes f rs ss → rs = List.replicate n '.' →
      ss = List.replicate n '.' := by
    rintro rs ss h rfl
    refine eq_of_fixed h fun r hr => ?_
    rw [List.eq_of_mem_replicate hr, f.period]
  exact ⟨hdir h, hdir (equalRunes_symm h)⟩

end Bluestone
