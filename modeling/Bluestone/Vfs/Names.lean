/-
# `Bluestone.Vfs.Names` — from a client's name to a key path

`internal/vfs/names.go`: views with Windows naming unmap each component of a name
and match it against the entries of its parent, ignoring case.  What the bucket
and staging answer is part of the view.

Strings are lists of characters.
-/
import Bluestone.Library.Paths
import Bluestone.Vfs.Folding

namespace Bluestone.Vfs

open Paths

abbrev Str := List Char

/-! ## Characters Windows cannot use -/

def sfmControlOffset : Nat := 0xF000
def sfmTrailingSpace : Char := Char.ofNat 0xF028
def sfmTrailingPeriod : Char := Char.ofNat 0xF029
def sfmFirst : Char := Char.ofNat 0xF001
def sfmLast : Char := Char.ofNat 0xF029

/-- The characters reserved on Windows, with what stands for them. -/
def sfmReserved : List (Char × Char) :=
  [('"', Char.ofNat 0xF020), ('*', Char.ofNat 0xF021), (':', Char.ofNat 0xF022),
    ('<', Char.ofNat 0xF023), ('>', Char.ofNat 0xF024), ('?', Char.ofNat 0xF025),
    ('\\', Char.ofNat 0xF026), ('|', Char.ofNat 0xF027)]

/-- The loop body of `keyName`. -/
def unmapChar (r : Char) : Char :=
  if sfmFirst ≤ r ∧ r.toNat ≤ sfmControlOffset + 0x1F then Char.ofNat (r.toNat - sfmControlOffset)
  else if r = sfmTrailingSpace then ' '
  else if r = sfmTrailingPeriod then '.'
  else match sfmReserved.find? fun pair => pair.2 = r with
    | some pair => pair.1
    | none => r

/-- A Windows naming client's name, mapped back to the stored key name. -/
def keyName (name : Str) : Str :=
  if name.any fun r => decide (sfmFirst ≤ r) && decide (r ≤ sfmLast) then name.map unmapChar else name

/-! ## Matching -/

/-- A view of the filesystem, with what its lookups answer. -/
structure View where
  root : Str
  windowsNames : Bool
  fold : Folding
  /-- A cached listing of a directory. -/
  cachedChildNames : Str → Option (List Str)
  /-- The entries of a directory that exist only in staging. -/
  stagedChildNames : Str → List Str
  /-- `statPath` finds something. -/
  exists_ : Str → Bool
  /-- The listed entries that could match a name. -/
  listedCandidates : Str → Str → List Str

namespace View

variable (v : View)

def matchChild (dir key : Str) : Str :=
  match v.cachedChildNames dir with
  | some names => bestMatch (equalRunes v.fold · key) key [] (names ++ v.stagedChildNames dir)
  | none =>
    if v.exists_ (join dir key) then key
    else bestMatch (equalRunes v.fold · key) key [] (v.listedCandidates dir key ++ v.stagedChildNames dir)

/-- One component of the loop of `keyPath`. -/
def resolve (current component : Str) : Str := join current (v.matchChild current (keyName component))

/-- The key path a caller's name refers to. -/
def keyPath (name : Str) : Str :=
  if v.windowsNames then (clean name).foldl v.resolve (render (clean v.root))
  else join v.root name

/-- The key path of a rename's destination.  One that is the source in another case is
the spelling asked for. -/
def renameTargetPath (oldFull newpath : Str) : Str :=
  if v.windowsNames = false ∨ v.keyPath newpath ≠ oldFull then v.keyPath newpath
  else join (render (clean (v.keyPath newpath)).dropLast) (keyName ((clean newpath).getLast?.getD ['/']))

end View

/-! ## What unmapping and matching keep -/

theorem reserved_ne_slash : ∀ pair ∈ sfmReserved, pair.1 ≠ '/' := by decide

theorem control_ne_slash : ∀ n < 0x20, Char.ofNat n ≠ '/' := by decide

theorem unmapChar_ne_slash {r : Char} (h : r ≠ '/') : unmapChar r ≠ '/' := by
  rw [unmapChar]
  split
  · rename_i hctl
    have hle := hctl.2
    exact control_ne_slash _ (by omega)
  · split
    · decide
    · split
      · decide
      · split
        · exact reserved_ne_slash _ (List.mem_of_find?_eq_some ‹_›)
        · exact h

theorem keyName_no_slash {name : Str} (h : '/' ∉ name) : '/' ∉ keyName name := by
  rw [keyName]
  split
  · intro hmem
    obtain ⟨r, hr, hunmap⟩ := List.mem_map.1 hmem
    refine unmapChar_ne_slash ?_ hunmap
    rintro rfl
    exact h hr
  · exact h

theorem no_slash_of_equalRunes {f : Folding} {a b : Str} (h : equalRunes f a b) (hb : '/' ∉ b) : '/' ∉ a :=
  fun ha => hb ((mem_iff_of_fixed f.slash (equalRunes_iff.1 h)).1 ha)

namespace View

variable {v : View}

theorem equalRunes_bestMatch {key found : Str} {names : List Str}
    (h : found = [] ∨ equalRunes v.fold found key) :
    equalRunes v.fold (bestMatch (equalRunes v.fold · key) key found names) key := by
  induction names generalizing found with
  | nil =>
    rw [bestMatch]
    split
    · exact equalRunes_refl key
    · exact h.resolve_left ‹_›
  | cons name rest ih =>
    rw [bestMatch]
    split
    · rename_i hname
      rw [hname]
      exact equalRunes_refl key
    · split
      · rename_i hfold
        exact ih (.inr (Bool.and_eq_true_iff.1 hfold).1)
      · exact ih h

theorem equalRunes_matchChild (dir key : Str) : equalRunes v.fold (v.matchChild dir key) key := by
  rw [matchChild]
  split
  · exact equalRunes_bestMatch (.inl rfl)
  · split
    · exact equalRunes_refl key
    · exact equalRunes_bestMatch (.inl rfl)

theorem keyPath_rooted (v : View) (name : Str) : ∃ t, v.keyPath name = '/' :: t := by
  have hfold : ∀ (components : List Str) (current : Str), (∃ t, current = '/' :: t) →
      ∃ t, components.foldl v.resolve current = '/' :: t := by
    intro components
    induction components with
    | nil => exact fun _ hc => hc
    | cons c rest ih => exact fun _ _ => ih _ ⟨_, rfl⟩
  rw [keyPath]
  split
  · exact hfold _ _ ⟨_, rfl⟩
  · exact ⟨_, rfl⟩

theorem renameTargetPath_rooted (v : View) (oldFull new : Str) :
    ∃ t, v.renameTargetPath oldFull new = '/' :: t := by
  rw [renameTargetPath]
  split
  · exact v.keyPath_rooted new
  · exact ⟨_, rfl⟩

end View

end Bluestone.Vfs
