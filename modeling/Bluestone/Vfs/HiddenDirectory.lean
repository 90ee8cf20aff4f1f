/-
# `Bluestone.Vfs.HiddenDirectory` — a directory made where a delete is pending

A pending delete is of a file, and is recorded by its path.  `Stat`, `ReadDir` and
`Rename` ask whether one is recorded for the path they are given; the bucket's
listings ask it for the path of each key, and the marker of a directory has the path
of the directory.

`MkdirAll` puts the marker and withdraws nothing, as opening the path or renaming
something onto it would.  Until the delete completes the directory is there and
cannot be found (`pending_delete_hides_directory`).
-/
import Bluestone.Vfs.Calls

namespace Bluestone

open Cuts Vfs Paths

/-- The path with the given names. -/
def pathOf (names : List Name) : String := String.ofList (render names)

/-- Objects are created below a directory. -/
def Gateway.createBelow (g : Gateway) (path : String) (objects : String → Option Object) : Gateway :=
  { g with
    object := fun key =>
      if hasPrefix key (directoryKey path) && key != directoryKey path then objects key
      else g.object key }

/-- The gateway once `MkdirAll` has put the marker, with objects created below it. -/
def Gateway.remade (g : Gateway) (path : String) (perm : UInt32) (now : Nat)
    (objects : String → Option Object) : Gateway :=
  (mkdirAll false perm now path g).final.createBelow path objects

namespace Gateway

variable {g : Gateway} {dir : List Name} {n : Name} {path : String}

theorem remade_tombstone (perm : UInt32) (now : Nat) (objects : String → Option Object) :
    (g.remade path perm now objects).tombstone = g.tombstone := rfl

/-! ## The name is hidden -/

theorem statInfo_pending (h : g.tombstone path) (known : List String) (w : CallFaults) :
    g.statInfo known w path = .error .notExist := by
  rw [statInfo, h, Bool.or_true]
  rfl

theorem joinName_pathOf (hdir : ∀ m ∈ dir, Plain m) (hn : Plain n) :
    joinName (pathOf dir) n = pathOf (dir ++ [n]) := by
  rw [joinName, pathOf, String.toList_ofList, join_render hdir hn.no_slash, push_of_plain hn, pathOf]

theorem isDir_addStaged {result : List FileInfo} {sessions : List (String × Nat)} {e : FileInfo}
    (h : e ∈ g.addStaged result sessions) : e ∈ result ∨ e.isDir = false := by
  induction sessions generalizing result with
  | nil => exact .inl h
  | cons s rest ih =>
    rw [addStaged] at h
    split at h
    · exact ih h
    · rcases ih h with hmem | hfile
      · rcases List.mem_append.1 hmem with hold | hnew
        · exact .inl hold
        · obtain rfl := List.mem_singleton.1 hnew
          exact .inr rfl
      · exact .inr hfile

theorem readDir_pending (hdir : ∀ m ∈ dir, Plain m) (hn : Plain n)
    (h : g.tombstone (pathOf (dir ++ [n]))) {known : List String} {w : ListFaults}
    {entries : List FileInfo} (hread : g.readDir known w (pathOf dir) = .ok entries) :
    ∀ e ∈ entries, e.name = n → e.isDir = false := by
  intro e he hname
  unfold readDir at hread
  dsimp only at hread
  split at hread
  · split at hread
    · cases hread
    · -- only staged files are served
      obtain rfl := Except.ok.inj hread
      obtain ⟨s, -, rfl⟩ := List.mem_map.1 he
      rfl
  · obtain rfl := Except.ok.inj hread
    rcases isDir_addStaged he with hvisible | hfile
    · have hshown := (List.mem_filter.1 hvisible).2
      rw [hname, joinName_pathOf hdir hn, h] at hshown
      cases hshown
    · exact hfile

theorem rename_pending (h : g.tombstone path) {known : List String} (wf : FileFaults)
    (wd : DirectoryFaults) (new : String) (hstaged : g.dirtyStagedChildren known path = []) :
    ∃ e, (rename known wf wd path new g).result = .error e ∧
    (rename known wf wd path new g).final = g := by
  unfold rename
  split
  · exact ⟨_, rfl, rfl⟩
  dsimp only [Program.read]
  split
  · exact ⟨_, rfl, rfl⟩
  split
  · exact ⟨_, rfl, rfl⟩
  split
  · next hbelow => exact absurd hbelow (by simp [hstaged])
  -- nothing staged is left to move, and the source has a pending delete
  exact ⟨_, rfl, rfl⟩

end Gateway

/-! ## The directory cannot be found -/

open Gateway in
/-- However `MkdirAll` made the directory and whatever was then created below it: while
the delete is pending no `Stat` reports it, no `ReadDir` of its parent lists it, and a
rename of it is refused. -/
theorem pending_delete_hides_directory (g : Gateway) (dir : List Name) (n : Name)
    (hdir : ∀ m ∈ dir, Plain m) (hn : Plain n) (hpend : g.tombstone (pathOf (dir ++ [n])) = true)
    (perm : UInt32) (now : Nat) (objects : String → Option Object) :
    (mkdirAll false perm now (pathOf (dir ++ [n])) g).result = .ok ⟨⟩ ∧
    (∀ known w, (g.remade (pathOf (dir ++ [n])) perm now objects).statInfo known w
    (pathOf (dir ++ [n])) = .error .notExist) ∧
    (∀ known w entries, (g.remade (pathOf (dir ++ [n])) perm now objects).readDir known w
    (pathOf dir) = .ok entries → ∀ e ∈ entries, e.name = n → e.isDir = false) ∧
    ∀ known wf wd new, (g.remade (pathOf (dir ++ [n])) perm now objects).dirtyStagedChildren known
    (pathOf (dir ++ [n])) = [] → ∃ e, (rename known wf wd (pathOf (dir ++ [n])) new
    (g.remade (pathOf (dir ++ [n])) perm now objects)).result = .error e := by
  have hleft : (g.remade (pathOf (dir ++ [n])) perm now objects).tombstone (pathOf (dir ++ [n])) := by
    rw [remade_tombstone, hpend]
  refine ⟨rfl, statInfo_pending hleft, ?_, ?_⟩
  · intro known w entries hread
    exact readDir_pending hdir hn hleft hread
  · intro known wf wd new hstaged
    obtain ⟨e, hresult, -⟩ := rename_pending hleft wf wd new hstaged
    exact ⟨e, hresult⟩

/-- The delete of `/a` is pending. -/
def deletePendingAt : Gateway := { Gateway.blank with tombstone := fun path => path == "/a" }

/-- `/a` is made a directory, with one file in it. -/
def directoryMade : Gateway :=
  deletePendingAt.remade "/a" 0o755 5 fun key => if key = "/a/b" then some ⟨[1], .default⟩ else none

theorem pathOf_a : pathOf ([] ++ [['a']]) = "/a" := by decide

/-- The root shows nothing, and nothing is found at `/a`. -/
theorem made_directory_hidden : directoryMade.statInfo [] {} "/a" = .error .notExist ∧
    ∀ w entries, directoryMade.readDir ["/a/", "/a/b"] w "/" = .ok entries →
    ∀ e ∈ entries, e.name = ['a'] → e.isDir = false := by
  have ha : Plain ['a'] := ⟨by decide, by decide, by decide, by decide⟩
  have hpend : deletePendingAt.tombstone (pathOf ([] ++ [['a']])) := by rw [pathOf_a]; rfl
  have hall := pending_delete_hides_directory deletePendingAt [] ['a'] (by simp) ha hpend 0o755 5
    fun key => if key = "/a/b" then some ⟨[1], .default⟩ else none
  rw [pathOf_a] at hall
  exact ⟨hall.2.1 [] {}, fun w entries => hall.2.2.1 _ w entries⟩

/-- The bucket answers for the marker. -/
def foundInBucket : CallFaults := { stat := some .directory }

/-- `MkdirAll` succeeded, and the directory and its file are in the bucket; no call finds
it before the delete completes, and every call does afterwards. -/
theorem made_directory_not_found : (mkdirAll false 0o755 5 "/a" deletePendingAt).result = .ok ⟨⟩ ∧
    (directoryMade.object "/a/").isSome = true ∧ (directoryMade.object "/a/b").isSome = true ∧
    directoryMade.statInfo [] foundInBucket "/a" = .error .notExist ∧
    (directoryMade.readDir ["/a/", "/a/b"] {} "/").map (·.map (·.name)) = .ok [] ∧
    ((deletePending {} "/a" directoryMade).final.statInfo [] foundInBucket "/a").map
    (·.isDir) = .ok true ∧
    ((deletePending {} "/a" directoryMade).final.readDir ["/a/", "/a/b"] {} "/").map
    (·.map (·.name)) = .ok [['a']] := by
  refine ⟨rfl, ?_, ?_, ?_, ?_, ?_, ?_⟩ <;> decide +kernel

end Bluestone
