/-
# `Bluestone.Vfs.DirTimes` — a directory's time follows its entries

`dirTimes` of `internal/vfs/dirtimes.go`, the namespace changes of `changes.go` that it is
told of, and the time `withDirTime` reports.  Nothing in the bucket changes when entries of
a directory come and go, so the gateway records a time itself, and the later of the recorded
and the stored one is reported.

A change gives the recorded time of one directory a value that none had before.  It is not
seen under a stored time ahead of the clock, and only the parent of the named path is told,
not the directory above a parent that comes into being or vanishes with the entry.

A directory is followed through the renames of the directories above it.  Files that are
only staged count as objects here.  Times are nanoseconds.
-/
import Mathlib.Data.List.AList
import Mathlib.Data.List.GetD
import Mathlib.Data.List.Sort

namespace Bluestone.Changes

open List (mem_dlookup_iff mem_cons mem_singleton prefix_append append_assoc mem_cons_self)

/-- The names of a rooted path, as `cleanKey` spells it. -/
abbrev Path := List String

/-- `path.Dir`. -/
def parent (p : Path) : Path := p.dropLast

/-! ## Recorded times -/

def maxTrackedDirs : Nat := 100000

abbrev Dirs := AList fun _ : Path => Int

/-- `evictOldestLocked`. -/
def evictOldest (dirs : Dirs) : Dirs :=
  let times := (dirs.entries.map Sigma.snd).mergeSort
  let cutoff := times.getD (times.length / 10) 0
  ⟨dirs.entries.filter fun e => decide (cutoff < e.2), dirs.nodupKeys.sublist List.filter_sublist⟩

/-- `dirTimes`.  No recorded time is later than the last one given. -/
structure DirTimes where
  last : Int
  dirs : Dirs
  recorded : ∀ p t, dirs.lookup p = some t → t ≤ last

theorem lookup_evictOldest {dirs : Dirs} {p : Path} {t : Int}
    (h : (evictOldest dirs).lookup p = some t) : dirs.lookup p = some t := by
  have hmem := mem_dlookup_iff (evictOldest dirs).nodupKeys |>.1 h
  exact mem_dlookup_iff dirs.nodupKeys |>.2 (List.mem_of_mem_filter hmem)

theorem lookup_insert_cases {dirs : Dirs} {p q : Path} {now t : Int}
    (h : (dirs.insert p now).lookup q = some t) : (q = p ∧ t = now) ∨ dirs.lookup q = some t := by
  by_cases hq : q = p
  · subst hq
    rw [AList.lookup_insert] at h
    exact .inl ⟨rfl, (Option.some.inj h).symm⟩
  · rw [AList.lookup_insert_ne hq] at h
    exact .inr h

namespace DirTimes

/-- The time of a change: the clock's, unless that is not after the last one given. -/
def next (d : DirTimes) (now : Int) : Int := if d.last < now then now else d.last + 1

theorem last_lt_next {d : DirTimes} {now : Int} : d.last < d.next now := by
  rw [next]
  split <;> omega

theorem lt_next_iff {d : DirTimes} {now t : Int} : t < d.next now ↔ t < now ∨ t ≤ d.last := by
  rw [next]
  split <;> omega

def touch (d : DirTimes) (now : Int) (dir : Path) : DirTimes where
  last := d.next now
  dirs :=
    let dirs := d.dirs.insert dir (d.next now)
    if maxTrackedDirs < dirs.entries.length then evictOldest dirs else dirs
  recorded q t h := by
    have hinsert : (d.dirs.insert dir (d.next now)).lookup q = some t := by
      dsimp only at h
      split at h
      · exact lookup_evictOldest h
      · exact h
    obtain ⟨-, rfl⟩ | hold := lookup_insert_cases hinsert
    · exact Int.le_refl _
    · exact Int.le_of_lt (Int.lt_of_le_of_lt (d.recorded q t hold) last_lt_next)

def forget (d : DirTimes) (p : Path) : DirTimes where
  last := d.last
  dirs := d.dirs.erase p
  recorded q t h := by
    by_cases hq : q = p
    · subst hq
      rw [AList.lookup_erase] at h
      cases h
    · rw [AList.lookup_erase_ne hq] at h
      exact d.recorded q t h

def move (d : DirTimes) (oldPath newPath : Path) : DirTimes :=
  match h : d.dirs.lookup oldPath with
  | some t =>
    { last := d.last
      dirs := (d.dirs.erase oldPath).insert newPath t
      recorded := fun q t' hq => by
        obtain ⟨-, rfl⟩ | hold := lookup_insert_cases hq
        · exact d.recorded oldPath t' h
        · exact (d.forget oldPath).recorded q t' hold }
  | none => d

/-- `modTime`. -/
def modTime (d : DirTimes) (dir : Path) : Option Int := d.dirs.lookup dir

end DirTimes

/-! ## Changes -/

/-- `Change`, by its action.  Of a modification only whether it set times matters here. -/
inductive Change where
  | added (path : Path)
  | removed (path : Path)
  | renamed (oldPath path : Path)
  | modified (path : Path) (times : Bool)
  deriving DecidableEq, Repr

/-- What `time.Now` gives the first and the second touch of a change. -/
structure Clock where
  first : Int
  second : Int
  deriving DecidableEq, Repr

def DirTimes.record (d : DirTimes) (clock : Clock) : Change → DirTimes
  | .added p => d.touch clock.first (parent p)
  | .removed p => (d.forget p).touch clock.first (parent p)
  | .renamed old p => ((d.move old p).touch clock.first (parent old)).touch clock.second (parent p)
  | .modified p times => if times then d.forget p else d

/-- The directories an entry of which the change names. -/
def Change.parents : Change → List Path
  | .added p => [parent p]
  | .removed p => [parent p]
  | .renamed old p => [parent old, parent p]
  | .modified _ _ => []

/-- A time is before the clock at the touch of a directory, or not after the last one given
by then. -/
def DirTimes.Behind (d : DirTimes) (clock : Clock) : Change → Path → Int → Prop
  | .renamed _ path, p, t =>
    if p = parent path then t < clock.second ∨ t ≤ clock.first ∨ t ≤ d.last + 1
    else t < clock.first ∨ t ≤ d.last
  | _, _, t => t < clock.first ∨ t ≤ d.last

/-! ## The namespace -/

/-- A file, or the marker of a directory. -/
structure Object where
  path : Path
  marker : Bool
  deriving DecidableEq, Repr

structure Tree where
  objects : List Object
  /-- The time the bucket gives for a directory. -/
  stored : Path → Int
  times : DirTimes

/-- What is done to the namespace.  `active` is whether anything subscribes to the changes;
`restored` is the bucket giving other times than before. -/
inductive Op where
  | create (path : Path)
  | mkdirAll (path : Path) (active : Bool) (mtime : Int)
  | remove (path : Path)
  | rename (oldPath newPath : Path)
  | restored (stored : Path → Int)

/-- A path strictly below another. -/
def below (p q : Path) : Bool := p.isPrefixOf q && p != q

namespace Tree

variable (s : Tree)

def isFile (p : Path) : Bool := s.objects.contains ⟨p, false⟩

/-- A directory has a marker, or something below it. -/
def isDir (p : Path) : Bool := p.isEmpty || s.objects.any fun o => o == ⟨p, true⟩ || below p o.path

/-- `existsPath`. -/
def existsPath (p : Path) : Bool := s.isFile p || s.isDir p

/-- Whether a directory has an entry of the name. -/
def entry (p : Path) (name : String) : Bool := s.objects.any fun o => (p ++ [name]).isPrefixOf o.path

/-- A path after the rename of a directory. -/
def renamed (old new p : Path) : Path := if old.isPrefixOf p then new ++ p.drop old.length else p

/-- What is in the bucket and in staging after an operation. -/
def objectsAfter : Op → List Object
  | .create p => ⟨p, false⟩ :: s.objects
  | .mkdirAll p _ _ => ⟨p, true⟩ :: s.objects
  | .remove p => s.objects.filter fun o => o != ⟨p, !s.isFile p⟩
  | .rename old new =>
    if s.isFile old then ⟨new, false⟩ :: s.objects.filter fun o => o != ⟨old, false⟩
    else s.objects.map fun o => ⟨renamed old new o.path, o.marker⟩
  | .restored _ => s.objects

/-- A directory's stored time goes with it. -/
def storedAfter : Op → Path → Int
  | .mkdirAll p _ mtime => Function.update s.stored p mtime
  | .rename old new => if s.isFile old then s.stored else fun p => s.stored (renamed new old p)
  | .restored stored => stored
  | .create _ | .remove _ => s.stored

/-- The change that `Remove`, `Rename`, `MkdirAll` and `OpenFile` publish. -/
def published : Op → Option Change
  | .create p => some (.added p)
  | .mkdirAll p active _ => if active && s.existsPath p then none else some (.added p)
  | .remove p => some (.removed p)
  | .rename old new => some (.renamed old new)
  | .restored _ => none

def apply (op : Op) (clock : Clock) : Tree where
  objects := s.objectsAfter op
  stored := s.storedAfter op
  times := (s.published op).elim s.times (s.times.record clock)

/-- Whether the operation is carried out: a file is created where nothing is, a directory
removed only if empty, and renamed to a path where nothing is. -/
def accepts : Op → Bool
  | .create p => !s.existsPath p
  | .mkdirAll p _ _ => !p.isEmpty
  | .remove p => s.isFile p || !s.objects.any fun o => below p o.path
  | .rename old new => s.existsPath old && (s.isFile old || old == new || !s.existsPath new)
  | .restored _ => true

/-- The parent of a path is a directory without what is there. -/
def outlives (p : Path) : Bool := (parent p).isEmpty || s.objects.any fun o =>
  !p.isPrefixOf o.path && (o == ⟨parent p, true⟩ || below (parent p) o.path)

/-- The parents of an operation's paths are directories before and after it. -/
def parentsKept : Op → Bool
  | .create p => s.isDir (parent p)
  | .mkdirAll p _ _ => s.isDir (parent p)
  | .remove p => s.outlives p
  | .rename old new => s.isDir (parent new) && (s.outlives old || (parent old).isPrefixOf (parent new))
  | .restored _ => true

/-- `withDirTime`: the time reported for a directory. -/
def withDirTime (p : Path) : Int :=
  match s.times.modTime p with
  | some t => if s.stored p < t then t else s.stored p
  | none => s.stored p

/-- Where the directory at a path is after an operation. -/
def follow : Op → Path → Path
  | .rename old new, p => if s.isFile old then p else renamed old new p
  | _, p => p

end Tree

/-! ## What a touch leaves recorded -/

theorem length_le_countP_of_le_cutoff {times : List Int} {t : Int} {i : Nat} (hi : i < times.length)
    (ht : t ≤ times.mergeSort.getD i 0) : times.length - i ≤ times.countP (fun u => decide (t ≤ u)) := by
  have hperm := List.mergeSort_perm times (fun a b => decide (a ≤ b))
  have hsorted : times.mergeSort.Pairwise (fun a b => decide (a ≤ b)) :=
    List.pairwise_mergeSort (by simpa using fun a b c => Int.le_trans) (by simpa using Int.le_total) times
  rw [← hperm.countP_eq, ← hperm.length_eq]
  rw [← hperm.length_eq] at hi
  generalize times.mergeSort = sorted at *
  have hall : ∀ u ∈ sorted.drop i, decide (t ≤ u) := by
    rw [List.getD_eq_getElem _ _ hi] at ht
    have hrest := hsorted.drop (i := i)
    rw [List.drop_eq_getElem_cons hi, List.pairwise_cons] at hrest
    rw [List.drop_eq_getElem_cons hi]
    intro u hu
    refine decide_eq_true ?_
    obtain rfl | hu := mem_cons.1 hu
    · exact ht
    · exact Int.le_trans ht (of_decide_eq_true (hrest.1 u hu))
  rw [← List.length_drop, ← List.countP_eq_length.2 hall]
  exact (List.drop_sublist i sorted).countP_le

theorem lookup_evictOldest_of_newest {dirs : Dirs} {p a b : Path} {t : Int} (h : dirs.lookup p = some t)
    (hsize : maxTrackedDirs < dirs.entries.length) (hnewest : ∀ q u, dirs.lookup q = some u → t ≤ u →
    q = a ∨ q = b) : (evictOldest dirs).lookup p = some t := by
  have hcount : dirs.entries.countP (fun e => decide (t ≤ e.2)) ≤ 2 := by
    have hnodup : ((dirs.entries.filter fun e => decide (t ≤ e.2)).map Sigma.fst).Nodup :=
      dirs.nodupKeys.sublist List.filter_sublist
    have hsub : (dirs.entries.filter fun e => decide (t ≤ e.2)).map Sigma.fst ⊆ [a, b] := by
      intro q hq
      obtain ⟨e, he, rfl⟩ := List.mem_map.1 hq
      obtain ⟨hmem, hle⟩ := List.mem_filter.1 he
      simpa using hnewest e.1 e.2 (mem_dlookup_iff dirs.nodupKeys |>.2 hmem) (of_decide_eq_true hle)
    have hlen := (List.subperm_of_subset hnodup hsub).length_le
    rwa [List.length_map, ← List.countP_eq_length_filter] at hlen
  refine mem_dlookup_iff (evictOldest dirs).nodupKeys |>.2 (List.mem_filter.2 ⟨?_, ?_⟩)
  · exact mem_dlookup_iff dirs.nodupKeys |>.1 h
  · refine decide_eq_true (Int.not_le.1 fun hle => ?_)
    rw [List.length_mergeSort] at hle
    have hmany := length_le_countP_of_le_cutoff (by simp; omega) hle
    rw [List.countP_map, List.length_map] at hmany
    rw [maxTrackedDirs] at hsize
    have hfew : dirs.entries.length - dirs.entries.length / 10 ≤ 2 := Nat.le_trans hmany hcount
    omega

namespace DirTimes

variable {d : DirTimes} {now t : Int} {p q : Path}

theorem modTime_touch_cases (h : (d.touch now p).modTime q = some t) :
    (q = p ∧ t = d.next now) ∨ d.modTime q = some t := by
  refine lookup_insert_cases ?_
  rw [modTime, touch] at h
  dsimp only at h
  split at h
  · exact lookup_evictOldest h
  · exact h

theorem eq_of_next_le (h : (d.touch now p).modTime q = some t) (ht : d.next now ≤ t) : q = p := by
  obtain ⟨hq, -⟩ | hold := modTime_touch_cases h
  · exact hq
  · exact absurd (Int.lt_of_le_of_lt (d.recorded q t hold) last_lt_next) (Int.not_lt.2 ht)

theorem modTime_touch_of_newest {a : Path} (h : (d.dirs.insert p (d.next now)).lookup q = some t)
    (hnewest : ∀ r u, d.modTime r = some u → t ≤ u → r = a) : (d.touch now p).modTime q = some t := by
  rw [modTime, touch]
  dsimp only
  split
  next hsize =>
    refine lookup_evictOldest_of_newest (a := p) (b := a) h hsize fun r u hr hu => ?_
    obtain ⟨hr, -⟩ | hold := lookup_insert_cases hr
    · exact .inl hr
    · exact .inr (hnewest r u hold hu)
  next => exact h

theorem modTime_touch : (d.touch now p).modTime p = some (d.next now) := by
  refine modTime_touch_of_newest (a := p) (AList.lookup_insert _) fun r u hr hu => ?_
  exact absurd (Int.lt_of_le_of_lt (d.recorded r u hr) last_lt_next) (Int.not_lt.2 hu)

theorem modTime_touch_touch {first second : Int} (hq : q ≠ p) :
    ((d.touch first q).touch second p).modTime q = some (d.next first) := by
  refine modTime_touch_of_newest (a := q) ?_ fun r u hr hu => eq_of_next_le hr hu
  rw [AList.lookup_insert_ne hq]
  exact modTime_touch

theorem move_last {oldPath newPath : Path} : (d.move oldPath newPath).last = d.last := by
  rw [move]
  split <;> rfl

theorem last_lt_touch : d.last < (d.touch now p).last := last_lt_next

theorem last_le_record {clock : Clock} {c : Change} : d.last ≤ (d.record clock c).last := by
  cases c with
  | added path => exact Int.le_of_lt last_lt_touch
  | removed path =>
    exact Int.le_of_lt (last_lt_touch (d := d.forget path) (p := parent path))
  | renamed oldPath path =>
    rw [record, ← @move_last d oldPath path]
    exact Int.le_of_lt (Int.lt_trans last_lt_touch last_lt_touch)
  | modified path times =>
    rw [record]
    split <;> exact Int.le_refl _

/-- A directory an entry of which a change names is recorded with a time that is new, and
that is after exactly the times behind the clock. -/
theorem exists_modTime_record {clock : Clock} {c : Change} (h : p ∈ c.parents) :
    ∃ t, (d.record clock c).modTime p = some t ∧ d.last < t ∧ ∀ u, u < t ↔ d.Behind clock c p u := by
  cases c with
  | added path =>
    obtain rfl := mem_singleton.1 h
    exact ⟨_, modTime_touch, last_lt_next, fun _ => lt_next_iff⟩
  | removed path =>
    obtain rfl := mem_singleton.1 h
    exact ⟨_, modTime_touch, last_lt_next (d := d.forget path), fun _ => lt_next_iff⟩
  | renamed oldPath path =>
    have hlast := @move_last d oldPath path
    by_cases hp : p = parent path
    · subst hp
      refine ⟨_, modTime_touch, hlast ▸ Int.lt_trans last_lt_touch last_lt_next, fun u => ?_⟩
      have hfirst : ((d.move oldPath path).touch clock.first (parent oldPath)).last =
          (d.move oldPath path).next clock.first := rfl
      rw [lt_next_iff, Behind, if_pos rfl, hfirst, next, hlast]
      split <;> omega
    · obtain rfl : p = parent oldPath := by simpa [Change.parents, hp] using h
      refine ⟨_, modTime_touch_touch hp, hlast ▸ last_lt_next, fun u => ?_⟩
      rw [lt_next_iff, Behind, if_neg hp, hlast]
  | modified path times => cases h

end DirTimes

/-! ## The directories an operation changes -/

theorem prefix_parent {p q : Path} {name : String} (h : p ++ [name] <+: q) :
    (p = parent q ∧ p ++ [name] = q) ∨ p ++ [name] <+: parent q := by
  obtain ⟨rest, rfl⟩ := h
  by_cases hrest : rest = []
  · subst hrest
    exact .inl ⟨by simp [parent], List.append_nil _ |>.symm⟩
  · refine .inr ?_
    rw [parent, List.dropLast_append_of_ne_nil hrest]
    exact prefix_append ..

theorem parent_under (p : Path) : parent p <+: p := List.dropLast_prefix p

theorem below_iff {p q : Path} : below p q ↔ p <+: q ∧ p ≠ q := by
  rw [below, Bool.and_eq_true, List.isPrefixOf_iff_prefix, bne_iff_ne]

namespace Tree

variable {s : Tree} {p q : Path} {name : String} {op : Op} {clock : Clock}

theorem entry_iff : s.entry p name ↔ ∃ o ∈ s.objects, p ++ [name] <+: o.path := by
  simp [entry]

theorem isDir_iff : s.isDir p ↔
    p = [] ∨ ∃ o ∈ s.objects, o = ⟨p, true⟩ ∨ (p <+: o.path ∧ p ≠ o.path) := by
  simp [isDir, below_iff]

theorem entry_of_isDir (h : s.isDir q) (hp : p ++ [name] <+: q) : s.entry p name := by
  rw [isDir_iff] at h
  obtain rfl | ⟨o, ho, rfl | ⟨hbelow, -⟩⟩ := h
  · simp at hp
  · exact entry_iff.2 ⟨_, ho, hp⟩
  · exact entry_iff.2 ⟨o, ho, hp.trans hbelow⟩

theorem entry_of_existsPath (h : s.existsPath q) (hp : p ++ [name] <+: q) :
    s.entry p name := by
  rw [existsPath, Bool.or_eq_true] at h
  obtain hfile | hdir := h
  · exact entry_iff.2 ⟨⟨q, false⟩, by simpa [isFile] using hfile, hp⟩
  · exact entry_of_isDir hdir hp

theorem exists_of_outlives (h : s.outlives q) (hp : p ++ [name] <+: parent q) :
    ∃ o ∈ s.objects, p ++ [name] <+: o.path ∧ ¬ q <+: o.path := by
  simp only [outlives, Bool.or_eq_true, List.isEmpty_iff, List.any_eq_true, Bool.and_eq_true,
    Bool.not_eq_true', beq_iff_eq, below_iff] at h
  obtain hroot | ⟨o, ho, hout, rfl | ⟨hbelow, -⟩⟩ := h
  · simp [hroot] at hp
  · exact ⟨_, ho, hp, List.isPrefixOf_iff_prefix.not.1 (by simp [hout])⟩
  · exact ⟨o, ho, hp.trans hbelow, List.isPrefixOf_iff_prefix.not.1 (by simp [hout])⟩

/-- An entry on the way to a path is new only in the path's parent, if that is a directory. -/
theorem eq_parent_of_gained (hkept : s.isDir (parent q)) (hp : p ++ [name] <+: q)
    (hnew : s.entry p name = false) : p = parent q := by
  obtain ⟨hp, -⟩ | hp := prefix_parent hp
  · exact hp
  · rw [entry_of_isDir hkept hp] at hnew
    cases hnew

variable {o : Object} {old new : Path}

/-- An object that is taken away takes an entry from the parent of its path only, if that
outlives it or has something else below it afterwards. -/
theorem eq_parent_of_taken {marker : Bool} {after : List Object}
    (hkept : s.outlives q ∨ ∃ other ∈ after, parent q <+: other.path)
    (hstay : ∀ o ∈ s.objects.filter fun o => o != ⟨q, marker⟩, o ∈ after) (ho : o ∈ s.objects)
    (hpath : p ++ [name] <+: o.path) (hgone : ∀ o ∈ after, ¬ p ++ [name] <+: o.path) : p = parent q := by
  have hstay' : ∀ o ∈ s.objects, o ≠ ⟨q, marker⟩ → o ∈ after :=
    fun o ho hne => hstay o (List.mem_filter.2 ⟨ho, bne_iff_ne.2 hne⟩)
  obtain rfl : o = ⟨q, marker⟩ := by
    by_contra hne
    exact hgone o (hstay' o ho hne) hpath
  obtain ⟨hp, -⟩ | hp := prefix_parent hpath
  · exact hp
  · exfalso
    obtain houtlives | ⟨other, hother, hunder⟩ := hkept
    · obtain ⟨other, hother, hpath', hout⟩ := exists_of_outlives houtlives hp
      refine hgone other (hstay' other hother ?_) hpath'
      rintro rfl
      exact hout (List.prefix_refl q)
    · exact hgone other hother (hp.trans hunder)

theorem renamed_append (rest : Path) : renamed old new (old ++ rest) = new ++ rest := by
  rw [renamed, if_pos (List.isPrefixOf_iff_prefix.2 (prefix_append ..)), List.drop_left]

theorem renamed_of_not (h : ¬ old <+: p) : renamed old new p = p := by
  rw [renamed, if_neg (mt List.isPrefixOf_iff_prefix.1 h)]

theorem existsPath_of_under (ho : o ∈ s.objects) (h : q <+: o.path) : s.existsPath q := by
  rw [existsPath, Bool.or_eq_true, isDir_iff]
  by_cases hq : q = o.path
  · subst hq
    cases hmarker : o.marker with
    | true => exact .inr (.inr ⟨o, ho, .inl (by rw [← hmarker])⟩)
    | false =>
      refine .inl ?_
      have hfile : o = ⟨o.path, false⟩ := by rw [← hmarker]
      rw [isFile, List.contains_iff_mem, ← hfile]
      exact ho
  · exact .inr (.inr ⟨o, ho, .inr ⟨h, hq⟩⟩)

theorem prefix_of_target (haccepts : s.accepts (.rename old new))
    (hdir : s.isFile old = false) (h : s.existsPath new) : old = new := by
  have hsame : s.existsPath old ∧ old = new := by simpa [accepts, hdir, h] using haccepts
  exact hsame.2

theorem existsPath_of_isDir (hdir : s.isDir p) (h : q <+: p) : s.existsPath q := by
  obtain rfl | ⟨o, ho, rfl | ⟨hbelow, -⟩⟩ := isDir_iff.1 hdir
  · obtain rfl : q = [] := List.prefix_nil.1 h
    rw [existsPath, isDir_iff.2 (.inl rfl), Bool.or_true]
  · exact existsPath_of_under ho h
  · exact existsPath_of_under ho (h.trans hbelow)

theorem eq_parent_of_gained_renamed
    (haccepts : s.accepts (.rename old new)) (hfile : s.isFile old = false)
    (hkept : s.isDir (parent new)) (hdir : s.isDir p) (hold : s.entry p name = false)
    (ho : o ∈ s.objects) (hpath : renamed old new p ++ [name] <+: renamed old new o.path) :
    renamed old new p = parent new := by
  have hbefore : ¬ p ++ [name] <+: o.path := fun hp => by simp [entry_iff.2 ⟨o, ho, hp⟩] at hold
  by_cases hp : old <+: p
  · -- below the directory all that is there was there
    obtain ⟨rest, rfl⟩ := hp
    rw [renamed_append, append_assoc] at hpath
    by_cases hmoved : old <+: o.path
    · obtain ⟨tail, htail⟩ := hmoved
      rw [← htail, renamed_append, List.prefix_append_right_inj] at hpath
      rw [← htail, append_assoc, List.prefix_append_right_inj] at hbefore
      exact absurd hpath hbefore
    · rw [renamed_of_not hmoved] at hpath
      have hnew : new <+: o.path := (prefix_append ..).trans hpath
      obtain rfl := prefix_of_target haccepts hfile (existsPath_of_under ho hnew)
      exact absurd hnew hmoved
  · rw [renamed_of_not hp] at hpath ⊢
    by_cases hmoved : old <+: o.path
    · obtain ⟨tail, htail⟩ := hmoved
      rw [← htail, renamed_append] at hpath
      obtain hle | hle := List.prefix_or_prefix_of_prefix hpath (prefix_append new tail)
      · exact eq_parent_of_gained hkept hle hold
      · obtain rfl | hle := List.prefix_concat_iff.1 hle
        · exact eq_parent_of_gained hkept (List.prefix_refl _) hold
        · obtain rfl := prefix_of_target haccepts hfile (existsPath_of_isDir hdir hle)
          exact absurd hle hp
    · rw [renamed_of_not hmoved] at hpath
      exact absurd hpath hbefore

theorem eq_parent_of_lost_renamed
    (hkept : s.outlives old ∨ parent old <+: parent new) (hold : s.entry p name)
    (hgone : ∀ o ∈ s.objects, ¬ renamed old new p ++ [name] <+: renamed old new o.path) :
    renamed old new p = parent old := by
  obtain ⟨o, ho, hpath⟩ := entry_iff.1 hold
  by_cases hp : old <+: p
  · obtain ⟨rest, rfl⟩ := hp
    obtain ⟨tail, htail⟩ := hpath
    refine absurd ?_ (hgone o ho)
    rw [← htail, append_assoc, append_assoc, renamed_append, renamed_append, append_assoc]
    exact (List.prefix_append_right_inj new).2 (by rw [← append_assoc]; exact prefix_append ..)
  · rw [renamed_of_not hp] at hgone ⊢
    have hmoved : old <+: o.path := by
      by_contra hout
      exact hgone o ho (by rwa [renamed_of_not hout])
    obtain hle | hle := List.prefix_or_prefix_of_prefix hpath hmoved
    · obtain ⟨hparent, -⟩ | hle := prefix_parent hle
      · exact hparent
      · exfalso
        obtain houtlives | hunder := hkept
        · obtain ⟨o', ho', hpath', hout⟩ := exists_of_outlives houtlives hle
          exact hgone o' ho' (by rwa [renamed_of_not hout])
        · obtain ⟨tail, htail⟩ := hmoved
          refine hgone o ho ?_
          rw [← htail, renamed_append]
          exact ((hle.trans hunder).trans (parent_under new)).trans (prefix_append ..)
    · obtain rfl | hle := List.prefix_concat_iff.1 hle
      · simp [parent]
      · exact absurd hle hp

theorem mem_parents_of_gained (haccepts : s.accepts op) (hkept : s.parentsKept op)
    (hdir : s.isDir p) (hold : s.entry p name = false)
    (hnew : (s.apply op clock).entry (s.follow op p) name) :
    ∃ c, s.published op = some c ∧ s.follow op p ∈ c.parents := by
  obtain ⟨o, ho, hpath⟩ : ∃ o ∈ s.objectsAfter op, s.follow op p ++ [name] <+: o.path := entry_iff.1 hnew
  have hbefore : ∀ o ∈ s.objects, ¬ p ++ [name] <+: o.path := by
    intro o ho hpath
    rw [entry_iff.2 ⟨o, ho, hpath⟩] at hold
    cases hold
  cases op with
  | create q =>
    obtain rfl | ho := mem_cons.1 ho
    · exact ⟨_, rfl, mem_singleton.2 (eq_parent_of_gained hkept hpath hold)⟩
    · exact absurd hpath (hbefore o ho)
  | mkdirAll q active mtime =>
    obtain rfl | ho := mem_cons.1 ho
    · refine ⟨.added q, if_neg fun hquiet => ?_, mem_singleton.2 (eq_parent_of_gained hkept hpath hold)⟩
      have hthere := entry_of_existsPath (p := p) (Bool.and_eq_true_iff.1 hquiet).2 hpath
      exact absurd hthere (by simp [hold])
    · exact absurd hpath (hbefore o ho)
  | remove q => exact absurd hpath (hbefore o (List.mem_of_mem_filter ho))
  | rename old new =>
    have hkept' : s.isDir (parent new) := (Bool.and_eq_true_iff.1 hkept).1
    suffices hparent : s.follow (.rename old new) p = parent new from
      ⟨_, rfl, hparent ▸ List.mem_cons_of_mem _ mem_cons_self⟩
    cases hfile : s.isFile old with
    | true =>
      rw [objectsAfter, if_pos hfile] at ho
      rw [follow, if_pos hfile] at hpath ⊢
      obtain rfl | ho := mem_cons.1 ho
      · exact eq_parent_of_gained hkept' hpath hold
      · exact absurd hpath (hbefore o (List.mem_of_mem_filter ho))
    | false =>
      rw [objectsAfter, if_neg (by simp [hfile])] at ho
      rw [follow, if_neg (by simp [hfile])] at hpath ⊢
      obtain ⟨source, hsource, rfl⟩ := List.mem_map.1 ho
      exact eq_parent_of_gained_renamed haccepts hfile hkept' hdir hold hsource hpath
  | restored stored => exact absurd hpath (hbefore o ho)

theorem mem_parents_of_lost (hkept : s.parentsKept op) (hold : s.entry p name)
    (hnew : (s.apply op clock).entry (s.follow op p) name = false) :
    ∃ c, s.published op = some c ∧ s.follow op p ∈ c.parents := by
  obtain ⟨o, ho, hpath⟩ := entry_iff.1 hold
  have hafter : ∀ o ∈ s.objectsAfter op, ¬ s.follow op p ++ [name] <+: o.path := by
    intro o ho hpath
    have hthere : (s.apply op clock).entry (s.follow op p) name := entry_iff.2 ⟨o, ho, hpath⟩
    simp [hthere] at hnew
  cases op with
  | create q | mkdirAll q active mtime => exact absurd hpath (hafter o (List.mem_cons_of_mem _ ho))
  | remove q =>
    exact ⟨_, rfl, mem_singleton.2 (eq_parent_of_taken (.inl hkept) (fun _ => id) ho hpath hafter)⟩
  | rename old new =>
    have hkept' : s.outlives old ∨ parent old <+: parent new := by
      simpa using (Bool.and_eq_true_iff.1 hkept).2
    suffices hparent : s.follow (.rename old new) p = parent old from
      ⟨_, rfl, hparent ▸ mem_cons_self ..⟩
    cases hfile : s.isFile old with
    | true =>
      rw [objectsAfter, if_pos hfile] at hafter
      rw [follow, if_pos hfile] at hafter ⊢
      refine eq_parent_of_taken (hkept'.imp_right fun hunder => ?_)
        (fun _ => List.mem_cons_of_mem _) ho hpath hafter
      exact ⟨_, mem_cons_self .., hunder.trans (parent_under new)⟩
    | false =>
      rw [objectsAfter, if_neg (by simp [hfile])] at hafter
      rw [follow, if_neg (by simp [hfile])] at hafter ⊢
      exact eq_parent_of_lost_renamed hkept' hold fun o ho => hafter _ (List.mem_map_of_mem ho)
  | restored stored => exact absurd hpath (hafter o ho)

/-! ## Reported times -/

/-- The operation names an entry of the directory, or the directory gains or loses one. -/
def Alters (s : Tree) (op : Op) (clock : Clock) (p : Path) : Prop :=
  (∃ c, s.published op = some c ∧ s.follow op p ∈ c.parents) ∨
    ∃ name, s.entry p name ≠ (s.apply op clock).entry (s.follow op p) name

theorem exists_parents_of_alters (haccepts : s.accepts op) (hkept : s.parentsKept op)
    (hdir : s.isDir p) (h : s.Alters op clock p) :
    ∃ c, s.published op = some c ∧ s.follow op p ∈ c.parents := by
  obtain h | ⟨name, hname⟩ := h
  · exact h
  · cases hold : s.entry p name with
    | false => exact mem_parents_of_gained haccepts hkept hdir hold (by simpa [hold] using hname)
    | true => exact mem_parents_of_lost hkept hold (by simpa [hold] using hname)

theorem stored_follow {c : Change} (haccepts : s.accepts op) (hdir : s.isDir p)
    (hc : s.published op = some c) (hp : s.follow op p ∈ c.parents) :
    (s.apply op clock).stored (s.follow op p) = s.stored p := by
  cases op with
  | create q | remove q => rfl
  | mkdirAll q active mtime =>
    have hne : p ≠ q := by
      rw [published] at hc
      split at hc
      · cases hc
      · cases hc
        obtain rfl : p = parent q := mem_singleton.1 hp
        intro heq
        have hlen := congrArg List.length heq
        have hpos : q ≠ [] := by simpa [accepts] using haccepts
        rw [parent, List.length_dropLast] at hlen
        exact absurd (List.length_pos_iff.2 hpos) (by omega)
    exact Function.update_of_ne hne ..
  | rename old new =>
    show s.storedAfter (.rename old new) _ = _
    rw [storedAfter, follow]
    split
    · rfl
    next hfile =>
      by_cases hold : old <+: p
      · obtain ⟨rest, rfl⟩ := hold
        rw [renamed_append]
        exact congrArg s.stored (renamed_append rest)
      · rw [renamed_of_not hold]
        refine congrArg s.stored (renamed_of_not fun hnew => ?_)
        obtain rfl := prefix_of_target haccepts (by simpa using hfile) (existsPath_of_isDir hdir hnew)
        exact hold hnew
  | restored stored => cases hc

theorem stored_le_withDirTime : s.stored p ≤ s.withDirTime p := by
  rw [withDirTime]
  split
  · split <;> omega
  · exact Int.le_refl _

/-- A time that was not given yet is after the reported one if it is after the stored one. -/
theorem withDirTime_lt_iff {t : Int} (h : s.times.last < t) : s.withDirTime p < t ↔ s.stored p < t := by
  refine ⟨Int.lt_of_le_of_lt stored_le_withDirTime, fun hstored => ?_⟩
  rw [withDirTime]
  split
  next u hu =>
    have hle := s.times.recorded p u hu
    split <;> omega
  next => exact hstored

/-- The tree after some steps. -/
def run (s : Tree) (steps : List (Op × Clock)) : Tree :=
  steps.foldl (fun s step => s.apply step.1 step.2) s

/-- The directory at one path is at another after some steps, and a directory all along. -/
def reaches (s : Tree) (q : Path) : List (Op × Clock) → Path → Prop
  | [], p => s.isDir q = true ∧ q = p
  | step :: rest, p => s.isDir q = true ∧ (s.apply step.1 step.2).reaches (s.follow step.1 q) rest p

theorem last_le_apply : s.times.last ≤ (s.apply op clock).times.last := by
  show _ ≤ ((s.published op).elim s.times (s.times.record clock)).last
  cases s.published op with
  | none => exact Int.le_refl _
  | some c => exact DirTimes.last_le_record

theorem last_le_run (steps : List (Op × Clock)) : s.times.last ≤ (s.run steps).times.last := by
  induction steps generalizing s with
  | nil => exact Int.le_refl _
  | cons step steps ih => exact Int.le_trans last_le_apply ih

/-- A time is behind the clock at the change of a directory. -/
def Behind (s : Tree) (op : Op) (clock : Clock) (p : Path) (t : Int) : Prop :=
  (s.published op).elim False fun c => s.times.Behind clock c (s.follow op p) t

end Tree

/-- A directory that gains or loses an entry is reported with a time after all that were
reported for it if and only if none that was stored for it is ahead of the clock. -/
theorem changed_directory_has_new_time (start : Tree) (steps : List (Op × Clock)) (op : Op) (clock : Clock)
    (p : Path) (haccepts : (start.run steps).accepts op = true)
    (hkept : (start.run steps).parentsKept op = true) (hdir : (start.run steps).isDir p = true)
    (hchange : (start.run steps).Alters op clock p) : (∀ before after q, steps = before ++ after →
    (start.run before).reaches q after p → (start.run before).withDirTime q <
    ((start.run steps).apply op clock).withDirTime ((start.run steps).follow op p)) ↔
    ∀ before after q, steps = before ++ after → (start.run before).reaches q after p →
    (start.run steps).Behind op clock p ((start.run before).stored q) := by
  obtain ⟨c, hc, hp⟩ := Tree.exists_parents_of_alters haccepts hkept hdir hchange
  obtain ⟨t, ht, hlast, hbehind⟩ := DirTimes.exists_modTime_record (d := (start.run steps).times) hp
  have hreported : ((start.run steps).apply op clock).withDirTime ((start.run steps).follow op p) =
      if (start.run steps).stored p < t then t else (start.run steps).stored p := by
    have htimes : ((start.run steps).apply op clock).times = (start.run steps).times.record clock c := by
      rw [Tree.apply, hc]
      rfl
    rw [Tree.withDirTime, htimes, ht, Tree.stored_follow haccepts hdir hc hp]
  have hbehind' : ∀ u, (start.run steps).Behind op clock p u ↔ u < t := by
    intro u
    rw [Tree.Behind, hc]
    exact (hbehind u).symm
  -- the new time is after all that were given before
  have hearlier : ∀ {before after} q, steps = before ++ after →
      ((start.run before).withDirTime q < t ↔ (start.run before).stored q < t) := by
    rintro before after q rfl
    refine Tree.withDirTime_lt_iff (Int.lt_of_le_of_lt ?_ hlast)
    rw [Tree.run, Tree.run, List.foldl_append]
    exact Tree.last_le_run after
  have hnow : ∀ {P : Tree → Path → Prop}, (∀ before after q, steps = before ++ after →
      (start.run before).reaches q after p → P (start.run before) q) → P (start.run steps) p :=
    fun h => h steps [] p (List.append_nil steps).symm ⟨hdir, rfl⟩
  constructor
  · intro h
    have hself := hnow (P := fun s q => s.withDirTime q < _) h
    have hstored : (start.run steps).stored p < t := by
      rw [hreported] at hself
      by_contra hahead
      rw [if_neg hahead] at hself
      exact absurd Tree.stored_le_withDirTime (Int.not_le.2 hself)
    intro before after q hsteps hreach
    have hlt := h before after q hsteps hreach
    rw [hreported, if_pos hstored, hearlier q hsteps] at hlt
    exact (hbehind' _).2 hlt
  · intro h before after q hsteps hreach
    have hself := hnow (P := fun s q => (start.run steps).Behind op clock p (s.stored q)) h
    rw [hreported, if_pos ((hbehind' _).1 hself), hearlier q hsteps]
    exact (hbehind' _).1 (h before after q hsteps hreach)

/-- Two directories, one in the other, with one stored time; nothing is recorded yet. -/
def nested (stored : Int) : Tree where
  objects := [⟨["a"], true⟩, ⟨["a", "b"], true⟩]
  stored := fun _ => stored
  times := ⟨0, ∅, fun _ _ h => by cases h⟩

/-- A directory is moved with the one above it, and a file created in it. -/
theorem moved_directory_has_new_time : (nested 5).withDirTime ["a", "b"] <
    (((nested 5).run [(.rename ["a"] ["c"], ⟨10, 10⟩)]).apply (.create ["c", "b", "f"]) ⟨10, 10⟩).withDirTime
    ["c", "b"] := by
  refine (changed_directory_has_new_time (nested 5) [(.rename ["a"] ["c"], ⟨10, 10⟩)]
    (.create ["c", "b", "f"]) ⟨10, 10⟩ ["c", "b"] (by decide) (by decide) (by decide) ?_).2 ?_
    [] _ ["a", "b"] rfl ?_
  · exact .inl ⟨_, rfl, mem_cons_self ..⟩
  · intro before after q hsteps _
    have hstored : ((nested 5).run before).stored q = 5 := by
      obtain _ | ⟨step, _ | ⟨step', before⟩⟩ := before
      · rfl
      · cases hsteps
        rfl
      · cases hsteps
    rw [hstored]
    exact .inl (by decide)
  · exact ⟨by decide, by decide, by decide⟩

/-- A stored time ahead of the clock is reported before and after a file is created, and the
root's time does not change when a directory is created in it together with one below. -/
theorem new_entry_not_reported :
    ((nested 100).apply (.create ["a", "f"]) ⟨10, 10⟩).entry ["a"] "f" = true ∧
    (nested 100).entry ["a"] "f" = false ∧
    ((nested 100).apply (.create ["a", "f"]) ⟨10, 10⟩).withDirTime ["a"] = (nested 100).withDirTime ["a"] ∧
    ((nested 5).apply (.mkdirAll ["x", "y"] false 10) ⟨10, 10⟩).entry [] "x" = true ∧
    (nested 5).entry [] "x" = false ∧
    ((nested 5).apply (.mkdirAll ["x", "y"] false 10) ⟨10, 10⟩).withDirTime [] = (nested 5).withDirTime
    [] := by
  decide

end Bluestone.Changes
