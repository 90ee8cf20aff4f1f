/-
# `Bluestone.Posix.Listing` — a directory as the keys of the bucket have it

`ListDirectory` of `internal/posix/operations.go` asks for the keys below a directory, all
the way down, up to two more than the limit on its entries, and folds them to the names
that follow the directory's.  A subtree with many keys fills the window, and the children
behind it are missing from a listing that is not refused.

The store lists keys in order (`Bucket.sorted`), so the object of a child's own name comes
before everything below that child, and the first key of a name decides what the name is.
-/
import Bluestone.Library.Firsts
import Bluestone.Library.Keys
import Bluestone.Library.Words
import Mathlib.Data.List.Perm.Subperm

namespace Bluestone.Posix

open Paths Firsts Words

/-! ## The bucket -/

abbrev Key := List Char

/-- An object: `lastModified` is in nanoseconds, `storedMtime` the modification time a
client set, which only a HEAD request returns. -/
structure StoredObject where
  key : Key
  size : Nat
  lastModified : Nat
  storedMtime : Option Nat
  deriving DecidableEq, Repr

/-- The objects of a bucket, in the order the store lists them. -/
structure Bucket where
  objects : List StoredObject
  sorted : objects.Pairwise fun a b => a.key < b.key

namespace Bucket

/-- The inner loop of `ListObjects`: the objects of a page, until `maxKeys` are there. -/
def gather (maxKeys : Int) (objects : List StoredObject) : List StoredObject → List StoredObject × Bool
  | [] => (objects, false)
  | o :: page =>
    if 0 < maxKeys ∧ maxKeys ≤ (objects ++ [o]).length then (objects ++ [o], true)
    else gather maxKeys (objects ++ [o]) page

/-- The loop of `ListObjects` over pages; `rest` is what lies behind the continuation
token. -/
def listLoop (maxKeys : Int) : Nat → Nat → List StoredObject → List StoredObject → Option (List StoredObject)
  | 0, _, _, _ => none
  | fuel + 1, reqMaxKeys, objects, rest =>
    let read := gather maxKeys objects (rest.take reqMaxKeys)
    if read.2 then some read.1
    else if reqMaxKeys < rest.length then
      let rem := maxKeys - read.1.length
      listLoop maxKeys fuel (if 0 < maxKeys ∧ rem < reqMaxKeys then rem.toNat else reqMaxKeys) read.1
        (rest.drop reqMaxKeys)
    else some read.1

/-- What is listed under a prefix. -/
def under (b : Bucket) (pre : Key) : List StoredObject := b.objects.filter fun o => pre.isPrefixOf o.key

def listObjects (b : Bucket) (pre : Key) (maxKeys : Int) : List StoredObject :=
  let reqMaxKeys := if 0 < maxKeys ∧ maxKeys < 1000 then maxKeys.toNat else 1000
  (listLoop maxKeys ((b.under pre).length + 1) reqMaxKeys [] (b.under pre)).getD []

end Bucket

/-! ## Listings -/

/-- `ListPrefix` of the rooted path with the names `dir`. -/
def listPrefix (dir : List Name) : Key :=
  let dirPath := (render dir).drop 1
  if dirPath ≠ [] ∧ ¬ ['/'].isSuffixOf dirPath then dirPath ++ ['/'] else dirPath

def defaultMaxDirectoryEntries : Nat := 100000

def maxDirectoryEntries (configured : Int) : Nat :=
  if 0 < configured then configured.toNat else defaultMaxDirectoryEntries

/-- What a `Stat` left in the metadata cache. -/
structure CachedStat where
  isDir : Bool
  size : Nat
  modTime : Nat
  objectModTime : Nat
  deriving DecidableEq, Repr

def second : Nat := 10 ^ 9

/-- `cachedEntry`: what was cached for the path, if it still describes the listed object. -/
def cachedEntry (stats : List Name → Option CachedStat) (path : List Name) (o : StoredObject) (isDir : Bool) :
    Option CachedStat :=
  (stats path).filter fun c =>
    c.isDir = isDir ∧ (isDir ∨ c.size = o.size ∧ c.objectModTime / second = o.lastModified / second)

/-- An entry of a listing. -/
structure Entry where
  name : Name
  isDir : Bool
  size : Nat
  modTime : Nat
  objectModTime : Nat
  deriving DecidableEq, Repr

/-- The key without the prefix. -/
def relPath (pre key : Key) : Key := if pre.isPrefixOf key then key.drop pre.length else key

def parts (pre : Key) (o : StoredObject) : List Name := (trim (relPath pre o.key)).splitOn '/'

def entryName (pre : Key) (o : StoredObject) : Name := (parts pre o).head?.getD []

def entryIsDir (pre : Key) (o : StoredObject) : Bool := 1 < (parts pre o).length || ['/'].isSuffixOf o.key

/-- The entry an object becomes.  A listing carries no metadata, so the time reported is
the one of the object unless an earlier `Stat` knows better. -/
def entryOf (stats : List Name → Option CachedStat) (dir : List Name) (o : StoredObject) : Entry where
  name := entryName (listPrefix dir) o
  isDir := entryIsDir (listPrefix dir) o
  size := o.size
  modTime :=
    ((cachedEntry stats (push dir (entryName (listPrefix dir) o)) o (entryIsDir (listPrefix dir) o)).map
      (·.modTime)).getD o.lastModified
  objectModTime := o.lastModified

/-- The objects an entry is made of: the first of each name. -/
def chosen (pre : Key) (pendingDelete : List Name → Bool) (objects : List StoredObject) : List StoredObject :=
  firsts (entryName pre) [] (objects.filter fun o => !pendingDelete (clean o.key) && relPath pre o.key != [])

inductive ListError
  | directoryTooLarge
  deriving DecidableEq, Repr

/-- `ListDirectory`, when nothing is cached for the directory and the store answers. -/
def listDirectory (b : Bucket) (pendingDelete : List Name → Bool) (stats : List Name → Option CachedStat)
    (configured : Int) (dir : List Name) : Except ListError (List Entry) :=
  let maxEntries := maxDirectoryEntries configured
  let objects := b.listObjects (listPrefix dir) (wrap (maxEntries + 2))
  let entries := (chosen (listPrefix dir) pendingDelete objects).map (entryOf stats dir)
  if maxEntries < entries.length then .error .directoryTooLarge else .ok entries

/-! ## Pages -/

namespace Bucket

variable {b : Bucket} {pre : Key} {maxKeys : Int}

/-- The first `maxKeys`, or all of them. -/
def upTo (maxKeys : Int) (objects : List StoredObject) : List StoredObject :=
  if 0 < maxKeys then objects.take maxKeys.toNat else objects

theorem upTo_append_of_full {objects : List StoredObject} (hmax : 0 < maxKeys)
    (hfull : maxKeys ≤ objects.length) (rest : List StoredObject) :
    upTo maxKeys (objects ++ rest) = objects.take maxKeys.toNat := by
  rw [upTo, if_pos hmax]
  exact List.take_append_of_le_length (by omega)

theorem upTo_of_short {objects : List StoredObject} (hshort : 0 < maxKeys → (objects.length : Int) ≤ maxKeys) :
    upTo maxKeys objects = objects := by
  rw [upTo]
  split
  · rename_i hmax
    have hlen := hshort hmax
    exact List.take_of_length_le (by omega)
  · rfl

theorem gather_all (hmax : ¬ 0 < maxKeys) (objects page : List StoredObject) :
    gather maxKeys objects page = (objects ++ page, false) := by
  induction page generalizing objects with
  | nil => simp [gather]
  | cons o page ih =>
    rw [gather, if_neg fun h => hmax h.1, ih]
    simp

theorem gather_some (objects page : List StoredObject) (hroom : (objects.length : Int) < maxKeys) :
    gather maxKeys objects page =
    ((objects ++ page).take maxKeys.toNat, decide (maxKeys ≤ (objects ++ page).length)) := by
  induction page generalizing objects with
  | nil =>
    rw [gather, List.append_nil, List.take_of_length_le (by omega), decide_eq_false (by omega)]
  | cons o page ih =>
    have hsplit : objects ++ o :: page = (objects ++ [o]) ++ page := by simp
    rw [gather, hsplit]
    split
    · rename_i hfull
      have hlen : maxKeys.toNat = (objects ++ [o]).length := by
        rw [List.length_append, List.length_singleton] at hfull ⊢
        omega
      rw [hlen, List.take_left, decide_eq_true]
      rw [List.length_append]
      omega
    · rename_i hfull
      exact ih (objects ++ [o]) (by omega)

theorem listLoop_eq {fuel req : Nat} {objects rest : List StoredObject} (hfuel : rest.length < fuel)
    (hreq : 0 < req) (hroom : 0 < maxKeys → (objects.length : Int) < maxKeys) :
    listLoop maxKeys fuel req objects rest = some (upTo maxKeys (objects ++ rest)) := by
  induction fuel generalizing req objects rest with
  | zero => omega
  | succ fuel ih =>
    have htail : req < rest.length → (rest.drop req).length < fuel := by
      intro hmore
      rw [List.length_drop]
      omega
    have hsplit : objects ++ rest = (objects ++ rest.take req) ++ rest.drop req := by
      rw [List.append_assoc, List.take_append_drop]
    have hlast : ¬ req < rest.length → rest.drop req = [] := fun h => List.drop_eq_nil_of_le (by omega)
    rw [listLoop, hsplit]
    by_cases hmax : 0 < maxKeys
    · rw [gather_some _ _ (hroom hmax)]
      dsimp only
      by_cases hfull : maxKeys ≤ (objects ++ rest.take req).length
      · rw [if_pos (decide_eq_true hfull), upTo_append_of_full hmax hfull]
      · have hcut : (objects ++ rest.take req).take maxKeys.toNat = objects ++ rest.take req :=
          List.take_of_length_le (by omega)
        rw [if_neg (by simpa using hfull), hcut]
        split
        · rename_i hmore
          refine ih (htail hmore) ?_ fun _ => by omega
          split
          · omega
          · exact hreq
        · rename_i hmore
          rw [hlast hmore, List.append_nil, upTo_of_short fun _ => by omega]
    · rw [gather_all hmax]
      dsimp only
      rw [if_neg Bool.false_ne_true]
      split
      · rename_i hmore
        refine ih (htail hmore) ?_ fun h => absurd h hmax
        rw [if_neg fun h => hmax h.1]
        exact hreq
      · rename_i hmore
        rw [hlast hmore, List.append_nil, upTo_of_short fun h => absurd h hmax]

theorem listObjects_eq (b : Bucket) (pre : Key) (maxKeys : Int) :
    b.listObjects pre maxKeys = upTo maxKeys (b.under pre) := by
  rw [listObjects, listLoop_eq (Nat.lt_succ_self _)]
  · rfl
  · split <;> omega
  · exact fun h => h

theorem mem_upTo {l : List StoredObject} (hl : l.Pairwise fun a b => a.key < b.key) {o x : StoredObject}
    (ho : o ∈ upTo maxKeys l) (hx : x ∈ l) (hlt : ¬ o.key < x.key) : x ∈ upTo maxKeys l := by
  rw [upTo] at ho ⊢
  by_cases hmax : 0 < maxKeys
  · rw [if_pos hmax] at ho ⊢
    rw [← List.take_append_drop maxKeys.toNat l] at hl hx
    rcases List.mem_append.1 hx with hx | hx
    · exact hx
    · exact absurd ((List.pairwise_append.1 hl).2.2 o ho x hx) hlt
  · rwa [if_neg hmax]

theorem upTo_sublist (maxKeys : Int) (l : List StoredObject) : (upTo maxKeys l).Sublist l := by
  rw [upTo]
  split
  · exact List.take_sublist ..
  · exact List.Sublist.refl _

theorem mem_under {o : StoredObject} : o ∈ b.under pre ↔ o ∈ b.objects ∧ pre <+: o.key := by
  rw [under, List.mem_filter, List.isPrefixOf_iff_prefix]

theorem under_sorted (b : Bucket) (pre : Key) : (b.under pre).Pairwise fun a b => a.key < b.key :=
  b.sorted.filter _

end Bucket

/-! ## Children -/

section Children

variable {b : Bucket} {dir : List Name} {n : Name} {o : StoredObject} {pendingDelete : List Name → Bool}
  {maxKeys : Int}

/-- `ToObjectKey` of a rooted path. -/
def toObjectKey (path : List Name) : Key := ['/'].intercalate path

/-- Some key goes on with `n` where the directory's names end. -/
def IsChild (objects : List StoredObject) (dir : List Name) (n : Name) : Prop :=
  ∃ o ∈ objects, dir ++ [n] <+: components o.key

theorem listPrefix_eq (hdir : ∀ n ∈ dir, Plain n) : listPrefix dir = stem dir := by
  rw [listPrefix]
  have hdrop : (render dir).drop 1 = ['/'].intercalate dir := rfl
  rw [hdrop]
  rcases dir.eq_nil_or_concat with rfl | ⟨init, last, rfl⟩
  · rfl
  · rw [List.concat_eq_append] at hdir ⊢
    have hlast : Plain last := hdir last (by simp)
    have hkey : ['/'].intercalate (init ++ [last]) = stem init ++ last := by
      rw [intercalate_append (by simp)]
      simp
    rw [hkey, stem_concat, if_pos]
    refine ⟨by simp [hlast.ne_nil], fun hsuf => ?_⟩
    obtain ⟨t, ht⟩ := List.isSuffixOf_iff_suffix.1 hsuf
    have hends := congrArg List.getLast? ht
    rw [List.getLast?_concat, List.getLast?_append_of_ne_nil _ hlast.ne_nil] at hends
    exact hlast.no_slash (List.mem_of_getLast? hends.symm)

theorem relPath_append (pre rest : Key) : relPath pre (pre ++ rest) = rest := by
  rw [relPath, if_pos (List.isPrefixOf_iff_prefix.2 (List.prefix_append ..)), List.drop_left]

theorem child_iff (hdir : ∀ n ∈ dir, Plain n) (hsolid : Solid o.key) : dir ++ [n] <+: components o.key ↔
    listPrefix dir <+: o.key ∧ relPath (listPrefix dir) o.key ≠ [] ∧ entryName (listPrefix dir) o = n := by
  rw [listPrefix_eq hdir, stem_prefix_iff hdir hsolid]
  -- the same remainder of the key on both sides
  have hname : ∀ rest, o.key = stem dir ++ rest → rest ≠ [] →
      entryName (stem dir) o = (components rest).head?.getD [] := by
    intro rest hkey hne
    have hrest : Solid rest := Solid.of_stem hdir (hkey ▸ hsolid)
    rw [entryName, parts, hkey, relPath_append, hrest.splitOn_trim hne]
  constructor
  · rintro ⟨rest, hkey, hne, hhead⟩
    refine ⟨⟨rest, hkey.symm⟩, ?_, ?_⟩
    · rwa [hkey, relPath_append]
    · rw [hname rest hkey hne, hhead]
      rfl
  · rintro ⟨⟨rest, hkey⟩, hne, hn⟩
    rw [← hkey, relPath_append] at hne
    rw [hname rest hkey.symm hne] at hn
    refine ⟨rest, hkey.symm, hne, ?_⟩
    have hrest : Solid rest := Solid.of_stem hdir (hkey.symm ▸ hsolid)
    obtain ⟨c, cs, hcs⟩ := List.exists_cons_of_ne_nil (components_ne_nil hrest hne)
    rw [hcs] at hn ⊢
    exact congrArg some hn

theorem toObjectKey_concat (dir : List Name) (n : Name) : toObjectKey (dir ++ [n]) = stem dir ++ n := by
  rw [toObjectKey, intercalate_append (by simp)]
  simp

theorem entryIsDir_eq_false (hdir : ∀ n ∈ dir, Plain n) (hsolid : Solid o.key)
    (hchild : dir ++ [n] <+: components o.key) :
    entryIsDir (listPrefix dir) o = false ↔ o.key = toObjectKey (dir ++ [n]) := by
  obtain ⟨rest, hkey, hne, hhead⟩ := (stem_prefix_iff hdir hsolid).1 hchild
  have hrest : Solid rest := Solid.of_stem hdir (hkey ▸ hsolid)
  have hparts : parts (listPrefix dir) o = components rest := by
    rw [parts, listPrefix_eq hdir, hkey, relPath_append, hrest.splitOn_trim hne]
  have hsuffix : ['/'] <:+ o.key ↔ ['/'] <:+ rest := by
    rw [hkey]
    constructor
    · rintro ⟨t, ht⟩
      have hends := congrArg List.getLast? ht
      rw [List.getLast?_concat, List.getLast?_append_of_ne_nil _ hne] at hends
      obtain ⟨init, hinit⟩ := List.getLast?_eq_some_iff.1 hends.symm
      exact ⟨init, hinit.symm⟩
    · exact fun h => h.trans (List.suffix_append ..)
  rw [toObjectKey_concat, hkey, List.append_cancel_left_eq, hrest.eq_name_iff hne hhead, entryIsDir, hparts,
    Bool.or_eq_false_iff, decide_eq_false_iff_not, not_lt, Bool.eq_false_iff, Ne, List.isSuffixOf_iff_suffix,
    hsuffix]

theorem own_begins (hdir : ∀ n ∈ dir, Plain n) (hsolid : Solid o.key)
    (hchild : dir ++ [n] <+: components o.key) : toObjectKey (dir ++ [n]) <+: o.key := by
  obtain ⟨rest, hkey, -, hhead⟩ := (stem_prefix_iff hdir hsolid).1 hchild
  have hrest : Solid rest := Solid.of_stem hdir (hkey ▸ hsolid)
  rw [toObjectKey_concat, hkey]
  exact (List.prefix_append_right_inj _).2 (hrest.head_begins hhead)

theorem prefix_not_lt {k k' : Key} (h : k <+: k') : ¬ k' < k := by
  obtain ⟨rest, rfl⟩ := h
  induction k with
  | nil => exact List.not_lt_nil _
  | cons c k ih =>
    rw [List.cons_append, List.cons_lt_cons_iff]
    rintro (hlt | ⟨-, hlt⟩)
    · exact absurd hlt (Char.lt_irrefl c)
    · exact ih hlt

/-! ## What a listing shows -/

/-- The objects that no delete hides. -/
def visible (pendingDelete : List Name → Bool) (objects : List StoredObject) : List StoredObject :=
  objects.filter fun o => !pendingDelete (clean o.key)

theorem mem_visible {objects : List StoredObject} :
    o ∈ visible pendingDelete objects ↔ o ∈ objects ∧ pendingDelete (clean o.key) = false := by
  rw [visible, List.mem_filter, Bool.not_eq_true']

theorem mem_shown {pre : Key} {objects : List StoredObject} :
    o ∈ objects.filter (fun o => !pendingDelete (clean o.key) && relPath pre o.key != []) ↔
    o ∈ visible pendingDelete objects ∧ relPath pre o.key ≠ [] := by
  rw [List.mem_filter, mem_visible, Bool.and_eq_true, Bool.not_eq_true', bne_iff_ne, and_assoc]

section

variable (hdir : ∀ n ∈ dir, Plain n) (hsolid : ∀ o ∈ b.objects, Solid o.key)

include hdir hsolid

theorem child_of_mem_chosen
    (ho : o ∈ chosen (listPrefix dir) pendingDelete (Bucket.upTo maxKeys (b.under (listPrefix dir)))) :
    o ∈ visible pendingDelete (Bucket.upTo maxKeys (b.under (listPrefix dir))) ∧
    dir ++ [entryName (listPrefix dir) o] <+: components o.key := by
  obtain ⟨hvis, hne⟩ := mem_shown.1 (mem_of_mem_firsts ho).1
  have hunder := (Bucket.upTo_sublist ..).subset (mem_visible.1 hvis).1
  obtain ⟨hobj, hpre⟩ := Bucket.mem_under.1 hunder
  exact ⟨hvis, (child_iff hdir (hsolid o hobj)).2 ⟨hpre, hne, rfl⟩⟩

theorem mem_chosen_names :
    n ∈ (chosen (listPrefix dir) pendingDelete (Bucket.upTo maxKeys (b.under (listPrefix dir)))).map
    (entryName (listPrefix dir)) ↔
    IsChild (visible pendingDelete (Bucket.upTo maxKeys (b.under (listPrefix dir)))) dir n := by
  constructor
  · intro h
    obtain ⟨o, ho, rfl⟩ := List.mem_map.1 h
    obtain ⟨hvis, hchild⟩ := child_of_mem_chosen hdir hsolid ho
    exact ⟨o, hvis, hchild⟩
  · rintro ⟨o, hvis, hchild⟩
    have hunder := (Bucket.upTo_sublist ..).subset (mem_visible.1 hvis).1
    obtain ⟨-, hne, hname⟩ := (child_iff hdir (hsolid o (Bucket.mem_under.1 hunder).1)).1 hchild
    refine mem_map_firsts.2 ⟨?_, List.not_mem_nil⟩
    rw [← hname]
    exact List.mem_map_of_mem (mem_shown.2 ⟨hvis, hne⟩)

/-- An object of a child whose key every key of the entry begins with is the one the entry
is made of. -/
theorem chosen_least {x : StoredObject}
    (ho : o ∈ chosen (listPrefix dir) pendingDelete (Bucket.upTo maxKeys (b.under (listPrefix dir))))
    (hx : x ∈ visible pendingDelete b.objects)
    (hchild : dir ++ [entryName (listPrefix dir) o] <+: components x.key) (hpre : x.key <+: o.key) : x = o := by
  obtain ⟨hobj, hshow⟩ := mem_visible.1 hx
  obtain ⟨hbelow, hrel, hname⟩ := (child_iff hdir (hsolid x hobj)).1 hchild
  have hvis := (child_of_mem_chosen hdir hsolid ho).1
  have hwindow : x ∈ Bucket.upTo maxKeys (b.under (listPrefix dir)) :=
    Bucket.mem_upTo (b.under_sorted _) (mem_visible.1 hvis).1 (Bucket.mem_under.2 ⟨hobj, hbelow⟩)
      (prefix_not_lt hpre)
  have hsorted := ((b.under_sorted (listPrefix dir)).sublist (Bucket.upTo_sublist maxKeys _)).filter
    fun o => !pendingDelete (clean o.key) && relPath (listPrefix dir) o.key != []
  rcases firsts_least hsorted ho (mem_shown.2 ⟨mem_visible.2 ⟨hwindow, hshow⟩, hrel⟩) hname with h | h
  · exact h
  · exact absurd h (prefix_not_lt hpre)

theorem chosen_own {own : StoredObject}
    (ho : o ∈ chosen (listPrefix dir) pendingDelete (Bucket.upTo maxKeys (b.under (listPrefix dir))))
    (hown : own ∈ visible pendingDelete b.objects)
    (hkey : own.key = toObjectKey (dir ++ [entryName (listPrefix dir) o])) : own = o := by
  obtain ⟨hvis, hchild⟩ := child_of_mem_chosen hdir hsolid ho
  have hunder := (Bucket.upTo_sublist ..).subset (mem_visible.1 hvis).1
  have hmem : entryName (listPrefix dir) o ∈ components o.key := hchild.subset (by simp)
  refine chosen_least hdir hsolid ho hown ?_ ?_
  · have hnames : components own.key = dir ++ [entryName (listPrefix dir) o] := by
      rw [hkey, toObjectKey_concat, components_stem_append hdir, components_of_mem hmem]
    exact hnames.symm ▸ List.prefix_refl _
  · rw [hkey]
    exact own_begins hdir (hsolid o (Bucket.mem_under.1 hunder).1) hchild

theorem chosen_isDir
    (ho : o ∈ chosen (listPrefix dir) pendingDelete (Bucket.upTo maxKeys (b.under (listPrefix dir)))) :
    entryIsDir (listPrefix dir) o ↔
    ¬ ∃ own ∈ visible pendingDelete b.objects, own.key = toObjectKey (dir ++ [entryName (listPrefix dir) o]) := by
  obtain ⟨hvis, hchild⟩ := child_of_mem_chosen hdir hsolid ho
  obtain ⟨hwin, hshow⟩ := mem_visible.1 hvis
  have hobj := (Bucket.mem_under.1 ((Bucket.upTo_sublist ..).subset hwin)).1
  have hfile := entryIsDir_eq_false hdir (hsolid o hobj) hchild
  rw [← Bool.not_eq_false, hfile, not_iff_not]
  constructor
  · exact fun hkey => ⟨o, mem_visible.2 ⟨hobj, hshow⟩, hkey⟩
  · rintro ⟨own, hown, hkey⟩
    obtain rfl := chosen_own hdir hsolid ho hown hkey
    exact hkey

end

end Children

/-! ## Complete listings -/

section Complete

variable {b : Bucket} {dir : List Name}

/-- Each child once, as a directory unless the bucket has an object of its own name, and
nothing else. -/
structure Complete (b : Bucket) (dir : List Name) (entries : List Entry) : Prop where
  once : (entries.map (·.name)).Nodup
  children : ∀ n, n ∈ entries.map (·.name) ↔ IsChild b.objects dir n
  flags : ∀ e ∈ entries, e.isDir = true ↔ ¬ ∃ own ∈ b.objects, own.key = toObjectKey (dir ++ [e.name])

/-- The listing is complete, or there is none. -/
def CompleteOrRefused (b : Bucket) (dir : List Name) : Except ListError (List Entry) → Prop
  | .error _ => True
  | .ok entries => Complete b dir entries

/-- The keys below the directory that are looked at: two more than the limit, or all of
them when that sum does not fit 64 bits. -/
def Bucket.window (b : Bucket) (dir : List Name) (limit : Nat) : List StoredObject :=
  if limit + 2 < 2 ^ 63 then (b.under (listPrefix dir)).take (limit + 2) else b.under (listPrefix dir)

/-- More children than the limit among the objects. -/
def TooMany (limit : Nat) (objects : List StoredObject) (dir : List Name) : Prop :=
  ∃ names : List Name, names.Nodup ∧ limit < names.length ∧ ∀ n ∈ names, IsChild objects dir n

theorem maxDirectoryEntries_lt {configured : Int} (hint : configured < 2 ^ 63) :
    maxDirectoryEntries configured < 2 ^ 63 := by
  rw [maxDirectoryEntries]
  split
  · omega
  · decide

theorem listObjects_window {limit : Nat} (hlimit : limit < 2 ^ 63) (b : Bucket) (dir : List Name) :
    b.listObjects (listPrefix dir) (wrap (limit + 2)) = b.window dir limit := by
  rw [Bucket.listObjects_eq, Bucket.window, Bucket.upTo]
  by_cases hfit : limit + 2 < 2 ^ 63
  · have hsum : wrap ((limit : Int) + 2) = ((limit + 2 : Nat) : Int) := wrap_eq ⟨by omega, by omega⟩
    rw [hsum, if_pos hfit, if_pos (by omega), Int.toNat_natCast]
  · have hsum : wrap ((limit : Int) + 2) = limit + 2 - 2 ^ 64 := wrap_past (by omega) (by omega)
    rw [hsum, if_neg hfit, if_neg (by omega)]

theorem visible_none (objects : List StoredObject) : visible (fun _ => false) objects = objects := by
  rw [visible, List.filter_eq_self]
  exact fun _ _ => rfl

theorem window_eq_upTo (b : Bucket) (dir : List Name) (limit : Nat) :
    ∃ maxKeys, b.window dir limit = Bucket.upTo maxKeys (b.under (listPrefix dir)) := by
  rw [Bucket.window]
  by_cases hfit : limit + 2 < 2 ^ 63
  · exact ⟨((limit + 2 : Nat) : Int), by rw [if_pos hfit, Bucket.upTo, if_pos (by omega), Int.toNat_natCast]⟩
  · exact ⟨0, by rw [if_neg hfit, Bucket.upTo, if_neg (by omega)]⟩

theorem Bucket.mem_of_mem_window {limit : Nat} {o : StoredObject} (h : o ∈ b.window dir limit) :
    o ∈ b.objects := by
  obtain ⟨maxKeys, hwindow⟩ := window_eq_upTo b dir limit
  rw [hwindow] at h
  exact (mem_under.1 ((upTo_sublist ..).subset h)).1

theorem listed_names (hdir : ∀ n ∈ dir, Plain n) (hsolid : ∀ o ∈ b.objects, Solid o.key)
    (stats : List Name → Option CachedStat) {entries : List Entry} {limit : Nat}
    (hentries : entries = (chosen (listPrefix dir) (fun _ => false) (b.window dir limit)).map (entryOf stats dir)) :
    (entries.map (·.name)).Nodup ∧ (∀ n, n ∈ entries.map (·.name) ↔ IsChild (b.window dir limit) dir n) ∧
    ∀ e ∈ entries, e.isDir ↔ ¬ ∃ own ∈ b.objects, own.key = toObjectKey (dir ++ [e.name]) := by
  obtain ⟨maxKeys, hwindow⟩ := window_eq_upTo b dir limit
  subst hentries
  have hnames : ∀ l : List StoredObject,
      (l.map (entryOf stats dir)).map (·.name) = l.map (entryName (listPrefix dir)) := by
    intro l
    rw [List.map_map]
    rfl
  rw [hnames, hwindow]
  refine ⟨nodup_map_firsts, fun n => ?_, fun e he => ?_⟩
  · rw [mem_chosen_names hdir hsolid, visible_none]
  · obtain ⟨o, ho, rfl⟩ := List.mem_map.1 he
    have hflag := chosen_isDir hdir hsolid ho
    rwa [visible_none] at hflag

/-- A listing is complete or refused exactly when the keys looked at already have more
children than the limit, or every child. -/
theorem listing_complete_or_refused (hdir : ∀ n ∈ dir, Plain n) (hsolid : ∀ o ∈ b.objects, Solid o.key)
    {configured : Int} (hint : configured < 2 ^ 63) :
    CompleteOrRefused b dir (listDirectory b (fun _ => false) (fun _ => none) configured dir) ↔
    TooMany (maxDirectoryEntries configured) (b.window dir (maxDirectoryEntries configured)) dir ∨
    ∀ n, IsChild b.objects dir n → IsChild (b.window dir (maxDirectoryEntries configured)) dir n := by
  rw [listDirectory, listObjects_window (maxDirectoryEntries_lt hint)]
  generalize maxDirectoryEntries configured = limit
  generalize hentries :
    (chosen (listPrefix dir) (fun _ => false) (b.window dir limit)).map (entryOf (fun _ => none) dir) = entries
  obtain ⟨honce, hnames, hflags⟩ := listed_names hdir hsolid _ hentries.symm
  have hcount : (entries.map (·.name)).length = entries.length := List.length_map _
  by_cases hmany : limit < entries.length
  · rw [if_pos hmany]
    refine iff_of_true trivial (.inl ⟨entries.map (·.name), honce, ?_, fun n hn => (hnames n).1 hn⟩)
    rwa [hcount]
  · rw [if_neg hmany]
    constructor
    · exact fun hc => .inr fun n hn => (hnames n).1 ((hc.children n).2 hn)
    · rintro (⟨names, hnodup, hlen, hmem⟩ | hall)
      · -- every one of those children is listed, so the listing is over the limit
        have hsub : names ⊆ entries.map (·.name) := fun n hn => (hnames n).2 (hmem n hn)
        have hle := (List.subperm_of_subset hnodup hsub).length_le
        omega
      · refine ⟨honce, fun n => (hnames n).trans ⟨fun hn => ?_, hall n⟩, hflags⟩
        obtain ⟨o, ho, hchild⟩ := hn
        exact ⟨o, Bucket.mem_of_mem_window ho, hchild⟩

/-! ## A subtree that fills the window -/

/-- A bucket with three keys below `a`, and `b`. -/
def deepBucket : Bucket where
  objects :=
    [⟨['a', '/', '1'], 1, 0, none⟩, ⟨['a', '/', '2'], 1, 0, none⟩, ⟨['a', '/', '3'], 1, 0, none⟩,
      ⟨['b'], 1, 0, none⟩]
  sorted := by decide

/-- With a limit of one entry the root is listed without `b`. -/
theorem deep_bucket_lacks_child : listDirectory deepBucket (fun _ => false)
    (fun _ => none) 1 [] = .ok [⟨['a'], true, 1, 0, 0⟩] ∧ IsChild deepBucket.objects [] ['b'] := by
  refine ⟨by decide, ⟨['b'], 1, 0, none⟩, ?_, ?_⟩
  · simp [deepBucket]
  · decide

/-- With a limit of two entries it is complete. -/
theorem deep_bucket_complete :
    CompleteOrRefused deepBucket [] (listDirectory deepBucket (fun _ => false) (fun _ => none) 2 []) := by
  have hroot : ∀ n ∈ ([] : List Name), Plain n := by simp
  have hsolid : ∀ o ∈ deepBucket.objects, Solid o.key := by decide
  have hint : (2 : Int) < 2 ^ 63 := by decide
  refine (listing_complete_or_refused hroot hsolid hint).2 (.inr fun n hn => ?_)
  have hwindow : deepBucket.window [] (maxDirectoryEntries 2) = deepBucket.objects := by decide
  rwa [hwindow]

end Complete

end Bluestone.Posix
