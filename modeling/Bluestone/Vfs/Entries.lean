/-
# `Bluestone.Vfs.Entries` — what `ReadDir` and `Stat` say about one child

`Stat` and `ReadDir` of `internal/vfs/filesystem.go` put the staged sessions, the pending
deletes and the bucket together by different rules: `Stat` asks the staging and then probes
the key, the marker and what lies below; `ReadDir` lists the bucket and adds the sessions
whose name is not listed yet.

They agree on which children there are (`ReadDirAgrees.exists_iff`).  A listing has no
metadata, though, and so no modification time that a client set.
-/
import Bluestone.Posix.Listing
import Mathlib.Data.List.Nodup

namespace Bluestone.Posix

open Paths Firsts Words
open List (filter_sublist mem_map mem_filter map_map)

/-! ## The gateway at rest -/

/-- What a client is told about a file. -/
structure Info where
  name : Name
  isDir : Bool
  size : Nat
  modTime : Nat
  deriving DecidableEq, Repr

/-- A write session: `conflicted` is what the dirty index has for its path, `mtime` the
modification time a client set since the last write. -/
structure StagedSession where
  path : List Name
  size : Nat
  dirty : Bool
  prefetched : Bool
  conflicted : Bool
  lastWrite : Nat
  mtime : Option Nat
  deriving DecidableEq, Repr

/-- The bucket and the staging state; `startup` is when the gateway started, `dirTime`
when it last changed the entries of a directory. -/
structure Mount where
  bucket : Bucket
  pendingDelete : List Name → Bool
  sessions : List StagedSession
  distinct : (sessions.map (·.path)).Nodup
  dirTime : List Name → Option Nat
  configured : Int
  startup : Nat

/-- The path of the lease object. -/
def leaseName : Name :=
  ['.', 'n', 'f', 's', '-', 'g', 'a', 't', 'e', 'w', 'a', 'y', '.', 'l', 'e', 'a', 's', 'e']

def isReservedPath (path : List Name) : Bool := path == [leaseName]

/-- `GetBaseName`. -/
def baseName (path : List Name) : Name := path.getLast?.getD []

namespace Bucket

/-- `HeadObject`. -/
def headObject (b : Bucket) (key : Key) : Option StoredObject := b.objects.find? (·.key == key)

end Bucket

/-- `reportedModTime` of what a HEAD request returns: whole seconds, and the stored time if
there is one. -/
def reportedModTime (o : StoredObject) : Nat := o.storedMtime.getD (o.lastModified / second * second)

inductive StatError
  | notExist
  deriving DecidableEq, Repr

namespace Mount

variable (m : Mount)

/-! ## `Stat` -/

def toDirectoryKey (key : Key) : Key := if ['/'].isSuffixOf key then key else key ++ ['/']

/-- The objects that make a directory without a marker. -/
def impliedBy (path : List Name) : List StoredObject :=
  let objects := m.bucket.listObjects (toDirectoryKey (toObjectKey path)) 1
  if objects.any fun o => m.pendingDelete (clean o.key) then
    visible m.pendingDelete
      (m.bucket.listObjects (toDirectoryKey (toObjectKey path)) (wrap (maxDirectoryEntries m.configured + 1)))
  else objects

/-- `OperationsHandler.Stat`, with nothing cached and a store that answers. -/
def statObject (path : List Name) : Except StatError Info :=
  if path = [] then .ok ⟨['/'], true, 0, m.startup⟩
  else match m.bucket.headObject (toObjectKey path) with
    | some o => .ok ⟨baseName path, false, o.size, reportedModTime o⟩
    | none => match m.bucket.headObject (toDirectoryKey (toObjectKey path)) with
      | some o => .ok ⟨baseName path, true, 0, reportedModTime o⟩
      | none => if m.impliedBy path = [] then .error .notExist else .ok ⟨baseName path, true, 0, m.startup⟩

def getSession (path : List Name) : Option StagedSession :=
  m.sessions.find? fun s => s.path == path && !s.conflicted

/-- `session.Dirty || session.Size == 0 || session.Prefetched`. -/
def answers (s : StagedSession) : Bool := s.dirty || s.size == 0 || s.prefetched

/-- The session that answers for a path. -/
def answering (path : List Name) : Option StagedSession := (m.getSession path).filter answers

def stagedFileInfo (s : StagedSession) : Info := ⟨baseName s.path, false, s.size, s.mtime.getD s.lastWrite⟩

/-- The time recorded for a directory, when it is later. -/
def dirModTime (path : List Name) (isDir : Bool) (modTime : Nat) : Nat :=
  if isDir then
    match m.dirTime path with
    | some t => if modTime < t then t else modTime
    | none => modTime
  else modTime

def withDirTime (path : List Name) (info : Info) : Info :=
  { info with modTime := m.dirModTime path info.isDir info.modTime }

def statPath (path : List Name) : Except StatError Info :=
  if isReservedPath path then .error .notExist
  else if m.pendingDelete path then .error .notExist
  else match m.answering path with
    | some s => .ok (stagedFileInfo s)
    | none => m.statObject path

def stat (path : List Name) : Except StatError Info := (m.statPath path).map (m.withDirTime path)

/-! ## `ReadDir` -/

def getSessionsInDirectory (dir : List Name) : List StagedSession :=
  m.sessions.filter fun s => !s.conflicted && (s.path != [] && s.path.dropLast == dir)

/-- The loop that adds the staged files. -/
def addStaged (result : List Info) : List StagedSession → List Info
  | [] => result
  | s :: sessions =>
    if m.pendingDelete s.path then addStaged result sessions
    else if !(result.map (·.name)).contains (baseName s.path) && answers s then
      addStaged (result ++ [stagedFileInfo s]) sessions
    else addStaged result sessions

/-- The entries of the bucket without the lease and without what a delete hides. -/
def shown (dir : List Name) (entries : List Entry) : List Info :=
  ((entries.filter fun e => !isReservedPath (push dir e.name)).map fun e =>
    (⟨e.name, e.isDir, e.size, e.modTime⟩ : Info)).filter fun e => !m.pendingDelete (push dir e.name)

/-- The staged entries alone, for a store that does not answer. -/
def stagedOnly (e : ListError) (sessions : List StagedSession) : Except ListError (List Info) :=
  if sessions = [] then .error e
  else .ok ((sessions.filter fun s => !m.pendingDelete s.path).map stagedFileInfo)

/-- What a listing of the bucket, or its failure, becomes. -/
def merge (dir : List Name) : Except ListError (List Entry) → Except ListError (List Info)
  | .error e => m.stagedOnly e (m.getSessionsInDirectory dir)
  | .ok entries =>
    .ok ((m.addStaged (m.shown dir entries) (m.getSessionsInDirectory dir)).map fun e =>
      m.withDirTime (push dir e.name) e)

def readDir (dir : List Name) : Except ListError (List Info) :=
  m.merge dir (listDirectory m.bucket m.pendingDelete (fun _ => none) m.configured dir)

end Mount

/-! ## Objects by key -/

namespace Bucket

variable {b : Bucket} {key : Key} {o : StoredObject}

theorem keys_nodup (b : Bucket) : (b.objects.map (·.key)).Nodup := by
  refine List.pairwise_map.2 (b.sorted.imp ?_)
  intro a c hlt heq
  exact prefix_not_lt (List.prefix_refl _) (heq ▸ hlt)

theorem key_injective {x : StoredObject} (ho : o ∈ b.objects) (hx : x ∈ b.objects) (hkey : o.key = x.key) :
    o = x :=
  List.inj_on_of_nodup_map b.keys_nodup ho hx hkey

theorem length_under_le (b : Bucket) (pre : Key) :
    (b.under pre).length ≤ ((b.under pre).filter fun o => o.key != pre).length + 1 := by
  have hsplit := (b.under pre).length_eq_length_filter_add fun o => o.key != pre
  have hnodup : (((b.under pre).filter fun o => !(o.key != pre)).map (·.key)).Nodup :=
    b.keys_nodup.sublist ((filter_sublist.trans filter_sublist).map _)
  have hsub : ((b.under pre).filter fun o => !(o.key != pre)).map (·.key) ⊆ [pre] := by
    intro k hk
    obtain ⟨o, ho, rfl⟩ := mem_map.1 hk
    simpa using (mem_filter.1 ho).2
  have hone := (List.subperm_of_subset hnodup hsub).length_le
  rw [List.length_map, List.length_singleton] at hone
  omega

theorem headObject_eq_some : b.headObject key = some o ↔ o ∈ b.objects ∧ o.key = key := by
  rw [headObject]
  constructor
  · intro h
    exact ⟨List.mem_of_find?_eq_some h, by simpa using List.find?_some h⟩
  · rintro ⟨ho, rfl⟩
    cases hfind : b.objects.find? (·.key == o.key) with
    | none => exact absurd (List.find?_eq_none.1 hfind o ho) (by simp)
    | some x =>
      have hx := List.mem_of_find?_eq_some hfind
      have hkey : x.key = o.key := by simpa using List.find?_some hfind
      rw [key_injective hx ho hkey]

theorem headObject_eq_none : b.headObject key = none ↔ ∀ o ∈ b.objects, o.key ≠ key := by
  simp [headObject, List.find?_eq_none]

end Bucket

/-! ## What the two calls are asked about -/

/-- A directory within the limits, in a bucket whose keys are made of names that a path can
have, and staging that leaves the lease alone. -/
structure Readable (m : Mount) (dir : List Name) : Prop where
  dir_plain : ∀ n ∈ dir, Plain n
  solid : ∀ o ∈ m.bucket.objects, Solid o.key
  plain : ∀ o ∈ m.bucket.objects, ∀ c ∈ components o.key, Plain c
  limit : ((m.bucket.under (listPrefix dir)).filter fun o => o.key != listPrefix dir).length ≤
    maxDirectoryEntries m.configured
  int : m.configured < 2 ^ 63
  paths : ∀ s ∈ m.sessions, ∀ n ∈ s.path, Plain n
  lease : ∀ s ∈ m.sessions, isReservedPath s.path = false

section Probes

variable {m : Mount} {dir : List Name} {n : Name} {path : List Name} {o : StoredObject}

theorem toDirectoryKey_eq (hpath : ∀ n ∈ path, Plain n) (hne : path ≠ []) :
    Mount.toDirectoryKey (toObjectKey path) = stem path := by
  rw [← listPrefix_eq hpath, listPrefix, Mount.toDirectoryKey]
  have hdrop : (render path).drop 1 = toObjectKey path := rfl
  have hkey : toObjectKey path ≠ [] := by
    intro hnil
    have hcs := components_intercalate hpath hne
    rw [toObjectKey] at hnil
    rw [hnil] at hcs
    exact hne hcs.symm
  rw [hdrop]
  by_cases hsuf : ['/'].isSuffixOf (toObjectKey path)
  · rw [if_pos hsuf, if_neg fun h => h.2 hsuf]
  · rw [if_neg hsuf, if_pos ⟨hkey, hsuf⟩]

theorem upTo_wrap {l : List StoredObject} {limit k : Nat} (hlimit : limit < 2 ^ 63) (hk : k ≤ 2)
    (hl : l.length ≤ limit + k) : Bucket.upTo (wrap (limit + k)) l = l := by
  refine Bucket.upTo_of_short fun hpos => ?_
  by_cases hfit : limit + k < 2 ^ 63
  · rw [wrap_eq ⟨by omega, by omega⟩]
    omega
  · have hsum : wrap ((limit : Int) + k) = limit + k - 2 ^ 64 := wrap_past (by omega) (by omega)
    omega

theorem impliedBy_eq_nil (hpath : ∀ n ∈ path, Plain n) (hne : path ≠ []) (hint : m.configured < 2 ^ 63)
    (hlen : (m.bucket.under (stem path)).length ≤ maxDirectoryEntries m.configured + 1) :
    m.impliedBy path = [] ↔ ∀ o ∈ visible m.pendingDelete m.bucket.objects, ¬ stem path <+: o.key := by
  have hall : m.bucket.listObjects (stem path) (wrap (maxDirectoryEntries m.configured + 1)) =
      m.bucket.under (stem path) := by
    rw [Bucket.listObjects_eq]
    exact upTo_wrap (k := 1) (maxDirectoryEntries_lt hint) (by decide) hlen
  have hfirst : m.bucket.listObjects (stem path) 1 = (m.bucket.under (stem path)).take 1 := by
    rw [Bucket.listObjects_eq, Bucket.upTo, if_pos (by omega)]
    rfl
  rw [Mount.impliedBy, toDirectoryKey_eq hpath hne, hall, hfirst]
  have hvis : (∀ o ∈ visible m.pendingDelete m.bucket.objects, ¬ stem path <+: o.key) ↔
      visible m.pendingDelete (m.bucket.under (stem path)) = [] := by
    rw [List.eq_nil_iff_forall_not_mem]
    constructor
    · intro h o ho
      obtain ⟨hunder, hshow⟩ := mem_visible.1 ho
      obtain ⟨hobj, hpre⟩ := Bucket.mem_under.1 hunder
      exact h o (mem_visible.2 ⟨hobj, hshow⟩) hpre
    · intro h o ho hpre
      obtain ⟨hobj, hshow⟩ := mem_visible.1 ho
      exact h o (mem_visible.2 ⟨Bucket.mem_under.2 ⟨hobj, hpre⟩, hshow⟩)
  rw [hvis]
  cases m.bucket.under (stem path) with
  | nil => exact iff_of_true rfl rfl
  | cons first rest =>
    cases hpend : m.pendingDelete (clean first.key) with
    | true => simp [hpend]
    | false => simp [hpend, visible]

theorem statObject_own (hne : path ≠ []) (ho : o ∈ m.bucket.objects) (hkey : o.key = toObjectKey path) :
    m.statObject path = .ok ⟨baseName path, false, o.size, reportedModTime o⟩ := by
  rw [Mount.statObject, if_neg hne, Bucket.headObject_eq_some.2 ⟨ho, hkey⟩]

theorem statObject_marker (hpath : ∀ n ∈ path, Plain n) (hne : path ≠ [])
    (hown : ∀ x ∈ m.bucket.objects, x.key ≠ toObjectKey path) (ho : o ∈ m.bucket.objects)
    (hkey : o.key = stem path) :
    m.statObject path = .ok ⟨baseName path, true, 0, reportedModTime o⟩ := by
  rw [Mount.statObject, if_neg hne, Bucket.headObject_eq_none.2 hown, toDirectoryKey_eq hpath hne,
    Bucket.headObject_eq_some.2 ⟨ho, hkey⟩]

theorem statObject_implied (hpath : ∀ n ∈ path, Plain n) (hne : path ≠ [])
    (hown : ∀ x ∈ m.bucket.objects, x.key ≠ toObjectKey path)
    (hmarker : ∀ x ∈ m.bucket.objects, x.key ≠ stem path) :
    m.statObject path =
      if m.impliedBy path = [] then .error .notExist else .ok ⟨baseName path, true, 0, m.startup⟩ := by
  rw [Mount.statObject, if_neg hne, Bucket.headObject_eq_none.2 hown, toDirectoryKey_eq hpath hne,
    Bucket.headObject_eq_none.2 hmarker]

end Probes

section Existence

variable {m : Mount} {dir : List Name} {n : Name} {o : StoredObject}

theorem plain_concat (hdir : ∀ n ∈ dir, Plain n) (hn : Plain n) : ∀ c ∈ dir ++ [n], Plain c := by
  intro c hc
  rcases List.mem_append.1 hc with hc | hc
  · exact hdir c hc
  · exact List.mem_singleton.1 hc ▸ hn

theorem Readable.clean_key (h : Readable m dir)
    (ho : o ∈ m.bucket.objects) : clean o.key = components o.key :=
  clean_eq_components (h.plain o ho)

theorem Readable.visible_own {path : List Name} (h : Readable m dir) (hpath : ∀ c ∈ path, Plain c)
    (hne : path ≠ []) (hshow : m.pendingDelete path = false) (ho : o ∈ m.bucket.objects)
    (hkey : o.key = toObjectKey path ∨ o.key = stem path) : o ∈ visible m.pendingDelete m.bucket.objects := by
  refine mem_visible.2 ⟨ho, ?_⟩
  have hcs : components o.key = path := by
    rcases hkey with hkey | hkey
    · rw [hkey]
      exact components_intercalate hpath hne
    · have happ := components_stem_append hpath []
      rw [List.append_nil] at happ
      rw [hkey, happ]
      simp [components]
  rw [h.clean_key ho, hcs]
  exact hshow

theorem Readable.under_child (h : Readable m dir) (n : Name) :
    (m.bucket.under (stem (dir ++ [n]))).length ≤ maxDirectoryEntries m.configured := by
  refine Nat.le_trans (List.Sublist.length_le ?_) h.limit
  rw [Bucket.under, Bucket.under, List.filter_filter, listPrefix_eq h.dir_plain]
  refine List.monotone_filter_right _ fun o ho => ?_
  obtain ⟨rest, hrest⟩ := List.isPrefixOf_iff_prefix.1 ho
  rw [stem_concat, List.append_assoc, List.append_assoc] at hrest
  rw [Bool.and_eq_true, bne_iff_ne, List.isPrefixOf_iff_prefix, ← hrest]
  exact ⟨by simp, List.prefix_append ..⟩

theorem Readable.isChild_iff (h : Readable m dir) (hn : Plain n) :
    IsChild (visible m.pendingDelete m.bucket.objects) dir n ↔
    ∃ o ∈ visible m.pendingDelete m.bucket.objects,
    o.key = toObjectKey (dir ++ [n]) ∨ stem (dir ++ [n]) <+: o.key := by
  have hpath := plain_concat h.dir_plain hn
  constructor
  · rintro ⟨o, ho, hchild⟩
    exact ⟨o, ho, (prefix_components_iff hpath (by simp) (h.solid o (mem_visible.1 ho).1)).1 hchild⟩
  · rintro ⟨o, ho, hkey⟩
    exact ⟨o, ho, (prefix_components_iff hpath (by simp) (h.solid o (mem_visible.1 ho).1)).2 hkey⟩

theorem Readable.statObject_iff (h : Readable m dir) (hn : Plain n)
    (hshow : m.pendingDelete (dir ++ [n]) = false) : (∃ info, m.statObject (dir ++ [n]) = .ok info) ↔
    IsChild (visible m.pendingDelete m.bucket.objects) dir n := by
  have hpath := plain_concat h.dir_plain hn
  have hne : dir ++ [n] ≠ [] := by simp
  rw [h.isChild_iff hn]
  by_cases hown : ∃ x ∈ m.bucket.objects, x.key = toObjectKey (dir ++ [n])
  · obtain ⟨x, hx, hkey⟩ := hown
    exact iff_of_true ⟨_, statObject_own hne hx hkey⟩
      ⟨x, h.visible_own hpath hne hshow hx (.inl hkey), .inl hkey⟩
  · have hnone : ∀ x ∈ m.bucket.objects, x.key ≠ toObjectKey (dir ++ [n]) := fun x hx hkey => hown ⟨x, hx, hkey⟩
    by_cases hmarker : ∃ x ∈ m.bucket.objects, x.key = stem (dir ++ [n])
    · obtain ⟨x, hx, hkey⟩ := hmarker
      refine iff_of_true ⟨_, statObject_marker hpath hne hnone hx hkey⟩
        ⟨x, h.visible_own hpath hne hshow hx (.inr hkey), .inr ?_⟩
      exact hkey.symm ▸ List.prefix_refl _
    · have hlen := Nat.le_succ_of_le (h.under_child n)
      rw [statObject_implied hpath hne hnone fun x hx hkey => hmarker ⟨x, hx, hkey⟩]
      constructor
      · rintro ⟨info, hinfo⟩
        split at hinfo
        · cases hinfo
        · rename_i himplied
          rw [impliedBy_eq_nil hpath hne h.int hlen] at himplied
          obtain ⟨o, ho⟩ := Classical.not_forall.1 himplied
          obtain ⟨hvis, hpre⟩ := Classical.not_imp.1 ho
          exact ⟨o, hvis, .inr (Classical.not_not.1 hpre)⟩
      · rintro ⟨o, hvis, hkey | hpre⟩
        · exact absurd hkey (hnone o (mem_visible.1 hvis).1)
        · rw [if_neg]
          · exact ⟨_, rfl⟩
          · intro himplied
            exact (impliedBy_eq_nil hpath hne h.int hlen).1 himplied o hvis hpre

end Existence

/-! ## What `ReadDir` lists -/

section Listed

variable {m : Mount} {dir : List Name} {n : Name} {o : StoredObject} {i : Info}

theorem Readable.listDirectory_eq (h : Readable m dir) :
    listDirectory m.bucket m.pendingDelete (fun _ => none) m.configured dir =
    .ok ((chosen (listPrefix dir) m.pendingDelete (m.bucket.under (listPrefix dir))).map
    (entryOf (fun _ => none) dir)) := by
  have hkeys := m.bucket.length_under_le (listPrefix dir)
  have hlimit := h.limit
  have hall : Bucket.upTo (wrap (maxDirectoryEntries m.configured + 2)) (m.bucket.under (listPrefix dir)) =
      m.bucket.under (listPrefix dir) :=
    upTo_wrap (k := 2) (maxDirectoryEntries_lt h.int) (by decide) (by omega)
  have hcount : (chosen (listPrefix dir) m.pendingDelete (m.bucket.under (listPrefix dir))).length ≤
      maxDirectoryEntries m.configured := by
    refine Nat.le_trans (length_firsts_le ..) (Nat.le_trans (List.Sublist.length_le ?_) hlimit)
    refine List.monotone_filter_right _ fun o ho => ?_
    rw [Bool.and_eq_true, bne_iff_ne] at ho
    rw [bne_iff_ne]
    intro hkey
    have hrel := relPath_append (listPrefix dir) []
    rw [List.append_nil] at hrel
    rw [hkey] at ho
    exact ho.2 hrel
  rw [listDirectory, Bucket.listObjects_eq, hall, if_neg]
  rw [List.length_map]
  omega

/-- What the bucket shows of the directory. -/
def Mount.stored (m : Mount) (dir : List Name) : List Info :=
  m.shown dir ((chosen (listPrefix dir) m.pendingDelete (m.bucket.under (listPrefix dir))).map
    (entryOf (fun _ => none) dir))

theorem Readable.readDir_eq (h : Readable m dir) : m.readDir dir = .ok ((m.addStaged (m.stored dir)
    (m.getSessionsInDirectory dir)).map fun e => m.withDirTime (push dir e.name) e) := by
  rw [Mount.readDir, h.listDirectory_eq, Mount.merge, Mount.stored]

theorem upTo_zero (l : List StoredObject) : Bucket.upTo 0 l = l :=
  Bucket.upTo_of_short fun h => absurd h (Int.lt_irrefl 0)

theorem Readable.child_of_chosen (h : Readable m dir)
    (ho : o ∈ chosen (listPrefix dir) m.pendingDelete (m.bucket.under (listPrefix dir))) :
    o ∈ visible m.pendingDelete m.bucket.objects ∧ dir ++ [entryName (listPrefix dir) o] <+: components o.key ∧
    Plain (entryName (listPrefix dir) o) := by
  rw [← upTo_zero (m.bucket.under (listPrefix dir))] at ho
  obtain ⟨hvis, hchild⟩ := child_of_mem_chosen h.dir_plain h.solid ho
  obtain ⟨hunder, hshow⟩ := mem_visible.1 hvis
  rw [upTo_zero] at hunder
  have hobj := (Bucket.mem_under.1 hunder).1
  exact ⟨mem_visible.2 ⟨hobj, hshow⟩, hchild, h.plain o hobj _ (hchild.subset (by simp))⟩

theorem Readable.mem_stored (h : Readable m dir) : i ∈ m.stored dir ↔
    ∃ o ∈ chosen (listPrefix dir) m.pendingDelete (m.bucket.under (listPrefix dir)),
    i = ⟨entryName (listPrefix dir) o, entryIsDir (listPrefix dir) o, o.size, o.lastModified⟩ ∧
    isReservedPath (dir ++ [i.name]) = false ∧ m.pendingDelete (dir ++ [i.name]) = false := by
  rw [Mount.stored, Mount.shown, mem_filter, mem_map]
  simp only [mem_filter, mem_map, Bool.not_eq_true']
  constructor
  · rintro ⟨⟨e, ⟨⟨o, ho, rfl⟩, hres⟩, rfl⟩, hpend⟩
    have hpush : push dir (entryName (listPrefix dir) o) = dir ++ [entryName (listPrefix dir) o] :=
      push_of_plain (h.child_of_chosen ho).2.2
    dsimp only [entryOf] at hres hpend ⊢
    rw [hpush] at hres hpend
    exact ⟨o, ho, rfl, hres, hpend⟩
  · rintro ⟨o, ho, rfl, hres, hpend⟩
    have hpush : push dir (entryName (listPrefix dir) o) = dir ++ [entryName (listPrefix dir) o] :=
      push_of_plain (h.child_of_chosen ho).2.2
    dsimp only at hres hpend ⊢
    rw [← hpush] at hres hpend
    refine ⟨⟨entryOf (fun _ => none) dir o, ⟨⟨o, ho, rfl⟩, ?_⟩, rfl⟩, hpend⟩
    dsimp only [entryOf]
    exact hres

theorem Mount.stored_nodup (m : Mount) (dir : List Name) : ((m.stored dir).map (·.name)).Nodup := by
  have hchosen : ((chosen (listPrefix dir) m.pendingDelete (m.bucket.under (listPrefix dir))).map
      (entryName (listPrefix dir))).Nodup := nodup_map_firsts
  refine List.Nodup.sublist (filter_sublist.map _) ?_
  rw [map_map]
  refine List.Nodup.sublist (filter_sublist.map _) ?_
  rw [map_map]
  exact hchosen

theorem Readable.mem_stored_names (h : Readable m dir) : n ∈ (m.stored dir).map (·.name) ↔
    IsChild (visible m.pendingDelete m.bucket.objects) dir n ∧ isReservedPath (dir ++ [n]) = false ∧
    m.pendingDelete (dir ++ [n]) = false := by
  constructor
  · intro hn
    obtain ⟨i, hi, rfl⟩ := mem_map.1 hn
    obtain ⟨o, ho, rfl, hres, hpend⟩ := h.mem_stored.1 hi
    obtain ⟨hvis, hchild, -⟩ := h.child_of_chosen ho
    dsimp only at hres hpend ⊢
    exact ⟨⟨o, hvis, hchild⟩, hres, hpend⟩
  · rintro ⟨⟨o, ho, hchild⟩, hres, hpend⟩
    have hunder : o ∈ visible m.pendingDelete (m.bucket.under (listPrefix dir)) := by
      obtain ⟨hobj, hshow⟩ := mem_visible.1 ho
      have hpre := ((child_iff h.dir_plain (h.solid o hobj)).1 hchild).1
      exact mem_visible.2 ⟨Bucket.mem_under.2 ⟨hobj, hpre⟩, hshow⟩
    have hname : n ∈ (chosen (listPrefix dir) m.pendingDelete (m.bucket.under (listPrefix dir))).map
        (entryName (listPrefix dir)) := by
      rw [← upTo_zero (m.bucket.under (listPrefix dir)), mem_chosen_names h.dir_plain h.solid, upTo_zero]
      exact ⟨o, hunder, hchild⟩
    obtain ⟨x, hx, hxn⟩ := mem_map.1 hname
    subst hxn
    exact List.mem_map_of_mem (h.mem_stored.2 ⟨x, hx, rfl, hres, hpend⟩)

end Listed

/-! ## Staged files -/

section Staged

variable {m : Mount} {dir path : List Name} {s : StagedSession} {i : Info}

theorem answering_eq_some : m.answering path = some s ↔ s ∈ m.sessions ∧ s.path = path ∧
    s.conflicted = false ∧ Mount.answers s := by
  rw [Mount.answering, Option.filter_eq_some_iff, Mount.getSession]
  constructor
  · rintro ⟨hfind, hans⟩
    have hp := List.find?_some hfind
    rw [Bool.and_eq_true, beq_iff_eq, Bool.not_eq_true'] at hp
    exact ⟨List.mem_of_find?_eq_some hfind, hp.1, hp.2, hans⟩
  · rintro ⟨hs, rfl, hconf, hans⟩
    refine ⟨?_, hans⟩
    cases hfind : m.sessions.find? fun x => x.path == s.path && !x.conflicted with
    | none => exact absurd (List.find?_eq_none.1 hfind s hs) (by simp [hconf])
    | some x =>
      have hp := List.find?_some hfind
      rw [Bool.and_eq_true, beq_iff_eq] at hp
      rw [List.inj_on_of_nodup_map m.distinct (List.mem_of_find?_eq_some hfind) hs hp.1]

theorem mem_sessionsIn : s ∈ m.getSessionsInDirectory dir ↔ s ∈ m.sessions ∧ s.conflicted = false ∧
    s.path = dir ++ [baseName s.path] := by
  rw [Mount.getSessionsInDirectory, mem_filter, Bool.and_eq_true, Bool.and_eq_true, Bool.not_eq_true',
    bne_iff_ne, beq_iff_eq, baseName]
  refine and_congr_right fun _ => and_congr_right fun _ => ?_
  rcases s.path.eq_nil_or_concat with hnil | ⟨init, last, hlast⟩
  · simp [hnil]
  · simp [hlast]

theorem sessionsIn_nodup (m : Mount) (dir : List Name) :
    ((m.getSessionsInDirectory dir).map fun s => baseName s.path).Nodup := by
  have hpaths : ((m.getSessionsInDirectory dir).map (·.path)).Nodup :=
    m.distinct.sublist (filter_sublist.map _)
  refine List.Nodup.map_on ?_ hpaths.of_map
  intro x hx y hy hbase
  refine List.inj_on_of_nodup_map hpaths hx hy ?_
  rw [(mem_sessionsIn.1 hx).2.2, (mem_sessionsIn.1 hy).2.2, hbase]

theorem added_iff {names : List Name} {n : Name} {b : Bool} :
    (!names.contains n && b) ↔ n ∉ names ∧ b := by
  simp

theorem mem_addStaged {sessions : List StagedSession} {result : List Info}
    (hnodup : (sessions.map fun s => baseName s.path).Nodup) : i ∈ m.addStaged result sessions ↔
    i ∈ result ∨ ∃ s ∈ sessions, m.pendingDelete s.path = false ∧ Mount.answers s ∧
    baseName s.path ∉ result.map (·.name) ∧ i = Mount.stagedFileInfo s := by
  induction sessions generalizing result with
  | nil => simp [Mount.addStaged]
  | cons s sessions ih =>
    rw [List.map_cons, List.nodup_cons] at hnodup
    rw [Mount.addStaged]
    split
    · rename_i hpend
      rw [ih hnodup.2, List.exists_mem_cons_iff, hpend]
      simp
    · rename_i hpend
      split
      · rename_i hadd
        rw [added_iff] at hadd
        rw [ih hnodup.2, List.exists_mem_cons_iff, List.mem_append, List.mem_singleton, or_assoc]
        refine or_congr_right (or_congr ?_ ?_)
        · constructor
          · exact fun hi => ⟨by simpa using hpend, hadd.2, hadd.1, hi⟩
          · exact fun hs => hs.2.2.2
        · -- no later session has the name that was added
          refine exists_congr fun x => and_congr_right fun hx => and_congr_right fun _ =>
            and_congr_right fun _ => and_congr_left fun _ => ?_
          have hne : baseName x.path ≠ baseName s.path := fun heq =>
            hnodup.1 (mem_map.2 ⟨x, hx, heq⟩)
          rw [List.map_append, List.mem_append, not_or]
          simp [Mount.stagedFileInfo, hne]
      · rename_i hskip
        rw [ih hnodup.2, List.exists_mem_cons_iff]
        refine or_congr_right ⟨.inr, fun hs => hs.resolve_left fun hs => ?_⟩
        exact hskip (added_iff.2 ⟨hs.2.2.1, hs.2.1⟩)

theorem addStaged_nodup {sessions : List StagedSession} {result : List Info}
    (hnodup : (result.map (·.name)).Nodup) : ((m.addStaged result sessions).map (·.name)).Nodup := by
  induction sessions generalizing result with
  | nil => exact hnodup
  | cons s sessions ih =>
    rw [Mount.addStaged]
    split
    · exact ih hnodup
    · split
      · rename_i hadd
        rw [added_iff] at hadd
        refine ih ?_
        rw [List.map_append, List.nodup_append]
        refine ⟨hnodup, by simp, ?_⟩
        intro a ha b hb hab
        rw [List.map_singleton, List.mem_singleton] at hb
        subst hab hb
        exact hadd.1 ha
      · exact ih hnodup

end Staged

/-! ## Agreement -/

section Agreement

variable {m : Mount} {dir path : List Name} {n : Name} {i info : Info}

theorem withDirTime_file (h : i.isDir = false) : m.withDirTime path i = i := by
  rw [Mount.withDirTime, Mount.dirModTime, if_neg (by simp [h])]

/-- What the two calls agree on.  `answering` is a session that speaks for the path in
`Stat`; a name that has one and is in the bucket as well is listed as the bucket has it. -/
structure ReadDirAgrees (m : Mount) (dir : List Name) (infos : List Info) : Prop where
  once : (infos.map (·.name)).Nodup
  plain : ∀ i ∈ infos, Plain i.name
  exists_iff : ∀ n, Plain n → (n ∈ infos.map (·.name) ↔ ∃ info, m.stat (dir ++ [n]) = .ok info)
  staged : ∀ i ∈ infos, ¬ IsChild (visible m.pendingDelete m.bucket.objects) dir i.name →
    m.stat (dir ++ [i.name]) = .ok i
  stored : ∀ i ∈ infos, m.answering (dir ++ [i.name]) = none →
    ∃ info, m.stat (dir ++ [i.name]) = .ok info ∧ info.name = i.name ∧ info.isDir = i.isDir ∧
      (i.isDir = false → info.size = i.size)
  times : ∀ i ∈ infos, m.answering (dir ++ [i.name]) = none →
    ∀ o ∈ m.bucket.objects,
      o.key = (if i.isDir then stem (dir ++ [i.name]) else toObjectKey (dir ++ [i.name])) →
      o.storedMtime = none → o.lastModified % second = 0 →
      ∀ info, m.stat (dir ++ [i.name]) = .ok info → info.modTime = i.modTime

theorem stat_staged {s : StagedSession} (hres : isReservedPath path = false)
    (hpend : m.pendingDelete path = false)
    (hans : m.answering path = some s) : m.stat path = .ok (Mount.stagedFileInfo s) := by
  rw [Mount.stat, Mount.statPath, hres, hpend, hans]
  exact congrArg Except.ok (withDirTime_file rfl)

theorem stat_stored (hres : isReservedPath path = false) (hpend : m.pendingDelete path = false)
    (hans : m.answering path = none) : m.stat path = (m.statObject path).map (m.withDirTime path) := by
  rw [Mount.stat, Mount.statPath, hres, hpend, hans]
  rfl

theorem found_of_stat (hstat : m.stat path = .ok info) : isReservedPath path = false ∧
    m.pendingDelete path = false ∧ (m.answering path = none →
    ∃ found, m.statObject path = .ok found) := by
  rw [Mount.stat, Mount.statPath] at hstat
  cases hres : isReservedPath path with
  | true =>
    rw [hres] at hstat
    cases hstat
  | false =>
    cases hpend : m.pendingDelete path with
    | true =>
      rw [hres, hpend] at hstat
      cases hstat
    | false =>
      refine ⟨rfl, rfl, fun hans => ?_⟩
      rw [hres, hpend, hans] at hstat
      cases hobj : m.statObject path with
      | error e =>
        rw [hobj] at hstat
        cases hstat
      | ok found => exact ⟨found, rfl⟩

theorem baseName_concat (dir : List Name) (n : Name) : baseName (dir ++ [n]) = n := by simp [baseName]

variable {infos : List Info}

/-- An entry of a listing comes from the bucket, or from a session whose name the bucket
does not show. -/
theorem Readable.mem_listed (h : Readable m dir) (hread : m.readDir dir = .ok infos) :
    i ∈ infos ↔ (∃ j ∈ m.stored dir, i = m.withDirTime (dir ++ [j.name]) j) ∨
    ∃ s ∈ m.getSessionsInDirectory dir, m.pendingDelete s.path = false ∧ Mount.answers s ∧
    baseName s.path ∉ (m.stored dir).map (·.name) ∧ i = Mount.stagedFileInfo s := by
  rw [h.readDir_eq] at hread
  cases hread
  have hpush : ∀ {j}, j ∈ m.stored dir → push dir j.name = dir ++ [j.name] := by
    intro j hj
    obtain ⟨o, ho, rfl, -⟩ := h.mem_stored.1 hj
    exact push_of_plain (h.child_of_chosen ho).2.2
  have hsame : ∀ s, m.withDirTime (push dir (Mount.stagedFileInfo s).name) (Mount.stagedFileInfo s) =
      Mount.stagedFileInfo s := fun s => withDirTime_file rfl
  simp only [mem_map, mem_addStaged (sessionsIn_nodup m dir)]
  constructor
  · rintro ⟨j, hj | ⟨s, hs, hpend, hans, hnew, rfl⟩, rfl⟩
    · exact .inl ⟨j, hj, by rw [hpush hj]⟩
    · exact .inr ⟨s, hs, hpend, hans, hnew, hsame s⟩
  · rintro (⟨j, hj, rfl⟩ | ⟨s, hs, hpend, hans, hnew, rfl⟩)
    · exact ⟨j, .inl hj, by rw [hpush hj]⟩
    · exact ⟨_, .inr ⟨s, hs, hpend, hans, hnew, rfl⟩, hsame s⟩

theorem Readable.listed_nodup (h : Readable m dir) (hread : m.readDir dir = .ok infos) :
    (infos.map (·.name)).Nodup := by
  rw [h.readDir_eq] at hread
  cases hread
  rw [map_map]
  exact addStaged_nodup (m.stored_nodup dir)

theorem Readable.answering_of_mem (h : Readable m dir) {s : StagedSession}
    (hs : s ∈ m.getSessionsInDirectory dir) (hans : Mount.answers s) :
    m.answering (dir ++ [baseName s.path]) = some s ∧ isReservedPath (dir ++ [baseName s.path]) = false ∧
    Plain (baseName s.path) := by
  obtain ⟨hmem, hconf, hpath⟩ := mem_sessionsIn.1 hs
  refine ⟨answering_eq_some.2 ⟨hmem, hpath, hconf, hans⟩, ?_, ?_⟩
  · rw [← hpath]
    exact h.lease s hmem
  · refine h.paths s hmem _ ?_
    rw [hpath, baseName_concat]
    simp

theorem Readable.listed_iff (h : Readable m dir) (hread : m.readDir dir = .ok infos)
    (hn : Plain n) : n ∈ infos.map (·.name) ↔ ∃ info, m.stat (dir ++ [n]) = .ok info := by
  constructor
  · intro hmem
    obtain ⟨i, hi, rfl⟩ := mem_map.1 hmem
    rcases (h.mem_listed hread).1 hi with ⟨j, hj, rfl⟩ | ⟨s, hs, hpend, hans, -, rfl⟩
    · obtain ⟨hchild, hres, hpend⟩ := h.mem_stored_names.1 (List.mem_map_of_mem hj)
      change ∃ info, m.stat (dir ++ [j.name]) = .ok info
      replace hn : Plain j.name := hn
      cases hsess : m.answering (dir ++ [j.name]) with
      | some s => exact ⟨_, stat_staged hres hpend hsess⟩
      | none =>
        obtain ⟨info, hinfo⟩ := (h.statObject_iff hn hpend).2 hchild
        rw [stat_stored hres hpend hsess, hinfo]
        exact ⟨_, rfl⟩
    · obtain ⟨hsess, hres, -⟩ := h.answering_of_mem hs hans
      rw [(mem_sessionsIn.1 hs).2.2] at hpend
      exact ⟨_, stat_staged hres hpend hsess⟩
  · rintro ⟨info, hinfo⟩
    obtain ⟨hres, hpend, hobj⟩ := found_of_stat hinfo
    by_cases hshown : n ∈ (m.stored dir).map (·.name)
    · obtain ⟨j, hj, rfl⟩ := mem_map.1 hshown
      exact mem_map.2 ⟨_, (h.mem_listed hread).2 (.inl ⟨j, hj, rfl⟩), rfl⟩
    · cases hsess : m.answering (dir ++ [n]) with
      | none =>
        have hchild := (h.statObject_iff hn hpend).1 (hobj hsess)
        exact absurd (h.mem_stored_names.2 ⟨hchild, hres, hpend⟩) hshown
      | some s =>
        obtain ⟨hmem, hpath, hconf, hans⟩ := answering_eq_some.1 hsess
        have hbase : baseName s.path = n := by rw [hpath, baseName_concat]
        have hs : s ∈ m.getSessionsInDirectory dir := mem_sessionsIn.2 ⟨hmem, hconf, by rw [hbase, hpath]⟩
        rw [← hpath] at hpend
        rw [← hbase] at hshown
        refine mem_map.2 ⟨_, (h.mem_listed hread).2 (.inr ⟨s, hs, hpend, hans, hshown, rfl⟩), hbase⟩

theorem Readable.stored_of_listed (h : Readable m dir) (hread : m.readDir dir = .ok infos)
    (hi : i ∈ infos) (hans : m.answering (dir ++ [i.name]) = none) :
    ∃ o ∈ chosen (listPrefix dir) m.pendingDelete (m.bucket.under (listPrefix dir)),
    i = m.withDirTime (dir ++ [i.name])
    ⟨entryName (listPrefix dir) o, entryIsDir (listPrefix dir) o, o.size, o.lastModified⟩ ∧
    isReservedPath (dir ++ [i.name]) = false ∧ m.pendingDelete (dir ++ [i.name]) = false := by
  rcases (h.mem_listed hread).1 hi with ⟨j, hj, rfl⟩ | ⟨s, hs, -, hsans, -, rfl⟩
  · obtain ⟨o, ho, rfl, hres, hpend⟩ := h.mem_stored.1 hj
    exact ⟨o, ho, rfl, hres, hpend⟩
  · have hsess := (h.answering_of_mem hs hsans).1
    change m.answering (dir ++ [baseName s.path]) = none at hans
    rw [hsess] at hans
    cases hans

theorem Readable.statObject_chosen (h : Readable m dir) {o : StoredObject}
    (ho : o ∈ chosen (listPrefix dir) m.pendingDelete (m.bucket.under (listPrefix dir)))
    (hpend : m.pendingDelete (dir ++ [entryName (listPrefix dir) o]) = false) :
    ∃ time, m.statObject (dir ++ [entryName (listPrefix dir) o]) =
        .ok ⟨entryName (listPrefix dir) o, entryIsDir (listPrefix dir) o,
          if entryIsDir (listPrefix dir) o then 0 else o.size, time⟩ ∧
      ∀ x ∈ m.bucket.objects,
        x.key = (if entryIsDir (listPrefix dir) o then stem (dir ++ [entryName (listPrefix dir) o])
          else toObjectKey (dir ++ [entryName (listPrefix dir) o])) →
        x = o ∧ time = reportedModTime o := by
  obtain ⟨hvis, hchild, hplain⟩ := h.child_of_chosen ho
  have hobj := (mem_visible.1 hvis).1
  have hpath := plain_concat h.dir_plain hplain
  have hne : dir ++ [entryName (listPrefix dir) o] ≠ [] := by simp
  have hfile := entryIsDir_eq_false h.dir_plain (h.solid o hobj) hchild
  cases hkind : entryIsDir (listPrefix dir) o with
  | false =>
    have hkey := hfile.1 hkind
    refine ⟨reportedModTime o, ?_, fun x hx hxkey => ⟨?_, rfl⟩⟩
    · rw [statObject_own hne hobj hkey, baseName_concat]
      rfl
    · exact Bucket.key_injective hx hobj (hxkey.trans hkey.symm)
  | true =>
    have hnone : ∀ x ∈ m.bucket.objects, x.key ≠ toObjectKey (dir ++ [entryName (listPrefix dir) o]) := by
      intro x hx hxkey
      rw [← upTo_zero (m.bucket.under (listPrefix dir))] at ho
      have hxvis := h.visible_own hpath hne hpend hx (.inl hxkey)
      exact (chosen_isDir h.dir_plain h.solid ho).1 hkind ⟨x, hxvis, hxkey⟩
    have hbelow : stem (dir ++ [entryName (listPrefix dir) o]) <+: o.key :=
      ((prefix_components_iff hpath hne (h.solid o hobj)).1 hchild).resolve_left (hnone o hobj)
    by_cases hmarker : ∃ x ∈ m.bucket.objects, x.key = stem (dir ++ [entryName (listPrefix dir) o])
    · -- the marker comes before everything below the directory
      have hfirst : ∀ x ∈ m.bucket.objects,
          x.key = stem (dir ++ [entryName (listPrefix dir) o]) → x = o := by
        intro x hx hxkey
        rw [← upTo_zero (m.bucket.under (listPrefix dir))] at ho
        refine chosen_least h.dir_plain h.solid ho (h.visible_own hpath hne hpend hx (.inr hxkey)) ?_ ?_
        · refine (prefix_components_iff hpath hne (h.solid x hx)).2 (.inr ?_)
          exact hxkey.symm ▸ List.prefix_refl _
        · rwa [hxkey]
      obtain ⟨x, hx, hxkey⟩ := hmarker
      obtain rfl := hfirst x hx hxkey
      refine ⟨reportedModTime x, ?_, fun y hy hykey => ⟨hfirst y hy hykey, rfl⟩⟩
      rw [statObject_marker hpath hne hnone hx hxkey, baseName_concat]
      rfl
    · obtain ⟨info, hinfo⟩ := (h.statObject_iff hplain hpend).2 ⟨o, hvis, hchild⟩
      refine ⟨m.startup, ?_, fun x hx hxkey => absurd ⟨x, hx, hxkey⟩ hmarker⟩
      rw [statObject_implied hpath hne hnone fun x hx hxkey => hmarker ⟨x, hx, hxkey⟩] at hinfo ⊢
      split at hinfo
      · cases hinfo
      · rename_i himplied
        rw [if_neg himplied, baseName_concat]
        rfl

theorem Readable.stat_listed (h : Readable m dir) (hread : m.readDir dir = .ok infos)
    (hi : i ∈ infos) (hans : m.answering (dir ++ [i.name]) = none) :
    ∃ (o : StoredObject) (time : Nat),
      i.size = o.size ∧ i.modTime = m.dirModTime (dir ++ [i.name]) i.isDir o.lastModified ∧
      m.stat (dir ++ [i.name]) = .ok ⟨i.name, i.isDir, if i.isDir then 0 else o.size,
        m.dirModTime (dir ++ [i.name]) i.isDir time⟩ ∧
      ∀ x ∈ m.bucket.objects,
        x.key = (if i.isDir then stem (dir ++ [i.name]) else toObjectKey (dir ++ [i.name])) →
        x = o ∧ time = reportedModTime o := by
  obtain ⟨o, ho, hio, hres, hpend⟩ := h.stored_of_listed hread hi hans
  have hname : i.name = entryName (listPrefix dir) o := congrArg Info.name hio
  have hkind : i.isDir = entryIsDir (listPrefix dir) o := congrArg Info.isDir hio
  have hpend' := hpend
  rw [hname] at hpend'
  obtain ⟨time, hstat, htime⟩ := h.statObject_chosen ho hpend'
  rw [← hname, ← hkind] at hstat htime
  refine ⟨o, time, congrArg Info.size hio, ?_, ?_, htime⟩
  · rw [hkind]
    exact congrArg Info.modTime hio
  · rw [stat_stored hres hpend hans, hstat]
    rfl

/-- `ReadDir` of a directory within the limits lists it, and agrees with `Stat` on which
children there are, on everything about a child that only the staging has, and on the kind
of a child that no session answers for, on its size if it is a file and on its time if the
object carries none and changed at a whole second. -/
theorem readDir_agrees_with_stat (h : Readable m dir) :
    ∃ infos, m.readDir dir = .ok infos ∧ ReadDirAgrees m dir infos := by
  refine ⟨_, h.readDir_eq, ?_⟩
  have hread := h.readDir_eq
  generalize (m.addStaged (m.stored dir) (m.getSessionsInDirectory dir)).map
    (fun e => m.withDirTime (push dir e.name) e) = infos at hread
  constructor
  case once => exact h.listed_nodup hread
  case plain =>
      intro i hi
      rcases (h.mem_listed hread).1 hi with ⟨j, hj, rfl⟩ | ⟨s, hs, -, hans, -, rfl⟩
      · obtain ⟨o, ho, rfl, -⟩ := h.mem_stored.1 hj
        exact (h.child_of_chosen ho).2.2
      · exact (h.answering_of_mem hs hans).2.2
  case exists_iff => exact fun n hn => h.listed_iff hread hn
  case staged =>
      intro i hi hnot
      rcases (h.mem_listed hread).1 hi with ⟨j, hj, rfl⟩ | ⟨s, hs, hpend, hans, -, rfl⟩
      · exact absurd (h.mem_stored_names.1 (List.mem_map_of_mem hj)).1 hnot
      · obtain ⟨hsess, hres, -⟩ := h.answering_of_mem hs hans
        rw [(mem_sessionsIn.1 hs).2.2] at hpend
        exact stat_staged hres hpend hsess
  case stored =>
      intro i hi hans
      obtain ⟨o, time, hsize, -, hstat, -⟩ := h.stat_listed hread hi hans
      refine ⟨_, hstat, rfl, rfl, fun hfile => ?_⟩
      simp [hfile, hsize]
  case times =>
      intro i hi hans x hx hxkey hstored hwhole info hinfo
      obtain ⟨o, time, -, htime, hstat, hfirst⟩ := h.stat_listed hread hi hans
      obtain ⟨rfl, rfl⟩ := hfirst x hx hxkey
      rw [hstat] at hinfo
      cases hinfo
      have hreported : reportedModTime x = x.lastModified := by
        rw [reportedModTime, hstored, Option.getD_none]
        exact Nat.div_mul_cancel (Nat.dvd_of_mod_eq_zero hwhole)
      rw [htime, hreported]

/-! ## A time that a client set -/

/-- A bucket with one file, changed at the third second, whose time a client set to the
first. -/
def touchedBucket : Bucket where
  objects := [⟨['a'], 4, 3 * second, some second⟩]
  sorted := by decide

/-- That bucket, and a file that is only staged. -/
def touchedMount : Mount where
  bucket := touchedBucket
  pendingDelete _ := false
  sessions := [⟨[['b']], 2, true, false, false, 5 * second, none⟩]
  distinct := by decide
  dirTime _ := none
  configured := 10
  startup := 0

/-- The listing has the time of the object, `Stat` the one that was set. -/
theorem touched_file_times_differ : touchedMount.readDir [] =
    .ok [⟨['a'], false, 4, 3 * second⟩, ⟨['b'], false, 2, 5 * second⟩] ∧
    touchedMount.stat [['a']] = .ok ⟨['a'], false, 4, second⟩ := by
  decide

theorem touched_mount_agrees :
    ∃ infos, touchedMount.readDir [] = .ok infos ∧ ReadDirAgrees touchedMount [] infos := by
  have hletter : ∀ c ∈ [['a'], ['b']], Plain c := by
    intro c hc
    rcases List.mem_pair.1 hc with rfl | rfl <;> exact ⟨by decide, by decide, by decide, by decide⟩
  have hkeys : ∀ o ∈ touchedMount.bucket.objects, components o.key ⊆ [['a'], ['b']] := by decide
  have hpaths : ∀ s ∈ touchedMount.sessions, s.path ⊆ [['a'], ['b']] := by decide
  refine readDir_agrees_with_stat ⟨by simp, by decide, ?_, by decide, by decide, ?_, by decide⟩
  · exact fun o ho c hc => hletter c (hkeys o ho hc)
  · exact fun s hs n hn => hletter n (hpaths s hs hn)

end Agreement

end Bluestone.Posix
