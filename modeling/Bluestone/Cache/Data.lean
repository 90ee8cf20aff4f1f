/-
# `Bluestone.Cache.Data` — the keys of the data cache

`DataCache` keeps full objects and chunks of objects as files, in one `LRUCache` under
string keys.  Chunks have keys of their own (`keysApart`), but `DeleteObjectPrefix` looks
for those below a directory by the directory's name followed by a colon, which no chunk
below it has unless its name goes on with one (`chunk_below_left`).  `prefix_drops_below`
says what has to be absent.
-/
import Bluestone.Cache.Lru
import Bluestone.Library.Numerals

namespace Bluestone.Cache

open Runs

abbrev Key := List UInt8

structure CacheEntry (P : Type) where
  filePath : P
  size : Nat

/-- The files are the ones below `basePath`, with their sizes. -/
structure DataCache (P : Type) where
  maxSize : Nat
  currentSize : Int
  index : LRUCache Key (CacheEntry P)
  files : List (P × Nat)

/-! ## Keys -/

def chunkPrefix (objectKey : Key) : Key := [99, 104, 117, 110, 107, 58] ++ objectKey ++ [58]

def chunkKey (objectKey : Key) (chunkStart chunkSize : Int) : Key :=
  chunkPrefix objectKey ++ Numerals.itoa chunkStart ++ 58 :: Numerals.itoa chunkSize

namespace DataCache

variable {P : Type} [DecidableEq P] (getCacheFilePath : Key → P) (d : DataCache P)

def stat (filePath : P) : Option Nat := (d.files.find? (·.1 = filePath)).map Prod.snd

def deleteFile (filePath : P) : DataCache P :=
  { d with
    currentSize := d.currentSize - (d.stat filePath).getD 0
    files := d.files.filter (·.1 ≠ filePath) }

/-- The index after a call, and the eviction callback for each entry the call removed. -/
def settle (index : LRUCache Key (CacheEntry P)) : DataCache P :=
  (index.evicted.drop d.index.evicted.length).foldl (fun d call => d.deleteFile call.2.filePath)
    { d with index := index }

/-- `evictOldest`, of an index with entries. -/
def evictOldest (now : Int) : DataCache P :=
  if (d.index.cleanExpired now).evictList.length < d.index.evictList.length then
    d.settle (d.index.cleanExpired now)
  else d.settle d.index.evictOldest

/-- The loop of `Write` that makes room; each round removes an entry. -/
def makeRoom (now : Int) (size : Nat) : Nat → DataCache P → DataCache P
  | 0, d => d
  | n + 1, d =>
    if d.currentSize + size > d.maxSize then
      if d.index.evictList = [] then d else makeRoom now size n (d.evictOldest now)
    else d

/-- The entry of the key and its file are removed if the index finds it. -/
def drop (now : Int) (key : Key) : DataCache P :=
  match d.index.get now key with
  | (none, index) => { d with index := index }
  | (some entry, index) => ({ d with index := index }.deleteFile entry.filePath).settle (index.delete key)

def store (now : Int) (key : Key) (size : Nat) : DataCache P :=
  let filePath := getCacheFilePath key
  let written := { d with files := (filePath, size) :: d.files.filter (·.1 ≠ filePath) }
  let indexed := written.settle (d.index.set now key ⟨filePath, size⟩)
  { indexed with currentSize := indexed.currentSize + size }

def write (now : Int) (key : Key) (size : Nat) : DataCache P :=
  if size > d.maxSize then d
  else
    store getCacheFilePath (makeRoom now size (d.drop now key).index.evictList.length (d.drop now key)) now key size

def writeChunk (now : Int) (objectKey : Key) (chunkStart chunkSize : Int) (size : Nat) : DataCache P :=
  d.write getCacheFilePath now (chunkKey objectKey chunkStart chunkSize) size

/-- `index.DeletePrefix`, under the cache's lock. -/
def deletePrefix (start : Key) : DataCache P := d.settle (d.index.deleteWhere fun key => start.isPrefixOf key)

/-- The prefix with the slash `DeleteObjectPrefix` adds. -/
def below (objectPrefix : Key) : Key :=
  if objectPrefix ≠ [47] ∧ ¬ [47].isSuffixOf objectPrefix then objectPrefix ++ [47] else objectPrefix

def deleteObjectPrefix (objectPrefix : Key) : DataCache P :=
  (d.deletePrefix (below objectPrefix)).deletePrefix (chunkPrefix (below objectPrefix))

end DataCache

inductive DataCall
  | write (now : Int) (key : Key) (size : Nat)
  | writeChunk (now : Int) (objectKey : Key) (chunkStart chunkSize : Int) (size : Nat)

section
variable {P : Type} [DecidableEq P] {getCacheFilePath : Key → P} {d : DataCache P}

def DataCache.after (getCacheFilePath : Key → P) (d : DataCache P) : DataCall → DataCache P
  | .write now key size => d.write getCacheFilePath now key size
  | .writeChunk now objectKey chunkStart chunkSize size =>
    d.writeChunk getCacheFilePath now objectKey chunkStart chunkSize size

/-- A cache over an empty directory that is written. -/
def dataSystem (getCacheFilePath : Key → P) : System (DataCache P) DataCall where
  init d := d.currentSize = 0 ∧ d.files = [] ∧ 0 < d.index.maxSize ∧ d.index.items = (fun _ => none) ∧
    d.index.evictList = []
  step d e d' := d' = d.after getCacheFilePath e

/-! ## What a directory's prefix finds -/

theorem not_mem_itoa (n : Int) : 58 ∉ Numerals.itoa n := by
  have hdigits : 58 ∉ Numerals.format 10 n.natAbs := fun h => by
    have := Numerals.format_digits (by decide : 2 ≤ 10) (Nat.le_refl 10) n.natAbs 58 h
    simp at this
  rw [Numerals.itoa]
  split
  · exact fun h => (List.mem_cons.1 h).elim (by decide) hdigits
  · exact hdigits

theorem colon_inj {a b x y : Key} (hx : 58 ∉ x) (hy : 58 ∉ y) (h : a ++ 58 :: x = b ++ 58 :: y) : a = b ∧ x = y := by
  have hsuffix : ∀ {c x y : Key}, 58 ∉ x → 58 :: x = c ++ 58 :: y → c = [] ∧ x = y := by
    intro c x y hx hc
    cases c with
    | nil => exact ⟨rfl, (List.cons.inj hc).2⟩
    | cons z c => exact absurd ((List.cons.inj hc).2 ▸ List.mem_append_right c List.mem_cons_self) hx
  rcases List.append_eq_append_iff.1 h with ⟨c, rfl, hc⟩ | ⟨c, rfl, hc⟩
  · obtain ⟨rfl, rfl⟩ := hsuffix hx hc
    exact ⟨(List.append_nil a).symm, rfl⟩
  · obtain ⟨rfl, rfl⟩ := hsuffix hy hc
    exact ⟨List.append_nil b, rfl⟩

theorem itoa_inj {m n : Int} (hm : Words.Fits m) (hn : Words.Fits n) (h : Numerals.itoa m = Numerals.itoa n) : m = n := by
  have hread := Numerals.atoi_itoa hm
  rw [h, Numerals.atoi_itoa hn] at hread
  exact (Option.some.inj hread).symm

/-- The chunks of objects have keys of their own, which begin with no slash. -/
def KeysApart : Prop :=
  (∀ o o' start start' size size', Words.Fits start → Words.Fits start' → Words.Fits size → Words.Fits size' →
    chunkKey o start size = chunkKey o' start' size' → o = o' ∧ start = start' ∧ size = size') ∧
  ∀ o start size key, chunkKey o start size ≠ 47 :: key

theorem chunkKey_inj {o o' : Key} {start start' size size' : Int}
    (h : chunkKey o start size = chunkKey o' start' size') :
    o = o' ∧ Numerals.itoa start = Numerals.itoa start' ∧ Numerals.itoa size = Numerals.itoa size' := by
  obtain ⟨hfront, hsize⟩ := colon_inj (not_mem_itoa size) (not_mem_itoa size') h
  simp only [chunkPrefix, List.append_assoc, List.singleton_append] at hfront
  obtain ⟨hobject, hstart⟩ := colon_inj (not_mem_itoa start) (not_mem_itoa start') (List.append_cancel_left hfront)
  exact ⟨hobject, hstart, hsize⟩

theorem keysApart : KeysApart := by
  refine ⟨fun o o' start start' size size' hs hs' hz hz' h => ?_, fun o start size key h => ?_⟩
  · obtain ⟨hobject, hstart, hsize⟩ := chunkKey_inj h
    exact ⟨hobject, itoa_inj hs hs' hstart, itoa_inj hz hz' hsize⟩
  · cases h

theorem get_eq_none {V : Type} {c : LRUCache Key V} {now : Int} {key : Key} :
    (c.get now key).1 = none ↔ ∀ e, c.items key = some e → now > e.expiresAt := by
  rw [LRUCache.get]
  cases c.items key with
  | none => simp
  | some e => by_cases h : now > e.expiresAt <;> simp [h]

theorem items_deleteWhere {V : Type} {c : LRUCache Key V} (ha : Agree c) (hasPrefix : Key → Bool) (key : Key) :
    (c.deleteWhere hasPrefix).items key = if hasPrefix key then none else c.items key := by
  rw [(removed_deleteWhere ha hasPrefix).items]
  cases hitem : c.items key with
  | none => simp
  | some e =>
    obtain ⟨hmem, rfl⟩ := (ha.items _ _).1 hitem
    by_cases hp : hasPrefix e.key
    · rw [if_pos hp, if_pos (List.mem_map_of_mem (List.mem_filter.2 ⟨hmem, hp⟩))]
    · rw [if_neg hp, if_neg]
      intro hin
      obtain ⟨a, ha, hkey⟩ := List.mem_map.1 hin
      exact hp (hkey ▸ (List.mem_filter.1 ha).2)

theorem mem_below (start : Key) : 47 ∈ DataCache.below start := by
  rw [DataCache.below]
  split
  · exact List.mem_append_right _ List.mem_cons_self
  · next h =>
    by_cases hroot : start = [47]
    · exact hroot ▸ List.mem_cons_self
    · have hsuffix : [47].isSuffixOf start := by
        by_contra hno
        exact h ⟨hroot, hno⟩
      exact (List.isSuffixOf_iff_suffix.1 hsuffix).subset List.mem_cons_self

/-- A directory's name does not begin the key of a chunk below it: its first slash would
stand before the chunk's. -/
theorem below_not_chunk {dir rest : Key} (hslash : 47 ∈ dir) : ¬ dir <+: [99, 104, 117, 110, 107, 58] ++ (dir ++ rest) := by
  obtain ⟨before, after, rfl, hbefore⟩ := List.eq_append_cons_of_mem hslash
  intro h
  have hfirst : before ++ [47] <+: before ++ 47 :: after := ⟨after, by simp⟩
  have hchunk : [99, 104, 117, 110, 107, 58] ++ before <+:
      [99, 104, 117, 110, 107, 58] ++ (before ++ 47 :: after ++ rest) := ⟨47 :: after ++ rest, by simp⟩
  have hmem := (List.prefix_of_prefix_length_le (hfirst.trans h) hchunk (by simp)).subset
    (List.mem_append_right before List.mem_cons_self)
  rcases List.mem_append.1 hmem with hin | hin
  · exact absurd hin (by decide)
  · exact hbefore hin

theorem chunkKey_below (dir rest : Key) (start size : Int) :
    ∃ more, chunkKey (dir ++ rest) start size = [99, 104, 117, 110, 107, 58] ++ (dir ++ (rest ++ 58 :: more)) :=
  ⟨Numerals.itoa start ++ 58 :: Numerals.itoa size, by simp [chunkKey, chunkPrefix]⟩

theorem chunkPrefix_below {dir rest more : Key} (hne : rest ≠ []) :
    (chunkPrefix dir).isPrefixOf ([99, 104, 117, 110, 107, 58] ++ (dir ++ (rest ++ 58 :: more))) ↔ rest.head? = some 58 := by
  rw [List.isPrefixOf_iff_prefix, chunkPrefix, List.append_assoc, List.prefix_append_right_inj,
    List.prefix_append_right_inj]
  cases rest with
  | nil => exact absurd rfl hne
  | cons c rest => simp [List.cons_prefix_cons, eq_comm]

/-! ## The index of a cache that was only written -/

theorem settle_index (d : DataCache P) (index : LRUCache Key (CacheEntry P)) : (d.settle index).index = index := by
  have hfold : ∀ (calls : List (Key × CacheEntry P)) (d : DataCache P),
      (calls.foldl (fun d call => d.deleteFile call.2.filePath) d).index = d.index := by
    intro calls
    induction calls with
    | nil => exact fun _ => rfl
    | cons call rest ih => exact fun d => ih (d.deleteFile call.2.filePath)
  exact hfold ..

theorem Formed.settle (h : Formed d.index) {index : LRUCache Key (CacheEntry P)}
    {gone : List (Entry Key (CacheEntry P))} (hrem : Removed d.index gone index) : Formed (d.settle index).index := by
  rw [settle_index]
  exact h.removed hrem

theorem Formed.drop (h : Formed d.index) (now : Int) (key : Key) : Formed (d.drop now key).index := by
  rw [DataCache.drop]
  rcases get_inv h.1 now key with ⟨hget, -⟩ | ⟨e, hitem, -, hget⟩ <;> rw [hget]
  · exact h
  · obtain ⟨hmem, rfl⟩ := (h.1.items _ _).1 hitem
    have hfront : Formed (atFront d.index e) := h.again (hitem ▸ nofun)
    exact Formed.settle (d := DataCache.deleteFile { d with index := atFront d.index e } e.value.filePath) hfront
      (removed_delete hfront.1 e.key)

theorem Formed.makeRoom (h : Formed d.index) (now : Int) (size n : Nat) :
    Formed (DataCache.makeRoom now size n d).index := by
  induction n generalizing d with
  | zero => exact h
  | succ n ih =>
    rw [DataCache.makeRoom]
    split
    · split
      · exact h
      · refine ih ?_
        rw [DataCache.evictOldest]
        split
        · exact h.settle (removed_cleanExpired h.1 now)
        · exact h.settle (removed_evictOldest d.index)
    · exact h

theorem Formed.write (h : Formed d.index) (now : Int) (key : Key) (size : Nat) :
    Formed (d.write getCacheFilePath now key size).index := by
  rw [DataCache.write]
  split
  · exact h
  · rw [DataCache.store, settle_index]
    exact ((h.drop now key).makeRoom now size _).set now key _

theorem formed_of_reach (h : Reach (dataSystem getCacheFilePath) always d) : Formed d.index := by
  refine Reach.invariant (I := fun d => Formed d.index) (fun d hi => ?_) (fun d e d' hi _ hs => ?_) h
  · obtain ⟨-, -, hpos, hitems, hlist⟩ := hi
    refine ⟨⟨?_, ?_⟩, hpos, ?_⟩ <;> simp [hitems, hlist]
  · rw [show d' = d.after getCacheFilePath e from hs]
    cases e <;> exact hi.write ..

/-- After `DeleteObjectPrefix` at `now` no read of an object strictly below finds an entry. -/
def Dropped (d : DataCache P) (objectPrefix : Key) (now : Int) : Prop :=
  ∀ rest later, rest ≠ [] → now ≤ later →
    ((d.deleteObjectPrefix objectPrefix).index.get later (DataCache.below objectPrefix ++ rest)).1 = none ∧
    ∀ start size, ((d.deleteObjectPrefix objectPrefix).index.get later
      (chunkKey (DataCache.below objectPrefix ++ rest) start size)).1 = none

/-- **A directory's entries all go exactly when the cache finds no chunk below it** of an
object whose name there does not begin with a colon. -/
theorem prefix_drops_below (h : Reach (dataSystem getCacheFilePath) always d) (objectPrefix : Key) (now : Int) :
    Dropped d objectPrefix now ∧ KeysApart ↔ ∀ rest start size, rest ≠ [] → rest.head? ≠ some 58 →
      (d.index.get now (chunkKey (DataCache.below objectPrefix ++ rest) start size)).1 = none := by
  have hformed := formed_of_reach h
  obtain ⟨dir, hdir⟩ : ∃ dir, dir = DataCache.below objectPrefix := ⟨_, rfl⟩
  have hslash : 47 ∈ dir := hdir ▸ mem_below objectPrefix
  have hitems : ∀ key, (d.deleteObjectPrefix objectPrefix).index.items key =
      if (chunkPrefix dir).isPrefixOf key then none else if dir.isPrefixOf key then none else d.index.items key := by
    have hfirst := removed_deleteWhere hformed.1 fun key => dir.isPrefixOf key
    have hindex : (d.deletePrefix dir).index = _ := settle_index ..
    have hform : Formed (d.deletePrefix dir).index := hformed.settle hfirst
    intro key
    rw [DataCache.deleteObjectPrefix, ← hdir, DataCache.deletePrefix, settle_index,
      items_deleteWhere hform.1, hindex, items_deleteWhere hformed.1]
  have hchunk : ∀ {rest}, rest ≠ [] → rest.head? ≠ some 58 → ∀ start size,
      (d.deleteObjectPrefix objectPrefix).index.items (chunkKey (dir ++ rest) start size) =
        d.index.items (chunkKey (dir ++ rest) start size) := by
    intro rest hne hcolon start size
    obtain ⟨more, hkey⟩ := chunkKey_below dir rest start size
    rw [hitems, hkey, if_neg (mt (chunkPrefix_below hne).1 hcolon),
      if_neg (mt List.isPrefixOf_iff_prefix.1 (below_not_chunk hslash))]
  rw [and_iff_left keysApart, Dropped, ← hdir]
  constructor
  · intro hdrop rest start size hne hcolon
    have hnone := get_eq_none.1 ((hdrop rest now hne (Int.le_refl now)).2 start size)
    rw [hchunk hne hcolon] at hnone
    exact get_eq_none.2 hnone
  · intro hnone rest later hne hle
    refine ⟨get_eq_none.2 fun e he => ?_, fun start size => get_eq_none.2 fun e he => ?_⟩
    · rw [hitems, if_pos (List.isPrefixOf_iff_prefix.2 (List.prefix_append dir rest)), ite_self] at he
      cases he
    · by_cases hcolon : rest.head? = some 58
      · obtain ⟨more, hkey⟩ := chunkKey_below dir rest start size
        rw [hitems, hkey, if_pos ((chunkPrefix_below hne).2 hcolon)] at he
        cases he
      · rw [hchunk hne hcolon] at he
        exact Int.lt_of_lt_of_le (get_eq_none.1 (hnone rest start size hne hcolon) e he) hle

end

/-! ## A chunk left -/

def emptyData : DataCache Key := ⟨10, 0, ⟨3, 1, fun _ => none, [], []⟩, []⟩

theorem reach_emptyData : Reach (dataSystem fun key : Key => key) always emptyData :=
  .init ⟨rfl, rfl, Nat.succ_pos 2, rfl, rfl⟩

/-- The chunk of `/a/b` is stored and the directory `/a` dropped: its read still hits. -/
theorem chunk_below_left : ∃ d, Reach (dataSystem fun key : Key => key) always d ∧ ¬ Dropped d [47, 97] 0 := by
  refine ⟨_, reach_emptyData.next (e := .writeChunk 0 [47, 97, 47, 98] 0 1 1) rfl, fun h => ?_⟩
  exact absurd ((h [98] 0 (by decide) (Int.le_refl 0)).2 0 1) (by decide)

/-- `/a/b` and `/b` are stored whole, and a chunk of `/a/:c`. -/
def storedData : DataCache Key :=
  ((emptyData.after (fun key => key) (.write 0 [47, 97, 47, 98] 1)).after (fun key => key)
    (.writeChunk 0 [47, 97, 47, 58, 99] 0 1 1)).after (fun key => key) (.write 0 [47, 98] 1)

/-- All that is stored below `/a` is dropped with it, and `/b` stays. -/
theorem stored_dropped : ((storedData.index.get 0 [47, 97, 47, 98]).1.isSome ∧
    (storedData.index.get 0 (chunkKey [47, 97, 47, 58, 99] 0 1)).1.isSome) ∧
    (Dropped storedData [47, 97] 0 ∧ KeysApart) ∧
    ((storedData.deleteObjectPrefix [47, 97]).index.get 0 [47, 98]).1.isSome := by
  have h : Reach (dataSystem fun key : Key => key) always storedData := ((reach_emptyData.next rfl).next rfl).next rfl
  refine ⟨by decide, (prefix_drops_below h [47, 97] 0).2 fun rest start size _ hcolon => ?_, by decide⟩
  refine get_eq_none.2 fun e he => ?_
  obtain ⟨hmem, hkey⟩ := ((formed_of_reach h).1.items _ _).1 he
  have hkeys : e.key ∈ [[47, 98], chunkKey [47, 97, 47, 58, 99] 0 1, [47, 97, 47, 98]] :=
    List.mem_map_of_mem hmem
  rw [hkey, List.mem_cons, List.mem_cons, List.mem_singleton] at hkeys
  rcases hkeys with hkeys | hkeys | hkeys
  · exact absurd hkeys (keysApart.2 _ _ _ _)
  · -- the only chunk is of an object with a colon in front
    have hobject : [47, 97, 47] ++ rest = [47, 97, 47] ++ [58, 99] := (chunkKey_inj hkeys).1
    rw [List.append_cancel_left hobject] at hcolon
    exact absurd rfl hcolon
  · exact absurd hkeys (keysApart.2 _ _ _ _)

end Bluestone.Cache
