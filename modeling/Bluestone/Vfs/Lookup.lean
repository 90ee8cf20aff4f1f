/-
# `Bluestone.Vfs.Lookup` — finding a name without listing the directory

`matchChild` of `internal/vfs/names.go` with what it asks of the bucket and of staging.  A
name that does not exist as spelled is searched for among the entries that begin with a case
variant of its first characters; what it should find is the first match of the whole
directory in byte order (`FullSearch`).

Names are bytes, and `strings.EqualFold` reads a byte that is no character as U+FFFD.  A key
that is not valid is therefore searched for in the whole directory.  A valid key with U+FFFD
in it is not, although names with such bytes match it, which begin with none of its variants.

Nothing here is hidden by a pending delete, every listing succeeds within its limit, and a
cached listing is the one the bucket would give.
-/
import Bluestone.Library.Firsts
import Bluestone.Staging.Session
import Bluestone.Vfs.Folding
import Mathlib.Data.List.DropRight

namespace Bluestone.Lookup

open Utf8
open List (mem_cons le_refl mem_append mem_map mem_filter drop_left mem_flatMap)
open Firsts

/-! ## Case folding -/

variable (f : Folding)

/-- `strings.EqualFold`. -/
def equalFold (name key : Bytes) : Bool := equalRunes f (runes name) (runes key)

/-- The loop of `foldPrefixes`; `first` until the first character is taken. -/
def foldPrefixesLoop (limit : Nat) : Bool → List Bytes → List Char → List Bytes
  | _, prefixes, [] => prefixes
  | first, prefixes, r :: rest =>
    if !first && decide (limit < prefixes.length * (foldOrbit f r).length) then prefixes
    else foldPrefixesLoop limit false
      (prefixes.flatMap fun p => (foldOrbit f r).map fun variant => p ++ encode variant) rest

def foldPrefixes (key : Bytes) (limit : Nat) : List Bytes :=
  foldPrefixesLoop f limit true [[]] (runes key)

def maxFoldPrefixes : Nat := 8

/-! ## A directory -/

def slash : UInt8 := 47

/-- A staging session, as far as a lookup reads it. -/
structure Session where
  name : Bytes
  dirty : Bool
  size : Nat
  prefetched : Bool
  deriving DecidableEq, Repr

/-- What a directory holds.  Keys and paths are without the directory's own. -/
structure Directory where
  /-- The keys of the bucket below the directory. -/
  below : List Bytes
  /-- The sessions in the directory. -/
  sessions : List Session
  /-- The dirty files below the directory. -/
  dirtyBelow : List Bytes
  /-- Whether the store lists children. -/
  listsChildren : Bool
  /-- A path of the gateway's own. -/
  reserved : Bytes → Bool
  /-- What a stat finds for a text that is not the name of an entry. -/
  elsewhere : Bytes → Bool
  named : ∀ key ∈ below, key.head? ≠ some slash
  sessionNamed : ∀ s ∈ sessions, slash ∉ s.name

/-- `strings.Trim(relPath, "/")`. -/
def trimSlashes (key : Bytes) : Bytes := (key.dropWhile (· == slash)).rdropWhile (· == slash)

/-- The name of the entry a key below the directory belongs to. -/
def entryName (key : Bytes) : Bytes := (trimSlashes key).takeWhile (· != slash)

namespace Directory

variable (d : Directory)

/-- `ListDirectory`, its names. -/
def listedNames : List Bytes := (firsts entryName [] (d.below.filter (· ≠ []))).map entryName

/-- `stagedChildNames`: the sessions, and the directories that dirty files imply. -/
def stagedChildNames : List Bytes :=
  d.sessions.map (·.name) ++
    (d.dirtyBelow.filter fun path => path.contains slash && path.head? != some slash).map
      fun path => path.takeWhile (· != slash)

/-- What is below a prefix, as `ListChildren` groups it: the objects directly beneath it, and
for anything deeper what stands before the next slash. -/
def childKeys (namePrefix : Bytes) : List Bytes :=
  let keys := d.below.filter fun key => namePrefix.isPrefixOf key
  if d.listsChildren then
    (keys.filter fun key => !(key.drop namePrefix.length).contains slash) ++
      (keys.filter fun key => (key.drop namePrefix.length).contains slash).map fun key =>
        namePrefix ++ (key.drop namePrefix.length).takeWhile (· != slash) ++ [slash]
  else keys

def childNamesWithPrefix (namePrefix : Bytes) : List Bytes :=
  (firsts entryName [] ((d.childKeys namePrefix).filter fun key => key ≠ [] ∧ entryName key ≠ [])).map
    entryName

/-- A text that can be the name of an entry. -/
def isName (key : Bytes) : Bool := !key.isEmpty && !key.contains slash && key != [46] && key != [46, 46]

/-- Whether `statPath` finds the key. -/
def statPath (key : Bytes) : Bool :=
  if isName key then
    !d.reserved key && (d.sessions.any (fun s => s.name == key && (s.dirty || s.size == 0 || s.prefetched)) ||
      d.below.any fun other => other == key || (key ++ [slash]).isPrefixOf other)
  else d.elsewhere key

/-- `childNames`. -/
def childNames : List Bytes := d.listedNames ++ d.stagedChildNames

end Directory

/-! ## The lookup -/

def foldCandidates (d : Directory) (key : Bytes) : List Bytes :=
  if validString key then
    (foldPrefixes f key maxFoldPrefixes).flatMap d.childNamesWithPrefix ++ d.stagedChildNames
  else d.childNames

def matchChild (d : Directory) (cached : Bool) (key : Bytes) : Bytes :=
  if cached then bestMatch (equalFold f · key) key [] (d.listedNames ++ d.stagedChildNames)
  else if d.statPath key then key
  else bestMatch (equalFold f · key) key [] (foldCandidates f d key)

/-- What a search of all the entries finds: the key if it is one, else the first match in
byte order, else the key. -/
structure FullSearch (entries : List Bytes) (key found : Bytes) : Prop where
  exact_ : key ∈ entries → found = key
  first : key ∉ entries → (∃ name ∈ entries, equalFold f name key = true) →
    found ∈ entries ∧ equalFold f found key = true ∧
      ∀ name ∈ entries, equalFold f name key = true → found ≤ name
  none_ : key ∉ entries → (∀ name ∈ entries, equalFold f name key = false) → found = key

/-! ## Characters and their cases -/

variable {f}

theorem equalFold_iff {name key : Bytes} : equalFold f name key ↔
    List.Forall₂ (fun r s => s ∈ foldOrbit f r) (runes key) (runes name) := by
  rw [equalFold, ← equalRunes_iff]
  exact ⟨equalRunes_symm, equalRunes_symm⟩

theorem equalFold_refl (key : Bytes) : equalFold f key key := equalRunes_refl _

theorem runes_eq_of_fixed {name key : Bytes} (h : equalFold f name key)
    (hkey : ∀ r ∈ runes key, f.next r = r) : runes name = runes key :=
  eq_of_fixed (equalRunes_symm h) hkey

/-! ## The loop over the candidates -/

variable {key : Bytes}

/-- A search of some of the entries finds what a search of all does, if these have the key
whenever it is an entry, and for every match one that is not after it. -/
theorem FullSearch.of_candidates {candidates entries : List Bytes} {found : Bytes}
    (h : FullSearch f candidates key found) (hsub : ∀ name ∈ candidates, name ∈ entries)
    (hkey : key ∈ entries → key ∈ candidates)
    (hmatch : ∀ name ∈ entries, equalFold f name key →
      ∃ other ∈ candidates, equalFold f other key ∧ other ≤ name) :
    FullSearch f entries key found where
  exact_ hmem := h.exact_ (hkey hmem)
  first hmem := by
    rintro ⟨name, hname, hfold⟩
    obtain ⟨other, hother, hfold', -⟩ := hmatch name hname hfold
    obtain ⟨hfound, haccepts, hleast⟩ := h.first (fun hcand => hmem (hsub key hcand))
      ⟨other, hother, hfold'⟩
    refine ⟨hsub _ hfound, haccepts, fun name hname hfold => ?_⟩
    obtain ⟨other, hother, hfold', hle⟩ := hmatch name hname hfold
    exact List.le_trans (hleast other hother hfold') hle
  none_ hmem hnone :=
    h.none_ (fun hcand => hmem (hsub key hcand)) fun name hname => hnone name (hsub name hname)

theorem runes_ne_nil {b : UInt8} {text : Bytes} : runes (b :: text) ≠ [] := by
  cases hread : decodeRune (b :: text) with
  | none => simp [runes_invalid hread]
  | some read => simp [decodeRune_eq_some hread, runes_encode]

theorem eq_nil_of_equalFold (h : equalFold f [] key) : key = [] := by
  cases key with
  | nil => rfl
  | cons b key =>
    rw [equalFold_iff, runes_nil, List.forall₂_nil_right_iff] at h
    exact absurd h runes_ne_nil

/-- The best match so far, as entries. -/
def soFar (found : Bytes) : List Bytes := if found = [] then [] else [found]

theorem mem_soFar {found name : Bytes} : name ∈ soFar found ↔ found ≠ [] ∧ name = found := by
  rw [soFar]
  split
  next h => simp [h]
  next h => simp [h]

/-- What the loop answers is what a search of the best match so far and the rest finds. -/
theorem bestMatch_fullSearch {names : List Bytes} {found : Bytes}
    (hfound : found ≠ [] → equalFold f found key ∧ found ≠ key) :
    FullSearch f (soFar found ++ names) key (bestMatch (equalFold f · key) key found names) := by
  induction names generalizing found with
  | nil =>
    have hkey : key ∉ soFar found := by
      rw [mem_soFar]
      exact fun ⟨hne, heq⟩ => (hfound hne).2 heq.symm
    rw [bestMatch, List.append_nil]
    refine ⟨fun hmem => absurd hmem hkey, fun _ => ?_, fun _ hnone => ?_⟩
    · rintro ⟨name, hname, hfold⟩
      obtain ⟨hne, rfl⟩ := mem_soFar.1 hname
      rw [if_neg hne]
      refine ⟨hname, hfold, fun other hother _ => ?_⟩
      rw [(mem_soFar.1 hother).2]
      exact le_refl _
    · by_cases hne : found = []
      · rw [if_pos hne]
      · exact absurd (hfound hne).1 (by simp [hnone found (mem_soFar.2 ⟨hne, rfl⟩)])
  | cons name rest ih =>
    rw [bestMatch]
    split
    next heq =>
      subst heq
      exact ⟨fun _ => rfl, fun hmem => absurd (by simp) hmem, fun hmem => absurd (by simp) hmem⟩
    next hkey =>
    split
    next hbetter =>
      simp only [Bool.and_eq_true, Bool.or_eq_true, decide_eq_true_eq] at hbetter
      obtain ⟨hfold, hfirst⟩ := hbetter
      have hname : name ≠ [] := by
        rintro rfl
        exact hkey (eq_nil_of_equalFold hfold).symm
      -- the name takes the place of the best match so far, which is after it
      refine (ih fun _ => ⟨hfold, hkey⟩).of_candidates ?_ ?_ ?_
      · intro other hother
        rw [mem_append, mem_soFar] at hother
        grind
      · intro hmem
        rw [mem_append, mem_soFar] at hmem
        grind
      · intro other hother hfold'
        rw [mem_append, mem_soFar] at hother
        obtain ⟨hne, rfl⟩ | hother := hother
        · refine ⟨name, by simp [mem_soFar, hname], hfold, ?_⟩
          exact List.le_of_lt (hfirst.resolve_left hne)
        · refine ⟨other, by grind [mem_soFar], hfold', le_refl _⟩
    next hworse =>
      simp only [Bool.and_eq_true, Bool.or_eq_true, decide_eq_true_eq] at hworse
      refine (ih hfound).of_candidates (by grind) (by grind) ?_
      intro other hother hfold'
      by_cases hsame : other = name
      · subst hsame
        have hsome : found ≠ [] ∧ ¬ other < found := by grind
        exact ⟨found, by simp [mem_soFar, hsome.1], (hfound hsome.1).1, List.not_lt.1 hsome.2⟩
      · exact ⟨other, by grind, hfold', le_refl _⟩

/-! ## The names of a directory -/

theorem takeWhile_of_prefix {part whole : Bytes} (h : part <+: whole) (hslash : slash ∈ part) :
    part.takeWhile (· != slash) = whole.takeWhile (· != slash) := by
  obtain ⟨rest, rfl⟩ := h
  rw [List.takeWhile_append, if_neg]
  intro hall
  have hself := (List.takeWhile_prefix (· != slash)).eq_of_length hall
  exact absurd (List.takeWhile_eq_self_iff.1 hself slash hslash) (by simp)

theorem entryName_eq {key : Bytes} (h : key.head? ≠ some slash) :
    entryName key = key.takeWhile (· != slash) := by
  have hhead : key.dropWhile (· == slash) = key := by
    cases key with
    | nil => rfl
    | cons b key =>
      rw [List.dropWhile_cons_of_neg]
      simpa using h
  rw [entryName, trimSlashes, hhead]
  clear h hhead
  induction key using List.reverseRecOn with
  | nil => rfl
  | append_singleton key b ih =>
    rw [List.rdropWhile_concat]
    split
    next hb =>
      rw [ih, List.takeWhile_append, List.takeWhile_cons_of_neg (by simpa using hb), List.append_nil]
      split
      next hall => exact (List.takeWhile_prefix _).eq_of_length hall
      next => rfl
    next => rfl

theorem slash_notMem_takeWhile {key : Bytes} : slash ∉ key.takeWhile (· != slash) :=
  fun hmem => absurd (List.mem_takeWhile_imp hmem) (by simp)

theorem exists_slash {text : Bytes} (h : slash ∈ text) :
    ∃ tail, text = text.takeWhile (· != slash) ++ slash :: tail := by
  induction text with
  | nil => cases h
  | cons b text ih =>
    by_cases hb : b = slash
    · exact ⟨text, by simp [hb]⟩
    · obtain ⟨tail, htail⟩ := ih ((mem_cons.1 h).resolve_left (Ne.symm hb))
      refine ⟨tail, ?_⟩
      rw [List.takeWhile_cons_of_pos (by simpa using hb), List.cons_append, ← htail]

namespace Directory

variable {d : Directory} {name : Bytes}

theorem entryName_below {key : Bytes} (h : key ∈ d.below) : entryName key = key.takeWhile (· != slash) :=
  entryName_eq (d.named key h)

theorem mem_listedNames : name ∈ d.listedNames ↔ name ≠ [] ∧ ∃ key ∈ d.below, entryName key = name := by
  rw [listedNames, mem_map_firsts, mem_map]
  constructor
  · rintro ⟨⟨key, hkey, rfl⟩, -⟩
    obtain ⟨hbelow, hne⟩ := mem_filter.1 hkey
    refine ⟨?_, key, hbelow, rfl⟩
    have hhead := d.named key hbelow
    rw [entryName_below hbelow]
    cases key with
    | nil => simp at hne
    | cons b key =>
      rw [List.takeWhile_cons_of_pos (by simpa using hhead)]
      exact List.cons_ne_nil _ _
  · rintro ⟨hne, key, hkey, rfl⟩
    refine ⟨⟨key, mem_filter.2 ⟨hkey, decide_eq_true ?_⟩, rfl⟩, List.not_mem_nil⟩
    rintro rfl
    exact hne rfl

theorem entryName_group {namePrefix rest : Bytes} (hkey : namePrefix ++ rest ∈ d.below)
    (hslash : slash ∈ rest) : entryName (namePrefix ++ rest.takeWhile (· != slash) ++ [slash]) =
    entryName (namePrefix ++ rest) := by
  have hgroup : namePrefix ++ rest.takeWhile (· != slash) ++ [slash] <+: namePrefix ++ rest := by
    obtain ⟨tail, htail⟩ := exists_slash hslash
    refine ⟨tail, ?_⟩
    simp only [List.append_assoc, List.singleton_append]
    rw [← htail]
  have hhead : (namePrefix ++ rest.takeWhile (· != slash) ++ [slash]).head? ≠ some slash := by
    have hnamed := d.named _ hkey
    obtain ⟨tail, htail⟩ := hgroup
    rwa [← htail, List.head?_append_of_ne_nil _ (by simp)] at hnamed
  rw [entryName_eq hhead, entryName_below hkey]
  exact takeWhile_of_prefix hgroup (by simp)

theorem mem_childKeys {namePrefix child : Bytes} : child ∈ d.childKeys namePrefix ↔
    ∃ rest, namePrefix ++ rest ∈ d.below ∧
      child = if d.listsChildren ∧ slash ∈ rest then
        namePrefix ++ rest.takeWhile (· != slash) ++ [slash] else namePrefix ++ rest := by
  have hkeys : ∀ {key : Bytes}, key ∈ d.below.filter (fun key => namePrefix.isPrefixOf key) ↔
      ∃ rest, key = namePrefix ++ rest ∧ namePrefix ++ rest ∈ d.below := by
    intro key
    rw [mem_filter, List.isPrefixOf_iff_prefix]
    constructor
    · rintro ⟨hkey, rest, rfl⟩
      exact ⟨rest, rfl, hkey⟩
    · rintro ⟨rest, rfl, hkey⟩
      exact ⟨hkey, List.prefix_append ..⟩
  rw [childKeys]
  generalize d.below.filter (fun key => namePrefix.isPrefixOf key) = keys at hkeys ⊢
  cases hlists : d.listsChildren with
  | false =>
    simp only [Bool.false_eq_true, if_false, false_and, hkeys]
    grind
  | true =>
    simp only [if_true, true_and, mem_append, mem_map, mem_filter, hkeys]
    constructor
    · rintro (⟨⟨rest, rfl, hkey⟩, hflat⟩ | ⟨_, ⟨⟨rest, rfl, hkey⟩, hdeep⟩, rfl⟩)
      · rw [drop_left] at hflat
        exact ⟨rest, hkey, by rw [if_neg (by simpa using hflat)]⟩
      · rw [drop_left] at hdeep ⊢
        exact ⟨rest, hkey, by rw [if_pos (by simpa using hdeep)]⟩
    · rintro ⟨rest, hkey, rfl⟩
      split
      next hdeep =>
        exact .inr ⟨_, ⟨⟨rest, rfl, hkey⟩, by simpa using hdeep⟩, by rw [drop_left]⟩
      next hflat => exact .inl ⟨⟨rest, rfl, hkey⟩, by simpa using hflat⟩

theorem mem_childNamesWithPrefix {namePrefix : Bytes} : name ∈ d.childNamesWithPrefix namePrefix ↔
    name ≠ [] ∧ ∃ key ∈ d.below, namePrefix <+: key ∧ entryName key = name := by
  have hchild : (∃ child ∈ d.childKeys namePrefix, entryName child = name) ↔
      ∃ key ∈ d.below, namePrefix <+: key ∧ entryName key = name := by
    constructor
    · rintro ⟨child, hmem, rfl⟩
      obtain ⟨rest, hkey, rfl⟩ := mem_childKeys.1 hmem
      refine ⟨_, hkey, List.prefix_append .., ?_⟩
      split
      next h => exact (entryName_group hkey h.2).symm
      next => rfl
    · rintro ⟨key, hkey, ⟨rest, rfl⟩, rfl⟩
      refine ⟨_, mem_childKeys.2 ⟨rest, hkey, rfl⟩, ?_⟩
      split
      next h => exact entryName_group hkey h.2
      next => rfl
  rw [← hchild, childNamesWithPrefix, mem_map_firsts, mem_map]
  constructor
  · rintro ⟨⟨child, hmem, rfl⟩, -⟩
    obtain ⟨hmem, hne⟩ := mem_filter.1 hmem
    exact ⟨(of_decide_eq_true hne).2, child, hmem, rfl⟩
  · rintro ⟨hne, child, hmem, rfl⟩
    refine ⟨⟨child, mem_filter.2 ⟨hmem, decide_eq_true ⟨?_, hne⟩⟩, rfl⟩, List.not_mem_nil⟩
    rintro rfl
    exact hne rfl

theorem slash_notMem_childNames (h : name ∈ d.childNames) : slash ∉ name := by
  rw [childNames, mem_append] at h
  obtain h | h := h
  · obtain ⟨-, key, hkey, rfl⟩ := mem_listedNames.1 h
    rw [entryName_below hkey]
    exact slash_notMem_takeWhile
  · rw [stagedChildNames, mem_append, mem_map, mem_map] at h
    obtain ⟨s, hs, rfl⟩ | ⟨path, -, rfl⟩ := h
    · exact d.sessionNamed s hs
    · exact slash_notMem_takeWhile

theorem mem_childNames_of_stat (hname : isName name) (h : d.statPath name) :
    name ∈ d.childNames := by
  rw [statPath, if_pos hname, Bool.and_eq_true, Bool.or_eq_true] at h
  rw [isName] at hname
  have hne : name ≠ [] := by
    rintro rfl
    simp at hname
  have hslash : slash ∉ name := by simp_all
  have hself : name.takeWhile (· != slash) = name := by
    rw [List.takeWhile_eq_self_iff]
    intro b hb
    simpa using fun heq : b = slash => hslash (heq ▸ hb)
  rw [childNames, mem_append, mem_listedNames]
  obtain hsession | hbelow := h.2
  · obtain ⟨s, hs, hfound⟩ := List.any_eq_true.1 hsession
    refine .inr (List.mem_append_left _ (mem_map.2 ⟨s, hs, ?_⟩))
    simp_all
  · obtain ⟨other, hother, hfound⟩ := List.any_eq_true.1 hbelow
    refine .inl ⟨hne, other, hother, ?_⟩
    rw [Bool.or_eq_true, beq_iff_eq, List.isPrefixOf_iff_prefix] at hfound
    rw [entryName_below hother]
    obtain rfl | hdir := hfound
    · exact hself
    · rw [← takeWhile_of_prefix hdir (by simp), List.takeWhile_append, hself, if_pos rfl]
      simp

end Directory

/-! ## A key that is found as spelled -/

theorem slash_mem_iff {text : Bytes} : slash ∈ text ↔ '/' ∈ runes text := by
  have hslash : encode '/' = [slash] := by decide
  induction text using text_induction with
  | nil => simp [runes_nil]
  | invalid b rest hread ih =>
    have hb : b ≠ slash := by
      rintro rfl
      have hsome := decodeRune_encode '/' rest
      rw [hslash, List.singleton_append, hread] at hsome
      cases hsome
    have hunknown : '/' ≠ replacement := by decide
    rw [runes_invalid hread, mem_cons, mem_cons]
    simpa [hb.symm, hunknown] using ih
  | char c rest ih =>
    have hchar : slash ∈ encode c ↔ '/' = c := by
      constructor
      · intro hmem
        have hc : c.toNat = slash.toNat := by simpa [slash] using mem_encode hmem
        rw [← Char.ofNat_toNat c, hc]
        rfl
      · rintro rfl
        simp [hslash]
    rw [runes_encode, mem_append, mem_cons, hchar]
    exact or_congr_right ih

theorem eq_of_fixed {name key : Bytes} (h : equalFold f name key)
    (hfixed : ∀ r ∈ runes key, f.next r = r) (hknown : replacement ∉ runes key) : name = key := by
  have hself : ∀ {text : Bytes}, runes text = runes key → text = (runes key).flatMap encode := by
    intro text htext
    have hall : runes text = runes key ++ [] := by rw [htext, List.append_nil]
    obtain ⟨rest, heq, hrest⟩ := eq_append_of_runes hall hknown
    cases rest with
    | nil => simpa using heq
    | cons b rest => exact absurd hrest runes_ne_nil
  exact (hself (runes_eq_of_fixed h hfixed)).trans (hself rfl).symm

theorem fullSearch_of_stat {d : Directory} (h : d.statPath key) :
    FullSearch f d.childNames key key := by
  refine ⟨fun _ => rfl, fun hkey => ?_, fun _ _ => rfl⟩
  rintro ⟨name, hname, hfold⟩
  exfalso
  cases hisName : Directory.isName key with
  | true => exact hkey (Directory.mem_childNames_of_stat hisName h)
  | false =>
    -- a text that is no name is matched by itself or by a name with a slash
    have hself : (∀ r ∈ runes key, r = '.') → False := by
      intro hperiods
      refine hkey (eq_of_fixed hfold (fun r hr => ?_) (fun hmem => ?_) ▸ hname)
      · rw [hperiods r hr]
        exact f.period
      · exact absurd (hperiods _ hmem) (by decide)
    simp only [Directory.isName, Bool.and_eq_false_iff, Bool.not_eq_false', List.isEmpty_iff,
      List.contains_iff_mem, bne_eq_false_iff_eq] at hisName
    obtain ((rfl | hslash) | rfl) | rfl := hisName
    · exact hself (by simp [runes_nil])
    · refine Directory.slash_notMem_childNames hname (slash_mem_iff.2 ?_)
      exact (mem_iff_of_fixed f.slash (equalFold_iff.1 hfold)).1 (slash_mem_iff.1 hslash)
    all_goals exact hself (List.forall_iff_forall_mem.1 (by decide))

/-! ## The prefixes that are searched -/

variable (f) in
/-- The characters that are taken while their variants together are within the limit, with
`count` of them so far; the first is taken always. -/
def coveredLoop (limit : Nat) : Bool → Nat → List Char → List Char
  | _, _, [] => []
  | first, count, r :: rest =>
    if !first && decide (limit < count * (foldOrbit f r).length) then []
    else r :: coveredLoop limit false (count * (foldOrbit f r).length) rest

variable (f) in
/-- The first characters of the key whose case variants together are within the limit. -/
def covered (key : Bytes) (limit : Nat) : List Char := coveredLoop f limit true 1 (runes key)

theorem coveredLoop_prefix {limit count : Nat} {first : Bool} {rs : List Char} :
    coveredLoop f limit first count rs <+: rs := by
  induction rs generalizing first count with
  | nil => exact List.nil_prefix
  | cons r rs ih =>
    rw [coveredLoop]
    split
    · exact List.nil_prefix
    · exact (List.prefix_cons_inj r).2 ih

theorem mem_foldPrefixesLoop {limit : Nat} {first : Bool} {prefixes : List Bytes} {rs : List Char}
    {p : Bytes} : p ∈ foldPrefixesLoop f limit first prefixes rs ↔ ∃ q ∈ prefixes, ∃ variants,
    List.Forall₂ (fun r s => s ∈ foldOrbit f r) (coveredLoop f limit first prefixes.length rs) variants ∧
    p = q ++ variants.flatMap encode := by
  induction rs generalizing first prefixes with
  | nil => simp [foldPrefixesLoop, coveredLoop]
  | cons r rs ih =>
    rw [foldPrefixesLoop, coveredLoop]
    split
    · simp
    · have hlen : (prefixes.flatMap fun p => (foldOrbit f r).map fun variant => p ++ encode variant).length =
          prefixes.length * (foldOrbit f r).length := by
        simp [List.length_flatMap]
      rw [ih, hlen]
      constructor
      · rintro ⟨_, hmem, variants, hvariants, rfl⟩
        obtain ⟨q, hq, hmem⟩ := mem_flatMap.1 hmem
        obtain ⟨s, hs, rfl⟩ := mem_map.1 hmem
        exact ⟨q, hq, s :: variants, .cons hs hvariants, by simp⟩
      · rintro ⟨q, hq, _, hvariants, rfl⟩
        cases hvariants with
        | cons hs hrest =>
          exact ⟨_, mem_flatMap.2 ⟨q, hq, List.mem_map_of_mem hs⟩, _, hrest, by simp⟩

theorem mem_foldPrefixes {limit : Nat} {p : Bytes} : p ∈ foldPrefixes f key limit ↔
    ∃ variants, List.Forall₂ (fun r s => s ∈ foldOrbit f r) (covered f key limit) variants ∧
    p = variants.flatMap encode := by
  rw [foldPrefixes, mem_foldPrefixesLoop]
  simp [covered]

/-- Every match begins with one of the prefixes, if none of the characters they cover is
U+FFFD. -/
theorem exists_prefix {limit : Nat} {name : Bytes} (hknown : replacement ∉ covered f key limit)
    (h : equalFold f name key) : ∃ p ∈ foldPrefixes f key limit, p <+: name := by
  obtain ⟨rest, hrest⟩ : covered f key limit <+: runes key := coveredLoop_prefix
  rw [equalFold_iff] at h
  have hstart := List.forall₂_take (covered f key limit).length h
  rw [← hrest, List.take_left] at hstart
  have hknown' := (not_congr (mem_iff_of_fixed f.unknown hstart)).1 hknown
  obtain ⟨tail, htail, -⟩ := eq_append_of_runes
    (List.take_append_drop (covered f key limit).length (runes name)).symm hknown'
  exact ⟨_, mem_foldPrefixes.2 ⟨_, hstart, rfl⟩, tail, htail.symm⟩

/-- A name with a byte that is no character in the place of U+FFFD is matched, and begins with
none of the prefixes that cover it. -/
theorem exists_unprefixed {limit : Nat} (h : replacement ∈ covered f key limit) :
    ∃ name, equalFold f name key ∧ ∀ p ∈ foldPrefixes f key limit, ¬ p <+: name := by
  obtain ⟨start, mid, hcovered, -⟩ := List.eq_append_cons_of_mem h
  obtain ⟨rest, hrest⟩ : covered f key limit <+: runes key := coveredLoop_prefix
  rw [hcovered, List.append_assoc, List.cons_append] at hrest
  have hname : runes (start.flatMap encode ++ 0xFF :: (mid ++ rest).flatMap encode) = runes key := by
    have htail : runes ((mid ++ rest).flatMap encode) = mid ++ rest := by
      simpa [runes_nil] using runes_flatMap_encode (mid ++ rest) []
    rw [runes_flatMap_encode, runes_invalid (decodeRune_ff _), htail, hrest]
  refine ⟨start.flatMap encode ++ 0xFF :: (mid ++ rest).flatMap encode, ?_, ?_⟩
  · rw [equalFold, hname]
    exact equalFold_refl key
  · rintro p hp ⟨tail, htail⟩
    obtain ⟨variants, hvariants, rfl⟩ := mem_foldPrefixes.1 hp
    -- the prefix has what precedes U+FFFD as the name has it, and then U+FFFD
    have hend := List.forall₂_drop start.length hvariants
    rw [hcovered, drop_left, List.forall₂_cons_left_iff] at hend
    obtain ⟨c, more, hc, -, hdrop⟩ := hend
    obtain rfl := (foldOrbit_fixed f.unknown).1 hc
    have hstart : variants.take start.length = start := by
      have hlen : start.length ≤ variants.length := by
        rw [← hvariants.length_eq, hcovered, List.length_append]
        exact Nat.le_add_right ..
      rw [← htail, runes_flatMap_encode, ← hrest] at hname
      simpa [List.take_append_of_le_length hlen] using congrArg (List.take start.length) hname
    rw [← List.take_append_drop start.length variants, hdrop, hstart, List.flatMap_append,
      List.append_assoc, List.append_cancel_left_eq, List.flatMap_cons] at htail
    have hhead : encode replacement = [0xEF, 0xBF, 0xBD] := by decide
    rw [hhead] at htail
    cases htail

/-! ## The lookup against a full search -/

theorem matchChild_fullSearch {d : Directory} {cached : Bool}
    (hknown : replacement ∉ covered f key maxFoldPrefixes) :
    FullSearch f (d.listedNames ++ d.stagedChildNames) key (matchChild f d cached key) := by
  have hloop : ∀ names, FullSearch f names key (bestMatch (equalFold f · key) key [] names) := by
    intro names
    have hall : FullSearch f (soFar [] ++ names) key (bestMatch (equalFold f · key) key [] names) :=
      bestMatch_fullSearch fun hne => absurd rfl hne
    simpa [soFar] using hall
  rw [matchChild]
  split
  · exact hloop _
  · split
    next hstat => exact fullSearch_of_stat hstat
    next =>
      rw [foldCandidates]
      split
      next =>
        -- a listed match is listed below one of the prefixes
        have hlisted : ∀ name, name ∈ d.listedNames ++ d.stagedChildNames → equalFold f name key →
            name ∈ (foldPrefixes f key maxFoldPrefixes).flatMap d.childNamesWithPrefix ++
              d.stagedChildNames := by
          intro name hname hfold
          rw [mem_append] at hname ⊢
          refine hname.imp_left fun hname => ?_
          obtain ⟨hne, other, hother, rfl⟩ := Directory.mem_listedNames.1 hname
          obtain ⟨p, hp, hprefix⟩ := exists_prefix hknown hfold
          refine mem_flatMap.2 ⟨p, hp, Directory.mem_childNamesWithPrefix.2 ⟨hne, other, hother, ?_, rfl⟩⟩
          rw [Directory.entryName_below hother] at hprefix
          exact hprefix.trans (List.takeWhile_prefix _)
        refine (hloop _).of_candidates ?_ (fun hkey => hlisted key hkey (equalFold_refl key)) ?_
        · intro name hname
          rw [mem_append] at hname ⊢
          refine hname.imp_left fun hname => ?_
          obtain ⟨p, -, hname⟩ := mem_flatMap.1 hname
          obtain ⟨hne, other, hother, -, rfl⟩ := Directory.mem_childNamesWithPrefix.1 hname
          exact Directory.mem_listedNames.2 ⟨hne, other, hother, rfl⟩
        · exact fun name hname hfold => ⟨name, hlisted name hname hfold, hfold, le_refl _⟩
      next => exact hloop _

/-- The case folding of one letter: k, the Kelvin sign, K. -/
def kelvin : Folding where
  next c := if c = 'k' then '\u212A' else if c = '\u212A' then 'K' else if c = 'K' then 'k' else c
  bound := 3
  returns c := by
    refine ⟨3, by decide, Nat.le_refl 3, ?_⟩
    simp only [Function.iterate_succ, Function.iterate_zero, Function.comp_apply, id_eq]
    by_cases hk : c = 'k'
    · subst hk
      decide
    · by_cases hsign : c = '\u212A'
      · subst hsign
        decide
      · by_cases hK : c = 'K'
        · subst hK
          decide
        · simp [hk, hsign, hK]
  slash := by decide
  period := by decide
  unknown := by decide

/-- A directory with one file, whose name is the byte 0xFF. -/
def unnamable : Directory where
  below := [[0xFF]]
  sessions := []
  dirtyBelow := []
  listsChildren := true
  reserved := fun _ => false
  elsewhere := fun _ => false
  named := by decide
  sessionNamed := by decide

end Bluestone.Lookup
