/-
# `Bluestone.Posix.MetadataCache` — cached metadata after an invalidation

`Stat` and `ListDirectory` of `internal/posix/operations.go` keep what the object store
answered in the cache of `internal/cache/metadata.go`.  A change is followed by an
invalidation, which removes entries and tells the fences of `listing_fence.go`:

    call            begin the fence, probe the store, check the fence, store the answer
    invalidation    actions of one step each: remove an entry, remove what is below a
                    directory, invalidate a fence

Calls and invalidations interleave step by step.  An answer outlives an invalidation if it
is in the cache after the invalidation has returned and its probe began before the
invalidation did (`Outlives`).

**What goes wrong.**  The check of the fence and the store of the answer are two steps, an
entry is removed before the fence is invalidated, and not every removal has a fence: a
directory's invalidation invalidates no listing of it or of what is below it, and an
attribute change no fence at all.

Paths are normalized ones, as the names from the root.
-/
import Bluestone.Library.Computed
import Bluestone.Library.Paths
import Bluestone.Library.Totals

namespace Bluestone.Metadata

open Runs Totals Paths

abbrev Path := List Name

/-- The path starts with the directory's path and a slash; with the root's, every path
does. -/
def under (dir path : Path) : Bool := dir.isPrefixOf path && (dir.isEmpty || path != dir)

/-! ## The fences -/

structure FenceEntry where
  listings : Nat
  generation : Nat
  deriving DecidableEq, Repr

abbrev ListingFence := Path → Option FenceEntry

namespace ListingFence

variable (f : ListingFence)

/-- The generation that a call of the path begins with. -/
def current (dir : Path) : Nat :=
  match f dir with
  | some entry => entry.generation
  | none => 0

def begin (dir : Path) : ListingFence := fun d =>
  if d = dir then
    match f d with
    | some entry => some { entry with listings := entry.listings + 1 }
    | none => some ⟨1, 0⟩
  else f d

/-- What `end` answers. -/
def unchanged (dir : Path) (generation : Nat) : Bool :=
  match f dir with
  | some entry => entry.generation == generation
  | none => false

/-- What `end` leaves behind. -/
def finish (dir : Path) : ListingFence := fun d =>
  if d = dir then
    match f d with
    | some entry => if entry.listings - 1 = 0 then none else some { entry with listings := entry.listings - 1 }
    | none => none
  else f d

/-- `invalidate` and `invalidatePrefix`: the calls in flight at the paths given are stale. -/
def invalidate (paths : Path → Bool) : ListingFence := fun d =>
  if paths d then (f d).map fun entry => { entry with generation := entry.generation + 1 } else f d

end ListingFence

/-! ## Entries, calls and invalidations -/

/-- An entry of the cache, each answer in it with the moment its probe began: the stat or
the miss, and the listing. -/
structure MetadataEntry where
  stat : Option Nat
  isDir : Bool
  negative : Bool
  childEntries : Option (Nat × List Name)
  deriving DecidableEq, Repr

/-- When the probes behind the entry began. -/
def MetadataEntry.began (e : MetadataEntry) : List Nat := e.stat.toList ++ (e.childEntries.map (·.1)).toList

/-- `Stat` uses the fence of lookups, `ListDirectory` that of listings. -/
inductive Kind
  | lookup
  | listing
  deriving DecidableEq, Repr

/-- What the store's answers amount to. -/
inductive Answer
  | fileInfo (isDir : Bool)
  | negative
  | entries (names : List Name)
  deriving DecidableEq, Repr

def Answer.kind : Answer → Kind
  | .fileInfo _ | .negative => .lookup
  | .entries _ => .listing

/-- How far a call is: waiting for the store, past the fence, within `SetDirEntries` with the
stat it keeps, and done. -/
inductive Stage
  | probing
  | checked (answer : Answer)
  | merging (names : List Name) (prev : Option Nat)
  | returned
  deriving DecidableEq, Repr

structure Call where
  kind : Kind
  path : Path
  began : Nat
  generation : Nat
  stage : Stage
  deriving DecidableEq, Repr

/-- When the probes behind what the call is about to store began. -/
def Call.held (c : Call) : List Nat :=
  match c.stage with
  | .checked _ => [c.began]
  | .merging _ prev => c.began :: prev.toList
  | .probing | .returned => []

/-- One step of an invalidation. -/
inductive Action
  | delete (path : Path)
  | deletePrefix (dir : Path)
  | invalidate (kind : Kind) (path : Path)
  | invalidatePrefix (dir : Path)
  /-- the entry of the directory is removed unless its cached listing has the name -/
  | unlessListed (dir : Path) (name : Name)
  deriving DecidableEq, Repr

/-- The entries an action removes. -/
def Action.removes : Action → Path → Bool
  | .delete p, q => q == p
  | .deletePrefix p, q => under p q
  | .invalidate _ _, _ | .invalidatePrefix _, _ | .unlessListed _ _, _ => false

/-- The fences an action invalidates. -/
def Action.fences : Action → Kind → Path → Bool
  | .invalidate k p, k', q => k' == k && q == p
  | .invalidatePrefix p, k, q => k == .lookup && under p q
  | .delete _, _, _ | .deletePrefix _, _, _ | .unlessListed _ _, _, _ => false

/-- The routines that invalidate metadata. -/
inductive Routine
  | fileMutation (path : Path)
  | directoryMutation (path : Path)
  | renameMutation (oldPath newPath : Path) (isDir : Bool)
  | objectAfterSync (path : Path)
  | attributes (path : Path)
  | parentListing (path : Path)
  deriving DecidableEq, Repr

/-- `invalidateAncestorListings`: from the directory up to the root. -/
def invalidateAncestorListings (dir : Path) : List Action :=
  dir.inits.reverse.flatMap fun d => [.delete d, .invalidate .listing d]

/-- `invalidateObjectPath`, which is all that `invalidateFileMutation` does to metadata. -/
def invalidateObjectPath (path : Path) : List Action :=
  .delete path :: .invalidate .lookup path :: invalidateAncestorListings path.dropLast

def invalidateDirectoryMutation (path : Path) : List Action :=
  .delete path :: .deletePrefix path :: .invalidate .lookup path :: .invalidatePrefix path ::
    invalidateAncestorListings path.dropLast

def invalidateRenameMutation (oldPath newPath : Path) (isDir : Bool) : List Action :=
  if isDir then invalidateDirectoryMutation oldPath ++ invalidateDirectoryMutation newPath
  else invalidateObjectPath oldPath ++ invalidateObjectPath newPath

def invalidateObjectAfterSync (path : Path) : List Action :=
  [.delete path, .invalidate .lookup path, .invalidate .listing path.dropLast,
    .unlessListed path.dropLast (path.getLast?.getD [])]

/-- `InvalidatePath` of the cache, which `UpdateAttributes` calls. -/
def invalidatePath (path : Path) : List Action :=
  .delete path :: if path = [] then [] else [.delete path.dropLast]

def invalidateParentListing (path : Path) : List Action := invalidateAncestorListings path.dropLast

def Routine.actions : Routine → List Action
  | .fileMutation p => invalidateObjectPath p
  | .directoryMutation p => invalidateDirectoryMutation p
  | .renameMutation p q isDir => invalidateRenameMutation p q isDir
  | .objectAfterSync p => invalidateObjectAfterSync p
  | .attributes p => invalidatePath p
  | .parentListing p => invalidateParentListing p

/-- The paths a routine is about: the path and its ancestors, and for a directory what is
below it. -/
def Routine.covers : Routine → Path → Prop
  | .fileMutation p, q => q <+: p
  | .directoryMutation p, q => q <+: p ∨ p <+: q
  | .renameMutation old new isDir, q =>
    q <+: old ∨ q <+: new ∨ isDir = true ∧ (old <+: q ∨ new <+: q)
  | .objectAfterSync p, q => q = p ∨ q = p.dropLast
  | .attributes p, q => q = p ∨ q = p.dropLast
  | .parentListing p, q => q <+: p.dropLast

instance (r : Routine) (q : Path) : Decidable (r.covers q) := by
  cases r <;> (unfold Routine.covers; infer_instance)

/-- An invalidation on its way: what it has done, what is left, and the directories whose
listing it left in the cache because the listing has the name. -/
structure Invalidation where
  routine : Routine
  began : Nat
  done : List Action
  todo : List Action
  kept : List Path
  deriving DecidableEq, Repr

/-- The invalidation has removed the entry of the path. -/
def Invalidation.removed (i : Invalidation) (q : Path) : Prop := ∃ a ∈ i.done, a.removes q = true

instance (i : Invalidation) (q : Path) : Decidable (i.removed q) := by
  unfold Invalidation.removed; infer_instance

structure State where
  now : Nat
  cache : Path → Option MetadataEntry
  fences : Kind → ListingFence
  calls : List Call
  invalidations : List Invalidation

/-! ## Steps -/

inductive Label
  | stat (path : Path)
  | statRoot
  | listDirectory (path : Path)
  | answer (call : Nat) (answer : Answer)
  | abandon (call : Nat)
  | store (call : Nat) (hit : Bool)
  | invalidate (routine : Routine)
  | act (invalidation : Nat) (hit : Bool)
  | evict (path : Path)
  deriving DecidableEq, Repr

namespace State

variable (s : State)

/-- A call begins its fence, and then its probes. -/
def call (kind : Kind) (path : Path) : State :=
  { s with
    now := s.now + 1
    fences := fun k => if k = kind then (s.fences k).begin path else s.fences k
    calls := s.calls ++ [⟨kind, path, s.now, (s.fences kind).current path, .probing⟩] }

def set (path : Path) (entry : MetadataEntry) : Path → Option MetadataEntry :=
  fun q => if q = path then some entry else s.cache q

/-- The root's attributes are made up, as of now, and stored without a fence. -/
def statRoot : State :=
  { s with now := s.now + 1, cache := s.set [] ⟨some s.now, true, false, none⟩ }

/-- The call leaves its fence. -/
def leave (k : Nat) (c : Call) (stage : Stage) : State :=
  { s with
    fences := fun kind => if kind = c.kind then (s.fences kind).finish c.path else s.fences kind
    calls := s.calls.set k { c with stage := stage } }

/-- The store has answered and the fence is checked. -/
def answer (k : Nat) (a : Answer) : Option State :=
  (s.calls[k]?).bind fun c =>
    if c.stage = .probing ∧ a.kind = c.kind then
      some (s.leave k c (if (s.fences c.kind).unchanged c.path c.generation then .checked a else .returned))
    else none

/-- The call fails, or its listing must not be cached: too many entries, or a pending delete
hidden. -/
def abandon (k : Nat) : Option State :=
  (s.calls[k]?).bind fun c => if c.stage = .probing then some (s.leave k c .returned) else none

/-- The stat that `SetDirEntries` keeps, if the entry has not expired. -/
def previous (path : Path) (hit : Bool) : Option Nat :=
  match s.cache path with
  | some e => if hit && !e.negative && e.isDir then e.stat else none
  | none => none

/-- `SetFileInfo` and `SetNegative` are one step.  `SetDirEntries` reads the entry first and
writes it then. -/
def store (k : Nat) (hit : Bool) : Option State :=
  (s.calls[k]?).bind fun c => match c.stage with
    | .checked (.fileInfo isDir) => some { s with
        cache := s.set c.path ⟨some c.began, isDir, false, none⟩
        calls := s.calls.set k { c with stage := .returned } }
    | .checked .negative => some { s with
        cache := s.set c.path ⟨some c.began, false, true, none⟩
        calls := s.calls.set k { c with stage := .returned } }
    | .checked (.entries names) => some { s with
        calls := s.calls.set k { c with stage := .merging names (s.previous c.path hit) } }
    | .merging names prev => some { s with
        cache := s.set c.path ⟨prev, true, false, some (c.began, names)⟩
        calls := s.calls.set k { c with stage := .returned } }
    | .probing | .returned => none

def invalidate (r : Routine) : State :=
  { s with now := s.now + 1, invalidations := s.invalidations ++ [⟨r, s.now, [], r.actions, []⟩] }

/-- `cachedListingHas`, if the entry has not expired. -/
def cachedListingHas (dir : Path) (name : Name) (hit : Bool) : Bool :=
  match s.cache dir with
  | some ⟨_, _, _, some (_, names)⟩ => hit && names.contains name
  | _ => false

/-- The invalidation after its next action. -/
def advance (i : Invalidation) (a : Action) (rest : List Action) (hit : Bool) : Invalidation :=
  match a with
  | .unlessListed dir name =>
    if s.cachedListingHas dir name hit then { i with todo := rest, kept := dir :: i.kept }
    else { i with todo := .delete dir :: rest }
  | a => { i with todo := rest, done := a :: i.done }

/-- An invalidation takes its next action. -/
def act (n : Nat) (hit : Bool) : Option State :=
  (s.invalidations[n]?).bind fun i => match i.todo with
    | [] => none
    | a :: rest => some { s with
        cache := fun q => if a.removes q then none else s.cache q
        fences := fun k => (s.fences k).invalidate (a.fences k)
        invalidations := s.invalidations.set n (s.advance i a rest hit) }

/-- An entry falls out of the cache. -/
def evict (path : Path) : State :=
  { s with cache := fun q => if q = path then none else s.cache q }

def next : Label → Option State
  | .stat path => if path = [] then none else some (s.call .lookup path)
  | .statRoot => some s.statRoot
  | .listDirectory path => some (s.call .listing path)
  | .answer k a => s.answer k a
  | .abandon k => s.abandon k
  | .store k hit => s.store k hit
  | .invalidate r => some (s.invalidate r)
  | .act n hit => s.act n hit
  | .evict path => some (s.evict path)

end State

/-- Nothing is cached, no call is in flight and nothing has been invalidated. -/
structure Starts (s : State) : Prop where
  cache : ∀ q, s.cache q = none
  fences : ∀ k p, s.fences k p = none
  calls : s.calls = []
  invalidations : s.invalidations = []

def metadataSystem : System State Label := computed Starts State.next

/-- An answer in the cache that an invalidation, which has returned, should have removed: its
probe began before the invalidation. -/
def Outlives (s : State) (q : Path) : Prop :=
  ∃ i ∈ s.invalidations, i.todo = [] ∧ i.routine.covers q ∧ q ∉ i.kept ∧
    ∃ e ∈ s.cache q, ∃ b ∈ e.began, b < i.began

instance (s : State) (q : Path) : Decidable (Outlives s q) := by
  unfold Outlives; infer_instance

/-- The check of the call's fence would fail. -/
def State.stale (s : State) (c : Call) : Prop := (s.fences c.kind).unchanged c.path c.generation = false

instance (s : State) (c : Call) : Decidable (s.stale c) := by
  unfold State.stale; infer_instance

/-- The call began no earlier than the invalidation, or the fence keeps its answer out of the
cache: it is invalidated, or the invalidation is going to do that. -/
def State.Stops (s : State) (i : Invalidation) (c : Call) : Prop :=
  i.began ≤ c.began ∨ s.stale c ∨ ∃ a ∈ i.todo, a.fences c.kind c.path = true

instance (s : State) (i : Invalidation) (c : Call) : Decidable (s.Stops i c) := by
  unfold State.Stops; infer_instance

/-- When an invalidation removes an entry, no call of the path is between its fence and the
cache, and the fence stops those that are still probing since before the invalidation.  No
such call checks its fence before the invalidation has got there. -/
def Clear (s : State) : Label → Prop
  | .act n _ => ∀ i ∈ s.invalidations[n]?, ∀ a ∈ i.todo.head?, ∀ c ∈ s.calls, a.removes c.path = true →
      c.stage = .returned ∨ c.stage = .probing ∧ s.Stops i c
  | .answer k _ => ∀ c ∈ s.calls[k]?, ∀ i ∈ s.invalidations, i.removed c.path → c.began < i.began →
      ∀ a ∈ i.todo, a.fences c.kind c.path = false
  | _ => True

instance (s : State) (e : Label) : Decidable (Clear s e) := by
  cases e <;> (unfold Clear; infer_instance)

end Bluestone.Metadata
