/-
# `Bluestone.Posix.Refresh` — conflicts that the refresh scanner records

The scanner of `internal/posix/object_refresh.go` lists the bucket from time to time and
compares the listing with the one before.  A key that differs and whose path is dirty becomes
a conflict: `RecordConflict` of `internal/staging/manager.go` takes the staged file away.
This gateway's own calls and changes from outside go on meanwhile.

The history says, for each key, who has changed its object since the scan before listed it,
and `Exact` for which changes a conflict should be recorded.

**What goes wrong.**  The scanner does not know which changes are the gateway's own: a file
uploaded and written again between two scans is a conflict with itself.  And the new listing
becomes the one to compare with whether or not the conflict could be recorded.

A page of the listing is read at one moment; which keys it covers is left open.
-/
import Bluestone.Library.Computed
import Bluestone.Posix.Listing

namespace Bluestone.Refresh

open Runs Paths
open Option (map_eq_some_iff bind_eq_some_iff)
open Posix (Key toObjectKey)

abbrev Path := List Name

/-- `ToFSPath`, with no prefix configured for keys. -/
def toFSPath (key : Key) : Path := clean key

/-! ## The bucket, the dirty index and the scanner -/

structure ObjectSignature where
  size : Int
  etag : List Char
  lastModified : Int
  deriving DecidableEq, Repr

/-- Who changed an object. -/
inductive By
  | gateway
  | outside
  deriving DecidableEq, Repr

/-- An upload of a path, with the generation of its dirty entry when it began. -/
structure Upload where
  path : Path
  snapshotGeneration : Nat
  deriving DecidableEq, Repr

/-- A conflict: the path, the key whose change was found, what the listing had of it, and who
had changed the path's own object since the scan before. -/
structure Conflict where
  path : Path
  key : Key
  observed : Option ObjectSignature
  changes : List By
  deriving DecidableEq, Repr

/-- `RecordConflict` of a key: about to be called, and past its look at the dirty index. -/
inductive Recording
  | none
  | calling (key : Key)
  | preserving (key : Key)
  deriving DecidableEq, Repr

def Recording.key : Recording → Option Key
  | .none => Option.none
  | .calling key | .preserving key => some key

/-- A scan under way: what is listed, and then the keys that differ and those left to do. -/
structure Scan where
  listed : Key → Bool
  current : Key → Option ObjectSignature
  comparing : Bool
  changedKeys : List Key
  todo : List Key
  recording : Recording
  /-- who changed the object from the scan before's listing of it to this one's -/
  seen : Key → List By
  /-- and who has since -/
  after : Key → List By
  /-- the keys changed from outside whose path was dirty and whose conflict was not recorded -/
  owes : List Key

structure State where
  bucket : Key → Option ObjectSignature
  /-- every key that has had an object -/
  keys : List Key
  generation : Nat
  /-- the generations of the dirty entries -/
  dirty : Path → Option Nat
  conflicted : Path → Bool
  uploads : List Upload
  objects : Key → Option ObjectSignature
  observed : Bool
  scan : Option Scan
  conflicts : List Conflict
  /-- who has changed the object since the last scan listed it -/
  since : Key → List By
  /-- what the last scan owes -/
  owed : List Key

/-- A key whose conflict is not recorded is done, and owed if the change was from outside. -/
def Scan.skip (sc : Scan) (key : Key) : Scan :=
  { sc with recording := .none, owes := if .outside ∈ sc.seen key then key :: sc.owes else sc.owes }

/-! ## Steps -/

inductive Label
  | markDirty (path : Path)
  | forgetDirty (path : Path)
  | rekey (oldPath newPath : Path)
  | upload (path : Path)
  | put (upload : Nat) (signature : ObjectSignature)
  | markCleanIfUnchanged (upload : Nat)
  | uploadFails (upload : Nat)
  | change (who : By) (key : Key) (signature : Option ObjectSignature)
  | scan
  | page (region : Key → Bool)
  | listFails
  | lastPage
  | check (key : Key)
  | recordConflict
  | recordFails
  | markConflicted
  | finish

namespace State

variable (base : Key) (s : State)

/-- Listed under the prefix that the scanner is configured with. -/
def scanned (key : Key) : Bool := base.isPrefixOf key && key != []

/-- The object of the key is replaced or removed. -/
def change (who : By) (key : Key) (signature : Option ObjectSignature) : State :=
  { s with
    bucket := fun k => if k = key then signature else s.bucket k
    keys := if s.keys.contains key then s.keys else key :: s.keys
    since := fun k => if k = key then who :: s.since k else s.since k
    scan := s.scan.map fun sc =>
      { sc with after := fun k => if k = key ∧ sc.listed k then who :: sc.after k else sc.after k } }

/-- `MarkDirty`, by a write: the entry has a new generation.  A conflicted path is refused. -/
def markDirty (path : Path) : State :=
  if s.conflicted path then s
  else { s with
    generation := s.generation + 1
    dirty := fun p => if p = path then some (s.generation + 1) else s.dirty p }

/-- `ForgetDirty` and the other ways in which an entry goes, by a delete or a discard. -/
def forgetDirty (path : Path) : State := { s with dirty := fun p => if p = path then none else s.dirty p }

/-- `Rekey`, by a rename of a staged file. -/
def rekey (oldPath newPath : Path) : State :=
  { s with
    generation := s.generation + 1
    dirty := fun p => if p = newPath then some (s.generation + 1) else if p = oldPath then none else s.dirty p }

def upload (path : Path) : State := { s with uploads := s.uploads ++ [⟨path, (s.dirty path).getD 0⟩] }

/-- An attempt of the upload reaches the bucket. -/
def put (u : Nat) (signature : ObjectSignature) : Option State :=
  (s.uploads[u]?).map fun up => s.change .gateway (toObjectKey up.path) (some signature)

/-- The upload is over; the path is clean unless it has changed meanwhile. -/
def markCleanIfUnchanged (u : Nat) : Option State :=
  (s.uploads[u]?).map fun up => { s with
    uploads := s.uploads.eraseIdx u
    dirty := fun p => if p = up.path ∧ s.dirty p = some up.snapshotGeneration then none else s.dirty p }

def uploadFails (u : Nat) : Option State :=
  (s.uploads[u]?).map fun _ => { s with uploads := s.uploads.eraseIdx u }

/-- `runOnce` asks for the listing. -/
def beginScan : Option State :=
  if s.scan.isNone then
    some { s with
      scan := some ⟨fun _ => false, fun _ => none, false, [], [], .none, fun _ => [], fun _ => [], []⟩ }
  else none

/-- A page: the keys it covers, as the bucket has them now. -/
def read (sc : Scan) (region : Key → Bool) : Scan :=
  { sc with
    listed := fun k => sc.listed k || region k
    current := fun k => if region k && !sc.listed k && scanned base k then s.bucket k else sc.current k
    seen := fun k => if region k && !sc.listed k then s.since k else sc.seen k }

def page (region : Key → Bool) : Option State :=
  s.scan.bind fun sc => if sc.comparing then none else some { s with scan := some (s.read base sc region) }

def listFails : Option State :=
  s.scan.bind fun sc => if sc.comparing then none else some { s with scan := none }

/-- The keys that differ from the listing before, but for those of the root. -/
def changedKeys (current : Key → Option ObjectSignature) : List Key :=
  if s.observed then s.keys.filter fun k => current k ≠ s.objects k ∧ toFSPath k ≠ [] else []

/-- The listing is complete, and compared with the one before. -/
def lastPage : Option State :=
  s.scan.bind fun sc =>
    if sc.comparing then none
    else
      let read := s.read base sc fun _ => true
      some { s with
        scan := some { read with
          comparing := true
          changedKeys := s.changedKeys read.current
          todo := s.changedKeys read.current } }

/-- `isDirty` of a key that differs.  A clean path is reported and done. -/
def check (key : Key) : Option State :=
  s.scan.bind fun sc =>
    if sc.todo.contains key ∧ sc.recording = .none then
      some { s with
        scan := some { sc with
          todo := sc.todo.filter (· ≠ key)
          recording := if (s.dirty (toFSPath key)).isSome then .calling key else .none } }
    else none

/-- `RecordConflict` looks whether the path is still dirty, and answers no error if not. -/
def recordConflict : Option State :=
  s.scan.bind fun sc => match sc.recording with
    | .calling key => some { s with
        scan := some (if (s.dirty (toFSPath key)).isSome then { sc with recording := .preserving key } else sc.skip key) }
    | .none | .preserving _ => none

/-- The staged file could not be flushed, copied, recorded or removed. -/
def recordFails : Option State :=
  s.scan.bind fun sc => match sc.recording with
    | .preserving key => some { s with scan := some (sc.skip key) }
    | .none | .calling _ => none

/-- `MarkConflicted`, and `RecordConflict` returns. -/
def markConflicted : Option State :=
  s.scan.bind fun sc => match sc.recording with
    | .preserving key =>
      let path := toFSPath key
      some { s with
        dirty := fun p => if p = path then none else s.dirty p
        conflicted := fun p => if p = path then true else s.conflicted p
        conflicts := s.conflicts ++ [⟨path, key, sc.current key, sc.seen (toObjectKey path)⟩]
        scan := some { sc with recording := .none } }
    | .none | .calling _ => none

/-- The listing becomes the one to compare with. -/
def finish : Option State :=
  s.scan.bind fun sc =>
    if sc.comparing ∧ sc.todo = [] ∧ sc.recording = .none then
      some { s with
        objects := sc.current
        observed := true
        since := sc.after
        owed := sc.owes
        scan := none }
    else none

def next : Label → Option State
  | .markDirty path => some (s.markDirty path)
  | .forgetDirty path => some (s.forgetDirty path)
  | .rekey oldPath newPath => some (s.rekey oldPath newPath)
  | .upload path => some (s.upload path)
  | .put u signature => s.put u signature
  | .markCleanIfUnchanged u => s.markCleanIfUnchanged u
  | .uploadFails u => s.uploadFails u
  | .change who key signature => some (s.change who key signature)
  | .scan => s.beginScan
  | .page region => s.page base region
  | .listFails => s.listFails
  | .lastPage => s.lastPage base
  | .check key => s.check key
  | .recordConflict => s.recordConflict
  | .recordFails => s.recordFails
  | .markConflicted => s.markConflicted
  | .finish => s.finish

end State

/-- The scanner has not run, and no conflict is known; the rest is as recovery left it. -/
structure Starts (s : State) : Prop where
  keys : ∀ k, s.bucket k ≠ none → k ∈ s.keys
  objects : ∀ k, s.objects k = none
  observed : s.observed = false
  scan : s.scan = none
  conflicts : s.conflicts = []
  owed : s.owed = []

def refreshSystem (base : Key) : System State Label := computed Starts (State.next base)

/-- A conflict is recorded only if something else than this gateway changed the path's object
since the scan before, and what that scan saw changed from outside at a dirty path and did not
record differs again. -/
structure Exact (s : State) : Prop where
  recorded : ∀ c ∈ s.conflicts, .outside ∈ c.changes
  reported : ∀ sc ∈ s.scan, sc.comparing = true → ∀ k ∈ s.owed, k ∈ sc.changedKeys

/-- A scan that finds a dirty path behind a key finds its own object's key, unchanged by this
gateway since the scan before; the path is still dirty when its conflict is recorded, and
recording it does not fail. -/
def Apart (s : State) : Label → Prop
  | .check key => ∀ sc ∈ s.scan, (s.dirty (toFSPath key)).isSome = true →
      toObjectKey (toFSPath key) = key ∧ .gateway ∉ sc.seen key
  | .recordConflict => ∀ sc ∈ s.scan, ∀ key ∈ sc.recording.key, (s.dirty (toFSPath key)).isSome = true
  | .recordFails => False
  | _ => True

instance (s : State) (l : Label) : Decidable (Apart s l) := by
  cases l <;> (unfold Apart; infer_instance)

/-! ## The invariant -/

/-- What a scan under way knows.  Where nobody has changed an object, listings agree. -/
structure ScanOk (base : Key) (s : State) (sc : Scan) : Prop where
  current : ∀ k, State.scanned base k = true → sc.listed k = true → sc.after k = [] → s.bucket k = sc.current k
  same : s.observed = true → ∀ k, State.scanned base k = true → sc.listed k = true → sc.seen k = [] →
    sc.current k = s.objects k
  absent : ∀ k, State.scanned base k = false → sc.current k = none
  complete : sc.comparing = true → ∀ k, sc.listed k = true
  changed : ∀ k ∈ sc.changedKeys, sc.comparing = true ∧ s.observed = true ∧ sc.current k ≠ s.objects k
  todo : ∀ k ∈ sc.todo, k ∈ sc.changedKeys
  recording : ∀ k ∈ sc.recording.key, k ∈ sc.changedKeys ∧ .outside ∈ sc.seen k ∧ toObjectKey (toFSPath k) = k
  owes : sc.owes = []

structure Inv (base : Key) (s : State) : Prop where
  same : s.observed = true → ∀ k, State.scanned base k = true → s.since k = [] → s.bucket k = s.objects k
  absent : ∀ k, State.scanned base k = false → s.objects k = none
  scan : ∀ sc ∈ s.scan, ScanOk base s sc
  conflicts : ∀ c ∈ s.conflicts, .outside ∈ c.changes
  owed : s.owed = []

section Steps

variable {base : Key} {s s' : State} {sc : Scan}

theorem ScanOk.seen_ne_nil (h : ScanOk base s sc) (habsent : ∀ k, State.scanned base k = false → s.objects k = none)
    {k : Key} (hk : k ∈ sc.changedKeys) : sc.seen k ≠ [] := by
  obtain ⟨hcomp, hobs, hne⟩ := h.changed k hk
  intro hseen
  cases hscanned : State.scanned base k with
  | false => exact hne ((h.absent k hscanned).trans (habsent k hscanned).symm)
  | true => exact hne (h.same hobs k hscanned (h.complete hcomp k) hseen)

theorem outside_mem_of_gateway_notMem {l : List By} (hne : l ≠ []) (h : By.gateway ∉ l) : By.outside ∈ l := by
  cases l with
  | nil => exact absurd rfl hne
  | cons who rest =>
    cases who with
    | outside => exact List.mem_cons_self ..
    | gateway => exact absurd List.mem_cons_self h

theorem ScanOk.changedKeys_of_listing (h : ScanOk base s sc) (hcomp : sc.comparing = false) (k : Key) :
    k ∉ sc.changedKeys := by
  intro hk
  have hc := (h.changed k hk).1
  rw [hcomp] at hc
  cases hc

theorem ScanOk.congr (h : ScanOk base s sc) (hbucket : s'.bucket = s.bucket) (hobjects : s'.objects = s.objects)
    (hobserved : s'.observed = s.observed) : ScanOk base s' sc := by
  constructor
  case current => exact hbucket ▸ h.current
  case same => exact hobserved ▸ hobjects ▸ h.same
  case changed => exact hobserved ▸ hobjects ▸ h.changed
  case absent => exact h.absent
  case complete => exact h.complete
  case todo => exact h.todo
  case recording => exact h.recording
  case owes => exact h.owes

theorem Inv.staged (h : Inv base s) (generation : Nat) (dirty : Path → Option Nat) (uploads : List Upload) :
    Inv base { s with generation := generation, dirty := dirty, uploads := uploads } :=
  ⟨h.same, h.absent, fun sc hsc => (h.scan sc hsc).congr rfl rfl rfl, h.conflicts, h.owed⟩

theorem Inv.setScan (h : Inv base s) (hsc : ScanOk base s sc) : Inv base { s with scan := some sc } := by
  refine ⟨h.same, h.absent, fun sc' hsc' => ?_, h.conflicts, h.owed⟩
  obtain rfl := Option.some.inj hsc'
  exact hsc.congr rfl rfl rfl

theorem Inv.change (h : Inv base s) (who : By) (key : Key) (signature : Option ObjectSignature) :
    Inv base (s.change who key signature) := by
  constructor
  case same =>
      intro hobs k hscanned hsince
      simp only [State.change] at hsince ⊢
      split at hsince
      · cases hsince
      · rename_i hne
        rw [if_neg hne]
        exact h.same hobs k hscanned hsince
  case absent => exact h.absent
  case conflicts => exact h.conflicts
  case owed => exact h.owed
  case scan =>
      intro sc' hsc'
      obtain ⟨sc, hsc, rfl⟩ := map_eq_some_iff.1 hsc'
      have hok := h.scan sc hsc
      refine ⟨?_, hok.same, hok.absent, hok.complete, hok.changed, hok.todo, hok.recording, hok.owes⟩
      intro k hscanned hlisted hafter
      simp only [State.change] at hafter ⊢
      split at hafter
      · cases hafter
      · rename_i hnot
        rw [if_neg fun heq => hnot ⟨heq, hlisted⟩]
        exact hok.current k hscanned hlisted hafter

/-! ### Listing -/

theorem Inv.beginScan (h : Inv base s) (hs : s.beginScan = some s') : Inv base s' := by
  rw [State.beginScan] at hs
  split at hs
  · cases hs
    refine h.setScan ?_
    constructor <;> simp [Recording.key]
  · cases hs

theorem listed_of_not_fresh {region : Key → Bool} {k : Key} (hlisted : (sc.listed k || region k))
    (hfresh : ¬ (region k && !sc.listed k)) : sc.listed k := by
  cases hl : sc.listed k with
  | true => rfl
  | false =>
    rw [hl, Bool.false_or] at hlisted
    exact absurd (by simp [hlisted, hl]) hfresh

theorem Inv.read (h : Inv base s) (hsc : s.scan = some sc) (hcomp : sc.comparing = false) (region : Key → Bool) :
    ScanOk base s (s.read base sc region) := by
  have hok := h.scan sc hsc
  constructor
  case current =>
      intro k hscanned hlisted hafter
      simp only [State.read, hscanned, Bool.and_true] at hlisted hafter ⊢
      split
      · rfl
      · rename_i hfresh
        exact hok.current k hscanned (listed_of_not_fresh hlisted hfresh) hafter
  case same =>
      intro hobs k hscanned hlisted hseen
      simp only [State.read, hscanned, Bool.and_true] at hlisted hseen ⊢
      split at hseen
      · rename_i hfresh
        rw [if_pos hfresh]
        exact h.same hobs k hscanned hseen
      · rename_i hfresh
        rw [if_neg hfresh]
        exact hok.same hobs k hscanned (listed_of_not_fresh hlisted hfresh) hseen
  case absent =>
      intro k hscanned
      simp only [State.read, hscanned, Bool.and_false, Bool.false_eq_true, if_false]
      exact hok.absent k hscanned
  case complete =>
      intro hc
      rw [State.read, hcomp] at hc
      cases hc
  case changed =>
      intro k hk
      exact absurd hk (hok.changedKeys_of_listing hcomp k)
  case todo => exact hok.todo
  case recording =>
      intro k hk
      exact absurd (hok.recording k hk).1 (hok.changedKeys_of_listing hcomp k)
  case owes => exact hok.owes

theorem Inv.page (h : Inv base s) {region : Key → Bool} (hs : s.page base region = some s') : Inv base s' := by
  obtain ⟨sc, hsc, hs⟩ := bind_eq_some_iff.1 hs
  split at hs
  · cases hs
  · rename_i hcomp
    cases hs
    exact h.setScan (h.read hsc (by simpa using hcomp) region)

theorem Inv.listFails (h : Inv base s) (hs : s.listFails = some s') : Inv base s' := by
  obtain ⟨sc, -, hs⟩ := bind_eq_some_iff.1 hs
  split at hs
  · cases hs
  · cases hs
    exact ⟨h.same, h.absent, by simp, h.conflicts, h.owed⟩

theorem mem_changedKeys {current : Key → Option ObjectSignature} {k : Key} (hk : k ∈ s.changedKeys current) :
    s.observed ∧ current k ≠ s.objects k := by
  rw [State.changedKeys] at hk
  split at hk
  · rename_i hobs
    have hdiff := of_decide_eq_true (List.mem_filter.1 hk).2
    exact ⟨hobs, hdiff.1⟩
  · cases hk

theorem Inv.lastPage (h : Inv base s) (hs : s.lastPage base = some s') : Inv base s' := by
  obtain ⟨sc, hsc, hs⟩ := bind_eq_some_iff.1 hs
  split at hs
  · cases hs
  · rename_i hcomp
    have hcomp : sc.comparing = false := by simpa using hcomp
    have hread := h.read hsc hcomp fun _ => true
    cases hs
    refine h.setScan ⟨hread.current, hread.same, hread.absent, ?_, ?_, fun k hk => hk, ?_, hread.owes⟩
    · intro _ k
      simp [State.read]
    · intro k hk
      exact ⟨rfl, mem_changedKeys hk⟩
    · intro k hk
      exact absurd (hread.recording k hk).1 (hread.changedKeys_of_listing hcomp k)

/-! ### Comparing -/

theorem Inv.check (h : Inv base s) {key : Key} (hapart : Apart s (.check key)) (hs : s.check key = some s') :
    Inv base s' := by
  obtain ⟨sc, hsc, hs⟩ := bind_eq_some_iff.1 hs
  have hok := h.scan sc hsc
  split at hs
  · rename_i hkey
    cases hs
    have hmem := hok.todo key (by simpa using hkey.1)
    refine h.setScan ⟨hok.current, hok.same, hok.absent, hok.complete, hok.changed, ?_, ?_, hok.owes⟩
    · intro k hk
      exact hok.todo k (List.mem_filter.1 hk).1
    · intro k hk
      split at hk
      · rename_i hdirty
        obtain rfl : key = k := Option.some.inj hk
        obtain ⟨hcanonical, hgateway⟩ := hapart sc hsc hdirty
        exact ⟨hmem, outside_mem_of_gateway_notMem (hok.seen_ne_nil h.absent hmem) hgateway, hcanonical⟩
      · cases hk
  · cases hs

theorem Inv.recordConflict (h : Inv base s) (hapart : Apart s .recordConflict) (hs : s.recordConflict = some s') :
    Inv base s' := by
  obtain ⟨sc, hsc, hs⟩ := bind_eq_some_iff.1 hs
  have hok := h.scan sc hsc
  split at hs
  · rename_i key hcall
    have hkey : key ∈ sc.recording.key := by rw [hcall]; rfl
    rw [if_pos (hapart sc hsc key hkey)] at hs
    cases hs
    refine h.setScan ⟨hok.current, hok.same, hok.absent, hok.complete, hok.changed, hok.todo, ?_, hok.owes⟩
    intro k hk
    obtain rfl : key = k := Option.some.inj hk
    exact hok.recording key hkey
  all_goals cases hs

theorem Inv.markConflicted (h : Inv base s) (hs : s.markConflicted = some s') : Inv base s' := by
  obtain ⟨sc, hsc, hs⟩ := bind_eq_some_iff.1 hs
  have hok := h.scan sc hsc
  split at hs
  · rename_i key hpres
    cases hs
    obtain ⟨-, houtside, hcanonical⟩ := hok.recording key (by rw [hpres]; rfl)
    have hdone : ScanOk base s { sc with recording := .none } :=
      ⟨hok.current, hok.same, hok.absent, hok.complete, hok.changed, hok.todo, by simp [Recording.key], hok.owes⟩
    refine ⟨h.same, h.absent, fun sc' hsc' => ?_, ?_, h.owed⟩
    · obtain rfl := Option.some.inj hsc'
      exact hdone.congr rfl rfl rfl
    · intro c hc
      rcases List.mem_append.1 hc with hc | hc
      · exact h.conflicts c hc
      · obtain rfl := List.mem_singleton.1 hc
        rw [hcanonical]
        exact houtside
  all_goals cases hs

theorem Inv.finish (h : Inv base s) (hs : s.finish = some s') : Inv base s' := by
  obtain ⟨sc, hsc, hs⟩ := bind_eq_some_iff.1 hs
  have hok := h.scan sc hsc
  split at hs
  · rename_i hdone
    cases hs
    refine ⟨?_, hok.absent, by simp, h.conflicts, hok.owes⟩
    intro _ k hscanned hsince
    exact hok.current k hscanned (hok.complete hdone.1 k) hsince
  · cases hs

end Steps

theorem Inv.start {base : Key} {s : State} (h : Starts s) : Inv base s :=
  ⟨by simp [h.observed], fun k _ => h.objects k, by simp [h.scan], by simp [h.conflicts], h.owed⟩

theorem Inv.next {base : Key} {s s' : State} {l : Label} (h : Inv base s) (hapart : Apart s l)
    (hs : s.next base l = some s') : Inv base s' := by
  cases l with
  | markDirty path =>
    cases hs
    rw [State.markDirty]
    split
    · exact h
    · exact h.staged ..
  | forgetDirty path | rekey oldPath newPath | upload path =>
    cases hs
    exact h.staged ..
  | put u signature =>
    obtain ⟨up, -, rfl⟩ := map_eq_some_iff.1 hs
    exact h.change ..
  | markCleanIfUnchanged u | uploadFails u =>
    obtain ⟨up, -, rfl⟩ := map_eq_some_iff.1 hs
    exact h.staged ..
  | change who key signature =>
    cases hs
    exact h.change ..
  | scan => exact h.beginScan hs
  | page region => exact h.page hs
  | listFails => exact h.listFails hs
  | lastPage => exact h.lastPage hs
  | check key => exact h.check hapart hs
  | recordConflict => exact h.recordConflict hapart hs
  | recordFails => exact hapart.elim
  | markConflicted => exact h.markConflicted hs
  | finish => exact h.finish hs

/-- In a run in which the gateway's own changes stay away from what the scanner compares, and
conflicts can be recorded, the scanner finds exactly the changes from outside. -/
theorem refresh_finds_outside_changes {base : Key} {s : State} (h : Reach (refreshSystem base) Apart s) :
    Exact s := by
  have hinv : Inv base s := h.invariant (fun _ => Inv.start) fun _ _ _ hi hok hs => hi.next hok hs
  refine ⟨hinv.conflicts, fun sc _ _ k hk => ?_⟩
  rw [hinv.owed] at hk
  cases hk

/-! ## Runs -/

def State.fresh : State :=
  ⟨fun _ => none, [], 0, fun _ => none, fun _ => false, [], fun _ => none, false, none, [], fun _ => [], []⟩

theorem State.fresh_starts : Starts State.fresh := ⟨fun _ h => absurd rfl h, fun _ => rfl, rfl, rfl, rfl, rfl⟩

/-- A scan that finds nothing changed. -/
def quietScan : List Label := [.scan, .lastPage, .finish]

/-- A dirty file is changed from outside, and the scan records it. -/
def outsideRun : List Label :=
  quietScan ++ [.markDirty [['f']], .change .outside ['f'] (some ⟨1, ['e'], 7⟩), .scan, .lastPage, .check ['f'],
    .recordConflict, .markConflicted, .finish]

theorem outside_change_recorded : ∃ s : State,
    (∃ c ∈ s.conflicts, c.path = [['f']] ∧ c.observed = some ⟨1, ['e'], 7⟩) ∧ Exact s := by
  have hrun : (runFrom (State.next []) Apart State.fresh outsideRun).any
      (fun s => decide (∃ c ∈ s.conflicts, c.path = [['f']] ∧ c.observed = some ⟨1, ['e'], 7⟩)) := by decide
  obtain ⟨s, hs, hp⟩ := exists_reach State.fresh_starts hrun
  exact ⟨s, of_decide_eq_true hp, refresh_finds_outside_changes hs⟩

/-- A file is uploaded after a scan and written again before the next. -/
def uploadedBetween : List Label :=
  quietScan ++ [.markDirty [['f']], .upload [['f']], .put 0 ⟨1, ['e'], 7⟩, .markCleanIfUnchanged 0, .markDirty [['f']],
    .scan, .lastPage, .check ['f'], .recordConflict, .markConflicted]

/-- The conflict of a change from outside cannot be recorded; the next scan finds nothing. -/
def recordingFailed : List Label :=
  quietScan ++ [.markDirty [['f']], .change .outside ['f'] (some ⟨1, ['e'], 7⟩), .scan, .lastPage, .check ['f'],
    .recordConflict, .recordFails, .finish, .scan, .lastPage]

/-- The only change is the gateway's own upload, and the path is a conflict; and a change from
outside that is neither recorded nor found again. -/
theorem own_upload_conflicts : (∃ s, Reach (refreshSystem []) always s ∧
    ∃ c ∈ s.conflicts, c.path = [['f']] ∧ c.changes = [.gateway]) ∧
    ∃ s, Reach (refreshSystem []) always s ∧ s.conflicts = [] ∧ ∃ sc ∈ s.scan, sc.comparing = true ∧
    ∃ k ∈ s.owed, k ∉ sc.changedKeys := by
  have hown : (runFrom (State.next []) always State.fresh uploadedBetween).any
      (fun s => decide (∃ c ∈ s.conflicts, c.path = [['f']] ∧ c.changes = [.gateway])) := by decide
  have hlost : (runFrom (State.next []) always State.fresh recordingFailed).any
      (fun s => decide (s.conflicts = [] ∧
        ∃ sc ∈ s.scan, sc.comparing ∧ ∃ k ∈ s.owed, k ∉ sc.changedKeys)) := by decide
  constructor
  · obtain ⟨s, hs, hp⟩ := exists_reach State.fresh_starts hown
    exact ⟨s, hs, of_decide_eq_true hp⟩
  · obtain ⟨s, hs, hp⟩ := exists_reach State.fresh_starts hlost
    exact ⟨s, hs, of_decide_eq_true hp⟩

end Bluestone.Refresh
