/-
# `Bluestone.Posix.ListingFence` — what a fence reports, over every interleaving

`listing_fence.go` by itself: lookups of any directories begin and end, and invalidations of
a directory or of everything with a prefix come between.  An entry goes with the last lookup
of its directory and takes its generation with it; while a lookup is in flight the entry
stays, and its generation is past the lookup's exactly when the lookup was disturbed.
-/
import Bluestone.Posix.MetadataCache

namespace Bluestone.Metadata

open Runs Paths Function

/-- A lookup in flight, with the generation that `begin` returned.  Whether its directory was
invalidated since is kept beside it; no step reads it. -/
structure Lookup where
  generation : Nat
  disturbed : Bool
  deriving DecidableEq

structure Fenced where
  fence : ListingFence
  lookups : Path → List Lookup

inductive FenceEvent
  | begin (dir : Path)
  | finish (dir : Path) (lookup : Lookup)
  | invalidate (dir : Path)
  | invalidatePrefix (start : List Char)

/-- An invalidation of the paths given. -/
def Fenced.invalidate (s : Fenced) (paths : Path → Bool) : Fenced :=
  ⟨s.fence.invalidate paths, fun dir => if paths dir then (s.lookups dir).map ({ · with disturbed := true })
    else s.lookups dir⟩

/-- A lookup ends once, with its own generation. -/
def fenceSystem : System Fenced FenceEvent where
  init s := s = ⟨fun _ => none, fun _ => []⟩
  step s e s' := match e with
    | .begin dir => s' = ⟨s.fence.begin dir, update s.lookups dir (⟨s.fence.current dir, false⟩ :: s.lookups dir)⟩
    | .finish dir l => l ∈ s.lookups dir ∧
      s' = ⟨s.fence.finish dir, update s.lookups dir ((s.lookups dir).erase l)⟩
    | .invalidate dir => s' = s.invalidate (· = dir)
    | .invalidatePrefix start => s' = s.invalidate fun dir => start.isPrefixOf (render dir)

/-- What an entry says of the lookups of its directory. -/
def Tells (entry : Option FenceEntry) (lookups : List Lookup) : Prop :=
  ∃ g, entry = (if lookups = [] then none else some ⟨lookups.length, g⟩) ∧
    ∀ l ∈ lookups, l.generation ≤ g ∧ (l.disturbed = true ↔ l.generation < g)

variable {s s' : Fenced} {dir : Path}

theorem tells_begin (h : Tells (s.fence dir) (s.lookups dir)) :
    Tells (s.fence.begin dir dir) (⟨s.fence.current dir, false⟩ :: s.lookups dir) := by
  obtain ⟨g, he, hg⟩ := h
  by_cases hnil : s.lookups dir = []
  · rw [if_pos hnil] at he
    refine ⟨0, by simp [ListingFence.begin, he, hnil], ?_⟩
    simp [hnil, ListingFence.current, he]
  · rw [if_neg hnil] at he
    refine ⟨g, by simp [ListingFence.begin, he], List.forall_mem_cons.2 ⟨?_, hg⟩⟩
    simp [ListingFence.current, he]

theorem tells_finish (h : Tells (s.fence dir) (s.lookups dir)) {l : Lookup} (hl : l ∈ s.lookups dir) :
    Tells (s.fence.finish dir dir) ((s.lookups dir).erase l) := by
  obtain ⟨g, he, hg⟩ := h
  rw [if_neg (List.ne_nil_of_mem hl)] at he
  have hlen := List.length_erase_of_mem hl
  refine ⟨g, ?_, fun k hk => hg k (List.mem_of_mem_erase hk)⟩
  by_cases hnil : (s.lookups dir).erase l = []
  · have hzero : (s.lookups dir).length - 1 = 0 := by rw [← hlen, hnil, List.length_nil]
    simp [ListingFence.finish, he, hnil, hzero]
  · have hne : (s.lookups dir).length - 1 ≠ 0 := by rwa [← hlen, Ne, List.length_eq_zero_iff]
    simp only [ListingFence.finish, he, if_neg hnil, if_neg hne, hlen, if_true]

theorem tells_invalidate (h : Tells (s.fence dir) (s.lookups dir)) (paths : Path → Bool) :
    Tells ((s.invalidate paths).fence dir) ((s.invalidate paths).lookups dir) := by
  obtain ⟨g, he, hg⟩ := h
  by_cases hp : paths dir
  · refine ⟨g + 1, ?_, ?_⟩
    · by_cases hnil : s.lookups dir = [] <;> simp [Fenced.invalidate, ListingFence.invalidate, hp, he, hnil]
    · simp only [Fenced.invalidate, hp, if_true, List.forall_mem_map]
      exact fun l hl => ⟨Nat.le_succ_of_le (hg l hl).1, iff_of_true trivial (Nat.lt_succ_of_le (hg l hl).1)⟩
  · simp only [Fenced.invalidate, ListingFence.invalidate, hp, if_false, Bool.false_eq_true]
    exact ⟨g, he, hg⟩

theorem tells_of_reach (h : Reach fenceSystem always s) (dir : Path) : Tells (s.fence dir) (s.lookups dir) := by
  induction h generalizing dir with
  | init hi =>
    subst hi
    exact ⟨0, rfl, nofun⟩
  | @step s s' e _ _ hs ih =>
    cases e with
    | begin d =>
      subst hs
      by_cases hdir : dir = d
      · subst hdir
        simpa using tells_begin (ih dir)
      · simpa [hdir, ListingFence.begin] using ih dir
    | finish d l =>
      obtain ⟨hl, rfl⟩ := hs
      by_cases hdir : dir = d
      · subst hdir
        simpa using tells_finish (ih dir) hl
      · simpa [hdir, ListingFence.finish] using ih dir
    | invalidate d | invalidatePrefix start => exact hs ▸ tells_invalidate (ih dir) _

/-- **`end` answers true exactly for the lookups no invalidation disturbed**, and a directory
has an entry exactly while a lookup of it is in flight. -/
theorem fence_reports_undisturbed (h : Reach fenceSystem always s) (dir : Path) :
    (∀ l ∈ s.lookups dir, s.fence.unchanged dir l.generation ↔ l.disturbed = false) ∧
    ((s.fence dir).isSome ↔ ∃ l, l ∈ s.lookups dir) := by
  obtain ⟨g, he, hg⟩ := tells_of_reach h dir
  constructor
  · intro l hl
    obtain ⟨hle, hiff⟩ := hg l hl
    rw [if_neg (List.ne_nil_of_mem hl)] at he
    rw [ListingFence.unchanged, he, ← Bool.not_eq_true, hiff, beq_iff_eq]
    dsimp only
    omega
  · rw [he, ← List.isEmpty_eq_false_iff_exists_mem]
    by_cases hnil : s.lookups dir = [] <;> simp [hnil]

/-- A lookup of the root is disturbed by an invalidation of everything, and one that
begins after it is not. -/
theorem root_lookup_disturbed : ∃ s, Reach fenceSystem always s ∧ (⟨0, true⟩ : Lookup) ∈ s.lookups [] ∧
    (⟨1, false⟩ : Lookup) ∈ s.lookups [] ∧ s.fence.unchanged [] 0 ≠ true ∧
    s.fence.unchanged [] 1 = true := by
  have h : Reach fenceSystem always ⟨fun _ => none, fun _ => []⟩ := .init rfl
  have h := h.next (e := FenceEvent.begin []) rfl
  have h := h.next (e := FenceEvent.invalidatePrefix []) rfl
  have h := h.next (e := FenceEvent.begin []) rfl
  obtain ⟨hreports, -⟩ := fence_reports_undisturbed h []
  have hfirst := hreports ⟨0, true⟩ (List.Mem.tail _ (List.Mem.head _))
  have hsecond := hreports ⟨1, false⟩ (List.Mem.head _)
  refine ⟨_, h, List.Mem.tail _ (List.Mem.head _), List.Mem.head _, ?_, hsecond.2 rfl⟩
  rw [Ne, hfirst]
  decide

end Bluestone.Metadata
